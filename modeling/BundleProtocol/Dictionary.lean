import BundleProtocol.DeliverySpec
import BundleProtocol.EidParts
import BundleProtocol.EidRoles

/-! # Endpoint ids in the dictionary of a new bundle

`Send` writes the parts of the source and of the destination behind those of four default
endpoint ids and keeps their positions in 16 bits.  What a header shows as its destination is
what stands at these positions, up to the next NUL (`dictionaryUri`).  It is the destination
itself when that is read back (`ReadBack`), which is so for every URI of the usual form that
the dictionary has room for (`readBack_ofUri`).
-/
namespace BundleProtocol
open BpEndpointId

/-- What a setter appends to the dictionary. -/
def dictionaryEntry (scheme ssp : List UInt8) : List UInt8 := scheme ++ [0] ++ ssp ++ [0]

/-- The dictionary that the constructor of a bundle leaves. -/
def defaultDictionary : List UInt8 :=
  (List.replicate 4 (dictionaryEntry dtnScheme noneSsp)).flatten

/-- The URI that stands at two positions of a dictionary. -/
def uriAt (dictionary : List UInt8) (scheme ssp : ℕ) : List UInt8 :=
  cStr (dictionary.drop scheme) ++ colon :: cStr (dictionary.drop ssp)

/-- The URI that the dictionary of a new bundle from `src` to `dst` shows for `dst`. -/
def dictionaryUri (src dst : BpEndpointId) : Option (List UInt8) := do
  let srcScheme ← src.getScheme
  let srcSsp ← src.getSsp
  let scheme ← dst.getScheme
  let ssp ← dst.getSsp
  let before := defaultDictionary ++ dictionaryEntry srcScheme srcSsp
  some (uriAt (before ++ dictionaryEntry scheme ssp) (before.length % 2 ^ 16)
    ((before.length + scheme.length + 1) % 2 ^ 16))

/-- The destination `dst` can be read back from a bundle that `src` sends to it. -/
def ReadBack (src dst : BpEndpointId) : Prop := dictionaryUri src dst = some dst.uri

instance (src dst : BpEndpointId) : Decidable (ReadBack src dst) :=
  inferInstanceAs (Decidable (_ = _))

namespace BpHeader6
variable {h h' : BpHeader6} {eid : BpEndpointId}

/-- What a setter writes without CBHE. -/
theorem placeEid_eq_some (hcbhe : h.cbhe = false) {a c : UInt16} {dictionary : List UInt8} :
    h.placeEid eid = some (a, c, dictionary) ↔ ∃ scheme ssp, eid.getScheme = some scheme ∧
      eid.getSsp = some ssp ∧ a = UInt16.ofNat h.dictionary.length ∧
      c = UInt16.ofNat (h.dictionary.length + scheme.length + 1) ∧
      dictionary = h.dictionary ++ dictionaryEntry scheme ssp := by
  have hunfold : h.placeEid eid = eid.getScheme.bind fun scheme => eid.getSsp.bind fun ssp =>
      some (UInt16.ofNat h.dictionary.length, UInt16.ofNat (h.dictionary.length + scheme.length + 1),
        h.dictionary ++ dictionaryEntry scheme ssp) := by
    unfold placeEid dictionaryEntry
    simp [hcbhe, Nat.add_assoc]
  rw [hunfold]
  cases eid.getScheme with
  | none => simp
  | some scheme =>
    cases eid.getSsp with
    | none => simp
    | some ssp => simp [eq_comm]

/-- What a setter does without CBHE. -/
theorem of_setEid (role : EidRole) (hcbhe : h.cbhe = false) (hset : h.setEid role eid = some h') :
    ∃ scheme ssp, eid.getScheme = some scheme ∧ eid.getSsp = some ssp ∧
      h' = h.putEid role (UInt16.ofNat h.dictionary.length)
        (UInt16.ofNat (h.dictionary.length + scheme.length + 1))
        (h.dictionary ++ dictionaryEntry scheme ssp) := by
  rw [setEid_eq_map] at hset
  obtain ⟨⟨a, c, dictionary⟩, hplace, rfl⟩ := Option.map_eq_some_iff.mp hset
  obtain ⟨scheme, ssp, hscheme, hssp, rfl, rfl, rfl⟩ := (placeEid_eq_some hcbhe).mp hplace
  exact ⟨scheme, ssp, hscheme, hssp, rfl⟩

/-- Positions of new parts are not beyond the end, even in 16 bits. -/
theorem toNat_ofNat_le {n m : ℕ} (h : n ≤ m) : (UInt16.ofNat n).toNat ≤ m := by
  rw [UInt16.toNat_ofNat']
  exact (Nat.mod_le _ _).trans h

/-- A header whose offsets are in bounds stays so when an endpoint id is set. -/
theorem Readable.setEid (hread : h.Readable) (role : EidRole) (hcbhe : h.cbhe = false)
    (hset : h.setEid role eid = some h') : h'.Readable := by
  obtain ⟨scheme, ssp, -, -, rfl⟩ := of_setEid role hcbhe hset
  have hlength : (h.dictionary ++ dictionaryEntry scheme ssp).length =
      h.dictionary.length + (scheme.length + 1 + ssp.length + 1) := by
    rw [dictionaryEntry]
    simp
    omega
  have hold : ∀ o ∈ h.offsets, o.toNat ≤ h.dictionary.length := by
    refine hread.resolve_left ?_
    rw [hcbhe]
    exact Bool.false_ne_true
  refine Or.inr fun o ho => ?_
  rw [dictionary_putEid, hlength]
  rcases mem_offsets_putEid _ _ _ _ _ ho with hmem | rfl | rfl
  · have hle := hold o hmem
    omega
  · exact toNat_ofNat_le (by omega)
  · exact toNat_ofNat_le (by omega)

end BpHeader6

/-- The header that every new bundle starts with. -/
theorem defaultHeader_spec {h : BpHeader6} (hdefault : Bundle6.defaultHeader = some h) :
    h.cbhe = false ∧ h.dictionary = defaultDictionary ∧ h.Readable := by
  have htest : Bundle6.defaultHeader.all (fun h =>
      decide (h.cbhe = false ∧ h.dictionary = defaultDictionary ∧ h.Readable)) = true := by
    decide +kernel
  rw [hdefault] at htest
  exact of_decide_eq_true htest

/-- A C string ends at its first NUL, whatever follows. -/
theorem cStr_append_cons (text rest : List UInt8) : cStr (text ++ 0 :: rest) = cStr text := by
  unfold cStr
  rw [List.takeWhile_append]
  split
  · rename_i hall
    rw [(List.takeWhile_sublist _).eq_of_length hall]
    simp
  · rfl

/-- What stands at two positions of a dictionary is still there when more is appended. -/
theorem uriAt_append {dictionary scheme ssp : List UInt8} {o o' : ℕ} (rest : List UInt8)
    (ho : o ≤ dictionary.length + scheme.length + 1)
    (ho' : o' ≤ dictionary.length + scheme.length + 1) :
    uriAt (dictionary ++ dictionaryEntry scheme ssp ++ rest) o o' =
      uriAt (dictionary ++ dictionaryEntry scheme ssp) o o' := by
  have hstring : ∀ n ≤ dictionary.length + scheme.length + 1, ∀ rest,
      cStr ((dictionary ++ dictionaryEntry scheme ssp ++ rest).drop n) =
        cStr ((dictionary ++ (scheme ++ [0] ++ ssp)).drop n) := by
    intro n hn rest
    have hentry : dictionary ++ dictionaryEntry scheme ssp ++ rest =
        dictionary ++ (scheme ++ [0] ++ ssp) ++ 0 :: rest := by simp [dictionaryEntry]
    rw [hentry, List.drop_append_of_le_length, cStr_append_cons]
    simp
    omega
  have hwhole := fun n hn => hstring n hn []
  simp only [List.append_nil] at hwhole
  unfold uriAt
  rw [hstring o ho, hstring o' ho', hwhole o ho, hwhole o' ho']

/-- The URI that the dictionary of a new bundle from `src` shows for `src`. -/
def sourceUri (src : BpEndpointId) : Option (List UInt8) := do
  let scheme ← src.getScheme
  let ssp ← src.getSsp
  some (uriAt (defaultDictionary ++ dictionaryEntry scheme ssp) (defaultDictionary.length % 2 ^ 16)
    ((defaultDictionary.length + scheme.length + 1) % 2 ^ 16))

namespace BpAgent6
variable {own src dst : BpEndpointId} {size : ℕ} {lifetime now : Time} {priority seq : UInt32}
  {custody : Bool} {hdr : BpHeader6}

/-- **The destination that the header of a new bundle shows.** -/
theorem newHeader_destination
    (hnew : newHeader own size src dst lifetime custody priority now seq = some hdr) :
    hdr.Readable ∧ dictionaryUri src dst = some hdr.getDestinationEid.uri := by
  have hcbhe' : hdr.cbhe = false := (newHeader_spec hnew).cbhe
  obtain ⟨h₀, h₁, h₂, hdefault, hsrc, hdst, hcase⟩ := newHeader_eq_some hnew
  obtain ⟨hcbhe, hdictionary, hread⟩ := defaultHeader_spec hdefault
  obtain ⟨srcScheme, srcSsp, hsrcScheme, hsrcSsp, hh₁⟩ := BpHeader6.of_setEid .source hcbhe hsrc
  have hcbhe₁ : h₁.cbhe = false := (BpHeader6.sameNumbers_setEid .source hsrc).cbhe.trans hcbhe
  obtain ⟨scheme, ssp, hscheme, hssp, hh₂⟩ := BpHeader6.of_setEid .destination hcbhe₁ hdst
  have hread₂ : h₂.Readable := (hread.setEid .source hcbhe hsrc).setEid .destination hcbhe₁ hdst
  have hdictionary₁ : h₁.dictionary = defaultDictionary ++ dictionaryEntry srcScheme srcSsp := by
    rw [hh₁, BpHeader6.dictionary_putEid, hdictionary]
  have hfilled : (fillHeader h₂ size lifetime custody priority now seq).Readable := hread₂
  have hcbhe₂ : (fillHeader h₂ size lifetime custody priority now seq).cbhe = false :=
    (BpHeader6.sameNumbers_setEid .destination hdst).cbhe.trans hcbhe₁
  -- the custodian, if any, is appended behind the destination
  obtain ⟨hread', rest, hdict, hscheme', hssp'⟩ : hdr.Readable ∧
      ∃ rest, hdr.dictionary = h₂.dictionary ++ rest ∧ hdr.dstSchemeOffset = h₂.dstSchemeOffset ∧
        hdr.dstSspOffset = h₂.dstSspOffset := by
    rcases hcase with ⟨-, hset⟩ | ⟨-, rfl⟩
    · obtain ⟨custScheme, custSsp, -, -, hcust⟩ := BpHeader6.of_setEid .custodian hcbhe₂ hset
      refine ⟨hfilled.setEid .custodian hcbhe₂ hset, dictionaryEntry custScheme custSsp, ?_⟩
      rw [hcust]
      exact ⟨rfl, rfl, rfl⟩
    · exact ⟨hfilled, [], (List.append_nil _).symm, rfl, rfl⟩
  refine ⟨hread', ?_⟩
  have huri : hdr.getDestinationEid.uri = uriAt (h₁.dictionary ++ dictionaryEntry scheme ssp)
      (h₁.dictionary.length % 2 ^ 16) ((h₁.dictionary.length + scheme.length + 1) % 2 ^ 16) := by
    rw [← uriAt_append rest ((Nat.mod_le _ _).trans (by omega)) (Nat.mod_le _ _)]
    unfold BpHeader6.getDestinationEid BpHeader6.eidAt
    have hdictionary₂ : h₂.dictionary = h₁.dictionary ++ dictionaryEntry scheme ssp := by
      rw [hh₂, BpHeader6.dictionary_putEid]
    have hschemeOffset : h₂.dstSchemeOffset = UInt16.ofNat h₁.dictionary.length := by
      rw [hh₂]
      rfl
    have hsspOffset : h₂.dstSspOffset = UInt16.ofNat (h₁.dictionary.length + scheme.length + 1) := by
      rw [hh₂]
      rfl
    rw [hcbhe', hdict, hscheme', hssp', hdictionary₂, hschemeOffset, hsspOffset]
    simp only [Bool.false_eq_true, if_false, uri_ofComponents, UInt16.toNat_ofNat']
    rfl
  rw [huri, hdictionary₁]
  unfold dictionaryUri
  rw [hsrcScheme, hsrcSsp, hscheme, hssp]
  rfl

/-- **The source that the header of a new bundle shows.** -/
theorem newHeader_source
    (hnew : newHeader own size src dst lifetime custody priority now seq = some hdr) :
    sourceUri src = some hdr.getSourceEid.uri := by
  have hcbhe' : hdr.cbhe = false := (newHeader_spec hnew).cbhe
  obtain ⟨h₀, h₁, h₂, hdefault, hsrc, hdst, hcase⟩ := newHeader_eq_some hnew
  obtain ⟨hcbhe, hdictionary, -⟩ := defaultHeader_spec hdefault
  obtain ⟨srcScheme, srcSsp, hsrcScheme, hsrcSsp, hh₁⟩ := BpHeader6.of_setEid .source hcbhe hsrc
  have hcbhe₁ : h₁.cbhe = false := (BpHeader6.sameNumbers_setEid .source hsrc).cbhe.trans hcbhe
  obtain ⟨scheme, ssp, -, -, hh₂⟩ := BpHeader6.of_setEid .destination hcbhe₁ hdst
  have hcbhe₂ : (fillHeader h₂ size lifetime custody priority now seq).cbhe = false :=
    (BpHeader6.sameNumbers_setEid .destination hdst).cbhe.trans hcbhe₁
  have hdictionary₂ : h₂.dictionary =
      defaultDictionary ++ dictionaryEntry srcScheme srcSsp ++ dictionaryEntry scheme ssp := by
    rw [hh₂, BpHeader6.dictionary_putEid, hh₁, BpHeader6.dictionary_putEid, hdictionary]
  have hscheme₂ : h₂.srcSchemeOffset = UInt16.ofNat defaultDictionary.length := by
    rw [hh₂, hh₁, ← hdictionary]
    rfl
  have hssp₂ : h₂.srcSspOffset = UInt16.ofNat (defaultDictionary.length + srcScheme.length + 1) := by
    rw [hh₂, hh₁, ← hdictionary]
    rfl
  -- the destination and the custodian are appended behind the source
  obtain ⟨rest, hdict, hscheme, hssp⟩ : ∃ rest,
      hdr.dictionary = defaultDictionary ++ dictionaryEntry srcScheme srcSsp ++ rest ∧
        hdr.srcSchemeOffset = h₂.srcSchemeOffset ∧ hdr.srcSspOffset = h₂.srcSspOffset := by
    rcases hcase with ⟨-, hset⟩ | ⟨-, rfl⟩
    · obtain ⟨custScheme, custSsp, -, -, hcust⟩ := BpHeader6.of_setEid .custodian hcbhe₂ hset
      refine ⟨dictionaryEntry scheme ssp ++ dictionaryEntry custScheme custSsp, ?_⟩
      rw [hcust, ← List.append_assoc, ← hdictionary₂]
      exact ⟨rfl, rfl, rfl⟩
    · exact ⟨dictionaryEntry scheme ssp, hdictionary₂, rfl, rfl⟩
  have huri : hdr.getSourceEid.uri = uriAt (defaultDictionary ++ dictionaryEntry srcScheme srcSsp)
      (defaultDictionary.length % 2 ^ 16)
      ((defaultDictionary.length + srcScheme.length + 1) % 2 ^ 16) := by
    rw [← uriAt_append rest ((Nat.mod_le _ _).trans (by omega)) (Nat.mod_le _ _)]
    unfold BpHeader6.getSourceEid BpHeader6.eidAt
    rw [hcbhe', hdict, hscheme, hssp, hscheme₂, hssp₂]
    simp only [Bool.false_eq_true, if_false, uri_ofComponents, UInt16.toNat_ofNat']
    rfl
  unfold sourceUri
  rw [huri, hsrcScheme, hsrcSsp]
  rfl

end BpAgent6

/-! ## URIs that are read back -/

/-- The parts of a URI of the usual form. -/
structure PlainParts (scheme ssp : List UInt8) : Prop where
  scheme_ne : scheme ≠ []
  ssp_ne : ssp ≠ []
  scheme_le : scheme.length ≤ 1023
  ssp_le : ssp.length ≤ 1023
  colon : colon ∉ scheme
  nul_scheme : 0 ∉ scheme
  nul_ssp : 0 ∉ ssp

theorem PlainParts.formed {scheme ssp : List UInt8} (h : PlainParts scheme ssp) : Formed scheme ssp :=
  ⟨h.scheme_ne, h.ssp_ne, h.scheme_le, h.ssp_le, h.colon⟩

/-- The parser finds the parts. -/
theorem PlainParts.parts_ofUri {scheme ssp : List UInt8} (h : PlainParts scheme ssp) :
    (ofUri (scheme ++ BpEndpointId.colon :: ssp)).getScheme = some scheme ∧
      (ofUri (scheme ++ BpEndpointId.colon :: ssp)).getSsp = some ssp := h.formed.parts_ofUri

theorem cStr_append_nul {text rest : List UInt8} (h : 0 ∉ text) : cStr (text ++ 0 :: rest) = text := by
  unfold cStr
  rw [List.takeWhile_append_of_pos]
  · simp
  · intro x hx
    rw [bne_iff_ne]
    rintro rfl
    exact h hx

/-- **Endpoint ids of the usual form are read back.** -/
theorem readBack_ofUri {srcScheme srcSsp scheme ssp : List UInt8}
    (hsrc : PlainParts srcScheme srcSsp) (hdst : PlainParts scheme ssp) :
    ReadBack (ofUri (srcScheme ++ colon :: srcSsp)) (ofUri (scheme ++ colon :: ssp)) := by
  obtain ⟨hsrcScheme, hsrcSsp⟩ := hsrc.parts_ofUri
  obtain ⟨hscheme, hssp⟩ := hdst.parts_ofUri
  have hlength : (defaultDictionary ++ dictionaryEntry srcScheme srcSsp).length + scheme.length + 1 <
      2 ^ 16 := by
    have hdefault : defaultDictionary.length = 36 := by decide
    have hle := hsrc.scheme_le
    have hle' := hsrc.ssp_le
    have hle'' := hdst.scheme_le
    simp only [dictionaryEntry, List.length_append, List.length_cons, List.length_nil, hdefault]
    omega
  unfold ReadBack dictionaryUri
  rw [hsrcScheme, hsrcSsp, hscheme, hssp]
  simp only [Option.bind_eq_bind, Option.bind_some, Option.some.injEq, uri_ofUri]
  generalize defaultDictionary ++ dictionaryEntry srcScheme srcSsp = before at hlength
  -- the two positions are those of the parts
  have hfirst : (before ++ dictionaryEntry scheme ssp).drop before.length =
      scheme ++ 0 :: (ssp ++ [0]) := by
    rw [List.drop_left]
    simp [dictionaryEntry]
  have hsecond : (before ++ dictionaryEntry scheme ssp).drop (before.length + scheme.length + 1) =
      ssp ++ 0 :: [] := by
    rw [Nat.add_assoc, ← List.drop_drop, List.drop_left]
    simp [dictionaryEntry, List.drop_append]
  rw [Nat.mod_eq_of_lt hlength, Nat.mod_eq_of_lt (by omega), uriAt, hfirst, hsecond,
    cStr_append_nul hdst.nul_scheme, cStr_append_nul hdst.nul_ssp]

/-! ## Both constructors -/

/-- The endpoint id is made of these parts, by either constructor. -/
inductive MadeOf : BpEndpointId → List UInt8 → List UInt8 → Prop
  | components {scheme ssp} (h : PlainParts scheme ssp) : MadeOf (.ofComponents scheme ssp) scheme ssp
  | uri {scheme ssp} (h : PlainParts scheme ssp) : MadeOf (.ofUri (scheme ++ colon :: ssp)) scheme ssp

section Parts
variable {eid : BpEndpointId} {scheme ssp : List UInt8}

theorem MadeOf.plain (h : MadeOf eid scheme ssp) : PlainParts scheme ssp := by
  cases h with
  | components h => exact h
  | uri h => exact h

theorem MadeOf.uri_eq (h : MadeOf eid scheme ssp) : eid.uri = scheme ++ colon :: ssp := by
  cases h <;> rfl

/-- `Scheme` and `Ssp` give the parts back. -/
theorem MadeOf.parts (h : MadeOf eid scheme ssp) :
    eid.getScheme = some scheme ∧ eid.getSsp = some ssp := by
  cases h with
  | uri h => exact h.parts_ofUri
  | components h => exact h.formed.parts_ofComponents

end Parts

end BundleProtocol
