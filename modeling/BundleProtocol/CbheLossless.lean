import BundleProtocol.Decimal
import BundleProtocol.Dictionary
import BundleProtocol.EidRoles
import BundleProtocol.HeaderNumbers

/-! # Endpoint ids that CBHE keeps

With CBHE a header keeps two 16-bit numbers of an endpoint id, and the getters print them.
`IsIpnCbhe` is meant to tell for which endpoint ids this is enough, but accepts whatever `strtoll`
takes for two numbers: with white space, a sign, leading zeros or text behind them, and up to 63 bits.
Of the endpoint ids that it accepts, those come back whose two numbers are plain and fit 16 bits, and
no others (`lossless_iff`).
-/
namespace BundleProtocol
open ByteParser BpEndpointId

/-- An endpoint id that one of the two constructors made. -/
def Constructed (eid : BpEndpointId) : Prop :=
  (∃ scheme ssp, eid = .ofComponents scheme ssp) ∨ ∃ uri, eid = .ofUri uri

/-- A number from 1 to 65535, without a sign and without leading zeros. -/
def Plain16 (number : List UInt8) : Prop := Decimal.Positive number ∧ Decimal.value number < 2 ^ 16

/-- A scheme and an ssp without further colons can only be told apart in one way. -/
theorem parts_unique {scheme ssp scheme' ssp' : List UInt8}
    (h : scheme' ++ colon :: ssp' = scheme ++ colon :: ssp) (hscheme : colon ∉ scheme)
    (hssp : colon ∉ ssp) : scheme' = scheme ∧ ssp' = ssp := by
  rcases List.append_eq_append_iff.mp h with ⟨between, hleft, hright⟩ | ⟨between, hleft, hright⟩
  · cases between with
    | nil =>
      rw [List.append_nil] at hleft
      exact ⟨hleft.symm, (List.cons_eq_cons.mp hright).2⟩
    | cons x between =>
      -- the colon would be part of the scheme
      obtain ⟨rfl, -⟩ := List.cons_eq_cons.mp hright
      refine absurd ?_ hscheme
      rw [hleft]
      simp
  · cases between with
    | nil =>
      rw [List.append_nil] at hleft
      exact ⟨hleft, (List.cons_eq_cons.mp hright).2.symm⟩
    | cons x between =>
      refine absurd ?_ hssp
      rw [(List.cons_eq_cons.mp hright).2]
      simp

theorem Constructed.madeOf {eid : BpEndpointId} {scheme ssp : List UInt8} (h : Constructed eid)
    (hplain : PlainParts scheme ssp) (hssp : colon ∉ ssp)
    (huri : eid.uri = scheme ++ colon :: ssp) : MadeOf eid scheme ssp := by
  rcases h with ⟨scheme', ssp', rfl⟩ | ⟨uri, rfl⟩
  · obtain ⟨rfl, rfl⟩ := parts_unique huri hplain.colon hssp
    exact .components hplain
  · obtain rfl : uri = scheme ++ colon :: ssp := huri
    exact .uri hplain

/-! ## The ssp that is printed -/

/-- The characters of a printed ssp. -/
theorem mem_ipnSsp {node service : UInt32} {b : UInt8} (h : b ∈ ipnSsp node service) :
    b = 46 ∨ 48 ≤ b ∧ b ≤ 57 := by
  rcases List.mem_append.mp h with hb | hb
  · exact Or.inr (digit_of_mem_printDecimal hb)
  · rcases List.mem_cons.mp hb with hb | hb
    · exact Or.inl hb
    · exact Or.inr (digit_of_mem_printDecimal hb)

theorem colon_not_mem_ipnSsp (node service : UInt32) : colon ∉ ipnSsp node service := by
  intro h
  rcases mem_ipnSsp h with h | h
  · exact absurd h (by decide)
  · exact absurd h.2 (by decide)

theorem plainParts_ipnSsp (node service : UInt32) : PlainParts ipnScheme (ipnSsp node service) := by
  have hshort : ∀ n : UInt32, (printDecimal n).length ≤ 10 := fun n =>
    Decimal.length_print_le (by decide) (Nat.lt_trans n.toNat_lt (by decide))
  have hnode := hshort node
  have hservice := hshort service
  refine ⟨by decide, by simp [ipnSsp], by decide, ?_, by decide, by decide, fun h => ?_⟩
  · rw [ipnSsp, List.length_append, List.length_cons]
    omega
  · rcases mem_ipnSsp h with h | h
    · exact absurd h (by decide)
    · exact absurd h.1 (by decide)

/-- An ssp of two plain numbers is a printed one, and the other way round if they are not zero. -/
theorem ipnSsp_eq {node service : List UInt8} (hnode : Plain16 node) (hservice : Plain16 service) :
    node ++ 46 :: service = ipnSsp (UInt16.ofNat (Decimal.value node)).toUInt32
      (UInt16.ofNat (Decimal.value service)).toUInt32 := by
  have hprint : ∀ {l : List UInt8}, Plain16 l →
      printDecimal (UInt16.ofNat (Decimal.value l)).toUInt32 = l := by
    intro l hl
    have hvalue : (UInt16.ofNat (Decimal.value l)).toUInt32.toNat = Decimal.value l := by
      rw [UInt16.toNat_toUInt32, UInt16.toNat_ofNat_of_lt' hl.2]
    show Decimal.print (UInt16.ofNat (Decimal.value l)).toUInt32.toNat = l
    rw [hvalue]
    exact hl.1.print_value.1
  rw [ipnSsp, hprint hnode, hprint hservice]

theorem plain16_printDecimal {n : UInt16} (hn : n ≠ 0) : Plain16 (printDecimal n.toUInt32) := by
  have hpos : 0 < n.toNat := by
    rw [Nat.pos_iff_ne_zero]
    exact fun hzero => hn (UInt16.toNat_inj.mp hzero)
  obtain ⟨hpositive, hvalue⟩ := Decimal.positive_print hpos
  have hprint : printDecimal n.toUInt32 = Decimal.print n.toNat := by
    rw [← UInt16.toNat_toUInt32]
    rfl
  rw [hprint]
  refine ⟨hpositive, ?_⟩
  rw [hvalue]
  exact n.toNat_lt

/-- `IsIpnCbhe` turns zeros down. -/
theorem ne_zero_of_isIpnCbhe {eid : BpEndpointId} {node service : UInt16}
    (hmade : MadeOf eid ipnScheme (ipnSsp node.toUInt32 service.toUInt32))
    (heligible : eid.isIpnCbhe = some true) : node ≠ 0 ∧ service ≠ 0 := by
  obtain ⟨hscheme, hssp⟩ := hmade.parts
  have hfind : (ipnSsp node.toUInt32 service.toUInt32).findIdx? (· == 46) =
      some (printDecimal node.toUInt32).length := by
    rw [ipnSsp, List.findIdx?_append, List.findIdx?_eq_none_iff.mpr]
    · simp [List.findIdx?_cons]
    · intro b hb
      rw [beq_eq_false_iff_ne]
      rintro rfl
      exact absurd (digit_of_mem_printDecimal hb).1 (by decide)
  have hdrop : (ipnSsp node.toUInt32 service.toUInt32).drop
      ((printDecimal node.toUInt32).length + 1) = printDecimal service.toUInt32 := by
    rw [ipnSsp, ← List.drop_drop, List.drop_left]
    rfl
  unfold isIpnCbhe at heligible
  rw [hscheme, hssp] at heligible
  simp only [Option.bind_eq_bind, Option.bind_some, ne_eq, not_true_eq_false, if_false, hfind,
    hdrop, cStr_ipnSsp] at heligible
  constructor
  · rintro rfl
    have hzero : strtoll (ipnSsp (0 : UInt16).toUInt32 service.toUInt32) = 0 := by
      rfl
    rw [hzero] at heligible
    cases heligible
  · rintro rfl
    have hzero : noNumber (strtoll (cStr (printDecimal (0 : UInt16).toUInt32))) = true := by
      decide
    rw [hzero] at heligible
    split at heligible
    · cases heligible
    · split at heligible
      · cases heligible
      · cases heligible

/-! ## Headers with CBHE -/

namespace BpHeader6

/-- The headers constructed with `useCbhe`: the four setters of endpoint ids, those of other fields, and
`Deserialize`. -/
inductive BuiltWithCbhe : BpHeader6 → Prop
  | new : BuiltWithCbhe (.new true)
  | setEid {h h' role eid} (hbuilt : BuiltWithCbhe h) (hset : h.setEid role eid = some h') :
      BuiltWithCbhe h'
  | deserialize {h h' bytes rest} (hbuilt : BuiltWithCbhe h)
      (hread : h.deserialize bytes = some (h', rest)) : BuiltWithCbhe h'
  | fields {h h'} (hbuilt : BuiltWithCbhe h) (hcbhe : h'.cbhe = h.cbhe)
      (hdict : h'.dictionary = h.dictionary) : BuiltWithCbhe h'

variable {h h' : BpHeader6} {role : EidRole} {eid : BpEndpointId}

/-- What a setter does with CBHE. -/
theorem of_setEid_cbhe (hcbhe : h.cbhe = true) (hset : h.setEid role eid = some h') :
    ∃ node service : UInt16, h' = h.putEid role node service h.dictionary := by
  rw [setEid_eq_map] at hset
  obtain ⟨⟨node, service, dictionary⟩, hplace, rfl⟩ := Option.map_eq_some_iff.mp hset
  unfold placeEid at hplace
  obtain ⟨scheme, -, hplace⟩ := Option.bind_eq_some_iff.mp hplace
  obtain ⟨ssp, -, hplace⟩ := Option.bind_eq_some_iff.mp hplace
  rw [if_pos hcbhe] at hplace
  obtain ⟨n, -, hplace⟩ := Option.bind_eq_some_iff.mp hplace
  obtain ⟨s, -, hplace⟩ := Option.bind_eq_some_iff.mp hplace
  cases hplace
  exact ⟨_, _, rfl⟩

/-- CBHE stays on, and the dictionary is as long as one that was read. -/
theorem BuiltWithCbhe.cbhe_and_length (hbuilt : BuiltWithCbhe h) :
    h.cbhe = true ∧ h.dictionary.length < 2 ^ 32 := by
  induction hbuilt with
  | new => exact ⟨rfl, by decide⟩
  | setEid _ hset ih =>
    obtain ⟨node, service, rfl⟩ := of_setEid_cbhe ih.1 hset
    rw [cbhe_putEid, dictionary_putEid]
    exact ih
  | deserialize _ hread ih =>
    -- the length of a dictionary that is read has 32 bits
    obtain ⟨_, -, -, w, -, rfl⟩ := spells_headerBytes _ _ _ _ hread
    refine ⟨ih.1, ?_⟩
    show w.dictionary.length < 2 ^ 32
    rw [w.length_dictionary]
    exact Nat.mod_lt _ (by decide)
  | fields _ hcbhe hdict ih =>
    rw [hcbhe, hdict]
    exact ih

/-- The header shows `eid` for `role`, and for the other roles what `h` shows. -/
def ShowsFor (h' h : BpHeader6) (role : EidRole) (eid : BpEndpointId) : Prop :=
  (h'.getEid role == eid) = true ∧ ∀ r ≠ role, (h'.getEid r == h.getEid r) = true

/-- Setting the endpoint id of `role` to `eid` loses nothing: it is read back, at once and from any
other header with CBHE after the way over the wire, and the other endpoint ids stay. -/
def Lossless (h : BpHeader6) (role : EidRole) (eid : BpEndpointId) : Prop :=
  ∃ h', h.setEid role eid = some h' ∧ h'.ShowsFor h role eid ∧
    ∀ other rest, BuiltWithCbhe other → ∃ h'', other.deserialize (h'.serialize ++ rest) =
      some (h'', rest) ∧ h''.ShowsFor h role eid

theorem getEid_putEid_cbhe (hcbhe : h.cbhe = true) (role r : EidRole) (node service : UInt16) :
    (h.putEid role node service h.dictionary).getEid r =
      if r = role then .ofComponents ipnScheme (ipnSsp node.toUInt32 service.toUInt32)
      else h.getEid r := by
  rw [getEid_eq_eidAt, schemeOffset_putEid, sspOffset_putEid, eidAt, cbhe_putEid, if_pos hcbhe]
  by_cases hr : r = role
  · rw [if_pos hr, if_pos hr, if_pos hr]
  · rw [if_neg hr, if_neg hr, if_neg hr, getEid_eq_eidAt, eidAt, if_pos hcbhe]

/-- **CBHE keeps an endpoint id exactly when its numbers are plain and fit 16 bits**, among those that
`IsIpnCbhe` accepts, whatever the header and the role are. -/
theorem lossless_iff (hbuilt : BuiltWithCbhe h) (hconstructed : Constructed eid)
    (heligible : eid.isIpnCbhe = some true) (role : EidRole) :
    h.Lossless role eid ↔ ∃ node service, eid.uri = ipnScheme ++ colon :: (node ++ 46 :: service) ∧
      Plain16 node ∧ Plain16 service := by
  obtain ⟨hcbhe, hlength⟩ := hbuilt.cbhe_and_length
  constructor
  · rintro ⟨h', hset, ⟨hself, -⟩, -⟩
    obtain ⟨node, service, rfl⟩ := of_setEid_cbhe hcbhe hset
    rw [getEid_putEid_cbhe hcbhe, if_pos rfl, beq_iff, uri_ofComponents] at hself
    have hmade := hconstructed.madeOf (plainParts_ipnSsp _ _) (colon_not_mem_ipnSsp _ _) hself.symm
    -- what is shown is plain, unless a number is zero
    obtain ⟨hnode, hservice⟩ := ne_zero_of_isIpnCbhe hmade heligible
    exact ⟨_, _, hself.symm, plain16_printDecimal hnode, plain16_printDecimal hservice⟩
  · rintro ⟨node, service, huri, hnode, hservice⟩
    rw [ipnSsp_eq hnode hservice] at huri
    generalize UInt16.ofNat (Decimal.value node) = n at huri
    generalize UInt16.ofNat (Decimal.value service) = s at huri
    have hmade := hconstructed.madeOf (plainParts_ipnSsp _ _) (colon_not_mem_ipnSsp _ _) huri
    obtain ⟨hscheme, hssp⟩ := hmade.parts
    have hplace : h.placeEid eid = some (n, s, h.dictionary) := by
      unfold placeEid
      rw [hscheme, hssp]
      simp only [Option.bind_eq_bind, Option.bind_some, if_pos hcbhe, ipnNode_ipnSsp,
        ipnService_ipnSsp, UInt16.toUInt16_toUInt32]
    have hset : h.setEid role eid = some (h.putEid role n s h.dictionary) := by
      rw [setEid_eq_map, hplace]
      rfl
    have hshows : (h.putEid role n s h.dictionary).ShowsFor h role eid := by
      refine ⟨?_, fun r hr => ?_⟩
      · rw [getEid_putEid_cbhe hcbhe, if_pos rfl, beq_iff, huri]
        rfl
      · rw [getEid_putEid_cbhe hcbhe, if_neg hr]
        exact beq_self _
    refine ⟨_, hset, hshows, fun other rest hother => ?_⟩
    have hread := (h.putEid role n s h.dictionary).reads_onWire other
      (by rw [dictionary_putEid]; exact hlength) rest
    have hsame : other.cbhe = (h.putEid role n s h.dictionary).cbhe := by
      rw [hother.cbhe_and_length.1, cbhe_putEid, hcbhe]
    refine ⟨_, hread, ?_⟩
    unfold ShowsFor
    rw [hsame]
    simp only [getEid_onWire]
    exact hshows

/-- `ipn:12.3`. -/
theorem lossless_iff_sample :
    (new true).Lossless .source (ofComponents ipnScheme [49, 50, 46, 51]) := by
  have hconstructed : Constructed (ofComponents ipnScheme [49, 50, 46, 51]) := Or.inl ⟨_, _, rfl⟩
  have hnode : Plain16 [49, 50] := ⟨⟨by simp, by simp, by decide⟩, by decide⟩
  have hservice : Plain16 [51] := ⟨⟨by simp, by simp, by decide⟩, by decide⟩
  exact (lossless_iff .new hconstructed (by decide) .source).mpr ⟨_, _, rfl, hnode, hservice⟩

/-- `IsIpnCbhe` accepts `ipn:65536.1`, which comes back as `ipn:0.1`. -/
theorem node_number_reduced :
    (ofComponents ipnScheme [54, 53, 53, 51, 54, 46, 49]).isIpnCbhe = some true ∧
      ∃ h, (new true).setEid .source (ofComponents ipnScheme [54, 53, 53, 51, 54, 46, 49]) = some h ∧
        (h.getEid .source).uri = ipnScheme ++ colon :: [48, 46, 49] ∧
        ¬(new true).Lossless .source (ofComponents ipnScheme [54, 53, 53, 51, 54, 46, 49]) := by
  refine ⟨by decide, _, rfl, by decide, ?_⟩
  rintro ⟨h', hset, ⟨hself, -⟩, -⟩
  cases hset
  exact absurd hself (by decide)

end BpHeader6
end BundleProtocol
