import BundleProtocol.EndpointId

/-! # The parts of an endpoint id

Both constructors keep the URI they are given, and the two components say where its parts are: the
scheme first, the ssp behind one more character (`cut`).  How long the scheme is they take from copies
of the parts that may have been replaced or shortened.  Well-formed parts come back (`formed_parts`);
of the others the URI stays as it is while the components follow the copies, so they are not made
well formed (`normalised_iff`).
-/
namespace BundleProtocol
namespace BpEndpointId
variable {u scheme ssp scheme' ssp' : List UInt8} {n len : ℕ}

/-! ## Cutting a URI -/

/-- Everything in front of the first colon, and everything behind it. -/
theorem parts_inj (h : scheme ++ colon :: ssp = scheme' ++ colon :: ssp') (hscheme : colon ∉ scheme)
    (hscheme' : colon ∉ scheme') : scheme = scheme' ∧ ssp = ssp' := by
  induction scheme generalizing scheme' with
  | nil =>
    cases scheme' with
    | nil => exact ⟨rfl, (List.cons_eq_cons.mp h).2⟩
    | cons x scheme' =>
      obtain ⟨rfl, -⟩ := List.cons_eq_cons.mp h
      exact absurd List.mem_cons_self hscheme'
  | cons y scheme ih =>
    cases scheme' with
    | nil =>
      obtain ⟨rfl, -⟩ := List.cons_eq_cons.mp h
      exact absurd List.mem_cons_self hscheme
    | cons x scheme' =>
      obtain ⟨rfl, hrest⟩ := List.cons_eq_cons.mp h
      obtain ⟨rfl, rfl⟩ := ih hrest (fun hmem => hscheme (List.mem_cons_of_mem _ hmem))
        fun hmem => hscheme' (List.mem_cons_of_mem _ hmem)
      exact ⟨rfl, rfl⟩

theorem findIdx?_colon (hscheme : colon ∉ scheme) (ssp : List UInt8) :
    (scheme ++ colon :: ssp).findIdx? (· == colon) = some scheme.length := by
  rw [List.findIdx?_append, List.findIdx?_eq_none_iff.mpr]
  · simp [List.findIdx?_cons]
  · intro x hx
    rw [beq_eq_false_iff_ne]
    rintro rfl
    exact hscheme hx

/-- The endpoint id whose scheme is the first `n` characters and whose ssp is at most `len` characters
behind the next one. -/
def cut (u : List UInt8) (n len : ℕ) : BpEndpointId := ⟨u, ⟨0, n⟩, ⟨n + 1, len⟩⟩

theorem getScheme_cut (u : List UInt8) (n len : ℕ) : (cut u n len).getScheme = some (u.take n) := by
  simp [cut, getScheme, substr]

theorem getSsp_cut : (cut u n len).getSsp =
    if n + 1 ≤ u.length then some ((u.drop (n + 1)).take len) else none := rfl

/-! ## What the constructors make -/

/-- The length of the scheme that `ParseComponent` keeps. -/
def schemeLength (scheme ssp : List UInt8) : ℕ :=
  if scheme = [] ∨ ssp = [] then 3 else min scheme.length 1023

theorem parseComponent_eq (mUri scheme ssp : List UInt8) : parseComponent mUri scheme ssp =
    (⟨0, schemeLength scheme ssp⟩,
      ⟨schemeLength scheme ssp + 1, sizeSub mUri.length (schemeLength scheme ssp + 1)⟩) := by
  unfold parseComponent schemeLength
  by_cases hempty : scheme = [] ∨ ssp = []
  · have hlength : scheme.length = 0 ∨ ssp.length = 0 := by simpa using hempty
    simp only [if_pos hempty, if_pos hlength]
    rfl
  · have hlength : ¬(scheme.length = 0 ∨ ssp.length = 0) := by simpa using hempty
    simp only [if_neg hempty, if_neg hlength]
    by_cases hlong : 1023 < scheme.length ∨ 1023 < ssp.length
    · simp only [if_pos hlong, List.length_take, Nat.min_comm 1023]
    · have hmin : min scheme.length 1023 = scheme.length := by omega
      simp only [if_neg hlong, hmin]

theorem ofComponents_eq (scheme ssp : List UInt8) :
    ofComponents scheme ssp = cut (scheme ++ colon :: ssp) (schemeLength scheme ssp)
      (sizeSub (scheme ++ colon :: ssp).length (schemeLength scheme ssp + 1)) := by
  unfold ofComponents
  simp only [parseComponent_eq]
  rfl

theorem ofUri_eq (hscheme : colon ∉ scheme) (ssp : List UInt8) :
    ofUri (scheme ++ colon :: ssp) = cut (scheme ++ colon :: ssp) (schemeLength scheme ssp)
      (sizeSub 0 (schemeLength scheme ssp + 1)) := by
  have htail : (scheme ++ colon :: ssp).drop (scheme.length + 1) = ssp := by
    rw [← List.drop_drop, List.drop_left]
    rfl
  unfold ofUri
  rw [findIdx?_colon hscheme]
  simp only [List.take_left, htail, parseComponent_eq]
  rfl

/-! ## Well-formed parts -/

/-- The parts of a well-formed endpoint id. -/
structure Formed (scheme ssp : List UInt8) : Prop where
  scheme_ne : scheme ≠ []
  ssp_ne : ssp ≠ []
  scheme_le : scheme.length ≤ 1023
  ssp_le : ssp.length ≤ 1023
  colon : colon ∉ scheme

theorem schemeLength_of_ne (hscheme : scheme ≠ []) (hssp : ssp ≠ []) :
    schemeLength scheme ssp = min scheme.length 1023 := by
  unfold schemeLength
  rw [if_neg (not_or.mpr ⟨hscheme, hssp⟩)]

/-- A cut behind the scheme gives back both parts. -/
theorem parts_cut (hlen : ssp.length ≤ len) :
    (cut (scheme ++ colon :: ssp) scheme.length len).getScheme = some scheme ∧
      (cut (scheme ++ colon :: ssp) scheme.length len).getSsp = some ssp := by
  have htail : (scheme ++ colon :: ssp).drop (scheme.length + 1) = ssp := by
    rw [← List.drop_drop, List.drop_left]
    rfl
  have hbound : scheme.length + 1 ≤ (scheme ++ colon :: ssp).length := by
    rw [List.length_append, List.length_cons]
    omega
  refine ⟨?_, ?_⟩
  · rw [getScheme_cut, List.take_left]
  · rw [getSsp_cut, if_pos hbound, htail, List.take_of_length_le hlen]

theorem Formed.schemeLength_eq (h : Formed scheme ssp) : schemeLength scheme ssp = scheme.length := by
  rw [schemeLength_of_ne h.scheme_ne h.ssp_ne]
  exact Nat.min_eq_left h.scheme_le

theorem Formed.parts_ofComponents (h : Formed scheme ssp) :
    (ofComponents scheme ssp).getScheme = some scheme ∧
      (ofComponents scheme ssp).getSsp = some ssp := by
  have hscheme := h.scheme_le
  have hssp := h.ssp_le
  rw [ofComponents_eq, h.schemeLength_eq]
  refine parts_cut ?_
  unfold sizeSub
  rw [List.length_append, List.length_cons]
  omega

/-- The length of the ssp underflows to almost 2⁶⁴. -/
theorem Formed.parts_ofUri (h : Formed scheme ssp) :
    (ofUri (scheme ++ BpEndpointId.colon :: ssp)).getScheme = some scheme ∧
      (ofUri (scheme ++ BpEndpointId.colon :: ssp)).getSsp = some ssp := by
  have hscheme := h.scheme_le
  have hssp := h.ssp_le
  rw [ofUri_eq h.colon, h.schemeLength_eq]
  refine parts_cut ?_
  unfold sizeSub
  omega

/-- **Well-formed endpoint ids parse back**, whichever constructor made them: they are equal, both show
the parts and the URI they were made of, and those of different parts are different. -/
theorem formed_parts (h : Formed scheme ssp) :
    (ofComponents scheme ssp == ofUri (scheme ++ colon :: ssp)) = true ∧
      (∀ eid ∈ [ofComponents scheme ssp, ofUri (scheme ++ colon :: ssp)],
        eid.getScheme = some scheme ∧ eid.getSsp = some ssp ∧ eid.uri = scheme ++ colon :: ssp) ∧
      ∀ scheme' ssp', Formed scheme' ssp' →
        ∀ eid ∈ [ofComponents scheme ssp, ofUri (scheme ++ colon :: ssp)],
        ∀ eid' ∈ [ofComponents scheme' ssp', ofUri (scheme' ++ colon :: ssp')],
          (eid == eid') = true ↔ (scheme, ssp) = (scheme', ssp') := by
  have huri : ∀ scheme ssp : List UInt8,
      ∀ eid ∈ [ofComponents scheme ssp, ofUri (scheme ++ colon :: ssp)],
        eid.uri = scheme ++ colon :: ssp := by
    intro scheme ssp eid heid
    rcases List.mem_cons.mp heid with rfl | heid
    · rfl
    · rw [List.mem_singleton.mp heid]
      rfl
  refine ⟨beq_iff.mpr rfl, fun eid heid => ?_, fun scheme' ssp' h' eid heid eid' heid' => ?_⟩
  · obtain ⟨hscheme, hssp⟩ : eid.getScheme = some scheme ∧ eid.getSsp = some ssp := by
      rcases List.mem_cons.mp heid with rfl | heid
      · exact h.parts_ofComponents
      · rw [List.mem_singleton.mp heid]
        exact h.parts_ofUri
    exact ⟨hscheme, hssp, huri scheme ssp eid heid⟩
  · rw [beq_iff, huri scheme ssp eid heid, huri scheme' ssp' eid' heid', Prod.mk.injEq]
    constructor
    · intro heq
      exact parts_inj heq h.colon h'.colon
    · rintro ⟨rfl, rfl⟩
      rfl

/-- `dtn:a:b`, whose ssp has a colon, made both ways. -/
theorem formed_parts_sample :
    (ofUri [100, 116, 110, 58, 97, 58, 98]).getSsp = some [97, 58, 98] ∧
      (ofComponents [100, 116, 110] [97, 58, 98] == ofUri [100, 116, 110, 58, 97, 58, 98]) = true := by
  have hformed : Formed [100, 116, 110] [97, 58, 98] :=
    ⟨by decide, by decide, by decide, by decide, by decide⟩
  obtain ⟨hequal, hparts, -⟩ := formed_parts hformed
  exact ⟨(hparts _ (List.mem_cons_of_mem _ List.mem_cons_self)).2.1, hequal⟩

/-! ## Everything else -/

/-- The two accessors return non-empty parts of at most 1023 bytes that make up the URI. -/
def Normal (eid : BpEndpointId) : Prop :=
  ∃ scheme ssp, eid.getScheme = some scheme ∧ eid.getSsp = some ssp ∧ scheme ≠ [] ∧ ssp ≠ [] ∧
    scheme.length ≤ 1023 ∧ ssp.length ≤ 1023 ∧ eid.uri = scheme ++ colon :: ssp

/-- The URI has no colon, or nothing stands in front of its first one or behind it. -/
def Malformed (u : List UInt8) : Prop :=
  ∀ scheme ssp, u = scheme ++ colon :: ssp → colon ∉ scheme → scheme = [] ∨ ssp = []

/-- A cut is in order when it is made at a colon that leaves the right numbers of characters. -/
theorem normal_cut_iff : Normal (cut u n len) ↔
    (1 ≤ n ∧ n ≤ 1023) ∧ u[n]? = some colon ∧ n + 2 ≤ u.length ∧ u.length ≤ n + 1024 ∧
      u.length ≤ n + 1 + len := by
  constructor
  · rintro ⟨scheme, ssp, hscheme, hssp, hne, hne', hle, hle', huri⟩
    rw [getScheme_cut, Option.some.injEq] at hscheme
    rw [getSsp_cut] at hssp
    split at hssp
    · rename_i hbound
      have hlength : scheme.length = n := by
        rw [← hscheme, List.length_take]
        omega
      have hssp := Option.some.inj hssp
      have hlen : ssp.length ≤ len := by
        rw [← hssp]
        exact List.length_take_le _ _
      have hu : u = scheme ++ colon :: ssp := huri
      have htotal : u.length = scheme.length + (ssp.length + 1) := by
        rw [hu, List.length_append, List.length_cons]
      have hpos := List.length_pos_iff.mpr hne
      have hpos' := List.length_pos_iff.mpr hne'
      refine ⟨by omega, ?_, by omega, by omega, by omega⟩
      rw [hu, ← hlength]
      simp
    · cases hssp
  · rintro ⟨⟨hpos, hle⟩, hcolon, hlow, hhigh, hlen⟩
    obtain ⟨hn, hget⟩ := List.getElem?_eq_some_iff.mp hcolon
    have htail : (u.drop (n + 1)).length = u.length - (n + 1) := List.length_drop
    refine ⟨u.take n, u.drop (n + 1), getScheme_cut u n len, ?_, ?_, ?_, ?_, ?_, ?_⟩
    · rw [getSsp_cut, if_pos (by omega), List.take_of_length_le (by omega)]
    · rw [← List.length_pos_iff, List.length_take]
      omega
    · rw [← List.length_pos_iff]
      omega
    · rw [List.length_take]
      omega
    · omega
    · show u = u.take n ++ colon :: u.drop (n + 1)
      rw [← hget, List.getElem_cons_drop, List.take_append_drop]

/-- `dtn:none` is neither without a scheme nor without an ssp. -/
theorem ne_defaultEid (hempty : scheme = [] ∨ ssp = []) :
    scheme ++ colon :: ssp ≠ defaultEid.uri := by
  intro heq
  rcases hempty with rfl | rfl
  · have hhead : some colon = defaultEid.uri.head? := congrArg List.head? heq
    exact absurd hhead (by decide)
  · have hlast := congrArg List.getLast? heq
    rw [List.getLast?_append] at hlast
    have hcolon : some colon = defaultEid.uri.getLast? := hlast
    exact absurd hcolon (by decide)

/-- The length that the first constructor computes for the ssp reaches to the end of the URI. -/
theorem length_le_sizeSub {m k : ℕ} (hk : k ≤ m) (hm : m ≤ k + 2046) : m ≤ k + sizeSub m k := by
  unfold sizeSub
  omega

theorem normal_ofUri_iff (hscheme : colon ∉ scheme) (hne : scheme ≠ []) (hne' : ssp ≠ []) :
    Normal (ofUri (scheme ++ colon :: ssp)) ↔ scheme.length ≤ 1023 ∧ ssp.length ≤ 1023 := by
  have hpos := List.length_pos_iff.mpr hne
  have hpos' := List.length_pos_iff.mpr hne'
  have hlength : (scheme ++ colon :: ssp).length = scheme.length + (ssp.length + 1) := by
    rw [List.length_append, List.length_cons]
  rw [ofUri_eq hscheme, normal_cut_iff, schemeLength_of_ne hne hne', hlength]
  constructor
  · rintro ⟨-, hcolon, -, hhigh, -⟩
    by_cases hlong : scheme.length ≤ 1023
    · rw [Nat.min_eq_left hlong] at hhigh
      exact ⟨hlong, by omega⟩
    · -- the character behind the cut belongs to the scheme
      rw [Nat.min_eq_right (by omega), List.getElem?_append_left (by omega)] at hcolon
      exact absurd (List.mem_of_getElem? hcolon) hscheme
  · rintro ⟨hle, hle'⟩
    rw [Nat.min_eq_left hle]
    refine ⟨by omega, by simp, by omega, by omega, ?_⟩
    unfold sizeSub
    omega

theorem normal_ofComponents_iff (hne : scheme ≠ []) (hne' : ssp ≠ []) :
    Normal (ofComponents scheme ssp) ↔ (scheme.length ≤ 1023 ∧ ssp.length ≤ 1023) ∨
      (1023 < scheme.length ∧ scheme[1023]? = some colon ∧ scheme.length + ssp.length ≤ 2046) := by
  have hpos := List.length_pos_iff.mpr hne
  have hpos' := List.length_pos_iff.mpr hne'
  have hlength : (scheme ++ colon :: ssp).length = scheme.length + (ssp.length + 1) := by
    rw [List.length_append, List.length_cons]
  rw [ofComponents_eq, normal_cut_iff, schemeLength_of_ne hne hne', hlength]
  by_cases hlong : scheme.length ≤ 1023
  · rw [Nat.min_eq_left hlong]
    constructor
    · rintro ⟨-, -, -, hhigh, -⟩
      exact Or.inl ⟨hlong, by omega⟩
    · rintro (⟨-, hle⟩ | ⟨hlong', -⟩)
      · exact ⟨by omega, by simp, by omega, by omega, length_le_sizeSub (by omega) (by omega)⟩
      · omega
  · have hinside : (scheme ++ colon :: ssp)[1023]? = scheme[1023]? :=
      List.getElem?_append_left (by omega)
    rw [Nat.min_eq_right (by omega), hinside]
    constructor
    · rintro ⟨-, hcolon, -, hhigh, -⟩
      exact Or.inr ⟨by omega, hcolon, by omega⟩
    · rintro (⟨hle, -⟩ | ⟨-, hcolon, hle⟩)
      · omega
      · exact ⟨by omega, hcolon, by omega, by omega, length_le_sizeSub (by omega) (by omega)⟩

/-- Of the URIs exactly the well-formed ones come out normalised. -/
theorem normalised_ofUri_iff (u : List UInt8) :
    (Normal (ofUri u) ∧ (Malformed u → (ofUri u == defaultEid) = true)) ↔
      ∃ scheme ssp, u = scheme ++ colon :: ssp ∧ Formed scheme ssp := by
  constructor
  · rintro ⟨hnormal, hdefault⟩
    by_cases hmem : colon ∈ u
    · obtain ⟨scheme, ssp, rfl, hscheme⟩ := List.eq_append_cons_of_mem hmem
      by_cases hempty : scheme = [] ∨ ssp = []
      · -- the URI is kept as it is, so it is not that of `dtn:none`
        refine absurd (beq_iff.mp (hdefault ?_)) (ne_defaultEid hempty)
        intro scheme' ssp' heq hscheme'
        obtain ⟨rfl, rfl⟩ := parts_inj heq hscheme hscheme'
        exact hempty
      · obtain ⟨hne, hne'⟩ := not_or.mp hempty
        obtain ⟨hle, hle'⟩ := (normal_ofUri_iff hscheme hne hne').mp hnormal
        exact ⟨scheme, ssp, rfl, hne, hne', hle, hle', hscheme⟩
    · have hmalformed : Malformed u := by
        rintro scheme ssp rfl -
        exact absurd (List.mem_append_right scheme List.mem_cons_self) hmem
      have huri : u = defaultEid.uri := beq_iff.mp (hdefault hmalformed)
      rw [huri] at hmem
      exact absurd (by decide) hmem
  · rintro ⟨scheme, ssp, rfl, h⟩
    refine ⟨(normal_ofUri_iff h.colon h.scheme_ne h.ssp_ne).mpr ⟨h.scheme_le, h.ssp_le⟩, ?_⟩
    intro hmalformed
    rcases hmalformed scheme ssp rfl h.colon with hempty | hempty
    · exact absurd hempty h.scheme_ne
    · exact absurd hempty h.ssp_ne

/-- Of the pairs the non-empty ones of at most 1023 bytes each do, and those of at most 2046 bytes
together whose scheme has a colon where it is cut. -/
theorem normalised_ofComponents_iff (scheme ssp : List UInt8) :
    (Normal (ofComponents scheme ssp) ∧
        (scheme = [] ∨ ssp = [] → (ofComponents scheme ssp == defaultEid) = true)) ↔
      scheme ≠ [] ∧ ssp ≠ [] ∧ ((scheme.length ≤ 1023 ∧ ssp.length ≤ 1023) ∨
        (1023 < scheme.length ∧ scheme[1023]? = some colon ∧ scheme.length + ssp.length ≤ 2046)) := by
  constructor
  · rintro ⟨hnormal, hdefault⟩
    by_cases hempty : scheme = [] ∨ ssp = []
    · exact absurd (beq_iff.mp (hdefault hempty)) (ne_defaultEid hempty)
    · obtain ⟨hne, hne'⟩ := not_or.mp hempty
      exact ⟨hne, hne', (normal_ofComponents_iff hne hne').mp hnormal⟩
  · rintro ⟨hne, hne', hcase⟩
    refine ⟨(normal_ofComponents_iff hne hne').mpr hcase, ?_⟩
    rintro (hempty | hempty)
    · exact absurd hempty hne
    · exact absurd hempty hne'

/-- **What comes out normalised**: a URI exactly when it is well formed, and a pair exactly when its parts
are not empty and survive the cut. -/
theorem normalised_iff (u scheme ssp : List UInt8) :
    ((Normal (ofUri u) ∧ (Malformed u → (ofUri u == defaultEid) = true)) ↔
      ∃ scheme ssp, u = scheme ++ colon :: ssp ∧ Formed scheme ssp) ∧
    ((Normal (ofComponents scheme ssp) ∧
        (scheme = [] ∨ ssp = [] → (ofComponents scheme ssp == defaultEid) = true)) ↔
      scheme ≠ [] ∧ ssp ≠ [] ∧ ((scheme.length ≤ 1023 ∧ ssp.length ≤ 1023) ∨
        (1023 < scheme.length ∧ scheme[1023]? = some colon ∧ scheme.length + ssp.length ≤ 2046))) := by
  constructor
  · exact normalised_ofUri_iff u
  · exact normalised_ofComponents_iff scheme ssp

/-- `abc`, which has no colon: its scheme is all of it, and asking for its ssp throws. -/
theorem not_normal :
    (ofUri [97, 98, 99]).getScheme = some [97, 98, 99] ∧ (ofUri [97, 98, 99]).getSsp = none ∧
      ¬Normal (ofUri [97, 98, 99]) := by
  refine ⟨by decide, by decide, ?_⟩
  rintro ⟨scheme, ssp, -, hssp, -⟩
  exact absurd hssp (by simp [show (ofUri [97, 98, 99]).getSsp = none by decide])

end BpEndpointId
end BundleProtocol
