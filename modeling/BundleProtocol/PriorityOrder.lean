import BundleProtocol.BundleStore

/-! # The priority order of bundles

`BundlePriorityCompare` compares bundles level by level.  All levels but one are plain orders; sequence
numbers wrap around, so that three of them can come one before the other in a circle.  Such a circle
among bundles of one priority and one creation timestamp is all that keeps the comparator from being
a strict weak ordering (`compare_strictOrderOn_iff`).
-/
namespace BundleProtocol
open OrderedList

/-! ## Sequence numbers -/

/-- `operator <` of `SequenceNumber32` in plain numbers. -/
theorem seqLt_iff {x y : UInt32} : seqLt x y = true ↔
    (x.toNat < y.toNat ∧ y.toNat - x.toNat < 2 ^ 31) ∨
      (y.toNat < x.toNat ∧ 2 ^ 31 ≤ x.toNat - y.toNat) := by
  by_cases he : x = y
  · subst he
    simp [seqLt]
  · have hne : x.toNat ≠ y.toNat := fun h => he (UInt32.toNat_inj.mp h)
    simp only [seqLt, seqGt, Bool.and_eq_true, bne_iff_ne, ne_eq, he, not_false_eq_true, true_and,
      Bool.not_eq_true', Bool.or_eq_false_iff, Bool.and_eq_false_iff, decide_eq_false_iff_not]
    omega

theorem seqLt_asymm {x y : UInt32} (h : seqLt x y = true) : seqLt y x = false := by
  rw [← Bool.not_eq_true, seqLt_iff]
  rw [seqLt_iff] at h
  omega

/-- Three numbers with gaps of less than half the range that reach over half of it. -/
def Spread (x y z : UInt32) : Prop :=
  x.toNat < y.toNat ∧ y.toNat < z.toNat ∧ y.toNat - x.toNat < 2 ^ 31 ∧ z.toNat - y.toNat < 2 ^ 31 ∧
    2 ^ 31 ≤ z.toNat - x.toNat

/-- Sequence numbers come one before the other in a circle when they are spread. -/
theorem seqLt_cycle_iff {x y z : UInt32} :
    (seqLt x y = true ∧ seqLt y z = true ∧ seqLt z x = true) ↔
      Spread x y z ∨ Spread y z x ∨ Spread z x y := by
  simp only [seqLt_iff, Spread]
  omega

/-! ## Levels of a comparator -/

/-- One level of the comparator goes one way only when its comparison does and what follows on
equality does. -/
theorem level_asymm {α : Type} {a b : α} [Decidable (a ≠ b)] [Decidable (b ≠ a)]
    {r : α → α → Bool} {next next' : Bool} (hr : r a b = true → r b a = false)
    (hnext : a = b → next = true → next' = false)
    (h : (if a ≠ b then r a b else next) = true) : (if b ≠ a then r b a else next') = false := by
  by_cases he : a = b
  · subst he
    simpa using hnext rfl (by simpa using h)
  · have hflip : b ≠ a := Ne.symm he
    rw [if_pos he] at h
    rw [if_pos hflip]
    exact hr h

/-- A circle on one level is a circle of its comparison or, among equal keys, of what follows. -/
theorem level_cycle {α : Type} {a b c : α} [Decidable (a ≠ b)] [Decidable (b ≠ c)] [Decidable (c ≠ a)]
    {r : α → α → Bool} {n₁ n₂ n₃ : Bool} (hr : ∀ x y, r x y = true → r y x = false)
    (h₁ : (if a ≠ b then r a b else n₁) = true) (h₂ : (if b ≠ c then r b c else n₂) = true)
    (h₃ : (if c ≠ a then r c a else n₃) = true) :
    (r a b = true ∧ r b c = true ∧ r c a = true) ∨
      (a = b ∧ b = c ∧ n₁ = true ∧ n₂ = true ∧ n₃ = true) := by
  -- where two keys are equal the third comparison goes against one of the others
  have hback : ∀ x y, r x y = true → r y x = true → False := by
    intro x y hxy hyx
    rw [hr x y hxy] at hyx
    cases hyx
  by_cases hab : a = b
  · subst hab
    by_cases hac : a = c
    · subst hac
      simp only [ne_eq, not_true, if_false] at h₁ h₂ h₃
      exact Or.inr ⟨rfl, rfl, h₁, h₂, h₃⟩
    · rw [if_pos hac] at h₂
      rw [if_pos (Ne.symm hac)] at h₃
      exact absurd h₃ fun h => hback a c h₂ h
  · rw [if_pos hab] at h₁
    by_cases hbc : b = c
    · subst hbc
      rw [if_pos (Ne.symm hab)] at h₃
      exact absurd h₃ fun h => hback a b h₁ h
    · rw [if_pos hbc] at h₂
      by_cases hca : c = a
      · subst hca
        exact absurd h₂ fun h => hback c b h₁ h
      · rw [if_pos hca] at h₃
        exact Or.inl ⟨h₁, h₂, h₃⟩

section Keys
variable {α β : Type} [LinearOrder β] {f : α → β} {r : α → α → Bool}

/-- A comparison by keys of a plain order goes one way only. -/
theorem asymm_of_key (hr : ∀ a b, r a b = true ↔ f a < f b) (a b : α) (h : r a b = true) :
    r b a = false := by
  rw [← Bool.not_eq_true, hr]
  exact ((hr a b).mp h).asymm

/-- It has no circles. -/
theorem not_cycle_of_key (hr : ∀ a b, r a b = true ↔ f a < f b) {a b c : α} :
    ¬(r a b = true ∧ r b c = true ∧ r c a = true) := by
  rintro ⟨hab, hbc, hca⟩
  have hac := asymm_of_key hr c a hca
  rw [(hr a c).mpr (((hr a b).mp hab).trans ((hr b c).mp hbc))] at hac
  cases hac

end Keys

/-- The comparisons of the comparator's levels, but for that of the sequence numbers. -/
theorem byte_key (x y : UInt8) : decide (x.toNat < y.toNat) = true ↔ x.toNat < y.toNat := decide_eq_true_iff

theorem word_key (x y : UInt32) : decide (x.toNat < y.toNat) = true ↔ x.toNat < y.toNat :=
  decide_eq_true_iff

theorem string_key (x y : List UInt8) : stringLt x y = true ↔ x.map UInt8.toNat < y.map UInt8.toNat :=
  decide_eq_true_iff

theorem ptr_key (p q : Ptr) : decide (p < q) = true ↔ p < q := decide_eq_true_iff

/-! ## The comparator -/

/-- **Of two bundles at most one comes first**, whatever their headers. -/
theorem bundlePriorityCompare_asymm {g h : BpHeader6} {p q : Ptr}
    (hlt : bundlePriorityCompare g h p q = true) : bundlePriorityCompare h g q p = false := by
  refine level_asymm (r := fun x y => decide (UInt8.toNat x < UInt8.toNat y))
    (asymm_of_key byte_key _ _)
    (fun _ => level_asymm (r := fun x y => decide (UInt32.toNat x < UInt32.toNat y))
      (asymm_of_key word_key _ _)
      (fun _ => level_asymm seqLt_asymm
        (fun _ => level_asymm (r := fun x y => decide (UInt32.toNat x < UInt32.toNat y))
          (asymm_of_key word_key _ _)
          (fun _ => level_asymm (r := stringLt) (asymm_of_key string_key _ _) ?_)))) hlt
  intro _
  exact asymm_of_key ptr_key p q

/-- The three headers have one priority and one creation timestamp, and spread sequence numbers. -/
structure SpreadHeaders (f g h : BpHeader6) : Prop where
  priority : f.priority = g.priority ∧ g.priority = h.priority
  createTimestamp : f.createTimestamp = g.createTimestamp ∧ g.createTimestamp = h.createTimestamp
  timestampSeqNum : Spread f.timestampSeqNum g.timestampSeqNum h.timestampSeqNum

/-- Bundles that come one before the other in a circle have spread headers. -/
theorem spreadHeaders_of_cycle {f g h : BpHeader6} {p q r : Ptr}
    (hfg : bundlePriorityCompare f g p q = true) (hgh : bundlePriorityCompare g h q r = true)
    (hhf : bundlePriorityCompare h f r p = true) :
    SpreadHeaders f g h ∨ SpreadHeaders g h f ∨ SpreadHeaders h f g := by
  -- level by level: only the sequence numbers can go in a circle
  rcases level_cycle (asymm_of_key byte_key) hfg hgh hhf with hcycle | ⟨hp, hp', hfg, hgh, hhf⟩
  · exact absurd hcycle (not_cycle_of_key byte_key)
  rcases level_cycle (asymm_of_key word_key) hfg hgh hhf with hcycle | ⟨ht, ht', hfg, hgh, hhf⟩
  · exact absurd hcycle (not_cycle_of_key word_key)
  rcases level_cycle (r := seqLt) (fun _ _ => seqLt_asymm) hfg hgh hhf with
    hcycle | ⟨-, -, hfg, hgh, hhf⟩
  · rcases seqLt_cycle_iff.mp hcycle with hs | hs | hs
    · exact Or.inl ⟨⟨hp, hp'⟩, ⟨ht, ht'⟩, hs⟩
    · exact Or.inr (Or.inl ⟨⟨hp', (hp.trans hp').symm⟩, ⟨ht', (ht.trans ht').symm⟩, hs⟩)
    · exact Or.inr (Or.inr ⟨⟨(hp.trans hp').symm, hp⟩, ⟨(ht.trans ht').symm, ht⟩, hs⟩)
  rcases level_cycle (asymm_of_key word_key) hfg hgh hhf with hcycle | ⟨-, -, hfg, hgh, hhf⟩
  · exact absurd hcycle (not_cycle_of_key word_key)
  rcases level_cycle (asymm_of_key string_key) hfg hgh hhf with hcycle | ⟨-, -, hfg, hgh, hhf⟩
  · exact absurd hcycle (not_cycle_of_key string_key)
  · exact absurd ⟨hfg, hgh, hhf⟩ (not_cycle_of_key ptr_key)

/-- Where priority and timestamp agree, the sequence numbers decide, if they differ. -/
theorem bundlePriorityCompare_of_seqLt {g h : BpHeader6} {p q : Ptr} (hp : g.priority = h.priority)
    (ht : g.createTimestamp = h.createTimestamp) (hs : seqLt g.timestampSeqNum h.timestampSeqNum = true) :
    bundlePriorityCompare g h p q = true := by
  have hne : g.timestampSeqNum ≠ h.timestampSeqNum := by
    intro he
    rw [he, seqLt_irrefl] at hs
    cases hs
  unfold bundlePriorityCompare
  rw [if_neg (not_not_intro hp), if_neg (not_not_intro ht), if_pos hne]
  exact hs

/-- **`BundlePriorityCompare` is a strict weak ordering exactly where no three bundles are spread.**
On any set of bundle objects, whatever their headers: it is irreflexive, asymmetric, transitive and
tells distinct bundles apart if and only if no three of them have one priority, one creation timestamp
and sequence numbers that reach over half the range with gaps of less than half. -/
theorem compare_strictOrderOn_iff (st : BundleStore) (S : Set Ptr) : StrictOrderOn st.compare S ↔
    ∀ a ∈ S, ∀ b ∈ S, ∀ c ∈ S, ¬SpreadHeaders (st.header a) (st.header b) (st.header c) := by
  have htotal : ∀ a b, a ≠ b → st.compare a b = true ∨ st.compare b a = true := by
    intro a b hne
    cases hlt : st.compare a b with
    | true => exact Or.inl rfl
    | false => exact Or.inr (bundlePriorityCompare_total hne hlt)
  have hirrefl : ∀ a, st.compare a a = false := fun a => bundlePriorityCompare_irrefl _ a
  have hasymm : ∀ a b, st.compare a b = true → st.compare b a = false :=
    fun a b hab => bundlePriorityCompare_asymm hab
  rw [strictOrderOn_iff hirrefl hasymm htotal]
  constructor
  · intro hcycle a ha b hb c hc hspread
    obtain ⟨hab, hbc, hca⟩ := seqLt_cycle_iff.mpr (Or.inl hspread.timestampSeqNum)
    obtain ⟨hp, hp'⟩ := hspread.priority
    obtain ⟨ht, ht'⟩ := hspread.createTimestamp
    exact hcycle a ha b hb c hc ⟨bundlePriorityCompare_of_seqLt hp ht hab,
      bundlePriorityCompare_of_seqLt hp' ht' hbc,
      bundlePriorityCompare_of_seqLt (hp.trans hp').symm (ht.trans ht').symm hca⟩
  · rintro hspread a ha b hb c hc ⟨hab, hbc, hca⟩
    rcases spreadHeaders_of_cycle hab hbc hca with hs | hs | hs
    · exact hspread a ha b hb c hc hs
    · exact hspread b hb c hc a ha hs
    · exact hspread c hc a ha b hb hs

/-- A bundle of priority 0 that was created at time 0, with this sequence number. -/
def Sample.numbered (seq : UInt32) : BpHeader6 := { BpHeader6.new false with timestampSeqNum := seq }

/-- The bundle numbered 0 comes before that numbered 2³¹ - 1, which comes before that numbered 2³¹,
which comes before the first. -/
theorem bundlePriorityCompare_cycle :
    bundlePriorityCompare (Sample.numbered 0) (Sample.numbered 0x7FFFFFFF) 1 2 = true ∧
      bundlePriorityCompare (Sample.numbered 0x7FFFFFFF) (Sample.numbered 0x80000000) 2 3 = true ∧
      bundlePriorityCompare (Sample.numbered 0) (Sample.numbered 0x80000000) 1 3 = false := by
  decide

end BundleProtocol
