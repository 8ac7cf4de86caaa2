import BundleProtocol.Tiling
import Mathlib.Data.Set.Lattice
import Mathlib.Order.CompletePartialOrder
import Mathlib.Order.Interval.Set.Basic
import Mathlib.Data.List.Nodup

/-! # Filling a tiled range

The pieces of a tiling arrive one by one, and a set of covered positions grows with them.
A piece that arrives next to covered positions on one side, or on none, is covered itself
and nothing is lost.  A piece that arrives between covered positions on both sides may lose
some of those behind it, and loses the position just behind it (`Fills`).  What is lost once
is lost for good, since every piece comes once: the set is the whole range in the end exactly
when no piece arrived between its two neighbours (`Filled.eq_Ico_iff`).
-/
namespace Tiling

/-- The positions of a piece. -/
def span (r : ℕ × ℕ) : Set ℕ := Set.Ico r.1 (r.1 + r.2)

/-- The positions of some pieces. -/
def cover (rs : List (ℕ × ℕ)) : Set ℕ := {i | ∃ r ∈ rs, i ∈ span r}

/-- Both the position in front of `r` and the one behind it belong to `C`. -/
def Between (C : Set ℕ) (r : ℕ × ℕ) : Prop := (∃ i ∈ C, i + 1 = r.1) ∧ r.1 + r.2 ∈ C

/-- `C'` is what the arrival of `r` may make of the covered positions `C`. -/
structure Fills (C : Set ℕ) (r : ℕ × ℕ) (C' : Set ℕ) : Prop where
  eq : ¬Between C r → C' = C ∪ span r
  subset : C' ⊆ C ∪ span r
  lost : Between C r → r.1 + r.2 ∉ C'

/-- `C` is covered after the arrivals `rs`. -/
inductive Filled : List (ℕ × ℕ) → Set ℕ → Prop
  | nil : Filled [] ∅
  | snoc {rs : List (ℕ × ℕ)} {r : ℕ × ℕ} {C C' : Set ℕ} (hrs : Filled rs C)
      (hr : Fills C r C') : Filled (rs ++ [r]) C'

/-- Some piece arrives after both its neighbours. -/
def ArrivesBetween (rs : List (ℕ × ℕ)) : Prop :=
  ∃ before r after, rs = before ++ r :: after ∧
    (∃ l ∈ before, l.1 + l.2 = r.1) ∧ ∃ n ∈ before, r.1 + r.2 = n.1

variable {ps rs : List (ℕ × ℕ)} {r : ℕ × ℕ} {C C' : Set ℕ} {lo hi : ℕ}

theorem mem_span {i : ℕ} : i ∈ span r ↔ r.1 ≤ i ∧ i < r.1 + r.2 := Iff.rfl

theorem cover_append_singleton : cover (rs ++ [r]) = cover rs ∪ span r := by
  ext i
  simp only [cover, List.mem_append, List.mem_singleton, Set.mem_ofPred_eq, Set.mem_union]
  constructor
  · rintro ⟨q, hq | rfl, hi⟩
    · exact Or.inl ⟨q, hq, hi⟩
    · exact Or.inr hi
  · rintro (⟨q, hq, hi⟩ | hi)
    · exact ⟨q, Or.inl hq, hi⟩
    · exact ⟨r, Or.inr rfl, hi⟩

theorem Tiles.cover_eq (h : Tiles ps lo hi) : cover ps = Set.Ico lo hi := by
  ext i
  constructor
  · rintro ⟨r, hr, hi⟩
    obtain ⟨hlo, -, hhi⟩ := h.bounds hr
    rw [mem_span] at hi
    exact ⟨by omega, by omega⟩
  · rintro ⟨hlo, hhi⟩
    exact h.covers hlo hhi

/-- A piece that has not arrived shares no position with those that have. -/
theorem Tiles.disjoint_cover (h : Tiles ps lo hi) (hsub : rs ⊆ ps) (hr : r ∈ ps) (hnot : r ∉ rs)
    {i : ℕ} (hi : i ∈ span r) : i ∉ cover rs := by
  rintro ⟨q, hq, hiq⟩
  have heq := h.eq_of_overlap hr (hsub hq) hi hiq
  subst heq
  exact hnot hq

/-- Between the pieces that have arrived means between two of them. -/
theorem Tiles.between_cover_iff (h : Tiles ps lo hi) (hsub : rs ⊆ ps) (hr : r ∈ ps)
    (hnot : r ∉ rs) : Between (cover rs) r ↔
      (∃ l ∈ rs, l.1 + l.2 = r.1) ∧ ∃ n ∈ rs, r.1 + r.2 = n.1 := by
  obtain ⟨-, hpos, -⟩ := h.bounds hr
  have hfirst := h.disjoint_cover hsub hr hnot (i := r.1) (mem_span.mpr (by omega))
  have hlast := h.disjoint_cover hsub hr hnot (i := r.1 + r.2 - 1) (mem_span.mpr (by omega))
  refine and_congr ⟨?_, ?_⟩ ⟨?_, ?_⟩
  · rintro ⟨i, ⟨l, hl, hil⟩, hi⟩
    -- the piece reaches up to `r` and not into it
    rw [mem_span] at hil
    refine ⟨l, hl, ?_⟩
    by_contra hne
    exact hfirst ⟨l, hl, mem_span.mpr (by omega)⟩
  · rintro ⟨l, hl, hend⟩
    obtain ⟨-, hlpos, -⟩ := h.bounds (hsub hl)
    exact ⟨r.1 - 1, ⟨l, hl, mem_span.mpr (by omega)⟩, by omega⟩
  · rintro ⟨n, hn, hin⟩
    rw [mem_span] at hin
    refine ⟨n, hn, ?_⟩
    by_contra hne
    exact hlast ⟨n, hn, mem_span.mpr (by omega)⟩
  · rintro ⟨n, hn, hstart⟩
    obtain ⟨-, hnpos, -⟩ := h.bounds (hsub hn)
    exact ⟨n, hn, mem_span.mpr (by omega)⟩

theorem not_arrivesBetween_nil : ¬ArrivesBetween [] := by
  rintro ⟨before, r, after, hsplit, -⟩
  exact absurd hsplit (by simp)

/-- One more arrival is between its neighbours, or an earlier one was. -/
theorem arrivesBetween_append_singleton : ArrivesBetween (rs ++ [r]) ↔
    ArrivesBetween rs ∨ ((∃ l ∈ rs, l.1 + l.2 = r.1) ∧ ∃ n ∈ rs, r.1 + r.2 = n.1) := by
  constructor
  · rintro ⟨before, q, after, hsplit, hq⟩
    rcases List.eq_nil_or_concat after with rfl | ⟨after', last, rfl⟩
    · obtain ⟨rfl, hlast⟩ := List.append_inj' hsplit rfl
      cases hlast
      exact Or.inr hq
    · rw [List.concat_eq_append, ← List.cons_append, ← List.append_assoc] at hsplit
      obtain ⟨rfl, -⟩ := List.append_inj' hsplit rfl
      exact Or.inl ⟨before, q, after', rfl, hq⟩
  · rintro (⟨before, q, after, rfl, hq⟩ | hr)
    · exact ⟨before, q, after ++ [r], by simp, hq⟩
    · exact ⟨rs, r, [], rfl, hr⟩

/-- **What is covered in the course of the arrivals**: all that has arrived, unless a piece
arrived between its neighbours; then something of it is missing. -/
theorem Filled.cover_or_between (hfilled : Filled rs C) (htiles : Tiles ps lo hi) (hsub : rs ⊆ ps)
    (hnodup : rs.Nodup) :
    (¬ArrivesBetween rs ∧ C = cover rs) ∨ (ArrivesBetween rs ∧ C ⊂ cover rs) := by
  induction hfilled with
  | nil =>
    refine Or.inl ⟨not_arrivesBetween_nil, ?_⟩
    ext i
    simp [cover]
  | @snoc rs r C C' hrs hr ih =>
    have hsub' : rs ⊆ ps := fun q hq => hsub (List.mem_append_left _ hq)
    have hmem : r ∈ ps := hsub (by simp)
    obtain ⟨hnodup', -, hdisj⟩ := List.nodup_append.mp hnodup
    have hnot : r ∉ rs := fun h => hdisj r h r (by simp) rfl
    have hbetween := htiles.between_cover_iff hsub' hmem hnot
    rw [arrivesBetween_append_singleton, cover_append_singleton, ← hbetween]
    rcases ih hsub' hnodup' with ⟨hfair, rfl⟩ | ⟨hunfair, hlost⟩
    · by_cases hb : Between (cover rs) r
      · -- the position behind the piece goes
        refine Or.inr ⟨Or.inr hb, hr.subset, fun hle => ?_⟩
        exact hr.lost hb (hle (Or.inl hb.2))
      · exact Or.inl ⟨fun h => h.elim hfair hb, hr.eq hb⟩
    · -- what was missing does not belong to the piece
      obtain ⟨i, hi, hmissing⟩ := Set.exists_of_ssubset hlost
      refine Or.inr ⟨Or.inl hunfair, fun j hj => ?_, fun hle => ?_⟩
      · exact (hr.subset hj).imp_left fun h => hlost.1 h
      · rcases hr.subset (hle (Or.inl hi)) with h | h
        · exact hmissing h
        · exact htiles.disjoint_cover hsub' hmem hnot h hi

/-- **When the range is filled**: after all pieces have arrived, each once, everything is
covered exactly when none arrived between its neighbours. -/
theorem Filled.eq_Ico_iff (hfilled : Filled rs C) (htiles : Tiles ps lo hi) (hperm : rs.Perm ps) :
    C = Set.Ico lo hi ↔ ¬ArrivesBetween rs := by
  have hcover : cover rs = Set.Ico lo hi := by
    rw [← htiles.cover_eq]
    ext i
    simp only [cover, hperm.mem_iff]
  rcases hfilled.cover_or_between htiles hperm.subset (hperm.nodup_iff.mpr htiles.nodup) with
    ⟨hfair, rfl⟩ | ⟨hunfair, hlost⟩
  · exact iff_of_true hcover hfair
  · refine iff_of_false (fun heq => ?_) (not_not_intro hunfair)
    rw [← hcover] at heq
    exact hlost.ne heq

/-- Pieces that arrive in order do not arrive between neighbours. -/
theorem Tiles.not_arrivesBetween (h : Tiles ps lo hi) : ¬ArrivesBetween ps := by
  rintro ⟨before, r, after, rfl, -, n, hn, hstart⟩
  obtain ⟨mid, hbefore, hafter⟩ := h.of_append
  have hb := hbefore.bounds hn
  have hr := hafter.bounds (p := r) List.mem_cons_self
  omega

end Tiling
