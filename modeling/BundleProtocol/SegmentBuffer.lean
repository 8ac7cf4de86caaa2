import BundleProtocol.Filling

/-! # Buffers of separated ranges

A buffer keeps ranges under indices, any two of them with a gap in between.  When a piece
arrives that overlaps none of them, the range in front of it takes it in, when there is one
that ends where the piece starts; otherwise the piece becomes a range of its own and takes in
the range behind it.  The range behind it leaves the buffer in either case (`Arrives`).  The
ranges stay separated (`Arrives.separated`), and as sets of positions they fill as `Fills`
says: between two ranges the one behind is lost (`Arrives.fills`).
-/
namespace Tiling

/-- Ranges, as offset and length, under some of the indices. -/
structure SegmentBuffer (ι : Type*) where
  dom : Set ι
  seg : ι → ℕ × ℕ

namespace SegmentBuffer
variable {ι : Type*} {B B' : SegmentBuffer ι} {b x : ι} {r : ℕ × ℕ}

/-- The positions that the ranges cover. -/
def covered (B : SegmentBuffer ι) : Set ℕ := {i | ∃ x ∈ B.dom, i ∈ span (B.seg x)}

/-- No range is empty, and between two of them there is a gap. -/
structure Separated (B : SegmentBuffer ι) : Prop where
  pos : ∀ x ∈ B.dom, 0 < (B.seg x).2
  gap : ∀ x ∈ B.dom, ∀ y ∈ B.dom, x ≠ y →
    (B.seg x).1 + (B.seg x).2 < (B.seg y).1 ∨ (B.seg y).1 + (B.seg y).2 < (B.seg x).1

/-- The range at `x` ends where `r` starts. -/
def InFront (B : SegmentBuffer ι) (r : ℕ × ℕ) (x : ι) : Prop :=
  x ∈ B.dom ∧ (B.seg x).1 + (B.seg x).2 = r.1

/-- The range at `x` starts where `r` ends. -/
def Behind (B : SegmentBuffer ι) (r : ℕ × ℕ) (x : ι) : Prop :=
  x ∈ B.dom ∧ (B.seg x).1 = r.1 + r.2

/-- The range that has taken in the arrived piece `r` is at `a`: what it was before, or the
piece itself with what is behind it. -/
inductive Takes (B B' : SegmentBuffer ι) (r : ℕ × ℕ) (a : ι) : Prop
  | front (ha : B.InFront r a) (hseg : B'.seg a = ((B.seg a).1, (B.seg a).2 + r.2))
  | behind (ha : a ∉ B.dom) (hfront : ∀ x, ¬B.InFront r x) {y : ι} (hy : B.Behind r y)
      (hseg : B'.seg a = (r.1, r.2 + (B.seg y).2))
  | alone (ha : a ∉ B.dom) (hfront : ∀ x, ¬B.InFront r x) (hbehind : ∀ x, ¬B.Behind r x)
      (hseg : B'.seg a = r)

/-- **The arrival of the piece `r`.** -/
structure Arrives (B : SegmentBuffer ι) (r : ℕ × ℕ) (a : ι) (B' : SegmentBuffer ι) : Prop where
  dom : ∀ x, x ∈ B'.dom ↔ (x = a ∨ x ∈ B.dom) ∧ ¬B.Behind r x
  same : ∀ x ∈ B'.dom, x ≠ a → B'.seg x = B.seg x
  takes : Takes B B' r a

variable {a : ι}

theorem mem_covered {i : ℕ} : i ∈ B.covered ↔
    ∃ x ∈ B.dom, (B.seg x).1 ≤ i ∧ i < (B.seg x).1 + (B.seg x).2 := Iff.rfl

theorem covered_congr (hdom : ∀ x, x ∈ B'.dom ↔ x ∈ B.dom)
    (hseg : ∀ x ∈ B.dom, B'.seg x = B.seg x) : B'.covered = B.covered := by
  ext i
  refine exists_congr fun x => ?_
  rw [hdom]
  refine and_congr_right fun hx => ?_
  rw [hseg x hx]

theorem Separated.congr (hB : B.Separated) (hdom : ∀ x, x ∈ B'.dom ↔ x ∈ B.dom)
    (hseg : ∀ x ∈ B.dom, B'.seg x = B.seg x) : B'.Separated where
  pos x hx := by
    rw [hseg x ((hdom x).mp hx)]
    exact hB.pos x ((hdom x).mp hx)
  gap x hx y hy hne := by
    rw [hseg x ((hdom x).mp hx), hseg y ((hdom y).mp hy)]
    exact hB.gap x ((hdom x).mp hx) y ((hdom y).mp hy) hne

/-- A range that the piece does not overlap lies on one side of it. -/
theorem Separated.side (hB : B.Separated) (hpos : 0 < r.2) (hdisj : ∀ i ∈ span r, i ∉ B.covered)
    (hx : x ∈ B.dom) :
    (B.seg x).1 + (B.seg x).2 ≤ r.1 ∨ r.1 + r.2 ≤ (B.seg x).1 := by
  by_contra hside
  have hxpos := hB.pos x hx
  -- the larger of the two starts lies in both
  refine hdisj (max r.1 (B.seg x).1) (mem_span.mpr (by omega)) (mem_covered.mpr ⟨x, hx, ?_⟩)
  omega

theorem Separated.inFront_unique (hB : B.Separated) {y : ι} (hx : B.InFront r x)
    (hy : B.InFront r y) : x = y := by
  by_contra hne
  have hgap := hB.gap x hx.1 y hy.1 hne
  have hxend := hx.2
  have hyend := hy.2
  omega

theorem Separated.behind_unique (hB : B.Separated) {y : ι} (hx : B.Behind r x)
    (hy : B.Behind r y) : x = y := by
  by_contra hne
  have hgap := hB.gap x hx.1 y hy.1 hne
  have hxstart := hx.2
  have hystart := hy.2
  omega

/-- The range that has taken the piece in, next to another one. -/
theorem Arrives.gap_of_ne (h : Arrives B r a B') (hB : B.Separated) (hpos : 0 < r.2)
    (hdisj : ∀ i ∈ span r, i ∉ B.covered) {y : ι} (hy : y ∈ B'.dom) (hne : y ≠ a) :
    (B'.seg a).1 + (B'.seg a).2 < (B'.seg y).1 ∨ (B'.seg y).1 + (B'.seg y).2 < (B'.seg a).1 := by
  obtain ⟨hself | hmem, hnot⟩ := (h.dom y).mp hy
  · exact absurd hself hne
  have hside := hB.side hpos hdisj hmem
  have hbehind : (B.seg y).1 ≠ r.1 + r.2 := fun he => hnot ⟨hmem, he⟩
  rw [h.same y hy hne]
  cases h.takes with
  | front ha hseg =>
    have hgap := hB.gap a ha.1 y hmem (Ne.symm hne)
    have hend := ha.2
    rw [hseg]
    dsimp only
    omega
  | @behind _ hfront z hz hseg =>
    have hyz : y ≠ z := by
      rintro rfl
      exact hnot hz
    have hgap := hB.gap z hz.1 y hmem (Ne.symm hyz)
    have hend : (B.seg y).1 + (B.seg y).2 ≠ r.1 := fun he => hfront y ⟨hmem, he⟩
    have hstart := hz.2
    have hypos := hB.pos y hmem
    rw [hseg]
    dsimp only
    omega
  | alone _ hfront _ hseg =>
    have hend : (B.seg y).1 + (B.seg y).2 ≠ r.1 := fun he => hfront y ⟨hmem, he⟩
    rw [hseg]
    omega

/-- **The ranges stay separated.** -/
theorem Arrives.separated (h : Arrives B r a B') (hB : B.Separated) (hpos : 0 < r.2)
    (hdisj : ∀ i ∈ span r, i ∉ B.covered) : B'.Separated where
  pos x hx := by
    by_cases hxa : x = a
    · subst hxa
      cases h.takes with
      | front _ hseg =>
        rw [hseg]
        dsimp only
        omega
      | behind _ _ _ hseg =>
        rw [hseg]
        dsimp only
        omega
      | alone _ _ _ hseg =>
        rw [hseg]
        exact hpos
    · rw [h.same x hx hxa]
      exact hB.pos x (((h.dom x).mp hx).1.resolve_left hxa)
  gap x hx y hy hne := by
    by_cases hxa : x = a
    · subst hxa
      exact h.gap_of_ne hB hpos hdisj hy (Ne.symm hne)
    · by_cases hya : y = a
      · subst hya
        exact (h.gap_of_ne hB hpos hdisj hx hne).symm
      · rw [h.same x hx hxa, h.same y hy hya]
        exact hB.gap x (((h.dom x).mp hx).1.resolve_left hxa) y
          (((h.dom y).mp hy).1.resolve_left hya) hne

/-- The piece lies between covered positions when there is a range on each side. -/
theorem Separated.between_iff (hB : B.Separated) (hpos : 0 < r.2)
    (hdisj : ∀ i ∈ span r, i ∉ B.covered) :
    Between B.covered r ↔ (∃ x, B.InFront r x) ∧ ∃ x, B.Behind r x := by
  refine and_congr ⟨?_, ?_⟩ ⟨?_, ?_⟩
  · rintro ⟨i, ⟨x, hx, hix⟩, hi⟩
    have hside := hB.side hpos hdisj hx
    rw [mem_span] at hix
    exact ⟨x, hx, by omega⟩
  · rintro ⟨x, hx, hend⟩
    have hxpos := hB.pos x hx
    exact ⟨r.1 - 1, ⟨x, hx, mem_span.mpr (by omega)⟩, by omega⟩
  · rintro ⟨x, hx, hix⟩
    have hside := hB.side hpos hdisj hx
    rw [mem_span] at hix
    exact ⟨x, hx, by omega⟩
  · rintro ⟨x, hx, hstart⟩
    have hxpos := hB.pos x hx
    exact ⟨x, hx, mem_span.mpr (by omega)⟩

/-- The index that has taken the piece in is in use. -/
theorem Arrives.mem_dom (h : Arrives B r a B') (hpos : 0 < r.2) : a ∈ B'.dom := by
  rw [h.dom]
  refine ⟨Or.inl rfl, fun hbehind => ?_⟩
  cases h.takes with
  | front ha _ =>
    have hend := ha.2
    have hstart := hbehind.2
    omega
  | behind ha _ _ _ => exact ha hbehind.1
  | alone ha _ _ _ => exact ha hbehind.1

/-- Nothing is covered that was neither covered before nor belongs to the piece. -/
theorem Arrives.covered_subset (h : Arrives B r a B') : B'.covered ⊆ B.covered ∪ span r := by
  rintro i ⟨x, hx, hix⟩
  by_cases hxa : x = a
  · subst hxa
    rw [mem_span] at hix
    cases h.takes with
    | front ha hseg =>
      have hend := ha.2
      rw [hseg] at hix
      by_cases hi : i < r.1
      · exact Or.inl (mem_covered.mpr ⟨x, ha.1, by omega⟩)
      · exact Or.inr (mem_span.mpr (by omega))
    | @behind _ _ y hy hseg =>
      have hstart := hy.2
      rw [hseg] at hix
      by_cases hi : i < r.1 + r.2
      · exact Or.inr (mem_span.mpr (by omega))
      · exact Or.inl (mem_covered.mpr ⟨y, hy.1, by omega⟩)
    | alone _ _ _ hseg =>
      rw [hseg] at hix
      exact Or.inr hix
  · rw [h.same x hx hxa] at hix
    exact Or.inl ⟨x, ((h.dom x).mp hx).1.resolve_left hxa, hix⟩

/-- The piece is covered, and so is what it is added to. -/
theorem Arrives.span_subset (h : Arrives B r a B') (hpos : 0 < r.2) :
    span r ⊆ B'.covered := by
  intro i hi
  rw [mem_span] at hi
  refine mem_covered.mpr ⟨a, h.mem_dom hpos, ?_⟩
  cases h.takes with
  | front ha hseg =>
    have hend := ha.2
    rw [hseg]
    omega
  | behind _ _ hy hseg =>
    rw [hseg]
    omega
  | alone _ _ _ hseg =>
    rw [hseg]
    exact hi

/-- A covered position stays covered unless it belongs to the range behind and there is one in
front. -/
theorem Arrives.mem_covered_of_mem (h : Arrives B r a B') (hB : B.Separated) (hpos : 0 < r.2)
    {i : ℕ} (hx : x ∈ B.dom) (hix : i ∈ span (B.seg x))
    (hone : B.Behind r x → ∀ y, ¬B.InFront r y) : i ∈ B'.covered := by
  have ha := h.mem_dom hpos
  rw [mem_span] at hix
  by_cases hxa : x = a
  · subst hxa
    cases h.takes with
    | front hfront hseg =>
      refine mem_covered.mpr ⟨x, ha, ?_⟩
      rw [hseg]
      omega
    | behind hnot _ _ _ => exact absurd hx hnot
    | alone hnot _ _ _ => exact absurd hx hnot
  · by_cases hbehind : B.Behind r x
    · -- the arrived piece takes the range in
      cases h.takes with
      | front hfront _ => exact absurd hfront (hone hbehind a)
      | @behind _ _ y hy hseg =>
        have hstart := hbehind.2
        obtain rfl := hB.behind_unique hbehind hy
        refine mem_covered.mpr ⟨a, ha, ?_⟩
        rw [hseg]
        omega
      | alone _ _ hnone _ => exact absurd hbehind (hnone x)
    · have hx' : x ∈ B'.dom := (h.dom x).mpr ⟨Or.inr hx, hbehind⟩
      refine mem_covered.mpr ⟨x, hx', ?_⟩
      rw [h.same x hx' hxa]
      exact hix

/-- **As sets of positions, the ranges fill.** -/
theorem Arrives.fills (h : Arrives B r a B') (hB : B.Separated) (hpos : 0 < r.2)
    (hdisj : ∀ i ∈ span r, i ∉ B.covered) : Fills B.covered r B'.covered := by
  have hbetween := hB.between_iff hpos hdisj
  refine ⟨fun hnot => ?_, h.covered_subset, fun hb => ?_⟩
  · refine Set.Subset.antisymm h.covered_subset (Set.union_subset ?_ (h.span_subset hpos))
    rintro i ⟨x, hx, hix⟩
    refine h.mem_covered_of_mem hB hpos hx hix fun hbehind y hfront => ?_
    exact hnot (hbetween.mpr ⟨⟨y, hfront⟩, x, hbehind⟩)
  · -- the range behind is gone, and no other one reaches its first position
    obtain ⟨⟨y, hfront⟩, z, hbehind⟩ := hbetween.mp hb
    rintro ⟨x, hx, hix⟩
    rw [mem_span] at hix
    have hstart := hbehind.2
    obtain ⟨-, hnot⟩ := (h.dom x).mp hx
    by_cases hxa : x = a
    · subst hxa
      cases h.takes with
      | front ha hseg =>
        have hend := ha.2
        rw [hseg] at hix
        dsimp only at hix
        omega
      | behind _ hnone _ _ => exact hnone y hfront
      | alone _ hnone _ _ => exact hnone y hfront
    · have hmem := ((h.dom x).mp hx).1.resolve_left hxa
      have hne : x ≠ z := by
        rintro rfl
        exact hnot hbehind
      have hgap := hB.gap x hmem z hbehind.1 hne
      have hzpos := hB.pos z hbehind.1
      rw [h.same x hx hxa] at hix
      omega

/-- Separated ranges that cover a whole interval are one range. -/
theorem Separated.eq_of_covered (hB : B.Separated) {top : ℕ} (hcover : B.covered = Set.Ico 0 top)
    (hx : x ∈ B.dom) : B.seg x = (0, top) ∧ ∀ y ∈ B.dom, y = x := by
  have hxpos := hB.pos x hx
  have hmem : ∀ i, i ∈ B.covered ↔ i < top := by
    intro i
    rw [hcover]
    exact ⟨fun h => h.2, fun h => ⟨Nat.zero_le i, h⟩⟩
  have hlast := (hmem ((B.seg x).1 + (B.seg x).2 - 1)).mp (mem_covered.mpr ⟨x, hx, by omega⟩)
  have hstart : (B.seg x).1 = 0 := by
    by_contra hne
    -- the position in front of the range would belong to another one
    obtain ⟨y, hy, hiy⟩ := mem_covered.mp ((hmem ((B.seg x).1 - 1)).mpr (by omega))
    have hne' : x ≠ y := by
      rintro rfl
      omega
    have hgap := hB.gap x hx y hy hne'
    omega
  have hend : (B.seg x).1 + (B.seg x).2 = top := by
    by_contra hne
    obtain ⟨y, hy, hiy⟩ := mem_covered.mp ((hmem ((B.seg x).1 + (B.seg x).2)).mpr (by omega))
    have hne' : x ≠ y := by
      rintro rfl
      omega
    have hgap := hB.gap x hx y hy hne'
    omega
  refine ⟨Prod.ext hstart (by dsimp only; omega), fun y hy => ?_⟩
  by_contra hne
  have hypos := hB.pos y hy
  have hlast' := (hmem (B.seg y).1).mp (mem_covered.mpr ⟨y, hy, by omega⟩)
  have hgap := hB.gap x hx y hy (Ne.symm hne)
  omega

end SegmentBuffer
end Tiling
