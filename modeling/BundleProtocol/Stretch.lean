import BundleProtocol.Tiling
import Mathlib.Data.List.Nodup

/-! # Stretches of a tiled range

Pieces of a tiled range arrive one after another, and the stretch covered so far grows by
a piece exactly when the piece lies next to it, on either side; any other piece is lost.
What is still missing on one side is a row of pieces, nearest first, and an arrival takes
the first one off when it is that one (`advance`): a row is used up exactly when it is a
subsequence of the arrivals (`foldl_advance_eq_nil`).  So the stretch that starts with the
first arrival becomes the whole range exactly when the pieces behind it arrive in order and
those in front of it in reverse order (`GrowsToWhole`).
-/
namespace Tiling

/-- The pieces behind the first arrival come in order, those in front of it in reverse
order; each may come more often, and at other times too. -/
def GrowsToWhole {α : Type*} (ps rs : List α) : Prop :=
  ∃ before first after, ps = before ++ first :: after ∧ rs.head? = some first ∧
    before.reverse.Sublist rs ∧ after.Sublist rs

section Rows
variable {α : Type*} [DecidableEq α]

/-- What is left of a row after the arrival of `p`. -/
def advance (row : List α) (p : α) : List α := if row.head? = some p then row.tail else row

theorem foldl_advance_eq_nil {row rs : List α} :
    rs.foldl advance row = [] ↔ row.Sublist rs := by
  induction rs generalizing row with
  | nil => exact List.sublist_nil.symm
  | cons r rs ih =>
    rw [List.foldl_cons, ih]
    cases row with
    | nil => simp [advance]
    | cons p row =>
      by_cases hp : p = r
      · subst hp
        simp [advance]
      · rw [advance, if_neg (by simpa using hp), List.sublist_cons_iff]
        constructor
        · exact Or.inl
        · rintro (h | ⟨row', heq, -⟩)
          · exact h
          · cases heq
            exact absurd rfl hp

end Rows

/-- An arrival that a row does not hold makes no difference to it. -/
theorem sublist_cons_of_not_mem {α : Type*} {row rs : List α} {r : α} (h : r ∉ row) :
    row.Sublist (r :: rs) ↔ row.Sublist rs := by
  rw [List.sublist_cons_iff]
  constructor
  · rintro (h' | ⟨row', rfl, -⟩)
    · exact h'
    · exact absurd List.mem_cons_self h
  · exact Or.inl

/-- A covered stretch `[lo, hi)` of the range `[0, top)` tiled by `ps`, with the rows of
pieces missing on its two sides. -/
structure Stretch (ps : List (ℕ × ℕ)) (top : ℕ) where
  left : List (ℕ × ℕ)
  mid : List (ℕ × ℕ)
  right : List (ℕ × ℕ)
  lo : ℕ
  hi : ℕ
  split : ps = left.reverse ++ (mid ++ right)
  tiles_left : Tiles left.reverse 0 lo
  tiles_mid : Tiles mid lo hi
  tiles_right : Tiles right hi top
  lt : lo < hi

namespace Stretch
variable {ps : List (ℕ × ℕ)} {top : ℕ}

theorem tiles (st : Stretch ps top) : Tiles ps 0 top := by
  rw [st.split]
  exact st.tiles_left.append (st.tiles_mid.append st.tiles_right)

/-- The first piece missing on the right starts where the stretch ends. -/
theorem head_right (st : Stretch ps top) {p : ℕ × ℕ} (hp : p ∈ ps) :
    st.right.head? = some p ↔ st.hi = p.1 := by
  have htiles := st.tiles
  obtain ⟨-, hpos, hle⟩ := htiles.bounds hp
  have hright := st.tiles_right
  have hsplit := st.split
  cases hrow : st.right with
  | nil =>
    rw [hrow] at hright
    have htop : st.hi = top := by
      generalize st.hi = hi at hright
      cases hright
      rfl
    simp
    omega
  | cons q row =>
    rw [hrow, ← List.singleton_append] at hright
    rw [hrow] at hsplit
    have hq : q ∈ ps := by
      rw [hsplit]
      simp
    obtain ⟨m, hhead, -⟩ := hright.of_append
    obtain ⟨hstart, hqpos, -⟩ := Tiles.singleton_iff.mp hhead
    rw [List.head?_cons, Option.some.injEq]
    constructor
    · rintro rfl
      exact hstart.symm
    · intro hhi
      exact htiles.eq_of_overlap hq hp (x := p.1) (by omega) (by omega)

/-- The first piece missing on the left ends where the stretch starts. -/
theorem head_left (st : Stretch ps top) {p : ℕ × ℕ} (hp : p ∈ ps) :
    st.left.head? = some p ↔ p.1 + p.2 = st.lo := by
  have htiles := st.tiles
  obtain ⟨-, hpos, -⟩ := htiles.bounds hp
  have hleft := st.tiles_left
  have hsplit := st.split
  cases hrow : st.left with
  | nil =>
    rw [hrow] at hleft
    have hzero : st.lo = 0 := by
      generalize st.lo = lo at hleft
      cases hleft
      rfl
    simp
    omega
  | cons q row =>
    rw [hrow, List.reverse_cons] at hleft hsplit
    have hq : q ∈ ps := by
      rw [hsplit]
      simp
    obtain ⟨m, -, hlast⟩ := hleft.of_append
    obtain ⟨-, hqpos, hend⟩ := Tiles.singleton_iff.mp hlast
    rw [List.head?_cons, Option.some.injEq]
    constructor
    · rintro rfl
      exact hend
    · intro hlo
      exact htiles.eq_of_overlap hq hp (x := p.1 + p.2 - 1) (by omega) (by omega)

/-- The stretch is the whole range when nothing is missing. -/
theorem whole_iff (st : Stretch ps top) :
    st.left = [] ∧ st.right = [] ↔ st.lo = 0 ∧ st.hi = top := by
  have hleft := st.tiles_left.eq_nil_iff
  rw [List.reverse_eq_nil_iff] at hleft
  rw [hleft, st.tiles_right.eq_nil_iff, eq_comm (a := 0)]

/-- **The arrival of a piece**: the stretch grows by the piece when they touch. -/
theorem exists_grow (st : Stretch ps top) {p : ℕ × ℕ} (hp : p ∈ ps) :
    ∃ st' : Stretch ps top, st'.left = advance st.left p ∧ st'.right = advance st.right p ∧
      st'.lo = (if p.1 + p.2 = st.lo then p.1 else st.lo) ∧
      st'.hi = if st.hi = p.1 then p.1 + p.2 else st.hi := by
  have hlt := st.lt
  have hleft := st.tiles_left
  have hright := st.tiles_right
  have hsplit := st.split
  unfold advance
  simp only [st.head_left hp, st.head_right hp]
  by_cases hlo : p.1 + p.2 = st.lo
  · have hhi : st.hi ≠ p.1 := by omega
    obtain ⟨row, hrow⟩ := List.head?_eq_some_iff.mp ((st.head_left hp).mpr hlo)
    rw [hrow, List.reverse_cons] at hleft hsplit
    obtain ⟨m, hfront, hlast⟩ := hleft.of_append
    obtain ⟨rfl, hpos, hend⟩ := Tiles.singleton_iff.mp hlast
    have hmid : Tiles (p :: st.mid) p.1 st.hi := .cons hpos (hlo ▸ st.tiles_mid)
    refine ⟨⟨row, p :: st.mid, st.right, p.1, st.hi, ?_, hfront, hmid, hright, by omega⟩, ?_⟩
    · simpa using hsplit
    · simp [hlo, hhi, hrow]
  · by_cases hhi : st.hi = p.1
    · obtain ⟨row, hrow⟩ := List.head?_eq_some_iff.mp ((st.head_right hp).mpr hhi)
      rw [hrow, ← List.singleton_append] at hright
      rw [hrow] at hsplit
      obtain ⟨m, hfirst, hback⟩ := hright.of_append
      obtain ⟨-, hpos, rfl⟩ := Tiles.singleton_iff.mp hfirst
      have hmid := st.tiles_mid.append hfirst
      refine ⟨⟨st.left, st.mid ++ [p], row, st.lo, p.1 + p.2, ?_, hleft, hmid, hback, by omega⟩, ?_⟩
      · simpa using hsplit
      · simp [hlo, hhi, hrow]
    · exact ⟨st, by simp [hlo, hhi]⟩

end Stretch

/-- **The first arrival**, and when the stretch it starts becomes the whole range. -/
theorem Tiles.exists_start {ps : List (ℕ × ℕ)} {top : ℕ} (h : Tiles ps 0 top) {p : ℕ × ℕ}
    (hp : p ∈ ps) : ∃ st : Stretch ps top, st.lo = p.1 ∧ st.hi = p.1 + p.2 ∧
      ∀ rs : List (ℕ × ℕ), (rs.foldl advance st.left = [] ∧ rs.foldl advance st.right = []) ↔
        GrowsToWhole ps (p :: rs) := by
  obtain ⟨before, after, hsplit⟩ := List.append_of_mem hp
  have htiles := h
  rw [hsplit, ← List.singleton_append] at htiles
  obtain ⟨lo, hfront, hrest⟩ := htiles.of_append
  obtain ⟨hi, hmid, hback⟩ := hrest.of_append
  obtain ⟨rfl, hpos, rfl⟩ := Tiles.singleton_iff.mp hmid
  refine ⟨⟨before.reverse, [p], after, p.1, p.1 + p.2, by simpa using hsplit, by simpa using hfront,
    hmid, hback, by omega⟩, rfl, rfl, fun rs => ?_⟩
  have hnodup := h.nodup
  rw [hsplit] at hnodup
  obtain ⟨hbefore, hafter⟩ : p ∉ before ∧ p ∉ after := by
    have hmem := (List.nodup_cons.mp (List.nodup_middle.mp hnodup)).1
    simpa using hmem
  dsimp only
  rw [foldl_advance_eq_nil, foldl_advance_eq_nil]
  constructor
  · rintro ⟨hleft, hright⟩
    exact ⟨before, p, after, hsplit, rfl, hleft.cons p, hright.cons p⟩
  · rintro ⟨before', first, after', hsplit', hhead, hleft, hright⟩
    cases hhead
    -- a piece occurs once, so the two splits are one
    have hsame : before ++ p :: after = before' ++ p :: after' := hsplit.symm.trans hsplit'
    obtain ⟨rfl, -, rfl⟩ := (List.append_cons_inj_of_notMem hbefore hafter).mp hsame
    exact ⟨(sublist_cons_of_not_mem (by simpa using hbefore)).mp hleft,
      (sublist_cons_of_not_mem hafter).mp hright⟩

end Tiling
