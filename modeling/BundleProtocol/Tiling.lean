import Mathlib.Algebra.Order.Ring.Nat
import Mathlib.Data.List.Basic
import Mathlib.Data.List.Forall2
import Mathlib.Logic.Relation
import Mathlib.Order.Lattice

/-! # Half-open ranges and slices

A piece is a range `[o, o + n)` of positions, written `(o, n)`.  `Tiles ps lo hi`
says that the pieces of `ps` are non-empty and lie one after another from `lo` to
`hi`; `slice l o n` is what a string `l` holds at a piece.  A stream of packets that is cut
into chunks, none of which reaches beyond its packet, is cut at the packets
(`eq_of_flatten_eq`).  A chain of steps between positions that starts at or below `x` and
ends above it has a step across `x` (`exists_step_across`), whatever detours it makes.
-/
namespace Tiling
variable {α : Type*}

/-- The `n` elements of `l` from position `o` on. -/
def slice (l : List α) (o n : ℕ) : List α := (l.drop o).take n

theorem length_slice {l : List α} {o n : ℕ} (h : o + n ≤ l.length) :
    (slice l o n).length = n := by
  simp [slice]
  omega

theorem length_slice_le (l : List α) (o n : ℕ) : (slice l o n).length ≤ l.length :=
  ((List.take_sublist n _).trans (List.drop_sublist o l)).length_le

theorem slice_append (l : List α) (o m n : ℕ) :
    slice l o m ++ slice l (o + m) n = slice l o (m + n) := by
  unfold slice
  rw [List.take_add, List.drop_drop]

theorem slice_length (l : List α) : slice l 0 l.length = l := by
  simp [slice]

/-- Non-empty pieces that follow one another from `lo` to `hi`. -/
inductive Tiles : List (ℕ × ℕ) → ℕ → ℕ → Prop
  | nil (lo : ℕ) : Tiles [] lo lo
  | cons {ps : List (ℕ × ℕ)} {lo n hi : ℕ} (hn : 0 < n) (hps : Tiles ps (lo + n) hi) :
      Tiles ((lo, n) :: ps) lo hi

namespace Tiles
variable {ps qs : List (ℕ × ℕ)} {lo mid hi : ℕ}

theorem le (h : Tiles ps lo hi) : lo ≤ hi := by
  induction h with
  | nil lo => exact Nat.le_refl lo
  | cons hn _ ih => omega

theorem bounds (h : Tiles ps lo hi) {p : ℕ × ℕ} (hp : p ∈ ps) :
    lo ≤ p.1 ∧ 0 < p.2 ∧ p.1 + p.2 ≤ hi := by
  induction h with
  | nil => cases hp
  | cons hn hps ih =>
    have hle := hps.le
    rcases List.mem_cons.mp hp with rfl | hp
    · exact ⟨Nat.le_refl _, hn, hle⟩
    · have hb := ih hp
      omega

theorem append (h : Tiles ps lo mid) (h' : Tiles qs mid hi) : Tiles (ps ++ qs) lo hi := by
  induction h with
  | nil => exact h'
  | cons hn _ ih => exact .cons hn (ih h')

theorem of_append (h : Tiles (ps ++ qs) lo hi) : ∃ mid, Tiles ps lo mid ∧ Tiles qs mid hi := by
  induction ps generalizing lo with
  | nil => exact ⟨lo, .nil lo, h⟩
  | cons p ps ih =>
    cases h with
    | cons hn h =>
      obtain ⟨mid, hps, hqs⟩ := ih h
      exact ⟨mid, .cons hn hps, hqs⟩

theorem singleton_iff {p : ℕ × ℕ} :
    Tiles [p] lo hi ↔ p.1 = lo ∧ 0 < p.2 ∧ p.1 + p.2 = hi := by
  constructor
  · rintro (_ | ⟨hn, hnil⟩)
    cases hnil
    exact ⟨rfl, hn, rfl⟩
  · rintro ⟨rfl, hn, rfl⟩
    exact .cons hn (.nil _)

/-- An empty row of pieces tiles an empty range, and only that. -/
theorem eq_nil_iff (h : Tiles ps lo hi) : ps = [] ↔ lo = hi := by
  cases h with
  | nil => simp
  | cons hn hps =>
    have hle := hps.le
    simp
    omega

/-- Of several pieces none is the whole range. -/
theorem length_lt (h : Tiles ps lo hi) (hcount : 2 ≤ ps.length) {p : ℕ × ℕ} (hp : p ∈ ps) :
    p.2 < hi - lo := by
  obtain ⟨before, after, rfl⟩ := List.append_of_mem hp
  obtain ⟨m, hbefore, hrest⟩ := h.of_append
  rw [← List.singleton_append] at hrest
  obtain ⟨n, hpiece, hafter⟩ := hrest.of_append
  obtain ⟨hstart, -, hend⟩ := singleton_iff.mp hpiece
  have hle := hbefore.le
  have hle' := hafter.le
  by_contra hnot
  -- nothing is left for the others
  have hnil := hbefore.eq_nil_iff.mpr (by omega)
  have hnil' := hafter.eq_nil_iff.mpr (by omega)
  rw [hnil, hnil'] at hcount
  exact absurd hcount (Nat.not_le.mpr Nat.one_lt_two)

/-- Every position of the range lies in one of the pieces. -/
theorem covers (h : Tiles ps lo hi) {x : ℕ} (hlo : lo ≤ x) (hhi : x < hi) :
    ∃ p ∈ ps, p.1 ≤ x ∧ x < p.1 + p.2 := by
  induction h with
  | nil => omega
  | @cons ps lo n hi hn _ ih =>
    by_cases hx : x < lo + n
    · exact ⟨(lo, n), by simp, hlo, hx⟩
    · obtain ⟨p, hp, hpx⟩ := ih (by omega) hhi
      exact ⟨p, by simp [hp], hpx⟩

/-- What a string holds at the pieces, put together, is what it holds from `lo` to `hi`. -/
theorem flatten_slice (h : Tiles ps lo hi) (l : List α) :
    (ps.map fun p => slice l p.1 p.2).flatten = slice l lo (hi - lo) := by
  induction h with
  | nil lo => simp [slice]
  | @cons ps lo n hi hn hps ih =>
    have hle := hps.le
    have hsplit : hi - lo = n + (hi - (lo + n)) := by omega
    rw [List.map_cons, List.flatten_cons, ih, hsplit, ← slice_append]

/-- Two pieces that share a position are one piece. -/
theorem eq_of_overlap (h : Tiles ps lo hi) {p q : ℕ × ℕ} (hp : p ∈ ps) (hq : q ∈ ps) {x : ℕ}
    (hpx : p.1 ≤ x ∧ x < p.1 + p.2) (hqx : q.1 ≤ x ∧ x < q.1 + q.2) : p = q := by
  induction h with
  | nil => cases hp
  | cons hn hps ih =>
    rcases List.mem_cons.mp hp with rfl | hp <;> rcases List.mem_cons.mp hq with rfl | hq
    · rfl
    · have hb := hps.bounds hq
      omega
    · have hb := hps.bounds hp
      omega
    · exact ih hp hq

theorem nodup (h : Tiles ps lo hi) : ps.Nodup := by
  induction h with
  | nil => exact List.nodup_nil
  | cons hn hps ih =>
    refine List.nodup_cons.mpr ⟨fun hmem => ?_, ih⟩
    have hb := hps.bounds hmem
    omega

/-- A piece starts where the pieces before it end. -/
theorem offset_eq_sum {before after : List (ℕ × ℕ)} {p : ℕ × ℕ}
    (h : Tiles (before ++ p :: after) lo hi) : p.1 = lo + (before.map Prod.snd).sum := by
  induction before generalizing lo with
  | nil =>
    cases h
    rfl
  | cons q before ih =>
    cases h with
    | cons _ h =>
      have hrest := ih h
      rw [List.map_cons, List.sum_cons]
      omega

end Tiles

/-! ## Cutting a range -/

/-- The pieces of size `m`, the last one shorter, that `left` positions from `lo` on are
cut into; the first argument bounds their number. -/
def chunks (m : ℕ) : ℕ → ℕ → ℕ → List (ℕ × ℕ)
  | 0, _, _ => []
  | fuel + 1, lo, left =>
    if left = 0 then [] else (lo, min left m) :: chunks m fuel (lo + min left m) (left - min left m)

theorem chunks_zero (m fuel lo : ℕ) : chunks m fuel lo 0 = [] := by
  cases fuel <;> rfl

theorem tiles_chunks {m : ℕ} (hm : 0 < m) (fuel lo : ℕ) {left : ℕ} (h : left ≤ fuel) :
    Tiles (chunks m fuel lo left) lo (lo + left) := by
  induction fuel generalizing lo left with
  | zero =>
    have hzero : left = 0 := by omega
    subst hzero
    exact .nil lo
  | succ fuel ih =>
    unfold chunks
    split
    · rename_i hzero
      subst hzero
      exact .nil lo
    · refine .cons (by omega) ?_
      have hrest := ih (lo + min left m) (show left - min left m ≤ fuel by omega)
      have hend : lo + min left m + (left - min left m) = lo + left := by omega
      rwa [hend] at hrest

/-- No piece is larger than `m`. -/
theorem size_le_of_mem_chunks {m fuel lo left : ℕ} {p : ℕ × ℕ} (hp : p ∈ chunks m fuel lo left) :
    p.2 ≤ m := by
  induction fuel generalizing lo left with
  | zero => cases hp
  | succ fuel ih =>
    unfold chunks at hp
    split at hp
    · cases hp
    · rcases List.mem_cons.mp hp with rfl | hp
      · exact Nat.min_le_right left m
      · exact ih hp

/-- As many pieces as the quotient says, rounded up. -/
theorem length_chunks {m : ℕ} (hm : 0 < m) {fuel lo left : ℕ} (h : left ≤ fuel) :
    (chunks m fuel lo left).length = (left + m - 1) / m := by
  induction fuel generalizing lo left with
  | zero =>
    obtain rfl : left = 0 := by omega
    exact (Nat.div_eq_of_lt (by omega)).symm
  | succ fuel ih =>
    unfold chunks
    by_cases hzero : left = 0
    · subst hzero
      exact (Nat.div_eq_of_lt (by omega)).symm
    rw [if_neg hzero, List.length_cons, ih (by omega)]
    rcases Nat.le_total left m with hle | hle
    · have hlast : (left + m - 1) / m = 1 := by
        rw [Nat.div_eq_iff hm]
        omega
      rw [Nat.min_eq_left hle, Nat.sub_self, hlast, Nat.div_eq_of_lt (by omega)]
    · have hstep : left + m - 1 = left - m + m - 1 + m := by omega
      rw [Nat.min_eq_right hle, hstep, Nat.add_div_right _ hm]

/-- A range that fits one piece is one piece. -/
theorem chunks_of_le {m fuel left : ℕ} (lo : ℕ) (hpos : 0 < left) (hm : left ≤ m)
    (h : left ≤ fuel) : chunks m fuel lo left = [(lo, left)] := by
  cases fuel with
  | zero => omega
  | succ fuel =>
    unfold chunks
    rw [if_neg (by omega), Nat.min_eq_left hm, Nat.sub_self, chunks_zero]

/-- Where the last piece starts. -/
theorem getLast?_chunks {m : ℕ} (hm : 0 < m) (fuel lo : ℕ) {left : ℕ} (hpos : 0 < left)
    (h : left ≤ fuel) : (chunks m fuel lo left).getLast? =
      some (lo + (left - 1) / m * m, left - (left - 1) / m * m) := by
  induction fuel generalizing lo left with
  | zero => omega
  | succ fuel ih =>
    by_cases hle : left ≤ m
    · have hdiv : (left - 1) / m = 0 := Nat.div_eq_of_lt (by omega)
      rw [chunks_of_le lo hpos hle h, hdiv]
      simp
    · unfold chunks
      rw [if_neg (by omega), Nat.min_eq_right (by omega)]
      have hrest := ih (lo + m) (show 0 < left - m by omega) (by omega)
      have hdiv : (left - 1) / m = (left - m - 1) / m + 1 := by
        have hsum : left - 1 = left - m - 1 + m := by omega
        rw [hsum, Nat.add_div_right _ hm]
      rw [List.getLast?_cons, hrest, hdiv, Nat.add_mul, Nat.one_mul]
      simp only [Option.getD_some]
      congr 2 <;> omega

/-- A stream cut into chunks that each end within their packet, and at its end only when they
start with it, is cut into the packets: what is left of one packet stays in front of the next. -/
theorem eq_of_flatten_eq {R : List α → List α → Prop}
    (hR : ∀ packet chunk, R packet chunk → ∀ left xs ys, left ++ packet ++ xs = chunk ++ ys →
      chunk.length ≤ (left ++ packet).length ∧
        (chunk.length = (left ++ packet).length → left = []))
    {packets chunks : List (List α)} (h : List.Forall₂ R packets chunks) {left : List α}
    (hstream : left ++ packets.flatten = chunks.flatten) : left = [] ∧ chunks = packets := by
  induction h generalizing left with
  | nil => exact ⟨by simpa using hstream, rfl⟩
  | @cons packet chunk packets chunks hrel _ ih =>
    rw [List.flatten_cons, List.flatten_cons, ← List.append_assoc] at hstream
    obtain ⟨hle, hend⟩ := hR packet chunk hrel left _ _ hstream
    obtain ⟨left', hpacket⟩ : chunk <+: left ++ packet :=
      List.prefix_of_prefix_length_le ⟨chunks.flatten, rfl⟩ ⟨packets.flatten, hstream⟩ hle
    rw [← hpacket, List.append_assoc] at hstream
    obtain ⟨rfl, rfl⟩ := ih (List.append_cancel_left hstream)
    rw [List.append_nil] at hpacket
    obtain rfl := hend (congrArg List.length hpacket)
    exact ⟨rfl, congrArg (· :: chunks) hpacket⟩

/-- A chain of steps from a position at or below `x` to one above it has a step
across `x`. -/
theorem exists_step_across [LinearOrder α] {r : α → α → Prop} {a b x : α}
    (h : Relation.ReflTransGen r a b) (ha : a ≤ x) (hb : x < b) :
    ∃ p q, r p q ∧ p ≤ x ∧ x < q := by
  induction h with
  | refl => exact absurd hb (not_lt.mpr ha)
  | @tail c d _ hcd ih =>
    by_cases hc : x < c
    · exact ih hc
    · exact ⟨c, d, hcd, not_lt.mp hc, hb⟩

end Tiling
