import Mathlib.Data.List.Basic

/-! # Maps as lists of entries

A `std::map` is a list of keys with their values, read by `List.lookup`.  The three updates are
insertion, which leaves the entry of a key that has one, assignment through an iterator, and erasure.
Keys are compared with `==`, which need not be equality.
-/
namespace KeyedList

variable {K V : Type} [BEq K] {a k : K} {v : V} {l : List (K × V)}

/-- `insert`: a key that has an entry keeps it. -/
def insert (l : List (K × V)) (k : K) (v : V) : List (K × V) :=
  match l.lookup k with
  | none => l ++ [(k, v)]
  | some _ => l

/-- Assignment to the value of the entry found for `k`. -/
def assign (l : List (K × V)) (k : K) (v : V) : List (K × V) :=
  l.map fun e => if e.1 == k then (e.1, v) else e

/-- `erase`. -/
def erase (l : List (K × V)) (k : K) : List (K × V) := l.filter fun e => !(e.1 == k)

/-- What is found is the value of an entry with an equal key. -/
theorem exists_mem_of_lookup (h : l.lookup a = some v) : ∃ e ∈ l, (a == e.1) = true ∧ e.2 = v := by
  induction l with
  | nil => cases h
  | cons e l ih =>
    rw [List.lookup_cons] at h
    split at h
    · rename_i hkey
      cases h
      exact ⟨e, List.mem_cons_self, hkey, rfl⟩
    · obtain ⟨e', he', hkey, hvalue⟩ := ih h
      exact ⟨e', List.mem_cons_of_mem e he', hkey, hvalue⟩

variable [EquivBEq K]

/-- Equal keys find the same entry. -/
theorem lookup_congr (h : (a == k) = true) (l : List (K × V)) : l.lookup a = l.lookup k := by
  induction l with
  | nil => rfl
  | cons e l ih => rw [List.lookup_cons, List.lookup_cons, BEq.congr_left h, ih]

/-- An entry at the end counts for a key that has none before it. -/
theorem lookup_concat : (l ++ [(k, v)]).lookup a =
    if a == k then some ((l.lookup k).getD v) else l.lookup a := by
  rw [List.lookup_append, List.lookup_cons, List.lookup_nil]
  cases h : a == k with
  | true =>
    rw [lookup_congr h l]
    cases l.lookup k <;> rfl
  | false => exact Option.or_none

theorem lookup_insert : (insert l k v).lookup a =
    if a == k then some ((l.lookup k).getD v) else l.lookup a := by
  unfold insert
  cases hk : l.lookup k with
  | none =>
    show (l ++ [(k, v)]).lookup a = _
    rw [lookup_concat, hk]
  | some w =>
    cases h : a == k with
    | true => exact (lookup_congr h l).trans hk
    | false => rfl

theorem lookup_assign : (assign l k v).lookup a =
    if a == k then (l.lookup k).map fun _ => v else l.lookup a := by
  induction l with
  | nil => simp [assign]
  | cons e l ih =>
    rw [assign, List.map_cons, ← assign]
    cases he : e.1 == k with
    | true =>
      rw [if_pos rfl, List.lookup_cons, List.lookup_cons, List.lookup_cons, BEq.symm he,
        BEq.congr_right he, ih]
      cases a == k <;> rfl
    | false =>
      have hk : (k == e.1) = false := by rw [BEq.comm, he]
      rw [if_neg Bool.false_ne_true, List.lookup_cons, List.lookup_cons, List.lookup_cons, hk, ih]
      cases h : a == k with
      | true =>
        rw [BEq.congr_left h, hk]
      | false => rfl

omit [EquivBEq K] in
theorem assign_assign (l : List (K × V)) (k : K) (v : V) :
    assign (assign l k v) k v = assign l k v := by
  unfold assign
  rw [List.map_map]
  refine List.map_congr_left fun e _ => ?_
  by_cases he : (e.1 == k) = true <;> simp [he]

theorem lookup_erase : (erase l k).lookup a = if a == k then none else l.lookup a := by
  induction l with
  | nil => simp [erase]
  | cons e l ih =>
    rw [erase, List.filter_cons, ← erase]
    cases he : e.1 == k with
    | true =>
      rw [Bool.not_true, if_neg Bool.false_ne_true, ih, List.lookup_cons, BEq.congr_right he]
      cases a == k <;> rfl
    | false =>
      rw [Bool.not_false, if_pos rfl, List.lookup_cons, List.lookup_cons, ih]
      cases h : a == k with
      | true =>
        have hk : (k == e.1) = false := by rw [BEq.comm, he]
        rw [BEq.congr_left h, hk]
      | false => rfl

end KeyedList
