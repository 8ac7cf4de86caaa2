import Mathlib.Data.List.Basic
import Mathlib.Data.Ordering.Lemmas
import Mathlib.Order.Lattice

/-! # Maps kept by a comparator

A `std::map` is a search tree that looks at its keys only through a comparator `lt`, in both directions:
`Std.TreeMap` over `cmpUsing lt`.  What it finds is what was put there as long as the comparator is a
strict weak ordering, and then keys that are not ordered either way share one entry.  A comparator that
compares plain keys is one (`StrictWeakOrder.of_key`).
-/
namespace OrderedMap

variable {K V : Type} {lt : K → K → Bool}

/-- What a search tree needs of its comparator. -/
structure StrictWeakOrder (lt : K → K → Bool) : Prop where
  asymm : ∀ a b, lt a b = true → lt b a = false
  cotrans : ∀ a b c, lt a c = true → lt a b = true ∨ lt b c = true

/-- A comparator that compares the keys `key` of its arguments. -/
theorem StrictWeakOrder.of_key {L : Type} [LinearOrder L] {key : K → L}
    (hkey : ∀ a b, lt a b = true ↔ key a < key b) : StrictWeakOrder lt where
  asymm := by
    intro a b hab
    rw [← Bool.not_eq_true, hkey]
    exact lt_asymm ((hkey a b).mp hab)
  cotrans := by
    intro a b c hac
    rw [hkey, hkey]
    exact (lt_or_ge (key a) (key b)).imp_right fun hba => lt_of_le_of_lt hba ((hkey a c).mp hac)

/-- The three-way comparison made of the comparator. -/
abbrev cmp (lt : K → K → Bool) : K → K → Ordering := cmpUsing fun a b => lt a b = true

theorem cmp_eq_iff {a b : K} : cmp lt a b = .eq ↔ lt a b = false ∧ lt b a = false := by
  rw [cmp, cmpUsing_eq_eq, Bool.not_eq_true, Bool.not_eq_true]

theorem isLE_cmp_iff (h : StrictWeakOrder lt) {a b : K} :
    (cmp lt a b).isLE = true ↔ lt b a = false := by
  unfold cmp cmpUsing
  cases hab : lt a b with
  | true => simp [hab, h.asymm a b hab]
  | false => cases hba : lt b a <;> simp [hab, hba]

/-- **A strict weak ordering makes a lawful search tree.** -/
theorem StrictWeakOrder.transCmp (h : StrictWeakOrder lt) : Std.TransCmp (cmp lt) where
  eq_swap := by
    intro a b
    unfold cmp cmpUsing
    cases hab : lt a b with
    | true => simp [hab, h.asymm a b hab]
    | false => cases hba : lt b a <;> simp [hab, hba]
  isLE_trans := by
    intro a b c hab hbc
    rw [isLE_cmp_iff h] at hab hbc ⊢
    by_contra hca
    rcases h.cotrans c b a (by simpa using hca) with hcb | hba
    · rw [hbc] at hcb
      cases hcb
    · rw [hab] at hba
      cases hba

variable {order : K → K → Ordering}

/-- `operator []`, which makes an entry `d` for a key without one, and an update through the reference
it returns. -/
def update (m : Std.TreeMap K V order) (k : K) (d : V) (f : V → V) : Std.TreeMap K V order :=
  (m.insertIfNew k d).modify k f

variable [Std.TransCmp order] {m : Std.TreeMap K V order} {a k : K} {d : V} {f : V → V}

/-- `insert` tells whether the key has an entry. -/
theorem containsThenInsertIfNew_eq :
    m.containsThenInsertIfNew k d = (m[k]?.isSome, m.insertIfNew k d) :=
  Prod.ext (Std.TreeMap.containsThenInsertIfNew_fst.trans Std.TreeMap.contains_eq_isSome_getElem?)
    Std.TreeMap.containsThenInsertIfNew_snd

/-- A key that has an entry keeps it. -/
theorem lookup_insert : (m.insertIfNew k d)[a]? =
    if order k a = .eq then some (m[k]?.getD d) else m[a]? := by
  rw [Std.TreeMap.getElem?_insertIfNew]
  by_cases ha : order k a = .eq
  · rw [← Std.TreeMap.getElem?_congr ha]
    cases hk : m[k]? with
    | none => simp [ha, ← Std.TreeMap.isSome_getElem?_iff_mem, hk]
    | some v => simp [ha, ← Std.TreeMap.isSome_getElem?_iff_mem, hk]
  · simp [ha]

theorem lookup_update : (update m k d f)[a]? =
    if order k a = .eq then some (f (m[k]?.getD d)) else m[a]? := by
  unfold update
  rw [Std.TreeMap.getElem?_modify, lookup_insert, lookup_insert, if_pos Std.ReflCmp.compare_self]
  split <;> rfl

end OrderedMap
