import Mathlib.Data.List.Basic

/-! # Logs of accesses

A log lists, in order, the accesses that a piece of code makes to objects: an object is used, or it is
disposed of.  A log is clean when nothing is used after it was disposed of.  The log of two pieces of code
run one after the other is clean when both are and the second uses nothing that the first disposed of
(`clean_append`); code whose last access is to dispose of the one object it works on leaves a clean log
(`Consumes.clean`).
-/
namespace AccessLog
variable {α : Type*}

/-- An access to the object at an address. -/
inductive Access (α : Type*)
  | use (a : α)
  | dispose (a : α)
deriving DecidableEq

namespace Access

/-- The second access may come after the first. -/
def Before : Access α → Access α → Prop
  | .dispose a, .use b => a ≠ b
  | _, _ => True

instance [DecidableEq α] : (x y : Access α) → Decidable (Before x y)
  | .dispose a, .use b => inferInstanceAs (Decidable (a ≠ b))
  | .dispose _, .dispose _ => inferInstanceAs (Decidable True)
  | .use _, .use _ => inferInstanceAs (Decidable True)
  | .use _, .dispose _ => inferInstanceAs (Decidable True)

end Access

open Access
variable {l l' : List (Access α)} {a b : α}

/-- Nothing is used after it was disposed of. -/
def Clean (l : List (Access α)) : Prop := l.Pairwise Before

instance [DecidableEq α] (l : List (Access α)) : Decidable (Clean l) :=
  inferInstanceAs (Decidable (l.Pairwise Before))

theorem clean_nil : Clean ([] : List (Access α)) := List.Pairwise.nil

/-- One part of a log after the other. -/
theorem clean_append : Clean (l ++ l') ↔ Clean l ∧ Clean l' ∧ ∀ a, dispose a ∈ l → use a ∉ l' := by
  unfold Clean
  rw [List.pairwise_append]
  refine and_congr_right fun _ => and_congr_right fun _ => ?_
  constructor
  · intro h a hdispose huse
    exact h _ hdispose _ huse rfl
  · intro h x hx y hy
    cases x with
    | use a => cases y <;> trivial
    | dispose a =>
      cases y with
      | dispose b => trivial
      | use b =>
        rintro rfl
        exact h a hx hy

/-- The log has no disposals. -/
def OnlyUses (l : List (Access α)) : Prop := ∀ a, dispose a ∉ l

theorem OnlyUses.clean (h : OnlyUses l) : Clean l := by
  refine List.pairwise_of_forall_mem_list fun x hx y _ => ?_
  cases x with
  | use a => cases y <;> trivial
  | dispose a => exact absurd hx (h a)

theorem OnlyUses.append (h : OnlyUses l) (h' : OnlyUses l') : OnlyUses (l ++ l') := by
  intro a ha
  rcases List.mem_append.mp ha with ha | ha
  · exact h a ha
  · exact h' a ha

/-- Uses before a clean log do no harm. -/
theorem OnlyUses.append_clean (h : OnlyUses l) (h' : Clean l') : Clean (l ++ l') :=
  clean_append.mpr ⟨h.clean, h', fun a ha => absurd ha (h a)⟩

theorem onlyUses_of_forall (h : ∀ x ∈ l, x = use a) : OnlyUses l := by
  intro b hb
  cases h _ hb

theorem onlyUses_nil : OnlyUses ([] : List (Access α)) := fun _ => List.not_mem_nil

theorem onlyUses_cons : OnlyUses (use a :: l) ↔ OnlyUses l :=
  forall_congr' fun _ => not_congr (by simp)

/-- The accesses of the log are uses of the object at `a` and, as the last one perhaps, its disposal. -/
inductive Consumes (a : α) : List (Access α) → Prop
  | nil : Consumes a []
  | dispose : Consumes a [Access.dispose a]
  | use {rest : List (Access α)} (h : Consumes a rest) : Consumes a (Access.use a :: rest)

/-- More uses in front. -/
theorem Consumes.append (h : Consumes a l') (hl : ∀ x ∈ l, x = Access.use a) : Consumes a (l ++ l') := by
  induction l with
  | nil => exact h
  | cons x l ih =>
    rw [hl x List.mem_cons_self]
    exact .use (ih fun y hy => hl y (List.mem_cons_of_mem x hy))

theorem Consumes.mem (h : Consumes a l) {x : Access α} (hx : x ∈ l) :
    x = Access.use a ∨ x = Access.dispose a := by
  induction h with
  | nil => cases hx
  | dispose => exact Or.inr (List.mem_singleton.mp hx)
  | use _ ih =>
    rcases List.mem_cons.mp hx with rfl | hx
    · exact Or.inl rfl
    · exact ih hx

theorem Consumes.clean (h : Consumes a l) : Clean l := by
  induction h with
  | nil => exact clean_nil
  | dispose => exact List.pairwise_singleton _ _
  | use _ ih => exact List.pairwise_cons.mpr ⟨fun y _ => by cases y <;> trivial, ih⟩

/-- It uses and disposes of no other object. -/
theorem Consumes.eq_of_mem (h : Consumes a l) (hb : Access.use b ∈ l ∨ Access.dispose b ∈ l) :
    b = a := by
  rcases hb with hb | hb
  · rcases h.mem hb with heq | heq
    · cases heq
      rfl
    · cases heq
  · rcases h.mem hb with heq | heq
    · cases heq
    · cases heq
      rfl

end AccessLog
