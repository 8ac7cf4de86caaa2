import Mathlib.Data.List.Basic
import Mathlib.Data.Set.Defs

/-! # Ordered sets as lists

An ordered set kept by a comparator `lt` is the list of its elements in iteration
order: `Ordered lt l` says that the order is the comparator's, and `insert` puts a
new element before the first one it precedes.  The comparator may depend on state
outside the set, so nothing here assumes that it is an order on the whole type:
each result asks for transitivity and comparability only among the elements it
talks about.  What such a set needs of its comparator is `StrictOrderOn`; where distinct elements are
comparable in one direction only, it fails exactly on cycles of three (`strictOrderOn_iff`).
-/
namespace OrderedList
variable {α : Type*}

/-- The elements stand in the order of the comparator. -/
def Ordered (lt : α → α → Bool) (l : List α) : Prop := l.Pairwise fun a b => lt a b = true

instance (lt : α → α → Bool) (l : List α) : Decidable (Ordered lt l) :=
  inferInstanceAs (Decidable (l.Pairwise fun a b => lt a b = true))

/-- Insertion before the first element that `x` precedes. -/
def insert (lt : α → α → Bool) (x : α) : List α → List α
  | [] => [x]
  | y :: ys => if lt x y then x :: y :: ys else y :: insert lt x ys

variable {lt : α → α → Bool} {x : α} {l : List α}

theorem perm_insert : (insert lt x l).Perm (x :: l) := by
  induction l with
  | nil => exact List.Perm.refl _
  | cons z zs ih =>
    unfold insert
    split
    · exact List.Perm.refl _
    · exact (ih.cons z).trans (List.Perm.swap x z zs)

theorem mem_insert {y : α} : y ∈ insert lt x l ↔ y = x ∨ y ∈ l :=
  perm_insert.mem_iff.trans List.mem_cons

theorem length_insert : (insert lt x l).length = l.length + 1 := perm_insert.length_eq

/-- The position of a new element. -/
theorem insert_eq_take_drop :
    insert lt x l = l.take (l.findIdx (lt x)) ++ x :: l.drop (l.findIdx (lt x)) := by
  induction l with
  | nil => rfl
  | cons y ys ih =>
    unfold insert
    rw [List.findIdx_cons]
    cases hxy : lt x y with
    | true => rfl
    | false => simpa using ih

theorem nodup_insert (hx : x ∉ l) (hl : l.Nodup) : (insert lt x l).Nodup :=
  perm_insert.nodup_iff.mpr (List.nodup_cons.mpr ⟨hx, hl⟩)

/-- Insertion leaves the order of the others alone. -/
theorem filter_insert_of_not {p : α → Bool} (hx : p x = false) :
    (insert lt x l).filter p = l.filter p := by
  induction l with
  | nil => simp [insert, hx]
  | cons y ys ih =>
    unfold insert
    split
    · rw [List.filter_cons_of_neg (by simp [hx])]
    · rw [List.filter_cons, List.filter_cons, ih]

/-- What has been inserted can be taken out again. -/
theorem erase_insert [DecidableEq α] (hx : x ∉ l) : (insert lt x l).erase x = l := by
  induction l with
  | nil => exact List.erase_cons_head x []
  | cons y ys ih =>
    rw [List.mem_cons, not_or] at hx
    unfold insert
    split
    · exact List.erase_cons_head x (y :: ys)
    · rw [List.erase_cons_tail fun heq => hx.1 (beq_iff_eq.mp heq).symm, ih hx.2]

/-- Insertion keeps a relation of earlier to later elements, when the comparator decides it for `x` and
it is transitive from `x`. -/
theorem pairwise_insert {R : α → α → Prop} (hl : l.Pairwise R)
    (hbefore : ∀ y ∈ l, lt x y = true → R x y) (hafter : ∀ y ∈ l, lt x y = false → R y x)
    (htrans : ∀ y ∈ l, ∀ z ∈ l, lt x y = true → R y z → R x z) : (insert lt x l).Pairwise R := by
  induction l with
  | nil => exact List.pairwise_singleton R x
  | cons y ys ih =>
    obtain ⟨hy, hys⟩ := List.pairwise_cons.mp hl
    unfold insert
    split
    · rename_i hxy
      refine List.pairwise_cons.mpr ⟨?_, hl⟩
      intro z hz
      rcases List.mem_cons.mp hz with rfl | hz
      · exact hbefore z (by simp) hxy
      · exact htrans y (by simp) z (by simp [hz]) hxy (hy z hz)
    · rename_i hxy
      refine List.pairwise_cons.mpr ⟨?_, ?_⟩
      · intro z hz
        rcases mem_insert.mp hz with rfl | hz
        · exact hafter y (by simp) (by simpa using hxy)
        · exact hy z hz
      · exact ih hys (fun z hz => hbefore z (by simp [hz])) (fun z hz => hafter z (by simp [hz]))
          fun z hz w hw => htrans z (by simp [hz]) w (by simp [hw])

/-- Inserting keeps the order, when `x` is comparable to every element and the
comparator is transitive from `x`. -/
theorem Ordered.insert (hl : Ordered lt l)
    (htotal : ∀ y ∈ l, lt x y = false → lt y x = true)
    (htrans : ∀ y ∈ l, ∀ z ∈ l, lt x y = true → lt y z = true → lt x z = true) :
    Ordered lt (OrderedList.insert lt x l) :=
  pairwise_insert hl (fun _ _ hxy => hxy) htotal htrans

/-- A search from the front passes no match that belongs before what it finds. -/
theorem find?_of_pairwise {R : α → α → Prop} {p : α → Bool} {a b : α} (hl : l.Pairwise R)
    (hfind : l.find? p = some a) (hb : b ∈ l) (hp : p b = true) (hne : b ≠ a) : R a b := by
  obtain ⟨-, before, after, hsplit, hnone⟩ := List.find?_eq_some_iff_append.mp hfind
  rw [hsplit] at hl hb
  rcases List.mem_append.mp hb with hb | hb
  · have hnot := hnone b hb
    rw [hp] at hnot
    cases hnot
  · have hb' := (List.mem_cons.mp hb).resolve_left hne
    exact (List.pairwise_cons.mp (List.pairwise_append.mp hl).2.1).1 b hb'

theorem Ordered.sublist {l' : List α} (hl : Ordered lt l) (h : l'.Sublist l) : Ordered lt l' :=
  List.Pairwise.sublist h hl

theorem Ordered.nodup (hl : Ordered lt l) (hirrefl : ∀ y, lt y y = false) : l.Nodup :=
  List.Pairwise.imp (fun {a b} hab he => by
    subst he
    rw [hirrefl a] at hab
    cases hab) hl

/-! ## Strict orders -/

/-- On the elements of `S` the comparator is a strict weak ordering that tells distinct ones apart. -/
structure StrictOrderOn (lt : α → α → Bool) (S : Set α) : Prop where
  irrefl : ∀ a ∈ S, lt a a = false
  asymm : ∀ a ∈ S, ∀ b ∈ S, lt a b = true → lt b a = false
  trans : ∀ a ∈ S, ∀ b ∈ S, ∀ c ∈ S, lt a b = true → lt b c = true → lt a c = true
  comparable : ∀ a ∈ S, ∀ b ∈ S, a ≠ b → lt a b = true ∨ lt b a = true

/-- **Transitivity fails on cycles only**, when distinct elements are comparable in one direction. -/
theorem strictOrderOn_iff (hirrefl : ∀ a, lt a a = false)
    (hasymm : ∀ a b, lt a b = true → lt b a = false)
    (htotal : ∀ a b, a ≠ b → lt a b = true ∨ lt b a = true) {S : Set α} : StrictOrderOn lt S ↔
      ∀ a ∈ S, ∀ b ∈ S, ∀ c ∈ S, ¬(lt a b = true ∧ lt b c = true ∧ lt c a = true) := by
  constructor
  · intro h a ha b hb c hc hcycle
    obtain ⟨hab, hbc, hca⟩ := hcycle
    have hac := h.trans a ha b hb c hc hab hbc
    rw [hasymm a c hac] at hca
    cases hca
  · intro hcycle
    refine ⟨fun a _ => hirrefl a, fun a _ b _ => hasymm a b, ?_, fun a _ b _ => htotal a b⟩
    intro a ha b hb c hc hab hbc
    have hne : a ≠ c := by
      intro he
      subst he
      rw [hasymm a b hab] at hbc
      cases hbc
    rcases htotal a c hne with hac | hca
    · exact hac
    · exact absurd ⟨hab, hbc, hca⟩ (hcycle a ha b hb c hc)

end OrderedList
