import Mathlib.Data.List.Basic
import Mathlib.Data.List.TakeWhile

/-! # Tables of terminated strings

A table keeps strings one behind another, each ended by a terminator, and is only ever appended to.
A string is named by the position at which it starts: `StandsAt` says that it is there, with a
terminator behind it.  It stays where it is (`StandsAt.append`), and reading up to the next
terminator gives it back (`StandsAt.takeWhile_drop`).
-/
namespace StringTable

variable {α : Type*} {nul : α} {table text : List α} {o : ℕ}

/-- `text` stands at position `o`, with a terminator behind it. -/
def StandsAt (nul : α) (table : List α) (o : ℕ) (text : List α) : Prop :=
  ∃ before after, table = before ++ (text ++ nul :: after) ∧ before.length = o

/-- The string that is appended first stands at what was the end. -/
theorem standsAt_length (table text after : List α) :
    StandsAt nul (table ++ (text ++ nul :: after)) table.length text :=
  ⟨table, after, rfl, rfl⟩

theorem StandsAt.append (h : StandsAt nul table o text) (rest : List α) :
    StandsAt nul (table ++ rest) o text := by
  obtain ⟨before, after, rfl, ho⟩ := h
  refine ⟨before, after ++ rest, ?_, ho⟩
  simp only [List.append_assoc, List.cons_append]

/-- A string ends before the table does. -/
theorem StandsAt.add_length_lt (h : StandsAt nul table o text) : o + text.length < table.length := by
  obtain ⟨before, after, rfl, rfl⟩ := h
  simp only [List.length_append, List.length_cons]
  omega

/-- **What is read at the position of a string is that string.** -/
theorem StandsAt.takeWhile_drop [BEq α] [LawfulBEq α] (h : StandsAt nul table o text)
    (htext : nul ∉ text) : (table.drop o).takeWhile (· != nul) = text := by
  obtain ⟨before, after, rfl, rfl⟩ := h
  rw [List.drop_left, List.takeWhile_append_of_pos, List.takeWhile_cons_of_neg, List.append_nil]
  · simp
  · intro x hx
    rw [bne_iff_ne]
    rintro rfl
    exact htext hx

end StringTable
