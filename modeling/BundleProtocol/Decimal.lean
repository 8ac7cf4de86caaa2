import Mathlib.Algebra.Order.Ring.Nat
import Mathlib.Data.List.Basic
import Mathlib.Data.List.Induction

/-! # Decimal numbers as byte strings

The positive decimal numbers without a sign and without leading zeros (`Positive`) are the strings
that are printed for the positive numbers: each is what is printed for its value
(`Positive.print_value`, `positive_print`).  All inductions take the last digit off.
-/
namespace Decimal

/-- The decimal digits of a number, in ASCII. -/
def print (n : ℕ) : List UInt8 := (Nat.toDigits 10 n).map fun c => UInt8.ofNat c.toNat

/-- The number that a string of digits stands for. -/
def value (digits : List UInt8) : ℕ := digits.foldl (fun n c => n * 10 + (c.toNat - 48)) 0

/-- A positive number, without a sign and without leading zeros. -/
structure Positive (l : List UInt8) : Prop where
  ne_nil : l ≠ []
  digits : ∀ b ∈ l, 48 ≤ b.toNat ∧ b.toNat ≤ 57
  leading : l.head? ≠ some 48

theorem print_digit {d : ℕ} (hd : d < 10) : print d = [UInt8.ofNat (48 + d)] := by
  rw [print, Nat.toDigits_of_lt_base hd, List.map_singleton, Nat.toNat_digitChar_of_lt_ten hd]

theorem print_concat {n d : ℕ} (hn : 0 < n) (hd : d < 10) :
    print (n * 10 + d) = print n ++ [UInt8.ofNat (48 + d)] := by
  rw [← print_digit hd, Nat.mul_comm, print, ← Nat.toDigits_append_toDigits (by decide) hn hd,
    List.map_append]
  rfl

theorem value_concat (l : List UInt8) (b : UInt8) : value (l ++ [b]) = value l * 10 + (b.toNat - 48) := by
  rw [value, List.foldl_append]
  rfl

/-- **What is printed for the value of a number is the number.** -/
theorem Positive.print_value {l : List UInt8} (h : Positive l) : print (value l) = l ∧ 0 < value l := by
  induction l using List.reverseRecOn with
  | nil => exact absurd rfl h.ne_nil
  | append_singleton l b ih =>
    obtain ⟨hlow, hhigh⟩ := h.digits b (by simp)
    have hbyte : UInt8.ofNat (48 + (b.toNat - 48)) = b := by
      rw [Nat.add_sub_cancel' hlow, UInt8.ofNat_toNat]
    rw [value_concat]
    by_cases hl : l = []
    · -- the only digit is not zero
      subst hl
      have hb : b.toNat ≠ 48 := by
        intro hzero
        exact h.leading (congrArg some (UInt8.toNat_inj.mp hzero))
      have hempty : value [] = 0 := rfl
      rw [hempty, Nat.zero_mul, Nat.zero_add, print_digit (by omega), hbyte]
      exact ⟨rfl, by omega⟩
    · have hpositive : Positive l := by
        refine ⟨hl, fun c hc => h.digits c (List.mem_append_left _ hc), fun hzero => ?_⟩
        apply h.leading
        rw [List.head?_append_of_ne_nil _ hl]
        exact hzero
      obtain ⟨hprint, hpos⟩ := ih hpositive
      rw [print_concat hpos (by omega), hprint, hbyte]
      exact ⟨rfl, by omega⟩

/-- **What is printed for a positive number is one**, and has its value. -/
theorem positive_print {n : ℕ} (hn : 0 < n) : Positive (print n) ∧ value (print n) = n := by
  induction n using Nat.strongRecOn with
  | ind n ih =>
    have hdigit : ∀ d < 10, (UInt8.ofNat (48 + d)).toNat = 48 + d := by
      intro d hd
      rw [UInt8.toNat_ofNat']
      omega
    by_cases hlt : n < 10
    · have hbyte := hdigit n hlt
      rw [print_digit hlt]
      refine ⟨⟨List.cons_ne_nil _ _, fun b hb => ?_, fun hzero => ?_⟩, ?_⟩
      · rw [List.mem_singleton.mp hb, hbyte]
        omega
      · have hval : UInt8.ofNat (48 + n) = 48 := Option.some.inj hzero
        rw [hval] at hbyte
        have h48 : (48 : UInt8).toNat = 48 := rfl
        omega
      · show 0 * 10 + ((UInt8.ofNat (48 + n)).toNat - 48) = n
        rw [hbyte]
        omega
    · have hdiv : 0 < n / 10 := by omega
      have hmod : n % 10 < 10 := Nat.mod_lt n (by decide)
      have hbyte := hdigit (n % 10) hmod
      have hn : n = n / 10 * 10 + n % 10 := by omega
      have hprint : print n = print (n / 10) ++ [UInt8.ofNat (48 + n % 10)] := by
        conv => lhs; rw [hn]
        exact print_concat hdiv hmod
      obtain ⟨hpositive, hvalue⟩ := ih (n / 10) (by omega) hdiv
      rw [hprint]
      refine ⟨⟨by simp, fun b hb => ?_, ?_⟩, ?_⟩
      · rcases List.mem_append.mp hb with hb | hb
        · exact hpositive.digits b hb
        · rw [List.mem_singleton.mp hb, hbyte]
          omega
      · rw [List.head?_append_of_ne_nil _ hpositive.ne_nil]
        exact hpositive.leading
      · rw [value_concat, hvalue, hbyte]
        omega

theorem value_print (n : ℕ) : value (print n) = n := by
  by_cases hn : n = 0
  · rw [hn, print_digit (by decide)]
    rfl
  · exact (positive_print (Nat.pos_of_ne_zero hn)).2

theorem digit_of_mem_print {n : ℕ} {b : UInt8} (hb : b ∈ print n) : 48 ≤ b.toNat ∧ b.toNat ≤ 57 := by
  by_cases hn : n = 0
  · rw [hn, print_digit (by decide)] at hb
    rw [List.mem_singleton.mp hb]
    decide
  · exact (positive_print (Nat.pos_of_ne_zero hn)).1.digits b hb

theorem print_ne_nil (n : ℕ) : print n ≠ [] := by
  simp [print]

/-- Fewer than `10 ^ k` takes at most `k` digits. -/
theorem length_print_le {n k : ℕ} (hk : 0 < k) (h : n < 10 ^ k) : (print n).length ≤ k := by
  rw [print, List.length_map]
  exact (Nat.length_toDigits_le_iff (by decide) hk).mpr h

end Decimal
