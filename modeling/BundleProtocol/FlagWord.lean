import Mathlib.Algebra.Order.Ring.Nat
import Mathlib.Data.Nat.Bitwise

/-! # Flag words

A 32-bit word of flags, each named by its mask: `assign` sets or clears the bits
of a mask, `test` asks whether any of them is set.  An assignment is seen through
its own mask (`test_assign_self`) and through no mask disjoint from it
(`assign_and_of_disjoint`).
-/
namespace FlagWord

/-- `word |= mask` when `value`, otherwise `word &= ~mask`. -/
def assign (word mask : UInt32) (value : Bool) : UInt32 :=
  if value then word ||| mask else word &&& ~~~mask

/-- `word & mask`, as a truth value. -/
def test (word mask : UInt32) : Bool := word &&& mask != 0

theorem test_zero (mask : UInt32) : test 0 mask = false := by simp [test]

/-- Of a mask of one bit a word holds all or nothing. -/
theorem and_eq_self_iff_test {word mask : UInt32} {k : ℕ} (h : mask.toNat = 2 ^ k) :
    word &&& mask = mask ↔ test word mask = true := by
  have hpos : 0 < 2 ^ k := Nat.two_pow_pos k
  have hbit : (word &&& mask).toNat = (word.toNat.testBit k).toNat * 2 ^ k := by
    rw [UInt32.toNat_and, h, Nat.and_two_pow]
  unfold test
  rw [bne_iff_ne, ne_eq, ← UInt32.toNat_inj, ← UInt32.toNat_inj, hbit, h]
  cases word.toNat.testBit k
  · simp [hpos.ne]
  · simp

theorem or_and_of_disjoint {word mask other : UInt32} (h : mask &&& other = 0) :
    (word ||| mask) &&& other = word &&& other := by
  have hdistrib : (word ||| mask) &&& other = (word &&& other) ||| (mask &&& other) := by
    rw [← UInt32.toBitVec_inj]
    ext i
    simp [Bool.and_or_distrib_right]
  rw [hdistrib, h, UInt32.or_zero]

theorem and_not_and_of_disjoint {word mask other : UInt32} (h : mask &&& other = 0) :
    (word &&& ~~~mask) &&& other = word &&& other := by
  have hkeep : ~~~mask &&& other = other := by
    rw [← UInt32.toBitVec_inj] at h ⊢
    ext i hi
    have hbit := congrArg (fun v => v[i]) h
    simp at hbit ⊢
    grind
  rw [UInt32.and_assoc, hkeep]

theorem assign_and_of_disjoint {word mask other : UInt32} (value : Bool)
    (h : mask &&& other = 0) : assign word mask value &&& other = word &&& other := by
  cases value
  · exact and_not_and_of_disjoint h
  · exact or_and_of_disjoint h

theorem test_assign_of_disjoint {word mask other : UInt32} (value : Bool)
    (h : mask &&& other = 0) : test (assign word mask value) other = test word other := by
  unfold test
  rw [assign_and_of_disjoint value h]

/-- A word shifted left by seven has nothing in its low seven bits. -/
theorem shiftLeft_and_low (word : UInt32) {mask : UInt32} (h : mask.toNat < 2 ^ 7) :
    (word <<< 7) &&& mask = 0 := by
  have hlow : (word <<< 7).toNat % 2 ^ 7 = 0 := by
    rw [UInt32.toNat_shiftLeft, Nat.shiftLeft_eq]
    show word.toNat * 2 ^ 7 % 2 ^ 32 % 2 ^ 7 = 0
    omega
  rw [← UInt32.toNat_inj, UInt32.toNat_and]
  calc (word <<< 7).toNat &&& mask.toNat
      = (word <<< 7).toNat &&& ((2 ^ 7 - 1) &&& mask.toNat) := by
        rw [Nat.and_comm (2 ^ 7 - 1), Nat.and_two_pow_sub_one_eq_mod, Nat.mod_eq_of_lt h]
    _ = (word <<< 7).toNat % 2 ^ 7 &&& mask.toNat := by
        rw [← Nat.and_assoc, Nat.and_two_pow_sub_one_eq_mod]
    _ = 0 := by rw [hlow, Nat.zero_and]

/-- `word |= (word & ~mask) | bits` is seen through no mask that `bits` avoids. -/
theorem or_or_and_of_disjoint {word mask bits other : UInt32} (h : bits &&& other = 0) :
    (word ||| ((word &&& ~~~mask) ||| bits)) &&& other = word &&& other := by
  rw [← UInt32.or_assoc, or_and_of_disjoint h, ← UInt32.toBitVec_inj]
  ext i
  simp
  grind

/-- Seen through `mask` itself, it or-s the bits into what was there. -/
theorem or_or_and_self (word mask bits : UInt32) :
    (word ||| ((word &&& ~~~mask) ||| bits)) &&& mask = (word &&& mask) ||| (bits &&& mask) := by
  rw [← UInt32.toBitVec_inj]
  ext i
  simp
  grind

/-- Seen through a field that it lies in, an assignment is one to the field. -/
theorem assign_and_of_subset {word mask field : UInt32} (value : Bool) (h : mask &&& field = mask) :
    assign word mask value &&& field = assign (word &&& field) mask value := by
  rw [← UInt32.toBitVec_inj] at h ⊢
  ext i hi
  have hbit := congrArg (fun v => v[i]) h
  cases value <;> simp [assign] at hbit ⊢ <;> grind

/-- Bits outside the mask may be set before or after. -/
theorem assign_or_of_disjoint {word mask bits : UInt32} (value : Bool) (h : bits &&& mask = 0) :
    assign word mask value ||| bits = assign (word ||| bits) mask value := by
  rw [← UInt32.toBitVec_inj] at h ⊢
  ext i hi
  have hbit := congrArg (fun v => v[i]) h
  cases value <;> simp [assign] at hbit ⊢ <;> grind

/-- Clearing what is clear changes nothing. -/
theorem assign_false_of_test {word mask : UInt32} (h : test word mask = false) :
    assign word mask false = word := by
  have hzero : word &&& mask = 0 := by simpa [test] using h
  rw [← UInt32.toBitVec_inj] at hzero ⊢
  ext i hi
  have hbit := congrArg (fun v => v[i]) hzero
  simp [assign] at hbit ⊢
  grind

/-- Setting what is set changes nothing. -/
theorem assign_true_of_and {word mask : UInt32} (h : word &&& mask = mask) :
    assign word mask true = word := by
  rw [← UInt32.toBitVec_inj] at h ⊢
  ext i hi
  have hbit := congrArg (fun v => v[i]) h
  simp [assign] at hbit ⊢
  grind

/-- An assignment overwrites an earlier one through the same mask. -/
theorem assign_assign (word mask : UInt32) (v w : Bool) :
    assign (assign word mask v) mask w = assign word mask w := by
  rw [← UInt32.toBitVec_inj]
  ext i
  cases v <;> cases w <;> simp [assign] <;> grind

theorem test_assign_self {word mask : UInt32} (value : Bool) (h : mask ≠ 0) :
    test (assign word mask value) mask = value := by
  unfold test
  cases value
  · have hzero : (word &&& ~~~mask) &&& mask = 0 := by
      rw [← UInt32.toBitVec_inj]
      ext i
      simp
    simp [assign, hzero]
  · have hmask : (word ||| mask) &&& mask = mask := by
      rw [← UInt32.toBitVec_inj]
      ext i
      simp
      exact Or.inr
    simp [assign, hmask, h]

/-! ## Bytes of flags -/

/-- `assign` on a byte. -/
def assignByte (byte mask : UInt8) (value : Bool) : UInt8 :=
  if value then byte ||| mask else byte &&& ~~~mask

/-- `test` on a byte. -/
def testByte (byte mask : UInt8) : Bool := byte &&& mask != 0

theorem testByte_zero (mask : UInt8) : testByte 0 mask = false := by simp [testByte]

theorem assignByte_and_self (byte mask : UInt8) (value : Bool) :
    assignByte byte mask value &&& mask = if value then mask else 0 := by
  rw [← UInt8.toBitVec_inj]
  cases value
  · ext i
    simp [assignByte]
  · ext i
    simp [assignByte]
    exact Or.inr

theorem assignByte_and_of_disjoint {byte mask other : UInt8} (value : Bool)
    (h : mask &&& other = 0) : assignByte byte mask value &&& other = byte &&& other := by
  rw [← UInt8.toBitVec_inj] at h ⊢
  ext i hi
  have hbit := congrArg (fun v => v[i]) h
  cases value <;> simp [assignByte] at hbit ⊢ <;> grind

theorem testByte_assignByte_self {byte mask : UInt8} (value : Bool) (h : mask ≠ 0) :
    testByte (assignByte byte mask value) mask = value := by
  rw [testByte, assignByte_and_self]
  cases value
  · rfl
  · exact bne_iff_ne.mpr h

theorem testByte_assignByte_of_disjoint {byte mask other : UInt8} (value : Bool)
    (h : mask &&& other = 0) : testByte (assignByte byte mask value) other = testByte byte other := by
  rw [testByte, assignByte_and_of_disjoint value h, testByte]

/-- A byte without its highest bit. -/
theorem toNat_lt_of_and {byte : UInt8} (h : byte &&& 0x80 = 0) : byte.toNat < 2 ^ 7 := by
  have hlt := byte.toNat_lt
  have hbit : byte.toNat &&& 2 ^ 7 = 0 := by
    rw [← UInt8.toNat_inj, UInt8.toNat_and] at h
    exact h
  rw [Nat.and_two_pow] at hbit
  have hclear : byte.toNat.testBit 7 = false := by
    cases htest : byte.toNat.testBit 7 with
    | false => rfl
    | true =>
      rw [htest] at hbit
      cases hbit
  rw [Nat.testBit_eq_decide_div_mod_eq] at hclear
  have hne := of_decide_eq_false hclear
  omega

end FlagWord
