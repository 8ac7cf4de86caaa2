import BundleProtocol.ByteParser

/-! # CBOR heads and byte strings

A data item starts with a head: its major type in the high three bits of the first byte, and in
the low five either its value or the number of bytes that hold the value.  A decoder stores the value in
an integer of a given width; a head of eight bytes does not fit a narrower one, whose shifts would go
beyond its width.  `reads_decodeTagAndValue` is the round trip of a head, from which those of numbers,
array sizes and byte strings follow.
-/
namespace Cbor
open ByteParser

/-- Major types, as the bits that they set. -/
def unsignedInteger : ℕ := 0
def negativeInteger : ℕ := 32
def byteString : ℕ := 64
def array : ℕ := 128

/-- The `n` low bytes of a number, most significant first. -/
def bigEndian : ℕ → ℕ → List UInt8
  | 0, _ => []
  | n + 1, t => UInt8.ofNat (t / 256 ^ n) :: bigEndian n t

/-- The number that the bytes spell. -/
def bigEndianValue (bytes : List UInt8) : ℕ := bytes.foldl (fun t b => t * 256 + b.toNat) 0

/-- The number of bytes that hold a value which does not fit the head's first byte. -/
def length (val : ℕ) : ℕ :=
  if val < 24 then 0
  else if val < 2 ^ 8 then 1
  else if val < 2 ^ 16 then 2
  else if val < 2 ^ 32 then 4
  else 8

/-- `encodeTagAndValue`. -/
def encodeTagAndValue (tag t : ℕ) : List UInt8 :=
  match length t with
  | 0 => [UInt8.ofNat (tag + t)]
  | 1 => UInt8.ofNat (tag + 24) :: bigEndian 1 t
  | 2 => UInt8.ofNat (tag + 25) :: bigEndian 2 t
  | 4 => UInt8.ofNat (tag + 26) :: bigEndian 4 t
  | _ => UInt8.ofNat (tag + 27) :: bigEndian 8 t

/-- How many bytes of value follow, by the low five bits of the first byte. -/
def followingBytes : ℕ → Option ℕ
  | 24 => some 1
  | 25 => some 2
  | 26 => some 4
  | 27 => some 8
  | _ => none

/-- What `decodeTagAndValue` does after the first byte. -/
def decodeValue (width tag additional : ℕ) : Parser (ℕ × ℕ) :=
  if additional < 24 then pure (tag, additional)
  else
    match followingBytes additional with
    | none => failure
    | some n =>
      -- shifting the first of eight bytes into place needs 64 bits
      if n = 8 ∧ width < 64 then failure
      else do
        let bytes ← readBytes n
        pure (tag, bigEndianValue bytes % 2 ^ width)

/-- `decodeTagAndValue` into an integer of `width` bits: the major type and the value. -/
def decodeTagAndValue (width : ℕ) : Parser (ℕ × ℕ) := do
  let octet ← readU8
  decodeValue width (octet.toNat / 32 * 32) (octet.toNat % 32)

/-- `encodeInteger`. -/
def encodeInteger (t : ℤ) : List UInt8 :=
  if 0 ≤ t then encodeTagAndValue unsignedInteger t.toNat
  else encodeTagAndValue negativeInteger (-t - 1).toNat

/-- `encodeArraySize`. -/
def encodeArraySize (t : ℕ) : List UInt8 := encodeTagAndValue array t

/-- `encodeBytes`. -/
def encodeBytes (bytes : List UInt8) : List UInt8 :=
  encodeTagAndValue byteString bytes.length ++ bytes

/-- The value of a head of major type `tag`. -/
def decodeTagged (tag width : ℕ) : Parser ℕ := do
  let head ← decodeTagAndValue width
  if head.1 = tag then pure head.2 else failure

/-- `decodeUnsigned` into an integer of `width` bits. -/
def decodeUnsigned (width : ℕ) : Parser ℕ := decodeTagged unsignedInteger width

/-- `decodeArraySize`. -/
def decodeArraySize : Parser ℕ := decodeTagged array 64

/-- `decodeBytes`. -/
def decodeBytes : Parser (List UInt8) := do
  let value ← decodeTagged byteString 64
  readBytes value

/-! ## Big-endian numbers -/

@[simp] theorem length_bigEndian (n t : ℕ) : (bigEndian n t).length = n := by
  induction n with
  | zero => rfl
  | succ n ih => rw [bigEndian, List.length_cons, ih]

/-- The bytes are read into an accumulator, from the most significant one. -/
theorem foldl_bigEndian (n t acc : ℕ) :
    (bigEndian n t).foldl (fun t b => t * 256 + b.toNat) acc = acc * 256 ^ n + t % 256 ^ n := by
  induction n generalizing acc with
  | zero => simp [bigEndian, Nat.mod_one]
  | succ n ih =>
    have hbyte : (UInt8.ofNat (t / 256 ^ n)).toNat = t / 256 ^ n % 256 := UInt8.toNat_ofNat'
    rw [bigEndian, List.foldl_cons, ih, hbyte, Nat.pow_succ, Nat.mod_mul, Nat.add_mul]
    rw [Nat.mul_comm (256 ^ n) 256, Nat.mul_assoc, Nat.mul_comm (t / 256 ^ n % 256)]
    omega

theorem bigEndianValue_bigEndian {n t : ℕ} (h : t < 256 ^ n) :
    bigEndianValue (bigEndian n t) = t := by
  rw [bigEndianValue, foldl_bigEndian, Nat.mod_eq_of_lt h, Nat.zero_mul, Nat.zero_add]

/-! ## Heads -/

/-- A major type takes the high three bits only. -/
structure IsMajor (tag : ℕ) : Prop where
  dvd : 32 ∣ tag
  lt : tag < 256

theorem isMajor_unsignedInteger : IsMajor unsignedInteger := ⟨by decide, by decide⟩
theorem isMajor_byteString : IsMajor byteString := ⟨by decide, by decide⟩
theorem isMajor_array : IsMajor array := ⟨by decide, by decide⟩

/-- Major type and low bits come apart again. -/
theorem IsMajor.split {tag : ℕ} (h : IsMajor tag) {low : ℕ} (hlow : low < 32) :
    (UInt8.ofNat (tag + low)).toNat / 32 * 32 = tag ∧ (UInt8.ofNat (tag + low)).toNat % 32 = low := by
  obtain ⟨⟨k, rfl⟩, hlt⟩ := h
  rw [UInt8.toNat_ofNat']
  omega

/-- The first byte of a head. -/
theorem reads_octet {tag : ℕ} (h : IsMajor tag) {low width t : ℕ} (hlow : low < 32)
    {bytes : List UInt8} (hvalue : Reads (decodeValue width tag low) bytes (tag, t)) :
    Reads (decodeTagAndValue width) (UInt8.ofNat (tag + low) :: bytes) (tag, t) := by
  obtain ⟨htag, hadditional⟩ := h.split hlow
  have hrest : Reads (decodeValue width ((UInt8.ofNat (tag + low)).toNat / 32 * 32)
      ((UInt8.ofNat (tag + low)).toNat % 32)) bytes (tag, t) := by
    rwa [htag, hadditional]
  exact (reads_readU8 (UInt8.ofNat (tag + low))).bind hrest

/-- A head whose value is in its first byte. -/
theorem reads_low {tag : ℕ} (h : IsMajor tag) {t : ℕ} (ht : t < 24) (width : ℕ) :
    Reads (decodeTagAndValue width) [UInt8.ofNat (tag + t)] (tag, t) := by
  refine reads_octet h (Nat.lt_trans ht (by decide)) ?_
  rw [decodeValue, if_pos ht]
  exact Reads.pure _

/-- A head with a value of `n` bytes. -/
theorem reads_following {tag : ℕ} (h : IsMajor tag) {additional n t width : ℕ}
    (hn : followingBytes additional = some n) (hlow : additional < 32) (hhigh : ¬additional < 24)
    (hwidth : ¬(n = 8 ∧ width < 64)) (ht : t < 256 ^ n) (ht' : t < 2 ^ width) :
    Reads (decodeTagAndValue width) (UInt8.ofNat (tag + additional) :: bigEndian n t) (tag, t) := by
  refine reads_octet h hlow ?_
  have hvalue := (reads_readBytes (bigEndian n t)).bind_pure
    (f := fun bytes => (tag, bigEndianValue bytes % 2 ^ width))
  rw [length_bigEndian, bigEndianValue_bigEndian ht, Nat.mod_eq_of_lt ht'] at hvalue
  rw [decodeValue, if_neg hhigh, hn]
  show Reads (ite _ _ _) _ _
  rw [if_neg hwidth]
  exact hvalue

/-- **The round trip of a head**, for every value that fits the decoder's integer. -/
theorem reads_decodeTagAndValue {tag : ℕ} (h : IsMajor tag) {t width : ℕ} (ht : t < 2 ^ width)
    (hwidth : width ≤ 32 ∨ width = 64) :
    Reads (decodeTagAndValue width) (encodeTagAndValue tag t) (tag, t) := by
  have hwide : ¬t < 2 ^ 32 → ¬((8 : ℕ) = 8 ∧ width < 64) := by
    rintro hlarge ⟨-, hnarrow⟩
    have hle : 2 ^ width ≤ 2 ^ 32 := Nat.pow_le_pow_right (by decide) (hwidth.resolve_right (by omega))
    omega
  have hlt : t < 256 ^ 8 := by
    have hle : 2 ^ width ≤ 2 ^ 64 := Nat.pow_le_pow_right (by decide) (by omega)
    have heq : (256 : ℕ) ^ 8 = 2 ^ 64 := by decide
    omega
  unfold encodeTagAndValue length
  by_cases h₀ : t < 24
  · rw [if_pos h₀]
    exact reads_low h h₀ width
  rw [if_neg h₀]
  by_cases h₁ : t < 2 ^ 8
  · rw [if_pos h₁]
    exact reads_following h rfl (by decide) (by decide) (by simp) h₁ ht
  rw [if_neg h₁]
  by_cases h₂ : t < 2 ^ 16
  · rw [if_pos h₂]
    exact reads_following h rfl (by decide) (by decide) (by simp) h₂ ht
  rw [if_neg h₂]
  by_cases h₄ : t < 2 ^ 32
  · rw [if_pos h₄]
    exact reads_following h rfl (by decide) (by decide) (by simp) h₄ ht
  rw [if_neg h₄]
  exact reads_following h rfl (by decide) (by decide) (hwide h₄) hlt ht

/-- A value of more than 32 bits does not fit a narrow integer. -/
theorem rejects_decodeTagAndValue {tag : ℕ} (h : IsMajor tag) {t width : ℕ} (ht : 2 ^ 32 ≤ t)
    (hwidth : width < 64) : Rejects (decodeTagAndValue width) (encodeTagAndValue tag t) := by
  intro rest
  obtain ⟨htag, hadditional⟩ := h.split (show 27 < 32 by decide)
  have hlength : length t = 8 := by
    unfold length
    rw [if_neg (by omega), if_neg (by omega), if_neg (by omega), if_neg (by omega)]
  unfold encodeTagAndValue
  have hvalue : decodeValue width tag 27 = failure := by
    rw [decodeValue, if_neg (by decide)]
    exact if_pos ⟨rfl, hwidth⟩
  rw [hlength]
  show decodeValue width (_ / 32 * 32) (_ % 32) _ = none
  rw [htag, hadditional, hvalue]
  rfl

/-! ## Data items -/

theorem reads_decodeTagged {tag : ℕ} (h : IsMajor tag) {t width : ℕ} (ht : t < 2 ^ width)
    (hwidth : width ≤ 32 ∨ width = 64) :
    Reads (decodeTagged tag width) (encodeTagAndValue tag t) t := by
  have hvalue : Reads (if (tag, t).1 = tag then pure (tag, t).2 else failure) [] t := by
    rw [if_pos rfl]
    exact Reads.pure t
  have hhead := (reads_decodeTagAndValue h ht hwidth).bind
    (f := fun head => if head.1 = tag then pure head.2 else failure) hvalue
  rwa [List.append_nil] at hhead

theorem encodeInteger_natCast (t : ℕ) : encodeInteger t = encodeTagAndValue unsignedInteger t := by
  rw [encodeInteger, if_pos (Int.natCast_nonneg t), Int.toNat_natCast]

theorem reads_decodeUnsigned (width : ℕ) {t : ℕ} (ht : t < 2 ^ width) (hwidth : width ≤ 32 ∨ width = 64) :
    Reads (decodeUnsigned width) (encodeInteger t) t := by
  rw [encodeInteger_natCast]
  exact reads_decodeTagged isMajor_unsignedInteger ht hwidth

theorem reads_decodeArraySize {t : ℕ} (ht : t < 2 ^ 64) : Reads decodeArraySize (encodeArraySize t) t :=
  reads_decodeTagged isMajor_array ht (Or.inr rfl)

theorem reads_decodeBytes {bytes : List UInt8} (h : bytes.length < 2 ^ 64) :
    Reads decodeBytes (encodeBytes bytes) bytes :=
  (reads_decodeTagged isMajor_byteString h (Or.inr rfl)).bind (reads_readBytes bytes)

/-- Decoding a number of more than 32 bits into a narrow integer. -/
theorem rejects_decodeUnsigned {t width : ℕ} (ht : 2 ^ 32 ≤ t) (hwidth : width < 64) :
    Rejects (decodeUnsigned width) (encodeInteger t) := by
  rw [encodeInteger_natCast]
  have hreject : Rejects (decodeUnsigned width) (encodeTagAndValue unsignedInteger t ++ []) :=
    (rejects_decodeTagAndValue isMajor_unsignedInteger ht hwidth).bind
  rwa [List.append_nil] at hreject

/-! ## Sizes -/

/-- A head is one byte and those of its value. -/
theorem length_encodeTagAndValue (tag t : ℕ) : (encodeTagAndValue tag t).length = 1 + length t := by
  unfold encodeTagAndValue length
  split_ifs <;> simp

theorem length_encodeTagAndValue_le (tag t : ℕ) : (encodeTagAndValue tag t).length ≤ 9 := by
  unfold encodeTagAndValue
  split <;> simp

theorem length_encodeInteger_le (t : ℤ) : (encodeInteger t).length ≤ 9 := by
  unfold encodeInteger
  split <;> exact length_encodeTagAndValue_le _ _

end Cbor
