import Mathlib.Data.Nat.Size
import BundleProtocol.Sdnv

/-! # The encodings of `Sdnv` are minimal and prefix-free

Both decoders stop at the first last byte, and over `k` bytes the accumulator stays
below `128 ^ k`, with or without wrapping around.  A value with more groups than that
is out of reach of `k` bytes, so the encoder's own string is the shortest one; and as
the decoder knows where a string ends, no encoding starts another.
-/
namespace BundleProtocol
open ByteParser

namespace Sdnv

/-! ## The two decoders -/

/-- Nothing behind the first last byte is looked at. -/
theorem decodeVector_append {bytes : List UInt8} (hlast : ∃ b ∈ bytes, isLast b = true)
    (acc : ℕ) (rest : List UInt8) :
    decodeVector acc (bytes ++ rest) = decodeVector acc bytes := by
  induction bytes generalizing acc with
  | nil =>
    obtain ⟨b, hb, _⟩ := hlast
    cases hb
  | cons b bytes ih =>
    simp only [List.cons_append, decodeVector]
    cases hb : isLast b with
    | true => rfl
    | false =>
      have htail : ∃ c ∈ bytes, isLast c = true := by
        obtain ⟨c, hc, hclast⟩ := hlast
        rcases List.mem_cons.mp hc with rfl | hc
        · rw [hb] at hclast
          cases hclast
        · exact ⟨c, hc, hclast⟩
      exact ih htail _

theorem IsSdnv.exists_isLast {bytes : List UInt8} (h : IsSdnv bytes) :
    ∃ b ∈ bytes, isLast b = true := by
  obtain ⟨groups, last, rfl, _, hlast⟩ := h
  exact ⟨last, by simp, hlast⟩

/-- The buffer decoder returns what the vector decoder returns on the whole buffer. -/
theorem decode_eq_decodeVector {xs rest : List UInt8} {v : UInt64}
    (h : decode xs = some (v, rest)) : v = UInt64.ofNat (decodeVector 0 xs) := by
  obtain ⟨⟨vec, rest'⟩, hvec, hpure⟩ := Option.bind_eq_some_iff.mp h
  obtain ⟨hsdnv, rfl⟩ := isSdnv_of_readVector hvec
  cases hpure
  rw [decodeVector_append hsdnv.exists_isLast]

/-- What the encoder writes is an SDNV. -/
theorem isSdnv_encode (val : UInt64) : IsSdnv (encode val) :=
  (spells_isSdnv.of_reads (reads_decode val)).1

/-- The vector decoder on an encoding in front of any bytes. -/
theorem decodeVector_encode (val : UInt64) (rest : List UInt8) :
    UInt64.ofNat (decodeVector 0 (encode val ++ rest)) = val :=
  (decode_eq_decodeVector (reads_decode val rest)).symm

/-! ## Lengths -/

/-- Each byte multiplies the accumulator by 128 at most, wrap-around included. -/
theorem decodeVector_lt {acc bound : ℕ} (hacc : acc < bound) (bytes : List UInt8) :
    decodeVector acc bytes < bound * 128 ^ bytes.length := by
  induction bytes generalizing acc bound with
  | nil => rwa [List.length_nil, Nat.pow_zero, Nat.mul_one]
  | cons b bytes ih =>
    have hshift : (acc * 128 + b.toNat % 128) % 2 ^ 64 < bound * 128 :=
      Nat.lt_of_le_of_lt (Nat.mod_le _ _) (by omega)
    have hpow : bound * 128 ^ (b :: bytes).length = bound * 128 * 128 ^ bytes.length := by
      rw [List.length_cons, Nat.pow_succ', Nat.mul_assoc]
    have hpos : 1 ≤ 128 ^ bytes.length := Nat.pow_pos (by decide)
    simp only [decodeVector]
    rw [hpow]
    split
    · exact Nat.lt_of_lt_of_le hshift (Nat.le_mul_of_pos_right _ hpos)
    · exact ih hshift

/-- The number of bytes is that of the groups of seven bits, and one for `0`. -/
theorem length_encode (val : UInt64) :
    (encode val).length = max 1 ((Nat.size val.toNat + 6) / 7) := by
  have hpos := length_encode_pos val
  -- both sides lie below the same bounds
  have hle : ∀ k, (encode val).length ≤ k + 1 ↔ (Nat.size val.toNat + 6) / 7 ≤ k + 1 := by
    intro k
    have hpow : 128 ^ (k + 1) = 2 ^ (7 * (k + 1)) := by rw [Nat.pow_mul]
    rw [length_encode_le_iff, hpow, ← Nat.size_le]
    omega
  have hself := (hle ((encode val).length - 1)).mp (by omega)
  have hgroups := (hle (max 1 ((Nat.size val.toNat + 6) / 7) - 1)).mpr (by omega)
  omega

theorem length_encode_le_ten (val : UInt64) : (encode val).length ≤ 10 :=
  length_encode_le (Nat.lt_of_lt_of_le val.toNat_lt (by decide : 2 ^ 64 ≤ 128 ^ (9 + 1)))

/-- **The encoding is the shortest.** Fewer bytes, of which one is a last byte, stand
for a smaller value. -/
theorem decodeVector_lt_of_shorter {val : UInt64} {bytes : List UInt8}
    (hlast : ∃ b ∈ bytes, isLast b = true) (hshort : bytes.length < (encode val).length) :
    decodeVector 0 bytes < val.toNat := by
  have hpos : 0 < bytes.length := by
    obtain ⟨b, hb, _⟩ := hlast
    exact List.length_pos_of_mem hb
  have hlt := decodeVector_lt Nat.zero_lt_one bytes
  have hgroups : ¬ val.toNat < 128 ^ (bytes.length - 1 + 1) := by
    rw [← length_encode_le_iff]
    omega
  rw [Nat.sub_add_cancel hpos] at hgroups
  omega

/-- What fewer bytes decode to is a different value. -/
theorem ofNat_decodeVector_ne_of_shorter {val : UInt64} {bytes : List UInt8}
    (hlast : ∃ b ∈ bytes, isLast b = true) (hshort : bytes.length < (encode val).length) :
    UInt64.ofNat (decodeVector 0 bytes) ≠ val := by
  intro heq
  have hlt := decodeVector_lt_of_shorter hlast hshort
  have hval := val.toNat_lt
  rw [← heq, UInt64.toNat_ofNat'] at hlt
  omega

/-- No encoding is the start of another. -/
theorem encode_prefix_free {val other : UInt64} (h : encode val <+: encode other) :
    val = other := by
  obtain ⟨rest, hrest⟩ := h
  have hval := reads_decode val rest
  have hother := reads_decode other []
  rw [List.append_nil, ← hrest, hval] at hother
  cases hother
  rfl

/-- **The SDNV code.** An encoding has as many bytes as its value has groups of seven
bits, the high bit set on all of them but the last; both decoders read it back in
front of any bytes; no shorter string with a last byte at its end decodes to the same
value; and no encoding is a proper prefix of another. -/
theorem sdnv_code (val : UInt64) (rest : List UInt8) :
    (encode val).length = max 1 ((Nat.size val.toNat + 6) / 7) ∧ (encode val).length ≤ 10 ∧
    IsSdnv (encode val) ∧
    UInt64.ofNat (decodeVector 0 (encode val ++ rest)) = val ∧
    decode (encode val ++ rest) = some (val, rest) ∧
    (∀ groups last after, isLast last = true →
      (groups ++ [last]).length < (encode val).length →
      UInt64.ofNat (decodeVector 0 (groups ++ [last])) ≠ val ∧
      ∀ left, decode (groups ++ [last] ++ after) ≠ some (val, left)) ∧
    ∀ other, other ≠ val → ¬ encode val <+: encode other := by
  refine ⟨length_encode val, length_encode_le_ten val, isSdnv_encode val,
    decodeVector_encode val rest, reads_decode val rest, ?_, ?_⟩
  · intro groups last after hlast hshort
    have hmem : ∃ b ∈ groups ++ [last], isLast b = true := ⟨last, by simp, hlast⟩
    have hne := ofNat_decodeVector_ne_of_shorter hmem hshort
    refine ⟨hne, ?_⟩
    intro left hdecode
    apply hne
    rw [← decodeVector_append hmem 0 after]
    exact (decode_eq_decodeVector hdecode).symm
  · intro other hother hprefix
    exact hother (encode_prefix_free hprefix).symm

end Sdnv
end BundleProtocol
