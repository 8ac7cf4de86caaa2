import BundleProtocol.ByteParser

/-! # Self-delimiting numeric values

`Sdnv` writes a 64-bit value as groups of seven bits, most significant first, with
the high bit set on every byte but the last.  The encoder pushes the groups least
significant first and reverses them; the decoder shifts them back into a 64-bit
accumulator, whose high bits fall off on encodings longer than the encoder's own.
`reads_decode` is the round trip, in front of any trailing bytes.
-/
namespace BundleProtocol
open ByteParser

namespace Sdnv

/-- The body of `while (val)`: push `(val & 0x7F) | 0x80`, then `val >>= 7`.  The
first argument bounds the number of groups. -/
def continuationGroups : ℕ → ℕ → List UInt8
  | 0, _ => []
  | fuel + 1, val =>
    if val = 0 then [] else UInt8.ofNat (val % 128 + 128) :: continuationGroups fuel (val / 128)

/-- `Sdnv::Encode`.  After its low seven bits a 64-bit value has at most nine groups
left. -/
def encode (val : UInt64) : List UInt8 :=
  if val = 0 then [0]
  else (UInt8.ofNat (val.toNat % 128) :: continuationGroups 9 (val.toNat / 128)).reverse

/-- `Sdnv::IsLast`: the high bit is clear. -/
def isLast (val : UInt8) : Bool := val.toNat < 128

/-- The loop of `Sdnv::Decode (std::vector<uint8_t>)`, in 64-bit arithmetic. -/
def decodeVector (decoded : ℕ) : List UInt8 → ℕ
  | [] => decoded
  | b :: rest =>
    let shifted := (decoded * 128 + b.toNat % 128) % 2 ^ 64
    if isLast b then shifted else decodeVector shifted rest

/-- The bytes `Sdnv::Decode (Buffer::Iterator &)` collects: up to the first last byte. -/
def readVector : Parser (List UInt8)
  | [] => none
  | b :: rest =>
    if isLast b then some ([b], rest)
    else (readVector rest).map fun r => (b :: r.1, r.2)

/-- `Sdnv::Decode (Buffer::Iterator &)`. -/
def decode : Parser UInt64 := do
  let vec ← readVector
  pure (UInt64.ofNat (decodeVector 0 vec))

theorem isLast_low (val : ℕ) : isLast (UInt8.ofNat (val % 128)) = true := by
  simp [isLast]
  omega

theorem isLast_group (val : ℕ) : isLast (UInt8.ofNat (val % 128 + 128)) = false := by
  simp [isLast]
  omega

theorem not_isLast_of_mem_groups {fuel val : ℕ} {b : UInt8}
    (h : b ∈ continuationGroups fuel val) : isLast b = false := by
  induction fuel generalizing val with
  | zero => cases h
  | succ fuel ih =>
    unfold continuationGroups at h
    split at h
    · cases h
    · rcases List.mem_cons.mp h with rfl | h
      · exact isLast_group val
      · exact ih h

theorem reads_readVector {groups : List UInt8} {last : UInt8}
    (hgroups : ∀ b ∈ groups, isLast b = false) (hlast : isLast last = true) :
    Reads readVector (groups ++ [last]) (groups ++ [last]) := by
  induction groups with
  | nil => intro rest; simp [readVector, hlast]
  | cons b groups ih =>
    intro rest
    have htail := ih (fun c hc => hgroups c (by simp [hc])) rest
    rw [List.append_assoc] at htail
    rw [List.cons_append, List.cons_append, List.append_assoc, readVector, htail,
      hgroups b (by simp)]
    rfl

/-- Reading back the groups of `val` puts `val` into the accumulator: the induction
is on the number of groups, from the last one pushed. -/
theorem decodeVector_groups (fuel : ℕ) {val : ℕ} (hfuel : val < 128 ^ fuel) (hval : val < 2 ^ 64)
    (tail : List UInt8) :
    decodeVector 0 ((continuationGroups fuel val).reverse ++ tail) = decodeVector val tail := by
  induction fuel generalizing val tail with
  | zero =>
    have hzero : val = 0 := by omega
    subst hzero
    rfl
  | succ fuel ih =>
    unfold continuationGroups
    split
    · rename_i hzero
      subst hzero
      rfl
    · have hdiv : val / 128 < 128 ^ fuel := by
        rw [Nat.div_lt_iff_lt_mul (by decide), ← Nat.pow_succ]
        exact hfuel
      rw [List.reverse_cons, List.append_assoc, ih hdiv (by omega)]
      simp only [List.cons_append, List.nil_append, decodeVector, isLast_group]
      have hsum : (val / 128 * 128 + val % 128) % 18446744073709551616 = val := by omega
      simp [hsum]

/-- **The round trip.** Decoding consumes exactly what the encoder wrote. -/
theorem reads_decode (val : UInt64) : Reads decode (encode val) val := by
  have hlt : val.toNat < 2 ^ 64 := val.toNat_lt
  unfold encode
  split
  · rename_i hzero
    subst hzero
    intro rest
    rfl
  · rw [List.reverse_cons]
    have hgroups : ∀ b ∈ (continuationGroups 9 (val.toNat / 128)).reverse, isLast b = false :=
      fun b hb => not_isLast_of_mem_groups (List.mem_reverse.mp hb)
    have hvec := reads_readVector hgroups (isLast_low val.toNat)
    have hdecoded : UInt64.ofNat (decodeVector 0 ((continuationGroups 9 (val.toNat / 128)).reverse ++
        [UInt8.ofNat (val.toNat % 128)])) = val := by
      rw [decodeVector_groups 9 (by omega) (by omega)]
      have hsum : (val.toNat / 128 * 128 + val.toNat % 128) % 18446744073709551616 = val.toNat := by
        omega
      simp [decodeVector, isLast_low, hsum]
    have h := hvec.bind_pure (f := fun vec => UInt64.ofNat (decodeVector 0 vec))
    rwa [hdecoded] at h

theorem spells_readVector :
    Spells readVector fun ys vec => ys = vec ∧ vec.countP isLast = 1 := by
  intro xs vec rest hread
  induction xs generalizing vec rest with
  | nil => cases hread
  | cons x xs ih =>
    unfold readVector at hread
    cases hx : isLast x with
    | true =>
      rw [hx] at hread
      cases hread
      have hread : Reads readVector ([] ++ [x]) ([] ++ [x]) :=
        reads_readVector (fun b hb => absurd hb List.not_mem_nil) hx
      exact ⟨[x], rfl, hread, rfl, by simp [hx]⟩
    | false =>
      rw [hx, if_neg Bool.false_ne_true] at hread
      obtain ⟨⟨tail, rest⟩, htail, hvec⟩ := Option.map_eq_some_iff.mp hread
      cases hvec
      obtain ⟨_, rfl, hreads, rfl, hcount⟩ := ih _ _ htail
      refine ⟨x :: _, rfl, ?_, rfl, ?_⟩
      · intro after
        rw [List.cons_append, readVector, hreads after, hx]
        rfl
      · rw [List.countP_cons_of_neg (by simp [hx]), hcount]

/-- A value is read off bytes of which one is a last byte. -/
theorem spells_decode : Spells decode fun ys _ => ys.countP isLast = 1 := by
  refine spells_readVector.bind ?_
  rintro vec _ ⟨rfl, hcount⟩
  refine Spells.pure ?_
  rw [List.append_nil]
  exact hcount

/-- The number of bytes grows with the number of seven-bit groups. -/
theorem length_continuationGroups_le (fuel : ℕ) {val k : ℕ} (h : val < 128 ^ k) :
    (continuationGroups fuel val).length ≤ k := by
  induction fuel generalizing val k with
  | zero => simp [continuationGroups]
  | succ fuel ih =>
    unfold continuationGroups
    split
    · simp
    · cases k with
      | zero => omega
      | succ k =>
        have hdiv : val / 128 < 128 ^ k := by
          rw [Nat.div_lt_iff_lt_mul (by decide), ← Nat.pow_succ]
          exact h
        simp [ih hdiv]

/-- A value of at most `k + 1` groups takes at most `k + 1` bytes. -/
theorem length_encode_le {val : UInt64} {k : ℕ} (h : val.toNat < 128 ^ (k + 1)) :
    (encode val).length ≤ k + 1 := by
  unfold encode
  split
  · simp
  · have hdiv : val.toNat / 128 < 128 ^ k := by
      rw [Nat.div_lt_iff_lt_mul (by decide), ← Nat.pow_succ]
      exact h
    have hlen := length_continuationGroups_le 9 hdiv
    simp
    omega

/-- With fuel for all groups, the number of bytes is exactly that of the groups. -/
theorem length_continuationGroups_le_iff (fuel : ℕ) {val k : ℕ} (hfuel : val < 128 ^ fuel) :
    (continuationGroups fuel val).length ≤ k ↔ val < 128 ^ k := by
  refine ⟨fun hlen => ?_, length_continuationGroups_le fuel⟩
  induction fuel generalizing val k with
  | zero => exact Nat.lt_of_lt_of_le hfuel (Nat.pow_le_pow_right (by decide) (Nat.zero_le k))
  | succ fuel ih =>
    unfold continuationGroups at hlen
    split at hlen
    · rename_i hzero
      subst hzero
      exact Nat.pow_pos (by decide)
    · have hdiv : val / 128 < 128 ^ fuel := by
        rw [Nat.div_lt_iff_lt_mul (by decide), ← Nat.pow_succ]
        exact hfuel
      cases k with
      | zero => simp at hlen
      | succ k =>
        have hrest := ih hdiv (Nat.le_of_succ_le_succ hlen)
        rwa [Nat.div_lt_iff_lt_mul (by decide), ← Nat.pow_succ] at hrest

/-- A value takes at most `k + 1` bytes exactly when it has at most `k + 1` groups. -/
theorem length_encode_le_iff {val : UInt64} {k : ℕ} :
    (encode val).length ≤ k + 1 ↔ val.toNat < 128 ^ (k + 1) := by
  refine ⟨fun hlen => ?_, length_encode_le⟩
  have hlt := val.toNat_lt
  unfold encode at hlen
  split at hlen
  · rename_i hzero
    subst hzero
    exact Nat.pow_pos (by decide)
  · have hrest := (length_continuationGroups_le_iff 9 (show val.toNat / 128 < 128 ^ 9 by omega)).mp
      (show _ ≤ k by simpa using hlen)
    rwa [Nat.div_lt_iff_lt_mul (by decide), ← Nat.pow_succ] at hrest

theorem length_encode_pos (val : UInt64) : 0 < (encode val).length := by
  unfold encode
  split <;> simp

/-- No value takes more than ten bytes. -/
theorem length_flatMap_encode_le (vals : List UInt64) :
    (vals.flatMap encode).length ≤ 10 * vals.length := by
  induction vals with
  | nil => exact Nat.le_refl 0
  | cons val vals ih =>
    have hten : (encode val).length ≤ 9 + 1 :=
      length_encode_le (Nat.lt_of_lt_of_le val.toNat_lt (by decide))
    rw [List.flatMap_cons, List.length_append, List.length_cons]
    omega

/-! ## Values of any size -/

/-- Only the last byte has its high bit clear. -/
def IsSdnv (bytes : List UInt8) : Prop :=
  ∃ groups last, bytes = groups ++ [last] ∧ (∀ b ∈ groups, isLast b = false) ∧ isLast last = true

/-- The number that groups of seven bits stand for, behind those that make up `acc`. -/
def valueFrom (acc : ℕ) (bytes : List UInt8) : ℕ :=
  bytes.foldl (fun n b => n * 128 + b.toNat % 128) acc

/-- The number that an SDNV stands for, of whatever size. -/
def value (bytes : List UInt8) : ℕ := valueFrom 0 bytes

/-- The accumulator is the value without the bits that fell off. -/
theorem decodeVector_eq_mod {groups : List UInt8} {last : UInt8}
    (hgroups : ∀ b ∈ groups, isLast b = false) (hlast : isLast last = true) (acc : ℕ) :
    decodeVector (acc % 2 ^ 64) (groups ++ [last]) = valueFrom acc (groups ++ [last]) % 2 ^ 64 := by
  -- the bits that fell off do not come back
  have hshift : ∀ b : UInt8, (acc % 2 ^ 64 * 128 + b.toNat % 128) % 2 ^ 64 =
      (acc * 128 + b.toNat % 128) % 2 ^ 64 := by
    intro b
    omega
  induction groups generalizing acc with
  | nil =>
    rw [List.nil_append, decodeVector, hlast, if_pos rfl, hshift last]
    rfl
  | cons b groups ih =>
    have htail := ih (fun c hc => hgroups c (List.mem_cons_of_mem b hc)) (acc * 128 + b.toNat % 128)
      fun c => by omega
    rw [List.cons_append, decodeVector, hgroups b List.mem_cons_self, if_neg Bool.false_ne_true,
      hshift b, htail]
    rfl

/-- **What is decoded is the value modulo 2^64.** -/
theorem IsSdnv.reads_decode {bytes : List UInt8} (h : IsSdnv bytes) :
    Reads decode bytes (UInt64.ofNat (value bytes)) := by
  obtain ⟨groups, last, rfl, hgroups, hlast⟩ := h
  have hvec := (reads_readVector hgroups hlast).bind_pure
    (f := fun vec => UInt64.ofNat (decodeVector 0 vec))
  have hmod : UInt64.ofNat (decodeVector 0 (groups ++ [last])) =
      UInt64.ofNat (value (groups ++ [last])) := by
    rw [← UInt64.toNat_inj, UInt64.toNat_ofNat', UInt64.toNat_ofNat']
    have hzero := decodeVector_eq_mod hgroups hlast 0
    rw [Nat.zero_mod] at hzero
    rw [hzero, Nat.mod_mod]
    rfl
  rwa [hmod] at hvec

theorem isSdnv_of_readVector {xs vec rest : List UInt8} (h : readVector xs = some (vec, rest)) :
    IsSdnv vec ∧ xs = vec ++ rest := by
  induction xs generalizing vec with
  | nil => cases h
  | cons x xs ih =>
    unfold readVector at h
    cases hx : isLast x with
    | true =>
      rw [hx] at h
      cases h
      exact ⟨⟨[], x, rfl, fun b hb => absurd hb List.not_mem_nil, hx⟩, rfl⟩
    | false =>
      rw [hx, if_neg Bool.false_ne_true] at h
      obtain ⟨⟨tail, rest'⟩, htail, hvec⟩ := Option.map_eq_some_iff.mp h
      cases hvec
      obtain ⟨⟨groups, last, rfl, hgroups, hlast⟩, rfl⟩ := ih htail
      refine ⟨⟨x :: groups, last, rfl, fun b hb => ?_, hlast⟩, rfl⟩
      rcases List.mem_cons.mp hb with rfl | hb
      · exact hx
      · exact hgroups b hb

/-- Whatever is decoded is an SDNV at the front. -/
theorem spells_isSdnv : Spells decode fun ys v => IsSdnv ys ∧ v = UInt64.ofNat (value ys) := by
  intro xs v rest hread
  obtain ⟨⟨vec, rest'⟩, hvec, hpure⟩ := Option.bind_eq_some_iff.mp hread
  obtain ⟨hsdnv, rfl⟩ := isSdnv_of_readVector hvec
  have hself := hsdnv.reads_decode rest'
  rw [hread] at hself
  cases hself
  exact ⟨vec, rfl, hsdnv.reads_decode, hsdnv, rfl⟩

/-- The bytes of one SDNV. -/
structure Encoding where
  bytes : List UInt8
  isSdnv : IsSdnv bytes

def Encoding.value (e : Encoding) : ℕ := Sdnv.value e.bytes

theorem Encoding.reads_decode (e : Encoding) : Reads decode e.bytes (UInt64.ofNat e.value) :=
  e.isSdnv.reads_decode

theorem spells_encoding : Spells decode fun ys v =>
    ∃ e : Encoding, ys = e.bytes ∧ v = UInt64.ofNat e.value := by
  intro xs v rest hread
  obtain ⟨ys, hxs, hys, hsdnv, hv⟩ := spells_isSdnv xs v rest hread
  exact ⟨ys, hxs, hys, ⟨ys, hsdnv⟩, rfl, hv⟩

/-- `0` on the wire. -/
def Encoding.zero : Encoding := ⟨[0], [], 0, rfl, fun _ hb => absurd hb List.not_mem_nil, rfl⟩

end Sdnv
end BundleProtocol
