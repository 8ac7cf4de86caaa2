import BundleProtocol.Bundle7

/-! # Lifetimes on the wire

A lifetime is written in whole seconds by version 6 and in whole milliseconds by version 7, whose
decoder reads it into 32 bits.  What is cut off may be all of it, and then the bundle that was to
expire soon never does.
-/
namespace BundleProtocol

/-- What arrives of the lifetime `t` is less by less than a unit, and is not zero unless `t` is. -/
structure Survives (t t' unit : ℤ) : Prop where
  le : t' ≤ t
  sub_lt : t - t' < unit
  eq_zero : t' = 0 → t = 0

variable {t : ℤ}

/-- Cutting to whole units keeps a lifetime that has one. -/
theorem survives_iff (ht : 0 ≤ t) {unit : ℤ} (hunit : 0 < unit) :
    Survives t (t / unit * unit) unit ↔ t = 0 ∨ unit ≤ t := by
  have hle : t / unit * unit ≤ t := Int.ediv_mul_le t (Int.ne_of_gt hunit)
  have hlt : t < (t / unit + 1) * unit := Int.lt_ediv_add_one_mul_self t hunit
  rw [Int.add_mul, Int.one_mul] at hlt
  constructor
  · intro h
    by_contra hnot
    obtain ⟨hne, hsmall⟩ := not_or.mp hnot
    refine hne (h.eq_zero ?_)
    rw [Int.ediv_eq_zero_of_lt ht (Int.lt_of_not_ge hsmall), Int.zero_mul]
  · intro h
    refine ⟨hle, by omega, fun hzero => ?_⟩
    rcases h with h | h
    · exact h
    · omega

/-- There is one value that a parser reads. -/
theorem exists_read_iff {α β : Type} {a : α} {rest : β} {P : α → Prop} :
    (∃ b, some (a, rest) = some (b, rest) ∧ P b) ↔ P a := by
  simp

/-- The lifetime of a version 6 header after the wire. -/
theorem lifeTime_onWire {h : BpHeader6} (hlife : h.lifeTime = t) (ht : 0 ≤ t) (hlt : t < 2 ^ 63)
    (cbhe : Bool) : (h.onWire cbhe).lifeTime = t / 10 ^ 9 * 10 ^ 9 := by
  have hwhole : (wholeSeconds t : ℤ) = t / 10 ^ 9 :=
    Int.toNat_of_nonneg (Int.ediv_nonneg ht (by decide))
  have hsmall : wholeSeconds t < 2 ^ 64 := by omega
  rw [BpHeader6.onWire, hlife, seconds, UInt64.toNat_ofNat_of_lt' hsmall, hwhole]

/-- **A finite lifetime stays finite exactly when it has a unit**, and in version 7 when it fits 32 bits
of milliseconds.  For every header of either version that fits a buffer, whatever follows it. -/
theorem lifetime_survives_iff (ht : 0 ≤ t) (hlt : t < 2 ^ 63) {h6 : BpHeader6} {h7 : BpHeader7}
    (hlife6 : h6.lifeTime = t) (hlife7 : h7.lifeTime = t) (hfit6 : h6.serialize.length < 2 ^ 32)
    {size : UInt32} {bytes : List UInt8} (hser7 : h7.serializeAndGetSize = some (size, bytes))
    (hfit7 : bytes.length < 2 ^ 32) (cbhe : Bool) (rest : List UInt8) :
    ((∃ h', (BpHeader6.new cbhe).deserialize (h6.serialize ++ rest) = some (h', rest) ∧
      Survives t h'.lifeTime (10 ^ 9)) ↔ t = 0 ∨ 10 ^ 9 ≤ t) ∧
    ((∃ h', BpHeader7.new.deserialize (bytes ++ rest) = some (h', rest) ∧
      Survives t h'.lifeTime (10 ^ 6)) ↔ t = 0 ∨ (10 ^ 6 ≤ t ∧ t < 2 ^ 32 * 10 ^ 6)) := by
  constructor
  · have hdict : h6.dictionary.length < 2 ^ 32 := by
      rw [BpHeader6.serialize] at hfit6
      simp only [List.length_append, List.length_cons] at hfit6
      omega
    have hread := h6.reads_onWire (BpHeader6.new cbhe) hdict rest
    have hlifeTime := lifeTime_onWire hlife6 ht hlt cbhe
    rw [← survives_iff ht (by decide), ← hlifeTime, hread]
    exact exists_read_iff
  · have hssp := BpHeader7.stringEids_of_length hser7 hfit7
    obtain ⟨ms, hquotient⟩ : ∃ ms : ℕ, t / 10 ^ 6 = ms :=
      Int.eq_ofNat_of_zero_le (Int.ediv_nonneg ht (by decide))
    have hms : getMilliSeconds h7.lifeTime = ms := by
      rw [hlife7, getMilliSeconds, Int.tdiv_eq_ediv_of_nonneg ht, hquotient]
    rcases Nat.lt_or_ge ms (2 ^ 32) with hsmall | hlarge
    · have hread := BpHeader7.reads_deserialize hssp hser7 hms hsmall rest
      have hlifeTime : (h7.onWire ms).lifeTime = t / 10 ^ 6 * 10 ^ 6 := by
        rw [BpHeader7.lifeTime_onWire, milliSeconds, hquotient]
      have hrange : t < 2 ^ 32 * 10 ^ 6 := by omega
      rw [and_iff_left hrange, ← survives_iff ht (by decide), ← hlifeTime, hread]
      exact exists_read_iff
    · have hreject := BpHeader7.rejects_deserialize hssp hser7 hms hlarge rest
      refine iff_of_false ?_ (by omega)
      rintro ⟨h', heq, -⟩
      rw [hreject] at heq
      cases heq

/-- Three seconds survive in both versions. -/
theorem lifetime_survives_iff_sample :
    let h6 := { BpHeader6.new false with lifeTime := seconds 3 }
    let h7 := (Bundle7.sample 0 (seconds 3) ⟨[], by decide⟩).primaryHeader
    ∃ size bytes, h7.serializeAndGetSize = some (size, bytes) ∧
      (∃ h', (BpHeader6.new false).deserialize (h6.serialize ++ []) = some (h', []) ∧
        Survives (seconds 3) h'.lifeTime (10 ^ 9)) ∧
      ∃ h', BpHeader7.new.deserialize (bytes ++ []) = some (h', []) ∧
        Survives (seconds 3) h'.lifeTime (10 ^ 6) := by
  intro h6 h7
  obtain ⟨⟨size, bytes⟩, hser, hfit⟩ := (Option.any_eq_true (fun r : UInt32 × List UInt8 =>
    decide (r.2.length < 2 ^ 32)) _).mp (by decide +kernel : h7.serializeAndGetSize.any _ = true)
  have hboth := lifetime_survives_iff (t := seconds 3) (by decide) (by decide)
    (rfl : h6.lifeTime = seconds 3) (rfl : h7.lifeTime = seconds 3) (by decide +kernel) hser
    (of_decide_eq_true hfit) false []
  exact ⟨size, bytes, hser, hboth.1.mpr (by decide), hboth.2.mpr (by decide)⟩

/-- Half a second becomes no lifetime in version 6. -/
theorem lifetime_lost :
    let h6 := { BpHeader6.new false with lifeTime := 500000000 }
    ∃ h', (BpHeader6.new false).deserialize h6.serialize = some (h', []) ∧
      ¬Survives h6.lifeTime h'.lifeTime (10 ^ 9) := by
  intro h6
  obtain ⟨⟨h', rest⟩, hread, htest⟩ := (Option.any_eq_true (fun r : BpHeader6 × List UInt8 =>
    decide (r.1.lifeTime = 0 ∧ r.2 = [])) _).mp
      (by decide +kernel : ((BpHeader6.new false).deserialize h6.serialize).any _ = true)
  obtain ⟨hzero, rfl⟩ := of_decide_eq_true htest
  exact ⟨h', hread, fun h => absurd (h.eq_zero hzero) (by decide)⟩

end BundleProtocol
