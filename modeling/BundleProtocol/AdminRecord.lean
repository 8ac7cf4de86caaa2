import BundleProtocol.PrimaryHeader

/-! # Administrative records

The header `AdminRecord` is one byte of type and flags.  `CustodySignal` follows it
in a custody signal; its `Deserialize` reports as length the size of the decoded
signal when encoded again, with the time of the signal divided by 1000 on the way.  So only a
signal at time zero is restored (`deserialize_encode_iff`).
-/
namespace BundleProtocol
open ByteParser

/-- `_BP_AR_CS`. -/
def arCustodySignal : UInt8 := 0x2

/-- `_BP_AR_FRAG`. -/
def arFragment : UInt8 := 0x1

/-- `_BP_AR_ACS`. -/
def arAggregateCustodySignal : UInt8 := 0x4

/-- `AdminRecord`. -/
structure AdminRecord where
  typeFlags : UInt8

namespace AdminRecord

def serialize (ar : AdminRecord) : List UInt8 := [ar.typeFlags]

/-- `RemoveHeader (ar)`: one byte is read and stripped. -/
def removeFrom (packet : List UInt8) : Option (AdminRecord × List UInt8) := do
  let (typeFlags, rest) ← readU8 packet
  some (⟨typeFlags⟩, rest)

/-- `ar.typeFlags & (_BP_AR_CS << 4)`. -/
def isCustodySignal (ar : AdminRecord) : Bool := ar.typeFlags &&& (arCustodySignal <<< 4) != 0

/-- `ar.typeFlags & (_BP_AR_ACS << 4)`. -/
def isAggregateCustodySignal (ar : AdminRecord) : Bool :=
  ar.typeFlags &&& (arAggregateCustodySignal <<< 4) != 0

end AdminRecord

/-- `CustodySignal`. -/
structure CustodySignal where
  status : UInt8
  fragmentOffset : UInt32
  fragmentLength : UInt32
  timeOfSignal : Time
  creationTimestamp : UInt32
  seqNo : UInt32
  srcEidLen : UInt32
  srcEid : List UInt8
deriving DecidableEq

namespace CustodySignal

/-- The status of a succeeded signal. -/
def succeeded : UInt8 := 0x80

/-- `CustodySignal::Encode`. -/
def encode (cs : CustodySignal) : List UInt8 :=
  cs.status :: ([cs.fragmentOffset.toUInt64, cs.fragmentLength.toUInt64,
    UInt64.ofNat (wholeSeconds cs.timeOfSignal), cs.creationTimestamp.toUInt64,
    cs.seqNo.toUInt64, cs.srcEidLen.toUInt64].flatMap Sdnv.encode ++ cs.srcEid)

/-- The reads of `CustodySignal::Deserialize`; `Seconds (n / 1000.0)` is `n` ms. -/
def deserialize : Parser CustodySignal := do
  let status ← readU8
  let fragmentOffset ← Sdnv.decode
  let fragmentLength ← Sdnv.decode
  let timeOfSignal ← Sdnv.decode
  let creationTimestamp ← Sdnv.decode
  let seqNo ← Sdnv.decode
  let srcEidLen ← Sdnv.decode
  let srcEid ← readBytes srcEidLen.toUInt32.toNat
  pure {
    status := status
    fragmentOffset := fragmentOffset.toUInt32
    fragmentLength := fragmentLength.toUInt32
    timeOfSignal := timeOfSignal.toNat * 10 ^ 6
    creationTimestamp := creationTimestamp.toUInt32
    seqNo := seqNo.toUInt32
    srcEidLen := srcEidLen.toUInt32
    srcEid := srcEid }

/-- `RemoveHeader (cs)`: the packet loses as many bytes as the decoded signal takes
when encoded. -/
def removeFrom (packet : List UInt8) : Option (CustodySignal × List UInt8) := do
  let (cs, _) ← deserialize packet
  some (cs, packet.drop cs.encode.length)

/-- `CustodySignal::Deserialize`, with the size that it returns: that of the decoded signal. -/
def deserializeAndGetSize (packet : List UInt8) : Option (CustodySignal × UInt32) := do
  let (cs, _) ← deserialize packet
  some (cs, UInt32.ofNat cs.encode.length)

/-! ## What is restored -/

variable {cs : CustodySignal} {n : ℕ}

/-- `Encode` writes the time of the signal in seconds, and `Deserialize` takes it for milliseconds.
All other fields come back. -/
theorem reads_deserialize (hlen : cs.srcEid.length = cs.srcEidLen.toNat)
    (htime : cs.timeOfSignal = seconds n) (hn : n < 2 ^ 64) :
    Reads deserialize cs.encode { cs with timeOfSignal := n * 10 ^ 6 } := by
  have hseconds : (UInt64.ofNat (wholeSeconds cs.timeOfSignal)).toNat = n := by
    rw [htime, BpHeader6.wholeSeconds_seconds, UInt64.toNat_ofNat_of_lt' hn]
  have hsrcEid : Reads (readBytes cs.srcEidLen.toUInt64.toUInt32.toNat) cs.srcEid cs.srcEid := by
    rw [UInt32.toUInt32_toUInt64, ← hlen]
    exact reads_readBytes cs.srcEid
  have hbytes : cs.encode = [cs.status] ++ (Sdnv.encode cs.fragmentOffset.toUInt64 ++
      (Sdnv.encode cs.fragmentLength.toUInt64 ++
      (Sdnv.encode (UInt64.ofNat (wholeSeconds cs.timeOfSignal)) ++
      (Sdnv.encode cs.creationTimestamp.toUInt64 ++ (Sdnv.encode cs.seqNo.toUInt64 ++
      (Sdnv.encode cs.srcEidLen.toUInt64 ++ cs.srcEid)))))) := by
    simp [encode]
  have hrecord : { cs with timeOfSignal := n * 10 ^ 6 } = ({
      status := cs.status
      fragmentOffset := cs.fragmentOffset.toUInt64.toUInt32
      fragmentLength := cs.fragmentLength.toUInt64.toUInt32
      timeOfSignal := (UInt64.ofNat (wholeSeconds cs.timeOfSignal)).toNat * 10 ^ 6
      creationTimestamp := cs.creationTimestamp.toUInt64.toUInt32
      seqNo := cs.seqNo.toUInt64.toUInt32
      srcEidLen := cs.srcEidLen.toUInt64.toUInt32
      srcEid := cs.srcEid } : CustodySignal) := by
    rw [hseconds]
    simp only [UInt32.toUInt32_toUInt64]
  rw [hbytes, hrecord]
  apply (reads_readU8 cs.status).bind
  apply (Sdnv.reads_decode cs.fragmentOffset.toUInt64).bind
  apply (Sdnv.reads_decode cs.fragmentLength.toUInt64).bind
  apply (Sdnv.reads_decode (UInt64.ofNat (wholeSeconds cs.timeOfSignal))).bind
  apply (Sdnv.reads_decode cs.creationTimestamp.toUInt64).bind
  apply (Sdnv.reads_decode cs.seqNo.toUInt64).bind
  apply (Sdnv.reads_decode cs.srcEidLen.toUInt64).bind
  exact hsrcEid.bind_pure

/-- **A custody signal is restored exactly when its time is zero**, provided that its size is counted
in 32 bits, as a buffer's is. -/
theorem deserialize_encode_iff (hlen : cs.srcEid.length = cs.srcEidLen.toNat)
    (htime : cs.timeOfSignal = seconds n) (hn : n < 2 ^ 32) :
    (∀ rest, ∃ size, deserializeAndGetSize (cs.encode ++ rest) = some (cs, size) ∧
      size.toNat = cs.encode.length) ↔ n = 0 ∧ cs.encode.length < 2 ^ 32 := by
  have hread : ∀ rest, deserializeAndGetSize (cs.encode ++ rest) =
      some ({ cs with timeOfSignal := n * 10 ^ 6 },
        UInt32.ofNat (encode { cs with timeOfSignal := n * 10 ^ 6 }).length) := by
    intro rest
    rw [deserializeAndGetSize, reads_deserialize hlen htime (Nat.lt_trans hn (by decide)) rest]
    rfl
  constructor
  · intro hall
    obtain ⟨size, hdecoded, hsize⟩ := hall []
    rw [hread []] at hdecoded
    have hself := congrArg (fun r => r.1.timeOfSignal) (Option.some.inj hdecoded)
    refine ⟨?_, ?_⟩
    · -- as many milliseconds as seconds
      have hms : (n : ℤ) * 10 ^ 6 = n * 10 ^ 9 := hself.trans htime
      omega
    · rw [← hsize]
      exact size.toNat_lt
  · -- zero is the same in any unit
    rintro ⟨rfl, hfits⟩ rest
    have hself : { cs with timeOfSignal := ((0 : ℕ) : Time) * 10 ^ 6 } = cs := by
      have hzero : ((0 : ℕ) : Time) * 10 ^ 6 = cs.timeOfSignal := by
        rw [htime]
        rfl
      rw [hzero]
    rw [hread rest, hself]
    exact ⟨_, rfl, UInt32.toNat_ofNat_of_lt' hfits⟩

/-- A signal for a fragment of a bundle from `dtn:a`, signalled after `n` seconds. -/
def sample (n : ℕ) : CustodySignal where
  status := succeeded
  fragmentOffset := 1000
  fragmentLength := 300
  timeOfSignal := seconds n
  creationTimestamp := 0xFFFFFFFF
  seqNo := 7
  srcEidLen := 5
  srcEid := [100, 116, 110, 58, 97]

theorem deserialize_encode_iff_sample :
    ∃ size, deserializeAndGetSize ((sample 0).encode ++ [7]) = some (sample 0, size) ∧
      size.toNat = (sample 0).encode.length := by
  have hiff : _ ↔ (0 : ℕ) = 0 ∧ (sample 0).encode.length < 2 ^ 32 :=
    deserialize_encode_iff (by decide) rfl (by decide)
  exact hiff.mpr ⟨rfl, by decide⟩ [7]

/-- A signal after 200 seconds comes back as one after 200 milliseconds, with a size that is one byte
short. -/
theorem time_of_signal_divided :
    (sample 200).srcEid.length = (sample 200).srcEidLen.toNat ∧
      (sample 200).encode.length = 19 ∧
      deserializeAndGetSize ((sample 200).encode ++ [7]) =
        some ({ sample 200 with timeOfSignal := 200 * 10 ^ 6 }, 18) ∧
      ¬∃ size, deserializeAndGetSize ((sample 200).encode ++ [7]) = some (sample 200, size) := by
  have hdecoded : deserializeAndGetSize ((sample 200).encode ++ [7]) =
      some ({ sample 200 with timeOfSignal := 200 * 10 ^ 6 }, 18) := by decide
  refine ⟨by decide, by decide, hdecoded, ?_⟩
  rintro ⟨size, hself⟩
  rw [hdecoded] at hself
  have htime : (200 * 10 ^ 6 : Time) = seconds 200 :=
    congrArg (fun r => r.1.timeOfSignal) (Option.some.inj hself)
  exact absurd htime (by decide)

end CustodySignal
end BundleProtocol
