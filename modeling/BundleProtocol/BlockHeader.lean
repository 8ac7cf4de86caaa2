import BundleProtocol.Sdnv

/-! # The version 6 payload block header

Its size on the wire is taken to be the constant six: `AddHeader` reserves six
bytes in front of the payload and `RemoveHeader` strips six, however many bytes the
two SDNVs take.  What is reserved and not written keeps whatever the buffer held.
-/
namespace BundleProtocol
open ByteParser

/-- The header of a payload block. -/
structure BpBlockHeader6 where
  blockType : UInt8
  processingControlFlags : UInt8
  blockLength : UInt32
deriving DecidableEq

namespace BpBlockHeader6

/-- `BUNDLE_PAYLOAD_BLOCK`. -/
def bundlePayloadBlock : UInt8 := 1

/-- `BpBlockHeader6::BpBlockHeader6`. -/
def new (blockType : UInt8) : BpBlockHeader6 := ⟨blockType, 0, 0⟩

def setBlockLength (h : BpBlockHeader6) (len : UInt32) : BpBlockHeader6 :=
  { h with blockLength := len }

/-- `BpBlockHeader6::GetSerializedSize`, that is `m_length`. -/
def getSerializedSize (_ : BpBlockHeader6) : ℕ := 6

/-- The bytes `BpBlockHeader6::Serialize` writes. -/
def serialize (h : BpBlockHeader6) : List UInt8 :=
  h.blockType :: (Sdnv.encode h.processingControlFlags.toUInt64 ++
    Sdnv.encode h.blockLength.toUInt64)

/-- The reads of `BpBlockHeader6::Deserialize`. -/
def deserialize : Parser BpBlockHeader6 := do
  let blockType ← readU8
  let processingControlFlags ← Sdnv.decode
  let blockLength ← Sdnv.decode
  pure ⟨blockType, processingControlFlags.toUInt8, blockLength.toUInt32⟩

theorem reads_deserialize (h : BpBlockHeader6) : Reads deserialize h.serialize h := by
  have hrecord : h = ⟨h.blockType, h.processingControlFlags.toUInt64.toUInt8,
      h.blockLength.toUInt64.toUInt32⟩ := by simp
  have hbytes : h.serialize = [h.blockType] ++ (Sdnv.encode h.processingControlFlags.toUInt64 ++
      Sdnv.encode h.blockLength.toUInt64) := rfl
  rw [hbytes]
  nth_rewrite 4 [hrecord]
  exact (reads_readU8 _).bind ((Sdnv.reads_decode _).bind (Sdnv.reads_decode _).bind_pure)

/-- `Packet::AddHeader`: `reserved` is what the six bytes in front of `payload` hold
before `Serialize` overwrites them from the start. -/
def addTo (h : BpBlockHeader6) (reserved payload : List UInt8) : List UInt8 :=
  h.serialize ++ (reserved ++ payload).drop h.serialize.length

/-- `Packet::RemoveHeader`: what `Deserialize` reads, and the packet without its first
six bytes. -/
def removeFrom (packet : List UInt8) : Option (BpBlockHeader6 × List UInt8) := do
  let (h, _) ← deserialize packet
  some (h, packet.drop h.getSerializedSize)

/-- A payload block below 2²⁸ bytes fits the six bytes, with any of the seven control flags. -/
theorem length_serialize_le {h : BpBlockHeader6} (hflags : h.processingControlFlags.toNat < 2 ^ 7)
    (hlen : h.blockLength.toNat < 2 ^ 28) : h.serialize.length ≤ 6 := by
  have hfour : (Sdnv.encode h.blockLength.toUInt64).length ≤ 3 + 1 :=
    Sdnv.length_encode_le (by simpa using hlen)
  have hone : (Sdnv.encode h.processingControlFlags.toUInt64).length ≤ 0 + 1 :=
    Sdnv.length_encode_le (by simpa using hflags)
  simp only [serialize, List.length_cons, List.length_append]
  omega

/-- The space for the header is part of the packet, whatever the header writes. -/
theorem length_le_length_addTo (h : BpBlockHeader6) (reserved payload : List UInt8) :
    reserved.length + payload.length ≤ (h.addTo reserved payload).length := by
  rw [addTo, List.length_append, List.length_drop, List.length_append]
  omega

/-- When the header fits its six bytes, removing it gives back header and payload,
whatever the reserved bytes held. -/
theorem removeFrom_addTo {h : BpBlockHeader6} (hfit : h.serialize.length ≤ 6)
    {reserved : List UInt8} (hreserved : reserved.length = 6) (payload : List UInt8) :
    removeFrom (h.addTo reserved payload) = some (h, payload) := by
  unfold removeFrom addTo
  rw [h.reads_deserialize]
  have hdrop : (h.serialize ++ (reserved ++ payload).drop h.serialize.length).drop 6 = payload := by
    rw [List.drop_append, List.drop_of_length_le hfit, List.nil_append, List.drop_drop]
    rw [Nat.add_sub_cancel' hfit, ← hreserved, List.drop_left]
  simp [getSerializedSize, hdrop]

/-! ## Which headers fit -/

/-- The flags take one byte or two, the length up to five. -/
theorem length_serialize_le_iff {h : BpBlockHeader6} : h.serialize.length ≤ 6 ↔
    (h.processingControlFlags.toNat < 2 ^ 7 ∧ h.blockLength.toNat < 2 ^ 28) ∨
      h.blockLength.toNat < 2 ^ 21 := by
  have hflags := h.processingControlFlags.toNat_lt
  have hone : (Sdnv.encode h.processingControlFlags.toUInt64).length ≤ 0 + 1 ↔
      h.processingControlFlags.toNat < 128 := by
    rw [Sdnv.length_encode_le_iff, UInt8.toNat_toUInt64]
    rfl
  have htwo : (Sdnv.encode h.processingControlFlags.toUInt64).length ≤ 1 + 1 := by
    refine Sdnv.length_encode_le ?_
    rw [UInt8.toNat_toUInt64]
    omega
  have hfour : (Sdnv.encode h.blockLength.toUInt64).length ≤ 3 + 1 ↔
      h.blockLength.toNat < 2 ^ 28 := by
    rw [Sdnv.length_encode_le_iff, UInt32.toNat_toUInt64]
    rfl
  have hthree : (Sdnv.encode h.blockLength.toUInt64).length ≤ 2 + 1 ↔
      h.blockLength.toNat < 2 ^ 21 := by
    rw [Sdnv.length_encode_le_iff, UInt32.toNat_toUInt64]
    rfl
  have hpos := Sdnv.length_encode_pos h.processingControlFlags.toUInt64
  simp only [serialize, List.length_cons, List.length_append]
  omega

/-- **The header fits its slot exactly when** its block length is below 2²¹, or below 2²⁸ with none but
the seven control flags: then it writes no more than is reserved for it and comes back with the
payload it stood in front of. -/
theorem fits_iff (h : BpBlockHeader6) (payload : List UInt8) :
    (h.serialize.length ≤ h.getSerializedSize ∧
      ∀ reserved : List UInt8, reserved.length = h.getSerializedSize →
        removeFrom (h.addTo reserved payload) = some (h, payload)) ↔
      (h.processingControlFlags.toNat < 2 ^ 7 ∧ h.blockLength.toNat < 2 ^ 28) ∨
        h.blockLength.toNat < 2 ^ 21 := by
  rw [← length_serialize_le_iff]
  constructor
  · intro h
    exact h.1
  · intro hfit
    exact ⟨hfit, fun reserved hreserved => removeFrom_addTo hfit hreserved payload⟩

/-- A block of 2²⁸ bytes: the header takes seven bytes, of which the last overwrites the first byte of
the payload. -/
theorem overwrites_payload :
    let h : BpBlockHeader6 := ⟨bundlePayloadBlock, 0, 0x10000000⟩
    h.serialize.length = 7 ∧ h.getSerializedSize = 6 ∧
      removeFrom (h.addTo [0, 0, 0, 0, 0, 0] [10, 11]) = some (h, [0, 11]) := by decide

end BpBlockHeader6
end BundleProtocol
