import BundleProtocol.Header7

/-! # Version 7 bundles on the wire

`SerializeBundle` puts the two headers and the payload, a byte string cut out of the ADU, between
the bytes of an indefinite array; `DeserializeBundle` takes them apart again.  A bundle comes back
whenever its bytes fit a packet (`deserializeBundle_serializeBundle`).
-/
namespace BundleProtocol
open ByteParser Cbor BpEndpointId Tiling

/-- A version 7 bundle. -/
structure Bundle7 where
  primaryHeader : BpHeader7
  payloadHeader : BpBlockHeader7
  adu : Packet

namespace Bundle7

/-- The bytes that `BpCla::SerializeBundle` lays out.  `headerSize` bytes are reserved for the first
byte and the headers; a header longer than its size would be written beyond them.  There is no CRC:
`BlockCrcType` is always 0. -/
def encode (b : Bundle7) : Option (List UInt8) := do
  let (size, header) ← b.primaryHeader.serializeAndGetSize
  let (blockSize, blockHeader) := b.payloadHeader.serializeAndGetSize
  let p ← b.adu.createFragment b.primaryHeader.fragOffset.toNat b.primaryHeader.blockLength.toNat
  if size.toNat = header.length ∧ blockSize.toNat = blockHeader.length then
    some (0x9f :: (header ++ blockHeader ++ encodeBytes p.bytes ++ [0xff]))
  else none

/-- `BpCla::SerializeBundle`. -/
def serializeBundle (b : Bundle7) : Option Packet := do
  let bytes ← b.encode
  Packet.ofBytes bytes

/-- `BpCla::DeserializeBundle`; `BlockCrc` is always 0. -/
def deserializeBundle (packet : Packet) : Option Bundle7 := do
  let content := (packet.bytes.drop 1).dropLast
  let (bpHeader, rest) ← BpHeader7.new.deserialize content
  let (bppHeader, rest) ← BpBlockHeader7.deserialize rest
  let (strAdu, _) ← decodeBytes rest
  let p ← Packet.ofBytes strAdu
  some ⟨bpHeader, bppHeader, p⟩

/-- The received bundle `r` is the bundle `b`, with the part of its ADU that its header names. -/
structure SameBundle (b r : Bundle7) : Prop where
  version : r.primaryHeader.version = b.primaryHeader.version
  processingFlags : r.primaryHeader.processingFlags = b.primaryHeader.processingFlags
  createTimestamp : r.primaryHeader.createTimestamp = b.primaryHeader.createTimestamp
  timestampSeqNum : r.primaryHeader.timestampSeqNum = b.primaryHeader.timestampSeqNum
  lifeTime : r.primaryHeader.lifeTime = b.primaryHeader.lifeTime
  isFragment : r.primaryHeader.isFragment = b.primaryHeader.isFragment
  fragOffset : b.primaryHeader.isFragment = true →
    r.primaryHeader.fragOffset = b.primaryHeader.fragOffset
  aduLength : b.primaryHeader.isFragment = true →
    r.primaryHeader.aduLength = b.primaryHeader.aduLength
  blockType : r.payloadHeader.blockType = b.payloadHeader.blockType
  processingControlFlags :
    r.payloadHeader.processingControlFlags = b.payloadHeader.processingControlFlags
  adu : r.adu.bytes = slice b.adu.bytes b.primaryHeader.fragOffset.toNat
    b.primaryHeader.blockLength.toNat

variable {b : Bundle7}

/-- The part of the ADU that the primary header names. -/
def payload (b : Bundle7) : List UInt8 :=
  slice b.adu.bytes b.primaryHeader.fragOffset.toNat b.primaryHeader.blockLength.toNat

theorem length_payload_lt (b : Bundle7) : b.payload.length < 2 ^ 32 := b.adu.length_slice_lt _ _

/-- Of the two sizes only that of the primary header can be wrong. -/
theorem encode_eq_ite {size : UInt32} {header : List UInt8}
    (hheader : b.primaryHeader.serializeAndGetSize = some (size, header))
    (hrange : b.primaryHeader.fragOffset.toNat + b.primaryHeader.blockLength.toNat ≤ b.adu.size) :
    b.encode = if size.toNat = header.length then
      some (0x9f :: (header ++ b.payloadHeader.serializeAndGetSize.2 ++ encodeBytes b.payload ++ [0xff]))
    else none := by
  have hfragment : b.adu.createFragment b.primaryHeader.fragOffset.toNat
      b.primaryHeader.blockLength.toNat = some ⟨b.payload, b.length_payload_lt⟩ :=
    if_pos hrange
  have hblockSize := b.payloadHeader.toNat_size
  unfold encode
  rw [hheader, hfragment]
  show (if size.toNat = header.length ∧ b.payloadHeader.serializeAndGetSize.1.toNat =
    b.payloadHeader.serializeAndGetSize.2.length then _ else none) = _
  by_cases hsize : size.toNat = header.length
  · rw [if_pos hsize]
    exact if_pos ⟨hsize, hblockSize⟩
  · rw [if_neg hsize]
    exact if_neg fun hboth => hsize hboth.1

/-- What a bundle with small endpoint ids is made of. -/
theorem encode_eq_some (hsmall : b.primaryHeader.SmallEids)
    (hrange : b.primaryHeader.fragOffset.toNat + b.primaryHeader.blockLength.toNat ≤ b.adu.size) :
    ∃ size header, b.primaryHeader.serializeAndGetSize = some (size, header) ∧ b.encode = some
      (0x9f :: (header ++ b.payloadHeader.serializeAndGetSize.2 ++ encodeBytes b.payload ++ [0xff])) := by
  obtain ⟨header, hheader, hlt⟩ := hsmall.serializeAndGetSize
  have hsize : (UInt32.ofNat header.length).toNat = header.length :=
    UInt32.toNat_ofNat_of_lt' (Nat.lt_trans hlt (by decide))
  refine ⟨_, header, hheader, ?_⟩
  rw [encode_eq_ite hheader hrange]
  exact if_pos hsize

/-- **A version 7 bundle comes back.**  For endpoint ids with an ssp of at most 200 bytes and a
lifetime below 2³² milliseconds, the bundle is encoded, and if its bytes fit a packet, it is
read back from them. -/
theorem deserializeBundle_serializeBundle {dst src report : BpEndpointId} {ms : ℕ}
    (hdst : UriSsp.ofEid dst = some b.primaryHeader.dst)
    (hsrc : UriSsp.ofEid src = some b.primaryHeader.src)
    (hreport : UriSsp.ofEid report = some b.primaryHeader.report)
    (hshort : ∀ eid ∈ [dst, src, report], ∃ ssp, eid.getSsp = some ssp ∧ ssp.length ≤ 200)
    (hlife : b.primaryHeader.lifeTime = milliSeconds ms) (hms : ms < 2 ^ 32)
    (hrange : b.primaryHeader.fragOffset.toNat + b.primaryHeader.blockLength.toNat ≤ b.adu.size) :
    ∃ bytes, b.encode = some bytes ∧ (bytes.length < 2 ^ 32 → ∃ p r, b.serializeBundle = some p ∧
      p.bytes = bytes ∧ deserializeBundle p = some r ∧ b.SameBundle r) := by
  have hsmall : b.primaryHeader.SmallEids :=
    ⟨UriSsp.small_ofEid hdst (hshort dst (by simp)), UriSsp.small_ofEid hsrc (hshort src (by simp)),
      UriSsp.small_ofEid hreport (hshort report (by simp))⟩
  obtain ⟨size, header, hheader, hencode⟩ := encode_eq_some hsmall hrange
  refine ⟨_, hencode, fun hlt => ?_⟩
  refine ⟨⟨_, hlt⟩, ⟨b.primaryHeader.onWire ms, b.payloadHeader, ⟨b.payload, b.length_payload_lt⟩⟩,
    ?_, rfl, ?_, ?_⟩
  · rw [serializeBundle, hencode]
    exact Packet.ofBytes_eq_some hlt
  · have hmsLife : getMilliSeconds b.primaryHeader.lifeTime = ms := by
      rw [hlife, getMilliSeconds_milliSeconds]
    have hprimary := BpHeader7.reads_deserialize hsmall.stringEids hheader hmsLife hms
      (b.payloadHeader.serializeAndGetSize.2 ++ encodeBytes b.payload)
    have hblock := b.payloadHeader.reads_deserialize (encodeBytes b.payload)
    have hadu : decodeBytes (encodeBytes b.payload ++ []) = some (b.payload, []) :=
      reads_decodeBytes (Nat.lt_trans b.length_payload_lt (by decide)) []
    rw [List.append_nil] at hadu
    have hcontent : ((0x9f :: (header ++ b.payloadHeader.serializeAndGetSize.2 ++
        encodeBytes b.payload ++ [0xff])).drop 1).dropLast =
          header ++ (b.payloadHeader.serializeAndGetSize.2 ++ encodeBytes b.payload) := by
      rw [List.drop_one, List.tail_cons, List.dropLast_concat, List.append_assoc]
    unfold deserializeBundle
    simp only [hcontent, hprimary, hblock, hadu, Option.bind_eq_bind, Option.bind_some,
      Packet.ofBytes_eq_some b.length_payload_lt]
  · have hfragment : (b.primaryHeader.onWire ms).isFragment = b.primaryHeader.isFragment := rfl
    exact ⟨rfl, rfl, rfl, rfl, hlife.symm, hfragment, fun h => if_pos h, fun h => if_pos h, rfl, rfl,
      rfl⟩

/-- The bundle whose endpoint ids are `dtn:none`, with an ADU that is sent whole. -/
def sample (flags : UInt32) (lifetime : Time) (adu : Packet) : Bundle7 where
  primaryHeader := { BpHeader7.new with
    processingFlags := flags
    lifeTime := lifetime
    aduLength := adu.getSize
    dst := ⟨1, noneSsp⟩
    src := ⟨1, noneSsp⟩
    report := ⟨1, noneSsp⟩
    blockLength := adu.getSize }
  payloadHeader := .new BpBlockHeader6.bundlePayloadBlock
  adu := adu

theorem ofEid_default : UriSsp.ofEid defaultEid = some ⟨1, noneSsp⟩ := by decide

theorem short_default : ∀ eid ∈ [defaultEid, defaultEid, defaultEid],
    ∃ ssp, eid.getSsp = some ssp ∧ ssp.length ≤ 200 := by
  intro eid heid
  obtain rfl : eid = defaultEid := by simpa using heid
  exact ⟨noneSsp, by decide, by decide⟩

theorem range_sample (flags : UInt32) (lifetime : Time) (adu : Packet) :
    (sample flags lifetime adu).primaryHeader.fragOffset.toNat +
      (sample flags lifetime adu).primaryHeader.blockLength.toNat ≤ (sample flags lifetime adu).adu.size := by
  show 0 + adu.getSize.toNat ≤ adu.size
  rw [Packet.toNat_getSize, Nat.zero_add]

/-- A fragment of three bytes with a lifetime of 128 milliseconds. -/
theorem deserializeBundle_serializeBundle_sample :
    ∃ p r, (sample 1 (milliSeconds 128) ⟨[1, 2, 3], by decide⟩).serializeBundle = some p ∧
      deserializeBundle p = some r ∧ (sample 1 (milliSeconds 128) ⟨[1, 2, 3], by decide⟩).SameBundle r := by
  obtain ⟨bytes, hencode, hsize⟩ := deserializeBundle_serializeBundle
    (b := sample 1 (milliSeconds 128) ⟨[1, 2, 3], by decide⟩) ofEid_default ofEid_default ofEid_default
    short_default rfl (by decide) (range_sample _ _ _)
  have hlt : bytes.length < 2 ^ 32 := by
    have hall : (sample 1 (milliSeconds 128) ⟨[1, 2, 3], by decide⟩).encode.all
        (fun bytes => decide (bytes.length < 2 ^ 32)) = true := by decide +kernel
    rw [hencode] at hall
    exact of_decide_eq_true hall
  obtain ⟨p, r, hserialize, -, hdeserialize, hsame⟩ := hsize hlt
  exact ⟨p, r, hserialize, hdeserialize, hsame⟩

/-- The largest packet. -/
def largestPacket : Packet := ⟨List.replicate (2 ^ 32 - 1) 0, by rw [List.length_replicate]; decide⟩

theorem size_largestPacket : largestPacket.size = 2 ^ 32 - 1 := List.length_replicate

/-- A bundle whose payload is as large as a packet does not fit a packet. -/
theorem serializeBundle_large (hsmall : b.primaryHeader.SmallEids)
    (hrange : b.primaryHeader.fragOffset.toNat + b.primaryHeader.blockLength.toNat ≤ b.adu.size)
    (hlarge : b.primaryHeader.blockLength.toNat = 2 ^ 32 - 1) : b.serializeBundle = none := by
  obtain ⟨size, header, -, hencode⟩ := encode_eq_some hsmall hrange
  have hpayload : b.payload.length = 2 ^ 32 - 1 := by
    rw [payload, length_slice hrange, hlarge]
  have hlength : ¬(0x9f :: (header ++ b.payloadHeader.serializeAndGetSize.2 ++
      encodeBytes b.payload ++ [0xff])).length < 2 ^ 32 := by
    simp only [encodeBytes, List.length_cons, List.length_append, hpayload]
    omega
  rw [serializeBundle, hencode]
  exact dif_neg hlength

/-- A bundle with a payload of 2³² - 1 bytes is not serialized. -/
theorem bundle_lost :
    ∃ b : Bundle7, UriSsp.ofEid defaultEid = some b.primaryHeader.dst ∧
      UriSsp.ofEid defaultEid = some b.primaryHeader.src ∧
      UriSsp.ofEid defaultEid = some b.primaryHeader.report ∧
      (∃ ssp, defaultEid.getSsp = some ssp ∧ ssp.length ≤ 200) ∧
      b.primaryHeader.lifeTime = milliSeconds 0 ∧
      b.primaryHeader.fragOffset.toNat + b.primaryHeader.blockLength.toNat ≤ b.adu.size ∧
      ¬∃ p r, b.serializeBundle = some p ∧ deserializeBundle p = some r ∧ b.SameBundle r := by
  have hshort := short_default defaultEid (by simp)
  refine ⟨sample 0 (milliSeconds 0) largestPacket, ofEid_default, ofEid_default, ofEid_default, hshort,
    rfl, range_sample _ _ _, ?_⟩
  have hnone : (sample 0 (milliSeconds 0) largestPacket).serializeBundle = none := by
    refine serializeBundle_large ?_ (range_sample _ _ _) ?_
    · have hsmall := UriSsp.small_ofEid ofEid_default hshort
      exact ⟨hsmall, hsmall, hsmall⟩
    · exact largestPacket.toNat_getSize.trans size_largestPacket
  rintro ⟨p, r, hserialize, -⟩
  rw [hnone] at hserialize
  cases hserialize

end Bundle7
end BundleProtocol
