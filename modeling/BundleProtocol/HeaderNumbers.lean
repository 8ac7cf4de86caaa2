import BundleProtocol.PrimaryHeader

/-! # The numbers of a decoded header

`Deserialize` accepts every byte string that is laid out as a header, whatever the numbers in it are
(`HeaderBytes.reads_deserialize`), and nothing else (`spells_deserialize`).  An SDNV may be of any
size.  What does not fit the 64-bit accumulator falls off there, and what does not fit the field falls
off in the conversion to it, so a number is reported modulo the width of its field
(`deserialize_numbers`).
-/
namespace BundleProtocol
open ByteParser Sdnv

/-- A byte string that is laid out as a header. -/
structure HeaderBytes where
  version : UInt8
  processingFlags : Encoding
  blockLength : Encoding
  dstSchemeOffset : Encoding
  dstSspOffset : Encoding
  srcSchemeOffset : Encoding
  srcSspOffset : Encoding
  reportSchemeOffset : Encoding
  reportSspOffset : Encoding
  custSchemeOffset : Encoding
  custSspOffset : Encoding
  createTimestamp : Encoding
  timestampSeqNum : Encoding
  lifeTime : Encoding
  dictLength : Encoding
  dictionary : List UInt8
  fragOffset : Encoding
  aduLength : Encoding
  /-- As many bytes as `m_dictLength`, which has 32 bits. -/
  length_dictionary : dictionary.length = dictLength.value % 2 ^ 32

/-- A number of a header: what was decoded, the SDNV from which, and the width of its field. -/
structure HeaderNumber where
  decoded : ℕ
  sdnv : Encoding
  width : ℕ

namespace HeaderBytes

/-- The SDNVs in front of the dictionary. -/
def leading (w : HeaderBytes) : List Encoding :=
  [w.processingFlags, w.blockLength, w.dstSchemeOffset, w.dstSspOffset, w.srcSchemeOffset,
    w.srcSspOffset, w.reportSchemeOffset, w.reportSspOffset, w.custSchemeOffset, w.custSspOffset,
    w.createTimestamp, w.timestampSeqNum, w.lifeTime, w.dictLength]

/-- The SDNVs behind it. -/
def trailing (w : HeaderBytes) : List Encoding := [w.fragOffset, w.aduLength]

def bytes (w : HeaderBytes) : List UInt8 :=
  w.version :: (w.leading.flatMap Encoding.bytes ++ w.dictionary ++ w.trailing.flatMap Encoding.bytes)

/-- The header that they are decoded to. -/
def header (w : HeaderBytes) (cbhe : Bool) : BpHeader6 where
  version := w.version
  processingFlags := UInt32.ofNat w.processingFlags.value
  createTimestamp := UInt32.ofNat w.createTimestamp.value
  timestampSeqNum := UInt32.ofNat w.timestampSeqNum.value
  lifeTime := seconds (w.lifeTime.value % 2 ^ 64)
  fragOffset := UInt32.ofNat w.fragOffset.value
  aduLength := UInt32.ofNat w.aduLength.value
  cbhe := cbhe
  blockLength := UInt32.ofNat w.blockLength.value
  dstSchemeOffset := UInt16.ofNat w.dstSchemeOffset.value
  dstSspOffset := UInt16.ofNat w.dstSspOffset.value
  srcSchemeOffset := UInt16.ofNat w.srcSchemeOffset.value
  srcSspOffset := UInt16.ofNat w.srcSspOffset.value
  reportSchemeOffset := UInt16.ofNat w.reportSchemeOffset.value
  reportSspOffset := UInt16.ofNat w.reportSspOffset.value
  custSchemeOffset := UInt16.ofNat w.custSchemeOffset.value
  custSspOffset := UInt16.ofNat w.custSspOffset.value
  dictionary := w.dictionary

/-- The numbers of the header `h`, decoded from these bytes.  The length of the dictionary is kept as
that of the string. -/
def numbers (w : HeaderBytes) (h : BpHeader6) : List HeaderNumber :=
  [⟨h.processingFlags.toNat, w.processingFlags, 32⟩,
    ⟨h.blockLength.toNat, w.blockLength, 32⟩,
    ⟨h.dstSchemeOffset.toNat, w.dstSchemeOffset, 16⟩,
    ⟨h.dstSspOffset.toNat, w.dstSspOffset, 16⟩,
    ⟨h.srcSchemeOffset.toNat, w.srcSchemeOffset, 16⟩,
    ⟨h.srcSspOffset.toNat, w.srcSspOffset, 16⟩,
    ⟨h.reportSchemeOffset.toNat, w.reportSchemeOffset, 16⟩,
    ⟨h.reportSspOffset.toNat, w.reportSspOffset, 16⟩,
    ⟨h.custSchemeOffset.toNat, w.custSchemeOffset, 16⟩,
    ⟨h.custSspOffset.toNat, w.custSspOffset, 16⟩,
    ⟨h.createTimestamp.toNat, w.createTimestamp, 32⟩,
    ⟨h.timestampSeqNum.toNat, w.timestampSeqNum, 32⟩,
    ⟨h.dictionary.length, w.dictLength, 32⟩,
    ⟨h.fragOffset.toNat, w.fragOffset, 32⟩,
    ⟨h.aduLength.toNat, w.aduLength, 32⟩]

/-- Each is the value of its SDNV modulo the width of the field. -/
theorem decoded_eq_mod (w : HeaderBytes) (cbhe : Bool) :
    ∀ f ∈ w.numbers (w.header cbhe), f.decoded = f.sdnv.value % 2 ^ f.width := by
  simp only [numbers, header, List.forall_mem_cons, List.not_mem_nil, false_implies, implies_true,
    and_true, UInt32.toNat_ofNat', UInt16.toNat_ofNat', w.length_dictionary]

end HeaderBytes

/-! ## Conversion to the width of a field -/

theorem toUInt32_ofNat_uint64 (n : ℕ) : (UInt64.ofNat n).toUInt32 = UInt32.ofNat n := by
  rw [← UInt32.toNat_inj, UInt64.toNat_toUInt32, UInt64.toNat_ofNat', UInt32.toNat_ofNat']
  omega

theorem toUInt16_ofNat_uint64 (n : ℕ) : (UInt64.ofNat n).toUInt16 = UInt16.ofNat n := by
  rw [← UInt16.toNat_inj, UInt64.toNat_toUInt16, UInt64.toNat_ofNat', UInt16.toNat_ofNat']
  omega

/-! ## What is accepted -/

/-- **Every byte string that is laid out as a header is accepted.** -/
theorem HeaderBytes.reads_deserialize (w : HeaderBytes) (h : BpHeader6) :
    Reads h.deserialize w.bytes (w.header h.cbhe) := by
  have hdictionary : Reads (readBytes (UInt64.ofNat w.dictLength.value).toUInt32.toNat) w.dictionary
      w.dictionary := by
    rw [toUInt32_ofNat_uint64, UInt32.toNat_ofNat', ← w.length_dictionary]
    exact reads_readBytes w.dictionary
  have hbytes : w.bytes = [w.version] ++ (w.processingFlags.bytes ++ (w.blockLength.bytes ++
      (w.dstSchemeOffset.bytes ++ (w.dstSspOffset.bytes ++ (w.srcSchemeOffset.bytes ++
      (w.srcSspOffset.bytes ++ (w.reportSchemeOffset.bytes ++ (w.reportSspOffset.bytes ++
      (w.custSchemeOffset.bytes ++ (w.custSspOffset.bytes ++ (w.createTimestamp.bytes ++
      (w.timestampSeqNum.bytes ++ (w.lifeTime.bytes ++ (w.dictLength.bytes ++ (w.dictionary ++
      (w.fragOffset.bytes ++ w.aduLength.bytes)))))))))))))))) := by
    simp [bytes, leading, trailing]
  rw [hbytes]
  unfold header BpHeader6.deserialize
  simp only [← toUInt32_ofNat_uint64, ← toUInt16_ofNat_uint64, ← UInt64.toNat_ofNat']
  apply (reads_readU8 w.version).bind
  apply w.processingFlags.reads_decode.bind
  apply w.blockLength.reads_decode.bind
  apply w.dstSchemeOffset.reads_decode.bind
  apply w.dstSspOffset.reads_decode.bind
  apply w.srcSchemeOffset.reads_decode.bind
  apply w.srcSspOffset.reads_decode.bind
  apply w.reportSchemeOffset.reads_decode.bind
  apply w.reportSspOffset.reads_decode.bind
  apply w.custSchemeOffset.reads_decode.bind
  apply w.custSspOffset.reads_decode.bind
  apply w.createTimestamp.reads_decode.bind
  apply w.timestampSeqNum.reads_decode.bind
  apply w.lifeTime.reads_decode.bind
  apply w.dictLength.reads_decode.bind
  apply hdictionary.bind
  apply w.fragOffset.reads_decode.bind
  exact w.aduLength.reads_decode.bind_pure

/-- **Nothing else is.** -/
theorem spells_headerBytes (h : BpHeader6) : Spells h.deserialize fun bytes h' =>
    ∃ w : HeaderBytes, bytes = w.bytes ∧ h' = w.header h.cbhe := by
  unfold BpHeader6.deserialize
  refine spells_readU8.bind ?_
  rintro version _ rfl
  refine spells_encoding.bind ?_
  rintro _ _ ⟨processingFlags, rfl, rfl⟩
  refine spells_encoding.bind ?_
  rintro _ _ ⟨blockLength, rfl, rfl⟩
  refine spells_encoding.bind ?_
  rintro _ _ ⟨dstSchemeOffset, rfl, rfl⟩
  refine spells_encoding.bind ?_
  rintro _ _ ⟨dstSspOffset, rfl, rfl⟩
  refine spells_encoding.bind ?_
  rintro _ _ ⟨srcSchemeOffset, rfl, rfl⟩
  refine spells_encoding.bind ?_
  rintro _ _ ⟨srcSspOffset, rfl, rfl⟩
  refine spells_encoding.bind ?_
  rintro _ _ ⟨reportSchemeOffset, rfl, rfl⟩
  refine spells_encoding.bind ?_
  rintro _ _ ⟨reportSspOffset, rfl, rfl⟩
  refine spells_encoding.bind ?_
  rintro _ _ ⟨custSchemeOffset, rfl, rfl⟩
  refine spells_encoding.bind ?_
  rintro _ _ ⟨custSspOffset, rfl, rfl⟩
  refine spells_encoding.bind ?_
  rintro _ _ ⟨createTimestamp, rfl, rfl⟩
  refine spells_encoding.bind ?_
  rintro _ _ ⟨timestampSeqNum, rfl, rfl⟩
  refine spells_encoding.bind ?_
  rintro _ _ ⟨lifeTime, rfl, rfl⟩
  refine spells_encoding.bind ?_
  rintro _ _ ⟨dictLength, rfl, rfl⟩
  refine (spells_readBytes _).bind ?_
  rintro _ dictionary ⟨rfl, hlength⟩
  refine spells_encoding.bind ?_
  rintro _ _ ⟨fragOffset, rfl, rfl⟩
  refine spells_encoding.bind ?_
  rintro _ _ ⟨aduLength, rfl, rfl⟩
  rw [toUInt32_ofNat_uint64, UInt32.toNat_ofNat'] at hlength
  let w : HeaderBytes := {
    version := version
    processingFlags := processingFlags
    blockLength := blockLength
    dstSchemeOffset := dstSchemeOffset
    dstSspOffset := dstSspOffset
    srcSchemeOffset := srcSchemeOffset
    srcSspOffset := srcSspOffset
    reportSchemeOffset := reportSchemeOffset
    reportSspOffset := reportSspOffset
    custSchemeOffset := custSchemeOffset
    custSspOffset := custSspOffset
    createTimestamp := createTimestamp
    timestampSeqNum := timestampSeqNum
    lifeTime := lifeTime
    dictLength := dictLength
    dictionary := dictionary
    fragOffset := fragOffset
    aduLength := aduLength
    length_dictionary := hlength }
  refine Spells.pure ⟨w, ?_, ?_⟩
  · simp [w, HeaderBytes.bytes, HeaderBytes.leading, HeaderBytes.trailing]
  · simp only [w, HeaderBytes.header, toUInt32_ofNat_uint64, toUInt16_ofNat_uint64,
      UInt64.toNat_ofNat']

/-- **Every number is reported modulo the width of its field**, so it is reported as it is exactly
when it fits, and no header is rejected because of one that does not. -/
theorem deserialize_numbers (h : BpHeader6) :
    (∀ (w : HeaderBytes) (rest : List UInt8),
      ∃ h', h.deserialize (w.bytes ++ rest) = some (h', rest)) ∧
    ∀ (h' : BpHeader6) (xs rest : List UInt8), h.deserialize xs = some (h', rest) →
      (∃ w : HeaderBytes, xs = w.bytes ++ rest) ∧
        ∀ (w : HeaderBytes) (rest' : List UInt8), xs = w.bytes ++ rest' → rest' = rest ∧
          (∀ f ∈ w.numbers h', f.decoded = f.sdnv.value % 2 ^ f.width) ∧
          ∀ f ∈ w.numbers h', f.decoded = f.sdnv.value ↔ f.sdnv.value < 2 ^ f.width := by
  refine ⟨fun w rest => ⟨_, w.reads_deserialize h rest⟩, fun h' xs rest hread => ⟨?_, ?_⟩⟩
  · obtain ⟨_, rfl, -, w, rfl, -⟩ := spells_headerBytes h xs h' rest hread
    exact ⟨w, rfl⟩
  · intro w rest' hxs
    subst hxs
    rw [w.reads_deserialize h rest'] at hread
    cases hread
    have hmod := w.decoded_eq_mod h.cbhe
    refine ⟨rfl, hmod, fun f hf => ?_⟩
    rw [hmod f hf]
    exact ⟨fun heq => heq ▸ Nat.mod_lt _ (Nat.two_pow_pos f.width), Nat.mod_eq_of_lt⟩

/-- A header whose processing flags are these, and whose other numbers are zero. -/
def flagged (processingFlags : Encoding) : HeaderBytes where
  version := 6
  processingFlags := processingFlags
  blockLength := .zero
  dstSchemeOffset := .zero
  dstSspOffset := .zero
  srcSchemeOffset := .zero
  srcSspOffset := .zero
  reportSchemeOffset := .zero
  reportSspOffset := .zero
  custSchemeOffset := .zero
  custSspOffset := .zero
  createTimestamp := .zero
  timestampSeqNum := .zero
  lifeTime := .zero
  dictLength := .zero
  dictionary := []
  fragOffset := .zero
  aduLength := .zero
  length_dictionary := rfl

/-- `2^32 + 1` on the wire. -/
def wideFlags : Encoding :=
  ⟨[0x90, 0x80, 0x80, 0x80, 1], [0x90, 0x80, 0x80, 0x80], 1, rfl, by simp [isLast], rfl⟩

theorem deserialize_numbers_sample :
    ∃ h', (BpHeader6.new false).deserialize ((flagged wideFlags).bytes ++ [7]) = some (h', [7]) ∧
      ∀ f ∈ (flagged wideFlags).numbers h', f.decoded = f.sdnv.value % 2 ^ f.width := by
  have hread := (flagged wideFlags).reads_deserialize (.new false) [7]
  have hnumbers := (deserialize_numbers _).2 _ _ _ hread
  exact ⟨_, hread, (hnumbers.2 (flagged wideFlags) [7] rfl).2.1⟩

/-- Flags that are `2^32 + 1` on the wire are decoded as `1`: the bundle is a fragment. -/
theorem wideFlags_reduced :
    ∃ h', (BpHeader6.new false).deserialize (flagged wideFlags).bytes = some (h', []) ∧
      (flagged wideFlags).processingFlags.value = 2 ^ 32 + 1 ∧ h'.processingFlags = 1 := by
  have hread := (flagged wideFlags).reads_deserialize (.new false) []
  rw [List.append_nil] at hread
  exact ⟨_, hread, by decide, by decide⟩

end BundleProtocol
