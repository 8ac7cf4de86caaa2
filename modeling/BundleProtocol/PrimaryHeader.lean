import BundleProtocol.EndpointId
import BundleProtocol.FlagWord
import BundleProtocol.Sdnv

/-! # The version 6 primary header

`BpHeader6` with the fields it shares with `BpHeader`: the flag word and its
setters, the numeric fields, and the four endpoint ids.  The endpoint ids live in a
dictionary of NUL-terminated strings, to which every setter appends and into which
eight 16-bit offsets point; with CBHE the offsets are node and service numbers
instead.  `reads_deserialize` is the round trip of the wire format.
-/
namespace BundleProtocol
open ByteParser FlagWord

/-- ns-3 `Time`, in nanoseconds.  That its 64 bits overflow after 292 years is left out. -/
abbrev Time := ℤ

/-- `Seconds (n)`. -/
def seconds (n : ℕ) : Time := n * 10 ^ 9

/-- `Time::GetSeconds ()` converted to an unsigned integer. -/
def wholeSeconds (t : Time) : ℕ := (t / 10 ^ 9).toNat

/-- The primary header of a version 6 bundle. -/
structure BpHeader6 where
  version : UInt8
  processingFlags : UInt32
  createTimestamp : UInt32
  timestampSeqNum : UInt32
  lifeTime : Time
  fragOffset : UInt32
  aduLength : UInt32
  cbhe : Bool
  blockLength : UInt32
  dstSchemeOffset : UInt16
  dstSspOffset : UInt16
  srcSchemeOffset : UInt16
  srcSspOffset : UInt16
  reportSchemeOffset : UInt16
  reportSspOffset : UInt16
  custSchemeOffset : UInt16
  custSspOffset : UInt16
  dictionary : List UInt8

namespace BpHeader6

/-- `BpHeader6::BpHeader6`.  It leaves the eight offsets uninitialised; every caller
sets them before reading them. -/
def new (useCbhe : Bool) : BpHeader6 where
  version := 6
  processingFlags := 0
  createTimestamp := 0
  timestampSeqNum := 0
  lifeTime := 0
  fragOffset := 0
  aduLength := 0
  cbhe := useCbhe
  blockLength := 0
  dstSchemeOffset := 0
  dstSspOffset := 0
  srcSchemeOffset := 0
  srcSspOffset := 0
  reportSchemeOffset := 0
  reportSspOffset := 0
  custSchemeOffset := 0
  custSspOffset := 0
  dictionary := []

/-! ## Processing flags -/

def bundleIsFragment : UInt32 := (1 : UInt32) <<< (0 : UInt32)
def reqBundleCustodyXfer : UInt32 := (1 : UInt32) <<< (3 : UInt32)
def bundlePriority : UInt32 := (0x00EF : UInt32) <<< (7 : UInt32)

def setIsFragment (h : BpHeader6) (value : Bool) : BpHeader6 :=
  { h with processingFlags := assign h.processingFlags bundleIsFragment value }

def isFragment (h : BpHeader6) : Bool := test h.processingFlags bundleIsFragment

def setCustTxReq (h : BpHeader6) (value : Bool) : BpHeader6 :=
  { h with processingFlags := assign h.processingFlags reqBundleCustodyXfer value }

def custTxReq (h : BpHeader6) : Bool := test h.processingFlags reqBundleCustodyXfer

/-- `SetPriority`: the old bits stay, since the new word is or-ed into the old one. -/
def setPriority (h : BpHeader6) (pri : UInt8) : BpHeader6 :=
  { h with processingFlags :=
      h.processingFlags ||| ((h.processingFlags &&& ~~~bundlePriority) ||| (pri.toUInt32 <<< 7)) }

def priority (h : BpHeader6) : UInt8 := ((h.processingFlags &&& bundlePriority) >>> 7).toUInt8

/-! ## What the setters leave alone -/

@[simp] theorem isFragment_setIsFragment (h : BpHeader6) (value : Bool) :
    (h.setIsFragment value).isFragment = value := test_assign_self value (by decide)

@[simp] theorem custTxReq_setIsFragment (h : BpHeader6) (value : Bool) :
    (h.setIsFragment value).custTxReq = h.custTxReq := test_assign_of_disjoint value (by decide)

@[simp] theorem priority_setIsFragment (h : BpHeader6) (value : Bool) :
    (h.setIsFragment value).priority = h.priority := by
  unfold priority
  rw [setIsFragment, assign_and_of_disjoint value (by decide)]

@[simp] theorem custTxReq_setCustTxReq (h : BpHeader6) (value : Bool) :
    (h.setCustTxReq value).custTxReq = value := test_assign_self value (by decide)

/-- The priority never reaches the bits below its own. -/
theorem test_setPriority (h : BpHeader6) (pri : UInt8) {mask : UInt32} (hmask : mask.toNat < 2 ^ 7) :
    test (h.setPriority pri).processingFlags mask = test h.processingFlags mask := by
  unfold test
  rw [setPriority, or_or_and_of_disjoint (shiftLeft_and_low _ hmask)]

@[simp] theorem isFragment_setPriority (h : BpHeader6) (pri : UInt8) :
    (h.setPriority pri).isFragment = h.isFragment := h.test_setPriority pri (by decide)

@[simp] theorem custTxReq_setPriority (h : BpHeader6) (pri : UInt8) :
    (h.setPriority pri).custTxReq = h.custTxReq := h.test_setPriority pri (by decide)

/-! ## Numeric fields -/

def setCreateTimestamp (h : BpHeader6) (timestamp : UInt32) : BpHeader6 :=
  { h with createTimestamp := timestamp }

def setSequenceNumber (h : BpHeader6) (sequenceNumber : UInt32) : BpHeader6 :=
  { h with timestampSeqNum := sequenceNumber }

def setLifeTime (h : BpHeader6) (lifetime : Time) : BpHeader6 := { h with lifeTime := lifetime }

def setFragOffset (h : BpHeader6) (offset : UInt32) : BpHeader6 := { h with fragOffset := offset }

def setAduLength (h : BpHeader6) (len : UInt32) : BpHeader6 := { h with aduLength := len }

def setBlockLength (h : BpHeader6) (len : UInt32) : BpHeader6 := { h with blockLength := len }

/-! ## Endpoint ids -/

/-- What a setter does with an endpoint id: with CBHE its node and service number,
otherwise the offsets at which scheme and ssp are appended to the dictionary. -/
def placeEid (h : BpHeader6) (eid : BpEndpointId) : Option (UInt16 × UInt16 × List UInt8) := do
  let scheme ← eid.getScheme
  let ssp ← eid.getSsp
  if h.cbhe then
    let node ← ipnNode ssp
    let service ← ipnService ssp
    some (node.toUInt16, service.toUInt16, h.dictionary)
  else
    let withScheme := h.dictionary ++ scheme ++ [0]
    some (UInt16.ofNat h.dictionary.length, UInt16.ofNat withScheme.length, withScheme ++ ssp ++ [0])

def setDestinationEid (h : BpHeader6) (dst : BpEndpointId) : Option BpHeader6 := do
  let (scheme, ssp, dictionary) ← h.placeEid dst
  some { h with dstSchemeOffset := scheme, dstSspOffset := ssp, dictionary := dictionary }

def setSourceEid (h : BpHeader6) (src : BpEndpointId) : Option BpHeader6 := do
  let (scheme, ssp, dictionary) ← h.placeEid src
  some { h with srcSchemeOffset := scheme, srcSspOffset := ssp, dictionary := dictionary }

def setReportEid (h : BpHeader6) (report : BpEndpointId) : Option BpHeader6 := do
  let (scheme, ssp, dictionary) ← h.placeEid report
  some { h with reportSchemeOffset := scheme, reportSspOffset := ssp, dictionary := dictionary }

def setCustEid (h : BpHeader6) (cust : BpEndpointId) : Option BpHeader6 := do
  let (scheme, ssp, dictionary) ← h.placeEid cust
  some { h with custSchemeOffset := scheme, custSspOffset := ssp, dictionary := dictionary }

/-- What a getter makes of a pair of offsets.  `substr` throws when an offset lies
beyond the dictionary; see `Readable`. -/
def eidAt (h : BpHeader6) (schemeOffset sspOffset : UInt16) : BpEndpointId :=
  if h.cbhe then .ofComponents BpEndpointId.ipnScheme (ipnSsp schemeOffset.toUInt32 sspOffset.toUInt32)
  else .ofComponents (cStr (h.dictionary.drop schemeOffset.toNat))
    (cStr (h.dictionary.drop sspOffset.toNat))

def getDestinationEid (h : BpHeader6) : BpEndpointId := h.eidAt h.dstSchemeOffset h.dstSspOffset

def getSourceEid (h : BpHeader6) : BpEndpointId := h.eidAt h.srcSchemeOffset h.srcSspOffset

def getReportEid (h : BpHeader6) : BpEndpointId := h.eidAt h.reportSchemeOffset h.reportSspOffset

def getCustEid (h : BpHeader6) : BpEndpointId := h.eidAt h.custSchemeOffset h.custSspOffset

/-- The getter that reads this pair of offsets does not throw. -/
def Shows (h : BpHeader6) (schemeOffset sspOffset : UInt16) : Prop :=
  h.cbhe = true ∨
    (schemeOffset.toNat ≤ h.dictionary.length ∧ sspOffset.toNat ≤ h.dictionary.length)

instance (h : BpHeader6) (schemeOffset sspOffset : UInt16) :
    Decidable (h.Shows schemeOffset sspOffset) := inferInstanceAs (Decidable (_ ∨ _ ∧ _))

/-- The eight offsets, in the order of the wire format. -/
def offsets (h : BpHeader6) : List UInt16 :=
  [h.dstSchemeOffset, h.dstSspOffset, h.srcSchemeOffset, h.srcSspOffset, h.reportSchemeOffset,
    h.reportSspOffset, h.custSchemeOffset, h.custSspOffset]

/-- None of the four getters throws. -/
def Readable (h : BpHeader6) : Prop :=
  h.cbhe = true ∨ ∀ o ∈ h.offsets, o.toNat ≤ h.dictionary.length

instance (h : BpHeader6) : Decidable h.Readable :=
  @instDecidableOr _ _ inferInstance
    (List.decidableBAll (fun o : UInt16 => o.toNat ≤ h.dictionary.length) h.offsets)

/-- None of the getters throws that are called for a bundle on its way through an agent: those of
the destination and of the source and, where a custody signal may be due, that of the custodian. -/
structure ReadableOnArrival (h : BpHeader6) : Prop where
  destination : h.Shows h.dstSchemeOffset h.dstSspOffset
  source : h.Shows h.srcSchemeOffset h.srcSspOffset
  custodian : h.custTxReq = true → h.Shows h.custSchemeOffset h.custSspOffset

instance (h : BpHeader6) : Decidable h.ReadableOnArrival :=
  decidable_of_iff (h.Shows h.dstSchemeOffset h.dstSspOffset ∧ h.Shows h.srcSchemeOffset h.srcSspOffset ∧
      (h.custTxReq = true → h.Shows h.custSchemeOffset h.custSspOffset))
    ⟨fun ⟨hdst, hsrc, hcust⟩ => ⟨hdst, hsrc, hcust⟩, fun ⟨hdst, hsrc, hcust⟩ => ⟨hdst, hsrc, hcust⟩⟩

theorem Readable.onArrival {h : BpHeader6} (hread : h.Readable) : h.ReadableOnArrival := by
  rcases hread with hcbhe | hoffsets
  · exact ⟨Or.inl hcbhe, Or.inl hcbhe, fun _ => Or.inl hcbhe⟩
  · simp only [offsets, List.forall_mem_cons] at hoffsets
    obtain ⟨hdst, hdst', hsrc, hsrc', -, -, hcust, hcust', -⟩ := hoffsets
    exact ⟨Or.inr ⟨hdst, hdst'⟩, Or.inr ⟨hsrc, hsrc'⟩, fun _ => Or.inr ⟨hcust, hcust'⟩⟩

/-! ## What a bundle keeps -/

/-- Two headers that differ at most in the block length, the fragment flag and the fragment
offset: what processing at one agent may change. -/
structure SameBundle (h h' : BpHeader6) : Prop where
  source : h'.getSourceEid = h.getSourceEid
  destination : h'.getDestinationEid = h.getDestinationEid
  custodian : h'.getCustEid = h.getCustEid
  createTimestamp : h'.createTimestamp = h.createTimestamp
  timestampSeqNum : h'.timestampSeqNum = h.timestampSeqNum
  lifeTime : h'.lifeTime = h.lifeTime
  aduLength : h'.aduLength = h.aduLength
  priority : h'.priority = h.priority
  custTxReq : h'.custTxReq = h.custTxReq

theorem SameBundle.refl (h : BpHeader6) : SameBundle h h :=
  ⟨rfl, rfl, rfl, rfl, rfl, rfl, rfl, rfl, rfl⟩

theorem SameBundle.trans {h h' h'' : BpHeader6} (h₁ : SameBundle h h') (h₂ : SameBundle h' h'') :
    SameBundle h h'' where
  source := h₂.source.trans h₁.source
  destination := h₂.destination.trans h₁.destination
  custodian := h₂.custodian.trans h₁.custodian
  createTimestamp := h₂.createTimestamp.trans h₁.createTimestamp
  timestampSeqNum := h₂.timestampSeqNum.trans h₁.timestampSeqNum
  lifeTime := h₂.lifeTime.trans h₁.lifeTime
  aduLength := h₂.aduLength.trans h₁.aduLength
  priority := h₂.priority.trans h₁.priority
  custTxReq := h₂.custTxReq.trans h₁.custTxReq

theorem sameBundle_setIsFragment (h : BpHeader6) (value : Bool) :
    SameBundle h (h.setIsFragment value) :=
  ⟨rfl, rfl, rfl, rfl, rfl, rfl, rfl, h.priority_setIsFragment value,
    h.custTxReq_setIsFragment value⟩

theorem sameBundle_setBlockLength (h : BpHeader6) (len : UInt32) :
    SameBundle h (h.setBlockLength len) := ⟨rfl, rfl, rfl, rfl, rfl, rfl, rfl, rfl, rfl⟩

theorem sameBundle_setFragOffset (h : BpHeader6) (offset : UInt32) :
    SameBundle h (h.setFragOffset offset) := ⟨rfl, rfl, rfl, rfl, rfl, rfl, rfl, rfl, rfl⟩

/-- Two headers that differ at most in their endpoint ids. -/
structure SameNumbers (h h' : BpHeader6) : Prop where
  processingFlags : h'.processingFlags = h.processingFlags
  createTimestamp : h'.createTimestamp = h.createTimestamp
  timestampSeqNum : h'.timestampSeqNum = h.timestampSeqNum
  lifeTime : h'.lifeTime = h.lifeTime
  fragOffset : h'.fragOffset = h.fragOffset
  aduLength : h'.aduLength = h.aduLength
  cbhe : h'.cbhe = h.cbhe

theorem SameNumbers.trans {h h' h'' : BpHeader6} (h₁ : SameNumbers h h') (h₂ : SameNumbers h' h'') :
    SameNumbers h h'' where
  processingFlags := h₂.processingFlags.trans h₁.processingFlags
  createTimestamp := h₂.createTimestamp.trans h₁.createTimestamp
  timestampSeqNum := h₂.timestampSeqNum.trans h₁.timestampSeqNum
  lifeTime := h₂.lifeTime.trans h₁.lifeTime
  fragOffset := h₂.fragOffset.trans h₁.fragOffset
  aduLength := h₂.aduLength.trans h₁.aduLength
  cbhe := h₂.cbhe.trans h₁.cbhe

/-! ## Wire format -/

/-- The values written before the dictionary, in order. -/
def leadingFields (h : BpHeader6) : List UInt64 :=
  [h.processingFlags.toUInt64, h.blockLength.toUInt64, h.dstSchemeOffset.toUInt64,
    h.dstSspOffset.toUInt64, h.srcSchemeOffset.toUInt64, h.srcSspOffset.toUInt64,
    h.reportSchemeOffset.toUInt64, h.reportSspOffset.toUInt64, h.custSchemeOffset.toUInt64,
    h.custSspOffset.toUInt64, h.createTimestamp.toUInt64, h.timestampSeqNum.toUInt64,
    UInt64.ofNat (wholeSeconds h.lifeTime), UInt64.ofNat h.dictionary.length]

/-- The values written after the dictionary. -/
def trailingFields (h : BpHeader6) : List UInt64 :=
  [h.fragOffset.toUInt64, h.aduLength.toUInt64]

/-- `BpHeader6::SerializeAndGetSize` with `forReal`. -/
def serialize (h : BpHeader6) : List UInt8 :=
  h.version :: (h.leadingFields.flatMap Sdnv.encode ++ h.dictionary ++
    h.trailingFields.flatMap Sdnv.encode)

/-- `BpHeader6::Deserialize`; `m_cbhe` is not on the wire. -/
def deserialize (h : BpHeader6) : Parser BpHeader6 := do
  let version ← readU8
  let processingFlags ← Sdnv.decode
  let blockLength ← Sdnv.decode
  let dstSchemeOffset ← Sdnv.decode
  let dstSspOffset ← Sdnv.decode
  let srcSchemeOffset ← Sdnv.decode
  let srcSspOffset ← Sdnv.decode
  let reportSchemeOffset ← Sdnv.decode
  let reportSspOffset ← Sdnv.decode
  let custSchemeOffset ← Sdnv.decode
  let custSspOffset ← Sdnv.decode
  let createTimestamp ← Sdnv.decode
  let timestampSeqNum ← Sdnv.decode
  let lifeTime ← Sdnv.decode
  let dictLength ← Sdnv.decode
  -- the string is made from the literal " " and overwritten byte by byte; making it reads past
  -- the literal, which has no effect on the bytes that remain
  let dictionary ← readBytes dictLength.toUInt32.toNat
  let fragOffset ← Sdnv.decode
  let aduLength ← Sdnv.decode
  pure {
    version := version
    processingFlags := processingFlags.toUInt32
    createTimestamp := createTimestamp.toUInt32
    timestampSeqNum := timestampSeqNum.toUInt32
    lifeTime := seconds lifeTime.toNat
    fragOffset := fragOffset.toUInt32
    aduLength := aduLength.toUInt32
    cbhe := h.cbhe
    blockLength := blockLength.toUInt32
    dstSchemeOffset := dstSchemeOffset.toUInt16
    dstSspOffset := dstSspOffset.toUInt16
    srcSchemeOffset := srcSchemeOffset.toUInt16
    srcSspOffset := srcSspOffset.toUInt16
    reportSchemeOffset := reportSchemeOffset.toUInt16
    reportSspOffset := reportSspOffset.toUInt16
    custSchemeOffset := custSchemeOffset.toUInt16
    custSspOffset := custSspOffset.toUInt16
    dictionary := dictionary }

/-- What a header is after the wire: `m_cbhe` is the receiver's, and the lifetime is cut to whole
seconds. -/
def onWire (h : BpHeader6) (cbhe : Bool) : BpHeader6 :=
  { h with cbhe := cbhe, lifeTime := seconds (UInt64.ofNat (wholeSeconds h.lifeTime)).toNat }

theorem wholeSeconds_seconds (n : ℕ) : wholeSeconds (seconds n) = n := by
  rw [wholeSeconds, seconds]
  omega

theorem onWire_eq {h : BpHeader6} {n : ℕ} (hlife : h.lifeTime = seconds n) (hn : n < 2 ^ 64)
    (cbhe : Bool) : h.onWire cbhe = { h with cbhe := cbhe } := by
  have hseconds : seconds (UInt64.ofNat (wholeSeconds h.lifeTime)).toNat = h.lifeTime := by
    rw [hlife, wholeSeconds_seconds, UInt64.toNat_ofNat_of_lt' hn]
  rw [onWire, hseconds]

/-- **The wire format**, for a dictionary whose length fits the 32-bit field: every field comes
back, but for the part of the lifetime below a second. -/
theorem reads_onWire (h h₀ : BpHeader6) (hdict : h.dictionary.length < 2 ^ 32) :
    Reads h₀.deserialize h.serialize (h.onWire h₀.cbhe) := by
  have hlength : (UInt64.ofNat h.dictionary.length).toUInt32.toNat = h.dictionary.length := by
    rw [UInt64.toNat_toUInt32, UInt64.toNat_ofNat_of_lt' (Nat.lt_trans hdict (by decide)),
      Nat.mod_eq_of_lt hdict]
  have hdictionary : Reads (readBytes (UInt64.ofNat h.dictionary.length).toUInt32.toNat)
      h.dictionary h.dictionary := by
    rw [hlength]
    exact reads_readBytes h.dictionary
  have hbytes : h.serialize = [h.version] ++ (Sdnv.encode h.processingFlags.toUInt64 ++
      (Sdnv.encode h.blockLength.toUInt64 ++ (Sdnv.encode h.dstSchemeOffset.toUInt64 ++
      (Sdnv.encode h.dstSspOffset.toUInt64 ++ (Sdnv.encode h.srcSchemeOffset.toUInt64 ++
      (Sdnv.encode h.srcSspOffset.toUInt64 ++ (Sdnv.encode h.reportSchemeOffset.toUInt64 ++
      (Sdnv.encode h.reportSspOffset.toUInt64 ++ (Sdnv.encode h.custSchemeOffset.toUInt64 ++
      (Sdnv.encode h.custSspOffset.toUInt64 ++ (Sdnv.encode h.createTimestamp.toUInt64 ++
      (Sdnv.encode h.timestampSeqNum.toUInt64 ++
      (Sdnv.encode (UInt64.ofNat (wholeSeconds h.lifeTime)) ++
      (Sdnv.encode (UInt64.ofNat h.dictionary.length) ++ (h.dictionary ++
      (Sdnv.encode h.fragOffset.toUInt64 ++ Sdnv.encode h.aduLength.toUInt64)))))))))))))))) := by
    simp [serialize, leadingFields, trailingFields]
  have hrecord : h.onWire h₀.cbhe = ({
      version := h.version
      processingFlags := h.processingFlags.toUInt64.toUInt32
      createTimestamp := h.createTimestamp.toUInt64.toUInt32
      timestampSeqNum := h.timestampSeqNum.toUInt64.toUInt32
      lifeTime := seconds (UInt64.ofNat (wholeSeconds h.lifeTime)).toNat
      fragOffset := h.fragOffset.toUInt64.toUInt32
      aduLength := h.aduLength.toUInt64.toUInt32
      cbhe := h₀.cbhe
      blockLength := h.blockLength.toUInt64.toUInt32
      dstSchemeOffset := h.dstSchemeOffset.toUInt64.toUInt16
      dstSspOffset := h.dstSspOffset.toUInt64.toUInt16
      srcSchemeOffset := h.srcSchemeOffset.toUInt64.toUInt16
      srcSspOffset := h.srcSspOffset.toUInt64.toUInt16
      reportSchemeOffset := h.reportSchemeOffset.toUInt64.toUInt16
      reportSspOffset := h.reportSspOffset.toUInt64.toUInt16
      custSchemeOffset := h.custSchemeOffset.toUInt64.toUInt16
      custSspOffset := h.custSspOffset.toUInt64.toUInt16
      dictionary := h.dictionary } : BpHeader6) := by
    simp only [onWire, UInt32.toUInt32_toUInt64, UInt16.toUInt16_toUInt64]
  rw [hbytes, hrecord]
  refine (reads_readU8 _).bind ?_
  iterate 14 refine (Sdnv.reads_decode _).bind ?_
  refine hdictionary.bind ?_
  refine (Sdnv.reads_decode _).bind ?_
  exact (Sdnv.reads_decode _).bind_pure

/-- **The round trip of the wire format**, for a lifetime of whole seconds. -/
theorem reads_deserialize (h h₀ : BpHeader6) {n : ℕ} (hlife : h.lifeTime = seconds n)
    (hn : n < 2 ^ 64) (hdict : h.dictionary.length < 2 ^ 32) :
    Reads h₀.deserialize h.serialize { h with cbhe := h₀.cbhe } := by
  rw [← onWire_eq hlife hn h₀.cbhe]
  exact h.reads_onWire h₀ hdict

/-! ## Sizes -/

/-- `temp = s.Encode (val); length += temp.size (); if (forReal) …`: the length so far and the
bytes written so far. -/
def writeSdnv (forReal : Bool) (sofar : UInt32 × List UInt8) (val : UInt64) : UInt32 × List UInt8 :=
  let temp := Sdnv.encode val
  (sofar.1 + UInt32.ofNat temp.length, if forReal then sofar.2 ++ temp else sofar.2)

/-- `BpHeader6::SerializeAndGetSize`: the length it returns and the bytes it writes. -/
def serializeAndGetSize (h : BpHeader6) (forReal : Bool) : UInt32 × List UInt8 :=
  let (length, written) :=
    h.leadingFields.foldl (writeSdnv forReal) (1, if forReal then [h.version] else [])
  let written := if forReal then written ++ h.dictionary else written
  h.trailingFields.foldl (writeSdnv forReal) (length + UInt32.ofNat h.dictionary.length, written)

/-- `BpHeader6::GetSerializedSize`. -/
def getSerializedSize (h : BpHeader6) : UInt32 := (h.serializeAndGetSize false).1

/-- `BpHeader6::Deserialize` with the distance it returns. -/
def deserializeAndGetSize (h : BpHeader6) (start : List UInt8) : Option (BpHeader6 × UInt32) :=
  (h.deserialize start).map fun r => (r.1, UInt32.ofNat (start.length - r.2.length))

theorem foldl_writeSdnv (forReal : Bool) (fields : List UInt64) (length : UInt32)
    (written : List UInt8) :
    fields.foldl (writeSdnv forReal) (length, written) =
      (length + UInt32.ofNat (fields.flatMap Sdnv.encode).length,
        if forReal then written ++ fields.flatMap Sdnv.encode else written) := by
  induction fields generalizing length written with
  | nil => simp
  | cons val fields ih =>
    rw [List.foldl_cons, writeSdnv, ih]
    cases forReal <;> simp [UInt32.add_assoc]

/-- **The length is that of the bytes written for real**, whether they are written or not. -/
theorem serializeAndGetSize_eq (h : BpHeader6) (forReal : Bool) :
    h.serializeAndGetSize forReal =
      (UInt32.ofNat h.serialize.length, if forReal then h.serialize else []) := by
  unfold serializeAndGetSize
  rw [foldl_writeSdnv]
  simp only [foldl_writeSdnv]
  have hlength : 1 + UInt32.ofNat (h.leadingFields.flatMap Sdnv.encode).length +
      UInt32.ofNat h.dictionary.length +
      UInt32.ofNat (h.trailingFields.flatMap Sdnv.encode).length =
        UInt32.ofNat h.serialize.length := by
    rw [← UInt32.toNat_inj]
    simp only [serialize, List.length_cons, List.length_append, UInt32.toNat_add,
      UInt32.toNat_ofNat', UInt32.toNat_one]
    omega
  rw [hlength]
  cases forReal <;> simp [serialize]

theorem length_serialize_le (h : BpHeader6) : h.serialize.length ≤ 161 + h.dictionary.length := by
  have hleading : (h.leadingFields.flatMap Sdnv.encode).length ≤ 10 * 14 :=
    Sdnv.length_flatMap_encode_le h.leadingFields
  have htrailing : (h.trailingFields.flatMap Sdnv.encode).length ≤ 10 * 2 :=
    Sdnv.length_flatMap_encode_le h.trailingFields
  simp only [serialize, List.length_cons, List.length_append]
  omega

/-- **A header survives `Serialize` and `Deserialize`**, which both report the size of the bytes
written, whatever follows them. -/
theorem deserializeAndGetSize_serialize (h h₀ : BpHeader6) {n : ℕ} (hlife : h.lifeTime = seconds n)
    (hn : n < 2 ^ 33) (hdict : h.dictionary.length < 2 ^ 31) (rest : List UInt8) :
    (h.serializeAndGetSize true).2.length = h.getSerializedSize.toNat ∧
    h₀.deserializeAndGetSize ((h.serializeAndGetSize true).2 ++ rest) =
      some ({ h with cbhe := h₀.cbhe }, h.getSerializedSize) := by
  have hsize : h.getSerializedSize = UInt32.ofNat h.serialize.length :=
    congrArg Prod.fst (h.serializeAndGetSize_eq false)
  have hbytes : (h.serializeAndGetSize true).2 = h.serialize :=
    congrArg Prod.snd (h.serializeAndGetSize_eq true)
  have hlt : h.serialize.length < 2 ^ 32 := by
    have hle := h.length_serialize_le
    omega
  have hread := h.reads_deserialize h₀ hlife (Nat.lt_trans hn (by decide))
    (Nat.lt_trans hdict (by decide)) rest
  refine ⟨?_, ?_⟩
  · rw [hbytes, hsize, UInt32.toNat_ofNat_of_lt' hlt]
  · rw [hbytes, hsize, deserializeAndGetSize, hread]
    simp

/-- A header with a fragment's fields and a two-byte dictionary, in front of one more byte. -/
theorem deserializeAndGetSize_serialize_sample :
    let h : BpHeader6 := { new false with
      processingFlags := 1, lifeTime := seconds 300, fragOffset := 1000, dictionary := [100, 0] }
    (h.serializeAndGetSize true).2.length = h.getSerializedSize.toNat ∧
    (new true).deserializeAndGetSize ((h.serializeAndGetSize true).2 ++ [7]) =
      some ({ h with cbhe := true }, h.getSerializedSize) :=
  deserializeAndGetSize_serialize _ _ rfl (by decide) (by decide) _

end BpHeader6
end BundleProtocol
