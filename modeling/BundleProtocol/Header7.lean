import BundleProtocol.Bundle
import BundleProtocol.Cbor

/-! # The version 7 headers

`BpHeader7` and `BpBlockHeader7` as arrays of CBOR items.  The sizes that the encoder reports add up
the sizes of the items, those of the endpoint ids in eight bits.  `reads_deserialize` says what of a
header comes back: an endpoint id `dtn:none` does not, and a lifetime is cut to milliseconds.
-/
namespace BundleProtocol
open ByteParser FlagWord Cbor BpEndpointId

/-- `MilliSeconds (n)`. -/
def milliSeconds (n : ℕ) : Time := n * 10 ^ 6

/-- `Time::GetMilliSeconds`, which truncates. -/
def getMilliSeconds (t : Time) : ℤ := t.tdiv (10 ^ 6)

theorem getMilliSeconds_milliSeconds (n : ℕ) : getMilliSeconds (milliSeconds n) = n :=
  Int.mul_tdiv_cancel _ (by decide)

/-! ## Endpoint ids -/

/-- An endpoint id in a header: the code of its scheme, 2 for `ipn` and 1 for all others, and its
ssp. -/
structure UriSsp where
  uriCode : UInt16
  ssp : List UInt8
deriving DecidableEq

namespace UriSsp

/-- What the setters make of an endpoint id. -/
def ofEid (eid : BpEndpointId) : Option UriSsp := do
  let scheme ← eid.getScheme
  let ssp ← eid.getSsp
  if scheme = ipnScheme then
    let node ← ipnNode ssp
    let service ← ipnService ssp
    some ⟨2, ipnSsp node service⟩
  else some ⟨1, ssp⟩

/-- `BpHeader7::EncodeEID`; without the two numbers of an `ipn` ssp it writes unassigned
variables. -/
def encode (e : UriSsp) : Option (List UInt8) :=
  if e.uriCode = 1 then
    some (encodeArraySize 2 ++ encodeInteger 1 ++
      if e.ssp = noneSsp then encodeInteger 0 else encodeBytes e.ssp)
  else do
    let n ← ipnNode e.ssp
    let s ← ipnService e.ssp
    some (encodeArraySize 2 ++ encodeInteger 2 ++ encodeArraySize 2 ++ encodeInteger n.toNat ++
      encodeInteger s.toNat)

/-- `BpHeader7::DecodeEID`; a byte string is appended to what `ssp` holds. -/
def decode (ssp : List UInt8) : Parser UriSsp := do
  let _ ← decodeArraySize
  let uri ← decodeUnsigned 16
  if uri = 2 then
    let _ ← decodeArraySize
    let node ← decodeUnsigned 32
    let service ← decodeUnsigned 32
    pure ⟨UInt16.ofNat uri, ipnSsp (UInt32.ofNat node) (UInt32.ofNat service)⟩
  else
    let next ← peekU8
    if next = 0 then
      let tempNumeric ← decodeUnsigned 64
      pure ⟨UInt16.ofNat uri, printDecimal (UInt32.ofNat tempNumeric)⟩
    else
      let bytes ← decodeBytes
      pure ⟨UInt16.ofNat uri, ssp ++ bytes⟩

/-- What comes back of an endpoint id. -/
def onWire (e : UriSsp) : UriSsp :=
  if e.uriCode = 1 then if e.ssp = noneSsp then ⟨1, printDecimal 0⟩ else e
  else ⟨2, ipnSsp ((ipnNode e.ssp).getD 0) ((ipnService e.ssp).getD 0)⟩

/-- A byte string does not look like the number zero. -/
theorem encodeBytes_eq_cons (bytes : List UInt8) :
    ∃ octet rest, encodeBytes bytes = octet :: rest ∧ octet ≠ 0 := by
  have hne : ∀ low < 32, UInt8.ofNat (byteString + low) ≠ 0 := by decide
  unfold encodeBytes encodeTagAndValue
  split
  · refine ⟨_, _, rfl, ?_⟩
    rename_i hlength
    have hlow : bytes.length < 24 := by
      by_contra hlarge
      unfold Cbor.length at hlength
      rw [if_neg hlarge] at hlength
      revert hlength
      split_ifs <;> simp
    exact hne _ (Nat.lt_trans hlow (by decide))
  all_goals exact ⟨_, _, rfl, hne _ (by decide)⟩

/-- **The round trip of an endpoint id**, into an empty string. -/
theorem reads_decode {e : UriSsp} {bytes : List UInt8} (hencode : e.encode = some bytes)
    (hssp : e.uriCode = 1 → e.ssp.length < 2 ^ 64) : Reads (decode []) bytes e.onWire := by
  unfold encode at hencode
  unfold onWire
  by_cases hcode : e.uriCode = 1
  · rw [if_pos hcode] at hencode ⊢
    cases hencode
    rw [List.append_assoc]
    refine (reads_decodeArraySize (t := 2) (by decide)).bind ?_
    refine (reads_decodeUnsigned 16 (t := 1) (by decide) (Or.inl (by decide))).bind ?_
    rw [if_neg (by decide)]
    by_cases hnone : e.ssp = noneSsp
    · rw [if_pos hnone, if_pos hnone]
      refine Reads.peekU8_bind (x := 0) ?_
      rw [if_pos rfl]
      exact (reads_decodeUnsigned 64 (t := 0) (by decide) (Or.inr rfl)).bind_pure
    · rw [if_neg hnone, if_neg hnone]
      obtain ⟨octet, rest, hbytes, hne⟩ := encodeBytes_eq_cons e.ssp
      rw [hbytes]
      refine Reads.peekU8_bind ?_
      rw [if_neg hne, ← hbytes]
      have he : e = ⟨UInt16.ofNat 1, [] ++ e.ssp⟩ := by
        cases e
        simp_all
      nth_rewrite 2 [he]
      exact (reads_decodeBytes (hssp hcode)).bind_pure
  · rw [if_neg hcode] at hencode ⊢
    obtain ⟨n, hn, hencode⟩ := Option.bind_eq_some_iff.mp hencode
    obtain ⟨s, hs, hencode⟩ := Option.bind_eq_some_iff.mp hencode
    cases hencode
    rw [hn, hs, List.append_assoc, List.append_assoc, List.append_assoc]
    refine (reads_decodeArraySize (t := 2) (by decide)).bind ?_
    refine (reads_decodeUnsigned 16 (t := 2) (by decide) (Or.inl (by decide))).bind ?_
    rw [if_pos rfl]
    refine (reads_decodeArraySize (t := 2) (by decide)).bind ?_
    refine (reads_decodeUnsigned 32 n.toNat_lt (Or.inl (Nat.le_refl 32))).bind ?_
    rw [UInt32.ofNat_toNat, Option.getD_some, Option.getD_some]
    have hlast := (reads_decodeUnsigned 32 s.toNat_lt (Or.inl (Nat.le_refl 32))).bind_pure
      (f := fun service => UriSsp.mk (UInt16.ofNat 2) (ipnSsp n (UInt32.ofNat service)))
    rwa [UInt32.ofNat_toNat] at hlast

/-- The bytes of an endpoint id hold its ssp. -/
theorem length_ssp_le {e : UriSsp} {bytes : List UInt8} (hencode : e.encode = some bytes)
    (hcode : e.uriCode = 1) : e.ssp.length ≤ bytes.length + 4 := by
  unfold encode at hencode
  rw [if_pos hcode] at hencode
  cases hencode
  rw [List.length_append]
  split
  · rename_i hnone
    rw [hnone]
    exact Nat.le_add_left 4 _
  · simp only [encodeBytes, List.length_append]
    omega

/-- An endpoint id that `EncodeEID`'s eight-bit size can describe. -/
def Small (e : UriSsp) : Prop :=
  (e.uriCode = 1 ∧ e.ssp.length ≤ 200) ∨ ∃ node service, e = ⟨2, ipnSsp node service⟩

/-- What a setter makes of an endpoint id with this ssp. -/
theorem ofEid_cases {eid : BpEndpointId} {e : UriSsp} {ssp : List UInt8} (hset : ofEid eid = some e)
    (hssp : eid.getSsp = some ssp) : e = ⟨1, ssp⟩ ∨ ∃ node service, e = ⟨2, ipnSsp node service⟩ := by
  unfold ofEid at hset
  rw [hssp] at hset
  obtain ⟨scheme, -, hset⟩ := Option.bind_eq_some_iff.mp hset
  rw [Option.bind_eq_bind, Option.bind_some] at hset
  split at hset
  · obtain ⟨node, -, hset⟩ := Option.bind_eq_some_iff.mp hset
    obtain ⟨service, -, hset⟩ := Option.bind_eq_some_iff.mp hset
    cases hset
    exact Or.inr ⟨node, service, rfl⟩
  · cases hset
    exact Or.inl rfl

/-- The setters make small ones of endpoint ids with a short ssp. -/
theorem small_ofEid {eid : BpEndpointId} {e : UriSsp} (hset : ofEid eid = some e)
    (hshort : ∃ ssp, eid.getSsp = some ssp ∧ ssp.length ≤ 200) : e.Small := by
  obtain ⟨ssp, hssp, hle⟩ := hshort
  rcases ofEid_cases hset hssp with rfl | hipn
  · exact Or.inl ⟨rfl, hle⟩
  · exact Or.inr hipn

theorem Small.length_ssp_lt {e : UriSsp} (h : e.Small) (hcode : e.uriCode = 1) :
    e.ssp.length < 2 ^ 64 := by
  rcases h with ⟨-, hssp⟩ | ⟨node, service, rfl⟩
  · exact Nat.lt_of_le_of_lt hssp (by decide)
  · exact absurd hcode (show ¬(2 : UInt16) = 1 by decide)

/-- Small endpoint ids are encoded, in less than 256 bytes. -/
theorem Small.encode {e : UriSsp} (h : e.Small) :
    ∃ bytes, e.encode = some bytes ∧ bytes.length < 2 ^ 8 := by
  have hhead : ∀ t : ℕ, (encodeArraySize t).length ≤ 9 := length_encodeTagAndValue_le array
  have hnumber := length_encodeInteger_le
  have hsize := hhead 2
  unfold UriSsp.encode
  rcases h with ⟨hcode, hssp⟩ | ⟨node, service, rfl⟩
  · rw [if_pos hcode]
    refine ⟨_, rfl, ?_⟩
    have hcodeSize : (encodeInteger 1).length ≤ 9 := hnumber 1
    rw [List.length_append, List.length_append]
    split
    · have hzero : (encodeInteger 0).length ≤ 9 := hnumber 0
      omega
    · have hbytes := length_encodeTagAndValue_le byteString e.ssp.length
      rw [encodeBytes, List.length_append]
      omega
  · rw [if_neg (show ¬(2 : UInt16) = 1 by decide), ipnNode_ipnSsp, ipnService_ipnSsp]
    refine ⟨_, rfl, ?_⟩
    have hcodeSize : (encodeInteger 2).length ≤ 9 := hnumber 2
    have hnode := hnumber node.toNat
    have hservice := hnumber service.toNat
    simp only [List.length_append]
    omega

end UriSsp

/-! ## The primary header -/

/-- The primary header of a version 7 bundle. -/
structure BpHeader7 where
  version : UInt8
  processingFlags : UInt32
  createTimestamp : UInt32
  timestampSeqNum : UInt32
  lifeTime : Time
  fragOffset : UInt32
  aduLength : UInt32
  dst : UriSsp
  src : UriSsp
  report : UriSsp
  /-- For the simulator only: not on the wire. -/
  blockLength : UInt32

namespace BpHeader7

/-- `BpHeader7::BpHeader7`.  It leaves the URI codes and the block length uninitialised; they are
set before they are read. -/
def new : BpHeader7 where
  version := 7
  processingFlags := 0
  createTimestamp := 0
  timestampSeqNum := 0
  lifeTime := 0
  fragOffset := 0
  aduLength := 0
  dst := ⟨0, []⟩
  src := ⟨0, []⟩
  report := ⟨0, []⟩
  blockLength := 0

def isFragment (h : BpHeader7) : Bool := test h.processingFlags BpHeader6.bundleIsFragment

def setDestinationEid (h : BpHeader7) (dst : BpEndpointId) : Option BpHeader7 := do
  let dst ← UriSsp.ofEid dst
  some { h with dst := dst }

def setSourceEid (h : BpHeader7) (src : BpEndpointId) : Option BpHeader7 := do
  let src ← UriSsp.ofEid src
  some { h with src := src }

def setReportEid (h : BpHeader7) (report : BpEndpointId) : Option BpHeader7 := do
  let report ← UriSsp.ofEid report
  some { h with report := report }

/-- `BpHeader7::GetDestinationEid`, which is still to be written: whatever was set, it returns the
endpoint id of two empty strings. -/
def getDestinationEid (_ : BpHeader7) : BpEndpointId := .ofComponents [] []

/-- `BpHeader7::GetSourceEid`, likewise. -/
def getSourceEid (_ : BpHeader7) : BpEndpointId := .ofComponents [] []

/-- The items in front of the endpoint ids; the number of items depends on the fragment flag, and
the last is the place of the CRC type. -/
def leadingItems (h : BpHeader7) : List UInt8 :=
  encodeArraySize (if h.isFragment then 10 else 8) ++ encodeInteger h.version.toNat ++
    encodeInteger h.processingFlags.toNat ++ encodeInteger 0

/-- The items of a fragment only. -/
def fragmentItems (h : BpHeader7) : List UInt8 :=
  if h.isFragment then encodeInteger h.fragOffset.toNat ++ encodeInteger h.aduLength.toNat else []

/-- The items behind the endpoint ids. -/
def trailingItems (h : BpHeader7) : List UInt8 :=
  encodeArraySize 2 ++ encodeInteger h.createTimestamp.toNat ++
    encodeInteger h.timestampSeqNum.toNat ++ encodeInteger (getMilliSeconds h.lifeTime) ++
    h.fragmentItems

/-- `BpHeader7::SerializeAndGetSize`: the size it returns and the bytes it writes for real.  An
endpoint id's size is an 8-bit number. -/
def serializeAndGetSize (h : BpHeader7) : Option (UInt32 × List UInt8) := do
  let dst ← h.dst.encode
  let src ← h.src.encode
  let report ← h.report.encode
  let length := UInt32.ofNat h.leadingItems.length + (UInt8.ofNat dst.length).toUInt32 +
    (UInt8.ofNat src.length).toUInt32 + (UInt8.ofNat report.length).toUInt32 +
    UInt32.ofNat h.trailingItems.length
  some (length, h.leadingItems ++ dst ++ src ++ report ++ h.trailingItems)

/-- The end of `BpHeader7::Deserialize`: a fragment is told by the number of items. -/
def deserializeFragment (h : BpHeader7) (dataSize : ℕ) : Parser BpHeader7 :=
  if 8 < dataSize then do
    let fragOffset ← decodeUnsigned 32
    let aduLength ← decodeUnsigned 32
    pure { h with fragOffset := UInt32.ofNat fragOffset, aduLength := UInt32.ofNat aduLength }
  else pure h

/-- `BpHeader7::Deserialize`. -/
def deserialize (h : BpHeader7) : Parser BpHeader7 := do
  let dataSize ← decodeArraySize
  let version ← decodeUnsigned 8
  let processingFlags ← decodeUnsigned 32
  let _ ← decodeUnsigned 64
  let dst ← UriSsp.decode h.dst.ssp
  let src ← UriSsp.decode h.src.ssp
  let report ← UriSsp.decode h.report.ssp
  let _ ← decodeArraySize
  let createTimestamp ← decodeUnsigned 32
  let seqNum ← decodeUnsigned 32
  let msLifeTime ← decodeUnsigned 32
  let h := { h with
    version := UInt8.ofNat version
    processingFlags := UInt32.ofNat processingFlags
    createTimestamp := UInt32.ofNat createTimestamp
    timestampSeqNum := UInt32.ofNat seqNum
    lifeTime := milliSeconds msLifeTime
    dst := dst
    src := src
    report := report }
  h.deserializeFragment dataSize

/-- What comes back of a header whose lifetime is `ms` whole milliseconds, in a new one. -/
def onWire (h : BpHeader7) (ms : ℕ) : BpHeader7 :=
  { h with
    lifeTime := milliSeconds ms
    dst := h.dst.onWire
    src := h.src.onWire
    report := h.report.onWire
    fragOffset := if h.isFragment then h.fragOffset else 0
    aduLength := if h.isFragment then h.aduLength else 0
    blockLength := 0 }

@[simp] theorem lifeTime_onWire (h : BpHeader7) (ms : ℕ) :
    (h.onWire ms).lifeTime = milliSeconds ms := rfl

/-- The three endpoint ids can be described. -/
structure SmallEids (h : BpHeader7) : Prop where
  dst : h.dst.Small
  src : h.src.Small
  report : h.report.Small

theorem length_items_le (h : BpHeader7) :
    h.leadingItems.length + h.trailingItems.length ≤ 90 := by
  have hnumber := length_encodeInteger_le
  have hhead : ∀ t : ℕ, (encodeArraySize t).length ≤ 9 := length_encodeTagAndValue_le array
  have hdataSize := hhead (if h.isFragment then 10 else 8)
  have hversion := hnumber h.version.toNat
  have hflags := hnumber h.processingFlags.toNat
  have hcrc := hnumber 0
  have hpair := hhead 2
  have htimestamp := hnumber h.createTimestamp.toNat
  have hseq := hnumber h.timestampSeqNum.toNat
  have hlife := hnumber (getMilliSeconds h.lifeTime)
  have hfragment : h.fragmentItems.length ≤ 18 := by
    have hoffset := hnumber h.fragOffset.toNat
    have hlength := hnumber h.aduLength.toNat
    unfold fragmentItems
    split
    · rw [List.length_append]
      omega
    · exact Nat.zero_le 18
  simp only [leadingItems, trailingItems, List.length_append]
  omega

/-- The three endpoint ids hold strings of a size that can be written. -/
structure StringEids (h : BpHeader7) : Prop where
  dst : h.dst.uriCode = 1 → h.dst.ssp.length < 2 ^ 64
  src : h.src.uriCode = 1 → h.src.ssp.length < 2 ^ 64
  report : h.report.uriCode = 1 → h.report.ssp.length < 2 ^ 64

theorem SmallEids.stringEids {h : BpHeader7} (hsmall : h.SmallEids) : h.StringEids :=
  ⟨hsmall.dst.length_ssp_lt, hsmall.src.length_ssp_lt, hsmall.report.length_ssp_lt⟩

/-- What a header is written from: its own items and those of its endpoint ids. -/
theorem of_serializeAndGetSize {h : BpHeader7} {size : UInt32} {bytes : List UInt8}
    (hser : h.serializeAndGetSize = some (size, bytes)) :
    ∃ dst src report, h.dst.encode = some dst ∧ h.src.encode = some src ∧
      h.report.encode = some report ∧
      bytes = h.leadingItems ++ dst ++ src ++ report ++ h.trailingItems := by
  obtain ⟨dst, hdst, hafterDst⟩ := Option.bind_eq_some_iff.mp hser
  obtain ⟨src, hsrc, hafterSrc⟩ := Option.bind_eq_some_iff.mp hafterDst
  obtain ⟨report, hreport, hbytes⟩ := Option.bind_eq_some_iff.mp hafterSrc
  cases hbytes
  exact ⟨dst, src, report, hdst, hsrc, hreport, rfl⟩

/-- A header in a buffer, whose size has 32 bits, holds such strings. -/
theorem stringEids_of_length {h : BpHeader7} {size : UInt32} {bytes : List UInt8}
    (hser : h.serializeAndGetSize = some (size, bytes)) (hfit : bytes.length < 2 ^ 32) :
    h.StringEids := by
  obtain ⟨dst, src, report, hdst, hsrc, hreport, rfl⟩ := of_serializeAndGetSize hser
  simp only [List.length_append] at hfit
  refine ⟨fun h => ?_, fun h => ?_, fun h => ?_⟩
  · have hle := UriSsp.length_ssp_le hdst h
    omega
  · have hle := UriSsp.length_ssp_le hsrc h
    omega
  · have hle := UriSsp.length_ssp_le hreport h
    omega

/-- **The sizes of the items add up** when the endpoint ids are small. -/
theorem SmallEids.serializeAndGetSize {h : BpHeader7} (hsmall : h.SmallEids) :
    ∃ bytes, h.serializeAndGetSize = some (UInt32.ofNat bytes.length, bytes) ∧
      bytes.length < 2 ^ 10 := by
  obtain ⟨dst, hdst, hdstSize⟩ := hsmall.dst.encode
  obtain ⟨src, hsrc, hsrcSize⟩ := hsmall.src.encode
  obtain ⟨report, hreport, hreportSize⟩ := hsmall.report.encode
  have hitems := h.length_items_le
  refine ⟨h.leadingItems ++ dst ++ src ++ report ++ h.trailingItems, ?_, ?_⟩
  swap
  · simp only [List.length_append]
    omega
  unfold BpHeader7.serializeAndGetSize
  rw [hdst, hsrc, hreport]
  have hsize : ∀ {bytes : List UInt8}, bytes.length < 2 ^ 8 →
      (UInt8.ofNat bytes.length).toUInt32 = UInt32.ofNat bytes.length := by
    intro bytes hlt
    rw [← UInt32.toNat_inj, UInt8.toNat_toUInt32, UInt8.toNat_ofNat_of_lt' hlt,
      UInt32.toNat_ofNat_of_lt' (Nat.lt_trans hlt (by decide))]
  simp only [Option.bind_eq_bind, Option.bind_some, hsize hdstSize, hsize hsrcSize, hsize hreportSize,
    List.length_append, UInt32.ofNat_add]

/-- The fields of a fragment come back, and those of another bundle stay what they are. -/
theorem reads_fragment (h h₀ : BpHeader7) :
    Reads (h₀.deserializeFragment (if h.isFragment then 10 else 8)) h.fragmentItems
      { h₀ with
        fragOffset := if h.isFragment then h.fragOffset else h₀.fragOffset
        aduLength := if h.isFragment then h.aduLength else h₀.aduLength } := by
  unfold deserializeFragment fragmentItems
  cases h.isFragment with
  | false => exact Reads.pure h₀
  | true =>
    have hlast := (reads_decodeUnsigned 32 h.aduLength.toNat_lt (Or.inl (Nat.le_refl 32))).bind_pure
      (f := fun aduLength => { h₀ with
        fragOffset := UInt32.ofNat h.fragOffset.toNat, aduLength := UInt32.ofNat aduLength })
    rw [UInt32.ofNat_toNat, UInt32.ofNat_toNat] at hlast
    refine (reads_decodeUnsigned 32 h.fragOffset.toNat_lt (Or.inl (Nat.le_refl 32))).bind ?_
    rw [UInt32.ofNat_toNat]
    exact hlast

/-- The bytes of a header, item by item. -/
theorem serializeAndGetSize_eq_some {h : BpHeader7} {size : UInt32} {bytes : List UInt8} {ms : ℕ}
    (hser : h.serializeAndGetSize = some (size, bytes)) (hlife : getMilliSeconds h.lifeTime = ms) :
    ∃ dst src report, h.dst.encode = some dst ∧ h.src.encode = some src ∧
      h.report.encode = some report ∧
      bytes = encodeArraySize (if h.isFragment then 10 else 8) ++ (encodeInteger h.version.toNat ++
        (encodeInteger h.processingFlags.toNat ++ (encodeInteger (0 : ℕ) ++ (dst ++ (src ++ (report ++
        (encodeArraySize 2 ++ (encodeInteger h.createTimestamp.toNat ++
        (encodeInteger h.timestampSeqNum.toNat ++ (encodeInteger ms ++ h.fragmentItems)))))))))) := by
  obtain ⟨dst, src, report, hdst, hsrc, hreport, rfl⟩ := of_serializeAndGetSize hser
  refine ⟨dst, src, report, hdst, hsrc, hreport, ?_⟩
  rw [leadingItems, trailingItems, hlife]
  simp

theorem dataSize_lt (h : BpHeader7) : (if h.isFragment then 10 else 8) < 2 ^ 64 := by
  split <;> decide

/-- **The round trip of the wire format**, for a lifetime below 2³² milliseconds. -/
theorem reads_deserialize {h : BpHeader7} {size : UInt32} {bytes : List UInt8} {ms : ℕ}
    (hssp : h.StringEids) (hser : h.serializeAndGetSize = some (size, bytes))
    (hlife : getMilliSeconds h.lifeTime = ms) (hms : ms < 2 ^ 32) :
    Reads new.deserialize bytes (h.onWire ms) := by
  obtain ⟨dst, src, report, hdst, hsrc, hreport, rfl⟩ := serializeAndGetSize_eq_some hser hlife
  refine (reads_decodeArraySize h.dataSize_lt).bind ?_
  refine (reads_decodeUnsigned 8 h.version.toNat_lt (Or.inl (by decide))).bind ?_
  refine (reads_decodeUnsigned 32 h.processingFlags.toNat_lt (Or.inl (by decide))).bind ?_
  refine (reads_decodeUnsigned 64 (by decide) (Or.inr rfl)).bind ?_
  refine (UriSsp.reads_decode hdst hssp.dst).bind ?_
  refine (UriSsp.reads_decode hsrc hssp.src).bind ?_
  refine (UriSsp.reads_decode hreport hssp.report).bind ?_
  refine (reads_decodeArraySize (by decide)).bind ?_
  refine (reads_decodeUnsigned 32 h.createTimestamp.toNat_lt (Or.inl (by decide))).bind ?_
  refine (reads_decodeUnsigned 32 h.timestampSeqNum.toNat_lt (Or.inl (by decide))).bind ?_
  refine (reads_decodeUnsigned 32 hms (Or.inl (by decide))).bind ?_
  simp only [UInt8.ofNat_toNat, UInt32.ofNat_toNat]
  exact h.reads_fragment _

/-- A lifetime of more than 32 bits of milliseconds cannot be decoded. -/
theorem rejects_deserialize {h : BpHeader7} {size : UInt32} {bytes : List UInt8} {ms : ℕ}
    (hssp : h.StringEids) (hser : h.serializeAndGetSize = some (size, bytes))
    (hlife : getMilliSeconds h.lifeTime = ms) (hms : 2 ^ 32 ≤ ms) :
    Rejects new.deserialize bytes := by
  obtain ⟨dst, src, report, hdst, hsrc, hreport, rfl⟩ := serializeAndGetSize_eq_some hser hlife
  refine (reads_decodeArraySize h.dataSize_lt).bind_rejects ?_
  refine (reads_decodeUnsigned 8 h.version.toNat_lt (Or.inl (by decide))).bind_rejects ?_
  refine (reads_decodeUnsigned 32 h.processingFlags.toNat_lt (Or.inl (by decide))).bind_rejects ?_
  refine (reads_decodeUnsigned 64 (by decide) (Or.inr rfl)).bind_rejects ?_
  refine (UriSsp.reads_decode hdst hssp.dst).bind_rejects ?_
  refine (UriSsp.reads_decode hsrc hssp.src).bind_rejects ?_
  refine (UriSsp.reads_decode hreport hssp.report).bind_rejects ?_
  refine (reads_decodeArraySize (by decide)).bind_rejects ?_
  refine (reads_decodeUnsigned 32 h.createTimestamp.toNat_lt (Or.inl (by decide))).bind_rejects ?_
  refine (reads_decodeUnsigned 32 h.timestampSeqNum.toNat_lt (Or.inl (by decide))).bind_rejects ?_
  exact (rejects_decodeUnsigned hms (by decide)).bind

end BpHeader7

/-! ## The payload block header -/

/-- The header of a version 7 payload block. -/
structure BpBlockHeader7 where
  blockType : UInt8
  processingControlFlags : UInt8
  crcType : UInt8
  blockNumber : UInt8
deriving DecidableEq

namespace BpBlockHeader7

/-- `BpBlockHeader7::BpBlockHeader7`. -/
def new (blockType : UInt8) : BpBlockHeader7 := ⟨blockType, 0, 0, 0⟩

/-- `BpBlockHeader7::SerializeAndGetSize`: the size it returns and the bytes it writes for real. -/
def serializeAndGetSize (h : BpBlockHeader7) : UInt32 × List UInt8 :=
  let temp := encodeArraySize (if h.crcType ≠ 0 then 6 else 5) ++ encodeInteger h.blockType.toNat ++
    encodeInteger h.blockNumber.toNat ++ encodeInteger h.processingControlFlags.toNat ++
    encodeInteger h.crcType.toNat
  (UInt32.ofNat temp.length, temp)

/-- `BpBlockHeader7::Deserialize`. -/
def deserialize : Parser BpBlockHeader7 := do
  let _ ← decodeArraySize
  let blockType ← decodeUnsigned 8
  let blockNumber ← decodeUnsigned 8
  let processingControlFlags ← decodeUnsigned 8
  let crcType ← decodeUnsigned 8
  pure ⟨UInt8.ofNat blockType, UInt8.ofNat processingControlFlags, UInt8.ofNat crcType,
    UInt8.ofNat blockNumber⟩

theorem length_serialize_le (h : BpBlockHeader7) : h.serializeAndGetSize.2.length ≤ 45 := by
  have hnumber := length_encodeInteger_le
  have hdataSize := length_encodeTagAndValue_le array (if h.crcType ≠ 0 then 6 else 5)
  have htype := hnumber h.blockType.toNat
  have hblockNumber := hnumber h.blockNumber.toNat
  have hflags := hnumber h.processingControlFlags.toNat
  have hcrc := hnumber h.crcType.toNat
  simp only [serializeAndGetSize, encodeArraySize, List.length_append]
  omega

/-- The size that is returned is the number of bytes. -/
theorem toNat_size (h : BpBlockHeader7) :
    h.serializeAndGetSize.1.toNat = h.serializeAndGetSize.2.length :=
  UInt32.toNat_ofNat_of_lt' (Nat.lt_of_le_of_lt h.length_serialize_le (by decide))

theorem reads_deserialize (h : BpBlockHeader7) : Reads deserialize h.serializeAndGetSize.2 h := by
  have hdataSize : (if h.crcType ≠ 0 then 6 else 5) < 2 ^ 64 := by split <;> decide
  have hbyte : ∀ b : UInt8, Reads (decodeUnsigned 8) (encodeInteger b.toNat) b.toNat :=
    fun b => reads_decodeUnsigned 8 b.toNat_lt (Or.inl (by decide))
  have hlast := (hbyte h.crcType).bind_pure (f := fun crcType => BpBlockHeader7.mk
    (UInt8.ofNat h.blockType.toNat) (UInt8.ofNat h.processingControlFlags.toNat)
    (UInt8.ofNat crcType) (UInt8.ofNat h.blockNumber.toNat))
  simp only [serializeAndGetSize, List.append_assoc]
  simp only [UInt8.ofNat_toNat] at hlast
  refine (reads_decodeArraySize hdataSize).bind ?_
  refine (hbyte h.blockType).bind ?_
  refine (hbyte h.blockNumber).bind ?_
  refine (hbyte h.processingControlFlags).bind ?_
  simp only [UInt8.ofNat_toNat]
  exact hlast

end BpBlockHeader7
end BundleProtocol
