import BundleProtocol.Bundle7

/-! # Version 7 endpoint ids on the wire

`EncodeEID` writes the ssp `none` as the number zero and any other as a byte string, and reports the
number of bytes in eight bits.  `DecodeEID` makes the string `0` of the number, so that the endpoint id
`dtn:none` is the only one that does not survive (`eid_survives_iff`); the size is right as long as an
ssp has at most 251 bytes (`serializedSize_iff`).
-/
namespace BundleProtocol
open ByteParser Cbor BpEndpointId

namespace UriSsp

/-- An endpoint id of the scheme `dtn`, or a canonical one of the scheme `ipn`, with what a version 7
header stands for it by: the code of the scheme and the ssp. -/
inductive Accepted : BpEndpointId → UriSsp → Prop
  | dtn {eid : BpEndpointId} {ssp : List UInt8} (hscheme : eid.getScheme = some dtnScheme)
      (hssp : eid.getSsp = some ssp) (hpos : 1 ≤ ssp.length) (hle : ssp.length ≤ 1023) :
      Accepted eid ⟨1, ssp⟩
  | ipn {eid : BpEndpointId} {node service : UInt32} (hscheme : eid.getScheme = some ipnScheme)
      (hssp : eid.getSsp = some (ipnSsp node service)) (hnode : node.toNat < 2 ^ 31)
      (hservice : service.toNat < 2 ^ 31) : Accepted eid ⟨2, ipnSsp node service⟩

/-- The setters take it as it is. -/
theorem Accepted.ofEid {eid : BpEndpointId} {e : UriSsp} (h : Accepted eid e) :
    UriSsp.ofEid eid = some e := by
  cases h with
  | dtn hscheme hssp =>
    unfold UriSsp.ofEid
    rw [hscheme, hssp]
    rfl
  | ipn hscheme hssp =>
    unfold UriSsp.ofEid
    rw [hscheme, hssp]
    simp

/-- The string `none` holds no number. -/
theorem ipnSsp_ne_noneSsp (node service : UInt32) : ipnSsp node service ≠ noneSsp := by
  intro h
  have hread := ipnNode_ipnSsp node service
  rw [h] at hread
  cases hread

/-- What comes back is the endpoint id unless it is `dtn:none`. -/
theorem Accepted.onWire_eq_iff {eid : BpEndpointId} {e : UriSsp} (h : Accepted eid e) :
    e.onWire = e ↔ eid.getSsp ≠ some noneSsp := by
  cases h with
  | @dtn ssp hscheme hssp =>
    rw [hssp, ne_eq, Option.some.injEq, onWire, if_pos rfl]
    by_cases hnone : ssp = noneSsp
    · subst hnone
      exact iff_of_false (by decide) (not_not_intro rfl)
    · rw [if_neg hnone]
      exact iff_of_true rfl hnone
  | @ipn node service hscheme hssp =>
    rw [hssp, ne_eq, Option.some.injEq, onWire, if_neg (by decide : ¬(2 : UInt16) = 1)]
    refine iff_of_true ?_ (ipnSsp_ne_noneSsp node service)
    simp

/-- **Endpoint ids survive the wire, but for `dtn:none`.**  For every endpoint id that the setters take
as it is: its bytes are decoded as it, whatever follows them and up to exactly there, if and only if
its ssp is not `none`. -/
theorem eid_survives_iff {eid : BpEndpointId} {e : UriSsp} (h : Accepted eid e) :
    UriSsp.ofEid eid = some e ∧ ∃ bytes, e.encode = some bytes ∧
      (Reads (decode []) bytes e ↔ eid.getSsp ≠ some noneSsp) := by
  obtain ⟨bytes, hencode, hlen⟩ : ∃ bytes, e.encode = some bytes ∧
      (e.uriCode = 1 → e.ssp.length < 2 ^ 64) := by
    cases h with
    | dtn _ _ _ hle => exact ⟨_, rfl, fun _ => Nat.lt_of_le_of_lt hle (by decide)⟩
    | @ipn node service =>
      obtain ⟨bytes, hbytes, -⟩ := Small.encode (e := ⟨2, ipnSsp node service⟩) (Or.inr ⟨_, _, rfl⟩)
      exact ⟨bytes, hbytes, fun hcode => absurd hcode (show ¬(2 : UInt16) = 1 by decide)⟩
  -- the bytes are those of one endpoint id only, so the round trip stands and falls with `onWire`
  have hreads := reads_decode hencode hlen
  refine ⟨h.ofEid, bytes, hencode, ?_⟩
  rw [← h.onWire_eq_iff]
  constructor
  · intro hself
    have hboth := (hreads []).symm.trans (hself [])
    exact congrArg Prod.fst (Option.some.inj hboth)
  · intro hwire
    rwa [hwire] at hreads

/-- The endpoint id `dtn:a` survives. -/
theorem eid_survives_iff_sample :
    ∃ bytes, UriSsp.encode ⟨1, [97]⟩ = some bytes ∧ Reads (decode []) bytes ⟨1, [97]⟩ := by
  have haccepted : Accepted (.ofUri (dtnScheme ++ colon :: [97])) ⟨1, [97]⟩ :=
    .dtn (by decide) (by decide) (by decide) (by decide)
  obtain ⟨-, bytes, hbytes, hiff⟩ := eid_survives_iff haccepted
  exact ⟨bytes, hbytes, hiff.mpr (by decide)⟩

/-- The endpoint id `dtn:none` is decoded as `dtn:0`. -/
theorem none_becomes_zero :
    Accepted defaultEid ⟨1, noneSsp⟩ ∧ ∃ bytes, UriSsp.encode ⟨1, noneSsp⟩ = some bytes ∧
      decode [] bytes = some (⟨1, [48]⟩, []) ∧ ¬Reads (decode []) bytes ⟨1, noneSsp⟩ := by
  refine ⟨.dtn (by decide) (by decide) (by decide) (by decide), _, rfl, by decide, fun h => ?_⟩
  exact absurd (h []) (by decide)

/-! ## Sizes -/

/-- What a setter leaves of an endpoint id whose ssp has 1 to 1023 bytes. -/
def OfSetter (e : UriSsp) : Prop :=
  (e.uriCode = 1 ∧ 1 ≤ e.ssp.length ∧ e.ssp.length ≤ 1023) ∨ ∃ node service, e = ⟨2, ipnSsp node service⟩

theorem ofSetter_ofEid {eid : BpEndpointId} {e : UriSsp} {ssp : List UInt8}
    (hset : UriSsp.ofEid eid = some e) (hssp : eid.getSsp = some ssp) (hpos : 1 ≤ ssp.length)
    (hle : ssp.length ≤ 1023) : e.OfSetter := by
  rcases UriSsp.ofEid_cases hset hssp with rfl | hipn
  · exact Or.inl ⟨rfl, hpos, hle⟩
  · exact Or.inr hipn

/-- A string ssp has at most 251 bytes. -/
def Describable (e : UriSsp) : Prop := e.uriCode = 1 → e.ssp.length ≤ 251

instance (e : UriSsp) : Decidable e.Describable := inferInstanceAs (Decidable (_ → _))

/-- An endpoint id takes less than 256 bytes exactly when it is describable. -/
theorem OfSetter.encode {e : UriSsp} (h : e.OfSetter) :
    ∃ bytes, e.encode = some bytes ∧ bytes.length < 2 ^ 11 ∧ (bytes.length < 2 ^ 8 ↔ e.Describable) := by
  rcases h with ⟨hcode, hpos, hle⟩ | ⟨node, service, rfl⟩
  · unfold UriSsp.encode Describable
    rw [if_pos hcode]
    have hpair : (encodeArraySize 2 ++ encodeInteger 1).length = 2 := by decide
    refine ⟨_, rfl, ?_⟩
    rw [List.length_append, hpair]
    by_cases hnone : e.ssp = noneSsp
    · have hfour : e.ssp.length = 4 := by rw [hnone]; rfl
      have hzero : (encodeInteger 0).length = 1 := by decide
      rw [if_pos hnone, hzero, hfour]
      exact ⟨by decide, iff_of_true (by decide) fun _ => by decide⟩
    · rw [if_neg hnone, encodeBytes, List.length_append, length_encodeTagAndValue]
      simp only [hcode, true_implies]
      unfold Cbor.length
      split_ifs <;> omega
  · obtain ⟨bytes, hbytes, hlt⟩ := Small.encode (e := ⟨2, ipnSsp node service⟩) (Or.inr ⟨_, _, rfl⟩)
    refine ⟨bytes, hbytes, Nat.lt_trans hlt (by decide), iff_of_true hlt fun hcode => ?_⟩
    exact absurd hcode (show ¬(2 : UInt16) = 1 by decide)

end UriSsp

/-- The size that is reported of three endpoint ids and the rest of a header. -/
theorem toNat_size {items dst src report : ℕ} (hitems : items < 2 ^ 11) {a b : ℕ} (hab : a + b = items) :
    (UInt32.ofNat a + (UInt8.ofNat dst).toUInt32 + (UInt8.ofNat src).toUInt32 +
      (UInt8.ofNat report).toUInt32 + UInt32.ofNat b).toNat =
      items + dst % 2 ^ 8 + src % 2 ^ 8 + report % 2 ^ 8 := by
  have hbyte : ∀ n : ℕ, (UInt8.ofNat n).toUInt32.toNat = n % 2 ^ 8 := by
    intro n
    rw [UInt8.toNat_toUInt32, UInt8.toNat_ofNat']
  have hword : ∀ n ≤ items, (UInt32.ofNat n).toNat = n :=
    fun n hn => UInt32.toNat_ofNat_of_lt' (Nat.lt_trans (Nat.lt_of_le_of_lt hn hitems) (by decide))
  simp only [UInt32.toNat_add, hbyte, hword a (by omega), hword b (by omega)]
  omega

namespace BpHeader7
variable {h : BpHeader7}

/-- The three endpoint ids of a header. -/
def eids (h : BpHeader7) : List UriSsp := [h.dst, h.src, h.report]

theorem size_eq_length_iff (heids : ∀ e ∈ h.eids, e.OfSetter) :
    ∃ size bytes, h.serializeAndGetSize = some (size, bytes) ∧
      (size.toNat = bytes.length ↔ ∀ e ∈ h.eids, e.Describable) := by
  obtain ⟨dst, hdst, hdstLt, hdstIff⟩ := (heids h.dst (by simp [eids])).encode
  obtain ⟨src, hsrc, hsrcLt, hsrcIff⟩ := (heids h.src (by simp [eids])).encode
  obtain ⟨report, hreport, hreportLt, hreportIff⟩ := (heids h.report (by simp [eids])).encode
  have hitems := h.length_items_le
  refine ⟨UInt32.ofNat h.leadingItems.length + (UInt8.ofNat dst.length).toUInt32 +
    (UInt8.ofNat src.length).toUInt32 + (UInt8.ofNat report.length).toUInt32 +
    UInt32.ofNat h.trailingItems.length, h.leadingItems ++ dst ++ src ++ report ++ h.trailingItems,
    ?_, ?_⟩
  · unfold serializeAndGetSize
    rw [hdst, hsrc, hreport]
    rfl
  · have hall : (∀ e ∈ h.eids, e.Describable) ↔
        dst.length < 2 ^ 8 ∧ src.length < 2 ^ 8 ∧ report.length < 2 ^ 8 := by
      simp only [eids, List.forall_mem_cons, List.not_mem_nil, false_implies, implies_true, and_true,
        hdstIff, hsrcIff, hreportIff]
    have hitems : h.leadingItems.length + h.trailingItems.length < 2 ^ 11 := by omega
    rw [toNat_size hitems rfl, hall]
    simp only [List.length_append]
    omega

/-- The bundle is laid out when its header has the size that is reserved for it. -/
theorem encode_eq_some_iff {b : Bundle7} {size : UInt32} {bytes : List UInt8}
    (hser : b.primaryHeader.serializeAndGetSize = some (size, bytes))
    (hrange : b.primaryHeader.fragOffset.toNat + b.primaryHeader.blockLength.toNat ≤ b.adu.size) :
    b.encode = some (0x9f :: (bytes ++ b.payloadHeader.serializeAndGetSize.2 ++
      encodeBytes b.payload ++ [0xff])) ↔ size.toNat = bytes.length := by
  rw [Bundle7.encode_eq_ite hser hrange]
  by_cases hsize : size.toNat = bytes.length
  · rw [if_pos hsize]
    exact iff_of_true rfl hsize
  · rw [if_neg hsize]
    exact iff_of_false (Option.some_ne_none _).symm hsize

/-- **The size of a header is the number of its bytes exactly when its string ssps have at most 251
bytes each.**  Then, and only then, `SerializeBundle` lays out the two headers and the payload behind
one another, whatever the payload block and the ADU are. -/
theorem serializedSize_iff (heids : ∀ e ∈ h.eids, e.OfSetter) :
    ∃ size bytes, h.serializeAndGetSize = some (size, bytes) ∧
      (size.toNat = bytes.length ↔ ∀ e ∈ h.eids, e.Describable) ∧
      ∀ (payloadHeader : BpBlockHeader7) (adu : Packet),
        h.fragOffset.toNat + h.blockLength.toNat ≤ adu.size →
        (Bundle7.encode ⟨h, payloadHeader, adu⟩ = some (0x9f :: (bytes ++
            payloadHeader.serializeAndGetSize.2 ++
            encodeBytes (Bundle7.payload ⟨h, payloadHeader, adu⟩) ++ [0xff])) ↔
          ∀ e ∈ h.eids, e.Describable) := by
  obtain ⟨size, bytes, hser, hsize⟩ := size_eq_length_iff heids
  refine ⟨size, bytes, hser, hsize, fun payloadHeader adu hrange => ?_⟩
  exact (encode_eq_some_iff (b := ⟨h, payloadHeader, adu⟩) hser hrange).trans hsize

/-- A header from and to `dtn:a`. -/
def sample (ssp : List UInt8) : BpHeader7 :=
  { new with dst := ⟨1, ssp⟩, src := ⟨1, [97]⟩, report := ⟨1, [97]⟩ }

theorem serializedSize_iff_sample :
    ∃ size bytes, (sample [97]).serializeAndGetSize = some (size, bytes) ∧ size.toNat = bytes.length := by
  obtain ⟨size, bytes, hser, hiff, -⟩ := serializedSize_iff (h := sample [97]) (by
    intro e he
    obtain rfl : e = ⟨1, [97]⟩ := by simpa [eids, sample] using he
    exact Or.inl ⟨rfl, by decide, by decide⟩)
  refine ⟨size, bytes, hser, hiff.mpr fun e he => ?_⟩
  obtain rfl : e = ⟨1, [97]⟩ := by simpa [eids, sample] using he
  decide

/-- With a destination of 252 bytes the size is 256 bytes short. -/
theorem size_short :
    (∀ e ∈ (sample (List.replicate 252 97)).eids, e.OfSetter) ∧
      ∃ size bytes, (sample (List.replicate 252 97)).serializeAndGetSize = some (size, bytes) ∧
        size.toNat + 256 = bytes.length := by
  have hsetter : ∀ e ∈ (sample (List.replicate 252 97)).eids, e.OfSetter := by
    intro e he
    simp only [eids, sample, List.mem_cons, List.not_mem_nil, or_false] at he
    rcases he with rfl | rfl | rfl
    · refine Or.inl ⟨rfl, ?_⟩
      rw [List.length_replicate]
      omega
    · exact Or.inl ⟨rfl, by decide, by decide⟩
    · exact Or.inl ⟨rfl, by decide, by decide⟩
  obtain ⟨⟨size, bytes⟩, hser, htest⟩ := (Option.any_eq_true
    (fun r : UInt32 × List UInt8 => decide (r.1.toNat + 256 = r.2.length)) _).mp
    (by decide +kernel : (sample (List.replicate 252 97)).serializeAndGetSize.any _ = true)
  exact ⟨hsetter, size, bytes, hser, of_decide_eq_true htest⟩

end BpHeader7
end BundleProtocol
