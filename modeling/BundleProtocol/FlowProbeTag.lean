import BundleProtocol.EidParts
import BundleProtocol.FixedBuffer

/-! # The tag of the flow probe

`BpFlowProbeTag` carries three numbers and the two endpoint ids of a packet, these as URIs with their
sizes in front.  `Deserialize` copies each URI into a buffer of 1024 bytes, whatever its size, and reads
it from there as a C string.  The scheme and the ssp of an endpoint id may have 1023 bytes each, so that
a URI can be twice as long as the buffer: a tag comes back exactly when both URIs are shorter than it
(`roundTrips_iff`).  How ns-3 lays out 32-bit numbers is a parameter.
-/
namespace BundleProtocol
open ByteParser FixedBuffer BpEndpointId

/-- How `TagBuffer` writes and reads 32-bit numbers. -/
structure TagBuffer where
  writeU32 : UInt32 → List UInt8
  readU32 : Parser UInt32
  length_writeU32 : ∀ n, (writeU32 n).length = 4
  reads_readU32 : ∀ n, Reads readU32 (writeU32 n) n

/-- `BpFlowProbeTag`. -/
structure BpFlowProbeTag where
  flowId : UInt32
  packetId : UInt32
  packetSize : UInt32
  src : BpEndpointId
  dst : BpEndpointId

namespace BpFlowProbeTag

/-- `sizeof strbuf`. -/
def strbufSize : ℕ := 1024

/-- `BpFlowProbeTag::GetSerializedSize`. -/
def getSerializedSize (t : BpFlowProbeTag) : UInt32 :=
  UInt32.ofNat (4 + 4 + 4 + 4 + t.src.uri.length + 4 + t.dst.uri.length)

variable (buffer : TagBuffer)

/-- The size of a URI, and its bytes. -/
def writeUri (uri : List UInt8) : List UInt8 := buffer.writeU32 (UInt32.ofNat uri.length) ++ uri

/-- `BpFlowProbeTag::Serialize`. -/
def serialize (t : BpFlowProbeTag) : List UInt8 :=
  buffer.writeU32 t.flowId ++ (buffer.writeU32 t.packetId ++ (buffer.writeU32 t.packetSize ++
    (writeUri buffer t.src.uri ++ writeUri buffer t.dst.uri)))

/-- A size, and an endpoint id made of what `strbuf` holds of that many bytes. -/
def readEid : CheckedParser BpEndpointId := do
  let sz ← checked buffer.readU32
  let str ← readCString strbufSize sz.toNat
  pure (ofUri str)

/-- `BpFlowProbeTag::Deserialize`. -/
def deserialize : CheckedParser BpFlowProbeTag := do
  let flowId ← checked buffer.readU32
  let packetId ← checked buffer.readU32
  let packetSize ← checked buffer.readU32
  let src ← readEid buffer
  let dst ← readEid buffer
  pure ⟨flowId, packetId, packetSize, src, dst⟩

variable {buffer} {uri : List UInt8} {e : Fault} {t : BpFlowProbeTag}

theorem takes_readU32 (n : UInt32) : Takes (checked buffer.readU32) (buffer.writeU32 n) n :=
  takes_checked (buffer.reads_readU32 n)

/-! ## One endpoint id -/

theorem toNat_size (h : uri.length < 2 ^ 32) : (UInt32.ofNat uri.length).toNat = uri.length := by
  rw [UInt32.toNat_ofNat', Nat.mod_eq_of_lt h]

theorem takes_readEid (hnul : 0 ∉ uri) (h : uri.length < strbufSize) :
    Takes (readEid buffer) (writeUri buffer uri) (ofUri uri) := by
  refine (takes_readU32 _).bind ?_
  rw [toNat_size (Nat.lt_trans h (by decide))]
  exact (takes_readCString hnul h).bind_nil (Takes.pure _)

/-- What goes wrong with a URI that is not shorter than the buffer. -/
def faultOf (uri : List UInt8) : Fault := if uri.length = strbufSize then .unterminated else .overflow

theorem faults_readEid (hnul : 0 ∉ uri) (h : strbufSize ≤ uri.length) (hsize : uri.length < 2 ^ 32) :
    Faults (readEid buffer) (writeUri buffer uri) (faultOf uri) := by
  refine (takes_readU32 _).bind_faults ?_
  rw [toNat_size hsize]
  refine Faults.bind ?_
  unfold faultOf
  split
  · rename_i hfull
    exact faults_of_full hnul hfull
  · exact faults_of_long (by omega)

/-! ## The whole tag -/

/-- `Serialize` writes as many bytes as `GetSerializedSize` says. -/
theorem length_serialize (hsize : t.src.uri.length + t.dst.uri.length < 2 ^ 32 - 20) :
    (t.serialize buffer).length = t.getSerializedSize.toNat := by
  rw [getSerializedSize, UInt32.toNat_ofNat', Nat.mod_eq_of_lt (by omega)]
  simp only [serialize, writeUri, List.length_append, buffer.length_writeU32]
  omega

/-- What `Deserialize` makes of a tag. -/
def restored (t : BpFlowProbeTag) : BpFlowProbeTag :=
  { t with src := ofUri t.src.uri, dst := ofUri t.dst.uri }

theorem takes_deserialize (buffer : TagBuffer) (hsrc : 0 ∉ t.src.uri) (hdst : 0 ∉ t.dst.uri)
    (hsrcSize : t.src.uri.length < strbufSize) (hdstSize : t.dst.uri.length < strbufSize) :
    Takes (deserialize buffer) (t.serialize buffer) t.restored := by
  refine (takes_readU32 _).bind ?_
  refine (takes_readU32 _).bind ?_
  refine (takes_readU32 _).bind ?_
  refine (takes_readEid hsrc hsrcSize).bind ?_
  exact (takes_readEid hdst hdstSize).bind_nil (Takes.pure _)

/-- The first URI that is not shorter than `strbuf` is the end of it. -/
theorem faults_deserialize (buffer : TagBuffer) (hsrc : 0 ∉ t.src.uri) (hdst : 0 ∉ t.dst.uri)
    (hsrcSize : t.src.uri.length < 2 ^ 32) (hdstSize : t.dst.uri.length < 2 ^ 32)
    (hlong : strbufSize ≤ t.src.uri.length ∨ strbufSize ≤ t.dst.uri.length) :
    Faults (deserialize buffer) (t.serialize buffer)
      (faultOf (if strbufSize ≤ t.src.uri.length then t.src.uri else t.dst.uri)) := by
  refine (takes_readU32 _).bind_faults ?_
  refine (takes_readU32 _).bind_faults ?_
  refine (takes_readU32 _).bind_faults ?_
  split
  · rename_i hle
    exact ((faults_readEid hsrc hle hsrcSize).append _).bind
  · rename_i hlt
    refine (takes_readEid hsrc (Nat.not_le.mp hlt)).bind_faults ?_
    exact (faults_readEid hdst (hlong.resolve_left hlt) hdstSize).bind

/-! ## Round trips -/

/-- An endpoint id made of these parts by either constructor: each has 1 to 1023 bytes, none of them
NUL. -/
structure BuiltFrom (eid : BpEndpointId) (scheme ssp : List UInt8) : Prop where
  scheme_pos : 1 ≤ scheme.length
  scheme_le : scheme.length ≤ 1023
  scheme_nul : 0 ∉ scheme
  ssp_pos : 1 ≤ ssp.length
  ssp_le : ssp.length ≤ 1023
  ssp_nul : 0 ∉ ssp
  eid_eq : eid = ofComponents scheme ssp ∨ eid = ofUri (scheme ++ colon :: ssp)

variable {eid : BpEndpointId} {scheme ssp scheme' ssp' : List UInt8}

theorem BuiltFrom.uri_eq (h : BuiltFrom eid scheme ssp) : eid.uri = scheme ++ colon :: ssp := by
  rcases h.eid_eq with rfl | rfl
  · exact uri_ofComponents scheme ssp
  · exact uri_ofUri _

theorem BuiltFrom.nul (h : BuiltFrom eid scheme ssp) : 0 ∉ eid.uri := by
  rw [h.uri_eq]
  intro hmem
  rcases List.mem_append.mp hmem with hmem | hmem
  · exact h.scheme_nul hmem
  · rcases List.mem_cons.mp hmem with hmem | hmem
    · exact absurd hmem (by decide)
    · exact h.ssp_nul hmem

theorem BuiltFrom.length_uri (h : BuiltFrom eid scheme ssp) :
    eid.uri.length = scheme.length + ssp.length + 1 := by
  rw [h.uri_eq, List.length_append, List.length_cons]
  rfl

theorem BuiltFrom.length_uri_lt (h : BuiltFrom eid scheme ssp) : eid.uri.length < 2 ^ 32 := by
  have hscheme := h.scheme_le
  have hssp := h.ssp_le
  rw [h.length_uri]
  omega

/-- An endpoint id made from the URI shows the same parts, unless the scheme has a colon in it. -/
theorem BuiltFrom.parts_ofUri (h : BuiltFrom eid scheme ssp) (hcolon : colon ∉ scheme) :
    (ofUri eid.uri).getScheme = eid.getScheme ∧ (ofUri eid.uri).getSsp = eid.getSsp := by
  have hformed : Formed scheme ssp :=
    ⟨List.ne_nil_of_length_pos h.scheme_pos, List.ne_nil_of_length_pos h.ssp_pos, h.scheme_le,
      h.ssp_le, hcolon⟩
  rw [h.uri_eq]
  rcases h.eid_eq with rfl | rfl
  · obtain ⟨hscheme, hssp⟩ := hformed.parts_ofUri
    obtain ⟨hscheme', hssp'⟩ := hformed.parts_ofComponents
    exact ⟨hscheme.trans hscheme'.symm, hssp.trans hssp'.symm⟩
  · exact ⟨rfl, rfl⟩

/-- The five fields are equal, those of class `BpEndpointId` by its `operator ==`. -/
structure SameFields (r t : BpFlowProbeTag) : Prop where
  flowId : r.flowId = t.flowId
  packetId : r.packetId = t.packetId
  packetSize : r.packetSize = t.packetSize
  src : (r.src == t.src) = true
  dst : (r.dst == t.dst) = true

theorem sameFields_restored (t : BpFlowProbeTag) : SameFields t.restored t :=
  ⟨rfl, rfl, rfl, beq_iff.mpr rfl, beq_iff.mpr rfl⟩

/-- `Serialize` writes `GetSerializedSize` bytes, and `Deserialize` ends with no fault and with the
fields that were written. -/
def RoundTrips (buffer : TagBuffer) (t : BpFlowProbeTag) : Prop :=
  (t.serialize buffer).length = t.getSerializedSize.toNat ∧
    ∃ r, deserialize buffer (t.serialize buffer) = .ok (r, []) ∧ SameFields r t

/-- A tag with a longer URI does not come back. -/
theorem deserialize_eq_error (buffer : TagBuffer) (hsrc : BuiltFrom t.src scheme ssp)
    (hdst : BuiltFrom t.dst scheme' ssp')
    (hlong : strbufSize ≤ t.src.uri.length ∨ strbufSize ≤ t.dst.uri.length) :
    deserialize buffer (t.serialize buffer) =
      .error (faultOf (if strbufSize ≤ t.src.uri.length then t.src.uri else t.dst.uri)) := by
  have hfault := faults_deserialize buffer hsrc.nul hdst.nul hsrc.length_uri_lt hdst.length_uri_lt
    hlong []
  rwa [List.append_nil] at hfault

/-- **A tag comes back exactly when both of its URIs leave room for a terminator in `strbuf`**: when the
scheme and the ssp have at most 1022 bytes together.  An endpoint id whose scheme has no colon then shows
the same parts. -/
theorem roundTrips_iff (hsrc : BuiltFrom t.src scheme ssp) (hdst : BuiltFrom t.dst scheme' ssp') :
    (RoundTrips buffer t ↔
      scheme.length + ssp.length ≤ 1022 ∧ scheme'.length + ssp'.length ≤ 1022) ∧
    ∀ r rest, deserialize buffer (t.serialize buffer) = .ok (r, rest) →
      (colon ∉ scheme → r.src.getScheme = t.src.getScheme ∧ r.src.getSsp = t.src.getSsp) ∧
      (colon ∉ scheme' → r.dst.getScheme = t.dst.getScheme ∧ r.dst.getSsp = t.dst.getSsp) := by
  have hsrcLength := hsrc.length_uri
  have hdstLength := hdst.length_uri
  by_cases hfit : t.src.uri.length < strbufSize ∧ t.dst.uri.length < strbufSize
  · have htake := takes_deserialize buffer hsrc.nul hdst.nul hfit.1 hfit.2 []
    rw [List.append_nil] at htake
    unfold strbufSize at hfit
    refine ⟨iff_of_true ⟨length_serialize (by omega), t.restored, htake, sameFields_restored t⟩
      (by omega), ?_⟩
    intro r rest hr
    rw [htake] at hr
    cases hr
    exact ⟨hsrc.parts_ofUri, hdst.parts_ofUri⟩
  · have herror := deserialize_eq_error buffer hsrc hdst (by omega)
    unfold strbufSize at hfit
    refine ⟨iff_of_false ?_ (by omega), ?_⟩
    · rintro ⟨-, r, hr, -⟩
      rw [herror] at hr
      cases hr
    · intro r rest hr
      rw [herror] at hr
      cases hr

/-- Numbers from the least significant byte on. -/
def littleEndian : TagBuffer where
  writeU32 n := [UInt8.ofNat n.toNat, UInt8.ofNat (n.toNat / 2 ^ 8), UInt8.ofNat (n.toNat / 2 ^ 16),
    UInt8.ofNat (n.toNat / 2 ^ 24)]
  readU32
    | a :: b :: c :: d :: rest =>
      some (UInt32.ofNat (a.toNat + b.toNat * 2 ^ 8 + c.toNat * 2 ^ 16 + d.toNat * 2 ^ 24), rest)
    | _ => none
  length_writeU32 _ := rfl
  reads_readU32 := by
    intro n rest
    have hlt := n.toNat_lt
    simp only [List.cons_append, List.nil_append, UInt8.toNat_ofNat', Option.some.injEq, Prod.mk.injEq,
      and_true]
    rw [← UInt32.toNat_inj, UInt32.toNat_ofNat']
    omega

/-- A tag from `d:a` to the endpoint id with the scheme `d` and an ssp of `n` characters `b`. -/
def sample (n : ℕ) : BpFlowProbeTag where
  flowId := 1
  packetId := 0
  packetSize := 3
  src := ofComponents [100] [97]
  dst := ofComponents [100] (List.replicate n 98)

theorem builtFrom_sample {n : ℕ} (hpos : 1 ≤ n) (hle : n ≤ 1023) :
    BuiltFrom (sample n).src [100] [97] ∧
      BuiltFrom (sample n).dst [100] (List.replicate n 98) := by
  refine ⟨⟨by decide, by decide, by decide, by decide, by decide, by decide, Or.inl rfl⟩,
    ⟨by decide, by decide, by decide, ?_, ?_, ?_, Or.inl rfl⟩⟩
  · rwa [List.length_replicate]
  · rwa [List.length_replicate]
  · intro hmem
    exact absurd (List.eq_of_mem_replicate hmem) (by decide)

theorem roundTrips_short : RoundTrips littleEndian (sample 4) := by
  have h := builtFrom_sample (n := 4) (by decide) (by decide)
  exact (roundTrips_iff h.1 h.2).1.mpr (by decide)

/-- An ssp of the largest size that `ParseComponent` keeps makes a URI that `strbuf` does not hold. -/
theorem overflow_long : BuiltFrom (sample 1023).src [100] [97] ∧
    BuiltFrom (sample 1023).dst [100] (List.replicate 1023 98) ∧
    deserialize littleEndian ((sample 1023).serialize littleEndian) = .error .overflow ∧
    ¬RoundTrips littleEndian (sample 1023) := by
  obtain ⟨hsrc, hdst⟩ := builtFrom_sample (n := 1023) (by decide) (by decide)
  have hsrcLength : (sample 1023).src.uri.length = 3 := rfl
  have hdstLength : (sample 1023).dst.uri.length = 1025 := by
    rw [hdst.length_uri, List.length_replicate]
    rfl
  have hfault := deserialize_eq_error littleEndian hsrc hdst
    (Or.inr (by rw [hdstLength]; decide))
  rw [if_neg (by rw [hsrcLength]; decide), faultOf, if_neg (by rw [hdstLength]; decide)] at hfault
  refine ⟨hsrc, hdst, hfault, ?_⟩
  rintro ⟨-, r, hr, -⟩
  rw [hfault] at hr
  cases hr

end BpFlowProbeTag
end BundleProtocol
