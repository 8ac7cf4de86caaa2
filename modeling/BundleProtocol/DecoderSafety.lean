import BundleProtocol.CheckedDecoder
import BundleProtocol.Header7

/-! # What is undefined in decoding a version 7 header

`BpHeader7::Deserialize` item by item, with what the items leave undefined.  It is `deserialize` as far
as nothing undefined happens (`deserialize_of_run`), and it is safe on every input but those that break
its decoder (`safeOn_iff`): where `DecodeEID` looks for the next byte behind the end, where an ssp has
a length of more than 63 bits, or where a number has more bytes than its field.
-/
namespace Cbor.Decoder
variable {α β : Type}

/-- `decodeUnsigned` into an integer of `width` bits. -/
def unsigned (width : ℕ) : Decoder ℕ := .number unsignedInteger width .done

/-- `decodeArraySize`. -/
def arraySize : Decoder ℕ := .number array 64 .done

/-- `decodeBytes`. -/
def bytes : Decoder (List UInt8) := .string .done

/-- `*pos`. -/
def next : Decoder UInt8 := .peek .done

theorem plain_unsigned {width : ℕ} (h : Standard width) : (unsigned width).Plain :=
  .number h fun v => .done v

theorem plain_arraySize : arraySize.Plain := .number (Or.inr rfl) fun v => .done v

theorem plain_bytes : bytes.Plain := .string fun s => .done s

theorem plain_next : next.Plain := .peek fun b => .done b

theorem parser_bind (d : Decoder α) (f : α → Decoder β) :
    (d >>= f).parser = d.parser >>= fun a => (f a).parser := by
  induction d with
  | done a => exact (pure_bind a fun a => (f a).parser).symm
  | number tag width next ih =>
    show (decodeTagged tag width >>= fun v => (next v >>= f).parser) =
      (decodeTagged tag width >>= fun v => (next v).parser) >>= fun a => (f a).parser
    rw [bind_assoc]
    exact congrArg (decodeTagged tag width >>= ·) (funext ih)
  | string next ih =>
    show (decodeBytes >>= fun s => (next s >>= f).parser) =
      (decodeBytes >>= fun s => (next s).parser) >>= fun a => (f a).parser
    rw [bind_assoc]
    exact congrArg (decodeBytes >>= ·) (funext ih)
  | peek next ih =>
    show (ByteParser.peekU8 >>= fun b => (next b >>= f).parser) =
      (ByteParser.peekU8 >>= fun b => (next b).parser) >>= fun a => (f a).parser
    rw [bind_assoc]
    exact congrArg (ByteParser.peekU8 >>= ·) (funext ih)

theorem parser_ite (p : Prop) [Decidable p] (d e : Decoder α) :
    (if p then d else e).parser = if p then d.parser else e.parser := by
  split <;> rfl

theorem parser_pure (a : α) : (pure a : Decoder α).parser = pure a := rfl

theorem parser_unsigned (width : ℕ) : (unsigned width).parser = decodeUnsigned width :=
  bind_pure (decodeTagged unsignedInteger width)

theorem parser_arraySize : arraySize.parser = decodeArraySize := bind_pure (decodeTagged array 64)

theorem parser_bytes : bytes.parser = decodeBytes := bind_pure decodeBytes

theorem parser_next : next.parser = ByteParser.peekU8 := bind_pure ByteParser.peekU8

end Cbor.Decoder

namespace BundleProtocol
open Cbor Decoder BpEndpointId

/-- `BpHeader7::DecodeEID`, checked. -/
def UriSsp.decoder (ssp : List UInt8) : Decoder UriSsp := do
  let _ ← arraySize
  let uri ← unsigned 16
  if uri = 2 then
    let _ ← arraySize
    let node ← unsigned 32
    let service ← unsigned 32
    pure ⟨UInt16.ofNat uri, ipnSsp (UInt32.ofNat node) (UInt32.ofNat service)⟩
  else
    let octet ← next
    if octet = 0 then
      let tempNumeric ← unsigned 64
      pure ⟨UInt16.ofNat uri, printDecimal (UInt32.ofNat tempNumeric)⟩
    else
      let string ← bytes
      pure ⟨UInt16.ofNat uri, ssp ++ string⟩

namespace BpHeader7

/-- The end of `BpHeader7::Deserialize`, checked. -/
def fragmentDecoder (h : BpHeader7) (dataSize : ℕ) : Decoder BpHeader7 :=
  if 8 < dataSize then do
    let fragOffset ← unsigned 32
    let aduLength ← unsigned 32
    pure { h with fragOffset := UInt32.ofNat fragOffset, aduLength := UInt32.ofNat aduLength }
  else pure h

/-- `BpHeader7::Deserialize`, checked. -/
def decoder (h : BpHeader7) : Decoder BpHeader7 := do
  let dataSize ← arraySize
  let version ← unsigned 8
  let processingFlags ← unsigned 32
  let _ ← unsigned 64
  let dst ← UriSsp.decoder h.dst.ssp
  let src ← UriSsp.decoder h.src.ssp
  let report ← UriSsp.decoder h.report.ssp
  let _ ← arraySize
  let createTimestamp ← unsigned 32
  let seqNum ← unsigned 32
  let msLifeTime ← unsigned 32
  let h := { h with
    version := UInt8.ofNat version
    processingFlags := UInt32.ofNat processingFlags
    createTimestamp := UInt32.ofNat createTimestamp
    timestampSeqNum := UInt32.ofNat seqNum
    lifeTime := milliSeconds msLifeTime
    dst := dst
    src := src
    report := report }
  h.fragmentDecoder dataSize

end BpHeader7

theorem UriSsp.parser_decoder (ssp : List UInt8) : (UriSsp.decoder ssp).parser = UriSsp.decode ssp := by
  unfold UriSsp.decoder UriSsp.decode
  simp only [parser_bind, parser_arraySize, parser_unsigned, parser_ite, parser_pure, parser_next,
    parser_bytes]

theorem UriSsp.plain_decoder (ssp : List UInt8) : (UriSsp.decoder ssp).Plain := by
  unfold UriSsp.decoder
  refine plain_arraySize.bind fun _ => (plain_unsigned (Or.inl (by decide))).bind fun uri => ?_
  split
  · refine plain_arraySize.bind fun _ => (plain_unsigned (Or.inl (by decide))).bind fun node => ?_
    exact (plain_unsigned (Or.inl (by decide))).bind fun service => .done _
  · refine plain_next.bind fun octet => ?_
    split
    · exact (plain_unsigned (Or.inr rfl)).bind fun tempNumeric => .done _
    · exact plain_bytes.bind fun string => .done _

namespace BpHeader7

theorem plain_decoder (h : BpHeader7) : h.decoder.Plain := by
  have hword : (unsigned 32).Plain := plain_unsigned (Or.inl (by decide))
  unfold decoder
  refine plain_arraySize.bind fun dataSize => ?_
  refine (plain_unsigned (Or.inl (by decide))).bind fun version => hword.bind fun processingFlags => ?_
  refine (plain_unsigned (Or.inr rfl)).bind fun _ => ?_
  refine (UriSsp.plain_decoder _).bind fun dst => (UriSsp.plain_decoder _).bind fun src => ?_
  refine (UriSsp.plain_decoder _).bind fun report => plain_arraySize.bind fun _ => ?_
  refine hword.bind fun createTimestamp => hword.bind fun seqNum => hword.bind fun msLifeTime => ?_
  unfold fragmentDecoder
  split
  · exact hword.bind fun fragOffset => hword.bind fun aduLength => .done _
  · exact .done _

theorem parser_fragmentDecoder (h : BpHeader7) (dataSize : ℕ) :
    (h.fragmentDecoder dataSize).parser = h.deserializeFragment dataSize := by
  unfold fragmentDecoder deserializeFragment
  simp only [parser_bind, parser_unsigned, parser_ite, parser_pure]

theorem parser_decoder (h : BpHeader7) : h.decoder.parser = h.deserialize := by
  unfold decoder deserialize
  simp only [parser_bind, parser_arraySize, parser_unsigned, UriSsp.parser_decoder,
    parser_fragmentDecoder]

/-- **Checked decoding is decoding**, as far as nothing undefined happens. -/
theorem deserialize_of_run (h : BpHeader7) (bytes : List UInt8) :
    (∀ h' n rest, h.decoder.run bytes = .ok h' n rest → h.deserialize bytes = some (h', rest)) ∧
      (h.decoder.run bytes = .thrown → h.deserialize bytes = none) := by
  rw [← parser_decoder]
  exact parser_of_run (plain_decoder h)

/-- `Deserialize` returns a length that is not larger than the input, or throws. -/
def SafeOn (h : BpHeader7) (bytes : List UInt8) : Prop :=
  match h.decoder.run bytes with
  | .ok _ length _ => (UInt32.ofNat length).toNat ≤ bytes.length
  | .thrown => True
  | .fault => False

/-- **The decoder is safe on every input that does not break it.** -/
theorem safeOn_iff (h : BpHeader7) (bytes : List UInt8) : h.SafeOn bytes ↔ ¬h.decoder.Breaks bytes := by
  rw [← run_eq_fault_iff]
  unfold SafeOn
  cases hrun : h.decoder.run bytes with
  | ok h' length rest =>
    have hlength := length_of_run hrun
    refine iff_of_true ?_ (fun hfault => ?_)
    · -- the length is returned in 32 bits, which only makes it smaller
      show (UInt32.ofNat length).toNat ≤ bytes.length
      rw [UInt32.toNat_ofNat']
      exact (Nat.mod_le _ _).trans (by omega)
    · cases hfault
  | thrown =>
    refine iff_of_true trivial (fun hfault => ?_)
    cases hfault
  | fault => exact iff_of_false id (not_not_intro rfl)

/-- A header that ends behind the first scheme code, where `DecodeEID` looks at the next byte. -/
def truncated : List UInt8 := [0x88, 0x07, 0x00, 0x00, 0x82, 0x01]

theorem not_safeOn_truncated : ¬new.SafeOn truncated := by
  have hrun : new.decoder.run truncated = .fault := rfl
  unfold SafeOn
  rw [hrun]
  exact id

end BpHeader7
end BundleProtocol
