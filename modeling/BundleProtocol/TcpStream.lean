import BundleProtocol.SendSockets
import BundleProtocol.Tiling

/-! # Bundles over a stream

`DataRecv` takes what one call of `RecvFrom` returns for one bundle: the two headers, and all that
follows as the payload.  The block length in the payload header is not looked at.  Over TCP a call
returns any chunk of the stream of packets, so a bundle arrives as it was sent only in a chunk
that ends where its packet ends: a shorter chunk loses bytes of the payload, a longer one gains
some.  A chunk that starts with the end of an earlier packet cannot make up for it, since the
header it starts with would hold more numbers than a header does (`BpHeader6.SpelledBy.lt`).  So
the bundles survive exactly when the chunks are the packets (`boundaries_survive_iff`).
-/
namespace BundleProtocol
open ByteParser

/-- `BpCla::DataRecv`, for the packets that `RecvFrom` returns one after another. -/
def dataRecvAll (cbhe : Bool) : List (List UInt8) → Option (List ReceivedBundle)
  | [] => some []
  | packet :: packets => do
    let b ← dataRecv cbhe packet
    let bs ← dataRecvAll cbhe packets
    some (b :: bs)

/-- The bytes sent through one socket. -/
def ClaSender.stream (s : ClaSender) (socket : SocketId) : List UInt8 :=
  (s.sent.filter fun e => e.1 = socket).flatMap fun e => e.2.bytes

/-- A bundle sent without CBHE, with headers as the constructors and setters make them: a version
below 128 (they make it six), endpoint ids that can be read, no bits beyond the seven control
flags.  Its payload block is shorter than 2²⁸ bytes. -/
structure Transmission.Plain (tx : Transmission) : Prop where
  version : Sdnv.isLast tx.header.version = true
  cbhe : tx.header.cbhe = false
  readable : tx.header.Readable
  processingControlFlags : tx.payloadHeader.processingControlFlags.toNat < 2 ^ 7
  blockLength : tx.payloadHeader.blockLength.toNat < 2 ^ 28

/-- The bundle that was handed over is the one that was sent. -/
structure Arrives (tx : Transmission) (b : ReceivedBundle) : Prop where
  header : b.header = tx.header
  payloadHeader : b.payloadHeader = tx.payloadHeader
  adu : b.adu = tx.payload

/-! ## Two headers in one string -/

/-- What every string that `Deserialize` reads as `h` has in common: it starts with the version,
and it has one last byte for each of the sixteen values, besides those in the version and the
dictionary. -/
structure BpHeader6.SpelledBy (h : BpHeader6) (bytes : List UInt8) : Prop where
  version : bytes.head? = some h.version
  lifeTime : ∃ n < 2 ^ 64, h.lifeTime = seconds n
  countP_isLast : bytes.countP Sdnv.isLast =
    [h.version].countP Sdnv.isLast + 16 + h.dictionary.countP Sdnv.isLast

namespace BpHeader6

theorem spells_deserialize (h₀ : BpHeader6) :
    Spells h₀.deserialize fun bytes h => h.SpelledBy bytes := by
  unfold deserialize
  refine spells_readU8.bind ?_
  rintro version _ rfl
  iterate 12 refine Sdnv.spells_decode.bind fun _ _ _ => ?_
  refine Sdnv.spells_decode.bind fun lifeTime _ _ => ?_
  refine Sdnv.spells_decode.bind fun _ _ _ => ?_
  refine (spells_readBytes _).bind ?_
  rintro dictionary _ ⟨rfl, -⟩
  iterate 2 refine Sdnv.spells_decode.bind fun _ _ _ => ?_
  refine Spells.pure ⟨rfl, ?_, ?_⟩
  · exact ⟨lifeTime.toNat, lifeTime.toNat_lt, rfl⟩
  · simp only [List.countP_append, List.countP_nil, *]
    clear * -
    omega

/-- **A header does not start before another one like it and end behind it**: the version it
starts with would be one last byte too many. -/
theorem SpelledBy.lt {h : BpHeader6} {left ys zs us vs : List UInt8} (hys : h.SpelledBy ys)
    (hzs : h.SpelledBy zs) (hversion : Sdnv.isLast h.version = true) (hleft : left ≠ [])
    (hbytes : left ++ zs ++ us = ys ++ vs) : ys.length < (left ++ zs).length := by
  by_contra hle
  obtain ⟨tail, rfl⟩ : left ++ zs <+: ys :=
    List.prefix_of_prefix_length_le ⟨us, hbytes⟩ ⟨vs, rfl⟩ (not_lt.mp hle)
  cases left with
  | nil => exact hleft rfl
  | cons b left =>
    have hfirst : b = h.version := Option.some.inj hys.version
    have hcount := hys.countP_isLast
    rw [List.countP_append, List.countP_append, hzs.countP_isLast, hfirst,
      List.countP_cons_of_pos hversion] at hcount
    omega

end BpHeader6

/-! ## One chunk -/

/-- What `DataRecv` takes off a chunk: the bytes of the primary header and at most six more. -/
theorem dataRecv_eq_some {cbhe : Bool} {chunk : List UInt8} {b : ReceivedBundle}
    (h : dataRecv cbhe chunk = some b) :
    ∃ ys, ys <+: chunk ∧ Reads (BpHeader6.new cbhe).deserialize ys b.header ∧
      b.header.SpelledBy ys ∧ chunk.length ≤ ys.length + (6 + b.adu.bytes.length) := by
  obtain ⟨⟨header, rest⟩, hheader, hafter⟩ := Option.bind_eq_some_iff.mp h
  obtain ⟨⟨payloadHeader, payload⟩, hremove, hbuild⟩ := Option.bind_eq_some_iff.mp hafter
  obtain ⟨adu, hadu, hresult⟩ := Option.bind_eq_some_iff.mp hbuild
  obtain ⟨_, -, hpayload⟩ := Option.bind_eq_some_iff.mp hremove
  have hdrop : payload = rest.drop 6 := (Prod.mk.inj (Option.some.inj hpayload)).2.symm
  split at hresult
  · cases hresult
    obtain ⟨ys, rfl, hreads, hspelled⟩ := BpHeader6.spells_deserialize _ _ _ _ hheader
    refine ⟨ys, List.prefix_append ys rest, hreads, hspelled, ?_⟩
    rw [Packet.bytes_of_ofBytes hadu, hdrop, List.length_append, List.length_drop]
    omega
  · cases hresult

/-- **A chunk that arrives as the bundle of a packet ends within the packet**, and at its end only
when it starts with it. -/
theorem Arrives.chunk_length {tx : Transmission} {reserved chunk : List UInt8} {p : Packet}
    {b : ReceivedBundle} (harrives : Arrives tx b) (htx : tx.Plain) (hreserved : reserved.length = 6)
    (hp : Packet.ofBytes (tx.wire reserved) = some p) (hrecv : dataRecv false chunk = some b)
    {left xs ys : List UInt8} (hstream : left ++ tx.wire reserved ++ xs = chunk ++ ys) :
    chunk.length ≤ (left ++ tx.wire reserved).length ∧
      (chunk.length = (left ++ tx.wire reserved).length → left = []) := by
  obtain ⟨bytes, ⟨rest, rfl⟩, hreads, hspelled, hlen⟩ := dataRecv_eq_some hrecv
  rw [harrives.adu] at hlen
  rw [harrives.header] at hreads hspelled
  obtain ⟨n, hn, hlife⟩ := hspelled.lifeTime
  have hwire : Reads (BpHeader6.new false).deserialize tx.header.serialize tx.header := by
    have hread := tx.header.reads_onWire (BpHeader6.new false)
      (tx.length_dictionary_lt (Packet.bytes_of_ofBytes hp))
    rw [BpHeader6.onWire_eq hlife hn] at hread
    rwa [show (BpHeader6.new false).cbhe = tx.header.cbhe from htx.cbhe.symm] at hread
  have hroom := tx.payloadHeader.length_le_length_addTo reserved tx.payload.bytes
  have hstart : left ++ tx.header.serialize ++
      (tx.payloadHeader.addTo reserved tx.payload.bytes ++ xs) = bytes ++ (rest ++ ys) := by
    simpa [Transmission.wire] using hstream
  have hpacket : (left ++ tx.wire reserved).length = (left ++ tx.header.serialize).length +
      (tx.payloadHeader.addTo reserved tx.payload.bytes).length := by
    simp [Transmission.wire, Nat.add_assoc]
  by_cases hleft : left = []
  · subst hleft
    obtain rfl := hwire.eq_of_append hreads hstart
    refine ⟨?_, fun _ => rfl⟩
    rw [hpacket, List.nil_append]
    omega
  · have hlt := hspelled.lt ((BpHeader6.spells_deserialize _).of_reads hwire) htx.version hleft hstart
    refine ⟨?_, fun hend => absurd hend ?_⟩
    · omega
    · omega

/-! ## A whole stream -/

/-- The bundles handed over are those of the chunks, one by one. -/
theorem dataRecvAll_iff {γ : Type} {Q : γ → ReceivedBundle → Prop} {cbhe : Bool} {calls : List γ}
    {chunks : List (List UInt8)} :
    (∃ bs, dataRecvAll cbhe chunks = some bs ∧ List.Forall₂ Q calls bs) ↔
      List.Forall₂ (fun c chunk => ∃ b, dataRecv cbhe chunk = some b ∧ Q c b) calls chunks := by
  constructor
  · rintro ⟨bs, hrecv, hcalls⟩
    induction hcalls generalizing chunks with
    | nil =>
      cases chunks with
      | nil => exact .nil
      | cons chunk chunks =>
        obtain ⟨_, -, hrest⟩ := Option.bind_eq_some_iff.mp hrecv
        obtain ⟨_, -, hcons⟩ := Option.bind_eq_some_iff.mp hrest
        cases hcons
    | cons hc _ ih =>
      cases chunks with
      | nil => cases hrecv
      | cons chunk chunks =>
        obtain ⟨b, hb, hrest⟩ := Option.bind_eq_some_iff.mp hrecv
        obtain ⟨bs, hbs, hcons⟩ := Option.bind_eq_some_iff.mp hrest
        cases hcons
        exact .cons ⟨_, hb, hc⟩ (ih hbs)
  · intro h
    induction h with
    | nil => exact ⟨[], rfl, .nil⟩
    | cons hc _ ih =>
      obtain ⟨b, hb, hQ⟩ := hc
      obtain ⟨bs, hbs, hall⟩ := ih
      refine ⟨_ :: bs, ?_, .cons hQ hall⟩
      rw [dataRecvAll, hb, hbs]
      rfl

namespace ClaSender
variable {t : ClaSender} {calls : List (Transmission × List UInt8)} {k : SocketId}

/-- What is sent is the packets of the calls, one after another. -/
theorem flatMap_bytes {sent : List (SocketId × Packet)} (h : List.Forall₂ (fun c e =>
    Packet.ofBytes (Transmission.wire c.1 c.2) = some e.2) calls sent) :
    (sent.flatMap fun e => e.2.bytes) = (calls.map fun c => c.1.wire c.2).flatten ∧
      ∀ c ∈ calls, ∃ p, Packet.ofBytes (c.1.wire c.2) = some p := by
  induction h with
  | nil => simp
  | cons hp _ ih =>
    refine ⟨?_, List.forall_mem_cons.mpr ⟨⟨_, hp⟩, ih.2⟩⟩
    rw [List.flatMap_cons, List.map_cons, List.flatten_cons, ih.1, Packet.bytes_of_ofBytes hp]

/-- When every call goes through one socket, its stream is their packets. -/
theorem stream_eq (hroute : ∀ c ∈ calls, c.1.dstAddress ≠ noRoute)
    (hrun : (new false).sendBundles calls = some t) (hone : ∀ e ∈ t.sent, e.1 = k) :
    t.stream k = (calls.map fun c => c.1.wire c.2).flatten ∧
      ∀ c ∈ calls, ∃ p, Packet.ofBytes (c.1.wire c.2) = some p := by
  obtain ⟨-, hconnected⟩ := (connected_new false).sendBundles hroute hrun
  have hall : t.sent.filter (fun e => e.1 = k) = t.sent :=
    List.filter_eq_self.mpr fun e he => decide_eq_true (hone e he)
  rw [stream, hall]
  exact flatMap_bytes (hconnected.sent.imp fun _ _ h => h.1)

/-- A packet that is a chunk of its own arrives, if its lifetime is a whole number of seconds. -/
theorem exists_arrives {tx : Transmission} {reserved : List UInt8} {p : Packet} (htx : tx.Plain)
    (hreserved : reserved.length = 6) (hp : Packet.ofBytes (tx.wire reserved) = some p) {n : ℕ}
    (hn : n < 2 ^ 64) (hlife : tx.header.lifeTime = seconds n) :
    ∃ b, dataRecv false (tx.wire reserved) = some b ∧ Arrives tx b := by
  have hdict := tx.length_dictionary_lt (Packet.bytes_of_ofBytes hp)
  have hfit : tx.payloadHeader.serialize.length ≤ 6 :=
    BpBlockHeader6.length_serialize_le htx.processingControlFlags htx.blockLength
  exact ⟨_, dataRecv_wire htx.cbhe hlife hn hdict htx.readable hfit hreserved, rfl, rfl, rfl⟩

/-- **Bundles survive a stream exactly when it is cut at their packets.**  Whatever chunks the
stream of one connection is cut into, the bundles handed over on the other side are those sent, one
by one and in order, if and only if each chunk is one packet and the lifetimes are whole seconds. -/
theorem boundaries_survive_iff {chunks : List (List UInt8)}
    (hcalls : ∀ c ∈ calls, c.1.Plain ∧ c.2.length = 6 ∧ c.1.dstAddress ≠ noRoute)
    (hrun : (new false).sendBundles calls = some t) (hone : ∀ e ∈ t.sent, e.1 = k)
    (hstream : chunks.flatten = t.stream k) :
    (∃ bs, dataRecvAll false chunks = some bs ∧
      List.Forall₂ (fun c b => Arrives c.1 b) calls bs) ↔
      chunks = (calls.map fun c => c.1.wire c.2) ∧
        ∀ c ∈ calls, ∃ n < 2 ^ 64, c.1.header.lifeTime = seconds n := by
  obtain ⟨hflatten, hpackets⟩ := stream_eq (fun c hc => (hcalls c hc).2.2) hrun hone
  rw [dataRecvAll_iff]
  constructor
  · intro h
    have hrel : List.Forall₂ (fun packet chunk => ∃ c ∈ calls, packet = c.1.wire c.2 ∧
        ∃ b, dataRecv false chunk = some b ∧ Arrives c.1 b)
        (calls.map fun c => c.1.wire c.2) chunks := by
      have hmem := (List.forall₂_and_left calls chunks).mpr ⟨fun c hc => hc, h⟩
      exact List.forall₂_map_left_iff.mpr (hmem.imp fun c _ hc => ⟨c, hc.1, rfl, hc.2⟩)
    have hcuts : [] ++ (calls.map fun c => c.1.wire c.2).flatten = chunks.flatten :=
      hflatten.symm.trans hstream.symm
    have hchunks : chunks = calls.map fun c => c.1.wire c.2 := by
      refine (Tiling.eq_of_flatten_eq ?_ hrel hcuts).2
      rintro _ chunk ⟨c, hc, rfl, b, hrecv, harrives⟩ left xs ys hbytes
      obtain ⟨htx, hreserved, -⟩ := hcalls c hc
      obtain ⟨p, hp⟩ := hpackets c hc
      exact harrives.chunk_length htx hreserved hp hrecv hbytes
    subst hchunks
    refine ⟨rfl, fun c hc => ?_⟩
    obtain ⟨b, hrecv, harrives⟩ :=
      List.forall₂_same.mp (List.forall₂_map_right_iff.mp h) c hc
    obtain ⟨_, -, -, hspelled, -⟩ := dataRecv_eq_some hrecv
    rw [← harrives.header]
    exact hspelled.lifeTime
  · rintro ⟨rfl, hlife⟩
    refine List.forall₂_map_right_iff.mpr (List.forall₂_same.mpr ?_)
    intro c hc
    obtain ⟨htx, hreserved, -⟩ := hcalls c hc
    obtain ⟨p, hp⟩ := hpackets c hc
    obtain ⟨n, hn, hseconds⟩ := hlife c hc
    exact exists_arrives htx hreserved hp hn hseconds

/-- Two bundles of one source for one address. -/
def samplePair : List (Transmission × List UInt8) :=
  [sampleCall 4 ⟨0x0A000001, 4556⟩, sampleCall 6 ⟨0x0A000001, 4556⟩]

theorem plain_samplePair :
    ∀ c ∈ samplePair, c.1.Plain ∧ c.2.length = 6 ∧ c.1.dstAddress ≠ noRoute := by
  intro c hc
  rcases List.mem_pair.mp hc with rfl | rfl
  · exact ⟨⟨by decide, rfl, by decide, by decide, by decide⟩, rfl, by decide⟩
  · exact ⟨⟨by decide, rfl, by decide, by decide, by decide⟩, rfl, by decide⟩

/-- Both go through the first socket. -/
theorem exists_sendBundles_samplePair :
    ∃ t, (new false).sendBundles samplePair = some t ∧ ∀ e ∈ t.sent, e.1 = 0 := by
  obtain ⟨t, ht, hone⟩ := (Option.any_eq_true (fun t : ClaSender =>
    decide (t.sent.map Prod.fst = [0, 0])) _).mp
      (by decide +kernel : ((new false).sendBundles samplePair).any _ = true)
  refine ⟨t, ht, fun e he => ?_⟩
  have hmem : e.1 ∈ [0, 0] := of_decide_eq_true hone ▸ List.mem_map_of_mem he
  simpa using hmem

/-- They arrive when each packet is a chunk of its own. -/
theorem boundaries_survive_iff_sample :
    ∃ bs, dataRecvAll false (samplePair.map fun c => c.1.wire c.2) = some bs ∧
      List.Forall₂ (fun c b => Arrives c.1 b) samplePair bs := by
  obtain ⟨t, ht, hone⟩ := exists_sendBundles_samplePair
  have hstream := (stream_eq (fun c hc => (plain_samplePair c hc).2.2) ht hone).1
  refine (boundaries_survive_iff plain_samplePair ht hone hstream.symm).mpr ⟨rfl, ?_⟩
  intro c hc
  rcases List.mem_pair.mp hc with rfl | rfl
  · exact ⟨0, by decide, rfl⟩
  · exact ⟨0, by decide, rfl⟩

/-- When the stream comes in one chunk, one bundle is handed over for the two. -/
theorem boundaries_lost :
    (∀ c ∈ samplePair, c.1.Plain ∧ c.2.length = 6 ∧ c.1.dstAddress ≠ noRoute) ∧
      ∃ t, (new false).sendBundles samplePair = some t ∧ (∀ e ∈ t.sent, e.1 = 0) ∧
        t.stream 0 ≠ [] ∧ ¬∃ bs, dataRecvAll false [t.stream 0] = some bs ∧
          List.Forall₂ (fun c b => Arrives c.1 b) samplePair bs := by
  obtain ⟨t, ht, hone⟩ := exists_sendBundles_samplePair
  have hstream := (stream_eq (fun c hc => (plain_samplePair c hc).2.2) ht hone).1
  refine ⟨plain_samplePair, t, ht, hone, ?_, ?_⟩
  · rw [hstream]
    decide
  · intro h
    have hlength := (dataRecvAll_iff.mp h).length_eq
    exact absurd hlength (by simp [samplePair])

end ClaSender
end BundleProtocol
