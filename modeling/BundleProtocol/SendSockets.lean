import BundleProtocol.Cla
import BundleProtocol.KeyedList
import Mathlib.Data.List.Forall2

/-! # The sockets of a sending convergence layer

A convergence layer keeps one connected socket for each source endpoint id that its packets show.
The first packet of a source opens the socket, towards the address given with that packet; later
packets of the source go through the same socket, whatever address they are given
(`sends_connected`).  So packets reach their addresses exactly when a source never changes its
address (`sends_reach_iff`).
-/
namespace BundleProtocol
open ByteParser

/-- A sending socket, by the order of creation. -/
abbrev SocketId := ℕ

/-- The sending side of a `BpCla`, with the calls it made on its sockets. -/
structure ClaSender where
  cbhe : Bool
  l4SendSockets : List (BpEndpointId × SocketId)
  /-- The address that each socket was connected to. -/
  connected : List InetSocketAddress
  /-- The calls of `Socket::Send`. -/
  sent : List (SocketId × Packet)

/-- `Packet::PeekHeader`, into a header with the given `m_cbhe`. -/
def Packet.peekHeader (p : Packet) (cbhe : Bool) : Option BpHeader6 :=
  ((BpHeader6.new cbhe).deserialize p.bytes).map Prod.fst

namespace ClaSender

/-- A convergence layer that has sent nothing yet. -/
def new (cbhe : Bool) : ClaSender := ⟨cbhe, [], [], []⟩

/-- `BpCla::EnableSend`, when the socket can be created, bound, connected and shut down. -/
def enableSend (s : ClaSender) (src : BpEndpointId) (dstAddress : InetSocketAddress) :
    ClaSender × ℤ :=
  if dstAddress = noRoute then (s, -1)
  else
    let socket := s.connected.length
    let s := { s with connected := s.connected ++ [dstAddress] }
    match s.l4SendSockets.lookup src with
    | none => ({ s with l4SendSockets := KeyedList.insert s.l4SendSockets src socket }, 0)
    | some _ => (s, -1)

/-- `BpCla::GetL4Socket`; reading an endpoint id beyond the dictionary throws. -/
def getL4Socket (s : ClaSender) (packet : Packet) (dstAddress : InetSocketAddress) :
    Option (ClaSender × Option SocketId) := do
  let bph ← packet.peekHeader s.cbhe
  if bph.Shows bph.dstSchemeOffset bph.dstSspOffset ∧ bph.Shows bph.srcSchemeOffset bph.srcSspOffset then
    let src := bph.getSourceEid
    match s.l4SendSockets.lookup src with
    | some socket => some (s, some socket)
    | none =>
      let (s, code) := s.enableSend src dstAddress
      if code < 0 then some (s, none) else some (s, s.l4SendSockets.lookup src)
  else none

/-- `BpCla::SendPacket`. -/
def sendPacket (s : ClaSender) (packet : Packet) (dstAddress : InetSocketAddress) :
    Option (ClaSender × ℤ) := do
  let (s, socket) ← s.getL4Socket packet dstAddress
  match socket with
  | none => some (s, -1)
  | some socket => some ({ s with sent := s.sent ++ [(socket, packet)] }, 0)

/-- `BpCla::SendBundle` after the payload has been cut out of the bundle: `tx` holds both headers,
the payload and the address, `reserved` is what the space for the payload header held. -/
def sendBundle (s : ClaSender) (tx : Transmission) (reserved : List UInt8) : Option ClaSender := do
  let packet ← Packet.ofBytes (tx.wire reserved)
  let (s, _) ← s.sendPacket packet tx.dstAddress
  some s

/-- The calls of `SendBundle` on one convergence layer, in order. -/
def sendBundles (s : ClaSender) (calls : List (Transmission × List UInt8)) : Option ClaSender :=
  calls.foldlM (fun s call => s.sendBundle call.1 call.2) s

/-- The source that the packet of `tx` shows to a convergence layer with this `m_cbhe`. -/
def shownSource (cbhe : Bool) (tx : Transmission) : BpEndpointId :=
  (tx.header.onWire cbhe).getSourceEid

end ClaSender

/-- One byte of payload. -/
def samplePayload : Packet := ⟨[10], by decide⟩

/-! ## What a packet shows -/

/-- **The header that is peeked** is the sent one with the `m_cbhe` of the convergence layer. -/
theorem Transmission.peekHeader_wire {tx : Transmission} {reserved : List UInt8} {p : Packet}
    (hp : Packet.ofBytes (tx.wire reserved) = some p) (cbhe : Bool) :
    p.peekHeader cbhe = some (tx.header.onWire cbhe) := by
  have hread := tx.header.reads_onWire (BpHeader6.new cbhe)
    (tx.length_dictionary_lt (Packet.bytes_of_ofBytes hp))
  rw [Packet.peekHeader, Packet.bytes_of_ofBytes hp, wire, hread]
  rfl

namespace ClaSender
variable {s t : ClaSender} {tx : Transmission} {reserved : List UInt8}

/-- One call of `SendBundle`: through the socket of its source, which it opens when there is none
yet. -/
theorem sendBundle_eq_some (hroute : tx.dstAddress ≠ noRoute)
    (hrun : s.sendBundle tx reserved = some t) :
    ∃ p, Packet.ofBytes (tx.wire reserved) = some p ∧
      ((∃ k, s.l4SendSockets.lookup (shownSource s.cbhe tx) = some k ∧
          t = { s with sent := s.sent ++ [(k, p)] }) ∨
        (s.l4SendSockets.lookup (shownSource s.cbhe tx) = none ∧
          t = { s with
            l4SendSockets := KeyedList.insert s.l4SendSockets (shownSource s.cbhe tx) s.connected.length
            connected := s.connected ++ [tx.dstAddress]
            sent := s.sent ++ [(s.connected.length, p)] })) := by
  obtain ⟨p, hp, hrun⟩ := Option.bind_eq_some_iff.mp hrun
  obtain ⟨⟨u, code⟩, hsend, hrun⟩ := Option.bind_eq_some_iff.mp hrun
  cases hrun
  obtain ⟨⟨v, socket⟩, hget, hsend⟩ := Option.bind_eq_some_iff.mp hsend
  refine ⟨p, hp, ?_⟩
  unfold getL4Socket at hget
  rw [tx.peekHeader_wire hp, Option.bind_eq_bind, Option.bind_some] at hget
  split at hget
  · have hsrc : (tx.header.onWire s.cbhe).getSourceEid = shownSource s.cbhe tx := rfl
    simp only [hsrc] at hget
    cases hfind : s.l4SendSockets.lookup (shownSource s.cbhe tx) with
    | some k =>
      rw [hfind] at hget
      cases hget
      cases hsend
      exact Or.inl ⟨k, rfl, rfl⟩
    | none =>
      rw [hfind] at hget
      simp only [enableSend, if_neg hroute, hfind] at hget
      have hnew : (KeyedList.insert s.l4SendSockets (shownSource s.cbhe tx) s.connected.length).lookup
          (shownSource s.cbhe tx) = some s.connected.length := by
        rw [KeyedList.lookup_insert, BpEndpointId.beq_self, if_pos rfl, hfind]
        rfl
      rw [if_neg (by decide), hnew] at hget
      cases hget
      cases hsend
      exact Or.inr ⟨rfl, rfl⟩
  · cases hget

/-! ## The address of a source -/

/-- The addresses that the calls give for their sources. -/
def requests (cbhe : Bool) (calls : List (Transmission × List UInt8)) :
    List (BpEndpointId × InetSocketAddress) :=
  calls.map fun call => (shownSource cbhe call.1, call.1.dstAddress)

/-- The address that the socket of a source is connected to. -/
def addressOf (s : ClaSender) (src : BpEndpointId) : Option InetSocketAddress :=
  (s.l4SendSockets.lookup src).bind fun k => s.connected[k]?

/-- After the calls `done`, the socket of a source is connected to the address first given for it,
and so was the socket of every packet sent. -/
structure Connected (s : ClaSender) (done : List (Transmission × List UInt8)) : Prop where
  exists_socket : ∀ src k, s.l4SendSockets.lookup src = some k → k < s.connected.length
  address : ∀ src, s.addressOf src = (requests s.cbhe done).lookup src
  sent : List.Forall₂ (fun call e => Packet.ofBytes (call.1.wire call.2) = some e.2 ∧
    ∃ address, (requests s.cbhe done).lookup (shownSource s.cbhe call.1) = some address ∧
      s.connected[e.1]? = some address) done s.sent

theorem connected_new (cbhe : Bool) : (new cbhe).Connected [] where
  exists_socket := by
    rintro src k hk
    cases hk
  address _ := rfl
  sent := .nil

/-- An address once given for a source stays the one given first. -/
theorem lookup_requests_concat {cbhe : Bool} {done : List (Transmission × List UInt8)}
    {call : Transmission × List UInt8} {src : BpEndpointId} {address : InetSocketAddress}
    (h : (requests cbhe done).lookup src = some address) :
    (requests cbhe (done ++ [call])).lookup src = some address := by
  unfold requests
  rw [List.map_append, List.lookup_append]
  unfold requests at h
  rw [h]
  rfl

/-- The source of the last call has an address. -/
theorem lookup_requests_self (cbhe : Bool) (done : List (Transmission × List UInt8))
    (call : Transmission × List UInt8) (src : BpEndpointId) :
    (requests cbhe (done ++ [call])).lookup src =
      if src == shownSource cbhe call.1 then
        some (((requests cbhe done).lookup (shownSource cbhe call.1)).getD call.1.dstAddress)
      else (requests cbhe done).lookup src := by
  unfold requests
  rw [List.map_append]
  exact KeyedList.lookup_concat

/-- One more packet leaves the earlier ones where they were sent. -/
theorem Connected.sent_concat {done : List (Transmission × List UInt8)} (h : s.Connected done)
    {call : Transmission × List UInt8} {k : SocketId} {p : Packet} {address : InetSocketAddress}
    (hcbhe : t.cbhe = s.cbhe) (hsent : t.sent = s.sent ++ [(k, p)])
    (hold : ∀ (i : SocketId) a, s.connected[i]? = some a → t.connected[i]? = some a)
    (hp : Packet.ofBytes (call.1.wire call.2) = some p)
    (hlookup : (requests t.cbhe (done ++ [call])).lookup (shownSource t.cbhe call.1) = some address)
    (hk : t.connected[k]? = some address) :
    List.Forall₂ (fun c e => Packet.ofBytes (c.1.wire c.2) = some e.2 ∧
      ∃ address, (requests t.cbhe (done ++ [call])).lookup (shownSource t.cbhe c.1) = some address ∧
        t.connected[e.1]? = some address) (done ++ [call]) t.sent := by
  rw [hsent]
  refine List.rel_append (h.sent.imp ?_) (.cons ⟨hp, address, hlookup, hk⟩ .nil)
  rintro c e ⟨hpacket, a, hfirst, hconnected⟩
  rw [hcbhe]
  exact ⟨hpacket, a, lookup_requests_concat hfirst, hold e.1 a hconnected⟩

/-- **One call keeps the invariant.** -/
theorem Connected.sendBundle {done : List (Transmission × List UInt8)} (h : s.Connected done)
    (hroute : tx.dstAddress ≠ noRoute) (hrun : s.sendBundle tx reserved = some t) :
    t.cbhe = s.cbhe ∧ t.Connected (done ++ [(tx, reserved)]) := by
  obtain ⟨p, hp, ⟨k, hfind, rfl⟩ | ⟨hfind, rfl⟩⟩ := sendBundle_eq_some hroute hrun
  · have hlt := h.exists_socket _ k hfind
    have hfirst : (requests s.cbhe done).lookup (shownSource s.cbhe tx) = some s.connected[k] := by
      rw [← h.address, addressOf, hfind]
      exact List.getElem?_eq_getElem hlt
    refine ⟨rfl, h.exists_socket, ?_, ?_⟩
    · intro src
      rw [lookup_requests_self, hfirst]
      cases hsrc : src == shownSource s.cbhe tx with
      | true =>
        have haddress := h.address src
        rw [KeyedList.lookup_congr hsrc, hfirst] at haddress
        exact haddress
      | false => exact h.address src
    · exact h.sent_concat (t := { s with sent := s.sent ++ [(k, p)] }) rfl rfl (fun _ _ hi => hi) hp
        (lookup_requests_concat hfirst) (List.getElem?_eq_getElem hlt)
  · have hnone : (requests s.cbhe done).lookup (shownSource s.cbhe tx) = none := by
      rw [← h.address, addressOf, hfind]
      rfl
    have hnew : (s.connected ++ [tx.dstAddress])[s.connected.length]? = some tx.dstAddress :=
      List.getElem?_concat_length
    have hold : ∀ (i : SocketId) a, s.connected[i]? = some a →
        (s.connected ++ [tx.dstAddress])[i]? = some a :=
      fun i a hi => List.getElem?_append_left (List.getElem?_eq_some_iff.mp hi).1 ▸ hi
    refine ⟨rfl, ?_, ?_, ?_⟩
    · intro src k hk
      rw [KeyedList.lookup_insert, hfind] at hk
      rw [List.length_append]
      split at hk
      · cases hk
        exact Nat.lt_succ_self _
      · exact Nat.lt_succ_of_lt (h.exists_socket src k hk)
    · intro src
      rw [lookup_requests_self, hnone, addressOf]
      show (List.lookup src (KeyedList.insert _ _ _)).bind _ = _
      rw [KeyedList.lookup_insert, hfind]
      cases hsrc : src == shownSource s.cbhe tx with
      | true => exact hnew
      | false =>
        rw [if_neg Bool.false_ne_true, if_neg Bool.false_ne_true, ← h.address, addressOf]
        cases hk : s.l4SendSockets.lookup src with
        | none => rfl
        | some k =>
          exact List.getElem?_append_left (h.exists_socket src k hk)
    · refine h.sent_concat (t := { s with
        l4SendSockets := _, connected := s.connected ++ [tx.dstAddress], sent := _ })
        rfl rfl hold hp ?_ hnew
      rw [lookup_requests_self, hnone, BpEndpointId.beq_self]
      rfl

/-- **A run of calls**: every packet went to the address first given for its source. -/
theorem Connected.sendBundles {done calls : List (Transmission × List UInt8)} (h : s.Connected done)
    (hroute : ∀ call ∈ calls, call.1.dstAddress ≠ noRoute) (hrun : s.sendBundles calls = some t) :
    t.cbhe = s.cbhe ∧ t.Connected (done ++ calls) := by
  induction calls generalizing s done with
  | nil =>
    cases hrun
    rw [List.append_nil]
    exact ⟨rfl, h⟩
  | cons call calls ih =>
    obtain ⟨u, hu, hrun⟩ := Option.bind_eq_some_iff.mp hrun
    obtain ⟨hcbhe, hconnected⟩ := h.sendBundle (hroute call List.mem_cons_self) hu
    obtain ⟨hcbhe', hall⟩ :=
      ih hconnected (fun c hc => hroute c (List.mem_cons_of_mem call hc)) hrun
    rw [List.append_assoc] at hall
    exact ⟨hcbhe'.trans hcbhe, hall⟩

/-- A relation between two lists that depends on the first list only. -/
theorem forall₂_iff_forall {α β : Type} {R S : α → β → Prop} {P : α → Prop} {l : List α} {m : List β}
    (h : List.Forall₂ R l m) (hS : ∀ a b, R a b → (S a b ↔ P a)) :
    List.Forall₂ S l m ↔ ∀ a ∈ l, P a := by
  induction h with
  | nil => simp
  | cons hab _ ih => rw [List.forall₂_cons, ih, List.forall_mem_cons, hS _ _ hab]

/-- Every request is for the address first given for its source when no source has two
addresses. -/
theorem lookup_requests_iff (cbhe : Bool) (calls : List (Transmission × List UInt8)) :
    (∀ c ∈ calls, (requests cbhe calls).lookup (shownSource cbhe c.1) = some c.1.dstAddress) ↔
      ∀ c ∈ calls, ∀ c' ∈ calls, shownSource cbhe c.1 == shownSource cbhe c'.1 →
        c.1.dstAddress = c'.1.dstAddress := by
  constructor
  · intro h c hc c' hc' hsrc
    have hfirst := h c hc
    rw [KeyedList.lookup_congr hsrc, h c' hc'] at hfirst
    exact (Option.some.inj hfirst).symm
  · intro h c hc
    have hmem : (shownSource cbhe c.1, c.1.dstAddress) ∈ requests cbhe calls :=
      List.mem_map_of_mem hc
    have hsome : ((requests cbhe calls).lookup (shownSource cbhe c.1)).isSome = true :=
      List.lookup_isSome_iff.mpr ⟨_, hmem, BpEndpointId.beq_self _⟩
    obtain ⟨address, hlookup⟩ := Option.isSome_iff_exists.mp hsome
    obtain ⟨e, he, hkey, rfl⟩ := KeyedList.exists_mem_of_lookup hlookup
    obtain ⟨c', hc', rfl⟩ := List.mem_map.mp he
    rw [hlookup, h c hc c' hc' hkey]

/-- **Packets reach their addresses exactly when no source is given two addresses.**  Each packet
goes through the socket that is connected to the address given in its own call if and only if
calls that show the same source are given the same address. -/
theorem sends_reach_iff {cbhe : Bool} {calls : List (Transmission × List UInt8)}
    (hroute : ∀ c ∈ calls, c.1.dstAddress ≠ noRoute)
    (hrun : (new cbhe).sendBundles calls = some t) :
    List.Forall₂ (fun c e => Packet.ofBytes (c.1.wire c.2) = some e.2 ∧
      t.connected[e.1]? = some c.1.dstAddress) calls t.sent ↔
      ∀ c ∈ calls, ∀ c' ∈ calls, shownSource cbhe c.1 == shownSource cbhe c'.1 →
        c.1.dstAddress = c'.1.dstAddress := by
  obtain ⟨hcbhe, hconnected⟩ := (connected_new cbhe).sendBundles hroute hrun
  rw [List.nil_append] at hconnected
  have hsent := hconnected.sent
  rw [show t.cbhe = cbhe from hcbhe] at hsent
  rw [← lookup_requests_iff]
  refine forall₂_iff_forall hsent ?_
  rintro c e ⟨hp, address, hfirst, hk⟩
  rw [hfirst, hk, Option.some.injEq]
  exact and_iff_right hp

/-- A call of `SendBundle` for a bundle from `d:a` to `d:b` or `d:c`, by the position of the
destination's ssp in the dictionary. -/
def sampleCall (dst : UInt16) (dstAddress : InetSocketAddress) : Transmission × List UInt8 :=
  ⟨⟨0, 1, 0, dstAddress,
    { BpHeader6.new false with
      blockLength := 1
      dstSspOffset := dst
      srcSspOffset := 2
      reportSspOffset := 2
      custSspOffset := 2
      dictionary := [100, 0, 97, 0, 98, 0, 99, 0] },
    .setBlockLength (.new BpBlockHeader6.bundlePayloadBlock) 1, samplePayload⟩,
    List.replicate 6 0⟩

/-- Two bundles of one source to one address. -/
theorem sends_reach_iff_sample :
    let calls := [sampleCall 4 ⟨0x0A000001, 4556⟩, sampleCall 6 ⟨0x0A000001, 4556⟩]
    ∃ t, (new false).sendBundles calls = some t ∧
      List.Forall₂ (fun c e => Packet.ofBytes (c.1.wire c.2) = some e.2 ∧
        t.connected[e.1]? = some c.1.dstAddress) calls t.sent := by
  intro calls
  obtain ⟨t, ht⟩ := Option.isSome_iff_exists.mp (by decide +kernel :
    ((new false).sendBundles calls).isSome = true)
  refine ⟨t, ht, (sends_reach_iff (by decide) ht).mpr ?_⟩
  simp [calls, sampleCall]

/-- The second bundle of a source goes to the address of the first: both packets go through the
socket that is connected to 10.0.0.1, the only one there is. -/
theorem sends_miss :
    let calls := [sampleCall 4 ⟨0x0A000001, 4556⟩, sampleCall 6 ⟨0x0A000002, 4556⟩]
    (∀ c ∈ calls, c.1.dstAddress ≠ noRoute) ∧ ∃ t, (new false).sendBundles calls = some t ∧
      ¬List.Forall₂ (fun c e => Packet.ofBytes (c.1.wire c.2) = some e.2 ∧
        t.connected[e.1]? = some c.1.dstAddress) calls t.sent := by
  intro calls
  refine ⟨by decide, ?_⟩
  obtain ⟨t, ht, htest⟩ := (Option.any_eq_true (fun t : ClaSender =>
    decide (t.connected = [⟨0x0A000001, 4556⟩] ∧ t.sent.map Prod.fst = [0, 0])) _).mp
      (by decide +kernel : ((new false).sendBundles calls).any _ = true)
  obtain ⟨hconnected, hsockets⟩ := of_decide_eq_true htest
  refine ⟨t, ht, ?_⟩
  intro hreach
  match hsent : t.sent with
  | [] =>
    rw [hsent] at hsockets
    cases hsockets
  | [e] =>
    rw [hsent] at hsockets
    exact absurd (congrArg List.length hsockets) (by simp)
  | e :: e' :: rest =>
    rw [hsent] at hreach hsockets
    obtain ⟨-, hrest⟩ := List.forall₂_cons.mp hreach
    obtain ⟨⟨-, hsecond⟩, -⟩ := List.forall₂_cons.mp hrest
    simp only [List.map_cons, List.cons.injEq] at hsockets
    rw [hconnected, hsockets.2.1] at hsecond
    exact absurd hsecond (by decide)

end ClaSender
end BundleProtocol
