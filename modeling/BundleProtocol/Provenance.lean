import BundleProtocol.Expiry
import BundleProtocol.Network

/-! # Every bundle was created somewhere

Whatever the medium does with the packets, the header of every bundle in a network is a copy of one
that was created: an agent stamps the headers of bundles for sending, marks them whole, and
otherwise leaves them alone (`Keeps`), and what it hands over, delivers or signals shows such a
header (`Traced`).  The bundles that count are the stored ones and those that a pending event
refers to, since a retransmission may outlive its bundle's stay in the store.
-/
namespace BundleProtocol
open Interleaving BpHeader6

/-! ## Stamping -/

/-- The headers of `x'` are those of `x`, stamped for sending. -/
structure Bundle6.Restamped (x x' : Bundle6) : Prop where
  header : CopyOf x.primaryHeader x'.primaryHeader
  blockType : x'.payloadHeader.blockType = x.payloadHeader.blockType
  flags : x'.payloadHeader.processingControlFlags = x.payloadHeader.processingControlFlags

theorem Bundle6.Restamped.refl (x : Bundle6) : x.Restamped x := ⟨.refl _, rfl, rfl⟩

/-- What `DataRecv` builds from a packet: the header as the wire left it, and the payload with its
header if that fits its six bytes. -/
theorem received_of_carries {d : Datagram} {tx : Transmission} {rx : ReceivedBundle}
    (hcarries : d.Carries tx) (hrx : dataRecv false d.packet.bytes = some rx) :
    rx.header = tx.header.onWire false ∧ (tx.payloadHeader.serialize.length ≤ 6 →
      rx.payloadHeader = tx.payloadHeader ∧ rx.adu = tx.payload) := by
  obtain ⟨reserved, hreserved, hbytes⟩ := hcarries
  have hread := tx.header.reads_onWire (.new false) (tx.length_dictionary_lt hbytes)
    (tx.payloadHeader.addTo reserved tx.payload.bytes)
  obtain ⟨⟨header, rest⟩, hheader, hrx⟩ := Option.bind_eq_some_iff.mp hrx
  rw [hbytes, Transmission.wire, hread] at hheader
  cases hheader
  obtain ⟨⟨payloadHeader, rest⟩, hpayload, hrx⟩ := Option.bind_eq_some_iff.mp hrx
  obtain ⟨adu, hadu, hrx⟩ := Option.bind_eq_some_iff.mp hrx
  split at hrx
  · cases hrx
    refine ⟨rfl, fun hfit => ?_⟩
    rw [BpBlockHeader6.removeFrom_addTo hfit hreserved] at hpayload
    cases hpayload
    rw [Packet.ofBytes_eq_some tx.payload.size_lt] at hadu
    exact ⟨rfl, (Option.some.inj hadu).symm⟩
  · cases hrx

namespace BpAgent6
variable {s t u v : BpAgent6} {b q x : Ptr} {p : Packet} {src dst : BpEndpointId}
  {lifetime : Time} {custody : Bool} {priority : UInt32} {rx : ReceivedBundle}

theorem restamped_stamp (n o : ℕ) (fragment : Bool) (x : Bundle6) :
    x.Restamped (stamp n o fragment x) where
  header := ((copyOf_setBlockLength _ _).trans (copyOf_setIsFragment _ _)).trans
    (copyOf_setFragOffset _ _)
  blockType := rfl
  flags := rfl

theorem restamped_lastStamp (fragment : Bool) (ps : List (ℕ × ℕ)) (x : Bundle6) :
    x.Restamped (lastStamp fragment ps x) := by
  unfold lastStamp
  split
  · exact .refl x
  · exact restamped_stamp _ _ _ x

/-- A sent bundle keeps its headers, but for the stamp of its last piece. -/
theorem restamped_sent (s : BpAgent6) (b : Ptr) (cla : ClaId) (adu : Packet) :
    (s.heap b).Restamped ((s.sent b cla adu).heap b) := by
  have hflagged : (s.flagged b).heap b = _ := heap_modify_self s b _
  have hbundle : (s.sent b cla adu).heap b = _ := heap_modify_self _ b _
  unfold transmitted at hbundle
  rw [heap_handOver, heap_modify_self, heap_withRetransmission_self, hflagged] at hbundle
  rw [hbundle]
  have hstamp := restamped_lastStamp ((s.flagged b).fragmenting adu) ((s.flagged b).pieces adu)
    { s.heap b with
      retentionConstraints := ((s.heap b).retentionConstraints ||| forwardPending) &&& ~~~dispatchPending
      nextRetrans := if ((s.flagged b).header b).custTxReq then some (s.flagged b).sim.nextUid
        else (s.heap b).nextRetrans }
  exact ⟨hstamp.header, hstamp.blockType, hstamp.flags⟩

/-! ## Bundles in use -/

/-- The bundle is stored, or a pending event refers to it. -/
def InUse (s : BpAgent6) (x : Ptr) : Prop :=
  x ∈ s.mStore ∨ ∃ e ∈ s.sim.pending, e.call.target = x

theorem InUse.of_subset (h : t.InUse x) (hstore : ∀ y ∈ t.mStore, y ∈ s.mStore)
    (hpending : ∀ e ∈ t.sim.pending, e ∈ s.sim.pending) : s.InUse x :=
  h.imp (hstore x) fun ⟨e, he, htarget⟩ => ⟨e, hpending e he, htarget⟩

/-- An event about `b` is scheduled. -/
theorem InUse.of_schedule {delay : Time} {call : Callback} (h : t.InUse x)
    (hstore : ∀ y ∈ t.mStore, y ∈ s.mStore) (hsim : t.sim = s.sim.schedule delay call) :
    x = call.target ∨ s.InUse x := by
  rcases h with hmem | ⟨e, he, rfl⟩
  · exact Or.inr (Or.inl (hstore x hmem))
  · rw [hsim, Simulator.mem_pending_schedule] at he
    rcases he with he | rfl
    · exact Or.inr (Or.inr ⟨e, he, rfl⟩)
    · exact Or.inl rfl

/-- From `s` to `t` headers stay copies of what they were, and no bundle but the one at `b` comes
into use. -/
structure Keeps (s : BpAgent6) (b : Ptr) (t : BpAgent6) : Prop where
  header : ∀ x, CopyOf (s.header x) (t.header x)
  inUse : ∀ x, t.InUse x → x = b ∨ s.InUse x

theorem Keeps.refl (s : BpAgent6) (b : Ptr) : Keeps s b s := ⟨fun _ => .refl _, fun _ => Or.inr⟩

/-- The headers are the same and bundles go out of use. -/
theorem Keeps.shrink (h : Keeps s b t) (hheader : ∀ x, CopyOf (t.header x) (u.header x))
    (hstore : ∀ y ∈ u.mStore, y ∈ t.mStore) (hpending : ∀ e ∈ u.sim.pending, e ∈ t.sim.pending) :
    Keeps s b u where
  header x := (h.header x).trans (hheader x)
  inUse x hx := h.inUse x (hx.of_subset hstore hpending)

theorem header_discarded (s : BpAgent6) (b x : Ptr) : (s.discarded b).header x = s.header x :=
  Memory.primaryHeader_doDispose (s.removed b).toMemory b x

theorem pending_discarded (s : BpAgent6) (b : Ptr) :
    (s.discarded b).sim.pending.Sublist s.sim.pending :=
  (Memory.pending_doDispose_sublist _ b).trans (Memory.pending_clearEvents_sublist _ b)

theorem Keeps.discarded (h : Keeps s b t) (x : Ptr) : Keeps s b (t.discarded x) := by
  refine h.shrink (fun y => ?_) (fun y => List.mem_of_mem_erase) (t.pending_discarded x).subset
  rw [header_discarded]
  exact .refl _

theorem Keeps.modify (h : Keeps s b t) {f : Bundle6 → Bundle6} {x : Ptr}
    (hf : CopyOf (t.header x) (f (t.heap x)).primaryHeader) : Keeps s b (t.modify x f) := by
  refine h.shrink (fun y => ?_) (fun y hy => hy) fun e he => he
  exact rel_heap_modify (R := fun y z => CopyOf y.primaryHeader z.primaryHeader)
    (fun _ => .refl _) hf y

/-- Sending makes a copy and may schedule a retransmission. -/
theorem keeps_sent (s : BpAgent6) (b : Ptr) (cla : ClaId) (adu : Packet) :
    Keeps s b (s.sent b cla adu) where
  header x := by
    by_cases hx : x = b
    · subst hx
      exact (s.restamped_sent x cla adu).header
    · rw [BundleStore.header_congr (heap_sent_of_ne hx)]
      exact .refl _
  inUse x hx := by
    have hstore : ∀ y ∈ (s.sent b cla adu).mStore, y ∈ s.mStore := by
      rw [(s.rest_sent b cla adu).1]
      exact fun y hy => hy
    have hsim := s.sim_sent b cla adu
    split at hsim
    · exact hx.of_schedule hstore hsim
    · exact Or.inr (hx.of_subset hstore (by rw [hsim]; exact fun e he => he))

theorem keeps_forward (hrun : s.forward b = some t) : Keeps s b t := by
  rcases forward_eq_some.mp hrun with ⟨-, rfl⟩ | ⟨cla, adu, -, -, -, hcase⟩
  · exact (Keeps.refl s b).modify (.refl _)
  · rcases hcase with ⟨-, rfl⟩ | ⟨-, -, rfl⟩
    · exact s.keeps_sent b cla adu
    · exact (s.keeps_sent b cla adu).discarded b

/-- **What `Forward` hands over**: the pieces of the ADU, under the header of the bundle. -/
theorem handed_forward {tx : Transmission} (hrun : s.forward b = some t) (htx : tx ∈ t.handed) :
    tx ∈ s.handed ∨ ∃ cla adu r, (s.heap b).adu = some adu ∧
      (s.config.bundleSize ≠ 0 ∨ adu.size = 0) ∧ r ∈ s.pieces adu ∧
      tx = s.transmission b cla (s.header b).getDestinationEid (s.fragmenting adu) adu r := by
  rcases forward_eq_some.mp hrun with ⟨-, rfl⟩ | ⟨cla, adu, -, hadu, hm, hcase⟩
  · exact Or.inl htx
  · have hlog : t.handed = (s.sent b cla adu).handed := by
      rcases hcase with ⟨-, rfl⟩ | ⟨-, -, rfl⟩
      · rfl
      · rfl
    rw [hlog, handed_sent] at htx
    rcases List.mem_append.mp htx with htx | htx
    · exact Or.inl htx
    · obtain ⟨r, hr, rfl⟩ := List.mem_map.mp htx
      exact Or.inr ⟨cla, adu, r, hadu, hm, hr, rfl⟩

/-- A transmission shows a copy of the bundle's header. -/
theorem copyOf_transmission (s : BpAgent6) (b : Ptr) (cla : ClaId) (dst : BpEndpointId)
    (fragment : Bool) (adu : Packet) (r : ℕ × ℕ) :
    CopyOf (s.header b) (s.transmission b cla dst fragment adu r).header :=
  (restamped_stamp r.2 r.1 fragment (s.heap b)).header

/-- Local delivery makes copies and takes bundles out of use. -/
theorem deliveryClosed_keeps (s : BpAgent6) (b : Ptr) : DeliveryClosed (Keeps s b) where
  delivered h := ⟨h.header, h.inUse⟩
  withAdu h := h.modify (.refl _)
  acked h := h.modify (.refl _)
  markWhole h := h.modify (copyOf_setIsFragment _ _)
  removed h _ := h.shrink (fun _ => .refl _) (fun _ => List.mem_of_mem_erase)
    (Memory.pending_clearEvents_sublist _ _).subset
  discarded h _ := h.discarded _

/-- Storing a bundle brings it into use. -/
theorem inUse_stored (h : (s.stored b).InUse x) : x = b ∨ s.InUse x := by
  rcases h with hmem | hevent
  · exact (BundleStore.mem_stored.mp hmem).imp_right Or.inl
  · have hold : (s.stored b).sim = s.sim ∨
        ∃ delay, (s.stored b).sim = s.sim.schedule delay (.expire b) :=
      s.toBundleStore.pending_stored b
    rcases hold with hsim | ⟨delay, hsim⟩
    · rw [hsim] at hevent
      exact Or.inr (Or.inr hevent)
    · obtain ⟨e, he, rfl⟩ := hevent
      rw [hsim, Simulator.mem_pending_schedule] at he
      rcases he with he | rfl
      · exact Or.inr (Or.inr ⟨e, he, rfl⟩)
      · exact Or.inl rfl

theorem inUse_acceptBundle (hrun : s.acceptBundle b rx = some t) (h : t.InUse x) :
    x = b ∨ s.InUse x := by
  rcases acceptBundle_eq_some.mp hrun with ⟨-, rfl⟩ | ⟨-, -, rfl⟩
  · exact Or.inr h
  · exact inUse_stored (s := s.arrived b rx) h

theorem inUse_createBundle (hrun : s.createBundle b p src dst lifetime custody priority = some t)
    (h : t.InUse x) : x = b ∨ s.InUse x := by
  obtain ⟨hdr, -, ⟨-, rfl⟩ | ⟨-, -, rfl⟩⟩ := createBundle_eq_some.mp hrun
  · exact Or.inr h
  · exact inUse_stored (s := s.created b hdr p custody) h

/-! ## Copies of what was created -/

/-- A copy of the header of a bundle that was created. -/
def CopiedFrom (O : BpHeader6 → Packet → Prop) (g : BpHeader6) : Prop := ∃ h p, O h p ∧ CopyOf h g

theorem CopiedFrom.copy {O : BpHeader6 → Packet → Prop} {g g' : BpHeader6} (h : CopiedFrom O g)
    (hg : CopyOf g g') : CopiedFrom O g' := by
  obtain ⟨h, p, horigin, hcopy⟩ := h
  exact ⟨h, p, horigin, hcopy.trans hg⟩

/-- The signal names the bundle with the header `g`. -/
structure IsAbout (cs : CustodySignal) (g : BpHeader6) : Prop where
  source : cs.srcEid = g.getSourceEid.uri
  createTimestamp : cs.creationTimestamp = g.createTimestamp
  timestampSeqNum : cs.seqNo = g.timestampSeqNum

/-- Every header the agent holds, has handed over, delivered or signalled is a copy of a created
one. -/
structure Traced (O : BpHeader6 → Packet → Prop) (s : BpAgent6) : Prop where
  header : ∀ x, s.InUse x → CopiedFrom O (s.header x)
  handed : ∀ tx ∈ s.handed, CopiedFrom O tx.header
  delivered : ∀ d ∈ s.delivered, CopiedFrom O d.2.2
  signals : ∀ d ∈ s.signals, ∃ g, CopiedFrom O g ∧ IsAbout d.2.2 g

section Traced
variable {O : BpHeader6 → Packet → Prop}

/-- `Keeps` keeps the headers. -/
theorem Traced.header_of_keeps (h : Traced O s) (hb : CopiedFrom O (s.header b)) (hkeeps : Keeps s b t) :
    ∀ x, x = b ∨ t.InUse x → CopiedFrom O (t.header x) := by
  intro x hx
  have hold : x = b ∨ s.InUse x := hx.elim Or.inl (hkeeps.inUse x)
  rcases hold with rfl | hold
  · exact hb.copy (hkeeps.header x)
  · exact (h.header x hold).copy (hkeeps.header x)

theorem Traced.forward (h : Traced O s) (hb : CopiedFrom O (s.header b))
    (hrun : s.forward b = some t) : Traced O t where
  header x hx := h.header_of_keeps hb (keeps_forward hrun) x (Or.inr hx)
  handed tx htx := by
    rcases handed_forward hrun htx with htx | ⟨cla, adu, r, -, -, -, rfl⟩
    · exact h.handed tx htx
    · exact hb.copy (s.copyOf_transmission b cla _ _ adu r)
  delivered := by
    rw [delivered_forward hrun]
    exact h.delivered
  signals := by
    rw [(forward_frame hrun).signals]
    exact h.signals

/-- A new object stands at `b`. -/
theorem Traced.placed (h : Traced O s) (hnew : CopiedFrom O (t.header b))
    (hheap : ∀ x, x ≠ b → t.heap x = s.heap x) (huse : ∀ x, t.InUse x → x = b ∨ s.InUse x)
    (hhanded : t.handed = s.handed) (hdelivered : t.delivered = s.delivered)
    (hsignals : t.signals = s.signals) : Traced O t where
  header x hx := by
    by_cases hxb : x = b
    · subst hxb
      exact hnew
    · rw [BundleStore.header_congr (hheap x hxb)]
      exact h.header x ((huse x hx).resolve_left hxb)
  handed := hhanded ▸ h.handed
  delivered := hdelivered ▸ h.delivered
  signals := hsignals ▸ h.signals

theorem Traced.acceptBundle (h : Traced O s) (hrx : CopiedFrom O rx.header)
    (hrun : s.acceptBundle b rx = some t) : Traced O t := by
  obtain ⟨-, -, -, hhanded, hsignals⟩ := rest_acceptBundle hrun
  refine h.placed (b := b) ?_ (fun x hx => heap_acceptBundle_of_ne hrun hx)
    (fun x => inUse_acceptBundle hrun) hhanded (delivered_acceptBundle hrun) hsignals
  rw [header_acceptBundle hrun]
  exact hrx

theorem signals_createBundle (hrun : s.createBundle b p src dst lifetime custody priority = some t) :
    t.signals = s.signals := by
  obtain ⟨hdr, -, ⟨-, rfl⟩ | ⟨-, -, rfl⟩⟩ := createBundle_eq_some.mp hrun
  · rfl
  · rfl

/-- A bundle is created and forwarded. -/
theorem Traced.send {code : ℤ} (h : Traced O s)
    (hnew : ¬s.Refused src → ∀ hdr, newHeader s.config.eid p.size src dst lifetime custody priority
      s.sim.now s.seq = some hdr → O hdr p)
    (hrun : s.send b p src dst lifetime custody priority = some (t, code)) : Traced O t := by
  rcases send_eq_some.mp hrun with ⟨-, rfl, -⟩ | ⟨hsrc, u, hu, hforward, -⟩
  · exact h
  · obtain ⟨hdr, id, hhdr, hself⟩ := heap_createBundle hu
    obtain ⟨-, hhanded, hdelivered⟩ := rest_createBundle hu
    have hcreated : CopiedFrom O (u.header b) := by
      rw [BundleStore.header, hself]
      exact ⟨hdr, p, hnew hsrc hdr hhdr, .refl hdr⟩
    refine Traced.forward (b := b) ?_ hcreated hforward
    exact h.placed hcreated (fun x hx => heap_createBundle_of_ne hu hx)
      (fun x => inUse_createBundle hu) hhanded hdelivered (signals_createBundle hu)

theorem Traced.enqueueIfActive {state : Bool} (h : Traced O s) (hb : CopiedFrom O (s.header b))
    (hrun : s.enqueueIfActive b state = some t) : Traced O t ∧ CopiedFrom O (t.header b) := by
  have hframe := (deliveryClosed_frame s).enqueueIfActive (.refl s) hrun
  have hkeeps := (deliveryClosed_keeps s b).enqueueIfActive (.refl s b) hrun
  have hheader := h.header_of_keeps hb hkeeps
  refine ⟨⟨fun x hx => hheader x (Or.inr hx), hframe.handed ▸ h.handed, ?_, hframe.signals ▸ h.signals⟩,
    hheader b (Or.inl rfl)⟩
  rw [delivered_enqueueIfActive hrun]
  split
  · intro d hd
    rcases List.mem_append.mp hd with hd | hd
    · exact h.delivered d hd
    · rw [List.mem_singleton.mp hd]
      exact hb
  · exact h.delivered

/-- A generated signal names the bundle it is about. -/
theorem isAbout_of_custodySignalPacket {cs : CustodySignal}
    (hrun : s.custodySignalPacket b = some (cs, p)) : IsAbout cs (s.header b) := by
  obtain ⟨cs', hcs, hrun⟩ := Option.bind_eq_some_iff.mp hrun
  obtain ⟨p', -, hrun⟩ := Option.bind_eq_some_iff.mp hrun
  cases hrun
  obtain ⟨len, -, hcs⟩ := Option.bind_eq_some_iff.mp hcs
  cases hcs
  exact ⟨rfl, rfl, rfl⟩

/-- An arrival, when the signal it may cause is a bundle created. -/
theorem Traced.processBundle (h : Traced O s) (hrx : CopiedFrom O rx.header)
    (hnew : ∀ u v state cs p hdr, s.acceptBundle b rx = some u →
      u.findRegistration (u.header b).getDestinationEid = some state →
      u.enqueueIfActive b state = some v → (v.header b).custTxReq = true →
      v.custodySignalPacket b = some (cs, p) → ¬v.Refused v.config.eid →
      newHeader v.config.eid p.size v.config.eid (v.header b).getCustEid (v.header b).lifeTime
        false 0 v.sim.now v.seq = some hdr → O hdr p)
    (hrun : s.processBundle b q rx = some t) : Traced O t := by
  obtain ⟨u, hu, hcase⟩ := processBundle_eq_some.mp hrun
  have haccepted := h.acceptBundle hrx hu
  have hb : CopiedFrom O (u.header b) := by
    rw [header_acceptBundle hu]
    exact hrx
  rcases hcase with ⟨-, hdeliver⟩ | ⟨-, hforward⟩
  · rcases deliver_eq_some.mp hdeliver with ⟨-, rfl⟩ | ⟨state, v, hfind, hv, hcase⟩
    · exact haccepted
    · obtain ⟨henqueued, hb'⟩ := haccepted.enqueueIfActive hb hv
      rcases hcase with ⟨-, rfl⟩ | ⟨hcust, hsignal⟩
      · exact henqueued
      · obtain ⟨cs, p, code, hpacket, hsend⟩ := sendCustodySignal_eq_some.mp hsignal
        have hlogged : Traced O (v.signalLogged b cs) := by
          refine ⟨henqueued.header, henqueued.handed, henqueued.delivered, fun d hd => ?_⟩
          rcases List.mem_append.mp hd with hd | hd
          · exact henqueued.signals d hd
          · rw [List.mem_singleton.mp hd]
            exact ⟨_, hb', isAbout_of_custodySignalPacket hpacket⟩
        refine hlogged.send (fun hsrc hdr hhdr => ?_) hsend
        exact hnew u v state cs p hdr hu hfind hv hcust hpacket hsrc hhdr
  · exact haccepted.forward hb hforward

theorem Traced.forwardAll {l : List Ptr} (h : Traced O s) (hl : ∀ x ∈ l, CopiedFrom O (s.header x))
    (hrun : s.forwardAll l = some t) : Traced O t := by
  induction l generalizing s with
  | nil =>
    cases hrun
    exact h
  | cons b l ih =>
    obtain ⟨u, hu, hrun⟩ := Option.bind_eq_some_iff.mp hrun
    refine ih (h.forward (hl b List.mem_cons_self) hu) (fun x hx => ?_) hrun
    exact (hl x (List.mem_cons_of_mem b hx)).copy ((keeps_forward hu).header x)

/-- Bundles go out of use. -/
theorem Traced.shrink (h : Traced O s) (hheader : ∀ x, t.header x = s.header x)
    (hstore : ∀ y ∈ t.mStore, y ∈ s.mStore) (hpending : ∀ e ∈ t.sim.pending, e ∈ s.sim.pending)
    (hhanded : t.handed = s.handed) (hdelivered : t.delivered = s.delivered)
    (hsignals : t.signals = s.signals) : Traced O t where
  header x hx := by
    rw [hheader x]
    exact h.header x (hx.of_subset hstore hpending)
  handed := hhanded ▸ h.handed
  delivered := hdelivered ▸ h.delivered
  signals := hsignals ▸ h.signals

theorem Traced.discarded (h : Traced O s) (b : Ptr) : Traced O (s.discarded b) :=
  h.shrink (s.header_discarded b) (fun _ => List.mem_of_mem_erase) (s.pending_discarded b).subset
    rfl rfl rfl

theorem Traced.popEvent (h : Traced O s) (e : ScheduledEvent) : Traced O (s.popEvent e) :=
  h.shrink (fun _ => rfl) (fun _ hy => hy) (fun _ he => List.mem_of_mem_erase he) rfl rfl rfl

/-- **What happens at one agent** keeps it traced, when the bundle it may create counts as
created. -/
theorem Traced.act {op : Op} (h : Traced O s) (hop : s.Admissible op)
    (hact : ∀ b q rx, op ≠ .processBundle b q rx)
    (hnew : ∀ hdr p, Creates s (.act op) hdr p → O hdr p)
    (hstep : BpAgent6.step op s = some t) : Traced O t := by
  cases op with
  | send b p src dst lifetime custody priority =>
    obtain ⟨⟨u, code⟩, hu, rfl⟩ := Option.map_eq_some_iff.mp hstep
    exact h.send (fun hsrc hdr hhdr => hnew hdr p (.send hsrc hhdr)) hu
  | processBundle b q rx => exact absurd rfl (hact b q rx)
  | claReady cla =>
    refine h.forwardAll (fun x hx => ?_) hstep
    exact h.header x (Or.inl (List.mem_filter.mp hx).1)
  | receive eid =>
    obtain ⟨⟨u, p⟩, hu, rfl⟩ := Option.map_eq_some_iff.mp hstep
    rcases receive_eq_some.mp hu with ⟨-, rfl, -⟩ | ⟨b, adu, -, -, -, -, rfl⟩
    · exact h
    · exact (h.discarded b).shrink (fun _ => rfl) (fun _ hy => hy) (fun _ he => he) rfl rfl rfl
  | fire e =>
    have htarget : CopiedFrom O (s.header e.call.target) := h.header _ (Or.inr ⟨e, hop.1, rfl⟩)
    rw [BpAgent6.step] at hstep
    cases hcall : e.call with
    | expire b =>
      rw [hcall] at hstep
      obtain ⟨-, -, rfl⟩ := expire_eq_some.mp hstep
      exact (h.popEvent e).discarded b
    | forward b =>
      rw [hcall] at hstep htarget
      exact (h.popEvent e).forward htarget hstep
  | advance now =>
    cases hstep
    exact h.shrink (fun _ => rfl) (fun _ hy => hy) (fun _ he => he) rfl rfl rfl
  | configure config =>
    cases hstep
    exact h.shrink (fun _ => rfl) (fun _ hy => hy) (fun _ he => he) rfl rfl rfl

/-- **What arrives is a copy of what was sent.** -/
theorem CopiedFrom.dataRecv {d : Datagram} {tx : Transmission} (htx : CopiedFrom O tx.header)
    (hcbhe : ∀ h p, O h p → h.cbhe = false) (hcarries : d.Carries tx)
    (hrx : dataRecv false d.packet.bytes = some rx) : CopiedFrom O rx.header := by
  rw [(received_of_carries hcarries hrx).1]
  refine htx.copy (copyOf_onWire ?_)
  obtain ⟨h, p, horigin, hcopy⟩ := htx
  exact hcopy.shown.cbhe.trans (hcbhe h p horigin)

end Traced

/-! ## The network -/

section Network
variable {Node : Type*} [DecidableEq Node] {guard : Node → BpAgent6 → NodeOp → Prop}
  {n n' : Node → BpAgent6} {ops : List (Node × NodeOp)}

theorem Origin.cbhe {h : BpHeader6} (horigin : Origin guard n ops h p) : h.cbhe = false := by
  obtain ⟨i, s, op, -, hcreates⟩ := horigin
  obtain ⟨lifetime, custody, now, seq, hspec⟩ := hcreates.newHeader_spec
  exact hspec.cbhe

theorem Pristine.traced {O : BpHeader6 → Packet → Prop} (h : s.Pristine) : Traced O s where
  header x hx := by
    rcases hx with hx | ⟨e, he, -⟩
    · rw [h.mStore] at hx
      cases hx
    · rw [h.pending] at he
      cases he
  handed tx htx := by
    rw [h.handed] at htx
    cases htx
  delivered d hd := by
    rw [h.delivered] at hd
    cases hd
  signals d hd := by
    rw [h.signals] at hd
    cases hd

/-- A packet on the medium shows a copy of a created header. -/
def CarriesCopy (O : BpHeader6 → Packet → Prop) (packet : List UInt8) : Prop :=
  ∃ tx : Transmission, CopiedFrom O tx.header ∧
    ∃ reserved : List UInt8, reserved.length = 6 ∧ packet = tx.wire reserved

/-- One step of one node. -/
theorem Traced.step {O : BpHeader6 → Packet → Prop} {op : NodeOp} (h : Traced O s)
    (hop : op.Allowed s) (htakes : ∀ packet, op.Takes packet → CarriesCopy O packet)
    (hcbhe : ∀ h p, O h p → h.cbhe = false) (hnew : ∀ hdr p, Creates s op hdr p → O hdr p)
    (hstep : op.step s = some t) : Traced O t := by
  cases op with
  | act o => exact h.act hop.2 hop.1 hnew hstep
  | arrive d =>
    obtain ⟨rx, hrx, hrun⟩ := Option.bind_eq_some_iff.mp hstep
    obtain ⟨tx, htx, hcarries⟩ := htakes _ rfl
    refine h.processBundle (htx.dataRecv hcbhe hcarries hrx) ?_ hrun
    intro u v state cs p hdr hu hfind hv hcust hpacket hsrc hhdr
    exact hnew hdr p (.custodySignal hrx hu hfind hv hcust hpacket hsrc hhdr)

theorem traced_of_run (hinit : ∀ i, (n i).Pristine) (hrun : (network guard).Run n ops n') (i : Node) :
    Traced (Origin guard n ops) (n' i) := by
  refine (network guard).invariant (fun _ s => Traced (Origin guard n ops) s)
    (CarriesCopy (Origin guard n ops)) ?_ ?_ hrun (fun i => (hinit i).traced) i
  · rintro i s packet hs ⟨tx, htx, hwire⟩
    exact ⟨tx, hs.handed tx htx, hwire⟩
  · intro i s op t hs hguard htakes hoccurs hstep
    refine hs.step hguard.1 htakes (fun h p horigin => horigin.cbhe) (fun hdr p hcreates => ?_) hstep
    exact ⟨i, s, op, hoccurs, hcreates⟩

/-- **No bundle comes from nowhere**: in every run of a network, whatever the medium does with the
packets, every bundle stored at a node, every one it has handed over or delivered, and every
bundle a custody signal of it names shows a copy of the header of a bundle that was created in the
run. -/
theorem provenance (hinit : ∀ i, (n i).Pristine) (hrun : (network guard).Run n ops n') (i : Node) :
    (∀ x ∈ (n' i).mStore, CopiedFrom (Origin guard n ops) ((n' i).header x)) ∧
      (∀ tx ∈ (n' i).handed, CopiedFrom (Origin guard n ops) tx.header) ∧
      (∀ d ∈ (n' i).delivered, CopiedFrom (Origin guard n ops) d.2.2) ∧
      ∀ d ∈ (n' i).signals, ∃ g, CopiedFrom (Origin guard n ops) g ∧ IsAbout d.2.2 g := by
  have htraced := traced_of_run hinit hrun i
  exact ⟨fun x hx => htraced.header x (Or.inl hx), htraced.handed, htraced.delivered,
    htraced.signals⟩

end Network

/-- Two bytes are sent with custody in two bundles, and the peer puts them together and answers with
two signals.  What it stores and what it hands over are copies of three created bundles. -/
theorem provenance_sample :
    ∃ (n' : Bool → BpAgent6) (ops : List (Bool × NodeOp)),
      (network fun _ _ _ => True).Run Sample.pair ops n' ∧ ops.length = 3 ∧
      (n' true).mStore.length = 1 ∧ (n' true).handed.length = 2 ∧
      (∀ x ∈ (n' true).mStore,
        CopiedFrom (Origin (fun _ _ _ => True) Sample.pair ops) ((n' true).header x)) ∧
      ∀ tx ∈ (n' true).handed, CopiedFrom (Origin (fun _ _ _ => True) Sample.pair ops) tx.header := by
  obtain ⟨n', hreplay, htest⟩ := (Option.any_eq_true _ _).mp (by decide +kernel :
    (Sample.replay (fun _ _ _ => True) Sample.pair
      [.send false 1 Sample.twoBytes (Sample.eid 97) true, .arrive true 1 1,
        .arrive true 2 0]).any (fun n' : Bool → BpAgent6 =>
      decide ((n' true).mStore.length = 1 ∧ (n' true).handed.length = 2)) = true)
  obtain ⟨hstore, hhanded⟩ := of_decide_eq_true htest
  obtain ⟨ops, hrun, hlength⟩ := Sample.run_of_replay hreplay
  obtain ⟨hstored, hsent, -⟩ := provenance (fun i => (Sample.pristine_pair i).1) hrun true
  exact ⟨n', ops, hrun, hlength, hstore, hhanded, hstored, hsent⟩

end BpAgent6
end BundleProtocol
