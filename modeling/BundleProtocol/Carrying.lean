import BundleProtocol.Custodian
import BundleProtocol.Persistence

/-! # Store, carry and forward

A bundle waits in the store as long as no convergence layer is ready for it.  It is carried unchanged,
whatever else happens at the node, until all of it is handed over, its lifetime is over, an
application at the node receives it, or an arrival is about that very bundle (`carried`).  And the
first `ClaReady` that finds its convergence layer ready hands it over, whatever its own searches of
the set come to.

The runs are those in which every forwarded bundle keeps its place in the store.  A bundle that is
disposed of in a store out of order can stay in it, marked as waiting, and the next `ClaReady` follows
its null `m_adu`.
-/
namespace BundleProtocol
open TransitionSystem FlagWord BpHeader6

namespace BpAgent6
variable {s t u v : BpAgent6} {b q x : Ptr} {p : Packet} {hdr : BpHeader6} {cla : ClaId}
  {rx : ReceivedBundle}

/-! ## Expiries are due -/

/-- Every pending expiry is due at the end of its bundle's lifetime. -/
def Due (s : BpAgent6) : Prop :=
  ∀ e ∈ s.sim.pending, ∀ x, e.call = .expire x →
    (s.header x).lifeTime ≠ 0 ∧ e.ts = (s.header x).deadline

/-- No expiry is scheduled. -/
theorem Due.of_pending (h : s.Due) (hheader : ∀ x, (s.header x).SameBundle (t.header x))
    (hpending : ∀ e ∈ t.sim.pending, e ∈ s.sim.pending ∨ ∀ x, e.call ≠ .expire x) : t.Due := by
  intro e he x hcall
  obtain ⟨hlife, hts⟩ := h e ((hpending e he).resolve_right fun hno => hno x hcall) x hcall
  rw [(hheader x).lifeTime, (hheader x).deadline]
  exact ⟨hlife, hts⟩

theorem Due.discarded (h : s.Due) (b : Ptr) : (s.discarded b).Due := by
  refine h.of_pending (fun x => ?_) fun e he => Or.inl ((s.pending_discarded b).subset he)
  rw [header_discarded]
  exact .refl _

theorem Due.modify (h : s.Due) {f : Bundle6 → Bundle6}
    (hf : ∀ y : Bundle6, y.primaryHeader.SameBundle (f y).primaryHeader) : (s.modify b f).Due :=
  h.of_pending (fun x => rel_heap_modify (R := fun y z => y.primaryHeader.SameBundle z.primaryHeader)
    (fun _ => .refl _) (hf _) x) fun _ he => Or.inl he

theorem deliveryClosed_due : DeliveryClosed Due where
  delivered h := h
  withAdu h := h.modify fun _ => .refl _
  acked h := h.modify fun _ => .refl _
  markWhole h := h.modify fun _ => sameBundle_setIsFragment _ _
  removed h _ := h.of_pending (fun _ => .refl _) fun _ he =>
    Or.inl ((Memory.pending_clearEvents_sublist _ _).subset he)
  discarded h _ := h.discarded _

/-- A bundle object is made at a fresh address. -/
theorem Due.placed (h : s.Due) (hb : s.Fresh b) (hheap : ∀ x, x ≠ b → t.heap x = s.heap x)
    (hsim : t.sim = s.sim) : t.Due := by
  intro e he x hcall
  rw [hsim] at he
  have hxb : x ≠ b := by
    rintro rfl
    refine hb.2 e he ?_
    rw [hcall]
    rfl
  rw [BundleStore.header_congr (hheap x hxb)]
  exact h e he x hcall

/-- **The expiry that `Store` schedules** is due like the others. -/
theorem Due.stored (h : s.Due) (b : Ptr) : (s.stored b).Due := by
  intro e he x hcall
  have hheader : (s.stored b).header x = s.header x := s.toBundleStore.header_stored b x
  rw [hheader]
  by_cases hlife : (s.header b).lifeTime = 0
  · rcases s.stored_cases b with ⟨-, hsim, -⟩ | ⟨hno, -⟩
    · rw [hsim] at he
      exact h e he x hcall
    · exact absurd hlife hno
  · rcases ((stored_timed hlife).2.1 e).mp he with he | rfl
    · exact h e he x hcall
    · cases hcall
      exact ⟨hlife, rfl⟩

theorem Due.acceptBundle (h : s.Due) (hb : s.Fresh b) (hrun : s.acceptBundle b rx = some t) : t.Due := by
  have hplaced : (s.arrived b rx).Due := h.placed hb (fun x hx => heap_modify_of_ne s hx _) rfl
  rcases acceptBundle_eq_some.mp hrun with ⟨-, rfl⟩ | ⟨-, -, rfl⟩
  · exact hplaced
  · exact hplaced.stored b

theorem Due.forward (h : s.Due) (hrun : s.forward b = some t) : t.Due := by
  have hheader := (forward_frame hrun).header
  have hsent : ∀ cla adu, ∀ e ∈ (s.sent b cla adu).sim.pending,
      e ∈ s.sim.pending ∨ ∀ x, e.call ≠ .expire x := by
    intro cla adu e he
    rw [sim_sent] at he
    split at he
    · rcases Simulator.mem_pending_schedule.mp he with he | rfl
      · exact Or.inl he
      · exact Or.inr fun x hcall => by cases hcall
    · exact Or.inl he
  rcases forward_eq_some.mp hrun with ⟨-, rfl⟩ | ⟨cla, adu, -, -, -, ⟨-, rfl⟩ | ⟨-, -, rfl⟩⟩
  · exact h.of_pending hheader fun _ he => Or.inl he
  · exact h.of_pending hheader (hsent cla adu)
  · exact h.of_pending hheader fun e he => hsent cla adu e ((pending_discarded _ b).subset he)

theorem Due.send {src dst : BpEndpointId} {lifetime : Time} {custody : Bool} {priority : UInt32}
    {code : ℤ} (h : s.Due) (hb : s.Fresh b)
    (hrun : s.send b p src dst lifetime custody priority = some (t, code)) : t.Due := by
  rcases send_eq_some.mp hrun with ⟨-, rfl, -⟩ | ⟨-, u, hu, hforward, -⟩
  · exact h
  · refine Due.forward ?_ hforward
    obtain ⟨hdr, -, hcase⟩ := createBundle_eq_some.mp hu
    have hplaced : (s.created b hdr p custody).Due := h.placed hb (fun x hx => heap_modify_of_ne s hx _) rfl
    rcases hcase with ⟨-, rfl⟩ | ⟨-, -, rfl⟩
    · exact hplaced
    · exact hplaced.stored b

theorem Due.processBundle (h : s.Due) (hb : s.Fresh b) (hq : s.Fresh q) (hne : b ≠ q)
    (hrun : s.processBundle b q rx = some t) : t.Due := by
  obtain ⟨u, hu, ⟨-, hdeliver⟩ | ⟨-, hforward⟩⟩ := processBundle_eq_some.mp hrun
  · have haccepted := h.acceptBundle hb hu
    rcases deliver_eq_some.mp hdeliver with ⟨-, rfl⟩ | ⟨state, v, -, hv, hcase⟩
    · exact haccepted
    have henqueued := deliveryClosed_due.enqueueIfActive haccepted hv
    rcases hcase with ⟨-, rfl⟩ | ⟨-, hsignal⟩
    · exact henqueued
    · obtain ⟨cs, packet, code, -, hsend⟩ := sendCustodySignal_eq_some.mp hsignal
      have hfresh : v.Fresh q := fresh_enqueued hq hne hu hv
      exact Due.send (s := v.signalLogged b cs) henqueued hfresh hsend
  · exact (h.acceptBundle hb hu).forward hforward

/-- **One operation.** -/
theorem Due.step {op : Op} (h : s.Due) (hop : s.Admissible op)
    (hstep : BpAgent6.step op s = some t) : t.Due := by
  cases op with
  | send b p src dst lifetime custody priority =>
    obtain ⟨⟨u, code⟩, hu, rfl⟩ := Option.map_eq_some_iff.mp hstep
    exact h.send hop hu
  | processBundle b q rx =>
    obtain ⟨hb, hq, hne⟩ := hop
    exact h.processBundle hb hq hne hstep
  | claReady cla => exact forwardAll_induction h (fun _ _ _ _ _ _ _ hu hv => hu.forward hv) hstep
  | receive eid =>
    obtain ⟨⟨u, p⟩, hu, rfl⟩ := Option.map_eq_some_iff.mp hstep
    rcases receive_eq_some.mp hu with ⟨-, rfl, -⟩ | ⟨b, adu, -, -, -, -, rfl⟩
    · exact h
    · exact h.discarded b
  | fire e =>
    have hpopped : (s.popEvent e).Due :=
      h.of_pending (fun _ => .refl _) fun _ he => Or.inl (List.mem_of_mem_erase he)
    rw [BpAgent6.step] at hstep
    cases hcall : e.call with
    | expire b =>
      rw [hcall] at hstep
      obtain ⟨-, -, rfl⟩ := expire_eq_some.mp hstep
      exact hpopped.discarded b
    | forward b =>
      rw [hcall] at hstep
      exact hpopped.forward hstep
  | advance now =>
    cases hstep
    exact h
  | configure config =>
    cases hstep
    exact h

/-- With the other invariants of timers. -/
theorem Due.step_timers {op : Op} (h : s.Due) (htimers : s.LiveTimers True) (hnodup : s.mStore.Nodup)
    (hop : s.Admissible op) (hstep : BpAgent6.step op s = some t) :
    t.Due ∧ t.LiveTimers True ∧ t.mStore.Nodup :=
  ⟨h.step hop hstep, htimers.step hnodup hop (Or.inl trivial) hstep, nodup_step hnodup hop hstep⟩

theorem Initial.due (h : s.Initial) : s.Due := by
  intro e he
  rw [h.pending] at he
  cases he

/-! ## Bundles that wait -/

/-- The bundle is stored and waits for a convergence layer, with this header and this ADU. -/
structure Carries (s : BpAgent6) (x : Ptr) (hdr : BpHeader6) (p : Packet) : Prop where
  stored : x ∈ s.mStore
  waiting : test (s.heap x).retentionConstraints forwardPending = true
  header : s.header x = hdr
  adu : (s.heap x).adu = some p

/-- Only what is acknowledged of the bundle changes. -/
theorem Carries.of_acks (h : s.Carries x hdr p) (hstored : x ∈ t.mStore)
    (hheap : ∃ acks, t.heap x = { s.heap x with acks := acks }) : t.Carries x hdr p := by
  obtain ⟨acks, hheap⟩ := hheap
  refine ⟨hstored, ?_, ?_, ?_⟩
  · rw [hheap]
    exact h.waiting
  · rw [BundleStore.header, hheap]
    exact h.header
  · rw [hheap]
    exact h.adu

theorem Carries.of_heap (h : s.Carries x hdr p) (hstored : x ∈ t.mStore)
    (hheap : t.heap x = s.heap x) : t.Carries x hdr p :=
  h.of_acks hstored ⟨(s.heap x).acks, hheap⟩

/-- Between `s` and `t` all of the ADU `p` is handed over, under copies of the header. -/
def HandsAll (s : BpAgent6) (hdr : BpHeader6) (p : Packet) (t : BpAgent6) : Prop :=
  ∃ before txs after, t.handed = s.handed ++ before ++ txs ++ after ∧
    (∀ tx ∈ txs, CopyOf hdr tx.header) ∧ (txs.map fun tx => tx.payload.bytes).flatten = p.bytes

/-- More is handed over before and after. -/
theorem HandsAll.mono {l l' : List Transmission} (h : HandsAll t hdr p u)
    (hbefore : t.handed = s.handed ++ l) (hafter : v.handed = u.handed ++ l') : HandsAll s hdr p v := by
  obtain ⟨before, txs, after, hhanded, hcopies, hbytes⟩ := h
  refine ⟨l ++ before, txs, after ++ l', ?_, hcopies, hbytes⟩
  rw [hafter, hhanded, hbefore]
  simp only [List.append_assoc]

/-- Handing over adds to the log. -/
theorem handed_forward_append (hrun : s.forward b = some t) : ∃ l, t.handed = s.handed ++ l := by
  rcases forward_eq_some.mp hrun with ⟨-, rfl⟩ | ⟨cla, adu, -, -, -, ⟨-, rfl⟩ | ⟨-, -, rfl⟩⟩
  · exact ⟨[], (List.append_nil _).symm⟩
  · exact ⟨_, s.handed_sent b cla adu⟩
  · exact ⟨_, s.handed_sent b cla adu⟩

theorem handed_forwardAll_append {l : List Ptr} (hrun : s.forwardAll l = some t) :
    ∃ l', t.handed = s.handed ++ l' := by
  refine forwardAll_induction (P := fun v => ∃ l', v.handed = s.handed ++ l')
    ⟨[], (List.append_nil _).symm⟩ ?_ hrun
  rintro - y - v w - - ⟨l₁, hv⟩ hforward
  obtain ⟨l₂, hw⟩ := handed_forward_append hforward
  exact ⟨l₁ ++ l₂, by rw [hw, hv, List.append_assoc]⟩

/-! ## Forwarding -/

/-- What is handed over of the bundle carries its header. -/
theorem Carries.copyOf_output (h : s.Carries x hdr p) {tx : Transmission} (htx : tx ∈ s.output x cla) :
    CopyOf hdr tx.header := by
  rw [output_of_adu h.adu] at htx
  obtain ⟨r, -, rfl⟩ := List.mem_map.mp htx
  rw [← h.header]
  exact s.copyOf_transmission x cla _ _ p r

/-- **Forwarding the bundle**: without a convergence layer it waits on, else all of it goes. -/
theorem Carries.forward_self (h : s.Carries x hdr p) (hrun : s.forward x = some t) :
    (t.Carries x hdr p ∧ s.readyCla x = none) ∨ HandsAll s hdr p t := by
  rcases forward_eq_some.mp hrun with ⟨hnone, rfl⟩ | ⟨cla, adu, -, hadu, hm, hcase⟩
  · have hself : (s.flagged x).heap x = _ := heap_modify_self s x _
    refine Or.inl ⟨⟨h.stored, s.flag_flagged x, (s.header_flagged x x).trans h.header, ?_⟩, hnone⟩
    rw [hself]
    exact h.adu
  · cases h.adu.symm.trans hadu
    have hhanded : t.handed = (s.sent x cla p).handed := by
      rcases hcase with ⟨-, rfl⟩ | ⟨-, -, rfl⟩
      · rfl
      · rfl
    refine Or.inr ⟨[], s.output x cla, [], ?_, fun tx htx => ?_, ?_⟩
    · rw [hhanded, handed_sent, output_of_adu hadu, List.append_nil, List.append_nil]
    · exact h.copyOf_output htx
    · rcases hm with hm | hempty
      · exact (output_spec cla hadu hm).1.payloads
      · rw [output_of_adu hadu, pieces, hempty, Tiling.chunks_zero]
        exact (List.length_eq_zero_iff.mp hempty).symm

theorem Carries.forward (h : s.Carries x hdr p) (hxb : x ≠ b) (hrun : s.forward b = some t) :
    t.Carries x hdr p := by
  have hframe := forward_frame hrun
  exact h.of_heap ((hframe.mem_iff hxb).mpr h.stored) (hframe.heap x hxb)

/-- Forwarding one bundle after another, with this one among them or not. -/
theorem Carries.forwardAll {l : List Ptr} (h : s.Carries x hdr p) (hrun : s.forwardAll l = some t) :
    (t.Carries x hdr p ∧ (x ∈ l → s.readyCla x = none)) ∨ HandsAll s hdr p t := by
  induction l generalizing s with
  | nil =>
    cases hrun
    exact Or.inl ⟨h, fun hx => by cases hx⟩
  | cons b l ih =>
    obtain ⟨u, hu, hrest⟩ := Option.bind_eq_some_iff.mp hrun
    obtain ⟨l₁, hfirst⟩ := handed_forward_append hu
    have hstays : u.Carries x hdr p ∧ (x = b → s.readyCla x = none) ∨ HandsAll s hdr p u := by
      by_cases hxb : x = b
      · subst hxb
        exact (h.forward_self hu).imp_left fun hstays => ⟨hstays.1, fun _ => hstays.2⟩
      · exact Or.inl ⟨h.forward hxb hu, fun heq => absurd heq hxb⟩
    rcases hstays with ⟨hux, hnone⟩ | hhands
    · -- the convergence layer depends on the header and the configuration
      have hsame : u.readyCla x = s.readyCla x := by
        have hheader : u.header x = s.header x := hux.header.trans h.header.symm
        unfold readyCla outgoingCla
        rw [hheader, (forward_frame hu).config]
      rcases ih hux hrest with ⟨htx, hlater⟩ | hhands
      · refine Or.inl ⟨htx, fun hx => ?_⟩
        rcases List.mem_cons.mp hx with heq | hx
        · exact hnone heq
        · exact hsame ▸ hlater hx
      · exact Or.inr (hhands.mono hfirst (List.append_nil _).symm)
    · obtain ⟨l₂, hlast⟩ := handed_forwardAll_append hrest
      exact Or.inr (hhands.mono (List.append_nil _).symm hlast)

/-- **The first chance is taken.** -/
theorem Carries.handsAll_of_drains (h : s.Carries x hdr p) (hready : s.readyCla x = some cla)
    (hm : s.config.bundleSize ≠ 0) (hdrains : Drains s cla t) : HandsAll s hdr p t := by
  have hmem : x ∈ s.getForwardPendingBundles cla s.outgoingCla :=
    BundleStore.mem_getForwardPendingBundles.mpr
      ⟨h.stored, h.waiting, (Option.filter_eq_some_iff.mp hready).1⟩
  obtain ⟨l₁, l₂, hlist⟩ := List.append_of_mem hmem
  refine ⟨l₁.flatMap fun b => s.output b cla, s.output x cla, l₂.flatMap fun b => s.output b cla, ?_,
    fun tx htx => h.copyOf_output htx, (output_spec cla h.adu hm).1.payloads⟩
  rw [hdrains.handed, hlist, List.flatMap_append, List.flatMap_cons]
  simp only [List.append_assoc]

/-! ## How a bundle departs -/

/-- What takes a bundle that waits, with the header `hdr` and the ADU `p`, out of the store. -/
inductive Departs (s : BpAgent6) (x : Ptr) (hdr : BpHeader6) (p : Packet) (t : BpAgent6) : Op → Prop
  | handedOver {cla : ClaId} (hhands : HandsAll s hdr p t) : Departs s x hdr p t (.claReady cla)
  /-- Its lifetime ends now. -/
  | expired {e : ScheduledEvent} (hcall : e.call = .expire x) (hlife : hdr.lifeTime ≠ 0)
      (hts : e.ts = hdr.deadline) : Departs s x hdr p t (.fire e)
  /-- An application at this node asks for what is on its way to `eid`. -/
  | received {eid : BpEndpointId} (hreceive : s.receive eid = some (t, some p))
      (hdst : (hdr.getDestinationEid == eid) = true) : Departs s x hdr p t (.receive eid)
  /-- A fragment of the same identity arrives for this node. -/
  | joined {b q : Ptr} {rx : ReceivedBundle} (hfragment : rx.header.isFragment = true)
      (hnamed : Named rx.header hdr) (hlocal : s.isNodeMember rx.header.getDestinationEid = true) :
      Departs s x hdr p t (.processBundle b q rx)
  /-- A custody signal arrives that completes what has been acknowledged of it. -/
  | acknowledged {b q : Ptr} {rx : ReceivedBundle} {ar : AdminRecord} {cs : CustodySignal}
      {rest rest' : List UInt8} (har : AdminRecord.removeFrom rx.adu.bytes = some (ar, rest))
      (hcs : CustodySignal.removeFrom rest = some (cs, rest')) (hacks : Acknowledges cs hdr)
      (hcompletes : s.Completes x cs) (hagent : (rx.header.getDestinationEid == s.config.eid) = true) :
      Departs s x hdr p t (.processBundle b q rx)

/-- Local delivery of another bundle. -/
theorem Carries.enqueueIfActive {state : Bool} (h : s.Carries x hdr p) (hxb : x ≠ b)
    (hrun : s.enqueueIfActive b state = some t) :
    t.Carries x hdr p ∨ ((s.header b).isFragment = true ∧ Named (s.header b) hdr) ∨
      ∃ adu ar rest cs rest', (s.heap b).adu = some adu ∧
        AdminRecord.removeFrom adu.bytes = some (ar, rest) ∧
        CustodySignal.removeFrom rest = some (cs, rest') ∧ Acknowledges cs hdr ∧
        s.Completes x cs ∧ s.isForAgent b = true := by
  cases state with
  | false =>
    cases hrun
    exact Or.inl h
  | true =>
    rcases enqueue_eq_some hrun with ⟨hagent, hadmin⟩ | ⟨-, hmatch⟩
    · obtain ⟨w, v, rfl, hcase⟩ := adminRecord_cases hadmin
      have hcut : ((s.logged b).withAdu b w).heap x = s.heap x := heap_modify_of_ne _ hxb _
      have hcutx : ((s.logged b).withAdu b w).Carries x hdr p := h.of_heap h.stored hcut
      have hleft : v.Carries x hdr p → (v.discarded b).Carries x hdr p := fun hv =>
        hv.of_heap ((List.mem_erase_of_ne hxb).mpr hv.stored) (heap_discarded_of_ne v hxb)
      rcases hcase with rfl | ⟨adu, ar, rest, cs, rest', hadu, har, hcs, hsignal⟩
      · exact Or.inl (hleft hcutx)
      · by_cases hx : x ∈ v.mStore
        · exact Or.inl (hleft (hcutx.of_acks hx (acked_of_processCustodySignal hx hsignal)))
        · -- only a signal that completes the bundle removes it
          obtain ⟨hacks, hcompletes, -⟩ := completes_of_processCustodySignal hcutx.stored hx hsignal
          rw [hcutx.header] at hacks
          refine Or.inr (Or.inr ⟨adu, ar, rest, cs, rest', hadu, har, hcs, hacks, ?_, hagent⟩)
          rw [Completes, BundleStore.header, hcut] at hcompletes
          exact hcompletes
    · unfold BpAgent6.matchFragments at hmatch
      split at hmatch
      · rename_i hfragment
        by_cases hxl : x ∈ (s.logged b).getBundles (s.header b).getSourceEid
            (s.header b).createTimestamp (s.header b).timestampSeqNum
        · have hnamed : Named (s.header b) (s.header x) := (BundleStore.mem_getBundles.mp hxl).2
          exact Or.inr (Or.inl ⟨hfragment, h.header ▸ hnamed⟩)
        · obtain ⟨-, hother⟩ := coalesce_objects (s := s.logged b) (Q := fun _ => True)
            (fun _ _ _ _ _ => trivial) trivial (fun _ _ => trivial) hmatch
          exact Or.inl (h.of_heap (mem_coalesce hxb hxl hmatch h.stored) (hother x hxb hxl))
      · cases hmatch
        exact Or.inl (h.of_heap (t := s.logged b) h.stored rfl)

theorem Carries.send {src dst : BpEndpointId} {lifetime : Time} {custody : Bool} {priority : UInt32}
    {code : ℤ} {packet : Packet} (h : s.Carries x hdr p) (hxb : x ≠ b)
    (hrun : s.send b packet src dst lifetime custody priority = some (t, code)) :
    t.Carries x hdr p := by
  rcases send_eq_some.mp hrun with ⟨-, rfl, -⟩ | ⟨-, u, hu, hforward, -⟩
  · exact h
  · exact (h.of_heap (mem_createBundle hu h.stored) (heap_createBundle_of_ne hu hxb)).forward hxb hforward

/-- **An arrival** leaves the bundle as it is, unless it is about that bundle. -/
theorem Carries.processBundle (h : s.Carries x hdr p) (hb : s.Fresh b) (hq : s.Fresh q)
    (hrun : s.processBundle b q rx = some t) :
    t.Carries x hdr p ∨ Departs s x hdr p t (.processBundle b q rx) := by
  obtain ⟨u, hu, hcase⟩ := processBundle_eq_some.mp hrun
  have hxb : x ≠ b := fun heq => hb.1 (heq ▸ h.stored)
  have hxq : x ≠ q := fun heq => hq.1 (heq ▸ h.stored)
  have hheap : u.heap x = s.heap x := heap_acceptBundle_of_ne hu hxb
  have hheader := header_acceptBundle hu
  obtain ⟨hconfig, -⟩ := rest_acceptBundle hu
  have haccepted : u.Carries x hdr p := by
    refine h.of_heap ?_ hheap
    rcases acceptBundle_eq_some.mp hu with ⟨-, rfl⟩ | ⟨-, -, rfl⟩
    · exact h.stored
    · exact BundleStore.mem_stored.mpr (Or.inr h.stored)
  rcases hcase with ⟨hlocal, hdeliver⟩ | ⟨-, hforward⟩
  · rcases deliver_eq_some.mp hdeliver with ⟨-, rfl⟩ | ⟨state, v, -, hv, hcase⟩
    · exact Or.inl haccepted
    rcases haccepted.enqueueIfActive hxb hv with hkept | ⟨hfragment, hnamed⟩ |
      ⟨adu, ar, rest, cs, rest', hadu, har, hcs, hacks, hcompletes, hagent⟩
    · left
      rcases hcase with ⟨-, rfl⟩ | ⟨-, hsignal⟩
      · exact hkept
      · obtain ⟨cs, packet, code, -, hsend⟩ := sendCustodySignal_eq_some.mp hsignal
        have hlogged : (v.signalLogged b cs).Carries x hdr p := hkept.of_heap hkept.stored rfl
        exact hlogged.send hxq hsend
    · rw [hheader] at hfragment hnamed hlocal
      rw [isNodeMember, hconfig] at hlocal
      exact Or.inr (.joined hfragment hnamed hlocal)
    · cases (adu_acceptBundle hu).symm.trans hadu
      rw [Completes, BundleStore.header, hheap] at hcompletes
      rw [isForAgent, hheader, hconfig] at hagent
      exact Or.inr (.acknowledged har hcs hacks hcompletes hagent)
  · exact Or.inl (haccepted.forward hxb hforward)

/-- **One operation.** -/
theorem Carries.step {op : Op} (h : s.Carries x hdr p) (hdue : s.Due) (htimers : s.LiveTimers True)
    (hop : s.Admissible op) (hstep : BpAgent6.step op s = some t) :
    t.Carries x hdr p ∨ Departs s x hdr p t op := by
  cases op with
  | send b packet src dst lifetime custody priority =>
    obtain ⟨⟨u, code⟩, hu, rfl⟩ := Option.map_eq_some_iff.mp hstep
    have hxb : x ≠ b := fun heq => hop.1 (heq ▸ h.stored)
    exact Or.inl (h.send hxb hu)
  | processBundle b q rx =>
    obtain ⟨hb, hq, -⟩ := hop
    exact h.processBundle hb hq hstep
  | claReady cla =>
    rcases h.forwardAll hstep with ⟨hkept, -⟩ | hhands
    · exact Or.inl hkept
    · exact Or.inr (.handedOver hhands)
  | receive eid =>
    obtain ⟨⟨u, packet⟩, hu, rfl⟩ := Option.map_eq_some_iff.mp hstep
    rcases receive_eq_some.mp hu with ⟨-, rfl, -⟩ | ⟨b, adu, hb, -, hadu, rfl, hv⟩
    · exact Or.inl h
    · by_cases hxb : x = b
      · subst hxb
        cases h.adu.symm.trans hadu
        have hmatch := List.find?_some hb
        rw [Bool.and_eq_true, h.header] at hmatch
        exact Or.inr (.received hu hmatch.1)
      · have hkept : (s.discarded b).Carries x hdr p :=
          h.of_heap ((List.mem_erase_of_ne hxb).mpr h.stored) (heap_discarded_of_ne s hxb)
        left
        dsimp only
        rw [hv]
        exact hkept.of_heap hkept.stored rfl
  | fire e =>
    have hpopped : (s.popEvent e).Carries x hdr p := h.of_heap h.stored rfl
    rw [BpAgent6.step] at hstep
    cases hcall : e.call with
    | expire b =>
      rw [hcall] at hstep
      obtain ⟨-, -, rfl⟩ := expire_eq_some.mp hstep
      by_cases hxb : x = b
      · subst hxb
        obtain ⟨hlife, hts⟩ := hdue e hop.1 x hcall
        rw [h.header] at hlife hts
        exact Or.inr (.expired hcall hlife hts)
      · exact Or.inl (hpopped.of_heap ((List.mem_erase_of_ne hxb).mpr hpopped.stored)
          (heap_discarded_of_ne _ hxb))
    | forward b =>
      rw [hcall] at hstep
      have hforward : (s.popEvent e).forward b = some t := hstep
      -- no retransmission of a bundle that waits is pending
      have hxb : x ≠ b := fun heq => htimers.idle (bne_iff_ne.mp h.waiting) e hop.1 (heq ▸ hcall)
      exact Or.inl (hpopped.forward hxb hforward)
  | advance now =>
    cases hstep
    exact Or.inl (h.of_heap h.stored rfl)
  | configure config =>
    cases hstep
    exact Or.inl (h.of_heap h.stored rfl)

/-- The runs in which forwarded bundles keep their places. -/
abbrev OrderedRun : BpAgent6 → List Op → BpAgent6 → Prop := Run OrderedOp BpAgent6.step

/-- `ClaReady` returns for each outcome of its searches, with all of the bundle handed over. -/
def Serves (s : BpAgent6) (cla : ClaId) (hdr : BpHeader6) (p : Packet) : Prop :=
  (∀ found, ∃ t, s.claReadyFound cla found = some t ∧ HandsAll s hdr p t) ∧
    ∀ t, s.claReady cla = some t → ∃ found, s.claReadyFound cla found = some t

theorem Carries.serves (h : s.Carries x hdr p) (hs : s.Orderly) (hready : s.readyCla x = some cla)
    (hm : s.config.bundleSize ≠ 0) : s.Serves cla hdr p := by
  refine ⟨fun found => ?_, fun t ht => exists_claReadyFound hs.ordered ht⟩
  obtain ⟨t, ht, hdrains⟩ :=
    exists_drains hs.ordered hs.adu hm (Option.filter_eq_some_iff.mp hready).2 found
  exact ⟨t, ht, h.handsAll_of_drains hready hm hdrains⟩

/-- **Store, carry and forward**: in every run, a bundle that waits stays in the store as it is, until it
departs; and whenever its convergence layer is ready, `ClaReady` returns with all of it handed over. -/
theorem carried {ops ops' : List Op} (hinit : s.Initial) (hrun : OrderedRun s ops u)
    (hx : u.Carries x hdr p) (hrun' : OrderedRun u ops' t) :
    (t.Carries x hdr p ∧ ∀ cla, t.readyCla x = some cla → t.config.bundleSize ≠ 0 →
        t.Serves cla hdr p) ∨
      ∃ before op after v w, ops' = before ++ op :: after ∧ OrderedRun u before v ∧
        v.Carries x hdr p ∧ BpAgent6.step op v = some w ∧ Departs v x hdr p w op := by
  have horderly : t.Orderly := orderly_run (fun _ _ hop => hop)
    (orderly_run (fun _ _ hop => hop) (orderly_of_empty hinit.mStore) hrun) hrun'
  have hinv : u.Due ∧ u.LiveTimers True ∧ u.mStore.Nodup := by
    refine hrun.invariant (fun s => s.Due ∧ s.LiveTimers True ∧ s.mStore.Nodup)
      (fun s op t hs hop hstep => hs.1.step_timers hs.2.1 hs.2.2 hop.admissible hstep)
      ⟨hinit.due, hinit.liveTimers, ?_⟩
    rw [hinit.mStore]
    exact List.nodup_nil
  clear hrun hinit
  induction hrun' with
  | nil u => exact Or.inl ⟨hx, fun cla hready hm => hx.serves horderly hready hm⟩
  | @cons u v t op ops' hop hstep hrest ih =>
    obtain ⟨hdue, htimers, hnodup⟩ := hinv
    rcases hx.step hdue htimers hop.admissible hstep with hkept | hdeparts
    · rcases ih hkept horderly (hdue.step_timers htimers hnodup hop.admissible hstep) with hend |
        ⟨before, op', after, v', w, rfl, hbefore, hlast⟩
      · exact Or.inl hend
      · exact Or.inr ⟨op :: before, op', after, v', w, rfl, .cons hop hstep hbefore, hlast⟩
    · exact Or.inr ⟨[], op, ops', u, v, rfl, .nil u, hx, hstep, hdeparts⟩

/-- Two bundles are sent while there is no contact.  The second waits beside the first, and goes out
when there is contact. -/
theorem carried_sample :
    ∃ u t, OrderedRun (Sample.agent 2 false)
        [.send 1 ⟨[9], by decide⟩ (Sample.eid 98) (Sample.eid 97) 0 true 0,
          .send 2 Sample.threeBytes (Sample.eid 98) (Sample.eid 97) 0 false 0] u ∧
      u.mStore = [1, 2] ∧ u.Carries 2 (u.header 2) Sample.threeBytes ∧
      OrderedRun u [.configure (Sample.config 2 true)] t ∧
      t.Serves 0 (u.header 2) Sample.threeBytes := by
  obtain ⟨u, hrun, htest⟩ := exists_run_of_exec OrderedOp step (Sample.agent 2 false)
    [.send 1 ⟨[9], by decide⟩ (Sample.eid 98) (Sample.eid 97) 0 true 0,
      .send 2 Sample.threeBytes (Sample.eid 98) (Sample.eid 97) 0 false 0]
    (fun u => decide (u.mStore = [1, 2] ∧
      test (u.heap 2).retentionConstraints forwardPending = true ∧
      (u.heap 2).adu = some Sample.threeBytes) &&
      (exec OrderedOp step [.configure (Sample.config 2 true)] u).any fun t : BpAgent6 =>
        decide (t.readyCla 2 = some 0 ∧ t.config.bundleSize ≠ 0))
    (by decide +kernel)
  rw [Bool.and_eq_true] at htest
  obtain ⟨hstore, hwaiting, hadu⟩ := of_decide_eq_true htest.1
  obtain ⟨t, ht, htest'⟩ := (Option.any_eq_true _ _).mp htest.2
  obtain ⟨hready, hm⟩ := of_decide_eq_true htest'
  have hx : u.Carries 2 (u.header 2) Sample.threeBytes := ⟨hstore ▸ by decide, hwaiting, rfl, hadu⟩
  have hrun' := run_of_exec ht
  refine ⟨u, t, hrun, hstore, hx, hrun', ?_⟩
  rcases carried (Sample.initial_agent 2 false) hrun hx hrun' with ⟨-, hserves⟩ | ⟨before, op, after,
    v', w, hops, -, -, hstep, hdeparts⟩
  · exact hserves 0 hready hm
  · -- the change of the configuration hands nothing over
    have hop : op ∈ [Op.configure (Sample.config 2 true)] := by
      rw [hops]
      exact List.mem_append_right before List.mem_cons_self
    obtain rfl := List.mem_singleton.mp hop
    cases hdeparts

end BpAgent6
end BundleProtocol
