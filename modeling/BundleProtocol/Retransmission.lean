import BundleProtocol.AgentRun

/-! # Retransmission events

A retransmission event holds the bare address of its bundle, so it must not outlive the
bundle's stay in the store.  `Remove` cancels what `nextRetrans` names when custody is
requested; that this reaches the pending event is the invariant `Timers`: a pending
retransmission is the one its bundle remembers, and its bundle is not waiting to be
forwarded.  The one way around it is a custody bundle that `Store` turns away as expired
and `Send` forwards all the same.
-/
namespace BundleProtocol
open TransitionSystem

/-- The bundle expects the event `uid` to retransmit it. -/
structure Bundle6.Awaits (x : Bundle6) (uid : EventId) : Prop where
  nextRetrans : x.nextRetrans = some uid
  custTxReq : x.primaryHeader.custTxReq = true
  sent : x.retentionConstraints &&& forwardPending = 0

namespace BpAgent6
variable {s t : BpAgent6} {b q : Ptr} {live live' : Ptr → Prop} {dangling : Prop}

/-- Event numbers are unique and used up, and each pending retransmission is awaited by a
bundle that is `live`. -/
structure Timers (live : Ptr → Prop) (s : BpAgent6) : Prop where
  uids : (s.sim.pending.map ScheduledEvent.uid).Nodup
  uid_lt : ∀ e ∈ s.sim.pending, e.uid < s.sim.nextUid
  awaited : ∀ e ∈ s.sim.pending, ∀ x, e.call = .forward x → live x ∧ (s.heap x).Awaits e.uid

theorem Timers.numbered (h : s.Timers live) : s.sim.Numbered := ⟨h.uids, h.uid_lt⟩

/-- The live bundles are the stored ones. -/
abbrev StoreTimers (s : BpAgent6) : Prop := s.Timers (· ∈ s.mStore)

/-- The live bundles are the stored ones, unless retransmissions may be `dangling`. -/
abbrev LiveTimers (dangling : Prop) (s : BpAgent6) : Prop :=
  s.Timers fun x => dangling ∨ x ∈ s.mStore

theorem LiveTimers.storeTimers (h : s.LiveTimers False) : s.StoreTimers where
  uids := h.uids
  uid_lt := h.uid_lt
  awaited e he x hx := (h.awaited e he x hx).imp_left (Or.resolve_left · id)

/-- No retransmission of `b` is pending. -/
def Idle (s : BpAgent6) (b : Ptr) : Prop := ∀ e ∈ s.sim.pending, e.call ≠ .forward b

/-! ## How the invariant moves -/

/-- Events only disappear. -/
theorem Timers.of_sublist (h : s.Timers live) (hsub : t.sim.pending.Sublist s.sim.pending)
    (huid : t.sim.nextUid = s.sim.nextUid)
    (hawaits : ∀ e ∈ t.sim.pending, ∀ x, e.call = .forward x → live x → (s.heap x).Awaits e.uid →
      live' x ∧ (t.heap x).Awaits e.uid) : t.Timers live' where
  uids := (h.numbered.of_sublist hsub huid).uids
  uid_lt := (h.numbered.of_sublist hsub huid).uid_lt
  awaited := by
    intro e he x hx
    obtain ⟨hlive, haw⟩ := h.awaited e (hsub.subset he) x hx
    exact hawaits e he x hx hlive haw

/-- One event is scheduled. -/
theorem Timers.of_schedule (h : s.Timers live) {delay : Time} {call : Callback}
    (hsim : t.sim = s.sim.schedule delay call)
    (hold : ∀ e ∈ s.sim.pending, ∀ x, e.call = .forward x → live x → (s.heap x).Awaits e.uid →
      live' x ∧ (t.heap x).Awaits e.uid)
    (hnew : ∀ x, call = .forward x → live' x ∧ (t.heap x).Awaits s.sim.nextUid) :
    t.Timers live' := by
  have hnumbered : t.sim.Numbered := hsim ▸ h.numbered.schedule delay call
  refine ⟨hnumbered.uids, hnumbered.uid_lt, fun e he x hx => ?_⟩
  rw [hsim] at he
  rcases Simulator.mem_pending_schedule.mp he with he | rfl
  · obtain ⟨hlive, haw⟩ := h.awaited e he x hx
    exact hold e he x hx hlive haw
  · exact hnew x hx

/-- Two pending retransmissions of one bundle are the same event. -/
theorem Timers.eq_of_forward (h : s.Timers live) {e e' : ScheduledEvent} {x : Ptr}
    (he : e ∈ s.sim.pending) (he' : e' ∈ s.sim.pending) (hx : e.call = .forward x)
    (hx' : e'.call = .forward x) : e = e' := by
  have huid : e.uid = e'.uid := by
    have h₁ := (h.awaited e he x hx).2.nextRetrans
    have h₂ := (h.awaited e' he' x hx').2.nextRetrans
    exact Option.some.inj (h₁.symm.trans h₂)
  exact List.inj_on_of_nodup_map h.uids he he' huid

/-- Removal leaves no retransmission of the removed bundle. -/
theorem Timers.removed (h : s.Timers live) (hlive : ∀ x, live x → x = b ∨ dangling ∨ x ∈ s.mStore)
    (hord : s.Ordered) : (s.removed b).LiveTimers dangling := by
  refine h.of_sublist (Memory.pending_clearEvents_sublist _ _) (Memory.nextUid_clearEvents _ _) ?_
  intro e he x hx hlx haw
  obtain ⟨-, -, hretrans⟩ := Memory.mem_pending_clearEvents.mp he
  have hne : x ≠ b := by
    rintro rfl
    exact hretrans haw.custTxReq haw.nextRetrans.symm
  refine ⟨?_, haw⟩
  exact ((hlive x hlx).resolve_left hne).imp_right fun hmem => hord.mem_removed.mpr ⟨hne, hmem⟩

theorem LiveTimers.dispose (h : s.LiveTimers dangling) : (s.dispose b).LiveTimers dangling := by
  refine h.of_sublist (Memory.pending_doDispose_sublist _ _) (Memory.nextUid_doDispose _ _) ?_
  intro e he x hx hlx haw
  refine ⟨hlx, ?_⟩
  have hheap : (s.dispose b).heap x = (s.toMemory.doDispose b).heap x := rfl
  rw [hheap]
  by_cases hxb : x = b
  · subst hxb
    rw [Memory.heap_doDispose, Function.update_self]
    exact ⟨haw.nextRetrans, haw.custTxReq, haw.sent⟩
  · rwa [Memory.heap_doDispose_of_ne _ hxb]

theorem Timers.discarded (h : s.Timers live) (hlive : ∀ x, live x → x = b ∨ dangling ∨ x ∈ s.mStore)
    (hord : s.Ordered) : (s.discarded b).LiveTimers dangling := (h.removed hlive hord).dispose

/-- A change of bundles that expect the same events as before. -/
theorem LiveTimers.of_heap (h : s.LiveTimers dangling) (hsim : t.sim = s.sim) (hstore : t.mStore = s.mStore)
    (hheap : ∀ e ∈ s.sim.pending, ∀ x, e.call = .forward x → (s.heap x).Awaits e.uid →
      (t.heap x).Awaits e.uid) : t.LiveTimers dangling := by
  refine h.of_sublist (by rw [hsim]) (by rw [hsim]) ?_
  intro e he x hx hlx haw
  rw [hsim] at he
  exact ⟨hlx.imp_right (hstore ▸ ·), hheap e he x hx haw⟩

/-- A change of one bundle's fields other than those `Awaits` reads. -/
theorem LiveTimers.modify (h : s.LiveTimers dangling) {f : Bundle6 → Bundle6}
    (hf : ∀ x uid, x.Awaits uid → (f x).Awaits uid) : (s.modify b f).LiveTimers dangling := by
  refine h.of_heap rfl rfl ?_
  intro e he x hx haw
  exact rel_heap_modify (R := fun y z => y.Awaits e.uid → z.Awaits e.uid) (fun _ h => h) (hf _ _) x haw

/-- A change of a bundle that has no retransmission pending. -/
theorem LiveTimers.modify_of_idle (h : s.LiveTimers dangling) (hidle : s.Idle b) (f : Bundle6 → Bundle6) :
    (s.modify b f).LiveTimers dangling := by
  refine h.of_heap rfl rfl ?_
  intro e he x hx haw
  have hxb : x ≠ b := by
    rintro rfl
    exact hidle e he hx
  rwa [heap_modify_of_ne s hxb]

theorem LiveTimers.stored (h : s.LiveTimers dangling) : (s.stored b).LiveTimers dangling := by
  have hheap : ∀ x uid, (s.heap x).Awaits uid → ((s.stored b).heap x).Awaits uid := by
    intro x uid haw
    obtain ⟨id, hid⟩ := s.toBundleStore.heap_stored b x
    have heq : (s.stored b).heap x = (s.toBundleStore.stored b).heap x := rfl
    rw [heq, hid]
    exact ⟨haw.nextRetrans, haw.custTxReq, haw.sent⟩
  have hmem : ∀ x, x ∈ s.mStore → x ∈ (s.stored b).mStore :=
    fun x hx => BundleStore.mem_stored.mpr (Or.inr hx)
  rcases s.toBundleStore.pending_stored b with hsim | ⟨delay, hsim⟩
  · refine h.of_sublist (t := s.stored b) (by rw [← hsim]; exact List.Sublist.refl _)
      (congrArg Simulator.nextUid hsim) ?_
    intro e _ x _ hlx haw
    exact ⟨hlx.imp_right (hmem x), hheap x _ haw⟩
  · refine h.of_schedule (t := s.stored b) hsim ?_ ?_
    · intro e _ x _ hlx haw
      exact ⟨hlx.imp_right (hmem x), hheap x _ haw⟩
    · rintro x hx
      cases hx

/-! ## One operation -/

/-- The fields local delivery changes are none that `Awaits` reads. -/
theorem deliveryClosed_liveTimers : DeliveryClosed (LiveTimers dangling) where
  delivered h := h.of_heap rfl rfl fun _ _ _ _ haw => haw
  withAdu h := h.modify fun _ _ haw => ⟨haw.nextRetrans, haw.custTxReq, haw.sent⟩
  acked h := h.modify fun _ _ haw => ⟨haw.nextRetrans, haw.custTxReq, haw.sent⟩
  markWhole h := h.modify fun x _ haw =>
    ⟨haw.nextRetrans, (x.primaryHeader.custTxReq_setIsFragment false).trans haw.custTxReq, haw.sent⟩
  removed h hord := h.removed (fun _ => Or.inr) hord
  discarded h hord := h.discarded (fun _ => Or.inr) hord

theorem Fresh.idle (h : s.Fresh b) : s.Idle b := by
  rintro e he hcall
  exact h.2 e he (by rw [hcall]; rfl)

/-- Once sent, a bundle is not waiting to be forwarded. -/
theorem and_not_and_self (x mask : UInt32) : x &&& ~~~mask &&& mask = 0 := by
  rw [← UInt32.toBitVec_inj]
  ext i
  simp

/-- After sending, the one live bundle that need not be stored is the custody bundle just
sent. -/
theorem LiveTimers.sent (h : s.LiveTimers dangling) (hidle : s.Idle b) {cla : ClaId} {adu : Packet}
    (hm : s.config.bundleSize ≠ 0 ∨ adu.size = 0) :
    (s.sent b cla adu).Timers
      fun x => (x = b ∧ (s.header b).custTxReq = true) ∨ dangling ∨ x ∈ s.mStore := by
  have hbundle := s.sentBundle b cla hm
  have hsim := s.sim_sent b cla adu
  have hold : ∀ e ∈ s.sim.pending, ∀ x, e.call = .forward x → dangling ∨ x ∈ s.mStore →
      (s.heap x).Awaits e.uid →
        ((x = b ∧ (s.header b).custTxReq = true) ∨ dangling ∨ x ∈ s.mStore) ∧
          ((s.sent b cla adu).heap x).Awaits e.uid := by
    intro e he x hx hlx haw
    have hne : x ≠ b := by
      rintro rfl
      exact hidle e he hx
    rw [heap_sent_of_ne hne]
    exact ⟨Or.inr hlx, haw⟩
  cases hcust : (s.header b).custTxReq with
  | true =>
    rw [hcust, if_pos rfl] at hsim
    refine h.of_schedule hsim (by rwa [hcust] at hold) ?_
    rintro x hx
    cases hx
    refine ⟨Or.inl ⟨rfl, rfl⟩, ?_, ?_, ?_⟩
    · have hnext := hbundle.nextRetrans
      rwa [show (s.heap b).primaryHeader.custTxReq = true from hcust, if_pos rfl] at hnext
    · rw [hbundle.header.custTxReq]
      exact hcust
    · rw [hbundle.retentionConstraints]
      exact and_not_and_self _ _
  | false =>
    rw [hcust, if_neg Bool.false_ne_true] at hsim
    refine h.of_sublist (by rw [hsim]) (by rw [hsim]) ?_
    intro e he x hx hlx haw
    rw [hsim] at he
    rw [hcust] at hold
    exact hold e he x hx hlx haw

/-- **`Forward` keeps the invariant** when no retransmission of the bundle is pending and a
custody bundle that it keeps is stored or may dangle. -/
theorem LiveTimers.forward (h : s.LiveTimers dangling) (hidle : s.Idle b)
    (hstored : (s.header b).custTxReq = true → s.readyCla b ≠ none →
      (dangling ∨ b ∈ s.mStore) ∨ (s.heap b).retentionConstraints = dispatchPending)
    (hrun : s.forward b = some t) : t.LiveTimers dangling := by
  rcases forward_eq_some.mp hrun with ⟨-, rfl⟩ | ⟨cla, adu, hcla, -, hm, hcase⟩
  · exact h.modify_of_idle hidle _
  · have hsent : (s.sent b cla adu).Timers _ := h.sent hidle hm
    obtain ⟨hmStore, -⟩ := s.rest_sent b cla adu
    rcases hcase with ⟨hkept, rfl⟩ | ⟨-, hord, rfl⟩
    · refine hsent.of_sublist (List.Sublist.refl _) rfl ?_
      rintro e - x - hlx haw
      refine ⟨?_, haw⟩
      rw [hmStore]
      rcases hlx with ⟨rfl, hcust⟩ | hlx
      · rcases hstored hcust (by rw [hcla]; exact Option.some_ne_none cla) with hmem | hrc
        · exact hmem
        · -- a relayed bundle has no constraint left
          rw [(s.sentBundle x cla hm).retentionConstraints, hrc] at hkept
          exact absurd (by decide) hkept
      · exact hlx
    · refine hsent.discarded ?_ hord
      rintro x (⟨rfl, -⟩ | hx)
      · exact Or.inl rfl
      · exact Or.inr (hx.imp_right (hmStore ▸ ·))

/-- Storing a bundle schedules no retransmission. -/
theorem Idle.stored {x : Ptr} (h : s.Idle x) : (s.stored b).Idle x := by
  rintro e he
  rcases s.toBundleStore.pending_stored b with hsim | ⟨delay, hsim⟩
  · have hpending : (s.stored b).sim.pending = s.sim.pending := congrArg Simulator.pending hsim
    exact h e (hpending ▸ he)
  · have hpending : (s.stored b).sim.pending = (s.sim.schedule delay (.expire b)).pending :=
      congrArg Simulator.pending hsim
    rw [hpending] at he
    rcases List.mem_append.mp he with he | he
    · exact h e he
    · rw [List.mem_singleton.mp he]
      rintro hcall
      cases hcall

theorem LiveTimers.acceptBundle {rx : ReceivedBundle} (h : s.LiveTimers dangling) (hb : s.Fresh b)
    (hrun : s.acceptBundle b rx = some t) : t.LiveTimers dangling ∧ t.Idle b := by
  have harrived : (s.arrived b rx).LiveTimers dangling := h.modify_of_idle hb.idle _
  rcases acceptBundle_eq_some.mp hrun with ⟨-, rfl⟩ | ⟨-, -, rfl⟩
  · exact ⟨harrived, hb.idle⟩
  · exact ⟨harrived.stored, Idle.stored (s := s.arrived b rx) hb.idle⟩

theorem LiveTimers.created (h : s.LiveTimers dangling) (hb : s.Fresh b) (hdr : BpHeader6) (p : Packet)
    (custody : Bool) : (s.created b hdr p custody).LiveTimers dangling :=
  (h.modify_of_idle hb.idle fun _ => createdBundle hdr p custody).of_heap rfl rfl
    fun _ _ _ _ haw => haw

/-- The custody bundle to be sent has expired already, and a convergence layer is ready for
it. -/
def SendsExpired (s : BpAgent6) : Op → Prop
  | .send _ p src dst lifetime custody priority =>
    custody = true ∧ lifetime ≠ 0 ∧
      seconds (UInt32.ofNat (wholeSeconds s.sim.now)).toNat + lifetime < s.sim.now ∧
      ∃ h cla, newHeader s.config.eid p.size src dst lifetime custody priority s.sim.now s.seq =
        some h ∧ s.outgoingCla h.getDestinationEid = some cla ∧ s.config.isReady cla = true
  | _ => False

/-- A new bundle has no timer. -/
theorem idle_createBundle {p : Packet} {src dst : BpEndpointId} {lifetime : Time} {custody : Bool}
    {priority : UInt32} (hb : s.Fresh b)
    (hrun : s.createBundle b p src dst lifetime custody priority = some t) : t.Idle b := by
  obtain ⟨hdr, -, ⟨-, rfl⟩ | ⟨-, -, rfl⟩⟩ := createBundle_eq_some.mp hrun
  · exact hb.idle
  · exact Idle.stored (s := s.created b hdr p custody) hb.idle

/-- `Send` keeps the invariant, also when it sends an expired custody bundle that may
dangle. -/
theorem LiveTimers.send {p : Packet} {src dst : BpEndpointId} {lifetime : Time} {custody : Bool}
    {priority : UInt32} {code : ℤ} (h : s.LiveTimers dangling) (hb : s.Fresh b)
    (hlive : dangling ∨ ¬s.SendsExpired (.send b p src dst lifetime custody priority))
    (hrun : s.send b p src dst lifetime custody priority = some (t, code)) : t.LiveTimers dangling := by
  rcases send_eq_some.mp hrun with ⟨-, rfl, -⟩ | ⟨-, u, hu, hforward, -⟩
  · exact h
  · have hidle := idle_createBundle hb hu
    obtain ⟨hdr, hnew, hcase⟩ := createBundle_eq_some.mp hu
    have hspec := newHeader_spec hnew
    have hself := s.header_created_self b hdr p custody
    have hcreated := h.created hb hdr p custody
    rcases hcase with ⟨hexpired, rfl⟩ | ⟨-, -, rfl⟩
    · refine hcreated.forward hidle ?_ hforward
      rintro hcust hready
      refine Or.inl (Or.inl (hlive.resolve_right (not_not_intro ?_)))
      rw [hself] at hcust
      obtain ⟨cla, hcla⟩ := Option.ne_none_iff_exists'.mp hready
      obtain ⟨hroute, hisReady⟩ := Option.filter_eq_some_iff.mp hcla
      rw [hself] at hroute
      refine ⟨hspec.custTxReq.symm.trans hcust, ?_, ?_, hdr, cla, hnew, hroute, hisReady⟩
      · have hlife := hexpired.1
        rwa [hself, hspec.lifeTime] at hlife
      · have htime := hexpired.2
        rw [hself, BundleStore.timeLeft, hspec.lifeTime, hspec.createTimestamp] at htime
        exact Int.lt_of_sub_neg htime
    · refine hcreated.stored.forward hidle ?_ hforward
      rintro - -
      exact Or.inl (Or.inr (BundleStore.mem_stored.mpr (Or.inl rfl)))

/-- The bundle waits in the store for a convergence layer. -/
def Waiting (s : BpAgent6) (b : Ptr) : Prop :=
  b ∈ s.mStore ∧ (s.heap b).retentionConstraints &&& forwardPending ≠ 0

/-- A bundle that is waiting to be forwarded has no retransmission pending. -/
theorem Timers.idle (h : s.Timers live) (hflag : (s.heap b).retentionConstraints &&& forwardPending ≠ 0) :
    s.Idle b := by
  rintro e he hcall
  exact hflag (h.awaited e he b hcall).2.sent

theorem waiting_of_mem (cla : ClaId) (route : BpEndpointId → Option ClaId) :
    ∀ x ∈ s.getForwardPendingBundles cla route, s.Waiting x := by
  intro x hx
  obtain ⟨hmem, hflag⟩ := List.mem_filter.mp hx
  refine ⟨hmem, ?_⟩
  rw [(of_decide_eq_true hflag).1]
  decide

/-- Forwarding one bundle leaves the others waiting. -/
theorem Waiting.forward {x : Ptr} (h : s.Waiting x) (hne : x ≠ b) (hrun : s.forward b = some t) :
    t.Waiting x := by
  have hframe := forward_frame hrun
  refine ⟨(hframe.mem_iff hne).mpr h.1, ?_⟩
  rw [hframe.heap x hne]
  exact h.2

/-- Forwarding some of the waiting bundles leaves the rest waiting. -/
theorem LiveTimers.forwardAll (rest : List Ptr) {l : List Ptr} (h : s.LiveTimers dangling)
    (hnodup : (l ++ rest).Nodup) (hwaiting : ∀ x ∈ l ++ rest, s.Waiting x)
    (hrun : s.forwardAll l = some t) : t.LiveTimers dangling ∧ ∀ x ∈ rest, t.Waiting x := by
  induction l generalizing s with
  | nil =>
    cases hrun
    exact ⟨h, hwaiting⟩
  | cons b l ih =>
    obtain ⟨u, hu, hrun⟩ := Option.bind_eq_some_iff.mp hrun
    obtain ⟨hb, hl⟩ := List.nodup_cons.mp hnodup
    obtain ⟨hstored, hflag⟩ := hwaiting b List.mem_cons_self
    refine ih (h.forward (h.idle hflag) (fun _ _ => Or.inl (Or.inr hstored)) hu) hl ?_ hrun
    intro x hx
    have hne : x ≠ b := by
      rintro rfl
      exact hb hx
    exact (hwaiting x (List.mem_cons_of_mem b hx)).forward hne hu

theorem LiveTimers.processBundle {rx : ReceivedBundle} (h : s.LiveTimers dangling) (hb : s.Fresh b)
    (hq : s.Fresh q) (hne : b ≠ q) (hrun : s.processBundle b q rx = some t) : t.LiveTimers dangling := by
  obtain ⟨u, hu, hcase⟩ := processBundle_eq_some.mp hrun
  obtain ⟨hinv, hidle⟩ := h.acceptBundle hb hu
  rcases hcase with ⟨-, hdeliver⟩ | ⟨-, hforward⟩
  · rcases deliver_eq_some.mp hdeliver with ⟨-, rfl⟩ | ⟨state, v, -, hv, hcase⟩
    · exact hinv
    · have hinv' := deliveryClosed_liveTimers.enqueueIfActive hinv hv
      rcases hcase with ⟨-, rfl⟩ | ⟨-, hsignal⟩
      · exact hinv'
      · obtain ⟨cs, p, code, -, hsend⟩ := sendCustodySignal_eq_some.mp hsignal
        have hlogged : (v.signalLogged b cs).LiveTimers dangling :=
          hinv'.of_heap rfl rfl fun _ _ _ _ haw => haw
        have hfresh : v.Fresh q := fresh_enqueued hq hne hu hv
        refine hlogged.send hfresh (Or.inr ?_) hsend
        rintro ⟨hcustody, -⟩
        cases hcustody
  · refine hinv.forward hidle ?_ hforward
    rintro - -
    obtain ⟨id, hid⟩ := heap_acceptBundle hu
    exact Or.inr (by rw [hid]; rfl)

/-- The simulator takes the only pending retransmission of the bundle. -/
theorem LiveTimers.popEvent (h : s.LiveTimers dangling) {e : ScheduledEvent} (he : e ∈ s.sim.pending) :
    (s.popEvent e).LiveTimers dangling ∧ ∀ x, e.call = .forward x → (s.popEvent e).Idle x := by
  have hsub : (s.popEvent e).sim.pending.Sublist s.sim.pending := List.erase_sublist
  refine ⟨h.of_sublist hsub rfl fun _ _ _ _ hlx haw => ⟨hlx, haw⟩, ?_⟩
  rintro x hx e' he' hx'
  have heq := h.eq_of_forward he (hsub.subset he') hx hx'
  have hnodup : s.sim.pending.Nodup := h.uids.of_map _
  rw [← heq] at he'
  exact (hnodup.mem_erase_iff.mp he').1 rfl

/-- **One operation keeps the invariant.** -/
theorem LiveTimers.step {op : Op} (h : s.LiveTimers dangling) (hnodup : s.mStore.Nodup)
    (hop : s.Admissible op) (hlive : dangling ∨ ¬s.SendsExpired op)
    (hstep : BpAgent6.step op s = some t) :
    t.LiveTimers dangling := by
  cases op with
  | send b p src dst lifetime custody priority =>
    obtain ⟨⟨u, code⟩, hu, rfl⟩ := Option.map_eq_some_iff.mp hstep
    exact h.send hop hlive hu
  | processBundle b q rx =>
    obtain ⟨hb, hq, hne⟩ := hop
    exact h.processBundle hb hq hne hstep
  | claReady cla =>
    refine (h.forwardAll [] ?_ ?_ hstep).1
    · rw [List.append_nil]
      exact hnodup.filter _
    · rw [List.append_nil]
      exact waiting_of_mem cla s.outgoingCla
  | receive eid =>
    obtain ⟨⟨u, p⟩, hu, rfl⟩ := Option.map_eq_some_iff.mp hstep
    rcases receive_eq_some.mp hu with ⟨-, rfl, -⟩ | ⟨b, adu, -, hord, -, -, rfl⟩
    · exact h
    · have hdiscarded : (s.discarded b).LiveTimers dangling := h.discarded (fun _ => Or.inr) hord
      exact hdiscarded.of_heap rfl rfl fun _ _ _ _ haw => haw
  | fire e =>
    obtain ⟨hinv, hidle⟩ := h.popEvent hop.1
    cases hcall : e.call with
    | expire b =>
      rw [BpAgent6.step, hcall] at hstep
      obtain ⟨hord, -, rfl⟩ := expire_eq_some.mp hstep
      exact hinv.discarded (fun _ => Or.inr) hord
    | forward b =>
      rw [BpAgent6.step, hcall] at hstep
      exact hinv.forward (hidle b hcall) (fun _ _ => Or.inl (h.awaited e hop.1 b hcall).1) hstep
  | advance now =>
    cases hstep
    exact h.of_sublist (t := { s with sim := { s.sim with now := now } }) (List.Sublist.refl _) rfl
      fun _ _ _ _ hlx haw => ⟨hlx, haw⟩
  | configure config =>
    cases hstep
    exact h.of_heap (t := { s with config := config }) rfl rfl fun _ _ _ _ haw => haw

/-- **Whenever `Forward` is called, no retransmission of its bundle is pending.** -/
theorem LiveTimers.idle_of_forwardCall {op : Op} {u : BpAgent6} (h : s.LiveTimers dangling)
    (hnodup : s.mStore.Nodup) (hop : s.Admissible op) (hcall : ForwardCall s op b u) : u.Idle b := by
  cases hcall with
  | send _ hcreate => exact idle_createBundle hop hcreate
  | relay haccept _ => exact (h.acceptBundle hop.1 haccept).2
  | @custodySignal x _ _ _ v _ _ cs _ haccept _ henqueue _ _ _ hcreate =>
    have hfresh : v.Fresh b := fresh_enqueued hop.2.1 hop.2.2 haccept henqueue
    exact idle_createBundle (s := v.signalLogged x cs) hfresh hcreate
  | @claReady cla _ before after _ hbundles hbefore =>
    have hlist : (before ++ b :: after).Nodup := hbundles ▸ hnodup.filter _
    have hwaiting : ∀ x ∈ before ++ b :: after, s.Waiting x :=
      hbundles ▸ waiting_of_mem cla s.outgoingCla
    obtain ⟨htimers, hrest⟩ := h.forwardAll (b :: after) hlist hwaiting hbefore
    exact htimers.idle (hrest b List.mem_cons_self).2
  | retransmission hfire => exact (h.popEvent hop.1).2 b hfire

theorem Initial.liveTimers (h : s.Initial) : s.LiveTimers dangling := by
  refine ⟨?_, ?_, ?_⟩ <;> rw [h.pending]
  · exact List.nodup_nil
  · rintro e he
    cases he
  · rintro e he
    cases he

/-- Two pending retransmissions of a bundle would be one. -/
theorem Timers.length_filter_le_one (h : s.Timers live) (b : Ptr) :
    (s.sim.pending.filter (·.call = .forward b)).length ≤ 1 := by
  have hnodup : (s.sim.pending.filter (·.call = .forward b)).Nodup := (h.uids.of_map _).filter _
  have heq : ∀ e ∈ s.sim.pending.filter (·.call = .forward b),
      ∀ e' ∈ s.sim.pending.filter (·.call = .forward b), e = e' := by
    intro e he e' he'
    obtain ⟨he, hcall⟩ := List.mem_filter.mp he
    obtain ⟨he', hcall'⟩ := List.mem_filter.mp he'
    exact h.eq_of_forward he he' (of_decide_eq_true hcall) (of_decide_eq_true hcall')
  cases hl : s.sim.pending.filter (·.call = .forward b) with
  | nil => exact Nat.zero_le 1
  | cons e rest =>
    cases rest with
    | nil => exact Nat.le_refl 1
    | cons e' rest =>
      rw [hl] at hnodup heq
      have hee' := heq e List.mem_cons_self e' (List.mem_cons_of_mem e List.mem_cons_self)
      exact absurd (hee' ▸ List.mem_cons_self) (List.nodup_cons.mp hnodup).1

/-- **No retransmission outlives its bundle**: in every run that sends no expired custody
bundle on a ready convergence layer, every pending retransmission is of a stored bundle. -/
theorem retransmissions_stored {ops : List Op} (hinit : s.Initial)
    (hrun : Run (fun s op => s.Admissible op ∧ ¬s.SendsExpired op) step s ops t) :
    ∀ e ∈ t.sim.pending, ∀ b, e.call = .forward b → b ∈ t.mStore := by
  have hinv : t.LiveTimers False ∧ t.mStore.Nodup := by
    refine hrun.invariant (fun s => s.LiveTimers False ∧ s.mStore.Nodup) ?_ ⟨?_, ?_⟩
    · rintro s op t ⟨htimers, hnodup⟩ ⟨hop, hlive⟩ hstep
      exact ⟨htimers.step hnodup hop (Or.inr hlive) hstep, nodup_step hnodup hop hstep⟩
    · exact hinit.liveTimers
    · rw [hinit.mStore]
      exact List.nodup_nil
  intro e he b hcall
  exact (hinv.1.storeTimers.awaited e he b hcall).1

/-- A custody bundle without a lifetime is sent, and its retransmission is pending. -/
theorem retransmissions_stored_sample :
    let op := Op.send 1 ⟨[10], by decide⟩ (Sample.eid 98) (Sample.eid 97) 0 true 0
    ∃ t, Run (fun s op => s.Admissible op ∧ ¬s.SendsExpired op) step (Sample.agent 10 true) [op] t ∧
      (∃ e ∈ t.sim.pending, e.call = .forward 1) ∧
      ∀ e ∈ t.sim.pending, ∀ b, e.call = .forward b → b ∈ t.mStore := by
  intro op
  obtain ⟨t, ht, hpending⟩ := (Option.any_eq_true (fun t : BpAgent6 =>
    decide (∃ e ∈ t.sim.pending, e.call = .forward 1)) _).mp (by decide +kernel :
      (step op (Sample.agent 10 true)).any _ = true)
  have hfresh : (Sample.agent 10 true).Fresh 1 := ⟨List.not_mem_nil, by simp [Sample.agent]⟩
  have hlive : ¬(Sample.agent 10 true).SendsExpired op := fun h => h.2.1 rfl
  have hrun : Run (fun s op => s.Admissible op ∧ ¬s.SendsExpired op) step (Sample.agent 10 true)
      [op] t := .cons ⟨hfresh, hlive⟩ ht (.nil t)
  exact ⟨t, hrun, of_decide_eq_true hpending,
    retransmissions_stored (Sample.initial_agent 10 true) hrun⟩

/-- Sent at 1.5 s with a lifetime of 0.2 s, a custody bundle carries the creation time 1 s:
it is not stored, and its retransmission is pending. -/
theorem retransmission_dangles :
    let op := Op.send 1 ⟨[10], by decide⟩ (Sample.eid 98) (Sample.eid 97) 200000000 true 0
    ∃ t, Run Admissible step (Sample.agent 10 true) [.advance 1500000000, op] t ∧
      ∃ e ∈ t.sim.pending, e.call = .forward 1 ∧ 1 ∉ t.mStore := by
  intro op
  obtain ⟨t, hrun, ht⟩ := exists_run_of_exec Admissible step (Sample.agent 10 true)
    [.advance 1500000000, op]
    (fun t => decide (∃ e ∈ t.sim.pending, e.call = .forward 1 ∧ 1 ∉ t.mStore)) (by decide +kernel)
  exact ⟨t, hrun, of_decide_eq_true ht⟩

/-- **One retransmission timer for each bundle**: in every run, also one that sends expired
custody bundles, a bundle has at most one retransmission pending, none while it is waiting to
be forwarded, and none whenever `Forward` is called on it. -/
theorem one_retransmission {ops : List Op} (hinit : s.Initial) (hrun : Run Admissible step s ops t) :
    (∀ b, (t.sim.pending.filter (·.call = .forward b)).length ≤ 1) ∧
    (∀ b, (t.heap b).retentionConstraints &&& forwardPending ≠ 0 → t.Idle b) ∧
    ∀ op b u, t.Admissible op → ForwardCall t op b u → u.Idle b := by
  have hinv : t.LiveTimers True ∧ t.mStore.Nodup := by
    refine hrun.invariant (fun s => s.LiveTimers True ∧ s.mStore.Nodup) ?_ ⟨hinit.liveTimers, ?_⟩
    · rintro s op t ⟨htimers, hnodup⟩ hop hstep
      exact ⟨htimers.step hnodup hop (Or.inl trivial) hstep, nodup_step hnodup hop hstep⟩
    · rw [hinit.mStore]
      exact List.nodup_nil
  obtain ⟨htimers, hnodup⟩ := hinv
  exact ⟨htimers.length_filter_le_one, fun _ => htimers.idle,
    fun op b u hop hcall => htimers.idle_of_forwardCall hnodup hop hcall⟩

/-- The expired bundle's timer is its only one. -/
theorem one_retransmission_sample :
    let op := Op.send 1 ⟨[10], by decide⟩ (Sample.eid 98) (Sample.eid 97) 200000000 true 0
    ∃ t, Run Admissible step (Sample.agent 10 true) [.advance 1500000000, op] t ∧
      ¬t.Idle 1 ∧ (t.sim.pending.filter (·.call = .forward 1)).length ≤ 1 := by
  intro op
  obtain ⟨t, hrun, ht⟩ := exists_run_of_exec Admissible step (Sample.agent 10 true)
    [.advance 1500000000, op] (fun t => decide (∃ e ∈ t.sim.pending, e.call = .forward 1))
    (by decide +kernel)
  have hpending := of_decide_eq_true ht
  refine ⟨t, hrun, ?_, (one_retransmission (Sample.initial_agent 10 true) hrun).1 1⟩
  obtain ⟨e, he, hcall⟩ := hpending
  exact fun hidle => hidle e he hcall

end BpAgent6
end BundleProtocol
