import BundleProtocol.Deadlines
import BundleProtocol.SendOutcome

/-! # Expired bundles

What is stored has not expired (`Deadlines`).  But `Store` turns an expired bundle away without a word,
and `Send` and `ProcessBundle` go on to forward or deliver it.  `SparesExpired` says when nothing comes of
that, and exactly then is no expired bundle ever acted on (`inert_throughout_iff`).
-/
namespace BundleProtocol
open Tiling TransitionSystem

namespace BpAgent6
variable {s t u : BpAgent6} {b q x : Ptr} {K : Ptr → Prop}

/-! ## What acts on an expired bundle -/

/-- Nothing comes of an expired bundle that is received: it is for a passive registration and asks
for no custody signal, or it is for another node and is empty or finds no convergence layer
ready. -/
def SparesReceived (s : BpAgent6) (rx : ReceivedBundle) : Prop :=
  rx.header.Lapsed s.sim.now →
    (∀ state, s.findRegistration rx.header.getDestinationEid = some state →
      state = false ∧ rx.header.custTxReq = false) ∧
    (s.findRegistration rx.header.getDestinationEid = none → rx.adu.size = 0 ∨
      ¬∃ cla, s.outgoingCla rx.header.getDestinationEid = some cla ∧ s.config.isReady cla = true)

/-- A bundle sent with these arguments is not expired at once, or not handed over. -/
def SparesSent (s : BpAgent6) (size : ℕ) (src dst : BpEndpointId) (lifetime : Time) : Prop :=
  Late s.sim.now lifetime → s.Refused src ∨ ¬s.ReadyFor src dst ∨ size = 0

/-- **The operation does not make the agent act on an expired bundle**, be it the one sent, the one
received or the custody signal about it, which inherits its lifetime. -/
def SparesExpired (s : BpAgent6) : Op → Prop
  | .send _ p src dst lifetime _ _ => s.SparesSent p.size src dst lifetime
  | .processBundle _ _ rx => s.SparesReceived rx ∧
      -- the packet of a custody signal is not empty
      (s.findRegistration rx.header.getDestinationEid ≠ none → rx.header.custTxReq = true →
        s.SparesSent 1 s.config.eid rx.header.getCustEid rx.header.lifeTime)
  | _ => True

/-- What was handed over, delivered and signalled since is of no bundle that had expired. -/
structure Timely (s t : BpAgent6) : Prop where
  handed : HandsTimely s t
  delivered : ∃ ds, t.delivered = s.delivered ++ ds ∧ ∀ d ∈ ds, ¬d.2.2.Lapsed d.1
  signals : ∃ gs, t.signals = s.signals ++ gs ∧ ∀ g ∈ gs, ¬(t.header g.2.1).Lapsed g.1

theorem HandsTimely.timely (h : HandsTimely s t) (hdelivered : t.delivered = s.delivered)
    (hsignals : t.signals = s.signals) : Timely s t :=
  ⟨h, ⟨[], by rw [hdelivered, List.append_nil], by simp⟩,
    ⟨[], by rw [hsignals, List.append_nil], by simp⟩⟩

/-- One after the other, when the first generates no custody signal. -/
theorem Timely.trans (h : Timely s t) (hsignals : t.signals = s.signals) (h' : Timely t u) :
    Timely s u := by
  obtain ⟨ds, hds, hall⟩ := h.delivered
  obtain ⟨ds', hds', hall'⟩ := h'.delivered
  obtain ⟨gs, hgs, hsignals'⟩ := h'.signals
  refine ⟨h.handed.trans h'.handed, ⟨ds ++ ds', by rw [hds', hds, List.append_assoc], ?_⟩, gs, ?_,
    hsignals'⟩
  · intro d hd
    rcases List.mem_append.mp hd with hd | hd
    · exact hall d hd
    · exact hall' d hd
  · rw [hgs, hsignals]

theorem delivered_forward (hrun : s.forward b = some t) : t.delivered = s.delivered := by
  rcases forward_eq_some.mp hrun with ⟨-, rfl⟩ | ⟨cla, adu, -, -, -, hcase⟩
  · rfl
  · obtain ⟨-, -, -, -, -, hdelivered⟩ := s.rest_sent b cla adu
    rcases hcase with ⟨-, rfl⟩ | ⟨-, -, rfl⟩
    · exact hdelivered
    · exact hdelivered

/-! ## The operations -/

section Operations
variable {p : Packet} {src dst : BpEndpointId} {lifetime : Time} {custody : Bool} {priority : UInt32}
  {code : ℤ} {rx : ReceivedBundle}

theorem delivered_send (hrun : s.send b p src dst lifetime custody priority = some (t, code)) :
    t.delivered = s.delivered := by
  rcases send_eq_some.mp hrun with ⟨-, rfl, -⟩ | ⟨-, u, hu, hforward, -⟩
  · rfl
  · exact (delivered_forward hforward).trans (rest_createBundle hu).2.2

/-- The bundle sent next to another leaves that one as it was. -/
theorem header_send (hne : x ≠ b)
    (hrun : s.send b p src dst lifetime custody priority = some (t, code)) :
    (s.header x).SameBundle (t.header x) := by
  rcases send_eq_some.mp hrun with ⟨-, rfl, -⟩ | ⟨-, u, hu, hforward, -⟩
  · exact .refl _
  · have hsame := (forward_frame hforward).header x
    unfold BundleStore.header at hsame ⊢
    rwa [heap_createBundle_of_ne hu hne] at hsame

theorem Deadlines.createBundle (h : s.Deadlines K) (hb : s.Fresh b)
    (hrun : s.createBundle b p src dst lifetime custody priority = some t) :
    t.Deadlines fun y => K y ∨ y = b := by
  obtain ⟨hdr, -, hcase⟩ := createBundle_eq_some.mp hrun
  have hplaced : (s.created b hdr p custody).Deadlines fun y => K y ∨ y = b :=
    (h.placed hb (x := createdBundle hdr p custody) rfl rfl).of_memory rfl rfl
  rcases hcase with ⟨-, rfl⟩ | ⟨hlive, -, rfl⟩
  · exact hplaced
  · exact hplaced.storeNew (Or.inr rfl) hlive

theorem Deadlines.send (h : s.Deadlines K) (hb : s.Fresh b)
    (hspares : s.SparesSent p.size src dst lifetime)
    (hrun : s.send b p src dst lifetime custody priority = some (t, code)) :
    (∃ K', t.Deadlines K') ∧ HandsTimely s t := by
  rcases send_eq_some.mp hrun with ⟨-, rfl, -⟩ | ⟨hsrc, u, hu, hforward, -⟩
  · exact ⟨⟨K, h⟩, .of_eq rfl⟩
  · obtain ⟨hdr, id, hnew, hself⟩ := heap_createBundle hu
    have hheader : u.header b = hdr := congrArg Bundle6.primaryHeader hself
    obtain ⟨hconfig, hlog, -⟩ := rest_createBundle hu
    have hlive : (b ∈ u.mStore ∨ u.aduSize b = 0) ∨ u.readyCla b = none := by
      by_cases hlate : Late s.sim.now lifetime
      · rcases (hspares hlate).resolve_left hsrc with hready | hempty
        · refine Or.inr ?_
          by_contra hne
          exact hready ((readyCla_ne_none_iff hnew hconfig hheader).mp hne)
        · refine Or.inl (Or.inr ?_)
          have hadu : (u.heap b).adu = some p := congrArg Bundle6.adu hself
          rw [BundleStore.aduSize_of_adu hadu, hempty]
      · exact Or.inl (Or.inl ((mem_createBundle_iff hb.1 hu).mpr hlate))
    obtain ⟨hinv, hhands⟩ := (h.createBundle hb hu).forward (Or.inr rfl) (idle_createBundle hb hu)
      hlive hforward
    exact ⟨⟨_, hinv⟩, HandsTimely.trans (.of_eq hlog) hhands⟩

theorem Deadlines.acceptBundle (h : s.Deadlines K) (hb : s.Fresh b)
    (hrun : s.acceptBundle b rx = some t) :
    (t.Deadlines fun y => K y ∨ y = b) ∧ (b ∈ t.mStore ∨ rx.header.Lapsed s.sim.now) := by
  have hplaced : (s.arrived b rx).Deadlines fun y => K y ∨ y = b :=
    h.placed hb (x := arrivedBundle rx) rfl rfl
  rcases acceptBundle_eq_some.mp hrun with ⟨hexpired, rfl⟩ | ⟨hlive, -, rfl⟩
  · refine ⟨hplaced, Or.inr ?_⟩
    have hlapsed := BundleStore.expired_iff.mp hexpired
    rwa [header_arrived_self] at hlapsed
  · exact ⟨hplaced.storeNew (Or.inr rfl) hlive, Or.inl (BundleStore.mem_stored.mpr (Or.inl rfl))⟩

theorem readyFor_congr (hconfig : t.config = s.config) : t.ReadyFor src dst ↔ s.ReadyFor src dst := by
  unfold ReadyFor outgoingCla
  rw [hconfig]

/-- The custody signal about a received bundle inherits what is left of its lifetime. -/
theorem Deadlines.sendCustodySignal (h : s.Deadlines K) (hq : s.Fresh q) (hne : b ≠ q)
    (hspares : s.SparesSent 1 s.config.eid (s.header b).getCustEid lifetime)
    (hlive : ¬(s.header b).Lapsed s.sim.now) (hrun : s.sendCustodySignal b q lifetime = some t) :
    (∃ K', t.Deadlines K') ∧ Timely s t := by
  obtain ⟨cs, p, code, -, hsend⟩ := sendCustodySignal_eq_some.mp hrun
  have hlogged : (s.signalLogged b cs).Deadlines K := h.of_memory rfl rfl
  have hspares' : (s.signalLogged b cs).SparesSent p.size s.config.eid (s.header b).getCustEid
      lifetime := fun hlate =>
    (hspares hlate).imp_right (Or.imp_right fun hempty => absurd hempty Nat.one_ne_zero)
  obtain ⟨hinv, hhands⟩ := hlogged.send hq hspares' hsend
  have hheader : (s.header b).SameBundle (t.header b) :=
    header_send (s := s.signalLogged b cs) hne hsend
  refine ⟨hinv, hhands, ⟨[], ?_, by simp⟩, [(s.sim.now, b, cs)], signals_send hsend, ?_⟩
  · rw [delivered_send hsend, List.append_nil]
    rfl
  · intro g hg
    rw [List.mem_singleton.mp hg]
    exact fun hlapsed => hlive ((hheader.lapsed_iff _).mp hlapsed)

/-- The log entry of local delivery is of no expired bundle. -/
theorem timely_enqueueIfActive {state : Bool} (hlive : state = true → ¬(s.header b).Lapsed s.sim.now)
    (hrun : s.enqueueIfActive b state = some t) : Timely s t := by
  have hframe := (deliveryClosed_frame s).enqueueIfActive (.refl s) hrun
  have hlog := delivered_enqueueIfActive hrun
  refine ⟨.of_eq hframe.handed, ?_, ⟨[], by rw [hframe.signals, List.append_nil], by simp⟩⟩
  cases state with
  | false => exact ⟨[], by rw [hlog, List.append_nil]; rfl, by simp⟩
  | true =>
    refine ⟨[(s.sim.now, b, s.header b)], hlog, fun d hd => ?_⟩
    rw [List.mem_singleton.mp hd]
    exact hlive rfl

/-- **`Deliver`** of a bundle that has not expired or is not acted on. -/
theorem Deadlines.deliver (h : s.Deadlines K) (hb : K b) (hidle : s.Idle b) (hq : s.Fresh q)
    (hne : b ≠ q)
    (hlive : ∀ state, s.findRegistration (s.header b).getDestinationEid = some state →
      (s.header b).Lapsed s.sim.now → state = false ∧ (s.header b).custTxReq = false)
    (hspares : s.findRegistration (s.header b).getDestinationEid ≠ none →
      (s.header b).custTxReq = true →
        s.SparesSent 1 s.config.eid (s.header b).getCustEid (s.header b).lifeTime)
    (hrun : s.deliver b q = some t) : (∃ K', t.Deadlines K') ∧ Timely s t := by
  rcases deliver_eq_some.mp hrun with ⟨-, rfl⟩ | ⟨state, v, hstate, hv, hcase⟩
  · exact ⟨⟨K, h⟩, HandsTimely.timely (.of_eq rfl) rfl rfl⟩
  · have hframe := (deliveryClosed_frame s).enqueueIfActive (.refl s) hv
    have hkeys := hframe.header b
    have hinv := h.enqueueIfActive hb hidle hv
    have henqueued : Timely s v := by
      refine timely_enqueueIfActive (fun hactive hlapsed => ?_) hv
      have hpassive := (hlive state hstate hlapsed).1
      rw [hactive] at hpassive
      cases hpassive
    rcases hcase with ⟨-, rfl⟩ | ⟨hcust, hsend⟩
    · exact ⟨⟨K, hinv⟩, henqueued⟩
    · have hcust' : (s.header b).custTxReq = true := hkeys.custTxReq.symm.trans hcust
      have hlive' : ¬(v.header b).Lapsed v.sim.now := by
        rw [hkeys.lapsed_iff, hframe.now]
        intro hlapsed
        have hpassive := (hlive state hstate hlapsed).2
        rw [hcust'] at hpassive
        cases hpassive
      have hspares' : v.SparesSent 1 v.config.eid (v.header b).getCustEid (v.header b).lifeTime := by
        have hs := hspares (by rw [hstate]; exact Option.some_ne_none state) hcust'
        unfold SparesSent Refused isNodeMember at hs ⊢
        rwa [hframe.now, readyFor_congr hframe.config, hframe.config, hkeys.lifeTime,
          hkeys.custodian]
      have hfresh : v.Fresh q := (deliveryClosed_fresh q).enqueueIfActive hq hv
      obtain ⟨hinv', hsent⟩ := hinv.sendCustodySignal hfresh hne hspares' hlive' hsend
      exact ⟨hinv', henqueued.trans hframe.signals hsent⟩

theorem Deadlines.processBundle (h : s.Deadlines K) (hb : s.Fresh b) (hq : s.Fresh q) (hne : b ≠ q)
    (hspares : s.SparesExpired (.processBundle b q rx)) (hrun : s.processBundle b q rx = some t) :
    (∃ K', t.Deadlines K') ∧ Timely s t := by
  obtain ⟨hreceived, hsignal⟩ := hspares
  obtain ⟨u, hu, hcase⟩ := processBundle_eq_some.mp hrun
  obtain ⟨hinv, hstored⟩ := h.acceptBundle hb hu
  obtain ⟨hconfig, -, hnow, hhanded, hsignals⟩ := rest_acceptBundle hu
  have hheader := header_acceptBundle hu
  have hidle : u.Idle b := (h.timers.acceptBundle hb hu).2
  have hdelivered := delivered_acceptBundle hu
  have hfind := findRegistration_acceptBundle hu
  have haccepted : Timely s u := HandsTimely.timely (.of_eq hhanded) hdelivered hsignals
  rcases hcase with ⟨-, hdeliver⟩ | ⟨hlocal, hforward⟩
  · have hlive : ∀ state, u.findRegistration (u.header b).getDestinationEid = some state →
        (u.header b).Lapsed u.sim.now → state = false ∧ (u.header b).custTxReq = false := by
      rw [hfind, hheader, hnow]
      exact fun state hstate hlapsed => (hreceived hlapsed).1 state hstate
    have hspares : u.findRegistration (u.header b).getDestinationEid ≠ none →
        (u.header b).custTxReq = true →
          u.SparesSent 1 u.config.eid (u.header b).getCustEid (u.header b).lifeTime := by
      rw [hfind, hheader]
      unfold SparesSent Refused isNodeMember at hsignal ⊢
      rwa [hnow, readyFor_congr hconfig, hconfig]
    obtain ⟨hinv', hdelivers⟩ := hinv.deliver (Or.inr rfl) hidle (hq.acceptBundle hne hu) hne hlive
      hspares hdeliver
    exact ⟨hinv', haccepted.trans hsignals hdelivers⟩
  · have hunregistered : s.findRegistration rx.header.getDestinationEid = none := by
      rw [← hfind, Option.eq_none_iff_forall_ne_some]
      intro state hstate
      rw [isNodeMember_of_find hstate] at hlocal
      cases hlocal
    have hlive : (b ∈ u.mStore ∨ u.aduSize b = 0) ∨ u.readyCla b = none := by
      rcases hstored with hmem | hlapsed
      · exact Or.inl (Or.inl hmem)
      · rcases (hreceived hlapsed).2 hunregistered with hempty | hready
        · refine Or.inl (Or.inr ?_)
          rw [BundleStore.aduSize_of_adu (adu_acceptBundle hu), hempty]
        · refine Or.inr (Option.filter_eq_none_iff.mpr fun cla hcla hisReady => hready ?_)
          rw [hheader, outgoingCla, hconfig] at hcla
          rw [hconfig] at hisReady
          exact ⟨cla, hcla, hisReady⟩
    obtain ⟨hinv', hhands⟩ := hinv.forward (Or.inr rfl) hidle hlive hforward
    exact ⟨⟨_, hinv'⟩, haccepted.trans hsignals
      (hhands.timely (delivered_forward hforward) (forward_frame hforward).signals)⟩

/-- Forwarding waiting bundles one after another. -/
theorem Deadlines.forwardAll {l : List Ptr} (h : s.Deadlines K) (hnodup : l.Nodup)
    (hwaiting : ∀ x ∈ l, s.Waiting x) (hrun : s.forwardAll l = some t) : t.Deadlines K ∧ HandsTimely s t ∧
      t.delivered = s.delivered ∧ t.signals = s.signals := by
  induction l generalizing s with
  | nil =>
    cases hrun
    exact ⟨h, .of_eq rfl, rfl, rfl⟩
  | cons b l ih =>
    obtain ⟨u, hu, hrun⟩ := Option.bind_eq_some_iff.mp hrun
    obtain ⟨hb, hl⟩ := List.nodup_cons.mp hnodup
    obtain ⟨hstored, hflag⟩ := hwaiting b List.mem_cons_self
    obtain ⟨hinv, hhands⟩ := h.forward (h.stored b hstored) (h.timers.idle hflag)
      (Or.inl (Or.inl hstored)) hu
    have hleft : ∀ x ∈ l, u.Waiting x := by
      intro x hx
      have hne : x ≠ b := by
        rintro rfl
        exact hb hx
      exact (hwaiting x (List.mem_cons_of_mem b hx)).forward hne hu
    obtain ⟨hinv', hhands', hdelivered, hsignals⟩ := ih hinv hl hleft hrun
    exact ⟨hinv', hhands.trans hhands', hdelivered.trans (delivered_forward hu),
      hsignals.trans (forward_frame hu).signals⟩

/-- The simulator takes an event that is due: nothing else was due before. -/
theorem Deadlines.popEvent (h : s.Deadlines K) {e : ScheduledEvent} (he : e ∈ s.sim.pending)
    (hfirst : ∀ e' ∈ s.sim.pending, e.ts ≤ e'.ts) (hcall : e.call = .forward b) :
    (s.popEvent e).Deadlines K := by
  have hsub : ∀ e' ∈ (s.popEvent e).sim.pending, e' ∈ s.sim.pending :=
    fun e' he' => List.mem_of_mem_erase he'
  refine h.of_subset (h.timers.popEvent he).1 hsub (fun _ => ⟨rfl, rfl⟩) rfl (fun _ hx => hx)
    (fun _ _ => .refl _) (fun x _ e' he' hcall' => ?_) (fun e' he' => Or.inr (hfirst e' (hsub e' he')))
    fun _ _ _ _ hharmless => hharmless
  refine (List.mem_erase_of_ne ?_).mpr he'
  rintro rfl
  rw [hcall] at hcall'
  cases hcall'

/-- The bundle whose lifetime ends is removed. -/
theorem Deadlines.expire (h : s.Deadlines K) {e : ScheduledEvent} (he : e ∈ s.sim.pending)
    (hfirst : ∀ e' ∈ s.sim.pending, e.ts ≤ e'.ts) (hcall : e.call = .expire b) (hord : s.Ordered) :
    ((s.popEvent e).discarded b).Deadlines K := by
  refine h.discarded_of (u := s.popEvent e) ?_ hord (h.timers.popEvent he).1 rfl rfl rfl
    (fun e' he' => List.mem_of_mem_erase he') (fun e' he' x hx hcall' => ?_)
    fun e' he' => Or.inr (hfirst e' (List.mem_of_mem_erase he'))
  · have htarget := h.target e he
    rwa [hcall] at htarget
  · refine (List.mem_erase_of_ne ?_).mpr he'
    rintro rfl
    rw [hcall] at hcall'
    cases hcall'
    exact hx rfl

end Operations

/-- **One operation**: it keeps the invariant, and acts on no expired bundle. -/
theorem Deadlines.step {op : Op} (h : s.Deadlines K) (hnodup : s.mStore.Nodup) (hop : s.Admissible op)
    (hspares : s.SparesExpired op) (hstep : BpAgent6.step op s = some t) :
    (∃ K', t.Deadlines K') ∧ Timely s t := by
  cases op with
  | send b p src dst lifetime custody priority =>
    obtain ⟨⟨u, code⟩, hu, rfl⟩ := Option.map_eq_some_iff.mp hstep
    obtain ⟨hinv, hhands⟩ := h.send hop hspares hu
    exact ⟨hinv, hhands.timely (delivered_send hu) (signals_send hu)⟩
  | processBundle b q rx =>
    obtain ⟨hb, hq, hne⟩ := hop
    exact h.processBundle hb hq hne hspares hstep
  | claReady cla =>
    obtain ⟨hinv, hhands, hdelivered, hsignals⟩ := h.forwardAll (hnodup.filter _)
      (waiting_of_mem cla s.outgoingCla) hstep
    exact ⟨⟨K, hinv⟩, hhands.timely hdelivered hsignals⟩
  | receive eid =>
    obtain ⟨⟨u, p⟩, hu, rfl⟩ := Option.map_eq_some_iff.mp hstep
    rcases receive_eq_some.mp hu with ⟨-, rfl, -⟩ | ⟨b, adu, hb, hord, -, -, rfl⟩
    · exact ⟨⟨K, h⟩, HandsTimely.timely (.of_eq rfl) rfl rfl⟩
    · have hdiscarded := h.discarded (h.stored b (List.mem_of_find?_eq_some hb)) hord
      exact ⟨⟨K, hdiscarded.of_memory rfl rfl⟩, HandsTimely.timely (.of_eq rfl) rfl rfl⟩
  | fire e =>
    obtain ⟨he, hfirst⟩ := hop
    cases hcall : e.call with
    | expire b =>
      rw [BpAgent6.step, hcall] at hstep
      obtain ⟨hord, -, rfl⟩ := expire_eq_some.mp hstep
      exact ⟨⟨K, h.expire he hfirst hcall hord⟩, HandsTimely.timely (.of_eq rfl) rfl rfl⟩
    | forward b =>
      rw [BpAgent6.step, hcall] at hstep
      have htarget := h.target e he
      rw [hcall] at htarget
      have hforward : (s.popEvent e).forward b = some t := hstep
      obtain ⟨hinv, hhands⟩ := (h.popEvent he hfirst hcall).forward htarget
        ((h.timers.popEvent he).2 b hcall) (Or.inl (h.harmless e he b hcall)) hforward
      have htimely : Timely (s.popEvent e) t :=
        hhands.timely (delivered_forward hforward) (forward_frame hforward).signals
      exact ⟨⟨K, hinv⟩, htimely.handed, htimely.delivered, htimely.signals⟩
  | advance now =>
    cases hstep
    refine ⟨⟨K, ?_⟩, HandsTimely.timely (.of_eq rfl) rfl rfl⟩
    exact h.of_subset (t := { s with sim := { s.sim with now := now } })
      (h.timers.of_sublist (List.Sublist.refl _) rfl fun _ _ _ _ hlx haw => ⟨hlx, haw⟩)
      (fun _ he => he) (fun _ => ⟨rfl, rfl⟩) rfl (fun _ hx => hx) (fun _ _ => .refl _)
      (fun _ _ _ he _ => he) (fun e he => Or.inr (hop.2 e he)) fun _ _ _ _ hharmless => hharmless
  | configure config =>
    cases hstep
    exact ⟨⟨K, h.of_memory (t := { s with config := config }) rfl rfl⟩,
      HandsTimely.timely (.of_eq rfl) rfl rfl⟩

theorem Initial.deadlines (h : s.Initial) : s.Deadlines fun _ => False := by
  refine ⟨h.liveTimers, ?_, ?_, ?_, ?_, ?_, ?_⟩
  · simp [h.mStore]
  · simp [h.pending]
  · rintro x ⟨⟩
  · simp [h.mStore]
  · simp [h.pending]
  · simp [h.pending]

/-! ## Nothing else spares expired bundles -/

section Exact
variable {p : Packet} {src dst : BpEndpointId} {lifetime : Time} {custody : Bool} {priority : UInt32}
  {code : ℤ} {rx : ReceivedBundle} {cs : CustodySignal}

/-- What `Forward` hands over shows whether the bundle has expired. -/
theorem not_lapsed_of_forward (hrun : s.forward b = some t) (hready : s.readyCla b ≠ none)
    (hsize : s.aduSize b ≠ 0) (h : HandsTimely s t) : ¬(s.header b).Lapsed s.sim.now := by
  rcases forward_eq_some.mp hrun with ⟨hnone, -⟩ | ⟨cla, adu, -, hadu, hm, hcase⟩
  · exact absurd hnone hready
  · rw [BundleStore.aduSize_of_adu hadu] at hsize
    have hhanded : t.handed = (s.sent b cla adu).handed := by
      rcases hcase with ⟨-, rfl⟩ | ⟨-, -, rfl⟩
      · rfl
      · rfl
    obtain ⟨txs, htxs, hall⟩ := h
    rw [hhanded, handed_sent] at htxs
    have hne : s.pieces adu ≠ [] := fun hnil =>
      hsize ((tiles_pieces adu (hm.resolve_right hsize)).eq_nil_iff.mp hnil).symm
    obtain ⟨piece, hpiece⟩ := List.exists_mem_of_ne_nil _ hne
    have hlive := hall _ (List.append_cancel_left htxs ▸ List.mem_map_of_mem hpiece)
    have hsame : (s.header b).SameBundle (s.transmission b cla (s.header b).getDestinationEid
        (s.fragmenting adu) adu piece).header := sameBundle_stamp _ _ _ _
    rwa [hsame.lapsed_iff] at hlive

theorem sparesSent_of_handsTimely (h : HandsTimely s t)
    (hrun : s.send b p src dst lifetime custody priority = some (t, code)) :
    s.SparesSent p.size src dst lifetime := by
  intro hlate
  by_contra hnot
  obtain ⟨hsrc, hnot⟩ := not_or.mp hnot
  obtain ⟨hready, hsize⟩ := not_or.mp hnot
  rcases send_eq_some.mp hrun with ⟨hrefused, -⟩ | ⟨-, u, hu, hforward, -⟩
  · exact hsrc hrefused
  · obtain ⟨hdr, id, hnew, hself⟩ := heap_createBundle hu
    have hspec := newHeader_spec hnew
    have hheader : u.header b = hdr := congrArg Bundle6.primaryHeader hself
    obtain ⟨hconfig, hhanded, hnow⟩ :
        u.config = s.config ∧ u.handed = s.handed ∧ u.sim.now = s.sim.now := by
      obtain ⟨hdr', -, ⟨-, rfl⟩ | ⟨-, -, rfl⟩⟩ := createBundle_eq_some.mp hu
      · exact ⟨rfl, rfl, rfl⟩
      · exact ⟨rfl, rfl, (s.created b hdr' p custody).toBundleStore.now_stored b⟩
    have hadu : (u.heap b).adu = some p := by
      rw [hself]
      rfl
    refine not_lapsed_of_forward hforward ?_ ?_ ?_ ?_
    · exact (readyCla_ne_none_iff hnew hconfig hheader).mpr (not_not.mp hready)
    · rwa [BundleStore.aduSize_of_adu hadu]
    · unfold HandsTimely
      rwa [hhanded]
    · rw [hheader, hnow]
      unfold BpHeader6.Lapsed BpHeader6.deadline
      rwa [hspec.lifeTime, hspec.createTimestamp]

/-- The packet of a custody signal is not empty. -/
theorem size_custodySignalPacket_ne_zero (h : s.custodySignalPacket b = some (cs, p)) :
    p.size ≠ 0 := by
  obtain ⟨cs', -, h⟩ := Option.bind_eq_some_iff.mp h
  obtain ⟨p', hp, h⟩ := Option.bind_eq_some_iff.mp h
  cases h
  rw [Packet.size, Packet.bytes_of_ofBytes hp]
  simp [AdminRecord.serialize]

/-- What `Deliver` does shows whether the bundle, and the signal about it, have expired. -/
theorem spares_of_timely_deliver {state : Bool} (h : Timely s t) (hne : b ≠ q)
    (hstate : s.findRegistration (s.header b).getDestinationEid = some state)
    (hrun : s.deliver b q = some t) :
    ((s.header b).Lapsed s.sim.now → state = false ∧ (s.header b).custTxReq = false) ∧
      ((s.header b).custTxReq = true →
        s.SparesSent 1 s.config.eid (s.header b).getCustEid (s.header b).lifeTime) := by
  rcases deliver_eq_some.mp hrun with ⟨hnone, -⟩ | ⟨state', v, hstate', hv, hcase⟩
  · rw [hstate] at hnone
    cases hnone
  · cases hstate.symm.trans hstate'
    have hframe := (deliveryClosed_frame s).enqueueIfActive (.refl s) hv
    have hkeys := hframe.header b
    have hlog := delivered_enqueueIfActive hv
    have hactive : t.delivered = v.delivered → (s.header b).Lapsed s.sim.now → state = false := by
      rintro hdelivered hlapsed
      cases state with
      | false => rfl
      | true =>
        obtain ⟨ds, hds, hall⟩ := h.delivered
        rw [hdelivered, hlog, if_pos rfl] at hds
        rw [← List.append_cancel_left hds] at hall
        exact absurd hlapsed (hall _ (List.mem_singleton_self _))
    rcases hcase with ⟨hcust, rfl⟩ | ⟨hcust, hsend⟩
    · rw [hkeys.custTxReq] at hcust
      rw [hcust]
      exact ⟨fun hlapsed => ⟨hactive rfl hlapsed, rfl⟩, nofun⟩
    · obtain ⟨cs, p, code, hpacket, hsend⟩ := sendCustodySignal_eq_some.mp hsend
      have hlive : ¬(s.header b).Lapsed s.sim.now := by
        obtain ⟨gs, hgs, hall⟩ := h.signals
        have hsignals : t.signals = s.signals ++ [(v.sim.now, b, cs)] := by
          rw [signals_send hsend, ← hframe.signals]
          rfl
        rw [hsignals] at hgs
        rw [← List.append_cancel_left hgs] at hall
        have hlive := hall _ (List.mem_singleton_self _)
        have hsent : (v.header b).SameBundle (t.header b) :=
          header_send (s := v.signalLogged b cs) hne hsend
        have hsame := hkeys.trans hsent
        rwa [hsame.lapsed_iff, hframe.now] at hlive
      refine ⟨fun hlapsed => absurd hlapsed hlive, fun _ => ?_⟩
      have hhands : HandsTimely (v.signalLogged b cs) t := by
        have hhanded : (v.signalLogged b cs).handed = s.handed := hframe.handed
        unfold HandsTimely
        rw [hhanded]
        exact h.handed
      have hspares := sparesSent_of_handsTimely hhands hsend
      have hsize := size_custodySignalPacket_ne_zero hpacket
      have hnow : (v.signalLogged b cs).sim.now = s.sim.now := hframe.now
      have hconfig : (v.signalLogged b cs).config = s.config := hframe.config
      unfold SparesSent Refused isNodeMember at hspares ⊢
      rw [hnow, readyFor_congr hconfig, hconfig, hframe.config, hkeys.lifeTime, hkeys.custodian]
        at hspares
      exact fun hlate => (hspares hlate).imp_right (Or.imp_right fun hempty => absurd hempty hsize)

theorem isNodeMember_eq_false {eid : BpEndpointId} (h : s.findRegistration eid = none) :
    s.isNodeMember eid = false := by
  have hfind := Option.map_eq_none_iff.mp h
  unfold isNodeMember
  rw [List.any_eq_false]
  exact List.find?_eq_none.mp hfind

/-- Accepting a bundle hands nothing over, delivers nothing and reports nothing. -/
theorem Timely.of_acceptBundle (h : Timely s t) (hu : s.acceptBundle b rx = some u) : Timely u t := by
  obtain ⟨-, -, -, hhanded, hsignals⟩ := rest_acceptBundle hu
  refine ⟨?_, ?_, ?_⟩
  · unfold HandsTimely
    rw [hhanded]
    exact h.handed
  · rw [delivered_acceptBundle hu]
    exact h.delivered
  · rw [hsignals]
    exact h.signals

theorem sparesExpired_of_timely (h : Timely s t) (hne : b ≠ q)
    (hrun : s.processBundle b q rx = some t) : s.SparesExpired (.processBundle b q rx) := by
  obtain ⟨u, hu, hcase⟩ := processBundle_eq_some.mp hrun
  obtain ⟨hconfig, -, hnow, -⟩ := rest_acceptBundle hu
  have hheader := header_acceptBundle hu
  have hfind := findRegistration_acceptBundle hu
  have hlater := h.of_acceptBundle hu
  cases hstate : s.findRegistration rx.header.getDestinationEid with
  | some state =>
    rw [hstate] at hfind
    have hdeliver : u.deliver b q = some t := by
      rcases hcase with ⟨-, hdeliver⟩ | ⟨hlocal, -⟩
      · exact hdeliver
      · rw [isNodeMember_of_find hfind] at hlocal
        cases hlocal
    obtain ⟨hlive, hspares⟩ := spares_of_timely_deliver hlater hne hfind hdeliver
    rw [hheader, hnow] at hlive
    refine ⟨fun hlapsed => ⟨fun state' hstate' => ?_, fun hnone => ?_⟩, fun _ hcust => ?_⟩
    · cases hstate.symm.trans hstate'
      exact hlive hlapsed
    · rw [hstate] at hnone
      cases hnone
    · rw [hheader] at hspares
      have hs := hspares hcust
      unfold SparesSent Refused isNodeMember at hs ⊢
      rwa [hnow, readyFor_congr hconfig, hconfig] at hs
  | none =>
    rw [hstate] at hfind
    have hforward : u.forward b = some t := by
      rcases hcase with ⟨hmember, -⟩ | ⟨-, hforward⟩
      · rw [isNodeMember_eq_false hfind] at hmember
        cases hmember
      · exact hforward
    refine ⟨fun hlapsed => ⟨fun state' hstate' => ?_, fun _ => ?_⟩, fun hsome => absurd hstate hsome⟩
    · rw [hstate] at hstate'
      cases hstate'
    · by_contra hnot
      obtain ⟨hsize, hready⟩ := not_or.mp hnot
      refine not_lapsed_of_forward hforward ?_ ?_ hlater.handed ?_
      · obtain ⟨cla, hcla, hisReady⟩ := not_not.mp hready
        have hready' : u.readyCla b = some cla := by
          unfold readyCla outgoingCla
          rw [hheader, hconfig]
          exact Option.filter_eq_some_iff.mpr ⟨hcla, hisReady⟩
        rw [hready']
        exact Option.some_ne_none cla
      · rwa [BundleStore.aduSize_of_adu (adu_acceptBundle hu)]
      · rwa [hheader, hnow]

/-- **One operation acts on no expired bundle exactly when it spares them.** -/
theorem Deadlines.timely_iff {op : Op} (h : s.Deadlines K) (hnodup : s.mStore.Nodup)
    (hop : s.Admissible op) (hstep : BpAgent6.step op s = some t) :
    Timely s t ↔ s.SparesExpired op := by
  refine ⟨fun htimely => ?_, fun hspares => (h.step hnodup hop hspares hstep).2⟩
  cases op with
  | send b p src dst lifetime custody priority =>
    obtain ⟨⟨u, code⟩, hu, rfl⟩ := Option.map_eq_some_iff.mp hstep
    exact sparesSent_of_handsTimely htimely.handed hu
  | processBundle b q rx => exact sparesExpired_of_timely htimely hop.2.2 hstep
  | _ => trivial

end Exact

/-- **Expired bundles are inert** throughout a run, no step handing over, delivering or signalling a
bundle after its lifetime has ended, exactly when every operation of the run spares them. -/
theorem inert_throughout_iff {ops : List Op} (hinit : s.Initial)
    (hrun : Run Admissible BpAgent6.step s ops t) :
    (∀ before op after u v, ops = before ++ op :: after → Run Admissible BpAgent6.step s before u →
      BpAgent6.step op u = some v → Timely u v) ↔
      Run (fun s op => s.Admissible op ∧ s.SparesExpired op) BpAgent6.step s ops t := by
  refine hrun.steps_iff (fun s => (∃ K, s.Deadlines K) ∧ s.mStore.Nodup) Timely ?_ ?_
    ⟨⟨_, hinit.deadlines⟩, ?_⟩
  · rintro s op t ⟨⟨K, hdeadlines⟩, hnodup⟩ hop hstep
    exact hdeadlines.timely_iff hnodup hop hstep
  · rintro s op t ⟨⟨K, hdeadlines⟩, hnodup⟩ hop hspares hstep
    exact ⟨(hdeadlines.step hnodup hop hspares hstep).1, nodup_step hnodup hop hstep⟩
  · rw [hinit.mStore]
    exact List.nodup_nil

/-- A bundle with a lifetime of one second is handed over in time. -/
theorem inert_throughout_iff_sample :
    let op := Op.send 1 Sample.threeBytes (Sample.eid 98) (Sample.eid 97) (seconds 1) false 0
    ∃ t, Run Admissible BpAgent6.step (Sample.agent 10 true) [op] t ∧ t.handed ≠ [] ∧
      ∀ before op' after u v, [op] = before ++ op' :: after →
        Run Admissible BpAgent6.step (Sample.agent 10 true) before u →
        BpAgent6.step op' u = some v → Timely u v := by
  intro op
  obtain ⟨t, ht, hhanded⟩ := (Option.any_eq_true (fun t : BpAgent6 => !t.handed.isEmpty) _).mp
    (by decide +kernel : (BpAgent6.step op (Sample.agent 10 true)).any _ = true)
  have hop : (Sample.agent 10 true).Admissible op := by decide
  have hspares : (Sample.agent 10 true).SparesExpired op := fun hlate => absurd hlate (by decide)
  have hrun : Run Admissible BpAgent6.step (Sample.agent 10 true) [op] t := .cons hop ht (.nil t)
  refine ⟨t, hrun, by simpa using hhanded, ?_⟩
  exact (inert_throughout_iff (Sample.initial_agent 10 true) hrun).mpr
    (.cons ⟨hop, hspares⟩ ht (.nil t))

/-- **An expired bundle is handed over**: sent at 1.5 s with a lifetime of 0.2 s, the bundle carries the
creation time 1 s and has expired at 1.2 s. -/
theorem expired_handed :
    let op := Op.send 1 Sample.threeBytes (Sample.eid 98) (Sample.eid 97) 200000000 false 0
    ∃ t u, Run Admissible BpAgent6.step (Sample.agent 10 true) [.advance 1500000000] t ∧
      t.Admissible op ∧ BpAgent6.step op t = some u ∧ ¬Timely t u := by
  intro op
  obtain ⟨u, hu, hlapsed⟩ := (Option.any_eq_true
    (fun u : BpAgent6 => decide (∃ tx ∈ u.handed, tx.header.Lapsed tx.time)) _).mp
    (by decide +kernel :
      (BpAgent6.step op { Sample.agent 10 true with sim := ⟨1500000000, 0, []⟩ }).any _ = true)
  refine ⟨_, u, .cons (by decide) rfl (.nil _), by decide, hu, ?_⟩
  rintro ⟨⟨txs, htxs, hall⟩, -, -⟩
  obtain ⟨tx, htx, hlate⟩ := of_decide_eq_true hlapsed
  rw [htxs] at htx
  exact hall tx htx hlate

end BpAgent6
end BundleProtocol
