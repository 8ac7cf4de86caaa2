import BundleProtocol.StoreHealth
import BundleProtocol.TransitionSystem

/-! # Runs of an agent

What can happen to an agent: the application sends or receives, a convergence layer
delivers a bundle or reports that it is ready, the simulator runs the next event or
lets time pass, and the surroundings change.  `ForwardCall` names the calls of
`Forward` that an operation makes, with the state in which each is made.

An invariant of runs is proved part by part: `KeptBy` lists what the operations are made of, and
`KeptBy.step` puts the parts together.
-/
namespace BundleProtocol
namespace BpAgent6

/-- One thing that happens to an agent. -/
inductive Op
  | send (b : Ptr) (p : Packet) (src dst : BpEndpointId) (lifetime : Time) (custody : Bool)
      (priority : UInt32)
  | processBundle (b q : Ptr) (rx : ReceivedBundle)
  | claReady (cla : ClaId)
  | receive (eid : BpEndpointId)
  /-- The simulator runs a pending event. -/
  | fire (e : ScheduledEvent)
  /-- Time passes without an event. -/
  | advance (now : Time)
  /-- Registrations, routes, links or attributes change. -/
  | configure (config : Config)

/-- The effect of an operation. -/
def step : Op → BpAgent6 → Option BpAgent6
  | .send b p src dst lifetime custody priority, s =>
    (s.send b p src dst lifetime custody priority).map Prod.fst
  | .processBundle b q rx, s => s.processBundle b q rx
  | .claReady cla, s => s.claReady cla
  | .receive eid, s => (s.receive eid).map Prod.fst
  | .fire e, s => (s.popEvent e).runCallback e.call
  | .advance now, s => some { s with sim := { s.sim with now := now } }
  | .configure config, s => some { s with config := config }

/-- `b` is the address of no object in use: it is not stored and no event refers to it. -/
def Fresh (s : BpAgent6) (b : Ptr) : Prop :=
  b ∉ s.mStore ∧ ∀ e ∈ s.sim.pending, e.call.target ≠ b

/-- New objects have fresh addresses, events run in the order of their times, and the
clock does not pass a pending event. -/
def Admissible (s : BpAgent6) : Op → Prop
  | .send b .. => s.Fresh b
  | .processBundle b q _ => s.Fresh b ∧ s.Fresh q ∧ b ≠ q
  | .fire e => e ∈ s.sim.pending ∧ ∀ e' ∈ s.sim.pending, e.ts ≤ e'.ts
  | .advance now => s.sim.now ≤ now ∧ ∀ e ∈ s.sim.pending, now ≤ e.ts
  | _ => True

instance (s : BpAgent6) (b : Ptr) : Decidable (s.Fresh b) := inferInstanceAs (Decidable (_ ∧ _))

instance (s : BpAgent6) : (op : Op) → Decidable (s.Admissible op)
  | .send b .. => inferInstanceAs (Decidable (s.Fresh b))
  | .processBundle b q _ => inferInstanceAs (Decidable (s.Fresh b ∧ s.Fresh q ∧ b ≠ q))
  | .fire e => inferInstanceAs (Decidable (e ∈ s.sim.pending ∧ ∀ e' ∈ s.sim.pending, e.ts ≤ e'.ts))
  | .advance now =>
    inferInstanceAs (Decidable (s.sim.now ≤ now ∧ ∀ e ∈ s.sim.pending, now ≤ e.ts))
  | .claReady _ => inferInstanceAs (Decidable True)
  | .receive _ => inferInstanceAs (Decidable True)
  | .configure _ => inferInstanceAs (Decidable True)

/-- An agent that has not done anything yet. -/
structure Initial (s : BpAgent6) : Prop where
  mStore : s.mStore = []
  storedBytes : s.storedBytes = 0
  pending : s.sim.pending = []

/-- `ForwardCall s op p s'`: while `op` is performed from `s`, `Forward` is called on the
bundle at `p` in the state `s'`. -/
inductive ForwardCall (s : BpAgent6) : Op → Ptr → BpAgent6 → Prop
  | send {b p src dst lifetime custody priority s'}
      (hsrc : (src != defaultEid && !s.isNodeMember src) = false)
      (hcreate : s.createBundle b p src dst lifetime custody priority = some s') :
      ForwardCall s (.send b p src dst lifetime custody priority) b s'
  /-- The bundle is not for this node. -/
  | relay {b q rx s'} (haccept : s.acceptBundle b rx = some s')
      (hdst : s'.isNodeMember (s'.header b).getDestinationEid = false) :
      ForwardCall s (.processBundle b q rx) b s'
  /-- The custody signal about a delivered bundle is sent. -/
  | custodySignal {b q rx s₁ s₂ s' state cs p} (haccept : s.acceptBundle b rx = some s₁)
      (hfind : s₁.findRegistration (s₁.header b).getDestinationEid = some state)
      (henqueue : s₁.enqueueIfActive b state = some s₂)
      (hcust : (s₂.header b).custTxReq = true)
      (hpacket : s₂.custodySignalPacket b = some (cs, p))
      (hsrc : (s₂.config.eid != defaultEid && !s₂.isNodeMember s₂.config.eid) = false)
      (hcreate : createBundle { s₂ with signals := s₂.signals ++ [(s₂.sim.now, b, cs)] } q p
        s₂.config.eid (s₂.header b).getCustEid (s₂.header b).lifeTime false 0 = some s') :
      ForwardCall s (.processBundle b q rx) q s'
  | claReady {cla p before after s'}
      (hbundles : s.getForwardPendingBundles cla s.outgoingCla = before ++ p :: after)
      (hbefore : forwardAll before s = some s') : ForwardCall s (.claReady cla) p s'
  | retransmission {e p} (hcall : e.call = .forward p) : ForwardCall s (.fire e) p (s.popEvent e)

/-! ## Fresh addresses -/

section Fresh
variable {s t : BpAgent6} {b q : Ptr}

theorem Fresh.mono (h : s.Fresh q) (hstore : ∀ x ∈ t.mStore, x ∈ s.mStore)
    (hpending : ∀ e ∈ t.sim.pending, e ∈ s.sim.pending) : t.Fresh q :=
  ⟨fun hmem => h.1 (hstore q hmem), fun e he => h.2 e (hpending e he)⟩

theorem Fresh.removed (h : s.Fresh q) (b : Ptr) : (s.removed b).Fresh q :=
  h.mono (fun _ hx => List.mem_of_mem_erase hx)
    fun _ he => (Memory.pending_clearEvents_sublist _ _).subset he

theorem Fresh.discarded (h : s.Fresh q) (b : Ptr) : (s.discarded b).Fresh q :=
  (h.removed b).mono (fun _ hx => hx) fun _ he => (Memory.pending_doDispose_sublist _ _).subset he

/-- Storing one bundle leaves the addresses of others fresh. -/
theorem Fresh.stored (h : s.Fresh q) (hne : b ≠ q) : (s.stored b).Fresh q := by
  refine ⟨fun hmem => ?_, ?_⟩
  · rcases BundleStore.mem_stored.mp hmem with rfl | hmem
    · exact hne rfl
    · exact h.1 hmem
  · intro e he
    rcases s.toBundleStore.pending_stored b with hsim | ⟨delay, hsim⟩
    · have hpending : (s.stored b).sim.pending = s.sim.pending := congrArg Simulator.pending hsim
      rw [hpending] at he
      exact h.2 e he
    · have hpending : (s.stored b).sim.pending = (s.sim.schedule delay (.expire b)).pending :=
        congrArg Simulator.pending hsim
      rw [hpending] at he
      rcases List.mem_append.mp he with he | he
      · exact h.2 e he
      · rw [List.mem_singleton.mp he]
        exact hne

theorem Fresh.acceptBundle {rx : ReceivedBundle} (h : s.Fresh q) (hne : b ≠ q)
    (haccept : s.acceptBundle b rx = some t) : t.Fresh q := by
  rcases acceptBundle_eq_some.mp haccept with ⟨-, rfl⟩ | ⟨-, -, rfl⟩
  · exact h
  · exact Fresh.stored (s := s.arrived b rx) h hne

/-- Local delivery stores nothing and schedules nothing. -/
theorem deliveryClosed_fresh (q : Ptr) : DeliveryClosed fun s => s.Fresh q where
  delivered h := h
  withAdu h := h
  acked h := h
  markWhole h := h
  removed h _ := h.removed _
  discarded h _ := h.discarded _

/-- The state in which the custody signal's bundle is created: the address is still fresh. -/
theorem fresh_enqueued {rx : ReceivedBundle} {u v : BpAgent6} {state : Bool} (hq : s.Fresh q)
    (hne : b ≠ q) (haccept : s.acceptBundle b rx = some u)
    (henqueue : u.enqueueIfActive b state = some v) : v.Fresh q :=
  (deliveryClosed_fresh q).enqueueIfActive (hq.acceptBundle hne haccept) henqueue

end Fresh

/-! ## What an operation is made of -/

/-- The operation may take the agent's next sequence number. -/
def Numbers : Op → Prop
  | .send .. => True
  | .processBundle .. => True
  | _ => False

/-- The property `P` survives each part of the operation `op` from `s`. -/
structure KeptBy (s : BpAgent6) (op : Op) (P : BpAgent6 → Prop) : Prop where
  /-- Neither the bundle objects nor the store change. -/
  same : ∀ {u v : BpAgent6}, P u → v.heap = u.heap → v.mStore = u.mStore →
    v.storedBytes = u.storedBytes → P v
  discarded : ∀ {u : BpAgent6} {b : Ptr}, P u → u.Ordered → P (u.discarded b)
  acceptBundle : ∀ {b q rx u}, op = .processBundle b q rx → s.acceptBundle b rx = some u → P u
  enqueue : ∀ {b q rx u v state}, op = .processBundle b q rx → s.acceptBundle b rx = some u →
    u.findRegistration (u.header b).getDestinationEid = some state → P u →
    u.enqueueIfActive b state = some v → P v
  createBundle : ∀ {u v b p src dst lifetime custody priority}, Numbers op → u.seq = s.seq →
    b ∉ u.mStore → P u → u.createBundle b p src dst lifetime custody priority = some v → P v
  forward : ∀ {b u v}, ForwardCall s op b u → P u → u.forward b = some v → P v

section KeptBy
variable {s t u : BpAgent6} {b q : Ptr} {P : BpAgent6 → Prop} {op : Op}

/-- Forwarding one bundle after another: the induction is on the list, and what has been
forwarded before a bundle is known when it is its turn. -/
theorem forwardAll_induction {l : List Ptr} (h : P s)
    (hforward : ∀ before x after u v, l = before ++ x :: after → s.forwardAll before = some u →
      P u → u.forward x = some v → P v)
    (hrun : s.forwardAll l = some t) : P t := by
  induction l generalizing s with
  | nil =>
    cases hrun
    exact h
  | cons b l ih =>
    obtain ⟨u, hu, hrun⟩ := Option.bind_eq_some_iff.mp hrun
    refine ih (hforward [] b l s u rfl rfl h hu) ?_ hrun
    rintro before x after v w rfl hbefore
    exact hforward (b :: before) x after v w rfl (Option.bind_eq_some_iff.mpr ⟨u, hu, hbefore⟩)

/-- Accepting and delivering leave the agent's own sequence number alone. -/
theorem deliveryClosed_seq (n : UInt32) : DeliveryClosed fun s => s.seq = n where
  delivered h := h
  withAdu h := h
  acked h := h
  markWhole h := h
  removed h _ := h
  discarded h _ := h

theorem KeptBy.processBundle {rx : ReceivedBundle} (hk : KeptBy s (.processBundle b q rx) P)
    (hq : s.Fresh q) (hne : b ≠ q) (hrun : s.processBundle b q rx = some t) : P t := by
  obtain ⟨u, hu, ⟨-, hdeliver⟩ | ⟨hlocal, hforward⟩⟩ := processBundle_eq_some.mp hrun
  · have haccepted := hk.acceptBundle rfl hu
    rcases deliver_eq_some.mp hdeliver with ⟨-, rfl⟩ | ⟨state, v, hfind, hv, hcase⟩
    · exact haccepted
    · have henqueued := hk.enqueue rfl hu hfind haccepted hv
      rcases hcase with ⟨-, rfl⟩ | ⟨hcust, hsignal⟩
      · exact henqueued
      · obtain ⟨cs, p, code, hpacket, hsend⟩ := sendCustodySignal_eq_some.mp hsignal
        have hlogged : P (v.signalLogged b cs) := hk.same henqueued rfl rfl rfl
        rcases send_eq_some.mp hsend with ⟨-, rfl, -⟩ | ⟨hsrc, w, hw, hforward, -⟩
        · exact hlogged
        · -- the signal's bundle is a bundle of this agent's own
          have hseq : v.seq = s.seq :=
            (deliveryClosed_seq s.seq).enqueueIfActive (rest_acceptBundle hu).2.1 hv
          have hcreated : P w :=
            hk.createBundle (u := v.signalLogged b cs) trivial hseq (fresh_enqueued hq hne hu hv).1
              hlogged hw
          exact hk.forward
            (.custodySignal hu hfind hv hcust hpacket (eq_false_of_ne_true hsrc) hw) hcreated hforward
  · exact hk.forward (.relay hu hlocal) (hk.acceptBundle rfl hu) hforward

/-- **A property that survives the parts of an operation survives the operation.** -/
theorem KeptBy.step (hk : KeptBy s op P) (h : P s) (hop : s.Admissible op)
    (hstep : BpAgent6.step op s = some t) : P t := by
  cases op with
  | send b p src dst lifetime custody priority =>
    obtain ⟨⟨u, code⟩, hu, rfl⟩ := Option.map_eq_some_iff.mp hstep
    rcases send_eq_some.mp hu with ⟨-, rfl, -⟩ | ⟨hsrc, v, hv, hforward, -⟩
    · exact h
    · exact hk.forward (.send (eq_false_of_ne_true hsrc) hv)
        (hk.createBundle trivial rfl hop.1 h hv) hforward
  | processBundle b q rx =>
    obtain ⟨-, hq, hne⟩ := hop
    exact hk.processBundle hq hne hstep
  | claReady cla =>
    refine forwardAll_induction h ?_ hstep
    intro before x after u v hl hbefore
    exact hk.forward (.claReady hl hbefore)
  | receive eid =>
    obtain ⟨⟨u, p⟩, hu, rfl⟩ := Option.map_eq_some_iff.mp hstep
    rcases receive_eq_some.mp hu with ⟨-, rfl, -⟩ | ⟨b, adu, -, hord, -, -, rfl⟩
    · exact h
    · exact hk.same (hk.discarded h hord) rfl rfl rfl
  | fire e =>
    have hpop : P (s.popEvent e) := hk.same h rfl rfl rfl
    cases hcall : e.call with
    | expire b =>
      rw [BpAgent6.step, hcall] at hstep
      obtain ⟨hord, -, rfl⟩ := expire_eq_some.mp hstep
      exact hk.discarded hpop hord
    | forward b =>
      rw [BpAgent6.step, hcall] at hstep
      exact hk.forward (.retransmission hcall) hpop hstep
  | advance now =>
    cases hstep
    exact hk.same h rfl rfl rfl
  | configure config =>
    cases hstep
    exact hk.same h rfl rfl rfl

end KeptBy

/-! ## Every bundle is stored once -/

section Nodup
variable {s t : BpAgent6} {b : Ptr}

/-- Local delivery only removes. -/
theorem deliveryClosed_nodup : DeliveryClosed fun s => s.mStore.Nodup where
  delivered h := h
  withAdu h := h
  acked h := h
  markWhole h := h
  removed h _ := h.sublist List.erase_sublist
  discarded h _ := h.sublist List.erase_sublist

theorem nodup_stored (h : s.mStore.Nodup) (hb : b ∉ s.mStore) : (s.stored b).mStore.Nodup :=
  OrderedList.nodup_insert hb h

theorem nodup_acceptBundle {rx : ReceivedBundle} (h : s.mStore.Nodup) (hb : b ∉ s.mStore)
    (hrun : s.acceptBundle b rx = some t) : t.mStore.Nodup := by
  rcases acceptBundle_eq_some.mp hrun with ⟨-, rfl⟩ | ⟨-, -, rfl⟩
  · exact h
  · exact nodup_stored (s := s.arrived b rx) h hb

theorem nodup_createBundle {p : Packet} {src dst : BpEndpointId} {lifetime : Time} {custody : Bool}
    {priority : UInt32} (h : s.mStore.Nodup) (hb : b ∉ s.mStore)
    (hrun : s.createBundle b p src dst lifetime custody priority = some t) : t.mStore.Nodup := by
  obtain ⟨hdr, -, ⟨-, rfl⟩ | ⟨-, -, rfl⟩⟩ := createBundle_eq_some.mp hrun
  · exact h
  · exact nodup_stored (s := s.created b hdr p custody) h hb

/-- **No operation stores a bundle twice.** -/
theorem nodup_step {op : Op} (h : s.mStore.Nodup) (hop : s.Admissible op)
    (hstep : step op s = some t) : t.mStore.Nodup := by
  have hkept : KeptBy s op fun u => u.mStore.Nodup :=
    { same := fun hu _ hstore _ => by rwa [hstore]
      discarded := fun hu _ => hu.sublist List.erase_sublist
      acceptBundle := by
        rintro b q rx u rfl hu
        exact nodup_acceptBundle h hop.1.1 hu
      enqueue := fun _ _ _ hu hv => deliveryClosed_nodup.enqueueIfActive hu hv
      createBundle := fun _ _ hb hu hv => nodup_createBundle hu hb hv
      forward := fun _ hu hv => hu.sublist (forward_frame hv).sublist }
  exact hkept.step h hop hstep

end Nodup
end BpAgent6

/-! ## A small network

Endpoints `d:a`, `d:b` and `d:c`, and an agent at `d:b` that has registered `d:b` and `d:c`
and reaches `d:a` over convergence layer 0.  The runs on fixed inputs are about it. -/
namespace Sample

/-- The endpoint `d:x`, for the character `x`. -/
def eid (x : UInt8) : BpEndpointId := .ofComponents [100] [x]

/-- A header whose dictionary holds `d`, `a`, `b` and `c`; `src` and `dst` are the positions
2, 4 or 6 of the last three. -/
def header (src dst : UInt16) (flags : UInt32) (offset length : UInt32) : BpHeader6 :=
  { BpHeader6.new false with
    processingFlags := flags
    fragOffset := offset
    aduLength := length
    dstSspOffset := dst
    srcSspOffset := src
    reportSspOffset := src
    custSspOffset := src
    dictionary := [100, 0, 97, 0, 98, 0, 99, 0] }

def payloadHeader : BpBlockHeader6 := .new BpBlockHeader6.bundlePayloadBlock

/-- Every address holds this bundle until another is written there. -/
def blank : Bundle6 := Bundle6.new (header 2 4 0 0 0) payloadHeader ⟨[], by decide⟩

/-- An ADU of three bytes. -/
def threeBytes : Packet := ⟨[10, 11, 12], by decide⟩

def config (bundleSize : UInt32) (ready : Bool) : Config where
  eid := eid 98
  bundleSize := bundleSize
  ctRto := seconds 1
  registration := [(eid 98, true), (eid 99, true)]
  routingAgent := ⟨[(eid 97, [⟨eid 97, eid 97, true, 1, 1, some 0, []⟩])]⟩
  isReady := fun _ => ready

def agent (bundleSize : UInt32) (ready : Bool) : BpAgent6 where
  heap := fun _ => blank
  sim := ⟨0, 0, []⟩
  mStore := []
  maxBundlesStored := 0
  storedBytes := 0
  config := config bundleSize ready
  seq := 0
  bundlesDelivered := 0
  bytesDelivered := 0
  handed := []
  delivered := []
  signals := []

/-- The bundle that arrives with this header and payload. -/
def received (h : BpHeader6) (readable : h.Readable) (bytes : List UInt8)
    (size : bytes.length < 2 ^ 32) : ReceivedBundle :=
  ⟨h, payloadHeader, ⟨bytes, size⟩, readable.onArrival⟩

theorem readable_header (flags offset length : UInt32) : (header 2 6 flags offset length).Readable :=
  Or.inr (show ∀ o ∈ ([0, 6, 0, 2, 0, 2, 0, 2] : List UInt16), o.toNat ≤ 8 by simp)

/-- A fragment of one byte, from `d:a` to `d:c`. -/
def fragment (length offset : UInt32) (byte : UInt8) : ReceivedBundle :=
  received (header 2 6 1 offset length) (readable_header 1 offset length) [byte]
    (show 1 < 2 ^ 32 by decide)

theorem initial_agent (bundleSize : UInt32) (ready : Bool) : (agent bundleSize ready).Initial :=
  ⟨rfl, rfl, rfl⟩

end Sample
end BundleProtocol
