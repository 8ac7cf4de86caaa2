import BundleProtocol.AgentRun
import BundleProtocol.KeyedList

/-! # Routing tables and the route of a transmission

The table of `BpStaticRoutingAgent` is built by `AddRoute`, `UpRoute` and `DownRoute`, which file
every route under its own destination (`filed_of_built`).  A transmission is resolved by two routes of
it: the first one up to the destination gives the address, the first one up to the next hop of that
gives the convergence layer.  So the two belong to one route where these two routes agree, and else
at best to a route that was not looked up (`forward_oneRoute`).
-/
namespace BundleProtocol
open TransitionSystem

namespace BpStaticRoutingAgent

/-! ## Building a table -/

/-- `BpStaticRoutingAgent::BpStaticRoutingAgent`. -/
def new : BpStaticRoutingAgent := ⟨[]⟩

/-- The note of a route that is given none: `"(none)"`. -/
def noNote : List UInt8 := [40, 110, 111, 110, 101, 41]

/-- `BpStaticRoutingAgent::AddRoute`; a null `note` is `none`. -/
def addRoute (agent : BpStaticRoutingAgent) (dst nxt : BpEndpointId) (up : Bool) (addr : UInt32)
    (port : UInt16) (cla : Option ClaId) (note : Option (List UInt8)) : BpStaticRoutingAgent :=
  let r : DtnRoute := ⟨dst, nxt, up, addr, port, cla, note.getD noNote⟩
  let routes := KeyedList.insert agent.routes dst []
  ⟨KeyedList.assign routes dst ((routes.lookup dst).getD [] ++ [r])⟩

/-- The loop of `UpRoute` and `DownRoute`: the first route via `nxt`, with this note unless it is
null, is switched. -/
def switchFirst (nxt : BpEndpointId) (note : Option (List UInt8)) (up : Bool) :
    List DtnRoute → List DtnRoute
  | [] => []
  | r :: rs =>
    if r.nxtHop == nxt && (note.isNone || note == some r.note) then { r with up := up } :: rs
    else r :: switchFirst nxt note up rs

/-- What `UpRoute` and `DownRoute` share.  For an unknown destination they follow the end iterator of
the map. -/
def switchRoute (agent : BpStaticRoutingAgent) (dst nxt : BpEndpointId) (note : Option (List UInt8))
    (up : Bool) : Option BpStaticRoutingAgent := do
  let routes ← agent.find dst
  some ⟨KeyedList.assign agent.routes dst (switchFirst nxt note up routes)⟩

/-- `BpStaticRoutingAgent::UpRoute`. -/
def upRoute (agent : BpStaticRoutingAgent) (dst nxt : BpEndpointId) (note : Option (List UInt8)) :
    Option BpStaticRoutingAgent := agent.switchRoute dst nxt note true

/-- `BpStaticRoutingAgent::DownRoute`. -/
def downRoute (agent : BpStaticRoutingAgent) (dst nxt : BpEndpointId) (note : Option (List UInt8)) :
    Option BpStaticRoutingAgent := agent.switchRoute dst nxt note false

/-- A call that changes the table. -/
inductive Op
  | addRoute (dst nxt : BpEndpointId) (up : Bool) (addr : UInt32) (port : UInt16) (cla : Option ClaId)
      (note : Option (List UInt8))
  | upRoute (dst nxt : BpEndpointId) (note : Option (List UInt8))
  | downRoute (dst nxt : BpEndpointId) (note : Option (List UInt8))

/-- What a call does. -/
def step : Op → BpStaticRoutingAgent → Option BpStaticRoutingAgent
  | .addRoute dst nxt up addr port cla note, agent =>
    some (agent.addRoute dst nxt up addr port cla note)
  | .upRoute dst nxt note, agent => agent.upRoute dst nxt note
  | .downRoute dst nxt note, agent => agent.downRoute dst nxt note

/-- `UpRoute` and `DownRoute` are called on known destinations. -/
def Known (agent : BpStaticRoutingAgent) : Op → Prop
  | .addRoute .. => True
  | .upRoute dst _ _ => ∃ routes, agent.find dst = some routes
  | .downRoute dst _ _ => ∃ routes, agent.find dst = some routes

variable {agent agent' : BpStaticRoutingAgent} {dst nxt : BpEndpointId} {note : Option (List UInt8)}
  {r : DtnRoute} {rs : List DtnRoute}

/-! ## What is filed where -/

/-- The map is read by its keys. -/
theorem find_eq_lookup (agent : BpStaticRoutingAgent) (dst : BpEndpointId) :
    agent.find dst = agent.routes.lookup dst := by
  unfold find
  induction agent.routes with
  | nil => rfl
  | cons e l ih =>
    have hcomm : (dst == e.1) = (e.1 == dst) := BEq.comm
    rw [List.find?_cons, List.lookup_cons, hcomm]
    cases e.1 == dst with
    | true => rfl
    | false => exact ih

/-- Every route stands in the list of its own destination. -/
def Filed (agent : BpStaticRoutingAgent) : Prop :=
  ∀ dst rs, agent.find dst = some rs → ∀ r ∈ rs, (dst == r.dstEid) = true

/-- A switched list holds the routes of the old one, but for the switch. -/
theorem exists_mem_of_mem_switchFirst {up : Bool} (h : r ∈ switchFirst nxt note up rs) :
    ∃ q ∈ rs, q.dstEid = r.dstEid := by
  induction rs with
  | nil => exact absurd h List.not_mem_nil
  | cons q rs ih =>
    unfold switchFirst at h
    split at h
    · rcases List.mem_cons.mp h with rfl | hmem
      · exact ⟨q, List.mem_cons_self, rfl⟩
      · exact ⟨r, List.mem_cons_of_mem q hmem, rfl⟩
    · rcases List.mem_cons.mp h with rfl | hmem
      · exact ⟨r, List.mem_cons_self, rfl⟩
      · obtain ⟨q', hq', hdst⟩ := ih hmem
        exact ⟨q', List.mem_cons_of_mem q hq', hdst⟩

/-- A list that replaces the one for `dst`, with routes to `dst` only. -/
theorem Filed.assign (h : agent.Filed) {routes : List (BpEndpointId × List DtnRoute)}
    (hroutes : ∀ d, (d == dst) = false → routes.lookup d = agent.find d)
    (hrs : ∀ r ∈ rs, (dst == r.dstEid) = true) : Filed ⟨KeyedList.assign routes dst rs⟩ := by
  intro d rs' hfind r hr
  rw [find_eq_lookup, KeyedList.lookup_assign] at hfind
  cases hd : d == dst with
  | true =>
    rw [hd, if_pos rfl] at hfind
    obtain ⟨_, -, rfl⟩ := Option.map_eq_some_iff.mp hfind
    rw [BEq.congr_left hd]
    exact hrs r hr
  | false =>
    rw [hd, if_neg Bool.false_ne_true, hroutes d hd] at hfind
    exact h d rs' hfind r hr

theorem Filed.addRoute (h : agent.Filed) (up : Bool) (addr : UInt32) (port : UInt16)
    (cla : Option ClaId) : (agent.addRoute dst nxt up addr port cla note).Filed := by
  refine h.assign (fun d hd => ?_) fun r hr => ?_
  · rw [KeyedList.lookup_insert, hd, if_neg Bool.false_ne_true, find_eq_lookup]
  · -- the routes that were there, then the new one
    rcases List.mem_append.mp hr with hr | hr
    · rw [KeyedList.lookup_insert, BpEndpointId.beq_self, if_pos rfl, Option.getD_some] at hr
      cases hfind : agent.routes.lookup dst with
      | none =>
        rw [hfind] at hr
        exact absurd hr List.not_mem_nil
      | some rs =>
        rw [hfind, Option.getD_some] at hr
        exact h dst rs ((agent.find_eq_lookup dst).trans hfind) r hr
    · obtain rfl := List.mem_singleton.mp hr
      exact BpEndpointId.beq_self dst

theorem Filed.switchRoute (h : agent.Filed) {up : Bool}
    (hswitch : agent.switchRoute dst nxt note up = some agent') : agent'.Filed := by
  obtain ⟨rs, hfind, hassign⟩ := Option.bind_eq_some_iff.mp hswitch
  cases hassign
  refine h.assign (fun d _ => (agent.find_eq_lookup d).symm) fun r hr => ?_
  obtain ⟨q, hq, hdst⟩ := exists_mem_of_mem_switchFirst hr
  rw [← hdst]
  exact h dst rs hfind q hq

/-- **Every table that is built from nothing files its routes by destination.** -/
theorem filed_of_built {ops : List Op} (hbuilt : Run Known step new ops agent) : agent.Filed := by
  refine hbuilt.invariant Filed ?_ ?_
  · intro agent op agent' h _ hstep
    cases op with
    | addRoute dst nxt up addr port cla note =>
      cases hstep
      exact h.addRoute up addr port cla
    | upRoute dst nxt note => exact h.switchRoute hstep
    | downRoute dst nxt note => exact h.switchRoute hstep
  · intro dst rs hfind
    cases hfind

/-! ## The two routes of a transmission -/

/-- What `GetRoute` reads off a route. -/
def address (r : DtnRoute) : InetSocketAddress := ⟨r.addr, r.port⟩

/-- The route is in the table, and up. -/
def Has (agent : BpStaticRoutingAgent) (r : DtnRoute) : Prop :=
  r.up = true ∧ ∃ rs, agent.find r.dstEid = some rs ∧ r ∈ rs

/-- A route that is up has this convergence layer and this address. -/
def OneRoute (agent : BpStaticRoutingAgent) (cla : ClaId) (dstAddress : InetSocketAddress) : Prop :=
  ∃ r, agent.Has r ∧ r.cla = some cla ∧ address r = dstAddress

/-- The first route up to `dst` and the first route up to its next hop name the same convergence layer
or have the same address. -/
def RoutesAgree (agent : BpStaticRoutingAgent) (dst : BpEndpointId) : Prop :=
  ∃ r q, agent.firstUp dst = some r ∧ agent.firstUp r.nxtHop = some q ∧
    (q.cla = r.cla ∨ address q = address r)

/-- The route is one of these two. -/
def LookedUp (agent : BpStaticRoutingAgent) (dst : BpEndpointId) (e : DtnRoute) : Prop :=
  agent.firstUp dst = some e ∨ ∃ r, agent.firstUp dst = some r ∧ agent.firstUp r.nxtHop = some e

/-- What is in the table is in one of its lists. -/
theorem Has.mem (h : agent.Has r) : r ∈ agent.routes.flatMap Prod.snd := by
  obtain ⟨-, rs, hfind, hr⟩ := h
  obtain ⟨e, he, rfl⟩ := Option.map_eq_some_iff.mp hfind
  exact List.mem_flatMap.mpr ⟨e, List.mem_of_find?_eq_some he, hr⟩

/-- The walk of the three lookups ends at a route of the table. -/
theorem Filed.has_firstUp (h : agent.Filed) (hfirst : agent.firstUp dst = some r) : agent.Has r := by
  obtain ⟨rs, hfind, hr⟩ := Option.bind_eq_some_iff.mp hfirst
  have hmem := List.mem_of_find?_eq_some hr
  have hkey := h dst rs hfind r hmem
  refine ⟨List.find?_some hr, rs, ?_, hmem⟩
  rw [find_eq_lookup, ← KeyedList.lookup_congr hkey, ← find_eq_lookup]
  exact hfind

end BpStaticRoutingAgent

namespace BpAgent6
open BpStaticRoutingAgent
variable {s : BpAgent6} {b : Ptr} {cla : ClaId} {dst : BpEndpointId}

/-- The two routes behind a convergence layer that is found. -/
theorem outgoingCla_eq_some (h : s.outgoingCla dst = some cla) :
    ∃ r q, s.config.routingAgent.firstUp dst = some r ∧
      s.config.routingAgent.firstUp r.nxtHop = some q ∧ q.cla = some cla ∧
      s.getEidAddress dst = address r := by
  unfold outgoingCla at h
  dsimp only at h
  split at h
  · cases h
  rename_i hne
  unfold nextHopEid at h hne
  cases hr : s.config.routingAgent.firstUp dst with
  | none =>
    -- the next hop of an unknown destination is the default endpoint id, which is turned down
    rw [hr] at hne
    exact absurd (BpEndpointId.beq_self defaultEid) hne
  | some r =>
    rw [hr] at h
    unfold nextHopCla at h
    cases hq : s.config.routingAgent.firstUp r.nxtHop with
    | none =>
      simp only [hq] at h
      cases h
    | some q =>
      simp only [hq] at h
      refine ⟨r, q, rfl, hq, h, ?_⟩
      unfold getEidAddress getRoute
      rw [hr]
      rfl

/-- **One route serves a transmission where its two routes agree.**  Over every table that is built
from nothing, whenever `Forward` finds a convergence layer that is ready: it hands everything to that
layer and for the address that `GetRoute` gives.  The two belong to one route that is up if the first
routes up to the destination and to its next hop agree, and otherwise to no route that was looked
up. -/
theorem forward_oneRoute {ops : List BpStaticRoutingAgent.Op}
    (hbuilt : Run Known BpStaticRoutingAgent.step new ops s.config.routingAgent)
    (hcla : s.readyCla b = some cla) :
    (∀ v, (s.flagged b).transmit b cla (s.header b).getDestinationEid = some v →
      ∃ txs, v.handed = s.handed ++ txs ∧
        ∀ tx ∈ txs, tx.cla = cla ∧ tx.dstAddress = s.getEidAddress (s.header b).getDestinationEid) ∧
    (s.config.routingAgent.RoutesAgree (s.header b).getDestinationEid →
      s.config.routingAgent.OneRoute cla (s.getEidAddress (s.header b).getDestinationEid)) ∧
    ∀ e, s.config.routingAgent.LookedUp (s.header b).getDestinationEid e →
      e.cla = some cla → address e = s.getEidAddress (s.header b).getDestinationEid →
      s.config.routingAgent.RoutesAgree (s.header b).getDestinationEid := by
  -- the address is that of the route `r`, the convergence layer that of the route `q`
  obtain ⟨hout, -⟩ := Option.filter_eq_some_iff.mp hcla
  obtain ⟨r, q, hr, hq, hqcla, haddress⟩ := outgoingCla_eq_some hout
  have hfiled := filed_of_built hbuilt
  refine ⟨fun v hv => ?_, ?_, ?_⟩
  · obtain ⟨adu, -, -, rfl⟩ := transmit_eq_some.mp hv
    refine ⟨_, s.handed_sent b cla adu, fun tx htx => ?_⟩
    obtain ⟨piece, -, rfl⟩ := List.mem_map.mp htx
    exact ⟨rfl, rfl⟩
  · rw [haddress]
    rintro ⟨r', q', hr', hq', hcase⟩
    cases hr.symm.trans hr'
    cases hq.symm.trans hq'
    rcases hcase with hsame | hsame
    · exact ⟨r, hfiled.has_firstUp hr, hsame.symm.trans hqcla, rfl⟩
    · exact ⟨q, hfiled.has_firstUp hq, hqcla, hsame⟩
  · rw [haddress]
    rintro e (he | ⟨r', hr', he⟩) hecla headdress
    · cases hr.symm.trans he
      exact ⟨r, q, hr, hq, Or.inl (hqcla.trans hecla.symm)⟩
    · cases hr.symm.trans hr'
      cases hq.symm.trans he
      exact ⟨r, q, hr, hq, Or.inr headdress⟩

/-- A route whose next hop is its destination agrees with itself. -/
theorem routesAgree_of_direct {r : DtnRoute} (hr : s.config.routingAgent.firstUp dst = some r)
    (hdirect : (r.nxtHop == dst) = true) : s.config.routingAgent.RoutesAgree dst := by
  refine ⟨r, r, hr, ?_, Or.inl rfl⟩
  obtain ⟨rs, hfind, hfirst⟩ := Option.bind_eq_some_iff.mp hr
  unfold firstUp
  rw [find_eq_lookup, KeyedList.lookup_congr hdirect, ← find_eq_lookup, hfind]
  exact hfirst

end BpAgent6

/-! ## Two hops -/

namespace Sample

/-- The calls that make `d:c` reachable through `d:a`, over convergence layer `cla` at address 2;
`d:a` is reached over convergence layer 0 at address 1. -/
def twoHops (cla : ClaId) : List BpStaticRoutingAgent.Op :=
  [.addRoute (eid 99) (eid 97) true 2 1 (some cla) none,
    .addRoute (eid 97) (eid 97) true 1 1 (some 0) none]

/-- The table they build. -/
def twoHopTable (cla : ClaId) : BpStaticRoutingAgent :=
  (BpStaticRoutingAgent.new.addRoute (eid 99) (eid 97) true 2 1 (some cla) none).addRoute
    (eid 97) (eid 97) true 1 1 (some 0) none

theorem run_twoHops (cla : ClaId) : Run BpStaticRoutingAgent.Known BpStaticRoutingAgent.step
    BpStaticRoutingAgent.new (twoHops cla) (twoHopTable cla) :=
  .cons trivial rfl (.cons trivial rfl (.nil _))

/-- An agent with this table, about to forward three bytes to `d:c`. -/
def twoHopAgent (cla : ClaId) : BpAgent6 :=
  { agent 3 true with
    heap := fun _ => Bundle6.new (header 2 6 0 0 3) payloadHeader threeBytes
    config := { config 3 true with routingAgent := twoHopTable cla } }

theorem readyCla_twoHopAgent (cla : ClaId) : (twoHopAgent cla).readyCla 1 = some 0 := rfl

end Sample

/-- Where both routes name convergence layer 0, the transmission takes the first. -/
theorem forward_oneRoute_sample :
    (Sample.twoHopTable 0).OneRoute 0 ⟨2, 1⟩ ∧ ((Sample.twoHopAgent 0).forward 1).isSome = true := by
  obtain ⟨-, hone, -⟩ := BpAgent6.forward_oneRoute (s := Sample.twoHopAgent 0)
    (Sample.run_twoHops 0) (Sample.readyCla_twoHopAgent 0)
  exact ⟨hone ⟨_, _, rfl, rfl, Or.inl rfl⟩, by decide⟩

/-- Where they name two, the bundle goes over the convergence layer of the second route to the address
of the first. -/
theorem routes_mixed :
    ∃ (ops : _) (s v : BpAgent6) (b : Ptr) (cla : ClaId) (tx : Transmission),
      Run BpStaticRoutingAgent.Known BpStaticRoutingAgent.step BpStaticRoutingAgent.new ops
        s.config.routingAgent ∧
      s.readyCla b = some cla ∧ s.forward b = some v ∧ v.handed = s.handed ++ [tx] ∧
      ¬s.config.routingAgent.OneRoute tx.cla tx.dstAddress := by
  obtain ⟨v, hv, htest⟩ := (Option.any_eq_true (fun v : BpAgent6 => v.handed.any fun tx =>
    decide (v.handed.length = 1 ∧ tx.cla = 0 ∧ tx.dstAddress = ⟨2, 1⟩)) _).mp
    (by decide : ((Sample.twoHopAgent 1).forward 1).any _ = true)
  obtain ⟨tx, htx, hmixed⟩ := List.any_eq_true.mp htest
  obtain ⟨hlength, hcla, haddress⟩ := of_decide_eq_true hmixed
  obtain ⟨tx', hlog⟩ := List.length_eq_one_iff.mp hlength
  obtain rfl : tx = tx' := by
    rw [hlog] at htx
    exact List.mem_singleton.mp htx
  refine ⟨_, Sample.twoHopAgent 1, v, 1, 0, tx, Sample.run_twoHops 1,
    Sample.readyCla_twoHopAgent 1, hv, hlog, ?_⟩
  rintro ⟨r, hr, hrcla, hraddress⟩
  rw [hcla] at hrcla
  rw [haddress] at hraddress
  have hnone : ∀ r ∈ (Sample.twoHopTable 1).routes.flatMap Prod.snd,
      ¬(r.cla = some 0 ∧ BpStaticRoutingAgent.address r = ⟨2, 1⟩) := by decide
  exact hnone r hr.mem ⟨hrcla, hraddress⟩

end BundleProtocol
