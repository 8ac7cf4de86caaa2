import BundleProtocol.Registrations

/-! # Which convergence layers receive

An agent has any number of convergence layers, which come and go, and is started and stopped.  Only
`Register`, `Bind` and `Unregister` turn to the convergence layers, and only to those that the agent has
at that moment: one that is added later is not told what is registered, one that is removed is not
told to stop, and `Close` and `StopBpAgent` tell nobody.  So what a convergence layer listens for is
decided by the calls made while the agent had it (`listening_iff_history`).
-/
namespace BundleProtocol
open TransitionSystem

/-- The part of an agent that decides about reception, and the receiving sockets of all convergence layers
there are. -/
structure ReceivingAgent where
  eid : BpEndpointId
  /-- The state in `m_bpRegInfo`. -/
  regState : Bool
  registration : List (BpEndpointId × Bool)
  clas : List ClaId
  l4RecvSockets : ClaId → List (BpEndpointId × RecvSocket)

namespace ReceivingAgent
variable {s t u : ReceivingAgent} {c : ClaId} {eid x : BpEndpointId} {binds : ClaId → Bool}

/-- A new agent. -/
def initial : ReceivingAgent := ⟨defaultEid, true, [], [], fun _ => []⟩

/-- The agent as one convergence layer knows it. -/
def seenBy (s : ReceivingAgent) (c : ClaId) : Receivers := ⟨s.registration, s.l4RecvSockets c⟩

/-- The convergence layer `c` now has the sockets of `r`. -/
def told (s : ReceivingAgent) (c : ClaId) (r : Receivers) : ReceivingAgent :=
  { s with l4RecvSockets := Function.update s.l4RecvSockets c r.l4RecvSockets }

/-- The loop over `m_clas` that calls `f` on each. -/
def forClas (f : ClaId → Receivers → Receivers) : List ClaId → ReceivingAgent → ReceivingAgent
  | [], s => s
  | c :: l, s => forClas f l (s.told c (f c (s.seenBy c)))

/-- `EnableReceive` of every convergence layer.  Where `binds` fails the socket cannot be created, bound or
made to listen, and the return code is ignored. -/
def enableReceive (s : ReceivingAgent) (eid : BpEndpointId) (binds : ClaId → Bool) : ReceivingAgent :=
  forClas (fun c r => if binds c then r.enableReceive eid else r) s.clas s

/-- `DisableReceive` of every convergence layer. -/
def disableReceive (s : ReceivingAgent) (eid : BpEndpointId) : ReceivingAgent :=
  forClas (fun _ r => r.disableReceive eid) s.clas s

/-- `BpAgent::Register`; a duplicate registration is a fatal error. -/
def register (s : ReceivingAgent) (eid : BpEndpointId) (state : Bool) (binds : ClaId → Bool) :
    Option ReceivingAgent :=
  match s.registration.lookup eid with
  | some _ => none
  | none =>
    let s := { s with registration := KeyedList.insert s.registration eid state }
    some (if state then s.enableReceive eid binds else s)

/-- `BpAgent::Unregister`. -/
def unregister (s : ReceivingAgent) (eid : BpEndpointId) : ReceivingAgent :=
  match s.registration.lookup eid with
  | none => s
  | some _ =>
    disableReceive { s with registration := KeyedList.assign s.registration eid false } eid

/-- `BpAgent::Bind`. -/
def bind (s : ReceivingAgent) (eid : BpEndpointId) (binds : ClaId → Bool) : ReceivingAgent :=
  match s.registration.lookup eid with
  | none => s
  | some _ =>
    enableReceive { s with registration := KeyedList.assign s.registration eid true } eid binds

/-- `BpAgent::Close`. -/
def close (s : ReceivingAgent) (eid : BpEndpointId) : ReceivingAgent :=
  match s.registration.lookup eid with
  | none => s
  | some _ => { s with registration := KeyedList.erase s.registration eid }

/-- `BpAgent::AddCla`. -/
def addCla (s : ReceivingAgent) (c : ClaId) : ReceivingAgent := { s with clas := s.clas ++ [c] }

/-- `BpAgent::RemoveCla` erases the first one. -/
def removeCla (s : ReceivingAgent) (c : ClaId) : ReceivingAgent := { s with clas := s.clas.erase c }

/-- `BpAgent::SetBpEndpointId`, and `BuildBpEndpointId` with what it builds. -/
def setBpEndpointId (s : ReceivingAgent) (eid : BpEndpointId) : ReceivingAgent := { s with eid := eid }

/-- `BpAgent::SetBpRegisterInfo`. -/
def setBpRegisterInfo (s : ReceivingAgent) (state : Bool) : ReceivingAgent :=
  { s with regState := state }

/-- `BpAgent::StartBpAgent`, which the simulator calls at the start time. -/
def startBpAgent (s : ReceivingAgent) (binds : ClaId → Bool) : Option ReceivingAgent :=
  s.register s.eid s.regState binds

/-- `BpAgent::StopBpAgent`. -/
def stopBpAgent (s : ReceivingAgent) : ReceivingAgent := s.close s.eid

/-- A call on the agent. -/
inductive Call
  | register (eid : BpEndpointId) (state : Bool) (binds : ClaId → Bool)
  | unregister (eid : BpEndpointId)
  | bind (eid : BpEndpointId) (binds : ClaId → Bool)
  | close (eid : BpEndpointId)
  | addCla (c : ClaId)
  | removeCla (c : ClaId)
  | setBpEndpointId (eid : BpEndpointId)
  | setBpRegisterInfo (state : Bool)
  | startBpAgent (binds : ClaId → Bool)
  | stopBpAgent

/-- The effect of a call. -/
def step : Call → ReceivingAgent → Option ReceivingAgent
  | .register eid state binds, s => s.register eid state binds
  | .unregister eid, s => some (s.unregister eid)
  | .bind eid binds, s => some (s.bind eid binds)
  | .close eid, s => some (s.close eid)
  | .addCla c, s => some (s.addCla c)
  | .removeCla c, s => some (s.removeCla c)
  | .setBpEndpointId eid, s => some (s.setBpEndpointId eid)
  | .setBpRegisterInfo state, s => some (s.setBpRegisterInfo state)
  | .startBpAgent binds, s => s.startBpAgent binds
  | .stopBpAgent, s => some s.stopBpAgent

/-! ## The loops -/

theorem seenBy_told_self {r : Receivers} (h : r.registration = s.registration) :
    (s.told c r).seenBy c = r := by
  have hsockets : (s.told c r).l4RecvSockets c = r.l4RecvSockets := Function.update_self ..
  unfold seenBy
  rw [hsockets]
  exact congrArg (Receivers.mk · r.l4RecvSockets) h.symm

theorem seenBy_told_of_ne {d : ClaId} {r : Receivers} (h : c ≠ d) :
    (s.told d r).seenBy c = s.seenBy c :=
  congrArg (Receivers.mk s.registration) (Function.update_of_ne h ..)

/-- Calling an operation twice is calling it once, so each convergence layer of the list is called once. -/
theorem seenBy_forClas {f : ClaId → Receivers → Receivers} {l : List ClaId}
    (hkeeps : ∀ c r, (f c r).registration = r.registration) (htwice : ∀ c r, f c (f c r) = f c r) :
    (forClas f l s).seenBy c = if c ∈ l then f c (s.seenBy c) else s.seenBy c := by
  induction l generalizing s with
  | nil => rfl
  | cons d l ih =>
    rw [forClas, ih]
    by_cases hcd : c = d
    · subst hcd
      rw [seenBy_told_self (hkeeps c _), htwice, if_pos List.mem_cons_self]
      exact ite_self _
    · rw [seenBy_told_of_ne hcd]
      simp only [List.mem_cons, hcd, false_or]

theorem enableReceive_enableReceive (r : Receivers) (eid : BpEndpointId) :
    (r.enableReceive eid).enableReceive eid = r.enableReceive eid := by
  have hfound : (r.enableReceive eid).l4RecvSockets.lookup eid =
      some ((r.l4RecvSockets.lookup eid).getD .listening) := by
    rw [Receivers.lookup_enableReceive, BEq.rfl, if_pos rfl]
  have hsame : KeyedList.insert (r.enableReceive eid).l4RecvSockets eid .listening =
      (r.enableReceive eid).l4RecvSockets := by
    rw [KeyedList.insert, hfound]
  exact congrArg (Receivers.mk r.registration) hsame

theorem disableReceive_disableReceive (r : Receivers) (eid : BpEndpointId) :
    (r.disableReceive eid).disableReceive eid = r.disableReceive eid := by
  cases hfind : r.l4RecvSockets.lookup eid with
  | none =>
    have hsame : r.disableReceive eid = r := by
      unfold Receivers.disableReceive
      rw [hfind]
    rw [hsame, hsame]
  | some socket =>
    have hclosed : r.disableReceive eid =
        { r with l4RecvSockets := KeyedList.assign r.l4RecvSockets eid .closed } := by
      unfold Receivers.disableReceive
      rw [hfind]
    rw [hclosed]
    unfold Receivers.disableReceive
    rw [KeyedList.lookup_assign, BEq.rfl, if_pos rfl, hfind]
    exact congrArg (Receivers.mk r.registration) (KeyedList.assign_assign ..)

/-- Each convergence layer of the agent that gets its socket is told to receive. -/
theorem seenBy_enableReceive : (s.enableReceive eid binds).seenBy c =
    if c ∈ s.clas ∧ binds c = true then (s.seenBy c).enableReceive eid else s.seenBy c := by
  unfold enableReceive
  rw [seenBy_forClas]
  · by_cases hc : c ∈ s.clas <;> simp [hc]
  · intro d r
    split <;> rfl
  · intro d r
    split
    · exact enableReceive_enableReceive r eid
    · rfl

/-- Each convergence layer of the agent is told to stop. -/
theorem seenBy_disableReceive : (s.disableReceive eid).seenBy c =
    if c ∈ s.clas then (s.seenBy c).disableReceive eid else s.seenBy c := by
  unfold disableReceive
  exact seenBy_forClas (fun _ r => Receivers.registration_disableReceive r eid)
    fun _ r => disableReceive_disableReceive r eid

/-! ## One call -/

/-- The call makes `c` listen for `x`, if nothing ever did. -/
def Enables (s : ReceivingAgent) : Call → ClaId → BpEndpointId → Prop
  | .register eid state binds, c, x =>
    (x == eid) = true ∧ state = true ∧ c ∈ s.clas ∧ binds c = true
  | .bind eid binds, c, x =>
    (x == eid) = true ∧ s.registration.lookup eid ≠ none ∧ c ∈ s.clas ∧ binds c = true
  | .startBpAgent binds, c, x =>
    (x == s.eid) = true ∧ s.regState = true ∧ c ∈ s.clas ∧ binds c = true
  | _, _, _ => False

/-- The call closes the socket of `c` for `x`, if it has one. -/
def Disables (s : ReceivingAgent) : Call → ClaId → BpEndpointId → Prop
  | .unregister eid, c, x => (x == eid) = true ∧ s.registration.lookup eid ≠ none ∧ c ∈ s.clas
  | _, _, _ => False

/-- The socket of `c` for `x`, if there is one. -/
def socket (s : ReceivingAgent) (c : ClaId) (x : BpEndpointId) : Option RecvSocket :=
  (s.l4RecvSockets c).lookup x

theorem socket_enableReceive : (s.enableReceive eid binds).socket c x =
    if (x == eid) = true ∧ c ∈ s.clas ∧ binds c = true then some ((s.socket c x).getD .listening)
    else s.socket c x := by
  have hseen : (s.enableReceive eid binds).socket c x =
      ((s.enableReceive eid binds).seenBy c).l4RecvSockets.lookup x := rfl
  rw [hseen, seenBy_enableReceive]
  by_cases hc : c ∈ s.clas ∧ binds c = true
  · rw [if_pos hc, Receivers.lookup_enableReceive]
    by_cases hx : (x == eid) = true
    · rw [if_pos hx, if_pos ⟨hx, hc⟩, ← KeyedList.lookup_congr hx]
      rfl
    · rw [if_neg hx, if_neg fun h => hx h.1]
      rfl
  · rw [if_neg hc, if_neg fun h => hc h.2]
    rfl

theorem socket_disableReceive : (s.disableReceive eid).socket c x =
    if (x == eid) = true ∧ c ∈ s.clas then (s.socket c x).map fun _ => .closed else s.socket c x := by
  have hseen : (s.disableReceive eid).socket c x =
      ((s.disableReceive eid).seenBy c).l4RecvSockets.lookup x := rfl
  rw [hseen, seenBy_disableReceive]
  by_cases hc : c ∈ s.clas
  · rw [if_pos hc, Receivers.lookup_disableReceive]
    by_cases hx : (x == eid) = true
    · rw [if_pos hx, if_pos ⟨hx, hc⟩, ← KeyedList.lookup_congr hx]
      rfl
    · rw [if_neg hx, if_neg fun h => hx h.1]
      rfl
  · rw [if_neg hc, if_neg fun h => hc h.2]
    rfl

/-- **What `Register` does**: it does not return for a registered endpoint id. -/
theorem register_eq_some {state : Bool} : s.register eid state binds = some t ↔
    s.registration.lookup eid = none ∧
      t = if state then
        enableReceive { s with registration := KeyedList.insert s.registration eid state } eid binds
      else { s with registration := KeyedList.insert s.registration eid state } := by
  unfold register
  cases s.registration.lookup eid with
  | none => simp [eq_comm]
  | some old => simp

theorem socket_register {state : Bool} (hrun : s.register eid state binds = some t) :
    t.socket c x = if (x == eid) = true ∧ state = true ∧ c ∈ s.clas ∧ binds c = true then
      some ((s.socket c x).getD .listening) else s.socket c x := by
  obtain ⟨-, rfl⟩ := register_eq_some.mp hrun
  cases state with
  | true =>
    rw [if_pos rfl, socket_enableReceive]
    simp only [true_and]
    rfl
  | false =>
    rw [if_neg Bool.false_ne_true, if_neg fun h => Bool.false_ne_true h.2.1]
    rfl

theorem socket_unregister : (s.unregister eid).socket c x =
    if (x == eid) = true ∧ s.registration.lookup eid ≠ none ∧ c ∈ s.clas then
      (s.socket c x).map fun _ => .closed else s.socket c x := by
  unfold unregister
  split
  · rename_i hfind
    rw [if_neg fun h => h.2.1 hfind]
  · rename_i hfind
    rw [socket_disableReceive]
    simp only [hfind, ne_eq, reduceCtorEq, not_false_eq_true, true_and]
    rfl

theorem socket_bind : (s.bind eid binds).socket c x =
    if (x == eid) = true ∧ s.registration.lookup eid ≠ none ∧ c ∈ s.clas ∧ binds c = true then
      some ((s.socket c x).getD .listening) else s.socket c x := by
  unfold bind
  split
  · rename_i hfind
    rw [if_neg fun h => h.2.1 hfind]
  · rename_i hfind
    rw [socket_enableReceive]
    simp only [hfind, ne_eq, reduceCtorEq, not_false_eq_true, true_and]
    rfl

theorem socket_close : (s.close eid).socket c x = s.socket c x := by
  unfold close
  split <;> rfl

/-- **What one call does to a socket**: it creates it, closes it or leaves it alone. -/
theorem socket_step {op : Call} (hstep : step op s = some t) :
    (s.Enables op c x → t.socket c x = some ((s.socket c x).getD .listening)) ∧
      (s.Disables op c x → t.socket c x = (s.socket c x).map fun _ => .closed) ∧
      (¬s.Enables op c x → ¬s.Disables op c x → t.socket c x = s.socket c x) := by
  cases op with
  | register eid state binds =>
    rw [socket_register hstep]
    exact ⟨fun h => if_pos h, fun h => h.elim, fun h _ => if_neg h⟩
  | unregister eid =>
    cases hstep
    rw [socket_unregister]
    exact ⟨fun h => h.elim, fun h => if_pos h, fun _ h => if_neg h⟩
  | bind eid binds =>
    cases hstep
    rw [socket_bind]
    exact ⟨fun h => if_pos h, fun h => h.elim, fun h _ => if_neg h⟩
  | close eid =>
    cases hstep
    exact ⟨fun h => h.elim, fun h => h.elim, fun _ _ => socket_close⟩
  | startBpAgent binds =>
    rw [socket_register hstep]
    exact ⟨fun h => if_pos h, fun h => h.elim, fun h _ => if_neg h⟩
  | stopBpAgent =>
    cases hstep
    exact ⟨fun h => h.elim, fun h => h.elim, fun _ _ => socket_close⟩
  | addCla d =>
    cases hstep
    exact ⟨fun h => h.elim, fun h => h.elim, fun _ _ => rfl⟩
  | removeCla d =>
    cases hstep
    exact ⟨fun h => h.elim, fun h => h.elim, fun _ _ => rfl⟩
  | setBpEndpointId eid =>
    cases hstep
    exact ⟨fun h => h.elim, fun h => h.elim, fun _ _ => rfl⟩
  | setBpRegisterInfo state =>
    cases hstep
    exact ⟨fun h => h.elim, fun h => h.elim, fun _ _ => rfl⟩

/-- What a convergence layer of the agent is told of a call. -/
def Call.asToldBy (s : ReceivingAgent) : Call → Option Receivers.Call
  | .register eid state _ => some (.register eid state)
  | .unregister eid => some (.unregister eid)
  | .bind eid _ => some (.bind eid)
  | .close eid => some (.close eid)
  | .startBpAgent _ => some (.register s.eid s.regState)
  | .stopBpAgent => some (.close s.eid)
  | _ => none

/-- The convergence layer gets its socket if the call asks for one. -/
def Call.Binds (c : ClaId) : Call → Prop
  | .register _ _ binds => binds c = true
  | .bind _ binds => binds c = true
  | .startBpAgent binds => binds c = true
  | _ => True

theorem seenBy_register {state : Bool} (hc : c ∈ s.clas) (hbinds : binds c = true)
    (hrun : s.register eid state binds = some t) :
    (s.seenBy c).register eid state = some (t.seenBy c) := by
  obtain ⟨hfind, rfl⟩ := register_eq_some.mp hrun
  unfold Receivers.register
  rw [show (s.seenBy c).registration.lookup eid = none from hfind]
  cases state with
  | true =>
    rw [if_pos rfl, seenBy_enableReceive, if_pos ⟨hc, hbinds⟩]
    rfl
  | false => rfl

theorem seenBy_unregister (hc : c ∈ s.clas) :
    (s.unregister eid).seenBy c = (s.seenBy c).unregister eid := by
  unfold unregister Receivers.unregister
  have hsame : (s.seenBy c).registration = s.registration := rfl
  rw [hsame]
  cases s.registration.lookup eid with
  | none => rfl
  | some old =>
    dsimp only
    rw [seenBy_disableReceive, if_pos hc]
    rfl

theorem seenBy_bind (hc : c ∈ s.clas) (hbinds : binds c = true) :
    (s.bind eid binds).seenBy c = (s.seenBy c).bind eid := by
  unfold bind Receivers.bind
  have hsame : (s.seenBy c).registration = s.registration := rfl
  rw [hsame]
  cases s.registration.lookup eid with
  | none => rfl
  | some old =>
    dsimp only
    rw [seenBy_enableReceive, if_pos ⟨hc, hbinds⟩]
    rfl

theorem seenBy_close : (s.close eid).seenBy c = (s.seenBy c).close eid := by
  unfold close Receivers.close
  have hsame : (s.seenBy c).registration = s.registration := rfl
  rw [hsame]
  cases s.registration.lookup eid <;> rfl

/-- **The agent with one convergence layer**: to each that it has and that gets its sockets, the agent does
what it does with just that one. -/
theorem seenBy_step {op : Call} (hc : c ∈ s.clas) (hbinds : op.Binds c) (hstep : step op s = some t) :
    (op.asToldBy s).elim (some (s.seenBy c)) (Receivers.step · (s.seenBy c)) = some (t.seenBy c) := by
  cases op with
  | register eid state binds => exact seenBy_register hc hbinds hstep
  | startBpAgent binds => exact seenBy_register hc hbinds hstep
  | unregister eid =>
    cases hstep
    exact congrArg some (seenBy_unregister hc).symm
  | bind eid binds =>
    cases hstep
    exact congrArg some (seenBy_bind hc hbinds).symm
  | close eid =>
    cases hstep
    exact congrArg some seenBy_close.symm
  | stopBpAgent =>
    cases hstep
    exact congrArg some seenBy_close.symm
  | _ =>
    cases hstep
    rfl

/-! ## All calls -/

/-- **What a convergence layer listens for**: it listens for an endpoint id exactly when some call made
it listen while the agent had it, and since the first such call no `Unregister` of the endpoint id found
both the registration and the convergence layer in place. -/
theorem listening_iff_history {ops : List Call} (hrun : Run (fun _ _ => True) step initial ops t) :
    t.socket c x = some .listening ↔ ∃ before op after u v, ops = before ++ op :: after ∧
      Run (fun s op => ¬s.Enables op c x) step initial before u ∧ u.Enables op c x ∧
      step op u = some v ∧ Run (fun s op => ¬s.Disables op c x) step v after t := by
  have hlatch := hrun.latch_iff (fun s => s.socket c x = none)
    (fun s => s.socket c x = some .listening) (fun s => s.socket c x = some .closed)
    (fun s op => s.Enables op c x) (fun s op => s.Disables op c x) ?_ ?_ ?_ ?_ rfl
  · simpa only [true_and] using hlatch
  · intro s op t hfresh _ hstep
    obtain ⟨henables, hdisables, hkeeps⟩ := socket_step (c := c) (x := x) hstep
    refine ⟨fun henable => ?_, fun henable => ?_⟩
    · rw [henables henable, hfresh]
      rfl
    · by_cases hdisable : s.Disables op c x
      · rw [hdisables hdisable, hfresh]
        rfl
      · rw [hkeeps henable hdisable, hfresh]
  · intro s op t hon _ hstep
    obtain ⟨henables, hdisables, hkeeps⟩ := socket_step (c := c) (x := x) hstep
    refine ⟨fun hdisable => ?_, fun hdisable => ?_⟩
    · rw [hdisables hdisable, hon]
      rfl
    · by_cases henable : s.Enables op c x
      · rw [henables henable, hon]
        rfl
      · rw [hkeeps henable hdisable, hon]
  · intro s op t hgone _ hstep
    obtain ⟨henables, hdisables, hkeeps⟩ := socket_step (c := c) (x := x) hstep
    by_cases henable : s.Enables op c x
    · rw [henables henable, hgone]
      rfl
    · by_cases hdisable : s.Disables op c x
      · rw [hdisables hdisable, hgone]
        rfl
      · rw [hkeeps henable hdisable, hgone]
  · rintro s (hfresh | hgone)
    · rw [hfresh]
      exact nofun
    · rw [hgone]
      exact nofun

/-- An agent is started with one convergence layer, which is removed before the agent is stopped: it
listens on. -/
theorem listening_iff_history_sample :
    ∃ t, Run (fun _ _ => True) step initial
        [.setBpEndpointId Receivers.sampleEid, .addCla 0, .startBpAgent fun _ => true, .removeCla 0,
          .stopBpAgent] t ∧ t.clas = [] ∧ t.registration = [] ∧
      t.socket 0 Receivers.sampleEid = some .listening := by
  obtain ⟨v, hv, htest⟩ := (Option.any_eq_true (fun v : ReceivingAgent =>
      decide ((v.removeCla 0).stopBpAgent.clas = [] ∧ (v.removeCla 0).stopBpAgent.registration = [])) _).mp
    (by decide : (((initial.setBpEndpointId Receivers.sampleEid).addCla 0).startBpAgent
      fun _ => true).any _ = true)
  obtain ⟨hclas, hregistration⟩ := of_decide_eq_true htest
  have hrun : Run (fun _ _ => True) step initial
      [.setBpEndpointId Receivers.sampleEid, .addCla 0, .startBpAgent fun _ => true, .removeCla 0,
        .stopBpAgent] (v.removeCla 0).stopBpAgent :=
    .cons trivial rfl (.cons trivial rfl (.cons trivial hv
      (.cons trivial rfl (.cons trivial rfl (.nil _)))))
  refine ⟨_, hrun, hclas, hregistration, (listening_iff_history hrun).mpr ?_⟩
  exact ⟨[.setBpEndpointId Receivers.sampleEid, .addCla 0], .startBpAgent fun _ => true,
    [.removeCla 0, .stopBpAgent], _, v, rfl, .cons id rfl (.cons id rfl (.nil _)),
    ⟨by decide, rfl, by decide, rfl⟩, hv, .cons id rfl (.cons id rfl (.nil _))⟩

end ReceivingAgent
end BundleProtocol
