import BundleProtocol.Agent
import BundleProtocol.KeyedList
import BundleProtocol.TransitionSystem

/-! # Registrations and receiving sockets

An agent keeps its registrations, and its convergence layer a listening socket for each endpoint id
it was told to receive for.  The four operations on registrations change both, and ignore the return
codes of the convergence layer: it keeps the sockets it has closed, and with them finds that
there is a socket already.  `Close` does not tell the convergence layer at all.  What keeps the two in
step is `KeepsStep`, and nothing less does (`agree_step_iff`).
-/
namespace BundleProtocol
open TransitionSystem

/-- A receiving socket. -/
inductive RecvSocket
  | listening
  | closed
deriving DecidableEq

/-- The registrations of an agent with their states, and the receiving sockets of its convergence
layer. -/
structure Receivers where
  registration : List (BpEndpointId × Bool)
  l4RecvSockets : List (BpEndpointId × RecvSocket)

namespace Receivers

/-- `EnableReceive` of `BpUdpCla` and `BpTcpCla`, when the socket can be created, bound and made to
listen: it is kept unless there is one for the endpoint id. -/
def enableReceive (s : Receivers) (eid : BpEndpointId) : Receivers :=
  { s with l4RecvSockets := KeyedList.insert s.l4RecvSockets eid .listening }

/-- `BpCla::DisableReceive`: the socket is closed and stays in the map. -/
def disableReceive (s : Receivers) (eid : BpEndpointId) : Receivers :=
  match s.l4RecvSockets.lookup eid with
  | none => s
  | some _ => { s with l4RecvSockets := KeyedList.assign s.l4RecvSockets eid .closed }

/-- `BpAgent::Register`; a duplicate registration is a fatal error. -/
def register (s : Receivers) (eid : BpEndpointId) (state : Bool) : Option Receivers :=
  match s.registration.lookup eid with
  | some _ => none
  | none =>
    let s := { s with registration := KeyedList.insert s.registration eid state }
    some (if state then s.enableReceive eid else s)

/-- `BpAgent::Unregister`. -/
def unregister (s : Receivers) (eid : BpEndpointId) : Receivers :=
  match s.registration.lookup eid with
  | none => s
  | some _ =>
    disableReceive { s with registration := KeyedList.assign s.registration eid false } eid

/-- `BpAgent::Bind`. -/
def bind (s : Receivers) (eid : BpEndpointId) : Receivers :=
  match s.registration.lookup eid with
  | none => s
  | some _ => enableReceive { s with registration := KeyedList.assign s.registration eid true } eid

/-- `BpAgent::Close`. -/
def close (s : Receivers) (eid : BpEndpointId) : Receivers :=
  match s.registration.lookup eid with
  | none => s
  | some _ => { s with registration := KeyedList.erase s.registration eid }

/-- A call on the agent. -/
inductive Call
  | register (eid : BpEndpointId) (state : Bool)
  | unregister (eid : BpEndpointId)
  | bind (eid : BpEndpointId)
  | close (eid : BpEndpointId)

/-- The effect of a call. -/
def step : Call → Receivers → Option Receivers
  | .register eid state, s => s.register eid state
  | .unregister eid, s => some (s.unregister eid)
  | .bind eid, s => some (s.bind eid)
  | .close eid, s => some (s.close eid)

/-- The convergence layer receives for an endpoint id exactly while its registration is active. -/
def Agree (s : Receivers) : Prop :=
  ∀ eid, s.l4RecvSockets.lookup eid = some .listening ↔ s.registration.lookup eid = some true

/-- The call neither closes an active registration nor activates one whose socket has been
closed. -/
def KeepsStep (s : Receivers) : Call → Prop
  | .register eid state => state = true → s.l4RecvSockets.lookup eid ≠ some .closed
  | .unregister _ => True
  | .bind eid => s.registration.lookup eid ≠ none → s.l4RecvSockets.lookup eid ≠ some .closed
  | .close eid => s.registration.lookup eid ≠ some true

variable {s t : Receivers} {eid : BpEndpointId}

theorem lookup_enableReceive (s : Receivers) (eid x : BpEndpointId) :
    (s.enableReceive eid).l4RecvSockets.lookup x =
      if x == eid then some ((s.l4RecvSockets.lookup eid).getD .listening)
      else s.l4RecvSockets.lookup x :=
  KeyedList.lookup_insert

theorem registration_enableReceive (s : Receivers) (eid : BpEndpointId) :
    (s.enableReceive eid).registration = s.registration := rfl

theorem lookup_disableReceive (s : Receivers) (eid x : BpEndpointId) :
    (s.disableReceive eid).l4RecvSockets.lookup x =
      if x == eid then (s.l4RecvSockets.lookup eid).map fun _ => .closed
      else s.l4RecvSockets.lookup x := by
  unfold disableReceive
  cases hfind : s.l4RecvSockets.lookup eid with
  | none =>
    cases hx : x == eid with
    | true => exact (KeyedList.lookup_congr hx _).trans hfind
    | false => rfl
  | some socket =>
    show (KeyedList.assign s.l4RecvSockets eid .closed).lookup x = _
    rw [KeyedList.lookup_assign, hfind]

theorem registration_disableReceive (s : Receivers) (eid : BpEndpointId) :
    (s.disableReceive eid).registration = s.registration := by
  unfold disableReceive
  split <;> rfl

/-- Agreement at one endpoint id. -/
def AgreeAt (s : Receivers) (eid : BpEndpointId) : Prop :=
  s.l4RecvSockets.lookup eid = some .listening ↔ s.registration.lookup eid = some true

/-- A call changes the entries of one endpoint id: there agreement is to be checked. -/
theorem agree_iff_agreeAt (h : s.Agree)
    (hsockets : ∀ x, (x == eid) = false → t.l4RecvSockets.lookup x = s.l4RecvSockets.lookup x)
    (hregistration : ∀ x, (x == eid) = false → t.registration.lookup x = s.registration.lookup x) :
    t.Agree ↔ t.AgreeAt eid := by
  constructor
  · intro ht
    exact ht eid
  · intro ht x
    cases hx : x == eid with
    | true => rwa [KeyedList.lookup_congr hx, KeyedList.lookup_congr hx]
    | false =>
      rw [hsockets x hx, hregistration x hx]
      exact h x

/-- Enabling reception makes an endpoint id's socket listen unless it has been closed. -/
theorem lookup_enableReceive_iff (s : Receivers) (eid : BpEndpointId) :
    (s.enableReceive eid).l4RecvSockets.lookup eid = some .listening ↔
      s.l4RecvSockets.lookup eid ≠ some .closed := by
  rw [lookup_enableReceive, BEq.rfl, if_pos rfl]
  cases s.l4RecvSockets.lookup eid with
  | none => simp
  | some socket => cases socket <;> simp

/-- With reception enabled, and the registration made active, agreement is what the convergence
layer answers. -/
theorem agree_enableReceive_iff (h : s.Agree) {u : Receivers}
    (hsockets : u.l4RecvSockets = s.l4RecvSockets)
    (hactive : u.registration.lookup eid = some true)
    (hregistration : ∀ x, (x == eid) = false → u.registration.lookup x = s.registration.lookup x) :
    (u.enableReceive eid).Agree ↔ s.l4RecvSockets.lookup eid ≠ some .closed := by
  have hframe : ∀ x, (x == eid) = false →
      (u.enableReceive eid).l4RecvSockets.lookup x = s.l4RecvSockets.lookup x := by
    intro x hx
    rw [lookup_enableReceive, hx, if_neg Bool.false_ne_true, hsockets]
  rw [agree_iff_agreeAt h hframe hregistration, AgreeAt, lookup_enableReceive_iff, hsockets,
    registration_enableReceive]
  exact iff_true_right hactive

theorem agree_register_iff (h : s.Agree) {state : Bool} (hrun : s.register eid state = some t) :
    t.Agree ↔ (state = true → s.l4RecvSockets.lookup eid ≠ some .closed) := by
  unfold register at hrun
  cases hfind : s.registration.lookup eid with
  | some old =>
    rw [hfind] at hrun
    cases hrun
  | none =>
    rw [hfind] at hrun
    cases hrun
    have hnew : (KeyedList.insert s.registration eid state).lookup eid = some state := by
      rw [KeyedList.lookup_insert, BEq.rfl, if_pos rfl, hfind]
      rfl
    have hframe : ∀ x, (x == eid) = false →
        (KeyedList.insert s.registration eid state).lookup x = s.registration.lookup x := by
      intro x hx
      rw [KeyedList.lookup_insert, hx, if_neg Bool.false_ne_true]
    cases state with
    | true =>
      have hiff := agree_enableReceive_iff h
        (u := { s with registration := KeyedList.insert s.registration eid true }) rfl hnew hframe
      simpa using hiff
    | false =>
      -- The endpoint id had no registration, hence no listening socket.
      have hidle : s.l4RecvSockets.lookup eid ≠ some .listening := by
        rw [ne_eq, h eid, hfind]
        exact nofun
      refine iff_of_true ?_ nofun
      refine (agree_iff_agreeAt h
        (t := { s with registration := KeyedList.insert s.registration eid false })
        (fun _ _ => rfl) hframe).mpr ?_
      rw [AgreeAt, hnew]
      exact iff_of_false hidle nofun

theorem agree_unregister (h : s.Agree) : (s.unregister eid).Agree := by
  unfold unregister
  cases hfind : s.registration.lookup eid with
  | none => exact h
  | some old =>
    simp only
    have hframe : ∀ x, (x == eid) = false →
        (KeyedList.assign s.registration eid false).lookup x = s.registration.lookup x := by
      intro x hx
      rw [KeyedList.lookup_assign, hx, if_neg Bool.false_ne_true]
    rw [agree_iff_agreeAt h, AgreeAt, lookup_disableReceive, registration_disableReceive, BEq.rfl,
      if_pos rfl, KeyedList.lookup_assign, BEq.rfl, if_pos rfl, hfind]
    · cases s.l4RecvSockets.lookup eid <;> simp
    · intro x hx
      rw [lookup_disableReceive, hx, if_neg Bool.false_ne_true]
    · intro x hx
      rw [registration_disableReceive, hframe x hx]

theorem agree_bind_iff (h : s.Agree) :
    (s.bind eid).Agree ↔
      (s.registration.lookup eid ≠ none → s.l4RecvSockets.lookup eid ≠ some .closed) := by
  unfold bind
  cases hfind : s.registration.lookup eid with
  | none => simpa using h
  | some old =>
    simp only [ne_eq, reduceCtorEq, not_false_eq_true, forall_const]
    refine agree_enableReceive_iff h rfl ?_ fun x hx => ?_
    · rw [KeyedList.lookup_assign, BEq.rfl, if_pos rfl, hfind]
      rfl
    · rw [KeyedList.lookup_assign, hx, if_neg Bool.false_ne_true]

theorem agree_close_iff (h : s.Agree) :
    (s.close eid).Agree ↔ s.registration.lookup eid ≠ some true := by
  unfold close
  cases hfind : s.registration.lookup eid with
  | none => simpa using h
  | some old =>
    have hframe : ∀ x, (x == eid) = false →
        (KeyedList.erase s.registration eid).lookup x = s.registration.lookup x := by
      intro x hx
      rw [KeyedList.lookup_erase, hx, if_neg Bool.false_ne_true]
    refine (agree_iff_agreeAt h (t := { s with registration := KeyedList.erase s.registration eid })
      (fun _ _ => rfl) hframe).trans ?_
    rw [AgreeAt, KeyedList.lookup_erase, BEq.rfl, if_pos rfl, h eid, hfind]
    simp

/-- **One call.**  Agreement outlives a call exactly when the call is one that keeps it. -/
theorem agree_step_iff {op : Call} (h : s.Agree) (hstep : step op s = some t) :
    t.Agree ↔ s.KeepsStep op := by
  cases op with
  | register eid state => exact agree_register_iff h hstep
  | unregister eid =>
    cases hstep
    exact iff_of_true (agree_unregister h) trivial
  | bind eid =>
    cases hstep
    exact agree_bind_iff h
  | close eid =>
    cases hstep
    exact agree_close_iff h

/-- While they agree, the convergence layer listens for exactly the endpoint ids that `Deliver` of the
agent with these registrations hands on to the application. -/
theorem Agree.listening_iff (h : s.Agree) {a : BpAgent6}
    (ha : a.config.registration = s.registration) (eid : BpEndpointId) :
    s.l4RecvSockets.lookup eid = some .listening ↔ a.findRegistration eid = some true := by
  have hfind : a.findRegistration eid = s.registration.lookup eid := by
    unfold BpAgent6.findRegistration
    rw [ha, List.lookup_eq_findSome?]
    induction s.registration with
    | nil => rfl
    | cons r l ih =>
      rw [List.find?_cons, List.findSome?_cons, BEq.comm]
      cases eid == r.1 <;> first | rfl | exact ih
  rw [h eid, hfind]

/-- **Registrations and receiving sockets agree** after every call of a run exactly when no call of
it closes an active registration or activates one whose socket has been closed. -/
theorem agree_throughout_iff {ops : List Call}
    (h : Run (fun _ _ => True) step ⟨[], []⟩ ops t) :
    (∀ before op after u v, ops = before ++ op :: after → Run (fun _ _ => True) step ⟨[], []⟩ before u →
      step op u = some v → v.Agree) ↔ Run KeepsStep step ⟨[], []⟩ ops t := by
  have hinit : Agree ⟨[], []⟩ := fun eid => iff_of_false nofun nofun
  refine (h.steps_iff Agree (fun _ v => v.Agree) (fun s op t hs _ hstep => agree_step_iff hs hstep)
    (fun s op t hs _ hkeeps hstep => (agree_step_iff hs hstep).mpr hkeeps) hinit).trans ?_
  constructor
  · intro hrun
    exact hrun.weaken fun _ _ _ hguard => hguard.2
  · intro hrun
    exact hrun.weaken fun _ _ _ hkeeps => ⟨trivial, hkeeps⟩

/-- The endpoint id `dtn:a`. -/
def sampleEid : BpEndpointId := .ofComponents BpEndpointId.dtnScheme [97]

theorem agree_throughout_iff_sample :
    ∃ t, Run (fun _ _ => True) step ⟨[], []⟩ [.register sampleEid true, .unregister sampleEid] t ∧
      ∀ before op after u v,
        [Call.register sampleEid true, .unregister sampleEid] = before ++ op :: after →
        Run (fun _ _ => True) step ⟨[], []⟩ before u → step op u = some v → v.Agree := by
  refine ⟨_, .cons trivial rfl (.cons trivial rfl (.nil _)), ?_⟩
  refine (agree_throughout_iff (.cons trivial rfl (.cons trivial rfl (.nil _)))).mpr ?_
  exact .cons (fun _ => by decide) rfl (.cons trivial rfl (.nil _))

/-- **Two ways out of step.**  After `Close` the convergence layer still listens for the endpoint id;
after `Unregister` and `Bind` the registration is active and the socket closed. -/
theorem reception_disagrees :
    (∃ t, Run (fun _ _ => True) step ⟨[], []⟩ [.register sampleEid true, .close sampleEid] t ∧
      ¬ t.Agree) ∧
    ∃ t, Run (fun _ _ => True) step ⟨[], []⟩
      [.register sampleEid true, .unregister sampleEid, .bind sampleEid] t ∧ ¬ t.Agree := by
  constructor
  · refine ⟨_, .cons trivial rfl (.cons trivial rfl (.nil _)), fun h => ?_⟩
    exact absurd (h sampleEid) (by decide)
  · refine ⟨_, .cons trivial rfl (.cons trivial rfl (.cons trivial rfl (.nil _))), fun h => ?_⟩
    exact absurd (h sampleEid) (by decide)

end Receivers
end BundleProtocol
