import BundleProtocol.Routing
import Mathlib.Data.List.Induction

/-! # Routing tables as logs of routes

What the table of `BpStaticRoutingAgent` is for can be said without the map: it is the log of the
routes that were added, in which `UpRoute` and `DownRoute` switch the earliest match, and the earliest
route to an endpoint id that is up wins (`reference`, `winner`).  The map of lists keeps to that call by
call (`Refines`), as long as `UpRoute` and `DownRoute` name destinations that are in it: for the others
they follow its end iterator (`firstUpWins_iff`).
-/
namespace BundleProtocol
namespace BpStaticRoutingAgent

/-! ## The log -/

/-- The first route with the property is switched, if there is one. -/
def switchEarliest (p : DtnRoute → Bool) (up : Bool) (log : List DtnRoute) : List DtnRoute :=
  match log.findIdx? p with
  | some i => log.modify i fun r => { r with up := up }
  | none => log

/-- The route has this destination, this next hop and, when one is given, this note. -/
def isRoute (dst nxt : BpEndpointId) (note : Option (List UInt8)) (r : DtnRoute) : Bool :=
  dst == r.dstEid && (r.nxtHop == nxt && (note.isNone || note == some r.note))

/-- What a call does to the log. -/
def record (log : List DtnRoute) : Op → List DtnRoute
  | .addRoute dst nxt up addr port cla note =>
    log ++ [⟨dst, nxt, up, addr, port, cla, note.getD noNote⟩]
  | .upRoute dst nxt note => switchEarliest (isRoute dst nxt note) true log
  | .downRoute dst nxt note => switchEarliest (isRoute dst nxt note) false log

/-- The log after these calls. -/
def reference (ops : List Op) : List DtnRoute := ops.foldl record []

/-- The earliest route to `eid` that is up. -/
def winner (log : List DtnRoute) (eid : BpEndpointId) : Option DtnRoute :=
  log.find? fun r => eid == r.dstEid && r.up

/-- The table after these calls on an empty one; nothing once a call has no defined result. -/
def table (ops : List Op) : Option BpStaticRoutingAgent :=
  ops.foldlM (fun agent op => step op agent) new

/-- The destination that the call takes to be there. -/
def Op.switched : Op → Option BpEndpointId
  | .addRoute .. => none
  | .upRoute dst _ _ => some dst
  | .downRoute dst _ _ => some dst

/-- The destination that the call brings in. -/
def Op.added : Op → Option BpEndpointId
  | .addRoute dst .. => some dst
  | .upRoute .. => none
  | .downRoute .. => none

/-- Every `UpRoute` and `DownRoute` is for a destination that an earlier `AddRoute` has added. -/
def AddedBefore (ops : List Op) : Prop :=
  ∀ before op after, ops = before ++ op :: after → ∀ dst, op.switched = some dst →
    ∃ op' ∈ before, ∃ d, op'.added = some d ∧ (dst == d) = true

variable {agent agent' : BpStaticRoutingAgent} {dst nxt eid : BpEndpointId}
  {note : Option (List UInt8)} {log : List DtnRoute} {up : Bool} {ops : List Op}

/-! ## The routes to one destination -/

/-- The routes to `eid`, in the order of the log. -/
def routesTo (log : List DtnRoute) (eid : BpEndpointId) : List DtnRoute :=
  log.filter fun r => eid == r.dstEid

theorem switchEarliest_cons (p : DtnRoute → Bool) (up : Bool) (r : DtnRoute) (log : List DtnRoute) :
    switchEarliest p up (r :: log) =
      if p r then { r with up := up } :: log else r :: switchEarliest p up log := by
  unfold switchEarliest
  rw [List.findIdx?_cons]
  cases p r with
  | true => rfl
  | false =>
    cases log.findIdx? p with
    | none => rfl
    | some i => rfl

/-- Switching in the log is switching in the list of the destination. -/
theorem routesTo_switchEarliest : routesTo (switchEarliest (isRoute dst nxt note) up log) eid =
    if eid == dst then switchFirst nxt note up (routesTo log eid) else routesTo log eid := by
  induction log with
  | nil => cases eid == dst <;> rfl
  | cons r log ih =>
    have hswitched : ∀ keep : Bool, routesTo ({ r with up := keep } :: log) eid =
        if eid == r.dstEid then { r with up := keep } :: routesTo log eid else routesTo log eid :=
      fun keep => List.filter_cons
    have hkept : ∀ rest, routesTo (r :: rest) eid =
        if eid == r.dstEid then r :: routesTo rest eid else routesTo rest eid :=
      fun rest => List.filter_cons
    rw [switchEarliest_cons, hkept log]
    cases hdst : dst == r.dstEid with
    | false =>
      -- the route is for another destination, and stays
      have hnot : isRoute dst nxt note r = false := by rw [isRoute, hdst, Bool.false_and]
      rw [hnot, if_neg Bool.false_ne_true, hkept, ih]
      cases heid : eid == dst with
      | false => rfl
      | true =>
        rw [BEq.congr_left heid, hdst]
        rfl
    | true =>
      have hkey : (eid == r.dstEid) = (eid == dst) := (BEq.congr_right hdst).symm
      have hsame : isRoute dst nxt note r = (r.nxtHop == nxt && (note.isNone || note == some r.note)) := by
        rw [isRoute, hdst, Bool.true_and]
      rw [hsame]
      cases hmatch : r.nxtHop == nxt && (note.isNone || note == some r.note) with
      | true =>
        rw [if_pos rfl, hswitched, hkey]
        cases eid == dst with
        | false => rfl
        | true =>
          rw [if_pos rfl, if_pos rfl, if_pos rfl, switchFirst, hmatch]
          rfl
      | false =>
        rw [if_neg Bool.false_ne_true, hkept, hkey, ih]
        cases eid == dst with
        | false => rfl
        | true =>
          rw [if_pos rfl, if_pos rfl, if_pos rfl, if_pos rfl, switchFirst, hmatch]
          rfl

theorem routesTo_concat (r : DtnRoute) : routesTo (log ++ [r]) eid =
    if eid == r.dstEid then routesTo log eid ++ [r] else routesTo log eid := by
  unfold routesTo
  rw [List.filter_append, List.filter_singleton]
  cases eid == r.dstEid with
  | true => rfl
  | false => exact List.append_nil _

/-! ## Refinement -/

/-- The map files the routes of the log: the list for a destination holds the routes to it in their
order, and there is none where there are no routes. -/
def Refines (agent : BpStaticRoutingAgent) (log : List DtnRoute) : Prop :=
  ∀ eid, agent.find eid = if routesTo log eid = [] then none else some (routesTo log eid)

theorem Refines.getD_find (h : agent.Refines log) (eid : BpEndpointId) :
    (agent.find eid).getD [] = routesTo log eid := by
  rw [h eid]
  split
  · rename_i hnil
    rw [hnil]
    rfl
  · rfl

theorem find_addRoute (addr : UInt32) (port : UInt16) (cla : Option ClaId) :
    (agent.addRoute dst nxt up addr port cla note).find eid =
      if eid == dst then
        some ((agent.find dst).getD [] ++ [⟨dst, nxt, up, addr, port, cla, note.getD noNote⟩])
      else agent.find eid := by
  simp only [find_eq_lookup, addRoute, KeyedList.lookup_assign, KeyedList.lookup_insert,
    BpEndpointId.beq_self, if_pos, Option.getD_some, Option.map_some]
  cases eid == dst <;> rfl

theorem Refines.addRoute (h : agent.Refines log) (addr : UInt32) (port : UInt16) (cla : Option ClaId) :
    (agent.addRoute dst nxt up addr port cla note).Refines
      (record log (.addRoute dst nxt up addr port cla note)) := by
  intro eid
  rw [find_addRoute, record, routesTo_concat]
  cases heid : eid == dst with
  | true =>
    have hsame : routesTo log dst = routesTo log eid :=
      List.filter_congr fun r _ => (BEq.congr_left heid).symm
    rw [if_pos rfl, if_pos rfl, h.getD_find, hsame, if_neg (by simp)]
  | false =>
    rw [if_neg Bool.false_ne_true, if_neg Bool.false_ne_true]
    exact h eid

theorem switchFirst_eq_nil_iff {rs : List DtnRoute} : switchFirst nxt note up rs = [] ↔ rs = [] := by
  cases rs with
  | nil => exact Iff.rfl
  | cons r rs =>
    unfold switchFirst
    split <;> simp

theorem switchRoute_eq_some_iff : agent.switchRoute dst nxt note up = some agent' ↔
    ∃ rs, agent.find dst = some rs ∧
      agent' = ⟨KeyedList.assign agent.routes dst (switchFirst nxt note up rs)⟩ := by
  refine Option.bind_eq_some_iff.trans (exists_congr fun rs => and_congr_right fun _ => ?_)
  rw [Option.some.injEq, eq_comm]

/-- A switched route of the table is the switched route of the log. -/
theorem Refines.switchRoute (h : agent.Refines log)
    (hswitch : agent.switchRoute dst nxt note up = some agent') :
    agent'.Refines (switchEarliest (isRoute dst nxt note) up log) := by
  obtain ⟨rs, hfind, rfl⟩ := switchRoute_eq_some_iff.mp hswitch
  have hrs : rs = routesTo log dst := by
    rw [← h.getD_find, hfind]
    rfl
  intro eid
  rw [find_eq_lookup, KeyedList.lookup_assign, routesTo_switchEarliest, ← find_eq_lookup, hfind]
  cases heid : eid == dst with
  | true =>
    have hsame : routesTo log dst = routesTo log eid :=
      List.filter_congr fun r _ => (BEq.congr_left heid).symm
    have hne : routesTo log eid ≠ [] := by
      intro hnil
      rw [h dst, hsame, if_pos hnil] at hfind
      cases hfind
    rw [if_pos rfl, if_pos rfl, hrs, hsame, if_neg fun hnil => hne (switchFirst_eq_nil_iff.mp hnil)]
    rfl
  | false =>
    rw [if_neg Bool.false_ne_true, if_neg Bool.false_ne_true, ← find_eq_lookup]
    exact h eid

/-- **One call.** -/
theorem Refines.step {op : Op} (h : agent.Refines log) (hstep : step op agent = some agent') :
    agent'.Refines (record log op) := by
  cases op with
  | addRoute dst nxt up addr port cla note =>
    cases hstep
    exact h.addRoute addr port cla
  | upRoute dst nxt note => exact h.switchRoute hstep
  | downRoute dst nxt note => exact h.switchRoute hstep

theorem table_concat (ops : List Op) (op : Op) : table (ops ++ [op]) = (table ops).bind (step op) := by
  unfold table
  rw [List.foldlM_append]
  simp only [List.foldlM_cons, List.foldlM_nil, bind_pure]
  rfl

theorem reference_concat (ops : List Op) (op : Op) :
    reference (ops ++ [op]) = record (reference ops) op := by
  unfold reference
  rw [List.foldl_append]
  rfl

/-- **Any calls**, by induction from the last one. -/
theorem refines_reference (h : table ops = some agent) : agent.Refines (reference ops) := by
  induction ops using List.reverseRecOn generalizing agent with
  | nil =>
    cases h
    exact fun eid => rfl
  | append_singleton ops op ih =>
    rw [table_concat] at h
    obtain ⟨before, hbefore, hstep⟩ := Option.bind_eq_some_iff.mp h
    rw [reference_concat]
    exact (ih hbefore).step hstep

/-! ## Which calls are defined -/

theorem map_dstEid_switchEarliest (p : DtnRoute → Bool) (up : Bool) (log : List DtnRoute) :
    (switchEarliest p up log).map DtnRoute.dstEid = log.map DtnRoute.dstEid := by
  induction log with
  | nil => rfl
  | cons r log ih =>
    rw [switchEarliest_cons]
    split
    · rfl
    · rw [List.map_cons, ih, List.map_cons]

/-- The log holds the destinations that were added. -/
theorem map_dstEid_reference (ops : List Op) :
    (reference ops).map DtnRoute.dstEid = ops.filterMap Op.added := by
  induction ops using List.reverseRecOn with
  | nil => rfl
  | append_singleton ops op ih =>
    rw [reference_concat, List.filterMap_append, ← ih]
    cases op with
    | addRoute dst nxt up addr port cla note => exact List.map_append
    | upRoute dst nxt note =>
      exact (map_dstEid_switchEarliest _ _ _).trans (List.append_nil _).symm
    | downRoute dst nxt note =>
      exact (map_dstEid_switchEarliest _ _ _).trans (List.append_nil _).symm

theorem routesTo_reference_ne_nil_iff : routesTo (reference ops) dst ≠ [] ↔
    ∃ op ∈ ops, ∃ d, op.added = some d ∧ (dst == d) = true := by
  have hmem : ∀ d, (∃ op ∈ ops, op.added = some d) ↔ ∃ r ∈ reference ops, r.dstEid = d := by
    intro d
    have hiff : d ∈ ops.filterMap Op.added ↔ d ∈ (reference ops).map DtnRoute.dstEid := by
      rw [map_dstEid_reference]
    rwa [List.mem_filterMap, List.mem_map] at hiff
  constructor
  · intro hne
    obtain ⟨r, hr⟩ := List.exists_mem_of_ne_nil _ hne
    obtain ⟨hr, hkey⟩ := List.mem_filter.mp hr
    obtain ⟨op, hop, hadded⟩ := (hmem r.dstEid).mpr ⟨r, hr, rfl⟩
    exact ⟨op, hop, r.dstEid, hadded, hkey⟩
  · rintro ⟨op, hop, d, hadded, hkey⟩
    obtain ⟨r, hr, rfl⟩ := (hmem d).mp ⟨op, hop, hadded⟩
    exact List.ne_nil_of_mem (List.mem_filter.mpr ⟨hr, hkey⟩)

/-- A call is defined when the destination it takes to be there is in the table. -/
theorem exists_step_iff (op : Op) : (∃ agent', step op agent = some agent') ↔
    ∀ dst, op.switched = some dst → ∃ rs, agent.find dst = some rs := by
  have hswitch : ∀ dst nxt note up, (∃ agent', agent.switchRoute dst nxt note up = some agent') ↔
      ∃ rs, agent.find dst = some rs := by
    intro dst nxt note up
    constructor
    · rintro ⟨agent', h⟩
      obtain ⟨rs, hfind, -⟩ := switchRoute_eq_some_iff.mp h
      exact ⟨rs, hfind⟩
    · rintro ⟨rs, hfind⟩
      exact ⟨_, switchRoute_eq_some_iff.mpr ⟨rs, hfind, rfl⟩⟩
  cases op with
  | addRoute dst nxt up addr port cla note => exact iff_of_true ⟨_, rfl⟩ nofun
  | upRoute dst nxt note => exact (hswitch dst nxt note true).trans (by simp [Op.switched])
  | downRoute dst nxt note => exact (hswitch dst nxt note false).trans (by simp [Op.switched])

/-- After defined calls the next one is defined when its destination was added. -/
theorem exists_step_iff_of_table (h : table ops = some agent) (op : Op) :
    (∃ agent', step op agent = some agent') ↔ ∀ dst, op.switched = some dst →
      ∃ op' ∈ ops, ∃ d, op'.added = some d ∧ (dst == d) = true := by
  rw [exists_step_iff]
  refine forall_congr' fun dst => imp_congr_right fun _ => ?_
  rw [← routesTo_reference_ne_nil_iff, refines_reference h dst]
  by_cases hnil : routesTo (reference ops) dst = []
  · simp [hnil]
  · simp [hnil]

theorem exists_table_iff : (∃ agent, table ops = some agent) ↔ AddedBefore ops := by
  constructor
  · rintro ⟨agent, h⟩ before op after rfl
    have hsplit : before ++ op :: after = (before ++ [op]) ++ after := by simp
    rw [hsplit, table, List.foldlM_append] at h
    obtain ⟨middle, hmiddle, -⟩ := Option.bind_eq_some_iff.mp h
    have hmiddle : table (before ++ [op]) = some middle := hmiddle
    rw [table_concat] at hmiddle
    obtain ⟨agent', hbefore, hstep⟩ := Option.bind_eq_some_iff.mp hmiddle
    exact (exists_step_iff_of_table hbefore op).mp ⟨middle, hstep⟩
  · intro h
    induction ops using List.reverseRecOn with
    | nil => exact ⟨new, rfl⟩
    | append_singleton ops op ih =>
      have hops : AddedBefore ops := by
        rintro before op' after rfl
        exact h before op' (after ++ [op]) (by simp)
      obtain ⟨agent, hagent⟩ := ih hops
      obtain ⟨agent', hstep⟩ := (exists_step_iff_of_table hagent op).mpr (h ops op [] rfl)
      exact ⟨agent', by rw [table_concat, hagent, Option.bind_some, hstep]⟩

/-! ## The lookups -/

/-- The walk over the list of a destination ends at the winner of the log. -/
theorem Refines.firstUp_eq (h : agent.Refines log) (eid : BpEndpointId) :
    agent.firstUp eid = winner log eid := by
  have hwalk : agent.firstUp eid = ((agent.find eid).getD []).find? fun r => r.up := by
    unfold firstUp
    cases agent.find eid <;> rfl
  rw [hwalk, h.getD_find, routesTo, List.find?_filter, winner]
  congr 1
  funext r
  simp

/-- The three lookups answer from the winner of the log, or with their values for no route. -/
def Answers (agent : BpStaticRoutingAgent) (log : List DtnRoute) : Prop :=
  ∀ eid, agent.getRoute eid = ((winner log eid).map address).getD noRoute ∧
    agent.nextHopEid eid = ((winner log eid).map DtnRoute.nxtHop).getD defaultEid ∧
    agent.nextHopCla eid = (winner log eid).bind DtnRoute.cla

theorem Refines.answers (h : agent.Refines log) : agent.Answers log := by
  intro eid
  unfold getRoute nextHopEid nextHopCla
  rw [h.firstUp_eq]
  cases winner log eid <;> exact ⟨rfl, rfl, rfl⟩

/-- **The first route that is up wins, exactly as in the log**, after any calls on an empty table of
which every `UpRoute` and `DownRoute` is for a destination added before: the table holds the routes of
the log, in which those calls switch the earliest match or nothing, and the three lookups answer from
one and the same route of it.  Any other calls run into undefined behaviour. -/
theorem firstUpWins_iff (ops : List Op) :
    (∃ agent, table ops = some agent ∧ agent.Refines (reference ops) ∧
      agent.Answers (reference ops)) ↔ AddedBefore ops := by
  rw [← exists_table_iff]
  refine exists_congr fun agent => ?_
  constructor
  · intro h
    exact h.1
  · intro h
    exact ⟨h, refines_reference h, (refines_reference h).answers⟩

/-- `UpRoute` on an empty table follows the end iterator of the map, where the log stays empty. -/
theorem table_upRoute_unknown :
    let ops := [Op.upRoute (Sample.eid 97) (Sample.eid 98) none]
    table ops = none ∧ reference ops = [] ∧
      ¬∃ agent, table ops = some agent ∧ agent.Refines (reference ops) ∧
        agent.Answers (reference ops) := by
  refine ⟨rfl, rfl, ?_⟩
  rintro ⟨agent, h, -⟩
  cases h

end BpStaticRoutingAgent
end BundleProtocol
