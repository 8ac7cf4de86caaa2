import BundleProtocol.AccessLog
import BundleProtocol.SetSearch

/-! # Accesses of local delivery

For each function that `Deliver` calls, its `…Accesses` lists the accesses to `m_adu` in the order of the
source, along the states that the function passes through, whichever way the set is searched; what would
come after a part that does not return is left out.  Debug logging reads sizes too, when it is on.

Sending accesses the bundle that is sent and may dispose of it in the end; matching fragments disposes of
nothing.
-/
namespace BundleProtocol
open AccessLog

/-- The accesses of what follows, when the first part returns. -/
def andThen {α : Type} (x : Option α) (f : α → List (Access Ptr)) : List (Access Ptr) := x.elim [] f

@[simp] theorem andThen_none {α : Type} (f : α → List (Access Ptr)) : andThen none f = [] := rfl

@[simp] theorem andThen_some {α : Type} (a : α) (f : α → List (Access Ptr)) :
    andThen (some a) f = f a := rfl

namespace SetSearch
open BpAgent6
variable (search : SetSearch)

/-! ## The accesses -/

/-- `BundleStore::Remove`: the ADU of a bundle that is found is measured. -/
def removeAccesses (s : BpAgent6) (b : Ptr) : List (Access Ptr) :=
  if search.finds s.toBundleStore b then [.use b] else []

/-- `Remove` and `DoDispose`. -/
def discardAccesses (s : BpAgent6) (b : Ptr) : List (Access Ptr) :=
  search.removeAccesses s b ++ andThen (search.removeFromStore s b) fun _ => [.dispose b]

/-- The custody signal of `EnqueueForDeliveryToApplication`. -/
def processCustodySignalAccesses (s : BpAgent6) (cs : CustodySignal) : List (Access Ptr) :=
  if cs.status = CustodySignal.succeeded then
    match s.getBundle (.ofUri cs.srcEid) cs.creationTimestamp cs.seqNo with
    | some x =>
      let thisack := (cs.fragmentOffset, cs.fragmentOffset + cs.fragmentLength)
      let s := s.modify x fun y => { y with acks := addAck thisack y.acks }
      if fullyAcked (s.heap x).acks (s.header x).aduLength then search.discardAccesses s x else []
    | none => []
  else []

/-- The branches on the type of the administrative record. -/
def handleAdminRecordAccesses (s : BpAgent6) (b : Ptr) (ar : AdminRecord) : List (Access Ptr) :=
  if ar.isCustodySignal then
    .use b :: andThen (s.stripAdu b CustodySignal.removeFrom) fun (cs, s) =>
      search.processCustodySignalAccesses s cs
  else if ar.isAggregateCustodySignal then [.use b]
  else []

/-- Local agent delivery. -/
def processAdminRecordAccesses (s : BpAgent6) (b : Ptr) : List (Access Ptr) :=
  .use b :: andThen (s.stripAdu b AdminRecord.removeFrom) fun (ar, s) =>
    search.handleAdminRecordAccesses s b ar ++ andThen (search.handleAdminRecord s b ar) fun s =>
      search.discardAccesses s b

/-- One iteration of the coalescing loop.  With logging, its last branch prints a size. -/
def coalesceWithAccesses (logging : Bool) (s : BpAgent6) (b it : Ptr) : List (Access Ptr) :=
  let header := s.header b
  let itHeader := s.header it
  .use it :: andThen (s.heap it).adu fun itAdu =>
    if header.fragOffset = itHeader.fragOffset + itAdu.getSize then
      [.use it, .use b] ++ andThen ((s.heap b).adu.bind fun adu => itAdu.addAtEnd adu) fun joined =>
        let s := s.modify it fun x => { x with adu := some joined }
        search.removeAccesses s b ++ andThen (search.removeFromStore s b) fun _ => [.use it]
    else .use b :: andThen (s.heap b).adu fun adu =>
      if header.fragOffset + adu.getSize = itHeader.fragOffset then
        [.use b, .use it] ++ andThen (adu.addAtEnd itAdu) fun joined =>
          let s := s.modify b fun x => { x with adu := some joined }
          search.removeAccesses s it ++ andThen (search.removeFromStore s it) fun _ => [.use b]
      else if logging then [.use it] else []

/-- The coalescing loop over the matching bundles. -/
def coalesceAccesses (logging : Bool) (b : Ptr) : List Ptr → BpAgent6 → List (Access Ptr)
  | [], _ => []
  | it :: rest, s => search.coalesceWithAccesses logging s b it ++
      andThen (search.coalesceWith s b it) fun s => coalesceAccesses logging b rest s

end SetSearch

/-- With logging, the size of the new fragment is printed first: a bundle without an ADU stops there. -/
def BpAgent6.sizeLogged (logging : Bool) (s : BpAgent6) (b : Ptr) : Option BpAgent6 :=
  if logging then (s.heap b).adu.map fun _ => s else some s

/-- The stored bundles that a fragment is matched against. -/
def BpAgent6.prevFrags (s : BpAgent6) (b : Ptr) : List Ptr :=
  s.getBundles (s.header b).getSourceEid (s.header b).createTimestamp (s.header b).timestampSeqNum

/-- The loop of `Forward`: the ADU is measured for the offset, and cut by `SendBundle`. -/
def BpAgent6.sendFragmentsAccesses (b : Ptr) (cla : ClaId) (dst : BpEndpointId) (aduSize : ℕ)
    (fragment : Bool) : ℕ → ℕ → BpAgent6 → List (Access Ptr)
  | _, 0, _ => []
  | 0, _ + 1, _ => []
  | fuel + 1, left + 1, s =>
    let bytesLeft := left + 1
    let size := min bytesLeft s.config.bundleSize.toNat
    let offset := if fragment then aduSize - bytesLeft else 0
    let s := s.modify b (stamp size offset fragment)
    (if fragment then [.use b] else []) ++ .use b ::
      andThen (sendBundle s.sim.now b (s.heap b) cla (s.getEidAddress dst)) fun tx =>
        sendFragmentsAccesses b cla dst aduSize fragment fuel (bytesLeft - size)
          { s with handed := s.handed ++ [tx] }

/-- Steps 4 and 5 of `Forward`. -/
def BpAgent6.transmitAccesses (s : BpAgent6) (b : Ptr) (cla : ClaId) (dst : BpEndpointId) :
    List (Access Ptr) :=
  let s := if (s.header b).custTxReq then s.scheduleRetransmission b else s
  .use b :: andThen (s.heap b).adu fun adu =>
    .use b :: s.sendFragmentsAccesses b cla dst adu.size
      (decide (s.config.bundleSize.toNat < adu.size)) adu.size adu.size

namespace SetSearch
variable (search : SetSearch)

/-- A fragment is matched against the stored bundles of the same identity. -/
def matchFragmentsAccesses (logging : Bool) (s : BpAgent6) (b : Ptr) : List (Access Ptr) :=
  if (s.header b).isFragment then
    (if logging then [.use b] else []) ++ andThen (s.sizeLogged logging b) fun s =>
      search.coalesceAccesses logging b (s.prevFrags b) s
  else []

/-- The same with the effect of the logging. -/
def matchFragmentsLogged (logging : Bool) (s : BpAgent6) (b : Ptr) : Option BpAgent6 :=
  if (s.header b).isFragment then (s.sizeLogged logging b).bind fun s => search.matchFragments s b
  else some s

/-- `BpAgent6::EnqueueForDeliveryToApplication`. -/
def enqueueAccesses (logging : Bool) (s : BpAgent6) (b : Ptr) : List (Access Ptr) :=
  if s.isForAgent b then
    search.processAdminRecordAccesses (s.logged b) b ++
      andThen (search.processAdminRecord (s.logged b) b) fun s =>
        search.matchFragmentsAccesses logging s b
  else search.matchFragmentsAccesses logging (s.logged b) b

/-- What it leaves. -/
def enqueueLogged (logging : Bool) (s : BpAgent6) (b : Ptr) : Option BpAgent6 :=
  if s.isForAgent b then
    (search.processAdminRecord (s.logged b) b).bind fun s => search.matchFragmentsLogged logging s b
  else search.matchFragmentsLogged logging (s.logged b) b

/-- Step 6 of `Forward`. -/
def wrapUpAccesses (s : BpAgent6) (b : Ptr) : List (Access Ptr) :=
  if ((s.unflagged b).heap b).retentionConstraints = 0 then search.discardAccesses (s.unflagged b) b
  else []

/-- `BpAgent6::Forward`. -/
def forwardAccesses (s : BpAgent6) (b : Ptr) : List (Access Ptr) :=
  let s := s.flagged b
  match s.readyCla b with
  | none => []
  | some cla => s.transmitAccesses b cla (s.header b).getDestinationEid ++
      andThen (s.transmit b cla (s.header b).getDestinationEid) fun s => search.wrapUpAccesses s b

/-- `BpAgent6::Send`: `Store` measures the ADU of the new bundle when it keeps it. -/
def sendAccesses (s : BpAgent6) (b : Ptr) (p : Packet) (src dst : BpEndpointId) (lifetime : Time)
    (custody : Bool) (priority : UInt32) : List (Access Ptr) :=
  if src != defaultEid && !s.isNodeMember src then []
  else andThen (search.createBundle s b p src dst lifetime custody priority) fun s =>
    (if b ∈ s.mStore then [.use b] else []) ++ search.forwardAccesses s b

/-- `BpAgent6::SendCustodySignal`. -/
def sendCustodySignalAccesses (s : BpAgent6) (b q : Ptr) (lifetime : Time) : List (Access Ptr) :=
  (if (s.header b).isFragment then [.use b] else []) ++ andThen (s.custodySignalPacket b)
    fun (cs, p) => search.sendAccesses (s.signalLogged b cs) q p s.config.eid (s.header b).getCustEid
      lifetime false 0

/-- Step 3 of `Deliver`. -/
def custodyAccesses (s : BpAgent6) (b q : Ptr) : List (Access Ptr) :=
  if (s.header b).custTxReq then search.sendCustodySignalAccesses s b q (s.header b).lifeTime else []

/-- `BpAgent6::Deliver`. -/
def deliverAccesses (logging : Bool) (s : BpAgent6) (b q : Ptr) : List (Access Ptr) :=
  match s.findRegistration (s.header b).getDestinationEid with
  | none => []
  | some state =>
    (if state then search.enqueueAccesses logging s b else []) ++
      andThen (if state then search.enqueueLogged logging s b else some s) fun s =>
        search.custodyAccesses s b q

open BpAgent6
variable {s t u : BpAgent6} {b q x it : Ptr} {logging : Bool} {p : Packet}

/-- Without logging it is delivery under the search. -/
theorem enqueueLogged_false (s : BpAgent6) (b : Ptr) :
    search.enqueueLogged false s b = search.enqueueForDeliveryToApplication s b := by
  have hmatch : ∀ s, search.matchFragmentsLogged false s b = search.matchFragments s b := by
    intro s
    unfold matchFragmentsLogged
    split
    · rfl
    · rename_i hwhole
      unfold matchFragments
      rw [if_neg hwhole]
  have hunfold : search.enqueueForDeliveryToApplication s b = if s.isForAgent b then
      (search.processAdminRecord (s.logged b) b).bind fun s => search.matchFragments s b
    else search.matchFragments (s.logged b) b := rfl
  unfold enqueueLogged
  rw [hunfold, hmatch, funext hmatch]

/-! ## Which objects are accessed -/

theorem consumes_discardAccesses (s : BpAgent6) (b : Ptr) : Consumes b (search.discardAccesses s b) := by
  unfold discardAccesses removeAccesses
  refine Consumes.append ?_ ?_
  · cases search.removeFromStore s b with
    | none => exact .nil
    | some t => exact .dispose
  · intro x hx
    split at hx
    · exact List.mem_singleton.mp hx
    · cases hx

theorem sendFragmentsAccesses_uses {cla : ClaId} {dst : BpEndpointId} {aduSize : ℕ} {fragment : Bool}
    (fuel left : ℕ) (s : BpAgent6) :
    ∀ x ∈ s.sendFragmentsAccesses b cla dst aduSize fragment fuel left, x = .use b := by
  induction fuel generalizing left s with
  | zero =>
    intro x hx
    cases left <;> cases hx
  | succ fuel ih =>
    intro x hx
    cases left with
    | zero => cases hx
    | succ left =>
      unfold sendFragmentsAccesses at hx
      rcases List.mem_append.mp hx with hx | hx
      · split at hx
        · exact List.mem_singleton.mp hx
        · cases hx
      · rcases List.mem_cons.mp hx with rfl | hx
        · rfl
        · revert hx
          cases sendBundle _ _ _ _ _ with
          | none => exact fun hx => by cases hx
          | some tx => exact ih _ _ x

theorem transmitAccesses_uses {cla : ClaId} {dst : BpEndpointId} :
    ∀ x ∈ s.transmitAccesses b cla dst, x = .use b := by
  intro x hx
  unfold transmitAccesses at hx
  rcases List.mem_cons.mp hx with rfl | hx
  · rfl
  · revert hx
    cases ((if (s.header b).custTxReq then s.scheduleRetransmission b else s).heap b).adu with
    | none => exact fun hx => by cases hx
    | some adu =>
      intro hx
      rcases List.mem_cons.mp hx with rfl | hx
      · rfl
      · exact sendFragmentsAccesses_uses _ _ _ x hx

theorem consumes_forwardAccesses (s : BpAgent6) (b : Ptr) : Consumes b (search.forwardAccesses s b) := by
  unfold forwardAccesses
  dsimp only
  split
  · exact .nil
  · refine Consumes.append ?_ transmitAccesses_uses
    cases (s.flagged b).transmit b _ _ with
    | none => exact .nil
    | some t =>
      rw [andThen_some, wrapUpAccesses]
      split
      · exact search.consumes_discardAccesses _ b
      · exact .nil

/-- **`Send` accesses the new bundle only**, and disposes of it last. -/
theorem consumes_sendAccesses {src dst : BpEndpointId} {lifetime : Time} {custody : Bool}
    {priority : UInt32} :
    Consumes b (search.sendAccesses s b p src dst lifetime custody priority) := by
  unfold sendAccesses
  split
  · exact .nil
  · cases search.createBundle s b p src dst lifetime custody priority with
    | none => exact .nil
    | some t =>
      refine Consumes.append (search.consumes_forwardAccesses t b) fun x hx => ?_
      split at hx
      · exact List.mem_singleton.mp hx
      · cases hx

theorem onlyUses_andThen {α : Type} {o : Option α} {f : α → List (Access Ptr)}
    (h : ∀ a, OnlyUses (f a)) : OnlyUses (andThen o f) := by
  cases o with
  | none => exact onlyUses_nil
  | some a => exact h a

theorem onlyUses_removeAccesses (s : BpAgent6) (b : Ptr) : OnlyUses (search.removeAccesses s b) := by
  unfold removeAccesses
  split
  · exact onlyUses_cons.mpr onlyUses_nil
  · exact onlyUses_nil

theorem onlyUses_coalesceWithAccesses (logging : Bool) (s : BpAgent6) (b it : Ptr) :
    OnlyUses (search.coalesceWithAccesses logging s b it) := by
  unfold coalesceWithAccesses
  dsimp only
  refine onlyUses_cons.mpr (onlyUses_andThen fun itAdu => ?_)
  split
  · refine onlyUses_cons.mpr (onlyUses_cons.mpr (onlyUses_andThen fun joined => ?_))
    refine (search.onlyUses_removeAccesses _ b).append (onlyUses_andThen fun _ => ?_)
    exact onlyUses_cons.mpr onlyUses_nil
  · refine onlyUses_cons.mpr (onlyUses_andThen fun adu => ?_)
    split
    · refine onlyUses_cons.mpr (onlyUses_cons.mpr (onlyUses_andThen fun joined => ?_))
      refine (search.onlyUses_removeAccesses _ it).append (onlyUses_andThen fun _ => ?_)
      exact onlyUses_cons.mpr onlyUses_nil
    · split
      · exact onlyUses_cons.mpr onlyUses_nil
      · exact onlyUses_nil

theorem onlyUses_coalesceAccesses (logging : Bool) (b : Ptr) (l : List Ptr) (s : BpAgent6) :
    OnlyUses (search.coalesceAccesses logging b l s) := by
  induction l generalizing s with
  | nil => exact onlyUses_nil
  | cons it l ih =>
    exact (search.onlyUses_coalesceWithAccesses logging s b it).append (onlyUses_andThen ih)

/-- **Matching fragments disposes of nothing.** -/
theorem onlyUses_matchFragmentsAccesses (logging : Bool) (s : BpAgent6) (b : Ptr) :
    OnlyUses (search.matchFragmentsAccesses logging s b) := by
  unfold matchFragmentsAccesses
  split
  · refine OnlyUses.append ?_ (onlyUses_andThen fun t => search.onlyUses_coalesceAccesses logging b _ t)
    split
    · exact onlyUses_cons.mpr onlyUses_nil
    · exact onlyUses_nil
  · exact onlyUses_nil

/-- The custody signal is about the bundle at `b`, whose size it takes when that is a fragment, and is
the bundle at `q`. -/
theorem sendCustodySignalAccesses_eq (s : BpAgent6) (b q : Ptr) (lifetime : Time) :
    ∃ l, Consumes q l ∧ search.sendCustodySignalAccesses s b q lifetime =
      (if (s.header b).isFragment then [.use b] else []) ++ l := by
  refine ⟨_, ?_, rfl⟩
  cases s.custodySignalPacket b with
  | none => exact .nil
  | some r => exact search.consumes_sendAccesses

end SetSearch
end BundleProtocol
