import BundleProtocol.Partition

/-! # Searches of a set that may be out of order

`std::set` finds its way by comparison.  In comparator order a search ends at the element it looks for
and a new element is put in its place.  Once a header change has broken that order a search ends at the
element or nowhere, and a new element, which is equivalent to no other, is put somewhere.  A `SetSearch`
is one way for all this to come out.

The operations below are local delivery and sending under such a search: a bundle that is not found
stays in the set, and what comes after goes on.  Where the agent of the model has a result it is the
result under every search (`deliver_extends`), since it has none on a set out of order.
-/
namespace BundleProtocol

/-- The comparator of the set, on the headers given. -/
def compareBy (header : Ptr → BpHeader6) (a b : Ptr) : Bool :=
  bundlePriorityCompare (header a) (header b) a b

/-- How the searches of a set come out, for its elements and their headers. -/
structure SetSearch where
  /-- `find (b) != end ()`, for an element. -/
  find : List Ptr → (Ptr → BpHeader6) → Ptr → Bool
  /-- How many elements `insert (b)` puts a new one behind. -/
  place : List Ptr → (Ptr → BpHeader6) → Ptr → ℕ
  find_of_ordered : ∀ l header b, OrderedList.Ordered (compareBy header) l → b ∈ l →
    find l header b = true
  place_of_ordered : ∀ l header b, OrderedList.Ordered (compareBy header) l →
    l.take (place l header b) ++ b :: l.drop (place l header b) =
      OrderedList.insert (compareBy header) b l

/-- From the front of the set to its end. -/
def SetSearch.fromFront : SetSearch where
  find l _ b := decide (b ∈ l)
  place l header b := l.findIdx (compareBy header b)
  find_of_ordered _ _ _ _ hb := decide_eq_true hb
  place_of_ordered _ _ _ _ := OrderedList.insert_eq_take_drop.symm

namespace SetSearch
variable (search : SetSearch)

/-! ## The store -/

/-- `m_store.find (b) != m_store.end ()`. -/
def finds (st : BundleStore) (b : Ptr) : Bool :=
  decide (b ∈ st.mStore) && search.find st.mStore st.header b

/-- `BundleStore::Remove`. -/
def remove (st : BundleStore) (b : Ptr) : Option BundleStore := st.removeFound b (search.finds st b)

/-- `m_store.insert (b)` and the bookkeeping of `Store` after it. -/
def insert (st : BundleStore) (b : Ptr) : Option BundleStore := do
  let place := search.place st.mStore st.header b
  let mStore := st.mStore.take place ++ b :: st.mStore.drop place
  let adu ← (st.heap b).adu
  some { st with
    mStore := mStore
    maxBundlesStored := if st.maxBundlesStored.toNat < mStore.length then
      UInt32.ofNat mStore.length else st.maxBundlesStored
    storedBytes := st.storedBytes + adu.size }

/-- `BundleStore::Store`. -/
def store (st : BundleStore) (b : Ptr) : Option BundleStore :=
  if (st.header b).lifeTime ≠ 0 then
    if 0 ≤ st.timeLeft (st.header b) then
      search.insert (st.scheduleExpire b (st.timeLeft (st.header b))) b
    else some st
  else search.insert st b

/-- `m_bundleStore.Remove (b)`. -/
def removeFromStore (s : BpAgent6) (b : Ptr) : Option BpAgent6 :=
  s.withStore fun st => search.remove st b

/-! ## Sending -/

/-- Step 6 of `Forward`. -/
def wrapUp (s : BpAgent6) (b : Ptr) : Option BpAgent6 := do
  let s := s.modify b fun x =>
    { x with retentionConstraints := x.retentionConstraints &&& ~~~forwardPending }
  if (s.heap b).retentionConstraints = 0 then
    let s ← search.removeFromStore s b
    some (s.dispose b)
  else some s

/-- `BpAgent6::Forward`. -/
def forward (s : BpAgent6) (b : Ptr) : Option BpAgent6 :=
  let s := s.modify b fun x =>
    { x with retentionConstraints :=
        (x.retentionConstraints ||| forwardPending) &&& ~~~dispatchPending }
  match s.readyCla b with
  | none => some s
  | some cla => do
    let s ← s.transmit b cla (s.header b).getDestinationEid
    search.wrapUp s b

/-- Step 2 of `Send`. -/
def createBundle (s : BpAgent6) (b : Ptr) (p : Packet) (src dst : BpEndpointId) (lifetime : Time)
    (custody : Bool) (priority : UInt32) : Option BpAgent6 := do
  let h ← BpAgent6.newHeader s.config.eid p.size src dst lifetime custody priority s.sim.now s.seq
  let bundle := { Bundle6.new h (.new BpBlockHeader6.bundlePayloadBlock) p with
    retentionConstraints := if custody then dispatchPending ||| custodyAccepted else dispatchPending }
  let s := { s.modify b (fun _ => bundle) with seq := s.seq + 1 }
  s.withStore fun st => search.store st b

/-- `BpAgent6::Send`, with its return code. -/
def send (s : BpAgent6) (b : Ptr) (p : Packet) (src dst : BpEndpointId) (lifetime : Time)
    (custody : Bool) (priority : UInt32) : Option (BpAgent6 × ℤ) :=
  if src != defaultEid && !s.isNodeMember src then some (s, -1)
  else do
    let s ← search.createBundle s b p src dst lifetime custody priority
    let s ← search.forward s b
    some (s, 0)

/-! ## Delivering -/

/-- What `EnqueueForDeliveryToApplication` does with a custody signal. -/
def processCustodySignal (s : BpAgent6) (cs : CustodySignal) : Option BpAgent6 :=
  if cs.status = CustodySignal.succeeded then
    match s.getBundle (.ofUri cs.srcEid) cs.creationTimestamp cs.seqNo with
    | some x =>
      let thisack := (cs.fragmentOffset, cs.fragmentOffset + cs.fragmentLength)
      let s := s.modify x fun y => { y with acks := BpAgent6.addAck thisack y.acks }
      if BpAgent6.fullyAcked (s.heap x).acks (s.header x).aduLength then do
        let s ← search.removeFromStore s x
        some (s.dispose x)
      else some s
    | none => some s
  else some s

/-- The branches on the type of the administrative record at `b`. -/
def handleAdminRecord (s : BpAgent6) (b : Ptr) (ar : AdminRecord) : Option BpAgent6 :=
  if ar.isCustodySignal then do
    let (cs, s) ← s.stripAdu b CustodySignal.removeFrom
    search.processCustodySignal s cs
  else if ar.isAggregateCustodySignal then do
    let (_, s) ← s.stripAdu b fun bytes => some ((), bytes.drop 1)
    some s
  else some s

/-- Local agent delivery. -/
def processAdminRecord (s : BpAgent6) (b : Ptr) : Option BpAgent6 := do
  let (ar, s) ← s.stripAdu b AdminRecord.removeFrom
  let s ← search.handleAdminRecord s b ar
  let s ← search.removeFromStore s b
  some (s.dispose b)

/-- One iteration of the coalescing loop. -/
def coalesceWith (s : BpAgent6) (b it : Ptr) : Option BpAgent6 := do
  let header := s.header b
  let itHeader := s.header it
  let itAdu ← (s.heap it).adu
  let adu ← (s.heap b).adu
  if header.fragOffset = itHeader.fragOffset + itAdu.getSize then
    let joined ← itAdu.addAtEnd adu
    let s ← search.removeFromStore (s.modify it fun x => { x with adu := some joined }) b
    if joined.getSize = itHeader.aduLength then
      some (s.modifyHeader it fun h => h.setIsFragment false)
    else some s
  else if header.fragOffset + adu.getSize = itHeader.fragOffset then
    let joined ← adu.addAtEnd itAdu
    let s ← search.removeFromStore (s.modify b fun x => { x with adu := some joined }) it
    if joined.getSize = header.aduLength then
      some (s.modifyHeader b fun h => h.setIsFragment false)
    else some s
  else some s

/-- The coalescing loop over the matching bundles. -/
def coalesce (b : Ptr) : List Ptr → BpAgent6 → Option BpAgent6
  | [], s => some s
  | it :: rest, s => do
    let s ← search.coalesceWith s b it
    coalesce b rest s

/-- A fragment is matched against the stored bundles of the same identity. -/
def matchFragments (s : BpAgent6) (b : Ptr) : Option BpAgent6 :=
  if (s.header b).isFragment then
    search.coalesce b (s.getBundles (s.header b).getSourceEid (s.header b).createTimestamp
      (s.header b).timestampSeqNum) s
  else some s

/-- `BpAgent6::EnqueueForDeliveryToApplication`. -/
def enqueueForDeliveryToApplication (s : BpAgent6) (b : Ptr) : Option BpAgent6 :=
  let s := { s with delivered := s.delivered ++ [(s.sim.now, b, s.header b)] }
  if s.isForAgent b then do
    let s ← search.processAdminRecord s b
    search.matchFragments s b
  else search.matchFragments s b

/-- `BpAgent6::SendCustodySignal`, for a success. -/
def sendCustodySignal (s : BpAgent6) (b q : Ptr) (lifetime : Time) : Option BpAgent6 := do
  let (cs, p) ← s.custodySignalPacket b
  let s := { s with signals := s.signals ++ [(s.sim.now, b, cs)] }
  let (s, _) ← search.send s q p s.config.eid (s.header b).getCustEid lifetime false 0
  some s

/-- Step 2 of `Deliver`. -/
def enqueueIfActive (s : BpAgent6) (b : Ptr) (state : Bool) : Option BpAgent6 :=
  if state then search.enqueueForDeliveryToApplication s b else some s

/-- `BpAgent6::Deliver`. -/
def deliver (s : BpAgent6) (b q : Ptr) : Option BpAgent6 :=
  match s.findRegistration (s.header b).getDestinationEid with
  | none => some s
  | some state => do
    let s ← search.enqueueIfActive s b state
    if (s.header b).custTxReq then search.sendCustodySignal s b q (s.header b).lifeTime else some s

end SetSearch

/-! ## The agent of the model -/

/-- Where `x` has a result, `y` has the same. -/
def Extends {α : Type} (x y : Option α) : Prop := ∀ a, x = some a → y = some a

theorem Extends.refl {α : Type} (x : Option α) : Extends x x := fun _ h => h

theorem Extends.bind {α β : Type} {x y : Option α} {f g : α → Option β} (h : Extends x y)
    (hf : ∀ a, Extends (f a) (g a)) : Extends (x >>= f) (y >>= g) := by
  intro b hb
  obtain ⟨a, ha, hb⟩ := Option.bind_eq_some_iff.mp hb
  exact Option.bind_eq_some_iff.mpr ⟨a, h a ha, hf a b hb⟩

theorem Extends.ite {α : Type} {c : Prop} [Decidable c] {x x' y y' : Option α} (h : Extends x y)
    (h' : Extends x' y') : Extends (if c then x else x') (if c then y else y') := by
  split
  · exact h
  · exact h'

namespace SetSearch
variable (search : SetSearch) {st : BundleStore} {b : Ptr}

theorem finds_of_ordered (h : st.Ordered) (hb : b ∈ st.mStore) : search.finds st b = true := by
  unfold finds
  rw [decide_eq_true hb, search.find_of_ordered _ _ _ h hb]
  rfl

theorem mem_of_finds (h : search.finds st b = true) : b ∈ st.mStore :=
  of_decide_eq_true (Bool.and_eq_true_iff.mp h).1

/-- What a search finds depends on the elements and their headers. -/
theorem finds_congr {st' : BundleStore} (hstore : st'.mStore = st.mStore)
    (hheader : ∀ x, st'.header x = st.header x) : search.finds st' b = search.finds st b := by
  have hsame : st'.header = st.header := funext hheader
  unfold finds
  rw [hstore, hsame]

theorem extends_remove (st : BundleStore) (b : Ptr) : Extends (st.remove b) (search.remove st b) := by
  intro st' hrun
  have hord : st.Ordered := (BundleStore.remove_eq_some.mp hrun).1
  have hfinds : search.finds st b = decide (b ∈ st.mStore) := by
    by_cases hb : b ∈ st.mStore
    · rw [search.finds_of_ordered hord hb, decide_eq_true hb]
    · simp [finds, hb]
  unfold remove
  rw [hfinds, ← BundleStore.remove_eq_removeFound hord]
  exact hrun

theorem extends_insert (st : BundleStore) (b : Ptr) : Extends (st.insert b) (search.insert st b) := by
  intro st' hrun
  unfold BundleStore.insert at hrun
  split at hrun
  · rename_i hord
    have hplace := search.place_of_ordered st.mStore st.header b hord
    unfold insert
    dsimp only
    rw [hplace]
    exact hrun
  · cases hrun

theorem extends_store (st : BundleStore) (b : Ptr) : Extends (st.store b) (search.store st b) :=
  .ite (.ite (search.extends_insert _ b) (.refl _)) (search.extends_insert st b)

theorem extends_removeFromStore (s : BpAgent6) (b : Ptr) :
    Extends (s.removeFromStore b) (search.removeFromStore s b) :=
  .bind (search.extends_remove _ b) fun _ => .refl _

theorem extends_wrapUp (s : BpAgent6) (b : Ptr) : Extends (s.wrapUp b) (search.wrapUp s b) :=
  .ite (.bind (search.extends_removeFromStore _ b) fun _ => .refl _) (.refl _)

theorem extends_forward (s : BpAgent6) (b : Ptr) : Extends (s.forward b) (search.forward s b) := by
  unfold BpAgent6.forward forward
  dsimp only
  cases BpAgent6.readyCla _ b with
  | none => exact .refl _
  | some cla => exact .bind (.refl _) fun t => search.extends_wrapUp t b

theorem extends_send (s : BpAgent6) (b : Ptr) (p : Packet) (src dst : BpEndpointId) (lifetime : Time)
    (custody : Bool) (priority : UInt32) : Extends (s.send b p src dst lifetime custody priority)
      (search.send s b p src dst lifetime custody priority) :=
  .ite (.refl _) (.bind (.bind (.refl _) fun _ => .bind (search.extends_store _ b) fun _ => .refl _)
    fun t => .bind (search.extends_forward t b) fun _ => .refl _)

theorem extends_processCustodySignal (s : BpAgent6) (cs : CustodySignal) :
    Extends (s.processCustodySignal cs) (search.processCustodySignal s cs) := by
  unfold BpAgent6.processCustodySignal processCustodySignal
  refine .ite ?_ (.refl _)
  cases s.getBundle (.ofUri cs.srcEid) cs.creationTimestamp cs.seqNo with
  | none => exact .refl _
  | some x => exact .ite (.bind (search.extends_removeFromStore _ x) fun _ => .refl _) (.refl _)

theorem extends_processAdminRecord (s : BpAgent6) (b : Ptr) :
    Extends (s.processAdminRecord b) (search.processAdminRecord s b) := by
  have hhandle : ∀ (s : BpAgent6) ar,
      Extends (s.handleAdminRecord b ar) (search.handleAdminRecord s b ar) := fun s ar =>
    .ite (.bind (.refl _) fun r => search.extends_processCustodySignal r.2 r.1) (.refl _)
  exact .bind (.refl _) fun r => .bind (hhandle r.2 r.1) fun t =>
    .bind (search.extends_removeFromStore t b) fun _ => .refl _

theorem extends_coalesceWith (s : BpAgent6) (b it : Ptr) :
    Extends (s.coalesceWith b it) (search.coalesceWith s b it) := by
  refine .bind (.refl _) fun itAdu => .bind (.refl _) fun adu => .ite ?_ (.ite ?_ (.refl _))
  · exact .bind (.refl _) fun joined => .bind (search.extends_removeFromStore _ b) fun _ => .refl _
  · exact .bind (.refl _) fun joined => .bind (search.extends_removeFromStore _ it) fun _ => .refl _

theorem extends_coalesce (b : Ptr) (l : List Ptr) (s : BpAgent6) :
    Extends (s.coalesce b l) (search.coalesce b l s) := by
  induction l generalizing s with
  | nil => exact .refl _
  | cons it l ih => exact .bind (search.extends_coalesceWith s b it) ih

theorem extends_matchFragments (s : BpAgent6) (b : Ptr) :
    Extends (s.matchFragments b) (search.matchFragments s b) :=
  .ite (search.extends_coalesce b _ s) (.refl _)

/-- **Delivery in the model is delivery under every search**, where the model has a result. -/
theorem deliver_extends (s : BpAgent6) (b q : Ptr) : Extends (s.deliver b q) (search.deliver s b q) := by
  have henqueue : ∀ s : BpAgent6, Extends (s.enqueueForDeliveryToApplication b)
      (search.enqueueForDeliveryToApplication s b) := fun s =>
    .ite (.bind (search.extends_processAdminRecord _ b) fun t => search.extends_matchFragments t b)
      (search.extends_matchFragments _ b)
  have hsignal : ∀ (s : BpAgent6) lifetime, Extends (s.sendCustodySignal b q lifetime)
      (search.sendCustodySignal s b q lifetime) := fun s lifetime =>
    .bind (.refl _) fun r => .bind (search.extends_send _ q r.2 _ _ _ _ _) fun _ => .refl _
  unfold BpAgent6.deliver deliver
  cases s.findRegistration (s.header b).getDestinationEid with
  | none => exact .refl _
  | some state =>
    have hactive : Extends (s.enqueueIfActive b state) (search.enqueueIfActive s b state) :=
      .ite (henqueue s) (.refl _)
    exact hactive.bind fun t => .ite (hsignal t _) (.refl _)

/-! ## Disposing of a bundle -/

open BpAgent6

variable {s t u : BpAgent6} {x : Ptr} {cs : CustodySignal}

/-- `Remove` and `DoDispose`. -/
def discard (s : BpAgent6) (b : Ptr) : Option BpAgent6 :=
  (search.removeFromStore s b).bind fun u => some (u.dispose b)

/-- What is left of the elements when a bundle is searched for and erased. -/
def erased (header : Ptr → BpHeader6) (l : List Ptr) (b : Ptr) : List Ptr :=
  if decide (b ∈ l) && search.find l header b then l.erase b else l

theorem erased_sublist (header : Ptr → BpHeader6) (l : List Ptr) (b : Ptr) :
    (search.erased header l b).Sublist l := by
  unfold erased
  split
  · exact List.erase_sublist
  · exact List.Sublist.refl _

/-- `t` is `s` after the bundles of `gone` were disposed of, and erased where they were found; no other
ADU and no header has changed. -/
structure Discarded (s t : BpAgent6) (gone : List Ptr) : Prop where
  store : t.mStore = gone.foldl (search.erased s.header) s.mStore
  header : ∀ x, t.header x = s.header x
  adu : ∀ x, x ∉ gone → (t.heap x).adu = (s.heap x).adu
  disposed : ∀ x ∈ gone, (t.heap x).adu = none

namespace Discarded
variable {search} {l l' : List Ptr}

theorem refl (s : BpAgent6) : search.Discarded s s [] :=
  ⟨rfl, fun _ => rfl, fun _ _ => rfl, fun _ hx => absurd hx List.not_mem_nil⟩

theorem trans (h : search.Discarded s t l) (h' : search.Discarded t u l') :
    search.Discarded s u (l ++ l') where
  store := by
    have hheader : t.header = s.header := funext h.header
    rw [h'.store, h.store, hheader, List.foldl_append]
  header x := (h'.header x).trans (h.header x)
  adu x hx := by
    rw [List.mem_append, not_or] at hx
    exact (h'.adu x hx.2).trans (h.adu x hx.1)
  disposed x hx := by
    by_cases hx' : x ∈ l'
    · exact h'.disposed x hx'
    · rw [h'.adu x hx']
      exact h.disposed x ((List.mem_append.mp hx).resolve_right hx')

theorem sublist (h : search.Discarded s t l) : t.mStore.Sublist s.mStore := by
  rw [h.store]
  clear h
  generalize s.mStore = elements
  induction l generalizing elements with
  | nil => exact List.Sublist.refl _
  | cons b l ih => exact (ih _).trans (search.erased_sublist s.header elements b)

theorem acked (s : BpAgent6) (x : Ptr) (cs : CustodySignal) :
    search.Discarded s (s.acked x cs) [] where
  store := rfl
  header y := s.header_acked x y cs
  adu y _ := s.adu_acked x y cs
  disposed _ hy := absurd hy List.not_mem_nil

end Discarded

/-- A removal that returns has erased what was found, and cancelled the events. -/
theorem exists_remove {st : BundleStore} (hadu : search.finds st b = true → (st.heap b).adu ≠ none) :
    ∃ st', search.remove st b = some st' ∧ st'.toMemory = st.toMemory.clearEvents b ∧
      st'.mStore = search.erased st.header st.mStore b := by
  unfold remove BundleStore.removeFound
  cases hfinds : search.finds st b with
  | false => exact ⟨_, rfl, rfl, (if_neg (by unfold finds at hfinds; simp [hfinds])).symm⟩
  | true =>
    obtain ⟨p, hp⟩ := Option.ne_none_iff_exists'.mp (hadu hfinds)
    have herased : search.erased st.header st.mStore b = st.mStore.erase b := if_pos hfinds
    simp [hp, herased]

theorem discard_eq (s : BpAgent6) (b : Ptr) : search.discard s b =
    (search.remove s.toBundleStore b).map fun st => { s with toBundleStore := st }.dispose b := by
  unfold discard removeFromStore BpAgent6.withStore
  dsimp only
  cases search.remove s.toBundleStore b <;> rfl

/-- A bundle is disposed of, unless it is found without an ADU. -/
theorem exists_discard (hadu : search.finds s.toBundleStore b = true → (s.heap b).adu ≠ none) :
    ∃ t, search.discard s b = some t ∧ search.Discarded s t [b] := by
  obtain ⟨st, hremove, hmemory, hstore⟩ := search.exists_remove hadu
  have hheap : st.heap = s.heap := by rw [hmemory, Memory.heap_clearEvents]
  refine ⟨{ s with toBundleStore := st }.dispose b, ?_, hstore, fun x => ?_, fun x hx => ?_,
    fun x hx => ?_⟩
  · rw [discard_eq, hremove, Option.map_some]
  · have hheader : ((st.toMemory.doDispose b).heap x).primaryHeader = (st.heap x).primaryHeader :=
      st.toMemory.primaryHeader_doDispose b x
    exact hheader.trans (congrArg Bundle6.primaryHeader (congrFun hheap x))
  · have hother : (st.toMemory.doDispose b).heap x = st.heap x :=
      st.toMemory.heap_doDispose_of_ne (List.ne_of_not_mem_cons hx)
    exact congrArg Bundle6.adu (hother.trans (congrFun hheap x))
  · have hself : (st.toMemory.doDispose b).heap b = { st.heap b with adu := none, acks := [] } := by
      rw [Memory.heap_doDispose, Function.update_self]
    rw [List.mem_singleton.mp hx]
    exact congrArg Bundle6.adu hself

theorem discard_eq_none (hfinds : search.finds s.toBundleStore b = true)
    (hadu : (s.heap b).adu = none) : search.discard s b = none := by
  have hremove : search.remove s.toBundleStore b = none := by
    unfold remove BundleStore.removeFound
    simp [hfinds, hadu]
  rw [discard_eq, hremove, Option.map_none]

/-- **What a custody signal does**: nothing, one more acknowledgement, or the search for the bundle and
its disposal. -/
theorem processCustodySignal_cases (s : BpAgent6) (cs : CustodySignal) :
    (s.signalled cs = none ∧ search.processCustodySignal s cs = some s) ∨
      ∃ x, s.signalled cs = some x ∧
        ((¬s.Completes x cs ∧ search.processCustodySignal s cs = some (s.acked x cs)) ∨
          (s.Completes x cs ∧ search.processCustodySignal s cs = search.discard (s.acked x cs) x)) := by
  have hunfold : search.processCustodySignal s cs = (s.signalled cs).elim (some s) fun x =>
      if fullyAcked ((s.acked x cs).heap x).acks ((s.acked x cs).header x).aduLength then
        search.discard (s.acked x cs) x
      else some (s.acked x cs) := by
    unfold processCustodySignal signalled
    split
    · cases s.getBundle (.ofUri cs.srcEid) cs.creationTimestamp cs.seqNo <;> rfl
    · rfl
  rw [hunfold]
  cases hx : s.signalled cs with
  | none => exact Or.inl ⟨rfl, rfl⟩
  | some x =>
    have hacks : ((s.acked x cs).heap x).acks = addAck (thisack cs) (s.heap x).acks := by
      unfold BpAgent6.acked
      rw [heap_modify_self]
    refine Or.inr ⟨x, rfl, ?_⟩
    rw [Option.elim_some, hacks, header_acked]
    by_cases hfull : s.Completes x cs
    · exact Or.inr ⟨hfull, if_pos hfull⟩
    · exact Or.inl ⟨hfull, if_neg hfull⟩

theorem finds_acked (s : BpAgent6) (x b : Ptr) (cs : CustodySignal) :
    search.finds (s.acked x cs).toBundleStore b = search.finds s.toBundleStore b :=
  search.finds_congr rfl fun y => s.header_acked x y cs

variable {search}

/-- A signal about no bundle. -/
theorem processCustodySignal_of_none (hnone : s.signalled cs = none) :
    search.processCustodySignal s cs = some s := by
  rcases search.processCustodySignal_cases s cs with ⟨-, heq⟩ | ⟨y, hy, -⟩
  · exact heq
  · rw [hnone] at hy
    cases hy

/-- A signal that does not complete the acknowledgements of the bundle it is about. -/
theorem processCustodySignal_of_not_completes (hx : s.signalled cs = some x)
    (hpart : ¬s.Completes x cs) : search.processCustodySignal s cs = some (s.acked x cs) := by
  rcases search.processCustodySignal_cases s cs with ⟨hnone, -⟩ | ⟨y, hy, ⟨-, heq⟩ | ⟨hfull, -⟩⟩
  · rw [hx] at hnone
    cases hnone
  · cases hx.symm.trans hy
    exact heq
  · cases hx.symm.trans hy
    exact absurd hfull hpart

/-- A signal that completes them. -/
theorem processCustodySignal_of_completes (hx : s.signalled cs = some x) (hfull : s.Completes x cs) :
    search.processCustodySignal s cs = search.discard (s.acked x cs) x := by
  rcases search.processCustodySignal_cases s cs with ⟨hnone, -⟩ | ⟨y, hy, ⟨hpart, -⟩ | ⟨-, heq⟩⟩
  · rw [hx] at hnone
    cases hnone
  · cases hx.symm.trans hy
    exact absurd hfull hpart
  · cases hx.symm.trans hy
    exact heq

end SetSearch
end BundleProtocol
