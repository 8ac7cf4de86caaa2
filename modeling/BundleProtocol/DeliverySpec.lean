import BundleProtocol.EidRoles
import BundleProtocol.ForwardSpec

/-! # What accepting, sending and delivering do

Inversion lemmas for the rest of the agent.  Local delivery changes the store in few
ways: it replaces ADUs, adds acknowledgements, marks bundles whole and removes them;
`DeliveryClosed` says that a property survives each of these, and then it survives
`EnqueueForDeliveryToApplication` (`DeliveryClosed.enqueueIfActive`).  `DeliveryClosedOn` is the same
for the bundles that delivery can touch, the delivered and the stored ones.
-/
namespace BundleProtocol
namespace BpAgent6
variable {s t u : BpAgent6} {b q x it : Ptr}

/-! ## New bundles -/

/-- The object `DataRecv` builds, with the flag `ProcessBundle` sets. -/
def arrivedBundle (rx : ReceivedBundle) : Bundle6 :=
  { Bundle6.new rx.header rx.payloadHeader rx.adu with retentionConstraints := dispatchPending }

/-- The object `Send` builds. -/
def createdBundle (h : BpHeader6) (p : Packet) (custody : Bool) : Bundle6 :=
  { Bundle6.new h (.new BpBlockHeader6.bundlePayloadBlock) p with
    retentionConstraints := if custody then dispatchPending ||| custodyAccepted else dispatchPending }

/-- The received bundle stands at `b`. -/
def arrived (s : BpAgent6) (b : Ptr) (rx : ReceivedBundle) : BpAgent6 :=
  s.modify b fun _ => arrivedBundle rx

/-- The bundle to send stands at `b`. -/
def created (s : BpAgent6) (b : Ptr) (h : BpHeader6) (p : Packet) (custody : Bool) : BpAgent6 :=
  { s.modify b (fun _ => createdBundle h p custody) with seq := s.seq + 1 }

theorem acceptBundle_eq_some {rx : ReceivedBundle} : s.acceptBundle b rx = some t ↔
    ((s.arrived b rx).Expired b ∧ t = s.arrived b rx) ∨
      (¬(s.arrived b rx).Expired b ∧ (s.arrived b rx).Ordered ∧ t = (s.arrived b rx).stored b) := by
  have hadu : ((s.arrived b rx).heap b).adu ≠ none := by
    simp [arrived, arrivedBundle, Bundle6.new]
  have hunfold : s.acceptBundle b rx = (s.arrived b rx).withStore fun st => st.store b := rfl
  rw [hunfold, withStore_store_eq_some]
  tauto

theorem header_arrived_self (s : BpAgent6) (b : Ptr) (rx : ReceivedBundle) :
    (s.arrived b rx).header b = rx.header :=
  congrArg Bundle6.primaryHeader (heap_modify_self s b fun _ => arrivedBundle rx)

/-- A bundle without a lifetime has not expired, and is stored. -/
theorem acceptBundle_of_lifeTime {rx : ReceivedBundle} (hlife : rx.header.lifeTime = 0)
    (hord : (s.arrived b rx).Ordered) : s.acceptBundle b rx = some ((s.arrived b rx).stored b) := by
  refine acceptBundle_eq_some.mpr (Or.inr ⟨fun hexpired => ?_, hord, rfl⟩)
  have hlifeTime := hexpired.1
  rw [header_arrived_self, hlife] at hlifeTime
  exact hlifeTime rfl

/-- The accepted bundle is the one that arrived, with its expiry scheduled. -/
theorem heap_acceptBundle {rx : ReceivedBundle} (h : s.acceptBundle b rx = some t) :
    ∃ id, t.heap b = { arrivedBundle rx with expireEvent := id } := by
  have hself : (s.arrived b rx).heap b = arrivedBundle rx := heap_modify_self s b _
  rcases acceptBundle_eq_some.mp h with ⟨-, rfl⟩ | ⟨-, -, rfl⟩
  · exact ⟨none, hself⟩
  · obtain ⟨id, hid⟩ := (s.arrived b rx).toBundleStore.heap_stored b b
    rw [hself] at hid
    exact ⟨id, hid⟩

theorem header_acceptBundle {rx : ReceivedBundle} (h : s.acceptBundle b rx = some t) :
    t.header b = rx.header := by
  obtain ⟨id, hid⟩ := heap_acceptBundle h
  exact congrArg Bundle6.primaryHeader hid

/-- Accepting a bundle touches nothing else. -/
theorem heap_acceptBundle_of_ne {rx : ReceivedBundle} (h : s.acceptBundle b rx = some t)
    (hx : x ≠ b) : t.heap x = s.heap x := by
  have hne : (s.arrived b rx).heap x = s.heap x := heap_modify_of_ne s hx _
  rcases acceptBundle_eq_some.mp h with ⟨-, rfl⟩ | ⟨-, -, rfl⟩
  · exact hne
  · exact ((s.arrived b rx).toBundleStore.heap_stored_of_ne hx).trans hne

theorem adu_acceptBundle {rx : ReceivedBundle} (h : s.acceptBundle b rx = some t) :
    (t.heap b).adu = some rx.adu := by
  obtain ⟨id, hid⟩ := heap_acceptBundle h
  rw [hid]
  rfl

/-- What is stored afterwards was stored before or is the accepted bundle. -/
theorem mem_acceptBundle {rx : ReceivedBundle} (h : s.acceptBundle b rx = some t)
    (hx : x ∈ t.mStore) : x ∈ s.mStore ∨ (x = b ∧ ¬(s.arrived b rx).Expired b) := by
  rcases acceptBundle_eq_some.mp h with ⟨-, rfl⟩ | ⟨hlive, -, rfl⟩
  · exact Or.inl hx
  · rcases BundleStore.mem_stored.mp hx with rfl | hx
    · exact Or.inr ⟨rfl, hlive⟩
    · exact Or.inl hx

theorem rest_acceptBundle {rx : ReceivedBundle} (h : s.acceptBundle b rx = some t) :
    t.config = s.config ∧ t.seq = s.seq ∧ t.sim.now = s.sim.now ∧ t.handed = s.handed ∧
      t.signals = s.signals := by
  rcases acceptBundle_eq_some.mp h with ⟨-, rfl⟩ | ⟨-, -, rfl⟩
  · exact ⟨rfl, rfl, rfl, rfl, rfl⟩
  · exact ⟨rfl, rfl, (s.arrived b rx).toBundleStore.now_stored b, rfl, rfl⟩

theorem delivered_acceptBundle {rx : ReceivedBundle} (h : s.acceptBundle b rx = some t) :
    t.delivered = s.delivered := by
  rcases acceptBundle_eq_some.mp h with ⟨-, rfl⟩ | ⟨-, -, rfl⟩
  · rfl
  · rfl

/-- The registration that counts for an accepted bundle. -/
theorem findRegistration_acceptBundle {rx : ReceivedBundle} (h : s.acceptBundle b rx = some t) :
    t.findRegistration (t.header b).getDestinationEid =
      s.findRegistration rx.header.getDestinationEid := by
  unfold findRegistration
  rw [header_acceptBundle h, (rest_acceptBundle h).1]

theorem createBundle_eq_some {p : Packet} {src dst : BpEndpointId} {lifetime : Time}
    {custody : Bool} {priority : UInt32} :
    s.createBundle b p src dst lifetime custody priority = some t ↔
      ∃ h, newHeader s.config.eid p.size src dst lifetime custody priority s.sim.now s.seq = some h ∧
        (((s.created b h p custody).Expired b ∧ t = s.created b h p custody) ∨
          (¬(s.created b h p custody).Expired b ∧ (s.created b h p custody).Ordered ∧
            t = (s.created b h p custody).stored b)) := by
  have hunfold : s.createBundle b p src dst lifetime custody priority =
      (newHeader s.config.eid p.size src dst lifetime custody priority s.sim.now s.seq).bind
        fun h => (s.created b h p custody).withStore fun st => st.store b := rfl
  have hadu : ∀ h, ((s.created b h p custody).heap b).adu ≠ none := by
    intro h
    have hbundle : (s.created b h p custody).heap b = createdBundle h p custody :=
      heap_modify_self s b _
    rw [hbundle]
    exact Option.some_ne_none p
  rw [hunfold, Option.bind_eq_some_iff]
  simp only [withStore_store_eq_some, hadu, ne_eq, not_false_eq_true, true_and]

/-- What the header of a new bundle says. -/
structure NewHeader (size : ℕ) (lifetime : Time) (custody : Bool) (now : Time) (seq : UInt32)
    (h : BpHeader6) : Prop where
  cbhe : h.cbhe = false
  createTimestamp : h.createTimestamp = UInt32.ofNat (wholeSeconds now)
  timestampSeqNum : h.timestampSeqNum = seq
  lifeTime : h.lifeTime = lifetime
  fragOffset : h.fragOffset = 0
  aduLength : h.aduLength = UInt32.ofNat size
  isFragment : h.isFragment = false
  custTxReq : h.custTxReq = custody

theorem cbhe_defaultHeader {h : BpHeader6} (hdefault : Bundle6.defaultHeader = some h) :
    h.cbhe = false := by
  unfold Bundle6.defaultHeader at hdefault
  obtain ⟨h₁, h₁', hdefault⟩ := Option.bind_eq_some_iff.mp hdefault
  obtain ⟨h₂, h₂', hdefault⟩ := Option.bind_eq_some_iff.mp hdefault
  obtain ⟨h₃, h₃', hdefault⟩ := Option.bind_eq_some_iff.mp hdefault
  exact ((((BpHeader6.sameNumbers_setEid .source h₁').trans
    (BpHeader6.sameNumbers_setEid .destination h₂')).trans
    (BpHeader6.sameNumbers_setEid .report h₃')).trans
    (BpHeader6.sameNumbers_setEid .custodian hdefault)).cbhe

/-- The steps that make a new header: the constructor's, the source, the destination, the other
fields and, with custody, the custodian. -/
theorem newHeader_eq_some {own src dst : BpEndpointId} {size : ℕ} {lifetime now : Time}
    {custody : Bool} {priority seq : UInt32} {h : BpHeader6}
    (hnew : newHeader own size src dst lifetime custody priority now seq = some h) :
    ∃ h₀ h₁ h₂, Bundle6.defaultHeader = some h₀ ∧ h₀.setSourceEid src = some h₁ ∧
      h₁.setDestinationEid dst = some h₂ ∧
      ((custody = true ∧
          (fillHeader h₂ size lifetime custody priority now seq).setCustEid own = some h) ∨
        (custody = false ∧ h = fillHeader h₂ size lifetime custody priority now seq)) := by
  unfold newHeader at hnew
  obtain ⟨h₀, hdefault, hsource⟩ := Option.bind_eq_some_iff.mp hnew
  obtain ⟨h₁, hsrc, hdestination⟩ := Option.bind_eq_some_iff.mp hsource
  obtain ⟨h₂, hdst, hfill⟩ := Option.bind_eq_some_iff.mp hdestination
  refine ⟨h₀, h₁, h₂, hdefault, hsrc, hdst, ?_⟩
  cases custody with
  | true => exact Or.inl ⟨rfl, hfill⟩
  | false => exact Or.inr ⟨rfl, (Option.some.inj hfill).symm⟩

theorem newHeader_spec {own src dst : BpEndpointId} {size : ℕ} {lifetime now : Time}
    {custody : Bool} {priority seq : UInt32} {h : BpHeader6}
    (hnew : newHeader own size src dst lifetime custody priority now seq = some h) :
    NewHeader size lifetime custody now seq h := by
  obtain ⟨h₀, h₁, h₂, hdefault, hsrc, hdst, hcase⟩ := newHeader_eq_some hnew
  have hcbhe : h₂.cbhe = false :=
    ((BpHeader6.sameNumbers_setEid .source hsrc).trans
      (BpHeader6.sameNumbers_setEid .destination hdst)).cbhe.trans (cbhe_defaultHeader hdefault)
  have hfilled : NewHeader size lifetime custody now seq
      (fillHeader h₂ size lifetime custody priority now seq) := by
    refine ⟨hcbhe, rfl, rfl, rfl, rfl, rfl, ?_, ?_⟩
    · exact (BpHeader6.isFragment_setPriority _ _).trans (BpHeader6.isFragment_setIsFragment _ _)
    · exact (BpHeader6.custTxReq_setPriority _ _).trans
        ((BpHeader6.custTxReq_setIsFragment _ _).trans (BpHeader6.custTxReq_setCustTxReq _ _))
  rcases hcase with ⟨-, hcust⟩ | ⟨-, rfl⟩
  · -- the custodian is one more endpoint id
    have hsame := BpHeader6.sameNumbers_setEid .custodian hcust
    exact ⟨hsame.cbhe.trans hfilled.cbhe, hsame.createTimestamp.trans hfilled.createTimestamp,
      hsame.timestampSeqNum.trans hfilled.timestampSeqNum, hsame.lifeTime.trans hfilled.lifeTime,
      hsame.fragOffset.trans hfilled.fragOffset, hsame.aduLength.trans hfilled.aduLength,
      (congrArg (FlagWord.test · _) hsame.processingFlags).trans hfilled.isFragment,
      (congrArg (FlagWord.test · _) hsame.processingFlags).trans hfilled.custTxReq⟩
  · exact hfilled

theorem header_created_self (s : BpAgent6) (b : Ptr) (h : BpHeader6) (p : Packet) (custody : Bool) :
    (s.created b h p custody).header b = h :=
  congrArg Bundle6.primaryHeader (heap_modify_self s b fun _ => createdBundle h p custody)

/-- The created bundle, with its expiry scheduled. -/
theorem heap_createBundle {p : Packet} {src dst : BpEndpointId} {lifetime : Time}
    {custody : Bool} {priority : UInt32}
    (h : s.createBundle b p src dst lifetime custody priority = some t) :
    ∃ hdr id, newHeader s.config.eid p.size src dst lifetime custody priority s.sim.now s.seq =
      some hdr ∧ t.heap b = { createdBundle hdr p custody with expireEvent := id } := by
  obtain ⟨hdr, hnew, hcase⟩ := createBundle_eq_some.mp h
  have hself : (s.created b hdr p custody).heap b = createdBundle hdr p custody :=
    heap_modify_self s b _
  rcases hcase with ⟨-, rfl⟩ | ⟨-, -, rfl⟩
  · exact ⟨hdr, none, hnew, hself⟩
  · obtain ⟨id, hid⟩ := (s.created b hdr p custody).toBundleStore.heap_stored b b
    rw [hself] at hid
    exact ⟨hdr, id, hnew, hid⟩

theorem heap_createBundle_of_ne {p : Packet} {src dst : BpEndpointId} {lifetime : Time}
    {custody : Bool} {priority : UInt32}
    (h : s.createBundle b p src dst lifetime custody priority = some t) (hx : x ≠ b) :
    t.heap x = s.heap x := by
  obtain ⟨hdr, -, hcase⟩ := createBundle_eq_some.mp h
  have hne : (s.created b hdr p custody).heap x = s.heap x := heap_modify_of_ne s hx _
  rcases hcase with ⟨-, rfl⟩ | ⟨-, -, rfl⟩
  · exact hne
  · exact ((s.created b hdr p custody).toBundleStore.heap_stored_of_ne hx).trans hne

theorem rest_createBundle {p : Packet} {src dst : BpEndpointId} {lifetime : Time}
    {custody : Bool} {priority : UInt32}
    (h : s.createBundle b p src dst lifetime custody priority = some t) :
    t.config = s.config ∧ t.handed = s.handed ∧ t.delivered = s.delivered := by
  obtain ⟨hdr, -, ⟨-, rfl⟩ | ⟨-, -, rfl⟩⟩ := createBundle_eq_some.mp h
  · exact ⟨rfl, rfl, rfl⟩
  · exact ⟨rfl, rfl, rfl⟩

/-- `Send` refuses a source that is not registered. -/
def Refused (s : BpAgent6) (src : BpEndpointId) : Prop :=
  (src != defaultEid && !s.isNodeMember src) = true

theorem send_eq_some {p : Packet} {src dst : BpEndpointId} {lifetime : Time} {custody : Bool}
    {priority : UInt32} {code : ℤ} :
    s.send b p src dst lifetime custody priority = some (t, code) ↔
      (s.Refused src ∧ t = s ∧ code = -1) ∨
        (¬s.Refused src ∧ ∃ u, s.createBundle b p src dst lifetime custody priority = some u ∧
          u.forward b = some t ∧ code = 0) := by
  unfold send Refused
  by_cases hsrc : (src != defaultEid && !s.isNodeMember src) = true
  · rw [if_pos hsrc]
    simp [hsrc, eq_comm]
  · rw [if_neg hsrc]
    simp only [hsrc, Bool.false_eq_true, false_and, false_or, not_false_eq_true, true_and]
    constructor
    · intro h
      obtain ⟨u, hu, h⟩ := Option.bind_eq_some_iff.mp h
      obtain ⟨v, hv, h⟩ := Option.bind_eq_some_iff.mp h
      cases h
      exact ⟨u, hu, hv, rfl⟩
    · rintro ⟨u, hu, ht, rfl⟩
      exact Option.bind_eq_some_iff.mpr ⟨u, hu, Option.bind_eq_some_iff.mpr ⟨t, ht, rfl⟩⟩

/-- Sending generates no custody signal. -/
theorem signals_send {p : Packet} {src dst : BpEndpointId} {lifetime : Time} {custody : Bool}
    {priority : UInt32} {code : ℤ}
    (hrun : s.send b p src dst lifetime custody priority = some (t, code)) :
    t.signals = s.signals := by
  rcases send_eq_some.mp hrun with ⟨-, rfl, -⟩ | ⟨-, u, hu, hforward, -⟩
  · rfl
  · obtain ⟨hdr, -, ⟨-, rfl⟩ | ⟨-, -, rfl⟩⟩ := createBundle_eq_some.mp hu
    · exact (forward_frame hforward).signals
    · exact (forward_frame hforward).signals

/-! ## Coalescing -/

/-- The bundle at `x` is marked whole when its ADU has reached the ADU length. -/
def markIfWhole (s : BpAgent6) (x : Ptr) (joined : Packet) : BpAgent6 :=
  if joined.getSize = (s.header x).aduLength then s.modifyHeader x fun h => h.setIsFragment false
  else s

/-- The ADU of the bundle at `x` is replaced. -/
def withAdu (s : BpAgent6) (x : Ptr) (p : Packet) : BpAgent6 :=
  s.modify x fun y => { y with adu := some p }

/-- The ADU of the bundle at `x` has become `joined` and the bundle at `y`, now part of it,
is removed. -/
def absorbed (s : BpAgent6) (x y : Ptr) (joined : Packet) : BpAgent6 :=
  ((s.withAdu x joined).removed y).markIfWhole x joined

/-- The new fragment at `b` starts where the stored bundle at `it` ends. -/
def AtTail (s : BpAgent6) (b it : Ptr) (itAdu : Packet) : Prop :=
  (s.header b).fragOffset = (s.header it).fragOffset + itAdu.getSize

/-- The new fragment at `b` ends where the stored bundle at `it` starts. -/
def AtHead (s : BpAgent6) (b it : Ptr) (adu : Packet) : Prop :=
  (s.header b).fragOffset + adu.getSize = (s.header it).fragOffset

instance (s : BpAgent6) (b it : Ptr) (itAdu : Packet) : Decidable (s.AtTail b it itAdu) :=
  inferInstanceAs (Decidable (_ = _))

instance (s : BpAgent6) (b it : Ptr) (adu : Packet) : Decidable (s.AtHead b it adu) :=
  inferInstanceAs (Decidable (_ = _))

@[simp] theorem header_withAdu (s : BpAgent6) (y x : Ptr) (p : Packet) :
    (s.withAdu y p).header x = s.header x := by
  apply field_heap_modify Bundle6.primaryHeader
  exact fun _ => rfl

/-- A change that leaves every header alone leaves the order alone. -/
theorem ordered_iff_of_header (hheader : ∀ x, t.header x = s.header x)
    (hstore : t.mStore = s.mStore) : t.Ordered ↔ s.Ordered :=
  ⟨fun h => h.of_header (fun x => (hheader x).symm) (hstore ▸ List.Sublist.refl _),
    fun h => h.of_header hheader (hstore ▸ List.Sublist.refl _)⟩

theorem ordered_withAdu (s : BpAgent6) (x : Ptr) (p : Packet) :
    (s.withAdu x p).Ordered ↔ s.Ordered :=
  ordered_iff_of_header (s.header_withAdu x · p) rfl

@[simp] theorem header_removed (s : BpAgent6) (b x : Ptr) :
    (s.removed b).header x = s.header x := rfl

theorem join_eq_some {y : Ptr} {joined : Packet} (hadu : (s.heap y).adu ≠ none) :
    (((s.withAdu x joined).removeFromStore y).bind fun v =>
        if joined.getSize = (s.header x).aduLength then
          some (v.modifyHeader x fun h => h.setIsFragment false) else some v) = some t ↔
      s.Ordered ∧ t = s.absorbed x y joined := by
  have hsome : ((s.withAdu x joined).heap y).adu ≠ none := by
    unfold withAdu
    by_cases hy : y = x
    · subst hy
      rw [heap_modify_self]
      exact Option.some_ne_none joined
    · rwa [heap_modify_of_ne s hy]
  have hmark : ∀ v : BpAgent6, v.header x = s.header x →
      (if joined.getSize = (s.header x).aduLength then
        some (v.modifyHeader x fun h => h.setIsFragment false) else some v) =
        some (v.markIfWhole x joined) := by
    intro v hv
    unfold markIfWhole
    rw [hv]
    split <;> rfl
  rw [Option.bind_eq_some_iff]
  simp only [removeFromStore_eq_some, ordered_withAdu]
  constructor
  · rintro ⟨v, ⟨hord, -, rfl⟩, ht⟩
    rw [hmark _ (by simp)] at ht
    exact ⟨hord, (Option.some.inj ht).symm⟩
  · rintro ⟨hord, rfl⟩
    exact ⟨_, ⟨hord, fun _ => hsome, rfl⟩, hmark _ (by simp)⟩

/-- **One iteration of the coalescing loop.** -/
theorem coalesceWith_eq_some : s.coalesceWith b it = some t ↔
    ∃ itAdu adu, (s.heap it).adu = some itAdu ∧ (s.heap b).adu = some adu ∧
      ((s.AtTail b it itAdu ∧ ∃ joined, itAdu.addAtEnd adu = some joined ∧ s.Ordered ∧
          t = s.absorbed it b joined) ∨
        (¬s.AtTail b it itAdu ∧ s.AtHead b it adu ∧ ∃ joined, adu.addAtEnd itAdu = some joined ∧
          s.Ordered ∧ t = s.absorbed b it joined) ∨
        (¬s.AtTail b it itAdu ∧ ¬s.AtHead b it adu ∧ t = s)) := by
  have hunfold : s.coalesceWith b it = (s.heap it).adu.bind fun itAdu =>
      (s.heap b).adu.bind fun adu =>
        if s.AtTail b it itAdu then (itAdu.addAtEnd adu).bind fun joined =>
          ((s.withAdu it joined).removeFromStore b).bind fun v =>
            if joined.getSize = (s.header it).aduLength then
              some (v.modifyHeader it fun h => h.setIsFragment false) else some v
        else if s.AtHead b it adu then (adu.addAtEnd itAdu).bind fun joined =>
          ((s.withAdu b joined).removeFromStore it).bind fun v =>
            if joined.getSize = (s.header b).aduLength then
              some (v.modifyHeader b fun h => h.setIsFragment false) else some v
        else some s := rfl
  rw [hunfold]
  cases hit : (s.heap it).adu with
  | none => simp
  | some itAdu =>
    cases hb : (s.heap b).adu with
    | none => simp
    | some adu =>
      have hb' : (s.heap b).adu ≠ none := by simp [hb]
      have hit' : (s.heap it).adu ≠ none := by simp [hit]
      simp only [Option.bind_some, Option.some.injEq, exists_eq_left', exists_and_left]
      by_cases htail : s.AtTail b it itAdu
      · rw [if_pos htail, Option.bind_eq_some_iff]
        simp [htail, join_eq_some hb']
      · by_cases hhead : s.AtHead b it adu
        · rw [if_neg htail, if_pos hhead, Option.bind_eq_some_iff]
          simp [htail, hhead, join_eq_some hit']
        · simp [htail, hhead, eq_comm]

/-! ## Custody signals -/

/-- The range an acknowledgement is about, as the code computes it. -/
def thisack (cs : CustodySignal) : UInt32 × UInt32 :=
  (cs.fragmentOffset, cs.fragmentOffset + cs.fragmentLength)

/-- The acknowledgement is added to the list of the bundle at `x`. -/
def acked (s : BpAgent6) (x : Ptr) (cs : CustodySignal) : BpAgent6 :=
  s.modify x fun y => { y with acks := addAck (thisack cs) y.acks }

/-- The bundle a custody signal is about. -/
def signalled (s : BpAgent6) (cs : CustodySignal) : Option Ptr :=
  if cs.status = CustodySignal.succeeded then
    s.getBundle (.ofUri cs.srcEid) cs.creationTimestamp cs.seqNo
  else none

/-- The acknowledgement of `cs` completes the list of the bundle at `x`. -/
def Completes (s : BpAgent6) (x : Ptr) (cs : CustodySignal) : Prop :=
  fullyAcked (addAck (thisack cs) (s.heap x).acks) (s.header x).aduLength = true

theorem mem_of_signalled {cs : CustodySignal} (h : s.signalled cs = some x) : x ∈ s.mStore := by
  unfold signalled at h
  split at h
  · exact List.mem_of_find?_eq_some h
  · cases h

@[simp] theorem header_acked (s : BpAgent6) (y x : Ptr) (cs : CustodySignal) :
    (s.acked y cs).header x = s.header x := by
  apply field_heap_modify Bundle6.primaryHeader
  exact fun _ => rfl

@[simp] theorem adu_acked (s : BpAgent6) (y x : Ptr) (cs : CustodySignal) :
    ((s.acked y cs).heap x).adu = (s.heap x).adu := by
  apply field_heap_modify Bundle6.adu
  exact fun _ => rfl

theorem ordered_acked (s : BpAgent6) (x : Ptr) (cs : CustodySignal) :
    (s.acked x cs).Ordered ↔ s.Ordered :=
  ordered_iff_of_header (s.header_acked x · cs) rfl

/-- **What a custody signal does**: nothing, one more acknowledgement, or the release of
the bundle. -/
theorem processCustodySignal_eq_some {cs : CustodySignal} : s.processCustodySignal cs = some t ↔
    (s.signalled cs = none ∧ t = s) ∨
      ∃ x, s.signalled cs = some x ∧ ((¬s.Completes x cs ∧ t = s.acked x cs) ∨
        (s.Completes x cs ∧ s.Ordered ∧ (s.heap x).adu ≠ none ∧ t = (s.acked x cs).discarded x)) := by
  have hunfold : s.processCustodySignal cs = (s.signalled cs).elim (some s) fun x =>
      if fullyAcked ((s.acked x cs).heap x).acks ((s.acked x cs).header x).aduLength then
        ((s.acked x cs).removeFromStore x).bind fun v => some (v.dispose x)
      else some (s.acked x cs) := by
    unfold processCustodySignal signalled
    split
    · cases s.getBundle (.ofUri cs.srcEid) cs.creationTimestamp cs.seqNo <;> rfl
    · rfl
  rw [hunfold]
  cases hx : s.signalled cs with
  | none =>
    rw [Option.elim_none]
    simp [eq_comm]
  | some x =>
    have hmem := mem_of_signalled hx
    have hacks : ((s.acked x cs).heap x).acks = addAck (thisack cs) (s.heap x).acks := by
      unfold acked
      rw [heap_modify_self]
    simp only [Option.elim_some, hacks, header_acked, Option.some.injEq, exists_eq_left',
      reduceCtorEq, false_and, false_or]
    by_cases hfull : s.Completes x cs
    · have hfull' := hfull
      unfold Completes at hfull'
      rw [if_pos hfull', Option.bind_eq_some_iff]
      simp only [hfull, not_true_eq_false, false_and, false_or, true_and, removeFromStore_eq_some,
        ordered_acked, adu_acked]
      constructor
      · rintro ⟨v, ⟨hord, hadu, rfl⟩, ht⟩
        exact ⟨hord, hadu hmem, (Option.some.inj ht).symm⟩
      · rintro ⟨hord, hadu, rfl⟩
        exact ⟨_, ⟨hord, fun _ => hadu, rfl⟩, rfl⟩
    · have hfull' := hfull
      unfold Completes at hfull'
      rw [if_neg hfull']
      simp [hfull, eq_comm]

/-- Stripping a header off the ADU replaces the ADU. -/
theorem stripAdu_eq_withAdu {α : Type} {a : α} {removeFrom : List UInt8 → Option (α × List UInt8)}
    (hrun : s.stripAdu b removeFrom = some (a, t)) : ∃ p, t = s.withAdu b p := by
  obtain ⟨adu, -, hrun⟩ := Option.bind_eq_some_iff.mp hrun
  obtain ⟨⟨header, rest⟩, -, hrun⟩ := Option.bind_eq_some_iff.mp hrun
  obtain ⟨stripped, -, hrun⟩ := Option.bind_eq_some_iff.mp hrun
  cases hrun
  exact ⟨stripped, rfl⟩

/-- A bundle without an ADU can be matched against nothing. -/
theorem coalesce_of_adu_eq_none {l : List Ptr} (hadu : (s.heap b).adu = none)
    (hrun : s.coalesce b l = some t) : t = s := by
  cases l with
  | nil =>
    cases hrun
    rfl
  | cons it l =>
    obtain ⟨u, hu, -⟩ := Option.bind_eq_some_iff.mp hrun
    obtain ⟨itAdu, adu, -, hb, -⟩ := coalesceWith_eq_some.mp hu
    rw [hadu] at hb
    cases hb

theorem matchFragments_of_adu_eq_none (hadu : (s.heap b).adu = none)
    (hrun : s.matchFragments b = some t) : t = s := by
  unfold matchFragments at hrun
  split at hrun
  · exact coalesce_of_adu_eq_none hadu hrun
  · cases hrun
    rfl

/-- What is left of an administrative record: the bundle is removed and disposed of. -/
theorem processAdminRecord_eq_some (hrun : s.processAdminRecord b = some t) :
    ∃ ar p v, (s.withAdu b p).handleAdminRecord b ar = some v ∧ v.Ordered ∧ t = v.discarded b := by
  obtain ⟨⟨ar, u⟩, hu, hrun⟩ := Option.bind_eq_some_iff.mp hrun
  obtain ⟨v, hv, hrun⟩ := Option.bind_eq_some_iff.mp hrun
  obtain ⟨w, hw, hrun⟩ := Option.bind_eq_some_iff.mp hrun
  cases hrun
  obtain ⟨p, rfl⟩ := stripAdu_eq_withAdu hu
  obtain ⟨hord, -, rfl⟩ := removeFromStore_eq_some.mp hw
  exact ⟨ar, p, v, hv, hord, rfl⟩

theorem adu_discarded (s : BpAgent6) (b : Ptr) : ((s.discarded b).heap b).adu = none := by
  have hheap : (s.discarded b).heap b = ((s.removed b).toMemory.doDispose b).heap b := rfl
  rw [hheap, Memory.heap_doDispose, Function.update_self]

/-- The entry that `EnqueueForDeliveryToApplication` makes in the log of deliveries. -/
def logged (s : BpAgent6) (b : Ptr) : BpAgent6 :=
  { s with delivered := s.delivered ++ [(s.sim.now, b, s.header b)] }

/-- **What enqueueing does**: an administrative record is processed and nothing is matched;
another bundle is matched against the stored ones. -/
theorem enqueue_eq_some (hrun : s.enqueueForDeliveryToApplication b = some t) :
    (s.isForAgent b = true ∧ (s.logged b).processAdminRecord b = some t) ∨
      (s.isForAgent b = false ∧ (s.logged b).matchFragments b = some t) := by
  have hsame : (s.logged b).isForAgent b = s.isForAgent b := rfl
  unfold enqueueForDeliveryToApplication at hrun
  dsimp only at hrun
  split at hrun
  · rename_i hagent
    obtain ⟨u, hu, hrun⟩ := Option.bind_eq_some_iff.mp hrun
    obtain ⟨ar, p, v, -, -, rfl⟩ := processAdminRecord_eq_some hu
    cases matchFragments_of_adu_eq_none (adu_discarded v b) hrun
    exact Or.inl ⟨hsame ▸ hagent, hu⟩
  · rename_i hagent
    exact Or.inr ⟨hsame ▸ eq_false_of_ne_true hagent, hrun⟩

/-! ## What survives local delivery -/

/-- A property of agents that survives everything local delivery does to the bundles of `K`. -/
structure StoreClosedOn (K : Ptr → Prop) (Inv : BpAgent6 → Prop) : Prop where
  withAdu : ∀ {s : BpAgent6} {x : Ptr} {p : Packet}, K x → Inv s → Inv (s.withAdu x p)
  acked : ∀ {s : BpAgent6} {x : Ptr} {cs : CustodySignal}, K x → Inv s → Inv (s.acked x cs)
  markWhole : ∀ {s : BpAgent6} {x : Ptr}, K x → Inv s →
    Inv (s.modifyHeader x fun h => h.setIsFragment false)
  removed : ∀ {s : BpAgent6} {x : Ptr}, K x → Inv s → s.Ordered → Inv (s.removed x)
  discarded : ∀ {s : BpAgent6} {x : Ptr}, K x → Inv s → s.Ordered → Inv (s.discarded x)

namespace StoreClosedOn
variable {K : Ptr → Prop} {Inv : BpAgent6 → Prop} {y : Ptr}

theorem markIfWhole (hc : StoreClosedOn K Inv) {joined : Packet} (hx : K x) (h : Inv s) :
    Inv (s.markIfWhole x joined) := by
  unfold BpAgent6.markIfWhole
  split
  · exact hc.markWhole hx h
  · exact h

theorem absorbed (hc : StoreClosedOn K Inv) {joined : Packet} (hx : K x) (hy : K y) (h : Inv s)
    (hord : s.Ordered) : Inv (s.absorbed x y joined) :=
  hc.markIfWhole hx (hc.removed hy (hc.withAdu hx h) ((ordered_withAdu s x joined).mpr hord))

theorem processCustodySignal (hc : StoreClosedOn K Inv) {cs : CustodySignal}
    (hK : ∀ x ∈ s.mStore, K x) (h : Inv s) (hrun : s.processCustodySignal cs = some t) : Inv t := by
  rcases processCustodySignal_eq_some.mp hrun with ⟨-, rfl⟩ | ⟨x, hx, h'⟩
  · exact h
  · have hKx : K x := hK x (mem_of_signalled hx)
    rcases h' with ⟨-, rfl⟩ | ⟨-, hord, -, rfl⟩
    · exact hc.acked hKx h
    · exact hc.discarded hKx (hc.acked hKx h) ((ordered_acked s x cs).mpr hord)

theorem handleAdminRecord (hc : StoreClosedOn K Inv) {ar : AdminRecord}
    (hK : ∀ x ∈ s.mStore, K x) (hb : K b) (h : Inv s) (hrun : s.handleAdminRecord b ar = some t) :
    Inv t := by
  unfold BpAgent6.handleAdminRecord at hrun
  split at hrun
  · obtain ⟨⟨cs, u⟩, hu, hrun⟩ := Option.bind_eq_some_iff.mp hrun
    obtain ⟨p, rfl⟩ := stripAdu_eq_withAdu hu
    exact hc.processCustodySignal (s := s.withAdu b p) hK (hc.withAdu hb h) hrun
  · split at hrun
    · obtain ⟨⟨_, u⟩, hu, hrun⟩ := Option.bind_eq_some_iff.mp hrun
      cases hrun
      obtain ⟨p, rfl⟩ := stripAdu_eq_withAdu hu
      exact hc.withAdu hb h
    · cases hrun
      exact h

theorem processAdminRecord (hc : StoreClosedOn K Inv) (hK : ∀ x ∈ s.mStore, K x) (hb : K b)
    (h : Inv s) (hrun : s.processAdminRecord b = some t) : Inv t := by
  obtain ⟨ar, p, v, hv, hord, rfl⟩ := processAdminRecord_eq_some hrun
  exact hc.discarded hb (hc.handleAdminRecord (s := s.withAdu b p) hK hb (hc.withAdu hb h) hv) hord

theorem coalesceWith (hc : StoreClosedOn K Inv) (hb : K b) (hit : K it) (h : Inv s)
    (hrun : s.coalesceWith b it = some t) : Inv t := by
  obtain ⟨itAdu, adu, -, -, hcase⟩ := coalesceWith_eq_some.mp hrun
  rcases hcase with ⟨-, joined, -, hord, rfl⟩ | ⟨-, -, joined, -, hord, rfl⟩ | ⟨-, -, rfl⟩
  · exact hc.absorbed hit hb h hord
  · exact hc.absorbed hb hit h hord
  · exact h

theorem coalesce (hc : StoreClosedOn K Inv) {l : List Ptr} (hb : K b) (hl : ∀ it ∈ l, K it)
    (h : Inv s) (hrun : s.coalesce b l = some t) : Inv t := by
  induction l generalizing s with
  | nil =>
    cases hrun
    exact h
  | cons it l ih =>
    obtain ⟨u, hu, hrun⟩ := Option.bind_eq_some_iff.mp hrun
    have hu' := hc.coalesceWith hb (hl it List.mem_cons_self) h hu
    exact ih (fun x hx => hl x (List.mem_cons_of_mem it hx)) hu' hrun

theorem matchFragments (hc : StoreClosedOn K Inv) (hK : ∀ x ∈ s.mStore, K x) (hb : K b) (h : Inv s)
    (hrun : s.matchFragments b = some t) : Inv t := by
  unfold BpAgent6.matchFragments at hrun
  split at hrun
  · exact hc.coalesce hb (fun it hit => hK it (BundleStore.mem_getBundles.mp hit).1) h hrun
  · cases hrun
    exact h

end StoreClosedOn

/-- The property survives the log entry of local delivery too. -/
structure DeliveryClosedOn (K : Ptr → Prop) (Inv : BpAgent6 → Prop) : Prop extends
    StoreClosedOn K Inv where
  delivered : ∀ {s : BpAgent6} {l : List (Time × Ptr × BpHeader6)}, Inv s →
    Inv { s with delivered := l }

/-- **The rule for local delivery**, of a bundle of `K` where all stored bundles are. -/
theorem DeliveryClosedOn.enqueueIfActive {K : Ptr → Prop} {Inv : BpAgent6 → Prop}
    (hc : DeliveryClosedOn K Inv) {state : Bool} (hK : ∀ x ∈ s.mStore, K x)
    (hb : K b) (h : Inv s) (hrun : s.enqueueIfActive b state = some t) : Inv t := by
  unfold BpAgent6.enqueueIfActive at hrun
  split at hrun
  · rcases enqueue_eq_some hrun with ⟨-, hadmin⟩ | ⟨-, hmatch⟩
    · exact hc.processAdminRecord (s := s.logged b) hK hb (hc.delivered h) hadmin
    · exact hc.matchFragments (s := s.logged b) hK hb (hc.delivered h) hmatch
  · cases hrun
    exact h

/-- The log that local delivery leaves. -/
theorem delivered_enqueueIfActive {state : Bool} (hrun : s.enqueueIfActive b state = some t) :
    t.delivered = if state then s.delivered ++ [(s.sim.now, b, s.header b)] else s.delivered := by
  have hclosed : StoreClosedOn (fun _ => True) fun u => u.delivered = (s.logged b).delivered :=
    ⟨fun _ h => h, fun _ h => h, fun _ h => h, fun _ h _ => h, fun _ h _ => h⟩
  unfold BpAgent6.enqueueIfActive at hrun
  cases state with
  | false =>
    cases hrun
    rfl
  | true =>
    rcases enqueue_eq_some hrun with ⟨-, hadmin⟩ | ⟨-, hmatch⟩
    · exact hclosed.processAdminRecord (s := s.logged b) (fun _ _ => trivial) trivial rfl hadmin
    · exact hclosed.matchFragments (s := s.logged b) (fun _ _ => trivial) trivial rfl hmatch

/-- A property of agents that survives everything local delivery does to a store. -/
structure DeliveryClosed (Inv : BpAgent6 → Prop) : Prop where
  delivered : ∀ {s : BpAgent6} {l : List (Time × Ptr × BpHeader6)}, Inv s →
    Inv { s with delivered := l }
  withAdu : ∀ {s : BpAgent6} {x : Ptr} {p : Packet}, Inv s → Inv (s.withAdu x p)
  acked : ∀ {s : BpAgent6} {x : Ptr} {cs : CustodySignal}, Inv s → Inv (s.acked x cs)
  markWhole : ∀ {s : BpAgent6} {x : Ptr}, Inv s →
    Inv (s.modifyHeader x fun h => h.setIsFragment false)
  removed : ∀ {s : BpAgent6} {x : Ptr}, Inv s → s.Ordered → Inv (s.removed x)
  discarded : ∀ {s : BpAgent6} {x : Ptr}, Inv s → s.Ordered → Inv (s.discarded x)

namespace DeliveryClosed
variable {Inv : BpAgent6 → Prop}

theorem on (hc : DeliveryClosed Inv) : DeliveryClosedOn (fun _ => True) Inv where
  delivered := hc.delivered
  withAdu _ := hc.withAdu
  acked _ := hc.acked
  markWhole _ := hc.markWhole
  removed _ := hc.removed
  discarded _ := hc.discarded

theorem processCustodySignal (hc : DeliveryClosed Inv) {cs : CustodySignal} (h : Inv s)
    (hrun : s.processCustodySignal cs = some t) : Inv t :=
  hc.on.processCustodySignal (fun _ _ => trivial) h hrun

theorem coalesce (hc : DeliveryClosed Inv) {l : List Ptr} (h : Inv s)
    (hrun : s.coalesce b l = some t) : Inv t :=
  hc.on.coalesce trivial (fun _ _ => trivial) h hrun

theorem matchFragments (hc : DeliveryClosed Inv) (h : Inv s)
    (hrun : s.matchFragments b = some t) : Inv t :=
  hc.on.matchFragments (fun _ _ => trivial) trivial h hrun

theorem enqueueIfActive (hc : DeliveryClosed Inv) {state : Bool} (h : Inv s)
    (hrun : s.enqueueIfActive b state = some t) : Inv t :=
  hc.on.enqueueIfActive (fun _ _ => trivial) trivial h hrun

end DeliveryClosed

/-! ## Delivery and dispatch -/

/-- A registered endpoint is a node member. -/
theorem isNodeMember_of_find {eid : BpEndpointId} {state : Bool}
    (h : s.findRegistration eid = some state) : s.isNodeMember eid = true := by
  obtain ⟨r, hr, -⟩ := Option.map_eq_some_iff.mp h
  have hmatch : (r.1 == eid) = true := by simpa using List.find?_some hr
  exact List.any_eq_true.mpr ⟨r, List.mem_of_find?_eq_some hr, hmatch⟩

/-- Endpoint ids with the same URI have the same registration. -/
theorem findRegistration_congr {eid eid' : BpEndpointId} (huri : eid.uri = eid'.uri) :
    s.findRegistration eid = s.findRegistration eid' := by
  have hbeq : ∀ a : BpEndpointId, (a == eid) = (a == eid') := by
    intro a
    rw [Bool.eq_iff_iff, BpEndpointId.beq_iff, BpEndpointId.beq_iff, huri]
  unfold findRegistration
  simp only [hbeq]

/-- **What `Deliver` does**: nothing without a registration; otherwise the bundle is
enqueued and, when custody is requested, a custody signal is sent. -/
theorem deliver_eq_some : s.deliver b q = some t ↔
    (s.findRegistration (s.header b).getDestinationEid = none ∧ t = s) ∨
      ∃ state u, s.findRegistration (s.header b).getDestinationEid = some state ∧
        s.enqueueIfActive b state = some u ∧
        (((u.header b).custTxReq = false ∧ t = u) ∨
          ((u.header b).custTxReq = true ∧
            u.sendCustodySignal b q (u.header b).lifeTime = some t)) := by
  unfold deliver
  cases s.findRegistration (s.header b).getDestinationEid with
  | none =>
    constructor
    · intro h
      cases h
      exact Or.inl ⟨rfl, rfl⟩
    · rintro (⟨-, rfl⟩ | ⟨state, u, hstate, -⟩)
      · rfl
      · cases hstate
  | some state =>
    constructor
    · intro h
      obtain ⟨u, hu, h⟩ := Option.bind_eq_some_iff.mp h
      refine Or.inr ⟨state, u, rfl, hu, ?_⟩
      cases hcust : (u.header b).custTxReq with
      | false =>
        rw [hcust] at h
        cases h
        exact Or.inl ⟨rfl, rfl⟩
      | true =>
        rw [hcust] at h
        exact Or.inr ⟨rfl, h⟩
    · rintro (⟨hnone, -⟩ | ⟨state', u, hstate, hu, h⟩)
      · cases hnone
      · cases hstate
        refine Option.bind_eq_some_iff.mpr ⟨u, hu, ?_⟩
        rcases h with ⟨hcust, rfl⟩ | ⟨hcust, h⟩
        · rw [hcust]
          rfl
        · rw [hcust]
          exact h

/-- The log entry of a custody signal. -/
def signalLogged (s : BpAgent6) (b : Ptr) (cs : CustodySignal) : BpAgent6 :=
  { s with signals := s.signals ++ [(s.sim.now, b, cs)] }

theorem sendCustodySignal_eq_some {lifetime : Time} :
    s.sendCustodySignal b q lifetime = some t ↔
      ∃ cs p code, s.custodySignalPacket b = some (cs, p) ∧
        (s.signalLogged b cs).send q p s.config.eid (s.header b).getCustEid lifetime false 0 =
          some (t, code) := by
  unfold sendCustodySignal
  constructor
  · intro h
    obtain ⟨⟨cs, p⟩, hp, h⟩ := Option.bind_eq_some_iff.mp h
    obtain ⟨⟨v, code⟩, hv, h⟩ := Option.bind_eq_some_iff.mp h
    cases h
    exact ⟨cs, p, code, hp, hv⟩
  · rintro ⟨cs, p, code, hp, hv⟩
    exact Option.bind_eq_some_iff.mpr ⟨_, hp, Option.bind_eq_some_iff.mpr ⟨_, hv, rfl⟩⟩

theorem processBundle_eq_some {rx : ReceivedBundle} : s.processBundle b q rx = some t ↔
    ∃ u, s.acceptBundle b rx = some u ∧
      ((u.isNodeMember (u.header b).getDestinationEid = true ∧ u.deliver b q = some t) ∨
        (u.isNodeMember (u.header b).getDestinationEid = false ∧ u.forward b = some t)) := by
  unfold processBundle dispatch
  refine Option.bind_eq_some_iff.trans (exists_congr fun u => and_congr_right fun _ => ?_)
  cases u.isNodeMember (u.header b).getDestinationEid <;> simp

/-! ## Receiving and expiry -/

/-- **What `Receive` does**: it finds nothing, or removes the first deliverable bundle and
returns its ADU. -/
theorem receive_eq_some {eid : BpEndpointId} {p : Option Packet} :
    s.receive eid = some (t, p) ↔
      (s.deliverable eid false = none ∧ t = s ∧ p = none) ∨
        ∃ b adu, s.deliverable eid false = some b ∧ s.Ordered ∧ (s.heap b).adu = some adu ∧
          p = some adu ∧ t = { s.discarded b with
            bundlesDelivered := s.bundlesDelivered + 1
            bytesDelivered := s.bytesDelivered + adu.size } := by
  unfold receive BundleStore.getAndRemoveBundle
  cases hb : s.deliverable eid false with
  | none =>
    constructor
    · intro h
      cases h
      exact Or.inl ⟨rfl, rfl, rfl⟩
    · rintro (⟨-, rfl, rfl⟩ | ⟨b, adu, hb', -⟩)
      · rfl
      · cases hb'
  | some b =>
    have hmem : b ∈ s.mStore := List.mem_of_find?_eq_some hb
    constructor
    · intro h
      obtain ⟨⟨st, p'⟩, hst, h⟩ := Option.bind_eq_some_iff.mp h
      obtain ⟨st', hremove, hst⟩ := Option.bind_eq_some_iff.mp hst
      cases hst
      obtain ⟨hord, hadu, rfl⟩ := BundleStore.remove_eq_some.mp hremove
      obtain ⟨adu, hadu⟩ := Option.ne_none_iff_exists'.mp (hadu hmem)
      rw [BundleStore.heap_removed, hadu] at h
      cases h
      exact Or.inr ⟨b, adu, rfl, hord, hadu, rfl, rfl⟩
    · rintro (⟨hnone, -⟩ | ⟨b', adu, hb', hord, hadu, rfl, rfl⟩)
      · cases hnone
      · cases hb'
        have hne : (s.heap b).adu ≠ none := by simp [hadu]
        have hremove := BundleStore.remove_eq_some.mpr ⟨hord, fun _ => hne, rfl⟩
        refine Option.bind_eq_some_iff.mpr ⟨(_, some adu), ?_, rfl⟩
        exact Option.bind_eq_some_iff.mpr ⟨_, hremove, by rw [BundleStore.heap_removed, hadu]; rfl⟩

theorem expire_eq_some : (s.withStore fun st => st.expire b) = some t ↔
    s.Ordered ∧ (b ∈ s.mStore → (s.heap b).adu ≠ none) ∧ t = s.discarded b := by
  rw [withStore_eq_some]
  constructor
  · rintro ⟨st, hst, rfl⟩
    obtain ⟨st', hremove, hst⟩ := Option.bind_eq_some_iff.mp hst
    cases hst
    obtain ⟨hord, hadu, rfl⟩ := BundleStore.remove_eq_some.mp hremove
    exact ⟨hord, hadu, rfl⟩
  · rintro ⟨hord, hadu, rfl⟩
    exact ⟨_, Option.bind_eq_some_iff.mpr
      ⟨_, BundleStore.remove_eq_some.mpr ⟨hord, hadu, rfl⟩, rfl⟩, rfl⟩

end BpAgent6
end BundleProtocol
