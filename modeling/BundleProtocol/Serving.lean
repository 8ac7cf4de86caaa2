import BundleProtocol.Partition

/-! # Serving a convergence layer

`ClaReady` takes the bundles that wait for a convergence layer from the store, and then forwards one
after the other.  A bundle that `Forward` keeps has a new fragment offset, so the set may be out of
order by the time a later bundle is searched for; `forwardFound` leaves the outcome of the search open,
and what is proved holds for every outcome.
-/
namespace BundleProtocol
open TransitionSystem FlagWord

/-- The bundles `ClaReady` finds. -/
theorem BundleStore.mem_getForwardPendingBundles {st : BundleStore} {cla : ClaId}
    {outgoingCla : BpEndpointId → Option ClaId} {b : Ptr} :
    b ∈ st.getForwardPendingBundles cla outgoingCla ↔ b ∈ st.mStore ∧
      test (st.heap b).retentionConstraints forwardPending = true ∧
        outgoingCla (st.header b).getDestinationEid = some cla := by
  unfold getForwardPendingBundles
  rw [List.mem_filter, decide_eq_true_iff, and_eq_self_iff_test (k := 1) rfl]

namespace BpAgent6
variable {s t u v : BpAgent6} {b x : Ptr} {cla : ClaId} {p : Packet} {found : Bool}

/-! ## One bundle -/

/-- `Forward`, by the outcome of the search in its step 6. -/
def forwardFound (s : BpAgent6) (b : Ptr) (found : Bool) : Option BpAgent6 :=
  (s.readyCla b).elim (some (s.flagged b)) fun cla =>
    ((s.flagged b).transmit b cla (s.header b).getDestinationEid).bind fun u => u.wrapUpFound b found

/-- A call of `Forward` that returns has searched with one outcome or the other. -/
theorem exists_forwardFound (hrun : s.forward b = some t) :
    ∃ found, s.forwardFound b found = some t := by
  rw [forward_eq] at hrun
  unfold forwardFound
  cases hready : s.readyCla b with
  | none => exact ⟨true, by rwa [hready] at hrun⟩
  | some cla =>
    rw [hready, Option.elim_some] at hrun
    obtain ⟨u, hu, hwrap⟩ := Option.bind_eq_some_iff.mp hrun
    refine ⟨decide (b ∈ u.mStore), ?_⟩
    rw [Option.elim_some, hu, Option.bind_some]
    rcases wrapUp_eq_some.mp hwrap with ⟨hne, rfl⟩ | ⟨-, hord, -, -⟩
    · unfold wrapUpFound
      rw [if_neg hne]
    · rwa [← wrapUp_eq_wrapUpFound hord]

/-- What is handed over of the bundle at `b`. -/
def output (s : BpAgent6) (b : Ptr) (cla : ClaId) : List Transmission :=
  (s.heap b).adu.elim [] fun p => (s.pieces p).map
    (s.transmission b cla (s.header b).getDestinationEid (s.fragmenting p) p)

theorem output_of_adu (hadu : (s.heap b).adu = some p) : s.output b cla = (s.pieces p).map
    (s.transmission b cla (s.header b).getDestinationEid (s.fragmenting p) p) := by
  unfold output
  rw [hadu, Option.elim_some]

/-- It depends on the bundle, the configuration and the clock. -/
theorem output_congr (hheap : t.heap b = s.heap b) (hconfig : t.config = s.config)
    (hnow : t.sim.now = s.sim.now) : t.output b cla = s.output b cla := by
  have hheader : t.header b = s.header b := BundleStore.header_congr hheap
  unfold output
  rw [hheap]
  refine congrArg (fun f => (s.heap b).adu.elim [] f) ?_
  funext p
  have htransmission : t.transmission b cla (s.header b).getDestinationEid (s.fragmenting p) p =
      s.transmission b cla (s.header b).getDestinationEid (s.fragmenting p) p :=
    transmission_congr hnow hconfig hheader (congrArg Bundle6.payloadHeader hheap) _
  unfold pieces fragmenting at htransmission ⊢
  rw [hconfig, hheader, htransmission]

/-- The bundle at `b` was sent to `cla`, and kept or removed. -/
structure Sent (s : BpAgent6) (b : Ptr) (cla : ClaId) (t : BpAgent6) : Prop where
  heap : ∀ x, x ≠ b → t.heap x = s.heap x
  sublist : t.mStore.Sublist s.mStore
  mem : ∀ x, x ≠ b → (x ∈ t.mStore ↔ x ∈ s.mStore)
  config : t.config = s.config
  now : t.sim.now = s.sim.now
  handed : t.handed = s.handed ++ s.output b cla
  flag : test (t.heap b).retentionConstraints forwardPending = false

theorem sent_sent (hadu : (s.heap b).adu = some p) (hm : s.config.bundleSize ≠ 0) :
    Sent s b cla (s.sent b cla p) := by
  obtain ⟨hstore, -, hconfig, -⟩ := s.rest_sent b cla p
  refine ⟨fun x hx => heap_sent_of_ne hx, hstore ▸ List.Sublist.refl _, fun x _ => by rw [hstore],
    hconfig, ?_, ?_, ?_⟩
  · rw [sim_sent]
    split <;> rfl
  · rw [output_of_adu hadu]
    exact s.handed_sent b cla p
  · rw [(s.sentBundle b cla (Or.inl hm)).retentionConstraints]
    exact test_assign_self false (show forwardPending ≠ 0 by decide)

/-- Removing what was sent, wherever the search ends, changes nothing more than the bundle. -/
theorem Sent.disposed (h : Sent s b cla u) (hremove :
    (u.withStore fun st => st.removeFound b found) = some v) : Sent s b cla (v.dispose b) := by
  obtain ⟨st, hst, rfl⟩ := withStore_eq_some.mp hremove
  have hstore : st.toMemory = u.toMemory.clearEvents b ∧
      (st.mStore = u.mStore ∨ st.mStore = u.mStore.erase b) := by
    unfold BundleStore.removeFound at hst
    cases found with
    | false =>
      cases hst
      exact ⟨rfl, Or.inl rfl⟩
    | true =>
      obtain ⟨adu, -, hst⟩ := Option.bind_eq_some_iff.mp hst
      cases hst
      exact ⟨rfl, Or.inr rfl⟩
  obtain ⟨hmemory, hstore⟩ := hstore
  have hheap : st.heap = u.heap := by rw [hmemory, Memory.heap_clearEvents]
  refine ⟨fun x hx => ?_, ?_, fun x hx => ?_, h.config, ?_, h.handed, ?_⟩
  · have hother : (st.toMemory.doDispose b).heap x = st.heap x := Memory.heap_doDispose_of_ne _ hx
    exact hother.trans ((congrFun hheap x).trans (h.heap x hx))
  · show st.mStore.Sublist s.mStore
    rcases hstore with hkept | herased
    · rw [hkept]
      exact h.sublist
    · rw [herased]
      exact List.erase_sublist.trans h.sublist
  · show x ∈ st.mStore ↔ x ∈ s.mStore
    rcases hstore with hkept | herased
    · rw [hkept]
      exact h.mem x hx
    · rw [herased, List.mem_erase_of_ne hx]
      exact h.mem x hx
  · have hnow : (st.toMemory.doDispose b).sim.now = u.sim.now := by
      rw [Memory.now_doDispose, hmemory, Memory.now_clearEvents]
    exact hnow.trans h.now
  · have hself : (st.toMemory.doDispose b).heap b = { st.heap b with adu := none, acks := [] } := by
      rw [Memory.heap_doDispose, Function.update_self]
    show test ((st.toMemory.doDispose b).heap b).retentionConstraints forwardPending = false
    rw [hself, hheap]
    exact h.flag

/-- **A bundle with an ADU is sent** to a convergence layer that is ready. -/
theorem exists_forwardFound_sent (hready : s.readyCla b = some cla) (hadu : (s.heap b).adu ≠ none)
    (hm : s.config.bundleSize ≠ 0) (found : Bool) :
    ∃ t, s.forwardFound b found = some t ∧ Sent s b cla t := by
  obtain ⟨p, hp⟩ := Option.ne_none_iff_exists'.mp hadu
  obtain ⟨-, w, hw, -, hwrap, -⟩ := handsOver_pieces hready hp hm
  obtain ⟨t, ht⟩ := hwrap found
  have hp' : ((s.flagged b).heap b).adu = some p := by
    rw [flagged, heap_modify_self]
    exact hp
  obtain ⟨p', hp'', -, rfl⟩ := transmit_eq_some.mp hw
  cases hp'.symm.trans hp''
  refine ⟨t, ?_, ?_⟩
  · unfold forwardFound
    rw [hready, Option.elim_some, hw, Option.bind_some, ht]
  · have hsent : Sent s b cla (s.sent b cla p) := sent_sent hp hm
    unfold wrapUpFound at ht
    split at ht
    · obtain ⟨v, hv, ht⟩ := Option.bind_eq_some_iff.mp ht
      cases ht
      exact hsent.disposed hv
    · cases ht
      exact hsent

/-! ## One bundle after the other -/

/-- `Forward` on each bundle of a list, by the outcome of each search. -/
def forwardAllFound (found : Ptr → Bool) : List Ptr → BpAgent6 → Option BpAgent6
  | [], s => some s
  | b :: rest, s => (s.forwardFound b (found b)).bind fun t => forwardAllFound found rest t

/-- Only the outcomes for the bundles of the list matter. -/
theorem forwardAllFound_congr {f g : Ptr → Bool} {l : List Ptr} (h : ∀ b ∈ l, f b = g b)
    (s : BpAgent6) : s.forwardAllFound f l = s.forwardAllFound g l := by
  induction l generalizing s with
  | nil => rfl
  | cons b l ih =>
    unfold forwardAllFound
    rw [h b List.mem_cons_self]
    exact congrArg _ (funext (ih fun c hc => h c (List.mem_cons_of_mem b hc)))

/-- A loop that returns has searched with some outcomes; each bundle is searched for once. -/
theorem exists_forwardAllFound {l : List Ptr} (hl : l.Nodup) (hrun : s.forwardAll l = some t) :
    ∃ found, s.forwardAllFound found l = some t := by
  induction l generalizing s with
  | nil => exact ⟨fun _ => true, hrun⟩
  | cons b l ih =>
    obtain ⟨hb, hl⟩ := List.nodup_cons.mp hl
    obtain ⟨u, hu, hrun⟩ := Option.bind_eq_some_iff.mp hrun
    obtain ⟨first, hfirst⟩ := exists_forwardFound hu
    obtain ⟨found, hfound⟩ := ih hl hrun
    refine ⟨Function.update found b first, ?_⟩
    have hrest : u.forwardAllFound (Function.update found b first) l = u.forwardAllFound found l := by
      apply forwardAllFound_congr
      intro c hc
      refine Function.update_of_ne ?_ first found
      rintro rfl
      exact hb hc
    unfold forwardAllFound
    rw [Function.update_self, hfirst, Option.bind_some, hrest, hfound]

/-- The bundles of `l` were sent to `cla`, in this order. -/
structure SentAll (s : BpAgent6) (l : List Ptr) (cla : ClaId) (t : BpAgent6) : Prop where
  heap : ∀ x, x ∉ l → t.heap x = s.heap x
  sublist : t.mStore.Sublist s.mStore
  mem : ∀ x, x ∉ l → (x ∈ t.mStore ↔ x ∈ s.mStore)
  config : t.config = s.config
  handed : t.handed = s.handed ++ l.flatMap fun b => s.output b cla
  flag : ∀ b ∈ l, test (t.heap b).retentionConstraints forwardPending = false

/-- What waits in the rest of the list is not touched by sending its first bundle. -/
theorem Sent.cons {l : List Ptr} (h : Sent s b cla u) (hb : b ∉ l) (hrest : SentAll u l cla t) :
    SentAll s (b :: l) cla t where
  heap x hx := by
    obtain ⟨hne, hx⟩ := List.ne_and_not_mem_of_not_mem_cons hx
    exact (hrest.heap x hx).trans (h.heap x hne)
  sublist := hrest.sublist.trans h.sublist
  mem x hx := by
    obtain ⟨hne, hx⟩ := List.ne_and_not_mem_of_not_mem_cons hx
    exact (hrest.mem x hx).trans (h.mem x hne)
  config := hrest.config.trans h.config
  handed := by
    have hsame : l.flatMap (fun x => u.output x cla) = l.flatMap fun x => s.output x cla := by
      refine List.flatMap_congr fun x hx => output_congr (h.heap x ?_) h.config h.now
      rintro rfl
      exact hb hx
    rw [hrest.handed, h.handed, hsame, List.flatMap_cons, List.append_assoc]
  flag x hx := by
    rcases List.mem_cons.mp hx with rfl | hx
    · rw [hrest.heap x hb]
      exact h.flag
    · exact hrest.flag x hx

/-- **The loop sends all of its list**, however the searches end: the induction is on the list, and the
bundles still to come have their ADU and their route. -/
theorem exists_forwardAllFound_sentAll (found : Ptr → Bool) {l : List Ptr} (hl : l.Nodup)
    (hready : ∀ b ∈ l, s.readyCla b = some cla) (hadu : ∀ b ∈ l, (s.heap b).adu ≠ none)
    (hm : s.config.bundleSize ≠ 0) : ∃ t, s.forwardAllFound found l = some t ∧ SentAll s l cla t := by
  induction l generalizing s with
  | nil =>
    refine ⟨s, rfl, fun _ _ => rfl, List.Sublist.refl _, fun _ _ => Iff.rfl, rfl, ?_, ?_⟩
    · rw [List.flatMap_nil, List.append_nil]
    · intro b hb
      cases hb
  | cons b l ih =>
    obtain ⟨hb, hl⟩ := List.nodup_cons.mp hl
    obtain ⟨u, hu, hsent⟩ := exists_forwardFound_sent (hready b List.mem_cons_self)
      (hadu b List.mem_cons_self) hm (found b)
    have hheap : ∀ x ∈ l, u.heap x = s.heap x := by
      intro x hx
      refine hsent.heap x ?_
      rintro rfl
      exact hb hx
    obtain ⟨t, ht, hrest⟩ := ih hl
      (fun x hx => by
        unfold readyCla outgoingCla
        rw [hsent.config, BundleStore.header_congr (hheap x hx)]
        exact hready x (List.mem_cons_of_mem b hx))
      (fun x hx => by
        rw [hheap x hx]
        exact hadu x (List.mem_cons_of_mem b hx))
      (by rwa [hsent.config])
    refine ⟨t, ?_, hsent.cons hb hrest⟩
    unfold forwardAllFound
    rw [hu, Option.bind_some, ht]

/-! ## The flags of a stored bundle -/

/-- A bundle that waits for a convergence layer has been dispatched. -/
def Dispatched (word : UInt32) : Prop :=
  test word forwardPending = true → test word dispatchPending = false

theorem dispatched_of_not_waiting {word : UInt32} (h : test word forwardPending = false) :
    Dispatched word := by
  intro hset
  rw [h] at hset
  cases hset

/-- Every stored bundle that waits has been dispatched. -/
def AllDispatched (s : BpAgent6) : Prop :=
  ∀ x ∈ s.mStore, Dispatched (s.heap x).retentionConstraints

theorem AllDispatched.mono (h : s.AllDispatched) (hstore : t.mStore.Sublist s.mStore)
    (hflags : ∀ x ∈ t.mStore, (t.heap x).retentionConstraints = (s.heap x).retentionConstraints) :
    t.AllDispatched := by
  intro x hx
  rw [hflags x hx]
  exact h x (hstore.subset hx)

theorem retentionConstraints_discarded (s : BpAgent6) (b x : Ptr) :
    ((s.discarded b).heap x).retentionConstraints = (s.heap x).retentionConstraints := by
  have hheap : (s.discarded b).heap =
      (s.modify b fun y => { y with adu := none, acks := [] }).heap := rfl
  rw [hheap]
  apply field_heap_modify Bundle6.retentionConstraints
  intro y
  rfl

theorem AllDispatched.discarded (h : s.AllDispatched) (b : Ptr) : (s.discarded b).AllDispatched :=
  h.mono List.erase_sublist fun x _ => s.retentionConstraints_discarded b x

theorem AllDispatched.modify {f : Bundle6 → Bundle6} (h : s.AllDispatched)
    (hf : ∀ y : Bundle6, (f y).retentionConstraints = y.retentionConstraints) :
    (s.modify b f).AllDispatched :=
  h.mono (List.Sublist.refl _) fun x _ =>
    field_heap_modify Bundle6.retentionConstraints hf s b x

theorem deliveryClosed_allDispatched : DeliveryClosed AllDispatched where
  delivered h := h
  withAdu h := h.modify fun _ => rfl
  acked h := h.modify fun _ => rfl
  markWhole h := h.modify fun _ => rfl
  removed h _ := h.mono List.erase_sublist fun _ _ => rfl
  discarded h _ := h.discarded _

/-- A new bundle is stored that does not wait. -/
theorem AllDispatched.stored (h : s.AllDispatched) {y : Bundle6}
    (hy : test y.retentionConstraints forwardPending = false)
    (hheap : ∀ x, x ≠ b → u.heap x = s.heap x) (hself : u.heap b = y) (hstore : u.mStore = s.mStore)
    (ht : t = u ∨ t = u.stored b) : t.AllDispatched := by
  have hnew : ∀ x, x = b ∨ x ∈ s.mStore → Dispatched (u.heap x).retentionConstraints := by
    rintro x hx
    by_cases hxb : x = b
    · rw [hxb, hself]
      exact dispatched_of_not_waiting hy
    · rw [hheap x hxb]
      exact h x (hx.resolve_left hxb)
  rcases ht with rfl | rfl
  · intro x hx
    rw [hstore] at hx
    exact hnew x (Or.inr hx)
  · intro x hx
    obtain ⟨id, hid⟩ := u.toBundleStore.heap_stored b x
    have hx' := BundleStore.mem_stored.mp hx
    rw [hstore] at hx'
    have hflags : ((u.stored b).heap x).retentionConstraints = (u.heap x).retentionConstraints := by
      rw [BpAgent6.stored, hid]
    rw [hflags]
    exact hnew x hx'

theorem AllDispatched.acceptBundle {rx : ReceivedBundle} (h : s.AllDispatched)
    (hrun : s.acceptBundle b rx = some t) : t.AllDispatched := by
  have hnew : test dispatchPending forwardPending = false := by decide
  refine h.stored (u := s.arrived b rx) (y := arrivedBundle rx) hnew
    (fun x hx => heap_modify_of_ne s hx _) (heap_modify_self s b _) rfl ?_
  exact (acceptBundle_eq_some.mp hrun).imp And.right fun h => h.2.2

theorem AllDispatched.createBundle {src dst : BpEndpointId} {lifetime : Time} {custody : Bool}
    {priority : UInt32} (h : s.AllDispatched)
    (hrun : s.createBundle b p src dst lifetime custody priority = some t) : t.AllDispatched := by
  obtain ⟨hdr, -, hcase⟩ := createBundle_eq_some.mp hrun
  refine h.stored (u := s.created b hdr p custody) (y := createdBundle hdr p custody) ?_
    (fun x hx => heap_modify_of_ne s hx _) (heap_modify_self s b _) rfl
    (hcase.imp And.right fun h => h.2.2)
  cases custody
  · show test dispatchPending forwardPending = false
    decide
  · show test (dispatchPending ||| custodyAccepted) forwardPending = false
    decide

/-- `Forward` clears the first flag, and the other one when it sends. -/
theorem AllDispatched.forward (h : s.AllDispatched) (hrun : s.forward b = some t) :
    t.AllDispatched := by
  have hframe := forward_frame hrun
  intro x hx
  by_cases hxb : x = b
  · subst hxb
    rcases forward_eq_some.mp hrun with ⟨-, rfl⟩ | ⟨cla, p, -, -, hm, hcase⟩
    · intro _
      rw [flagged, heap_modify_self]
      exact test_assign_self false (show dispatchPending ≠ 0 by decide)
    · have hclear : test ((s.sent x cla p).heap x).retentionConstraints forwardPending = false := by
        rw [(s.sentBundle x cla hm).retentionConstraints]
        exact test_assign_self false (show forwardPending ≠ 0 by decide)
      rcases hcase with ⟨-, rfl⟩ | ⟨-, -, rfl⟩
      · exact dispatched_of_not_waiting hclear
      · rw [retentionConstraints_discarded]
        exact dispatched_of_not_waiting hclear
  · rw [hframe.heap x hxb]
    exact h x (hframe.sublist.subset hx)

theorem AllDispatched.step {op : Op} (h : s.AllDispatched) (hop : s.Admissible op)
    (hstep : step op s = some t) : t.AllDispatched := by
  have hkept : KeptBy s op AllDispatched :=
    { same := fun hu hheap hstore _ => hu.mono (hstore ▸ List.Sublist.refl _) fun x _ => by rw [hheap]
      discarded := fun hu _ => hu.discarded _
      acceptBundle := by
        rintro b q rx u rfl hu
        exact h.acceptBundle hu
      enqueue := fun _ _ _ hu hv => deliveryClosed_allDispatched.enqueueIfActive hu hv
      createBundle := fun _ _ _ hu hv => hu.createBundle hv
      forward := fun _ hu hv => hu.forward hv }
  exact hkept.step h hop hstep

theorem Initial.allDispatched {ops : List Op} (hinit : s.Initial)
    (hrun : Run Admissible step s ops t) : t.AllDispatched := by
  refine hrun.invariant AllDispatched (fun _ _ _ h hop hstep => h.step hop hstep) ?_
  intro x hx
  rw [hinit.mStore] at hx
  cases hx

/-! ## `ClaReady` -/

theorem modify_eq_self {f : Bundle6 → Bundle6} (h : f (s.heap b) = s.heap b) : s.modify b f = s := by
  unfold modify Memory.modify
  rw [h, Function.update_eq_self]

/-- Raising the flag of a bundle that has it changes nothing. -/
theorem flagged_eq_self (h : Dispatched (s.heap b).retentionConstraints)
    (hflag : test (s.heap b).retentionConstraints forwardPending = true) : s.flagged b = s := by
  have hset : (s.heap b).retentionConstraints ||| forwardPending =
      (s.heap b).retentionConstraints :=
    assign_true_of_and ((and_eq_self_iff_test (k := 1) rfl).mpr hflag)
  have hclear : (s.heap b).retentionConstraints &&& ~~~dispatchPending =
      (s.heap b).retentionConstraints := assign_false_of_test (h hflag)
  refine modify_eq_self ?_
  rw [hset, hclear]

/-- A convergence layer that is not ready gets nothing. -/
theorem forwardAll_of_not_ready (h : s.AllDispatched) (hready : s.config.isReady cla = false)
    {l : List Ptr} (hl : ∀ b ∈ l, b ∈ s.getForwardPendingBundles cla s.outgoingCla) :
    s.forwardAll l = some s := by
  induction l with
  | nil => rfl
  | cons b l ih =>
    obtain ⟨hb, hflag, hroute⟩ :=
      BundleStore.mem_getForwardPendingBundles.mp (hl b List.mem_cons_self)
    have hnone : s.readyCla b = none := by
      unfold readyCla
      rw [hroute]
      simp [hready]
    have hforward : s.forward b = some s := by
      rw [forward_eq, hnone, Option.elim_none, flagged_eq_self (h b hb) hflag]
    unfold forwardAll
    rw [hforward]
    exact ih fun c hc => hl c (List.mem_cons_of_mem b hc)

/-- `ClaReady`, by the outcomes of the searches. -/
def claReadyFound (s : BpAgent6) (cla : ClaId) (found : Ptr → Bool) : Option BpAgent6 :=
  s.forwardAllFound found (s.getForwardPendingBundles cla s.outgoingCla)

/-- The bundles that wait for `cla` were handed to it, and nothing else was touched. -/
structure Drains (s : BpAgent6) (cla : ClaId) (t : BpAgent6) : Prop where
  waiting : t.getForwardPendingBundles cla t.outgoingCla = []
  handed : t.handed = s.handed ++
    (s.getForwardPendingBundles cla s.outgoingCla).flatMap fun b => s.output b cla
  output : ∀ b ∈ s.getForwardPendingBundles cla s.outgoingCla, ∃ p, (s.heap b).adu = some p ∧
    Partitions s.config.bundleSize.toNat p (s.output b cla) ∧
      ∀ tx ∈ s.output b cla, tx.bundle = b ∧ tx.cla = cla ∧ (s.header b).SameBundle tx.header
  sublist : t.mStore.Sublist s.mStore
  others : ∀ x ∈ s.mStore, x ∉ s.getForwardPendingBundles cla s.outgoingCla →
    x ∈ t.mStore ∧ t.heap x = s.heap x

/-- What is handed over of a bundle is its whole ADU. -/
theorem output_spec (cla : ClaId) (hadu : (s.heap b).adu = some p) (hm : s.config.bundleSize ≠ 0) :
    Partitions s.config.bundleSize.toNat p (s.output b cla) ∧
      ∀ tx ∈ s.output b cla, tx.bundle = b ∧ tx.cla = cla ∧ (s.header b).SameBundle tx.header := by
  rw [output_of_adu hadu]
  refine ⟨partitions_pieces hm, fun tx htx => ?_⟩
  obtain ⟨r, -, rfl⟩ := List.mem_map.mp htx
  exact ⟨rfl, rfl, sameBundle_stamp _ _ _ _⟩

theorem SentAll.drains (h : SentAll s (s.getForwardPendingBundles cla s.outgoingCla) cla t)
    (hadu : ∀ x ∈ s.mStore, (s.heap x).adu ≠ none) (hm : s.config.bundleSize ≠ 0) :
    Drains s cla t where
  waiting := by
    have hroute : t.outgoingCla = s.outgoingCla := by
      unfold outgoingCla
      rw [h.config]
    refine List.eq_nil_iff_forall_not_mem.mpr fun x hx => ?_
    obtain ⟨hmem, hflag, hdst⟩ := BundleStore.mem_getForwardPendingBundles.mp hx
    by_cases hlist : x ∈ s.getForwardPendingBundles cla s.outgoingCla
    · rw [h.flag x hlist] at hflag
      cases hflag
    · -- a bundle that was not sent is as it was
      have hheap := h.heap x hlist
      rw [hheap] at hflag
      rw [BundleStore.header_congr hheap, hroute] at hdst
      exact hlist (BundleStore.mem_getForwardPendingBundles.mpr
        ⟨(h.mem x hlist).mp hmem, hflag, hdst⟩)
  handed := h.handed
  output b hb := by
    obtain ⟨p, hp⟩ := Option.ne_none_iff_exists'.mp
      (hadu b (BundleStore.mem_getForwardPendingBundles.mp hb).1)
    exact ⟨p, hp, output_spec cla hp hm⟩
  sublist := h.sublist
  others x hx hlist := ⟨(h.mem x hlist).mpr hx, h.heap x hlist⟩

/-- A ready convergence layer is served, whatever the outcomes of the searches. -/
theorem exists_drains (hord : s.Ordered) (hadu : ∀ x ∈ s.mStore, (s.heap x).adu ≠ none)
    (hm : s.config.bundleSize ≠ 0) {cla : ClaId} (hready : s.config.isReady cla = true)
    (found : Ptr → Bool) : ∃ t, s.claReadyFound cla found = some t ∧ Drains s cla t := by
  have hwaiting : ∀ b ∈ s.getForwardPendingBundles cla s.outgoingCla,
      s.readyCla b = some cla ∧ (s.heap b).adu ≠ none := by
    intro b hb
    obtain ⟨hmem, -, hroute⟩ := BundleStore.mem_getForwardPendingBundles.mp hb
    exact ⟨Option.filter_eq_some_iff.mpr ⟨hroute, hready⟩, hadu b hmem⟩
  obtain ⟨t, ht, hsent⟩ := exists_forwardAllFound_sentAll found (hord.nodup.filter _)
    (fun b hb => (hwaiting b hb).1) (fun b hb => (hwaiting b hb).2) hm
  exact ⟨t, ht, hsent.drains hadu hm⟩

/-- What `ClaReady` does in an ordered store is what it does for some outcomes of the searches. -/
theorem exists_claReadyFound (hord : s.Ordered) {cla : ClaId} (hrun : s.claReady cla = some t) :
    ∃ found, s.claReadyFound cla found = some t :=
  exists_forwardAllFound (hord.nodup.filter _) hrun

/-- **`ClaReady` drains exactly the right bundles**: in every reachable state, whatever the outcomes of
the searches, each bundle that waits for the convergence layer is handed to it once, whole and in store
order, and the others stay as they are; and one that is not ready changes nothing. -/
theorem claReady_drains {s₀ : BpAgent6} {ops : List Op} (hinit : s₀.Initial)
    (hrun : Run Admissible step s₀ ops s) (hord : s.Ordered)
    (hadu : ∀ x ∈ s.mStore, (s.heap x).adu ≠ none) (hm : s.config.bundleSize ≠ 0) (cla : ClaId) :
    (s.config.isReady cla = true →
        (∀ found, ∃ t, s.claReadyFound cla found = some t ∧ Drains s cla t) ∧
          ∀ t, s.claReady cla = some t → ∃ found, s.claReadyFound cla found = some t) ∧
      (s.config.isReady cla = false → s.claReady cla = some s) := by
  refine ⟨fun hready => ⟨exists_drains hord hadu hm hready, fun t ht => exists_claReadyFound hord ht⟩,
    fun hready => ?_⟩
  exact forwardAll_of_not_ready (hinit.allDispatched hrun) hready fun _ hb => hb

/-- Two bundles wait for a link that comes up. -/
theorem claReady_drains_sample :
    ∃ s, Run Admissible step (Sample.agent 2 false)
      [.send 1 Sample.threeBytes (Sample.eid 98) (Sample.eid 97) 0 false 0,
        .send 2 Sample.threeBytes (Sample.eid 98) (Sample.eid 97) 0 true 0,
        .configure (Sample.config 2 true)] s ∧
      s.getForwardPendingBundles 0 s.outgoingCla = [1, 2] ∧
      ∀ found, ∃ t, s.claReadyFound 0 found = some t ∧ Drains s 0 t := by
  obtain ⟨s, hrun, htest⟩ := exists_run_of_exec Admissible step (Sample.agent 2 false)
    [.send 1 Sample.threeBytes (Sample.eid 98) (Sample.eid 97) 0 false 0,
      .send 2 Sample.threeBytes (Sample.eid 98) (Sample.eid 97) 0 true 0,
      .configure (Sample.config 2 true)]
    (fun s => decide (s.Ordered ∧ (∀ x ∈ s.mStore, (s.heap x).adu ≠ none) ∧
      s.config.bundleSize ≠ 0 ∧ s.config.isReady 0 = true ∧
      s.getForwardPendingBundles 0 s.outgoingCla = [1, 2])) (by decide +kernel)
  obtain ⟨hord, hadu, hm, hready, hwaiting⟩ := of_decide_eq_true htest
  have hdrains := claReady_drains (Sample.initial_agent 2 false) hrun hord hadu hm 0
  exact ⟨s, hrun, hwaiting, (hdrains.1 hready).1⟩

end BpAgent6
end BundleProtocol
