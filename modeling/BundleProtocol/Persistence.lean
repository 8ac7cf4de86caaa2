import BundleProtocol.Custody
import BundleProtocol.Expiry
import BundleProtocol.Serving
import BundleProtocol.StoreOrder

/-! # Custody is kept up

A stored bundle with custody that has been sent either waits for a convergence layer or is sent again
before long: exactly one retransmission of it is pending, due within the retransmission timeout
(`Attended`).  As the clock does not pass a pending event, the bundle is sent again by then or
has left the store (`retransmitted`).

That no other bundle cancels the retransmission rests on the event numbers, as in `Deadlines`.
Here nothing is said of expired bundles that are sent all the same.

The runs are those in which every forwarded bundle keeps its place in the store (`Prompted`).  In a
store that is out of order the search of `Remove` misses a bundle that it has already cleared of its
events, and such a bundle stays without being sent again.
-/
namespace BundleProtocol
open TransitionSystem FlagWord

/-- The bundle asks for custody, has been sent and does not wait for a convergence layer. -/
structure Bundle6.Entrusted (y : Bundle6) : Prop where
  custTxReq : y.primaryHeader.custTxReq = true
  dispatched : test y.retentionConstraints dispatchPending = false
  sent : test y.retentionConstraints forwardPending = false

instance (y : Bundle6) : Decidable y.Entrusted :=
  decidable_of_iff (y.primaryHeader.custTxReq = true ∧
      test y.retentionConstraints dispatchPending = false ∧
      test y.retentionConstraints forwardPending = false)
    ⟨fun h => ⟨h.1, h.2.1, h.2.2⟩, fun h => ⟨h.custTxReq, h.dispatched, h.sent⟩⟩

namespace BpAgent6
variable {s t u v : BpAgent6} {b q x : Ptr} {R : Time} {K E : Ptr → Prop} {W : ScheduledEvent → Prop}

/-- Every stored bundle that is entrusted to the agent is to be sent again within `R`, but for those of
`E`, and the events of `W` are pending as long as their bundles are stored.  No object of `K` can cancel
an event but its own. -/
structure Attended (R : Time) (K E : Ptr → Prop) (W : ScheduledEvent → Prop) (s : BpAgent6) : Prop where
  timers : s.LiveTimers True
  stored : ∀ x ∈ s.mStore, K x
  target : ∀ e ∈ s.sim.pending, K e.call.target
  owner : ∀ x, K x → s.Owner x
  pending : ∀ x ∈ s.mStore, (s.heap x).Entrusted → E x ∨ ∃ e ∈ s.sim.pending, e.call = .forward x
  watched : ∀ e, W e → e.call.target ∈ s.mStore → e ∈ s.sim.pending
  future : ∀ e ∈ s.sim.pending, s.sim.now ≤ e.ts
  due : ∀ e ∈ s.sim.pending, ∀ x, e.call = .forward x → e.ts ≤ s.sim.now + R
  ctRto : 0 ≤ s.config.ctRto ∧ s.config.ctRto ≤ R

/-! ## How the invariant moves -/

/-- Nothing is scheduled and nothing stored; what leaves is no event about a bundle that stays. -/
theorem Attended.of_subset (h : s.Attended R K E W) (htimers : t.LiveTimers True)
    (hpending : ∀ e ∈ t.sim.pending, e ∈ s.sim.pending)
    (hids : ∀ x, (t.heap x).expireEvent = (s.heap x).expireEvent ∧
      (t.heap x).nextRetrans = (s.heap x).nextRetrans)
    (huid : t.sim.nextUid = s.sim.nextUid) (hstore : ∀ x ∈ t.mStore, x ∈ s.mStore)
    (hentrusted : ∀ x ∈ t.mStore, (t.heap x).Entrusted → (s.heap x).Entrusted)
    (hkept : ∀ e ∈ s.sim.pending, e.call.target ∈ t.mStore → e ∈ t.sim.pending)
    (hclock : s.sim.now ≤ t.sim.now)
    (hnow : ∀ e ∈ t.sim.pending, t.sim.now ≤ s.sim.now ∨ t.sim.now ≤ e.ts)
    (hconfig : t.config = s.config) : t.Attended R K E W where
  timers := htimers
  stored x hx := h.stored x (hstore x hx)
  target e he := h.target e (hpending e he)
  owner x hx := (h.owner x hx).of_subset hpending huid (hids x).1 (hids x).2
  pending x hx hsent := by
    refine (h.pending x (hstore x hx) (hentrusted x hx hsent)).imp_right fun ⟨e, he, hcall⟩ => ?_
    refine ⟨e, hkept e he ?_, hcall⟩
    rwa [hcall]
  watched e he hmem := hkept e (h.watched e he (hstore _ hmem)) hmem
  future e he := by
    rcases hnow e he with hnow | hnow
    · exact Int.le_trans hnow (h.future e (hpending e he))
    · exact hnow
  due e he x hcall := Int.le_trans (h.due e (hpending e he) x hcall) (Int.add_le_add_right hclock R)
  ctRto := hconfig ▸ h.ctRto

/-- Only the logs and the counters change. -/
theorem Attended.of_memory (h : s.Attended R K E W) (hmemory : t.toMemory = s.toMemory)
    (hstore : t.mStore = s.mStore) (hconfig : t.config = s.config) : t.Attended R K E W := by
  have hsim : t.sim = s.sim := congrArg Memory.sim hmemory
  have hheap : t.heap = s.heap := congrArg Memory.heap hmemory
  refine h.of_subset (h.timers.of_heap hsim hstore fun _ _ _ _ haw => by rwa [hheap]) ?_ ?_ ?_ ?_ ?_
    ?_ ?_ ?_ hconfig
  · rw [hsim]
    exact fun _ he => he
  · rw [hheap]
    exact fun _ => ⟨rfl, rfl⟩
  · rw [hsim]
  · rw [hstore]
    exact fun _ hx => hx
  · rw [hheap]
    exact fun _ _ => id
  · rw [hsim]
    exact fun _ he _ => he
  · rw [hsim]
  · rw [hsim]
    exact fun _ _ => Or.inl (Int.le_refl _)

/-- A change of one bundle that keeps its events and entrusts nothing. -/
theorem Attended.modify (h : s.Attended R K E W) {f : Bundle6 → Bundle6}
    (htimers : (s.modify b f).LiveTimers True)
    (hids : ∀ y : Bundle6, (f y).expireEvent = y.expireEvent ∧ (f y).nextRetrans = y.nextRetrans)
    (hentrusted : ∀ y : Bundle6, (f y).Entrusted → y.Entrusted) : (s.modify b f).Attended R K E W := by
  refine h.of_subset htimers (fun _ he => he) (fun x => ?_) rfl (fun _ hx => hx) (fun x _ hsent => ?_)
    (fun _ he _ => he) (Int.le_refl _) (fun _ _ => Or.inl (Int.le_refl _)) rfl
  · exact ⟨field_heap_modify Bundle6.expireEvent (fun y => (hids y).1) s b x,
      field_heap_modify Bundle6.nextRetrans (fun y => (hids y).2) s b x⟩
  · exact rel_heap_modify (R := fun y z => z.Entrusted → y.Entrusted) (fun _ => id) (hentrusted _) x
      hsent

/-- A bundle object is made at a fresh address. -/
theorem Attended.placed (h : s.Attended R K E W) (hb : s.Fresh b) {y : Bundle6}
    (hexpire : y.expireEvent = none) (hretrans : y.nextRetrans = none) :
    (s.modify b fun _ => y).Attended R (fun x => K x ∨ x = b) E W := by
  have hother : ∀ x, x ≠ b → (s.modify b fun _ => y).heap x = s.heap x :=
    fun x hx => heap_modify_of_ne s hx _
  refine ⟨h.timers.modify_of_idle hb.idle _, fun x hx => Or.inl (h.stored x hx),
    fun e he => Or.inl (h.target e he), fun x hx => ?_, fun x hx hsent => ?_, h.watched, h.future, h.due,
    h.ctRto⟩
  · by_cases hxb : x = b
    · subst hxb
      refine ⟨fun e _ hid => ?_, fun e _ hid => ?_, fun id hid => ?_⟩
      · rw [heap_modify_self, hexpire] at hid
        cases hid
      · rw [heap_modify_self, hretrans] at hid
        cases hid
      · rw [heap_modify_self, hexpire, hretrans] at hid
        simp at hid
    · refine (h.owner x (hx.resolve_right hxb)).of_subset (fun _ he => he) rfl ?_ ?_
      · rw [hother x hxb]
      · rw [hother x hxb]
  · have hxb : x ≠ b := fun heq => hb.1 (heq ▸ hx)
    rw [hother x hxb] at hsent
    exact h.pending x hx hsent

/-- Storing a bundle that has not been sent, and that no watched event is about. -/
theorem Attended.storeNew (h : s.Attended R K E W) (hb : K b) (hnew : ∀ e, W e → e.call.target ≠ b)
    (hlive : ¬s.Expired b) (hheld : test (s.heap b).retentionConstraints dispatchPending = true) :
    (s.stored b).Attended R K E W := by
  have hmem : ∀ x ∈ (s.stored b).mStore, x = b ∨ x ∈ s.mStore :=
    fun x hx => BundleStore.mem_stored.mp hx
  have hnow : (s.stored b).sim.now = s.sim.now := s.toBundleStore.now_stored b
  have hstored : ∀ x ∈ (s.stored b).mStore, K x := by
    intro x hx
    rcases hmem x hx with rfl | hx
    · exact hb
    · exact h.stored x hx
  -- the new bundle is held, the others are as they were
  have hsent : ∀ x ∈ (s.stored b).mStore, ((s.stored b).heap x).Entrusted →
      x ∈ s.mStore ∧ (s.heap x).Entrusted := by
    intro x hx hentrusted
    obtain ⟨id, hid⟩ := s.toBundleStore.heap_stored b x
    have hold : (s.heap x).Entrusted := by
      have hfields : (s.stored b).heap x = { s.heap x with expireEvent := id } := hid
      rw [hfields] at hentrusted
      exact ⟨hentrusted.custTxReq, hentrusted.dispatched, hentrusted.sent⟩
    refine ⟨(hmem x hx).resolve_left fun heq => ?_, hold⟩
    subst heq
    rw [hold.dispatched] at hheld
    cases hheld
  by_cases hlife : (s.header b).lifeTime = 0
  · obtain ⟨-, hsim, hheap⟩ | ⟨hno, -⟩ := s.stored_cases b
    swap
    · exact absurd hlife hno
    refine ⟨h.timers.stored, hstored, hsim ▸ h.target, fun x hx => ?_, fun x hx hentrusted => ?_,
      fun e he hx => ?_, hsim ▸ h.future, hsim ▸ h.due, h.ctRto⟩
    · exact (h.owner x hx).of_subset (by simp [hsim]) (by rw [hsim]) (by rw [hheap]) (by rw [hheap])
    · obtain ⟨hx, hentrusted⟩ := hsent x hx hentrusted
      rw [hsim]
      exact h.pending x hx hentrusted
    · rw [hsim]
      exact h.watched e he ((hmem _ hx).resolve_left (hnew e he))
  · obtain ⟨-, hpending, -⟩ := stored_timed hlife
    refine ⟨h.timers.stored, hstored, fun e he => ?_, fun x hx => (h.owner x hx).stored h.timers hlife,
      fun x hx hentrusted => ?_, fun e he hx => ?_, fun e he => ?_, fun e he x hcall => ?_, h.ctRto⟩
    · rcases (hpending e).mp he with he | rfl
      · exact h.target e he
      · exact hb
    · obtain ⟨hx, hentrusted⟩ := hsent x hx hentrusted
      refine (h.pending x hx hentrusted).imp_right fun ⟨e, he, hcall⟩ => ?_
      exact ⟨e, (hpending e).mpr (Or.inl he), hcall⟩
    · exact (hpending e).mpr (Or.inl (h.watched e he ((hmem _ hx).resolve_left (hnew e he))))
    · rw [hnow]
      rcases (hpending e).mp he with he | rfl
      · exact h.future e he
      · exact BundleStore.le_deadline hlive hlife
    · rw [hnow]
      rcases (hpending e).mp he with he | rfl
      · exact h.due e he x hcall
      · cases hcall

/-! ## Removal -/

/-- Disposing of a bundle cancels no event about another. -/
theorem Owner.mem_discarded_of_target (h : s.Owner b) {e : ScheduledEvent} (he : e ∈ s.sim.pending)
    (hne : e.call.target ≠ b) : e ∈ (s.discarded b).sim.pending := by
  have hexpire : some e.uid ≠ (s.heap b).expireEvent := by
    intro hid
    exact hne (congrArg Callback.target (h.expireEvent e he hid.symm))
  have hretrans : some e.uid ≠ (s.heap b).nextRetrans := by
    intro hid
    exact hne (congrArg Callback.target (h.nextRetrans e he hid.symm))
  refine Memory.mem_pending_doDispose.mpr ⟨?_, fun _ => hexpire, fun _ => hretrans⟩
  exact Memory.mem_pending_clearEvents.mpr ⟨he, fun _ => hexpire, fun _ => hretrans⟩

/-- A bundle is taken out of the store, and disposed of or not. -/
theorem Attended.removed (h : s.Attended R K E W) (hb : K b) (hord : s.Ordered) :
    (s.removed b).Attended R K E W := by
  refine h.of_subset (h.timers.removed (fun _ => Or.inr) hord)
    (fun e he => (Memory.pending_clearEvents_sublist _ _).subset he) (fun x => ⟨rfl, rfl⟩)
    (Memory.nextUid_clearEvents _ _) (fun x hx => (BundleStore.Ordered.mem_removed hord |>.mp hx).2)
    (fun x _ => id) (fun e he hmem => ?_) (Int.le_of_eq (Memory.now_clearEvents _ _).symm)
    (fun _ _ => Or.inl (Int.le_of_eq (Memory.now_clearEvents _ _))) rfl
  have hne : e.call.target ≠ b := (BundleStore.Ordered.mem_removed hord |>.mp hmem).1
  exact (Memory.pending_doDispose_sublist _ _).subset ((h.owner b hb).mem_discarded_of_target he hne)

theorem Attended.discarded (h : s.Attended R K E W) (hb : K b) (hord : s.Ordered) :
    (s.discarded b).Attended R K E W := by
  have hmem : ∀ x ∈ (s.discarded b).mStore, x ≠ b ∧ x ∈ s.mStore :=
    fun x hx => (BundleStore.Ordered.mem_removed hord).mp hx
  have hclock : (s.discarded b).sim.now = s.sim.now :=
    (Memory.now_doDispose _ _).trans (Memory.now_clearEvents _ _)
  refine h.of_subset (h.timers.discarded (fun _ => Or.inr) hord) (fun e he => ?_) (fun x => ?_)
    ((Memory.nextUid_doDispose _ _).trans (Memory.nextUid_clearEvents _ _))
    (fun x hx => (hmem x hx).2) (fun x hx hsent => ?_)
    (fun e he hx => (h.owner b hb).mem_discarded_of_target he (hmem _ hx).1)
    (Int.le_of_eq hclock.symm) (fun _ _ => Or.inl (Int.le_of_eq hclock)) rfl
  · exact (Memory.pending_clearEvents_sublist _ _).subset
      ((Memory.pending_doDispose_sublist _ _).subset he)
  · by_cases hxb : x = b
    · subst hxb
      have hself : (s.discarded x).heap x = { s.heap x with adu := none, acks := [] } :=
        Function.update_self ..
      rw [hself]
      exact ⟨rfl, rfl⟩
    · rw [heap_discarded_of_ne s hxb]
      exact ⟨rfl, rfl⟩
  · rwa [heap_discarded_of_ne s (hmem x hx).1] at hsent

/-! ## Forwarding -/

/-- A bundle that `Forward` marks waits for a convergence layer. -/
theorem flag_flagged (s : BpAgent6) (b : Ptr) :
    test ((s.flagged b).heap b).retentionConstraints forwardPending = true := by
  have hwaits : ∀ word : UInt32,
      test ((word ||| forwardPending) &&& ~~~dispatchPending) forwardPending = true := by
    intro word
    have hdisjoint : dispatchPending &&& forwardPending = 0 := by decide
    have hset : test (word ||| forwardPending) forwardPending = true :=
      test_assign_self true (show forwardPending ≠ 0 by decide)
    rwa [test, and_not_and_of_disjoint hdisjoint, ← test]
  rw [flagged, heap_modify_self, hwaits]

theorem Attended.flagged (h : s.Attended R K E W) (hidle : s.Idle b) :
    (s.flagged b).Attended R K (fun x => E x ∧ x ≠ b) W := by
  have hother : ∀ x, x ≠ b → (s.flagged b).heap x = s.heap x := fun x hx => heap_modify_of_ne s hx _
  refine ⟨h.timers.modify_of_idle hidle _, h.stored, h.target, fun x hx => ?_, fun x hx hsent => ?_,
    h.watched, h.future, h.due, h.ctRto⟩
  · refine (h.owner x hx).of_subset (fun _ he => he) rfl ?_ ?_
    · refine field_heap_modify Bundle6.expireEvent (fun _ => ?_) s b x
      rfl
    · refine field_heap_modify Bundle6.nextRetrans (fun _ => ?_) s b x
      rfl
  · have hxb : x ≠ b := by
      rintro rfl
      have hflag := s.flag_flagged x
      rw [hsent.sent] at hflag
      cases hflag
    rw [hother x hxb] at hsent
    exact (h.pending x hx hsent).imp_left fun hexcuse => ⟨hexcuse, hxb⟩

/-- What `Forward` sends with custody has its retransmission scheduled. -/
theorem Attended.sent (h : s.Attended R K E W) (hb : K b) (hidle : s.Idle b) {cla : ClaId} {adu : Packet}
    (hm : s.config.bundleSize ≠ 0 ∨ adu.size = 0) :
    (s.sent b cla adu).Attended R K (fun x => E x ∧ x ≠ b) W := by
  have htimers : (s.sent b cla adu).LiveTimers True :=
    (h.timers.sent hidle hm).of_sublist (List.Sublist.refl _) rfl
      fun _ _ _ _ _ haw => ⟨Or.inl trivial, haw⟩
  have hbundle := s.sentBundle b cla hm
  have hsim := s.sim_sent b cla adu
  obtain ⟨hstore, -, hconfig, -⟩ := s.rest_sent b cla adu
  have hexpire : ∀ x, ((s.sent b cla adu).heap x).expireEvent = (s.heap x).expireEvent :=
    expireEvent_sent hm
  -- the other bundles are as they were
  have hother : ∀ x, ((s.sent b cla adu).heap x).Entrusted → x ≠ b → (s.heap x).Entrusted := by
    intro x hsent hxb
    rwa [heap_sent_of_ne hxb] at hsent
  cases hcust : (s.header b).custTxReq with
  | false =>
    rw [hcust, if_neg Bool.false_ne_true] at hsim
    have hretrans : ∀ x, ((s.sent b cla adu).heap x).nextRetrans = (s.heap x).nextRetrans := by
      refine field_heap_sent Bundle6.nextRetrans ?_
      rw [hbundle.nextRetrans]
      exact if_neg (by rw [show (s.heap b).primaryHeader.custTxReq = false from hcust]; decide)
    refine ⟨htimers, hstore ▸ h.stored, hsim ▸ h.target, fun x hx => ?_, fun x hx hsent => ?_,
      by rw [hstore, hsim]; exact h.watched, hsim ▸ h.future, hsim ▸ h.due, hconfig ▸ h.ctRto⟩
    · exact (h.owner x hx).of_subset (by simp [hsim]) (by rw [hsim]) (hexpire x) (hretrans x)
    · have hxb : x ≠ b := by
        rintro rfl
        have hwants := hsent.custTxReq
        rw [hbundle.header.custTxReq, show (s.heap x).primaryHeader.custTxReq = false from hcust] at hwants
        cases hwants
      rw [hstore] at hx
      rw [hsim]
      exact (h.pending x hx (hother x hsent hxb)).imp_left fun hexcuse => ⟨hexcuse, hxb⟩
  | true =>
    rw [hcust, if_pos rfl] at hsim
    have hmem : ∀ e, e ∈ (s.sent b cla adu).sim.pending ↔ e ∈ s.sim.pending ∨
        e = ⟨s.sim.nextUid, s.sim.now + s.config.ctRto, .forward b⟩ := by
      intro e
      rw [hsim, Simulator.mem_pending_schedule]
    have hnow : (s.sent b cla adu).sim.now = s.sim.now := by
      rw [hsim]
      rfl
    refine ⟨htimers, hstore ▸ h.stored, fun e he => ?_, fun x hx => ?_, fun x hx hsent => ?_,
      fun e he hx => ?_, fun e he => ?_, fun e he x hcall => ?_, hconfig ▸ h.ctRto⟩
    · rcases (hmem e).mp he with he | rfl
      · exact h.target e he
      · exact hb
    · refine (h.owner x hx).of_schedule hsim h.timers.uid_lt (Or.inl (hexpire x)) ?_
      by_cases hxb : x = b
      · subst hxb
        refine Or.inr ⟨?_, rfl⟩
        rw [hbundle.nextRetrans]
        exact if_pos hcust
      · exact Or.inl (by rw [heap_sent_of_ne hxb])
    · by_cases hxb : x = b
      · subst hxb
        exact Or.inr ⟨_, (hmem _).mpr (Or.inr rfl), rfl⟩
      · rw [hstore] at hx
        rcases h.pending x hx (hother x hsent hxb) with hexcuse | ⟨e, he, hcall⟩
        · exact Or.inl ⟨hexcuse, hxb⟩
        · exact Or.inr ⟨e, (hmem e).mpr (Or.inl he), hcall⟩
    · rw [hstore] at hx
      exact (hmem e).mpr (Or.inl (h.watched e he hx))
    · rw [hnow]
      rcases (hmem e).mp he with he | rfl
      · exact h.future e he
      · exact Int.le_add_of_nonneg_right h.ctRto.1
    · rw [hnow]
      rcases (hmem e).mp he with he | rfl
      · exact h.due e he x hcall
      · exact Int.add_le_add_left h.ctRto.2 _

/-- **`Forward`** sees to the retransmission of its bundle. -/
theorem Attended.forward (h : s.Attended R K E W) (hb : K b) (hidle : s.Idle b)
    (hrun : s.forward b = some t) : t.Attended R K (fun x => E x ∧ x ≠ b) W := by
  rcases forward_eq_some.mp hrun with ⟨-, rfl⟩ | ⟨cla, adu, -, -, hm, hcase⟩
  · exact h.flagged hidle
  · have hsent : (s.sent b cla adu).Attended R K (fun x => E x ∧ x ≠ b) W := h.sent hb hidle hm
    rcases hcase with ⟨-, rfl⟩ | ⟨-, hord, rfl⟩
    · exact hsent
    · exact hsent.discarded hb hord

/-- Where no bundle is excused. -/
abbrev AllAttended (R : Time) (K : Ptr → Prop) (W : ScheduledEvent → Prop) (s : BpAgent6) : Prop :=
  s.Attended R K (fun _ => False) W

theorem AllAttended.forward (h : s.AllAttended R K W) (hb : K b) (hidle : s.Idle b)
    (hrun : s.forward b = some t) : t.AllAttended R K W := by
  have ht := Attended.forward h hb hidle hrun
  exact { ht with pending := fun x hx hsent => (ht.pending x hx hsent).imp_left And.left }

/-! ## The operations -/

theorem deliveryClosedOn_attended {K' : Ptr → Prop} (hK : ∀ x, K' x → K x) :
    DeliveryClosedOn K' (AllAttended R K W) where
  delivered h := h.of_memory rfl rfl rfl
  withAdu _ h := h.modify (deliveryClosed_liveTimers.withAdu h.timers) (fun _ => ⟨rfl, rfl⟩)
    fun _ hsent => ⟨hsent.custTxReq, hsent.dispatched, hsent.sent⟩
  acked _ h := h.modify (deliveryClosed_liveTimers.acked h.timers) (fun _ => ⟨rfl, rfl⟩)
    fun _ hsent => ⟨hsent.custTxReq, hsent.dispatched, hsent.sent⟩
  markWhole _ h := h.modify (deliveryClosed_liveTimers.markWhole h.timers) (fun _ => ⟨rfl, rfl⟩)
    fun y hsent => ⟨(y.primaryHeader.custTxReq_setIsFragment false).symm.trans hsent.custTxReq,
      hsent.dispatched, hsent.sent⟩
  removed hx h hord := h.removed (hK _ hx) hord
  discarded hx h hord := h.discarded (hK _ hx) hord

section Operations
variable {p : Packet} {src dst : BpEndpointId} {lifetime : Time} {custody : Bool} {priority : UInt32}
  {code : ℤ} {rx : ReceivedBundle}

theorem AllAttended.send (h : s.AllAttended R K W) (hb : s.Fresh b)
    (hnew : ∀ e, W e → e.call.target ≠ b)
    (hrun : s.send b p src dst lifetime custody priority = some (t, code)) :
    ∃ K', t.AllAttended R K' W := by
  rcases send_eq_some.mp hrun with ⟨-, rfl, -⟩ | ⟨-, u, hu, hforward, -⟩
  · exact ⟨K, h⟩
  · obtain ⟨hdr, -, hcase⟩ := createBundle_eq_some.mp hu
    have hself : (s.created b hdr p custody).heap b = createdBundle hdr p custody :=
      heap_modify_self s b _
    have hplaced : (s.created b hdr p custody).AllAttended R (fun y => K y ∨ y = b) W :=
      (h.placed hb (y := createdBundle hdr p custody) rfl rfl).of_memory rfl rfl rfl
    have hcreated : u.AllAttended R (fun y => K y ∨ y = b) W := by
      rcases hcase with ⟨-, rfl⟩ | ⟨hlive, -, rfl⟩
      · exact hplaced
      · refine hplaced.storeNew (Or.inr rfl) hnew hlive ?_
        rw [hself]
        cases custody
        · exact show test dispatchPending dispatchPending = true by decide
        · exact show test (dispatchPending ||| custodyAccepted) dispatchPending = true by decide
    exact ⟨_, hcreated.forward (Or.inr rfl) (idle_createBundle hb hu) hforward⟩

theorem AllAttended.acceptBundle (h : s.AllAttended R K W) (hb : s.Fresh b)
    (hnew : ∀ e, W e → e.call.target ≠ b) (hrun : s.acceptBundle b rx = some t) :
    t.AllAttended R (fun y => K y ∨ y = b) W := by
  have hself : (s.arrived b rx).heap b = arrivedBundle rx := heap_modify_self s b _
  have hplaced : (s.arrived b rx).AllAttended R (fun y => K y ∨ y = b) W :=
    h.placed hb (y := arrivedBundle rx) rfl rfl
  rcases acceptBundle_eq_some.mp hrun with ⟨-, rfl⟩ | ⟨hlive, -, rfl⟩
  · exact hplaced
  · refine hplaced.storeNew (Or.inr rfl) hnew hlive ?_
    rw [hself]
    exact show test dispatchPending dispatchPending = true by decide

theorem AllAttended.processBundle (h : s.AllAttended R K W) (hb : s.Fresh b) (hq : s.Fresh q)
    (hne : b ≠ q) (hnew : ∀ e, W e → e.call.target ≠ b ∧ e.call.target ≠ q)
    (hrun : s.processBundle b q rx = some t) : ∃ K', t.AllAttended R K' W := by
  obtain ⟨u, hu, hcase⟩ := processBundle_eq_some.mp hrun
  have haccepted := h.acceptBundle hb (fun e he => (hnew e he).1) hu
  rcases hcase with ⟨-, hdeliver⟩ | ⟨-, hforward⟩
  · rcases deliver_eq_some.mp hdeliver with ⟨-, rfl⟩ | ⟨state, v, -, hv, hcase⟩
    · exact ⟨_, haccepted⟩
    · have henqueued : v.AllAttended R (fun y => K y ∨ y = b) W :=
        (deliveryClosedOn_attended fun _ => id).enqueueIfActive haccepted.stored (Or.inr rfl)
          haccepted hv
      rcases hcase with ⟨-, rfl⟩ | ⟨-, hsignal⟩
      · exact ⟨_, henqueued⟩
      · obtain ⟨cs, p, code, -, hsend⟩ := sendCustodySignal_eq_some.mp hsignal
        have hlogged : (v.signalLogged b cs).AllAttended R (fun y => K y ∨ y = b) W :=
          henqueued.of_memory rfl rfl rfl
        have hfresh : v.Fresh q := fresh_enqueued hq hne hu hv
        exact hlogged.send hfresh (fun e he => (hnew e he).2) hsend
  · exact ⟨_, haccepted.forward (Or.inr rfl) (h.timers.acceptBundle hb hu).2 hforward⟩

/-- Forwarding waiting bundles one after another. -/
theorem AllAttended.forwardAll {l : List Ptr} (h : s.AllAttended R K W) (hnodup : l.Nodup)
    (hwaiting : ∀ x ∈ l, s.Waiting x) (hrun : s.forwardAll l = some t) : t.AllAttended R K W := by
  induction l generalizing s with
  | nil =>
    cases hrun
    exact h
  | cons b l ih =>
    obtain ⟨u, hu, hrest⟩ := Option.bind_eq_some_iff.mp hrun
    obtain ⟨hb, hl⟩ := List.nodup_cons.mp hnodup
    obtain ⟨hstored, hflag⟩ := hwaiting b List.mem_cons_self
    refine ih (h.forward (h.stored b hstored) (h.timers.idle hflag) hu) hl (fun x hx => ?_) hrest
    have hxb : x ≠ b := fun heq => hb (heq ▸ hx)
    exact (hwaiting x (List.mem_cons_of_mem b hx)).forward hxb hu

/-- The simulator takes an event: the bundle that it sends again is excused until it has been sent. -/
theorem Attended.popEvent (h : s.Attended R K E W) {e : ScheduledEvent} (he : e ∈ s.sim.pending)
    (hfirst : ∀ e' ∈ s.sim.pending, e.ts ≤ e'.ts) :
    (s.popEvent e).Attended R K (fun x => E x ∨ e.call = .forward x) fun e' => W e' ∧ e' ≠ e := by
  have hsub : ∀ e' ∈ (s.popEvent e).sim.pending, e' ∈ s.sim.pending :=
    fun e' he' => List.mem_of_mem_erase he'
  refine ⟨(h.timers.popEvent he).1, h.stored, fun e' he' => h.target e' (hsub e' he'),
    fun x hx => (h.owner x hx).of_subset hsub rfl rfl rfl, fun x hx hsent => ?_,
    fun e' he' hx => (List.mem_erase_of_ne he'.2).mpr (h.watched e' he'.1 hx),
    fun e' he' => hfirst e' (hsub e' he'), fun e' he' x hcall => ?_, h.ctRto⟩
  · rcases h.pending x hx hsent with hexcuse | ⟨e', he', hcall⟩
    · exact Or.inl (Or.inl hexcuse)
    · by_cases heq : e' = e
      · exact Or.inl (Or.inr (heq ▸ hcall))
      · exact Or.inr ⟨e', (List.mem_erase_of_ne heq).mpr he', hcall⟩
  · exact Int.le_trans (h.due e' (hsub e' he') x hcall) (Int.add_le_add_right (h.future e he) R)

end Operations

/-- The agent is configured to retransmit within `R`. -/
def Prompt (R : Time) : Op → Prop
  | .configure config => 0 ≤ config.ctRto ∧ config.ctRto ≤ R
  | _ => True

instance (R : Time) : (op : Op) → Decidable (Prompt R op)
  | .configure config => inferInstanceAs (Decidable (0 ≤ config.ctRto ∧ config.ctRto ≤ R))
  | .send .. => isTrue trivial
  | .processBundle .. => isTrue trivial
  | .claReady _ => isTrue trivial
  | .receive _ => isTrue trivial
  | .fire _ => isTrue trivial
  | .advance _ => isTrue trivial

/-- The events about stored bundles, but for the one that is run. -/
def Upcoming (s : BpAgent6) (op : Op) (e : ScheduledEvent) : Prop :=
  e ∈ s.sim.pending ∧ e.call.target ∈ s.mStore ∧ op ≠ .fire e

/-- The clock and the configuration alone change. -/
theorem Attended.of_clock (h : s.Attended R K E W) {now : Time} {config : Config}
    (hnow : s.sim.now ≤ now ∧ ∀ e ∈ s.sim.pending, now ≤ e.ts)
    (hconfig : 0 ≤ config.ctRto ∧ config.ctRto ≤ R) :
    Attended R K E W { s with sim := { s.sim with now := now }, config := config } where
  timers := h.timers.of_sublist (List.Sublist.refl _) rfl fun _ _ _ _ hlx haw => ⟨hlx, haw⟩
  stored := h.stored
  target := h.target
  owner x hx := (h.owner x hx).of_subset (fun _ he => he) rfl rfl rfl
  pending := h.pending
  watched := h.watched
  future := hnow.2
  due e he x hcall := Int.le_trans (h.due e he x hcall) (Int.add_le_add_right hnow.1 R)
  ctRto := hconfig

/-- **One operation**: what was expected is still, unless its bundle has left the store. -/
theorem AllAttended.step {op : Op} (h : s.AllAttended R K W) (hnodup : s.mStore.Nodup)
    (hop : s.Admissible op) (hprompt : Prompt R op) (hstep : BpAgent6.step op s = some t) :
    ∃ K', t.AllAttended R K' (s.Upcoming op) := by
  -- what is pending now is watched
  have hwatch : s.AllAttended R K (s.Upcoming op) :=
    { h with watched := fun e he _ => he.1 }
  have hnew : ∀ {y}, s.Fresh y → ∀ e, s.Upcoming op e → e.call.target ≠ y :=
    fun hy e he heq => hy.1 (heq ▸ he.2.1)
  cases op with
  | send b p src dst lifetime custody priority =>
    obtain ⟨⟨u, code⟩, hu, rfl⟩ := Option.map_eq_some_iff.mp hstep
    exact hwatch.send hop (hnew hop) hu
  | processBundle b q rx =>
    obtain ⟨hb, hq, hne⟩ := hop
    exact hwatch.processBundle hb hq hne (fun e he => ⟨hnew hb e he, hnew hq e he⟩) hstep
  | claReady cla =>
    exact ⟨K, hwatch.forwardAll (hnodup.filter _) (waiting_of_mem cla s.outgoingCla) hstep⟩
  | receive eid =>
    obtain ⟨⟨u, p⟩, hu, rfl⟩ := Option.map_eq_some_iff.mp hstep
    rcases receive_eq_some.mp hu with ⟨-, rfl, -⟩ | ⟨b, adu, hb, hord, -, -, rfl⟩
    · exact ⟨K, hwatch⟩
    · have hdiscarded := hwatch.discarded (h.stored b (List.mem_of_find?_eq_some hb)) hord
      exact ⟨K, hdiscarded.of_memory rfl rfl rfl⟩
  | fire e =>
    obtain ⟨he, hfirst⟩ := hop
    have hpopped := hwatch.popEvent he hfirst
    have hexpected : ∀ e', s.Upcoming (.fire e) e' → s.Upcoming (.fire e) e' ∧ e' ≠ e :=
      fun e' he' => ⟨he', fun heq => he'.2.2 (congrArg Op.fire heq.symm)⟩
    have htarget := h.target e he
    cases hcall : e.call with
    | expire b =>
      rw [BpAgent6.step, hcall] at hstep
      rw [hcall] at htarget hpopped
      obtain ⟨hord, -, rfl⟩ := expire_eq_some.mp hstep
      have hdiscarded := hpopped.discarded htarget hord
      refine ⟨K, { hdiscarded with
        pending := fun x hx hsent => (hdiscarded.pending x hx hsent).imp_left ?_
        watched := fun e' he' => hdiscarded.watched e' (hexpected e' he') }⟩
      rintro (hno | hno)
      · exact hno
      · cases hno
    | forward b =>
      rw [BpAgent6.step, hcall] at hstep
      rw [hcall] at htarget hpopped
      have hforwarded := hpopped.forward htarget ((h.timers.popEvent he).2 b hcall) hstep
      refine ⟨K, { hforwarded with
        pending := fun x hx hsent => (hforwarded.pending x hx hsent).imp_left ?_
        watched := fun e' he' => hforwarded.watched e' (hexpected e' he') }⟩
      rintro ⟨hno | hself, hxb⟩
      · exact hno
      · exact hxb (Callback.forward.inj hself).symm
  | advance now =>
    cases hstep
    exact ⟨K, hwatch.of_clock hop h.ctRto⟩
  | configure config =>
    cases hstep
    exact ⟨K, hwatch.of_clock ⟨Int.le_refl _, h.future⟩ hprompt⟩

theorem Initial.allAttended (h : s.Initial) (hrto : 0 ≤ s.config.ctRto ∧ s.config.ctRto ≤ R) :
    s.AllAttended R (fun _ => False) fun _ => False := by
  refine ⟨h.liveTimers, ?_, ?_, ?_, ?_, ?_, ?_, ?_, hrto⟩
  · simp [h.mStore]
  · simp [h.pending]
  · rintro x ⟨⟩
  · simp [h.mStore]
  · rintro e ⟨⟩
  · simp [h.pending]
  · simp [h.pending]

/-! ## Runs -/

/-- What may happen to an agent that is configured to retransmit within `R`; the bundles it forwards
keep their places. -/
abbrev Prompted (R : Time) (s : BpAgent6) (op : Op) : Prop := s.OrderedOp op ∧ Prompt R op

/-- The runs of such an agent. -/
abbrev PromptRun (R : Time) : BpAgent6 → List Op → BpAgent6 → Prop := Run (Prompted R) BpAgent6.step

theorem attended_of_run {ops : List Op} (hinit : s.Initial)
    (hrto : 0 ≤ s.config.ctRto ∧ s.config.ctRto ≤ R) (hrun : PromptRun R s ops t) :
    (∃ K, t.AllAttended R K fun _ => False) ∧ t.mStore.Nodup := by
  refine hrun.invariant (fun s => (∃ K, s.AllAttended R K fun _ => False) ∧ s.mStore.Nodup) ?_
    ⟨⟨_, hinit.allAttended hrto⟩, ?_⟩
  · rintro s op t ⟨⟨K, h⟩, hnodup⟩ ⟨hordered, hprompt⟩ hstep
    obtain ⟨K', ht⟩ := h.step hnodup hordered.admissible hprompt hstep
    exact ⟨⟨K', { ht with watched := fun _ hno => hno.elim }⟩,
      nodup_step hnodup hordered.admissible hstep⟩
  · rw [hinit.mStore]
    exact List.nodup_nil

/-- **Custody is kept up**: in every state that an agent reaches, a stored bundle with custody that has
been sent and does not wait for a convergence layer has exactly one retransmission pending, and
it is due within the retransmission timeout. -/
theorem custody_kept_up {ops : List Op} (hinit : s.Initial)
    (hrto : 0 ≤ s.config.ctRto ∧ s.config.ctRto ≤ R) (hrun : PromptRun R s ops t)
    (hx : x ∈ t.mStore) (hsent : (t.heap x).Entrusted) :
    ∃ e ∈ t.sim.pending, e.call = .forward x ∧ t.sim.now ≤ e.ts ∧ e.ts ≤ t.sim.now + R ∧
      ∀ e' ∈ t.sim.pending, e'.call = .forward x → e' = e := by
  obtain ⟨⟨K, h⟩, -⟩ := attended_of_run hinit hrto hrun
  obtain ⟨e, he, hcall⟩ := (h.pending x hx hsent).resolve_left id
  exact ⟨e, he, hcall, h.future e he, h.due e he x hcall,
    fun e' he' hcall' => h.timers.eq_of_forward he' he hcall' hcall⟩

/-- Two custody bundles are sent, the second in two pieces beside the first: it is to be sent again
within a second. -/
theorem custody_kept_up_sample :
    let first := Op.send 1 ⟨[10], by decide⟩ (Sample.eid 98) (Sample.eid 97) 0 true 0
    let second := Op.send 2 ⟨[11, 12], by decide⟩ (Sample.eid 98) (Sample.eid 97) 0 true 0
    ∃ t, PromptRun (seconds 1) (Sample.agent 1 true) [first, second] t ∧ t.mStore = [1, 2] ∧
      ∃ e ∈ t.sim.pending, e.call = .forward 2 ∧ t.sim.now ≤ e.ts ∧ e.ts ≤ t.sim.now + seconds 1 ∧
        ∀ e' ∈ t.sim.pending, e'.call = .forward 2 → e' = e := by
  intro first second
  obtain ⟨t, hrun, htest⟩ := exists_run_of_exec (Prompted (seconds 1)) step (Sample.agent 1 true)
    [first, second] (fun t => decide (t.mStore = [1, 2] ∧ (t.heap 2).Entrusted)) (by decide +kernel)
  obtain ⟨hstore, hsent⟩ := of_decide_eq_true htest
  exact ⟨t, hrun, hstore, custody_kept_up (Sample.initial_agent 1 true) (by decide) hrun
    (hstore ▸ by decide) hsent⟩

/-- As long as a pending event is neither run nor its bundle leaves the store, it stays pending. -/
theorem still_pending {ops : List Op} {e : ScheduledEvent} (h : s.AllAttended R K fun _ => False)
    (hnodup : s.mStore.Nodup) (hrun : PromptRun R s ops t) (he : e ∈ s.sim.pending)
    (hmem : e.call.target ∈ s.mStore) :
    (e ∈ t.sim.pending ∧ t.sim.now ≤ e.ts) ∨
      (∃ before after v w, ops = before ++ .fire e :: after ∧ PromptRun R s before v ∧
        e.call.target ∈ v.mStore ∧ BpAgent6.step (.fire e) v = some w) ∨
      ∃ before after v, ops = before ++ after ∧ PromptRun R s before v ∧ e.call.target ∉ v.mStore := by
  induction hrun generalizing K with
  | nil s => exact Or.inl ⟨he, h.future e he⟩
  | @cons s u t op ops hguard hstep hrest ih =>
    have hadmissible := hguard.1.admissible
    obtain ⟨K', hu⟩ := h.step hnodup hadmissible hguard.2 hstep
    by_cases hfired : op = .fire e
    · subst hfired
      exact Or.inr (Or.inl ⟨[], ops, s, u, rfl, .nil s, hmem, hstep⟩)
    by_cases hleft : e.call.target ∈ u.mStore
    swap
    · exact Or.inr (Or.inr ⟨[op], ops, u, rfl, .cons hguard hstep (.nil u), hleft⟩)
    have he' : e ∈ u.sim.pending := hu.watched e ⟨he, hmem, hfired⟩ hleft
    rcases ih { hu with watched := fun _ hno => hno.elim } (nodup_step hnodup hadmissible hstep) he' hleft
      with hstill | ⟨before, after, v, w, rfl, hbefore, hfire⟩ | ⟨before, after, v, rfl, hbefore, hgone⟩
    · exact Or.inl hstill
    · exact Or.inr (Or.inl ⟨op :: before, after, v, w, rfl, .cons hguard hstep hbefore, hfire⟩)
    · exact Or.inr (Or.inr ⟨op :: before, after, v, rfl, .cons hguard hstep hbefore, hgone⟩)

/-- What a retransmission of the bundle comes to: no convergence layer is ready and the bundle waits,
or its whole ADU is handed over again. -/
def Resent (s : BpAgent6) (x : Ptr) (t : BpAgent6) : Prop :=
  (s.readyCla x = none ∧ t.Waiting x) ∨
    ∃ cla p, s.readyCla x = some cla ∧ (s.heap x).adu = some p ∧
      t.handed = s.handed ++ s.output x cla ∧
      ((s.output x cla).map fun tx => tx.payload.bytes).flatten = p.bytes

theorem resent_of_forward (hx : x ∈ s.mStore) (hrun : s.forward x = some t) : s.Resent x t := by
  rcases forward_eq_some.mp hrun with ⟨hnone, rfl⟩ | ⟨cla, p, hcla, hadu, hm, hcase⟩
  · exact Or.inl ⟨hnone, hx, bne_iff_ne.mp (s.flag_flagged x)⟩
  · have hhanded : t.handed = s.handed ++ s.output x cla := by
      rw [output_of_adu hadu, ← handed_sent]
      rcases hcase with ⟨-, rfl⟩ | ⟨-, -, rfl⟩
      · rfl
      · rfl
    refine Or.inr ⟨cla, p, hcla, hadu, hhanded, ?_⟩
    rcases hm with hm | hempty
    · exact (output_spec cla hadu hm).1.payloads
    · rw [output_of_adu hadu, pieces, hempty, Tiling.chunks_zero]
      exact (List.length_eq_zero_iff.mp hempty).symm

/-- **A custodian sends again in time**: when a stored bundle with custody has been sent and does not
wait for a convergence layer, then within the retransmission timeout it is sent again or has left
the store, whatever else the agent does. -/
theorem retransmitted {ops ops' : List Op} (hinit : s.Initial)
    (hrto : 0 ≤ s.config.ctRto ∧ s.config.ctRto ≤ R) (hrun : PromptRun R s ops u)
    (hx : x ∈ u.mStore) (hsent : (u.heap x).Entrusted) (hrun' : PromptRun R u ops' t)
    (hlate : u.sim.now + R < t.sim.now) :
    (∃ before e after v w, ops' = before ++ .fire e :: after ∧ PromptRun R u before v ∧
      e.ts ≤ u.sim.now + R ∧ BpAgent6.step (.fire e) v = some w ∧ (v.popEvent e).Resent x w) ∨
      ∃ before after v, ops' = before ++ after ∧ PromptRun R u before v ∧ x ∉ v.mStore := by
  obtain ⟨⟨K, h⟩, hnodup⟩ := attended_of_run hinit hrto hrun
  obtain ⟨e, he, hcall, -, hdue, -⟩ := custody_kept_up hinit hrto hrun hx hsent
  have htarget : e.call.target = x := by
    rw [hcall]
    rfl
  rcases still_pending h hnodup hrun' he (htarget ▸ hx) with
    ⟨-, hnow⟩ | ⟨before, after, v, w, hops, hbefore, hmem, hfire⟩ | ⟨before, after, v, hops, hbefore,
      hgone⟩
  · exact absurd (Int.le_trans hnow hdue) (Int.not_le.mpr hlate)
  · refine Or.inl ⟨before, e, after, v, w, hops, hbefore, hdue, hfire, ?_⟩
    rw [BpAgent6.step, hcall] at hfire
    exact resent_of_forward (s := v.popEvent e) (htarget ▸ hmem) hfire
  · exact Or.inr ⟨before, after, v, hops, hbefore, htarget ▸ hgone⟩

/-- Two custody bundles are sent, and sent again after a second. -/
theorem retransmitted_sample :
    let first := Op.send 1 ⟨[10], by decide⟩ (Sample.eid 98) (Sample.eid 97) 0 true 0
    let second := Op.send 2 ⟨[11, 12], by decide⟩ (Sample.eid 98) (Sample.eid 97) 0 true 0
    let further := [Op.fire ⟨0, seconds 1, .forward 1⟩, .fire ⟨1, seconds 1, .forward 2⟩,
      .advance 1500000000]
    ∃ u t, PromptRun (seconds 1) (Sample.agent 1 true) [first, second] u ∧ u.mStore = [1, 2] ∧
      PromptRun (seconds 1) u further t ∧ t.mStore = [1, 2] ∧
      ((∃ before e after v w, further = before ++ .fire e :: after ∧ PromptRun (seconds 1) u before v ∧
        e.ts ≤ u.sim.now + seconds 1 ∧ BpAgent6.step (.fire e) v = some w ∧
        (v.popEvent e).Resent 2 w) ∨
      ∃ before after v, further = before ++ after ∧ PromptRun (seconds 1) u before v ∧
        2 ∉ v.mStore) := by
  intro first second further
  obtain ⟨u, hrun, htest⟩ := exists_run_of_exec (Prompted (seconds 1)) step (Sample.agent 1 true)
    [first, second]
    (fun u => decide (u.mStore = [1, 2] ∧ (u.heap 2).Entrusted) &&
      (exec (Prompted (seconds 1)) step further u).any
        fun t : BpAgent6 => decide (t.mStore = [1, 2] ∧ u.sim.now + seconds 1 < t.sim.now))
    (by decide +kernel)
  rw [Bool.and_eq_true] at htest
  obtain ⟨hstore, hsent⟩ := of_decide_eq_true htest.1
  obtain ⟨t, ht, htest'⟩ := (Option.any_eq_true _ _).mp htest.2
  obtain ⟨hstore', hlate⟩ := of_decide_eq_true htest'
  have hrun' := run_of_exec ht
  exact ⟨u, t, hrun, hstore, hrun', hstore', retransmitted (Sample.initial_agent 1 true) (by decide)
    hrun (hstore ▸ by decide) hsent hrun' hlate⟩

end BpAgent6
end BundleProtocol
