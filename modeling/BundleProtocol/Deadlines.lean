import BundleProtocol.Retransmission

/-! # Expiry events

A stored bundle with a lifetime has its expiry scheduled for the moment its lifetime ends, and the
clock does not pass a pending event: so what is forwarded out of the store, by `ClaReady` or a
retransmission, has not expired (`Deadlines`).

That the expiry stays scheduled rests on the event numbers: an object cancels what it remembers,
which must be its own events (`Owner`), for every object made so far.
-/
namespace BundleProtocol
open Tiling TransitionSystem

/-- Where the lifetime of the bundle ends. -/
def BpHeader6.deadline (h : BpHeader6) : Time := seconds h.createTimestamp.toNat + h.lifeTime

/-- The bundle has a lifetime and it has ended by `now`. -/
def BpHeader6.Lapsed (h : BpHeader6) (now : Time) : Prop := h.lifeTime ≠ 0 ∧ h.deadline < now

instance (h : BpHeader6) (now : Time) : Decidable (h.Lapsed now) :=
  inferInstanceAs (Decidable (_ ∧ _))

theorem BpHeader6.SameBundle.deadline {h h' : BpHeader6} (hsame : h.SameBundle h') :
    h'.deadline = h.deadline := by
  unfold BpHeader6.deadline
  rw [hsame.createTimestamp, hsame.lifeTime]

theorem BpHeader6.SameBundle.lapsed_iff {h h' : BpHeader6} (hsame : h.SameBundle h') (now : Time) :
    h'.Lapsed now ↔ h.Lapsed now := by
  unfold BpHeader6.Lapsed
  rw [hsame.deadline, hsame.lifeTime]

namespace BundleStore
variable {st : BundleStore} {b : Ptr}

theorem expired_iff : st.Expired b ↔ (st.header b).Lapsed st.sim.now :=
  and_congr_right fun _ => sub_neg

/-- The expiry of a bundle that has not expired is not in the past. -/
theorem le_deadline (hlive : ¬st.Expired b) (hlife : (st.header b).lifeTime ≠ 0) :
    st.sim.now ≤ (st.header b).deadline := by
  by_contra hlate
  exact hlive (expired_iff.mpr ⟨hlife, Int.not_le.mp hlate⟩)

/-- The new event and who holds its handle. -/
theorem stored_timed (hlife : (st.header b).lifeTime ≠ 0) :
    (st.stored b).sim = st.sim.schedule (st.timeLeft (st.header b)) (.expire b) ∧
      (∀ e, e ∈ (st.stored b).sim.pending ↔
        e ∈ st.sim.pending ∨ e = ⟨st.sim.nextUid, (st.header b).deadline, .expire b⟩) ∧
      ((st.stored b).heap b).expireEvent = some st.sim.nextUid ∧
      ∀ x, x ≠ b → ((st.stored b).heap x).expireEvent = (st.heap x).expireEvent := by
  obtain ⟨hno, -⟩ | ⟨-, hsim, hheap⟩ := st.stored_cases b
  · exact absurd hno hlife
  have hts : st.sim.now + st.timeLeft (st.header b) = (st.header b).deadline := add_sub_cancel _ _
  refine ⟨hsim, fun e => ?_, ?_, fun x hx => ?_⟩
  · rw [hsim, Simulator.mem_pending_schedule, hts]
  · rw [hheap, Function.update_self]
  · rw [hheap, Function.update_of_ne hx]

end BundleStore

namespace BpAgent6
variable {s t u : BpAgent6} {b q x y : Ptr} {K K' : Ptr → Prop}

/-! ## Objects and their events -/

/-- The events that the bundle at `x` remembers, while they are pending, are its own. -/
structure Owner (s : BpAgent6) (x : Ptr) : Prop where
  expireEvent : ∀ e ∈ s.sim.pending, (s.heap x).expireEvent = some e.uid → e.call = .expire x
  nextRetrans : ∀ e ∈ s.sim.pending, (s.heap x).nextRetrans = some e.uid → e.call = .forward x
  lt : ∀ id, (s.heap x).expireEvent = some id ∨ (s.heap x).nextRetrans = some id →
    id < s.sim.nextUid

theorem Owner.of_subset (h : s.Owner x) (hpending : ∀ e ∈ t.sim.pending, e ∈ s.sim.pending)
    (huid : t.sim.nextUid = s.sim.nextUid) (hexpire : (t.heap x).expireEvent = (s.heap x).expireEvent)
    (hretrans : (t.heap x).nextRetrans = (s.heap x).nextRetrans) : t.Owner x where
  expireEvent e he hid := h.expireEvent e (hpending e he) (hexpire ▸ hid)
  nextRetrans e he hid := h.nextRetrans e (hpending e he) (hretrans ▸ hid)
  lt id hid := by
    rw [hexpire, hretrans] at hid
    rw [huid]
    exact h.lt id hid

/-- An event is scheduled, and remembered by nobody but the bundle it is about. -/
theorem Owner.of_schedule (h : s.Owner x) {delay : Time} {call : Callback}
    (hsim : t.sim = s.sim.schedule delay call) (huid : ∀ e ∈ s.sim.pending, e.uid < s.sim.nextUid)
    (hexpire : (t.heap x).expireEvent = (s.heap x).expireEvent ∨
      ((t.heap x).expireEvent = some s.sim.nextUid ∧ call = .expire x))
    (hretrans : (t.heap x).nextRetrans = (s.heap x).nextRetrans ∨
      ((t.heap x).nextRetrans = some s.sim.nextUid ∧ call = .forward x)) : t.Owner x := by
  have hmem : ∀ e ∈ t.sim.pending,
      (e ∈ s.sim.pending ∧ e.uid < s.sim.nextUid) ∨ (e.uid = s.sim.nextUid ∧ e.call = call) := by
    intro e he
    rw [hsim] at he
    rcases List.mem_append.mp he with he | he
    · exact Or.inl ⟨he, huid e he⟩
    · rw [List.mem_singleton.mp he]
      exact Or.inr ⟨rfl, rfl⟩
  refine ⟨fun e he hid => ?_, fun e he hid => ?_, fun id hid => ?_⟩
  · rcases hmem e he with ⟨he, hlt⟩ | ⟨heq, hcall⟩
    · rcases hexpire with hsame | ⟨hnew, -⟩
      · exact h.expireEvent e he (hsame ▸ hid)
      · exact absurd (Option.some.inj (hid.symm.trans hnew)) (Nat.ne_of_lt hlt)
    · rcases hexpire with hsame | ⟨-, hnew⟩
      · exact absurd heq (Nat.ne_of_lt (h.lt e.uid (Or.inl (hsame ▸ hid))))
      · exact hcall.trans hnew
  · rcases hmem e he with ⟨he, hlt⟩ | ⟨heq, hcall⟩
    · rcases hretrans with hsame | ⟨hnew, -⟩
      · exact h.nextRetrans e he (hsame ▸ hid)
      · exact absurd (Option.some.inj (hid.symm.trans hnew)) (Nat.ne_of_lt hlt)
    · rcases hretrans with hsame | ⟨-, hnew⟩
      · exact absurd heq (Nat.ne_of_lt (h.lt e.uid (Or.inr (hsame ▸ hid))))
      · exact hcall.trans hnew
  · have hnext : t.sim.nextUid = s.sim.nextUid + 1 := by rw [hsim]; rfl
    rw [hnext]
    have hold : (s.heap x).expireEvent = some id ∨ (s.heap x).nextRetrans = some id ∨
        id = s.sim.nextUid := by
      rcases hid with hid | hid
      · rcases hexpire with hsame | ⟨hnew, -⟩
        · exact Or.inl (hsame ▸ hid)
        · exact Or.inr (Or.inr (Option.some.inj (hid.symm.trans hnew)))
      · rcases hretrans with hsame | ⟨hnew, -⟩
        · exact Or.inr (Or.inl (hsame ▸ hid))
        · exact Or.inr (Or.inr (Option.some.inj (hid.symm.trans hnew)))
    rcases hold with hid | hid | rfl
    · exact Nat.lt_succ_of_lt (h.lt id (Or.inl hid))
    · exact Nat.lt_succ_of_lt (h.lt id (Or.inr hid))
    · exact Nat.lt_succ_self _

/-- Disposing of a bundle cancels no other bundle's expiry. -/
theorem Owner.mem_discarded (h : s.Owner b) {e : ScheduledEvent} (he : e ∈ s.sim.pending)
    (hcall : e.call = .expire y) (hne : y ≠ b) : e ∈ (s.discarded b).sim.pending := by
  have hexpire : some e.uid ≠ (s.heap b).expireEvent := by
    intro hid
    have hown := h.expireEvent e he hid.symm
    rw [hcall] at hown
    cases hown
    exact hne rfl
  have hretrans : some e.uid ≠ (s.heap b).nextRetrans := by
    intro hid
    have hown := h.nextRetrans e he hid.symm
    rw [hcall] at hown
    cases hown
  refine Memory.mem_pending_doDispose.mpr ⟨?_, fun _ => hexpire, fun _ => hretrans⟩
  exact Memory.mem_pending_clearEvents.mpr ⟨he, fun _ => hexpire, fun _ => hretrans⟩

/-- **The clock does not pass the end of a stored bundle's lifetime**: it is scheduled, by every bundle
of the store, and no object of `K` can cancel it but the bundle itself.  A retransmission of
a bundle that is not stored has nothing to send. -/
structure Deadlines (K : Ptr → Prop) (s : BpAgent6) : Prop where
  timers : s.LiveTimers True
  stored : ∀ x ∈ s.mStore, K x
  target : ∀ e ∈ s.sim.pending, K e.call.target
  owner : ∀ x, K x → s.Owner x
  expires : ∀ x ∈ s.mStore, (s.header x).lifeTime ≠ 0 →
    ∃ e ∈ s.sim.pending, e.call = .expire x ∧ e.ts = (s.header x).deadline
  future : ∀ e ∈ s.sim.pending, ∀ x, e.call = .expire x → s.sim.now ≤ e.ts
  harmless : ∀ e ∈ s.sim.pending, ∀ x, e.call = .forward x → x ∈ s.mStore ∨ s.aduSize x = 0

/-- Stored bundles have not expired. -/
theorem Deadlines.not_lapsed (h : s.Deadlines K) (hx : x ∈ s.mStore) :
    ¬(s.header x).Lapsed s.sim.now := by
  rintro ⟨hlife, hlate⟩
  obtain ⟨e, he, hcall, hts⟩ := h.expires x hx hlife
  have hle := h.future e he x hcall
  rw [hts] at hle
  exact Int.not_le.mpr hlate hle

/-- Nothing is scheduled and nothing stored; what leaves is no expiry of a bundle that
stays. -/
theorem Deadlines.of_subset (h : s.Deadlines K) (htimers : t.LiveTimers True)
    (hpending : ∀ e ∈ t.sim.pending, e ∈ s.sim.pending)
    (hids : ∀ x, (t.heap x).expireEvent = (s.heap x).expireEvent ∧
      (t.heap x).nextRetrans = (s.heap x).nextRetrans)
    (huid : t.sim.nextUid = s.sim.nextUid) (hstore : ∀ x ∈ t.mStore, x ∈ s.mStore)
    (hheader : ∀ x ∈ t.mStore, (s.header x).SameBundle (t.header x))
    (hkept : ∀ x ∈ t.mStore, ∀ e ∈ s.sim.pending, e.call = .expire x → e ∈ t.sim.pending)
    (hnow : ∀ e ∈ t.sim.pending, t.sim.now ≤ s.sim.now ∨ t.sim.now ≤ e.ts)
    (hharmless : ∀ e ∈ t.sim.pending, ∀ x, e.call = .forward x → x ∈ s.mStore ∨ s.aduSize x = 0 →
      x ∈ t.mStore ∨ t.aduSize x = 0) : t.Deadlines K where
  timers := htimers
  stored x hx := h.stored x (hstore x hx)
  target e he := h.target e (hpending e he)
  owner x hx := (h.owner x hx).of_subset hpending huid (hids x).1 (hids x).2
  expires x hx hlife := by
    rw [(hheader x hx).lifeTime] at hlife
    obtain ⟨e, he, hcall, hts⟩ := h.expires x (hstore x hx) hlife
    refine ⟨e, hkept x hx e he hcall, hcall, ?_⟩
    rw [hts, (hheader x hx).deadline]
  future e he x hcall := by
    have hle := h.future e (hpending e he) x hcall
    rcases hnow e he with hnow | hnow
    · exact Int.le_trans hnow hle
    · exact hnow
  harmless e he x hcall := hharmless e he x hcall (h.harmless e (hpending e he) x hcall)

/-- Only the logs, the attributes and the counters change. -/
theorem Deadlines.of_memory (h : s.Deadlines K) (hmemory : t.toMemory = s.toMemory)
    (hstore : t.mStore = s.mStore) : t.Deadlines K := by
  have hsim : t.sim = s.sim := congrArg Memory.sim hmemory
  have hheap : t.heap = s.heap := congrArg Memory.heap hmemory
  refine ⟨?_, ?_, ?_, ?_, ?_, ?_, ?_⟩
  · exact h.timers.of_heap hsim hstore fun _ _ _ _ haw => by rwa [hheap]
  · rw [hstore]
    exact h.stored
  · rw [hsim]
    exact h.target
  · intro x hx
    exact (h.owner x hx).of_subset (by simp [hsim]) (by rw [hsim]) (by rw [hheap]) (by rw [hheap])
  · unfold BundleStore.header
    rw [hstore, hsim, hheap]
    exact h.expires
  · rw [hsim]
    exact h.future
  · unfold BundleStore.aduSize
    rw [hsim, hstore, hheap]
    exact h.harmless

/-- A change of one bundle that keeps its events and what identifies it, and its ADU unless that
does not matter. -/
theorem Deadlines.modify (h : s.Deadlines K) {f : Bundle6 → Bundle6}
    (htimers : (s.modify b f).LiveTimers True)
    (hids : ∀ x : Bundle6, (f x).expireEvent = x.expireEvent ∧ (f x).nextRetrans = x.nextRetrans)
    (hheader : ∀ x : Bundle6, x.primaryHeader.SameBundle (f x).primaryHeader)
    (hadu : (b ∈ s.mStore ∨ s.Idle b) ∨ ∀ x : Bundle6, (f x).adu = x.adu) :
    (s.modify b f).Deadlines K := by
  refine h.of_subset htimers (fun _ he => he) (fun x => ?_) rfl (fun _ hx => hx) (fun x _ => ?_)
    (fun _ _ _ he _ => he) (fun _ _ => Or.inl (Int.le_refl _)) fun e he x hcall hharmless => ?_
  · exact ⟨field_heap_modify Bundle6.expireEvent (fun y => (hids y).1) s b x,
      field_heap_modify Bundle6.nextRetrans (fun y => (hids y).2) s b x⟩
  · exact rel_heap_modify (R := fun y z => y.primaryHeader.SameBundle z.primaryHeader)
      (fun _ => .refl _) (hheader _) x
  · unfold BundleStore.aduSize at hharmless ⊢
    by_cases hx : x = b
    · subst hx
      rcases hadu with (hmem | hidle) | hadu
      · exact Or.inl hmem
      · exact absurd hcall (hidle e he)
      · rwa [heap_modify_self, hadu]
    · rwa [heap_modify_of_ne s hx]

/-! ## New bundles -/

/-- A bundle object is made at a fresh address. -/
theorem Deadlines.placed (h : s.Deadlines K) (hb : s.Fresh b) {x : Bundle6}
    (hexpire : x.expireEvent = none) (hretrans : x.nextRetrans = none) :
    (s.modify b fun _ => x).Deadlines fun y => K y ∨ y = b := by
  have hother : ∀ y, y ≠ b → (s.modify b fun _ => x).heap y = s.heap y :=
    fun y hy => heap_modify_of_ne s hy _
  refine ⟨h.timers.modify_of_idle hb.idle _, fun y hy => Or.inl (h.stored y hy),
    fun e he => Or.inl (h.target e he), fun y hy => ?_, fun y hy hlife => ?_, h.future,
    fun e he y hcall => ?_⟩
  · by_cases hyb : y = b
    · subst hyb
      refine ⟨fun e _ hid => ?_, fun e _ hid => ?_, fun id hid => ?_⟩
      · rw [heap_modify_self, hexpire] at hid
        cases hid
      · rw [heap_modify_self, hretrans] at hid
        cases hid
      · rw [heap_modify_self, hexpire, hretrans] at hid
        simp at hid
    · refine (h.owner y (hy.resolve_right hyb)).of_subset (fun _ he => he) rfl ?_ ?_
      · rw [hother y hyb]
      · rw [hother y hyb]
  · have hyb : y ≠ b := by
      rintro rfl
      exact hb.1 hy
    rw [BundleStore.header_congr (hother y hyb)] at hlife ⊢
    exact h.expires y hy hlife
  · have hyb : y ≠ b := by
      rintro rfl
      exact hb.idle e he hcall
    rw [BundleStore.aduSize_congr (congrArg Bundle6.adu (hother y hyb))]
    exact h.harmless e he y hcall

/-- Storing a bundle schedules its expiry when it has a lifetime. -/
theorem stored_cases (s : BpAgent6) (b : Ptr) :
    ((s.header b).lifeTime = 0 ∧ (s.stored b).sim = s.sim ∧ (s.stored b).heap = s.heap) ∨
      ((s.header b).lifeTime ≠ 0 ∧
        (s.stored b).sim = s.sim.schedule (s.timeLeft (s.header b)) (.expire b) ∧
        (s.stored b).heap =
          Function.update s.heap b { s.heap b with expireEvent := some s.sim.nextUid }) :=
  s.toBundleStore.stored_cases b

/-- The new event and who holds its handle. -/
theorem stored_timed (hlife : (s.header b).lifeTime ≠ 0) :
    (s.stored b).sim = s.sim.schedule (s.timeLeft (s.header b)) (.expire b) ∧
      (∀ e, e ∈ (s.stored b).sim.pending ↔
        e ∈ s.sim.pending ∨ e = ⟨s.sim.nextUid, (s.header b).deadline, .expire b⟩) ∧
      ((s.stored b).heap b).expireEvent = some s.sim.nextUid ∧
      ∀ x, x ≠ b → ((s.stored b).heap x).expireEvent = (s.heap x).expireEvent :=
  BundleStore.stored_timed hlife

/-- What stays in the store or has no ADU is so with the new bundle. -/
theorem harmless_stored (h : x ∈ s.mStore ∨ s.aduSize x = 0) :
    x ∈ (s.stored b).mStore ∨ (s.stored b).aduSize x = 0 := by
  rw [show (s.stored b).aduSize x = s.aduSize x from s.toBundleStore.aduSize_stored b x]
  exact h.imp_left fun hx => BundleStore.mem_stored.mpr (Or.inr hx)

/-- The new event is the new bundle's own. -/
theorem Owner.stored (h : s.Owner x) (htimers : s.LiveTimers True)
    (hlife : (s.header b).lifeTime ≠ 0) : (s.stored b).Owner x := by
  obtain ⟨hsim, -, hself, hother⟩ := stored_timed hlife
  refine h.of_schedule hsim htimers.uid_lt ?_ (Or.inl (s.toBundleStore.nextRetrans_stored b x))
  by_cases hxb : x = b
  · subst hxb
    exact Or.inr ⟨hself, rfl⟩
  · exact Or.inl (hother x hxb)

theorem Deadlines.storeNew (h : s.Deadlines K) (hb : K b) (hlive : ¬s.Expired b) :
    (s.stored b).Deadlines K := by
  have hmem : ∀ x ∈ (s.stored b).mStore, x = b ∨ x ∈ s.mStore :=
    fun x hx => BundleStore.mem_stored.mp hx
  have hheader : ∀ x, (s.stored b).header x = s.header x := s.toBundleStore.header_stored b
  have hnow : (s.stored b).sim.now = s.sim.now := s.toBundleStore.now_stored b
  have hstored : ∀ x ∈ (s.stored b).mStore, K x := by
    intro x hx
    rcases hmem x hx with rfl | hx
    · exact hb
    · exact h.stored x hx
  by_cases hlife : (s.header b).lifeTime = 0
  · obtain ⟨-, hsim, hheap⟩ | ⟨hno, -⟩ := s.stored_cases b
    swap
    · exact absurd hlife hno
    refine ⟨h.timers.stored, hstored, hsim ▸ h.target, fun x hx => ?_, fun x hx hx' => ?_,
      hsim ▸ h.future, fun e he x hcall => harmless_stored (h.harmless e (hsim ▸ he) x hcall)⟩
    · exact (h.owner x hx).of_subset (by simp [hsim]) (by rw [hsim]) (by rw [hheap]) (by rw [hheap])
    · rw [hheader] at hx' ⊢
      rw [hsim]
      rcases hmem x hx with rfl | hx
      · exact absurd hlife hx'
      · exact h.expires x hx hx'
  · obtain ⟨-, hpending, -⟩ := stored_timed hlife
    refine ⟨h.timers.stored, hstored, fun e he => ?_,
      fun x hx => (h.owner x hx).stored h.timers hlife, fun x hx hx' => ?_, fun e he x hcall => ?_,
      fun e he x hcall => ?_⟩
    · rcases (hpending e).mp he with he | rfl
      · exact h.target e he
      · exact hb
    · rw [hheader] at hx' ⊢
      rcases hmem x hx with rfl | hx
      · exact ⟨_, (hpending _).mpr (Or.inr rfl), rfl, rfl⟩
      · obtain ⟨e, he, hcall, hts⟩ := h.expires x hx hx'
        exact ⟨e, (hpending e).mpr (Or.inl he), hcall, hts⟩
    · rw [hnow]
      rcases (hpending e).mp he with he | rfl
      · exact h.future e he x hcall
      · exact BundleStore.le_deadline hlive hlife
    · rcases (hpending e).mp he with he | rfl
      · exact harmless_stored (h.harmless e he x hcall)
      · cases hcall

/-! ## Forwarding and removal -/

/-- After removal no retransmission of the bundle is pending. -/
theorem idle_discarded (h : s.LiveTimers True) (b : Ptr) : (s.discarded b).Idle b := by
  intro e he hcall
  have hleft := (Memory.pending_doDispose_sublist _ _).subset he
  obtain ⟨hpending, -, hretrans⟩ := Memory.mem_pending_clearEvents.mp hleft
  have haw := (h.awaited e hpending b hcall).2
  exact hretrans haw.custTxReq haw.nextRetrans.symm

/-- A bundle is discarded, in a state that has lost no other bundle's expiry. -/
theorem Deadlines.discarded_of (h : s.Deadlines K) (hb : K b) (hord : u.Ordered)
    (htimers : u.LiveTimers True) (hheap : u.heap = s.heap) (hstore : u.mStore = s.mStore)
    (huid : u.sim.nextUid = s.sim.nextUid) (hpending : ∀ e ∈ u.sim.pending, e ∈ s.sim.pending)
    (hkept : ∀ e ∈ s.sim.pending, ∀ x, x ≠ b → e.call = .expire x → e ∈ u.sim.pending)
    (hnow : ∀ e ∈ u.sim.pending, u.sim.now ≤ s.sim.now ∨ u.sim.now ≤ e.ts) :
    (u.discarded b).Deadlines K := by
  have hsub : ∀ e ∈ (u.discarded b).sim.pending, e ∈ u.sim.pending := fun e he =>
    (Memory.pending_clearEvents_sublist _ _).subset ((Memory.pending_doDispose_sublist _ _).subset he)
  have hclock : (u.discarded b).sim.now = u.sim.now :=
    (Memory.now_doDispose _ _).trans (Memory.now_clearEvents _ _)
  have hmem : ∀ x, x ∈ (u.discarded b).mStore ↔ x ≠ b ∧ x ∈ s.mStore := by
    intro x
    rw [← hstore]
    exact BundleStore.Ordered.mem_removed hord
  have hother : ∀ x, x ≠ b → (u.discarded b).heap x = s.heap x := by
    intro x hx
    rw [← hheap]
    exact Memory.heap_doDispose_of_ne _ hx
  have howner : u.Owner b := by
    refine (h.owner b hb).of_subset hpending huid ?_ ?_
    · rw [hheap]
    · rw [hheap]
  refine h.of_subset (htimers.discarded (fun _ => Or.inr) hord) (fun e he => hpending e (hsub e he))
    (fun x => ?_) ?_ (fun x hx => ((hmem x).mp hx).2) (fun x hx => ?_) (fun x hx e he hcall => ?_)
    (fun e he => ?_) fun e he x hcall hharmless => ?_
  · by_cases hx : x = b
    · subst hx
      have hself : (u.discarded x).heap x = { s.heap x with adu := none, acks := [] } := by
        rw [← hheap]
        exact Function.update_self ..
      rw [hself]
      exact ⟨rfl, rfl⟩
    · rw [hother x hx]
      exact ⟨rfl, rfl⟩
  · exact (Memory.nextUid_doDispose _ _).trans ((Memory.nextUid_clearEvents _ _).trans huid)
  · rw [BundleStore.header_congr (hother x ((hmem x).mp hx).1)]
    exact .refl _
  · have hne := ((hmem x).mp hx).1
    exact howner.mem_discarded (hkept e he x hne hcall) hcall hne
  · rw [hclock]
    exact hnow e (hsub e he)
  · have hx : x ≠ b := by
      rintro rfl
      exact idle_discarded htimers x e he hcall
    rw [BundleStore.aduSize_congr (congrArg Bundle6.adu (hother x hx)), hmem]
    exact hharmless.imp_left fun hmem => ⟨hx, hmem⟩

theorem Deadlines.discarded (h : s.Deadlines K) (hb : K b) (hord : s.Ordered) :
    (s.discarded b).Deadlines K :=
  h.discarded_of hb hord h.timers rfl rfl rfl (fun _ he => he) (fun _ he _ _ _ => he)
    fun _ _ => Or.inl (Int.le_refl _)

theorem expireEvent_sent {cla : ClaId} {adu : Packet}
    (hm : s.config.bundleSize ≠ 0 ∨ adu.size = 0) (x : Ptr) :
    ((s.sent b cla adu).heap x).expireEvent = (s.heap x).expireEvent :=
  field_heap_sent Bundle6.expireEvent (s.sentBundle b cla hm).expireEvent x

/-- A bundle that does not ask for custody leaves no event behind. -/
theorem Deadlines.sent_of_not_custTxReq (h : s.Deadlines K) {cla : ClaId} {adu : Packet}
    (hm : s.config.bundleSize ≠ 0 ∨ adu.size = 0) (htimers : (s.sent b cla adu).LiveTimers True)
    (hcust : (s.header b).custTxReq = false) : (s.sent b cla adu).Deadlines K := by
  have hsim := s.sim_sent b cla adu
  rw [hcust, if_neg Bool.false_ne_true] at hsim
  obtain ⟨hstore, -⟩ := s.rest_sent b cla adu
  have hretrans : ∀ x, ((s.sent b cla adu).heap x).nextRetrans = (s.heap x).nextRetrans := by
    refine field_heap_sent Bundle6.nextRetrans ?_
    rw [(s.sentBundle b cla hm).nextRetrans]
    exact if_neg (by rw [show (s.heap b).primaryHeader.custTxReq = false from hcust]; decide)
  refine h.of_subset htimers (by simp [hsim]) (fun x => ⟨expireEvent_sent hm x, hretrans x⟩)
    (by rw [hsim]) (by simp [hstore]) (fun x _ => header_sent hm x) ?_ (by simp [hsim])
    fun e he x hcall hharmless => ?_
  · rw [hsim]
    exact fun _ _ _ he _ => he
  · rwa [hstore, aduSize_sent hm]

/-- The retransmission of a bundle that asks for custody is its own. -/
theorem Deadlines.sent_of_custTxReq (h : s.Deadlines K) (hb : K b) {cla : ClaId} {adu : Packet}
    (hm : s.config.bundleSize ≠ 0 ∨ adu.size = 0) (hlive : b ∈ s.mStore ∨ s.aduSize b = 0)
    (htimers : (s.sent b cla adu).LiveTimers True) (hcust : (s.header b).custTxReq = true) :
    (s.sent b cla adu).Deadlines K := by
  have hsim := s.sim_sent b cla adu
  rw [hcust, if_pos rfl] at hsim
  obtain ⟨hstore, -⟩ := s.rest_sent b cla adu
  have hmem : ∀ e ∈ (s.sent b cla adu).sim.pending, e ∈ s.sim.pending ∨ e.call = .forward b := by
    intro e he
    rw [hsim] at he
    rcases List.mem_append.mp he with he | he
    · exact Or.inl he
    · rw [List.mem_singleton.mp he]
      exact Or.inr rfl
  -- an expiry is an old event
  have hold : ∀ e ∈ (s.sent b cla adu).sim.pending, ∀ x, e.call = .expire x → e ∈ s.sim.pending := by
    intro e he x hcall
    rcases hmem e he with he | hnew
    · exact he
    · rw [hcall] at hnew
      cases hnew
  have hnow : (s.sent b cla adu).sim.now = s.sim.now := by
    rw [hsim]
    rfl
  refine ⟨htimers, ?_, fun e he => ?_, fun x hx => ?_, fun x hx hlife => ?_,
    fun e he x hcall => ?_, fun e he x hcall => ?_⟩
  · rw [hstore]
    exact h.stored
  · rcases hmem e he with he | hcall
    · exact h.target e he
    · rw [hcall]
      exact hb
  · refine (h.owner x hx).of_schedule hsim h.timers.uid_lt (Or.inl (expireEvent_sent hm x)) ?_
    by_cases hxb : x = b
    · subst hxb
      refine Or.inr ⟨?_, rfl⟩
      rw [(s.sentBundle x cla hm).nextRetrans]
      exact if_pos hcust
    · exact Or.inl (by rw [heap_sent_of_ne hxb])
  · rw [hstore] at hx
    rw [(header_sent hm x).lifeTime] at hlife
    obtain ⟨e, he, hcall, hts⟩ := h.expires x hx hlife
    refine ⟨e, ?_, hcall, hts.trans (header_sent hm x).deadline.symm⟩
    rw [hsim]
    exact List.mem_append_left _ he
  · rw [hnow]
    exact h.future e (hold e he x hcall) x hcall
  · rw [hstore, aduSize_sent hm]
    rcases hmem e he with he | hnew
    · exact h.harmless e he x hcall
    · rw [hcall] at hnew
      cases hnew
      exact hlive

/-- After sending, a retransmission of the bundle is scheduled when it has custody. -/
theorem Deadlines.sent (h : s.Deadlines K) (hb : K b) (hidle : s.Idle b) {cla : ClaId} {adu : Packet}
    (hm : s.config.bundleSize ≠ 0 ∨ adu.size = 0) (hlive : b ∈ s.mStore ∨ s.aduSize b = 0) :
    (s.sent b cla adu).Deadlines K := by
  have htimers : (s.sent b cla adu).LiveTimers True :=
    (h.timers.sent hidle hm).of_sublist (List.Sublist.refl _) rfl
      fun _ _ _ _ _ haw => ⟨Or.inl trivial, haw⟩
  cases hcust : (s.header b).custTxReq with
  | false => exact h.sent_of_not_custTxReq hm htimers hcust
  | true => exact h.sent_of_custTxReq hb hm hlive htimers hcust

/-- What was handed over since is not of expired bundles. -/
def HandsTimely (s t : BpAgent6) : Prop :=
  ∃ txs, t.handed = s.handed ++ txs ∧ ∀ tx ∈ txs, ¬tx.header.Lapsed tx.time

theorem HandsTimely.of_eq (h : t.handed = s.handed) : HandsTimely s t :=
  ⟨[], by rw [h, List.append_nil], by simp⟩

theorem HandsTimely.trans (h : HandsTimely s t) (h' : HandsTimely t u) : HandsTimely s u := by
  obtain ⟨txs, htxs, hall⟩ := h
  obtain ⟨txs', htxs', hall'⟩ := h'
  refine ⟨txs ++ txs', by rw [htxs', htxs, List.append_assoc], fun tx htx => ?_⟩
  rcases List.mem_append.mp htx with htx | htx
  · exact hall tx htx
  · exact hall' tx htx

/-- The transmissions of a bundle are made now, and say when it expires. -/
theorem handsTimely_sent {cla : ClaId} {adu : Packet}
    (hlive : ¬(s.header b).Lapsed s.sim.now ∨ adu.size = 0) :
    HandsTimely s (s.sent b cla adu) := by
  refine ⟨_, handed_sent s b cla adu, fun tx htx => ?_⟩
  obtain ⟨piece, hpiece, rfl⟩ := List.mem_map.mp htx
  rcases hlive with hlive | hempty
  · have hsame : (s.header b).SameBundle (s.transmission b cla (s.header b).getDestinationEid
        (s.fragmenting adu) adu piece).header := sameBundle_stamp _ _ _ _
    rw [hsame.lapsed_iff]
    exact hlive
  · rw [pieces, hempty, chunks_zero] at hpiece
    cases hpiece

/-- **`Forward`** of a bundle that is stored, has nothing to send or finds no convergence layer
ready. -/
theorem Deadlines.forward (h : s.Deadlines K) (hb : K b) (hidle : s.Idle b)
    (hlive : (b ∈ s.mStore ∨ s.aduSize b = 0) ∨ s.readyCla b = none)
    (hrun : s.forward b = some t) : t.Deadlines K ∧ HandsTimely s t := by
  rcases forward_eq_some.mp hrun with ⟨-, rfl⟩ | ⟨cla, adu, hcla, hadu, hm, hcase⟩
  · refine ⟨?_, .of_eq rfl⟩
    exact h.modify (h.timers.modify_of_idle hidle _) (fun _ => ⟨rfl, rfl⟩) (fun _ => .refl _)
      (Or.inr fun _ => rfl)
  · have hlive' : b ∈ s.mStore ∨ s.aduSize b = 0 := by
      refine hlive.resolve_right ?_
      rw [hcla]
      exact Option.some_ne_none cla
    have hsent : (s.sent b cla adu).Deadlines K := h.sent hb hidle hm hlive'
    have hhanded : HandsTimely s (s.sent b cla adu) := by
      refine handsTimely_sent (hlive'.imp h.not_lapsed fun hsize => ?_)
      rwa [BundleStore.aduSize_of_adu hadu] at hsize
    rcases hcase with ⟨-, rfl⟩ | ⟨-, hord, rfl⟩
    · exact ⟨hsent, hhanded⟩
    · exact ⟨hsent.discarded hb hord, hhanded⟩

/-! ## Local delivery -/

/-- Each bundle of `K'` is stored or has no retransmission pending. -/
def Settled (K' : Ptr → Prop) (s : BpAgent6) : Prop := ∀ x, K' x → x ∈ s.mStore ∨ s.Idle x

theorem Idle.of_subset (h : s.Idle x) (hpending : ∀ e ∈ t.sim.pending, e ∈ s.sim.pending) : t.Idle x :=
  fun e he => h e (hpending e he)

/-- Removal of a bundle alone. -/
theorem Deadlines.removed (h : s.Deadlines K) (hb : K b) (hord : s.Ordered) :
    (s.removed b).Deadlines K ∧ (s.removed b).Idle b := by
  have hidle : (s.removed b).Idle b := by
    intro e he hcall
    obtain ⟨hpending, -, hretrans⟩ := Memory.mem_pending_clearEvents.mp he
    have haw := (h.timers.awaited e hpending b hcall).2
    exact hretrans haw.custTxReq haw.nextRetrans.symm
  have hstore : ∀ x, x ∈ (s.removed b).mStore ↔ x ≠ b ∧ x ∈ s.mStore :=
    fun x => BundleStore.Ordered.mem_removed hord
  refine ⟨h.of_subset (h.timers.removed (fun _ => Or.inr) hord) (fun e he =>
    (Memory.pending_clearEvents_sublist _ _).subset he) (fun x => ⟨rfl, rfl⟩)
    (Memory.nextUid_clearEvents _ _) (fun x hx => ((hstore x).mp hx).2) (fun x _ => .refl _)
    (fun x hx e he hcall => ?_) (fun _ _ => Or.inl (Int.le_of_eq (Memory.now_clearEvents _ _)))
    fun e he x hcall hharmless => ?_, hidle⟩
  · have hleft := (h.owner b hb).mem_discarded he hcall ((hstore x).mp hx).1
    exact (Memory.pending_doDispose_sublist _ _).subset hleft
  · have hx : x ≠ b := by
      rintro rfl
      exact hidle e he hcall
    rw [hstore]
    exact hharmless.imp_left fun hmem => ⟨hx, hmem⟩

theorem deliveryClosedOn_deadlines (hK : ∀ x, K' x → K x) :
    DeliveryClosedOn K' fun s => s.Deadlines K ∧ s.Settled K' where
  delivered h := ⟨h.1.of_memory rfl rfl, h.2⟩
  withAdu hx h := by
    refine ⟨h.1.modify ?_ (fun _ => ⟨rfl, rfl⟩) (fun _ => .refl _) (Or.inl (h.2 _ hx)), h.2⟩
    exact deliveryClosed_liveTimers.withAdu h.1.timers
  acked hx h := by
    refine ⟨h.1.modify ?_ (fun _ => ⟨rfl, rfl⟩) (fun _ => .refl _) (Or.inl (h.2 _ hx)), h.2⟩
    exact deliveryClosed_liveTimers.acked h.1.timers
  markWhole hx h := by
    refine ⟨h.1.modify ?_ (fun _ => ⟨rfl, rfl⟩) (fun _ => BpHeader6.sameBundle_setIsFragment _ _)
      (Or.inl (h.2 _ hx)), h.2⟩
    exact deliveryClosed_liveTimers.markWhole h.1.timers
  removed {s x} hx h hord := by
    obtain ⟨hremoved, hidle⟩ := h.1.removed (hK x hx) hord
    refine ⟨hremoved, fun y hy => ?_⟩
    by_cases hyx : y = x
    · exact Or.inr (hyx ▸ hidle)
    · refine (h.2 y hy).imp (fun hmem => (List.mem_erase_of_ne hyx).mpr hmem) fun hidle => ?_
      exact hidle.of_subset fun e he => (Memory.pending_clearEvents_sublist _ _).subset he
  discarded {s x} hx h hord := by
    refine ⟨h.1.discarded (hK x hx) hord, fun y hy => ?_⟩
    by_cases hyx : y = x
    · exact Or.inr (hyx ▸ idle_discarded h.1.timers x)
    · refine (h.2 y hy).imp (fun hmem => (List.mem_erase_of_ne hyx).mpr hmem) fun hidle => ?_
      exact hidle.of_subset fun e he => (Memory.pending_clearEvents_sublist _ _).subset
        ((Memory.pending_doDispose_sublist _ _).subset he)

/-- Delivery of a bundle that has no retransmission pending. -/
theorem Deadlines.enqueueIfActive (h : s.Deadlines K) (hb : K b) (hidle : s.Idle b) {state : Bool}
    (hrun : s.enqueueIfActive b state = some t) : t.Deadlines K := by
  have hclosed : DeliveryClosedOn (fun x => x = b ∨ x ∈ s.mStore) _ :=
    deliveryClosedOn_deadlines (K := K) (by
      rintro x (rfl | hx)
      · exact hb
      · exact h.stored x hx)
  refine (hclosed.enqueueIfActive (fun _ hx => Or.inr hx) (Or.inl rfl) ⟨h, ?_⟩ hrun).1
  rintro x (rfl | hx)
  · exact Or.inr hidle
  · exact Or.inl hx

end BpAgent6
end BundleProtocol
