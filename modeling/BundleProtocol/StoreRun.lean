import BundleProtocol.Deadlines
import BundleProtocol.StoreOrder
import BundleProtocol.Draining

/-! # Runs of a store

A store by itself: bundles are stored, removed and taken out, and time passes.  The set, the event queue
and the handles in the bundle objects stay in step (`Punctual`): each event that is pending is the expiry
of one stored bundle, which holds its handle.
-/
namespace BundleProtocol
open TransitionSystem

/-- What the comparator reads and the lifetime are the same. -/
def SameKey (g h : BpHeader6) : Prop :=
  h.priority = g.priority ∧ h.createTimestamp = g.createTimestamp ∧
    h.timestampSeqNum = g.timestampSeqNum ∧ h.fragOffset = g.fragOffset ∧
    h.getSourceEid.uri = g.getSourceEid.uri ∧ h.lifeTime = g.lifeTime

instance (g h : BpHeader6) : Decidable (SameKey g h) := inferInstanceAs (Decidable (_ ∧ _))

theorem SameKey.refl (h : BpHeader6) : SameKey h h := ⟨rfl, rfl, rfl, rfl, rfl, rfl⟩

theorem SameKey.compare {g g' h h' : BpHeader6} (hg : SameKey g g') (hh : SameKey h h') (p q : Ptr) :
    bundlePriorityCompare g' h' p q = bundlePriorityCompare g h p q := by
  obtain ⟨hgp, hgt, hgs, hgo, hgu, -⟩ := hg
  obtain ⟨hhp, hht, hhs, hho, hhu, -⟩ := hh
  unfold bundlePriorityCompare
  rw [hgp, hgt, hgs, hgo, hgu, hhp, hht, hhs, hho, hhu]

theorem SameKey.deadline {g h : BpHeader6} (hsame : SameKey g h) : h.deadline = g.deadline := by
  obtain ⟨-, htime, -, -, -, hlife⟩ := hsame
  unfold BpHeader6.deadline
  rw [htime, hlife]

namespace BundleStore
variable {st t : BundleStore} {b x : Ptr} {e : ScheduledEvent} {y : Bundle6}

/-! ## The system -/

/-- One thing that happens to a store. -/
inductive Op
  /-- A new bundle is stored. -/
  | store (b : Ptr) (y : Bundle6)
  | remove (b : Ptr)
  | getAndRemove (eid : BpEndpointId) (fragOk : Bool)
  /-- A bundle object changes. -/
  | alter (b : Ptr) (y : Bundle6)
  /-- The simulator runs a pending event. -/
  | fire (e : ScheduledEvent)
  /-- Time passes without an event. -/
  | advance (now : Time)

/-- The bundle object at `b` is `y`. -/
def place (st : BundleStore) (b : Ptr) (y : Bundle6) : BundleStore :=
  { st with toMemory := st.toMemory.modify b fun _ => y }

/-- The simulator takes the event out of its queue and sets its clock. -/
def popEvent (st : BundleStore) (e : ScheduledEvent) : BundleStore :=
  { st with sim := { st.sim with now := e.ts, pending := st.sim.pending.erase e } }

/-- The call an event makes.  There is no agent here to call. -/
def runCallback (st : BundleStore) : Callback → Option BundleStore
  | .expire b => st.expire b
  | .forward _ => some st

/-- The effect of an operation. -/
def step : Op → BundleStore → Option BundleStore
  | .store b y, st => (st.place b y).store b
  | .remove b, st => st.remove b
  | .getAndRemove eid fragOk, st => (st.getAndRemoveBundle eid fragOk).map Prod.fst
  | .alter b y, st => some (st.place b y)
  | .fire e, st => (st.popEvent e).runCallback e.call
  | .advance now, st => some { st with sim := { st.sim with now := now } }

/-- A new bundle holds no event and its sequence number is below 2³¹; a stored bundle keeps its key, its
lifetime, its handles and an ADU; events run in the order of their times, and the clock does not pass a
pending event. -/
def Permitted (st : BundleStore) : Op → Prop
  | .store b y => b ∉ st.mStore ∧ y.expireEvent = none ∧ y.nextRetrans = none ∧
      y.primaryHeader.timestampSeqNum.toNat < 2 ^ 31
  | .alter b y => y.expireEvent = (st.heap b).expireEvent ∧ y.nextRetrans = (st.heap b).nextRetrans ∧
      (b ∈ st.mStore → SameKey (st.header b) y.primaryHeader ∧ y.adu ≠ none)
  | .fire e => e ∈ st.sim.pending ∧ ∀ e' ∈ st.sim.pending, e.ts ≤ e'.ts
  | .advance now => st.sim.now ≤ now ∧ ∀ e ∈ st.sim.pending, now ≤ e.ts
  | _ => True

instance (st : BundleStore) : (op : Op) → Decidable (st.Permitted op)
  | .store .. => inferInstanceAs (Decidable (_ ∧ _))
  | .alter .. => inferInstanceAs (Decidable (_ ∧ _))
  | .fire _ => inferInstanceAs (Decidable (_ ∧ _))
  | .advance _ => inferInstanceAs (Decidable (_ ∧ _))
  | .remove _ => inferInstanceAs (Decidable True)
  | .getAndRemove .. => inferInstanceAs (Decidable True)

/-- An empty store, before anything was scheduled. -/
structure Initial (st : BundleStore) : Prop where
  mStore : st.mStore = []
  pending : st.sim.pending = []
  handles : ∀ x, (st.heap x).expireEvent = none ∧ (st.heap x).nextRetrans = none

/-- The set, the event queue and the handles are in step. -/
structure Punctual (st : BundleStore) : Prop where
  ordered : st.Ordered
  adu : ∀ x ∈ st.mStore, (st.heap x).adu ≠ none
  seq : ∀ x ∈ st.mStore, (st.header x).timestampSeqNum.toNat < 2 ^ 31
  nextRetrans : ∀ x, (st.heap x).nextRetrans = none
  /-- What an object holds the handle of is its own expiry. -/
  own : ∀ x, ∀ e ∈ st.sim.pending, (st.heap x).expireEvent = some e.uid → e.call = .expire x
  handle_lt : ∀ x id, (st.heap x).expireEvent = some id → id < st.sim.nextUid
  uid_lt : ∀ e ∈ st.sim.pending, e.uid < st.sim.nextUid
  uids : (st.sim.pending.map ScheduledEvent.uid).Nodup
  event : ∀ e ∈ st.sim.pending, ∃ b ∈ st.mStore, e.call = .expire b ∧ (st.header b).lifeTime ≠ 0 ∧
    (st.heap b).expireEvent = some e.uid ∧ e.ts = (st.header b).deadline ∧ st.sim.now ≤ e.ts
  timed : ∀ x ∈ st.mStore, (st.header x).lifeTime ≠ 0 → ∃ e ∈ st.sim.pending, e.call = .expire x

theorem Punctual.numbered (h : st.Punctual) : st.sim.Numbered := ⟨h.uids, h.uid_lt⟩

/-- A bundle holds the handle of its own expiry and of nothing else. -/
theorem Punctual.holds_iff (h : st.Punctual) (he : e ∈ st.sim.pending) :
    st.Holds x e ↔ e.call = .expire x := by
  constructor
  · rintro (⟨-, hid⟩ | ⟨-, hid⟩)
    · exact h.own x e he hid.symm
    · rw [h.nextRetrans x] at hid
      cases hid
  · intro hcall
    obtain ⟨b, -, hcall', hlife, hid, -⟩ := h.event e he
    rw [hcall'] at hcall
    cases hcall
    exact Or.inl ⟨hlife, hid.symm⟩

/-- So no other stored bundle holds it. -/
theorem Punctual.owns (h : st.Punctual) (he : e ∈ st.sim.pending) (hholds : st.Holds x e) :
    st.Owns x e := by
  refine ⟨hholds, fun z _ hz => ?_⟩
  have hcall := (h.holds_iff he).mp hholds
  rw [(h.holds_iff he).mp hz] at hcall
  exact Callback.expire.inj hcall

/-! ## A bundle leaves -/

/-- The bundle at `b` leaves with its expiry. -/
structure Leaves (st : BundleStore) (b : Ptr) (t : BundleStore) : Prop where
  mStore : t.mStore = st.mStore.erase b
  header : ∀ x, t.header x = st.header x
  adu : ∀ x, x ≠ b → (t.heap x).adu = (st.heap x).adu
  expireEvent : ∀ x, (t.heap x).expireEvent = (st.heap x).expireEvent
  nextRetrans : ∀ x, (t.heap x).nextRetrans = (st.heap x).nextRetrans
  nextUid : t.sim.nextUid = st.sim.nextUid
  sublist : t.sim.pending.Sublist st.sim.pending
  pending : ∀ e, e ∈ t.sim.pending ↔ e ∈ st.sim.pending ∧ e.call ≠ .expire b
  now : ∀ e ∈ t.sim.pending, t.sim.now ≤ e.ts

theorem Punctual.leaves (h : st.Punctual) (hleaves : Leaves st b t) : t.Punctual where
  ordered := h.ordered.of_header hleaves.header (hleaves.mStore ▸ List.erase_sublist)
  adu x hx := by
    rw [hleaves.mStore] at hx
    obtain ⟨hne, hx⟩ := h.ordered.nodup.mem_erase_iff.mp hx
    rw [hleaves.adu x hne]
    exact h.adu x hx
  seq x hx := by
    rw [hleaves.mStore] at hx
    rw [hleaves.header]
    exact h.seq x (List.mem_of_mem_erase hx)
  nextRetrans x := (hleaves.nextRetrans x).trans (h.nextRetrans x)
  own x e he hid := by
    rw [hleaves.expireEvent] at hid
    exact h.own x e ((hleaves.pending e).mp he).1 hid
  handle_lt x id hid := by
    rw [hleaves.expireEvent] at hid
    rw [hleaves.nextUid]
    exact h.handle_lt x id hid
  uid_lt := (h.numbered.of_sublist hleaves.sublist hleaves.nextUid).uid_lt
  uids := (h.numbered.of_sublist hleaves.sublist hleaves.nextUid).uids
  event e he := by
    obtain ⟨hmem, hother⟩ := (hleaves.pending e).mp he
    obtain ⟨x, hx, hcall, hlife, hid, hts, -⟩ := h.event e hmem
    have hne : x ≠ b := by
      rintro rfl
      exact hother hcall
    refine ⟨x, ?_, hcall, ?_, ?_, ?_, hleaves.now e he⟩
    · rw [hleaves.mStore]
      exact (List.mem_erase_of_ne hne).mpr hx
    · rwa [hleaves.header]
    · rwa [hleaves.expireEvent]
    · rwa [hleaves.header]
  timed x hx hlife := by
    rw [hleaves.mStore] at hx
    obtain ⟨hne, hx⟩ := h.ordered.nodup.mem_erase_iff.mp hx
    rw [hleaves.header] at hlife
    obtain ⟨e, he, hcall⟩ := h.timed x hx hlife
    refine ⟨e, (hleaves.pending e).mpr ⟨he, ?_⟩, hcall⟩
    rw [hcall]
    exact fun hsame => hne (Callback.expire.inj hsame)

theorem Punctual.not_past (h : st.Punctual) (he : e ∈ st.sim.pending) : st.sim.now ≤ e.ts := by
  obtain ⟨-, -, -, -, -, -, hnow⟩ := h.event e he
  exact hnow

theorem Punctual.leaves_removed (h : st.Punctual) (b : Ptr) : Leaves st b (st.removed b) where
  mStore := rfl
  header _ := rfl
  adu _ _ := rfl
  expireEvent _ := rfl
  nextRetrans _ := rfl
  nextUid := Memory.nextUid_clearEvents _ b
  sublist := Memory.pending_clearEvents_sublist _ b
  pending e := by
    rw [mem_pending_removed]
    exact and_congr_right fun he => not_congr (h.holds_iff he)
  now e he := by
    have hnow : (st.removed b).sim.now = st.sim.now := Memory.now_clearEvents _ b
    rw [hnow]
    exact h.not_past (mem_pending_removed.mp he).1

/-- Disposal keeps the handles. -/
theorem heap_taken (st : BundleStore) (b x : Ptr) :
    ((st.taken b).heap x).expireEvent = (st.heap x).expireEvent ∧
      ((st.taken b).heap x).nextRetrans = (st.heap x).nextRetrans := by
  by_cases hx : x = b
  · subst hx
    have hself : (st.taken x).heap x = { st.heap x with adu := none, acks := [] } :=
      Function.update_self ..
    rw [hself]
    exact ⟨rfl, rfl⟩
  · rw [heap_taken_of_ne st hx]
    exact ⟨rfl, rfl⟩

/-- The bundle is taken out, be it at once or by an event that is no longer in the queue. -/
theorem Punctual.leaves_taken (h : st.Punctual) {u : BundleStore} (hheap : u.heap = st.heap)
    (hstore : u.mStore = st.mStore) (huid : u.sim.nextUid = st.sim.nextUid)
    (hsublist : u.sim.pending.Sublist st.sim.pending)
    (hpending : ∀ e ∈ st.sim.pending, e.call ≠ .expire b → e ∈ u.sim.pending)
    (hnow : ∀ e ∈ u.sim.pending, u.sim.now ≤ e.ts) : Leaves st b (u.taken b) where
  mStore := congrArg (fun l => l.erase b) hstore
  header x := by
    rw [header_taken, header_congr (congrFun hheap x)]
  adu x hx := by
    rw [heap_taken_of_ne u hx, hheap]
  expireEvent x := by
    rw [(u.heap_taken b x).1, hheap]
  nextRetrans x := by
    rw [(u.heap_taken b x).2, hheap]
  nextUid := (Memory.nextUid_doDispose _ b).trans ((Memory.nextUid_clearEvents _ b).trans huid)
  sublist := (Memory.pending_doDispose_sublist _ b).trans
    ((Memory.pending_clearEvents_sublist _ b).trans hsublist)
  pending e := by
    have hholds : u.Holds b e ↔ st.Holds b e := by
      unfold Holds
      rw [header_congr (congrFun hheap b), hheap]
    rw [mem_pending_taken, hholds]
    constructor
    · rintro ⟨he, hnot⟩
      have he' := hsublist.subset he
      exact ⟨he', fun hcall => hnot ((h.holds_iff he').mpr hcall)⟩
    · rintro ⟨he, hcall⟩
      exact ⟨hpending e he hcall, fun hholds => hcall ((h.holds_iff he).mp hholds)⟩
  now e he := by
    have hsame : (u.taken b).sim.now = u.sim.now :=
      (Memory.now_doDispose _ b).trans (Memory.now_clearEvents _ b)
    rw [hsame]
    exact hnow e (mem_pending_taken.mp he).1

/-! ## A bundle object changes, a bundle arrives -/

@[simp] theorem heap_place_self (st : BundleStore) (b : Ptr) (y : Bundle6) :
    (st.place b y).heap b = y := Function.update_self ..

theorem heap_place_of_ne (st : BundleStore) (y : Bundle6) (h : x ≠ b) :
    (st.place b y).heap x = st.heap x := Function.update_of_ne h ..

/-- What holds of the new object and of the old ones holds of all. -/
theorem forall_place {P : Ptr → Bundle6 → Prop} (hself : P b y)
    (hother : ∀ x, x ≠ b → P x (st.heap x)) (x : Ptr) : P x ((st.place b y).heap x) := by
  by_cases hxb : x = b
  · subst hxb
    rwa [heap_place_self]
  · rw [heap_place_of_ne st y hxb]
    exact hother x hxb

/-- An object may change in anything but its handles, and a stored one not in its key and lifetime. -/
theorem Punctual.place (h : st.Punctual)
    (hexpire : y.expireEvent = none ∨ y.expireEvent = (st.heap b).expireEvent)
    (hretrans : y.nextRetrans = none) (hstored : b ∈ st.mStore →
      y.expireEvent = (st.heap b).expireEvent ∧ SameKey (st.header b) y.primaryHeader ∧ y.adu ≠ none) :
    (st.place b y).Punctual := by
  have hkey := forall_place (P := fun x z => x ∈ st.mStore → SameKey (st.header x) z.primaryHeader)
    (fun hb => (hstored hb).2.1) fun x _ _ => .refl (st.header x)
  have hhandle := forall_place
    (P := fun x z => x ∈ st.mStore → z.expireEvent = (st.heap x).expireEvent)
    (fun hb => (hstored hb).1) fun x _ _ => rfl
  -- a new object holds no event, an old one the same
  have hnew : ∀ id, y.expireEvent = some id → (st.heap b).expireEvent = some id := by
    intro id hid
    rcases hexpire with hnone | hsame
    · rw [hnone] at hid
      cases hid
    · exact hsame ▸ hid
  have hold := forall_place
    (P := fun x z => ∀ id, z.expireEvent = some id → (st.heap x).expireEvent = some id) hnew
    fun x _ id hid => hid
  refine ⟨?_, ?_, fun x hx => ?_, ?_, fun x e he hid => h.own x e he (hold x _ hid),
    fun x id hid => h.handle_lt x id (hold x id hid), h.uid_lt, h.uids, fun e he => ?_,
    fun x hx hlife => ?_⟩
  · refine List.Pairwise.imp_of_mem ?_ h.ordered
    intro x z hx hz hxz
    exact ((hkey x hx).compare (hkey z hz) x z).trans hxz
  · exact forall_place (P := fun x z => x ∈ st.mStore → z.adu ≠ none)
      (fun hb => (hstored hb).2.2) fun x _ => h.adu x
  · exact (hkey x hx).2.2.1 ▸ h.seq x hx
  · exact forall_place (P := fun _ z => z.nextRetrans = none) hretrans fun x _ => h.nextRetrans x
  · obtain ⟨x, hx, hcall, hlife, hid, hts, hnow⟩ := h.event e he
    refine ⟨x, hx, hcall, ?_, (hhandle x hx).trans hid, hts.trans (hkey x hx).deadline.symm, hnow⟩
    exact fun hzero => hlife ((hkey x hx).2.2.2.2.2.symm.trans hzero)
  · exact h.timed x hx fun hzero => hlife ((hkey x hx).2.2.2.2.2.trans hzero)

/-- What does not depend on the handle of the expiry holds of the stored bundles with the new one. -/
theorem forall_mem_stored {P : Bundle6 → Prop} (hP : ∀ y id, P y → P { y with expireEvent := id })
    (hself : P (st.heap b)) (h : ∀ x ∈ st.mStore, P (st.heap x)) :
    ∀ x ∈ (st.stored b).mStore, P ((st.stored b).heap x) := by
  intro x hx
  obtain ⟨id, hid⟩ := st.heap_stored b x
  rw [hid]
  refine hP _ id ?_
  rcases mem_stored.mp hx with rfl | hx
  · exact hself
  · exact h x hx

/-- The new event has a number that nothing holds yet. -/
theorem Punctual.own_stored (h : st.Punctual) (hlife : (st.header b).lifeTime ≠ 0) (x : Ptr)
    (he : e ∈ (st.stored b).sim.pending) (hid : ((st.stored b).heap x).expireEvent = some e.uid) :
    e.call = .expire x := by
  obtain ⟨-, hpending, hself, hother⟩ := stored_timed hlife
  by_cases hxb : x = b
  · subst hxb
    rw [hself] at hid
    rcases (hpending e).mp he with he | rfl
    · exact absurd (Option.some.inj hid) (h.numbered.uid_lt e he).ne'
    · rfl
  · rw [hother x hxb] at hid
    rcases (hpending e).mp he with he | rfl
    · exact h.own x e he hid
    · exact absurd (h.handle_lt x _ hid) (Nat.lt_irrefl _)

theorem Punctual.handle_lt_stored (h : st.Punctual) (hlife : (st.header b).lifeTime ≠ 0) (x : Ptr)
    {id : EventId} (hid : ((st.stored b).heap x).expireEvent = some id) :
    id < (st.stored b).sim.nextUid := by
  obtain ⟨hsim, -, hself, hother⟩ := stored_timed hlife
  rw [hsim]
  by_cases hxb : x = b
  · subst hxb
    rw [hself] at hid
    cases hid
    exact Nat.lt_succ_self _
  · rw [hother x hxb] at hid
    exact Nat.lt_succ_of_lt (h.handle_lt x id hid)

/-- Each event is the expiry of one stored bundle, the new one of the new bundle. -/
theorem Punctual.event_stored (h : st.Punctual) (hb : b ∉ st.mStore) (hlive : ¬st.Expired b)
    (hlife : (st.header b).lifeTime ≠ 0) (he : e ∈ (st.stored b).sim.pending) :
    ∃ x ∈ (st.stored b).mStore, e.call = .expire x ∧ ((st.stored b).header x).lifeTime ≠ 0 ∧
      ((st.stored b).heap x).expireEvent = some e.uid ∧
      e.ts = ((st.stored b).header x).deadline ∧ (st.stored b).sim.now ≤ e.ts := by
  obtain ⟨-, hpending, hself, hother⟩ := stored_timed hlife
  simp only [header_stored, now_stored]
  rcases (hpending e).mp he with he | rfl
  · obtain ⟨x, hx, hcall, hlife', hid, hevent⟩ := h.event e he
    have hxb : x ≠ b := ne_of_mem_of_not_mem hx hb
    exact ⟨x, mem_stored.mpr (Or.inr hx), hcall, hlife', (hother x hxb).trans hid, hevent⟩
  · exact ⟨b, mem_stored.mpr (Or.inl rfl), rfl, hlife, hself, rfl, le_deadline hlive hlife⟩

/-- A bundle that has not expired is stored, with its expiry when it has a lifetime. -/
theorem Punctual.stored (h : st.Punctual) (hb : b ∉ st.mStore) (hadu : (st.heap b).adu ≠ none)
    (hseq : (st.header b).timestampSeqNum.toNat < 2 ^ 31) (hlive : ¬st.Expired b) :
    (st.stored b).Punctual := by
  have hordered : (st.stored b).Ordered := by
    refine h.ordered.stored hb fun z hz w hw hbz hzw => ?_
    exact bundlePriorityCompare_trans hseq (h.seq z hz) (h.seq w hw) hbz hzw
  have hadu' := forall_mem_stored (P := fun y => y.adu ≠ none) (fun _ _ hy => hy) hadu h.adu
  have hseq' := forall_mem_stored (P := fun y => y.primaryHeader.timestampSeqNum.toNat < 2 ^ 31)
    (fun _ _ hy => hy) hseq h.seq
  have hretrans : ∀ x, ((st.stored b).heap x).nextRetrans = none := fun x =>
    (st.nextRetrans_stored b x).trans (h.nextRetrans x)
  by_cases hlife : (st.header b).lifeTime = 0
  · obtain ⟨-, hsim, hheap⟩ | ⟨hno, -⟩ := st.stored_cases b
    swap
    · exact absurd hlife hno
    refine ⟨hordered, hadu', hseq', hretrans, ?_, ?_, hsim ▸ h.uid_lt, hsim ▸ h.uids, fun e he => ?_,
      fun x hx hlife' => ?_⟩
    · rw [hsim, hheap]
      exact h.own
    · rw [hsim, hheap]
      exact h.handle_lt
    · rw [hsim] at he ⊢
      obtain ⟨x, hx, hevent⟩ := h.event e he
      rw [hheap]
      simp only [header_stored]
      exact ⟨x, mem_stored.mpr (Or.inr hx), hevent⟩
    · rw [header_stored] at hlife'
      rw [hsim]
      rcases mem_stored.mp hx with rfl | hx
      · exact absurd hlife hlife'
      · exact h.timed x hx hlife'
  · obtain ⟨hsim, hpending, -⟩ := stored_timed hlife
    have hnumbered : (st.stored b).sim.Numbered := hsim ▸ h.numbered.schedule _ _
    refine ⟨hordered, hadu', hseq', hretrans, fun x e he hid => h.own_stored hlife x he hid,
      fun x id hid => h.handle_lt_stored hlife x hid, hnumbered.uid_lt, hnumbered.uids,
      fun e he => h.event_stored hb hlive hlife he, fun x hx hlife' => ?_⟩
    rw [header_stored] at hlife'
    rcases mem_stored.mp hx with rfl | hx
    · exact ⟨_, (hpending _).mpr (Or.inr rfl), rfl⟩
    · obtain ⟨e, he, hcall⟩ := h.timed x hx hlife'
      exact ⟨e, (hpending e).mpr (Or.inl he), hcall⟩

/-! ## The operations -/

theorem getAndRemoveBundle_some {eid : BpEndpointId} {fragOk : Bool} {p : Option Packet}
    (hrun : st.getAndRemoveBundle eid fragOk = some (t, p)) :
    (st.deliverable eid fragOk = none ∧ t = st) ∨
      ∃ b, st.deliverable eid fragOk = some b ∧ t = st.taken b := by
  unfold getAndRemoveBundle at hrun
  cases hfind : st.deliverable eid fragOk with
  | none =>
    rw [hfind] at hrun
    cases hrun
    exact Or.inl ⟨rfl, rfl⟩
  | some b =>
    rw [hfind] at hrun
    obtain ⟨u, hu, hrun⟩ := Option.bind_eq_some_iff.mp hrun
    obtain ⟨-, -, rfl⟩ := remove_eq_some.mp hu
    cases hrun
    exact Or.inr ⟨b, rfl, rfl⟩

theorem expire_some (hrun : st.expire b = some t) : t = st.taken b := by
  obtain ⟨u, hu, hrun⟩ := Option.bind_eq_some_iff.mp hrun
  obtain ⟨-, -, rfl⟩ := remove_eq_some.mp hu
  cases hrun
  rfl

theorem step_fire (st : BundleStore) (hcall : e.call = .expire b) :
    step (.fire e) st = (st.popEvent e).expire b := by
  show (st.popEvent e).runCallback e.call = _
  rw [hcall]
  rfl

theorem Punctual.leaves_getAndRemove (h : st.Punctual) (b : Ptr) : Leaves st b (st.taken b) :=
  h.leaves_taken rfl rfl rfl (List.Sublist.refl _) (fun _ he _ => he) fun _ he => h.not_past he

/-- The event is no longer in the queue when it takes its bundle out. -/
theorem Punctual.leaves_fire (h : st.Punctual) (hcall : e.call = .expire b)
    (hfirst : ∀ e' ∈ st.sim.pending, e.ts ≤ e'.ts) : Leaves st b ((st.popEvent e).taken b) := by
  refine h.leaves_taken rfl rfl rfl List.erase_sublist (fun e' he' hother => ?_) fun e' he' => ?_
  · refine (List.mem_erase_of_ne ?_).mpr he'
    rintro rfl
    exact hother hcall
  · exact hfirst e' (List.mem_of_mem_erase he')

theorem Punctual.placeNew (h : st.Punctual) (hop : st.Permitted (.store b y)) :
    (st.place b y).Punctual :=
  h.place (Or.inl hop.2.1) hop.2.2.1 fun hb => absurd hb hop.1

/-- **One operation keeps them in step.** -/
theorem Punctual.step {op : Op} (h : st.Punctual) (hop : st.Permitted op)
    (hstep : BundleStore.step op st = some t) : t.Punctual := by
  cases op with
  | store b y =>
    have hplaced := h.placeNew hop
    obtain ⟨hb, -, -, hseq⟩ := hop
    have hself : (st.place b y).heap b = y := st.heap_place_self b y
    rcases store_eq_some.mp hstep with ⟨-, rfl⟩ | ⟨hlive, -, hadu, rfl⟩
    · exact hplaced
    · refine hplaced.stored hb hadu ?_ hlive
      rw [header, hself]
      exact hseq
  | remove b =>
    obtain ⟨-, -, rfl⟩ := remove_eq_some.mp hstep
    exact h.leaves (h.leaves_removed b)
  | getAndRemove eid fragOk =>
    obtain ⟨⟨u, p⟩, hu, rfl⟩ := Option.map_eq_some_iff.mp hstep
    rcases getAndRemoveBundle_some hu with ⟨-, rfl⟩ | ⟨b, -, rfl⟩
    · exact h
    · exact h.leaves (h.leaves_getAndRemove b)
  | alter b y =>
    cases hstep
    obtain ⟨hexpire, hretrans, hstored⟩ := hop
    exact h.place (Or.inr hexpire) (hretrans.trans (h.nextRetrans b)) fun hb => ⟨hexpire, hstored hb⟩
  | fire e =>
    obtain ⟨he, hfirst⟩ := hop
    obtain ⟨b, -, hcall, -⟩ := h.event e he
    rw [step_fire st hcall] at hstep
    rw [expire_some hstep]
    exact h.leaves (h.leaves_fire hcall hfirst)
  | advance now =>
    cases hstep
    refine { h with event := fun e he => ?_ }
    obtain ⟨x, hx, hcall, hlife, hid, hts, -⟩ := h.event e he
    exact ⟨x, hx, hcall, hlife, hid, hts, hop.2 e he⟩

/-! ## Expiry -/

end BundleStore

namespace Sample

/-- A bundle from `d:a` to `d:c` with this lifetime. -/
def lasting (lifeTime : Time) : Bundle6 :=
  Bundle6.new { header 2 6 0 0 3 with lifeTime := lifeTime } payloadHeader threeBytes

end Sample

namespace BundleStore

end BundleStore
end BundleProtocol
