import BundleProtocol.Agent
import Mathlib.Data.List.Nodup

/-! # What the store operations do

Each operation of the store is given by its effect, a total function, and by the
condition under which it returns: `Remove` and `Store` need a store in comparator
order and an ADU to count.  Callers use `remove_eq_some` and `store_eq_some` and the
facts about the two effects; they never unfold the operations.
-/
namespace BundleProtocol
open OrderedList

namespace Simulator
variable {sim sim' : Simulator}

/-- The numbers of the pending events are unique and used up. -/
structure Numbered (sim : Simulator) : Prop where
  uids : (sim.pending.map ScheduledEvent.uid).Nodup
  uid_lt : ∀ e ∈ sim.pending, e.uid < sim.nextUid

theorem mem_pending_schedule {delay : Time} {call : Callback} {e : ScheduledEvent} :
    e ∈ (sim.schedule delay call).pending ↔
      e ∈ sim.pending ∨ e = ⟨sim.nextUid, sim.now + delay, call⟩ := by
  simp [schedule]

theorem Numbered.of_sublist (h : sim.Numbered) (hsub : sim'.pending.Sublist sim.pending)
    (huid : sim'.nextUid = sim.nextUid) : sim'.Numbered where
  uids := h.uids.sublist (hsub.map _)
  uid_lt e he := by
    rw [huid]
    exact h.uid_lt e (hsub.subset he)

/-- A new event takes the next number. -/
theorem Numbered.schedule (h : sim.Numbered) (delay : Time) (call : Callback) :
    (sim.schedule delay call).Numbered where
  uids := by
    rw [Simulator.schedule, List.map_append]
    refine List.nodup_append.mpr ⟨h.uids, List.nodup_singleton _, fun a ha c hc => ?_⟩
    obtain ⟨e, he, rfl⟩ := List.mem_map.mp ha
    rw [List.mem_singleton.mp hc]
    exact Nat.ne_of_lt (h.uid_lt e he)
  uid_lt e he := by
    rcases mem_pending_schedule.mp he with he | rfl
    · exact Nat.lt_succ_of_lt (h.uid_lt e he)
    · exact Nat.lt_succ_self _

end Simulator

namespace Memory

/-- `ClearEvents` cancels the events that `DoDispose` does: cancelling one that is not running
changes nothing. -/
theorem sim_clearEvents (m : Memory) (b : Ptr) : (m.clearEvents b).sim = (m.doDispose b).sim := by
  unfold clearEvents doDispose
  simp only [Simulator.ite_isRunning_cancel]

/-- The events left after `DoDispose`. -/
theorem mem_pending_doDispose {m : Memory} {b : Ptr} {e : ScheduledEvent} :
    e ∈ (m.doDispose b).sim.pending ↔ e ∈ m.sim.pending ∧
      ((m.heap b).primaryHeader.lifeTime ≠ 0 → some e.uid ≠ (m.heap b).expireEvent) ∧
      ((m.heap b).primaryHeader.custTxReq = true → some e.uid ≠ (m.heap b).nextRetrans) := by
  unfold doDispose
  by_cases hl : (m.heap b).primaryHeader.lifeTime = 0 <;>
    by_cases hc : (m.heap b).primaryHeader.custTxReq = true <;>
    simp [hl, hc, Simulator.cancel]
  intro _
  exact and_comm

/-- The events left after `ClearEvents`. -/
theorem mem_pending_clearEvents {m : Memory} {b : Ptr} {e : ScheduledEvent} :
    e ∈ (m.clearEvents b).sim.pending ↔ e ∈ m.sim.pending ∧
      ((m.heap b).primaryHeader.lifeTime ≠ 0 → some e.uid ≠ (m.heap b).expireEvent) ∧
      ((m.heap b).primaryHeader.custTxReq = true → some e.uid ≠ (m.heap b).nextRetrans) := by
  rw [sim_clearEvents]
  exact mem_pending_doDispose

theorem pending_cancel_sublist (sim : Simulator) (id : Option EventId) :
    (sim.cancel id).pending.Sublist sim.pending := List.filter_sublist

theorem pending_doDispose_sublist (m : Memory) (b : Ptr) :
    (m.doDispose b).sim.pending.Sublist m.sim.pending := by
  unfold doDispose
  dsimp only
  split <;> split
  · exact (pending_cancel_sublist _ _).trans (pending_cancel_sublist _ _)
  · exact pending_cancel_sublist _ _
  · exact pending_cancel_sublist _ _
  · exact List.Sublist.refl _

theorem pending_clearEvents_sublist (m : Memory) (b : Ptr) :
    (m.clearEvents b).sim.pending.Sublist m.sim.pending := by
  rw [sim_clearEvents]
  exact m.pending_doDispose_sublist b

@[simp] theorem now_doDispose (m : Memory) (b : Ptr) : (m.doDispose b).sim.now = m.sim.now := by
  unfold doDispose
  dsimp only
  split <;> split <;> rfl

@[simp] theorem now_clearEvents (m : Memory) (b : Ptr) :
    (m.clearEvents b).sim.now = m.sim.now := by
  rw [sim_clearEvents, now_doDispose]

@[simp] theorem nextUid_doDispose (m : Memory) (b : Ptr) :
    (m.doDispose b).sim.nextUid = m.sim.nextUid := by
  unfold doDispose
  dsimp only
  split <;> split <;> rfl

@[simp] theorem nextUid_clearEvents (m : Memory) (b : Ptr) :
    (m.clearEvents b).sim.nextUid = m.sim.nextUid := by
  rw [sim_clearEvents, nextUid_doDispose]

theorem heap_doDispose (m : Memory) (b : Ptr) :
    (m.doDispose b).heap =
      Function.update m.heap b { m.heap b with adu := none, acks := [] } := rfl

@[simp] theorem primaryHeader_doDispose (m : Memory) (b x : Ptr) :
    ((m.doDispose b).heap x).primaryHeader = (m.heap x).primaryHeader := by
  rw [heap_doDispose]
  by_cases hx : x = b
  · subst hx
    rw [Function.update_self]
  · rw [Function.update_of_ne hx]

theorem heap_doDispose_of_ne (m : Memory) {b x : Ptr} (h : x ≠ b) :
    (m.doDispose b).heap x = m.heap x := Function.update_of_ne h ..

end Memory

namespace BundleStore
variable {st st' : BundleStore} {b x : Ptr}

/-- The size of the ADU at `b`; a disposed bundle has none. -/
def aduSize (st : BundleStore) (b : Ptr) : ℕ := ((st.heap b).adu.map Packet.size).getD 0

theorem aduSize_congr {st st' : BundleStore} {a b : Ptr} (h : (st'.heap a).adu = (st.heap b).adu) :
    st'.aduSize a = st.aduSize b := congrArg (fun adu => (adu.map Packet.size).getD 0) h

theorem aduSize_of_adu {p : Packet} (h : (st.heap b).adu = some p) : st.aduSize b = p.size := by
  simp [aduSize, h]

theorem aduSize_lt (st : BundleStore) (b : Ptr) : st.aduSize b < 2 ^ 32 := by
  cases hadu : (st.heap b).adu with
  | none => simp [aduSize, hadu]
  | some p =>
    rw [aduSize_of_adu hadu]
    exact p.size_lt_two_pow

/-! ## Order -/

/-- The order depends on the headers only. -/
theorem Ordered.of_header {st st' : BundleStore} (h : st.Ordered)
    (hheader : ∀ x, st'.header x = st.header x) (hstore : st'.mStore.Sublist st.mStore) :
    st'.Ordered := by
  have hcompare : st'.compare = st.compare := by
    funext x y
    unfold compare
    rw [hheader, hheader]
  unfold Ordered
  rw [hcompare]
  exact OrderedList.Ordered.sublist h hstore

theorem Ordered.nodup (h : st.Ordered) : st.mStore.Nodup :=
  OrderedList.Ordered.nodup h fun _ => bundlePriorityCompare_irrefl _ _

theorem mem_getBundles {src : BpEndpointId} {ts seqno : UInt32} :
    x ∈ st.getBundles src ts seqno ↔ x ∈ st.mStore ∧ Names (st.header x) src ts seqno := by
  unfold getBundles
  rw [List.mem_filter, decide_eq_true_iff]

/-! ## Remove -/

/-- The effect of `Remove`. -/
def removed (st : BundleStore) (b : Ptr) : BundleStore :=
  { st with
    toMemory := st.toMemory.clearEvents b
    mStore := st.mStore.erase b
    storedBytes := if b ∈ st.mStore then st.storedBytes - st.aduSize b else st.storedBytes }

theorem remove_eq_some : st.remove b = some st' ↔
    st.Ordered ∧ (b ∈ st.mStore → (st.heap b).adu ≠ none) ∧ st' = st.removed b := by
  unfold remove
  by_cases hord : st.Ordered
  · rw [if_pos hord]
    by_cases hb : b ∈ st.mStore
    · cases hadu : (st.heap b).adu with
      | none => simp [hb, hadu]
      | some adu => simp [hb, hadu, hord, removed, aduSize, eq_comm]
    · simp [hb, hord, removed, List.erase_of_not_mem, eq_comm]
  · simp [hord]

@[simp] theorem heap_removed (st : BundleStore) (b : Ptr) : (st.removed b).heap = st.heap := rfl

@[simp] theorem header_removed (st : BundleStore) (b x : Ptr) :
    (st.removed b).header x = st.header x := rfl

/-- Nothing is left of `b` in the store. -/
theorem Ordered.mem_removed (h : st.Ordered) : x ∈ (st.removed b).mStore ↔ x ≠ b ∧ x ∈ st.mStore :=
  h.nodup.mem_erase_iff

/-! ## Store -/

/-- The creation timestamp plus the lifetime lies in the past. -/
def Expired (st : BundleStore) (b : Ptr) : Prop :=
  (st.header b).lifeTime ≠ 0 ∧ st.timeLeft (st.header b) < 0

instance (st : BundleStore) (b : Ptr) : Decidable (st.Expired b) :=
  inferInstanceAs (Decidable (_ ∧ _))

/-- The memory after `Store`: a bundle with a lifetime has its expiry scheduled. -/
def scheduled (st : BundleStore) (b : Ptr) : BundleStore :=
  if (st.header b).lifeTime ≠ 0 then st.scheduleExpire b (st.timeLeft (st.header b)) else st

/-- The effect of `Store` on a bundle that has not expired. -/
def stored (st : BundleStore) (b : Ptr) : BundleStore :=
  { st.scheduled b with
    mStore := OrderedList.insert st.compare b st.mStore
    maxBundlesStored := if st.maxBundlesStored.toNat < st.mStore.length + 1 then
      UInt32.ofNat (st.mStore.length + 1) else st.maxBundlesStored
    storedBytes := st.storedBytes + st.aduSize b }

/-- Scheduling the expiry changes one field of one bundle. -/
theorem heap_scheduled (st : BundleStore) (b x : Ptr) :
    ∃ id, (st.scheduled b).heap x = { st.heap x with expireEvent := id } := by
  unfold scheduled scheduleExpire
  split
  · by_cases hx : x = b
    · subst hx
      exact ⟨_, Function.update_self ..⟩
    · exact ⟨_, Function.update_of_ne hx ..⟩
  · exact ⟨_, rfl⟩

theorem header_scheduled (st : BundleStore) (b x : Ptr) :
    (st.scheduled b).header x = st.header x := by
  obtain ⟨id, hid⟩ := st.heap_scheduled b x
  unfold header
  rw [hid]

theorem insert_eq_some : (st.scheduled b).insert b = some st' ↔
    st.Ordered ∧ (st.heap b).adu ≠ none ∧ st' = st.stored b := by
  have hstore : (st.scheduled b).mStore = st.mStore := by
    unfold scheduled
    split <;> rfl
  have hmax : (st.scheduled b).maxBundlesStored = st.maxBundlesStored := by
    unfold scheduled
    split <;> rfl
  have hbytes : (st.scheduled b).storedBytes = st.storedBytes := by
    unfold scheduled
    split <;> rfl
  have hcompare : (st.scheduled b).compare = st.compare := by
    funext x y
    unfold compare
    rw [header_scheduled, header_scheduled]
  have hordered : (st.scheduled b).Ordered ↔ st.Ordered := by
    unfold Ordered
    rw [hcompare, hstore]
  obtain ⟨id, hid⟩ := st.heap_scheduled b b
  unfold insert
  by_cases hord : st.Ordered
  · rw [if_pos (hordered.mpr hord), hid, hstore, hcompare, hmax, hbytes]
    cases hadu : (st.heap b).adu with
    | none => simp
    | some adu => simp [hord, stored, aduSize, hadu, length_insert, eq_comm]
  · rw [if_neg fun h => hord (hordered.mp h)]
    simp [hord]

theorem store_eq_some : st.store b = some st' ↔
    (st.Expired b ∧ st' = st) ∨
      (¬st.Expired b ∧ st.Ordered ∧ (st.heap b).adu ≠ none ∧ st' = st.stored b) := by
  have hinsert : (st.scheduled b).insert b = some st' ↔ _ := insert_eq_some
  unfold store
  by_cases hlife : (st.header b).lifeTime = 0
  · have hfresh : ¬st.Expired b := fun h => h.1 hlife
    have hsame : st.scheduled b = st := by simp [scheduled, hlife]
    rw [hsame] at hinsert
    simp [hlife, hfresh, hinsert]
  · have hsame : st.scheduled b = st.scheduleExpire b (st.timeLeft (st.header b)) := by
      simp [scheduled, hlife]
    rw [hsame] at hinsert
    by_cases htime : 0 ≤ st.timeLeft (st.header b)
    · have hfresh : ¬st.Expired b := fun h => Int.not_lt.mpr htime h.2
      simp [hlife, htime, hfresh, hinsert]
    · have hexpired : st.Expired b := ⟨hlife, Int.not_le.mp htime⟩
      simp [hlife, htime, hexpired, eq_comm]

theorem heap_stored (st : BundleStore) (b x : Ptr) :
    ∃ id, (st.stored b).heap x = { st.heap x with expireEvent := id } := st.heap_scheduled b x

theorem nextRetrans_stored (st : BundleStore) (b x : Ptr) :
    ((st.stored b).heap x).nextRetrans = (st.heap x).nextRetrans := by
  obtain ⟨id, hid⟩ := st.heap_stored b x
  rw [hid]

theorem heap_stored_of_ne (st : BundleStore) {b x : Ptr} (h : x ≠ b) :
    (st.stored b).heap x = st.heap x := by
  unfold stored scheduled scheduleExpire
  dsimp only
  split
  · exact Function.update_of_ne h ..
  · rfl

@[simp] theorem header_stored (st : BundleStore) (b x : Ptr) :
    (st.stored b).header x = st.header x := st.header_scheduled b x

theorem mem_stored : x ∈ (st.stored b).mStore ↔ x = b ∨ x ∈ st.mStore := mem_insert

theorem compare_stored (st : BundleStore) (b : Ptr) : (st.stored b).compare = st.compare := by
  funext x y
  unfold compare
  rw [header_stored, header_stored]

/-- Storing a bundle schedules its expiry when it has a lifetime. -/
theorem stored_cases (st : BundleStore) (b : Ptr) :
    ((st.header b).lifeTime = 0 ∧ (st.stored b).sim = st.sim ∧ (st.stored b).heap = st.heap) ∨
      ((st.header b).lifeTime ≠ 0 ∧
        (st.stored b).sim = st.sim.schedule (st.timeLeft (st.header b)) (.expire b) ∧
        (st.stored b).heap =
          Function.update st.heap b { st.heap b with expireEvent := some st.sim.nextUid }) := by
  unfold stored scheduled
  by_cases hlife : (st.header b).lifeTime = 0
  · simp [hlife]
  · simp [hlife, scheduleExpire]

/-- Insertion puts a new bundle in its place, when the comparator is transitive from it. -/
theorem Ordered.stored (h : st.Ordered) (hb : b ∉ st.mStore)
    (htrans : ∀ y ∈ st.mStore, ∀ z ∈ st.mStore, st.compare b y = true → st.compare y z = true →
      st.compare b z = true) : (st.stored b).Ordered := by
  show OrderedList.Ordered (st.stored b).compare (OrderedList.insert st.compare b st.mStore)
  rw [compare_stored]
  refine OrderedList.Ordered.insert h (fun y hy hnot => ?_) htrans
  exact bundlePriorityCompare_total (ne_of_mem_of_not_mem hy hb).symm hnot

theorem aduSize_stored (st : BundleStore) (b x : Ptr) : (st.stored b).aduSize x = st.aduSize x := by
  obtain ⟨id, hid⟩ := st.heap_stored b x
  unfold aduSize
  rw [hid]

@[simp] theorem now_stored (st : BundleStore) (b : Ptr) : (st.stored b).sim.now = st.sim.now := by
  unfold stored scheduled
  dsimp only
  split <;> rfl

/-- `Store` schedules at most the expiry of the bundle, under a new number. -/
theorem pending_stored (st : BundleStore) (b : Ptr) :
    (st.stored b).sim = st.sim ∨
      ∃ delay, (st.stored b).sim = st.sim.schedule delay (.expire b) := by
  unfold stored scheduled scheduleExpire
  dsimp only
  split
  · exact Or.inr ⟨_, rfl⟩
  · exact Or.inl rfl

end BundleStore

/-! ## The store of an agent -/

namespace BpAgent6
variable {s t : BpAgent6} {b x : Ptr}

@[simp] theorem heap_modify_self (s : BpAgent6) (b : Ptr) (f : Bundle6 → Bundle6) :
    (s.modify b f).heap b = f (s.heap b) := Function.update_self ..

@[simp] theorem heap_modify_of_ne (s : BpAgent6) {b x : Ptr} (h : x ≠ b)
    (f : Bundle6 → Bundle6) : (s.modify b f).heap x = s.heap x := Function.update_of_ne h ..

/-- How an assignment changes its object, where others stay as they are. -/
theorem rel_heap_modify {R : Bundle6 → Bundle6 → Prop} (hrefl : ∀ y, R y y) {f : Bundle6 → Bundle6}
    (hf : R (s.heap b) (f (s.heap b))) (x : Ptr) : R (s.heap x) ((s.modify b f).heap x) := by
  by_cases hx : x = b
  · subst hx
    rwa [heap_modify_self]
  · rw [heap_modify_of_ne s hx]
    exact hrefl _

/-- What an assignment keeps is the same in all objects. -/
theorem field_heap_modify {α : Type} (g : Bundle6 → α) {f : Bundle6 → Bundle6}
    (hf : ∀ y, g (f y) = g y) (s : BpAgent6) (b x : Ptr) :
    g ((s.modify b f).heap x) = g (s.heap x) :=
  rel_heap_modify (R := fun y z => g z = g y) (fun _ => rfl) (hf _) x

/-- The effect of `m_bundleStore.Remove (b)`. -/
def removed (s : BpAgent6) (b : Ptr) : BpAgent6 :=
  { s with toBundleStore := s.toBundleStore.removed b }

/-- The effect of `m_bundleStore.Store (b)` on a bundle that has not expired. -/
def stored (s : BpAgent6) (b : Ptr) : BpAgent6 :=
  { s with toBundleStore := s.toBundleStore.stored b }

/-- The effect of `Remove` followed by `DoDispose`. -/
def discarded (s : BpAgent6) (b : Ptr) : BpAgent6 := (s.removed b).dispose b

theorem withStore_eq_some {f : BundleStore → Option BundleStore} : s.withStore f = some t ↔
    ∃ st, f s.toBundleStore = some st ∧ t = { s with toBundleStore := st } := by
  unfold withStore
  cases f s.toBundleStore with
  | none => simp
  | some st => simp [eq_comm]

theorem removeFromStore_eq_some : s.removeFromStore b = some t ↔
    s.Ordered ∧ (b ∈ s.mStore → (s.heap b).adu ≠ none) ∧ t = s.removed b := by
  unfold removeFromStore
  rw [withStore_eq_some]
  constructor
  · rintro ⟨st, hst, rfl⟩
    obtain ⟨hord, hadu, rfl⟩ := BundleStore.remove_eq_some.mp hst
    exact ⟨hord, hadu, rfl⟩
  · rintro ⟨hord, hadu, rfl⟩
    exact ⟨_, BundleStore.remove_eq_some.mpr ⟨hord, hadu, rfl⟩, rfl⟩

theorem withStore_store_eq_some : (s.withStore fun st => st.store b) = some t ↔
    (s.Expired b ∧ t = s) ∨
      (¬s.Expired b ∧ s.Ordered ∧ (s.heap b).adu ≠ none ∧ t = s.stored b) := by
  rw [withStore_eq_some]
  constructor
  · rintro ⟨st, hst, rfl⟩
    rcases BundleStore.store_eq_some.mp hst with ⟨hexp, rfl⟩ | ⟨hexp, hord, hadu, rfl⟩
    · exact Or.inl ⟨hexp, rfl⟩
    · exact Or.inr ⟨hexp, hord, hadu, rfl⟩
  · rintro (⟨hexp, rfl⟩ | ⟨hexp, hord, hadu, rfl⟩)
    · exact ⟨_, BundleStore.store_eq_some.mpr (Or.inl ⟨hexp, rfl⟩), rfl⟩
    · exact ⟨_, BundleStore.store_eq_some.mpr (Or.inr ⟨hexp, hord, hadu, rfl⟩), rfl⟩

end BpAgent6
end BundleProtocol
