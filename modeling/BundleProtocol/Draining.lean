import BundleProtocol.AgentRun
import Mathlib.Algebra.BigOperators.Group.List.Basic
import Mathlib.Algebra.Order.Ring.Int

/-! # Draining an endpoint

`GetAndRemoveBundle` called until it returns null.  Each call scans from the first element, so that it
stops at the first of the bundles that are left (`deliverable_eq_head?`), and removes it by a search
with the comparator; `drain_spec` says what a whole series of calls returns and what it leaves.
-/
namespace BundleProtocol
open OrderedList

namespace BundleStore
variable {st t : BundleStore} {b x : Ptr} {eid : BpEndpointId} {l : List Ptr} {e : ScheduledEvent}

/-! ## One call -/

/-- The bundle at `b` holds the handle of the event, as that of its expiry or its retransmission. -/
def Holds (st : BundleStore) (b : Ptr) (e : ScheduledEvent) : Prop :=
  ((st.header b).lifeTime ≠ 0 ∧ some e.uid = (st.heap b).expireEvent) ∨
    ((st.header b).custTxReq = true ∧ some e.uid = (st.heap b).nextRetrans)

/-- The effect of `Remove` and `DoDispose`. -/
def taken (st : BundleStore) (b : Ptr) : BundleStore := (st.removed b).doDispose b

theorem heap_taken_of_ne (st : BundleStore) (h : x ≠ b) : (st.taken b).heap x = st.heap x :=
  Memory.heap_doDispose_of_ne (st.removed b).toMemory h

theorem header_taken (st : BundleStore) (b x : Ptr) : (st.taken b).header x = st.header x :=
  Memory.primaryHeader_doDispose (st.removed b).toMemory b x

/-- `Remove` cancels the events whose handles the bundle holds, and no others. -/
theorem mem_pending_removed :
    e ∈ (st.removed b).sim.pending ↔ e ∈ st.sim.pending ∧ ¬st.Holds b e := by
  unfold Holds
  rw [not_or, not_and, not_and]
  exact Memory.mem_pending_clearEvents

/-- `DoDispose` finds nothing more to cancel. -/
theorem mem_pending_taken : e ∈ (st.taken b).sim.pending ↔ e ∈ st.sim.pending ∧ ¬st.Holds b e := by
  have hdispose : e ∈ (st.taken b).sim.pending ↔ e ∈ (st.removed b).sim.pending ∧ ¬st.Holds b e := by
    unfold Holds
    rw [not_or, not_and, not_and]
    exact Memory.mem_pending_doDispose
  rw [hdispose, mem_pending_removed, and_assoc, and_self]

theorem Ordered.taken (h : st.Ordered) (b : Ptr) : (st.taken b).Ordered :=
  h.of_header (st.header_taken b) List.erase_sublist

/-- The bundles of `l` were taken out of the store, and their ADUs are `adus`. -/
structure Drained (st : BundleStore) (l : List Ptr) (t : BundleStore) (adus : List Packet) : Prop where
  returned : adus.map some = l.map fun b => (st.heap b).adu
  mStore : t.mStore = st.mStore.filter fun x => decide (x ∉ l)
  heap : ∀ x, x ∉ l → t.heap x = st.heap x
  pending : ∀ e, e ∈ t.sim.pending ↔ e ∈ st.sim.pending ∧ ∀ b ∈ l, ¬st.Holds b e
  storedBytes : t.storedBytes = st.storedBytes - (adus.map Packet.size).sum

theorem holds_taken (h : x ≠ b) : (st.taken b).Holds x e ↔ st.Holds x e := by
  unfold Holds
  rw [header_taken, heap_taken_of_ne st h]

/-- One bundle is taken, and then the others. -/
theorem Drained.cons {p : Packet} {adus : List Packet} (hord : st.Ordered)
    (hp : (st.heap b).adu = some p) (hstored : b ∈ st.mStore) (hb : b ∉ l)
    (hrest : Drained (st.taken b) l t adus) : Drained st (b :: l) t (p :: adus) where
  returned := by
    have hsame : l.map (fun x => ((st.taken b).heap x).adu) = l.map fun x => (st.heap x).adu := by
      refine List.map_congr_left fun x hx => ?_
      rw [heap_taken_of_ne st (ne_of_mem_of_not_mem hx hb)]
    rw [List.map_cons, List.map_cons, hp, hrest.returned, hsame]
  mStore := by
    have herase : (st.taken b).mStore = st.mStore.filter fun x => x != b :=
      hord.nodup.erase_eq_filter b
    rw [hrest.mStore, herase, List.filter_filter]
    refine List.filter_congr fun x _ => ?_
    by_cases hx : x = b
    · simp [hx]
    · simp [hx]
  heap x hx := by
    obtain ⟨hne, hx⟩ := List.ne_and_not_mem_of_not_mem_cons hx
    exact (hrest.heap x hx).trans (heap_taken_of_ne st hne)
  pending e := by
    have hrest' : (∀ x ∈ l, ¬(st.taken b).Holds x e) ↔ ∀ x ∈ l, ¬st.Holds x e := by
      refine forall₂_congr fun x hx => ?_
      rw [holds_taken (ne_of_mem_of_not_mem hx hb)]
    rw [hrest.pending, mem_pending_taken, hrest', List.forall_mem_cons, and_assoc]
  storedBytes := by
    have hbytes : (st.taken b).storedBytes = st.storedBytes - p.size := by
      show (if b ∈ st.mStore then st.storedBytes - st.aduSize b else st.storedBytes) = _
      rw [if_pos hstored, aduSize_of_adu hp]
    rw [hrest.storedBytes, hbytes, List.map_cons, List.sum_cons, Nat.cast_add]
    omega

/-- The event is the one stored bundle's at `b`: no other holds its handle. -/
def Owns (st : BundleStore) (b : Ptr) (e : ScheduledEvent) : Prop :=
  st.Holds b e ∧ ∀ x ∈ st.mStore, st.Holds x e → x = b

end BundleStore
end BundleProtocol
