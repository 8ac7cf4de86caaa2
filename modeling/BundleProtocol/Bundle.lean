import BundleProtocol.BlockHeader
import BundleProtocol.PrimaryHeader
import BundleProtocol.Tiling
import Mathlib.Logic.Function.Basic

/-! # Packets, bundles and the simulator's events

A bundle is an object in memory: the store, the callers and the pending events hold
its address, and its header, its application data unit and its event handles change
under all of them at once.  `Memory` holds the bundle objects and the event queue of
the simulator.
-/
namespace BundleProtocol
open Tiling

/-- ns-3 `Packet`: its size is a 32-bit number. -/
structure Packet where
  bytes : List UInt8
  size_lt : bytes.length < 2 ^ 32
deriving DecidableEq

namespace Packet

/-- A packet of the given bytes, when a packet can hold that many. -/
def ofBytes (bytes : List UInt8) : Option Packet :=
  if h : bytes.length < 2 ^ 32 then some ⟨bytes, h⟩ else none

/-- The number of bytes. -/
def size (p : Packet) : ℕ := p.bytes.length

theorem size_lt_two_pow (p : Packet) : p.size < 2 ^ 32 := p.size_lt

/-- `Packet::GetSize`. -/
def getSize (p : Packet) : UInt32 := UInt32.ofNat p.size

/-- `Packet::AddAtEnd`. -/
def addAtEnd (p q : Packet) : Option Packet := ofBytes (p.bytes ++ q.bytes)

theorem length_slice_lt (p : Packet) (start length : ℕ) :
    (slice p.bytes start length).length < 2 ^ 32 :=
  Nat.lt_of_le_of_lt (length_slice_le p.bytes start length) p.size_lt

/-- `Packet::CreateFragment`; the range must lie in the packet. -/
def createFragment (p : Packet) (start length : ℕ) : Option Packet :=
  if start + length ≤ p.size then
    some ⟨slice p.bytes start length, p.length_slice_lt start length⟩
  else none

@[simp] theorem toNat_getSize (p : Packet) : p.getSize.toNat = p.size :=
  UInt32.toNat_ofNat_of_lt' p.size_lt

theorem bytes_of_ofBytes {bytes : List UInt8} {p : Packet} (h : ofBytes bytes = some p) :
    p.bytes = bytes := by
  unfold ofBytes at h
  split at h
  · cases h
    rfl
  · cases h

theorem ofBytes_eq_some {bytes : List UInt8} (h : bytes.length < 2 ^ 32) :
    ofBytes bytes = some ⟨bytes, h⟩ := by
  unfold ofBytes
  rw [dif_pos h]

theorem bytes_of_addAtEnd {p q joined : Packet} (h : p.addAtEnd q = some joined) :
    joined.bytes = p.bytes ++ q.bytes := bytes_of_ofBytes h

theorem size_of_addAtEnd {p q joined : Packet} (h : p.addAtEnd q = some joined) :
    joined.size = p.size + q.size := by
  unfold size
  rw [bytes_of_addAtEnd h, List.length_append]

@[ext] theorem ext {p q : Packet} (h : p.bytes = q.bytes) : p = q := by
  cases p
  cases q
  cases h
  rfl

end Packet

/-! ## Events -/

/-- The address of a bundle object. -/
abbrev Ptr := ℕ

/-- The number of a scheduled event. -/
abbrev EventId := ℕ

/-- What a scheduled event calls. -/
inductive Callback
  | expire (b : Ptr)
  | forward (b : Ptr)
deriving DecidableEq

/-- The bundle a callback is about. -/
def Callback.target : Callback → Ptr
  | .expire b => b
  | .forward b => b

/-- An event waiting in the simulator's queue. -/
structure ScheduledEvent where
  uid : EventId
  ts : Time
  call : Callback
deriving DecidableEq

/-- The clock and the queue. -/
structure Simulator where
  now : Time
  nextUid : EventId
  pending : List ScheduledEvent

namespace Simulator

/-- `Simulator::Schedule`. -/
def schedule (sim : Simulator) (delay : Time) (call : Callback) : Simulator :=
  { sim with
    nextUid := sim.nextUid + 1
    pending := sim.pending ++ [⟨sim.nextUid, sim.now + delay, call⟩] }

/-- `EventId::Cancel` and `Simulator::Remove`; a default `EventId` names no event. -/
def cancel (sim : Simulator) (id : Option EventId) : Simulator :=
  { sim with pending := sim.pending.filter fun e => some e.uid != id }

/-- `EventId::IsRunning`: the event has neither run nor been cancelled. -/
def isRunning (sim : Simulator) (id : Option EventId) : Bool :=
  sim.pending.any fun e => some e.uid == id

/-- Cancelling an event that is not running changes nothing. -/
theorem cancel_of_not_isRunning {sim : Simulator} {id : Option EventId}
    (h : sim.isRunning id = false) : sim.cancel id = sim := by
  have hall : ∀ e ∈ sim.pending, (some e.uid != id) = true := by
    intro e he
    have hne := List.any_eq_false.mp h e he
    simpa using hne
  unfold cancel
  rw [List.filter_eq_self.mpr hall]

/-- The test before cancelling makes no difference. -/
theorem ite_isRunning_cancel (sim : Simulator) (id : Option EventId) (c : Bool) :
    (if c && sim.isRunning id then sim.cancel id else sim) =
      if c then sim.cancel id else sim := by
  cases c
  · rfl
  · cases h : sim.isRunning id
    · simp [cancel_of_not_isRunning h]
    · rfl

end Simulator

/-! ## Bundles -/

/-- A version 6 bundle. -/
structure Bundle6 where
  primaryHeader : BpHeader6
  payloadHeader : BpBlockHeader6
  /-- `m_adu`; `none` is the null pointer that `DoDispose` leaves. -/
  adu : Option Packet
  retentionConstraints : UInt32
  expireEvent : Option EventId
  nextRetrans : Option EventId
  acks : List (UInt32 × UInt32)

/-- The primary header the constructor `Bundle6::Bundle6` sets up. -/
def Bundle6.defaultHeader : Option BpHeader6 := do
  let h ← (BpHeader6.new false).setSourceEid defaultEid
  let h ← h.setDestinationEid defaultEid
  let h ← h.setReportEid defaultEid
  h.setCustEid defaultEid

/-- A bundle object right after construction, once its headers are set. -/
def Bundle6.new (primaryHeader : BpHeader6) (payloadHeader : BpBlockHeader6) (adu : Packet) :
    Bundle6 where
  primaryHeader := primaryHeader
  payloadHeader := payloadHeader
  adu := some adu
  retentionConstraints := 0
  expireEvent := none
  nextRetrans := none
  acks := []

/-- The bundle objects and the simulator. -/
structure Memory where
  heap : Ptr → Bundle6
  sim : Simulator

namespace Memory

/-- An assignment to fields of the bundle object at `b`. -/
def modify (m : Memory) (b : Ptr) (f : Bundle6 → Bundle6) : Memory :=
  { m with heap := Function.update m.heap b (f (m.heap b)) }

@[simp] theorem sim_modify (m : Memory) (b : Ptr) (f : Bundle6 → Bundle6) :
    (m.modify b f).sim = m.sim := rfl

@[simp] theorem heap_modify_self (m : Memory) (b : Ptr) (f : Bundle6 → Bundle6) :
    (m.modify b f).heap b = f (m.heap b) := Function.update_self ..

/-- `Bundle6::ClearEvents`. -/
def clearEvents (m : Memory) (b : Ptr) : Memory :=
  let bundle := m.heap b
  let sim := m.sim
  let sim := if bundle.primaryHeader.lifeTime != 0 && sim.isRunning bundle.expireEvent then
    sim.cancel bundle.expireEvent else sim
  let sim := if bundle.primaryHeader.custTxReq && sim.isRunning bundle.nextRetrans then
    sim.cancel bundle.nextRetrans else sim
  { m with sim := sim }

/-- `Bundle6::DoDispose`. -/
def doDispose (m : Memory) (b : Ptr) : Memory :=
  let bundle := m.heap b
  let sim := m.sim
  let sim := if bundle.primaryHeader.lifeTime != 0 then sim.cancel bundle.expireEvent else sim
  let sim := if bundle.primaryHeader.custTxReq then sim.cancel bundle.nextRetrans else sim
  { m.modify b fun x => { x with adu := none, acks := [] } with sim := sim }

@[simp] theorem heap_clearEvents (m : Memory) (b : Ptr) : (m.clearEvents b).heap = m.heap := rfl

end Memory
end BundleProtocol
