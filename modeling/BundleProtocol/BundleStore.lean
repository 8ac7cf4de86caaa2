import BundleProtocol.Bundle
import BundleProtocol.OrderedList
import Mathlib.Data.List.Lex

/-! # The bundle store

`m_store` is a `std::set` of bundle addresses ordered by `BundlePriorityCompare`,
which reads the headers of the objects: the order is a fact about the memory as much
as about the set.  The model keeps the addresses in iteration order.  Insertion and
lookup search by comparison, which `std::set` supports only while its elements stand
in comparator order; once a header change has broken that order these operations
have no defined result, and here none: a run of the model ends where the set is
searched out of order.  The comparator ends with the addresses, so two distinct
bundles are never equivalent and `find` finds the bundle itself or nothing;
`SetSearch` goes on with either.
-/
namespace BundleProtocol
open OrderedList

/-! ## The comparator -/

/-- `operator >` of `SequenceNumber32`. -/
def seqGt (x y : UInt32) : Bool :=
  (x.toNat > y.toNat && x.toNat - y.toNat ≤ 2 ^ 31 - 1) ||
    (y.toNat > x.toNat && y.toNat - x.toNat > 2 ^ 31 - 1)

/-- `operator <` of `SequenceNumber32`. -/
def seqLt (x y : UInt32) : Bool := x != y && !seqGt x y

/-- `BundlePriorityCompare`, on the headers and addresses of two bundles. -/
def bundlePriorityCompare (lhs rhs : BpHeader6) (lhsPtr rhsPtr : Ptr) : Bool :=
  if lhs.priority ≠ rhs.priority then lhs.priority.toNat < rhs.priority.toNat
  else if lhs.createTimestamp ≠ rhs.createTimestamp then
    lhs.createTimestamp.toNat < rhs.createTimestamp.toNat
  else if lhs.timestampSeqNum ≠ rhs.timestampSeqNum then
    seqLt lhs.timestampSeqNum rhs.timestampSeqNum
  else if lhs.fragOffset ≠ rhs.fragOffset then lhs.fragOffset.toNat < rhs.fragOffset.toNat
  else if lhs.getSourceEid.uri ≠ rhs.getSourceEid.uri then
    stringLt lhs.getSourceEid.uri rhs.getSourceEid.uri
  else lhsPtr < rhsPtr

/-! ## The store -/

/-- `BundleStore`, with the memory its elements point into. -/
structure BundleStore extends Memory where
  mStore : List Ptr
  maxBundlesStored : UInt32
  storedBytes : ℤ

namespace BundleStore

/-- The header of the bundle at `b`. -/
def header (st : BundleStore) (b : Ptr) : BpHeader6 := (st.heap b).primaryHeader

theorem header_congr {st st' : BundleStore} {a b : Ptr} (h : st'.heap a = st.heap b) :
    st'.header a = st.header b := congrArg Bundle6.primaryHeader h

/-- The comparator of the set, on the headers as they are now. -/
def compare (st : BundleStore) (a b : Ptr) : Bool :=
  bundlePriorityCompare (st.header a) (st.header b) a b

/-- The elements stand in comparator order. -/
def Ordered (st : BundleStore) : Prop := OrderedList.Ordered st.compare st.mStore

instance (st : BundleStore) : Decidable st.Ordered :=
  inferInstanceAs (Decidable (OrderedList.Ordered _ _))

/-- `m_store.insert (b)` and the bookkeeping of `Store` after it. -/
def insert (st : BundleStore) (b : Ptr) : Option BundleStore :=
  if st.Ordered then do
    let mStore := OrderedList.insert st.compare b st.mStore
    let adu ← (st.heap b).adu
    some { st with
      mStore := mStore
      maxBundlesStored := if st.maxBundlesStored.toNat < mStore.length then
        UInt32.ofNat mStore.length else st.maxBundlesStored
      storedBytes := st.storedBytes + adu.size }
  else none

/-- Schedules `Expire` and remembers the event in the bundle. -/
def scheduleExpire (st : BundleStore) (b : Ptr) (timeLeft : Time) : BundleStore :=
  { st with
    heap := Function.update st.heap b { st.heap b with expireEvent := some st.sim.nextUid }
    sim := st.sim.schedule timeLeft (.expire b) }

/-- Creation timestamp plus lifetime, counted from now. -/
def timeLeft (st : BundleStore) (h : BpHeader6) : Time :=
  seconds h.createTimestamp.toNat + h.lifeTime - st.sim.now

/-- `BundleStore::Store`. -/
def store (st : BundleStore) (b : Ptr) : Option BundleStore :=
  if (st.header b).lifeTime ≠ 0 then
    if 0 ≤ st.timeLeft (st.header b) then
      (st.scheduleExpire b (st.timeLeft (st.header b))).insert b
    else some st
  else st.insert b

/-- `BundleStore::Remove`. -/
def remove (st : BundleStore) (b : Ptr) : Option BundleStore :=
  if st.Ordered then
    let st := { st with toMemory := st.toMemory.clearEvents b }
    if b ∈ st.mStore then do
      let adu ← (st.heap b).adu
      some { st with mStore := st.mStore.erase b, storedBytes := st.storedBytes - adu.size }
    else some st
  else none

/-- `DoDispose` on the bundle at `b`. -/
def doDispose (st : BundleStore) (b : Ptr) : BundleStore :=
  { st with toMemory := st.toMemory.doDispose b }

/-- `BundleStore::Expire`. -/
def expire (st : BundleStore) (b : Ptr) : Option BundleStore := do
  let st ← st.remove b
  some (st.doDispose b)

/-- The bundle `GetAndRemoveBundle` stops at. -/
def deliverable (st : BundleStore) (eid : BpEndpointId) (fragOk : Bool) : Option Ptr :=
  st.mStore.find? fun b =>
    (st.header b).getDestinationEid == eid && (!(st.header b).isFragment || fragOk)

/-- `BundleStore::GetAndRemoveBundle`. -/
def getAndRemoveBundle (st : BundleStore) (eid : BpEndpointId) (fragOk : Bool) :
    Option (BundleStore × Option Packet) :=
  match st.deliverable eid fragOk with
  | some b => do
    let st ← st.remove b
    some (st.doDispose b, (st.heap b).adu)
  | none => some (st, none)

/-- The header has this source EID, creation timestamp and sequence number. -/
def Names (h : BpHeader6) (src : BpEndpointId) (ts seqno : UInt32) : Prop :=
  (h.getSourceEid == src) = true ∧ h.createTimestamp = ts ∧ h.timestampSeqNum = seqno

instance (h : BpHeader6) (src : BpEndpointId) (ts seqno : UInt32) :
    Decidable (Names h src ts seqno) := inferInstanceAs (Decidable (_ ∧ _))

/-- `BundleStore::GetBundle`. -/
def getBundle (st : BundleStore) (src : BpEndpointId) (ts seqno : UInt32) : Option Ptr :=
  st.mStore.find? fun b => Names (st.header b) src ts seqno

/-- `BundleStore::GetBundles`. -/
def getBundles (st : BundleStore) (src : BpEndpointId) (ts seqno : UInt32) : List Ptr :=
  st.mStore.filter fun b => Names (st.header b) src ts seqno

end BundleStore

/-- `_BP_DISPATCH_PENDING`. -/
def dispatchPending : UInt32 := 0x01

/-- `_BP_FORWARD_PENDING`. -/
def forwardPending : UInt32 := 0x02

/-- `_BP_CUSTODY_ACCEPTED`. -/
def custodyAccepted : UInt32 := 0x04

/-- `BundleStore::GetForwardPendingBundles`. -/
def BundleStore.getForwardPendingBundles {Cla : Type} [DecidableEq Cla] (st : BundleStore)
    (cla : Cla) (outgoingCla : BpEndpointId → Option Cla) : List Ptr :=
  st.mStore.filter fun b =>
    (st.heap b).retentionConstraints &&& forwardPending = forwardPending ∧
      outgoingCla (st.header b).getDestinationEid = some cla

/-! ## The comparator as an order -/

theorem seqLt_irrefl (x : UInt32) : seqLt x x = false := by simp [seqLt]

theorem seqLt_total {x y : UInt32} (hne : x ≠ y) (h : seqLt x y = false) : seqLt y x = true := by
  have hnat : x.toNat ≠ y.toNat := fun he => hne (UInt32.toNat_inj.mp he)
  have hx := x.toNat_lt
  have hy := y.toNat_lt
  simp [seqLt, seqGt, hne, Ne.symm hne] at h ⊢
  omega

/-- Below 2³¹ serial-number comparison is the plain order. -/
theorem seqLt_of_lt {x y : UInt32} (hx : x.toNat < 2 ^ 31) (hy : y.toNat < 2 ^ 31) :
    seqLt x y = decide (x.toNat < y.toNat) := by
  by_cases he : x = y
  · subst he
    simp [seqLt]
  · have hnat : x.toNat ≠ y.toNat := fun h => he (UInt32.toNat_inj.mp h)
    have hgt : seqGt x y = decide (y.toNat < x.toNat) := by
      unfold seqGt
      rw [Bool.eq_iff_iff]
      simp
      omega
    rw [seqLt, hgt, Bool.eq_iff_iff]
    simp [he]
    omega

theorem map_toNat_injective {a b : List UInt8} (h : a.map UInt8.toNat = b.map UInt8.toNat) :
    a = b :=
  List.map_injective_iff.mpr (fun _ _ hxy => UInt8.toNat_inj.mp hxy) h

theorem stringLt_total {a b : List UInt8} (hne : a ≠ b) (h : stringLt a b = false) :
    stringLt b a = true := by
  have hle : b.map UInt8.toNat ≤ a.map UInt8.toNat := not_lt.mp (of_decide_eq_false h)
  exact decide_eq_true (lt_of_le_of_ne hle fun he => hne (map_toNat_injective he).symm)

/-- One level of the comparator is total when its comparison is total and what
follows on equality is. -/
theorem level_total {α : Type} {a b : α} [Decidable (a ≠ b)] [Decidable (b ≠ a)]
    {r : α → α → Bool} {next next' : Bool} (hr : a ≠ b → r a b = false → r b a = true)
    (hnext : a = b → next = false → next' = true)
    (h : (if a ≠ b then r a b else next) = false) : (if b ≠ a then r b a else next') = true := by
  by_cases he : a = b
  · subst he
    simpa using hnext rfl (by simpa using h)
  · have hflip : b ≠ a := Ne.symm he
    rw [if_pos he] at h
    rw [if_pos hflip]
    exact hr he h

/-- One level of the comparator is one level of a lexicographic order. -/
theorem level_iff {α β : Type} [LinearOrder β] {a b : α} [Decidable (a ≠ b)] {f : α → β}
    (hf : f a = f b → a = b) {r next : Bool} {k l : List β} (hr : r = true ↔ f a < f b)
    (hnext : a = b → (next = true ↔ k < l)) :
    (if a ≠ b then r else next) = true ↔ f a :: k < f b :: l := by
  rw [List.cons_lt_cons_iff]
  by_cases he : a = b
  · subst he
    simpa using hnext rfl
  · have hne : f a ≠ f b := fun h => he (hf h)
    rw [if_pos he, hr]
    simp [hne]

theorem bundlePriorityCompare_irrefl (h : BpHeader6) (p : Ptr) :
    bundlePriorityCompare h h p p = false := by
  simp [bundlePriorityCompare]

/-- **Distinct bundles are always comparable**, whatever their headers. -/
theorem bundlePriorityCompare_total {g h : BpHeader6} {p q : Ptr} (hne : p ≠ q)
    (hnot : bundlePriorityCompare g h p q = false) : bundlePriorityCompare h g q p = true := by
  have word : ∀ {x y : UInt32}, x ≠ y → decide (x.toNat < y.toNat) = false →
      decide (y.toNat < x.toNat) = true := by
    intro x y hxy hlt
    have hnat : x.toNat ≠ y.toNat := fun he => hxy (UInt32.toNat_inj.mp he)
    simp at hlt ⊢
    omega
  have byte : ∀ {x y : UInt8}, x ≠ y → decide (x.toNat < y.toNat) = false →
      decide (y.toNat < x.toNat) = true := by
    intro x y hxy hlt
    have hnat : x.toNat ≠ y.toNat := fun he => hxy (UInt8.toNat_inj.mp he)
    simp at hlt ⊢
    omega
  refine level_total (r := fun x y => decide (UInt8.toNat x < UInt8.toNat y)) byte
    (fun _ => level_total (r := fun x y => decide (UInt32.toNat x < UInt32.toNat y)) word
      (fun _ => level_total seqLt_total
        (fun _ => level_total (r := fun x y => decide (UInt32.toNat x < UInt32.toNat y)) word
          (fun _ => level_total stringLt_total ?_)))) hnot
  intro _ hptr
  exact decide_eq_true (lt_of_le_of_ne (not_lt.mp (of_decide_eq_false hptr)) (Ne.symm hne))

/-- What the comparator compares, level by level. -/
def sortKey (h : BpHeader6) (p : Ptr) : List (List ℕ) :=
  [[h.priority.toNat], [h.createTimestamp.toNat], [h.timestampSeqNum.toNat], [h.fragOffset.toNat],
    h.getSourceEid.uri.map UInt8.toNat, [p]]

/-- Where the sequence numbers compare plainly, the comparator is the lexicographic
order of the sort keys. -/
theorem bundlePriorityCompare_iff {g h : BpHeader6} {p q : Ptr}
    (hseq : seqLt g.timestampSeqNum h.timestampSeqNum =
      decide (g.timestampSeqNum.toNat < h.timestampSeqNum.toNat)) :
    bundlePriorityCompare g h p q = true ↔ sortKey g p < sortKey h q := by
  have word : ∀ {x y : UInt32}, [x.toNat] = [y.toNat] → x = y :=
    fun he => UInt32.toNat_inj.mp (List.singleton_inj.mp he)
  have single : ∀ m n : ℕ, decide (m < n) = true ↔ [m] < [n] := by
    intro m n
    simp [List.cons_lt_cons_iff]
  refine level_iff (f := fun x : UInt8 => [x.toNat])
    (fun he => UInt8.toNat_inj.mp (List.singleton_inj.mp he)) (single _ _) fun _ => ?_
  refine level_iff (f := fun x : UInt32 => [x.toNat]) word (single _ _) fun _ => ?_
  refine level_iff (f := fun x : UInt32 => [x.toNat]) word
    (by rw [hseq]; exact single _ _) fun _ => ?_
  refine level_iff (f := fun x : UInt32 => [x.toNat]) word (single _ _) fun _ => ?_
  refine level_iff (f := fun x : List UInt8 => x.map UInt8.toNat) map_toNat_injective
    decide_eq_true_iff fun _ => ?_
  simp [List.cons_lt_cons_iff]

end BundleProtocol
