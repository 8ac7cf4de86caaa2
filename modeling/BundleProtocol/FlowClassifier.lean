import Mathlib.Data.Prod.Lex
import BundleProtocol.AgentRun
import BundleProtocol.Bundle7
import BundleProtocol.OrderedMap

/-! # Flow classification

`BpFlowClassifier` gives every pair of a source and a destination a flow id, and counts the packets of
each flow.  The pairs are the keys of a map, compared by a hand-written `operator <`; as that compares
the pairs of URIs lexicographically, keys share an entry exactly when they are equal by `operator ==`.
`Numbers` is what the two maps hold after any sequence of calls, and `classify_numbering` what the calls
returned.  Fresh flow ids come from ns-3 and are a parameter here.
-/
namespace BundleProtocol
open OrderedMap

/-- `operator <` of endpoint ids. -/
def BpEndpointId.lt (a b : BpEndpointId) : Bool := stringLt a.uri b.uri

/-- `BpFlowClassifier::BpFlowId`. -/
structure BpFlowId where
  srcEid : BpEndpointId
  dstEid : BpEndpointId

namespace BpFlowId

/-- `operator <`. -/
def lt (f1 f2 : BpFlowId) : Bool :=
  if f1.srcEid.lt f2.srcEid then true
  else if f1.srcEid != f2.srcEid then false
  else if f1.dstEid.lt f2.dstEid then true
  else false

/-- `operator ==`. -/
instance : BEq BpFlowId := ⟨fun f1 f2 => f1.srcEid == f2.srcEid && f1.dstEid == f2.dstEid⟩

/-- What the operators look at. -/
def uris (f : BpFlowId) : List UInt8 × List UInt8 := (f.srcEid.uri, f.dstEid.uri)

theorem beq_iff {f g : BpFlowId} : (f == g) = true ↔ f.uris = g.uris := by
  show (f.srcEid == g.srcEid && f.dstEid == g.dstEid) = true ↔ _
  rw [Bool.and_eq_true, BpEndpointId.beq_iff, BpEndpointId.beq_iff, uris, uris, Prod.mk.injEq]

instance : EquivBEq BpFlowId where
  rfl := beq_iff.mpr rfl
  symm h := beq_iff.mpr (beq_iff.mp h).symm
  trans h₁ h₂ := beq_iff.mpr ((beq_iff.mp h₁).trans (beq_iff.mp h₂))

/-- The two strings in the order of their comparison. -/
def sortKey (f : BpFlowId) : List ℕ ×ₗ List ℕ :=
  toLex (f.srcEid.uri.map UInt8.toNat, f.dstEid.uri.map UInt8.toNat)

theorem sortKey_inj {f g : BpFlowId} : f.sortKey = g.sortKey ↔ f.uris = g.uris := by
  constructor
  · intro h
    obtain ⟨hsrc, hdst⟩ := Prod.mk.inj (toLex_inj.mp h)
    rw [uris, uris, map_toNat_injective hsrc, map_toNat_injective hdst]
  · intro h
    obtain ⟨hsrc, hdst⟩ := Prod.mk.inj h
    rw [sortKey, sortKey, hsrc, hdst]

/-- The comparator is the lexicographic order of source and destination. -/
theorem lt_iff (f g : BpFlowId) : lt f g = true ↔ f.sortKey < g.sortKey := by
  have hsrc : f.srcEid.lt g.srcEid = true ↔
      f.srcEid.uri.map UInt8.toNat < g.srcEid.uri.map UInt8.toNat := decide_eq_true_iff
  have hdst : f.dstEid.lt g.dstEid = true ↔
      f.dstEid.uri.map UInt8.toNat < g.dstEid.uri.map UInt8.toNat := decide_eq_true_iff
  have heq : (f.srcEid == g.srcEid) = true ↔
      f.srcEid.uri.map UInt8.toNat = g.srcEid.uri.map UInt8.toNat :=
    BpEndpointId.beq_iff.trans ⟨congrArg _, map_toNat_injective⟩
  rw [Prod.Lex.lt_iff]
  show _ ↔ f.srcEid.uri.map UInt8.toNat < g.srcEid.uri.map UInt8.toNat ∨
    f.srcEid.uri.map UInt8.toNat = g.srcEid.uri.map UInt8.toNat ∧
      f.dstEid.uri.map UInt8.toNat < g.dstEid.uri.map UInt8.toNat
  rw [← hsrc, ← hdst, ← heq]
  unfold lt bne
  cases f.srcEid.lt g.srcEid <;> cases f.srcEid == g.srcEid <;> simp

/-- **The comparator suits a search tree.** -/
theorem strictWeakOrder_lt : StrictWeakOrder lt := .of_key lt_iff

instance : Std.TransCmp (cmp lt) := strictWeakOrder_lt.transCmp

/-- Keys share an entry exactly when they are equal. -/
theorem cmp_eq_iff_beq {f g : BpFlowId} : cmp lt f g = .eq ↔ (f == g) = true := by
  rw [cmp_eq_iff, ← Bool.not_eq_true, ← Bool.not_eq_true, lt_iff, lt_iff, beq_iff, ← sortKey_inj,
    not_lt, not_lt]
  exact ⟨fun h => le_antisymm h.2 h.1, fun h => ⟨h.ge, h.le⟩⟩

end BpFlowId

/-- A bundle of either version. -/
inductive Bundle
  | six (b : Bundle6)
  | seven (b : Bundle7)

/-- The tuple that `Classify` reads off the primary header. -/
def Bundle.flowId : Bundle → BpFlowId
  | six b => ⟨b.primaryHeader.getSourceEid, b.primaryHeader.getDestinationEid⟩
  | seven b => ⟨b.primaryHeader.getSourceEid, b.primaryHeader.getDestinationEid⟩

/-! ## The classifier -/

/-- The comparator of `std::map<FlowId, FlowPacketId>`. -/
def flowIdLt (a b : UInt32) : Bool := decide (a.toNat < b.toNat)

theorem strictWeakOrder_flowIdLt : StrictWeakOrder flowIdLt := .of_key fun _ _ => decide_eq_true_iff

instance : Std.TransCmp (cmp flowIdLt) := strictWeakOrder_flowIdLt.transCmp

theorem cmp_flowIdLt_eq_iff {a b : UInt32} : cmp flowIdLt a b = .eq ↔ a = b := by
  rw [cmp_eq_iff, flowIdLt, flowIdLt, decide_eq_false_iff_not, decide_eq_false_iff_not,
    ← UInt32.toNat_inj]
  omega

/-- `BpFlowClassifier`. -/
structure BpFlowClassifier where
  flowMap : Std.TreeMap BpFlowId UInt32 (cmp BpFlowId.lt)
  flowPktIdMap : Std.TreeMap UInt32 UInt32 (cmp flowIdLt)
  /-- How many times `GetNewFlowId` was called. -/
  newFlowIds : ℕ

/-- What a call of `Classify` returns, with the two values that it hands out. -/
structure Classification where
  result : Bool
  outFlowId : UInt32
  outPacketId : UInt32

namespace BpFlowClassifier

def new : BpFlowClassifier := ⟨∅, ∅, 0⟩

-- what successive calls of `GetNewFlowId` return
variable (getNewFlowId : ℕ → UInt32)

/-- The body of `BpFlowClassifier::Classify`, on the tuple of the bundle. -/
def classifyTuple (c : BpFlowClassifier) (tuple : BpFlowId) : BpFlowClassifier × Classification :=
  let (present, flowMap) := c.flowMap.containsThenInsertIfNew tuple 0
  let c :=
    if !present then
      let newFlowId := getNewFlowId c.newFlowIds
      { flowMap := flowMap.modify tuple fun _ => newFlowId
        flowPktIdMap := update c.flowPktIdMap newFlowId 0 fun _ => 0
        newFlowIds := c.newFlowIds + 1 }
    else
      { c with
        flowMap := flowMap
        flowPktIdMap := update c.flowPktIdMap (flowMap.getD tuple 0) 0 fun packetId => packetId + 1 }
  let outFlowId := c.flowMap.getD tuple 0
  -- `operator []` makes an entry even when it only reads
  let flowPktIdMap := update c.flowPktIdMap outFlowId 0 id
  ({ c with flowPktIdMap := flowPktIdMap }, ⟨true, outFlowId, flowPktIdMap.getD outFlowId 0⟩)

/-- `BpFlowClassifier::Classify`. -/
def classify (c : BpFlowClassifier) (bundle : Bundle) : BpFlowClassifier × Classification :=
  c.classifyTuple getNewFlowId bundle.flowId

/-- Calls one after the other, with what they returned. -/
def classifyAll (bundles : List Bundle) : BpFlowClassifier × List Classification :=
  bundles.foldl (fun (c, outs) bundle =>
    let (c', out) := c.classify getNewFlowId bundle
    (c', outs ++ [out])) (new, [])

/-- Of the maps, a call changes the entry of its tuple and that of the flow id it hands out. -/
structure Assigns (c : BpFlowClassifier) (tuple : BpFlowId) (flowId packetId : UInt32)
    (r : BpFlowClassifier × Classification) : Prop where
  out : r.2 = ⟨true, flowId, packetId⟩
  flow : ∀ a, r.1.flowMap[a]? = if (tuple == a) = true then some flowId else c.flowMap[a]?
  packet : ∀ id, r.1.flowPktIdMap[id]? = if flowId = id then some packetId else c.flowPktIdMap[id]?

variable {getNewFlowId} {c : BpFlowClassifier} {tuple : BpFlowId}

theorem lookup_congr {a b : BpFlowId} (h : (a == b) = true) : c.flowMap[a]? = c.flowMap[b]? :=
  Std.TreeMap.getElem?_congr (BpFlowId.cmp_eq_iff_beq.mpr h)

theorem lookup_insert_flow {a : BpFlowId} : (c.flowMap.insertIfNew tuple 0)[a]? =
    if (tuple == a) = true then some (c.flowMap[tuple]?.getD 0) else c.flowMap[a]? := by
  rw [lookup_insert]
  simp only [BpFlowId.cmp_eq_iff_beq]

theorem lookup_update_packet {m : Std.TreeMap UInt32 UInt32 (cmp flowIdLt)} {k a d : UInt32}
    {f : UInt32 → UInt32} : (update m k d f)[a]? =
      if k = a then some (f (m[k]?.getD d)) else m[a]? := by
  rw [lookup_update]
  simp only [cmp_flowIdLt_eq_iff]

/-- Reading through `operator []` what was just written changes nothing. -/
theorem lookup_reread {m : Std.TreeMap UInt32 UInt32 (cmp flowIdLt)} {k a d : UInt32}
    {f : UInt32 → UInt32} : (update (update m k d f) k d id)[a]? = (update m k d f)[a]? := by
  rw [lookup_update_packet, lookup_update_packet, lookup_update_packet, if_pos rfl]
  split <;> rfl

/-- **The first packet of a flow** gets a new flow id. -/
theorem classifyTuple_of_none {newFlowId : UInt32} (h : c.flowMap[tuple]? = none)
    (hnew : getNewFlowId c.newFlowIds = newFlowId) :
    c.Assigns tuple newFlowId 0 (c.classifyTuple getNewFlowId tuple) ∧
    (c.classifyTuple getNewFlowId tuple).1.newFlowIds = c.newFlowIds + 1 := by
  have hflow : ∀ a, ((c.flowMap.insertIfNew tuple 0).modify tuple fun _ => newFlowId)[a]? =
      if (tuple == a) = true then some newFlowId else c.flowMap[a]? := by
    intro a
    rw [Std.TreeMap.getElem?_modify, lookup_insert_flow, lookup_insert_flow, if_pos BEq.rfl]
    simp only [BpFlowId.cmp_eq_iff_beq]
    split <;> rfl
  unfold classifyTuple
  simp only [containsThenInsertIfNew_eq, Std.TreeMap.getD_eq_getD_getElem?, h, hnew, hflow,
    Option.isSome_none, Bool.not_false, if_true, BEq.rfl, Option.getD_some]
  refine ⟨⟨?_, hflow, ?_⟩, trivial⟩
  · rw [lookup_reread, lookup_update_packet, if_pos rfl, Option.getD_some]
  · intro id
    rw [lookup_reread, lookup_update_packet]

/-- **A later packet of a flow** gets the next packet id. -/
theorem classifyTuple_of_some (getNewFlowId : ℕ → UInt32) {flowId packetId : UInt32}
    (h : c.flowMap[tuple]? = some flowId)
    (hpacket : c.flowPktIdMap[flowId]? = some packetId) :
    c.Assigns tuple flowId (packetId + 1) (c.classifyTuple getNewFlowId tuple) ∧
    (c.classifyTuple getNewFlowId tuple).1.newFlowIds = c.newFlowIds := by
  have hflow : ∀ a, (c.flowMap.insertIfNew tuple 0)[a]? =
      if (tuple == a) = true then some flowId else c.flowMap[a]? := by
    intro a
    rw [lookup_insert_flow, h, Option.getD_some]
  unfold classifyTuple
  simp only [containsThenInsertIfNew_eq, Std.TreeMap.getD_eq_getD_getElem?, h, hflow,
    Option.isSome_some, Bool.not_true, Bool.false_eq_true, if_false, BEq.rfl, if_true, Option.getD_some]
  refine ⟨⟨?_, hflow, ?_⟩, trivial⟩
  · rw [lookup_reread, lookup_update_packet, if_pos rfl, hpacket, Option.getD_some, Option.getD_some]
  · intro id
    rw [lookup_reread, lookup_update_packet, hpacket, Option.getD_some]

/-! ## Runs -/

/-- An element of a list with one more at its end. -/
theorem getElem?_concat {α : Type} {l : List α} {x y : α} {i : ℕ} (h : (l ++ [x])[i]? = some y) :
    i < l.length ∧ l[i]? = some y ∨ i = l.length ∧ x = y := by
  rcases Nat.lt_trichotomy i l.length with hi | rfl | hi
  · rw [List.getElem?_append_left hi] at h
    exact Or.inl ⟨hi, h⟩
  · rw [List.getElem?_concat_length] at h
    exact Or.inr ⟨rfl, Option.some.inj h⟩
  · rw [List.getElem?_eq_none (by rw [List.length_append, List.length_singleton]; omega)] at h
    cases h

/-- The calls on equal tuples. -/
def callsOf (tuple : BpFlowId) (flows : List BpFlowId) : ℕ := flows.countP fun f => tuple == f

theorem callsOf_concat {f : BpFlowId} {flows : List BpFlowId} :
    callsOf f (flows ++ [tuple]) = callsOf f flows + if (f == tuple) = true then 1 else 0 := by
  rw [callsOf, List.countP_append, List.countP_singleton, callsOf]

theorem callsOf_congr {f g : BpFlowId} (h : (f == g) = true) (flows : List BpFlowId) :
    callsOf f flows = callsOf g flows := by
  refine List.countP_congr fun a _ => ?_
  rw [BEq.congr_left h]

/-- After calls on `flows`, which returned `outs`: the flow ids of unequal tuples differ, the packet ids
are those of the calls on equal tuples counted from zero, and what was handed out for a tuple is what
the map holds for it. -/
structure Numbers (getNewFlowId : ℕ → UInt32) (flows : List BpFlowId) (c : BpFlowClassifier)
    (outs : List Classification) : Prop where
  length : outs.length = flows.length
  newFlowIds_le : c.newFlowIds ≤ flows.length
  issued : ∀ (f : BpFlowId) (id : UInt32), c.flowMap[f]? = some id →
    ∃ n < c.newFlowIds, getNewFlowId n = id
  distinct : ∀ (f g : BpFlowId) (id : UInt32), c.flowMap[f]? = some id → c.flowMap[g]? = some id →
    (f == g) = true
  unseen : ∀ f : BpFlowId, c.flowMap[f]? = none → callsOf f flows = 0
  counted : ∀ (f : BpFlowId) (id : UInt32), c.flowMap[f]? = some id →
    ∃ n, callsOf f flows = n + 1 ∧ c.flowPktIdMap[id]? = some (UInt32.ofNat n)
  handed : ∀ (i : ℕ) (f : BpFlowId) (out : Classification), flows[i]? = some f → outs[i]? = some out →
    c.flowMap[f]? = some out.outFlowId ∧ out.outPacketId = UInt32.ofNat (callsOf f (flows.take i))

theorem lookup_new (f : BpFlowId) : new.flowMap[f]? = none := Std.TreeMap.getElem?_emptyc

theorem Numbers.initial : Numbers getNewFlowId [] new [] where
  length := rfl
  newFlowIds_le := Nat.le_refl 0
  issued := fun f _ h => absurd ((lookup_new f).symm.trans h) (Option.some_ne_none _).symm
  distinct := fun f _ _ h => absurd ((lookup_new f).symm.trans h) (Option.some_ne_none _).symm
  unseen := fun _ _ => rfl
  counted := fun f _ h => absurd ((lookup_new f).symm.trans h) (Option.some_ne_none _).symm
  handed := fun _ _ _ h => by cases h

variable {flows : List BpFlowId} {outs : List Classification} {flowId packetId : UInt32}
  {r : BpFlowClassifier × Classification}

/-- The entries of other tuples are old ones. -/
theorem Assigns.flow_cases (hr : c.Assigns tuple flowId packetId r) {f : BpFlowId} {id : UInt32}
    (hf : r.1.flowMap[f]? = some id) :
    (tuple == f) = true ∧ id = flowId ∨ (tuple == f) = false ∧ c.flowMap[f]? = some id := by
  rw [hr.flow] at hf
  cases hkey : tuple == f with
  | true =>
    rw [hkey, if_pos rfl] at hf
    exact Or.inl ⟨rfl, (Option.some.inj hf).symm⟩
  | false =>
    rw [hkey, if_neg Bool.false_ne_true] at hf
    exact Or.inr ⟨rfl, hf⟩

/-- No old entry is lost when that of the tuple keeps its flow id. -/
theorem Assigns.flow_of_some (hr : c.Assigns tuple flowId packetId r)
    (hold : ∀ id : UInt32, c.flowMap[tuple]? = some id → id = flowId) {f : BpFlowId} {id : UInt32}
    (hf : c.flowMap[f]? = some id) : r.1.flowMap[f]? = some id := by
  rw [hr.flow]
  split
  · rename_i hkey
    rw [hold id ((lookup_congr hkey).trans hf)]
  · exact hf

/-- **The step.** A call keeps the numbering when it hands out the flow id of its tuple alone, and the
number of earlier calls on it. -/
theorem Numbers.assigns (h : Numbers getNewFlowId flows c outs) (hr : c.Assigns tuple flowId packetId r)
    (hold : ∀ id : UInt32, c.flowMap[tuple]? = some id → id = flowId)
    (hother : ∀ f : BpFlowId, c.flowMap[f]? = some flowId → (tuple == f) = true)
    (hpacket : packetId = UInt32.ofNat (callsOf tuple flows))
    (hissued : ∃ n < r.1.newFlowIds, getNewFlowId n = flowId)
    (hmono : c.newFlowIds ≤ r.1.newFlowIds) (hle : r.1.newFlowIds ≤ flows.length + 1) :
    Numbers getNewFlowId (flows ++ [tuple]) r.1 (outs ++ [r.2]) := by
  constructor
  · rw [List.length_append, List.length_append, h.length]
    rfl
  · rw [List.length_append]
    exact hle
  · intro f id hf
    rcases hr.flow_cases hf with ⟨-, rfl⟩ | ⟨-, hf⟩
    · exact hissued
    · obtain ⟨n, hn, hid⟩ := h.issued f id hf
      exact ⟨n, Nat.lt_of_lt_of_le hn hmono, hid⟩
  · intro f g id hf hg
    rcases hr.flow_cases hf with ⟨hf, rfl⟩ | ⟨-, hf⟩
    · rcases hr.flow_cases hg with ⟨hg, -⟩ | ⟨-, hg⟩
      · exact BEq.trans (BEq.symm hf) hg
      · exact BEq.trans (BEq.symm hf) (hother g hg)
    · rcases hr.flow_cases hg with ⟨hg, rfl⟩ | ⟨-, hg⟩
      · exact BEq.trans (BEq.symm (hother f hf)) hg
      · exact h.distinct f g id hf hg
  · intro f hf
    rw [hr.flow] at hf
    split at hf
    · cases hf
    · rename_i hkey
      rw [callsOf_concat, h.unseen f hf, BEq.comm, if_neg hkey]
  · intro f id hf
    rw [hr.packet]
    rcases hr.flow_cases hf with ⟨hkey, rfl⟩ | ⟨hkey, hf⟩
    · refine ⟨callsOf tuple flows, ?_, ?_⟩
      · rw [callsOf_concat, callsOf_congr hkey, BEq.comm, if_pos hkey]
      · rw [if_pos rfl, hpacket]
    · obtain ⟨n, hn, hid⟩ := h.counted f id hf
      refine ⟨n, ?_, ?_⟩
      · rw [callsOf_concat, hn, BEq.comm, hkey, if_neg Bool.false_ne_true]
      · rw [if_neg, hid]
        rintro rfl
        rw [hother f hf] at hkey
        cases hkey
  · intro i f out hf hout
    rcases getElem?_concat hf with ⟨hi, hf⟩ | ⟨rfl, rfl⟩
    · rw [List.getElem?_append_left (by rw [h.length]; exact hi)] at hout
      rw [List.take_append_of_le_length (Nat.le_of_lt hi)]
      obtain ⟨hid, hnumber⟩ := h.handed i f out hf hout
      exact ⟨hr.flow_of_some hold hid, hnumber⟩
    · rw [← h.length, List.getElem?_concat_length] at hout
      cases hout
      rw [List.take_left, hr.out, hr.flow, if_pos BEq.rfl]
      exact ⟨rfl, hpacket⟩

/-- **One call keeps the numbering**, as long as `GetNewFlowId` returns fresh ids. -/
theorem Numbers.classify (h : Numbers getNewFlowId flows c outs)
    (hfresh : ∀ i ≤ flows.length, ∀ j ≤ flows.length, getNewFlowId i = getNewFlowId j → i = j) :
    Numbers getNewFlowId (flows ++ [tuple]) (c.classifyTuple getNewFlowId tuple).1
      (outs ++ [(c.classifyTuple getNewFlowId tuple).2]) := by
  cases hflow : c.flowMap[tuple]? with
  | none =>
    obtain ⟨hr, hcount⟩ := classifyTuple_of_none hflow (rfl : getNewFlowId c.newFlowIds = _)
    refine h.assigns hr ?_ ?_ ?_ ?_ ?_ ?_
    · intro id hid
      rw [hflow] at hid
      cases hid
    · intro f hf
      obtain ⟨n, hn, hid⟩ := h.issued f _ hf
      have heq := hfresh n (by have := h.newFlowIds_le; omega) _ h.newFlowIds_le hid
      omega
    · rw [h.unseen tuple hflow]
      rfl
    · exact ⟨c.newFlowIds, by rw [hcount]; exact Nat.lt_succ_self _, rfl⟩
    · rw [hcount]
      exact Nat.le_succ _
    · rw [hcount]
      exact Nat.succ_le_succ h.newFlowIds_le
  | some id =>
    obtain ⟨n, hn, hpacket⟩ := h.counted tuple id hflow
    obtain ⟨hr, hcount⟩ := classifyTuple_of_some getNewFlowId hflow hpacket
    refine h.assigns hr ?_ ?_ ?_ ?_ ?_ ?_
    · intro id' hid
      rw [hflow] at hid
      exact (Option.some.inj hid).symm
    · exact fun f hf => h.distinct tuple f id hflow hf
    · rw [hn, UInt32.ofNat_add]
      rfl
    · rw [hcount]
      exact h.issued tuple id hflow
    · exact hcount.ge
    · rw [hcount]
      exact Nat.le_succ_of_le h.newFlowIds_le

/-- **The run.** -/
theorem numbers_classifyAll (bundles : List Bundle)
    (hfresh : ∀ i < bundles.length, ∀ j < bundles.length, getNewFlowId i = getNewFlowId j → i = j) :
    Numbers getNewFlowId (bundles.map Bundle.flowId) (classifyAll getNewFlowId bundles).1
      (classifyAll getNewFlowId bundles).2 := by
  induction bundles using List.reverseRecOn with
  | nil => exact Numbers.initial
  | append_singleton bundles bundle ih =>
    have hlength : (bundles ++ [bundle]).length = bundles.length + 1 := List.length_append
    have hbefore := ih fun i hi j hj => hfresh i (by omega) j (by omega)
    rw [List.map_append, classifyAll, List.foldl_concat, ← classifyAll]
    refine hbefore.classify fun i hi j hj => hfresh i ?_ j ?_
    · rw [List.length_map] at hi
      omega
    · rw [List.length_map] at hj
      omega

/-! ## What the calls return -/

/-- The calls on `bundles` returned the ids `outs`: one flow id for each pair of a source and a
destination, and in each flow the packet ids 0, 1, 2 and so on. -/
structure ConsistentNumbering (bundles : List Bundle) (outs : List Classification) : Prop where
  length : outs.length = bundles.length
  outFlowId : ∀ (i j : ℕ) (b b' : Bundle) (out out' : Classification),
    bundles[i]? = some b → bundles[j]? = some b' → outs[i]? = some out → outs[j]? = some out' →
    (out.outFlowId = out'.outFlowId ↔ (b.flowId == b'.flowId) = true)
  outPacketId : ∀ (i : ℕ) (b : Bundle) (out : Classification),
    bundles[i]? = some b → outs[i]? = some out →
    out.outPacketId.toNat = (bundles.take i).countP fun earlier => b.flowId == earlier.flowId
  nodup : (outs.map fun out => (out.outFlowId, out.outPacketId)).Nodup

/-- Each call on a tuple counts for the calls after it. -/
theorem callsOf_take_lt {f g : BpFlowId} {i j : ℕ} (hf : flows[i]? = some f) (hfg : (g == f) = true)
    (hij : i < j) : callsOf g (flows.take i) < callsOf g (flows.take j) := by
  have hnext : callsOf g (flows.take (i + 1)) = callsOf g (flows.take i) + 1 := by
    rw [List.take_add_one, hf, Option.toList_some, callsOf_concat, if_pos hfg]
  have hprefix : (flows.take (i + 1)).Sublist (flows.take j) := List.take_sublist_take_left hij
  have hle : callsOf g (flows.take (i + 1)) ≤ callsOf g (flows.take j) := hprefix.countP_le
  omega

theorem Numbers.outPacketId (h : Numbers getNewFlowId flows c outs) (hcalls : flows.length < 2 ^ 32)
    {i : ℕ} {f : BpFlowId} {out : Classification} (hf : flows[i]? = some f) (hout : outs[i]? = some out) :
    out.outPacketId.toNat = callsOf f (flows.take i) := by
  have hle : callsOf f (flows.take i) ≤ (flows.take i).length := List.countP_le_length
  have htake : (flows.take i).length ≤ flows.length := List.length_take_le' i flows
  rw [(h.handed i f out hf hout).2, UInt32.toNat_ofNat', Nat.mod_eq_of_lt (by omega)]

/-- Calls that hand out one flow id are on equal tuples. -/
theorem Numbers.outFlowId (h : Numbers getNewFlowId flows c outs) {i j : ℕ} {f g : BpFlowId}
    {out out' : Classification} (hf : flows[i]? = some f) (hg : flows[j]? = some g)
    (hout : outs[i]? = some out) (hout' : outs[j]? = some out') :
    out.outFlowId = out'.outFlowId ↔ (f == g) = true := by
  have hid := (h.handed i f out hf hout).1
  have hid' := (h.handed j g out' hg hout').1
  constructor
  · intro heq
    rw [← heq] at hid'
    exact h.distinct f g _ hid hid'
  · intro heq
    rw [lookup_congr heq, hid'] at hid
    exact (Option.some.inj hid).symm

/-- A later call on a flow hands out a larger packet id. -/
theorem Numbers.nodup (h : Numbers getNewFlowId flows c outs) (hcalls : flows.length < 2 ^ 32) :
    (outs.map fun out => (out.outFlowId, out.outPacketId)).Nodup := by
  rw [List.nodup_iff_pairwise_ne, List.pairwise_map, List.pairwise_iff_getElem]
  intro i j hi hj hij heq
  obtain ⟨hflow, hpacket⟩ := Prod.mk.inj heq
  have hi' : i < flows.length := h.length ▸ hi
  have hj' : j < flows.length := h.length ▸ hj
  have hbeq := (h.outFlowId (List.getElem?_eq_getElem hi') (List.getElem?_eq_getElem hj')
    (List.getElem?_eq_getElem hi) (List.getElem?_eq_getElem hj)).mp hflow
  have hlt := callsOf_take_lt (List.getElem?_eq_getElem hi') (BEq.symm hbeq) hij
  have hfirst := h.outPacketId hcalls (List.getElem?_eq_getElem hi') (List.getElem?_eq_getElem hi)
  have hsecond := h.outPacketId hcalls (List.getElem?_eq_getElem hj') (List.getElem?_eq_getElem hj)
  rw [hpacket, hsecond, callsOf_congr hbeq] at hfirst
  exact absurd hfirst hlt.ne'

/-- **Flow classification is a consistent numbering**, over fewer than 2^32 calls, in whatever order the
flows come. -/
theorem classify_numbering (getNewFlowId : ℕ → UInt32) (bundles : List Bundle)
    (hcalls : bundles.length < 2 ^ 32)
    (hfresh : ∀ i < bundles.length, ∀ j < bundles.length, getNewFlowId i = getNewFlowId j → i = j) :
    ConsistentNumbering bundles (classifyAll getNewFlowId bundles).2 := by
  have h := numbers_classifyAll bundles hfresh
  have hlength : (bundles.map Bundle.flowId).length = bundles.length := List.length_map ..
  have hmap : ∀ {i : ℕ} {b : Bundle}, bundles[i]? = some b →
      (bundles.map Bundle.flowId)[i]? = some b.flowId := by
    intro i b hb
    rw [List.getElem?_map, hb]
    rfl
  refine ⟨h.length.trans hlength, ?_, ?_, h.nodup (hlength ▸ hcalls)⟩
  · intro i j b b' out out' hb hb' hout hout'
    exact h.outFlowId (hmap hb) (hmap hb') hout hout'
  · intro i b out hb hout
    rw [h.outPacketId (hlength ▸ hcalls) (hmap hb) hout, callsOf, ← List.map_take, List.countP_map]
    rfl

/-- Two flows, of which the first has two packets. -/
def twoFlows : List Bundle :=
  [.six Sample.blank, .six { Sample.blank with primaryHeader := Sample.header 4 2 0 0 0 },
    .six Sample.blank]

theorem classify_numbering_twoFlows :
    ConsistentNumbering twoFlows (classifyAll (fun i => UInt32.ofNat (i + 1)) twoFlows).2 :=
  classify_numbering _ _ (by decide) (by decide)

example : ((classifyAll (fun i => UInt32.ofNat (i + 1)) twoFlows).2.map fun out =>
    (out.outFlowId, out.outPacketId)) = [(1, 0), (2, 0), (1, 1)] := by decide

end BpFlowClassifier
end BundleProtocol
