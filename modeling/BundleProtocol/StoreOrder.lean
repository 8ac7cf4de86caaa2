import BundleProtocol.AgentRun

/-! # The order of the store

The elements of `m_store` are ordered by headers that change while they are stored.
`SetIsFragment` changes no key; `SetFragOffset` in `Forward` does, and the set is not
told.  `KeepsPlace` says that the offset `Forward` leaves behind does not move the bundle
past another stored one; in every run in which each call of `Forward` meets it the store
stays ordered, and `Remove` finds what it looks for.
-/
namespace BundleProtocol
open TransitionSystem OrderedList

/-- Below 2³¹ the comparator is the lexicographic order of the sort keys. -/
theorem bundlePriorityCompare_iff_of_lt {g h : BpHeader6} {p q : Ptr}
    (hg : g.timestampSeqNum.toNat < 2 ^ 31) (hh : h.timestampSeqNum.toNat < 2 ^ 31) :
    bundlePriorityCompare g h p q = true ↔ sortKey g p < sortKey h q :=
  bundlePriorityCompare_iff (seqLt_of_lt hg hh)

/-- Below 2³¹ the comparator is transitive. -/
theorem bundlePriorityCompare_trans {g h k : BpHeader6} {p q r : Ptr}
    (hg : g.timestampSeqNum.toNat < 2 ^ 31) (hh : h.timestampSeqNum.toNat < 2 ^ 31)
    (hk : k.timestampSeqNum.toNat < 2 ^ 31) (hgh : bundlePriorityCompare g h p q = true)
    (hhk : bundlePriorityCompare h k q r = true) : bundlePriorityCompare g k p r = true := by
  have hgh' := (bundlePriorityCompare_iff_of_lt hg hh).mp hgh
  have hhk' := (bundlePriorityCompare_iff_of_lt hh hk).mp hhk
  exact (bundlePriorityCompare_iff_of_lt hg hk).mpr (lt_trans hgh' hhk')

namespace BpAgent6
variable {s t : BpAgent6} {b q x : Ptr}

/-- A healthy store whose bundles have sequence numbers below 2³¹. -/
structure Orderly (s : BpAgent6) : Prop extends s.Healthy where
  seq : ∀ x ∈ s.mStore, (s.header x).timestampSeqNum.toNat < 2 ^ 31

theorem orderly_of_empty (h : s.mStore = []) : s.Orderly := by
  have hnone : ∀ x, x ∉ s.mStore := by
    rw [h]
    exact fun x => List.not_mem_nil
  refine ⟨⟨?_, fun x hx => absurd hx (hnone x)⟩, fun x hx => absurd hx (hnone x)⟩
  rw [BundleStore.Ordered, h]
  exact List.Pairwise.nil

/-! ## How the invariant moves -/

theorem Orderly.of_sameKeys (h : s.Orderly) (hkeys : SameKeys s t) : t.Orderly where
  toHealthy := h.toHealthy.of_sameKeys hkeys
  seq := by
    intro x hx
    rw [(hkeys.header x hx).timestampSeqNum]
    exact h.seq x (hkeys.mStore.subset hx)

/-- The store and its bundles are untouched. -/
theorem Orderly.of_heap (h : s.Orderly) (hstore : t.mStore = s.mStore) (hheap : t.heap = s.heap) :
    t.Orderly :=
  h.of_sameKeys (sameKeys_of_heap (hstore ▸ List.Sublist.refl _) fun x _ => congrFun hheap x)

/-- Insertion puts a new bundle in its place. -/
theorem Orderly.stored (h : s.Orderly) (hb : b ∉ s.mStore) (hadu : (s.heap b).adu ≠ none)
    (hseq : (s.header b).timestampSeqNum.toNat < 2 ^ 31) : (s.stored b).Orderly := by
  refine ⟨h.toHealthy.stored hb hadu fun y hy z hz hby hyz => ?_, fun x hx => ?_⟩
  · exact bundlePriorityCompare_trans hseq (h.seq y hy) (h.seq z hz) hby hyz
  · have hheader : (s.stored b).header x = s.header x := s.toBundleStore.header_stored b x
    rw [hheader]
    rcases BundleStore.mem_stored.mp hx with rfl | hx
    · exact hseq
    · exact h.seq x hx

theorem deliveryClosed_orderly : DeliveryClosed Orderly :=
  deliveryClosed_of_sameKeys fun h hkeys => h.of_sameKeys hkeys

/-! ## Forwarding -/

/-- When `Forward` sends the stored bundle at `b`, the offset of its last piece leaves it on
the same side of every other stored bundle. -/
def KeepsPlace (s : BpAgent6) (b : Ptr) : Prop :=
  ∀ cla adu, s.readyCla b = some cla → (s.heap b).adu = some adu → b ∈ s.mStore →
    ∀ x ∈ s.mStore, x ≠ b →
      bundlePriorityCompare ((s.header b).setFragOffset (s.sentOffset (s.header b) adu)) (s.header x)
        b x = s.compare b x

instance (s : BpAgent6) (b : Ptr) : Decidable (s.KeepsPlace b) :=
  decidable_of_iff (∀ cla ∈ s.readyCla b, ∀ adu ∈ (s.heap b).adu, b ∈ s.mStore →
    ∀ x ∈ s.mStore, x ≠ b →
      bundlePriorityCompare ((s.header b).setFragOffset (s.sentOffset (s.header b) adu)) (s.header x)
        b x = s.compare b x)
    ⟨fun h cla adu hcla hadu => h cla hcla adu hadu, fun h cla hcla adu hadu => h cla adu hcla hadu⟩

theorem sentOffset_of_fits {h : BpHeader6} {adu : Packet} (hoffset : h.fragOffset = 0)
    (hfits : adu.size ≤ s.config.bundleSize.toNat) : s.sentOffset h adu = h.fragOffset := by
  unfold sentOffset
  split
  · rfl
  · rw [hoffset, Nat.div_eq_of_lt (by omega), Nat.zero_mul]
    rfl

/-- A bundle that goes out in one piece keeps its place. -/
theorem keepsPlace_of_fits (hoffset : (s.header b).fragOffset = 0)
    (hfits : ∀ adu, (s.heap b).adu = some adu → adu.size ≤ s.config.bundleSize.toNat) :
    s.KeepsPlace b := by
  intro cla adu _ hadu _ x _ _
  rw [sentOffset_of_fits hoffset (hfits adu hadu)]
  rfl

theorem header_sent_of_ne {cla : ClaId} {adu : Packet} (hx : x ≠ b) :
    (s.sent b cla adu).header x = s.header x :=
  congrArg Bundle6.primaryHeader (heap_sent_of_ne hx)

/-- How the sent bundle compares with another one. -/
theorem compare_sent {cla : ClaId} {adu : Packet} (hm : s.config.bundleSize ≠ 0 ∨ adu.size = 0)
    (hx : x ≠ b) : (s.sent b cla adu).compare b x =
      bundlePriorityCompare ((s.header b).setFragOffset (s.sentOffset (s.header b) adu)) (s.header x)
        b x := by
  have hbundle := s.sentBundle b cla hm
  have hsame : ((s.header b).setFragOffset (s.sentOffset (s.header b) adu)).SameBundle
      ((s.sent b cla adu).header b) :=
    ⟨hbundle.header.source, hbundle.header.destination, hbundle.header.custodian,
      hbundle.header.createTimestamp, hbundle.header.timestampSeqNum, hbundle.header.lifeTime,
      hbundle.header.aduLength, hbundle.header.priority, hbundle.header.custTxReq⟩
  unfold BundleStore.compare
  rw [header_sent_of_ne hx]
  exact bundlePriorityCompare_congr hsame hbundle.fragOffset (.refl _) rfl b x

/-- Below 2³¹ at most one of two bundles comes first. -/
theorem Orderly.compare_asymm (h : s.Orderly) {y : Ptr} (hx : x ∈ s.mStore) (hy : y ∈ s.mStore)
    (hxy : s.compare x y = true) : s.compare y x = false := by
  by_contra hyx
  have hyx' := (bundlePriorityCompare_iff_of_lt (h.seq y hy) (h.seq x hx)).mp (eq_true_of_ne_false hyx)
  have hxy' := (bundlePriorityCompare_iff_of_lt (h.seq x hx) (h.seq y hy)).mp hxy
  exact lt_asymm hxy' hyx'

/-- Sending keeps the order when the bundle keeps its place. -/
theorem Orderly.sent (h : s.Orderly) {cla : ClaId} {adu : Packet}
    (hm : s.config.bundleSize ≠ 0 ∨ adu.size = 0)
    (hplace : b ∈ s.mStore → ∀ x ∈ s.mStore, x ≠ b →
      bundlePriorityCompare ((s.header b).setFragOffset (s.sentOffset (s.header b) adu)) (s.header x)
        b x = s.compare b x) : (s.sent b cla adu).Orderly := by
  obtain ⟨hstore, -⟩ := s.rest_sent b cla adu
  refine ⟨⟨?_, ?_⟩, ?_⟩
  · show OrderedList.Ordered (s.sent b cla adu).compare (s.sent b cla adu).mStore
    rw [hstore]
    refine List.Pairwise.imp_of_mem ?_ h.ordered
    intro x y hx hy hxy
    by_cases hxb : x = b
    · subst hxb
      by_cases hyx : y = x
      · subst hyx
        rw [BundleStore.compare, bundlePriorityCompare_irrefl] at hxy
        cases hxy
      · rw [compare_sent hm hyx, hplace hx y hy hyx]
        exact hxy
    · by_cases hyb : y = b
      · subst hyb
        -- the comparator is total, and the other answer contradicts the old order
        have hnot : (s.sent y cla adu).compare y x = false := by
          rw [compare_sent hm hxb, hplace hy x hx hxb]
          exact h.compare_asymm hx hy hxy
        exact bundlePriorityCompare_total (Ne.symm hxb) hnot
      · unfold BundleStore.compare
        rwa [header_sent_of_ne hxb, header_sent_of_ne hyb]
  · rw [hstore]
    intro x hx
    rw [adu_sent hm]
    exact h.adu x hx
  · rw [hstore]
    intro x hx
    rw [(header_sent hm x).timestampSeqNum]
    exact h.seq x hx

theorem Orderly.forward (h : s.Orderly) (hplace : s.KeepsPlace b) (hrun : s.forward b = some t) :
    t.Orderly := by
  rcases forward_eq_some.mp hrun with ⟨-, rfl⟩ | ⟨cla, adu, hcla, hadu, hm, hcase⟩
  · exact h.of_sameKeys (sameKeys_modify (fun _ => .refl _) (fun _ => rfl) fun _ hadu => hadu)
  · have hsent : (s.sent b cla adu).Orderly := h.sent hm (hplace cla adu hcla hadu)
    rcases hcase with ⟨-, rfl⟩ | ⟨-, -, rfl⟩
    · exact hsent
    · exact hsent.of_sameKeys (sameKeys_discarded hsent.ordered b)

/-! ## Runs -/

/-- The sequence numbers an operation brings in lie below 2³¹. -/
def SmallSequenceNumbers (s : BpAgent6) : Op → Prop
  | .send .. => s.seq.toNat < 2 ^ 31
  | .processBundle _ _ rx => rx.header.timestampSeqNum.toNat < 2 ^ 31 ∧ s.seq.toNat < 2 ^ 31
  | _ => True

theorem SmallSequenceNumbers.next {op : Op} (h : s.SmallSequenceNumbers op) (hop : Numbers op) :
    s.seq.toNat < 2 ^ 31 := by
  cases op with
  | send => exact h
  | processBundle => exact h.2
  | claReady => exact hop.elim
  | receive => exact hop.elim
  | fire => exact hop.elim
  | advance => exact hop.elim
  | configure => exact hop.elim

instance (s : BpAgent6) : (op : Op) → Decidable (s.SmallSequenceNumbers op)
  | .send .. => inferInstanceAs (Decidable (s.seq.toNat < 2 ^ 31))
  | .processBundle .. => inferInstanceAs (Decidable (_ ∧ _))
  | .claReady _ => inferInstanceAs (Decidable True)
  | .receive _ => inferInstanceAs (Decidable True)
  | .fire _ => inferInstanceAs (Decidable True)
  | .advance _ => inferInstanceAs (Decidable True)
  | .configure _ => inferInstanceAs (Decidable True)

theorem Orderly.acceptBundle {rx : ReceivedBundle} (h : s.Orderly) (hb : b ∉ s.mStore)
    (hseq : rx.header.timestampSeqNum.toNat < 2 ^ 31) (hrun : s.acceptBundle b rx = some t) :
    t.Orderly := by
  have harrived : (s.arrived b rx).Orderly := h.of_sameKeys (sameKeys_modify_of_not_mem hb _)
  have hself : (s.arrived b rx).heap b = arrivedBundle rx := heap_modify_self s b _
  have hheader : (s.arrived b rx).header b = rx.header := congrArg Bundle6.primaryHeader hself
  rcases acceptBundle_eq_some.mp hrun with ⟨-, rfl⟩ | ⟨-, -, rfl⟩
  · exact harrived
  · refine harrived.stored hb ?_ ?_
    · rw [hself]
      exact Option.some_ne_none rx.adu
    · rw [hheader]
      exact hseq

theorem Orderly.createBundle {p : Packet} {src dst : BpEndpointId} {lifetime : Time}
    {custody : Bool} {priority : UInt32} (h : s.Orderly) (hb : b ∉ s.mStore)
    (hseq : s.seq.toNat < 2 ^ 31)
    (hrun : s.createBundle b p src dst lifetime custody priority = some t) : t.Orderly := by
  obtain ⟨hdr, hnew, hcase⟩ := createBundle_eq_some.mp hrun
  have hmodified : (s.modify b fun _ => createdBundle hdr p custody).Orderly :=
    h.of_sameKeys (sameKeys_modify_of_not_mem hb _)
  have hcreated : (s.created b hdr p custody).Orderly := hmodified.of_heap rfl rfl
  have hself : (s.created b hdr p custody).heap b = createdBundle hdr p custody :=
    heap_modify_self s b _
  have hheader : (s.created b hdr p custody).header b = hdr := congrArg Bundle6.primaryHeader hself
  rcases hcase with ⟨-, rfl⟩ | ⟨-, -, rfl⟩
  · exact hcreated
  · refine hcreated.stored hb ?_ ?_
    · rw [hself]
      exact Option.some_ne_none p
    · rw [hheader, (newHeader_spec hnew).timestampSeqNum]
      exact hseq

/-- **One operation keeps the order** when each bundle it forwards keeps its place. -/
theorem Orderly.step {op : Op} (h : s.Orderly) (hop : s.Admissible op)
    (hseq : s.SmallSequenceNumbers op)
    (hplace : ∀ x s', ForwardCall s op x s' → s'.KeepsPlace x)
    (hstep : BpAgent6.step op s = some t) : t.Orderly := by
  have hkept : KeptBy s op Orderly :=
    { same := fun hu hheap hstore _ => hu.of_heap hstore hheap
      discarded := fun hu hord => hu.of_sameKeys (sameKeys_discarded hord _)
      acceptBundle := by
        rintro b q rx u rfl hu
        exact h.acceptBundle hop.1.1 hseq.1 hu
      enqueue := fun _ _ _ hu hv => deliveryClosed_orderly.enqueueIfActive hu hv
      createBundle := by
        intro u v b p src dst lifetime custody priority hnumbers hequal hb hu hv
        refine hu.createBundle hb ?_ hv
        rw [hequal]
        exact hseq.next hnumbers
      forward := fun hcall hu hv => hu.forward (hplace _ _ hcall) hv }
  exact hkept.step h hop hstep

/-- The operation is possible, brings in small sequence numbers only, and every bundle it
forwards keeps its place. -/
structure OrderedOp (s : BpAgent6) (op : Op) : Prop where
  admissible : s.Admissible op
  seq : s.SmallSequenceNumbers op
  place : ∀ x s', ForwardCall s op x s' → s'.KeepsPlace x

/-- Every run in which forwarded bundles keep their place keeps the order. -/
theorem orderly_run {guard : BpAgent6 → Op → Prop} {ops : List Op}
    (hguard : ∀ s op, guard s op → s.OrderedOp op) (hs : s.Orderly) (hrun : Run guard step s ops t) :
    t.Orderly := by
  refine hrun.invariant Orderly ?_ hs
  intro s op t h hop hstep
  have hordered := hguard s op hop
  exact h.step hordered.admissible hordered.seq hordered.place hstep

/-! ## The calls of `Forward`, one by one -/

/-- `Send` calls `Forward` on the bundle it has created. -/
def sendCalls (s : BpAgent6) (b : Ptr) (p : Packet) (src dst : BpEndpointId) (lifetime : Time)
    (custody : Bool) (priority : UInt32) : List (Ptr × BpAgent6) :=
  if src != defaultEid && !s.isNodeMember src then []
  else ((s.createBundle b p src dst lifetime custody priority).map fun u => (b, u)).toList

/-- `Deliver` sends a custody signal. -/
def deliverCalls (s : BpAgent6) (b q : Ptr) : List (Ptr × BpAgent6) :=
  ((s.findRegistration (s.header b).getDestinationEid).bind fun state =>
    (s.enqueueIfActive b state).bind fun v => (v.custodySignalPacket b).map fun (cs, p) =>
      if (v.header b).custTxReq then
        (v.signalLogged b cs).sendCalls q p v.config.eid (v.header b).getCustEid (v.header b).lifeTime
          false 0
      else []).getD []

/-- `ClaReady` calls it for one bundle after the other. -/
def forwardAllCalls : List Ptr → BpAgent6 → List (Ptr × BpAgent6)
  | [], _ => []
  | b :: rest, s => (b, s) :: ((s.forward b).map fun t => forwardAllCalls rest t).getD []

/-- All calls of an operation, each with the state it is made in. -/
def forwardCalls (s : BpAgent6) : Op → List (Ptr × BpAgent6)
  | .send b p src dst lifetime custody priority => s.sendCalls b p src dst lifetime custody priority
  | .processBundle b q rx => ((s.acceptBundle b rx).map fun u =>
      (if u.isNodeMember (u.header b).getDestinationEid then [] else [(b, u)]) ++
        u.deliverCalls b q).getD []
  | .claReady cla => forwardAllCalls (s.getForwardPendingBundles cla s.outgoingCla) s
  | .fire e => match e.call with
    | .forward b => [(b, s.popEvent e)]
    | .expire _ => []
  | _ => []

theorem mem_getD_nil {α β : Type} {o : Option α} {f : α → List β} {c : β} :
    c ∈ (o.map f).getD [] ↔ ∃ a, o = some a ∧ c ∈ f a := by
  cases o <;> simp

theorem mem_sendCalls {p : Packet} {src dst : BpEndpointId} {lifetime : Time} {custody : Bool}
    {priority : UInt32} : (x, t) ∈ s.sendCalls b p src dst lifetime custody priority ↔
      (src != defaultEid && !s.isNodeMember src) = false ∧
        s.createBundle b p src dst lifetime custody priority = some t ∧ x = b := by
  unfold sendCalls
  split
  · rename_i hsrc
    simp [hsrc]
  · rename_i hsrc
    simp only [eq_false_of_ne_true hsrc, true_and]
    cases s.createBundle b p src dst lifetime custody priority with
    | none => simp
    | some u => simp [and_comm, eq_comm]

theorem mem_deliverCalls : (x, t) ∈ s.deliverCalls b q ↔
    ∃ state v cs p, s.findRegistration (s.header b).getDestinationEid = some state ∧
      s.enqueueIfActive b state = some v ∧ v.custodySignalPacket b = some (cs, p) ∧
      (v.header b).custTxReq = true ∧
      (v.config.eid != defaultEid && !v.isNodeMember v.config.eid) = false ∧
      (v.signalLogged b cs).createBundle q p v.config.eid (v.header b).getCustEid
        (v.header b).lifeTime false 0 = some t ∧ x = q := by
  unfold deliverCalls
  cases s.findRegistration (s.header b).getDestinationEid with
  | none => simp
  | some state =>
    cases hv : s.enqueueIfActive b state with
    | none => simp [hv]
    | some v =>
      cases hpacket : v.custodySignalPacket b with
      | none => simp [hv, hpacket]
      | some r =>
        obtain ⟨cs, p⟩ := r
        by_cases hcust : (v.header b).custTxReq = true
        · have hsrc : ∀ src, (v.signalLogged b cs).isNodeMember src = v.isNodeMember src :=
            fun _ => rfl
          simp [hv, hpacket, hcust, mem_sendCalls, hsrc]
        · simp [hv, hpacket, hcust]

theorem mem_forwardAllCalls {l : List Ptr} : (x, t) ∈ s.forwardAllCalls l ↔
    ∃ before after, l = before ++ x :: after ∧ s.forwardAll before = some t := by
  induction l generalizing s with
  | nil => simp [forwardAllCalls]
  | cons y l ih =>
    rw [forwardAllCalls, List.mem_cons, mem_getD_nil]
    constructor
    · rintro (heq | ⟨u, hu, hmem⟩)
      · cases heq
        exact ⟨[], l, rfl, rfl⟩
      · obtain ⟨before, after, rfl, hbefore⟩ := ih.mp hmem
        exact ⟨y :: before, after, rfl, Option.bind_eq_some_iff.mpr ⟨u, hu, hbefore⟩⟩
    · rintro ⟨before, after, hl, hbefore⟩
      cases before with
      | nil =>
        cases (List.cons_eq_cons.mp hl).1
        cases hbefore
        exact Or.inl rfl
      | cons z before =>
        obtain ⟨rfl, hrest⟩ := List.cons_eq_cons.mp hl
        obtain ⟨u, hu, hbefore⟩ := Option.bind_eq_some_iff.mp hbefore
        exact Or.inr ⟨u, hu, ih.mpr ⟨before, after, hrest, hbefore⟩⟩

theorem forwardCall_iff {op : Op} : ForwardCall s op x t ↔ (x, t) ∈ s.forwardCalls op := by
  constructor
  · intro hcall
    cases hcall with
    | send hsrc hcreate => exact mem_sendCalls.mpr ⟨hsrc, hcreate, rfl⟩
    | relay haccept hdst =>
      refine mem_getD_nil.mpr ⟨t, haccept, List.mem_append_left _ ?_⟩
      simp [hdst]
    | custodySignal haccept hfind henqueue hcust hpacket hsrc hcreate =>
      refine mem_getD_nil.mpr ⟨_, haccept, List.mem_append_right _ (mem_deliverCalls.mpr ?_)⟩
      exact ⟨_, _, _, _, hfind, henqueue, hpacket, hcust, hsrc, hcreate, rfl⟩
    | claReady hbundles hbefore => exact mem_forwardAllCalls.mpr ⟨_, _, hbundles, hbefore⟩
    | retransmission hcall => simp [forwardCalls, hcall]
  · intro hmem
    cases op with
    | send b p src dst lifetime custody priority =>
      obtain ⟨hsrc, hcreate, rfl⟩ := mem_sendCalls.mp hmem
      exact .send hsrc hcreate
    | processBundle b q rx =>
      obtain ⟨u, haccept, hmem⟩ := mem_getD_nil.mp hmem
      rcases List.mem_append.mp hmem with hrelay | hsignal
      · by_cases hlocal : u.isNodeMember (u.header b).getDestinationEid = true
        · simp [hlocal] at hrelay
        · rw [if_neg hlocal] at hrelay
          cases List.mem_singleton.mp hrelay
          exact .relay haccept (eq_false_of_ne_true hlocal)
      · obtain ⟨state, v, cs, p, hfind, henqueue, hpacket, hcust, hsrc, hcreate, rfl⟩ :=
          mem_deliverCalls.mp hsignal
        exact .custodySignal haccept hfind henqueue hcust hpacket hsrc hcreate
    | claReady cla =>
      obtain ⟨before, after, hbundles, hbefore⟩ := mem_forwardAllCalls.mp hmem
      exact .claReady hbundles hbefore
    | fire e =>
      have hfire : (x, t) ∈ (match e.call with
          | .forward b => [(b, s.popEvent e)]
          | .expire _ => []) := hmem
      cases hcall : e.call with
      | expire c =>
        rw [hcall] at hfire
        cases hfire
      | forward c =>
        rw [hcall] at hfire
        cases List.mem_singleton.mp hfire
        exact .retransmission hcall
    | receive _ => cases hmem
    | advance _ => cases hmem
    | configure _ => cases hmem

instance (s : BpAgent6) (op : Op) : Decidable (s.OrderedOp op) :=
  decidable_of_iff (s.Admissible op ∧ s.SmallSequenceNumbers op ∧
      ∀ c ∈ s.forwardCalls op, c.2.KeepsPlace c.1)
    ⟨fun h => ⟨h.1, h.2.1, fun x s' hcall => h.2.2 (x, s') (forwardCall_iff.mp hcall)⟩,
      fun h => ⟨h.admissible, h.seq, fun c hc => h.place c.1 c.2 (forwardCall_iff.mpr hc)⟩⟩

/-- **The store stays ordered** in every run in which forwarded bundles keep their place:
its elements increase, and `Remove` of any of them takes out that one. -/
theorem store_ordered {ops : List Op} (hinit : s.Initial) (hrun : Run OrderedOp step s ops t) :
    (t.mStore.Pairwise fun x y => t.compare x y = true) ∧
      ∀ b ∈ t.mStore, ∃ st, t.toBundleStore.remove b = some st ∧
        ∀ x, x ∈ st.mStore ↔ x ≠ b ∧ x ∈ t.mStore := by
  have horderly : t.Orderly := orderly_run (fun _ _ hop => hop) (orderly_of_empty hinit.mStore) hrun
  refine ⟨horderly.ordered, fun b hb => ?_⟩
  exact ⟨_, BundleStore.remove_eq_some.mpr ⟨horderly.ordered, fun _ => horderly.adu b hb, rfl⟩,
    fun _ => horderly.ordered.mem_removed⟩

/-- Two custody bundles are sent and kept, the second beside the first. -/
theorem store_ordered_sample :
    let first := Op.send 1 ⟨[10], by decide⟩ (Sample.eid 98) (Sample.eid 97) 0 true 0
    let second := Op.send 2 ⟨[11, 12], by decide⟩ (Sample.eid 98) (Sample.eid 97) 0 true 0
    ∃ t, Run OrderedOp step (Sample.agent 1 true) [first, second] t ∧ t.mStore = [1, 2] ∧
      (t.handed.map fun tx => tx.bundle) = [1, 2, 2] ∧ (t.header 2).fragOffset = 1 ∧
      (t.mStore.Pairwise fun x y => t.compare x y = true) ∧
      ∀ b ∈ t.mStore, ∃ st, t.toBundleStore.remove b = some st ∧
        ∀ x, x ∈ st.mStore ↔ x ≠ b ∧ x ∈ t.mStore := by
  intro first second
  obtain ⟨t, hrun, ht⟩ := exists_run_of_exec OrderedOp step (Sample.agent 1 true) [first, second]
    (fun t => decide (t.mStore = [1, 2] ∧ (t.handed.map fun tx => tx.bundle) = [1, 2, 2] ∧
      (t.header 2).fragOffset = 1)) (by decide +kernel)
  obtain ⟨hstore, hhanded, hoffset⟩ := of_decide_eq_true ht
  exact ⟨t, hrun, hstore, hhanded, hoffset, store_ordered (Sample.initial_agent 1 true) hrun⟩

/-- A custody bundle of two bytes from `d:b` waits, and a bundle from `d:c` with the same
priority, time and sequence number is stored behind it.  Sent one byte at a time, the first
is left with the fragment offset one, and stands before a bundle it should follow. -/
theorem store_disordered :
    let op := Op.send 1 ⟨[10, 11], by decide⟩ (Sample.eid 98) (Sample.eid 97) 0 true 0
    let rx := Sample.received (Sample.header 6 6 0 0 1) (by decide) [12] (by decide)
    ∃ t, Run (fun s op => s.Admissible op ∧ s.SmallSequenceNumbers op) step (Sample.agent 1 false)
      [op, .processBundle 2 3 rx, .configure (Sample.config 1 true), .claReady 0] t ∧
      t.mStore = [1, 2] ∧ t.compare 1 2 = false ∧
      ¬t.mStore.Pairwise fun x y => t.compare x y = true := by
  intro op rx
  obtain ⟨t, hrun, ht⟩ := exists_run_of_exec
    (fun s op => s.Admissible op ∧ s.SmallSequenceNumbers op) step (Sample.agent 1 false)
    [op, .processBundle 2 3 rx, .configure (Sample.config 1 true), .claReady 0]
    (fun t => decide (t.mStore = [1, 2] ∧ t.compare 1 2 = false)) (by decide +kernel)
  obtain ⟨hstore, hcompare⟩ := of_decide_eq_true ht
  refine ⟨t, hrun, hstore, hcompare, fun hpairwise => ?_⟩
  rw [hstore] at hpairwise
  have htrue := (List.pairwise_cons.mp hpairwise).1 2 List.mem_cons_self
  rw [hcompare] at htrue
  cases htrue

end BpAgent6
end BundleProtocol
