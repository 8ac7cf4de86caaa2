import BundleProtocol.SetSearch
import BundleProtocol.Stretch

/-! # The release of custody

A custody bundle keeps one acknowledged range.  Each succeeded signal about it extends the
range where the two touch and is dropped where they do not (`addAck`), and the bundle is
released when the range is the whole ADU.

The range is a chain of acknowledged ranges, so at the release the acknowledgements cover
the ADU, whatever wrapped around on the way (`custody_released_covered`).  Conversely the
order of the signals matters: the range grows as a stretch of the tiled ADU does
(`Tiling.Stretch`), so the pieces behind the first one signalled must be signalled in order
and those in front of it in reverse order (`custody_release_iff`).  A released bundle leaves the store
only where the search of the set finds it; on a set out of order it may stay there, disposed of.
-/
namespace BundleProtocol
open Tiling

namespace BpAgent6
variable {s t u : BpAgent6} {x y : Ptr} {cs : CustodySignal}

/-- Custody signals processed one after another. -/
def processSignals (s : BpAgent6) (signals : List CustodySignal) : Option BpAgent6 :=
  signals.foldlM processCustodySignal s

/-! ## One signal -/

theorem heap_acked_of_ne (s : BpAgent6) (cs : CustodySignal) (h : x ≠ y) :
    (s.acked y cs).heap x = s.heap x := heap_modify_of_ne s h _

theorem acks_acked (s : BpAgent6) (x : Ptr) (cs : CustodySignal) :
    ((s.acked x cs).heap x).acks = addAck (thisack cs) (s.heap x).acks := by
  unfold acked
  rw [heap_modify_self]

theorem heap_discarded_of_ne (s : BpAgent6) (h : x ≠ y) : (s.discarded y).heap x = s.heap x :=
  Memory.heap_doDispose_of_ne _ h

/-- Signals let bundles leave the store and keep the keys of the others. -/
theorem sameKeys_processCustodySignal (hrun : s.processCustodySignal cs = some t) :
    SameKeys s t :=
  (deliveryClosed_sameKeys s).processCustodySignal (.refl s) hrun

theorem sameKeys_processSignals {signals : List CustodySignal}
    (hrun : s.processSignals signals = some t) : SameKeys s t := by
  induction signals generalizing s with
  | nil =>
    cases hrun
    exact .refl _
  | cons cs signals ih =>
    rw [processSignals, List.foldlM_cons] at hrun
    obtain ⟨u, hu, hrun⟩ := Option.bind_eq_some_iff.mp hrun
    exact (sameKeys_processCustodySignal hu).trans (ih hrun)

/-! ## Never too early -/

/-- The signal is a success and names the bundle with the header `h`. -/
def Acknowledges (cs : CustodySignal) (h : BpHeader6) : Prop :=
  cs.status = CustodySignal.succeeded ∧
    BundleStore.Names h (.ofUri cs.srcEid) cs.creationTimestamp cs.seqNo

theorem acknowledges_of_signalled (h : s.signalled cs = some x) :
    Acknowledges cs (s.header x) := by
  unfold signalled at h
  split at h
  · rename_i hstatus
    exact ⟨hstatus, by simpa using List.find?_some h⟩
  · cases h

/-- One of the signals acknowledges the range from `a` to `b`. -/
def AckedRange (h : BpHeader6) (signals : List CustodySignal) (a b : UInt32) : Prop :=
  ∃ cs ∈ signals, Acknowledges cs h ∧ thisack cs = (a, b)

/-- There is at most one range, and it is a chain of acknowledged ranges. -/
structure ChainedAcks (h : BpHeader6) (signals : List CustodySignal)
    (acks : List (UInt32 × UInt32)) : Prop where
  length : acks.length ≤ 1
  chain : ∀ ack ∈ acks, Relation.ReflTransGen (AckedRange h signals) ack.1 ack.2

theorem ChainedAcks.weaken {h : BpHeader6} {signals signals' : List CustodySignal}
    {acks : List (UInt32 × UInt32)} (hacks : ChainedAcks h signals acks)
    (hle : signals ⊆ signals') : ChainedAcks h signals' acks where
  length := hacks.length
  chain ack hack := by
    refine Relation.ReflTransGen.mono ?_ _ _ (hacks.chain ack hack)
    rintro a b ⟨cs, hcs, hab⟩
    exact ⟨cs, hle hcs, hab⟩

/-- Merging a range at either end keeps the chain, also when it is merged at both. -/
theorem chain_mergeAck {r : UInt32 → UInt32 → Prop} {thisack ack : UInt32 × UInt32}
    (hthis : r thisack.1 thisack.2) (hack : Relation.ReflTransGen r ack.1 ack.2) :
    Relation.ReflTransGen r (mergeAck thisack ack).1 (mergeAck thisack ack).2 := by
  have htail : ∀ ack' : UInt32 × UInt32, Relation.ReflTransGen r ack'.1 ack'.2 →
      Relation.ReflTransGen r (if thisack.2 = ack'.1 then (thisack.1, ack'.2) else ack').1
        (if thisack.2 = ack'.1 then (thisack.1, ack'.2) else ack').2 := by
    intro ack' hack'
    split
    · rename_i heq
      exact Relation.ReflTransGen.head hthis (heq ▸ hack')
    · exact hack'
  unfold mergeAck
  refine htail _ ?_
  split
  · rename_i heq
    exact Relation.ReflTransGen.tail (heq ▸ hack) hthis
  · exact hack

/-- One more acknowledgement. -/
theorem ChainedAcks.addAck {h : BpHeader6} {signals : List CustodySignal}
    {acks : List (UInt32 × UInt32)} (hacks : ChainedAcks h signals acks) (hcs : cs ∈ signals)
    (hack : Acknowledges cs h) : ChainedAcks h signals (addAck (thisack cs) acks) := by
  have hthis : AckedRange h signals (thisack cs).1 (thisack cs).2 := ⟨cs, hcs, hack, rfl⟩
  obtain ⟨hlength, hchain⟩ := hacks
  match acks with
  | [] =>
    refine ⟨Nat.le_refl 1, fun ack hmem => ?_⟩
    cases List.mem_singleton.mp hmem
    exact .single hthis
  | [ack] =>
    refine ⟨Nat.le_refl 1, fun ack' hmem => ?_⟩
    cases List.mem_singleton.mp hmem
    exact chain_mergeAck hthis (hchain ack List.mem_cons_self)
  | _ :: _ :: _ => simp at hlength

/-- A chain that is the whole ADU covers it. -/
theorem ChainedAcks.covers {h : BpHeader6} {signals : List CustodySignal}
    {acks : List (UInt32 × UInt32)} (hacks : ChainedAcks h signals acks)
    (hfull : fullyAcked acks h.aduLength = true) {i : ℕ} (hi : i < h.aduLength.toNat) :
    ∃ cs ∈ signals, Acknowledges cs h ∧ cs.fragmentOffset.toNat ≤ i ∧
      i < cs.fragmentOffset.toNat + cs.fragmentLength.toNat := by
  obtain ⟨ack, rfl⟩ : ∃ ack, acks = [ack] := by
    unfold fullyAcked at hfull
    split at hfull
    · exact ⟨_, rfl⟩
    · cases hfull
  obtain ⟨hfirst, hlast⟩ : ack.1 = 0 ∧ ack.2 = h.aduLength := by
    simpa [fullyAcked] using hfull
  have hchain := hacks.chain ack List.mem_cons_self
  -- as numbers: the chain leads from 0 to the ADU length, so it steps across `i`
  have hnat : Relation.ReflTransGen
      (fun p q => ∃ a b, AckedRange h signals a b ∧ a.toNat = p ∧ b.toNat = q)
      ack.1.toNat ack.2.toNat :=
    Relation.ReflTransGen.lift UInt32.toNat (fun a b hab => ⟨a, b, hab, rfl, rfl⟩) _ _ hchain
  obtain ⟨p, q, ⟨a, b, ⟨cs, hcs, hack, hab⟩, rfl, rfl⟩, hp, hq⟩ :=
    exists_step_across hnat (x := i) (by simp [hfirst]) (by rwa [hlast])
  obtain ⟨rfl, rfl⟩ := Prod.mk.inj hab
  rw [UInt32.toNat_add] at hq
  exact ⟨cs, hcs, hack, hp, Nat.lt_of_lt_of_le hq (Nat.mod_le _ _)⟩

/-- While the bundle is held its header stays, and its acknowledgements form a chain of the
signals processed so far. -/
theorem chained_processSignals {before signals : List CustodySignal}
    (hchained : ChainedAcks (s.header x) before (s.heap x).acks)
    (hrun : s.processSignals signals = some t) (hx : x ∈ t.mStore) :
    t.header x = s.header x ∧ ChainedAcks (s.header x) (before ++ signals) (t.heap x).acks := by
  induction signals generalizing s before with
  | nil =>
    cases hrun
    exact ⟨rfl, hchained.weaken (List.subset_append_left _ _)⟩
  | cons cs signals ih =>
    rw [processSignals, List.foldlM_cons] at hrun
    obtain ⟨u, hu, hrun⟩ := Option.bind_eq_some_iff.mp hrun
    have hxu : x ∈ u.mStore := (sameKeys_processSignals hrun).mStore.subset hx
    have hmore := hchained.weaken (List.subset_append_left before [cs])
    obtain ⟨hheader, hacks⟩ : u.header x = s.header x ∧
        ChainedAcks (s.header x) (before ++ [cs]) (u.heap x).acks := by
      rcases processCustodySignal_eq_some.mp hu with ⟨-, rfl⟩ | ⟨y, hy, h⟩
      · exact ⟨rfl, hmore⟩
      · by_cases hxy : x = y
        · subst hxy
          rcases h with ⟨-, rfl⟩ | ⟨-, hord, -, rfl⟩
          · refine ⟨s.header_acked x x cs, ?_⟩
            rw [acks_acked]
            exact hmore.addAck (by simp) (acknowledges_of_signalled hy)
          · -- a released bundle is not held
            have hord' := (ordered_acked s x cs).mpr hord
            exact absurd rfl (hord'.mem_removed.mp hxu).1
        · have hheap : u.heap x = s.heap x := by
            rcases h with ⟨-, rfl⟩ | ⟨-, -, -, rfl⟩
            · exact heap_acked_of_ne s cs hxy
            · exact (heap_discarded_of_ne _ hxy).trans (heap_acked_of_ne s cs hxy)
          refine ⟨BundleStore.header_congr hheap, ?_⟩
          rwa [hheap]
    rw [← hheader] at hacks
    obtain ⟨hheader', hacks'⟩ := ih hacks hrun
    rw [hheader] at hheader' hacks'
    rw [List.append_assoc] at hacks'
    exact ⟨hheader', hacks'⟩

/-- **Custody is never released early**: when a signal removes the bundle, every position of
its ADU lies in the range of a succeeded signal that named it. -/
theorem custody_released_covered {done : List CustodySignal} (hacks : (s.heap x).acks = [])
    (hdone : s.processSignals done = some u) (hheld : x ∈ u.mStore)
    (hlast : u.processCustodySignal cs = some t) (hgone : x ∉ t.mStore) {i : ℕ}
    (hi : i < (s.header x).aduLength.toNat) :
    ∃ c ∈ done ++ [cs], c.status = CustodySignal.succeeded ∧
      BundleStore.Names (s.header x) (.ofUri c.srcEid) c.creationTimestamp c.seqNo ∧
      c.fragmentOffset.toNat ≤ i ∧ i < c.fragmentOffset.toNat + c.fragmentLength.toNat := by
  have hstart : ChainedAcks (s.header x) [] (s.heap x).acks := by
    rw [hacks]
    exact ⟨Nat.zero_le 1, fun _ hmem => absurd hmem List.not_mem_nil⟩
  obtain ⟨hheader, hchained⟩ := chained_processSignals hstart hdone hheld
  rw [List.nil_append] at hchained
  have hmore := hchained.weaken (List.subset_append_left done [cs])
  rcases processCustodySignal_eq_some.mp hlast with ⟨-, rfl⟩ | ⟨y, hy, h⟩
  · exact absurd hheld hgone
  · rcases h with ⟨-, rfl⟩ | ⟨hfull, -, -, rfl⟩
    · exact absurd hheld hgone
    · have hxy : x = y := by
        by_contra hne
        exact hgone ((List.mem_erase_of_ne hne).mpr hheld)
      subst hxy
      have hack := acknowledges_of_signalled hy
      unfold Completes at hfull
      rw [hheader] at hack hfull
      obtain ⟨c, hc, ⟨hstatus, hnames⟩, hrange⟩ :=
        (hmore.addAck (by simp) hack).covers hfull hi
      exact ⟨c, hc, hstatus, hnames, hrange⟩

end BpAgent6

namespace Sample

/-- A succeeded signal about a range of the bundle that `d:b` sends first, at time 0. -/
def signal (offset length : UInt32) : CustodySignal where
  status := CustodySignal.succeeded
  fragmentOffset := offset
  fragmentLength := length
  timeOfSignal := 0
  creationTimestamp := 0
  seqNo := 0
  srcEidLen := 3
  srcEid := (eid 98).uri

/-- The agent at `d:b` after it has sent a bundle of three bytes with custody. -/
def custodian : BpAgent6 :=
  (BpAgent6.step (.send 1 threeBytes (eid 98) (eid 97) 0 true 0)
    (agent 10 true)).getD (agent 10 true)

theorem healthy_custodian : custodian.Healthy :=
  ⟨by decide +kernel, by decide +kernel⟩

theorem mem_custodian : 1 ∈ custodian.mStore := by decide +kernel

theorem acks_custodian : (custodian.heap 1).acks = [] := by decide +kernel

theorem aduLength_custodian : (custodian.header 1).aduLength = 3 := by decide +kernel

theorem signalled_custodian (offset length : UInt32) :
    custodian.signalled (signal offset length) = some 1 :=
  show custodian.signalled (signal 0 0) = some 1 by decide +kernel

theorem tiles_custodian : Tiles [(0, 1), (1, 1), (2, 1)] 0 (custodian.header 1).aduLength.toNat := by
  rw [aduLength_custodian]
  exact .cons (by decide) (.cons (by decide) (.cons (by decide) (.nil _)))

end Sample

namespace BpAgent6
variable {s t u : BpAgent6} {x y : Ptr} {cs : CustodySignal}

/-- A second signal completes the acknowledgements, and the two cover the ADU. -/
theorem custody_released_covered_sample :
    ∃ u t, Sample.custodian.processSignals [Sample.signal 1 2] = some u ∧ 1 ∈ u.mStore ∧
      u.processCustodySignal (Sample.signal 0 1) = some t ∧ 1 ∉ t.mStore ∧
      ∀ i < (Sample.custodian.header 1).aduLength.toNat,
        ∃ c ∈ [Sample.signal 1 2, Sample.signal 0 1], c.status = CustodySignal.succeeded ∧
          BundleStore.Names (Sample.custodian.header 1) (.ofUri c.srcEid) c.creationTimestamp
            c.seqNo ∧
          c.fragmentOffset.toNat ≤ i ∧ i < c.fragmentOffset.toNat + c.fragmentLength.toNat := by
  obtain ⟨u, hu, hlast⟩ := (Option.any_eq_true (fun u : BpAgent6 => decide (1 ∈ u.mStore) &&
      (u.processCustodySignal (Sample.signal 0 1)).any fun t : BpAgent6 => decide (1 ∉ t.mStore))
      _).mp
    (by decide +kernel : (Sample.custodian.processSignals [Sample.signal 1 2]).any _ = true)
  obtain ⟨hheld, hlast⟩ := Bool.and_eq_true_iff.mp hlast
  obtain ⟨t, ht, hgone⟩ := (Option.any_eq_true _ _).mp hlast
  refine ⟨u, t, hu, of_decide_eq_true hheld, ht, of_decide_eq_true hgone, fun i hi => ?_⟩
  exact custody_released_covered Sample.acks_custodian hu (of_decide_eq_true hheld) ht
    (of_decide_eq_true hgone) hi

/-! ## Only in a favourable order -/

/-- The range a signal says it is about, as offset and length. -/
def rangeOf (cs : CustodySignal) : ℕ × ℕ := (cs.fragmentOffset.toNat, cs.fragmentLength.toNat)

/-- The acknowledged range is the stretch covered so far. -/
def IsAck {ps : List (ℕ × ℕ)} {top : ℕ} (st : Stretch ps top) (ack : UInt32 × UInt32) : Prop :=
  ack.1.toNat = st.lo ∧ ack.2.toNat = st.hi

section Pieces
variable {ps : List (ℕ × ℕ)} {signals : List CustodySignal}

/-- The ranges of signals about a tiling do not wrap around. -/
theorem toNat_thisack {L : UInt32} (h : Tiles ps 0 L.toNat) (hcs : rangeOf cs ∈ ps) :
    (thisack cs).1.toNat = (rangeOf cs).1 ∧
      (thisack cs).2.toNat = (rangeOf cs).1 + (rangeOf cs).2 := by
  obtain ⟨-, -, hle⟩ := h.bounds hcs
  have hlt := L.toNat_lt
  refine ⟨rfl, ?_⟩
  unfold thisack rangeOf at *
  rw [UInt32.toNat_add, Nat.mod_eq_of_lt (by omega)]

/-- A signal extends the acknowledged range as the arrival of its piece extends the
stretch. -/
theorem exists_grow_ack {L : UInt32} {st : Stretch ps L.toNat} {ack : UInt32 × UInt32}
    (hack : IsAck st ack) (hcs : rangeOf cs ∈ ps) :
    ∃ st' : Stretch ps L.toNat, IsAck st' (mergeAck (thisack cs) ack) ∧
      st'.left = advance st.left (rangeOf cs) ∧ st'.right = advance st.right (rangeOf cs) := by
  obtain ⟨hfirst, hlast⟩ := toNat_thisack st.tiles hcs
  obtain ⟨hlo, hhi⟩ := hack
  obtain ⟨st', hleft, hright, hlo', hhi'⟩ := st.exists_grow hcs
  refine ⟨st', ?_, hleft, hright⟩
  have hlt := st.lt
  obtain ⟨-, hpos, -⟩ := st.tiles.bounds hcs
  have htail : ack.2 = (thisack cs).1 ↔ st.hi = (rangeOf cs).1 := by
    rw [← UInt32.toNat_inj, hhi, hfirst]
  have hhead : (thisack cs).2 = ack.1 ↔ (rangeOf cs).1 + (rangeOf cs).2 = st.lo := by
    rw [← UInt32.toNat_inj, hlo, hlast]
  unfold IsAck mergeAck
  rw [hlo', hhi']
  by_cases ht : st.hi = (rangeOf cs).1
  · -- the signal is about a piece on the right, so not about one on the left
    have hh : (rangeOf cs).1 + (rangeOf cs).2 ≠ st.lo := by omega
    simp [htail, hhead, ht, hh, hlo, hlast]
  · by_cases hh : (rangeOf cs).1 + (rangeOf cs).2 = st.lo
    · simp [htail, hhead, ht, hh, hhi, hfirst]
    · simp [htail, hhead, ht, hh, hlo, hhi]

/-- The acknowledged range is the whole ADU when no piece is missing. -/
theorem fullyAcked_iff {L : UInt32} {st : Stretch ps L.toNat} {ack : UInt32 × UInt32}
    (hack : IsAck st ack) : fullyAcked [ack] L = true ↔ st.left = [] ∧ st.right = [] := by
  obtain ⟨hlo, hhi⟩ := hack
  rw [st.whole_iff, ← hlo, ← hhi, UInt32.toNat_inj, ← UInt32.toNat_zero, UInt32.toNat_inj]
  simp [fullyAcked]

/-- A signal is about the same bundle after an acknowledgement as before it. -/
theorem signalled_acked (s : BpAgent6) (y : Ptr) (cs c : CustodySignal) :
    (s.acked y cs).signalled c = s.signalled c := by
  unfold signalled BundleStore.getBundle
  simp only [header_acked]
  rfl

theorem foldl_advance_nil (rs : List (ℕ × ℕ)) : rs.foldl advance [] = [] :=
  foldl_advance_eq_nil.mpr (List.nil_sublist rs)

end Pieces

/-! ## However the searches end -/

end BpAgent6

/-- Custody signals processed one after another. -/
def SetSearch.processSignals (search : SetSearch) (s : BpAgent6) (signals : List CustodySignal) :
    Option BpAgent6 := signals.foldlM search.processCustodySignal s

namespace BpAgent6
variable {s t u : BpAgent6} {x y : Ptr} {cs : CustodySignal} {search : SetSearch}
  {signals : List CustodySignal} {ps : List (ℕ × ℕ)}

theorem extends_processSignals (search : SetSearch) (signals : List CustodySignal) (s : BpAgent6) :
    Extends (s.processSignals signals) (search.processSignals s signals) := by
  induction signals generalizing s with
  | nil => exact .refl _
  | cons cs signals ih =>
    rw [processSignals, SetSearch.processSignals, List.foldlM_cons, List.foldlM_cons]
    exact .bind (search.extends_processCustodySignal s cs) ih

/-- Which bundle a signal is about depends on the elements and their headers. -/
theorem signalled_congr (hstore : t.mStore = s.mStore) (hheader : ∀ x, t.header x = s.header x)
    (cs : CustodySignal) : t.signalled cs = s.signalled cs := by
  unfold signalled BundleStore.getBundle
  simp only [hstore, hheader]

/-- Signals about one bundle ask for the same identity. -/
theorem signalled_eq {c c' : CustodySignal} (h : s.signalled c = some x) (h' : s.signalled c' = some x)
    (t : BpAgent6) : t.signalled c = t.signalled c' := by
  obtain ⟨hstatus, huri, htime, hseq⟩ := acknowledges_of_signalled h
  obtain ⟨hstatus', huri', htime', hseq'⟩ := acknowledges_of_signalled h'
  have hnames : ∀ hdr, BundleStore.Names hdr (.ofUri c.srcEid) c.creationTimestamp c.seqNo ↔
      BundleStore.Names hdr (.ofUri c'.srcEid) c'.creationTimestamp c'.seqNo := by
    intro hdr
    unfold BundleStore.Names
    rw [BpEndpointId.beq_iff, BpEndpointId.beq_iff, ← BpEndpointId.beq_iff.mp huri,
      ← BpEndpointId.beq_iff.mp huri', ← htime, ← htime', ← hseq, ← hseq']
  unfold signalled BundleStore.getBundle
  rw [if_pos hstatus, if_pos hstatus']
  simp only [hnames]

/-- Signals let elements leave the set and bring none. -/
theorem sublist_processSignals (hrun : search.processSignals s signals = some t) :
    t.mStore.Sublist s.mStore := by
  induction signals generalizing s with
  | nil =>
    cases hrun
    exact List.Sublist.refl _
  | cons cs signals ih =>
    obtain ⟨u, hu, hrun⟩ := Option.bind_eq_some_iff.mp hrun
    refine (ih hrun).trans ?_
    rcases search.processCustodySignal_cases s cs with ⟨-, heq⟩ | ⟨y, -, ⟨-, heq⟩ | ⟨-, heq⟩⟩
    · cases heq.symm.trans hu
      exact List.Sublist.refl _
    · cases heq.symm.trans hu
      exact List.Sublist.refl _
    · by_cases hadu : search.finds (s.acked y cs).toBundleStore y = true →
          ((s.acked y cs).heap y).adu ≠ none
      · obtain ⟨v, hv, hgone⟩ := search.exists_discard hadu
        cases (heq.trans hv).symm.trans hu
        exact hgone.sublist
      · obtain ⟨hfinds, hnone⟩ := Classical.not_imp.mp hadu
        rw [heq, search.discard_eq_none hfinds (not_not.mp hnone)] at hu
        cases hu

/-- A bundle that the search does not find stays, whatever the signals about it say. -/
theorem exists_processSignals_of_not_found (hfinds : search.finds s.toBundleStore x = false)
    (hsignals : ∀ cs ∈ signals, s.signalled cs = some x) :
    ∃ t, search.processSignals s signals = some t ∧ t.mStore = s.mStore := by
  induction signals generalizing s with
  | nil => exact ⟨s, rfl, rfl⟩
  | cons cs signals ih =>
    have hx := hsignals cs List.mem_cons_self
    have hstep : ∃ u, search.processCustodySignal s cs = some u ∧ u.mStore = s.mStore ∧
        ∀ y, u.header y = s.header y := by
      rcases search.processCustodySignal_cases s cs with ⟨hnone, -⟩ | ⟨y, hy, ⟨-, heq⟩ | ⟨-, heq⟩⟩
      · rw [hx] at hnone
        cases hnone
      · exact ⟨_, heq, rfl, fun z => s.header_acked y z cs⟩
      · cases hx.symm.trans hy
        have hfinds' : search.finds (s.acked x cs).toBundleStore x = false :=
          (search.finds_acked s x x cs).trans hfinds
        obtain ⟨u, hu, hgone⟩ := search.exists_discard (s := s.acked x cs) (b := x) fun h => by
          rw [hfinds'] at h
          cases h
        refine ⟨u, heq.trans hu, hgone.store.trans (if_neg ?_), fun z => ?_⟩
        · exact ne_true_of_eq_false hfinds'
        · exact (hgone.header z).trans (s.header_acked x z cs)
    obtain ⟨u, hu, hstore, hheader⟩ := hstep
    obtain ⟨t, ht, hsame⟩ := ih ((search.finds_congr hstore hheader).trans hfinds) fun c hc =>
      (signalled_congr hstore hheader c).trans (hsignals c (List.mem_cons_of_mem cs hc))
    exact ⟨t, Option.bind_eq_some_iff.mpr ⟨u, hu, ht⟩, hsame.trans hstore⟩

/-- The bundle at `x` leaves the store while the signals are processed. -/
def LeavesOn (search : SetSearch) (s : BpAgent6) (x : Ptr) (signals : List CustodySignal) : Prop :=
  ∃ before t, before <+: signals ∧ search.processSignals s before = some t ∧ x ∉ t.mStore

/-- The first of the signals only adds an acknowledgement. -/
theorem leavesOn_cons_iff (hx : x ∈ s.mStore) (hu : search.processCustodySignal s cs = some u) :
    LeavesOn search s x (cs :: signals) ↔ LeavesOn search u x signals := by
  constructor
  · rintro ⟨before, t, hprefix, hrun, hgone⟩
    cases before with
    | nil =>
      cases hrun
      exact absurd hx hgone
    | cons c before =>
      obtain ⟨rfl, hrest⟩ := List.cons_prefix_cons.mp hprefix
      obtain ⟨v, hv, hrun⟩ := Option.bind_eq_some_iff.mp hrun
      cases hu.symm.trans hv
      exact ⟨before, t, hrest, hrun, hgone⟩
  · rintro ⟨before, t, hprefix, hrun, hgone⟩
    exact ⟨cs :: before, t, List.cons_prefix_cons.mpr ⟨rfl, hprefix⟩,
      Option.bind_eq_some_iff.mpr ⟨u, hu, hrun⟩, hgone⟩

/-- When the first of the signals completes the acknowledgements, everything depends on the search. -/
theorem leavesOn_of_completes (hset : s.mStore.Nodup) (hx : s.signalled cs = some x)
    (hfull : s.Completes x cs) (hsignals : ∀ c ∈ signals, s.signalled c = some x) :
    LeavesOn search s x (cs :: signals) ↔
      search.finds s.toBundleStore x = true ∧ (s.heap x).adu ≠ none := by
  have hmem := mem_of_signalled hx
  have heq : search.processCustodySignal s cs = search.discard (s.acked x cs) x :=
    SetSearch.processCustodySignal_of_completes hx hfull
  have hfinds := search.finds_acked s x x cs
  have hadu : ((s.acked x cs).heap x).adu = (s.heap x).adu := s.adu_acked x x cs
  constructor
  · rintro ⟨before, t, hprefix, hrun, hgone⟩
    have hfound : search.finds s.toBundleStore x = true := by
      by_contra hnot
      have hall : ∀ c ∈ before, s.signalled c = some x := fun c hc => by
        rcases List.mem_cons.mp (List.IsPrefix.subset hprefix hc) with rfl | hc
        · exact hx
        · exact hsignals c hc
      obtain ⟨t', ht', hstore⟩ := exists_processSignals_of_not_found (eq_false_of_ne_true hnot) hall
      cases hrun.symm.trans ht'
      rw [hstore] at hgone
      exact hgone hmem
    refine ⟨hfound, fun hnone => ?_⟩
    cases before with
    | nil =>
      cases hrun
      exact hgone hmem
    | cons c before =>
      obtain ⟨rfl, -⟩ := List.cons_prefix_cons.mp hprefix
      obtain ⟨v, hv, -⟩ := Option.bind_eq_some_iff.mp hrun
      rw [heq, search.discard_eq_none (hfinds.trans hfound) (hadu.trans hnone)] at hv
      cases hv
  · rintro ⟨hfound, hsome⟩
    obtain ⟨u, hu, hgone⟩ := search.exists_discard (s := s.acked x cs) (b := x) fun _ => by rwa [hadu]
    have herased : u.mStore = s.mStore.erase x := hgone.store.trans (if_pos (hfinds.trans hfound))
    refine ⟨[cs], u, List.cons_prefix_cons.mpr ⟨rfl, List.nil_prefix⟩,
      Option.bind_eq_some_iff.mpr ⟨u, heq.trans hu, rfl⟩, ?_⟩
    rw [herased, hset.mem_erase_iff]
    exact fun h => h.1 rfl

/-- From the first signal on, the bundle leaves when the pieces missing on both sides are used up and
the search finds it. -/
theorem leavesOn_iff_used_up (hset : s.mStore.Nodup) (hx : s.signalled cs = some x)
    {L : UInt32} (hL : (s.header x).aduLength = L) {st : Stretch ps L.toNat} {ack : UInt32 × UInt32}
    (hadd : addAck (thisack cs) (s.heap x).acks = [ack]) (hack : IsAck st ack)
    (hsignals : ∀ c ∈ signals, s.signalled c = some x ∧ rangeOf c ∈ ps) :
    LeavesOn search s x (cs :: signals) ↔
      ((signals.map rangeOf).foldl advance st.left = [] ∧
        (signals.map rangeOf).foldl advance st.right = []) ∧
      search.finds s.toBundleStore x = true ∧ (s.heap x).adu ≠ none := by
  have hcompletes : ∀ {s : BpAgent6} {cs : CustodySignal} {st : Stretch ps L.toNat}
      {ack : UInt32 × UInt32}, (s.header x).aduLength = L →
      addAck (thisack cs) (s.heap x).acks = [ack] → IsAck st ack →
      (s.Completes x cs ↔ st.left = [] ∧ st.right = []) := by
    intro s cs st ack hL hadd hack
    unfold Completes
    rw [hadd, hL, fullyAcked_iff hack]
  induction signals generalizing s cs st ack with
  | nil =>
    by_cases hfull : s.Completes x cs
    · rw [leavesOn_of_completes hset hx hfull fun c hc => absurd hc List.not_mem_nil,
        List.map_nil, List.foldl_nil, List.foldl_nil, ← hcompletes hL hadd hack]
      simp [hfull]
    · have hkept : search.processCustodySignal s cs = some (s.acked x cs) :=
        SetSearch.processCustodySignal_of_not_completes hx hfull
      rw [leavesOn_cons_iff (mem_of_signalled hx) hkept]
      refine iff_of_false ?_ fun h => hfull ((hcompletes hL hadd hack).mpr h.1)
      rintro ⟨before, t, hprefix, hrun, hgone⟩
      cases List.prefix_nil.mp hprefix
      cases hrun
      exact hgone (mem_of_signalled (s := s) hx)
  | cons c signals ih =>
    obtain ⟨hc, hrange⟩ := hsignals c List.mem_cons_self
    by_cases hfull : s.Completes x cs
    · obtain ⟨hleft, hright⟩ := (hcompletes hL hadd hack).mp hfull
      rw [leavesOn_of_completes hset hx hfull fun c' hc' => (hsignals c' hc').1, hleft, hright,
        foldl_advance_nil]
      simp
    · -- the next signal is about the same bundle and finds the one range
      have hkept : search.processCustodySignal s cs = some (s.acked x cs) :=
        SetSearch.processCustodySignal_of_not_completes hx hfull
      obtain ⟨st', hack', hleft, hright⟩ := exists_grow_ack hack hrange
      have hadd' : addAck (thisack c) ((s.acked x cs).heap x).acks = [mergeAck (thisack c) ack] := by
        rw [acks_acked, hadd]
        rfl
      rw [leavesOn_cons_iff (mem_of_signalled hx) hkept]
      refine (ih (s := s.acked x cs) hset ((signalled_acked s x cs c).trans hc)
        ((congrArg _ (s.header_acked x x cs)).trans hL) hadd' hack' fun c' hc' => ?_).trans ?_
      · rw [signalled_acked]
        exact hsignals c' (List.mem_cons_of_mem c hc')
      · rw [hleft, hright, search.finds_acked, adu_acked]
        rfl

/-- While every stored bundle has its ADU, signals about one identity are all processed. -/
theorem exists_processSignals (hset : s.mStore.Nodup) (hadu : ∀ y ∈ s.mStore, (s.heap y).adu ≠ none)
    (hsame : ∀ c ∈ signals, ∀ c' ∈ signals, ∀ t : BpAgent6, t.signalled c = t.signalled c') :
    ∃ t, search.processSignals s signals = some t := by
  induction signals generalizing s with
  | nil => exact ⟨s, rfl⟩
  | cons cs signals ih =>
    have hrest : ∀ c ∈ signals, ∀ c' ∈ signals, ∀ t : BpAgent6, t.signalled c = t.signalled c' :=
      fun c hc c' hc' => hsame c (List.mem_cons_of_mem cs hc) c' (List.mem_cons_of_mem cs hc')
    suffices hstep : ∃ u, search.processCustodySignal s cs = some u ∧
        ∃ t, search.processSignals u signals = some t by
      obtain ⟨u, hu, t, ht⟩ := hstep
      exact ⟨t, Option.bind_eq_some_iff.mpr ⟨u, hu, ht⟩⟩
    cases hx : s.signalled cs with
    | none => exact ⟨s, SetSearch.processCustodySignal_of_none hx, ih hset hadu hrest⟩
    | some x =>
      have hadu' : ∀ y ∈ s.mStore, ((s.acked x cs).heap y).adu ≠ none := by
        intro y hy
        rw [adu_acked]
        exact hadu y hy
      by_cases hfull : s.Completes x cs
      · rw [SetSearch.processCustodySignal_of_completes hx hfull]
        obtain ⟨u, hu, hgone⟩ := search.exists_discard (s := s.acked x cs) (b := x)
          fun _ => hadu' x (mem_of_signalled hx)
        refine ⟨u, hu, ?_⟩
        cases hfinds : search.finds (s.acked x cs).toBundleStore x with
        | false =>
          -- the bundle stays in front of those of its identity, without an ADU
          have hstore : u.mStore = (s.acked x cs).mStore :=
            hgone.store.trans (if_neg (ne_true_of_eq_false hfinds))
          have hall : ∀ c ∈ signals, u.signalled c = some x := fun c hc => by
            rw [signalled_congr hstore hgone.header, signalled_acked,
              hsame c (List.mem_cons_of_mem cs hc) cs List.mem_cons_self, hx]
          obtain ⟨t, ht, -⟩ := exists_processSignals_of_not_found
            ((search.finds_congr hstore hgone.header).trans hfinds) hall
          exact ⟨t, ht⟩
        | true =>
          have hstore : u.mStore = s.mStore.erase x := hgone.store.trans (if_pos hfinds)
          refine ih (hgone.sublist.nodup hset) (fun y hy => ?_) hrest
          obtain ⟨hne, hy⟩ := hset.mem_erase_iff.mp (hstore ▸ hy)
          rw [hgone.adu y (fun h => hne (List.mem_singleton.mp h))]
          exact hadu' y hy
      · exact ⟨_, SetSearch.processCustodySignal_of_not_completes hx hfull, ih hset hadu' hrest⟩

/-- **When custody is released**, however the set is searched: the signals about the pieces of the ADU of
a stored bundle without acknowledgements bring it out of the store if and only if, from the first piece
signalled, they grow to the whole ADU, and the search finds the bundle, which has its ADU.  Where every
stored bundle has its ADU all the signals are processed, and in comparator order the search finds it. -/
theorem custody_release_iff (search : SetSearch) (hset : s.mStore.Nodup) (hx : x ∈ s.mStore)
    (hacks : (s.heap x).acks = []) (htiles : Tiles ps 0 (s.header x).aduLength.toNat)
    (hsignals : ∀ cs ∈ signals, s.signalled cs = some x ∧ rangeOf cs ∈ ps) :
    ((∃ before t, before <+: signals ∧ search.processSignals s before = some t ∧ x ∉ t.mStore) ↔
        GrowsToWhole ps (signals.map rangeOf) ∧ search.finds s.toBundleStore x = true ∧
          (s.heap x).adu ≠ none) ∧
      ((∀ y ∈ s.mStore, (s.heap y).adu ≠ none) → ∃ t, search.processSignals s signals = some t ∧
        (x ∉ t.mStore ↔ GrowsToWhole ps (signals.map rangeOf) ∧
          search.finds s.toBundleStore x = true)) ∧
      (s.Ordered → search.finds s.toBundleStore x = true) := by
  have hleaves : LeavesOn search s x signals ↔ GrowsToWhole ps (signals.map rangeOf) ∧
      search.finds s.toBundleStore x = true ∧ (s.heap x).adu ≠ none := by
    cases signals with
    | nil =>
      refine iff_of_false ?_ ?_
      · rintro ⟨before, t, hprefix, hrun, hgone⟩
        cases List.prefix_nil.mp hprefix
        cases hrun
        exact hgone hx
      · rintro ⟨⟨before, first, after, -, hhead, -⟩, -⟩
        cases hhead
    | cons cs signals =>
      obtain ⟨hcs, hrange⟩ := hsignals cs List.mem_cons_self
      obtain ⟨st, hlo, hhi, hgrows⟩ := htiles.exists_start hrange
      obtain ⟨hfirst, hlast⟩ := toNat_thisack htiles hrange
      have hadd : addAck (thisack cs) (s.heap x).acks = [thisack cs] := by
        rw [hacks]
        rfl
      have hack : IsAck st (thisack cs) := ⟨hfirst.trans hlo.symm, hlast.trans hhi.symm⟩
      rw [leavesOn_iff_used_up hset hcs rfl hadd hack
        fun c hc => hsignals c (List.mem_cons_of_mem cs hc)]
      exact and_congr_left fun _ => hgrows _
  refine ⟨hleaves, fun hadu => ?_, fun hord => search.finds_of_ordered hord hx⟩
  obtain ⟨t, ht⟩ : ∃ t, search.processSignals s signals = some t := exists_processSignals hset hadu
    fun c hc c' hc' => signalled_eq (hsignals c hc).1 (hsignals c' hc').1
  refine ⟨t, ht, ?_⟩
  have hgone : x ∉ t.mStore ↔ LeavesOn search s x signals := by
    refine ⟨fun hgone => ⟨signals, t, List.prefix_refl _, ht, hgone⟩, ?_⟩
    rintro ⟨before, u, ⟨after, rfl⟩, hu, hgone⟩ hmem
    rw [SetSearch.processSignals, List.foldlM_append] at ht
    obtain ⟨v, hv, ht⟩ := Option.bind_eq_some_iff.mp ht
    cases hu.symm.trans hv
    exact hgone ((sublist_processSignals ht).subset hmem)
  rw [hgone, hleaves]
  simp [hadu x hx]

/-- Signalled from the middle outwards, three pieces release the bundle. -/
theorem custody_release_sample :
    ∃ t, SetSearch.fromFront.processSignals Sample.custodian
        [Sample.signal 1 1, Sample.signal 2 1, Sample.signal 0 1] = some t ∧ 1 ∉ t.mStore := by
  have hsignals : ∀ cs ∈ [Sample.signal 1 1, Sample.signal 2 1, Sample.signal 0 1],
      Sample.custodian.signalled cs = some 1 ∧ rangeOf cs ∈ [(0, 1), (1, 1), (2, 1)] := by
    intro cs hcs
    simp only [List.mem_cons, List.not_mem_nil, or_false] at hcs
    rcases hcs with rfl | rfl | rfl <;> exact ⟨Sample.signalled_custodian _ _, by decide⟩
  obtain ⟨-, hall, hfinds⟩ := custody_release_iff SetSearch.fromFront
    Sample.healthy_custodian.ordered.nodup Sample.mem_custodian Sample.acks_custodian
    Sample.tiles_custodian hsignals
  obtain ⟨t, ht, hiff⟩ := hall Sample.healthy_custodian.adu
  exact ⟨t, ht, hiff.mpr ⟨⟨[(0, 1)], (1, 1), [(2, 1)], rfl, rfl, by decide, by decide⟩,
    hfinds Sample.healthy_custodian.ordered⟩⟩

/-- Signalled with the middle last, the same pieces do not release it. -/
theorem custody_kept_though_covered :
    Sample.custodian.Healthy ∧ 1 ∈ Sample.custodian.mStore ∧ (Sample.custodian.heap 1).acks = [] ∧
      Tiles [(0, 1), (1, 1), (2, 1)] 0 (Sample.custodian.header 1).aduLength.toNat ∧
      ∃ signals, (∀ cs ∈ signals, Sample.custodian.signalled cs = some 1) ∧
        signals.map rangeOf = [(0, 1), (2, 1), (1, 1)] ∧
        ∃ t, Sample.custodian.processSignals signals = some t ∧
          (∀ search : SetSearch, search.processSignals Sample.custodian signals = some t) ∧
          1 ∈ t.mStore := by
  refine ⟨Sample.healthy_custodian, Sample.mem_custodian, Sample.acks_custodian,
    Sample.tiles_custodian, [Sample.signal 0 1, Sample.signal 2 1, Sample.signal 1 1], ?_, rfl, ?_⟩
  · intro cs hcs
    simp only [List.mem_cons, List.not_mem_nil, or_false] at hcs
    rcases hcs with rfl | rfl | rfl <;> exact Sample.signalled_custodian _ _
  · obtain ⟨t, ht, hheld⟩ := (Option.any_eq_true (fun t : BpAgent6 => decide (1 ∈ t.mStore)) _).mp
      (by decide +kernel : (Sample.custodian.processSignals
        [Sample.signal 0 1, Sample.signal 2 1, Sample.signal 1 1]).any _ = true)
    exact ⟨t, ht, fun search => extends_processSignals search _ _ t ht, of_decide_eq_true hheld⟩

end BpAgent6
end BundleProtocol
