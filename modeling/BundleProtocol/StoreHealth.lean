import BundleProtocol.DeliverySpec

/-! # Healthy stores

A store is healthy when it is ordered and every stored bundle has an ADU: then `Remove`
of a stored bundle succeeds.  Most of what an agent does lets bundles leave the store and
keeps the keys of the others (`SameKeys`), and then a healthy store stays healthy.
-/
namespace BundleProtocol
open OrderedList

/-- The comparator reads nothing that processing changes, apart from the fragment offset. -/
theorem bundlePriorityCompare_congr {g g' h h' : BpHeader6} (hg : g.SameBundle g')
    (hgo : g'.fragOffset = g.fragOffset) (hh : h.SameBundle h') (hho : h'.fragOffset = h.fragOffset)
    (p q : Ptr) : bundlePriorityCompare g' h' p q = bundlePriorityCompare g h p q := by
  unfold bundlePriorityCompare
  rw [hg.priority, hg.createTimestamp, hg.timestampSeqNum, hgo, hg.source, hh.priority,
    hh.createTimestamp, hh.timestampSeqNum, hho, hh.source]

namespace BpAgent6
variable {s t u : BpAgent6} {b x : Ptr}

/-- Bundles leave the store; those that stay keep their keys and have an ADU if they had
one. -/
structure SameKeys (s t : BpAgent6) : Prop where
  mStore : t.mStore.Sublist s.mStore
  header : ∀ x ∈ t.mStore, (s.header x).SameBundle (t.header x)
  fragOffset : ∀ x ∈ t.mStore, (t.header x).fragOffset = (s.header x).fragOffset
  adu : ∀ x ∈ t.mStore, (s.heap x).adu ≠ none → (t.heap x).adu ≠ none

theorem SameKeys.trans (h : SameKeys s t) (h' : SameKeys t u) : SameKeys s u where
  mStore := h'.mStore.trans h.mStore
  header x hx := (h.header x (h'.mStore.subset hx)).trans (h'.header x hx)
  fragOffset x hx := (h'.fragOffset x hx).trans (h.fragOffset x (h'.mStore.subset hx))
  adu x hx hadu := h'.adu x hx (h.adu x (h'.mStore.subset hx) hadu)

/-- Nothing happens to the bundles that stay. -/
theorem sameKeys_of_heap (hstore : t.mStore.Sublist s.mStore)
    (hheap : ∀ x ∈ t.mStore, t.heap x = s.heap x) : SameKeys s t where
  mStore := hstore
  header x hx := by
    rw [BundleStore.header_congr (hheap x hx)]
    exact .refl _
  fragOffset x hx := by
    rw [BundleStore.header_congr (hheap x hx)]
  adu x hx hadu := by
    rwa [hheap x hx]

/-- A change of a bundle that is not stored. -/
theorem sameKeys_modify_of_not_mem (hb : b ∉ s.mStore) (f : Bundle6 → Bundle6) :
    SameKeys s (s.modify b f) := by
  refine sameKeys_of_heap (List.Sublist.refl _) fun x hx => heap_modify_of_ne s ?_ f
  rintro rfl
  exact hb hx

/-- A change of a bundle that keeps its keys and leaves it an ADU. -/
theorem sameKeys_modify {f : Bundle6 → Bundle6}
    (hheader : ∀ x : Bundle6, x.primaryHeader.SameBundle (f x).primaryHeader)
    (hoffset : ∀ x : Bundle6, (f x).primaryHeader.fragOffset = x.primaryHeader.fragOffset)
    (hadu : ∀ x : Bundle6, x.adu ≠ none → (f x).adu ≠ none) : SameKeys s (s.modify b f) := by
  refine ⟨List.Sublist.refl _, fun x _ => ?_, fun x _ => ?_, fun x _ => ?_⟩
  · exact rel_heap_modify (R := fun y z => y.primaryHeader.SameBundle z.primaryHeader)
      (fun _ => .refl _) (hheader _) x
  · exact field_heap_modify (fun y => y.primaryHeader.fragOffset) hoffset s b x
  · exact rel_heap_modify (R := fun y z => y.adu ≠ none → z.adu ≠ none) (fun _ h => h) (hadu _) x

theorem sameKeys_removed (s : BpAgent6) (b : Ptr) : SameKeys s (s.removed b) :=
  sameKeys_of_heap List.erase_sublist fun _ _ => rfl

theorem sameKeys_discarded (hord : s.Ordered) (b : Ptr) : SameKeys s (s.discarded b) := by
  refine sameKeys_of_heap List.erase_sublist fun x hx => ?_
  exact Memory.heap_doDispose_of_ne _ (hord.mem_removed.mp hx).1

/-- A property that only depends on what `SameKeys` keeps survives local delivery. -/
theorem deliveryClosed_of_sameKeys {P : BpAgent6 → Prop}
    (hclosed : ∀ {s t : BpAgent6}, P s → SameKeys s t → P t) : DeliveryClosed P where
  delivered h := hclosed h (sameKeys_of_heap (List.Sublist.refl _) fun _ _ => rfl)
  withAdu h := hclosed h
    (sameKeys_modify (fun _ => .refl _) (fun _ => rfl) fun _ _ => Option.some_ne_none _)
  acked h := hclosed h (sameKeys_modify (fun _ => .refl _) (fun _ => rfl) fun _ hadu => hadu)
  markWhole h := hclosed h (sameKeys_modify (fun _ => BpHeader6.sameBundle_setIsFragment _ _)
    (fun _ => rfl) fun _ hadu => hadu)
  removed h _ := hclosed h (sameKeys_removed _ _)
  discarded h hord := hclosed h (sameKeys_discarded hord _)

theorem SameKeys.refl (s : BpAgent6) : SameKeys s s :=
  sameKeys_of_heap (List.Sublist.refl _) fun _ _ => rfl

theorem deliveryClosed_sameKeys (s : BpAgent6) : DeliveryClosed (SameKeys s) :=
  deliveryClosed_of_sameKeys SameKeys.trans

/-- The store is ordered and every stored bundle has an ADU. -/
structure Healthy (s : BpAgent6) : Prop where
  ordered : s.Ordered
  adu : ∀ x ∈ s.mStore, (s.heap x).adu ≠ none

theorem Healthy.of_sameKeys (h : s.Healthy) (hkeys : SameKeys s t) : t.Healthy where
  ordered := by
    refine List.Pairwise.imp_of_mem ?_ (h.ordered.sublist hkeys.mStore)
    intro x y hx hy hxy
    rwa [BundleStore.compare, bundlePriorityCompare_congr (hkeys.header x hx) (hkeys.fragOffset x hx)
      (hkeys.header y hy) (hkeys.fragOffset y hy)]
  adu x hx := hkeys.adu x hx (h.adu x (hkeys.mStore.subset hx))

/-- Insertion puts a new bundle in its place, when the comparator is transitive from it. -/
theorem Healthy.stored (h : s.Healthy) (hb : b ∉ s.mStore) (hadu : (s.heap b).adu ≠ none)
    (htrans : ∀ y ∈ s.mStore, ∀ z ∈ s.mStore, s.compare b y = true → s.compare y z = true →
      s.compare b z = true) : (s.stored b).Healthy := by
  refine ⟨h.ordered.stored hb htrans, fun x hx => ?_⟩
  obtain ⟨id, hid⟩ := s.toBundleStore.heap_stored b x
  have heq : (s.stored b).heap x = (s.toBundleStore.stored b).heap x := rfl
  rw [heq, hid]
  rcases BundleStore.mem_stored.mp hx with rfl | hx
  · exact hadu
  · exact h.adu x hx

/-! ## What local delivery leaves alone -/

/-- Local delivery of any bundle reads and writes the memory, the store and its own log. -/
structure DeliveryFrame (s t : BpAgent6) : Prop where
  config : t.config = s.config
  seq : t.seq = s.seq
  now : t.sim.now = s.sim.now
  handed : t.handed = s.handed
  signals : t.signals = s.signals
  header : ∀ x, (s.header x).SameBundle (t.header x)

theorem deliveryClosed_frame (s : BpAgent6) : DeliveryClosed (DeliveryFrame s) where
  delivered h := ⟨h.config, h.seq, h.now, h.handed, h.signals, h.header⟩
  withAdu h := by
    refine ⟨h.config, h.seq, h.now, h.handed, h.signals, fun x => ?_⟩
    rw [header_withAdu]
    exact h.header x
  acked h := by
    refine ⟨h.config, h.seq, h.now, h.handed, h.signals, fun x => ?_⟩
    rw [header_acked]
    exact h.header x
  markWhole {t y} h := by
    refine ⟨h.config, h.seq, h.now, h.handed, h.signals, fun x => (h.header x).trans ?_⟩
    exact rel_heap_modify (R := fun y z => y.primaryHeader.SameBundle z.primaryHeader)
      (fun _ => .refl _) (BpHeader6.sameBundle_setIsFragment _ _) x
  removed h _ := ⟨h.config, h.seq, (Memory.now_clearEvents _ _).trans h.now, h.handed, h.signals,
    h.header⟩
  discarded {t y} h _ := by
    refine ⟨h.config, h.seq, ?_, h.handed, h.signals, fun x => ?_⟩
    · exact (Memory.now_doDispose _ _).trans ((Memory.now_clearEvents _ _).trans h.now)
    · have hheader : (t.discarded y).header x = t.header x :=
        Memory.primaryHeader_doDispose (t.removed y).toMemory y x
      rw [hheader]
      exact h.header x

theorem DeliveryFrame.refl (s : BpAgent6) : DeliveryFrame s s :=
  ⟨rfl, rfl, rfl, rfl, rfl, fun _ => .refl _⟩

theorem frame_matchFragments (hrun : (s.logged b).matchFragments b = some t) : DeliveryFrame s t :=
  (deliveryClosed_frame s).matchFragments ((deliveryClosed_frame s).delivered (.refl s)) hrun

/-- **An arrival for an application**: the bundle is accepted and matched, and when custody is
requested a custody signal is sent. -/
theorem processBundle_active {q : Ptr} {rx : ReceivedBundle}
    (hactive : s.findRegistration rx.header.getDestinationEid = some true)
    (hother : (rx.header.getDestinationEid == s.config.eid) = false) :
    s.processBundle b q rx = some t ↔ ∃ u v, s.acceptBundle b rx = some u ∧
      (u.logged b).matchFragments b = some v ∧
      ((rx.header.custTxReq = false ∧ t = v) ∨
        (rx.header.custTxReq = true ∧ v.sendCustodySignal b q (v.header b).lifeTime = some t)) := by
  rw [processBundle_eq_some]
  refine exists_congr fun u => ?_
  rw [exists_and_left]
  refine and_congr_right fun haccept => ?_
  have hheader := header_acceptBundle haccept
  obtain ⟨hconfig, -⟩ := rest_acceptBundle haccept
  have hfind : u.findRegistration (u.header b).getDestinationEid = some true := by
    rw [hheader, findRegistration, hconfig]
    exact hactive
  have hagent : u.isForAgent b = false := by
    rw [isForAgent, hheader, hconfig]
    exact hother
  have henqueue : u.enqueueIfActive b true = (u.logged b).matchFragments b := by
    have hunfold : u.enqueueIfActive b true = if (u.logged b).isForAgent b then
        ((u.logged b).processAdminRecord b).bind fun v => v.matchFragments b
      else (u.logged b).matchFragments b := rfl
    have hsame : (u.logged b).isForAgent b = false := hagent
    rw [hunfold, hsame]
    rfl
  rw [isNodeMember_of_find hfind, deliver_eq_some, hfind, ← henqueue]
  constructor
  · rintro (⟨-, hnone | ⟨state, v, hstate, hv, hsend⟩⟩ | ⟨hnot, -⟩)
    · cases hnone.1
    · cases hstate
      have hkeys := (frame_matchFragments (henqueue ▸ hv)).header b
      rw [hkeys.custTxReq, hheader] at hsend
      exact ⟨v, hv, hsend⟩
    · cases hnot
  · rintro ⟨v, hv, hsend⟩
    have hkeys := (frame_matchFragments (henqueue ▸ hv)).header b
    refine Or.inl ⟨rfl, Or.inr ⟨true, v, rfl, hv, ?_⟩⟩
    rw [hkeys.custTxReq, hheader]
    exact hsend

end BpAgent6
end BundleProtocol
