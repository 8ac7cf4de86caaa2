import BundleProtocol.Matching
import BundleProtocol.Soundness
import Mathlib.Data.List.Induction

/-! # When reassembly is complete

All fragments of an ADU arrive at an empty store, each once.  The bytes that the stored
ranges cover fill as `Filled` says, and the whole ADU is stored in the end, unmarked and ready
for `Receive`, exactly when no fragment arrived after both the one in front of it and the one
behind it (`reassembly_complete_iff`): such a fragment is appended to the one in front, and
the one behind leaves the store with it.
-/
namespace BundleProtocol
open Tiling

/-- A fragment with the processing flags of `h` and no lifetime. -/
structure PlainFragment (h : BpHeader6) (p : Packet) (rx : ReceivedBundle) : Prop
    extends FragmentOf h p rx where
  processingFlags : rx.header.processingFlags = h.processingFlags
  lifeTime : rx.header.lifeTime = 0

theorem PlainFragment.like {h : BpHeader6} {p : Packet} {rx : ReceivedBundle}
    (hrx : PlainFragment h p rx) : Like h rx.header where
  named := hrx.named
  destination := hrx.destination
  priority := by
    unfold BpHeader6.priority
    rw [hrx.processingFlags]

namespace BpAgent6
variable {s t u : BpAgent6} {b q x : Ptr} {p : Packet} {h : BpHeader6} {rx : ReceivedBundle}

/-! ## One arrival -/

/-- The headers once the fragment is an object in memory. -/
theorem Reassembling.like_arrived (hs : Reassembling h p s) (hb : b ∉ s.mStore)
    (hrx : PlainFragment h p rx) (hx : x = b ∨ x ∈ s.mStore) :
    Like h ((s.arrived b rx).header x) := by
  rcases hx with rfl | hx
  · rw [header_arrived_self]
    exact hrx.like
  · have hne : x ≠ b := by
      rintro rfl
      exact hb hx
    have hheap : (s.arrived b rx).heap x = s.heap x := heap_modify_of_ne s hne _
    rw [BundleStore.header, hheap]
    exact hs.like x hx

/-- Among headers of one ADU the comparator is transitive, so insertion keeps the order. -/
theorem Reassembling.healthy_stored (hs : Reassembling h p s) (hb : b ∉ s.mStore)
    (hrx : PlainFragment h p rx) : ((s.arrived b rx).stored b).Healthy := by
  have harrived : (s.arrived b rx).Healthy := hs.of_sameKeys (sameKeys_modify_of_not_mem hb _)
  refine harrived.stored hb ?_ fun y hy z hz hby hyz => ?_
  · rw [show (s.arrived b rx).heap b = arrivedBundle rx from heap_modify_self s b _]
    exact Option.some_ne_none rx.adu
  · have hbl := hs.like_arrived hb hrx (Or.inl rfl)
    have hyl := hs.like_arrived hb hrx (Or.inr hy)
    have hzl := hs.like_arrived hb hrx (Or.inr hz)
    exact (hbl.compare_iff hzl b z).mpr
      (((hbl.compare_iff hyl b y).mp hby).trans ((hyl.compare_iff hzl y z).mp hyz))

/-- **Accepting a fragment**: it stands next to the ranges stored before. -/
theorem Reassembling.exists_arrived (hs : Reassembling h p s) (hb : b ∉ s.mStore)
    (hrx : PlainFragment h p rx) (hpart : rx.adu.size < p.size) :
    ∃ u, s.acceptBundle b rx = some u ∧ Arrived h p u b ∧ u.segment b = rx.piece ∧
      (u.others b).covered = s.buffer.covered := by
  have harrived : (s.arrived b rx).Healthy := hs.of_sameKeys (sameKeys_modify_of_not_mem hb _)
  have hstored := hs.healthy_stored hb hrx
  have haccept := acceptBundle_of_lifeTime hrx.lifeTime harrived.ordered
  have hmem : ∀ x, x ∈ ((s.arrived b rx).stored b).mStore ↔ x = b ∨ x ∈ s.mStore :=
    fun x => BundleStore.mem_stored
  generalize (s.arrived b rx).stored b = u at haccept hstored hmem
  have hne : ∀ x ∈ s.mStore, x ≠ b := by
    rintro x hx rfl
    exact hb hx
  have hheap : ∀ x ∈ s.mStore, u.heap x = s.heap x :=
    fun x hx => heap_acceptBundle_of_ne haccept (hne x hx)
  have hseg : ∀ x ∈ s.mStore, u.segment x = s.segment x := fun x hx => segment_congr (hheap x hx)
  have hdom : ∀ x, x ∈ (u.others b).dom ↔ x ∈ s.buffer.dom := by
    intro x
    constructor
    · rintro ⟨hx, hxb⟩
      exact ((hmem x).mp hx).resolve_left hxb
    · exact fun hx => ⟨(hmem x).mpr (Or.inr hx), hne x hx⟩
  have hpiece := partOf_acceptBundle hrx.toFragmentOf haccept
  have hsegment := segment_of_partOf hpiece
  refine ⟨u, haccept, ⟨hstored, fun x hx => ?_, fun x hx => ?_, fun x hx hfull => ?_,
    (hmem b).mpr (Or.inl rfl), hs.separated.congr hdom hseg⟩, hsegment,
    SegmentBuffer.covered_congr hdom hseg⟩
  · rcases (hmem x).mp hx with rfl | hx
    · rw [header_acceptBundle haccept]
      exact hrx.like
    · rw [BundleStore.header, hheap x hx]
      exact hs.like x hx
  · rcases (hmem x).mp hx with rfl | hx
    · rw [hsegment]
      exact hpiece
    · rw [hheap x hx, hseg x hx]
      exact hs.part x hx
  · rcases (hmem x).mp hx with rfl | hx
    · -- one fragment alone is not all of the ADU
      have hsize : u.aduSize x = rx.adu.size := BundleStore.aduSize_of_adu (adu_acceptBundle haccept)
      omega
    · rw [BundleStore.header, hheap x hx]
      refine hs.mark x hx ?_
      rw [← hfull, BundleStore.aduSize, BundleStore.aduSize, hheap x hx]

/-- All that is stored is of one identity. -/
theorem getBundles_eq_mStore {g : BpHeader6} (hnamed : ∀ x ∈ s.mStore, Named h (s.header x))
    (hg : Named h g) :
    s.getBundles g.getSourceEid g.createTimestamp g.timestampSeqNum = s.mStore := by
  unfold BundleStore.getBundles
  rw [List.filter_eq_self]
  intro x hx
  exact decide_eq_true ((names_iff_of_named hg _).mpr (hnamed x hx))

/-- **One fragment is matched**: the covered bytes fill with it. -/
theorem Reassembling.exists_matched (hs : Reassembling h p s) (hb : b ∉ s.mStore)
    (hrx : PlainFragment h p rx) (hpart : rx.adu.size < p.size)
    (hdisj : ∀ i ∈ span rx.piece, i ∉ s.buffer.covered) :
    ∃ u t, s.acceptBundle b rx = some u ∧ (u.logged b).matchFragments b = some t ∧
      Reassembling h p t ∧ Fills s.buffer.covered rx.piece t.buffer.covered ∧
      t.config = s.config ∧ ∀ x ∈ t.mStore, x = b ∨ x ∈ s.mStore := by
  obtain ⟨u, haccept, harrived, hsegment, hcovered⟩ := hs.exists_arrived hb hrx hpart
  have hlogged : Arrived h p (u.logged b) b := ⟨⟨harrived.ordered, harrived.adu⟩, harrived.like,
    harrived.part, harrived.mark, harrived.mem, harrived.separated⟩
  obtain ⟨a, t, hrun, ht⟩ := hlogged.exists_coalesce
  rw [← hcovered, ← hsegment] at hdisj
  have hpos := (harrived.part b harrived.mem).pos
  have hheader : (u.logged b).header b = rx.header :=
    show u.header b = rx.header from header_acceptBundle haccept
  have hmatch : (u.logged b).matchFragments b = some t := by
    unfold matchFragments
    rw [hheader, if_pos hrx.isFragment,
      getBundles_eq_mStore (fun x hx => (hlogged.like x hx).named) hrx.named]
    exact hrun
  have hfills : Fills (u.others b).covered (u.segment b) t.buffer.covered :=
    ht.arrives.fills harrived.separated hpos hdisj
  rw [hcovered, hsegment] at hfills
  have hkeys : SameKeys (u.logged b) t := (deliveryClosed_sameKeys _).coalesce (.refl _) hrun
  have hconfig := (frame_matchFragments hmatch).config
  refine ⟨u, t, haccept, hmatch, ht.reassembling hlogged hrun hdisj, hfills,
    hconfig.trans (rest_acceptBundle haccept).1, fun x hx => ?_⟩
  rcases mem_acceptBundle haccept (hkeys.mStore.subset hx) with hold | ⟨hself, -⟩
  · exact Or.inr hold
  · exact Or.inl hself

/-- **One fragment arrives**: it is processed, and the covered bytes fill with it. -/
theorem Reassembling.exists_processBundle (hs : Reassembling h p s) (ha : s.ActiveApplication h)
    (hcust : h.custTxReq = false) (hb : b ∉ s.mStore) (hrx : PlainFragment h p rx)
    (hpart : rx.adu.size < p.size) (hdisj : ∀ i ∈ span rx.piece, i ∉ s.buffer.covered) :
    ∃ t, s.processBundle b q rx = some t ∧ Reassembling h p t ∧
      Fills s.buffer.covered rx.piece t.buffer.covered ∧ t.config = s.config ∧
      ∀ x ∈ t.mStore, x = b ∨ x ∈ s.mStore := by
  obtain ⟨u, t, haccept, hmatch, ht⟩ := hs.exists_matched hb hrx hpart hdisj
  have hplain : rx.header.custTxReq = false := by
    unfold BpHeader6.custTxReq
    rw [hrx.processingFlags]
    exact hcust
  have ha' := ha.of_uri hrx.destination
  exact ⟨t, (processBundle_active ha'.active ha'.other).mpr
    ⟨u, t, haccept, hmatch, Or.inl ⟨hplain, rfl⟩⟩, ht⟩

/-! ## All arrivals -/

/-- A received bundle, with the addresses of its object and of a signal about it. -/
structure Arrival where
  ptr : Ptr
  signal : Ptr
  bundle : ReceivedBundle

/-- `ProcessBundle` on one bundle after another. -/
def processAll (s : BpAgent6) (arrivals : List Arrival) : Option BpAgent6 :=
  arrivals.foldlM (fun s a => s.processBundle a.ptr a.signal a.bundle) s

/-- The ranges in the order of their arrival. -/
def ranges (arrivals : List Arrival) : List (ℕ × ℕ) := arrivals.map fun a => a.bundle.piece

theorem reassembling_of_empty (hempty : s.mStore = []) : Reassembling h p s := by
  have hnone : ∀ x, x ∉ s.mStore := by simp [hempty]
  refine ⟨⟨?_, fun x hx => absurd hx (hnone x)⟩, fun x hx => absurd hx (hnone x),
    fun x hx => absurd hx (hnone x), fun x hx => absurd hx (hnone x),
    ⟨fun x hx => absurd hx (hnone x), fun x hx => absurd hx (hnone x)⟩⟩
  rw [BundleStore.Ordered, hempty]
  exact List.Pairwise.nil

/-- **A run of arrivals**: the covered bytes fill with the fragments. -/
theorem exists_processAll_filled {ps : List (ℕ × ℕ)} {arrivals : List Arrival}
    (hempty : s.mStore = []) (ha : s.ActiveApplication h) (hcust : h.custTxReq = false)
    (htiles : Tiles ps 0 p.size)
    (harrivals : ∀ a ∈ arrivals, PlainFragment h p a.bundle ∧ a.bundle.adu.size < p.size)
    (hsub : ranges arrivals ⊆ ps) (hnodup : (ranges arrivals).Nodup)
    (hptr : (arrivals.map Arrival.ptr).Nodup) :
    ∃ t, s.processAll arrivals = some t ∧ Reassembling h p t ∧
      Filled (ranges arrivals) t.buffer.covered ∧ t.config = s.config ∧
      ∀ x ∈ t.mStore, x ∈ arrivals.map Arrival.ptr := by
  induction arrivals using List.reverseRecOn with
  | nil =>
    have hcovered : s.buffer.covered = ∅ := by
      ext i
      simp [SegmentBuffer.covered, buffer, hempty]
    refine ⟨s, rfl, reassembling_of_empty hempty, ?_, rfl, by simp [hempty]⟩
    rw [hcovered]
    exact .nil
  | append_singleton arrivals a ih =>
    have hranges : ranges (arrivals ++ [a]) = ranges arrivals ++ [a.bundle.piece] := by
      simp [ranges]
    rw [hranges] at hsub hnodup ⊢
    rw [List.map_append] at hptr
    obtain ⟨hnodup', -, hfresh⟩ := List.nodup_append.mp hnodup
    obtain ⟨hptr', -, hnew⟩ := List.nodup_append.mp hptr
    have hsub' : ranges arrivals ⊆ ps := fun r hr => hsub (List.mem_append_left _ hr)
    obtain ⟨u, hu, hreassembling, hfilled, hconfig, hmem⟩ :=
      ih (fun c hc => harrivals c (List.mem_append_left _ hc)) hsub' hnodup' hptr'
    obtain ⟨hplain, hsize⟩ := harrivals a (by simp)
    have hpiece : a.bundle.piece ∈ ps := hsub (by simp)
    have hnot : a.bundle.piece ∉ ranges arrivals := fun hr => hfresh _ hr _ (by simp) rfl
    have hptrnew : a.ptr ∉ u.mStore := fun hx => hnew _ (hmem _ hx) a.ptr (by simp) rfl
    -- the new fragment overlaps nothing that has arrived, so nothing that is covered
    have hdisj : ∀ i ∈ span a.bundle.piece, i ∉ u.buffer.covered := by
      intro i hi hcovered
      have hcover := htiles.disjoint_cover hsub' hpiece hnot hi
      rcases hfilled.cover_or_between htiles hsub' hnodup' with ⟨-, heq⟩ | ⟨-, hlost⟩
      · rw [heq] at hcovered
        exact hcover hcovered
      · exact hcover (hlost.1 hcovered)
    obtain ⟨t, ht, hreassembling', hfills, hconfig', hmem'⟩ :=
      hreassembling.exists_processBundle (q := a.signal) (ha.of_config hconfig) hcust hptrnew hplain
        hsize hdisj
    refine ⟨t, ?_, hreassembling', hfilled.snoc hfills, hconfig'.trans hconfig, fun x hx => ?_⟩
    · rw [processAll, List.foldlM_append]
      exact Option.bind_eq_some_iff.mpr ⟨u, hu, Option.bind_eq_some_iff.mpr ⟨t, ht, rfl⟩⟩
    · rw [List.map_append]
      rcases hmem' x hx with rfl | hx
      · exact List.mem_append_right _ (by simp)
      · exact List.mem_append_left _ (hmem x hx)

/-! ## The whole ADU -/

/-- One bundle of the identity of `h` is stored, it is the whole ADU, and `Receive` returns it. -/
structure Reassembled (h : BpHeader6) (p : Packet) (t : BpAgent6) : Prop where
  bundle : ∃ b, t.getBundles h.getSourceEid h.createTimestamp h.timestampSeqNum = [b] ∧
    (t.header b).isFragment = false ∧ (t.heap b).adu = some p
  receive : ∀ dst : BpEndpointId, dst.uri = h.getDestinationEid.uri →
    ∃ t', t.receive dst = some (t', some p)

/-- `Receive` returns the only bundle of a store, when it is whole. -/
theorem receive_of_singleton {dst : BpEndpointId} (hstore : t.mStore = [b]) (hord : t.Ordered)
    (hdst : (t.header b).getDestinationEid.uri = dst.uri) (hmark : (t.header b).isFragment = false)
    (hadu : (t.heap b).adu = some p) : ∃ t', t.receive dst = some (t', some p) := by
  have hdestination : ((t.header b).getDestinationEid == dst) = true := BpEndpointId.beq_iff.mpr hdst
  have hfind : t.deliverable dst false = some b := by
    unfold BundleStore.deliverable
    rw [hstore, List.find?_cons]
    simp [hdestination, hmark]
  exact ⟨_, receive_eq_some.mpr (Or.inr ⟨b, p, hfind, hord, hadu, rfl, rfl⟩)⟩

/-- The ADU is reassembled when all of it is covered. -/
theorem Reassembling.reassembled_iff (ht : Reassembling h p t) (hpos : 0 < p.size) :
    Reassembled h p t ↔ t.buffer.covered = Set.Ico 0 p.size := by
  have hnamed : Named h h := ⟨BpEndpointId.beq_self _, rfl, rfl⟩
  have hbundles := getBundles_eq_mStore (fun x hx => (ht.like x hx).named) hnamed
  constructor
  · rintro ⟨⟨b, hb, -, hadu⟩, -⟩
    rw [hbundles] at hb
    have hmem : b ∈ t.mStore := by simp [hb]
    have hpart := ht.part b hmem
    have hle := hpart.le
    -- one range, and it has the size of the ADU
    have hsize : (t.segment b).2 = p.size := by
      rw [← aduSize_of_partOf hpart, BundleStore.aduSize_of_adu hadu]
    ext i
    constructor
    · rintro ⟨x, hx, hi⟩
      have hxle := (ht.part x hx).le
      have hi' : (t.segment x).1 ≤ i ∧ i < (t.segment x).1 + (t.segment x).2 := hi
      exact ⟨Nat.zero_le i, by omega⟩
    · rintro ⟨-, hi⟩
      refine ⟨b, hmem, ?_⟩
      show (t.segment b).1 ≤ i ∧ i < (t.segment b).1 + (t.segment b).2
      omega
  · intro hcovered
    have hzero : 0 ∈ t.buffer.covered := by
      rw [hcovered]
      exact ⟨Nat.le_refl 0, hpos⟩
    obtain ⟨b, hb, -⟩ := hzero
    obtain ⟨hsegment, honly⟩ := ht.separated.eq_of_covered hcovered hb
    have hstore : t.mStore = [b] := by
      refine List.perm_singleton.mp
        ((List.perm_ext_iff_of_nodup ht.ordered.nodup (List.nodup_singleton b)).mpr fun x => ?_)
      rw [List.mem_singleton]
      refine ⟨honly x, ?_⟩
      rintro rfl
      exact hb
    have hpart := ht.part b hb
    rw [show t.segment b = (0, p.size) from hsegment] at hpart
    have hadu : (t.heap b).adu = some p := by
      rw [hpart.adu, Packet.piece_size]
    have hmark : (t.header b).isFragment = false :=
      ht.mark b hb (BundleStore.aduSize_of_adu hadu)
    refine ⟨⟨b, hbundles.trans hstore, hmark, hadu⟩, fun dst hdst => ?_⟩
    exact receive_of_singleton hstore ht.ordered ((ht.like b hb).destination.trans hdst.symm) hmark hadu

/-- **All fragments of a tiling arrive**, each once. -/
theorem exists_processAll {ps : List (ℕ × ℕ)} {arrivals : List Arrival}
    (hempty : s.mStore = []) (ha : s.ActiveApplication h) (hcust : h.custTxReq = false)
    (htiles : Tiles ps 0 p.size) (hcount : 2 ≤ ps.length)
    (harrivals : ∀ a ∈ arrivals, PlainFragment h p a.bundle) (hperm : (ranges arrivals).Perm ps)
    (hptr : (arrivals.map Arrival.ptr).Nodup) :
    ∃ t, s.processAll arrivals = some t ∧ Reassembling h p t ∧
      Filled (ranges arrivals) t.buffer.covered := by
  have hnodup : (ranges arrivals).Nodup := hperm.nodup_iff.mpr htiles.nodup
  have hplain : ∀ a ∈ arrivals, PlainFragment h p a.bundle ∧ a.bundle.adu.size < p.size := by
    intro a hmem
    have hpiece : a.bundle.piece ∈ ps := hperm.subset (List.mem_map_of_mem hmem)
    exact ⟨harrivals a hmem, htiles.length_lt hcount hpiece⟩
  obtain ⟨t, ht, hreassembling, hfilled, -⟩ := exists_processAll_filled hempty ha hcust htiles hplain
    hperm.subset hnodup hptr
  exact ⟨t, ht, hreassembling, hfilled⟩

/-- **When reassembly is complete**: the fragments of a partition of an ADU are processed in any
order, and afterwards the whole ADU is stored and returned by `Receive` exactly when no
fragment came after both the one in front of it and the one behind it. -/
theorem reassembly_complete_iff {ps : List (ℕ × ℕ)} {arrivals : List Arrival}
    (hempty : s.mStore = []) (ha : s.ActiveApplication h) (hcust : h.custTxReq = false)
    (htiles : Tiles ps 0 p.size) (hcount : 2 ≤ ps.length)
    (harrivals : ∀ a ∈ arrivals, PlainFragment h p a.bundle) (hperm : (ranges arrivals).Perm ps)
    (hptr : (arrivals.map Arrival.ptr).Nodup) :
    ∃ t, s.processAll arrivals = some t ∧
      (Reassembled h p t ↔ ¬ArrivesBetween (ranges arrivals)) := by
  obtain ⟨t, ht, hreassembling, hfilled⟩ :=
    exists_processAll hempty ha hcust htiles hcount harrivals hperm hptr
  obtain ⟨r, hr⟩ := List.exists_mem_of_length_pos (l := ps) (by omega)
  have hpos := Nat.zero_lt_of_lt (htiles.length_lt hcount hr)
  refine ⟨t, ht, ?_⟩
  rw [hreassembling.reassembled_iff hpos]
  exact hfilled.eq_Ico_iff htiles hperm

end BpAgent6

namespace Sample
open BpAgent6

/-- The fragments of one byte of `threeBytes`, in the order of the offsets given. -/
def fragments (offsets : List UInt32) : List Arrival :=
  offsets.map fun o => ⟨o.toNat, o.toNat + 3, fragment 3 o (UInt8.ofNat (o.toNat + 10))⟩

theorem plainFragment_fragments {offsets : List UInt32} (hoffsets : ∀ o ∈ offsets, o ∈ [0, 1, 2])
    {a : Arrival} (ha : a ∈ fragments offsets) :
    PlainFragment (header 2 6 1 0 3) threeBytes a.bundle := by
  obtain ⟨o, ho, rfl⟩ := List.mem_map.mp ha
  have hcase := hoffsets o ho
  simp only [List.mem_cons, List.not_mem_nil, or_false] at hcase
  refine ⟨?_, rfl, rfl⟩
  rcases hcase with rfl | rfl | rfl <;>
    exact fragmentOf_fragment (by decide) (by decide) (by decide)

theorem activeApplication_agent (flags offset length : UInt32) :
    (agent 10 true).ActiveApplication (header 2 6 flags offset length) := by
  have hdst : (header 2 6 flags offset length).getDestinationEid =
      (header 2 6 0 0 0).getDestinationEid := rfl
  refine ⟨?_, ?_⟩ <;> rw [hdst] <;> decide +kernel

end Sample

namespace BpAgent6

/-- The middle fragment first: the other two are joined to it. -/
theorem reassembly_complete_sample :
    ∃ t, (Sample.agent 10 true).processAll (Sample.fragments [1, 2, 0]) = some t ∧
      Reassembled (Sample.header 2 6 1 0 3) Sample.threeBytes t := by
  have htiles : Tiles [(0, 1), (1, 1), (2, 1)] 0 Sample.threeBytes.size :=
    .cons Nat.one_pos (.cons Nat.one_pos (.cons Nat.one_pos (.nil _)))
  obtain ⟨t, ht, hiff⟩ := reassembly_complete_iff (s := Sample.agent 10 true) rfl
    (Sample.activeApplication_agent 1 0 3) (by decide) htiles (by decide)
    (fun a => Sample.plainFragment_fragments
      (show ∀ o ∈ ([1, 2, 0] : List UInt32), o ∈ [0, 1, 2] by simp)) (by decide) (by decide)
  refine ⟨t, ht, hiff.mpr ?_⟩
  rw [show ranges (Sample.fragments [1, 2, 0]) = [] ++ [(1, 1)] ++ [(2, 1)] ++ [(0, 1)] by decide]
  simp only [arrivesBetween_append_singleton, not_arrivesBetween_nil, false_or]
  decide

/-- The middle fragment last: it goes to the first one, and the third one is lost. -/
theorem reassembly_incomplete :
    (Sample.agent 10 true).mStore = [] ∧
      (Sample.agent 10 true).ActiveApplication (Sample.header 2 6 1 0 3) ∧
      (Sample.header 2 6 1 0 3).custTxReq = false ∧
      (∀ a ∈ Sample.fragments [0, 2, 1],
        PlainFragment (Sample.header 2 6 1 0 3) Sample.threeBytes a.bundle) ∧
      ranges (Sample.fragments [0, 2, 1]) = [(0, 1), (2, 1), (1, 1)] ∧
      ∃ t, (Sample.agent 10 true).processAll (Sample.fragments [0, 2, 1]) = some t ∧
        t.mStore = [0] ∧ (t.heap 0).adu = some ⟨[10, 11], by decide⟩ ∧
        ¬Reassembled (Sample.header 2 6 1 0 3) Sample.threeBytes t := by
  obtain ⟨t, ht, htest⟩ := (Option.any_eq_true (fun t : BpAgent6 =>
    decide (t.mStore = [0] ∧ (t.heap 0).adu = some ⟨[10, 11], by decide⟩)) _).mp
    (by decide +kernel :
      ((Sample.agent 10 true).processAll (Sample.fragments [0, 2, 1])).any _ = true)
  obtain ⟨hstore, hadu⟩ := of_decide_eq_true htest
  refine ⟨rfl, Sample.activeApplication_agent 1 0 3, by decide,
    fun a => Sample.plainFragment_fragments (by simp), by decide, t, ht, hstore, hadu, ?_⟩
  rintro ⟨⟨b, hb, -, hwhole⟩, -⟩
  have hmem : b ∈ t.mStore := (BundleStore.mem_getBundles.mp (by rw [hb]; simp)).1
  rw [hstore, List.mem_singleton] at hmem
  subst hmem
  rw [hadu] at hwhole
  exact absurd hwhole (by decide)

end BpAgent6
end BundleProtocol
