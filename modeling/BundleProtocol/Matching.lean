import BundleProtocol.Fragments
import BundleProtocol.SegmentBuffer

/-! # Matching a fragment against separated pieces

The stored fragments of an ADU are a buffer of separated ranges (`buffer`), and the loop of
`EnqueueForDeliveryToApplication` does to them what `SegmentBuffer.Arrives` says
(`Arrived.exists_coalesce`): it meets the range in front of the new fragment before the one
behind it, because the store is ordered by offset.  A fragment between two ranges is appended
to the one in front and leaves the store; the range behind is then taken out of the store as
well and appended to the fragment.
-/
namespace BundleProtocol
open Tiling

/-! ## Headers of one ADU -/

/-- The header `g` shows the identity, the destination and the priority of `h`. -/
structure Like (h g : BpHeader6) : Prop where
  named : Named h g
  destination : g.getDestinationEid.uri = h.getDestinationEid.uri
  priority : g.priority = h.priority

theorem Like.of_sameBundle {h g g' : BpHeader6} (hg : Like h g) (hsame : g.SameBundle g') :
    Like h g' where
  named := (named_congr hsame).mpr hg.named
  destination := by
    rw [hsame.destination]
    exact hg.destination
  priority := hsame.priority.trans hg.priority

/-- Among such headers the comparator is a lexicographic order. -/
theorem Like.compare_iff {h g g' : BpHeader6} (hg : Like h g) (hg' : Like h g') (x y : Ptr) :
    bundlePriorityCompare g g' x y = true ↔ sortKey g x < sortKey g' y := by
  refine bundlePriorityCompare_iff ?_
  have hseq : g.timestampSeqNum = g'.timestampSeqNum := hg.named.2.2.trans hg'.named.2.2.symm
  rw [hseq, seqLt_irrefl]
  simp

/-- Among such headers the offset decides. -/
theorem Like.offset_le {h g g' : BpHeader6} (hg : Like h g) (hg' : Like h g') {x y : Ptr}
    (hlt : bundlePriorityCompare g g' x y = true) : g.fragOffset.toNat ≤ g'.fragOffset.toNat := by
  have hpriority : g.priority = g'.priority := hg.priority.trans hg'.priority.symm
  have hts : g.createTimestamp = g'.createTimestamp := hg.named.2.1.trans hg'.named.2.1.symm
  have hseq : g.timestampSeqNum = g'.timestampSeqNum := hg.named.2.2.trans hg'.named.2.2.symm
  by_cases hoffset : g.fragOffset = g'.fragOffset
  · rw [hoffset]
  · unfold bundlePriorityCompare at hlt
    simp only [hpriority, hts, hseq, ne_eq, not_true_eq_false, if_false, hoffset, not_false_eq_true,
      if_true, decide_eq_true_eq] at hlt
    omega

namespace BpAgent6
variable {s t u v : BpAgent6} {b q x y it : Ptr} {p : Packet} {h : BpHeader6} {rx : ReceivedBundle}
  {r : ℕ × ℕ}

/-! ## The store as a buffer -/

/-- Where the ADU of the bundle at `x` lies. -/
def segment (s : BpAgent6) (x : Ptr) : ℕ × ℕ := ((s.header x).fragOffset.toNat, s.aduSize x)

/-- The stored bundles as ranges. -/
def buffer (s : BpAgent6) : SegmentBuffer Ptr := ⟨{x | x ∈ s.mStore}, s.segment⟩

theorem segment_of_partOf (hx : (s.heap x).PartOf p r) : s.segment x = r :=
  Prod.ext hx.fragOffset (aduSize_of_partOf hx)

theorem segment_congr (hheap : t.heap x = s.heap x) : t.segment x = s.segment x := by
  unfold segment BundleStore.header BundleStore.aduSize
  rw [hheap]

/-- The store holds separated pieces of the ADU and nothing else, and a piece that is all of
it is not marked as a fragment. -/
structure Reassembling (h : BpHeader6) (p : Packet) (s : BpAgent6) : Prop extends s.Healthy where
  like : ∀ x ∈ s.mStore, Like h (s.header x)
  part : ∀ x ∈ s.mStore, (s.heap x).PartOf p (s.segment x)
  mark : ∀ x ∈ s.mStore, s.aduSize x = p.size → (s.header x).isFragment = false
  separated : s.buffer.Separated

/-! ## The loop -/

section Loop
variable {B : SegmentBuffer Ptr} {l : List Ptr}

/-- The loop over bundles none of which lies in front of the fragment: it takes in the one
behind it, if there is one. -/
theorem coalesce_behind (hB : B.Separated) (hbdom : b ∉ B.dom) (hs : s.Healthy)
    (hb : (s.heap b).PartOf p r) (hnodup : l.Nodup)
    (hl : ∀ it ∈ l, it ≠ b → it ∈ B.dom ∧ (s.heap it).PartOf p (B.seg it))
    (hfront : ∀ it ∈ l, ¬B.InFront r it) :
    ((∀ y ∈ l, ¬B.Behind r y) ∧ s.coalesce b l = some s) ∨ ∃ y ∈ l, B.Behind r y ∧
      s.coalesce b l = some (s.absorbed b y (p.piece r.1 (r.2 + (B.seg y).2))) := by
  have hrpos := hb.pos
  by_cases hbehind : ∃ y ∈ l, B.Behind r y
  · obtain ⟨y, hy, hybehind⟩ := hbehind
    refine Or.inr ⟨y, hy, hybehind, ?_⟩
    have hyb : y ≠ b := by
      rintro rfl
      exact hbdom hybehind.1
    obtain ⟨-, hypart⟩ := hl y hy hyb
    have hystart := hybehind.2
    have hyle := hypart.le
    obtain ⟨l₁, l₂, rfl⟩ := List.append_of_mem hy
    obtain ⟨hy₁, hy₂⟩ : y ∉ l₁ ∧ y ∉ l₂ := by
      have hmem := (List.nodup_cons.mp (List.nodup_middle.mp hnodup)).1
      simpa using hmem
    have hstep := coalesceWith_behind hs.ordered hb hypart hystart.symm
    have hfirst : s.coalesce b l₁ = some s := by
      refine coalesce_of_apart hs.ordered hb fun it hit => ?_
      have hmem : it ∈ l₁ ++ y :: l₂ := List.mem_append_left _ hit
      by_cases hitb : it = b
      · subst hitb
        exact ⟨r, hb, by omega, by omega⟩
      · obtain ⟨hdom, hpart⟩ := hl it hmem hitb
        refine ⟨_, hpart, fun he => hfront it hmem ⟨hdom, he⟩, fun he => ?_⟩
        obtain rfl := hB.behind_unique (r := r) ⟨hdom, he.symm⟩ hybehind
        exact hy₁ hit
    rw [coalesce_append_cons hfirst hstep]
    -- the fragment has grown to the end of the range behind it
    have hgrown : ((s.absorbed b y (p.piece r.1 (r.2 + (B.seg y).2))).heap b).PartOf p
        (r.1, r.2 + (B.seg y).2) := by
      rw [heap_absorbed_self]
      exact hb.grown (by omega)
    have hord : (s.absorbed b y (p.piece r.1 (r.2 + (B.seg y).2))).Ordered :=
      (hs.of_sameKeys (sameKeys_absorbed s b y _)).ordered
    refine coalesce_of_apart hord hgrown fun it hit => ?_
    have hmem : it ∈ l₁ ++ y :: l₂ := List.mem_append_right _ (List.mem_cons_of_mem y hit)
    by_cases hitb : it = b
    · subst hitb
      exact ⟨_, hgrown, by dsimp only; omega, by dsimp only; omega⟩
    · obtain ⟨hdom, hpart⟩ := hl it hmem hitb
      have hne : it ≠ y := by
        rintro rfl
        exact hy₂ hit
      have hgap := hB.gap it hdom y hybehind.1 hne
      have hitpos := hpart.pos
      rw [heap_absorbed_of_ne s hitb]
      exact ⟨_, hpart, fun he => hfront it hmem ⟨hdom, he⟩, by dsimp only; omega⟩
  · have hnone : ∀ y ∈ l, ¬B.Behind r y := fun y hy hybehind => hbehind ⟨y, hy, hybehind⟩
    refine Or.inl ⟨hnone, coalesce_of_apart hs.ordered hb fun it hit => ?_⟩
    by_cases hitb : it = b
    · subst hitb
      exact ⟨r, hb, by omega, by omega⟩
    · obtain ⟨hdom, hpart⟩ := hl it hit hitb
      exact ⟨_, hpart, fun he => hfront it hit ⟨hdom, he⟩, fun he => hnone it hit ⟨hdom, he.symm⟩⟩

/-- What is left when the range behind is taken out. -/
theorem mem_erase_behind (hB : B.Separated) (hnodup : l.Nodup) (hy : B.Behind r y) :
    x ∈ l.erase y ↔ x ∈ l ∧ ¬B.Behind r x := by
  rw [hnodup.mem_erase_iff]
  constructor
  · rintro ⟨hxy, hx⟩
    exact ⟨hx, fun hxbehind => hxy (hB.behind_unique hxbehind hy)⟩
  · rintro ⟨hx, hnot⟩
    refine ⟨?_, hx⟩
    rintro rfl
    exact hnot hy

end Loop

/-- The stored bundles other than `b`, as ranges. -/
def others (s : BpAgent6) (b : Ptr) : SegmentBuffer Ptr := ⟨{x | x ∈ s.mStore ∧ x ≠ b}, s.segment⟩

/-- The fragment at `b` has arrived in a store of separated pieces of the ADU. -/
structure Arrived (h : BpHeader6) (p : Packet) (s : BpAgent6) (b : Ptr) : Prop extends s.Healthy where
  like : ∀ x ∈ s.mStore, Like h (s.header x)
  part : ∀ x ∈ s.mStore, (s.heap x).PartOf p (s.segment x)
  mark : ∀ x ∈ s.mStore, s.aduSize x = p.size → (s.header x).isFragment = false
  mem : b ∈ s.mStore
  separated : (s.others b).Separated

/-- The object at `x` is what it was or has grown. -/
def GrownFrom (p : Packet) (s t : BpAgent6) (x : Ptr) : Prop :=
  t.heap x = s.heap x ∨ ∃ r : ℕ × ℕ, r.1 + r.2 ≤ p.size ∧ t.heap x = (s.heap x).grown (p.piece r.1 r.2)

/-- The fragment at `b` has been matched, and is in the range at `a` now. -/
structure Matched (p : Packet) (s : BpAgent6) (b a : Ptr) (t : BpAgent6) : Prop where
  arrives : (s.others b).Arrives (s.segment b) a t.buffer
  part : ∀ x ∈ t.mStore, (t.heap x).PartOf p (t.segment x)
  grown : ∀ x ∈ t.mStore, GrownFrom p s t x

/-- Only the object at `a` changes, and the bundle behind the fragment leaves the store. -/
theorem Arrived.matched {a : Ptr} (hs : Arrived h p s b)
    (hmem : ∀ x, x ∈ t.mStore ↔
      (x = a ∨ x ∈ (s.others b).dom) ∧ ¬(s.others b).Behind (s.segment b) x)
    (hsame : ∀ x ∈ t.mStore, x ≠ a → t.heap x = s.heap x) (ha : (t.heap a).PartOf p (t.segment a))
    (hgrown : GrownFrom p s t a) (htakes : (s.others b).Takes t.buffer (s.segment b) a) :
    Matched p s b a t where
  arrives := ⟨hmem, fun x hx hne => segment_congr (hsame x hx hne), htakes⟩
  part x hx := by
    by_cases hxa : x = a
    · subst hxa
      exact ha
    · rw [segment_congr (hsame x hx hxa), hsame x hx hxa]
      exact hs.part x (((hmem x).mp hx).1.resolve_left hxa).1
  grown x hx := by
    by_cases hxa : x = a
    · subst hxa
      exact hgrown
    · exact Or.inl (hsame x hx hxa)

/-- What the loop meets besides the fragment itself. -/
theorem Arrived.mem_others (hs : Arrived h p s b) {it : Ptr} (hit : it ∈ s.mStore) (hne : it ≠ b) :
    it ∈ (s.others b).dom ∧ (s.heap it).PartOf p ((s.others b).seg it) :=
  ⟨⟨hit, hne⟩, hs.part it hit⟩

/-- **No range in front.** -/
theorem Arrived.coalesce_alone (hs : Arrived h p s b)
    (hfront : ∀ x, ¬(s.others b).InFront (s.segment b) x) :
    ∃ t, s.coalesce b s.mStore = some t ∧ Matched p s b b t := by
  have hb := hs.part b hs.mem
  have hbdom : b ∉ (s.others b).dom := fun hmem => hmem.2 rfl
  have hnodup := hs.ordered.nodup
  have hdom : ∀ x, x = b ∨ x ∈ (s.others b).dom ↔ x ∈ s.mStore := by
    intro x
    constructor
    · rintro (rfl | hx)
      · exact hs.mem
      · exact hx.1
    · intro hx
      by_cases hxb : x = b
      · exact Or.inl hxb
      · exact Or.inr ⟨hx, hxb⟩
  rcases coalesce_behind hs.separated hbdom hs.toHealthy hb hnodup (fun it => hs.mem_others)
    (fun it _ => hfront it) with ⟨hnone, hrun⟩ | ⟨y, hy, hbehind, hrun⟩
  · -- nothing to join: the fragment stays as it is
    refine ⟨s, hrun, hs.matched (fun x => ?_) (fun _ _ _ => rfl) hb (Or.inl rfl) ?_⟩
    · rw [hdom]
      exact ⟨fun hx => ⟨hx, hnone x hx⟩, And.left⟩
    · exact .alone hbdom hfront (fun x hx => hnone x hx.1.1 hx) rfl
  · have hyle := (hs.part y hy).le
    have hystart : (s.segment y).1 = (s.segment b).1 + (s.segment b).2 := hbehind.2
    have hself := heap_absorbed_self s b y
      (p.piece (s.segment b).1 ((s.segment b).2 + (s.segment y).2))
    have hpart := hb.grown (q := s.segment y) (by omega)
    rw [← hself] at hpart
    have hsegment := segment_of_partOf hpart
    refine ⟨_, hrun, hs.matched (fun x => ?_) (fun x _ hx => heap_absorbed_of_ne s hx y _) ?_ ?_ ?_⟩
    · rw [hdom, mStore_absorbed]
      exact mem_erase_behind hs.separated hnodup hbehind
    · exact hsegment ▸ hpart
    · exact Or.inr ⟨_, hpart.le, hself⟩
    · exact .behind hbdom hfront hbehind hsegment

section Front
variable {a : Ptr} {l₁ l₂ : List Ptr}

/-- The range in front is not the one behind. -/
theorem Arrived.not_behind_front (hs : Arrived h p s b)
    (ha : (s.others b).InFront (s.segment b) a) : ¬(s.others b).Behind (s.segment b) a := by
  intro hbehind
  have hpos := (hs.part b hs.mem).pos
  have hend : (s.segment a).1 + (s.segment a).2 = (s.segment b).1 := ha.2
  have hstart : (s.segment a).1 = (s.segment b).1 + (s.segment b).2 := hbehind.2
  omega

/-- The bundles before the range in front have smaller offsets, so none of them is behind the
fragment. -/
theorem Arrived.not_behind_before (hs : Arrived h p s b)
    (ha : (s.others b).InFront (s.segment b) a) (hsplit : s.mStore = l₁ ++ a :: l₂) :
    ∀ it ∈ l₁, ¬(s.others b).Behind (s.segment b) it := by
  intro it hit hbehind
  have hpos := (hs.part b hs.mem).pos
  have hord := hs.ordered
  rw [BundleStore.Ordered, OrderedList.Ordered, hsplit] at hord
  have hlt := (List.pairwise_append.mp hord).2.2 it hit a List.mem_cons_self
  have hle : (s.segment it).1 ≤ (s.segment a).1 :=
    (hs.like it hbehind.1.1).offset_le (hs.like a ha.1.1) hlt
  have hstart : (s.segment it).1 = (s.segment b).1 + (s.segment b).2 := hbehind.2
  have hend : (s.segment a).1 + (s.segment a).2 = (s.segment b).1 := ha.2
  omega

/-- The loop passes the bundles before the range in front. -/
theorem Arrived.coalesce_before (hs : Arrived h p s b)
    (ha : (s.others b).InFront (s.segment b) a) (hsplit : s.mStore = l₁ ++ a :: l₂)
    (hnot : a ∉ l₁) : s.coalesce b l₁ = some s := by
  have hb := hs.part b hs.mem
  have hpos := hb.pos
  refine coalesce_of_apart hs.ordered hb fun it hit => ?_
  have hmem : it ∈ s.mStore := hsplit ▸ List.mem_append_left _ hit
  by_cases hitb : it = b
  · subst hitb
    exact ⟨_, hb, by omega, by omega⟩
  · obtain ⟨hdom, hpart⟩ := hs.mem_others hmem hitb
    refine ⟨_, hpart, fun he => ?_, fun he =>
      hs.not_behind_before ha hsplit it hit ⟨hdom, he.symm⟩⟩
    obtain rfl := hs.separated.inFront_unique ⟨hdom, he⟩ ha
    exact hnot hit

/-- The rest of the loop, after the range in front has taken the fragment in: the fragment, no
longer stored, takes in the range behind it. -/
theorem Arrived.coalesce_after (hs : Arrived h p s b)
    (ha : (s.others b).InFront (s.segment b) a) (hsplit : s.mStore = l₁ ++ a :: l₂)
    (hnot : a ∉ l₂) (hnodup₂ : l₂.Nodup) (hv : v.Healthy) (hstore : v.mStore = s.mStore.erase b)
    (hsame : ∀ x, x ≠ a → v.heap x = s.heap x) :
    ∃ t, v.coalesce b l₂ = some t ∧
      (∀ x, x ∈ t.mStore ↔ x ∈ s.mStore.erase b ∧ ¬(s.others b).Behind (s.segment b) x) ∧
      ∀ x, x ≠ b → t.heap x = v.heap x := by
  have hbdom : b ∉ (s.others b).dom := fun hmem => hmem.2 rfl
  have hb : (v.heap b).PartOf p (s.segment b) := by
    rw [hsame b (Ne.symm ha.1.2)]
    exact hs.part b hs.mem
  have hl₂ : ∀ it ∈ l₂, it ≠ b →
      it ∈ (s.others b).dom ∧ (v.heap it).PartOf p ((s.others b).seg it) := by
    intro it hit hne
    have hita : it ≠ a := by
      rintro rfl
      exact hnot hit
    rw [hsame it hita]
    exact hs.mem_others (hsplit ▸ List.mem_append_right _ (List.mem_cons_of_mem a hit)) hne
  have hfront : ∀ it ∈ l₂, ¬(s.others b).InFront (s.segment b) it := by
    intro it hit hit'
    obtain rfl := hs.separated.inFront_unique hit' ha
    exact hnot hit
  rcases coalesce_behind hs.separated hbdom hv hb hnodup₂ hl₂ hfront with
    ⟨hnone, hrun⟩ | ⟨y, -, hbehind, hrun⟩
  · refine ⟨v, hrun, fun x => ?_, fun _ _ => rfl⟩
    rw [hstore]
    refine ⟨fun hx => ⟨hx, fun hbehind => ?_⟩, And.left⟩
    rcases List.mem_append.mp (hsplit ▸ List.mem_of_mem_erase hx) with hx₁ | hx₂
    · exact hs.not_behind_before ha hsplit x hx₁ hbehind
    · rcases List.mem_cons.mp hx₂ with rfl | hx₂
      · exact hs.not_behind_front ha hbehind
      · exact hnone x hx₂ hbehind
  · refine ⟨_, hrun, fun x => ?_, fun x hx => heap_absorbed_of_ne v hx y _⟩
    rw [mStore_absorbed, hstore]
    exact mem_erase_behind hs.separated (hs.ordered.nodup.erase b) hbehind

/-- **A range in front**: it takes the fragment in and stays, and the range behind goes. -/
theorem Arrived.coalesce_front (hs : Arrived h p s b)
    (ha : (s.others b).InFront (s.segment b) a) :
    ∃ t, s.coalesce b s.mStore = some t ∧ Matched p s b a t := by
  have hb := hs.part b hs.mem
  have hnodup := hs.ordered.nodup
  obtain ⟨hamem, hab⟩ := ha.1
  have hapart := hs.part a hamem
  have haend : (s.segment a).1 + (s.segment a).2 = (s.segment b).1 := ha.2
  obtain ⟨l₁, l₂, hsplit⟩ := List.append_of_mem hamem
  have hnodup' := hnodup
  rw [hsplit] at hnodup'
  obtain ⟨hrest, hnodup₂⟩ := List.nodup_cons.mp (List.nodup_middle.mp hnodup')
  obtain ⟨ha₁, ha₂⟩ : a ∉ l₁ ∧ a ∉ l₂ := by simpa using hrest
  have hloop : s.coalesce b (l₁ ++ a :: l₂) = _ :=
    coalesce_append_cons (hs.coalesce_before ha hsplit ha₁)
      (coalesceWith_front hs.ordered hb hapart haend)
  rw [← hsplit] at hloop
  have hself := heap_absorbed_self s a b
    (p.piece (s.segment a).1 ((s.segment a).2 + (s.segment b).2))
  have hsame := fun x (hx : x ≠ a) => heap_absorbed_of_ne s hx b
    (p.piece (s.segment a).1 ((s.segment a).2 + (s.segment b).2))
  -- the rest of the loop keeps what the range in front has become
  obtain ⟨t, hrun, hmem, hheap⟩ := hs.coalesce_after ha hsplit ha₂ hnodup₂.of_append_right
    (hs.of_sameKeys (sameKeys_absorbed s a b _)) (mStore_absorbed s a b _) hsame
  have hble := hb.le
  have hpart := hapart.grown (q := s.segment b) (by omega)
  rw [← hself, ← hheap a hab] at hpart
  have hsegment := segment_of_partOf hpart
  refine ⟨t, hloop.trans hrun, hs.matched (fun x => ?_) (fun x hx hne => ?_) ?_ ?_ ?_⟩
  · rw [hmem, hnodup.mem_erase_iff]
    refine and_congr_left fun _ => ⟨fun hx => Or.inr ⟨hx.2, hx.1⟩, ?_⟩
    rintro (rfl | hx)
    · exact ⟨hab, hamem⟩
    · exact ⟨hx.2, hx.1⟩
  · have hxb : x ≠ b := (hnodup.mem_erase_iff.mp ((hmem x).mp hx).1).1
    rw [hheap x hxb, hsame x hne]
  · exact hsegment ▸ hpart
  · exact Or.inr ⟨_, hpart.le, (hheap a hab).trans hself⟩
  · exact .front ha hsegment

end Front

/-- **The loop, on a fragment that has just arrived.** -/
theorem Arrived.exists_coalesce (hs : Arrived h p s b) :
    ∃ a t, s.coalesce b s.mStore = some t ∧ Matched p s b a t := by
  by_cases hfront : ∃ a, (s.others b).InFront (s.segment b) a
  · obtain ⟨a, ha⟩ := hfront
    exact ⟨a, hs.coalesce_front ha⟩
  · exact ⟨b, hs.coalesce_alone fun x hx => hfront ⟨x, hx⟩⟩

/-- The fragment has been taken in, and what is whole is marked so. -/
theorem Matched.reassembling {a : Ptr} (hs : Arrived h p s b) (ht : Matched p s b a t)
    (hrun : s.coalesce b s.mStore = some t)
    (hdisj : ∀ i ∈ span (s.segment b), i ∉ (s.others b).covered) : Reassembling h p t := by
  have hkeys : SameKeys s t := (deliveryClosed_sameKeys s).coalesce (.refl s) hrun
  have hpos := (hs.part b hs.mem).pos
  refine ⟨hs.of_sameKeys hkeys, fun x hx => ?_, ht.part, fun x hx hfull => ?_,
    ht.arrives.separated hs.separated hpos hdisj⟩
  · exact (hs.like x (hkeys.mStore.subset hx)).of_sameBundle (hkeys.header x hx)
  · have hmem := hkeys.mStore.subset hx
    rcases ht.grown x hx with hheap | ⟨r, hle, hheap⟩
    · have hsize : s.aduSize x = p.size := by
        rw [← hfull, BundleStore.aduSize, BundleStore.aduSize, hheap]
      have hmark := hs.mark x hmem hsize
      rwa [BundleStore.header, hheap]
    · -- the object has grown to all of the ADU
      have hsize : r.2 = p.size := by
        rw [BundleStore.aduSize, hheap] at hfull
        exact (Packet.size_piece hle).symm.trans hfull
      have hlength : (s.heap x).primaryHeader.aduLength = p.getSize := (hs.part x hmem).aduLength
      rw [BundleStore.header, hheap, Bundle6.isFragment_grown, hlength,
        (Bundle6.PartOf.getSize_piece_iff hle).mpr hsize]
      simp

end BpAgent6
end BundleProtocol
