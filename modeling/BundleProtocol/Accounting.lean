import BundleProtocol.Coalescing
import BundleProtocol.StoreOrder
import Mathlib.Algebra.BigOperators.Group.List.Basic

/-! # Stored-byte accounting

`m_storedBytes` moves only in `Store` and `Remove`, by the size the ADU has at that
moment.  It is exact as long as no stored ADU changes its size in between.  Two things
change it: an administrative record is stripped before its bundle is removed, and
coalescing appends to a stored ADU.  `Drifts` says when an operation does one of these;
every run without such an operation, in which the set stays in order so that `Remove` finds
what it looks for (`OrderedOp`), keeps the counter exact.
-/
namespace BundleProtocol
open TransitionSystem

namespace BpAgent6
variable {s t : BpAgent6} {b q x it : Ptr}

/-- The counter is the sum of the sizes of the stored ADUs. -/
def Exact (s : BpAgent6) : Prop := s.storedBytes = ((s.mStore.map s.aduSize).sum : ℕ)

/-! ## The effects -/

theorem Exact.of_sizes (h : s.Exact) (hbytes : t.storedBytes = s.storedBytes)
    (hstore : t.mStore = s.mStore) (hsize : ∀ x ∈ s.mStore, t.aduSize x = s.aduSize x) : t.Exact := by
  unfold Exact at h ⊢
  rw [hbytes, hstore, h, List.map_congr_left hsize]

/-- The store and its bundles are untouched. -/
theorem Exact.of_heap (h : s.Exact) (hheap : t.heap = s.heap) (hstore : t.mStore = s.mStore)
    (hbytes : t.storedBytes = s.storedBytes) : t.Exact := by
  refine h.of_sizes hbytes hstore fun x _ => ?_
  apply BundleStore.aduSize_congr
  rw [hheap]

/-- The ADU of a bundle changes, which is not stored or keeps its size. -/
theorem Exact.withAdu (h : s.Exact) {p : Packet} (hx : x ∈ s.mStore → p.size = s.aduSize x) :
    (s.withAdu x p).Exact := by
  refine h.of_sizes rfl rfl ?_
  intro y hy
  unfold BpAgent6.withAdu BundleStore.aduSize
  by_cases hyx : y = x
  · subst hyx
    rw [heap_modify_self]
    exact hx hy
  · rw [heap_modify_of_ne s hyx]

theorem Exact.removed (h : s.Exact) : (s.removed b).Exact := by
  have hsize : (s.removed b).aduSize = s.aduSize := rfl
  have hstore : (s.removed b).mStore = s.mStore.erase b := rfl
  unfold Exact at h ⊢
  rw [hsize, hstore]
  by_cases hb : b ∈ s.mStore
  · have hbytes : (s.removed b).storedBytes = s.storedBytes - s.aduSize b := if_pos hb
    have hsum := List.sum_map_erase s.aduSize hb
    rw [hbytes, h]
    omega
  · have hbytes : (s.removed b).storedBytes = s.storedBytes := if_neg hb
    rw [hbytes, h, List.erase_of_not_mem hb]

theorem aduSize_dispose_of_ne (h : x ≠ b) : (s.dispose b).aduSize x = s.aduSize x := by
  have hheap : (s.dispose b).heap x = s.heap x := Memory.heap_doDispose_of_ne _ h
  exact BundleStore.aduSize_congr (congrArg Bundle6.adu hheap)

theorem Exact.discarded (h : s.Exact) (hord : s.Ordered) : (s.discarded b).Exact := by
  refine h.removed.of_sizes rfl rfl ?_
  intro y hy
  exact aduSize_dispose_of_ne (hord.mem_removed.mp hy).1

theorem Exact.stored (h : s.Exact) : (s.stored b).Exact := by
  have hsize : (s.stored b).aduSize = s.aduSize := by
    funext y
    exact s.toBundleStore.aduSize_stored b y
  have hperm : (s.stored b).mStore.Perm (b :: s.mStore) := OrderedList.perm_insert
  have hbytes : (s.stored b).storedBytes = s.storedBytes + s.aduSize b := rfl
  unfold Exact at h ⊢
  rw [hbytes, h, hsize, (hperm.map _).sum_eq, List.map_cons, List.sum_cons]
  omega

/-- A bundle that is not stored changes. -/
theorem Exact.modify_of_not_mem (h : s.Exact) (hb : b ∉ s.mStore) (f : Bundle6 → Bundle6) :
    (s.modify b f).Exact := by
  refine h.of_sizes rfl rfl ?_
  intro y hy
  have hne : y ≠ b := by
    rintro rfl
    exact hb hy
  exact BundleStore.aduSize_congr (congrArg Bundle6.adu (heap_modify_of_ne s hne _))

/-- A bundle changes in other things than its ADU. -/
theorem Exact.modify (h : s.Exact) {f : Bundle6 → Bundle6} (hf : ∀ x, (f x).adu = x.adu) :
    (s.modify b f).Exact := by
  refine h.of_sizes rfl rfl ?_
  intro y _
  apply BundleStore.aduSize_congr
  exact field_heap_modify Bundle6.adu hf s b y

/-! ## Forwarding and sending -/

theorem Exact.forward (h : s.Exact) (hrun : s.forward b = some t) : t.Exact := by
  rcases forward_eq_some.mp hrun with ⟨-, rfl⟩ | ⟨cla, adu, -, -, hm, hcase⟩
  · exact h.modify fun _ => rfl
  · obtain ⟨hstore, hbytes, -⟩ := s.rest_sent b cla adu
    have hsent : (s.sent b cla adu).Exact := by
      refine h.of_sizes hbytes hstore ?_
      intro y _
      exact aduSize_sent hm y
    rcases hcase with ⟨-, rfl⟩ | ⟨-, hord, rfl⟩
    · exact hsent
    · exact hsent.discarded hord

theorem Exact.acceptBundle {rx : ReceivedBundle} (h : s.Exact) (hb : b ∉ s.mStore)
    (hrun : s.acceptBundle b rx = some t) : t.Exact := by
  have harrived : (s.arrived b rx).Exact := h.modify_of_not_mem hb _
  rcases acceptBundle_eq_some.mp hrun with ⟨-, rfl⟩ | ⟨-, -, rfl⟩
  · exact harrived
  · exact harrived.stored

theorem Exact.createBundle {p : Packet} {src dst : BpEndpointId} {lifetime : Time} {custody : Bool}
    {priority : UInt32} (h : s.Exact) (hb : b ∉ s.mStore)
    (hrun : s.createBundle b p src dst lifetime custody priority = some t) : t.Exact := by
  obtain ⟨hdr, -, hcase⟩ := createBundle_eq_some.mp hrun
  have hcreated : (s.created b hdr p custody).Exact :=
    (h.modify_of_not_mem hb fun _ => createdBundle hdr p custody).of_sizes rfl rfl fun _ _ => rfl
  rcases hcase with ⟨-, rfl⟩ | ⟨-, -, rfl⟩
  · exact hcreated
  · exact hcreated.stored

/-! ## Local delivery -/

theorem Exact.processCustodySignal {cs : CustodySignal} (h : s.Exact)
    (hrun : s.processCustodySignal cs = some t) : t.Exact := by
  rcases processCustodySignal_eq_some.mp hrun with ⟨-, rfl⟩ | ⟨y, -, hcase⟩
  · exact h
  · have hacked : (s.acked y cs).Exact := h.modify fun _ => rfl
    rcases hcase with ⟨-, rfl⟩ | ⟨-, hord, -, rfl⟩
    · exact hacked
    · exact hacked.discarded ((ordered_acked s y cs).mpr hord)

/-- An administrative record in a bundle that is not stored. -/
theorem Exact.processAdminRecord (h : s.Exact) (hb : b ∉ s.mStore)
    (hrun : s.processAdminRecord b = some t) : t.Exact := by
  obtain ⟨ar, p, v, hv, hord, rfl⟩ := processAdminRecord_eq_some hrun
  have hstrip : ∀ {u : BpAgent6} {p : Packet}, u.Exact → b ∉ u.mStore → (u.withAdu b p).Exact :=
    fun hu hbu => hu.withAdu fun hmem => absurd hmem hbu
  refine Exact.discarded ?_ hord
  have hinv := hstrip (p := p) h hb
  have hb' : b ∉ (s.withAdu b p).mStore := hb
  unfold handleAdminRecord at hv
  split at hv
  · obtain ⟨⟨cs, w⟩, hw, hv⟩ := Option.bind_eq_some_iff.mp hv
    obtain ⟨p', rfl⟩ := stripAdu_eq_withAdu hw
    exact (hstrip hinv hb').processCustodySignal hv
  · split at hv
    · obtain ⟨⟨_, w⟩, hw, hv⟩ := Option.bind_eq_some_iff.mp hv
      obtain ⟨p', rfl⟩ := stripAdu_eq_withAdu hw
      cases hv
      exact hstrip hinv hb'
    · cases hv
      exact hinv

/-! ## Coalescing -/

/-- Matching the fragment at `b` against the bundles of `l` changes the size of no stored
ADU: the fragment is appended to none, unless it is empty, and when it is stored itself
nothing but empty bundles is appended to it. -/
structure Harmless (s : BpAgent6) (b : Ptr) (l : List Ptr) : Prop where
  tail : s.aduSize b ≠ 0 → ∀ it ∈ l, ¬s.Tail b it
  head : b ∈ s.mStore ∨ s.aduSize b = 0 → ∀ it ∈ l, s.Head b it → s.aduSize it = 0

/-- Offsets and sizes are all that matters. -/
theorem Harmless.of_same {l : List Ptr} (h : s.Harmless b (it :: l))
    (hsize : ∀ x, t.aduSize x = s.aduSize x)
    (hoffset : ∀ x, (t.header x).fragOffset = (s.header x).fragOffset)
    (hstore : b ∈ t.mStore → b ∈ s.mStore) : t.Harmless b l := by
  have hhead : b ∈ t.mStore ∨ t.aduSize b = 0 → b ∈ s.mStore ∨ s.aduSize b = 0 := by
    rw [hsize]
    exact Or.imp_left hstore
  refine ⟨fun hb x hx htail => ?_, fun hb x hx hhd => ?_⟩
  · unfold Tail at htail
    rw [hoffset, hoffset, hsize] at htail
    rw [hsize] at hb
    exact h.tail hb x (List.mem_cons_of_mem it hx) htail
  · unfold Head at hhd
    rw [hoffset, hoffset, hsize] at hhd
    rw [hsize]
    exact h.head (hhead hb) x (List.mem_cons_of_mem it hx) hhd

theorem Exact.markIfWhole (h : s.Exact) {joined : Packet} : (s.markIfWhole x joined).Exact := by
  unfold BpAgent6.markIfWhole
  split
  · exact h.modify fun _ => rfl
  · exact h

theorem Exact.absorbed (h : s.Exact) {y : Ptr} {joined : Packet}
    (hx : x ∈ s.mStore → joined.size = s.aduSize x) : (s.absorbed x y joined).Exact :=
  (h.withAdu hx).removed.markIfWhole

/-- Absorbing no bytes changes no size. -/
theorem aduSize_absorbed_of_size {y : Ptr} {joined : Packet} (hsize : joined.size = s.aduSize x)
    (z : Ptr) : (s.absorbed x y joined).aduSize z = s.aduSize z := by
  by_cases hz : z = x
  · subst hz
    rw [aduSize_absorbed_self, hsize]
  · exact aduSize_absorbed_of_ne s hz joined

/-- One iteration of a harmless loop. -/
theorem Exact.coalesceWith {l : List Ptr} (h : s.Exact) (hl : s.Harmless b (it :: l))
    (hrun : s.coalesceWith b it = some t) : t.Exact ∧ t.Harmless b l := by
  obtain ⟨itAdu, adu, hit, hb, hcase⟩ := coalesceWith_cases hrun
  have hitSize := BundleStore.aduSize_of_adu hit
  have hbSize := BundleStore.aduSize_of_adu hb
  have hhd : it ∈ it :: l := List.mem_cons_self
  rcases hcase with ⟨htail, -, joined, hjoin, rfl⟩ | ⟨-, hhead, -, joined, hjoin, rfl⟩ | ⟨-, -, rfl⟩
  · -- the fragment is empty
    have hzero : s.aduSize b = 0 := by
      by_contra hne
      exact hl.tail hne it hhd htail
    have hsize : joined.size = s.aduSize it := by
      rw [Packet.size_of_addAtEnd hjoin, ← hbSize, ← hitSize, hzero]
      rfl
    refine ⟨h.absorbed fun _ => hsize,
      hl.of_same (aduSize_absorbed_of_size hsize) (fragOffset_absorbed s it b · joined) fun hmem => ?_⟩
    rw [mStore_absorbed] at hmem
    exact List.mem_of_mem_erase hmem
  · have hsum : joined.size = s.aduSize b + s.aduSize it := by
      rw [Packet.size_of_addAtEnd hjoin, hbSize, hitSize]
    have hstore : b ∈ (s.absorbed b it joined).mStore → b ∈ s.mStore := by
      intro hmem
      rw [mStore_absorbed] at hmem
      exact List.mem_of_mem_erase hmem
    by_cases hsame : b ∈ s.mStore ∨ s.aduSize b = 0
    · -- the bundle appended is empty
      have hsize : joined.size = s.aduSize b := by
        rw [hsum, hl.head hsame it hhd hhead]
        rfl
      exact ⟨h.absorbed fun _ => hsize,
        hl.of_same (aduSize_absorbed_of_size hsize) (fragOffset_absorbed s b it · joined) hstore⟩
    · -- the fragment that grows is not stored
      obtain ⟨hmem, hne⟩ := not_or.mp hsame
      refine ⟨h.absorbed fun hb => absurd hb hmem, ⟨fun _ x hx htail => ?_, fun hb => ?_⟩⟩
      · unfold Tail at htail
        rw [fragOffset_absorbed, fragOffset_absorbed] at htail
        by_cases hxb : x = b
        · subst hxb
          rw [aduSize_absorbed_self] at htail
          have hzero := eq_zero_of_eq_add joined.size_lt_two_pow htail
          omega
        · refine hl.tail hne x (List.mem_cons_of_mem it hx) ?_
          rwa [aduSize_absorbed_of_ne s hxb] at htail
      · exfalso
        rcases hb with hb | hb
        · exact hmem (hstore hb)
        · rw [aduSize_absorbed_self] at hb
          omega
  · exact ⟨h, ⟨fun hb x hx => hl.tail hb x (List.mem_cons_of_mem it hx),
      fun hb x hx => hl.head hb x (List.mem_cons_of_mem it hx)⟩⟩

theorem Exact.coalesce {l : List Ptr} (h : s.Exact) (hl : s.Harmless b l)
    (hrun : s.coalesce b l = some t) : t.Exact := by
  induction l generalizing s with
  | nil =>
    cases hrun
    exact h
  | cons it l ih =>
    obtain ⟨u, hu, hrun⟩ := Option.bind_eq_some_iff.mp hrun
    obtain ⟨hinv, hl'⟩ := h.coalesceWith hl hu
    exact ih hinv hl' hrun

/-! ## Runs -/

/-- The received fragment `rx` touches the stored bundle at `it` so that coalescing them
changes the size of a stored ADU; `kept` says that the fragment is stored itself. -/
def Touches (s : BpAgent6) (rx : ReceivedBundle) (kept : Prop) (it : Ptr) : Prop :=
  (rx.adu.size ≠ 0 ∧
      rx.header.fragOffset = (s.header it).fragOffset + UInt32.ofNat (s.aduSize it)) ∨
    (s.aduSize it ≠ 0 ∧ (kept ∨ rx.adu.size = 0) ∧
      rx.header.fragOffset + UInt32.ofNat rx.adu.size = (s.header it).fragOffset)

instance (s : BpAgent6) (rx : ReceivedBundle) (kept : Prop) [Decidable kept] (it : Ptr) :
    Decidable (s.Touches rx kept it) := inferInstanceAs (Decidable (_ ∨ _))

/-- An operation that delivers a bundle to an active registration and changes a stored ADU
on the way: it stores and strips an administrative record, or coalesces a fragment with a
stored bundle of the same identity. -/
def Drifts (s : BpAgent6) : Op → Prop
  | .processBundle b _ rx =>
    s.findRegistration rx.header.getDestinationEid = some true ∧
      if rx.header.getDestinationEid == s.config.eid then ¬(s.arrived b rx).Expired b
      else rx.header.isFragment = true ∧
        ∃ it ∈ s.getBundles rx.header.getSourceEid rx.header.createTimestamp
          rx.header.timestampSeqNum, s.Touches rx (¬(s.arrived b rx).Expired b) it
  | _ => False

instance (s : BpAgent6) : (op : Op) → Decidable (s.Drifts op)
  | .processBundle .. => inferInstanceAs (Decidable (_ ∧ ite _ _ _))
  | .send .. => inferInstanceAs (Decidable False)
  | .claReady _ => inferInstanceAs (Decidable False)
  | .receive _ => inferInstanceAs (Decidable False)
  | .fire _ => inferInstanceAs (Decidable False)
  | .advance _ => inferInstanceAs (Decidable False)
  | .configure _ => inferInstanceAs (Decidable False)

/-- The coalescing loop after a bundle that touches no stored one. -/
theorem harmless_getBundles {rx : ReceivedBundle} {u : BpAgent6} (hb : b ∉ s.mStore)
    (haccept : s.acceptBundle b rx = some u)
    (htouch : ∀ it ∈ s.getBundles rx.header.getSourceEid rx.header.createTimestamp
      rx.header.timestampSeqNum, ¬s.Touches rx (¬(s.arrived b rx).Expired b) it) :
    u.Harmless b (u.getBundles rx.header.getSourceEid rx.header.createTimestamp
      rx.header.timestampSeqNum) := by
  have hheader := header_acceptBundle haccept
  have hsize : u.aduSize b = rx.adu.size := BundleStore.aduSize_of_adu (adu_acceptBundle haccept)
  have hkept : b ∈ u.mStore → ¬(s.arrived b rx).Expired b := by
    intro hmem
    exact ((mem_acceptBundle haccept hmem).resolve_left hb).2
  -- the other bundles are as they were
  have hother : ∀ it ∈ u.getBundles rx.header.getSourceEid rx.header.createTimestamp
      rx.header.timestampSeqNum, it ≠ b → u.header it = s.header it ∧ u.aduSize it = s.aduSize it ∧
        ¬s.Touches rx (¬(s.arrived b rx).Expired b) it := by
    intro it hit hne
    have hheap := heap_acceptBundle_of_ne haccept hne
    have hheader' : u.header it = s.header it := congrArg Bundle6.primaryHeader hheap
    obtain ⟨hmem, hnames⟩ := BundleStore.mem_getBundles.mp hit
    have hmem' := (mem_acceptBundle haccept hmem).resolve_right fun h => hne h.1
    refine ⟨hheader', BundleStore.aduSize_congr (congrArg Bundle6.adu hheap), ?_⟩
    exact htouch it (BundleStore.mem_getBundles.mpr ⟨hmem', hheader' ▸ hnames⟩)
  refine ⟨fun hpos it hit htail => ?_, fun hb' it hit hhead => ?_⟩
  · by_cases hne : it = b
    · subst hne
      exact hpos (eq_zero_of_eq_add (by rw [hsize]; exact rx.adu.size_lt_two_pow) htail)
    · obtain ⟨hheader', hsize', hnot⟩ := hother it hit hne
      unfold Tail at htail
      rw [hheader, hheader', hsize'] at htail
      exact hnot (Or.inl ⟨hsize ▸ hpos, htail⟩)
  · by_cases hne : it = b
    · subst hne
      exact eq_zero_of_eq_add (by rw [hsize]; exact rx.adu.size_lt_two_pow) hhead.symm
    · obtain ⟨hheader', hsize', hnot⟩ := hother it hit hne
      unfold Head at hhead
      rw [hheader, hheader', hsize] at hhead
      rw [hsize']
      by_contra hpos
      exact hnot (Or.inr ⟨hpos, hb'.imp hkept fun h => hsize ▸ h, hhead⟩)

theorem Exact.enqueueIfActive {rx : ReceivedBundle} {u : BpAgent6} {state : Bool} (h : u.Exact)
    (hb : b ∉ s.mStore) (hdrift : ¬s.Drifts (.processBundle b q rx))
    (haccept : s.acceptBundle b rx = some u)
    (hfind : u.findRegistration (u.header b).getDestinationEid = some state)
    (hrun : u.enqueueIfActive b state = some t) : t.Exact := by
  obtain ⟨hconfig, -⟩ := rest_acceptBundle haccept
  have hheader := header_acceptBundle haccept
  unfold BpAgent6.enqueueIfActive at hrun
  split at hrun
  · rename_i hactive
    subst hactive
    have hfind' : s.findRegistration rx.header.getDestinationEid = some true := by
      rw [hheader, findRegistration, hconfig] at hfind
      exact hfind
    have hagent : u.isForAgent b = (rx.header.getDestinationEid == s.config.eid) := by
      rw [isForAgent, hheader, hconfig]
    have hlogged : (u.logged b).Exact := h.of_sizes rfl rfl fun _ _ => rfl
    rcases enqueue_eq_some hrun with ⟨hfor, hadmin⟩ | ⟨hfor, hmatch⟩
    · refine hlogged.processAdminRecord (fun hmem => hdrift ⟨hfind', ?_⟩) hadmin
      rw [if_pos (hagent ▸ hfor)]
      exact ((mem_acceptBundle haccept hmem).resolve_left hb).2
    · unfold matchFragments at hmatch
      split at hmatch
      · rename_i hfrag
        have hfrag' : rx.header.isFragment = true := hheader ▸ hfrag
        have hharmless : u.Harmless b (u.getBundles (u.header b).getSourceEid
            (u.header b).createTimestamp (u.header b).timestampSeqNum) := by
          rw [hheader]
          refine harmless_getBundles hb haccept fun it hit htouch => hdrift ⟨hfind', ?_⟩
          rw [if_neg (by rw [← hagent, hfor]; exact Bool.false_ne_true)]
          exact ⟨hfrag', it, hit, htouch⟩
        exact hlogged.coalesce ⟨hharmless.tail, hharmless.head⟩ hmatch
      · cases hmatch
        exact hlogged
  · cases hrun
    exact h

/-- **One operation keeps the counter exact** unless it drifts. -/
theorem Exact.step {op : Op} (h : s.Exact) (hop : s.Admissible op) (hdrift : ¬s.Drifts op)
    (hstep : BpAgent6.step op s = some t) : t.Exact := by
  have hkept : KeptBy s op Exact :=
    { same := fun hu hheap hstore hbytes => hu.of_heap hheap hstore hbytes
      discarded := fun hu hord => hu.discarded hord
      acceptBundle := by
        rintro b q rx u rfl hu
        exact h.acceptBundle hop.1.1 hu
      enqueue := by
        rintro b q rx u v state rfl hu hfind hexact hv
        exact hexact.enqueueIfActive hop.1.1 hdrift hu hfind hv
      createBundle := fun _ _ hb hu hv => hu.createBundle hb hv
      forward := fun _ hu hv => hu.forward hv }
  exact hkept.step h hop hstep

/-- **Stored-byte accounting is exact** in every run in which forwarded bundles keep their place and no
operation drifts. -/
theorem storedBytes_exact {ops : List Op} (hinit : s.Initial)
    (hrun : Run (fun s op => s.OrderedOp op ∧ ¬s.Drifts op) step s ops t) :
    t.storedBytes = ((t.mStore.map t.aduSize).sum : ℕ) ∧ 0 ≤ t.storedBytes := by
  have hexact : t.Exact := by
    refine hrun.invariant Exact ?_ ?_
    · rintro s op t h ⟨hop, hdrift⟩ hstep
      exact h.step hop.admissible hdrift hstep
    · unfold Exact
      rw [hinit.storedBytes, hinit.mStore]
      rfl
  refine ⟨hexact, ?_⟩
  rw [hexact]
  exact Int.natCast_nonneg _

/-- A fragment waits for the rest, and a custody bundle is sent beside it and kept. -/
theorem storedBytes_exact_sample :
    let ops := [Op.processBundle 1 11 (Sample.fragment 2 0 10),
      .send 2 Sample.threeBytes (Sample.eid 98) (Sample.eid 97) 0 true 0]
    ∃ t, Run (fun s op => s.OrderedOp op ∧ ¬s.Drifts op) step (Sample.agent 10 true) ops t ∧
      t.mStore = [1, 2] ∧ t.storedBytes = ((t.mStore.map t.aduSize).sum : ℕ) ∧
      0 ≤ t.storedBytes := by
  intro ops
  obtain ⟨t, hrun, ht⟩ := exists_run_of_exec
    (fun s op => s.OrderedOp op ∧ ¬s.Drifts op) step (Sample.agent 10 true) ops
    (fun t => decide (t.mStore = [1, 2])) (by decide +kernel)
  exact ⟨t, hrun, of_decide_eq_true ht,
    storedBytes_exact (Sample.initial_agent 10 true) hrun⟩

/-- Two fragments of one byte are joined and the whole is received: the counter, which
counted one byte of the two, goes below zero. -/
theorem storedBytes_negative :
    ∃ t, Run Admissible step (Sample.agent 10 true)
      [.processBundle 1 11 (Sample.fragment 2 0 10), .processBundle 2 12 (Sample.fragment 2 1 11),
        .receive (Sample.eid 99)] t ∧ t.mStore = [] ∧ t.storedBytes = -1 := by
  obtain ⟨t, hrun, ht⟩ := exists_run_of_exec Admissible step (Sample.agent 10 true)
    [.processBundle 1 11 (Sample.fragment 2 0 10), .processBundle 2 12 (Sample.fragment 2 1 11),
      .receive (Sample.eid 99)]
    (fun t => decide (t.mStore = [] ∧ t.storedBytes = -1)) (by decide +kernel)
  exact ⟨t, hrun, of_decide_eq_true ht⟩

end BpAgent6
end BundleProtocol
