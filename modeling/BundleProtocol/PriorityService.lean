import BundleProtocol.Serving

/-! # The order of service

The names of the processing flags rank the classes of service: bulk, normal, expedited.  The comparator
of the store compares priorities with `<`, and both scans of the store start at its first element, so
that the lower class is served first: `Receive` returns it first and `ClaReady` hands it over first.
-/
namespace BundleProtocol
open TransitionSystem OrderedList

/-- The comparator puts no bundle in front of one of lower priority. -/
theorem priority_le_of_compare {g h : BpHeader6} {p q : Ptr}
    (hcompare : bundlePriorityCompare g h p q = true) : g.priority.toNat ≤ h.priority.toNat := by
  unfold bundlePriorityCompare at hcompare
  split at hcompare
  · exact (of_decide_eq_true hcompare).le
  · rename_i hsame
    rw [ne_eq, not_not] at hsame
    rw [hsame]

theorem priority_le_of_not_compare {g h : BpHeader6} {p q : Ptr}
    (hcompare : bundlePriorityCompare g h p q = false) : h.priority.toNat ≤ g.priority.toNat := by
  unfold bundlePriorityCompare at hcompare
  split at hcompare
  · exact Nat.le_of_not_lt (of_decide_eq_false hcompare)
  · rename_i hsame
    rw [ne_eq, not_not] at hsame
    rw [hsame]

namespace BpAgent6
variable {s t u : BpAgent6} {a b x : Ptr} {cla : ClaId} {eid : BpEndpointId} {found : Bool}

/-! ## Stored bundles by priority -/

/-- The priority of the bundle at `b`. -/
def priority (s : BpAgent6) (b : Ptr) : ℕ := (s.header b).priority.toNat

/-- No stored bundle stands in front of one of lower priority. -/
def ByPriority (s : BpAgent6) : Prop := s.mStore.Pairwise fun x y => s.priority x ≤ s.priority y

theorem ByPriority.mono (h : s.ByPriority) (hstore : t.mStore.Sublist s.mStore)
    (hheader : ∀ x ∈ t.mStore, (s.header x).SameBundle (t.header x)) : t.ByPriority := by
  refine List.Pairwise.imp_of_mem ?_ (List.Pairwise.sublist hstore h)
  intro x y hx hy hxy
  unfold priority at hxy ⊢
  rwa [(hheader x hx).priority, (hheader y hy).priority]

theorem ByPriority.of_sameKeys (h : s.ByPriority) (hkeys : SameKeys s t) : t.ByPriority :=
  h.mono hkeys.mStore hkeys.header

theorem ByPriority.stored (h : s.ByPriority) (b : Ptr) : (s.stored b).ByPriority := by
  have hpriority : (s.stored b).priority = s.priority := by
    funext x
    exact congrArg (fun h : BpHeader6 => h.priority.toNat) (s.toBundleStore.header_stored b x)
  unfold ByPriority
  rw [hpriority]
  refine pairwise_insert h (fun y _ hby => priority_le_of_compare hby)
    (fun y _ hby => priority_le_of_not_compare hby) fun y _ z _ hby hyz => ?_
  exact (priority_le_of_compare hby).trans hyz

theorem ByPriority.acceptBundle {rx : ReceivedBundle} (h : s.ByPriority) (hb : b ∉ s.mStore)
    (hrun : s.acceptBundle b rx = some t) : t.ByPriority := by
  have harrived : (s.arrived b rx).ByPriority := h.of_sameKeys (sameKeys_modify_of_not_mem hb _)
  rcases acceptBundle_eq_some.mp hrun with ⟨-, rfl⟩ | ⟨-, -, rfl⟩
  · exact harrived
  · exact harrived.stored b

theorem ByPriority.createBundle {p : Packet} {src dst : BpEndpointId} {lifetime : Time}
    {custody : Bool} {level : UInt32} (h : s.ByPriority) (hb : b ∉ s.mStore)
    (hrun : s.createBundle b p src dst lifetime custody level = some t) : t.ByPriority := by
  obtain ⟨hdr, -, hcase⟩ := createBundle_eq_some.mp hrun
  have hmodified : (s.modify b fun _ => createdBundle hdr p custody).ByPriority :=
    h.of_sameKeys (sameKeys_modify_of_not_mem hb _)
  have hcreated : (s.created b hdr p custody).ByPriority := hmodified
  rcases hcase with ⟨-, rfl⟩ | ⟨-, -, rfl⟩
  · exact hcreated
  · exact hcreated.stored b

/-- **No operation moves a bundle in front of one of lower priority.** -/
theorem ByPriority.step {op : Op} (h : s.ByPriority) (hop : s.Admissible op)
    (hstep : BpAgent6.step op s = some t) : t.ByPriority := by
  have hkept : KeptBy s op ByPriority :=
    { same := by
        intro u v hu hheap hstore _
        refine hu.of_sameKeys (sameKeys_of_heap (hstore ▸ List.Sublist.refl _) fun x _ => ?_)
        exact congrFun hheap x
      discarded := fun hu hord => hu.of_sameKeys (sameKeys_discarded hord _)
      acceptBundle := by
        rintro b q rx u rfl hu
        exact h.acceptBundle hop.1.1 hu
      enqueue := fun _ _ _ hu hv =>
        (deliveryClosed_of_sameKeys ByPriority.of_sameKeys).enqueueIfActive hu hv
      createBundle := fun _ _ hb hu hv => hu.createBundle hb hv
      forward := fun _ hu hv =>
        hu.mono (forward_frame hv).sublist fun x _ => (forward_frame hv).header x }
  exact hkept.step h hop hstep

theorem Initial.byPriority {ops : List Op} (hinit : s.Initial)
    (hrun : Run Admissible BpAgent6.step s ops t) : t.ByPriority := by
  refine hrun.invariant ByPriority (fun _ _ _ h hop hstep => h.step hop hstep) ?_
  unfold ByPriority
  rw [hinit.mStore]
  exact List.Pairwise.nil

/-! ## Receiving -/

/-- The bundle at `b` is what a call of `Receive` for `eid` may return. -/
def Receivable (s : BpAgent6) (eid : BpEndpointId) (b : Ptr) : Prop :=
  ((s.header b).getDestinationEid == eid) = true ∧ (s.header b).isFragment = false

instance (s : BpAgent6) (eid : BpEndpointId) (b : Ptr) : Decidable (s.Receivable eid b) :=
  inferInstanceAs (Decidable (_ ∧ _))

/-- Calls of `Receive`, one after the other, return the bundles of a list. -/
inductive Receives (eid : BpEndpointId) : BpAgent6 → List Ptr → BpAgent6 → Prop
  | nil (s : BpAgent6) : Receives eid s [] s
  | cons {s t u : BpAgent6} {b : Ptr} {adu : Packet} {l : List Ptr}
      (hbundle : s.deliverable eid false = some b) (hreceive : s.receive eid = some (t, some adu))
      (hrest : Receives eid t l u) : Receives eid s (b :: l) u

/-- Calls of `Receive` return the bundle at `a` when they have not returned the one at `b`. -/
def ReturnedBefore (s : BpAgent6) (eid : BpEndpointId) (a b : Ptr) : Prop :=
  ∃ l t, Receives eid s l t ∧ a ∈ l ∧ b ∉ l

/-- While a bundle of lower priority is there to return, it is what `Receive` finds, or another that is
not the one of higher priority. -/
theorem deliverable_ne (h : s.ByPriority) (hb : b ∈ s.mStore) (hreceivable : s.Receivable eid b)
    (hlt : s.priority b < s.priority a) : s.deliverable eid false ≠ some a := by
  intro hfind
  have hmatch : ((s.header b).getDestinationEid == eid &&
      (!(s.header b).isFragment || false)) = true := by
    rw [hreceivable.1, hreceivable.2]
    rfl
  have hne : b ≠ a := by
    rintro rfl
    exact Nat.lt_irrefl _ hlt
  have hle := find?_of_pairwise h hfind hb hmatch hne
  omega

/-- `Receive` takes the bundle it returns, and no other. -/
theorem receive_some {c : Ptr} {adu : Packet} (hbundle : s.deliverable eid false = some c)
    (hreceive : s.receive eid = some (t, some adu)) :
    SameKeys s t ∧ ∀ x, x ≠ c → (x ∈ t.mStore ↔ x ∈ s.mStore) ∧ t.heap x = s.heap x := by
  rcases receive_eq_some.mp hreceive with ⟨hnone, -, -⟩ | ⟨c', adu', hc', hord, -, -, rfl⟩
  · rw [hbundle] at hnone
    cases hnone
  · cases hbundle.symm.trans hc'
    have hheap : ∀ x, x ≠ c → (s.discarded c).heap x = s.heap x :=
      fun x hx => Memory.heap_doDispose_of_ne _ hx
    refine ⟨sameKeys_of_heap List.erase_sublist fun x hx => ?_, fun x hx => ⟨?_, hheap x hx⟩⟩
    · exact hheap x (hord.mem_removed.mp hx).1
    · exact List.mem_erase_of_ne hx

/-- **The lower priority is returned first.**  The induction is on the calls, which go on finding other
bundles than the one of higher priority until the one of lower priority is gone. -/
theorem not_returnedBefore (h : s.ByPriority) (hb : b ∈ s.mStore)
    (hreceivable : s.Receivable eid b) (hlt : s.priority b < s.priority a) :
    ¬s.ReturnedBefore eid a b := by
  rintro ⟨l, t, hreceives, ha, hnot⟩
  induction hreceives with
  | nil => cases ha
  | @cons s t u c adu l hbundle hreceive _ ih =>
    obtain ⟨hbc, hnot⟩ := List.ne_and_not_mem_of_not_mem_cons hnot
    have hac : a ≠ c := by
      rintro rfl
      exact deliverable_ne h hb hreceivable hlt hbundle
    obtain ⟨hkeys, hframe⟩ := receive_some hbundle hreceive
    have hheader : ∀ x, x ≠ c → t.header x = s.header x :=
      fun x hx => BundleStore.header_congr (hframe x hx).2
    refine ih (ByPriority.of_sameKeys h hkeys) ((hframe b hbc).1.mpr hb) ?_ ?_
      ((List.mem_cons.mp ha).resolve_left hac) hnot
    · unfold Receivable
      rw [hheader b hbc]
      exact hreceivable
    · unfold priority
      rw [hheader a hac, hheader b hbc]
      exact hlt

/-! ## Handing over -/

/-- `ClaReady` hands the bundle at `a` to `cla`, and then the one at `b`. -/
def HandedBefore (s : BpAgent6) (cla : ClaId) (a b : Ptr) : Prop :=
  ∃ found t txs, s.claReadyFound cla found = some t ∧ t.handed = s.handed ++ txs ∧
    ∃ tx ty, tx.bundle = a ∧ ty.bundle = b ∧ [tx, ty].Sublist txs

theorem handed_wrapUpFound (hrun : s.wrapUpFound b found = some t) : t.handed = s.handed := by
  unfold wrapUpFound at hrun
  split at hrun
  · obtain ⟨u, hu, hrun⟩ := Option.bind_eq_some_iff.mp hrun
    obtain ⟨st, -, rfl⟩ := withStore_eq_some.mp hu
    cases hrun
    rfl
  · cases hrun
    rfl

/-- `Forward` hands over the bundle it is called on. -/
theorem handed_forwardFound (hrun : s.forwardFound b found = some t) :
    ∃ txs, t.handed = s.handed ++ txs ∧ ∀ tx ∈ txs, tx.bundle = b := by
  unfold forwardFound at hrun
  cases hready : s.readyCla b with
  | none =>
    rw [hready] at hrun
    cases hrun
    exact ⟨[], (List.append_nil _).symm, fun tx htx => by cases htx⟩
  | some cla =>
    rw [hready, Option.elim_some] at hrun
    obtain ⟨u, hu, hwrap⟩ := Option.bind_eq_some_iff.mp hrun
    obtain ⟨p, -, -, rfl⟩ := transmit_eq_some.mp hu
    refine ⟨_, (handed_wrapUpFound hwrap).trans (s.handed_sent b cla p), fun tx htx => ?_⟩
    obtain ⟨r, -, rfl⟩ := List.mem_map.mp htx
    rfl

/-- The bundles of a list are handed over in its order. -/
theorem handed_forwardAllFound {R : Ptr → Ptr → Prop} (hR : ∀ x, R x x) {f : Ptr → Bool}
    {l : List Ptr} (hl : l.Pairwise R) (hrun : s.forwardAllFound f l = some t) :
    ∃ txs, t.handed = s.handed ++ txs ∧ (∀ tx ∈ txs, tx.bundle ∈ l) ∧
      txs.Pairwise fun tx ty => R tx.bundle ty.bundle := by
  induction l generalizing s with
  | nil =>
    cases hrun
    refine ⟨[], (List.append_nil _).symm, fun tx htx => ?_, List.Pairwise.nil⟩
    cases htx
  | cons b l ih =>
    obtain ⟨hb, hl⟩ := List.pairwise_cons.mp hl
    obtain ⟨u, hu, hrun⟩ := Option.bind_eq_some_iff.mp hrun
    obtain ⟨first, hfirst, hbundle⟩ := handed_forwardFound hu
    obtain ⟨txs, htxs, hmem, hpairs⟩ := ih hl hrun
    refine ⟨first ++ txs, ?_, ?_, List.pairwise_append.mpr ⟨?_, hpairs, ?_⟩⟩
    · rw [htxs, hfirst, List.append_assoc]
    · intro tx htx
      rcases List.mem_append.mp htx with htx | htx
      · rw [hbundle tx htx]
        exact List.mem_cons_self
      · exact List.mem_cons_of_mem b (hmem tx htx)
    · -- the pieces of one bundle
      refine List.pairwise_of_forall_mem_list fun tx htx ty hty => ?_
      rw [hbundle tx htx, hbundle ty hty]
      exact hR b
    · intro tx htx ty hty
      rw [hbundle tx htx]
      exact hb _ (hmem ty hty)

/-- **The lower priority is handed over first.** -/
theorem not_handedBefore (h : s.ByPriority) (hlt : s.priority b < s.priority a) :
    ¬s.HandedBefore cla a b := by
  rintro ⟨f, t, txs, hrun, htxs, tx, ty, rfl, rfl, hsublist⟩
  have hwaiting : (s.getForwardPendingBundles cla s.outgoingCla).Pairwise
      fun x y => s.priority x ≤ s.priority y := List.Pairwise.sublist List.filter_sublist h
  obtain ⟨txs', htxs', -, hpairs⟩ :=
    handed_forwardAllFound (R := fun x y => s.priority x ≤ s.priority y) (fun _ => Nat.le_refl _)
      hwaiting hrun
  cases List.append_cancel_left (htxs.symm.trans htxs')
  have hle := List.rel_of_pairwise_cons (hpairs.sublist hsublist) List.mem_cons_self
  exact absurd hlt (Nat.not_lt.mpr hle)

/-! ## Every reachable store -/

/-- **The higher priority is never served first.**  In every reachable state, of two stored bundles the
one of strictly higher priority is neither returned before the other, when `Receive` could return both,
nor handed over before it, when both wait for the convergence layer. -/
theorem higher_not_first {s₀ : BpAgent6} {ops : List Op} (hinit : s₀.Initial)
    (hrun : Run Admissible BpAgent6.step s₀ ops s) (hb : b ∈ s.mStore)
    (hlt : s.priority b < s.priority a) :
    (∀ eid, s.Receivable eid a → s.Receivable eid b → ¬s.ReturnedBefore eid a b) ∧
      ∀ cla, a ∈ s.getForwardPendingBundles cla s.outgoingCla →
        b ∈ s.getForwardPendingBundles cla s.outgoingCla → ¬s.HandedBefore cla a b :=
  have h := hinit.byPriority hrun
  ⟨fun _ _ hreceivable => not_returnedBefore h hb hreceivable hlt,
    fun _ _ _ => not_handedBefore h hlt⟩

end BpAgent6

namespace Sample

/-- A bundle of normal and one of bulk priority wait for `d:a`, and the link comes up. -/
def twoClasses : List BpAgent6.Op :=
  [.send 1 threeBytes (eid 98) (eid 97) 0 false 1, .send 2 threeBytes (eid 98) (eid 97) 0 false 0,
    .configure (config 10 true)]

/-- Both bundles compete, for the link and for a receiver. -/
theorem exists_twoClasses :
    ∃ s, TransitionSystem.Run BpAgent6.Admissible BpAgent6.step (agent 10 false) twoClasses s ∧
      s.mStore = [2, 1] ∧ s.priority 2 = 0 ∧ s.priority 1 = 1 ∧
      (s.Receivable (eid 97) 1 ∧ s.Receivable (eid 97) 2) ∧
      s.getForwardPendingBundles 0 s.outgoingCla = [2, 1] ∧
      (s.claReady 0).any fun t => t.handed.map Transmission.bundle = [2, 1] := by
  obtain ⟨s, hrun, htest⟩ := exists_run_of_exec BpAgent6.Admissible BpAgent6.step (agent 10 false)
    twoClasses (fun s => decide (s.mStore = [2, 1] ∧ s.priority 2 = 0 ∧ s.priority 1 = 1 ∧
      (s.Receivable (eid 97) 1 ∧ s.Receivable (eid 97) 2) ∧
      s.getForwardPendingBundles 0 s.outgoingCla = [2, 1] ∧
      ((s.claReady 0).any fun t => t.handed.map Transmission.bundle = [2, 1]) = true))
    (by decide +kernel)
  exact ⟨s, hrun, of_decide_eq_true htest⟩

end Sample

namespace BpAgent6

theorem higher_not_first_sample :
    ∃ s, Run Admissible BpAgent6.step (Sample.agent 10 false) Sample.twoClasses s ∧
      s.priority 2 < s.priority 1 ∧ ¬s.ReturnedBefore (Sample.eid 97) 1 2 ∧
      ¬s.HandedBefore 0 1 2 := by
  obtain ⟨s, hrun, hstore, hbulk, hnormal, ⟨hfirst, hsecond⟩, hwaiting, -⟩ := Sample.exists_twoClasses
  have hlt : s.priority 2 < s.priority 1 := by omega
  have hnever := higher_not_first (Sample.initial_agent 10 false) hrun
    (hstore ▸ (by simp : 2 ∈ [2, 1])) hlt
  exact ⟨s, hrun, hlt, hnever.1 _ hfirst hsecond, hnever.2 0 (hwaiting ▸ (by simp : 1 ∈ [2, 1]))
    (hwaiting ▸ (by simp : 2 ∈ [2, 1]))⟩

/-- The bundle of bulk priority goes first, although both wait for the link and `Receive` could return
both. -/
theorem bulk_before_normal :
    ∃ s, Run Admissible BpAgent6.step (Sample.agent 10 false) Sample.twoClasses s ∧
      1 ∈ s.mStore ∧ 2 ∈ s.mStore ∧ s.priority 2 = 0 ∧ s.priority 1 = 1 ∧
      (s.Receivable (Sample.eid 97) 1 ∧ s.Receivable (Sample.eid 97) 2 ∧
        ¬s.ReturnedBefore (Sample.eid 97) 1 2) ∧
      (1 ∈ s.getForwardPendingBundles 0 s.outgoingCla ∧
        2 ∈ s.getForwardPendingBundles 0 s.outgoingCla ∧ ¬s.HandedBefore 0 1 2 ∧
        ∃ t, s.claReady 0 = some t ∧ t.handed.map Transmission.bundle = [2, 1]) := by
  obtain ⟨s, hrun, hstore, hbulk, hnormal, ⟨hfirst, hsecond⟩, hwaiting, hready⟩ :=
    Sample.exists_twoClasses
  have hsorted := (Sample.initial_agent 10 false).byPriority hrun
  have hlt : s.priority 2 < s.priority 1 := by omega
  have hmem : 2 ∈ s.mStore := by
    rw [hstore]
    exact List.mem_cons_self
  obtain ⟨t, ht, hhanded⟩ := (Option.any_eq_true _ _).mp hready
  refine ⟨s, hrun, by rw [hstore]; simp, hmem, hbulk, hnormal, ⟨hfirst, hsecond, ?_⟩,
    by rw [hwaiting]; simp, by rw [hwaiting]; simp, not_handedBefore hsorted hlt, t, ht,
    of_decide_eq_true hhanded⟩
  exact not_returnedBefore hsorted hmem hsecond hlt

end BpAgent6
end BundleProtocol
