import BundleProtocol.CustodyTransfer
import BundleProtocol.Partition

/-! # A custodian keeps what has not been delivered

An agent that has sent a bundle in custody keeps it, with all of its ADU and with headers that name
the same bundle, through whatever happens at the node.  Three things end this (`Ends`): its lifetime,
an application at its own node that receives it, and an arrival; and an arrival does so only when
every byte of the ADU has been delivered (`custody_transfer`).
-/
namespace BundleProtocol
open TransitionSystem Interleaving BpHeader6 FlagWord

namespace BpAgent6
variable {s t u v : BpAgent6} {b q x : Ptr} {p : Packet} {rx : ReceivedBundle}

/-- The bundle is stored, its custody is accepted, and it has been sent or waits to be. -/
structure InCharge (s : BpAgent6) (x : Ptr) : Prop where
  stored : x ∈ s.mStore
  accepted : s.InCustody x
  sent : ¬(s.heap x).Held

instance (s : BpAgent6) (x : Ptr) : Decidable (s.InCharge x) :=
  decidable_of_iff (x ∈ s.mStore ∧ test (s.heap x).retentionConstraints custodyAccepted = true ∧
    ¬(s.heap x).Held) ⟨fun h => ⟨h.1, h.2.1, h.2.2⟩, fun h => ⟨h.stored, h.accepted, h.sent⟩⟩

/-- `t` is in charge of the bundle that `s` was in charge of. -/
structure Retains (s : BpAgent6) (x : Ptr) (t : BpAgent6) : Prop extends t.InCharge x where
  header : CopyOf (s.header x) (t.header x)
  adu : (t.heap x).adu = (s.heap x).adu

theorem Retains.refl (h : s.InCharge x) : Retains s x s := ⟨h, .refl _, rfl⟩

theorem Retains.trans (h : Retains s x t) (h' : Retains t x u) : Retains s x u where
  toInCharge := h'.toInCharge
  header := h.header.trans h'.header
  adu := h'.adu.trans h.adu

/-- A bundle of which only the acknowledgements change. -/
theorem InCharge.retains (h : s.InCharge x) (hstored : x ∈ t.mStore)
    (hheap : ∃ acks, t.heap x = { s.heap x with acks := acks }) : Retains s x t := by
  obtain ⟨acks, hheap⟩ := hheap
  refine ⟨⟨hstored, ?_, ?_⟩, ?_, ?_⟩
  · rw [InCustody, hheap]
    exact h.accepted
  · rw [hheap]
    exact h.sent
  · unfold BundleStore.header
    rw [hheap]
    exact .refl _
  · rw [hheap]

theorem InCharge.retains_of_same (h : s.InCharge x) (hstored : x ∈ t.mStore)
    (hheap : t.heap x = s.heap x) : Retains s x t :=
  h.retains hstored ⟨(s.heap x).acks, hheap⟩

/-- Another bundle leaves. -/
theorem InCharge.retains_discarded (h : s.InCharge x) (hxb : x ≠ b) : Retains s x (s.discarded b) :=
  h.retains_of_same ((List.mem_erase_of_ne hxb).mpr h.stored) (heap_discarded_of_ne s hxb)

/-! ## Sending -/

/-- **`Forward` keeps every bundle in custody**, also the one that it sends. -/
theorem InCharge.retains_forward (h : s.InCharge x) (hrun : s.forward b = some t) : Retains s x t := by
  have hframe := forward_frame hrun
  by_cases hxb : x = b
  · subst hxb
    obtain ⟨haccepted, hadu⟩ := h.accepted.forward hrun
    refine ⟨⟨?_, haccepted, not_held_forward hrun⟩, (keeps_forward hrun).header x, hadu⟩
    rcases forward_eq_some.mp hrun with ⟨-, rfl⟩ | ⟨cla, p, -, -, -, ⟨-, rfl⟩ | ⟨hzero, -, rfl⟩⟩
    · exact h.stored
    · exact (s.rest_sent x cla p).1 ▸ h.stored
    · -- the flag of the accepted custody would be cleared
      rw [InCustody, retentionConstraints_discarded, hzero] at haccepted
      exact absurd haccepted (by decide)
  · exact h.retains_of_same ((hframe.mem_iff hxb).mpr h.stored) (hframe.heap x hxb)

theorem InCharge.retains_forwardAll {l : List Ptr} (h : s.InCharge x)
    (hrun : s.forwardAll l = some t) : Retains s x t := by
  induction l generalizing s with
  | nil =>
    cases hrun
    exact .refl h
  | cons b l ih =>
    obtain ⟨u, hu, hrest⟩ := Option.bind_eq_some_iff.mp hrun
    have hfirst := h.retains_forward hu
    exact hfirst.trans (ih hfirst.toInCharge hrest)

theorem InCharge.retains_send {src dst : BpEndpointId} {lifetime : Time} {custody : Bool}
    {priority : UInt32} {code : ℤ} (h : s.InCharge x) (hxb : x ≠ b)
    (hrun : s.send b p src dst lifetime custody priority = some (t, code)) : Retains s x t := by
  rcases send_eq_some.mp hrun with ⟨-, rfl, -⟩ | ⟨-, u, hu, hforward, -⟩
  · exact .refl h
  · have hcreated := h.retains_of_same (mem_createBundle hu h.stored) (heap_createBundle_of_ne hu hxb)
    exact hcreated.trans (hcreated.toInCharge.retains_forward hforward)

/-! ## What ends custody -/

/-- The operation ends custody of the bundle at one agent: its lifetime is over, or an application
receives its ADU. -/
inductive Ends (s : BpAgent6) (x : Ptr) : Op → Prop
  | expired {e : ScheduledEvent} (hcall : e.call = .expire x) : Ends s x (.fire e)
  | received {eid : BpEndpointId} {t : BpAgent6} {p : Packet} (hreceive : s.receive eid = some (t, some p))
      (hadu : (s.heap x).adu = some p)
      (hdst : ((s.header x).getDestinationEid == eid) = true) : Ends s x (.receive eid)

/-- **What happens at one agent** without an arrival. -/
theorem InCharge.act {op : Op} (h : s.InCharge x) (hop : s.Admissible op)
    (hact : ∀ b q rx, op ≠ .processBundle b q rx) (hstep : BpAgent6.step op s = some t) :
    Retains s x t ∨ Ends s x op := by
  cases op with
  | send b p src dst lifetime custody priority =>
    obtain ⟨⟨u, code⟩, hu, rfl⟩ := Option.map_eq_some_iff.mp hstep
    have hxb : x ≠ b := fun heq => hop.1 (heq ▸ h.stored)
    exact Or.inl (h.retains_send hxb hu)
  | processBundle b q rx => exact absurd rfl (hact b q rx)
  | claReady cla => exact Or.inl (h.retains_forwardAll hstep)
  | receive eid =>
    obtain ⟨⟨u, p⟩, hu, rfl⟩ := Option.map_eq_some_iff.mp hstep
    rcases receive_eq_some.mp hu with ⟨-, rfl, -⟩ | ⟨b, adu, hb, -, hadu, rfl, rfl⟩
    · exact Or.inl (.refl h)
    · by_cases hxb : x = b
      · subst hxb
        have hmatch := List.find?_some hb
        rw [Bool.and_eq_true] at hmatch
        exact Or.inr (.received hu hadu hmatch.1)
      · have hrest := h.retains_discarded hxb
        exact Or.inl ⟨⟨hrest.stored, hrest.accepted, hrest.sent⟩, hrest.header, hrest.adu⟩
  | fire e =>
    have hpopped : (s.popEvent e).InCharge x := ⟨h.stored, h.accepted, h.sent⟩
    have hsame : Retains s x (s.popEvent e) := ⟨hpopped, .refl _, rfl⟩
    rw [BpAgent6.step] at hstep
    cases hcall : e.call with
    | expire b =>
      rw [hcall] at hstep
      obtain ⟨-, -, rfl⟩ := expire_eq_some.mp hstep
      by_cases hxb : x = b
      · subst hxb
        exact Or.inr (.expired hcall)
      · exact Or.inl (hsame.trans (hpopped.retains_discarded hxb))
    | forward b =>
      rw [hcall] at hstep
      exact Or.inl (hsame.trans (hpopped.retains_forward hstep))
  | advance now =>
    cases hstep
    exact Or.inl ⟨⟨h.stored, h.accepted, h.sent⟩, .refl _, rfl⟩
  | configure config =>
    cases hstep
    exact Or.inl ⟨⟨h.stored, h.accepted, h.sent⟩, .refl _, rfl⟩

/-! ## Arrivals -/

/-- `Send` brings nothing but its own bundle into the store. -/
theorem mem_of_send {src dst : BpEndpointId} {lifetime : Time} {custody : Bool} {priority : UInt32}
    {code : ℤ} (hxb : x ≠ b)
    (hrun : s.send b p src dst lifetime custody priority = some (t, code)) (hx : x ∈ t.mStore) :
    x ∈ s.mStore := by
  rcases send_eq_some.mp hrun with ⟨-, rfl, -⟩ | ⟨-, u, hu, hforward, -⟩
  · exact hx
  · have hxu := ((forward_frame hforward).mem_iff hxb).mp hx
    obtain ⟨hdr, -, ⟨-, rfl⟩ | ⟨-, -, rfl⟩⟩ := createBundle_eq_some.mp hu
    · exact hxu
    · exact (BundleStore.mem_stored.mp hxu).resolve_left hxb

/-- A signal acknowledges ranges of a bundle that stays, and does nothing else to it. -/
theorem acked_of_processCustodySignal {cs : CustodySignal} (hx : x ∈ t.mStore)
    (hrun : s.processCustodySignal cs = some t) : ∃ acks, t.heap x = { s.heap x with acks := acks } := by
  have hacked : ∀ y, ∃ acks, (s.acked y cs).heap x = { s.heap x with acks := acks } := by
    intro y
    by_cases hxy : x = y
    · subst hxy
      exact ⟨_, heap_modify_self s x _⟩
    · exact ⟨(s.heap x).acks, heap_acked_of_ne s cs hxy⟩
  rcases processCustodySignal_eq_some.mp hrun with ⟨-, rfl⟩ | ⟨y, -, ⟨-, rfl⟩ | ⟨-, hord, -, rfl⟩⟩
  · exact ⟨_, rfl⟩
  · exact hacked y
  · -- the bundle that is discarded does not stay
    have hxy : x ≠ y := (BundleStore.Ordered.mem_removed hord |>.mp hx).1
    rw [heap_discarded_of_ne _ hxy]
    exact hacked y

/-- Local delivery of another bundle, next to bundles of its identity that are held. -/
theorem InCharge.retains_enqueue {state : Bool} (h : s.InCharge x) (hxb : x ≠ b)
    (hplace : (s.header b).isFragment = true → ∀ x ∈ s.mStore, Named (s.header b) (s.header x) →
      (s.heap x).Held)
    (hx : x ∈ t.mStore) (hrun : s.enqueueIfActive b state = some t) : Retains s x t := by
  refine h.retains hx ?_
  cases state with
  | false =>
    cases hrun
    exact ⟨(s.heap x).acks, rfl⟩
  | true =>
    rcases enqueue_eq_some hrun with ⟨-, hadmin⟩ | ⟨-, hmatch⟩
    · obtain ⟨w, v, rfl, hcase⟩ := adminRecord_cases hadmin
      have hcut : ((s.logged b).withAdu b w).heap x = s.heap x := heap_modify_of_ne _ hxb _
      rw [heap_discarded_of_ne v hxb]
      rcases hcase with rfl | ⟨adu, ar, rest, cs, rest', -, -, -, hsignal⟩
      · exact ⟨(s.heap x).acks, hcut⟩
      · obtain ⟨acks, hacks⟩ := acked_of_processCustodySignal (List.mem_of_mem_erase hx) hsignal
        exact ⟨acks, by rw [hacks, hcut]⟩
    · unfold BpAgent6.matchFragments at hmatch
      split at hmatch
      · rename_i hfragment
        have hxl : x ∉ (s.logged b).getBundles (s.header b).getSourceEid
            (s.header b).createTimestamp (s.header b).timestampSeqNum := fun hmem =>
          h.sent (hplace hfragment x h.stored (BundleStore.mem_getBundles.mp hmem).2)
        obtain ⟨-, hother⟩ := coalesce_objects (s := s.logged b) (Q := fun _ => True)
          (fun _ _ _ _ _ => trivial) trivial (fun _ _ => trivial) hmatch
        exact ⟨(s.heap x).acks, hother x hxb hxl⟩
      · cases hmatch
        exact ⟨(s.heap x).acks, rfl⟩

/-- **An arrival** keeps every bundle in custody that stays. -/
theorem InCharge.retains_processBundle {h : BpHeader6} {r : ℕ × ℕ} (hs : s.InCharge x)
    (hlength : h.aduLength = p.getSize)
    (hrx : PieceOf h p rx.header rx.payloadHeader rx.adu r) (hb : s.Fresh b) (hq : s.Fresh q)
    (hplace : s.FragmentsInPlace rx) (hx : x ∈ t.mStore) (hrun : s.processBundle b q rx = some t) :
    Retains s x t := by
  obtain ⟨u, hu, hcase⟩ := processBundle_eq_some.mp hrun
  have hxb : x ≠ b := fun heq => hb.1 (heq ▸ hs.stored)
  have hxq : x ≠ q := fun heq => hq.1 (heq ▸ hs.stored)
  have haccepted : Retains s x u := by
    refine hs.retains_of_same ?_ (heap_acceptBundle_of_ne hu hxb)
    rcases acceptBundle_eq_some.mp hu with ⟨-, rfl⟩ | ⟨-, -, rfl⟩
    · exact hs.stored
    · exact BundleStore.mem_stored.mpr (Or.inr hs.stored)
  rcases hcase with ⟨-, hdeliver⟩ | ⟨-, hforward⟩
  · rcases deliver_eq_some.mp hdeliver with ⟨-, rfl⟩ | ⟨state, v, -, hv, hcase⟩
    · exact haccepted
    have hplace' := hplace.acceptBundle hu (holds_acceptBundle hlength hrx hu).2.1
    rcases hcase with ⟨-, rfl⟩ | ⟨-, hsignal⟩
    · exact haccepted.trans (haccepted.toInCharge.retains_enqueue hxb hplace' hx hv)
    · obtain ⟨cs, packet, code, -, hsend⟩ := sendCustodySignal_eq_some.mp hsignal
      -- sending the signal brings no other bundle into the store
      have hxv : x ∈ v.mStore := mem_of_send (s := v.signalLogged b cs) hxq hsend hx
      have hdelivered := haccepted.toInCharge.retains_enqueue hxb hplace' hxv hv
      have hlogged : (v.signalLogged b cs).InCharge x :=
        ⟨hdelivered.stored, hdelivered.accepted, hdelivered.sent⟩
      have hsent := hlogged.retains_send hxq hsend
      exact haccepted.trans (hdelivered.trans ⟨hsent.toInCharge, hsent.header, hsent.adu⟩)
  · exact haccepted.trans (haccepted.toInCharge.retains_forward hforward)

/-! ## The network -/

section Network
variable {Node : Type*} [DecidableEq Node] {guard : Node → BpAgent6 → NodeOp → Prop}
  {n m m' n' : Node → BpAgent6} {ops ops' : List (Node × NodeOp)} {own : Node → BpEndpointId → Prop}
  {admin : List UInt8 → Prop} {i j : Node} {op : NodeOp}

/-- What ends custody of a bundle at a node, when `ops` has been done before. -/
inductive Relieved (guard : Node → BpAgent6 → NodeOp → Prop) (n : Node → BpAgent6)
    (ops : List (Node × NodeOp)) (s : BpAgent6) (x : Ptr) : NodeOp → Prop
  | ended {op : Op} (hends : Ends s x op) : Relieved guard n ops s x (.act op)
  /-- Every byte of the ADU has arrived at a node that is its destination. -/
  | delivered {d : Datagram} {h : BpHeader6} {p : Packet} (horigin : Origin guard n ops h p)
      (hcopy : CopyOf h (s.header x)) (hadu : (s.heap x).adu = some p)
      (hdelivered : ∀ k < p.size, Delivered guard n ops h p k) : Relieved guard n ops s x (.arrive d)

/-- **One operation of the network.** -/
theorem InCharge.move (hx : (m i).InCharge x)
    (hinit : ∀ i, (n i).Pristine ∧ (n i).config.bundleSize.toNat < 2 ^ 28)
    (hguard : ∀ i s op, guard i s op → s.InPlace op ∧ s.SendsAs (own i) op ∧ s.Administers admin op)
    (hseparate : Separate own) (hcount : ∀ i, ops.countP (fun e => e.1 = i) ≤ 2 ^ 32)
    (hrun : (network guard).Run n ops m) (hpermits : (network guard).Permits m (j, op))
    (hmove : (network guard).move (j, op) m = some m') :
    Retains (m i) x (m' i) ∨ j = i ∧ Relieved guard n ops (m i) x op := by
  obtain ⟨t, hstep, rfl⟩ := Option.map_eq_some_iff.mp hmove
  by_cases hij : i = j
  swap
  · rw [Function.update_of_ne hij]
    exact Or.inl (.refl hx)
  subst hij
  rw [Function.update_self]
  cases op with
  | act o =>
    obtain ⟨hact, hadmissible⟩ := hpermits.1.1
    exact (hx.act hadmissible hact hstep).imp_right fun hends => ⟨rfl, .ended hends⟩
  | arrive d =>
    by_cases hstays : x ∈ t.mStore
    · have hG := identified_of_run (fun i s op hg => (hguard i s op hg).2.1) hseparate hcount hrun
      have hall := credited_of_run hinit
        (fun i s op hg => ⟨(hguard i s op hg).1, (hguard i s op hg).2.2⟩) hG hrun
      obtain ⟨rx, hrx, hrun'⟩ := Option.bind_eq_some_iff.mp hstep
      obtain ⟨h, p, r, horigin, hpiece⟩ :=
        piece_of_arrive (fun j => (hall j).1) (fun h p horigin => horigin.1.cbhe) hpermits hrx
      obtain ⟨⟨hallowed, hg⟩, -⟩ := hpermits
      exact Or.inl (hx.retains_processBundle (hG.aduLength h p horigin.1) hpiece hallowed.1
        hallowed.2.1 ((hguard i _ _ hg).1 rx hrx) hstays hrun')
    · obtain ⟨h, p, horigin, hcopy, hadu, hdelivered⟩ := delivered_of_release hinit hguard hseparate
        hcount hrun hpermits hstep hx.stored hx.sent hstays
      exact Or.inr ⟨rfl, .delivered horigin hcopy hadu hdelivered⟩

/-- **Custody is safe** where no administrative record arrives cut: whatever the medium does with bundles
and signals, a node that has sent a bundle in custody keeps it, until its lifetime is over, an
application at that node receives it, or every byte of its ADU has arrived at a node that is its
destination. -/
theorem custody_transfer (hinit : ∀ i, (n i).Pristine ∧ (n i).config.bundleSize.toNat < 2 ^ 28)
    (hguard : ∀ i s op, guard i s op → s.InPlace op ∧ s.SendsAs (own i) op ∧ s.Administers admin op)
    (hseparate : Separate own) (hcount : ∀ i, (ops ++ ops').countP (fun e => e.1 = i) ≤ 2 ^ 32)
    (hrun : (network guard).Run n ops m) (hrun' : (network guard).Run m ops' n')
    (hx : (m i).InCharge x) :
    Retains (m i) x (n' i) ∨ ∃ before op after u, ops' = before ++ (i, op) :: after ∧
      (network guard).Run m before u ∧ Retains (m i) x (u i) ∧
      Relieved guard n (ops ++ before) (u i) x op := by
  -- the induction is on what is done after custody was accepted
  induction hrun' generalizing ops with
  | nil m => exact Or.inl (.refl hx)
  | @cons m u n' e ops' hpermits hmove hrest ih =>
    obtain ⟨j, op⟩ := e
    have hbefore : ∀ i, ops.countP (fun e => e.1 = i) ≤ 2 ^ 32 := fun i => by
      refine Nat.le_trans ?_ (hcount i)
      exact (List.sublist_append_left ops _).countP_le
    rcases hx.move hinit hguard hseparate hbefore hrun hpermits hmove with hfirst | ⟨rfl, hrelieved⟩
    · have hrun₂ : (network guard).Run n (ops ++ [(j, op)]) u :=
        Run.append_iff.mpr ⟨m, hrun, .cons hpermits hmove (.nil u)⟩
      have hcount' : ∀ i, (ops ++ [(j, op)] ++ ops').countP (fun e => e.1 = i) ≤ 2 ^ 32 := by
        intro i
        rw [List.append_assoc]
        exact hcount i
      rcases ih hcount' hrun₂ hfirst.toInCharge with
        hlast | ⟨before, op', after, v, rfl, hv, hlast, hrelieved⟩
      · exact Or.inl (hfirst.trans hlast)
      · refine Or.inr ⟨(j, op) :: before, op', after, v, rfl, .cons hpermits hmove hv,
          hfirst.trans hlast, ?_⟩
        rwa [List.append_assoc, List.singleton_append] at hrelieved
    · refine Or.inr ⟨[], op, ops', m, rfl, .nil m, .refl hx, ?_⟩
      rwa [List.append_nil]

end Network

/-- Two bytes are sent in custody in two bundles, which arrive.  Both signals come back, and custody of
the bytes ends as every byte has arrived. -/
theorem custody_transfer_sample : ∃ ops m ops' n', (network Sample.rules).Run Sample.pair ops m ∧
    (network Sample.rules).Run m ops' n' ∧ 1 ∉ (n' false).mStore ∧
    ∃ before op after u, ops' = before ++ (false, op) :: after ∧
      (network Sample.rules).Run m before u ∧ Retains (m false) 1 (u false) ∧
      Relieved Sample.rules Sample.pair (ops ++ before) (u false) 1 op := by
  obtain ⟨m, hreplay, htest⟩ := (Option.any_eq_true _ _).mp (by decide +kernel :
    (Sample.replay Sample.rules Sample.pair [.send false 1 Sample.twoBytes (Sample.eid 97) true]).any
      (fun m : Bool → BpAgent6 => decide ((m false).InCharge 1) &&
        (Sample.replay Sample.rules m [.arrive true 1 0, .arrive true 2 1, .arrive false 2 0,
          .arrive false 3 1]).any fun n' => decide (1 ∉ (n' false).mStore)) = true)
  rw [Bool.and_eq_true] at htest
  obtain ⟨n', hreplay', hgone⟩ := (Option.any_eq_true _ _).mp htest.2
  obtain ⟨ops, hrun, hlength⟩ := Sample.run_of_replay hreplay
  obtain ⟨ops', hrun', hlength'⟩ := Sample.run_of_replay hreplay'
  have hcount : (ops ++ ops').length ≤ 2 ^ 32 := by
    rw [List.length_append, hlength, hlength']
    decide
  have hend := of_decide_eq_true hgone
  refine ⟨ops, m, ops', n', hrun, hrun', hend, ?_⟩
  exact (custody_transfer Sample.pristine_pair (fun i s op h => h) Sample.separate_owns
    (Sample.countP_le hcount) hrun hrun' (of_decide_eq_true htest.1)).resolve_left
    fun hkept => hend hkept.stored

end BpAgent6
end BundleProtocol
