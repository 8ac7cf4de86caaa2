import BundleProtocol.SendOutcome

/-! # Fragmentation partitions, retransmission repeats

`Forward` rewrites the one header of a bundle for every fragment and leaves the last fragment's numbers
in it.  It writes the same fields every time, so the header of a fragment does not depend on what an
earlier call left (`SameStamps`): the calls for one bundle all hand over the same headers and
payloads, which partition its ADU (`forward_partitions`).
-/
namespace BundleProtocol
open Tiling FlagWord

/-! ## A call that returns -/

/-- `BundleStore::Remove` once the search of the set has ended, at the bundle or nowhere. -/
def BundleStore.removeFound (st : BundleStore) (b : Ptr) (found : Bool) : Option BundleStore :=
  let st := { st with toMemory := st.toMemory.clearEvents b }
  if found then do
    let adu ← (st.heap b).adu
    some { st with mStore := st.mStore.erase b, storedBytes := st.storedBytes - adu.size }
  else some st

/-- In a set that is in order the search finds what is there. -/
theorem BundleStore.remove_eq_removeFound {st : BundleStore} (h : st.Ordered) (b : Ptr) :
    st.remove b = st.removeFound b (decide (b ∈ st.mStore)) := by
  unfold remove removeFound
  rw [if_pos h]
  by_cases hb : b ∈ st.mStore
  · simp [hb]
  · simp [hb]

namespace BpAgent6
variable {s t u v w : BpAgent6} {b : Ptr} {cla : ClaId} {dst : BpEndpointId} {p : Packet}
  {custody : Bool} {tx : Transmission} {txs : List Transmission}

/-- Step 6 of `Forward`, by the outcome of the search. -/
def wrapUpFound (s : BpAgent6) (b : Ptr) (found : Bool) : Option BpAgent6 :=
  if ((s.unflagged b).heap b).retentionConstraints = 0 then
    ((s.unflagged b).withStore fun st => st.removeFound b found).bind fun t => some (t.dispose b)
  else some (s.unflagged b)

theorem wrapUp_eq_wrapUpFound (h : (s.unflagged b).Ordered) :
    s.wrapUp b = s.wrapUpFound b (decide (b ∈ s.mStore)) := by
  have hunfold : s.wrapUp b = if ((s.unflagged b).heap b).retentionConstraints = 0 then
      ((s.unflagged b).removeFromStore b).bind fun t => some (t.dispose b)
    else some (s.unflagged b) := rfl
  have hremove : (s.unflagged b).removeFromStore b =
      (s.unflagged b).withStore fun st => st.removeFound b (decide (b ∈ s.mStore)) := by
    have hsearch := BundleStore.remove_eq_removeFound h b
    unfold removeFromStore withStore
    dsimp only
    rw [hsearch]
    rfl
  rw [hunfold, wrapUpFound, hremove]

/-- However the search ends, step 6 returns while the bundle has its ADU. -/
theorem exists_wrapUpFound (hadu : (s.heap b).adu = some p) (found : Bool) :
    ∃ t, s.wrapUpFound b found = some t := by
  have hadu' : ((s.unflagged b).heap b).adu = some p := by
    rw [unflagged, heap_modify_self]
    exact hadu
  unfold wrapUpFound
  split
  · unfold withStore BundleStore.removeFound
    cases found with
    | false => exact ⟨_, rfl⟩
    | true => simp [hadu']
  · exact ⟨_, rfl⟩

/-- `Forward` of the bundle at `b` hands `txs` to the convergence layer `cla` and returns: its loop
ends, and so does the rest of the call, however the search of the set ends. -/
def HandsOver (s : BpAgent6) (b : Ptr) (cla : ClaId) (txs : List Transmission) : Prop :=
  s.readyCla b = some cla ∧ ∃ v, (s.flagged b).transmit b cla (s.header b).getDestinationEid = some v ∧
    s.forward b = v.wrapUp b ∧ (∀ found, ∃ t, v.wrapUpFound b found = some t) ∧
    v.handed = s.handed ++ txs ∧ ∀ tx ∈ txs, tx.bundle = b ∧ tx.cla = cla

/-- A bundle with an ADU is handed over in the pieces of the ADU. -/
theorem handsOver_pieces (hready : s.readyCla b = some cla) (hadu : (s.heap b).adu = some p)
    (hm : s.config.bundleSize ≠ 0) :
    s.HandsOver b cla ((s.pieces p).map
      (s.transmission b cla (s.header b).getDestinationEid (s.fragmenting p) p)) := by
  have hadu' : ((s.flagged b).heap b).adu = some p := by
    rw [flagged, heap_modify_self]
    exact hadu
  have htransmit : (s.flagged b).transmit b cla (s.header b).getDestinationEid =
      some ((s.flagged b).transmitted b cla (s.header b).getDestinationEid p) :=
    transmit_eq_some.mpr ⟨p, hadu', Or.inl hm, rfl⟩
  have hkept : (((s.flagged b).transmitted b cla (s.header b).getDestinationEid p).heap b).adu =
      some p := by
    have hsent : ((s.sent b cla p).heap b).adu = some p := (adu_sent (Or.inl hm) b).trans hadu
    rwa [sent, unflagged, heap_modify_self] at hsent
  refine ⟨hready, _, htransmit, ?_, exists_wrapUpFound hkept, s.handed_sent b cla p, ?_⟩
  · rw [forward_eq, hready, Option.elim_some, htransmit, Option.bind_some]
  · intro tx htx
    obtain ⟨piece, -, rfl⟩ := List.mem_map.mp htx
    exact ⟨rfl, rfl⟩

/-! ## The partition -/

/-- The bundles handed over partition the ADU `p` into pieces of at most `m` bytes. -/
structure Partitions (m : ℕ) (p : Packet) (txs : List Transmission) : Prop where
  length : txs.length = (p.size + m - 1) / m
  size : ∀ tx ∈ txs, 1 ≤ tx.payload.size ∧ tx.payload.size ≤ m
  blockLength : ∀ tx ∈ txs, tx.payloadHeader.blockLength.toNat = tx.payload.size ∧
    tx.header.blockLength.toNat = tx.payload.size
  fragOffset : ∀ before tx after, txs = before ++ tx :: after →
    tx.header.fragOffset.toNat = (before.map fun tx => tx.payload.size).sum
  isFragment : ∀ tx ∈ txs, tx.header.isFragment = decide (m < p.size)
  payloads : (txs.map fun tx => tx.payload.bytes).flatten = p.bytes

/-- One transmission of a piece that lies in the ADU. -/
theorem transmission_piece {r : ℕ × ℕ} (fragment : Bool) (hle : r.1 + r.2 ≤ p.size) :
    (s.transmission b cla dst fragment p r).payload.size = r.2 ∧
      (s.transmission b cla dst fragment p r).header.fragOffset.toNat = r.1 ∧
      (s.transmission b cla dst fragment p r).header.blockLength.toNat = r.2 ∧
      (s.transmission b cla dst fragment p r).payloadHeader.blockLength.toNat = r.2 ∧
      (s.transmission b cla dst fragment p r).header.isFragment = fragment := by
  have hword : ∀ n ≤ p.size, (UInt32.ofNat n).toNat = n :=
    fun n hn => UInt32.toNat_ofNat_of_lt' (Nat.lt_of_le_of_lt hn p.size_lt)
  have hoffset := hword r.1 (by omega)
  have hsize := hword r.2 (by omega)
  refine ⟨Packet.size_piece hle, hoffset, hsize, hsize, ?_⟩
  exact BpHeader6.isFragment_setIsFragment _ fragment

theorem partitions_pieces (hm : s.config.bundleSize ≠ 0) :
    Partitions s.config.bundleSize.toNat p
      ((s.pieces p).map (s.transmission b cla dst (s.fragmenting p) p)) := by
  have htiles := tiles_pieces p hm
  have hm' : 0 < s.config.bundleSize.toNat :=
    Nat.pos_of_ne_zero fun he => hm (UInt32.toNat_inj.mp he)
  have hpiece : ∀ r ∈ s.pieces p, r.1 + r.2 ≤ p.size := fun r hr => (htiles.bounds hr).2.2
  refine ⟨?_, ?_, ?_, ?_, ?_, flatten_pieces hm⟩
  · rw [List.length_map]
    exact length_chunks hm' (Nat.le_refl p.size)
  · intro tx htx
    obtain ⟨r, hr, rfl⟩ := List.mem_map.mp htx
    obtain ⟨hsize, -⟩ := transmission_piece (s.fragmenting p) (hpiece r hr)
    rw [hsize]
    exact ⟨(htiles.bounds hr).2.1, size_le_of_mem_chunks hr⟩
  · intro tx htx
    obtain ⟨r, hr, rfl⟩ := List.mem_map.mp htx
    obtain ⟨hsize, -, hblock, hpayload, -⟩ := transmission_piece (s.fragmenting p) (hpiece r hr)
    exact ⟨hpayload.trans hsize.symm, hblock.trans hsize.symm⟩
  · -- the pieces before this one tile the ADU up to where it starts
    intro before tx after hsplit
    obtain ⟨rs, rest, hpieces, rfl, hrest⟩ := List.map_eq_append_iff.mp hsplit
    obtain ⟨r, rs', rfl, rfl, -⟩ := List.map_eq_cons_iff.mp hrest
    rw [hpieces] at htiles hpiece
    obtain ⟨-, hoffset, -⟩ := transmission_piece (s.fragmenting p) (hpiece r (by simp))
    rw [hoffset, htiles.offset_eq_sum, Nat.zero_add, List.map_map]
    congr 1
    refine List.map_congr_left fun q hq => ?_
    exact (transmission_piece (s.fragmenting p) (hpiece q (by simp [hq]))).1.symm
  · intro tx htx
    obtain ⟨r, hr, rfl⟩ := List.mem_map.mp htx
    exact (transmission_piece (s.fragmenting p) (hpiece r hr)).2.2.2.2

/-! ## Later calls -/

/-- Whatever is stamped into the two headers comes out the same. -/
structure SameStamps (x y : Bundle6) : Prop where
  primaryHeader : ∀ n o fragment, (stamp n o fragment y).primaryHeader =
    (stamp n o fragment x).primaryHeader
  payloadHeader : ∀ n o fragment, (stamp n o fragment y).payloadHeader =
    (stamp n o fragment x).payloadHeader

theorem SameStamps.refl (x : Bundle6) : SameStamps x x := ⟨fun _ _ _ => rfl, fun _ _ _ => rfl⟩

theorem SameStamps.trans {x y z : Bundle6} (h : SameStamps x y) (h' : SameStamps y z) :
    SameStamps x z :=
  ⟨fun n o f => (h'.primaryHeader n o f).trans (h.primaryHeader n o f),
    fun n o f => (h'.payloadHeader n o f).trans (h.payloadHeader n o f)⟩

/-- Two bundles with the same headers. -/
theorem SameStamps.of_headers {x y : Bundle6} (hprimary : y.primaryHeader = x.primaryHeader)
    (hpayload : y.payloadHeader = x.payloadHeader) : SameStamps x y := by
  refine ⟨fun n o f => ?_, fun n o f => ?_⟩
  · unfold stamp
    rw [hprimary]
  · unfold stamp
    rw [hpayload]

/-- What an earlier call left behind does not show. -/
theorem sameStamps_lastStamp (fragment : Bool) (ps : List (ℕ × ℕ)) (x : Bundle6) :
    SameStamps x (lastStamp fragment ps x) := by
  unfold lastStamp
  cases ps.getLast? with
  | none => exact .refl x
  | some r =>
    -- stamping writes over whatever was stamped before
    refine ⟨fun n o f => ?_, fun n o f => ?_⟩
    · unfold stamp BpHeader6.setIsFragment BpHeader6.setBlockLength BpHeader6.setFragOffset
      simp [assign_assign]
    · rfl

theorem sameStamps_sent (s : BpAgent6) (b : Ptr) (cla : ClaId) (p : Packet) :
    SameStamps (s.heap b) ((s.sent b cla p).heap b) := by
  have hflagged : SameStamps (s.heap b) ((s.flagged b).heap b) := by
    rw [flagged, heap_modify_self]
    exact .of_headers rfl rfl
  have hretrans : SameStamps ((s.flagged b).heap b) (((s.flagged b).withRetransmission b).heap b) := by
    rw [heap_withRetransmission_self]
    exact .of_headers rfl rfl
  have hloop : SameStamps (((s.flagged b).withRetransmission b).heap b)
      (((s.flagged b).transmitted b cla (s.header b).getDestinationEid p).heap b) := by
    rw [transmitted, heap_handOver, heap_modify_self]
    exact sameStamps_lastStamp _ _ _
  have hlast : SameStamps (((s.flagged b).transmitted b cla (s.header b).getDestinationEid p).heap b)
      ((s.sent b cla p).heap b) := by
    rw [sent, unflagged, heap_modify_self]
    exact .of_headers rfl rfl
  exact hflagged.trans (hretrans.trans (hloop.trans hlast))

/-- What is handed over of a piece: the two headers and the payload. -/
def content (tx : Transmission) : BpHeader6 × BpBlockHeader6 × Packet :=
  (tx.header, tx.payloadHeader, tx.payload)

/-- Bundles with the same stamps are handed over alike. -/
theorem SameStamps.content_eq (h : SameStamps (s.heap b) (t.heap b)) (cla cla' : ClaId)
    (dst dst' : BpEndpointId) (fragment : Bool) (r : ℕ × ℕ) :
    content (t.transmission b cla' dst' fragment p r) = content (s.transmission b cla dst fragment p r) := by
  unfold content transmission
  dsimp only
  rw [h.primaryHeader, h.payloadHeader]

/-- `w` comes after `u`: the bundle at `b` was forwarded any number of times, and in between anything
happened that leaves alone its headers, its ADU, its retention constraints and the bundle size. -/
inductive Later (b : Ptr) (u : BpAgent6) : BpAgent6 → Prop
  | refl : Later b u u
  | forward {v w : BpAgent6} (hlater : Later b u v) (hforward : v.forward b = some w) : Later b u w
  | other {v w : BpAgent6} (hlater : Later b u v) (hheader : w.header b = v.header b)
      (hpayload : (w.heap b).payloadHeader = (v.heap b).payloadHeader)
      (hadu : (w.heap b).adu = (v.heap b).adu)
      (hconstraints : (w.heap b).retentionConstraints = (v.heap b).retentionConstraints)
      (hsize : w.config.bundleSize = v.config.bundleSize) : Later b u w

theorem Later.trans (h : Later b u v) (h' : Later b v w) : Later b u w := by
  induction h' with
  | refl => exact h
  | forward _ hforward ih => exact .forward ih hforward
  | other _ hheader hpayload hadu hconstraints hsize ih =>
    exact .other ih hheader hpayload hadu hconstraints hsize

/-- What stays of a bundle through all this, as long as it is there. -/
structure Kept (b : Ptr) (u w : BpAgent6) : Prop where
  bundleSize : w.config.bundleSize = u.config.bundleSize
  stamps : SameStamps (u.heap b) (w.heap b)
  adu : (w.heap b).adu = (u.heap b).adu ∨ (w.heap b).adu = none

theorem Kept.trans (h : Kept b u v) (h' : Kept b v w) : Kept b u w where
  bundleSize := h'.bundleSize.trans h.bundleSize
  stamps := h.stamps.trans h'.stamps
  adu := by
    rcases h'.adu with hsame | hnone
    · rw [hsame]
      exact h.adu
    · exact Or.inr hnone

theorem kept_discarded (s : BpAgent6) (b : Ptr) : Kept b s (s.discarded b) := by
  have hself : (s.discarded b).heap b = { s.heap b with adu := none, acks := [] } := by
    have hdispose := Memory.heap_doDispose (s.removed b).toMemory b
    exact (congrFun hdispose b).trans (Function.update_self ..)
  refine ⟨rfl, ?_, ?_⟩
  · rw [hself]
    exact .of_headers rfl rfl
  · rw [hself]
    exact Or.inr rfl

theorem kept_forward (hrun : s.forward b = some t) : Kept b s t := by
  rcases forward_eq_some.mp hrun with ⟨-, rfl⟩ | ⟨cla, p, -, hadu, hm, hcase⟩
  · -- no convergence layer is ready
    refine ⟨rfl, ?_, ?_⟩
    · rw [flagged, heap_modify_self]
      exact .of_headers rfl rfl
    · rw [flagged, heap_modify_self]
      exact Or.inl rfl
  · have hsent : Kept b s (s.sent b cla p) :=
      ⟨congrArg Config.bundleSize (s.rest_sent b cla p).2.2.1, s.sameStamps_sent b cla p,
        Or.inl (adu_sent hm b)⟩
    rcases hcase with ⟨-, rfl⟩ | ⟨-, -, rfl⟩
    · exact hsent
    · exact hsent.trans (kept_discarded _ b)

theorem Later.kept (h : Later b u w) : Kept b u w := by
  induction h with
  | refl => exact ⟨rfl, .refl _, Or.inl rfl⟩
  | forward _ hforward ih => exact ih.trans (kept_forward hforward)
  | other _ hheader hpayload hadu _ hsize ih =>
    exact ih.trans ⟨hsize, .of_headers hheader hpayload, Or.inl hadu⟩

/-! ## Bundles in custody -/

/-- The bundle at `b` is kept for custody. -/
def InCustody (s : BpAgent6) (b : Ptr) : Prop :=
  test (s.heap b).retentionConstraints custodyAccepted = true

theorem InCustody.forward (h : s.InCustody b) (hrun : s.forward b = some t) :
    t.InCustody b ∧ (t.heap b).adu = (s.heap b).adu := by
  have hflag : ∀ word, test ((word ||| forwardPending) &&& ~~~dispatchPending) custodyAccepted =
      test word custodyAccepted := by
    intro word
    have hset : test (assign word forwardPending true) custodyAccepted = test word custodyAccepted :=
      test_assign_of_disjoint true (by decide)
    have hclear : test (assign (assign word forwardPending true) dispatchPending false)
        custodyAccepted = test (assign word forwardPending true) custodyAccepted :=
      test_assign_of_disjoint false (by decide)
    exact hclear.trans hset
  rcases forward_eq_some.mp hrun with ⟨-, rfl⟩ | ⟨cla, p, -, hadu, hm, hcase⟩
  · have hself : (s.flagged b).heap b = _ := heap_modify_self s b _
    unfold InCustody
    rw [hself]
    exact ⟨(hflag _).trans h, rfl⟩
  · have hsent : (s.sent b cla p).InCustody b := by
      unfold InCustody
      rw [(s.sentBundle b cla hm).retentionConstraints]
      have hclear : test (assign (((s.heap b).retentionConstraints ||| forwardPending) &&&
          ~~~dispatchPending) forwardPending false) custodyAccepted =
          test (((s.heap b).retentionConstraints ||| forwardPending) &&& ~~~dispatchPending)
            custodyAccepted := test_assign_of_disjoint false (by decide)
      exact hclear.trans ((hflag _).trans h)
    rcases hcase with ⟨-, rfl⟩ | ⟨hzero, -, -⟩
    · exact ⟨hsent, adu_sent hm b⟩
    · -- nothing would keep the bundle
      unfold InCustody at hsent
      rw [hzero] at hsent
      exact absurd hsent (by decide)

theorem Later.inCustody (h : Later b u w) (hu : u.InCustody b) :
    w.InCustody b ∧ (w.heap b).adu = (u.heap b).adu := by
  induction h with
  | refl => exact ⟨hu, rfl⟩
  | forward _ hforward ih =>
    obtain ⟨hw, hadu⟩ := ih.1.forward hforward
    exact ⟨hw, hadu.trans ih.2⟩
  | other _ _ _ hadu hconstraints _ ih =>
    refine ⟨?_, hadu.trans ih.2⟩
    unfold InCustody
    rw [hconstraints]
    exact ih.1

/-! ## Bundles of `Send` -/

/-- The bundle at `b` is as `Send` creates it from the ADU `p`. -/
def NewlyCreated (u : BpAgent6) (b : Ptr) (p : Packet) (custody : Bool) : Prop :=
  ∃ own src dst lifetime priority now seq hdr id,
    newHeader own p.size src dst lifetime custody priority now seq = some hdr ∧
      u.heap b = { createdBundle hdr p custody with expireEvent := id }

theorem newlyCreated_createBundle {src dst : BpEndpointId} {lifetime : Time} {priority : UInt32}
    (hcreate : s.createBundle b p src dst lifetime custody priority = some u) :
    u.NewlyCreated b p custody := by
  obtain ⟨hdr, id, hnew, hself⟩ := heap_createBundle hcreate
  exact ⟨_, _, _, _, _, _, _, hdr, id, hnew, hself⟩

/-- **Fragmentation partitions the ADU, and retransmission repeats it.**  From the moment `Send` has
created a bundle, and as long as the bundle has its ADU, `Forward` of it to a ready convergence layer
returns, having handed over bundles that partition the ADU; when the bundle is kept for custody, every
later `Forward` of it to a ready one hands over the same headers and payloads. -/
theorem forward_partitions (hu : u.NewlyCreated b p custody) (hpos : 0 < p.size) (hv : Later b u v)
    (hadu : (v.heap b).adu ≠ none) (hm : v.config.bundleSize ≠ 0) (hready : v.readyCla b = some cla) :
    ∃ txs, v.HandsOver b cla txs ∧ Partitions v.config.bundleSize.toNat p txs ∧ txs ≠ [] ∧
      (custody = true → ∀ w cla', Later b v w → w.readyCla b = some cla' →
        ∃ txs', w.HandsOver b cla' txs' ∧ Partitions w.config.bundleSize.toNat p txs' ∧
          txs'.map content = txs.map content) := by
  obtain ⟨_, _, _, _, _, _, _, hdr, id, hnew, hself⟩ := hu
  have hadu_u : (u.heap b).adu = some p := by
    rw [hself]
    rfl
  have hadu_v : (v.heap b).adu = some p := (hv.kept.adu.resolve_right hadu).trans hadu_u
  refine ⟨_, handsOver_pieces hready hadu_v hm, partitions_pieces hm, ?_, ?_⟩
  · rw [ne_eq, List.map_eq_nil_iff, (tiles_pieces p hm).eq_nil_iff]
    omega
  · intro hcustody w cla' hw hready'
    have hcust : u.InCustody b := by
      unfold InCustody
      rw [hself, hcustody]
      show test (dispatchPending ||| custodyAccepted) custodyAccepted = true
      decide
    have hadu_w : (w.heap b).adu = some p := ((hv.trans hw).inCustody hcust).2.trans hadu_u
    have hsize := hw.kept.bundleSize
    have hm' : w.config.bundleSize ≠ 0 := by rwa [hsize]
    refine ⟨_, handsOver_pieces hready' hadu_w hm', partitions_pieces hm', ?_⟩
    have hpieces : w.pieces p = v.pieces p := by
      unfold pieces
      rw [hsize]
    have hfragment : w.fragmenting p = v.fragmenting p := by
      unfold fragmenting
      rw [hsize]
    rw [List.map_map, List.map_map, hpieces, hfragment]
    refine List.map_congr_left fun r _ => ?_
    exact hw.kept.stamps.content_eq _ _ _ _ _ r

/-- Three bytes, sent in custody by an agent whose bundle size is two, go out in two bundles. -/
theorem forward_partitions_sample :
    ∃ u txs, (Sample.agent 2 true).createBundle 1 Sample.threeBytes (Sample.eid 98) (Sample.eid 97) 0
        true 0 = some u ∧ u.HandsOver 1 0 txs ∧ Partitions 2 Sample.threeBytes txs ∧
      ∀ w cla, Later 1 u w → w.readyCla 1 = some cla →
        ∃ txs', w.HandsOver 1 cla txs' ∧ txs'.map content = txs.map content := by
  obtain ⟨u, hu, htest⟩ := (Option.any_eq_true (fun u : BpAgent6 =>
    decide (u.readyCla 1 = some 0 ∧ u.config.bundleSize = 2 ∧ (u.heap 1).adu ≠ none)) _).mp
    (by decide +kernel : ((Sample.agent 2 true).createBundle 1 Sample.threeBytes (Sample.eid 98)
      (Sample.eid 97) 0 true 0).any _ = true)
  obtain ⟨hready, hsize, hadu⟩ := of_decide_eq_true htest
  obtain ⟨txs, hover, hparts, -, hlater⟩ := forward_partitions (newlyCreated_createBundle hu)
    (by decide) .refl hadu (by rw [hsize]; decide) hready
  rw [hsize] at hparts
  refine ⟨u, txs, hu, hover, hparts, fun w cla hw hw' => ?_⟩
  obtain ⟨txs', hover', -, hsame⟩ := hlater rfl w cla hw hw'
  exact ⟨txs', hover', hsame⟩

end BpAgent6
end BundleProtocol
