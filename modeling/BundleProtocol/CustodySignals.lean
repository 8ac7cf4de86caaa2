import BundleProtocol.AgentRun
import BundleProtocol.Coalescing
import BundleProtocol.Custody

/-! # What a custody signal covers

`SendCustodySignal` looks at the bundle after coalescing: a bundle that is marked as a
fragment is acknowledged with its offset and the size its ADU then has, any other with the
length 0.  So the signal covers what arrived exactly when the bundle is still marked as a
fragment, or carried nothing.  A fragment loses its mark when the stored fragments that
follow on from it bring its ADU to the ADU length (`completedBehind`).
-/
namespace BundleProtocol
namespace BpAgent6
variable {s t u v : BpAgent6} {b q x it : Ptr}

/-! ## The loop, as the fragment sees it -/

/-- Where the ADU of the bundle at `x` starts, and its size. -/
def extent (s : BpAgent6) (x : Ptr) : UInt32 × UInt32 :=
  ((s.header x).fragOffset, UInt32.ofNat (s.aduSize x))

theorem extent_congr {s t : BpAgent6} {x : Ptr} (h : t.heap x = s.heap x) : t.extent x = s.extent x := by
  rw [extent, extent, BundleStore.header_congr h, BundleStore.aduSize_congr (congrArg Bundle6.adu h)]

/-- A fragment at `offset` that has grown to `size` reaches the size `length` when it takes
in, one after another, the ranges of the list that follow on from it; a range that it follows
itself is left to take it in. -/
def completedBehind (offset length : UInt32) : List (UInt32 × UInt32) → UInt32 → Bool
  | [], _ => false
  | (o, n) :: rest, size =>
    if offset ≠ o + n ∧ offset + size = o then
      decide (size + n = length) || completedBehind offset length rest (size + n)
    else completedBehind offset length rest size

/-- The fragment has taken in `n` bytes. -/
theorem view_of_grown {joined : Packet} {n : ℕ} (hsize : joined.size = s.aduSize b + n)
    (hheap : t.heap b = (s.heap b).grown joined) :
    t.aduSize b = s.aduSize b + n ∧ (s.header b).SameBundle (t.header b) ∧
      (t.header b).fragOffset = (s.header b).fragOffset ∧
      (t.header b).isFragment = ((s.header b).isFragment &&
        !decide (UInt32.ofNat (s.aduSize b) + UInt32.ofNat n = (s.header b).aduLength)) := by
  unfold BundleStore.header BundleStore.aduSize at *
  rw [hheap, Bundle6.fragOffset_grown, Bundle6.isFragment_grown, ← UInt32.ofNat_add, ← hsize]
  exact ⟨rfl, Bundle6.sameBundle_grown _ _, rfl, rfl⟩

/-- **What the loop does to the fragment**: it grows and keeps its identity, and its mark as
a fragment goes exactly when it is completed. -/
theorem coalesce_self {l : List Ptr} (hpos : s.aduSize b ≠ 0) (hnodup : l.Nodup)
    (hrun : s.coalesce b l = some t) :
    s.aduSize b ≤ t.aduSize b ∧ (s.header b).SameBundle (t.header b) ∧
      (t.header b).fragOffset = (s.header b).fragOffset ∧
      (t.header b).isFragment = ((s.header b).isFragment &&
        !completedBehind (s.header b).fragOffset (s.header b).aduLength
          ((l.filter (· ≠ b)).map s.extent) (UInt32.ofNat (s.aduSize b))) := by
  induction l generalizing s with
  | nil =>
    cases hrun
    exact ⟨Nat.le_refl _, .refl _, rfl, by simp [completedBehind]⟩
  | cons it l ih =>
    obtain ⟨u, hu, hrest⟩ := Option.bind_eq_some_iff.mp hrun
    obtain ⟨hit, hnodup'⟩ := List.nodup_cons.mp hnodup
    by_cases hne : it = b
    · subst hne
      have hsame := coalesceWith_self hpos hu
      rw [hsame] at hrest
      simpa using ih hpos hnodup' hrest
    · obtain ⟨hother, hself⟩ := coalesceWith_view hne hu
      -- the ranges still to come are as they were
      have hmap : (l.filter (· ≠ b)).map u.extent = (l.filter (· ≠ b)).map s.extent := by
        refine List.map_congr_left fun z hz => ?_
        obtain ⟨hzl, hzb⟩ := List.mem_filter.mp hz
        exact extent_congr (hother z (by simpa using hzb) fun h => hit (h ▸ hzl))
      have hfilter : (it :: l).filter (· ≠ b) = it :: l.filter (· ≠ b) := by simp [hne]
      have htouch : (¬s.Tail b it ∧ s.Head b it) ↔ (s.header b).fragOffset ≠
          (s.header it).fragOffset + UInt32.ofNat (s.aduSize it) ∧
            (s.header b).fragOffset + UInt32.ofNat (s.aduSize b) = (s.header it).fragOffset :=
        Iff.rfl
      rw [hfilter, List.map_cons, extent, completedBehind, ← hmap]
      rcases hself with ⟨hapart, hheap⟩ | ⟨hhead, joined, hsize, hheap⟩
      · have hheader : u.header b = s.header b := congrArg Bundle6.primaryHeader hheap
        have hadu : u.aduSize b = s.aduSize b :=
          BundleStore.aduSize_congr (congrArg Bundle6.adu hheap)
        rw [if_neg (htouch.not.mp hapart), ← hheader, ← hadu]
        exact ih (hadu ▸ hpos) hnodup' hrest
      · obtain ⟨hadu, hkeys, hoffset, hfrag⟩ := view_of_grown hsize hheap
        obtain ⟨hle, hkeys', hoffset', hfrag'⟩ := ih (by omega) hnodup' hrest
        rw [if_pos (htouch.mp hhead)]
        refine ⟨by omega, hkeys.trans hkeys', hoffset'.trans hoffset, ?_⟩
        rw [hfrag', hfrag, hoffset, hkeys.aduLength, hadu, UInt32.ofNat_add, Bool.not_or,
          Bool.and_assoc]

/-- The bundles stored before an arrival are those the arrived one is matched against,
apart from itself. -/
theorem getBundles_acceptBundle {rx : ReceivedBundle} (hb : b ∉ s.mStore)
    (haccept : s.acceptBundle b rx = some u) (src : BpEndpointId) (ts seqno : UInt32) :
    ((u.getBundles src ts seqno).filter (· ≠ b)).map u.extent =
      (s.getBundles src ts seqno).map s.extent := by
  have hheap : ∀ x ∈ s.mStore, u.heap x = s.heap x := by
    intro x hx
    refine heap_acceptBundle_of_ne haccept ?_
    rintro rfl
    exact hb hx
  have hstore : u.mStore.filter (· ≠ b) = s.mStore := by
    have hself : s.mStore.filter (· ≠ b) = s.mStore := by
      refine List.filter_eq_self.mpr fun x hx => ?_
      simp only [ne_eq, decide_not, Bool.not_eq_eq_eq_not, Bool.not_true, decide_eq_false_iff_not]
      rintro rfl
      exact hb hx
    rcases acceptBundle_eq_some.mp haccept with ⟨-, rfl⟩ | ⟨-, -, rfl⟩
    · exact hself
    · exact (OrderedList.filter_insert_of_not (by simp)).trans hself
  have hfilter : (u.getBundles src ts seqno).filter (· ≠ b) = s.getBundles src ts seqno := by
    unfold BundleStore.getBundles
    rw [List.filter_comm, hstore]
    refine List.filter_congr fun x hx => ?_
    rw [BundleStore.header_congr (hheap x hx)]
  rw [hfilter]
  refine List.map_congr_left fun x hx => ?_
  exact extent_congr (hheap x (BundleStore.mem_getBundles.mp hx).1)

/-- The range of a custody signal. -/
theorem custodySignalPacket_eq_some {cs : CustodySignal} {p : Packet}
    (hrun : s.custodySignalPacket b = some (cs, p)) :
    cs.fragmentOffset = (s.header b).fragOffset ∧ cs.fragmentLength =
      if (s.header b).isFragment then UInt32.ofNat (s.aduSize b) else 0 := by
  obtain ⟨cs', hcs, hrun⟩ := Option.bind_eq_some_iff.mp hrun
  obtain ⟨p', -, hrun⟩ := Option.bind_eq_some_iff.mp hrun
  cases hrun
  obtain ⟨len, hlen, hcs⟩ := Option.bind_eq_some_iff.mp hcs
  cases hcs
  refine ⟨rfl, ?_⟩
  unfold signalLength at hlen
  split at hlen
  · rename_i hfrag
    obtain ⟨adu, hadu, rfl⟩ := Option.map_eq_some_iff.mp hlen
    rw [if_pos hfrag, BundleStore.aduSize_of_adu hadu]
    rfl
  · rename_i hwhole
    rw [if_neg hwhole]
    exact (Option.some.inj hlen).symm

/-- The range of the ADU that a bundle carries when it arrives: all of it, unless the bundle
is a fragment. -/
def arrivalRange (rx : ReceivedBundle) : ℕ × ℕ :=
  (if rx.header.isFragment then rx.header.fragOffset.toNat else 0, rx.adu.size)

/-- Every position of the ADU that arrived lies in the range of the signal. -/
def Covers (cs : CustodySignal) (rx : ReceivedBundle) : Prop :=
  ∀ i, (arrivalRange rx).1 ≤ i → i < (arrivalRange rx).1 + (arrivalRange rx).2 →
    cs.fragmentOffset.toNat ≤ i ∧ i < cs.fragmentOffset.toNat + cs.fragmentLength.toNat

/-- At a source that holds the whole bundle without acknowledgements, the signal removes the
bundle and cancels its retransmission. -/
def Discharges (cs : CustodySignal) (rx : ReceivedBundle) : Prop :=
  rx.header.isFragment = false → 0 < rx.adu.size →
    ∀ (source : BpAgent6) (x : Ptr), source.Healthy → source.signalled cs = some x →
      (source.heap x).acks = [] → (source.header x).isFragment = false →
      (source.header x).aduLength.toNat = rx.adu.size →
      ∃ t, source.processCustodySignal cs = some t ∧ x ∉ t.mStore ∧
        ∀ e ∈ t.sim.pending, some e.uid ≠ (source.heap x).nextRetrans

/-- The stored fragments that follow on from the received fragment `rx` complete it. -/
def CompletedBehind (s : BpAgent6) (rx : ReceivedBundle) : Prop :=
  completedBehind rx.header.fragOffset rx.header.aduLength
    ((s.getBundles rx.header.getSourceEid rx.header.createTimestamp
      rx.header.timestampSeqNum).map s.extent) rx.adu.getSize = true

instance (s : BpAgent6) (rx : ReceivedBundle) : Decidable (s.CompletedBehind rx) :=
  inferInstanceAs (Decidable (_ = true))

/-- The signal's range depends on the mark that is left. -/
theorem covers_iff {cs : CustodySignal} {rx : ReceivedBundle} {size : ℕ} {mark : Bool}
    (hoffset : cs.fragmentOffset = rx.header.fragOffset)
    (hlength : cs.fragmentLength = if mark then UInt32.ofNat size else 0)
    (hmark : mark = true → rx.header.isFragment = true) (hsize : rx.adu.size ≤ size)
    (hlt : size < 2 ^ 32) (hpos : 0 < rx.adu.size) : Covers cs rx ↔ mark = true := by
  unfold Covers arrivalRange
  cases mark with
  | false =>
    have hzero : cs.fragmentLength.toNat = 0 := by simp [hlength]
    refine iff_of_false (fun hcovers => ?_) Bool.false_ne_true
    have hfirst := hcovers _ (Nat.le_refl _) (by omega)
    omega
  | true =>
    have hfrag := hmark rfl
    have hnat : cs.fragmentLength.toNat = size := by
      rw [hlength, if_pos rfl, UInt32.toNat_ofNat_of_lt' hlt]
    refine iff_of_true (fun i hlo hhi => ?_) rfl
    rw [if_pos hfrag] at hlo hhi
    rw [hoffset, hnat]
    omega

/-- What is left of an arrived bundle with bytes once it has been matched. -/
theorem arrived_matched {rx : ReceivedBundle} (hb : b ∉ s.mStore) (hsorted : s.mStore.Nodup)
    (haccept : s.acceptBundle b rx = some u) (hpos : 0 < rx.adu.size)
    (hrun : (u.logged b).matchFragments b = some v) :
    rx.adu.size ≤ v.aduSize b ∧ (v.header b).fragOffset = rx.header.fragOffset ∧
      (v.header b).isFragment = (rx.header.isFragment && !decide (s.CompletedBehind rx)) := by
  have hheader : (u.logged b).header b = rx.header :=
    show u.header b = rx.header from header_acceptBundle haccept
  have hsize : (u.logged b).aduSize b = rx.adu.size :=
    show u.aduSize b = rx.adu.size from BundleStore.aduSize_of_adu (adu_acceptBundle haccept)
  have hbundles := getBundles_acceptBundle hb haccept rx.header.getSourceEid
    rx.header.createTimestamp rx.header.timestampSeqNum
  unfold matchFragments at hrun
  rw [hheader] at hrun
  split at hrun
  · rename_i hfrag
    have hnodup : (u.getBundles rx.header.getSourceEid rx.header.createTimestamp
        rx.header.timestampSeqNum).Nodup := (nodup_acceptBundle hsorted hb haccept).filter _
    obtain ⟨hle, -, hoffset, hmark⟩ := coalesce_self (by omega) hnodup hrun
    rw [hsize, hheader] at hmark
    rw [hsize] at hle
    rw [hheader] at hoffset
    refine ⟨hle, hoffset, ?_⟩
    have hcompleted : decide (s.CompletedBehind rx) = completedBehind rx.header.fragOffset
        rx.header.aduLength ((s.getBundles rx.header.getSourceEid rx.header.createTimestamp
          rx.header.timestampSeqNum).map s.extent) rx.adu.getSize := Bool.decide_eq_true
    rw [hmark, hcompleted, ← hbundles]
    rfl
  · rename_i hwhole
    cases hrun
    rw [hheader, hsize]
    refine ⟨Nat.le_refl _, rfl, ?_⟩
    simp [eq_false_of_ne_true hwhole]

/-- **When a custody signal covers what arrived**: exactly when the bundle carried nothing,
or is a fragment that the stored ones behind it do not complete. -/
theorem custodySignal_covers_iff {rx : ReceivedBundle} (hb : b ∉ s.mStore)
    (hsorted : s.mStore.Nodup) (hcust : rx.header.custTxReq = true)
    (hactive : s.findRegistration rx.header.getDestinationEid = some true)
    (hother : (rx.header.getDestinationEid == s.config.eid) = false)
    (hrun : s.processBundle b q rx = some t) :
    ∃ cs, t.signals = s.signals ++ [(s.sim.now, b, cs)] ∧
      (Covers cs rx ∧ Discharges cs rx ↔
        rx.adu.size = 0 ∨ (rx.header.isFragment = true ∧ ¬s.CompletedBehind rx)) := by
  obtain ⟨u, v, haccept, hmatch, hsend⟩ := (processBundle_active hactive hother).mp hrun
  obtain ⟨-, -, hnow, -, hsignals⟩ := rest_acceptBundle haccept
  have hframe := frame_matchFragments hmatch
  obtain ⟨hno, -⟩ | ⟨-, hsend⟩ := hsend
  · rw [hcust] at hno
    cases hno
  obtain ⟨cs, p, code, hpacket, hsend⟩ := sendCustodySignal_eq_some.mp hsend
  refine ⟨cs, ?_, ?_⟩
  · rw [signals_send hsend, signalLogged, hframe.signals, hsignals, hframe.now, hnow]
  by_cases hzero : rx.adu.size = 0
  · refine iff_of_true ⟨fun i hlo hhi => ?_, fun _ hpos => ?_⟩ (Or.inl hzero)
    · unfold arrivalRange at hlo hhi
      omega
    · omega
  have hpos : 0 < rx.adu.size := Nat.pos_of_ne_zero hzero
  obtain ⟨hle, hoffset, hmark⟩ := arrived_matched hb hsorted haccept hpos hmatch
  obtain ⟨hsigOffset, hsigLength⟩ := custodySignalPacket_eq_some hpacket
  have hcovers : Covers cs rx ↔ rx.header.isFragment = true ∧ ¬s.CompletedBehind rx := by
    rw [covers_iff (hsigOffset.trans hoffset) hsigLength (fun h => ?_) hle
      (v.toBundleStore.aduSize_lt b) hpos, hmark]
    · simp
    · rw [hmark] at h
      exact (Bool.and_eq_true_iff.mp h).1
  rw [hcovers]
  simp only [hzero, false_or]
  refine ⟨fun h => h.1, fun h => ⟨h, fun hwhole => ?_⟩⟩
  rw [h.1] at hwhole
  cases hwhole

/-- A fragment that arrives first is acknowledged as it came. -/
theorem custodySignal_covers_sample :
    let rx := Sample.received (Sample.header 2 6 9 0 3) (Sample.readable_header 9 0 3) [10]
      (by decide)
    ∃ t cs, (Sample.agent 10 true).processBundle 1 2 rx = some t ∧
      t.signals = [(0, 1, cs)] ∧ Covers cs rx ∧ Discharges cs rx := by
  intro rx
  obtain ⟨t, ht⟩ : ∃ t, (Sample.agent 10 true).processBundle 1 2 rx = some t :=
    Option.isSome_iff_exists.mp (by decide +kernel)
  obtain ⟨cs, hsignals, hiff⟩ := custodySignal_covers_iff (s := Sample.agent 10 true)
    List.not_mem_nil List.nodup_nil (by decide +kernel) (by decide +kernel) (by decide +kernel) ht
  obtain ⟨hcovers, hdischarges⟩ := hiff.mpr (Or.inr ⟨by decide +kernel, by decide +kernel⟩)
  exact ⟨t, cs, ht, hsignals, hcovers, hdischarges⟩

/-- A whole bundle of three bytes from `d:b` is acknowledged with the empty range, and the
source keeps it, with its retransmission pending. -/
theorem custodySignal_covers_nothing :
    let rx := Sample.received (Sample.header 4 6 8 0 0) (by decide) [10, 11, 12] (by decide)
    let receiver := { Sample.agent 10 true with
      config := { Sample.config 10 true with eid := Sample.eid 97 } }
    ∃ t cs, receiver.processBundle 1 2 rx = some t ∧ t.signals = [(0, 1, cs)] ∧
      ¬Covers cs rx ∧ Sample.custodian.Healthy ∧ Sample.custodian.signalled cs = some 1 ∧
      (Sample.custodian.heap 1).acks = [] ∧
      (Sample.custodian.header 1).aduLength.toNat = rx.adu.size ∧
      ∃ v, Sample.custodian.processCustodySignal cs = some v ∧ 1 ∈ v.mStore ∧
        ∃ e ∈ v.sim.pending, e.call = .forward 1 := by
  intro rx receiver
  obtain ⟨t, ht, hsignals⟩ := (Option.any_eq_true
    (fun t : BpAgent6 => decide (t.signals = [(0, 1, Sample.signal 0 0)])) _).mp
    (by decide +kernel : (receiver.processBundle 1 2 rx).any _ = true)
  obtain ⟨v, hv, hheld⟩ := (Option.any_eq_true (fun v : BpAgent6 =>
      decide (1 ∈ v.mStore ∧ ∃ e ∈ v.sim.pending, e.call = .forward 1)) _).mp
    (by decide +kernel : (Sample.custodian.processCustodySignal (Sample.signal 0 0)).any _ = true)
  refine ⟨t, Sample.signal 0 0, ht, ?_, fun hcovers => ?_, Sample.healthy_custodian,
    Sample.signalled_custodian 0 0, Sample.acks_custodian, ?_, v, hv, of_decide_eq_true hheld⟩
  · exact of_decide_eq_true hsignals
  · have hzero := (hcovers 0 (by decide) (by decide)).2
    exact absurd hzero (by decide)
  · rw [Sample.aduLength_custodian]
    rfl

end BpAgent6
end BundleProtocol
