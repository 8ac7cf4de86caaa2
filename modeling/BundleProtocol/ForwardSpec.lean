import BundleProtocol.StoreSpec

/-! # What `Forward` does

The loop of `Forward` hands over the pieces that `Tiling.chunks` cuts the ADU into
and leaves the last piece's numbers in the stored header (`transmit_eq_some`); all
of `Forward` either leaves the bundle waiting, or sends it and keeps it, or sends it
and removes it (`forward_eq_some`).
-/
namespace BundleProtocol
open Tiling

/-- The packet that `CreateFragment` cuts out of a range. -/
def Packet.piece (p : Packet) (o n : ℕ) : Packet where
  bytes := slice p.bytes o n
  size_lt := p.length_slice_lt o n

theorem Packet.size_piece {p : Packet} {o n : ℕ} (h : o + n ≤ p.size) : (p.piece o n).size = n :=
  length_slice h

theorem Packet.createFragment_eq {p : Packet} {o n : ℕ} (h : o + n ≤ p.size) :
    p.createFragment o n = some (p.piece o n) := by
  unfold createFragment
  rw [if_pos h]
  rfl

/-- What the loop leaves behind: the numbers of the last piece. -/
def lastStamp (fragment : Bool) (ps : List (ℕ × ℕ)) (x : Bundle6) : Bundle6 :=
  match ps.getLast? with
  | none => x
  | some (o, n) => BpAgent6.stamp n o fragment x

namespace BpAgent6
variable {s t : BpAgent6} {b x : Ptr} {cla : ClaId} {dst : BpEndpointId}

/-! ## The loop -/

/-- A stamp overwrites an earlier one. -/
theorem stamp_stamp (n o n' o' : ℕ) (fragment : Bool) (x : Bundle6) :
    stamp n' o' fragment (stamp n o fragment x) = stamp n' o' fragment x := by
  unfold stamp BpHeader6.setIsFragment BpHeader6.setBlockLength BpHeader6.setFragOffset
  simp [FlagWord.assign_assign, BpBlockHeader6.setBlockLength]

theorem lastStamp_cons (fragment : Bool) (p : ℕ × ℕ) (ps : List (ℕ × ℕ)) (x : Bundle6) :
    lastStamp fragment (p :: ps) x = lastStamp fragment ps (stamp p.2 p.1 fragment x) := by
  unfold lastStamp
  rw [List.getLast?_cons]
  cases ps.getLast? with
  | none => rfl
  | some q => exact (stamp_stamp p.2 p.1 q.2 q.1 fragment x).symm

/-- The call of `SendBundle` for one piece of the ADU. -/
def transmission (s : BpAgent6) (b : Ptr) (cla : ClaId) (dst : BpEndpointId) (fragment : Bool)
    (adu : Packet) (p : ℕ × ℕ) : Transmission :=
  let x := stamp p.2 p.1 fragment (s.heap b)
  ⟨s.sim.now, b, cla, s.getEidAddress dst, x.primaryHeader, x.payloadHeader, adu.piece p.1 p.2⟩

/-- The effect of the loop on the pieces `ps`. -/
def handOver (s : BpAgent6) (b : Ptr) (cla : ClaId) (dst : BpEndpointId) (fragment : Bool)
    (adu : Packet) (ps : List (ℕ × ℕ)) : BpAgent6 :=
  { s.modify b (lastStamp fragment ps) with
    handed := s.handed ++ ps.map (s.transmission b cla dst fragment adu) }

theorem handOver_nil (s : BpAgent6) (b : Ptr) (cla : ClaId) (dst : BpEndpointId) (fragment : Bool)
    (adu : Packet) : s.handOver b cla dst fragment adu [] = s := by
  have hheap : Function.update s.heap b (lastStamp fragment [] (s.heap b)) = s.heap :=
    Function.update_eq_self ..
  unfold handOver modify Memory.modify
  rw [hheap]
  simp

theorem handOver_cons (s : BpAgent6) (b : Ptr) (cla : ClaId) (dst : BpEndpointId) (fragment : Bool)
    (adu : Packet) (p : ℕ × ℕ) (ps : List (ℕ × ℕ)) :
    s.handOver b cla dst fragment adu (p :: ps) =
      (s.handOver b cla dst fragment adu [p]).handOver b cla dst fragment adu ps := by
  have hone : lastStamp fragment [p] (s.heap b) = stamp p.2 p.1 fragment (s.heap b) := rfl
  have htransmission : (s.handOver b cla dst fragment adu [p]).transmission b cla dst fragment adu =
      s.transmission b cla dst fragment adu := by
    funext q
    simp [transmission, handOver, modify, hone, stamp_stamp, getEidAddress]
  unfold handOver at htransmission ⊢
  rw [htransmission]
  simp [modify, Memory.modify, lastStamp_cons, hone, Function.update_idem]

/-- One iteration of the loop. -/
theorem sendFragments_succ (cla : ClaId) (dst : BpEndpointId) (fragment : Bool) (fuel left : ℕ)
    {adu : Packet} (hadu : (s.heap b).adu = some adu) {o n : ℕ}
    (hn : n = min (left + 1) s.config.bundleSize.toNat)
    (ho : o = if fragment then adu.size - (left + 1) else 0) (hbound : o + n ≤ adu.size) :
    s.sendFragments b cla dst adu.size fragment (fuel + 1) (left + 1) =
      (s.handOver b cla dst fragment adu [(o, n)]).sendFragments b cla dst adu.size fragment fuel
        (left + 1 - n) := by
  have hlt := adu.size_lt
  have hsize : adu.size = adu.bytes.length := rfl
  have hn' : (UInt32.ofNat n).toNat = n :=
    UInt32.toNat_ofNat_of_lt' (Nat.lt_of_le_of_lt (by omega) hlt)
  have ho' : (UInt32.ofNat o).toNat = o :=
    UInt32.toNat_ofNat_of_lt' (Nat.lt_of_le_of_lt (by omega) hlt)
  have hbundle : sendBundle s.sim.now b (stamp n o fragment (s.heap b)) cla (s.getEidAddress dst) =
      some (s.transmission b cla dst fragment adu (o, n)) := by
    unfold sendBundle
    simp [stamp, BpHeader6.setBlockLength, BpHeader6.setFragOffset, hadu, hn', ho',
      Packet.createFragment_eq hbound, transmission, BpHeader6.setIsFragment]
  conv_lhs => unfold sendFragments
  dsimp only
  rw [← hn, ← ho]
  simp only [modify, Memory.sim_modify, Memory.heap_modify_self]
  have haddress : (getEidAddress { s with toMemory := s.toMemory.modify b (stamp n o fragment) } dst) =
      s.getEidAddress dst := rfl
  rw [haddress, hbundle]
  rfl

/-- The loop on an ADU larger than the bundle size: the induction is on the number of
pieces left, the offset moving with it. -/
theorem sendFragments_fragmenting {adu : Packet} (hadu : (s.heap b).adu = some adu)
    (hm : 0 < s.config.bundleSize.toNat) (fuel : ℕ) {left : ℕ} (hfuel : left ≤ fuel)
    (hleft : left ≤ adu.size) :
    s.sendFragments b cla dst adu.size true fuel left =
      some (s.handOver b cla dst true adu
        (chunks s.config.bundleSize.toNat fuel (adu.size - left) left)) := by
  induction fuel generalizing left s with
  | zero =>
    have hzero : left = 0 := by omega
    subst hzero
    rw [chunks_zero, handOver_nil]
    rfl
  | succ fuel ih =>
    cases left with
    | zero =>
      rw [chunks_zero, handOver_nil]
      rfl
    | succ left =>
      have hstep := sendFragments_succ cla dst true fuel left hadu rfl rfl (by rw [if_pos rfl]; omega)
      rw [if_pos rfl] at hstep
      have hadu' : ((s.handOver b cla dst true adu [(adu.size - (left + 1),
          min (left + 1) s.config.bundleSize.toNat)]).heap b).adu = some adu := by
        simp [handOver, modify, lastStamp, stamp, hadu]
      have hoffset : adu.size - (left + 1 - min (left + 1) s.config.bundleSize.toNat) =
          adu.size - (left + 1) + min (left + 1) s.config.bundleSize.toNat := by omega
      rw [hstep, ih hadu' hm (by omega) (by omega), hoffset, chunks, if_neg (Nat.succ_ne_zero left)]
      exact congrArg some (s.handOver_cons b cla dst true adu _ _).symm

/-- The loop on an ADU that fits one bundle. -/
theorem sendFragments_whole {adu : Packet} (hadu : (s.heap b).adu = some adu)
    (hm : adu.size ≤ s.config.bundleSize.toNat) :
    s.sendFragments b cla dst adu.size false adu.size adu.size =
      some (s.handOver b cla dst false adu
        (chunks s.config.bundleSize.toNat adu.size 0 adu.size)) := by
  cases hsize : adu.size with
  | zero =>
    rw [chunks_zero, handOver_nil]
    rfl
  | succ n =>
    have hstep := sendFragments_succ cla dst false n n hadu
      (show n + 1 = min (n + 1) _ by omega) rfl (by rw [hsize, if_neg (by decide)]; omega)
    rw [hsize, if_neg (by decide), Nat.sub_self] at hstep
    rw [hstep, chunks_of_le 0 (by omega) (by omega) (Nat.le_refl _)]
    cases n <;> rfl

/-- With a bundle size of zero the loop never ends. -/
theorem sendFragments_of_bundleSize_eq_zero (hm : s.config.bundleSize.toNat = 0) {aduSize : ℕ}
    {fragment : Bool} (fuel left : ℕ) :
    s.sendFragments b cla dst aduSize fragment fuel (left + 1) = none := by
  induction fuel generalizing s with
  | zero => rfl
  | succ fuel ih =>
    unfold sendFragments
    dsimp only
    rw [hm, Nat.min_zero, Nat.sub_zero]
    cases sendBundle _ _ _ _ _ with
    | none => rfl
    | some tx => exact ih hm

/-! ## All of `Forward` -/

/-- The pieces the ADU is cut into. -/
def pieces (s : BpAgent6) (adu : Packet) : List (ℕ × ℕ) :=
  chunks s.config.bundleSize.toNat adu.size 0 adu.size

/-- `fragment`: the ADU is larger than the bundle size. -/
def fragmenting (s : BpAgent6) (adu : Packet) : Bool :=
  decide (s.config.bundleSize.toNat < adu.size)

theorem tiles_pieces (adu : Packet) (h : s.config.bundleSize ≠ 0) :
    Tiles (s.pieces adu) 0 adu.size := by
  have hm : 0 < s.config.bundleSize.toNat :=
    Nat.pos_of_ne_zero fun he => h (UInt32.toNat_inj.mp he)
  have htiles := tiles_chunks hm adu.size 0 (Nat.le_refl adu.size)
  rwa [Nat.zero_add] at htiles

/-- The first part of `transmit`. -/
def withRetransmission (s : BpAgent6) (b : Ptr) : BpAgent6 :=
  if (s.header b).custTxReq then s.scheduleRetransmission b else s

/-- The effect of `transmit`. -/
def transmitted (s : BpAgent6) (b : Ptr) (cla : ClaId) (dst : BpEndpointId) (adu : Packet) :
    BpAgent6 :=
  (s.withRetransmission b).handOver b cla dst (s.fragmenting adu) adu (s.pieces adu)

theorem config_withRetransmission (s : BpAgent6) (b : Ptr) :
    (s.withRetransmission b).config = s.config := by
  unfold withRetransmission
  split <;> rfl

theorem heap_withRetransmission (s : BpAgent6) (b x : Ptr) :
    ∃ id, (s.withRetransmission b).heap x = { s.heap x with nextRetrans := id } := by
  unfold withRetransmission scheduleRetransmission
  split
  · by_cases hx : x = b
    · subst hx
      exact ⟨_, Function.update_self ..⟩
    · exact ⟨_, Function.update_of_ne hx ..⟩
  · exact ⟨_, rfl⟩

theorem transmit_eq_some : s.transmit b cla dst = some t ↔
    ∃ adu, (s.heap b).adu = some adu ∧ (s.config.bundleSize ≠ 0 ∨ adu.size = 0) ∧
      t = s.transmitted b cla dst adu := by
  have hconfig := s.config_withRetransmission b
  obtain ⟨id, hid⟩ := s.heap_withRetransmission b b
  have hunfold : s.transmit b cla dst = ((s.withRetransmission b).heap b).adu.bind fun adu =>
      (s.withRetransmission b).sendFragments b cla dst adu.size
        (decide ((s.withRetransmission b).config.bundleSize.toNat < adu.size)) adu.size adu.size := rfl
  rw [hunfold, hid, hconfig]
  cases hadu : (s.heap b).adu with
  | none => simp
  | some adu =>
    have hadu' : ((s.withRetransmission b).heap b).adu = some adu := by rw [hid, ← hadu]
    simp only [Option.bind_some, Option.some.injEq, exists_eq_left']
    by_cases hm : s.config.bundleSize.toNat = 0
    · have hzero : s.config.bundleSize = 0 := UInt32.toNat_inj.mp hm
      cases hsize : adu.size with
      | zero =>
        have hpieces : s.pieces adu = [] := by
          unfold pieces
          rw [hsize, chunks_zero]
        simp [transmitted, hpieces, handOver_nil, sendFragments, eq_comm]
      | succ n =>
        have hm' : (s.withRetransmission b).config.bundleSize.toNat = 0 := by rw [hconfig, hm]
        rw [sendFragments_of_bundleSize_eq_zero hm']
        simp [hzero]
    · have hne : s.config.bundleSize ≠ 0 := fun he => hm (congrArg UInt32.toNat he)
      simp only [hne, ne_eq, not_false_eq_true, true_or, true_and]
      have heq : (s.withRetransmission b).sendFragments b cla dst adu.size
          (decide (s.config.bundleSize.toNat < adu.size)) adu.size adu.size =
          some (s.transmitted b cla dst adu) := by
        by_cases hfrag : s.config.bundleSize.toNat < adu.size
        · rw [decide_eq_true hfrag, sendFragments_fragmenting hadu' (by rw [hconfig]; omega) _
            (Nat.le_refl _) (Nat.le_refl _), hconfig, Nat.sub_self]
          simp [transmitted, fragmenting, hfrag, pieces]
        · rw [decide_eq_false hfrag, sendFragments_whole hadu' (by rw [hconfig]; omega), hconfig]
          simp [transmitted, fragmenting, hfrag, pieces]
      rw [heq, Option.some.injEq]
      exact eq_comm

/-- Step 1 of `Forward`. -/
def flagged (s : BpAgent6) (b : Ptr) : BpAgent6 :=
  s.modify b fun x =>
    { x with retentionConstraints :=
        (x.retentionConstraints ||| forwardPending) &&& ~~~dispatchPending }

/-- The first assignment of step 6 of `Forward`. -/
def unflagged (s : BpAgent6) (b : Ptr) : BpAgent6 :=
  s.modify b fun x =>
    { x with retentionConstraints := x.retentionConstraints &&& ~~~forwardPending }

/-- The state once `Forward` has sent the bundle at `b`. -/
def sent (s : BpAgent6) (b : Ptr) (cla : ClaId) (adu : Packet) : BpAgent6 :=
  ((s.flagged b).transmitted b cla (s.header b).getDestinationEid adu).unflagged b

@[simp] theorem header_flagged (s : BpAgent6) (b x : Ptr) :
    (s.flagged b).header x = s.header x := by
  apply field_heap_modify Bundle6.primaryHeader
  exact fun _ => rfl

/-! ## The bundle that was sent -/

/-- The fragment offset `Forward` leaves in the header of a bundle with this ADU. -/
def sentOffset (s : BpAgent6) (h : BpHeader6) (adu : Packet) : UInt32 :=
  if adu.size = 0 then h.fragOffset
  else UInt32.ofNat ((adu.size - 1) / s.config.bundleSize.toNat * s.config.bundleSize.toNat)

/-- What sending does to the bundle: `x'` is what `x` has become. -/
structure SentBundle (s : BpAgent6) (adu : Packet) (x x' : Bundle6) : Prop where
  header : x.primaryHeader.SameBundle x'.primaryHeader
  fragOffset : x'.primaryHeader.fragOffset = s.sentOffset x.primaryHeader adu
  adu : x'.adu = x.adu
  retentionConstraints : x'.retentionConstraints =
    (x.retentionConstraints ||| forwardPending) &&& ~~~dispatchPending &&& ~~~forwardPending
  expireEvent : x'.expireEvent = x.expireEvent
  nextRetrans : x'.nextRetrans =
    if x.primaryHeader.custTxReq then some s.sim.nextUid else x.nextRetrans
  acks : x'.acks = x.acks

theorem heap_handOver (s : BpAgent6) (b : Ptr) (cla : ClaId) (dst : BpEndpointId) (fragment : Bool)
    (adu : Packet) (ps : List (ℕ × ℕ)) : (s.handOver b cla dst fragment adu ps).heap =
      (s.modify b (lastStamp fragment ps)).heap := rfl

theorem heap_withRetransmission_of_ne (h : x ≠ b) :
    (s.withRetransmission b).heap x = s.heap x := by
  unfold withRetransmission
  split
  · exact Function.update_of_ne h ..
  · rfl

theorem heap_withRetransmission_self (s : BpAgent6) (b : Ptr) :
    (s.withRetransmission b).heap b = { s.heap b with
      nextRetrans := if (s.header b).custTxReq then some s.sim.nextUid
        else (s.heap b).nextRetrans } := by
  unfold withRetransmission
  split
  · exact Function.update_self ..
  · rfl

theorem heap_sent_of_ne {adu : Packet} (h : x ≠ b) : (s.sent b cla adu).heap x = s.heap x := by
  unfold sent unflagged transmitted
  rw [heap_modify_of_ne _ h, heap_handOver, heap_modify_of_ne _ h, heap_withRetransmission_of_ne h]
  exact heap_modify_of_ne s h _

theorem sameBundle_stamp (n o : ℕ) (fragment : Bool) (x : Bundle6) :
    x.primaryHeader.SameBundle (stamp n o fragment x).primaryHeader :=
  ((BpHeader6.sameBundle_setBlockLength _ _).trans (BpHeader6.sameBundle_setIsFragment _ _)).trans
    (BpHeader6.sameBundle_setFragOffset _ _)

theorem getLast?_pieces {adu : Packet} (hm : s.config.bundleSize ≠ 0) (hpos : adu.size ≠ 0) :
    ∃ n, (s.pieces adu).getLast? = some
      ((adu.size - 1) / s.config.bundleSize.toNat * s.config.bundleSize.toNat, n) := by
  have hm' : 0 < s.config.bundleSize.toNat :=
    Nat.pos_of_ne_zero fun he => hm (UInt32.toNat_inj.mp he)
  have hlast := getLast?_chunks hm' adu.size 0 (Nat.pos_of_ne_zero hpos) (Nat.le_refl _)
  rw [Nat.zero_add] at hlast
  exact ⟨_, hlast⟩

/-- **The stored bundle after it was sent.** -/
theorem sentBundle {adu : Packet} (s : BpAgent6) (b : Ptr) (cla : ClaId)
    (hm : s.config.bundleSize ≠ 0 ∨ adu.size = 0) :
    SentBundle s adu (s.heap b) ((s.sent b cla adu).heap b) := by
  have hflagged : (s.flagged b).heap b = _ := heap_modify_self s b _
  have hheader : (s.flagged b).header b = s.header b := s.header_flagged b b
  have hbundle : (s.sent b cla adu).heap b = _ := heap_modify_self _ b _
  unfold transmitted at hbundle
  rw [heap_handOver, heap_modify_self, heap_withRetransmission_self, hheader, hflagged] at hbundle
  by_cases hzero : adu.size = 0
  · have hpieces : (s.flagged b).pieces adu = [] := by
      unfold pieces
      rw [hzero, chunks_zero]
    rw [hpieces] at hbundle
    rw [hbundle]
    exact ⟨.refl _, by rw [sentOffset, if_pos hzero]; rfl, rfl, rfl, rfl, rfl, rfl⟩
  · have hm' : (s.flagged b).config.bundleSize ≠ 0 := hm.resolve_right hzero
    obtain ⟨n, hlast⟩ := getLast?_pieces hm' hzero
    unfold lastStamp at hbundle
    rw [hlast] at hbundle
    rw [hbundle]
    exact ⟨sameBundle_stamp _ _ _ _, by rw [sentOffset, if_neg hzero]; rfl, rfl, rfl, rfl, rfl, rfl⟩

theorem header_sent {adu : Packet} (hm : s.config.bundleSize ≠ 0 ∨ adu.size = 0) (x : Ptr) :
    (s.header x).SameBundle ((s.sent b cla adu).header x) := by
  by_cases hx : x = b
  · subst hx
    exact (s.sentBundle x cla hm).header
  · rw [BundleStore.header_congr (heap_sent_of_ne hx)]
    exact .refl _

/-- What sending leaves of the sent bundle it leaves of every bundle. -/
theorem field_heap_sent {α : Type} (g : Bundle6 → α) {adu : Packet}
    (hself : g ((s.sent b cla adu).heap b) = g (s.heap b)) (x : Ptr) :
    g ((s.sent b cla adu).heap x) = g (s.heap x) := by
  by_cases hx : x = b
  · subst hx
    exact hself
  · rw [heap_sent_of_ne hx]

theorem adu_sent {adu : Packet} (hm : s.config.bundleSize ≠ 0 ∨ adu.size = 0) (x : Ptr) :
    ((s.sent b cla adu).heap x).adu = (s.heap x).adu :=
  field_heap_sent Bundle6.adu (s.sentBundle b cla hm).adu x

theorem aduSize_sent {adu : Packet} (hm : s.config.bundleSize ≠ 0 ∨ adu.size = 0) (x : Ptr) :
    (s.sent b cla adu).aduSize x = s.aduSize x :=
  BundleStore.aduSize_congr (adu_sent hm x)

/-- The rest of the state, apart from the events and the log of transmissions. -/
theorem rest_sent (s : BpAgent6) (b : Ptr) (cla : ClaId) (adu : Packet) :
    (s.sent b cla adu).mStore = s.mStore ∧ (s.sent b cla adu).storedBytes = s.storedBytes ∧
      (s.sent b cla adu).config = s.config ∧ (s.sent b cla adu).seq = s.seq ∧
      (s.sent b cla adu).signals = s.signals ∧ (s.sent b cla adu).delivered = s.delivered := by
  unfold sent unflagged transmitted handOver withRetransmission
  split <;> exact ⟨rfl, rfl, rfl, rfl, rfl, rfl⟩

theorem sim_sent (s : BpAgent6) (b : Ptr) (cla : ClaId) (adu : Packet) :
    (s.sent b cla adu).sim = if (s.header b).custTxReq then
      s.sim.schedule s.config.ctRto (.forward b) else s.sim := by
  have hheader : (s.flagged b).header b = s.header b := s.header_flagged b b
  unfold sent unflagged transmitted handOver withRetransmission
  rw [hheader]
  split <;> rfl

theorem transmission_congr {adu : Packet} (hsim : t.sim.now = s.sim.now)
    (hconfig : t.config = s.config) (hheader : t.header b = s.header b)
    (hpayload : (t.heap b).payloadHeader = (s.heap b).payloadHeader) (fragment : Bool) :
    t.transmission b cla dst fragment adu = s.transmission b cla dst fragment adu := by
  unfold BundleStore.header at hheader
  funext p
  simp [transmission, stamp, getEidAddress, hsim, hconfig, hheader, hpayload]

theorem handed_sent (s : BpAgent6) (b : Ptr) (cla : ClaId) (adu : Packet) :
    (s.sent b cla adu).handed = s.handed ++ (s.pieces adu).map
      (s.transmission b cla (s.header b).getDestinationEid (s.fragmenting adu) adu) := by
  have hheap := (s.flagged b).heap_withRetransmission_self b
  have hbundle : (s.flagged b).heap b = _ := heap_modify_self s b _
  have hlog : (s.sent b cla adu).handed = ((s.flagged b).withRetransmission b).handed ++
      (s.pieces adu).map (((s.flagged b).withRetransmission b).transmission b cla
        (s.header b).getDestinationEid (s.fragmenting adu) adu) := rfl
  rw [hlog, transmission_congr (s := s)]
  · congr 1
    unfold withRetransmission
    split <;> rfl
  · unfold withRetransmission
    split <;> rfl
  · exact (s.flagged b).config_withRetransmission b
  · show Bundle6.primaryHeader _ = _
    rw [hheap, hbundle]
    rfl
  · rw [hheap, hbundle]

theorem wrapUp_eq_some : s.wrapUp b = some t ↔
    (((s.unflagged b).heap b).retentionConstraints ≠ 0 ∧ t = s.unflagged b) ∨
      (((s.unflagged b).heap b).retentionConstraints = 0 ∧ (s.unflagged b).Ordered ∧
        (b ∈ s.mStore → ((s.unflagged b).heap b).adu ≠ none) ∧
        t = (s.unflagged b).discarded b) := by
  have hunfold : s.wrapUp b = if ((s.unflagged b).heap b).retentionConstraints = 0 then
      ((s.unflagged b).removeFromStore b).bind fun u => some (u.dispose b)
    else some (s.unflagged b) := rfl
  rw [hunfold]
  by_cases hzero : ((s.unflagged b).heap b).retentionConstraints = 0
  · rw [if_pos hzero, Option.bind_eq_some_iff]
    simp only [removeFromStore_eq_some, hzero, ne_eq, not_true, false_and, false_or, true_and]
    constructor
    · rintro ⟨u, ⟨hord, hadu, rfl⟩, ht⟩
      exact ⟨hord, hadu, (Option.some.inj ht).symm⟩
    · rintro ⟨hord, hadu, rfl⟩
      exact ⟨_, ⟨hord, hadu, rfl⟩, rfl⟩
  · simp [hzero, eq_comm]

/-- `Forward` as its steps, with what the first one does not change read off the old state. -/
theorem forward_eq (s : BpAgent6) (b : Ptr) : s.forward b =
    (s.readyCla b).elim (some (s.flagged b)) fun cla =>
      ((s.flagged b).transmit b cla (s.header b).getDestinationEid).bind fun u => u.wrapUp b := by
  have hready : (s.flagged b).readyCla b = s.readyCla b := by
    unfold readyCla
    rw [header_flagged]
    rfl
  have hunfold : s.forward b = ((s.flagged b).readyCla b).elim (some (s.flagged b)) fun cla =>
      ((s.flagged b).transmit b cla ((s.flagged b).header b).getDestinationEid).bind
        fun u => u.wrapUp b := by
    unfold forward flagged
    dsimp only
    split
    · next hcla =>
      rw [hcla]
      rfl
    · next hcla =>
      rw [hcla]
      rfl
  rw [hunfold, hready, header_flagged]

/-- **What `Forward` can do**: leave the bundle waiting, send and keep it, or send and
remove it. -/
theorem forward_eq_some : s.forward b = some t ↔
    (s.readyCla b = none ∧ t = s.flagged b) ∨
      ∃ cla adu, s.readyCla b = some cla ∧ (s.heap b).adu = some adu ∧
        (s.config.bundleSize ≠ 0 ∨ adu.size = 0) ∧
        ((((s.sent b cla adu).heap b).retentionConstraints ≠ 0 ∧ t = s.sent b cla adu) ∨
          (((s.sent b cla adu).heap b).retentionConstraints = 0 ∧ (s.sent b cla adu).Ordered ∧
            t = (s.sent b cla adu).discarded b)) := by
  have hadu_flagged : ((s.flagged b).heap b).adu = (s.heap b).adu := by
    simp [flagged, modify]
  rw [forward_eq]
  cases s.readyCla b with
  | none => simp [eq_comm]
  | some cla =>
    simp only [Option.elim_some, Option.bind_eq_some_iff, transmit_eq_some, wrapUp_eq_some,
      hadu_flagged]
    constructor
    · rintro ⟨u, ⟨adu, hadu, hm, rfl⟩, hwrap⟩
      refine Or.inr ⟨cla, adu, rfl, hadu, hm, ?_⟩
      rcases hwrap with ⟨hne, rfl⟩ | ⟨hzero, hord, -, rfl⟩
      · exact Or.inl ⟨hne, rfl⟩
      · exact Or.inr ⟨hzero, hord, rfl⟩
    · rintro (⟨hnone, -⟩ | ⟨cla', adu, hcla, hadu, hm, hwrap⟩)
      · cases hnone
      · cases hcla
        refine ⟨_, ⟨adu, hadu, hm, rfl⟩, ?_⟩
        rcases hwrap with ⟨hne, rfl⟩ | ⟨hzero, hord, rfl⟩
        · exact Or.inl ⟨hne, rfl⟩
        · refine Or.inr ⟨hzero, hord, fun _ => ?_, rfl⟩
          have hsent : ((s.sent b cla adu).heap b).adu = some adu :=
            (s.sentBundle b cla hm).adu.trans hadu
          rw [sent] at hsent
          rw [hsent]
          exact Option.some_ne_none adu

/-- What `Forward` on the bundle at `b` leaves alone. -/
structure ForwardFrame (s : BpAgent6) (b : Ptr) (t : BpAgent6) : Prop where
  heap : ∀ x, x ≠ b → t.heap x = s.heap x
  mStore : t.mStore = s.mStore ∨ t.mStore = s.mStore.erase b
  config : t.config = s.config
  seq : t.seq = s.seq
  now : t.sim.now = s.sim.now
  signals : t.signals = s.signals
  header : ∀ x, (s.header x).SameBundle (t.header x)

theorem forward_frame (hrun : s.forward b = some t) : ForwardFrame s b t := by
  rcases forward_eq_some.mp hrun with ⟨-, rfl⟩ | ⟨cla, adu, -, -, hm, hcase⟩
  · refine ⟨fun x hx => heap_modify_of_ne s hx _, Or.inl rfl, rfl, rfl, rfl, rfl, fun x => ?_⟩
    rw [header_flagged]
    exact .refl _
  · obtain ⟨hstore, -, hconfig, hseq, hsignals, -⟩ := s.rest_sent b cla adu
    have hnow : (s.sent b cla adu).sim.now = s.sim.now := by
      rw [sim_sent]
      split <;> rfl
    rcases hcase with ⟨-, rfl⟩ | ⟨-, -, rfl⟩
    · exact ⟨fun x hx => heap_sent_of_ne hx, Or.inl hstore, hconfig, hseq, hnow, hsignals,
        header_sent hm⟩
    · refine ⟨fun x hx => ?_, Or.inr ?_, hconfig, hseq, ?_, hsignals, fun x => ?_⟩
      · exact (Memory.heap_doDispose_of_ne _ hx).trans (heap_sent_of_ne hx)
      · show (s.sent b cla adu).mStore.erase b = s.mStore.erase b
        rw [hstore]
      · exact (Memory.now_doDispose _ b).trans ((Memory.now_clearEvents _ b).trans hnow)
      · have hheader : ((s.sent b cla adu).discarded b).header x = (s.sent b cla adu).header x :=
          Memory.primaryHeader_doDispose ((s.sent b cla adu).removed b).toMemory b x
        rw [hheader]
        exact header_sent hm x

theorem ForwardFrame.mem_iff (h : ForwardFrame s b t) (hx : x ≠ b) : x ∈ t.mStore ↔ x ∈ s.mStore := by
  rcases h.mStore with heq | heq
  · rw [heq]
  · rw [heq, List.mem_erase_of_ne hx]

theorem ForwardFrame.sublist (h : ForwardFrame s b t) : t.mStore.Sublist s.mStore := by
  rcases h.mStore with heq | heq
  · rw [heq]
  · rw [heq]
    exact List.erase_sublist

end BpAgent6
end BundleProtocol
