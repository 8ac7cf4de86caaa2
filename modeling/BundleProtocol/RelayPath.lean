import BundleProtocol.EndToEnd
import BundleProtocol.SendOutcome
import BundleProtocol.StoreOrder

/-! # Along a path of relays

A bundle whose destination is registered at the end of a path of agents.  When its ADU fits one bundle
of every agent on the path, each relay passes it on as the bundle that it was, and the
application at the end receives the ADU (`delivered_along_path`).  The relays may hold whatever other
bundles they like, in order, and so may the receiver, but for bundles to the same destination.  An
agent that cuts the ADU is another matter: see `Relay` for what becomes of fragments.
-/
namespace BundleProtocol
open Tiling FlagWord

/-- Stamping a stamped header. -/
theorem pieceHeader_pieceHeader (hdr : BpHeader6) (fragment fragment' : Bool) (r r' : ℕ × ℕ) :
    pieceHeader (pieceHeader hdr fragment r) fragment' r' = pieceHeader hdr fragment' r' := by
  unfold pieceHeader BpHeader6.setIsFragment BpHeader6.setBlockLength BpHeader6.setFragOffset
  simp only [assign_assign]

namespace BpAgent6
variable {s t u r : BpAgent6} {b : Ptr} {p : Packet} {src dst : BpEndpointId} {hdr : BpHeader6}
  {tx : Transmission} {d : Datagram} {seq : UInt32} {now : Time}

/-- The agent is no destination of `dst`, and passes on `n` bytes for it in one bundle. -/
structure PassesOn (s : BpAgent6) (dst : BpEndpointId) (n : ℕ) : Prop where
  orderly : s.Orderly
  remote : s.isNodeMember dst = false
  route : ∃ cla, s.outgoingCla dst = some cla ∧ s.config.isReady cla = true
  fits : n ≤ s.config.bundleSize.toNat

/-- An application of the agent is registered for `dst`, and no stored bundle is for it. -/
structure Awaits (s : BpAgent6) (dst : BpEndpointId) : Prop where
  orderly : s.Orderly
  active : s.findRegistration dst = some true
  other : dst.uri ≠ s.config.eid.uri
  hidden : s.Hidden dst

/-- What is known of a bundle on its way: its header and that it carries all of the ADU. -/
structure UnderWay (hdr : BpHeader6) (p : Packet) (dst : BpEndpointId) (seq : UInt32) (now : Time) :
    Prop where
  header : NewHeader p.size 0 false now seq hdr
  readable : hdr.Readable
  seq : seq.toNat < 2 ^ 31
  destination : hdr.getDestinationEid.uri = dst.uri
  pos : 0 < p.size
  size : p.size < 2 ^ 28

/-- Whatever packet carries the bundle: each agent of the path takes it in and hands over one bundle, and
when the last of these arrives at `r`, an application there receives the ADU `p` under `dst`. -/
def DeliversAlong (r : BpAgent6) (dst : BpEndpointId) (p : Packet) :
    List BpAgent6 → Transmission → Prop
  | [], tx => ∀ d : Datagram, d.Carries tx → r.Fresh d.ptr →
    ∃ t u, r.receiveDatagram d = some t ∧ t.receive dst = some (u, some p)
  | s :: path, tx => ∀ d : Datagram, d.Carries tx → s.Fresh d.ptr →
    ∃ t tx', s.receiveDatagram d = some t ∧ t.handed = s.handed ++ [tx'] ∧
      DeliversAlong r dst p path tx'

/-! ## One arrival -/

theorem isNodeMember_congr {eid eid' : BpEndpointId} (huri : eid.uri = eid'.uri) :
    s.isNodeMember eid = s.isNodeMember eid' := by
  have hbeq : ∀ a : BpEndpointId, (a == eid) = (a == eid') := by
    intro a
    rw [Bool.eq_iff_iff, BpEndpointId.beq_iff, BpEndpointId.beq_iff, huri]
  unfold isNodeMember
  simp only [hbeq]

/-- An ADU that fits is one piece. -/
theorem pieces_of_fits (hpos : 0 < p.size) (hfits : p.size ≤ s.config.bundleSize.toNat) :
    s.pieces p = [(0, p.size)] ∧ s.fragmenting p = false :=
  ⟨chunks_of_le 0 hpos hfits (Nat.le_refl _), decide_eq_false (Nat.not_lt.mpr hfits)⟩

/-- The bundle that arrives. -/
def UnderWay.bundle (h : UnderWay hdr p dst seq now) : ReceivedBundle :=
  pieceBundle hdr h.readable false p (0, p.size)

/-- **The bundle is accepted** as it was sent, in any orderly store. -/
theorem UnderWay.accepted (h : UnderWay hdr p dst seq now) (hs : s.Orderly) (hb : b ∉ s.mStore) :
    ∃ u, s.acceptBundle b h.bundle = some u ∧ u.Orderly ∧ b ∈ u.mStore ∧ u.config = s.config ∧
      u.handed = s.handed ∧ (u.header b).getDestinationEid.uri = dst.uri ∧
      (u.heap b).adu = some p := by
  have hlife : h.bundle.header.lifeTime = 0 := h.header.lifeTime
  have hseq : h.bundle.header.timestampSeqNum.toNat < 2 ^ 31 :=
    (congrArg UInt32.toNat h.header.timestampSeqNum).trans_lt h.seq
  have harrived : (s.arrived b h.bundle).Orderly := hs.of_sameKeys (sameKeys_modify_of_not_mem hb _)
  have haccept := acceptBundle_of_lifeTime hlife harrived.ordered
  obtain ⟨hconfig, -, -, hhanded, -⟩ := rest_acceptBundle haccept
  refine ⟨_, haccept, hs.acceptBundle hb hseq haccept, BundleStore.mem_stored.mpr (Or.inl rfl),
    hconfig, hhanded, ?_, ?_⟩
  · rw [header_acceptBundle haccept]
    exact h.destination
  · rw [adu_acceptBundle haccept]
    exact congrArg some p.piece_size

/-- What arrives is processed. -/
theorem UnderWay.receiveDatagram (h : UnderWay hdr p dst seq now)
    (htx : tx.OfPiece hdr false p (0, p.size)) (hd : d.Carries tx) :
    s.receiveDatagram d = s.processBundle d.ptr d.signal h.bundle := by
  rw [BpAgent6.receiveDatagram, hd.dataRecv htx h.header.cbhe h.header.lifeTime h.readable h.size]
  rfl

/-- **A whole bundle is forwarded** as one bundle, and nobody keeps it. -/
theorem Orderly.forward_whole {cla : ClaId} (hu : u.Orderly) (hready : u.readyCla b = some cla)
    (hadu : (u.heap b).adu = some p) (hpending : (u.heap b).retentionConstraints = dispatchPending)
    (hoffset : (u.header b).fragOffset = 0) (hpos : 0 < p.size)
    (hfits : p.size ≤ u.config.bundleSize.toNat) :
    u.forward b = some ((u.sent b cla p).discarded b) ∧ (u.sent b cla p).handed =
      u.handed ++ [u.transmission b cla (u.header b).getDestinationEid false p (0, p.size)] := by
  have hm : u.config.bundleSize ≠ 0 := by
    intro hzero
    rw [hzero] at hfits
    exact absurd hfits (Nat.not_le_of_lt hpos)
  have hdone : ((u.sent b cla p).heap b).retentionConstraints = 0 := by
    rw [(u.sentBundle b cla (Or.inl hm)).retentionConstraints, hpending]
    decide
  -- its only piece starts at zero, as the bundle did
  have hplace : u.KeepsPlace b := by
    refine keepsPlace_of_fits hoffset fun adu hadu' => ?_
    cases hadu.symm.trans hadu'
    exact hfits
  have hord : (u.sent b cla p).Ordered := (hu.sent (Or.inl hm) (hplace cla p hready hadu)).ordered
  obtain ⟨hpieces, hfragmenting⟩ := pieces_of_fits hpos hfits
  refine ⟨forward_eq_some.mpr (Or.inr ⟨cla, p, hready, hadu, Or.inl hm, Or.inr ⟨hdone, hord, rfl⟩⟩), ?_⟩
  rw [handed_sent, hpieces, hfragmenting, List.map_singleton]

/-- **A relay** hands over the bundle that it took in. -/
theorem PassesOn.relays (hs : s.PassesOn dst p.size) (h : UnderWay hdr p dst seq now)
    (htx : tx.OfPiece hdr false p (0, p.size)) (hd : d.Carries tx) (hb : s.Fresh d.ptr) :
    ∃ t tx', s.receiveDatagram d = some t ∧ t.handed = s.handed ++ [tx'] ∧
      tx'.OfPiece hdr false p (0, p.size) := by
  obtain ⟨u, haccept, horderly, -, hconfig, hhanded, huri, hadu⟩ := h.accepted hs.orderly hb.1
  have hheader : u.header d.ptr = pieceHeader hdr false (0, p.size) := header_acceptBundle haccept
  obtain ⟨id, hself⟩ := heap_acceptBundle haccept
  have hremote : u.isNodeMember (u.header d.ptr).getDestinationEid = false := by
    rw [isNodeMember_congr huri, isNodeMember, hconfig]
    exact hs.remote
  obtain ⟨cla, hcla, hclaReady⟩ := hs.route
  have hready : u.readyCla d.ptr = some cla := by
    rw [readyCla, outgoingCla_congr huri, outgoingCla, hconfig]
    exact Option.filter_eq_some_iff.mpr ⟨hcla, hclaReady⟩
  obtain ⟨hforward, hsent⟩ := horderly.forward_whole hready hadu (by rw [hself]; rfl)
    (by rw [hheader]; rfl) h.pos (hconfig ▸ hs.fits)
  refine ⟨(u.sent d.ptr cla p).discarded d.ptr,
    u.transmission d.ptr cla (u.header d.ptr).getDestinationEid false p (0, p.size), ?_, ?_,
    ⟨?_, ?_, rfl, Nat.le_of_eq (Nat.zero_add _)⟩⟩
  · rw [h.receiveDatagram htx hd]
    exact processBundle_eq_some.mpr ⟨u, haccept, Or.inr ⟨hremote, hforward⟩⟩
  · show (u.sent d.ptr cla p).handed = _
    rw [hsent, hhanded]
  · have hstamped : pieceHeader (u.header d.ptr) false (0, p.size) =
        pieceHeader hdr false (0, p.size) := by
      rw [hheader, pieceHeader_pieceHeader]
    exact hstamped
  · unfold transmission
    rw [hself]
    rfl

/-- **The receiver** returns the ADU. -/
theorem Awaits.receives (hr : r.Awaits dst) (h : UnderWay hdr p dst seq now)
    (htx : tx.OfPiece hdr false p (0, p.size)) (hd : d.Carries tx) (hb : r.Fresh d.ptr) :
    ∃ t u, r.receiveDatagram d = some t ∧ t.receive dst = some (u, some p) := by
  obtain ⟨u, haccept, horderly, hmem, hconfig, -, huri, hadu⟩ := h.accepted hr.orderly hb.1
  have hheader : u.header d.ptr = pieceHeader hdr false (0, p.size) := header_acceptBundle haccept
  have hwhole : (u.header d.ptr).isFragment = false := by
    rw [hheader]
    exact BpHeader6.isFragment_setIsFragment _ _
  have hcust : h.bundle.header.custTxReq = false :=
    (BpHeader6.custTxReq_setIsFragment _ _).trans h.header.custTxReq
  have hactive : r.findRegistration h.bundle.header.getDestinationEid = some true :=
    (findRegistration_congr h.destination).trans hr.active
  have hother : (h.bundle.header.getDestinationEid == r.config.eid) = false :=
    BpEndpointId.beq_eq_false_iff.mpr fun heq => hr.other (h.destination.symm.trans heq)
  -- a whole bundle is matched with none
  have hmatch : (u.logged d.ptr).matchFragments d.ptr = some (u.logged d.ptr) := by
    have hmark : ((u.logged d.ptr).header d.ptr).isFragment = false := hwhole
    unfold matchFragments
    rw [hmark]
    rfl
  have hfind : (u.logged d.ptr).deliverable dst false = some d.ptr := by
    obtain ⟨x, hx⟩ : ∃ x, (u.logged d.ptr).deliverable dst false = some x := by
      refine Option.isSome_iff_exists.mp (List.find?_isSome.mpr ⟨d.ptr, hmem, ?_⟩)
      have hdst : ((u.header d.ptr).getDestinationEid == dst) = true := BpEndpointId.beq_iff.mpr huri
      have hmark : (!((u.logged d.ptr).header d.ptr).isFragment || false) = true := by
        rw [show ((u.logged d.ptr).header d.ptr).isFragment = false from hwhole]
        rfl
      exact Bool.and_eq_true_iff.mpr ⟨hdst, hmark⟩
    have hxmem : x ∈ u.mStore := List.mem_of_find?_eq_some hx
    have htest := List.find?_some hx
    rw [Bool.and_eq_true, BpEndpointId.beq_iff] at htest
    -- no other bundle is for this destination
    have hxb : x = d.ptr := by
      by_contra hxb
      have hold := (mem_acceptBundle haccept hxmem).resolve_right fun hself => hxb hself.1
      refine hr.hidden x hold ?_
      have hsame : u.header x = r.header x := congrArg _ (heap_acceptBundle_of_ne haccept hxb)
      rw [← hsame]
      exact htest.1
    rw [hx, hxb]
  refine ⟨u.logged d.ptr, _, ?_, receive_eq_some.mpr
    (Or.inr ⟨d.ptr, p, hfind, horderly.ordered, hadu, rfl, rfl⟩)⟩
  rw [h.receiveDatagram htx hd]
  exact (processBundle_active hactive hother).mpr
    ⟨u, u.logged d.ptr, haccept, hmatch, Or.inl ⟨hcust, rfl⟩⟩

/-! ## The path -/

/-- Along the path it is one bundle after another that carries the ADU. -/
theorem deliversAlong_of_underWay {path : List BpAgent6} (h : UnderWay hdr p dst seq now)
    (hpath : ∀ s ∈ path, s.PassesOn dst p.size) (hr : r.Awaits dst)
    (htx : tx.OfPiece hdr false p (0, p.size)) : DeliversAlong r dst p path tx := by
  induction path generalizing tx with
  | nil => exact fun d hd hb => hr.receives h htx hd hb
  | cons s path ih =>
    intro d hd hb
    obtain ⟨t, tx', ht, hhanded, htx'⟩ := (hpath s List.mem_cons_self).relays h htx hd hb
    exact ⟨t, tx', ht, hhanded, ih (fun v hv => hpath v (List.mem_cons_of_mem s hv)) htx'⟩

/-- **What is sent along a path of relays is received at its end**, when the ADU fits one bundle of
every agent that sends it. -/
theorem delivered_along_path {path : List BpAgent6} {priority : UInt32} {txs : List Transmission}
    (hpos : 0 < p.size) (hsize : p.size < 2 ^ 28) (hseq : s.seq.toNat < 2 ^ 31)
    (hsend : s.send b p src dst 0 false priority = some (t, 0))
    (hhanded : t.handed = s.handed ++ txs) (hready : txs ≠ [])
    (hfits : p.size ≤ s.config.bundleSize.toNat) (hback : ReadBack src dst)
    (hpath : ∀ u ∈ path, u.PassesOn dst p.size) (hr : r.Awaits dst) :
    ∃ tx, txs = [tx] ∧ DeliversAlong r dst p path tx := by
  obtain ⟨hdr, hnew, -, hpieces⟩ := handed_send hpos hsend hhanded hready
  obtain ⟨hread, hshown⟩ := newHeader_destination hnew
  obtain ⟨hone, hwhole⟩ := pieces_of_fits (s := s) hpos hfits
  rw [hone, hwhole] at hpieces
  cases hpieces with
  | cons htx hrest =>
    cases hrest
    refine ⟨_, rfl, deliversAlong_of_underWay ⟨newHeader_spec hnew, hread, hseq, ?_, hpos, hsize⟩
      hpath hr htx⟩
    exact Option.some.inj (hshown.symm.trans hback)

/-- Three bytes on their way through two relays. -/
theorem delivered_along_path_sample :
    ∃ t tx, (Sample.agent 10 true).send 1 Sample.threeBytes (Sample.eid 98) (Sample.eid 97) 0 false 0 =
        some (t, 0) ∧ t.handed = [tx] ∧
      DeliversAlong (Sample.receiver 99) (Sample.eid 97) Sample.threeBytes
        [Sample.agent 10 true, Sample.agent 10 true] tx := by
  obtain ⟨⟨t, code⟩, hsend, htest⟩ := (Option.any_eq_true (fun x : BpAgent6 × ℤ =>
    decide (x.2 = 0 ∧ x.1.handed ≠ [])) _).mp
    (by decide +kernel : ((Sample.agent 10 true).send 1 Sample.threeBytes (Sample.eid 98)
      (Sample.eid 97) 0 false 0).any _ = true)
  obtain ⟨hcode, hready⟩ := of_decide_eq_true htest
  dsimp only at hcode hready
  subst hcode
  have hrelay : (Sample.agent 10 true).PassesOn (Sample.eid 97) Sample.threeBytes.size :=
    ⟨orderly_of_empty rfl, by decide +kernel, ⟨0, by decide +kernel, by decide +kernel⟩, by decide⟩
  have hreceiver : (Sample.receiver 99).Awaits (Sample.eid 97) := by
    refine ⟨orderly_of_empty rfl, by decide +kernel, by decide, fun x hx => ?_⟩
    cases hx
  have hpath : ∀ u ∈ [Sample.agent 10 true, Sample.agent 10 true],
      u.PassesOn (Sample.eid 97) Sample.threeBytes.size := by
    intro u hu
    rcases List.mem_cons.mp hu with rfl | hu
    · exact hrelay
    · rw [List.mem_singleton.mp hu]
      exact hrelay
  obtain ⟨tx, htx, hdelivers⟩ := delivered_along_path (by decide) (by decide) (by decide) hsend rfl
    hready (by decide) (by decide +kernel) hpath hreceiver
  exact ⟨t, tx, hsend, htx, hdelivers⟩

end BpAgent6
end BundleProtocol
