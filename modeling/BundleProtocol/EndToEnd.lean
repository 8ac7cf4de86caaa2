import BundleProtocol.Dictionary
import BundleProtocol.Reassembly

/-! # From `Send` to `Receive`

One agent sends an ADU, the datagrams reach another agent in order, and an application there
calls `Receive` for the destination.  The receiver gets the headers and the pieces that were
sent (`exists_arrivals`), in order, so that no fragment is lost in between; the ADU comes out
unless the destination is the receiver's own endpoint id, whose bundles are taken for
administrative records, or cannot be read back from the header (`end_to_end_iff`).
-/
namespace BundleProtocol
open Tiling

/-! ## The link -/

/-- A packet that arrives, with the addresses of the bundle that `DataRecv` builds from it and
of a signal about it. -/
structure Datagram where
  ptr : Ptr
  signal : Ptr
  packet : Packet

/-- The packet is what `SendBundle` made of the transmission, whatever the space reserved for
the payload header held. -/
def Datagram.Carries (d : Datagram) (tx : Transmission) : Prop :=
  ∃ reserved : List UInt8, reserved.length = 6 ∧ d.packet.bytes = tx.wire reserved

/-- The header that `Forward` sends with one piece of an ADU. -/
def pieceHeader (hdr : BpHeader6) (fragment : Bool) (r : ℕ × ℕ) : BpHeader6 :=
  ((hdr.setBlockLength (UInt32.ofNat r.2)).setIsFragment fragment).setFragOffset (UInt32.ofNat r.1)

/-- The payload header that `Forward` sends with it. -/
def piecePayloadHeader (r : ℕ × ℕ) : BpBlockHeader6 :=
  (BpBlockHeader6.new BpBlockHeader6.bundlePayloadBlock).setBlockLength (UInt32.ofNat r.2)

/-- The bundle that arrives with it. -/
def pieceBundle (hdr : BpHeader6) (hread : hdr.Readable) (fragment : Bool) (p : Packet)
    (r : ℕ × ℕ) : ReceivedBundle :=
  ⟨pieceHeader hdr fragment r, piecePayloadHeader r, p.piece r.1 r.2,
    BpHeader6.Readable.onArrival (h := pieceHeader hdr fragment r) hread⟩

/-- The transmission is of this piece. -/
structure Transmission.OfPiece (tx : Transmission) (hdr : BpHeader6) (fragment : Bool) (p : Packet)
    (r : ℕ × ℕ) : Prop where
  header : tx.header = pieceHeader hdr fragment r
  payloadHeader : tx.payloadHeader = piecePayloadHeader r
  payload : tx.payload = p.piece r.1 r.2
  le : r.1 + r.2 ≤ p.size

/-- **One datagram**: `DataRecv` builds the piece that was sent. -/
theorem Datagram.Carries.dataRecv {d : Datagram} {tx : Transmission} {hdr : BpHeader6}
    {fragment : Bool} {p : Packet} {r : ℕ × ℕ} (hd : d.Carries tx)
    (htx : tx.OfPiece hdr fragment p r) (hcbhe : hdr.cbhe = false) (hlife : hdr.lifeTime = 0)
    (hread : hdr.Readable) (hsize : p.size < 2 ^ 28) :
    BundleProtocol.dataRecv false d.packet.bytes = some (pieceBundle hdr hread fragment p r) := by
  obtain ⟨reserved, hreserved, hbytes⟩ := hd
  have hdict := tx.length_dictionary_lt hbytes
  have hfit : tx.payloadHeader.serialize.length ≤ 6 := by
    rw [htx.payloadHeader]
    refine BpBlockHeader6.length_serialize_le (show (0 : UInt8).toNat < 2 ^ 7 by decide) ?_
    have hle := htx.le
    have hlt : r.2 < 2 ^ 28 := by omega
    show (UInt32.ofNat r.2).toNat < 2 ^ 28
    rwa [UInt32.toNat_ofNat_of_lt' (Nat.lt_trans hlt (by decide))]
  have hcbhe' : tx.header.cbhe = false := by
    rw [htx.header]
    exact hcbhe
  have hlife' : tx.header.lifeTime = seconds 0 := by
    rw [htx.header]
    exact hlife
  have hread' : tx.header.Readable := by
    rw [htx.header]
    exact hread
  rw [hbytes, dataRecv_wire hcbhe' hlife' (by decide) hdict hread' hfit hreserved]
  simp only [pieceBundle, htx.header, htx.payloadHeader, htx.payload]

namespace BpAgent6
variable {s t u r : BpAgent6} {b q x : Ptr} {p : Packet} {src dst : BpEndpointId} {hdr : BpHeader6}
  {rx : ReceivedBundle}

/-! ## The sender -/

/-- **What `Send` hands over**: one transmission for each piece of the ADU, in order. -/
theorem handed_send {custody : Bool} {priority : UInt32} {txs : List Transmission}
    (hpos : 0 < p.size) (hsend : s.send b p src dst 0 custody priority = some (t, 0))
    (hhanded : t.handed = s.handed ++ txs) (hready : txs ≠ []) :
    ∃ hdr, newHeader s.config.eid p.size src dst 0 custody priority s.sim.now s.seq = some hdr ∧
      s.config.bundleSize ≠ 0 ∧
      List.Forall₂ (fun tx r => tx.OfPiece hdr (s.fragmenting p) p r) txs (s.pieces p) := by
  rcases send_eq_some.mp hsend with ⟨-, -, hcode⟩ | ⟨-, u, hu, hforward, -⟩
  · exact absurd hcode (by decide)
  obtain ⟨hdr, id, hnew, hself⟩ := heap_createBundle hu
  obtain ⟨hconfig, hlog, -⟩ := rest_createBundle hu
  rcases forward_eq_some.mp hforward with ⟨-, rfl⟩ | ⟨cla, adu, -, hadu, hm, hcase⟩
  · -- nothing was handed over
    have hnone : s.handed = s.handed ++ txs := hlog.symm.trans hhanded
    exact absurd (List.self_eq_append_right.mp hnone) hready
  · obtain rfl : p = adu := by
      rw [hself] at hadu
      exact Option.some.inj hadu
    have hsent : t.handed = (u.sent b cla p).handed := by
      rcases hcase with ⟨-, rfl⟩ | ⟨-, -, rfl⟩
      · rfl
      · rfl
    rw [hsent, handed_sent, hlog] at hhanded
    obtain rfl := List.append_cancel_left hhanded
    have hpieces : u.pieces p = s.pieces p := by
      unfold pieces
      rw [hconfig]
    have hfragment : u.fragmenting p = s.fragmenting p := by
      unfold fragmenting
      rw [hconfig]
    have hm' : s.config.bundleSize ≠ 0 := hconfig ▸ hm.resolve_right (by omega)
    refine ⟨hdr, hnew, hm', ?_⟩
    rw [List.forall₂_map_left_iff, hpieces, hfragment, List.forall₂_same]
    intro r hr
    refine ⟨?_, ?_, rfl, ((tiles_pieces p hm').bounds hr).2.2⟩
    · unfold transmission
      rw [hself]
      rfl
    · unfold transmission
      rw [hself]
      rfl

/-! ## The receiver -/

/-- `DataRecv` and `ProcessBundle`, for one packet. -/
def receiveDatagram (s : BpAgent6) (d : Datagram) : Option BpAgent6 := do
  let rx ← dataRecv false d.packet.bytes
  s.processBundle d.ptr d.signal rx

/-- One packet after another. -/
def receiveAll (s : BpAgent6) (datagrams : List Datagram) : Option BpAgent6 :=
  datagrams.foldlM receiveDatagram s

/-- **The receiver processes the pieces**, in order. -/
theorem exists_arrivals {fragment : Bool} {datagrams : List Datagram} {txs : List Transmission}
    {ps : List (ℕ × ℕ)} (hread : hdr.Readable) (hcbhe : hdr.cbhe = false) (hlife : hdr.lifeTime = 0)
    (hsize : p.size < 2 ^ 28)
    (hcarried : List.Forall₂ Datagram.Carries datagrams txs)
    (hpieces : List.Forall₂ (fun tx r => tx.OfPiece hdr fragment p r) txs ps) :
    ∃ arrivals : List Arrival, arrivals.map Arrival.ptr = datagrams.map Datagram.ptr ∧
      arrivals.map Arrival.bundle = ps.map (pieceBundle hdr hread fragment p) ∧
      ∀ s : BpAgent6, s.receiveAll datagrams = s.processAll arrivals := by
  induction hcarried generalizing ps with
  | nil =>
    cases hpieces
    exact ⟨[], rfl, rfl, fun s => rfl⟩
  | @cons d tx datagrams txs hd _ ih =>
    cases hpieces with
    | @cons _ r _ ps htx htxs =>
      obtain ⟨arrivals, hptr, hbundle, hrun⟩ := ih htxs
      refine ⟨⟨d.ptr, d.signal, pieceBundle hdr hread fragment p r⟩ :: arrivals, ?_, ?_, fun s => ?_⟩
      · rw [List.map_cons, List.map_cons, hptr]
      · rw [List.map_cons, List.map_cons, hbundle]
      · rw [receiveAll, processAll, List.foldlM_cons, List.foldlM_cons, receiveDatagram,
          hd.dataRecv htx hcbhe hlife hread hsize]
        exact congrArg _ (funext hrun)

/-- A piece shows its range. -/
theorem piece_pieceBundle {hread : hdr.Readable} {fragment : Bool} {r : ℕ × ℕ}
    (hle : r.1 + r.2 ≤ p.size) : (pieceBundle hdr hread fragment p r).piece = r := by
  have hlt := p.size_lt_two_pow
  refine Prod.ext ?_ (Packet.size_piece hle)
  exact UInt32.toNat_ofNat_of_lt' (Nat.lt_of_le_of_lt (by omega : r.1 ≤ p.size) hlt)

/-- The pieces are fragments of the ADU, without a lifetime. -/
theorem plainFragment_pieceBundle {hread : hdr.Readable} {custody : Bool} {r : ℕ × ℕ} {seq : UInt32}
    {now : Time} (hnew : NewHeader p.size 0 custody now seq hdr) (hpos : 0 < r.2)
    (hle : r.1 + r.2 ≤ p.size) :
    PlainFragment (hdr.setIsFragment true) p (pieceBundle hdr hread true p r) where
  named := ⟨BpEndpointId.beq_self _, rfl, rfl⟩
  destination := rfl
  isFragment := BpHeader6.isFragment_setIsFragment _ _
  aduLength := hnew.aduLength
  pos := by
    show 0 < (p.piece r.1 r.2).size
    rwa [Packet.size_piece hle]
  le := by rwa [piece_pieceBundle hle]
  bytes := by
    rw [piece_pieceBundle hle]
    rfl
  processingFlags := rfl
  lifeTime := hnew.lifeTime

/-! ## Destinations that are not delivered -/

/-- No stored bundle shows `dst` as its destination. -/
def Hidden (dst : BpEndpointId) (s : BpAgent6) : Prop :=
  ∀ x ∈ s.mStore, (s.header x).getDestinationEid.uri ≠ dst.uri

/-- A hidden destination receives nothing. -/
theorem Hidden.packet_eq_none {packet : Option Packet} (h : s.Hidden dst)
    (hreceive : s.receive dst = some (t, packet)) : packet = none := by
  rcases receive_eq_some.mp hreceive with ⟨-, -, hnone⟩ | ⟨x, adu, hx, -⟩
  · exact hnone
  · have htest := List.find?_some hx
    simp only [Bool.and_eq_true, BpEndpointId.beq_iff] at htest
    exact absurd htest.1 (h x (List.mem_of_find?_eq_some hx))

/-- Without custody, processing an accepted bundle lets bundles leave the store and keeps what
they are. -/
theorem dispatch_frame (hcust : (s.header b).custTxReq = false)
    (hrun : (s.isNodeMember (s.header b).getDestinationEid = true ∧ s.deliver b q = some t) ∨
      (s.isNodeMember (s.header b).getDestinationEid = false ∧ s.forward b = some t)) :
    t.mStore.Sublist s.mStore ∧ (∀ x, (s.header x).SameBundle (t.header x)) ∧
      t.config = s.config := by
  rcases hrun with ⟨-, hdeliver⟩ | ⟨-, hforward⟩
  · rcases deliver_eq_some.mp hdeliver with ⟨-, rfl⟩ | ⟨state, v, -, hv, hsend⟩
    · exact ⟨List.Sublist.refl _, fun _ => .refl _, rfl⟩
    · have hframe := (deliveryClosed_frame s).enqueueIfActive (.refl s) hv
      have hkeys := (deliveryClosed_sameKeys s).enqueueIfActive (.refl s) hv
      rcases hsend with ⟨-, rfl⟩ | ⟨hreq, -⟩
      · exact ⟨hkeys.mStore, hframe.header, hframe.config⟩
      · rw [(hframe.header b).custTxReq, hcust] at hreq
        cases hreq
  · have hframe := forward_frame hforward
    exact ⟨hframe.sublist, hframe.header, hframe.config⟩

/-- A bundle for the agent itself is removed. -/
theorem not_mem_of_deliver_agent (hfind : s.findRegistration (s.header b).getDestinationEid = some true)
    (hagent : s.isForAgent b = true) (hcust : (s.header b).custTxReq = false)
    (hrun : s.deliver b q = some t) : b ∉ t.mStore := by
  rcases deliver_eq_some.mp hrun with ⟨hnone, -⟩ | ⟨state, v, hstate, hv, hsend⟩
  · rw [hfind] at hnone
    cases hnone
  · rw [hfind] at hstate
    cases hstate
    have hframe := (deliveryClosed_frame s).enqueueIfActive (.refl s) hv
    have henqueue : s.enqueueForDeliveryToApplication b = some v := hv
    rcases enqueue_eq_some henqueue with ⟨-, hadmin⟩ | ⟨hnot, -⟩
    · obtain ⟨ar, p, w, -, hord, rfl⟩ := processAdminRecord_eq_some hadmin
      rcases hsend with ⟨-, rfl⟩ | ⟨hreq, -⟩
      · exact fun hmem => (hord.mem_removed.mp hmem).1 rfl
      · rw [(hframe.header b).custTxReq, hcust] at hreq
        cases hreq
    · rw [hagent] at hnot
      cases hnot

/-- **Processing keeps `dst` hidden**, when the bundle shows another destination or `dst` is the
agent itself: then the bundle is taken for an administrative record and removed. -/
theorem Hidden.processBundle (h : s.Hidden dst) (hcust : rx.header.custTxReq = false)
    (hdst : rx.header.getDestinationEid.uri = dst.uri →
      s.findRegistration dst = some true ∧ dst.uri = s.config.eid.uri)
    (hrun : s.processBundle b q rx = some t) : t.Hidden dst ∧ t.config = s.config := by
  obtain ⟨u, haccept, hdispatch⟩ := processBundle_eq_some.mp hrun
  obtain ⟨hconfig, -⟩ := rest_acceptBundle haccept
  have hheader := header_acceptBundle haccept
  have hcust' : (u.header b).custTxReq = false := by rw [hheader, hcust]
  obtain ⟨hstore, hsame, hconfig'⟩ := dispatch_frame hcust' hdispatch
  refine ⟨fun x hx huri => ?_, hconfig'.trans hconfig⟩
  rw [(hsame x).destination] at huri
  by_cases hxb : x = b
  · subst hxb
    rw [hheader] at huri
    obtain ⟨hactive, hown⟩ := hdst huri
    have hfind : u.findRegistration (u.header x).getDestinationEid = some true := by
      rw [hheader, findRegistration_congr huri, findRegistration, hconfig]
      exact hactive
    have hagent : u.isForAgent x = true := by
      rw [isForAgent, hheader, hconfig]
      exact BpEndpointId.beq_iff.mpr (huri.trans hown)
    rcases hdispatch with ⟨-, hdeliver⟩ | ⟨hnot, -⟩
    · exact not_mem_of_deliver_agent hfind hagent hcust' hdeliver hx
    · rw [isNodeMember_of_find hfind] at hnot
      cases hnot
  · have hmem := (mem_acceptBundle haccept (hstore.subset hx)).resolve_right fun hself => hxb hself.1
    rw [BundleStore.header, heap_acceptBundle_of_ne haccept hxb] at huri
    exact h x hmem huri

theorem Hidden.processAll {arrivals : List Arrival} (h : s.Hidden dst)
    (harrivals : ∀ a ∈ arrivals, a.bundle.header.custTxReq = false ∧
      (a.bundle.header.getDestinationEid.uri = dst.uri →
        s.findRegistration dst = some true ∧ dst.uri = s.config.eid.uri))
    (hrun : s.processAll arrivals = some t) : t.Hidden dst := by
  induction arrivals generalizing s with
  | nil =>
    cases hrun
    exact h
  | cons a arrivals ih =>
    rw [BpAgent6.processAll, List.foldlM_cons] at hrun
    obtain ⟨u, hu, hrun⟩ := Option.bind_eq_some_iff.mp hrun
    obtain ⟨hcust, hdst⟩ := harrivals a List.mem_cons_self
    obtain ⟨hhidden, hconfig⟩ := h.processBundle hcust hdst hu
    refine ih hhidden (fun c hc => ?_) hrun
    rw [findRegistration, hconfig]
    exact harrivals c (List.mem_cons_of_mem a hc)

/-! ## Delivery -/

/-- A whole bundle is accepted into an empty store and matched with nothing. -/
theorem exists_accepted_whole (hempty : s.mStore = []) (hlife : rx.header.lifeTime = 0)
    (hwhole : rx.header.isFragment = false) : ∃ u, s.acceptBundle b rx = some u ∧ u.mStore = [b] ∧
      (u.logged b).matchFragments b = some (u.logged b) := by
  have hnil : (s.arrived b rx).mStore = [] := hempty
  have hord : (s.arrived b rx).Ordered := by
    rw [BundleStore.Ordered, hnil]
    exact List.Pairwise.nil
  have haccept := acceptBundle_of_lifeTime hlife hord
  have hstore : ((s.arrived b rx).stored b).mStore = [b] := by
    show OrderedList.insert _ b (s.arrived b rx).mStore = [b]
    rw [hnil]
    rfl
  refine ⟨_, haccept, hstore, ?_⟩
  have hmark : ((((s.arrived b rx).stored b).logged b).header b).isFragment = false :=
    (congrArg BpHeader6.isFragment (header_acceptBundle haccept)).trans hwhole
  unfold matchFragments
  rw [hmark]
  rfl

/-- A whole bundle for an application, at an empty store. -/
theorem exists_processBundle_whole (hempty : s.mStore = []) (ha : s.ActiveApplication rx.header)
    (hcust : rx.header.custTxReq = false) (hlife : rx.header.lifeTime = 0)
    (hwhole : rx.header.isFragment = false) (hdst : rx.header.getDestinationEid.uri = dst.uri) :
    ∃ t, s.processBundle b q rx = some t ∧ ∃ t', t.receive dst = some (t', some rx.adu) := by
  obtain ⟨u, haccept, hstore, hmatch⟩ := exists_accepted_whole (b := b) hempty hlife hwhole
  have hheader := header_acceptBundle haccept
  have hord' : (u.logged b).Ordered := by
    rw [BundleStore.Ordered, show (u.logged b).mStore = [b] from hstore]
    exact List.pairwise_singleton _ _
  refine ⟨u.logged b, (processBundle_active ha.active ha.other).mpr
    ⟨u, u.logged b, haccept, hmatch, Or.inl ⟨hcust, rfl⟩⟩, ?_⟩
  have hheader' : (u.logged b).header b = rx.header := show u.header b = rx.header from hheader
  have hadu : ((u.logged b).heap b).adu = some rx.adu :=
    show (u.heap b).adu = some rx.adu from adu_acceptBundle haccept
  exact receive_of_singleton hstore hord' (hheader' ▸ hdst) (hheader' ▸ hwhole) hadu

/-- An ADU that does not fit one bundle is cut into several pieces. -/
theorem two_le_length_pieces (hm : s.config.bundleSize ≠ 0) (hfragment : s.fragmenting p = true) :
    2 ≤ (s.pieces p).length := by
  have hlt : s.config.bundleSize.toNat < p.size := of_decide_eq_true hfragment
  have hm' : 0 < s.config.bundleSize.toNat :=
    Nat.pos_of_ne_zero fun he => hm (UInt32.toNat_inj.mp he)
  have htiles := tiles_pieces p hm
  have hne : p.size ≠ 0 := by omega
  obtain ⟨n, hlast⟩ := getLast?_pieces hm hne
  -- the last piece does not start at zero
  have hstart : 0 < (p.size - 1) / s.config.bundleSize.toNat * s.config.bundleSize.toNat :=
    Nat.mul_pos (Nat.div_pos (by omega) hm') hm'
  match hpieces : s.pieces p with
  | [] =>
    rw [hpieces] at hlast
    cases hlast
  | [r] =>
    rw [hpieces] at hlast htiles
    have hr := (Tiles.singleton_iff.mp htiles).1
    rw [List.getLast?_singleton, Option.some.injEq] at hlast
    rw [hlast] at hr
    dsimp only at hr
    omega
  | _ :: _ :: rest =>
    simp

/-- **The pieces arrive in order**: the whole ADU is received. -/
theorem exists_receive_pieces {hread : hdr.Readable} {ps : List (ℕ × ℕ)} {arrivals : List Arrival}
    {seq : UInt32} {now : Time} (hnew : NewHeader p.size 0 false now seq hdr)
    (htiles : Tiles ps 0 p.size) (hcount : 2 ≤ ps.length)
    (hbundles : arrivals.map Arrival.bundle = ps.map (pieceBundle hdr hread true p))
    (hptr : (arrivals.map Arrival.ptr).Nodup) (hempty : r.mStore = [])
    (ha : r.ActiveApplication hdr) (huri : hdr.getDestinationEid.uri = dst.uri) :
    ∃ r' r'', r.processAll arrivals = some r' ∧ r'.receive dst = some (r'', some p) := by
  have hranges : ranges arrivals = ps := by
    have hmap : ranges arrivals = (arrivals.map Arrival.bundle).map ReceivedBundle.piece := by
      simp [ranges]
    rw [hmap, hbundles, List.map_map]
    conv_rhs => rw [← List.map_id ps]
    exact List.map_congr_left fun piece hp => piece_pieceBundle (htiles.bounds hp).2.2
  have hplain : ∀ a ∈ arrivals, PlainFragment (hdr.setIsFragment true) p a.bundle := by
    intro a hmem
    have hmem' := List.mem_map_of_mem (f := Arrival.bundle) hmem
    rw [hbundles] at hmem'
    obtain ⟨piece, hp, hpiece⟩ := List.mem_map.mp hmem'
    rw [← hpiece]
    exact plainFragment_pieceBundle hnew (htiles.bounds hp).2.1 (htiles.bounds hp).2.2
  have hcust : (hdr.setIsFragment true).custTxReq = false :=
    (BpHeader6.custTxReq_setIsFragment _ _).trans hnew.custTxReq
  obtain ⟨r', hrun, hreassembling, hfilled⟩ := exists_processAll hempty
    (h := hdr.setIsFragment true) ⟨ha.active, ha.other⟩ hcust htiles hcount hplain
    (hranges ▸ List.Perm.refl _) hptr
  -- nothing arrives between its neighbours
  have hcovered := (hfilled.eq_Ico_iff htiles (hranges ▸ List.Perm.refl _)).mpr
    (hranges ▸ htiles.not_arrivesBetween)
  obtain ⟨piece, hp⟩ := List.exists_mem_of_length_pos (l := ps) (by omega)
  have hpos := Nat.zero_lt_of_lt (htiles.length_lt hcount hp)
  obtain ⟨r'', hreceive⟩ := ((hreassembling.reassembled_iff hpos).mpr hcovered).receive dst huri.symm
  exact ⟨r', r'', hrun, hreceive⟩

/-- **The ADU arrives in one bundle**: it is received. -/
theorem exists_receive_whole {hread : hdr.Readable} {arrivals : List Arrival} {seq : UInt32}
    {now : Time} (hnew : NewHeader p.size 0 false now seq hdr)
    (hbundles : arrivals.map Arrival.bundle = [pieceBundle hdr hread false p (0, p.size)])
    (hempty : r.mStore = []) (ha : r.ActiveApplication hdr)
    (huri : hdr.getDestinationEid.uri = dst.uri) :
    ∃ r' r'', r.processAll arrivals = some r' ∧ r'.receive dst = some (r'', some p) := by
  obtain ⟨a, rest, rfl, hbundle, hrest⟩ := List.map_eq_cons_iff.mp hbundles
  obtain rfl := List.map_eq_nil_iff.mp hrest
  have hcust : (pieceHeader hdr false (0, p.size)).custTxReq = false :=
    (BpHeader6.custTxReq_setIsFragment _ _).trans hnew.custTxReq
  have hwhole : (pieceHeader hdr false (0, p.size)).isFragment = false :=
    BpHeader6.isFragment_setIsFragment _ _
  have hadu : (pieceBundle hdr hread false p (0, p.size)).adu = p := p.piece_size
  obtain ⟨r', hrun, r'', hreceive⟩ : ∃ r',
      r.processBundle a.ptr a.signal (pieceBundle hdr hread false p (0, p.size)) = some r' ∧
        ∃ r'', r'.receive dst = some (r'', some (pieceBundle hdr hread false p (0, p.size)).adu) :=
    exists_processBundle_whole hempty ⟨ha.active, ha.other⟩ hcust hnew.lifeTime hwhole huri
  rw [hadu] at hreceive
  refine ⟨r', r'', ?_, hreceive⟩
  rw [processAll, List.foldlM_cons, hbundle]
  exact Option.bind_eq_some_iff.mpr ⟨r', hrun, rfl⟩

/-- **End to end**: an ADU that reaches another agent is returned there by `Receive` exactly when
the destination is not that agent's own endpoint id and can be read back from the header. -/
theorem end_to_end_iff {priority : UInt32} {txs : List Transmission} {datagrams : List Datagram}
    (hpos : 0 < p.size) (hsize : p.size < 2 ^ 28)
    (hsend : s.send b p src dst 0 false priority = some (t, 0))
    (hhanded : t.handed = s.handed ++ txs) (hready : txs ≠ [])
    (hcarried : List.Forall₂ Datagram.Carries datagrams txs)
    (hptr : (datagrams.map Datagram.ptr).Nodup) (hempty : r.mStore = [])
    (hactive : r.findRegistration dst = some true) :
    (∃ r' r'' packet, r.receiveAll datagrams = some r' ∧
        r'.receive dst = some (r'', some packet) ∧ packet.bytes = p.bytes) ↔
      dst.uri ≠ r.config.eid.uri ∧ ReadBack src dst := by
  obtain ⟨hdr, hnew, hm, hpieces⟩ := handed_send hpos hsend hhanded hready
  obtain ⟨hread, hshown⟩ := newHeader_destination hnew
  have hspec := newHeader_spec hnew
  have htiles := tiles_pieces p hm
  obtain ⟨arrivals, hptrs, hbundles, hrun⟩ := exists_arrivals hread hspec.cbhe
    hspec.lifeTime hsize hcarried hpieces
  have hback : ReadBack src dst ↔ hdr.getDestinationEid.uri = dst.uri := by
    rw [ReadBack, hshown, Option.some.injEq]
  have hcust : ∀ fragment r, (pieceHeader hdr fragment r).custTxReq = false := by
    intro fragment r
    exact (BpHeader6.custTxReq_setIsFragment _ _).trans hspec.custTxReq
  rw [hrun, hback]
  constructor
  · rintro ⟨r', r'', packet, hall, hreceive, -⟩
    by_contra hnot
    -- then every bundle is removed, or shows another destination
    have hhidden : r.Hidden dst := by
      intro x hx
      rw [hempty] at hx
      cases hx
    refine absurd ((hhidden.processAll (fun a ha => ?_) hall).packet_eq_none hreceive) (by simp)
    have hmem := List.mem_map_of_mem (f := Arrival.bundle) ha
    rw [hbundles] at hmem
    obtain ⟨piece, -, hpiece⟩ := List.mem_map.mp hmem
    rw [← hpiece]
    refine ⟨hcust _ piece, fun huri => ⟨hactive, ?_⟩⟩
    by_contra hother
    exact hnot ⟨hother, huri⟩
  · rintro ⟨hother, huri⟩
    have ha : r.ActiveApplication hdr := by
      refine ⟨(findRegistration_congr huri).trans hactive, ?_⟩
      rw [BpEndpointId.beq_eq_false_iff, huri]
      exact hother
    rw [← hptrs] at hptr
    obtain ⟨r', r'', hall, hreceive⟩ : ∃ r' r'', r.processAll arrivals = some r' ∧
        r'.receive dst = some (r'', some p) := by
      cases hfragment : s.fragmenting p with
      | true =>
        rw [hfragment] at hbundles
        exact exists_receive_pieces hspec htiles (two_le_length_pieces hm hfragment) hbundles hptr
          hempty ha huri
      | false =>
        have hle : p.size ≤ s.config.bundleSize.toNat := Nat.not_lt.mp (of_decide_eq_false hfragment)
        have hone : s.pieces p = [(0, p.size)] := chunks_of_le 0 hpos hle (Nat.le_refl _)
        rw [hfragment, hone, List.map_singleton] at hbundles
        exact exists_receive_whole hspec hbundles hempty ha huri
    exact ⟨r', r'', p, hall, hreceive, rfl⟩

end BpAgent6

namespace Sample
open BpAgent6

/-- An agent at `d:own` that has also registered `d:a`. -/
def receiver (own : UInt8) : BpAgent6 :=
  { agent 10 false with
    config := { config 10 false with
      eid := eid own
      registration := [(eid own, true), (eid 97, true)] } }

/-- What the space for the payload header holds. -/
def zeros : List UInt8 := List.replicate 6 0

/-- The agent stores nothing when the packet of the transmission arrives. -/
def leavesNothing (s : BpAgent6) (tx : Transmission) : Bool :=
  ((dataRecv false (tx.wire zeros)).bind (s.processBundle 1 11)).any fun t => decide (t.mStore = [])

/-- The packet of a transmission, when a packet can hold it. -/
def datagram (ptr : Ptr) (tx : Transmission) (h : (tx.wire zeros).length < 2 ^ 32) : Datagram :=
  ⟨ptr, ptr + 10, ⟨tx.wire zeros, h⟩⟩

theorem carries_datagram {ptr : Ptr} {tx : Transmission} (h : (tx.wire zeros).length < 2 ^ 32) :
    (datagram ptr tx h).Carries tx := ⟨zeros, rfl, rfl⟩

end Sample

namespace BpAgent6

/-- Two bytes in two bundles, for an application. -/
theorem end_to_end_sample :
    let p : Packet := ⟨[10, 11], by decide⟩
    ∃ t datagrams, (Sample.agent 1 true).send 1 p (Sample.eid 98) (Sample.eid 97) 0 false 0 =
        some (t, 0) ∧ t.handed.length = 2 ∧ List.Forall₂ Datagram.Carries datagrams t.handed ∧
      ∃ r' r'' packet, (Sample.receiver 99).receiveAll datagrams = some r' ∧
        r'.receive (Sample.eid 97) = some (r'', some packet) ∧ packet.bytes = p.bytes := by
  intro p
  obtain ⟨⟨t, code⟩, hsend, htest⟩ := (Option.any_eq_true (fun x : BpAgent6 × ℤ =>
    decide (x.2 = 0 ∧ x.1.handed.length = 2 ∧
      ∀ tx ∈ x.1.handed, (tx.wire Sample.zeros).length < 2 ^ 32)) _).mp
    (by decide +kernel : ((Sample.agent 1 true).send 1 p (Sample.eid 98) (Sample.eid 97) 0 false
      0).any _ = true)
  obtain ⟨hcode, hlength, hsizes⟩ := of_decide_eq_true htest
  dsimp only at hcode hlength hsizes
  subst hcode
  obtain ⟨tx, tx', htxs⟩ := List.length_eq_two.mp hlength
  have hsize : (tx.wire Sample.zeros).length < 2 ^ 32 := hsizes tx (by simp [htxs])
  have hsize' : (tx'.wire Sample.zeros).length < 2 ^ 32 := hsizes tx' (by simp [htxs])
  have hcarried : List.Forall₂ Datagram.Carries
      [Sample.datagram 1 tx hsize, Sample.datagram 2 tx' hsize'] t.handed := by
    rw [htxs]
    exact .cons (Sample.carries_datagram hsize) (.cons (Sample.carries_datagram hsize') .nil)
  have hready : t.handed ≠ [] := by simp [htxs]
  refine ⟨t, _, hsend, hlength, hcarried, ?_⟩
  exact (end_to_end_iff (r := Sample.receiver 99) (by decide) (by decide) hsend rfl hready hcarried
    (show [1, 2].Nodup by decide) rfl (by decide +kernel)).mpr ⟨by decide, by decide +kernel⟩

/-- One byte for the endpoint id of the receiving agent itself: nothing is received. -/
theorem end_to_end_lost :
    let p : Packet := ⟨[10], by decide⟩
    ∃ t datagrams, (Sample.agent 10 true).send 1 p (Sample.eid 98) (Sample.eid 97) 0 false 0 =
        some (t, 0) ∧ t.handed.length = 1 ∧ List.Forall₂ Datagram.Carries datagrams t.handed ∧
      (Sample.receiver 97).mStore = [] ∧
      (Sample.receiver 97).findRegistration (Sample.eid 97) = some true ∧
      ∃ r', (Sample.receiver 97).receiveAll datagrams = some r' ∧
        ∀ r'' packet, r'.receive (Sample.eid 97) = some (r'', packet) → packet = none := by
  intro p
  obtain ⟨⟨t, code⟩, hsend, htest⟩ := (Option.any_eq_true (fun x : BpAgent6 × ℤ =>
    decide (x.2 = 0 ∧ x.1.handed.length = 1 ∧
      ∀ tx ∈ x.1.handed, (tx.wire Sample.zeros).length < 2 ^ 32 ∧
        Sample.leavesNothing (Sample.receiver 97) tx = true)) _).mp
    (by decide +kernel : ((Sample.agent 10 true).send 1 p (Sample.eid 98) (Sample.eid 97) 0 false
      0).any _ = true)
  obtain ⟨hcode, hlength, hsizes⟩ := of_decide_eq_true htest
  dsimp only at hcode hlength hsizes
  subst hcode
  obtain ⟨tx, htxs⟩ := List.length_eq_one_iff.mp hlength
  obtain ⟨hsize, hlost⟩ := hsizes tx (by simp [htxs])
  obtain ⟨r', hrun, hnone⟩ := (Option.any_eq_true _ _).mp hlost
  refine ⟨t, [Sample.datagram 1 tx hsize], hsend, hlength, ?_, rfl, by decide +kernel, r', ?_, ?_⟩
  · rw [htxs]
    exact .cons (Sample.carries_datagram hsize) .nil
  · rw [receiveAll, List.foldlM_cons]
    exact Option.bind_eq_some_iff.mpr ⟨r', hrun, rfl⟩
  · intro r'' packet hreceive
    have hhidden : r'.Hidden (Sample.eid 97) := by
      intro x hx
      rw [of_decide_eq_true hnone] at hx
      cases hx
    exact hhidden.packet_eq_none hreceive

end BpAgent6
end BundleProtocol
