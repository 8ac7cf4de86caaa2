import BundleProtocol.CustodyTransfer
import BundleProtocol.MinimalSdnv
import BundleProtocol.RelayPath

/-! # Acknowledging what arrives

The receiver of a bundle with custody, its store empty at first.  The pieces of the ADU arrive one behind
the other, each makes the agent send a custody signal, and with a convergence layer ready every
signal leaves the agent at once, as one bundle (`Orderly.exists_send_whole`).  A piece that is a
fragment is acknowledged as it came, since in this order nothing is appended to it
(`Collects.exists_processBundle`); a bundle that carries the whole ADU is acknowledged with the empty
range (`exists_processBundle_custody`).
-/
namespace BundleProtocol
open Tiling

namespace BpAgent6
variable {s t u v : BpAgent6} {b q x : Ptr} {p : Packet} {src dst own cust : BpEndpointId}
  {hdr h g : BpHeader6} {tx : Transmission} {cs : CustodySignal} {rx : ReceivedBundle} {r : ℕ × ℕ}
  {fragment : Bool}

/-! ## A bundle that leaves at once -/

/-- Only the object at `q` is not what it was, and a bundle has been created. -/
structure Undisturbed (s : BpAgent6) (q : Ptr) (t : BpAgent6) : Prop where
  mStore : t.mStore = s.mStore
  heap : ∀ x, x ≠ q → t.heap x = s.heap x
  config : t.config = s.config
  seq : t.seq = s.seq + 1

theorem Undisturbed.heap_stored (h : Undisturbed s q t) (hq : q ∉ s.mStore) (hx : x ∈ s.mStore) :
    t.heap x = s.heap x := by
  apply h.heap x
  rintro rfl
  exact hq hx

theorem Undisturbed.sameKeys (h : Undisturbed s q t) (hq : q ∉ s.mStore) : SameKeys s t :=
  sameKeys_of_heap (h.mStore ▸ List.Sublist.refl _) fun _ hx => h.heap_stored hq (h.mStore ▸ hx)

/-- **A bundle is sent and gone**: it fits, and a convergence layer is ready for it. -/
theorem Orderly.exists_send_whole {priority : UInt32} {cla : ClaId} (hs : s.Orderly)
    (hq : q ∉ s.mStore) (hseq : s.seq.toNat < 2 ^ 31) (hsrc : ¬s.Refused src)
    (hnew : newHeader s.config.eid p.size src dst 0 false priority s.sim.now s.seq = some h)
    (hcla : s.outgoingCla h.getDestinationEid = some cla) (hready : s.config.isReady cla = true)
    (hpos : 0 < p.size) (hfits : p.size ≤ s.config.bundleSize.toNat) :
    ∃ t tx, s.send q p src dst 0 false priority = some (t, 0) ∧ t.handed = s.handed ++ [tx] ∧
      tx.OfPiece h false p (0, p.size) ∧ Undisturbed s q t := by
  have hspec := newHeader_spec hnew
  have hself := s.header_created_self q h p false
  have hcreated : (s.created q h p false).Orderly :=
    (hs.of_sameKeys (sameKeys_modify_of_not_mem hq fun _ => createdBundle h p false)).of_heap rfl rfl
  have hcreate : s.createBundle q p src dst 0 false priority =
      some ((s.created q h p false).stored q) := by
    refine createBundle_eq_some.mpr ⟨h, hnew, Or.inr ⟨fun hexpired => ?_, hcreated.ordered, rfl⟩⟩
    have hlife := hexpired.1
    rw [hself, hspec.lifeTime] at hlife
    exact hlife rfl
  have hstore : ((s.created q h p false).stored q).mStore.erase q = s.mStore :=
    OrderedList.erase_insert hq
  have horderly := hs.createBundle hq hseq hcreate
  have hseq' := seq_createBundle hcreate
  have hheap := fun x hx => heap_createBundle_of_ne hcreate (x := x) hx
  obtain ⟨hconfig, hhanded, -⟩ := rest_createBundle hcreate
  obtain ⟨h', id, hnew', hobject⟩ := heap_createBundle hcreate
  obtain rfl : h = h' := Option.some.inj (hnew.symm.trans hnew')
  generalize (s.created q h p false).stored q = u at *
  have hheader : u.header q = h := congrArg Bundle6.primaryHeader hobject
  have hready' : u.readyCla q = some cla := by
    rw [readyCla, hheader, outgoingCla, hconfig]
    exact Option.filter_eq_some_iff.mpr ⟨hcla, hready⟩
  obtain ⟨hforward, hsent⟩ := horderly.forward_whole hready' (by rw [hobject]; rfl)
    (by rw [hobject]; rfl) (hheader ▸ hspec.fragOffset) hpos (hconfig ▸ hfits)
  obtain ⟨hstore', -, hconfig', hseq'', -⟩ := u.rest_sent q cla p
  refine ⟨_, u.transmission q cla (u.header q).getDestinationEid false p (0, p.size),
    send_eq_some.mpr (Or.inr ⟨hsrc, u, hcreate, hforward, rfl⟩), ?_,
    ⟨?_, ?_, rfl, Nat.le_of_eq (Nat.zero_add _)⟩, ?_, fun x hx => ?_, ?_, ?_⟩
  · exact hsent.trans (hhanded ▸ rfl)
  · unfold transmission
    rw [hobject]
    rfl
  · unfold transmission
    rw [hobject]
    rfl
  · exact (congrArg (List.erase · q) hstore').trans hstore
  · exact (heap_discarded_of_ne _ hx).trans ((heap_sent_of_ne hx).trans (hheap x hx))
  · exact hconfig'.trans hconfig
  · exact hseq''.trans hseq'

/-! ## The signal about a piece -/

/-- The packet is a record that is read as this custody signal. -/
def Signals (p : Packet) (cs : CustodySignal) : Prop :=
  ∃ ar rest rest', AdminRecord.removeFrom p.bytes = some (ar, rest) ∧ ar.isCustodySignal = true ∧
    CustodySignal.removeFrom rest = some (cs, rest')

/-- The signal says that the piece `r` of the bundle with the header `hdr` has arrived. -/
structure Acknowledgement (hdr : BpHeader6) (r : ℕ × ℕ) (cs : CustodySignal) : Prop where
  status : cs.status = CustodySignal.succeeded
  about : IsAbout cs hdr
  offset : cs.fragmentOffset = UInt32.ofNat r.1
  length : cs.fragmentLength = UInt32.ofNat r.2

/-- The transmission is a bundle that takes such a signal from `own` to `cust`. -/
def SignalsPiece (own cust : BpEndpointId) (hdr : BpHeader6) (r : ℕ × ℕ) (tx : Transmission) : Prop :=
  ∃ h p seq now cs, UnderWay h p cust seq now ∧ sourceUri own = some h.getSourceEid.uri ∧
    tx.OfPiece h false p (0, p.size) ∧ Signals p cs ∧ Acknowledgement hdr r cs

/-- A signal takes at most 36 bytes and the source endpoint id. -/
theorem length_encode_le (cs : CustodySignal) : cs.encode.length ≤ cs.srcEid.length + 36 := by
  have hfive : ∀ n : UInt32, (Sdnv.encode n.toUInt64).length ≤ 5 := by
    intro n
    apply Sdnv.length_encode_le
    rw [UInt32.toNat_toUInt64]
    exact Nat.lt_trans n.toNat_lt (by decide)
  have hoffset := hfive cs.fragmentOffset
  have hlength := hfive cs.fragmentLength
  have htime := Sdnv.length_encode_le_ten (UInt64.ofNat (wholeSeconds cs.timeOfSignal))
  have hts := hfive cs.creationTimestamp
  have hseq := hfive cs.seqNo
  have hlen := hfive cs.srcEidLen
  simp only [CustodySignal.encode, List.length_cons, List.length_append, List.flatMap_cons,
    List.flatMap_nil, List.append_nil]
  omega

/-- **The record about a stored piece** names it, and fits where the source's URI leaves room. -/
theorem exists_custodySignalPacket {a : Packet} {n : ℕ} (hadu : (s.heap b).adu = some a)
    (hfits : (s.header b).getSourceEid.uri.length + 37 ≤ n) (hn : n < 2 ^ 32) :
    ∃ sent packet cs, s.custodySignalPacket b = some (sent, packet) ∧ 0 < packet.size ∧
      packet.size ≤ n ∧ Signals packet cs ∧ cs.status = CustodySignal.succeeded ∧
      IsAbout cs (s.header b) ∧ cs.fragmentOffset = (s.header b).fragOffset ∧
      cs.fragmentLength = if (s.header b).isFragment then a.getSize else 0 := by
  have hlength : s.signalLength b = some (if (s.header b).isFragment then a.getSize else 0) := by
    unfold signalLength
    rw [hadu]
    split <;> rfl
  obtain ⟨sent, hsent, hstatus, hoffset, hlen, hsrcEid, hsrcEidLen⟩ : ∃ sent,
      s.custodySignalFor b = some sent ∧ sent.status = CustodySignal.succeeded ∧
        sent.fragmentOffset = (s.header b).fragOffset ∧
        sent.fragmentLength = (if (s.header b).isFragment then a.getSize else 0) ∧
        sent.srcEid = (s.header b).getSourceEid.uri ∧
        sent.srcEidLen = UInt32.ofNat sent.srcEid.length :=
    ⟨_, Option.bind_eq_some_iff.mpr ⟨_, hlength, rfl⟩, rfl, rfl, rfl, rfl, rfl⟩
  -- the record is one byte longer than the signal
  let ar : AdminRecord := ⟨if (s.header b).isFragment then
    (arCustodySignal <<< 4) ||| arFragment else arCustodySignal <<< 4⟩
  have hle := length_encode_le sent
  have hsize : (ar.serialize ++ sent.encode).length = sent.encode.length + 1 := by
    rw [List.length_append, Nat.add_comm]
    rfl
  rw [hsrcEid] at hle
  have hlt : (ar.serialize ++ sent.encode).length < 2 ^ 32 := by omega
  have hpacket : s.custodySignalPacket b = some (sent, ⟨ar.serialize ++ sent.encode, hlt⟩) :=
    Option.bind_eq_some_iff.mpr ⟨sent, hsent,
      Option.bind_eq_some_iff.mpr ⟨_, Packet.ofBytes_eq_some hlt, rfl⟩⟩
  have hread : sent.srcEid.length = sent.srcEidLen.toNat := by
    have hshort : sent.srcEid.length < 2 ^ 32 := by
      rw [hsrcEid]
      omega
    rw [hsrcEidLen, UInt32.toNat_ofNat_of_lt' hshort]
  obtain ⟨time, rest, htail⟩ := removeFrom_encode hread
  have hkind : ar.isCustodySignal = true := by
    dsimp only [ar]
    split <;> decide
  have habout := isAbout_of_custodySignalPacket hpacket
  exact ⟨sent, _, { sent with timeOfSignal := time }, hpacket, by rw [Packet.size, hsize]; omega,
    by rw [Packet.size, hsize]; omega, ⟨ar, sent.encode, rest, rfl, hkind, htail⟩, hstatus,
    ⟨habout.source, habout.createTimestamp, habout.timestampSeqNum⟩, hoffset, hlen⟩

/-- A header can be made for endpoint ids with two parts each. -/
theorem exists_newHeader (own : BpEndpointId) (size : ℕ) (lifetime now : Time) (priority seq : UInt32)
    {uri : List UInt8} (hparts : dictionaryUri src dst = some uri) :
    ∃ h, newHeader own size src dst lifetime false priority now seq = some h := by
  obtain ⟨srcScheme, hsrcScheme, hparts⟩ := Option.bind_eq_some_iff.mp hparts
  obtain ⟨srcSsp, hsrcSsp, hparts⟩ := Option.bind_eq_some_iff.mp hparts
  obtain ⟨scheme, hscheme, hparts⟩ := Option.bind_eq_some_iff.mp hparts
  obtain ⟨ssp, hssp, -⟩ := Option.bind_eq_some_iff.mp hparts
  obtain ⟨h₀, hdefault⟩ : ∃ h₀, Bundle6.defaultHeader = some h₀ :=
    Option.isSome_iff_exists.mp (by decide +kernel)
  obtain ⟨hcbhe, -⟩ := defaultHeader_spec hdefault
  have hplace := (BpHeader6.placeEid_eq_some hcbhe).mpr
    ⟨srcScheme, srcSsp, hsrcScheme, hsrcSsp, rfl, rfl, rfl⟩
  obtain ⟨h₁, hsrc⟩ : ∃ h₁, h₀.setEid .source src = some h₁ :=
    ⟨_, (h₀.setEid_eq_map .source src).trans (Option.map_eq_some_iff.mpr ⟨_, hplace, rfl⟩)⟩
  have hcbhe₁ : h₁.cbhe = false := (BpHeader6.sameNumbers_setEid .source hsrc).cbhe.trans hcbhe
  have hplace₁ := (BpHeader6.placeEid_eq_some hcbhe₁).mpr ⟨scheme, ssp, hscheme, hssp, rfl, rfl, rfl⟩
  obtain ⟨h₂, hdst⟩ : ∃ h₂, h₁.setEid .destination dst = some h₂ :=
    ⟨_, (h₁.setEid_eq_map .destination dst).trans (Option.map_eq_some_iff.mpr ⟨_, hplace₁, rfl⟩)⟩
  have hsrc' : h₀.setSourceEid src = some h₁ := hsrc
  have hdst' : h₁.setDestinationEid dst = some h₂ := hdst
  refine ⟨fillHeader h₂ size lifetime false priority now seq, ?_⟩
  unfold newHeader
  simp only [hdefault, hsrc', hdst', Option.bind_eq_bind, Option.bind_some]
  rfl

/-- Custody signals about bundles with the header `hdr` leave the agent at once, for the custodian
at `cust`. -/
structure Answers (s : BpAgent6) (hdr : BpHeader6) (cust : BpEndpointId) : Prop where
  registered : ¬s.Refused s.config.eid
  custodian : dictionaryUri s.config.eid hdr.getCustEid = some cust.uri
  route : ∃ cla, s.outgoingCla cust = some cla ∧ s.config.isReady cla = true
  fits : hdr.getSourceEid.uri.length + 37 ≤ s.config.bundleSize.toNat
  small : s.config.bundleSize.toNat < 2 ^ 28

theorem Answers.of_config (ha : s.Answers hdr cust) (hconfig : t.config = s.config) :
    t.Answers hdr cust := by
  obtain ⟨hregistered, hcustodian, hroute, hfits, hsmall⟩ := ha
  refine ⟨?_, hconfig ▸ hcustodian, ?_, hconfig ▸ hfits, hconfig ▸ hsmall⟩
  · unfold Refused isNodeMember at hregistered ⊢
    rwa [hconfig]
  · unfold outgoingCla at hroute ⊢
    rwa [hconfig]

/-- **The signal about a piece** leaves at once, with the length of the piece if it is a fragment. -/
theorem Answers.exists_sendCustodySignal (ha : s.Answers hdr cust) (hs : s.Orderly)
    (hseq : s.seq.toNat < 2 ^ 31) (hq : q ∉ s.mStore) (hheader : s.header b = pieceHeader hdr fragment r)
    (hadu : (s.heap b).adu = some (p.piece r.1 r.2)) (hle : r.1 + r.2 ≤ p.size) :
    ∃ t tx, s.sendCustodySignal b q 0 = some t ∧ t.handed = s.handed ++ [tx] ∧
      SignalsPiece s.config.eid cust hdr (r.1, if fragment then r.2 else 0) tx ∧
      Undisturbed s q t := by
  have hsource : (s.header b).getSourceEid = hdr.getSourceEid := by
    rw [hheader]
    rfl
  have hcustodian : (s.header b).getCustEid = hdr.getCustEid := by
    rw [hheader]
    rfl
  have hmark : (s.header b).isFragment = fragment := by
    rw [hheader]
    exact BpHeader6.isFragment_setIsFragment _ _
  obtain ⟨sent, packet, cs, hpacket, hpos, hsize, hsignals, hstatus, habout, hoffset, hlength⟩ :=
    exists_custodySignalPacket hadu (hsource ▸ ha.fits) (Nat.lt_trans ha.small (by decide))
  obtain ⟨h, hnew⟩ := exists_newHeader s.config.eid packet.size 0 s.sim.now 0 s.seq ha.custodian
  obtain ⟨hread, hshown⟩ := newHeader_destination hnew
  have huri : h.getDestinationEid.uri = cust.uri := Option.some.inj (hshown.symm.trans ha.custodian)
  obtain ⟨cla, hcla, hready⟩ := ha.route
  obtain ⟨t, tx, hsend, hhanded, htx, hrest⟩ := Orderly.exists_send_whole (s := s.signalLogged b sent)
    (hs.of_heap rfl rfl) hq hseq ha.registered hnew ((outgoingCla_congr huri).trans hcla) hready hpos
    hsize
  refine ⟨t, tx, sendCustodySignal_eq_some.mpr ⟨sent, packet, 0, hpacket, ?_⟩, hhanded,
    ⟨h, packet, s.seq, s.sim.now, cs, ⟨newHeader_spec hnew, hread, hseq, huri, hpos, ?_⟩,
      newHeader_source hnew, htx, hsignals, hstatus, ?_, ?_, ?_⟩,
    ⟨hrest.mStore, hrest.heap, hrest.config, hrest.seq⟩⟩
  · rw [hcustodian]
    exact hsend
  · exact Nat.lt_of_le_of_lt hsize ha.small
  · exact ⟨habout.source.trans (congrArg _ hsource),
      habout.createTimestamp.trans (by rw [hheader]; rfl),
      habout.timestampSeqNum.trans (by rw [hheader]; rfl)⟩
  · rw [hoffset, hheader]
    rfl
  · rw [hlength, hmark, Packet.getSize, Packet.size_piece hle]
    split <;> rfl

/-! ## One arrival -/

/-- What is matched only against bundles that do not start where it ends stays as it came. -/
theorem heap_coalesce_of_not_head {l : List Ptr} (hpos : s.aduSize b ≠ 0) (hnodup : l.Nodup)
    (hl : ∀ it ∈ l, it ≠ b → ¬s.Head b it) (hrun : s.coalesce b l = some t) : t.heap b = s.heap b := by
  induction l generalizing s with
  | nil =>
    cases hrun
    rfl
  | cons it l ih =>
    obtain ⟨u, hu, hrest⟩ := Option.bind_eq_some_iff.mp hrun
    obtain ⟨hit, hnodup'⟩ := List.nodup_cons.mp hnodup
    by_cases hne : it = b
    · subst hne
      rw [coalesceWith_self hpos hu] at hrest
      exact ih hpos hnodup' (fun z hz => hl z (List.mem_cons_of_mem it hz)) hrest
    · obtain ⟨hother, hself⟩ := coalesceWith_view hne hu
      have hheap : u.heap b = s.heap b := by
        rcases hself with ⟨-, hheap⟩ | ⟨⟨-, hhead⟩, -⟩
        · exact hheap
        · exact absurd hhead (hl it List.mem_cons_self hne)
      have hsize : u.aduSize b = s.aduSize b := BundleStore.aduSize_congr (congrArg Bundle6.adu hheap)
      refine (ih (hsize ▸ hpos) hnodup' (fun z hz hzb => ?_) hrest).trans hheap
      -- the bundles still to come are as they were
      have hz' : u.heap z = s.heap z := hother z hzb fun heq => hit (heq ▸ hz)
      unfold Head
      rw [BundleStore.header_congr hheap, BundleStore.header_congr hz', hsize]
      exact hl z (List.mem_cons_of_mem it hz) hzb

/-- The first `n` bytes of the ADU are stored, in one fragment or, at the end, as a whole. -/
structure Collects (hdr : BpHeader6) (p : Packet) (n : ℕ) (s : BpAgent6) : Prop
    extends Reassembling (hdr.setIsFragment true) p s where
  covered : s.buffer.covered = Set.Ico 0 n

theorem collects_of_empty (hempty : s.mStore = []) : Collects hdr p 0 s where
  toReassembling := reassembling_of_empty hempty
  covered := by
    ext i
    simp [SegmentBuffer.covered, buffer, hempty]

theorem Collects.orderly {n : ℕ} (hs : Collects hdr p n s)
    (hseq : hdr.timestampSeqNum.toNat < 2 ^ 31) : s.Orderly where
  toHealthy := hs.toHealthy
  seq x hx := by
    rw [(hs.like x hx).named.2.2]
    exact hseq

/-- What is not stored may change. -/
theorem Collects.of_heap {n : ℕ} (hs : Collects hdr p n s) (hstore : t.mStore = s.mStore)
    (hheap : ∀ x ∈ s.mStore, t.heap x = s.heap x) : Collects hdr p n t := by
  have hkeys : SameKeys s t :=
    sameKeys_of_heap (hstore ▸ List.Sublist.refl _) fun x hx => hheap x (hstore ▸ hx)
  have hdom : ∀ x, x ∈ t.buffer.dom ↔ x ∈ s.buffer.dom := by
    intro x
    show x ∈ t.mStore ↔ x ∈ s.mStore
    rw [hstore]
  have hseg : ∀ x ∈ s.mStore, t.segment x = s.segment x := fun x hx => segment_congr (hheap x hx)
  refine ⟨⟨hs.toHealthy.of_sameKeys hkeys, fun x hx => ?_, fun x hx => ?_, fun x hx => ?_,
    hs.separated.congr hdom hseg⟩, (SegmentBuffer.covered_congr hdom hseg).trans hs.covered⟩
  · rw [hstore] at hx
    rw [BundleStore.header_congr (hheap x hx)]
    exact hs.like x hx
  · rw [hstore] at hx
    rw [hheap x hx, hseg x hx]
    exact hs.part x hx
  · rw [hstore] at hx
    rw [BundleStore.header_congr (hheap x hx), BundleStore.aduSize_congr (congrArg Bundle6.adu (hheap x hx))]
    exact hs.mark x hx

section Arrival
variable {seq : UInt32} {now : Time} (hread : hdr.Readable)

/-- **The piece that follows is matched**: what is stored grows by it, and the object of the piece
stays as it came. -/
theorem Collects.exists_matched (hs : Collects hdr p r.1 s) (hnew : NewHeader p.size 0 true now seq hdr)
    (hb : b ∉ s.mStore) (hpos : 0 < r.2) (hle : r.1 + r.2 ≤ p.size) (hpart : r.2 < p.size) :
    ∃ u v, s.acceptBundle b (pieceBundle hdr hread true p r) = some u ∧
      (u.logged b).matchFragments b = some v ∧ Collects hdr p (r.1 + r.2) v ∧
      v.heap b = u.heap b ∧ v.config = s.config ∧ v.seq = s.seq ∧ v.handed = s.handed ∧
      ∀ x ∈ v.mStore, x = b ∨ x ∈ s.mStore := by
  have hplain : PlainFragment (hdr.setIsFragment true) p (pieceBundle hdr hread true p r) :=
    plainFragment_pieceBundle hnew hpos hle
  have hpiece : (pieceBundle hdr hread true p r).piece = r := piece_pieceBundle hle
  have hsize : (pieceBundle hdr hread true p r).adu.size = r.2 := Packet.size_piece hle
  obtain ⟨u, v, haccept, hmatch, hv, hfills, hconfig, hmem⟩ :=
    hs.toReassembling.exists_matched hb hplain (hsize ▸ hpart) (by
      rw [hpiece, hs.covered]
      exact fun i hi hmem => absurd hmem.2 (Nat.not_lt.mpr hi.1))
  rw [hpiece, hs.covered] at hfills
  have hframe := frame_matchFragments hmatch
  obtain ⟨-, hseq, -, hhanded, -⟩ := rest_acceptBundle haccept
  have hheader : u.header b = pieceHeader hdr true r := header_acceptBundle haccept
  have hadu : u.aduSize b = r.2 := (BundleStore.aduSize_of_adu (adu_acceptBundle haccept)).trans hsize
  have hlt := p.size_lt_two_pow
  refine ⟨u, v, haccept, hmatch, ⟨hv, ?_⟩, ?_, hconfig, hframe.seq.trans hseq,
    hframe.handed.trans hhanded, hmem⟩
  · rw [hfills.eq fun hbetween => absurd hbetween.2.2 (by omega)]
    ext i
    simp only [Set.mem_union, Set.mem_Ico, mem_span]
    omega
  · have hmark : ((u.logged b).header b).isFragment = true := by
      show (u.header b).isFragment = true
      rw [hheader]
      exact BpHeader6.isFragment_setIsFragment _ _
    unfold matchFragments at hmatch
    rw [if_pos hmark] at hmatch
    refine heap_coalesce_of_not_head (s := u.logged b)
      (show u.aduSize b ≠ 0 from hadu ▸ Nat.ne_of_gt hpos) ?_ (fun it hit hne hhead => ?_) hmatch
    · exact ((nodup_acceptBundle hs.ordered.nodup hb haccept).filter _ :)
    · -- a stored piece starts before the new one
      have hmem' : it ∈ s.mStore :=
        (mem_acceptBundle haccept (BundleStore.mem_getBundles.mp hit).1).resolve_right fun h => hne h.1
      have hstart : (s.segment it).1 ∈ s.buffer.covered :=
        ⟨it, hmem', Nat.le_refl _, Nat.lt_add_of_pos_right (hs.separated.pos it hmem')⟩
      have hheap := heap_acceptBundle_of_ne haccept hne
      have hhead' : (u.header b).fragOffset + UInt32.ofNat (u.aduSize b) = (u.header it).fragOffset := hhead
      rw [hheader, hadu, BundleStore.header_congr hheap] at hhead'
      have hnat := congrArg UInt32.toNat hhead'
      have hend : (UInt32.ofNat r.1 + UInt32.ofNat r.2).toNat = r.1 + r.2 := by
        rw [← UInt32.ofNat_add, UInt32.toNat_ofNat_of_lt' (show r.1 + r.2 < 2 ^ 32 by omega)]
      rw [hs.covered] at hstart
      have hlo : (s.header it).fragOffset.toNat < r.1 := hstart.2
      have hsame : r.1 + r.2 = (s.header it).fragOffset.toNat := hend.symm.trans hnat
      omega

/-- **The piece that follows is acknowledged** as it came. -/
theorem Collects.exists_processBundle (hs : Collects hdr p r.1 s)
    (hnew : NewHeader p.size 0 true now seq hdr) (hseq : seq.toNat < 2 ^ 31) (ha : s.Answers hdr cust)
    (happ : s.ActiveApplication hdr) (hnext : s.seq.toNat < 2 ^ 31) (hb : b ∉ s.mStore)
    (hq : q ∉ s.mStore) (hqb : q ≠ b) (hpos : 0 < r.2) (hle : r.1 + r.2 ≤ p.size)
    (hpart : r.2 < p.size) :
    ∃ t tx, s.processBundle b q (pieceBundle hdr hread true p r) = some t ∧
      t.handed = s.handed ++ [tx] ∧ SignalsPiece s.config.eid cust hdr r tx ∧
      Collects hdr p (r.1 + r.2) t ∧ t.config = s.config ∧ t.seq = s.seq + 1 ∧
      ∀ x ∈ t.mStore, x = b ∨ x ∈ s.mStore := by
  obtain ⟨u, v, haccept, hmatch, hv, hheap, hconfig, hvseq, hhanded, hmem⟩ :=
    hs.exists_matched hread hnew hb hpos hle hpart
  have hheader : v.header b = pieceHeader hdr true r :=
    (BundleStore.header_congr hheap).trans (header_acceptBundle haccept)
  have hadu : (v.heap b).adu = some (p.piece r.1 r.2) := by
    rw [hheap]
    exact adu_acceptBundle haccept
  have hqv : q ∉ v.mStore := fun hmem' => (hmem q hmem').elim hqb hq
  have horderly : v.Orderly := hv.orderly (hnew.timestampSeqNum ▸ hseq)
  obtain ⟨t, tx, hsignal, hhanded', htx, hrest⟩ := (ha.of_config hconfig).exists_sendCustodySignal
    horderly (hvseq ▸ hnext) hqv hheader hadu hle
  have hlife : (v.header b).lifeTime = 0 := by
    rw [hheader]
    exact hnew.lifeTime
  have hcust : (pieceBundle hdr hread true p r).header.custTxReq = true :=
    (BpHeader6.custTxReq_setIsFragment _ _).trans hnew.custTxReq
  refine ⟨t, tx, (processBundle_active happ.active happ.other).mpr
    ⟨u, v, haccept, hmatch, Or.inr ⟨hcust, ?_⟩⟩, hhanded'.trans (hhanded ▸ rfl), hconfig ▸ htx,
    hv.of_heap hrest.mStore fun x hx => hrest.heap_stored hqv hx, hrest.config.trans hconfig,
    hrest.seq.trans (hvseq ▸ rfl), fun x hx => hmem x (hrest.mStore ▸ hx)⟩
  rw [hlife]
  exact hsignal

/-- **A bundle with the whole ADU is acknowledged** with the empty range. -/
theorem exists_processBundle_custody (hempty : s.mStore = [])
    (hnew : NewHeader p.size 0 true now seq hdr) (hseq : seq.toNat < 2 ^ 31) (ha : s.Answers hdr cust)
    (happ : s.ActiveApplication hdr) (hnext : s.seq.toNat < 2 ^ 31) (hqb : q ≠ b)
    (huri : hdr.getDestinationEid.uri = dst.uri) :
    ∃ t tx, s.processBundle b q (pieceBundle hdr hread false p (0, p.size)) = some t ∧
      t.handed = s.handed ++ [tx] ∧ SignalsPiece s.config.eid cust hdr (0, 0) tx ∧
      ∃ t', t.receive dst = some (t', some p) := by
  have hwhole : (pieceBundle hdr hread false p (0, p.size)).header.isFragment = false :=
    BpHeader6.isFragment_setIsFragment _ _
  have hlasting : (pieceBundle hdr hread false p (0, p.size)).header.lifeTime = 0 := hnew.lifeTime
  obtain ⟨u, haccept, hstore, hmatch⟩ := exists_accepted_whole (b := b) hempty hlasting hwhole
  have hempty' : Collects hdr p 0 s := collects_of_empty hempty
  have hb : b ∉ s.mStore := by simp [hempty]
  have hseq' : hdr.timestampSeqNum.toNat < 2 ^ 31 := hnew.timestampSeqNum ▸ hseq
  have horderly : (u.logged b).Orderly :=
    ((hempty'.orderly hseq').acceptBundle hb hseq' haccept).of_heap rfl rfl
  obtain ⟨hconfig, hsame, -, hhanded, -⟩ := rest_acceptBundle haccept
  have hheader : (u.logged b).header b = pieceHeader hdr false (0, p.size) :=
    header_acceptBundle haccept
  have hadu : ((u.logged b).heap b).adu = some (p.piece 0 p.size) := adu_acceptBundle haccept
  have hq : q ∉ (u.logged b).mStore := by
    show q ∉ u.mStore
    rw [hstore]
    exact fun hmem => hqb (List.mem_singleton.mp hmem)
  obtain ⟨t, tx, hsignal, hhanded', htx, hrest⟩ :=
    Answers.exists_sendCustodySignal (s := u.logged b) (ha.of_config hconfig) horderly (hsame ▸ hnext)
      hq hheader hadu (Nat.le_of_eq (Nat.zero_add _))
  have hlife : ((u.logged b).header b).lifeTime = 0 := by
    rw [hheader]
    exact hnew.lifeTime
  have hcust : (pieceBundle hdr hread false p (0, p.size)).header.custTxReq = true :=
    (BpHeader6.custTxReq_setIsFragment _ _).trans hnew.custTxReq
  have hkept : t.heap b = (u.logged b).heap b := hrest.heap b (Ne.symm hqb)
  refine ⟨t, tx, (processBundle_active happ.active happ.other).mpr
    ⟨u, _, haccept, hmatch, Or.inr ⟨hcust, ?_⟩⟩, hhanded'.trans (hhanded ▸ rfl), hconfig ▸ htx,
    receive_of_singleton (hrest.mStore.trans hstore)
      (horderly.of_sameKeys (hrest.sameKeys hq)).ordered ?_ ?_ ?_⟩
  · rw [hlife]
    exact hsignal
  · rw [BundleStore.header_congr hkept, hheader]
    exact huri
  · rw [BundleStore.header_congr hkept, hheader]
    exact BpHeader6.isFragment_setIsFragment _ _
  · rw [hkept, hadu, Packet.piece_size]

/-! ## All arrivals -/

/-- The bundles that arrive, and the signals about them, get addresses of their own. -/
structure FreshFor (s : BpAgent6) (datagrams : List Datagram) : Prop where
  ptr : (datagrams.map Datagram.ptr).Nodup
  new : ∀ d ∈ datagrams, d.ptr ∉ s.mStore ∧ d.signal ∉ s.mStore
  signal : ∀ d ∈ datagrams, ∀ d' ∈ datagrams, d.signal ≠ d'.ptr

/-- After the first one. -/
theorem FreshFor.tail {d : Datagram} {datagrams : List Datagram} (h : s.FreshFor (d :: datagrams))
    (hmem : ∀ x ∈ t.mStore, x = d.ptr ∨ x ∈ s.mStore) : t.FreshFor datagrams := by
  obtain ⟨hptr, hptrs⟩ := List.nodup_cons.mp h.ptr
  refine ⟨hptrs, fun d' hd' => ?_, fun d₁ h₁ d₂ h₂ =>
    h.signal d₁ (List.mem_cons_of_mem d h₁) d₂ (List.mem_cons_of_mem d h₂)⟩
  have hd'' := List.mem_cons_of_mem d hd'
  obtain ⟨hb, hq⟩ := h.new d' hd''
  exact ⟨fun hx => (hmem _ hx).elim (fun heq => hptr (heq ▸ List.mem_map_of_mem hd')) hb,
    fun hx => (hmem _ hx).elim (h.signal d' hd'' d List.mem_cons_self) hq⟩

/-- **The pieces that follow are acknowledged**, one after another, and then all of the ADU is stored. -/
theorem Collects.exists_receiveAll {n : ℕ} {ps : List (ℕ × ℕ)} {datagrams : List Datagram}
    {txs : List Transmission} (hs : Collects hdr p n s) (hnew : NewHeader p.size 0 true now seq hdr)
    (hread : hdr.Readable) (hsize : p.size < 2 ^ 28) (hseq : seq.toNat < 2 ^ 31)
    (ha : s.Answers hdr cust) (happ : s.ActiveApplication hdr) (htiles : Tiles ps n p.size)
    (hparts : ∀ r ∈ ps, r.2 < p.size) (hpieces : List.Forall₂ (fun tx r => tx.OfPiece hdr true p r) txs ps)
    (hcarried : List.Forall₂ Datagram.Carries datagrams txs)
    (hnext : s.seq.toNat + ps.length ≤ 2 ^ 31) (hfresh : s.FreshFor datagrams) :
    ∃ t sigs, s.receiveAll datagrams = some t ∧ Collects hdr p p.size t ∧
      t.handed = s.handed ++ sigs ∧ List.Forall₂ (SignalsPiece s.config.eid cust hdr) ps sigs := by
  induction hcarried generalizing s n ps with
  | nil =>
    cases hpieces
    cases htiles
    exact ⟨s, [], rfl, hs, (List.append_nil _).symm, .nil⟩
  | @cons d tx datagrams txs hd _ ih =>
    cases hpieces with
    | @cons _ r _ ps htx hpieces =>
      have hpart := hparts r List.mem_cons_self
      rw [List.length_cons] at hnext
      cases htiles with
      | cons hpos htiles =>
        obtain ⟨hb, hq⟩ := hfresh.new d List.mem_cons_self
        have hqb := hfresh.signal d List.mem_cons_self d List.mem_cons_self
        obtain ⟨u, tx', hu, hhanded, htx', hcollects, hconfig, hsame, hmem⟩ :=
          hs.exists_processBundle hread hnew hseq ha happ (by omega) hb hq hqb hpos htiles.le
            hpart
        have hnext' : u.seq.toNat + ps.length ≤ 2 ^ 31 := by
          rw [hsame, UInt32.toNat_add, UInt32.toNat_one, Nat.mod_eq_of_lt (by omega)]
          omega
        obtain ⟨t, sigs, ht, hall, hhanded', htxs⟩ := ih hcollects (ha.of_config hconfig)
          (happ.of_config hconfig) htiles (fun r hr => hparts r (List.mem_cons_of_mem _ hr)) hpieces
          hnext' (hfresh.tail hmem)
        refine ⟨t, tx' :: sigs, ?_, hall, ?_, .cons htx' (hconfig ▸ htxs)⟩
        · have hone : s.receiveDatagram d = some u := by
            rw [receiveDatagram, hd.dataRecv htx hnew.cbhe hnew.lifeTime hread hsize]
            exact hu
          exact Option.bind_eq_some_iff.mpr ⟨u, hone, ht⟩
        · rw [hhanded', hhanded, List.append_assoc, List.singleton_append]

end Arrival

end BpAgent6
end BundleProtocol
