import BundleProtocol.Acknowledging

/-! # The custody handshake

A bundle that is sent with custody, the signals it is answered with, and its release.  Where no
packet is lost and none overtakes another, the signals about the fragments of an ADU come back in
the order of the fragments, the acknowledged range grows from the front, and the last signal
releases the bundle (`Custodian.exists_receiveAll`).  The signal about a bundle that carries the whole ADU
acknowledges the empty range, so the sender keeps what it did not have to cut
(`custody_handshake_iff`).

Both agents are followed by an invariant over the arrivals that are still to come.  At the receiver it is
the one of `Acknowledging`: a front part of the ADU is collected, and a signal has gone out for each
piece of it.  At the sender (`Custodian`) the bundle is stored with one acknowledged range, whose end is
where the next signal begins.  The two are joined by the medium: what one hands over, the other takes
in the same order.

No result is assumed.  Each step of either invariant shows that the operation returns, which takes fresh
addresses for the bundles that arrive and for the signals (`FreshFor`), stores in order, and room for
a signal in one bundle: a signal that is cut is no record at the other end.
-/
namespace BundleProtocol
open Tiling

namespace BpAgent6
variable {s t u v : BpAgent6} {b q x y : Ptr} {p : Packet} {src dst own cust : BpEndpointId}
  {hdr h : BpHeader6} {tx : Transmission} {d : Datagram} {cs : CustodySignal} {r : ℕ × ℕ}
  {acks : List (UInt32 × UInt32)} {seq : UInt32} {now : Time}

/-! ## The acknowledged range -/

/-- The first `n` bytes are acknowledged. -/
def AckedUpTo (n : ℕ) (acks : List (UInt32 × UInt32)) : Prop :=
  acks = [] ∧ n = 0 ∨ acks = [(0, UInt32.ofNat n)]

/-- The range grows by the piece that follows. -/
theorem AckedUpTo.addAck (hacks : AckedUpTo r.1 acks) (hcs : Acknowledgement hdr r cs) (hpos : 0 < r.2)
    (hlt : r.1 + r.2 < 2 ^ 32) : addAck (thisack cs) acks = [(0, UInt32.ofNat (r.1 + r.2))] := by
  have hthis : thisack cs = (UInt32.ofNat r.1, UInt32.ofNat (r.1 + r.2)) := by
    unfold thisack
    rw [hcs.offset, hcs.length, UInt32.ofNat_add]
  have hne : UInt32.ofNat (r.1 + r.2) ≠ 0 := by
    intro hzero
    have hnat := congrArg UInt32.toNat hzero
    rw [UInt32.toNat_ofNat_of_lt' hlt] at hnat
    exact absurd hnat (by rw [UInt32.toNat_zero]; omega)
  rw [hthis]
  rcases hacks with ⟨rfl, hzero⟩ | rfl
  · rw [hzero]
    rfl
  · have hmerge : mergeAck (UInt32.ofNat r.1, UInt32.ofNat (r.1 + r.2)) (0, UInt32.ofNat r.1) =
        (0, UInt32.ofNat (r.1 + r.2)) := by
      unfold mergeAck
      dsimp only
      rw [if_pos rfl, if_neg hne]
    exact congrArg (fun ack => [ack]) hmerge

/-- The empty range acknowledges nothing. -/
theorem not_completes_of_empty {cs : CustodySignal} (hcs : Acknowledgement hdr (0, 0) cs)
    (hacks : (s.heap x).acks = []) (hpos : 0 < (s.header x).aduLength.toNat) : ¬s.Completes x cs := by
  have hthis : thisack cs = (0, 0) := by
    unfold thisack
    rw [hcs.offset, hcs.length]
    rfl
  unfold Completes
  rw [hacks, hthis]
  intro hfull
  have hends : ((0 : UInt32) == 0 && (0 : UInt32) == (s.header x).aduLength) = true := hfull
  have hzero := beq_iff_eq.mp (Bool.and_eq_true_iff.mp hends).2
  rw [← hzero] at hpos
  exact absurd hpos (by decide)

/-! ## A signal that comes back -/

/-- The agent keeps the only bundle with the name of `hdr` at `x`, and is registered for its own
endpoint id. -/
structure Custodian (s : BpAgent6) (x : Ptr) (hdr : BpHeader6) : Prop where
  orderly : s.Orderly
  stored : x ∈ s.mStore
  named : Named hdr (s.header x)
  aduLength : (s.header x).aduLength = hdr.aduLength
  only : ∀ y ∈ s.mStore, Named hdr (s.header y) → y = x
  active : s.findRegistration s.config.eid = some true

/-- A signal about `hdr` is about the only stored bundle with its name. -/
theorem signalled_of_only (hcs : Acknowledgement hdr r cs) (hx : x ∈ s.mStore)
    (hnamed : Named hdr (s.header x)) (honly : ∀ y ∈ s.mStore, Named hdr (s.header y) → y = x) :
    s.signalled cs = some x := by
  have hnames : ∀ y, BundleStore.Names (s.header y) (.ofUri cs.srcEid) cs.creationTimestamp cs.seqNo ↔
      Named hdr (s.header y) := by
    intro y
    unfold Named BundleStore.Names
    rw [BpEndpointId.beq_iff, BpEndpointId.beq_iff, BpEndpointId.uri_ofUri, hcs.about.source,
      hcs.about.createTimestamp, hcs.about.timestampSeqNum]
  unfold signalled
  rw [if_pos hcs.status]
  obtain ⟨y, hy⟩ : ∃ y, s.getBundle (.ofUri cs.srcEid) cs.creationTimestamp cs.seqNo = some y :=
    Option.isSome_iff_exists.mp (List.find?_isSome.mpr ⟨x, hx, decide_eq_true ((hnames x).mpr hnamed)⟩)
  have htest := List.find?_some hy
  rw [decide_eq_true_eq, hnames] at htest
  rw [hy, honly y (List.mem_of_find?_eq_some hy) htest]

/-- **A signal for the agent** is processed, and the bundle that brought it is discarded. -/
theorem enqueue_of_signal (hagent : s.isForAgent b = true) (hadu : (s.heap b).adu = some p)
    (hsignals : Signals p cs) :
    ∃ w, ∀ v, ((s.logged b).withAdu b w).processCustodySignal cs = some v → v.Ordered →
      (v.heap b).adu ≠ none → (v.header b).isFragment = false →
      s.enqueueForDeliveryToApplication b = some (v.discarded b) := by
  obtain ⟨ar, rest, rest', har, hkind, hcs⟩ := hsignals
  have hne : p.bytes ≠ [] := by
    intro hnil
    rw [hnil] at har
    cases har
  obtain ⟨ar', rest₂, har', hlength⟩ := adminRecord_removeFrom hne
  cases har.symm.trans har'
  obtain ⟨p₁, hp₁⟩ := exists_packet p.size_lt hlength
  obtain ⟨p₂, hp₂⟩ := exists_packet p₁.size_lt
    (hp₁ ▸ custodySignal_removeFrom_length hcs)
  refine ⟨p₂, fun v hv hord hadu' hwhole => ?_⟩
  have hself : ((s.logged b).heap b).adu = some p := hadu
  have hfirst : (s.logged b).stripAdu b AdminRecord.removeFrom =
      some (ar, (s.logged b).withAdu b p₁) :=
    (stripAdu_eq_some hself).mpr ⟨p₁, by rw [har, hp₁], rfl⟩
  have hsecond : ((s.logged b).withAdu b p₁).stripAdu b CustodySignal.removeFrom =
      some (cs, (s.logged b).withAdu b p₂) :=
    (stripAdu_eq_some (adu_withAdu_self _ b p₁)).mpr
      ⟨p₂, by rw [hp₁, hcs, hp₂], (withAdu_withAdu _ b p₁ p₂).symm⟩
  have hhandle : ((s.logged b).withAdu b p₁).handleAdminRecord b ar = some v := by
    unfold handleAdminRecord
    rw [if_pos hkind, hsecond]
    exact hv
  have hadmin : (s.logged b).processAdminRecord b = some (v.discarded b) := by
    refine Option.bind_eq_some_iff.mpr ⟨_, hfirst, Option.bind_eq_some_iff.mpr ⟨v, hhandle, ?_⟩⟩
    exact Option.bind_eq_some_iff.mpr
      ⟨v.removed b, removeFromStore_eq_some.mpr ⟨hord, fun _ => hadu', rfl⟩, rfl⟩
  -- nothing is matched with what is gone
  have hmatch : (v.discarded b).matchFragments b = some (v.discarded b) := by
    unfold matchFragments
    rw [header_discarded, hwhole]
    rfl
  unfold enqueueForDeliveryToApplication
  have hagent' : (s.logged b).isForAgent b = true := hagent
  dsimp only
  rw [show ({ s with delivered := s.delivered ++ [(s.sim.now, b, s.header b)] } : BpAgent6) =
    s.logged b from rfl, if_pos hagent', hadmin]
  exact hmatch

/-- What arrives is taken out again without a trace. -/
theorem UnderWay.erase_mStore (h : UnderWay hdr p dst seq now) (hb : b ∉ s.mStore)
    (haccept : s.acceptBundle b h.bundle = some u) : u.mStore.erase b = s.mStore := by
  have hlife : h.bundle.header.lifeTime = 0 := h.header.lifeTime
  rcases acceptBundle_eq_some.mp haccept with ⟨hexpired, -⟩ | ⟨-, -, rfl⟩
  · have hlife' := hexpired.1
    rw [header_arrived_self] at hlife'
    exact absurd hlife hlife'
  · exact OrderedList.erase_insert (l := s.mStore) hb

theorem findRegistration_of_config (hconfig : t.config = s.config) (eid : BpEndpointId) :
    t.findRegistration eid = s.findRegistration eid := by
  unfold findRegistration
  rw [hconfig]

theorem Custodian.of_sameKeys (hs : s.Custodian x hdr) (hkeys : SameKeys s t) (hx : x ∈ t.mStore)
    (hlength : (t.header x).aduLength = (s.header x).aduLength) (hconfig : t.config = s.config) :
    t.Custodian x hdr where
  orderly := hs.orderly.of_sameKeys hkeys
  stored := hx
  named := (named_congr (hkeys.header x hx)).mpr hs.named
  aduLength := hlength.trans hs.aduLength
  only y hy hnamed := hs.only y (hkeys.mStore.subset hy) ((named_congr (hkeys.header y hy)).mp hnamed)
  active := by
    rw [findRegistration_of_config hconfig, hconfig]
    exact hs.active

/-- The bundle with the signal has another source, and so another name. -/
theorem Custodian.accepted (hs : s.Custodian x hdr) (hway : UnderWay h p cust seq now)
    (hsource : h.getSourceEid.uri ≠ hdr.getSourceEid.uri) (hb : b ∉ s.mStore) :
    ∃ u, s.acceptBundle b hway.bundle = some u ∧ u.Custodian x hdr ∧ x ≠ b ∧ u.heap x = s.heap x ∧
      u.config = s.config ∧ u.mStore.erase b = s.mStore := by
  obtain ⟨u, haccept, horderly, -, hconfig, -⟩ := hway.accepted hs.orderly hb
  have herase := hway.erase_mStore hb haccept
  have hxb : x ≠ b := fun heq => hb (heq ▸ hs.stored)
  have hheap : ∀ y, y ≠ b → u.heap y = s.heap y := fun y => heap_acceptBundle_of_ne haccept
  refine ⟨u, haccept, ⟨horderly, ?_, ?_, ?_, fun y hy hnamed => ?_, ?_⟩, hxb, hheap x hxb, hconfig,
    herase⟩
  · have hmem := hs.stored
    rw [← herase] at hmem
    exact List.mem_of_mem_erase hmem
  · rw [BundleStore.header_congr (hheap x hxb)]
    exact hs.named
  · rw [BundleStore.header_congr (hheap x hxb)]
    exact hs.aduLength
  · by_cases hyb : y = b
    · subst hyb
      rw [header_acceptBundle haccept] at hnamed
      exact absurd (BpEndpointId.beq_iff.mp hnamed.1) hsource
    · rw [BundleStore.header_congr (hheap y hyb)] at hnamed
      exact hs.only y ((mem_acceptBundle haccept hy).resolve_right fun hself => hyb hself.1) hnamed
  · rw [findRegistration_of_config hconfig, hconfig]
    exact hs.active

/-- **The signal is delivered** to the agent: it completes the acknowledged range and the bundle is
released, or the range has grown and nothing else is left of it. -/
theorem Custodian.exists_deliver (hs : s.Custodian x hdr) (hcs : Acknowledgement hdr r cs)
    (hsignals : Signals p cs) (hxb : x ≠ b) (hadu : (s.heap b).adu = some p)
    (huri : (s.header b).getDestinationEid.uri = s.config.eid.uri)
    (hwhole : (s.header b).isFragment = false) (hcust : (s.header b).custTxReq = false) :
    ∃ t, s.deliver b q = some t ∧ (s.Completes x cs ∧ x ∉ t.mStore ∨
      ¬s.Completes x cs ∧ t.Custodian x hdr ∧ t.config = s.config ∧ t.mStore = s.mStore.erase b ∧
        (t.heap x).acks = addAck (thisack cs) (s.heap x).acks) := by
  have hagent : s.isForAgent b = true := BpEndpointId.beq_iff.mpr huri
  obtain ⟨w, henqueue⟩ := enqueue_of_signal hagent hadu hsignals
  have hheader : ∀ y, ((s.logged b).withAdu b w).header y = s.header y :=
    fun y => (s.logged b).header_withAdu b y w
  have hheap : ((s.logged b).withAdu b w).heap x = s.heap x := heap_modify_of_ne _ hxb _
  have hsignalled : ((s.logged b).withAdu b w).signalled cs = some x := by
    refine signalled_of_only hcs hs.stored ?_ fun y hy => ?_
    · rw [hheader]
      exact hs.named
    · rw [hheader]
      exact hs.only y hy
  have hcompletes : ((s.logged b).withAdu b w).Completes x cs ↔ s.Completes x cs := by
    unfold Completes
    rw [hheader, hheap]
  have hkeys : SameKeys s ((s.logged b).withAdu b w) :=
    (deliveryClosed_sameKeys s).withAdu ((deliveryClosed_sameKeys s).delivered (.refl s))
  have hordered := (hs.orderly.of_sameKeys hkeys).ordered
  -- the registration takes what is for the agent
  have hdeliver : ∀ v, ((s.logged b).withAdu b w).processCustodySignal cs = some v →
      (v.heap b).adu ≠ none → v.header b = s.header b → s.deliver b q = some (v.discarded b) := by
    intro v hv hadu' hkept
    have hord := (hs.orderly.of_sameKeys (hkeys.trans (sameKeys_processCustodySignal hv))).ordered
    have hrun := henqueue v hv hord hadu' (hkept ▸ hwhole)
    refine deliver_eq_some.mpr (Or.inr ⟨true, _, ?_, hrun, Or.inl ⟨?_, rfl⟩⟩)
    · rw [findRegistration_congr huri]
      exact hs.active
    · rw [header_discarded, hkept]
      exact hcust
  have hacked : (((s.logged b).withAdu b w).acked x cs).heap b = ((s.logged b).withAdu b w).heap b :=
    heap_acked_of_ne _ cs (Ne.symm hxb)
  have hadu' : ((((s.logged b).withAdu b w).acked x cs).heap b).adu ≠ none := by
    rw [hacked, adu_withAdu_self]
    exact Option.some_ne_none w
  have hkept : (((s.logged b).withAdu b w).acked x cs).header b = s.header b :=
    (header_acked _ x b cs).trans (hheader b)
  by_cases hfull : s.Completes x cs
  · have hadux : (((s.logged b).withAdu b w).heap x).adu ≠ none := by
      rw [hheap]
      exact hs.orderly.adu x hs.stored
    have hsignal := processCustodySignal_eq_some.mpr
      (Or.inr ⟨x, hsignalled, Or.inr ⟨hcompletes.mpr hfull, hordered, hadux, rfl⟩⟩)
    refine ⟨_, hdeliver _ hsignal ?_ ?_, Or.inl ⟨hfull, fun hmem => ?_⟩⟩
    · rw [heap_discarded_of_ne _ (Ne.symm hxb)]
      exact hadu'
    · rw [header_discarded]
      exact hkept
    · exact hordered.nodup.not_mem_erase (List.mem_of_mem_erase hmem)
  · have hsignal := processCustodySignal_eq_some.mpr
      (Or.inr ⟨x, hsignalled, Or.inl ⟨mt hcompletes.mp hfull, rfl⟩⟩)
    have hrun := hdeliver _ hsignal hadu' hkept
    refine ⟨_, hrun, Or.inr ⟨hfull, hs.of_sameKeys ?_ ?_ ?_ rfl, rfl, rfl, ?_⟩⟩
    · have hkeys' := hkeys.trans (sameKeys_processCustodySignal hsignal)
      exact hkeys'.trans (sameKeys_discarded (hs.orderly.of_sameKeys hkeys').ordered b)
    · exact (List.mem_erase_of_ne hxb).mpr hs.stored
    · rw [header_discarded, header_acked, hheader]
    · rw [heap_discarded_of_ne _ hxb, acks_acked, hheap]

/-- **A signal comes back** to the sender. -/
theorem Custodian.exists_receiveDatagram (hs : s.Custodian x hdr) (htx : SignalsPiece own cust hdr r tx)
    (hd : d.Carries tx) (hown : sourceUri own ≠ some hdr.getSourceEid.uri)
    (hcust : cust.uri = s.config.eid.uri) (hb : d.ptr ∉ s.mStore) :
    ∃ cs t, Acknowledgement hdr r cs ∧ s.receiveDatagram d = some t ∧
      (s.Completes x cs ∧ x ∉ t.mStore ∨
        ¬s.Completes x cs ∧ t.Custodian x hdr ∧ t.config = s.config ∧ t.mStore = s.mStore ∧
          (t.heap x).acks = addAck (thisack cs) (s.heap x).acks) := by
  obtain ⟨h, p, seq, now, cs, hway, hsource, hpiece, hsignals, hcs⟩ := htx
  obtain ⟨u, haccept, hu, hxb, hheap, hconfig, herase⟩ :=
    hs.accepted hway (fun heq => hown (hsource.trans (congrArg some heq))) hb
  have hheader : u.header d.ptr = pieceHeader h false (0, p.size) := header_acceptBundle haccept
  have hadu : (u.heap d.ptr).adu = some p :=
    (adu_acceptBundle haccept).trans (congrArg some p.piece_size)
  have huri : (u.header d.ptr).getDestinationEid.uri = u.config.eid.uri := by
    rw [hheader, hconfig]
    exact hway.destination.trans hcust
  obtain ⟨t, hdeliver, hcase⟩ := hu.exists_deliver (q := d.signal) hcs hsignals hxb hadu huri
    (by rw [hheader]; exact BpHeader6.isFragment_setIsFragment _ _)
    (by rw [hheader]; exact (BpHeader6.custTxReq_setIsFragment _ _).trans hway.header.custTxReq)
  have hmember : u.isNodeMember (u.header d.ptr).getDestinationEid = true := by
    rw [isNodeMember_congr huri]
    exact isNodeMember_of_find hu.active
  have hcompletes : u.Completes x cs ↔ s.Completes x cs := by
    unfold Completes
    rw [BundleStore.header_congr hheap, hheap]
  refine ⟨cs, t, hcs, ?_, ?_⟩
  · rw [hway.receiveDatagram hpiece hd]
    exact processBundle_eq_some.mpr ⟨u, haccept, Or.inl ⟨hmember, hdeliver⟩⟩
  · rw [← hcompletes, ← hconfig, ← herase, ← hheap]
    exact hcase

/-- The acknowledged range is complete when it reaches the end of the ADU. -/
theorem Custodian.completes_iff (hs : s.Custodian x hdr) (hcs : Acknowledgement hdr r cs)
    (hacks : AckedUpTo r.1 (s.heap x).acks) (hpos : 0 < r.2) (hle : r.1 + r.2 ≤ hdr.aduLength.toNat) :
    s.Completes x cs ↔ r.1 + r.2 = hdr.aduLength.toNat := by
  have hlt : r.1 + r.2 < 2 ^ 32 := Nat.lt_of_le_of_lt hle hdr.aduLength.toNat_lt
  have hfull : ∀ n L : UInt32, fullyAcked [(0, n)] L = true ↔ n = L := by
    simp [fullyAcked]
  unfold Completes
  rw [hacks.addAck hcs hpos hlt, hs.aduLength, hfull, ← UInt32.toNat_inj,
    UInt32.toNat_ofNat_of_lt' hlt]

/-- **The signals about the pieces come back in order**: the bundle is released with the last one. -/
theorem Custodian.exists_receiveAll {n : ℕ} {ps : List (ℕ × ℕ)} {datagrams : List Datagram}
    {sigs : List Transmission} (hs : s.Custodian x hdr) (hacks : AckedUpTo n (s.heap x).acks)
    (htiles : Tiles ps n hdr.aduLength.toNat) (hne : ps ≠ [])
    (hsigs : List.Forall₂ (SignalsPiece own cust hdr) ps sigs)
    (hcarried : List.Forall₂ Datagram.Carries datagrams sigs)
    (hown : sourceUri own ≠ some hdr.getSourceEid.uri) (hcust : cust.uri = s.config.eid.uri)
    (hb : ∀ d ∈ datagrams, d.ptr ∉ s.mStore) :
    ∃ t, s.receiveAll datagrams = some t ∧ x ∉ t.mStore := by
  induction hsigs generalizing s n datagrams with
  | nil => exact absurd rfl hne
  | @cons r sig ps sigs hsig hsigs ih =>
    cases hcarried with
    | @cons d _ datagrams _ hd hcarried =>
      cases htiles with
      | cons hpos htiles =>
        obtain ⟨cs, u, hcs, hu, hcase⟩ :=
          hs.exists_receiveDatagram hsig hd hown hcust (hb d List.mem_cons_self)
        rw [hs.completes_iff hcs hacks hpos htiles.le] at hcase
        rcases hcase with ⟨hend, hgone⟩ | ⟨hmore, hcustodian, hconfig, hstore, hgrown⟩
        · -- then this was the last piece
          obtain rfl := htiles.eq_nil_iff.mpr hend
          cases hsigs
          cases hcarried
          exact ⟨u, Option.bind_eq_some_iff.mpr ⟨u, hu, rfl⟩, hgone⟩
        · have hlt := Nat.lt_of_le_of_lt htiles.le hdr.aduLength.toNat_lt
          obtain ⟨t, ht, hgone⟩ := ih hcustodian (Or.inr (hgrown.trans (hacks.addAck hcs hpos hlt)))
            htiles (mt htiles.eq_nil_iff.mp hmore) hcarried (hconfig ▸ hcust)
            (fun d' hd' => hstore ▸ hb d' (List.mem_cons_of_mem d hd'))
          exact ⟨t, Option.bind_eq_some_iff.mpr ⟨u, hu, ht⟩, hgone⟩

/-! ## The sender -/

/-- A bundle without a lifetime is stored by `Send`, and has no acknowledgements. -/
theorem stored_createBundle {custody : Bool} {priority : UInt32}
    (hrun : s.createBundle b p src dst 0 custody priority = some t) :
    b ∈ t.mStore ∧ ∀ y ∈ t.mStore, y = b ∨ y ∈ s.mStore := by
  obtain ⟨h, hnew, ⟨hexpired, -⟩ | ⟨-, -, rfl⟩⟩ := createBundle_eq_some.mp hrun
  · have hlife := hexpired.1
    rw [header_created_self, (newHeader_spec hnew).lifeTime] at hlife
    exact absurd rfl hlife
  · refine ⟨BundleStore.mem_stored.mpr (Or.inl rfl), fun y hy => ?_⟩
    rcases BundleStore.mem_stored.mp hy with hself | hold
    · exact Or.inl hself
    · exact Or.inr hold

/-- **A bundle is sent with custody**: the agent is its custodian, if its place in the store is still
right. -/
theorem custodian_of_send {priority : UInt32} {txs : List Transmission} (hs : s.Orderly)
    (hb : b ∉ s.mStore) (hseq : s.seq.toNat < 2 ^ 31) (hactive : s.findRegistration s.config.eid = some true)
    (hnew : newHeader s.config.eid p.size src dst 0 true priority s.sim.now s.seq = some hdr)
    (hfree : ∀ y ∈ s.mStore, ¬Named hdr (s.header y))
    (hsend : s.send b p src dst 0 true priority = some (t, 0)) (hord : t.Ordered)
    (hhanded : t.handed = s.handed ++ txs) (hready : txs ≠ []) :
    t.Custodian b hdr ∧ t.config = s.config ∧ (t.heap b).acks = [] := by
  rcases send_eq_some.mp hsend with ⟨-, -, hcode⟩ | ⟨-, u, hcreate, hforward, -⟩
  · exact absurd hcode (by decide)
  have hu := hs.createBundle hb hseq hcreate
  obtain ⟨hself, hold⟩ := stored_createBundle hcreate
  obtain ⟨hconfig, hlog, -⟩ := rest_createBundle hcreate
  obtain ⟨hdr', id, hnew', hobject⟩ := heap_createBundle hcreate
  obtain rfl : hdr = hdr' := Option.some.inj (hnew.symm.trans hnew')
  have hheader : u.header b = hdr := congrArg Bundle6.primaryHeader hobject
  rcases forward_eq_some.mp hforward with ⟨-, rfl⟩ | ⟨cla, adu, -, -, hm, hcase⟩
  · -- nothing was handed over
    exact absurd (List.self_eq_append_right.mp (hlog.symm.trans hhanded)) hready
  have hsent := u.sentBundle b cla hm
  rcases hcase with ⟨-, rfl⟩ | ⟨hnone, -⟩
  · obtain ⟨hstore, -, hconfig', -⟩ := u.rest_sent b cla adu
    have hsame : hdr.SameBundle ((u.sent b cla adu).header b) := hheader ▸ hsent.header
    refine ⟨⟨⟨⟨hord, fun y hy => ?_⟩, fun y hy => ?_⟩, hstore ▸ hself, ?_, hsame.aduLength,
      fun y hy hnamed => ?_, ?_⟩, hconfig'.trans hconfig, ?_⟩
    · rw [adu_sent hm]
      exact hu.adu y (hstore ▸ hy)
    · rw [(header_sent hm y).timestampSeqNum]
      exact hu.seq y (hstore ▸ hy)
    · exact (named_congr hsame).mpr ⟨BpEndpointId.beq_self _, rfl, rfl⟩
    · by_contra hyb
      rw [header_sent_of_ne hyb, BundleStore.header_congr (heap_createBundle_of_ne hcreate hyb)] at hnamed
      exact hfree y ((hold y (hstore ▸ hy)).resolve_left hyb) hnamed
    · rw [findRegistration_of_config (hconfig'.trans hconfig), hconfig'.trans hconfig]
      exact hactive
    · rw [hsent.acks, hobject]
      rfl
  · -- the custody of the bundle retains it
    rw [hsent.retentionConstraints, hobject] at hnone
    have hkept : ((dispatchPending ||| custodyAccepted ||| forwardPending) &&& ~~~dispatchPending &&&
      ~~~forwardPending) ≠ 0 := by decide
    exact absurd hnone hkept

/-! ## The receiver -/

/-- The receiver has an empty store, takes the bundle for an application and answers its custodian. -/
structure Responds (s : BpAgent6) (hdr : BpHeader6) (cust : BpEndpointId) : Prop extends
    Answers s hdr cust, ActiveApplication s hdr where
  empty : s.mStore = []

section Receiver
variable {datagrams : List Datagram} {txs : List Transmission} (hs : s.Responds hdr cust)
  (hnew : NewHeader p.size 0 true now seq hdr) (hread : hdr.Readable) (hsize : p.size < 2 ^ 28)
  (hseq : seq.toNat < 2 ^ 31) (huri : hdr.getDestinationEid.uri = dst.uri)
  (hcarried : List.Forall₂ Datagram.Carries datagrams txs) (hfresh : s.FreshFor datagrams)
  (hnext : s.seq.toNat + txs.length ≤ 2 ^ 31)
include hs hnew hread hsize hseq huri hcarried hfresh hnext

/-- **The fragments arrive in order**: the ADU is received, and each fragment is answered with its range. -/
theorem Responds.exists_receive_pieces {ps : List (ℕ × ℕ)} (htiles : Tiles ps 0 p.size)
    (hcount : 2 ≤ ps.length) (hpieces : List.Forall₂ (fun tx r => tx.OfPiece hdr true p r) txs ps) :
    ∃ t t' sigs, s.receiveAll datagrams = some t ∧ t.receive dst = some (t', some p) ∧
      t.handed = s.handed ++ sigs ∧ List.Forall₂ (SignalsPiece s.config.eid cust hdr) ps sigs := by
  have hempty : Collects hdr p 0 s := collects_of_empty hs.empty
  obtain ⟨t, sigs, hrun, ht, hhanded, hsigs⟩ := hempty.exists_receiveAll hnew hread hsize hseq
    hs.toAnswers hs.toActiveApplication htiles (fun r hr => htiles.length_lt hcount hr) hpieces hcarried
    (hpieces.length_eq ▸ hnext) hfresh
  obtain ⟨r, hr⟩ := List.exists_mem_of_length_pos (l := ps) (by omega)
  have hpos := Nat.zero_lt_of_lt (htiles.length_lt hcount hr)
  have hreassembled := (ht.toReassembling.reassembled_iff hpos).mpr ht.covered
  obtain ⟨t', hreceive⟩ := hreassembled.receive dst huri.symm
  exact ⟨t, t', sigs, hrun, hreceive, hhanded, hsigs⟩

/-- **The ADU arrives in one bundle**: it is received, and answered with the empty range. -/
theorem Responds.exists_receive_whole
    (hpieces : List.Forall₂ (fun tx r => tx.OfPiece hdr false p r) txs [(0, p.size)]) :
    ∃ t t' sigs, s.receiveAll datagrams = some t ∧ t.receive dst = some (t', some p) ∧
      t.handed = s.handed ++ sigs ∧
      List.Forall₂ (SignalsPiece s.config.eid cust hdr) [(0, 0)] sigs := by
  obtain ⟨tx, _, htx, hnil, rfl⟩ := List.forall₂_cons_right_iff.mp hpieces
  cases hnil
  obtain ⟨d, _, hd, hnil, rfl⟩ := List.forall₂_cons_right_iff.mp hcarried
  cases hnil
  have hqb := hfresh.signal d List.mem_cons_self d List.mem_cons_self
  rw [List.length_singleton] at hnext
  obtain ⟨t, sig, hrun, hhanded, hsig, t', hreceive⟩ := exists_processBundle_custody hread hs.empty hnew
    hseq hs.toAnswers hs.toActiveApplication (by omega) hqb huri
  have hone : s.receiveDatagram d = some t := by
    rw [receiveDatagram, hd.dataRecv htx hnew.cbhe hnew.lifeTime hread hsize]
    exact hrun
  exact ⟨t, t', [sig], Option.bind_eq_some_iff.mpr ⟨t, hone, rfl⟩, hreceive, hhanded, .cons hsig .nil⟩

end Receiver

/-! ## Both sides -/

/-- Each answer is a signal about the bundle. -/
theorem forall_mem_of_signals {ranges : List (ℕ × ℕ)} {sigs : List Transmission}
    (hsigs : List.Forall₂ (SignalsPiece own cust hdr) ranges sigs) :
    ∀ sig ∈ sigs, ∃ range, SignalsPiece own cust hdr range sig := by
  induction hsigs with
  | nil => exact fun sig hsig => absurd hsig List.not_mem_nil
  | cons hfirst _ ih =>
    intro sig hsig
    rcases List.mem_cons.mp hsig with rfl | hsig
    · exact ⟨_, hfirst⟩
    · exact ih sig hsig

/-- **The custody handshake**: an ADU is sent with custody, and what carries it reaches the receiver in
order.  The receiver returns the ADU and answers, and when the answers reach the sender in order
it releases the bundle if and only if it had to cut the ADU. -/
theorem custody_handshake_iff {r : BpAgent6} {priority : UInt32} {txs : List Transmission}
    {datagrams : List Datagram} (hs : s.Orderly) (hb : b ∉ s.mStore) (hseq : s.seq.toNat < 2 ^ 31)
    (hactive : s.findRegistration s.config.eid = some true) (hpos : 0 < p.size) (hsize : p.size < 2 ^ 28)
    (hnew : newHeader s.config.eid p.size src dst 0 true priority s.sim.now s.seq = some hdr)
    (hfree : ∀ y ∈ s.mStore, ¬Named hdr (s.header y))
    (hsend : s.send b p src dst 0 true priority = some (t, 0)) (hord : t.Ordered)
    (hhanded : t.handed = s.handed ++ txs) (hready : txs ≠ []) (hback : ReadBack src dst)
    (hr : r.Responds hdr s.config.eid) (hown : sourceUri r.config.eid ≠ some hdr.getSourceEid.uri)
    (hnext : r.seq.toNat + txs.length ≤ 2 ^ 31)
    (hcarried : List.Forall₂ Datagram.Carries datagrams txs) (hfresh : r.FreshFor datagrams) :
    ∃ r' r'' sigs, r.receiveAll datagrams = some r' ∧ r'.receive dst = some (r'', some p) ∧
      r'.handed = r.handed ++ sigs ∧ sigs.length = txs.length ∧
      (∀ sig ∈ sigs, ∃ range, SignalsPiece r.config.eid s.config.eid hdr range sig) ∧
      ∀ answers : List Datagram, List.Forall₂ Datagram.Carries answers sigs →
        (∀ d ∈ answers, d.ptr ∉ t.mStore) →
        ∃ t', t.receiveAll answers = some t' ∧ (b ∉ t'.mStore ↔ s.config.bundleSize.toNat < p.size) := by
  obtain ⟨hdr', hnew', hm, hpieces⟩ := handed_send hpos hsend hhanded hready
  obtain rfl : hdr = hdr' := Option.some.inj (hnew.symm.trans hnew')
  obtain ⟨hread, hshown⟩ := newHeader_destination hnew
  have huri : hdr.getDestinationEid.uri = dst.uri := Option.some.inj (hshown.symm.trans hback)
  have hspec := newHeader_spec hnew
  obtain ⟨hcustodian, hconfig, hacks⟩ :=
    custodian_of_send hs hb hseq hactive hnew hfree hsend hord hhanded hready
  have hlength : hdr.aduLength.toNat = p.size := by
    rw [hspec.aduLength, UInt32.toNat_ofNat_of_lt' p.size_lt_two_pow]
  have hcust : s.config.eid.uri = t.config.eid.uri := by rw [hconfig]
  cases hfragment : s.fragmenting p with
  | true =>
    rw [hfragment] at hpieces
    have hcut : s.config.bundleSize.toNat < p.size := of_decide_eq_true hfragment
    have htiles := tiles_pieces p hm
    have hcount := two_le_length_pieces hm hfragment
    obtain ⟨r', r'', sigs, hrun, hreceive, hsent, hsigs⟩ := hr.exists_receive_pieces hspec hread hsize hseq
      huri hcarried hfresh hnext htiles hcount hpieces
    refine ⟨r', r'', sigs, hrun, hreceive, hsent, hsigs.length_eq.symm.trans hpieces.length_eq.symm,
      forall_mem_of_signals hsigs, fun answers hanswers hptr => ?_⟩
    rw [← hlength] at htiles
    obtain ⟨t', ht', hgone⟩ := hcustodian.exists_receiveAll (Or.inl ⟨hacks, rfl⟩) htiles
      (List.ne_nil_of_length_pos (by omega)) hsigs hanswers hown hcust hptr
    exact ⟨t', ht', iff_of_true hgone hcut⟩
  | false =>
    have hle : p.size ≤ s.config.bundleSize.toNat := Nat.not_lt.mp (of_decide_eq_false hfragment)
    rw [hfragment, (pieces_of_fits hpos hle).1] at hpieces
    obtain ⟨r', r'', sigs, hrun, hreceive, hsent, hsigs⟩ := hr.exists_receive_whole hspec hread hsize hseq
      huri hcarried hfresh hnext hpieces
    refine ⟨r', r'', sigs, hrun, hreceive, hsent, hsigs.length_eq.symm.trans hpieces.length_eq.symm,
      forall_mem_of_signals hsigs, fun answers hanswers hptr => ?_⟩
    -- the one answer acknowledges nothing
    obtain ⟨sig, _, hsig, hnil, rfl⟩ := List.forall₂_cons_left_iff.mp hsigs
    cases hnil
    obtain ⟨d, _, hd, hnil, rfl⟩ := List.forall₂_cons_right_iff.mp hanswers
    cases hnil
    obtain ⟨cs, t', hcs, ht', hcase⟩ :=
      hcustodian.exists_receiveDatagram hsig hd hown hcust (hptr d List.mem_cons_self)
    have hkept := not_completes_of_empty hcs hacks (by rw [hcustodian.aduLength, hlength]; exact hpos)
    obtain ⟨-, hstill, -⟩ := hcase.resolve_left fun hfull => hkept hfull.1
    exact ⟨t', Option.bind_eq_some_iff.mpr ⟨t', ht', rfl⟩,
      iff_of_false (not_not_intro hstill.stored) (Nat.not_lt.mpr hle)⟩

end BpAgent6

namespace Sample
open BpAgent6

/-- The header of two bytes that `d:b` sends to `d:a` with custody. -/
def handshakeHeader : Option BpHeader6 := newHeader (eid 98) 2 (eid 98) (eid 97) 0 true 0 0 0

/-- Its custodian is reached from `d:c`. -/
theorem responds_peer {hdr : BpHeader6} (h : handshakeHeader = some hdr) : peer.Responds hdr (eid 98) := by
  obtain ⟨hdr', h', htest⟩ := (Option.any_eq_true (fun hdr : BpHeader6 =>
    decide (dictionaryUri (eid 99) hdr.getCustEid = some (eid 98).uri ∧
      hdr.getSourceEid.uri.length + 37 ≤ 100 ∧
      peer.findRegistration hdr.getDestinationEid = some true ∧
      (hdr.getDestinationEid == eid 99) = false)) _).mp
    (by decide +kernel : handshakeHeader.any _ = true)
  obtain rfl : hdr = hdr' := Option.some.inj (h.symm.trans h')
  obtain ⟨hcustodian, hfits, hactive, hother⟩ := of_decide_eq_true htest
  have hmember : ¬peer.Refused peer.config.eid := by
    unfold Refused
    decide +kernel
  exact ⟨⟨hmember, hcustodian, ⟨0, by decide +kernel, rfl⟩, hfits, by decide⟩,
    ⟨hactive, hother⟩, rfl⟩

end Sample

namespace BpAgent6

/-- Two bytes in two bundles: they are received, and the two answers release the bundle. -/
theorem custody_handshake_iff_sample :
    ∃ t datagrams hdr, (Sample.agent 1 true).send 1 Sample.twoBytes (Sample.eid 98) (Sample.eid 97) 0
        true 0 = some (t, 0) ∧ List.Forall₂ Datagram.Carries datagrams t.handed ∧
      ∃ r' r'' sigs, Sample.peer.receiveAll datagrams = some r' ∧
        r'.receive (Sample.eid 97) = some (r'', some Sample.twoBytes) ∧
        r'.handed = Sample.peer.handed ++ sigs ∧ sigs.length = t.handed.length ∧
        (∀ sig ∈ sigs, ∃ range, SignalsPiece (Sample.eid 99) (Sample.eid 98) hdr range sig) ∧
        ∀ answers : List Datagram, List.Forall₂ Datagram.Carries answers sigs →
          (∀ d ∈ answers, d.ptr ∉ t.mStore) →
          ∃ t', t.receiveAll answers = some t' ∧ (1 ∉ t'.mStore ↔ 1 < 2) := by
  obtain ⟨⟨t, code⟩, hsend, htest⟩ := (Option.any_eq_true (fun x : BpAgent6 × ℤ =>
    decide (x.2 = 0 ∧ x.1.handed.length = 2 ∧ x.1.Ordered ∧
      ∀ tx ∈ x.1.handed, (tx.wire Sample.zeros).length < 2 ^ 32)) _).mp
    (by decide +kernel : ((Sample.agent 1 true).send 1 Sample.twoBytes (Sample.eid 98) (Sample.eid 97)
      0 true 0).any _ = true)
  obtain ⟨hcode, hlength, hord, hsizes⟩ := of_decide_eq_true htest
  dsimp only at hcode hlength hord hsizes
  subst hcode
  obtain ⟨tx, tx', htxs⟩ := List.length_eq_two.mp hlength
  have hsize : (tx.wire Sample.zeros).length < 2 ^ 32 := hsizes tx (by simp [htxs])
  have hsize' : (tx'.wire Sample.zeros).length < 2 ^ 32 := hsizes tx' (by simp [htxs])
  have hcarried : List.Forall₂ Datagram.Carries
      [Sample.datagram 1 tx hsize, Sample.datagram 2 tx' hsize'] t.handed := by
    rw [htxs]
    exact .cons (Sample.carries_datagram hsize) (.cons (Sample.carries_datagram hsize') .nil)
  have hready : t.handed ≠ [] := by simp [htxs]
  have hfresh : Sample.peer.FreshFor [Sample.datagram 1 tx hsize, Sample.datagram 2 tx' hsize'] := by
    refine ⟨show [1, 2].Nodup by decide, fun d _ => ⟨List.not_mem_nil, List.not_mem_nil⟩, ?_⟩
    simp [Sample.datagram]
  obtain ⟨hdr, hnew, hown⟩ := (Option.any_eq_true (fun hdr : BpHeader6 =>
      decide (sourceUri (Sample.eid 99) ≠ some hdr.getSourceEid.uri)) _).mp
    (by decide +kernel : Sample.handshakeHeader.any _ = true)
  exact ⟨t, _, hdr, hsend, hcarried, custody_handshake_iff (s := Sample.agent 1 true) (r := Sample.peer)
    (orderly_of_empty rfl) List.not_mem_nil (by decide) (by decide +kernel) (by decide) (by decide) hnew
    (fun y hy => absurd hy List.not_mem_nil) hsend hord rfl hready (by decide +kernel)
    (Sample.responds_peer hnew) (of_decide_eq_true hown) (by rw [hlength]; decide) hcarried hfresh⟩

end BpAgent6
end BundleProtocol
