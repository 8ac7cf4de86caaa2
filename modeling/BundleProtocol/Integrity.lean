import BundleProtocol.Custody
import BundleProtocol.Disposal
import BundleProtocol.Identities
import BundleProtocol.Relay
import BundleProtocol.Serving
import BundleProtocol.Soundness

/-! # What is received is what was sent

The payloads of a network.  A bundle object holds all of its ADU, or it has arrived for a local
endpoint and holds the piece at its fragment offset (`Bundle6.Holds`); a packet carries the piece that
its header names (`PieceOf`).  Three things can spoil this and are excluded (`InPlace`): a fragment that
is relayed, whose offset is lost; a fragment that arrives where its bundle is also relayed or was
sent from, whose stored header shows the last piece only; and payloads of 2²⁸ bytes, whose block
header overwrites them.  Bundles are told apart by source, creation time and sequence number, so the
bundles created must differ in these.

The invariant of a node (`Intact`) is about every object in use and about the packets handed over; a bundle
whose retransmission is pending has been forwarded before, and is not held for delivery.  Each part is
needed by another operation.

* Matching joins the payloads of two objects of one name.  Both hold the piece of one ADU, the pieces
  touch, and so does the joined one (`Bundle6.Holds`); the flag is cleared when it is the whole.
* `Forward` cuts what is stored from its start.  This is in place only for a whole ADU, so a bundle
  that is still being put together must not be forwarded.
* An arrival shows nothing but its packet.  That the packet is a piece of a created bundle is the
  invariant of whichever node has handed it over.
-/
namespace BundleProtocol
open Tiling Interleaving BpHeader6 FlagWord

/-! ## Pieces and bundles -/

/-- The header of a payload block without control flags. -/
structure BpBlockHeader6.Plain (ph : BpBlockHeader6) : Prop where
  blockType : ph.blockType = bundlePayloadBlock
  flags : ph.processingControlFlags = 0

/-- The payload `a` under these headers is the piece of the ADU `p` that they name. -/
structure PieceOf (h : BpHeader6) (p : Packet) (g : BpHeader6) (ph : BpBlockHeader6) (a : Packet)
    (r : ℕ × ℕ) : Prop where
  header : CopyOf h g
  plain : ph.Plain
  payload : a = p.piece r.1 r.2
  fragOffset : g.fragOffset.toNat = r.1
  pos : 0 < r.2
  le : r.1 + r.2 ≤ p.size
  whole : g.isFragment = false → r.2 = p.size

/-- The bundle has arrived, and nothing has been done with it but to deliver it. -/
def Bundle6.Held (y : Bundle6) : Prop := test y.retentionConstraints dispatchPending = true

instance (y : Bundle6) : Decidable y.Held := inferInstanceAs (Decidable (_ = true))

/-- The bundle is of this origin and has all of its ADU, or none. -/
structure Bundle6.Whole (h : BpHeader6) (p : Packet) (y : Bundle6) : Prop where
  header : CopyOf h y.primaryHeader
  plain : y.payloadHeader.Plain
  adu : y.adu = none ∨ y.adu = some p

/-- The bundle is of this origin; one that is held may have a piece of its ADU only. -/
structure Bundle6.Holds (h : BpHeader6) (p : Packet) (y : Bundle6) : Prop where
  header : CopyOf h y.primaryHeader
  plain : y.payloadHeader.Plain
  adu : y.adu = none ∨ (∃ r, y.PartOf p r) ∧ y.Held ∨ (y.Held → p.size = 0) ∧ y.adu = some p

theorem Bundle6.Holds.whole {h : BpHeader6} {p : Packet} {y : Bundle6} (hy : y.Holds h p)
    (hheld : ¬y.Held) : y.Whole h p where
  header := hy.header
  plain := hy.plain
  adu := hy.adu.imp_right fun hadu => (hadu.resolve_left fun hpart => hheld hpart.2).2

/-- A piece that is not a fragment is all of the ADU. -/
theorem Bundle6.PartOf.adu_of_not_fragment {p : Packet} {y : Bundle6} {r : ℕ × ℕ} (hy : y.PartOf p r)
    (hwhole : y.primaryHeader.isFragment = false) : y.adu = some p := by
  have hsize := hy.whole hwhole
  have hle := hy.le
  rw [hy.adu, show r.1 = 0 by omega, hsize, Packet.piece_size]

theorem Bundle6.Holds.adu_of_not_fragment {h : BpHeader6} {p : Packet} {y : Bundle6}
    (hy : y.Holds h p) (hwhole : y.primaryHeader.isFragment = false) :
    y.adu = none ∨ y.adu = some p := by
  rcases hy.adu with hnone | ⟨⟨r, hpart⟩, -⟩ | ⟨-, hadu⟩
  · exact Or.inl hnone
  · exact Or.inr (hpart.adu_of_not_fragment hwhole)
  · exact Or.inr hadu

theorem Bundle6.Whole.holds {h : BpHeader6} {p : Packet} {y : Bundle6} (hy : y.Whole h p)
    (hheld : ¬y.Held) : y.Holds h p where
  header := hy.header
  plain := hy.plain
  adu := hy.adu.imp_right fun hadu => Or.inr ⟨fun hyes => absurd hyes hheld, hadu⟩

namespace BpAgent6
variable {s t u v : BpAgent6} {b q x it : Ptr} {p : Packet} {h : BpHeader6} {rx : ReceivedBundle}
  {O : BpHeader6 → Packet → Prop}

/-- Every bundle in use and every packet sent is of some origin. -/
structure Intact (O : BpHeader6 → Packet → Prop) (s : BpAgent6) : Prop where
  objects : ∀ x, s.InUse x → ∃ h p, O h p ∧ (s.heap x).Holds h p
  handed : ∀ tx ∈ s.handed, ∃ h p r, O h p ∧
    PieceOf h p tx.header tx.payloadHeader tx.payload r ∧ tx.payloadHeader.blockLength.toNat < 2 ^ 28
  bundleSize : s.config.bundleSize.toNat < 2 ^ 28
  /-- A bundle that is sent again is not held. -/
  sent : ∀ e ∈ s.sim.pending, ∀ x, e.call = .forward x → ¬(s.heap x).Held

/-! ## Forwarding -/

/-- `Forward` leaves the bundle not held. -/
theorem not_held_forward (hrun : s.forward b = some t) : ¬(t.heap b).Held := by
  have hcleared : ∀ word : UInt32, test (word &&& ~~~dispatchPending) dispatchPending = false :=
    fun word => test_assign_self false (show dispatchPending ≠ 0 by decide)
  rcases forward_eq_some.mp hrun with ⟨-, rfl⟩ | ⟨cla, adu, -, -, hm, hcase⟩
  · rw [flagged, heap_modify_self, Bundle6.Held, hcleared]
    exact Bool.false_ne_true
  · have hheld : ¬((s.sent b cla adu).heap b).Held := by
      have hdisjoint : forwardPending &&& dispatchPending = 0 := by decide
      rw [Bundle6.Held, (s.sentBundle b cla hm).retentionConstraints, test,
        and_not_and_of_disjoint hdisjoint, ← test, hcleared]
      exact Bool.false_ne_true
    rcases hcase with ⟨-, rfl⟩ | ⟨-, -, rfl⟩
    · exact hheld
    · rwa [Bundle6.Held, retentionConstraints_discarded]

/-- A bundle that has all of its ADU has it after `Forward`, if it has an ADU. -/
theorem whole_forward (hb : (s.heap b).Whole h p) (hrun : s.forward b = some t) :
    (t.heap b).Whole h p := by
  have hkeeps : CopyOf h (t.heap b).primaryHeader := hb.header.trans ((keeps_forward hrun).header b)
  rcases forward_eq_some.mp hrun with ⟨-, rfl⟩ | ⟨cla, adu, -, -, hm, hcase⟩
  · have hself : (s.flagged b).heap b = _ := heap_modify_self s b _
    refine ⟨hkeeps, ?_, ?_⟩
    · rw [hself]
      exact hb.plain
    · rw [hself]
      exact hb.adu
  · have hstamped := s.restamped_sent b cla adu
    have hplain : ((s.sent b cla adu).heap b).payloadHeader.Plain :=
      ⟨hstamped.blockType.trans hb.plain.blockType, hstamped.flags.trans hb.plain.flags⟩
    rcases hcase with ⟨-, rfl⟩ | ⟨-, -, rfl⟩
    · refine ⟨hkeeps, hplain, ?_⟩
      rw [(s.sentBundle b cla hm).adu]
      exact hb.adu
    · refine ⟨hkeeps, ?_, Or.inl (adu_discarded _ b)⟩
      rw [discarded, dispose, BundleStore.doDispose, Memory.heap_doDispose, Function.update_self]
      exact hplain

/-- Each piece that is handed over carries its range of the ADU. -/
theorem pieceOf_transmission {cla : ClaId} {dst : BpEndpointId} {r : ℕ × ℕ}
    (hb : (s.heap b).Whole h p) (hm : s.config.bundleSize ≠ 0 ∨ p.size = 0) (hr : r ∈ s.pieces p) :
    PieceOf h p (s.transmission b cla dst (s.fragmenting p) p r).header
      (s.transmission b cla dst (s.fragmenting p) p r).payloadHeader
      (s.transmission b cla dst (s.fragmenting p) p r).payload r := by
  have hm' : s.config.bundleSize ≠ 0 := by
    refine hm.resolve_right fun hzero => ?_
    rw [pieces, hzero, chunks_zero] at hr
    cases hr
  have hbounds := (tiles_pieces p hm').bounds hr
  have hlt := p.size_lt_two_pow
  obtain ⟨hflag, -, hoffset, hpayload⟩ := s.header_transmission b cla dst (s.fragmenting p) p r
  refine ⟨hb.header.trans (s.copyOf_transmission b cla dst _ p r),
    ⟨hb.plain.blockType, hb.plain.flags⟩, hpayload, ?_, hbounds.2.1, hbounds.2.2, fun hwhole => ?_⟩
  · rw [hoffset]
    exact UInt32.toNat_ofNat_of_lt' (Nat.lt_of_le_of_lt (by omega : r.1 ≤ p.size) hlt)
  · -- an ADU that fits one bundle is one piece
    have hfits : p.size ≤ s.config.bundleSize.toNat :=
      not_lt.mp (of_decide_eq_false (hflag.symm.trans hwhole))
    have hpos : 0 < p.size := by omega
    rw [pieces, chunks_of_le 0 hpos hfits (Nat.le_refl _), List.mem_singleton] at hr
    rw [hr]

theorem blockLength_transmission {cla : ClaId} {dst : BpEndpointId} {fragment : Bool} {r : ℕ × ℕ}
    (hsize : s.config.bundleSize.toNat < 2 ^ 28) (hr : r ∈ s.pieces p) :
    (s.transmission b cla dst fragment p r).payloadHeader.blockLength.toNat < 2 ^ 28 := by
  have hlt : r.2 < 2 ^ 28 := Nat.lt_of_le_of_lt (size_le_of_mem_chunks hr) hsize
  show (UInt32.ofNat r.2).toNat < 2 ^ 28
  rwa [UInt32.toNat_ofNat_of_lt' (Nat.lt_trans hlt (by decide))]

/-- **`Forward` on a bundle that has all of its ADU.** -/
theorem Intact.forward (hs : Intact O s) (hb : ∃ h p, O h p ∧ (s.heap b).Whole h p)
    (hrun : s.forward b = some t) : Intact O t := by
  obtain ⟨h, p, horigin, hb⟩ := hb
  have hwhole := whole_forward hb hrun
  have hheld := not_held_forward hrun
  have hframe := forward_frame hrun
  refine ⟨fun x hx => ?_, fun tx htx => ?_, hframe.config ▸ hs.bundleSize, fun e he x hcall => ?_⟩
  · by_cases hxb : x = b
    · subst hxb
      exact ⟨h, p, horigin, hwhole.holds hheld⟩
    · rw [hframe.heap x hxb]
      exact hs.objects x (((keeps_forward hrun).inUse x hx).resolve_left hxb)
  · rcases handed_forward hrun htx with htx | ⟨cla, adu, r, hadu, hm, hr, rfl⟩
    · exact hs.handed tx htx
    · obtain rfl : p = adu := by
        rcases hb.adu with hnone | hsome
        · rw [hadu] at hnone
          cases hnone
        · rw [hadu] at hsome
          exact (Option.some.inj hsome).symm
      exact ⟨h, p, r, horigin, pieceOf_transmission hb hm hr, blockLength_transmission hs.bundleSize hr⟩
  · by_cases hxb : x = b
    · subst hxb
      exact hheld
    · rw [hframe.heap x hxb]
      -- the events about other bundles are the old ones
      have hold : e ∈ s.sim.pending := by
        rcases forward_eq_some.mp hrun with ⟨-, rfl⟩ | ⟨cla, adu, -, -, -, hcase⟩
        · exact he
        · have hmem : e ∈ (s.sent b cla adu).sim.pending := by
            rcases hcase with ⟨-, rfl⟩ | ⟨-, -, rfl⟩
            · exact he
            · exact (pending_discarded _ b).subset he
          rw [sim_sent] at hmem
          split at hmem
          · rcases Simulator.mem_pending_schedule.mp hmem with hmem | rfl
            · exact hmem
            · cases hcall
              exact absurd rfl hxb
          · exact hmem
      exact hs.sent e hold x hcall

/-- The waiting bundles are forwarded one after another. -/
theorem Intact.forwardAll {l : List Ptr} (hs : Intact O s)
    (hl : ∀ x ∈ l, ∃ h p, O h p ∧ (s.heap x).Whole h p) (hrun : s.forwardAll l = some t) :
    Intact O t := by
  induction l generalizing s with
  | nil =>
    cases hrun
    exact hs
  | cons b l ih =>
    obtain ⟨u, hu, hrun⟩ := Option.bind_eq_some_iff.mp hrun
    refine ih (hs.forward (hl b List.mem_cons_self) hu) (fun x hx => ?_) hrun
    obtain ⟨h, p, horigin, hx⟩ := hl x (List.mem_cons_of_mem b hx)
    refine ⟨h, p, horigin, ?_⟩
    by_cases hxb : x = b
    · subst hxb
      exact whole_forward hx hu
    · rwa [(forward_frame hu).heap x hxb]

/-! ## New bundles -/

/-- A bundle is placed at a fresh address. -/
theorem Intact.placed (hs : Intact O s) (hb : s.Fresh b)
    (hnew : ∃ h p, O h p ∧ (t.heap b).Holds h p) (hheap : ∀ x, x ≠ b → t.heap x = s.heap x)
    (huse : ∀ x, t.InUse x → x = b ∨ s.InUse x)
    (hpending : ∀ e ∈ t.sim.pending, e ∈ s.sim.pending ∨ e.call = .expire b)
    (hhanded : t.handed = s.handed) (hconfig : t.config = s.config) : Intact O t where
  objects x hx := by
    by_cases hxb : x = b
    · subst hxb
      exact hnew
    · rw [hheap x hxb]
      exact hs.objects x ((huse x hx).resolve_left hxb)
  handed := hhanded ▸ hs.handed
  bundleSize := hconfig ▸ hs.bundleSize
  sent e he x hcall := by
    rcases hpending e he with hold | hexpire
    · have hxb : x ≠ b := by
        rintro rfl
        exact hb.2 e hold (by rw [hcall]; rfl)
      rw [hheap x hxb]
      exact hs.sent e hold x hcall
    · rw [hexpire] at hcall
      cases hcall

theorem pending_stored_cases {e : ScheduledEvent} (he : e ∈ (s.stored b).sim.pending) :
    e ∈ s.sim.pending ∨ e.call = .expire b := by
  have hold : (s.stored b).sim = s.sim ∨
      ∃ delay, (s.stored b).sim = s.sim.schedule delay (.expire b) :=
    s.toBundleStore.pending_stored b
  rcases hold with hsim | ⟨delay, hsim⟩
  · rw [hsim] at he
    exact Or.inl he
  · rw [hsim, Simulator.mem_pending_schedule] at he
    exact he.imp_right fun heq => by rw [heq]

theorem pending_acceptBundle {e : ScheduledEvent} (hrun : s.acceptBundle b rx = some t)
    (he : e ∈ t.sim.pending) : e ∈ s.sim.pending ∨ e.call = .expire b := by
  rcases acceptBundle_eq_some.mp hrun with ⟨-, rfl⟩ | ⟨-, -, rfl⟩
  · exact Or.inl he
  · exact pending_stored_cases (s := s.arrived b rx) he

theorem pending_createBundle {e : ScheduledEvent} {src dst : BpEndpointId} {lifetime : Time}
    {custody : Bool} {priority : UInt32}
    (hrun : s.createBundle b p src dst lifetime custody priority = some t) (he : e ∈ t.sim.pending) :
    e ∈ s.sim.pending ∨ e.call = .expire b := by
  obtain ⟨hdr, -, ⟨-, rfl⟩ | ⟨-, -, rfl⟩⟩ := createBundle_eq_some.mp hrun
  · exact Or.inl he
  · exact pending_stored_cases (s := s.created b hdr p custody) he

/-- The accepted bundle is held and has its piece. -/
theorem holds_acceptBundle {r : ℕ × ℕ} (hlength : h.aduLength = p.getSize)
    (hrx : PieceOf h p rx.header rx.payloadHeader rx.adu r) (hrun : s.acceptBundle b rx = some t) :
    (t.heap b).Holds h p ∧ (t.heap b).Held ∧ (t.heap b).PartOf p r := by
  obtain ⟨id, hid⟩ := heap_acceptBundle hrun
  have hheld : (t.heap b).Held := by
    rw [hid]
    exact show test dispatchPending dispatchPending = true by decide
  have hpart : (t.heap b).PartOf p r := by
    rw [hid]
    exact ⟨congrArg some hrx.payload, hrx.fragOffset, hrx.header.shown.aduLength.trans hlength,
      hrx.pos, hrx.le, hrx.whole⟩
  refine ⟨⟨?_, ?_, Or.inr (Or.inl ⟨⟨r, hpart⟩, hheld⟩)⟩, hheld, hpart⟩
  · rw [hid]
    exact hrx.header
  · rw [hid]
    exact hrx.plain

theorem Intact.acceptBundle {r : ℕ × ℕ} (hs : Intact O s) (hb : s.Fresh b) (horigin : O h p)
    (hlength : h.aduLength = p.getSize)
    (hrx : PieceOf h p rx.header rx.payloadHeader rx.adu r) (hrun : s.acceptBundle b rx = some t) :
    Intact O t := by
  obtain ⟨hconfig, -, -, hhanded, -⟩ := rest_acceptBundle hrun
  exact hs.placed hb ⟨h, p, horigin, (holds_acceptBundle hlength hrx hrun).1⟩
    (fun x hx => heap_acceptBundle_of_ne hrun hx) (fun x => inUse_acceptBundle hrun)
    (fun e => pending_acceptBundle hrun) hhanded hconfig

/-- **`Send`**: the bundle is created with all of its ADU and forwarded. -/
theorem Intact.send {src dst : BpEndpointId} {lifetime : Time} {custody : Bool} {priority : UInt32}
    {code : ℤ} (hs : Intact O s) (hb : s.Fresh b)
    (hnew : ¬s.Refused src → ∀ hdr, newHeader s.config.eid p.size src dst lifetime custody priority
      s.sim.now s.seq = some hdr → O hdr p)
    (hrun : s.send b p src dst lifetime custody priority = some (t, code)) : Intact O t := by
  rcases send_eq_some.mp hrun with ⟨-, rfl, -⟩ | ⟨hsrc, u, hu, hforward, -⟩
  · exact hs
  · obtain ⟨hdr, id, hhdr, hself⟩ := heap_createBundle hu
    obtain ⟨hconfig, hhanded, -⟩ := rest_createBundle hu
    have hspec := newHeader_spec hhdr
    have hcreated : O hdr p := hnew hsrc hdr hhdr
    have hwhole : (u.heap b).Whole hdr p := by
      rw [hself]
      exact ⟨.refl hdr, ⟨rfl, rfl⟩, Or.inr rfl⟩
    have hholds : (u.heap b).Holds hdr p := by
      refine ⟨hwhole.header, hwhole.plain, Or.inr ?_⟩
      rcases Nat.eq_zero_or_pos p.size with hzero | hpos
      · exact Or.inr ⟨fun _ => hzero, by rw [hself]; rfl⟩
      · refine Or.inl ⟨⟨(0, p.size), ?_⟩, ?_⟩
        · rw [hself]
          exact ⟨congrArg some p.piece_size.symm, congrArg UInt32.toNat hspec.fragOffset,
            hspec.aduLength, hpos, by rw [Nat.zero_add], fun _ => rfl⟩
        · rw [hself, Bundle6.Held]
          cases custody
          · exact show test dispatchPending dispatchPending = true by decide
          · exact show test (dispatchPending ||| custodyAccepted) dispatchPending = true by decide
    refine Intact.forward (b := b) ?_ ⟨hdr, p, hcreated, hwhole⟩ hforward
    exact hs.placed hb ⟨hdr, p, hcreated, hholds⟩ (fun x hx => heap_createBundle_of_ne hu hx)
      (fun x => inUse_createBundle hu) (fun e => pending_createBundle hu) hhanded hconfig

/-! ## Local delivery -/

/-- What local delivery leaves alone of the objects, and it schedules nothing. -/
structure KeepsFlags (s t : BpAgent6) : Prop where
  flags : ∀ x, (t.heap x).retentionConstraints = (s.heap x).retentionConstraints
  payloadHeader : ∀ x, (t.heap x).payloadHeader = (s.heap x).payloadHeader
  pending : ∀ e ∈ t.sim.pending, e ∈ s.sim.pending

theorem KeepsFlags.refl (s : BpAgent6) : KeepsFlags s s := ⟨fun _ => rfl, fun _ => rfl, fun _ he => he⟩

theorem KeepsFlags.modify {f : Bundle6 → Bundle6} (h : KeepsFlags s t)
    (hflags : ∀ y, (f y).retentionConstraints = y.retentionConstraints)
    (hheader : ∀ y, (f y).payloadHeader = y.payloadHeader) (x : Ptr) : KeepsFlags s (t.modify x f) where
  flags y := (field_heap_modify Bundle6.retentionConstraints hflags t x y).trans (h.flags y)
  payloadHeader y := (field_heap_modify Bundle6.payloadHeader hheader t x y).trans (h.payloadHeader y)
  pending := h.pending

theorem deliveryClosed_keepsFlags (s : BpAgent6) : DeliveryClosed (KeepsFlags s) where
  delivered h := ⟨h.flags, h.payloadHeader, h.pending⟩
  withAdu {_ x p} h := h.modify (f := fun y => { y with adu := some p }) (fun _ => rfl) (fun _ => rfl) x
  acked {_ x cs} h := h.modify (f := fun y => { y with acks := addAck (thisack cs) y.acks })
    (fun _ => rfl) (fun _ => rfl) x
  markWhole {_ x} h := h.modify
    (f := fun y => { y with primaryHeader := y.primaryHeader.setIsFragment false })
    (fun _ => rfl) (fun _ => rfl) x
  removed h _ := ⟨h.flags, h.payloadHeader,
    fun e he => h.pending e ((Memory.pending_clearEvents_sublist _ _).subset he)⟩
  discarded {t x} h _ := by
    have hmodify := h.modify (f := fun y => { y with adu := none, acks := [] }) (fun _ => rfl)
      (fun _ => rfl) x
    exact ⟨hmodify.flags, hmodify.payloadHeader,
      fun e he => h.pending e ((pending_discarded t x).subset he)⟩

theorem KeepsFlags.held_iff (h : KeepsFlags s t) (x : Ptr) : (t.heap x).Held ↔ (s.heap x).Held := by
  rw [Bundle6.Held, h.flags, Bundle6.Held]

/-- One iteration touches the two bundles only. -/
theorem heap_coalesceWith_of_ne (hxb : x ≠ b) (hxit : x ≠ it) (hrun : s.coalesceWith b it = some t) :
    t.heap x = s.heap x := by
  obtain ⟨itAdu, adu, -, -, hcase⟩ := coalesceWith_cases hrun
  rcases hcase with ⟨-, -, joined, -, rfl⟩ | ⟨-, -, -, joined, -, rfl⟩ | ⟨-, -, rfl⟩
  · exact heap_absorbed_of_ne s hxit b joined
  · exact heap_absorbed_of_ne s hxb it joined
  · rfl

/-- **The rule for matching.**  What one iteration keeps of the objects, the loop keeps of the bundle
and of those that it is matched with; it touches no others. -/
theorem coalesce_objects {Q : Bundle6 → Prop}
    (hQ : ∀ {s t : BpAgent6} {b it : Ptr}, Q (s.heap b) → Q (s.heap it) →
      s.coalesceWith b it = some t → ∀ x, Q (s.heap x) → Q (t.heap x))
    {l : List Ptr} (hb : Q (s.heap b)) (hl : ∀ it ∈ l, Q (s.heap it)) (hrun : s.coalesce b l = some t) :
    (∀ x, Q (s.heap x) → Q (t.heap x)) ∧ ∀ x, x ≠ b → x ∉ l → t.heap x = s.heap x := by
  induction l generalizing s with
  | nil =>
    cases hrun
    exact ⟨fun _ hx => hx, fun _ _ _ => rfl⟩
  | cons it l ih =>
    obtain ⟨u, hu, hrest⟩ := Option.bind_eq_some_iff.mp hrun
    have hkeeps : ∀ x, Q (s.heap x) → Q (u.heap x) := hQ hb (hl it List.mem_cons_self) hu
    obtain ⟨hobjects, hrest'⟩ :=
      ih (hkeeps b hb) (fun y hy => hkeeps y (hl y (List.mem_cons_of_mem it hy))) hrest
    refine ⟨fun x hx => hobjects x (hkeeps x hx), fun x hxb hxl => ?_⟩
    have hxit : x ≠ it := fun heq => hxl (heq ▸ List.mem_cons_self)
    exact (hrest' x hxb fun hmem => hxl (List.mem_cons_of_mem it hmem)).trans
      (heap_coalesceWith_of_ne hxb hxit hu)

/-- The object holds a piece of the ADU or nothing, and if it is a fragment, `A` holds of the bytes. -/
def Piece (A : ℕ → Prop) (p : Packet) (y : Bundle6) : Prop :=
  y.adu = none ∨ ∃ r, y.PartOf p r ∧
    (y.primaryHeader.isFragment = true → ∀ k, r.1 ≤ k → k < r.1 + r.2 → A k)

/-- A bundle that is not a fragment touches no other piece, so what a fragment grows by is a fragment. -/
theorem piece_coalesceWith {A : ℕ → Prop} (hb : Piece A p (s.heap b)) (hit : Piece A p (s.heap it))
    (hrun : s.coalesceWith b it = some t) (hx : Piece A p (s.heap x)) : Piece A p (t.heap x) := by
  obtain ⟨itAdu, adu, hitAdu, hadu, -⟩ := coalesceWith_cases hrun
  obtain ⟨r, hr, hrA⟩ := hb.resolve_left (hadu ▸ Option.some_ne_none adu)
  obtain ⟨q, hq, hqA⟩ := hit.resolve_left (hitAdu ▸ Option.some_ne_none itAdu)
  have hrle := hr.le
  have hqle := hq.le
  have hrpos := hr.pos
  have hqpos := hq.pos
  have hfragment : ∀ {y : Bundle6} {a : ℕ × ℕ}, y.PartOf p a → a.2 ≠ p.size →
      y.primaryHeader.isFragment = true := fun hy hne => by
    by_contra hwhole
    exact hne (hy.whole (eq_false_of_ne_true hwhole))
  rcases coalesceWith_parts hr hq hrun with ⟨htail, rfl⟩ | ⟨-, hhead, rfl⟩ | ⟨-, -, rfl⟩
  · by_cases hxit : x = it
    · subst hxit
      rw [heap_absorbed_self]
      refine Or.inr ⟨(q.1, q.2 + r.2), hq.grown (by omega), fun hgrown k hlo hhi => ?_⟩
      rw [Bundle6.isFragment_grown, Bool.and_eq_true] at hgrown
      dsimp only at hlo hhi
      by_cases hk : k < q.1 + q.2
      · exact hqA hgrown.1 k hlo hk
      · exact hrA (hfragment hr (by omega)) k (by omega) (by omega)
    · rwa [heap_absorbed_of_ne s hxit]
  · by_cases hxb : x = b
    · subst hxb
      rw [heap_absorbed_self]
      refine Or.inr ⟨(r.1, r.2 + q.2), hr.grown (by omega), fun hgrown k hlo hhi => ?_⟩
      rw [Bundle6.isFragment_grown, Bool.and_eq_true] at hgrown
      dsimp only at hlo hhi
      by_cases hk : k < r.1 + r.2
      · exact hrA hgrown.1 k hlo hk
      · exact hqA (hfragment hq (by omega)) k (by omega) (by omega)
    · rwa [heap_absorbed_of_ne s hxb]
  · exact hx

/-- An administrative record takes ADUs away, its own and that of a bundle it releases. -/
structure TakesAdus (s t : BpAgent6) (x : Ptr) : Prop where
  header : t.header x = s.header x
  adu : (t.heap x).adu = none ∨ (t.heap x).adu = (s.heap x).adu

theorem takesAdus_processCustodySignal {cs : CustodySignal}
    (hrun : s.processCustodySignal cs = some t) (x : Ptr) : TakesAdus s t x := by
  rcases processCustodySignal_eq_some.mp hrun with ⟨-, rfl⟩ | ⟨y, -, ⟨-, rfl⟩ | ⟨-, -, -, rfl⟩⟩
  · exact ⟨rfl, Or.inr rfl⟩
  · exact ⟨header_acked s y x cs, Or.inr (adu_acked s y x cs)⟩
  · refine ⟨(header_discarded _ y x).trans (header_acked s y x cs), ?_⟩
    by_cases hxy : x = y
    · subst hxy
      exact Or.inl (adu_discarded _ x)
    · rw [heap_discarded_of_ne _ hxy, adu_acked]
      exact Or.inr rfl

theorem takesAdus_processAdminRecord (hrun : s.processAdminRecord b = some t) (x : Ptr) :
    TakesAdus s t x := by
  obtain ⟨ar, p, v, hv, -, rfl⟩ := processAdminRecord_eq_some hrun
  -- all that happens to the record itself before it is disposed of is that headers are stripped off
  have hstripped : ∃ p' w, v = w ∧ TakesAdus (s.withAdu b p') w x := by
    unfold handleAdminRecord at hv
    split at hv
    · obtain ⟨⟨cs, u⟩, hu, hv⟩ := Option.bind_eq_some_iff.mp hv
      obtain ⟨p', rfl⟩ := stripAdu_eq_withAdu hu
      rw [withAdu_withAdu] at hv
      exact ⟨p', v, rfl, takesAdus_processCustodySignal hv x⟩
    · split at hv
      · obtain ⟨⟨_, u⟩, hu, hv⟩ := Option.bind_eq_some_iff.mp hv
        cases hv
        obtain ⟨p', rfl⟩ := stripAdu_eq_withAdu hu
        rw [withAdu_withAdu]
        exact ⟨p', _, rfl, rfl, Or.inr rfl⟩
      · cases hv
        exact ⟨p, _, rfl, rfl, Or.inr rfl⟩
  obtain ⟨p', w, rfl, htakes⟩ := hstripped
  refine ⟨(header_discarded v b x).trans (htakes.header.trans (header_withAdu s b x p')), ?_⟩
  by_cases hxb : x = b
  · subst hxb
    exact Or.inl (adu_discarded v x)
  · have hadu := htakes.adu
    rw [withAdu, heap_modify_of_ne s hxb] at hadu
    rwa [heap_discarded_of_ne _ hxb]

/-- A held bundle of an ADU that is not empty has a piece of it or nothing. -/
theorem piece_of_holds {A : ℕ → Prop} {y : Bundle6} (hy : y.Holds h p) (hheld : y.Held)
    (hpos : 0 < p.size) (hA : ∀ r, y.PartOf p r → y.primaryHeader.isFragment = true →
      ∀ k, r.1 ≤ k → k < r.1 + r.2 → A k) : Piece A p y := by
  rcases hy.adu with hnone | ⟨⟨r, hpart⟩, -⟩ | ⟨hzero, -⟩
  · exact Or.inl hnone
  · exact Or.inr ⟨r, hpart, hA r hpart⟩
  · exact absurd (hzero hheld) (Nat.ne_of_gt hpos)

/-- **Local delivery** of a bundle that is held, next to bundles of its identity that are held. -/
theorem Intact.enqueue (hs : Intact O s) (hO : Identified O) (horigin : O h p)
    (hb : (s.heap b).Holds h p) (hheld : (s.heap b).Held) {r : ℕ × ℕ} (hpart : (s.heap b).PartOf p r)
    (hplace : (s.header b).isFragment = true → ∀ x ∈ s.mStore, Named (s.header b) (s.header x) →
      (s.heap x).Held)
    (hrun : s.enqueueForDeliveryToApplication b = some t) : Intact O t := by
  have henqueue : s.enqueueIfActive b true = some t := hrun
  have hframe := (deliveryClosed_frame s).enqueueIfActive (.refl s) henqueue
  have hkeeps := (deliveryClosed_keeps s b).enqueueIfActive (.refl s b) henqueue
  have hflags := (deliveryClosed_keepsFlags s).enqueueIfActive (.refl s) henqueue
  have hpos : 0 < p.size := Nat.lt_of_lt_of_le hpart.pos (Nat.le_trans (Nat.le_add_left _ _) hpart.le)
  refine ⟨fun x hx => ?_, hframe.handed ▸ hs.handed, hframe.config ▸ hs.bundleSize, fun e he x hcall => ?_⟩
  · -- what the object was before, and that its headers are copies
    obtain ⟨h', p', horigin', hx'⟩ : ∃ h' p', O h' p' ∧ (s.heap x).Holds h' p' := by
      rcases hkeeps.inUse x hx with rfl | hold
      · exact ⟨h, p, horigin, hb⟩
      · exact hs.objects x hold
    have hcopy : CopyOf h' (t.heap x).primaryHeader := hx'.header.trans (hkeeps.header x)
    have hplain : (t.heap x).payloadHeader.Plain := by
      rw [hflags.payloadHeader]
      exact hx'.plain
    refine ⟨h', p', horigin', hcopy, hplain, ?_⟩
    rcases enqueue_eq_some hrun with ⟨-, hadmin⟩ | ⟨-, hmatch⟩
    · have htakes := takesAdus_processAdminRecord hadmin x
      rcases htakes.adu with hnone | hsame
      · exact Or.inl hnone
      · have hsame' : (t.heap x).adu = (s.heap x).adu := hsame
        rw [hsame', hflags.held_iff]
        refine hx'.adu.imp_right fun hadu => hadu.imp_left fun ⟨⟨q, hq⟩, hheld⟩ => ⟨⟨q, ?_⟩, hheld⟩
        have hheader : (t.heap x).primaryHeader = (s.heap x).primaryHeader := htakes.header
        exact ⟨hsame'.trans hq.adu, by rw [hheader]; exact hq.fragOffset,
          by rw [hheader]; exact hq.aduLength, hq.pos, hq.le, by rw [hheader]; exact hq.whole⟩
    · unfold matchFragments at hmatch
      split at hmatch
      · rename_i hfragment
        have hl : ∀ it ∈ (s.logged b).getBundles (s.header b).getSourceEid
            (s.header b).createTimestamp (s.header b).timestampSeqNum,
            (s.heap it).Held ∧ Named (s.header b) (s.header it) ∧
              Piece (fun _ => True) p (s.heap it) := by
          intro it hit
          obtain ⟨hmem, hnamed⟩ := BundleStore.mem_getBundles.mp hit
          obtain ⟨g, p₂, horigin₂, hit'⟩ := hs.objects it (Or.inl hmem)
          obtain ⟨-, rfl⟩ :=
            hO.distinct h p g p₂ horigin horigin₂ (named_of_copies hb.header hit'.header hnamed)
          have hheld' := hplace hfragment it hmem hnamed
          exact ⟨hheld', hnamed, piece_of_holds hit' hheld' hpos fun _ _ _ _ _ _ => trivial⟩
        have hpiece : Piece (fun _ => True) p (s.heap b) := Or.inr ⟨r, hpart, fun _ _ _ _ => trivial⟩
        obtain ⟨hpieces, hother⟩ := coalesce_objects (s := s.logged b) (Q := Piece (fun _ => True) p)
          (fun hb hit hu x => piece_coalesceWith hb hit hu) hpiece (fun it hit => (hl it hit).2.2) hmatch
        -- what is matched is of one ADU
        have hmatched : Named (s.header b) (s.header x) → (s.heap x).Held →
            Piece (fun _ => True) p (s.heap x) →
            (t.heap x).adu = none ∨ (∃ r, (t.heap x).PartOf p' r) ∧ (t.heap x).Held ∨
              ((t.heap x).Held → p'.size = 0) ∧ (t.heap x).adu = some p' := by
          intro hnamed hheld' hpiece'
          obtain ⟨-, rfl⟩ :=
            hO.distinct h p h' p' horigin horigin' (named_of_copies hb.header hx'.header hnamed)
          refine (hpieces x hpiece').imp_right fun ⟨q, hq, _⟩ => Or.inl ⟨⟨q, hq⟩, ?_⟩
          exact (hflags.held_iff x).mpr hheld'
        by_cases hxb : x = b
        · subst hxb
          exact hmatched ⟨BpEndpointId.beq_iff.mpr rfl, rfl, rfl⟩ hheld hpiece
        · by_cases hxl : x ∈ (s.logged b).getBundles (s.header b).getSourceEid
              (s.header b).createTimestamp (s.header b).timestampSeqNum
          · obtain ⟨hheld', hnamed, hpiece'⟩ := hl x hxl
            exact hmatched hnamed hheld' hpiece'
          · rw [hother x hxb hxl]
            exact hx'.adu
      · cases hmatch
        exact hx'.adu
  · rw [hflags.held_iff]
    exact hs.sent e (hflags.pending e he) x hcall

/-! ## Arrivals -/

/-- The piece that arrives is the piece that was sent. -/
theorem PieceOf.received {d : Datagram} {tx : Transmission} {r : ℕ × ℕ}
    (htx : PieceOf h p tx.header tx.payloadHeader tx.payload r) (hcbhe : h.cbhe = false)
    (hfit : tx.payloadHeader.blockLength.toNat < 2 ^ 28) (hcarries : d.Carries tx)
    (hrx : dataRecv false d.packet.bytes = some rx) :
    PieceOf h p rx.header rx.payloadHeader rx.adu r := by
  obtain ⟨hheader, hpayload⟩ := received_of_carries hcarries hrx
  obtain ⟨hblock, hadu⟩ := hpayload (BpBlockHeader6.length_serialize_le
    (by rw [htx.plain.flags]; decide) hfit)
  rw [hheader, hblock, hadu]
  exact ⟨htx.header.trans (copyOf_onWire (htx.header.shown.cbhe.trans hcbhe)), htx.plain, htx.payload,
    htx.fragOffset, htx.pos, htx.le, htx.whole⟩

theorem isNodeMember_acceptBundle {eid : BpEndpointId} (hrun : s.acceptBundle b rx = some t) :
    t.isNodeMember eid = s.isNodeMember eid := by
  obtain ⟨hconfig, -⟩ := rest_acceptBundle hrun
  rw [isNodeMember, hconfig, isNodeMember]

theorem Intact.enqueueIfActive {r : ℕ × ℕ} {state : Bool} (hs : Intact O s) (hO : Identified O)
    (horigin : O h p) (hb : (s.heap b).Holds h p) (hheld : (s.heap b).Held)
    (hpart : (s.heap b).PartOf p r)
    (hplace : (s.header b).isFragment = true → ∀ x ∈ s.mStore, Named (s.header b) (s.header x) →
      (s.heap x).Held)
    (hrun : s.enqueueIfActive b state = some t) : Intact O t := by
  cases state with
  | false =>
    cases hrun
    exact hs
  | true => exact hs.enqueue hO horigin hb hheld hpart hplace hrun

/-- A fragment is for this node, where no bundle of its identity has been forwarded. -/
def FragmentsInPlace (s : BpAgent6) (rx : ReceivedBundle) : Prop :=
  rx.header.isFragment = true → s.isNodeMember rx.header.getDestinationEid = true ∧
    ∀ x ∈ s.mStore, Named rx.header (s.header x) → (s.heap x).Held

instance (s : BpAgent6) (rx : ReceivedBundle) : Decidable (s.FragmentsInPlace rx) :=
  inferInstanceAs (Decidable (_ → _ ∧ _))

/-- The bundle that is accepted is held itself. -/
theorem FragmentsInPlace.acceptBundle (h : s.FragmentsInPlace rx) (hrun : s.acceptBundle b rx = some t)
    (hheld : (t.heap b).Held) : (t.header b).isFragment = true → ∀ x ∈ t.mStore,
      Named (t.header b) (t.header x) → (t.heap x).Held := by
  rw [header_acceptBundle hrun]
  intro hfragment x hx hnamed
  by_cases hxb : x = b
  · subst hxb
    exact hheld
  · have hheap := heap_acceptBundle_of_ne hrun hxb
    rw [BundleStore.header_congr hheap] at hnamed
    rw [hheap]
    have hmem := (mem_acceptBundle hrun hx).resolve_right fun hself => hxb hself.1
    exact (h hfragment).2 x hmem hnamed

/-- **An arrival**: a piece of an ADU is delivered here, or all of it is forwarded. -/
theorem Intact.processBundle {r : ℕ × ℕ} (hs : Intact O s) (hO : Identified O) (horigin : O h p)
    (hrx : PieceOf h p rx.header rx.payloadHeader rx.adu r) (hplace : s.FragmentsInPlace rx)
    (hb : s.Fresh b) (hq : s.Fresh q) (hbq : b ≠ q)
    (hnew : ∀ u v state cs p hdr, s.acceptBundle b rx = some u →
      u.findRegistration (u.header b).getDestinationEid = some state →
      u.enqueueIfActive b state = some v → (v.header b).custTxReq = true →
      v.custodySignalPacket b = some (cs, p) → ¬v.Refused v.config.eid →
      newHeader v.config.eid p.size v.config.eid (v.header b).getCustEid (v.header b).lifeTime
        false 0 v.sim.now v.seq = some hdr → O hdr p)
    (hrun : s.processBundle b q rx = some t) : Intact O t := by
  obtain ⟨u, hu, hcase⟩ := processBundle_eq_some.mp hrun
  have hlength := hO.aduLength h p horigin
  have haccepted := hs.acceptBundle hb horigin hlength hrx hu
  obtain ⟨hholds, hheld, hpart⟩ := holds_acceptBundle hlength hrx hu
  have hheader := header_acceptBundle hu
  rcases hcase with ⟨-, hdeliver⟩ | ⟨hrelay, hforward⟩
  · have hplace' := hplace.acceptBundle hu hheld
    rcases deliver_eq_some.mp hdeliver with ⟨-, rfl⟩ | ⟨state, v, hfind, hv, hcase⟩
    · exact haccepted
    · have henqueued := haccepted.enqueueIfActive hO horigin hholds hheld hpart hplace' hv
      rcases hcase with ⟨-, rfl⟩ | ⟨hcust, hsignal⟩
      · exact henqueued
      · obtain ⟨cs, packet, code, hpacket, hsend⟩ := sendCustodySignal_eq_some.mp hsignal
        have hlogged : Intact O (v.signalLogged b cs) :=
          ⟨henqueued.objects, henqueued.handed, henqueued.bundleSize, henqueued.sent⟩
        have hkeeps := (deliveryClosed_keeps u b).enqueueIfActive (.refl u b) hv
        have hfresh : v.Fresh q := by
          have hunused : ¬v.InUse q := by
            intro huse
            rcases hkeeps.inUse q huse with rfl | huse
            · exact hbq rfl
            · rcases inUse_acceptBundle hu huse with rfl | hmem | ⟨e, he, htarget⟩
              · exact hbq rfl
              · exact hq.1 hmem
              · exact hq.2 e he htarget
          exact ⟨fun hmem => hunused (Or.inl hmem), fun e he htarget => hunused (Or.inr ⟨e, he, htarget⟩)⟩
        refine hlogged.send (b := q) hfresh (fun hsrc hdr hhdr => ?_) hsend
        exact hnew u v state cs packet hdr hu hfind hv hcust hpacket hsrc hhdr
  · -- what is relayed is not a fragment
    refine haccepted.forward ⟨h, p, horigin, hholds.header, hholds.plain, Or.inr ?_⟩ hforward
    have hwhole : rx.header.isFragment = false := by
      cases hfragment : rx.header.isFragment with
      | false => rfl
      | true =>
        have hmember := (hplace hfragment).1
        rw [hheader, isNodeMember_acceptBundle hu, hmember] at hrelay
        cases hrelay
    refine hpart.adu_of_not_fragment ?_
    rwa [← BundleStore.header, hheader]

/-! ## The other operations -/

theorem Intact.discarded (hs : Intact O s) (b : Ptr) : Intact O (s.discarded b) where
  objects x hx := by
    obtain ⟨h, p, horigin, hx'⟩ := hs.objects x
      (hx.of_subset (fun _ => List.mem_of_mem_erase) (s.pending_discarded b).subset)
    refine ⟨h, p, horigin, ?_⟩
    by_cases hxb : x = b
    · subst hxb
      refine ⟨?_, ?_, Or.inl (adu_discarded s x)⟩
      · have hheader := s.header_discarded x x
        unfold BundleStore.header at hheader
        rw [hheader]
        exact hx'.header
      · rw [BpAgent6.discarded, dispose, BundleStore.doDispose, Memory.heap_doDispose,
          Function.update_self]
        exact hx'.plain
    · rwa [heap_discarded_of_ne s hxb]
  handed := hs.handed
  bundleSize := hs.bundleSize
  sent e he x hcall := by
    rw [Bundle6.Held, retentionConstraints_discarded]
    exact hs.sent e ((s.pending_discarded b).subset he) x hcall

theorem Intact.popEvent (hs : Intact O s) (e : ScheduledEvent) : Intact O (s.popEvent e) where
  objects x hx := hs.objects x (hx.of_subset (fun _ hy => hy) fun _ he => List.mem_of_mem_erase he)
  handed := hs.handed
  bundleSize := hs.bundleSize
  sent e' he := hs.sent e' (List.mem_of_mem_erase he)

/-- Fragments arrive in their place, and bundles stay so small that their block headers fit. -/
def InPlace (s : BpAgent6) : NodeOp → Prop
  | .act (.configure config) => config.bundleSize.toNat < 2 ^ 28
  | .arrive d => ∀ rx, dataRecv false d.packet.bytes = some rx → s.FragmentsInPlace rx
  | _ => True

/-- **What happens at one agent.** -/
theorem Intact.act {op : Op} (hs : Intact O s) (hdispatched : s.AllDispatched)
    (hop : s.Admissible op) (hact : ∀ b q rx, op ≠ .processBundle b q rx)
    (hplace : s.InPlace (.act op)) (hnew : ∀ hdr p, Creates s (.act op) hdr p → O hdr p)
    (hstep : BpAgent6.step op s = some t) : Intact O t := by
  cases op with
  | send b p src dst lifetime custody priority =>
    obtain ⟨⟨u, code⟩, hu, rfl⟩ := Option.map_eq_some_iff.mp hstep
    exact hs.send hop (fun hsrc hdr hhdr => hnew hdr p (.send hsrc hhdr)) hu
  | processBundle b q rx => exact absurd rfl (hact b q rx)
  | claReady cla =>
    refine hs.forwardAll (fun x hx => ?_) hstep
    -- a bundle that waits has been dispatched
    obtain ⟨hmem, hwaiting, -⟩ := BundleStore.mem_getForwardPendingBundles.mp hx
    obtain ⟨h, p, horigin, hx'⟩ := hs.objects x (Or.inl hmem)
    refine ⟨h, p, horigin, hx'.whole ?_⟩
    rw [Bundle6.Held, hdispatched x hmem hwaiting]
    exact Bool.false_ne_true
  | receive eid =>
    obtain ⟨⟨u, p⟩, hu, rfl⟩ := Option.map_eq_some_iff.mp hstep
    rcases receive_eq_some.mp hu with ⟨-, rfl, -⟩ | ⟨b, adu, -, -, -, -, rfl⟩
    · exact hs
    · have hdiscarded := hs.discarded b
      exact ⟨hdiscarded.objects, hdiscarded.handed, hdiscarded.bundleSize, hdiscarded.sent⟩
  | fire e =>
    rw [BpAgent6.step] at hstep
    cases hcall : e.call with
    | expire b =>
      rw [hcall] at hstep
      obtain ⟨-, -, rfl⟩ := expire_eq_some.mp hstep
      exact (hs.popEvent e).discarded b
    | forward b =>
      rw [hcall] at hstep
      obtain ⟨h, p, horigin, hb⟩ := hs.objects b (Or.inr ⟨e, hop.1, by rw [hcall]; rfl⟩)
      exact (hs.popEvent e).forward ⟨h, p, horigin, hb.whole (hs.sent e hop.1 b hcall)⟩ hstep
  | advance now =>
    cases hstep
    exact ⟨hs.objects, hs.handed, hs.bundleSize, hs.sent⟩
  | configure config =>
    cases hstep
    exact ⟨hs.objects, hs.handed, hplace, hs.sent⟩

/-! ## The network -/

/-- A packet on the medium is a piece of a created ADU, under its header. -/
def CarriesPiece (O : BpHeader6 → Packet → Prop) (packet : List UInt8) : Prop :=
  ∃ (tx : Transmission) (h : BpHeader6) (p : Packet) (r : ℕ × ℕ), O h p ∧
    PieceOf h p tx.header tx.payloadHeader tx.payload r ∧
    tx.payloadHeader.blockLength.toNat < 2 ^ 28 ∧
    ∃ reserved : List UInt8, reserved.length = 6 ∧ packet = tx.wire reserved

/-- One step of one node. -/
theorem Intact.step {op : NodeOp} (hs : Intact O s) (hdispatched : s.AllDispatched) (hO : Identified O)
    (hop : op.Allowed s) (hplace : s.InPlace op) (htakes : ∀ packet, op.Takes packet →
      CarriesPiece O packet) (hcbhe : ∀ h p, O h p → h.cbhe = false)
    (hnew : ∀ hdr p, Creates s op hdr p → O hdr p) (hstep : op.step s = some t) :
    Intact O t ∧ t.AllDispatched := by
  cases op with
  | act o => exact ⟨hs.act hdispatched hop.2 hop.1 hplace hnew hstep, hdispatched.step hop.2 hstep⟩
  | arrive d =>
    obtain ⟨rx, hrx, hrun⟩ := Option.bind_eq_some_iff.mp hstep
    obtain ⟨tx, h, p, r, horigin, htx, hfit, hcarries⟩ := htakes _ rfl
    have hpiece := PieceOf.received htx (hcbhe h p horigin) hfit hcarries hrx
    have hprocess : BpAgent6.step (.processBundle d.ptr d.signal rx) s = some t := hrun
    have hadmissible : s.Admissible (.processBundle d.ptr d.signal rx) := hop
    refine ⟨hs.processBundle hO horigin hpiece (hplace rx hrx) hop.1 hop.2.1 hop.2.2 ?_ hrun,
      hdispatched.step hadmissible hprocess⟩
    intro u v state cs p hdr hu hfind hv hcust hpacket hsrc hhdr
    exact hnew hdr p (.custodySignal hrx hu hfind hv hcust hpacket hsrc hhdr)

theorem Pristine.intact (h : s.Pristine) (hsize : s.config.bundleSize.toNat < 2 ^ 28) :
    Intact O s ∧ s.AllDispatched := by
  refine ⟨⟨fun x hx => ?_, fun tx htx => ?_, hsize, fun e he => ?_⟩, fun x hx => ?_⟩
  · rcases hx with hx | ⟨e, he, -⟩
    · rw [h.mStore] at hx
      cases hx
    · rw [h.pending] at he
      cases he
  · rw [h.handed] at htx
    cases htx
  · rw [h.pending] at he
    cases he
  · rw [h.mStore] at hx
    cases hx

/-- What an intact agent has sent carries pieces. -/
theorem Intact.carriesPiece {packet : List UInt8} (hs : Intact O s) (hsent : s.HasSent packet) :
    CarriesPiece O packet := by
  obtain ⟨tx, htx, hwire⟩ := hsent
  obtain ⟨h, p, r, horigin, hpiece, hfit⟩ := hs.handed tx htx
  exact ⟨tx, h, p, r, horigin, hpiece, hfit, hwire⟩

/-- Where bundles are told apart, a network is intact in every run. -/
theorem intact_of_run {Node : Type*} [DecidableEq Node] {guard : Node → BpAgent6 → NodeOp → Prop}
    {n n' : Node → BpAgent6} {ops : List (Node × NodeOp)}
    (hinit : ∀ i, (n i).Pristine ∧ (n i).config.bundleSize.toNat < 2 ^ 28)
    (hplace : ∀ i s op, guard i s op → s.InPlace op) (hO : Identified (Origin guard n ops))
    (hrun : (network guard).Run n ops n') (i : Node) : Intact (Origin guard n ops) (n' i) := by
  refine ((network guard).invariant
    (fun _ s => Intact (Origin guard n ops) s ∧ s.AllDispatched)
    (CarriesPiece (Origin guard n ops)) (fun _ _ _ hs => hs.1.carriesPiece) ?_ hrun
    (fun i => (hinit i).1.intact (hinit i).2) i).1
  rintro i s op t ⟨hs, hdispatched⟩ hguard htakes hoccurs hstep
  refine hs.step hdispatched hO hguard.1 (hplace i s op hguard.2) htakes
    (fun h p horigin => horigin.cbhe) (fun hdr p hcreates => ?_) hstep
  exact ⟨i, s, op, hoccurs, hcreates⟩

/-- **What is received is what was sent**: whatever the medium does with the packets, what `Receive`
returns at any node of a network is the whole ADU of a bundle that was created in the run for the
endpoint id it is received under. -/
theorem integrity {Node : Type*} [DecidableEq Node] {own : Node → BpEndpointId → Prop}
    {n n' : Node → BpAgent6} {ops : List (Node × NodeOp)} {i : Node} {eid : BpEndpointId}
    {packet : Packet} {guard : Node → BpAgent6 → NodeOp → Prop}
    (hinit : ∀ i, (n i).Pristine ∧ (n i).config.bundleSize.toNat < 2 ^ 28)
    (hguard : ∀ i s op, guard i s op → s.InPlace op ∧ s.SendsAs (own i) op)
    (hseparate : Separate own) (hcount : ∀ i, ops.countP (fun e => e.1 = i) ≤ 2 ^ 32)
    (hrun : (network guard).Run n ops n') (hreceive : (n' i).receive eid = some (u, some packet)) :
    ∃ h, Origin guard n ops h packet ∧ h.getDestinationEid.uri = eid.uri := by
  have hO := identified_of_run (fun i s op hg => (hguard i s op hg).2) hseparate hcount hrun
  have hintact := intact_of_run hinit (fun i s op hg => (hguard i s op hg).1) hO hrun i
  rcases receive_eq_some.mp hreceive with ⟨-, -, hnone⟩ | ⟨x, adu, hx, -, hadu, hpacket, -⟩
  · cases hnone
  cases hpacket
  have htest := List.find?_some hx
  simp only [Bool.or_false, Bool.and_eq_true, BpEndpointId.beq_iff, Bool.not_eq_eq_eq_not,
    Bool.not_true] at htest
  obtain ⟨h, p, horigin, hholds⟩ := hintact.objects x (Or.inl (List.mem_of_find?_eq_some hx))
  have hall := (hholds.adu_of_not_fragment htest.2).resolve_left (hadu ▸ Option.some_ne_none packet)
  obtain rfl : packet = p := Option.some.inj (hadu.symm.trans hall)
  refine ⟨h, horigin, ?_⟩
  rw [← hholds.header.shown.destination]
  exact htest.1

end BpAgent6

namespace Sample
open BpAgent6

/-- The agents of the pair have `d:b` and `d:c`. -/
def admin (uri : List UInt8) : Prop := uri = (eid 98).uri ∨ uri = (eid 99).uri

instance (uri : List UInt8) : Decidable (admin uri) := inferInstanceAs (Decidable (_ ∨ _))

/-- What the pair does. -/
def rules (i : Bool) (s : BpAgent6) (op : NodeOp) : Prop :=
  s.InPlace op ∧ s.SendsAs (owns i) op ∧ s.Administers admin op

instance (s : BpAgent6) : (op : NodeOp) → Decidable (s.InPlace op)
  | .act (.configure config) => inferInstanceAs (Decidable (config.bundleSize.toNat < 2 ^ 28))
  | .arrive d => Option.decidableForallMem (dataRecv false d.packet.bytes)
  | .act (.send ..) => isTrue trivial
  | .act (.processBundle ..) => isTrue trivial
  | .act (.claReady _) => isTrue trivial
  | .act (.receive _) => isTrue trivial
  | .act (.fire _) => isTrue trivial
  | .act (.advance _) => isTrue trivial

instance (s : BpAgent6) : (op : NodeOp) → Decidable (s.Administers admin op)
  | .act (.send _ _ src dst _ _ _) => Option.decidableForallMem (dictionaryUri src dst)
  | .arrive d => @instDecidableAnd _ _ _ (Option.decidableForallMem (dataRecv false d.packet.bytes))
  | .act (.processBundle ..) => isTrue trivial
  | .act (.claReady _) => isTrue trivial
  | .act (.receive _) => isTrue trivial
  | .act (.fire _) => isTrue trivial
  | .act (.advance _) => isTrue trivial
  | .act (.configure _) => isTrue trivial

instance (i : Bool) (s : BpAgent6) (op : NodeOp) : Decidable (rules i s op) :=
  inferInstanceAs (Decidable (_ ∧ _ ∧ _))

end Sample

namespace BpAgent6

/-- Two bytes in two bundles that arrive in the other order: they are what was sent. -/
theorem integrity_sample : ∃ ops n' u, (network Sample.rules).Run Sample.pair ops n' ∧
    (n' true).receive (Sample.eid 97) = some (u, some Sample.twoBytes) ∧
    ∃ h, Origin Sample.rules Sample.pair ops h Sample.twoBytes ∧
      h.getDestinationEid.uri = (Sample.eid 97).uri := by
  obtain ⟨n', hreplay, htest⟩ := (Option.any_eq_true _ _).mp (by decide +kernel :
    (Sample.replay Sample.rules Sample.pair [.send false 1 Sample.twoBytes (Sample.eid 97) false,
      .arrive true 1 1, .arrive true 2 0]).any (fun n' : Bool → BpAgent6 =>
        ((n' true).receive (Sample.eid 97)).any fun y => decide (y.2 = some Sample.twoBytes)) = true)
  obtain ⟨⟨u, packet⟩, hreceive, hpacket⟩ := (Option.any_eq_true _ _).mp htest
  cases of_decide_eq_true hpacket
  obtain ⟨ops, hrun, hlength⟩ := Sample.run_of_replay hreplay
  exact ⟨ops, n', u, hrun, hreceive, integrity Sample.pristine_pair
    (fun i s op hrules => ⟨hrules.1, hrules.2.1⟩) Sample.separate_owns
    (Sample.countP_le (hlength ▸ by decide)) hrun hreceive⟩

end BpAgent6

end BundleProtocol
