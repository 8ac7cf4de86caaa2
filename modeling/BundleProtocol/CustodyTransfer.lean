import BundleProtocol.CustodySignals
import BundleProtocol.Integrity

/-! # Custody is safe across the network

An agent that has sent a bundle releases it when custody signals acknowledge all of its ADU.  Each
acknowledged range was signalled by an agent at which the bytes of that range had arrived
(`Credited`), whatever the medium did with the bundles and the signals.  This takes that nobody but agents
writes administrative records (`Administers`): an agent takes any bundle for its own endpoint id for
one, and a fragment of one for a whole one.
-/
namespace BundleProtocol
open Tiling Interleaving BpHeader6 FlagWord

/-! ## Acknowledged ranges -/

/-- `P` holds of every byte of the range. -/
def Vouched (P : ℕ → Prop) (ack : UInt32 × UInt32) : Prop :=
  ∀ k, ack.1.toNat ≤ k → k < ack.2.toNat → P k

namespace BpAgent6
variable {s t u v : BpAgent6} {b q x y it : Ptr} {p : Packet} {h : BpHeader6} {rx : ReceivedBundle}
  {cs : CustodySignal} {G : BpHeader6 → Packet → Prop} {A : BpHeader6 → Packet → ℕ → Prop}
  {P : ℕ → Prop}

theorem vouched_mergeAck {thisack ack : UInt32 × UInt32} (hthis : Vouched P thisack)
    (hack : Vouched P ack) : Vouched P (mergeAck thisack ack) := by
  -- ranges that touch are put together
  have hjoin : ∀ a b c : UInt32, Vouched P (a, b) → Vouched P (b, c) → Vouched P (a, c) := by
    intro a b c hab hbc k hlo hhi
    by_cases hk : k < b.toNat
    · exact hab k hlo hk
    · exact hbc k (not_lt.mp hk) hhi
  have hfront : ∀ ack : UInt32 × UInt32, Vouched P ack →
      Vouched P (if thisack.2 = ack.1 then (thisack.1, ack.2) else ack) := by
    intro ack hack
    split
    · rename_i htouch
      exact hjoin thisack.1 ack.1 ack.2 (htouch ▸ hthis) hack
    · exact hack
  unfold mergeAck
  refine hfront _ ?_
  split
  · rename_i htouch
    exact hjoin ack.1 ack.2 thisack.2 hack (htouch ▸ hthis)
  · exact hack

theorem vouched_addAck {thisack : UInt32 × UInt32} {acks : List (UInt32 × UInt32)}
    (hthis : Vouched P thisack) (hacks : ∀ ack ∈ acks, Vouched P ack) :
    ∀ ack ∈ addAck thisack acks, Vouched P ack := by
  have hmerged : ∀ ack ∈ acks.map (mergeAck thisack), Vouched P ack := by
    intro ack hack
    obtain ⟨old, hold, rfl⟩ := List.mem_map.mp hack
    exact vouched_mergeAck hthis (hacks old hold)
  unfold addAck
  dsimp only
  split
  · intro ack hack
    rcases List.mem_append.mp hack with hack | hack
    · exact hmerged ack hack
    · rwa [List.mem_singleton.mp hack]
  · exact hmerged

/-- All of the ADU is acknowledged. -/
theorem vouched_of_fullyAcked {acks : List (UInt32 × UInt32)} {len : UInt32}
    (hacks : ∀ ack ∈ acks, Vouched P ack) (hfull : fullyAcked acks len = true) :
    ∀ k < len.toNat, P k := by
  unfold fullyAcked at hfull
  split at hfull
  · rename_i ack
    rw [Bool.and_eq_true, beq_iff_eq, beq_iff_eq] at hfull
    intro k hk
    refine hacks ack (List.mem_singleton_self ack) k ?_ (hfull.2 ▸ hk)
    rw [hfull.1]
    exact Nat.zero_le k
  · cases hfull

/-! ## Signals -/

/-- What the signal acknowledges of the bundle it names has arrived. -/
def Truthful (G : BpHeader6 → Packet → Prop) (A : BpHeader6 → Packet → ℕ → Prop)
    (cs : CustodySignal) : Prop :=
  ∀ h p, G h p → IsAbout cs h → Vouched (A h p) (thisack cs)

/-- A custody signal that can be read from the packet is truthful. -/
def Reports (G : BpHeader6 → Packet → Prop) (A : BpHeader6 → Packet → ℕ → Prop) (p : Packet) : Prop :=
  ∀ ar rest cs rest', AdminRecord.removeFrom p.bytes = some (ar, rest) →
    CustodySignal.removeFrom rest = some (cs, rest') → Truthful G A cs

/-- An encoded signal is read back, but for its time. -/
theorem removeFrom_encode (hlen : cs.srcEid.length = cs.srcEidLen.toNat) :
    ∃ time rest, CustodySignal.removeFrom cs.encode = some ({ cs with timeOfSignal := time }, rest) := by
  -- only the whole seconds of the time are encoded
  let time := UInt64.ofNat (wholeSeconds cs.timeOfSignal)
  let cut := { cs with timeOfSignal := seconds time.toNat }
  have hencode : cut.encode = cs.encode := by
    unfold CustodySignal.encode
    dsimp only [cut]
    rw [BpHeader6.wholeSeconds_seconds, UInt64.ofNat_toNat]
  have hcut : cut.srcEid.length = cut.srcEidLen.toNat := hlen
  have hread := CustodySignal.reads_deserialize hcut rfl time.toNat_lt []
  rw [hencode, List.append_nil] at hread
  exact ⟨_, _, Option.bind_eq_some_iff.mpr ⟨_, hread, rfl⟩⟩

/-- The record that an agent sends reports what its signal says. -/
theorem reports_custodySignalPacket (hpacket : s.custodySignalPacket b = some (cs, p))
    (hcs : Truthful G A cs) : Reports G A p := by
  obtain ⟨cs', hcs', hpacket⟩ := Option.bind_eq_some_iff.mp hpacket
  obtain ⟨p', hp', hpacket⟩ := Option.bind_eq_some_iff.mp hpacket
  cases hpacket
  have hbytes := Packet.bytes_of_ofBytes hp'
  obtain ⟨len, -, hcs'⟩ := Option.bind_eq_some_iff.mp hcs'
  have hlen : cs.srcEid.length = cs.srcEidLen.toNat := by
    have hle : cs.srcEid.length ≤ cs.encode.length := by
      rw [CustodySignal.encode, List.length_cons, List.length_append]
      omega
    have hlt : cs.srcEid.length < 2 ^ 32 := by
      have hsize := p.size_lt
      rw [hbytes, List.length_append] at hsize
      omega
    cases hcs'
    exact (UInt32.toNat_ofNat_of_lt' hlt).symm
  intro ar rest cs' rest' har hread
  rw [hbytes] at har
  cases har
  obtain ⟨time, rest₂, hread'⟩ := removeFrom_encode hlen
  cases hread'.symm.trans hread
  -- the time of the signal says nothing about what it acknowledges
  exact fun h p horigin habout => hcs h p horigin ⟨habout.1, habout.2, habout.3⟩

/-- **A signal about a bundle that holds a piece of its ADU** acknowledges that piece. -/
theorem truthful_custodySignalPacket (hG : Identified G) (horigin : G h p)
    (hcopy : CopyOf h (s.header b)) (hpiece : Piece (A h p) p (s.heap b)) {packet : Packet}
    (hpacket : s.custodySignalPacket b = some (cs, packet)) : Truthful G A cs := by
  obtain ⟨hoffset, hlength⟩ := custodySignalPacket_eq_some hpacket
  have habout := isAbout_of_custodySignalPacket hpacket
  intro h' p' horigin' habout'
  -- the signal names one bundle
  have hnamed : Named h h' := by
    refine ⟨?_, ?_, ?_⟩
    · rw [BpEndpointId.beq_iff, ← habout'.source, habout.source, hcopy.shown.source]
    · rw [← habout'.createTimestamp, habout.createTimestamp, hcopy.shown.createTimestamp]
    · rw [← habout'.timestampSeqNum, habout.timestampSeqNum, hcopy.shown.timestampSeqNum]
  obtain ⟨rfl, rfl⟩ := hG.distinct h p h' p' horigin horigin' hnamed
  intro k hlo hhi
  have hlo' : (s.header b).fragOffset.toNat ≤ k := hoffset ▸ hlo
  have hhi' : k < ((s.header b).fragOffset + if (s.header b).isFragment then
      UInt32.ofNat (s.aduSize b) else 0).toNat := hlength ▸ hoffset ▸ hhi
  split at hhi'
  · rename_i hfragment
    rcases hpiece with hnone | ⟨r, hpart, hA⟩
    · have hsize : s.aduSize b = 0 := by
        unfold BundleStore.aduSize
        rw [hnone]
        rfl
      rw [hsize, show UInt32.ofNat 0 = 0 from rfl, UInt32.add_zero] at hhi'
      exact absurd hlo' (Nat.not_le_of_lt hhi')
    · have hsize : s.aduSize b = r.2 := by
        rw [BundleStore.aduSize_of_adu hpart.adu, Packet.size_piece hpart.le]
      have hr : (s.header b).fragOffset.toNat = r.1 := hpart.fragOffset
      have hle := hpart.le
      have hlt := p.size_lt_two_pow
      have hsize' : (UInt32.ofNat r.2).toNat = r.2 :=
        UInt32.toNat_ofNat_of_lt' (show r.2 < 2 ^ 32 by omega)
      rw [hsize, UInt32.toNat_add, hr, hsize', Nat.mod_eq_of_lt (by omega)] at hhi'
      exact hA hfragment k (hr ▸ hlo') hhi'
  · rw [UInt32.add_zero] at hhi'
    exact absurd hlo' (Nat.not_le_of_lt hhi')

/-! ## What a node has to show for its acknowledgements -/

/-- Every range that is acknowledged of the bundle has arrived. -/
def AcksVouched (G : BpHeader6 → Packet → Prop) (A : BpHeader6 → Packet → ℕ → Prop)
    (y : Bundle6) : Prop :=
  ∀ h p, G h p → CopyOf h y.primaryHeader → ∀ ack ∈ y.acks, Vouched (A h p) ack

/-- The bytes of a held fragment have arrived. -/
def Backed (G : BpHeader6 → Packet → Prop) (A : BpHeader6 → Packet → ℕ → Prop)
    (y : Bundle6) : Prop :=
  y.Held → y.primaryHeader.isFragment = true → ∀ h p, G h p → CopyOf h y.primaryHeader →
    Piece (A h p) p y

theorem Piece.congr {y y' : Bundle6} (hy : Piece P p y) (hadu : y'.adu = y.adu)
    (hheader : y'.primaryHeader = y.primaryHeader) : Piece P p y' := by
  rcases hy with hnone | ⟨r, hr, hP⟩
  · exact Or.inl (hadu.trans hnone)
  · refine Or.inr ⟨r, ⟨hadu.trans hr.adu, ?_, ?_, hr.pos, hr.le, ?_⟩, ?_⟩ <;> rw [hheader]
    · exact hr.fragOffset
    · exact hr.aduLength
    · exact hr.whole
    · exact hP

/-- So it is of all stored bundles. -/
structure Credited (G : BpHeader6 → Packet → Prop) (A : BpHeader6 → Packet → ℕ → Prop)
    (s : BpAgent6) : Prop where
  acks : ∀ x ∈ s.mStore, AcksVouched G A (s.heap x)
  backed : ∀ x ∈ s.mStore, Backed G A (s.heap x)

/-- Bundles that have not changed, or have lost all they had. -/
theorem Credited.of_heap (hs : Credited G A s) (hstore : ∀ x ∈ t.mStore, x ∈ s.mStore)
    (hheap : ∀ x ∈ t.mStore, t.heap x = s.heap x ∨ (t.heap x).adu = none ∧ (t.heap x).acks = []) :
    Credited G A t := by
  refine ⟨fun x hx => ?_, fun x hx => ?_⟩
  · rcases hheap x hx with hsame | ⟨-, hacks⟩
    · rw [hsame]
      exact hs.acks x (hstore x hx)
    · intro h p _ _ ack hack
      rw [hacks] at hack
      cases hack
  · rcases hheap x hx with hsame | ⟨hadu, -⟩
    · rw [hsame]
      exact hs.backed x (hstore x hx)
    · exact fun _ _ _ _ _ _ => Or.inl hadu

theorem heap_discarded_cases (s : BpAgent6) (b x : Ptr) : (s.discarded b).heap x = s.heap x ∨
    ((s.discarded b).heap x).adu = none ∧ ((s.discarded b).heap x).acks = [] := by
  by_cases hxb : x = b
  · subst hxb
    refine Or.inr ⟨adu_discarded s x, ?_⟩
    rw [discarded, dispose, BundleStore.doDispose, Memory.heap_doDispose, Function.update_self]
  · exact Or.inl (heap_discarded_of_ne s hxb)

theorem Credited.discarded (hs : Credited G A s) (b : Ptr) : Credited G A (s.discarded b) :=
  hs.of_heap (fun _ => List.mem_of_mem_erase) fun x _ => s.heap_discarded_cases b x

theorem acks_forward (hrun : s.forward b = some t) :
    (t.heap b).acks = [] ∨ (t.heap b).acks = (s.heap b).acks := by
  rcases forward_eq_some.mp hrun with ⟨-, rfl⟩ | ⟨cla, adu, -, -, hm, hcase⟩
  · rw [flagged, heap_modify_self]
    exact Or.inr rfl
  · have hacks := (s.sentBundle b cla hm).acks
    rcases hcase with ⟨-, rfl⟩ | ⟨-, -, rfl⟩
    · exact Or.inr hacks
    · rcases (s.sent b cla adu).heap_discarded_cases b b with hsame | ⟨-, hnone⟩
      · rw [hsame]
        exact Or.inr hacks
      · exact Or.inl hnone

theorem Credited.forward (hs : Credited G A s) (hrun : s.forward b = some t) : Credited G A t := by
  have hframe := forward_frame hrun
  refine ⟨fun x hx => ?_, fun x hx => ?_⟩
  · have hold := hs.acks x (hframe.sublist.subset hx)
    by_cases hxb : x = b
    · subst hxb
      intro h p horigin hcopy ack hack
      rcases acks_forward hrun with hnone | hsame
      · rw [hnone] at hack
        cases hack
      · rw [hsame] at hack
        exact hold h p horigin (hcopy.trans ((keeps_forward hrun).header x).symm) ack hack
    · rw [hframe.heap x hxb]
      exact hold
  · by_cases hxb : x = b
    · subst hxb
      exact fun hheld => absurd hheld (not_held_forward hrun)
    · rw [hframe.heap x hxb]
      exact hs.backed x (hframe.sublist.subset hx)

/-- A new bundle has no acknowledgements. -/
theorem Credited.placed (hs : Credited G A s) (hacks : (t.heap b).acks = [])
    (hbacked : Backed G A (t.heap b)) (hheap : ∀ x, x ≠ b → t.heap x = s.heap x)
    (hstore : ∀ x ∈ t.mStore, x = b ∨ x ∈ s.mStore) : Credited G A t := by
  refine ⟨fun x hx => ?_, fun x hx => ?_⟩
  · by_cases hxb : x = b
    · subst hxb
      intro h p _ _ ack hack
      rw [hacks] at hack
      cases hack
    · rw [hheap x hxb]
      exact hs.acks x ((hstore x hx).resolve_left hxb)
  · by_cases hxb : x = b
    · subst hxb
      exact hbacked
    · rw [hheap x hxb]
      exact hs.backed x ((hstore x hx).resolve_left hxb)

theorem Credited.createBundle {src dst : BpEndpointId} {lifetime : Time} {custody : Bool}
    {priority : UInt32} (hs : Credited G A s)
    (hrun : s.createBundle b p src dst lifetime custody priority = some t) : Credited G A t := by
  obtain ⟨hdr, id, hnew, hself⟩ := heap_createBundle hrun
  refine hs.placed (b := b) ?_ ?_ (fun x hx => heap_createBundle_of_ne hrun hx) fun x hx => ?_
  · rw [hself]
    rfl
  · intro _ hfragment
    rw [hself] at hfragment
    have hwhole : hdr.isFragment = true := hfragment
    rw [(newHeader_spec hnew).isFragment] at hwhole
    cases hwhole
  · obtain ⟨hdr', -, ⟨-, rfl⟩ | ⟨-, -, rfl⟩⟩ := createBundle_eq_some.mp hrun
    · exact Or.inr hx
    · rcases BundleStore.mem_stored.mp hx with hself | hold
      · exact Or.inl hself
      · exact Or.inr hold

/-- A piece that arrives brings its bytes. -/
theorem piece_acceptBundle {r : ℕ × ℕ} (hlength : h.aduLength = p.getSize)
    (hrx : PieceOf h p rx.header rx.payloadHeader rx.adu r)
    (hA : rx.header.isFragment = true → ∀ k, r.1 ≤ k → k < r.1 + r.2 → A h p k)
    (hrun : s.acceptBundle b rx = some t) : Piece (A h p) p (t.heap b) := by
  obtain ⟨-, -, hpart⟩ := holds_acceptBundle hlength hrx hrun
  refine Or.inr ⟨r, hpart, fun hfragment => hA ?_⟩
  rwa [← header_acceptBundle hrun]

theorem Credited.acceptBundle (hs : Credited G A s) (hG : Identified G) (horigin : G h p)
    (hcopy : CopyOf h rx.header) (hrun : s.acceptBundle b rx = some t)
    (hpiece : Piece (A h p) p (t.heap b)) : Credited G A t := by
  obtain ⟨id, hid⟩ := heap_acceptBundle hrun
  refine hs.placed (b := b) (by rw [hid]; rfl) ?_ (fun x hx => heap_acceptBundle_of_ne hrun hx)
    fun x hx => (mem_acceptBundle hrun hx).symm.imp_left And.left
  intro _ _ h' p' horigin' hcopy'
  have hcopy₂ : CopyOf h' rx.header := by
    rw [← header_acceptBundle hrun]
    exact hcopy'
  obtain ⟨rfl, rfl⟩ := hG.distinct h p h' p' horigin horigin'
    (named_of_copies hcopy hcopy₂ ⟨BpEndpointId.beq_self _, rfl, rfl⟩)
  exact hpiece

/-! ## Local delivery -/

/-- **A truthful signal** acknowledges nothing that has not arrived. -/
theorem vouched_of_acknowledges (hs : Credited G A s) (hcs : Truthful G A cs) (hx : x ∈ s.mStore)
    (hack : Acknowledges cs (s.header x)) (horigin : G h p) (hcopy : CopyOf h (s.header x)) :
    ∀ ack ∈ addAck (thisack cs) (s.heap x).acks, Vouched (A h p) ack := by
  obtain ⟨-, hsrc, hts, hseq⟩ := hack
  have habout : IsAbout cs h := by
    refine ⟨?_, ?_, ?_⟩
    · rw [BpEndpointId.beq_iff, BpEndpointId.uri_ofUri] at hsrc
      rw [← hsrc, hcopy.shown.source]
    · rw [← hts, hcopy.shown.createTimestamp]
    · rw [← hseq, hcopy.shown.timestampSeqNum]
  exact vouched_addAck (hcs h p horigin habout) (hs.acks x hx h p horigin hcopy)

theorem Credited.processCustodySignal (hs : Credited G A s) (hcs : Truthful G A cs)
    (hrun : s.processCustodySignal cs = some t) : Credited G A t := by
  have hacked : ∀ x, s.signalled cs = some x → Credited G A (s.acked x cs) := by
    intro x hx
    refine ⟨fun y hy => ?_, fun y hy => ?_⟩
    · by_cases hyx : y = x
      · subst hyx
        intro h p horigin hcopy
        rw [acks_acked]
        exact vouched_of_acknowledges hs hcs hy (acknowledges_of_signalled hx) horigin
          (by rwa [← header_acked s y y cs])
      · rw [heap_acked_of_ne s cs hyx]
        exact hs.acks y hy
    · by_cases hyx : y = x
      · subst hyx
        rw [acked, heap_modify_self]
        exact fun hheld hfragment h p horigin hcopy =>
          (hs.backed y hy hheld hfragment h p horigin hcopy).congr rfl rfl
      · rw [heap_acked_of_ne s cs hyx]
        exact hs.backed y hy
  rcases processCustodySignal_eq_some.mp hrun with ⟨-, rfl⟩ | ⟨x, hx, ⟨-, rfl⟩ | ⟨-, -, -, rfl⟩⟩
  · exact hs
  · exact hacked x hx
  · exact (hacked x hx).discarded x

/-- An administrative record that is read from the bundle at `b`. -/
theorem handleAdminRecord_cases {ar : AdminRecord} (hrun : s.handleAdminRecord b ar = some t) :
    (∃ adu cs rest w, (s.heap b).adu = some adu ∧
      CustodySignal.removeFrom adu.bytes = some (cs, rest) ∧
      (s.withAdu b w).processCustodySignal cs = some t) ∨ ∃ w, t = s.withAdu b w ∨ t = s := by
  unfold handleAdminRecord at hrun
  split at hrun
  · obtain ⟨⟨cs, u⟩, hu, hrun⟩ := Option.bind_eq_some_iff.mp hrun
    obtain ⟨adu, hadu, hu⟩ := Option.bind_eq_some_iff.mp hu
    obtain ⟨⟨cs', rest⟩, hread, hu⟩ := Option.bind_eq_some_iff.mp hu
    obtain ⟨w, -, hu⟩ := Option.bind_eq_some_iff.mp hu
    cases hu
    exact Or.inl ⟨adu, cs, rest, w, hadu, hread, hrun⟩
  · split at hrun
    · obtain ⟨⟨_, u⟩, hu, hrun⟩ := Option.bind_eq_some_iff.mp hrun
      cases hrun
      obtain ⟨w, rfl⟩ := stripAdu_eq_withAdu hu
      exact Or.inr ⟨w, Or.inl rfl⟩
    · cases hrun
      exact Or.inr ⟨⟨[], by decide⟩, Or.inr rfl⟩

/-- What processing the bundle at `b` as an administrative record comes to: its ADU is cut, a
signal in it is processed, and it is discarded. -/
theorem adminRecord_cases (hrun : s.processAdminRecord b = some t) :
    ∃ w v, t = v.discarded b ∧ (v = s.withAdu b w ∨ ∃ adu ar rest cs rest',
      (s.heap b).adu = some adu ∧ AdminRecord.removeFrom adu.bytes = some (ar, rest) ∧
      CustodySignal.removeFrom rest = some (cs, rest') ∧
      (s.withAdu b w).processCustodySignal cs = some v) := by
  obtain ⟨⟨ar, u⟩, hu, hrun⟩ := Option.bind_eq_some_iff.mp hrun
  obtain ⟨adu, hadu, hu⟩ := Option.bind_eq_some_iff.mp hu
  obtain ⟨⟨ar', rest⟩, hread, hu⟩ := Option.bind_eq_some_iff.mp hu
  obtain ⟨p, hp, hu⟩ := Option.bind_eq_some_iff.mp hu
  cases hu
  obtain ⟨v, hv, hrun⟩ := Option.bind_eq_some_iff.mp hrun
  obtain ⟨w, hw, hrun⟩ := Option.bind_eq_some_iff.mp hrun
  cases hrun
  obtain ⟨-, -, rfl⟩ := removeFromStore_eq_some.mp hw
  rcases handleAdminRecord_cases (s := s.withAdu b p) hv with
    ⟨adu', cs, rest', w', hadu', hread', hsignal⟩ | ⟨w', rfl | rfl⟩
  · rw [withAdu, heap_modify_self] at hadu'
    obtain rfl : p = adu' := Option.some.inj hadu'
    rw [withAdu_withAdu] at hsignal
    rw [Packet.bytes_of_ofBytes hp] at hread'
    exact ⟨w', v, rfl, Or.inr ⟨adu, ar, rest, cs, rest', hadu, hread, hread', hsignal⟩⟩
  · rw [withAdu_withAdu]
    exact ⟨w', _, rfl, Or.inl rfl⟩
  · exact ⟨p, _, rfl, Or.inl rfl⟩

theorem acksVouched_coalesceWith (hrun : s.coalesceWith b it = some t)
    (hx : AcksVouched G A (s.heap x)) : AcksVouched G A (t.heap x) := by
  have hgrown : ∀ y : Bundle6, AcksVouched G A y → ∀ joined, AcksVouched G A (y.grown joined) := by
    intro y hy joined h p horigin hcopy
    refine hy h p horigin (hcopy.trans ?_)
    unfold Bundle6.grown
    dsimp only
    split
    · exact (copyOf_setIsFragment _ _).symm
    · exact .refl _
  obtain ⟨itAdu, adu, -, -, hcase⟩ := coalesceWith_cases hrun
  rcases hcase with ⟨-, -, joined, -, rfl⟩ | ⟨-, -, -, joined, -, rfl⟩ | ⟨-, -, rfl⟩
  · by_cases hxit : x = it
    · subst hxit
      rw [heap_absorbed_self]
      exact hgrown _ hx joined
    · rwa [heap_absorbed_of_ne s hxit]
  · by_cases hxb : x = b
    · subst hxb
      rw [heap_absorbed_self]
      exact hgrown _ hx joined
    · rwa [heap_absorbed_of_ne s hxb]
  · exact hx

/-- **Matching a fragment** with held bundles of its identity. -/
theorem Credited.matchFragments {O : BpHeader6 → Packet → Prop} (hs : Credited G A s)
    (hG : Identified G) (hO : ∀ h p, O h p → G h p) (hintact : Intact O s) (horigin : O h p)
    (hcopy : CopyOf h (s.header b)) (hpos : 0 < p.size) (hpiece : Piece (A h p) p (s.heap b))
    (hacks : AcksVouched G A (s.heap b))
    (hplace : (s.header b).isFragment = true → ∀ x ∈ s.mStore, Named (s.header b) (s.header x) →
      (s.heap x).Held)
    (hrun : s.matchFragments b = some t) : Credited G A t ∧ Piece (A h p) p (t.heap b) := by
  have hstore : ∀ x ∈ t.mStore, x ∈ s.mStore :=
    ((deliveryClosed_sameKeys s).matchFragments (.refl s) hrun).mStore.subset
  have hkeeps := (deliveryClosed_keeps s b).matchFragments (.refl s b) hrun
  unfold BpAgent6.matchFragments at hrun
  split at hrun
  · rename_i hfragment
    have hl : ∀ it ∈ s.getBundles (s.header b).getSourceEid (s.header b).createTimestamp
        (s.header b).timestampSeqNum, CopyOf h (s.header it) ∧ Piece (A h p) p (s.heap it) ∧
          AcksVouched G A (s.heap it) := by
      intro it hit
      obtain ⟨hmem, hnamed⟩ := BundleStore.mem_getBundles.mp hit
      obtain ⟨g, p₂, horigin₂, hit'⟩ := hintact.objects it (Or.inl hmem)
      obtain ⟨rfl, rfl⟩ := hG.distinct h p g p₂ (hO h p horigin) (hO g p₂ horigin₂)
        (named_of_copies hcopy hit'.header hnamed)
      have hheld := hplace hfragment it hmem hnamed
      refine ⟨hit'.header, ?_, hs.acks it hmem⟩
      by_cases hpart : (s.heap it).primaryHeader.isFragment = true
      · exact hs.backed it hmem hheld hpart h p (hO h p horigin) hit'.header
      · exact piece_of_holds hit' hheld hpos fun _ _ hpart' => absurd hpart' hpart
    obtain ⟨hobjects, hother⟩ := coalesce_objects
      (Q := fun y => Piece (A h p) p y ∧ AcksVouched G A y)
      (fun hb hit hu x hx => ⟨piece_coalesceWith hb.1 hit.1 hu hx.1,
        acksVouched_coalesceWith hu hx.2⟩) ⟨hpiece, hacks⟩ (fun it hit => (hl it hit).2) hrun
    -- a bundle that was matched is of this origin
    have hmatched : ∀ x, CopyOf h (s.header x) → Piece (A h p) p (s.heap x) →
        AcksVouched G A (s.heap x) → AcksVouched G A (t.heap x) ∧ Backed G A (t.heap x) := by
      intro x hcopy' hpiece' hacks'
      obtain ⟨hnew, hacks⟩ := hobjects x ⟨hpiece', hacks'⟩
      refine ⟨hacks, fun _ _ h' p' horigin' hcopy₂ => ?_⟩
      obtain ⟨rfl, rfl⟩ := hG.distinct h p h' p' (hO h p horigin) horigin'
        (named_of_copies (hcopy'.trans (hkeeps.header x)) hcopy₂ ⟨BpEndpointId.beq_self _, rfl, rfl⟩)
      exact hnew
    have hall : ∀ x ∈ t.mStore, AcksVouched G A (t.heap x) ∧ Backed G A (t.heap x) := by
      intro x hx
      by_cases hxb : x = b
      · subst hxb
        exact hmatched x hcopy hpiece hacks
      · by_cases hxl : x ∈ s.getBundles (s.header b).getSourceEid (s.header b).createTimestamp
            (s.header b).timestampSeqNum
        · obtain ⟨hcopy', hpiece', hacks'⟩ := hl x hxl
          exact hmatched x hcopy' hpiece' hacks'
        · rw [hother x hxb hxl]
          exact ⟨hs.acks x (hstore x hx), hs.backed x (hstore x hx)⟩
    exact ⟨⟨fun x hx => (hall x hx).1, fun x hx => (hall x hx).2⟩, (hobjects b ⟨hpiece, hacks⟩).1⟩
  · cases hrun
    exact ⟨hs, hpiece⟩

/-- **Local delivery**, where a bundle for the agent itself reports what is so. -/
theorem Credited.enqueueIfActive {O : BpHeader6 → Packet → Prop} {state : Bool} (hs : Credited G A s)
    (hG : Identified G) (hO : ∀ h p, O h p → G h p) (hintact : Intact O s) (horigin : O h p)
    (hcopy : CopyOf h (s.header b)) (hpos : 0 < p.size) (hpiece : Piece (A h p) p (s.heap b))
    (hacks : AcksVouched G A (s.heap b))
    (hplace : (s.header b).isFragment = true → ∀ x ∈ s.mStore, Named (s.header b) (s.header x) →
      (s.heap x).Held)
    (hreports : s.isForAgent b = true → (s.header b).isFragment = false ∧
      ∀ adu, (s.heap b).adu = some adu → Reports G A adu)
    (hrun : s.enqueueIfActive b state = some t) : Credited G A t ∧ Piece (A h p) p (t.heap b) := by
  cases state with
  | false =>
    cases hrun
    exact ⟨hs, hpiece⟩
  | true =>
    have hlogged : Credited G A (s.logged b) := ⟨hs.acks, hs.backed⟩
    have hintact' : Intact O (s.logged b) :=
      ⟨hintact.objects, hintact.handed, hintact.bundleSize, hintact.sent⟩
    rcases enqueue_eq_some hrun with ⟨hagent, hadmin⟩ | ⟨-, hmatch⟩
    · obtain ⟨w, v, rfl, hcase⟩ := adminRecord_cases hadmin
      refine ⟨Credited.discarded ?_ b, Or.inl (adu_discarded v b)⟩
      obtain ⟨hwhole, hreports⟩ := hreports hagent
      have hcut : Credited G A ((s.logged b).withAdu b w) := by
        refine ⟨fun x hx => ?_, fun x hx => ?_⟩
        · by_cases hxb : x = b
          · subst hxb
            rw [withAdu, heap_modify_self]
            exact hacks
          · rw [withAdu, heap_modify_of_ne _ hxb]
            exact hlogged.acks x hx
        · by_cases hxb : x = b
          · subst hxb
            rw [withAdu, heap_modify_self]
            intro _ hfragment
            exact absurd hfragment (hwhole ▸ Bool.false_ne_true)
          · rw [withAdu, heap_modify_of_ne _ hxb]
            exact hlogged.backed x hx
      rcases hcase with rfl | ⟨adu, ar, rest, cs, rest', hadu, har, hcs, hsignal⟩
      · exact hcut
      · exact hcut.processCustodySignal (hreports adu hadu ar rest cs rest' har hcs) hsignal
    · exact hlogged.matchFragments hG hO hintact' horigin hcopy hpos hpiece hacks hplace hmatch

/-! ## Arrivals -/

/-- What is known of a bundle that arrives: it is a piece of a created bundle, in its place, its bytes
count as arrived, and it is a whole record that reports what is so if it is for the agent. -/
structure Expected (O G : BpHeader6 → Packet → Prop) (A : BpHeader6 → Packet → ℕ → Prop) (s : BpAgent6)
    (rx : ReceivedBundle) (h : BpHeader6) (p : Packet) (r : ℕ × ℕ) : Prop where
  origin : O h p
  piece : PieceOf h p rx.header rx.payloadHeader rx.adu r
  place : s.FragmentsInPlace rx
  arrived : rx.header.isFragment = true → ∀ k, r.1 ≤ k → k < r.1 + r.2 → A h p k
  record : (rx.header.getDestinationEid == s.config.eid) = true →
    rx.header.isFragment = false ∧ Reports G A p

section Arrivals
variable {O : BpHeader6 → Packet → Prop} {r : ℕ × ℕ} {state : Bool}

theorem Expected.accepted (hrx : Expected O G A s rx h p r) (hs : Credited G A s) (hG : Identified G)
    (hO : ∀ h p, O h p → G h p) (haccept : s.acceptBundle b rx = some u) :
    Credited G A u ∧ Piece (A h p) p (u.heap b) := by
  have horigin := hO h p hrx.origin
  have hpiece := piece_acceptBundle (hG.aduLength h p horigin) hrx.piece hrx.arrived haccept
  exact ⟨hs.acceptBundle hG horigin hrx.piece.header haccept hpiece, hpiece⟩

/-- After local delivery the bundle still holds a piece whose bytes have arrived. -/
theorem Expected.enqueued (hrx : Expected O G A s rx h p r) (hs : Credited G A s) (hG : Identified G)
    (hO : ∀ h p, O h p → G h p) (hintact : Intact O s) (hb : s.Fresh b)
    (haccept : s.acceptBundle b rx = some u) (henqueue : u.enqueueIfActive b state = some v) :
    Credited G A v ∧ Piece (A h p) p (v.heap b) ∧ CopyOf h (v.header b) := by
  obtain ⟨haccepted, hpiece⟩ := hrx.accepted hs hG hO haccept
  have hlength := hG.aduLength h p (hO h p hrx.origin)
  obtain ⟨-, hheld, hpart⟩ := holds_acceptBundle hlength hrx.piece haccept
  have hheader := header_acceptBundle haccept
  have hcopy : CopyOf h (u.header b) := hheader ▸ hrx.piece.header
  have hpos : 0 < p.size := by
    have hle := hpart.le
    have hpos := hpart.pos
    omega
  obtain ⟨id, hid⟩ := heap_acceptBundle haccept
  have hacks : AcksVouched G A (u.heap b) := by
    rw [hid]
    intro _ _ _ _ ack hack
    cases hack
  have hplace := hrx.place.acceptBundle haccept hheld
  have hrecord : u.isForAgent b = true → (u.header b).isFragment = false ∧
      ∀ adu, (u.heap b).adu = some adu → Reports G A adu := by
    intro hagent
    rw [isForAgent, hheader, (rest_acceptBundle haccept).1] at hagent
    obtain ⟨hwhole, hreports⟩ := hrx.record hagent
    rw [← hheader] at hwhole
    refine ⟨hwhole, fun adu hadu => ?_⟩
    cases (hpart.adu_of_not_fragment hwhole).symm.trans hadu
    exact hreports
  obtain ⟨henqueued, hpiece'⟩ := haccepted.enqueueIfActive hG hO
    (hintact.acceptBundle hb hrx.origin hlength hrx.piece haccept) hrx.origin hcopy hpos hpiece hacks
    hplace hrecord henqueue
  exact ⟨henqueued, hpiece', hcopy.trans
    (((deliveryClosed_keeps u b).enqueueIfActive (.refl u b) henqueue).header b)⟩

/-- `Credited` survives an operation if it survives the acceptance and the delivery in it. -/
theorem credited_keptBy {op : Op}
    (haccept : ∀ {b q rx u}, op = .processBundle b q rx → s.acceptBundle b rx = some u →
      Credited G A u)
    (henqueue : ∀ {b q rx u v state}, op = .processBundle b q rx → s.acceptBundle b rx = some u →
      u.enqueueIfActive b state = some v → Credited G A v) : KeptBy s op (Credited G A) where
  same hs hheap hstore _ := hs.of_heap (fun x hx => hstore ▸ hx) fun x _ => Or.inl (by rw [hheap])
  discarded hs _ := hs.discarded _
  acceptBundle := haccept
  enqueue hop hu _ _ hv := henqueue hop hu hv
  createBundle _ _ _ hs hrun := hs.createBundle hrun
  forward _ hs hrun := hs.forward hrun

/-- **An arrival.** -/
theorem Credited.processBundle (hs : Credited G A s) (hrx : Expected O G A s rx h p r)
    (hG : Identified G) (hO : ∀ h p, O h p → G h p) (hintact : Intact O s) (hb : s.Fresh b)
    (hq : s.Fresh q) (hbq : b ≠ q) (hrun : s.processBundle b q rx = some t) : Credited G A t := by
  have hprocess : BpAgent6.step (.processBundle b q rx) s = some t := hrun
  have hadmissible : s.Admissible (.processBundle b q rx) := ⟨hb, hq, hbq⟩
  refine (credited_keptBy ?_ ?_).step hs hadmissible hprocess
  · rintro _ _ _ u ⟨⟩ hu
    exact (hrx.accepted hs hG hO hu).1
  · rintro _ _ _ u v state ⟨⟩ hu hv
    exact (hrx.enqueued hs hG hO hintact hb hu hv).1

/-- **What happens at one agent** without an arrival. -/
theorem Credited.act {op : Op} (hs : Credited G A s) (hop : s.Admissible op)
    (hact : ∀ b q rx, op ≠ .processBundle b q rx) (hstep : BpAgent6.step op s = some t) :
    Credited G A t :=
  (credited_keptBy (fun hop _ => absurd hop (hact _ _ _)) fun hop _ _ =>
    absurd hop (hact _ _ _)).step hs hop hstep

end Arrivals

/-! ## Release -/

theorem mem_createBundle {src dst : BpEndpointId} {lifetime : Time} {custody : Bool}
    {priority : UInt32} (hrun : s.createBundle b p src dst lifetime custody priority = some t)
    (hx : x ∈ s.mStore) : x ∈ t.mStore := by
  obtain ⟨hdr, -, ⟨-, rfl⟩ | ⟨-, -, rfl⟩⟩ := createBundle_eq_some.mp hrun
  · exact hx
  · exact BundleStore.mem_stored.mpr (Or.inr hx)

/-- `Send` takes nothing but its own bundle out of the store. -/
theorem mem_send {src dst : BpEndpointId} {lifetime : Time} {custody : Bool} {priority : UInt32}
    {code : ℤ} (hxb : x ≠ b)
    (hrun : s.send b p src dst lifetime custody priority = some (t, code)) (hx : x ∈ s.mStore) :
    x ∈ t.mStore := by
  rcases send_eq_some.mp hrun with ⟨-, rfl, -⟩ | ⟨-, u, hu, hforward, -⟩
  · exact hx
  · exact ((forward_frame hforward).mem_iff hxb).mpr (mem_createBundle hu hx)

/-- Matching takes nothing out of the store but the bundle and those it is matched with. -/
theorem mem_coalesce {l : List Ptr} (hxb : x ≠ b) (hxl : x ∉ l) (hrun : s.coalesce b l = some t)
    (hx : x ∈ s.mStore) : x ∈ t.mStore := by
  induction l generalizing s with
  | nil =>
    cases hrun
    exact hx
  | cons it l ih =>
    obtain ⟨u, hu, hrest⟩ := Option.bind_eq_some_iff.mp hrun
    have hxit : x ≠ it := fun heq => hxl (heq ▸ List.mem_cons_self)
    refine ih (fun hmem => hxl (List.mem_cons_of_mem it hmem)) hrest ?_
    obtain ⟨itAdu, adu, -, -, hcase⟩ := coalesceWith_cases hu
    rcases hcase with ⟨-, -, joined, -, rfl⟩ | ⟨-, -, -, joined, -, rfl⟩ | ⟨-, -, rfl⟩
    · rw [mStore_absorbed]
      exact (List.mem_erase_of_ne hxb).mpr hx
    · rw [mStore_absorbed]
      exact (List.mem_erase_of_ne hxit).mpr hx
    · exact hx

/-- A signal takes the bundle that it completes out of the store, and no other. -/
theorem completes_of_processCustodySignal (hx : x ∈ s.mStore) (hgone : x ∉ t.mStore)
    (hrun : s.processCustodySignal cs = some t) :
    Acknowledges cs (s.header x) ∧ s.Completes x cs ∧ (s.heap x).adu ≠ none := by
  rcases processCustodySignal_eq_some.mp hrun with ⟨-, rfl⟩ | ⟨y, hy, ⟨-, rfl⟩ | ⟨hfull, -, hadu, rfl⟩⟩
  · exact absurd hx hgone
  · exact absurd hx hgone
  · obtain rfl : x = y := by
      by_contra hxy
      exact hgone ((List.mem_erase_of_ne hxy).mpr hx)
    exact ⟨acknowledges_of_signalled hy, hfull, hadu⟩

/-- How local delivery makes a bundle leave that is not held: the delivered bundle is a record for the
agent, with a signal that completes what is acknowledged of the other. -/
theorem releases_of_enqueue {state : Bool} (hxb : x ≠ b)
    (hplace : (s.header b).isFragment = true → ∀ x ∈ s.mStore, Named (s.header b) (s.header x) →
      (s.heap x).Held)
    (hx : x ∈ s.mStore) (hsent : ¬(s.heap x).Held) (hgone : x ∉ t.mStore)
    (hrun : s.enqueueIfActive b state = some t) :
    s.isForAgent b = true ∧ ∃ adu ar rest cs rest', (s.heap b).adu = some adu ∧
      AdminRecord.removeFrom adu.bytes = some (ar, rest) ∧
      CustodySignal.removeFrom rest = some (cs, rest') ∧ Acknowledges cs (s.header x) ∧
      s.Completes x cs ∧ (s.heap x).adu ≠ none := by
  cases state with
  | false =>
    cases hrun
    exact absurd hx hgone
  | true =>
    rcases enqueue_eq_some hrun with ⟨hagent, hadmin⟩ | ⟨-, hmatch⟩
    · obtain ⟨w, v, rfl, hcase⟩ := adminRecord_cases hadmin
      have hxv : x ∉ v.mStore := fun hmem => hgone ((List.mem_erase_of_ne hxb).mpr hmem)
      rcases hcase with rfl | ⟨adu, ar, rest, cs, rest', hadu, har, hcs, hsignal⟩
      · exact absurd hx hxv
      · have hcut : ((s.logged b).withAdu b w).heap x = s.heap x := heap_modify_of_ne _ hxb _
        obtain ⟨hack, hfull, hadu'⟩ :=
          completes_of_processCustodySignal (s := (s.logged b).withAdu b w) hx hxv hsignal
        rw [BundleStore.header_congr hcut] at hack
        rw [Completes, BundleStore.header_congr hcut, hcut] at hfull
        rw [hcut] at hadu'
        exact ⟨hagent, adu, ar, rest, cs, rest', hadu, har, hcs, hack, hfull, hadu'⟩
    · -- what is matched is held
      unfold BpAgent6.matchFragments at hmatch
      split at hmatch
      · rename_i hfragment
        have hxl : x ∉ (s.logged b).getBundles (s.header b).getSourceEid
            (s.header b).createTimestamp (s.header b).timestampSeqNum := fun hmem =>
          hsent (hplace hfragment x hx (BundleStore.mem_getBundles.mp hmem).2)
        exact absurd (mem_coalesce (s := s.logged b) hxb hxl hmatch hx) hgone
      · cases hmatch
        exact absurd hx hgone

/-- **How an arrival makes a sent bundle leave.** -/
theorem releases_of_processBundle {r : ℕ × ℕ} (hlength : h.aduLength = p.getSize)
    (hrx : PieceOf h p rx.header rx.payloadHeader rx.adu r) (hb : s.Fresh b) (hq : s.Fresh q)
    (hplace : s.FragmentsInPlace rx) (hx : x ∈ s.mStore) (hsent : ¬(s.heap x).Held)
    (hgone : x ∉ t.mStore) (hrun : s.processBundle b q rx = some t) :
    (rx.header.getDestinationEid == s.config.eid) = true ∧ ∃ ar rest cs rest',
      AdminRecord.removeFrom rx.adu.bytes = some (ar, rest) ∧
      CustodySignal.removeFrom rest = some (cs, rest') ∧ Acknowledges cs (s.header x) ∧
      s.Completes x cs ∧ (s.heap x).adu ≠ none := by
  obtain ⟨u, hu, hcase⟩ := processBundle_eq_some.mp hrun
  have hxb : x ≠ b := fun heq => hb.1 (heq ▸ hx)
  have hxq : x ≠ q := fun heq => hq.1 (heq ▸ hx)
  have hheap := heap_acceptBundle_of_ne hu hxb
  have hxu : x ∈ u.mStore := by
    rcases acceptBundle_eq_some.mp hu with ⟨-, rfl⟩ | ⟨-, -, rfl⟩
    · exact hx
    · exact BundleStore.mem_stored.mpr (Or.inr hx)
  rcases hcase with ⟨-, hdeliver⟩ | ⟨-, hforward⟩
  · rcases deliver_eq_some.mp hdeliver with ⟨-, rfl⟩ | ⟨state, v, -, hv, hcase⟩
    · exact absurd hxu hgone
    have hxv : x ∉ v.mStore := by
      rcases hcase with ⟨-, rfl⟩ | ⟨-, hsignal⟩
      · exact hgone
      · obtain ⟨cs, packet, code, -, hsend⟩ := sendCustodySignal_eq_some.mp hsignal
        exact fun hxv => hgone (mem_send hxq hsend hxv)
    obtain ⟨hagent, adu, ar, rest, cs, rest', hadu, har, hcs, hack, hfull, hadu'⟩ :=
      releases_of_enqueue hxb (hplace.acceptBundle hu (holds_acceptBundle hlength hrx hu).2.1) hxu
        (by rwa [hheap]) hxv hv
    cases (adu_acceptBundle hu).symm.trans hadu
    rw [isForAgent, header_acceptBundle hu, (rest_acceptBundle hu).1] at hagent
    rw [BundleStore.header_congr hheap] at hack
    rw [Completes, BundleStore.header_congr hheap, hheap] at hfull
    rw [hheap] at hadu'
    exact ⟨hagent, ar, rest, cs, rest', har, hcs, hack, hfull, hadu'⟩
  · exact absurd (((forward_frame hforward).mem_iff hxb).mpr hxu) hgone

/-! ## The network -/

/-- What arrives is a piece of a created bundle. -/
theorem piece_of_arrive {Node : Type*} {guard : Node → BpAgent6 → NodeOp → Prop}
    {n' : Node → BpAgent6} {O : BpHeader6 → Packet → Prop} {i : Node} {d : Datagram}
    (hall : ∀ j, Intact O (n' j)) (hO : ∀ h p, O h p → h.cbhe = false)
    (hpermits : (network guard).Permits n' (i, .arrive d))
    (hrx : dataRecv false d.packet.bytes = some rx) :
    ∃ h p r, O h p ∧ PieceOf h p rx.header rx.payloadHeader rx.adu r := by
  obtain ⟨j, hsentBy⟩ := hpermits.2 _ rfl
  obtain ⟨tx, h, p, r, horigin, htx, hfit, hcarries⟩ := (hall j).carriesPiece hsentBy
  exact ⟨h, p, r, horigin, PieceOf.received htx (hO h p horigin) hfit hcarries hrx⟩

section Network
variable {Node : Type*} [DecidableEq Node] {guard : Node → BpAgent6 → NodeOp → Prop}
  {n n' : Node → BpAgent6} {ops : List (Node × NodeOp)}

/-- In the run a piece of the ADU with its byte `k` has arrived at a node that is its destination. -/
def Delivered (guard : Node → BpAgent6 → NodeOp → Prop) (n : Node → BpAgent6)
    (ops : List (Node × NodeOp)) (h : BpHeader6) (p : Packet) (k : ℕ) : Prop :=
  ∃ j s d rx, (network guard).Occurs n ops j s (.arrive d) ∧
    dataRecv false d.packet.bytes = some rx ∧ CopyOf h rx.header ∧
    s.isNodeMember rx.header.getDestinationEid = true ∧
    rx.header.fragOffset.toNat ≤ k ∧ k < rx.header.fragOffset.toNat + rx.adu.size ∧
    rx.adu = p.piece rx.header.fragOffset.toNat rx.adu.size

/-- A bundle that was created in the run and, if it is for an agent, reports what is so. -/
def Honest (guard : Node → BpAgent6 → NodeOp → Prop) (n : Node → BpAgent6)
    (ops : List (Node × NodeOp)) (admin : List UInt8 → Prop) (h : BpHeader6) (p : Packet) : Prop :=
  Origin guard n ops h p ∧ (admin h.getDestinationEid.uri →
    Reports (Origin guard n ops) (Delivered guard n ops) p)

/-- What is known of an arrival in a run. -/
theorem expected_of_arrive {admin : List UInt8 → Prop} {i : Node} {d : Datagram} {r : ℕ × ℕ}
    (hoccurs : (network guard).Occurs n ops i s (.arrive d)) (hplace : s.InPlace (.arrive d))
    (hadmin : s.Administers admin (.arrive d)) (horigin : Honest guard n ops admin h p)
    (hpiece : PieceOf h p rx.header rx.payloadHeader rx.adu r)
    (hrx : dataRecv false d.packet.bytes = some rx) :
    Expected (Honest guard n ops admin) (Origin guard n ops) (Delivered guard n ops) s rx h p r where
  origin := horigin
  piece := hpiece
  place := hplace rx hrx
  arrived hfragment k hlo hhi := by
    have hsize : rx.adu.size = r.2 := by
      rw [hpiece.payload, Packet.size_piece hpiece.le]
    refine ⟨i, s, d, rx, hoccurs, hrx, hpiece.header, (hplace rx hrx hfragment).1, ?_, ?_, ?_⟩
    · rwa [hpiece.fragOffset]
    · rwa [hpiece.fragOffset, hsize]
    · rw [hpiece.fragOffset, hsize]
      exact hpiece.payload
  record hagent := by
    have huri := BpEndpointId.beq_iff.mp hagent
    have hdst : admin rx.header.getDestinationEid.uri := huri ▸ hadmin.1
    refine ⟨hadmin.2 rx hrx hdst, horigin.2 ?_⟩
    rwa [← hpiece.header.shown.destination]

/-- **Who creates a bundle for an agent is an agent**, and what it reports is so. -/
theorem honest_of_creates {admin : List UInt8 → Prop} {i : Node} {op : NodeOp}
    (hs : Credited (Origin guard n ops) (Delivered guard n ops) s)
    (hintact : Intact (Honest guard n ops admin) s) (hG : Identified (Origin guard n ops))
    (hallowed : op.Allowed s) (hoccurs : (network guard).Occurs n ops i s op)
    (hplace : s.InPlace op) (hadmin : s.Administers admin op)
    (htakes : ∀ packet, op.Takes packet → CarriesPiece (Honest guard n ops admin) packet)
    (hcreates : Creates s op h p) : Honest guard n ops admin h p := by
  refine ⟨⟨i, s, op, hoccurs, hcreates⟩, fun hdst => ?_⟩
  cases hcreates with
  | send hsrc hnew => exact absurd hdst (hadmin _ (newHeader_destination hnew).2)
  | @custodySignal d rx u v state cs p h hrx haccept hfind henqueue hcust hpacket hsrc hnew =>
    obtain ⟨tx, g, q, r, horigin, htx, hfit, hcarries⟩ := htakes _ rfl
    have hcbhe : g.cbhe = false := horigin.1.cbhe
    have hexpected := expected_of_arrive hoccurs hplace hadmin horigin
      (PieceOf.received htx hcbhe hfit hcarries hrx) hrx
    obtain ⟨-, hpiece, hcopy⟩ := hexpected.enqueued hs hG (fun _ _ h => h.1) hintact hallowed.1
      haccept henqueue
    exact reports_custodySignalPacket hpacket
      (truthful_custodySignalPacket hG horigin.1 hcopy hpiece hpacket)

/-- What holds at every node of a network in which agents administer. -/
theorem credited_of_run {admin : List UInt8 → Prop}
    (hinit : ∀ i, (n i).Pristine ∧ (n i).config.bundleSize.toNat < 2 ^ 28)
    (hguard : ∀ i s op, guard i s op → s.InPlace op ∧ s.Administers admin op)
    (hG : Identified (Origin guard n ops)) (hrun : (network guard).Run n ops n') (i : Node) :
    Intact (Honest guard n ops admin) (n' i) ∧ (n' i).AllDispatched ∧
      Credited (Origin guard n ops) (Delivered guard n ops) (n' i) := by
  refine (network guard).invariant (fun _ s => Intact (Honest guard n ops admin) s ∧
    s.AllDispatched ∧ Credited (Origin guard n ops) (Delivered guard n ops) s)
    (CarriesPiece (Honest guard n ops admin)) (fun _ _ _ hs => hs.1.carriesPiece) ?_ hrun
    (fun i => ?_) i
  · rintro i s op t ⟨hs, hdispatched, hcredited⟩ ⟨hallowed, hg⟩ htakes hoccurs hstep
    obtain ⟨hplace, hadmin⟩ := hguard i s op hg
    obtain ⟨hintact, hdispatched'⟩ := hs.step hdispatched (hG.mono fun _ _ h => h.1) hallowed hplace
      htakes (fun h p horigin => horigin.1.cbhe) (fun hdr p hcreates => honest_of_creates hcredited hs
        hG hallowed hoccurs hplace hadmin htakes hcreates) hstep
    refine ⟨hintact, hdispatched', ?_⟩
    cases op with
    | act o => exact hcredited.act hallowed.2 hallowed.1 hstep
    | arrive d =>
      obtain ⟨rx, hrx, hrun⟩ := Option.bind_eq_some_iff.mp hstep
      obtain ⟨tx, g, q, r, horigin, htx, hfit, hcarries⟩ := htakes _ rfl
      have hexpected := expected_of_arrive hoccurs hplace hadmin horigin
        (PieceOf.received htx horigin.1.cbhe hfit hcarries hrx) hrx
      exact hcredited.processBundle hexpected hG (fun _ _ h => h.1) hs hallowed.1 hallowed.2.1
        hallowed.2.2 hrun
  · obtain ⟨hintact, hdispatched⟩ := (hinit i).1.intact (hinit i).2
    refine ⟨hintact, hdispatched, fun x hx => ?_, fun x hx => ?_⟩
    · rw [(hinit i).1.mStore] at hx
      cases hx
    · rw [(hinit i).1.mStore] at hx
      cases hx

/-- **Custody is released only for what has been delivered**: whatever the medium does with bundles and
signals, a bundle that has been sent leaves the store of its node on an arrival only if each byte of
its ADU has arrived before at a node that is its destination. -/
theorem delivered_of_release {own : Node → BpEndpointId → Prop} {admin : List UInt8 → Prop} {i : Node}
    {d : Datagram} (hinit : ∀ i, (n i).Pristine ∧ (n i).config.bundleSize.toNat < 2 ^ 28)
    (hguard : ∀ i s op, guard i s op → s.InPlace op ∧ s.SendsAs (own i) op ∧ s.Administers admin op)
    (hseparate : Separate own) (hcount : ∀ i, ops.countP (fun e => e.1 = i) ≤ 2 ^ 32)
    (hrun : (network guard).Run n ops n')
    (hpermits : (network guard).Permits n' (i, .arrive d))
    (hstep : (NodeOp.arrive d).step (n' i) = some t)
    (hx : x ∈ (n' i).mStore) (hsent : ¬((n' i).heap x).Held) (hgone : x ∉ t.mStore) :
    ∃ h p, Origin guard n ops h p ∧ CopyOf h ((n' i).header x) ∧ ((n' i).heap x).adu = some p ∧
      ∀ k < p.size, Delivered guard n ops h p k := by
  have hG := identified_of_run (fun i s op hg => (hguard i s op hg).2.1) hseparate hcount hrun
  have hall := credited_of_run hinit (fun i s op hg => ⟨(hguard i s op hg).1, (hguard i s op hg).2.2⟩)
    hG hrun
  obtain ⟨hintact, -, hcredited⟩ := hall i
  obtain ⟨rx, hrx, hstep⟩ := Option.bind_eq_some_iff.mp hstep
  -- the packet is a piece of an honest bundle
  obtain ⟨g, q, r, horigin, hpiece⟩ :=
    piece_of_arrive (fun j => (hall j).1) (fun h p horigin => horigin.1.cbhe) hpermits hrx
  obtain ⟨⟨hallowed, hg⟩, -⟩ := hpermits
  obtain ⟨hplace, -, hadmin⟩ := hguard i _ _ hg
  obtain ⟨hagent, ar, rest, cs, rest', har, hcs, hack, hfull, hadu⟩ :=
    releases_of_processBundle (hG.aduLength g q horigin.1) hpiece hallowed.1 hallowed.2.1
      (hplace rx hrx) hx hsent hgone hstep
  have huri := BpEndpointId.beq_iff.mp hagent
  have hdst : admin rx.header.getDestinationEid.uri := huri ▸ hadmin.1
  have hwhole : rx.adu = q := by
    have hsize := hpiece.whole (hadmin.2 rx hrx hdst)
    have hle := hpiece.le
    rw [hpiece.payload, show r.1 = 0 by omega, hsize, Packet.piece_size]
  have htrue : Truthful (Origin guard n ops) (Delivered guard n ops) cs := by
    refine horigin.2 ?_ ar rest cs rest' (hwhole ▸ har) hcs
    rwa [← hpiece.header.shown.destination]
  -- what is acknowledged of the bundle has arrived
  obtain ⟨h, p, horigin', hholds⟩ := hintact.objects x (Or.inl hx)
  have hvouched := vouched_of_acknowledges hcredited htrue hx hack horigin'.1 hholds.header
  have hlength : ((n' i).header x).aduLength.toNat = p.size := by
    have haduLength : ((n' i).header x).aduLength = p.getSize :=
      hholds.header.shown.aduLength.trans (hG.aduLength h p horigin'.1)
    rw [haduLength, Packet.toNat_getSize]
  refine ⟨h, p, horigin'.1, hholds.header, (hholds.whole hsent).adu.resolve_left hadu, ?_⟩
  rw [← hlength]
  exact vouched_of_fullyAcked hvouched hfull

end Network

end BpAgent6
end BundleProtocol
