import BundleProtocol.Provenance
import BundleProtocol.Soundness

/-! # Bundles are told apart

A bundle is named by its source, its creation time and its sequence number.  An agent counts the
bundles it creates modulo 2³², and each node sends under endpoint ids of its own, so in a run in which no
node does more than 2³² things no two bundles created have one name.  What a header shows as
its source is a function of the source alone (`sourceUri`), and for a URI of the usual form the
URI itself; `dtn:none`, which `Send` accepts at every node, is nobody's own.
-/
namespace BundleProtocol
open Interleaving BpEndpointId BpHeader6

/-! ## The source that a header shows -/

/-- The source of the usual form is read back. -/
theorem MadeOf.sourceUri {eid : BpEndpointId} {scheme ssp : List UInt8} (h : MadeOf eid scheme ssp) :
    sourceUri eid = some eid.uri := by
  obtain ⟨hscheme, hssp⟩ := h.parts
  have hplain := h.plain
  have hdefault : defaultDictionary.length = 36 := by decide
  have hlength := hplain.scheme_le
  have hfirst : (defaultDictionary ++ dictionaryEntry scheme ssp).drop 36 =
      scheme ++ 0 :: (ssp ++ [0]) := by
    rw [← hdefault, List.drop_left]
    simp [dictionaryEntry]
  have hsecond : (defaultDictionary ++ dictionaryEntry scheme ssp).drop (36 + scheme.length + 1) =
      ssp ++ 0 :: [] := by
    rw [← hdefault, Nat.add_assoc, ← List.drop_drop, List.drop_left]
    simp [dictionaryEntry, List.drop_append]
  unfold BundleProtocol.sourceUri
  rw [hscheme, hssp]
  simp only [Option.bind_eq_bind, Option.bind_some]
  rw [hdefault, Nat.mod_eq_of_lt (by omega), Nat.mod_eq_of_lt (by omega), uriAt, hfirst, hsecond,
    cStr_append_nul hplain.nul_scheme, cStr_append_nul hplain.nul_ssp, h.uri_eq]

namespace BpAgent6
variable {s t u v : BpAgent6} {b q x : Ptr} {p p' : Packet} {own src dst : BpEndpointId} {size : ℕ}
  {lifetime now : Time} {priority seq : UInt32} {custody : Bool} {hdr h h' : BpHeader6} {op : NodeOp}

/-! ## Sequence numbers -/

theorem seq_acceptBundle {rx : ReceivedBundle} (hrun : s.acceptBundle b rx = some t) :
    t.seq = s.seq := (rest_acceptBundle hrun).2.1

theorem seq_createBundle (hrun : s.createBundle b p src dst lifetime custody priority = some t) :
    t.seq = s.seq + 1 := by
  obtain ⟨hdr, -, ⟨-, rfl⟩ | ⟨-, -, rfl⟩⟩ := createBundle_eq_some.mp hrun
  · rfl
  · rfl

/-- `Send` takes a sequence number unless it refuses the source. -/
theorem seq_send {code : ℤ} (hrun : s.send b p src dst lifetime custody priority = some (t, code)) :
    (s.Refused src ∧ t.seq = s.seq) ∨ (¬s.Refused src ∧ t.seq = s.seq + 1) := by
  rcases send_eq_some.mp hrun with ⟨hrefused, rfl, -⟩ | ⟨hsrc, u, hu, hforward, -⟩
  · exact Or.inl ⟨hrefused, rfl⟩
  · exact Or.inr ⟨hsrc, (forward_frame hforward).seq.trans (seq_createBundle hu)⟩

theorem seq_forwardAll {l : List Ptr} (hrun : s.forwardAll l = some t) : t.seq = s.seq := by
  induction l generalizing s with
  | nil =>
    cases hrun
    rfl
  | cons b l ih =>
    obtain ⟨u, hu, hrun⟩ := Option.bind_eq_some_iff.mp hrun
    exact (ih hrun).trans (forward_frame hu).seq

/-- An arrival takes a sequence number for the custody signal that it causes, if any. -/
theorem seq_processBundle {rx : ReceivedBundle} (hrun : s.processBundle b q rx = some t) :
    t.seq = s.seq ∨ t.seq = s.seq + 1 := by
  obtain ⟨u, hu, hcase⟩ := processBundle_eq_some.mp hrun
  rcases hcase with ⟨-, hdeliver⟩ | ⟨-, hforward⟩
  · rcases deliver_eq_some.mp hdeliver with ⟨-, rfl⟩ | ⟨state, v, -, hv, hcase⟩
    · exact Or.inl (seq_acceptBundle hu)
    · have hseq : v.seq = s.seq :=
        ((deliveryClosed_frame u).enqueueIfActive (.refl u) hv).seq.trans (seq_acceptBundle hu)
      rcases hcase with ⟨-, rfl⟩ | ⟨-, hsignal⟩
      · exact Or.inl hseq
      · obtain ⟨cs, packet, code, -, hsend⟩ := sendCustodySignal_eq_some.mp hsignal
        rw [← hseq]
        exact (seq_send hsend).imp And.right And.right
  · exact Or.inl ((forward_frame hforward).seq.trans (seq_acceptBundle hu))

/-- **The sequence number counts**: an operation raises it by one or not at all. -/
theorem seq_step (hstep : op.step s = some t) : t.seq = s.seq ∨ t.seq = s.seq + 1 := by
  cases op with
  | arrive d =>
    obtain ⟨rx, -, hrun⟩ := Option.bind_eq_some_iff.mp hstep
    exact seq_processBundle hrun
  | act o =>
    cases o with
    | send b p src dst lifetime custody priority =>
      obtain ⟨⟨u, code⟩, hu, rfl⟩ := Option.map_eq_some_iff.mp hstep
      exact (seq_send hu).imp And.right And.right
    | processBundle b q rx => exact seq_processBundle hstep
    | claReady cla => exact Or.inl (seq_forwardAll hstep)
    | receive eid =>
      obtain ⟨⟨u, p⟩, hu, rfl⟩ := Option.map_eq_some_iff.mp hstep
      rcases receive_eq_some.mp hu with ⟨-, rfl, -⟩ | ⟨b, adu, -, -, -, -, rfl⟩
      · exact Or.inl rfl
      · exact Or.inl rfl
    | fire e =>
      have hrun : (s.popEvent e).runCallback e.call = some t := hstep
      cases hcall : e.call with
      | expire b =>
        rw [hcall] at hrun
        obtain ⟨-, -, rfl⟩ := expire_eq_some.mp hrun
        exact Or.inl rfl
      | forward b =>
        rw [hcall] at hrun
        exact Or.inl (forward_frame hrun).seq
    | advance now =>
      cases hstep
      exact Or.inl rfl
    | configure config =>
      cases hstep
      exact Or.inl rfl

/-! ## What is created -/

/-- The signal about an arrival is sent. -/
theorem sends_signal {rx : ReceivedBundle} {state : Bool} {cs : CustodySignal}
    (haccept : s.acceptBundle b rx = some u)
    (hfind : u.findRegistration (u.header b).getDestinationEid = some state)
    (henqueue : u.enqueueIfActive b state = some v) (hcust : (v.header b).custTxReq = true)
    (hpacket : v.custodySignalPacket b = some (cs, p)) (hrun : s.processBundle b q rx = some t) :
    ∃ code, (v.signalLogged b cs).send q p v.config.eid (v.header b).getCustEid
      (v.header b).lifeTime false 0 = some (t, code) := by
  obtain ⟨u', hu', hcase⟩ := processBundle_eq_some.mp hrun
  cases haccept.symm.trans hu'
  rcases hcase with ⟨-, hdeliver⟩ | ⟨hother, -⟩
  · rcases deliver_eq_some.mp hdeliver with ⟨hnone, -⟩ | ⟨state', v', hfind', hv', hcase⟩
    · rw [hfind] at hnone
      cases hnone
    · cases hfind.symm.trans hfind'
      cases henqueue.symm.trans hv'
      rcases hcase with ⟨hno, -⟩ | ⟨-, hsignal⟩
      · rw [hcust] at hno
        cases hno
      · obtain ⟨cs', p', code, hpacket', hsend⟩ := sendCustodySignal_eq_some.mp hsignal
        cases hpacket.symm.trans hpacket'
        exact ⟨code, hsend⟩
  · rw [isNodeMember_of_find hfind] at hother
    cases hother

/-- A bundle that is created shows the agent's next sequence number, which is used up. -/
theorem Creates.timestampSeqNum (hcreates : Creates s op h p) (hstep : op.step s = some t) :
    h.timestampSeqNum = s.seq ∧ t.seq = s.seq + 1 := by
  cases hcreates with
  | send hsrc hnew =>
    obtain ⟨⟨u, code⟩, hu, rfl⟩ := Option.map_eq_some_iff.mp hstep
    refine ⟨(BpAgent6.newHeader_spec hnew).timestampSeqNum, ?_⟩
    exact ((seq_send hu).resolve_left fun hrefused => hsrc hrefused.1).2
  | custodySignal hrx haccept hfind henqueue hcust hpacket hsrc hnew =>
    have hseq := ((deliveryClosed_frame _).enqueueIfActive (.refl _) henqueue).seq.trans
      (seq_acceptBundle haccept)
    refine ⟨(BpAgent6.newHeader_spec hnew).timestampSeqNum.trans hseq, ?_⟩
    obtain ⟨rx', hrx', hrun⟩ := Option.bind_eq_some_iff.mp hstep
    cases hrx.symm.trans hrx'
    obtain ⟨code, hsend⟩ := sends_signal haccept hfind henqueue hcust hpacket hrun
    rw [← hseq]
    exact ((seq_send hsend).resolve_left fun hrefused => hsrc hrefused.1).2

/-- One operation creates one bundle. -/
theorem Creates.unique (hcreates : Creates s op h p) (hcreates' : Creates s op h' p') :
    h = h' ∧ p = p' := by
  cases hcreates with
  | send _ hnew => cases hcreates' with
    | send _ hnew' =>
      cases hnew.symm.trans hnew'
      exact ⟨rfl, rfl⟩
  | custodySignal hrx haccept hfind henqueue _ hpacket _ hnew => cases hcreates' with
    | custodySignal hrx' haccept' hfind' henqueue' _ hpacket' _ hnew' =>
      cases hrx.symm.trans hrx'
      cases haccept.symm.trans haccept'
      cases hfind.symm.trans hfind'
      cases henqueue.symm.trans henqueue'
      cases hpacket.symm.trans hpacket'
      cases hnew.symm.trans hnew'
      exact ⟨rfl, rfl⟩

/-- Bundles are sent under endpoint ids of the node's own. -/
def SendsAs (own : BpEndpointId → Prop) (s : BpAgent6) : NodeOp → Prop
  | .act (.send _ _ src _ _ _ _) => own src
  | .arrive _ => own s.config.eid
  | _ => True

/-- The endpoint ids of `admin` are those of agents: an agent has one of them, applications send to
none of them, and what arrives for them is not a fragment. -/
def Administers (admin : List UInt8 → Prop) (s : BpAgent6) : NodeOp → Prop
  | .act (.send _ _ src dst _ _ _) => ∀ uri, dictionaryUri src dst = some uri → ¬admin uri
  | .arrive d => admin s.config.eid.uri ∧ ∀ rx, dataRecv false d.packet.bytes = some rx →
      admin rx.header.getDestinationEid.uri → rx.header.isFragment = false
  | _ => True

theorem Creates.source {own : BpEndpointId → Prop} (hcreates : Creates s op h p)
    (hown : s.SendsAs own op) : ∃ src, own src ∧ sourceUri src = some h.getSourceEid.uri := by
  cases hcreates with
  | send hsrc hnew => exact ⟨_, hown, newHeader_source hnew⟩
  | @custodySignal d rx u v state cs p h hrx haccept hfind henqueue hcust hpacket hsrc hnew =>
    have hconfig : v.config = s.config :=
      ((deliveryClosed_frame u).enqueueIfActive (.refl u) henqueue).config.trans
        (rest_acceptBundle haccept).1
    refine ⟨s.config.eid, hown, ?_⟩
    rw [← hconfig]
    exact newHeader_source hnew

/-! ## The network -/

/-- The bundles created differ in source, creation time or sequence number, and their headers say
how long their ADUs are. -/
structure Identified (O : BpHeader6 → Packet → Prop) : Prop where
  distinct : ∀ h p h' p', O h p → O h' p' → Named h h' → h = h' ∧ p = p'
  aduLength : ∀ h p, O h p → h.aduLength = p.getSize

theorem Identified.mono {O G : BpHeader6 → Packet → Prop} (h : Identified G)
    (hO : ∀ h p, O h p → G h p) : Identified O where
  distinct g p g' p' horigin horigin' := h.distinct g p g' p' (hO g p horigin) (hO g' p' horigin')
  aduLength g p horigin := h.aduLength g p (hO g p horigin)

/-- No two nodes have endpoint ids that headers show alike. -/
def Separate {Node : Type*} (own : Node → BpEndpointId → Prop) : Prop :=
  ∀ i j src src' uri, own i src → own j src' → sourceUri src = some uri →
    sourceUri src' = some uri → i = j

theorem counter_seq {Node : Type*} {guard : Node → BpAgent6 → NodeOp → Prop} :
    (network guard).Counter (2 ^ 32) fun s => s.seq.toNat := by
  intro i s op t _ hstep
  dsimp only
  rcases seq_step hstep with hsame | hraise
  · rw [hsame]
    exact Or.inl rfl
  · rw [hraise, UInt32.toNat_add]
    exact Or.inr (Nat.mod_modEq _ _)

section Network
variable {Node : Type*} [DecidableEq Node] {guard : Node → BpAgent6 → NodeOp → Prop}
  {n n' : Node → BpAgent6} {ops : List (Node × NodeOp)} {own : Node → BpEndpointId → Prop}

/-- **Bundles are told apart**: where nodes send as themselves, and none does more than 2³² things,
no two bundles created in a run have the same name. -/
theorem identified_of_run (hown : ∀ i s op, guard i s op → s.SendsAs (own i) op)
    (hseparate : Separate own) (hcount : ∀ i, ops.countP (fun e => e.1 = i) ≤ 2 ^ 32)
    (hrun : (network guard).Run n ops n') : Identified (Origin guard n ops) where
  distinct h p h' p' := by
    rintro ⟨i, s, op, hoccurs, hcreates⟩ ⟨j, s', op', hoccurs', hcreates'⟩ ⟨hsrc, -, hseq⟩
    obtain ⟨hguard, t, ht⟩ := hoccurs.permitted hrun
    obtain ⟨hguard', t', ht'⟩ := hoccurs'.permitted hrun
    -- the source tells the node
    obtain ⟨src, hsrcOwn, hshown⟩ := hcreates.source (hown i s op hguard.2)
    obtain ⟨src', hsrcOwn', hshown'⟩ := hcreates'.source (hown j s' op' hguard'.2)
    rw [BpEndpointId.beq_iff.mp hsrc] at hshown'
    obtain rfl : i = j := hseparate i j src src' _ hsrcOwn hsrcOwn' hshown hshown'
    -- and the sequence number the operation
    have hraised : ∀ {s op h p}, Creates s op h p → ∀ t, op.step s = some t →
        t.seq.toNat ≡ s.seq.toNat + 1 [MOD 2 ^ 32] := by
      intro s op h p hcreates t hstep
      rw [(hcreates.timestampSeqNum hstep).2, UInt32.toNat_add]
      exact Nat.mod_modEq _ _
    have hsame : s.seq.toNat ≡ s'.seq.toNat [MOD 2 ^ 32] := by
      rw [← (hcreates.timestampSeqNum ht).1, ← (hcreates'.timestampSeqNum ht').1, hseq]
    obtain ⟨rfl, rfl⟩ := counter_seq.distinct hrun (hcount i) hoccurs hoccurs' (hraised hcreates)
      (hraised hcreates') hsame
    exact hcreates.unique hcreates'
  aduLength h p := by
    rintro ⟨i, s, op, -, hcreates⟩
    obtain ⟨lifetime, custody, now, seq, hspec⟩ := hcreates.newHeader_spec
    exact hspec.aduLength

/-- `Named` reads nothing that differs between copies. -/
theorem named_of_copies {h' g g' : BpHeader6} (hg : CopyOf h g) (hg' : CopyOf h' g')
    (hnamed : Named g g') : Named h h' := by
  obtain ⟨hsrc, hts, hseq⟩ := hnamed
  rw [BpEndpointId.beq_iff, hg'.shown.source, hg.shown.source] at hsrc
  rw [hg'.shown.createTimestamp, hg.shown.createTimestamp] at hts
  rw [hg'.shown.timestampSeqNum, hg.shown.timestampSeqNum] at hseq
  exact ⟨BpEndpointId.beq_iff.mpr hsrc, hts, hseq⟩

/-- The header stands in a bundle that is stored or has been handed over. -/
def Shows (s : BpAgent6) (g : BpHeader6) : Prop :=
  (∃ x ∈ s.mStore, s.header x = g) ∨ ∃ tx ∈ s.handed, tx.header = g

/-- **One name, one bundle**: in a run where nodes send as themselves and none does more than 2³²
things, any two headers in the network that agree in source, creation time and sequence number,
at whatever nodes, are copies of the header of one bundle that was created. -/
theorem one_bundle_per_name {i j : Node} {g g' : BpHeader6} (hinit : ∀ i, (n i).Pristine)
    (hown : ∀ i s op, guard i s op → s.SendsAs (own i) op) (hseparate : Separate own)
    (hcount : ∀ i, ops.countP (fun e => e.1 = i) ≤ 2 ^ 32) (hrun : (network guard).Run n ops n')
    (hg : (n' i).Shows g) (hg' : (n' j).Shows g') (hnamed : Named g g') :
    ∃ h p, Origin guard n ops h p ∧ CopyOf h g ∧ CopyOf h g' := by
  have hO := identified_of_run hown hseparate hcount hrun
  have hcopied : ∀ {i g}, (n' i).Shows g → CopiedFrom (Origin guard n ops) g := by
    rintro i g (⟨x, hx, rfl⟩ | ⟨tx, htx, rfl⟩)
    · exact (traced_of_run hinit hrun i).header x (Or.inl hx)
    · exact (traced_of_run hinit hrun i).handed tx htx
  obtain ⟨h, p, horigin, hcopy⟩ := hcopied hg
  obtain ⟨h', p', horigin', hcopy'⟩ := hcopied hg'
  obtain ⟨rfl, rfl⟩ :=
    hO.distinct h p h' p' horigin horigin' (named_of_copies hcopy hcopy' hnamed)
  exact ⟨h, p, horigin, hcopy, hcopy'⟩

end Network

end BpAgent6

namespace Sample
open BpAgent6

/-- Each of the pair sends under its own endpoint id. -/
def owns (i : Bool) (src : BpEndpointId) : Prop := src = (pair i).config.eid

deriving instance DecidableEq for Component, BpEndpointId

instance (i : Bool) (src : BpEndpointId) : Decidable (owns i src) := inferInstanceAs (Decidable (_ = _))

instance (i : Bool) (s : BpAgent6) : (op : NodeOp) → Decidable (s.SendsAs (owns i) op)
  | .act (.send _ _ src _ _ _ _) => inferInstanceAs (Decidable (owns i src))
  | .act (.processBundle ..) => isTrue trivial
  | .act (.claReady _) => isTrue trivial
  | .act (.receive _) => isTrue trivial
  | .act (.fire _) => isTrue trivial
  | .act (.advance _) => isTrue trivial
  | .act (.configure _) => isTrue trivial
  | .arrive _ => inferInstanceAs (Decidable (owns i s.config.eid))

theorem separate_owns : Separate owns := by
  have hshown : ∀ i, sourceUri (pair i).config.eid = some (pair i).config.eid.uri := by decide
  rintro i j src src' uri rfl rfl hi hj
  rw [hshown] at hi hj
  have hinj : ∀ i j, (pair i).config.eid.uri = (pair j).config.eid.uri → i = j := by decide
  exact hinj i j (Option.some.inj (hi.trans hj.symm))

theorem countP_le {ops : List (Bool × NodeOp)} (h : ops.length ≤ 2 ^ 32) (i : Bool) :
    ops.countP (fun e => e.1 = i) ≤ 2 ^ 32 :=
  (List.countP_le_length (l := ops) (p := fun e => decide (e.1 = i))).trans h

end Sample

namespace BpAgent6

/-- Two bundles are sent in two pieces each, and a piece of each arrives.  What the peer stores of the
second and what was handed over of it are copies of one header. -/
theorem one_bundle_per_name_sample :
    let guard : Bool → BpAgent6 → NodeOp → Prop := fun i s op => s.SendsAs (Sample.owns i) op
    ∃ (n' : Bool → BpAgent6) (ops : List (Bool × NodeOp)) (x : Ptr) (tx : Transmission),
      (network guard).Run Sample.pair ops n' ∧ (n' true).mStore = [11, 12] ∧ x ∈ (n' true).mStore ∧
      (n' false).handed.length = 4 ∧ tx ∈ (n' false).handed ∧ tx.header.timestampSeqNum = 1 ∧
      ∃ h p, Origin guard Sample.pair ops h p ∧ CopyOf h ((n' true).header x) ∧
        CopyOf h tx.header := by
  intro guard
  obtain ⟨n', hreplay, htest⟩ := (Option.any_eq_true _ _).mp (by decide +kernel :
    (Sample.replay guard Sample.pair [.send false 1 Sample.twoBytes (Sample.eid 97) false,
      .send false 2 Sample.twoBytes (Sample.eid 97) false, .arrive true 11 0,
      .arrive true 12 3]).any (fun n' : Bool → BpAgent6 =>
      decide ((n' true).mStore = [11, 12] ∧ (n' false).handed.length = 4 ∧
        ∃ x ∈ (n' true).mStore, ∃ tx ∈ (n' false).handed, tx.header.timestampSeqNum = 1 ∧
          Named ((n' true).header x) tx.header)) = true)
  obtain ⟨hstore, hhanded, x, hx, tx, htx, hseq, hnamed⟩ := of_decide_eq_true htest
  obtain ⟨ops, hrun, hlength⟩ := Sample.run_of_replay hreplay
  exact ⟨n', ops, x, tx, hrun, hstore, hx, hhanded, htx, hseq, one_bundle_per_name
    (i := true) (j := false) (fun i => (Sample.pristine_pair i).1) (fun _ _ _ hguard => hguard)
    Sample.separate_owns (Sample.countP_le (hlength ▸ by decide)) hrun (Or.inl ⟨x, hx, rfl⟩)
    (Or.inr ⟨tx, htx, rfl⟩) hnamed⟩

end BpAgent6
end BundleProtocol
