import BundleProtocol.AgentRun
import BundleProtocol.Dictionary

/-! # What becomes of a bundle that `Send` accepts

`Send` stores the new bundle and forwards it, and returns 0 whatever these two do.  `Store` refuses a
bundle that has expired, which the creation time, truncated to whole seconds, can make of a new one;
`Forward` hands a bundle over only while a convergence layer is ready, piece by piece, so that of an empty
ADU it hands over nothing; and it removes what nobody has custody of.  Where none of these saves
the bundle, it is lost (`send_keeps_iff`).
-/
namespace BundleProtocol
open Tiling

/-- The bundle that is created now has expired: its creation timestamp, in whole seconds,
and its lifetime end before. -/
def Late (now lifetime : Time) : Prop :=
  lifetime ≠ 0 ∧ seconds (UInt32.ofNat (wholeSeconds now)).toNat + lifetime < now

instance (now lifetime : Time) : Decidable (Late now lifetime) :=
  inferInstanceAs (Decidable (_ ∧ _))

/-- The calls of `SendBundle` carry all of `p`, and there is one. -/
def Covered (txs : List Transmission) (p : Packet) : Prop :=
  txs ≠ [] ∧ (txs.map fun tx => tx.payload.bytes).flatten = p.bytes

namespace BpAgent6
variable {s t u : BpAgent6} {b : Ptr} {p : Packet} {src dst : BpEndpointId} {lifetime : Time}
  {custody : Bool} {priority : UInt32} {hdr : BpHeader6}

/-- A convergence layer is found, and ready, for the destination that a bundle from `src` to `dst`
shows. -/
def ReadyFor (s : BpAgent6) (src dst : BpEndpointId) : Prop :=
  ∃ uri cla, dictionaryUri src dst = some uri ∧ s.outgoingCla (.ofUri uri) = some cla ∧
    s.config.isReady cla = true

/-- Routes are found by the URI. -/
theorem outgoingCla_congr {eid eid' : BpEndpointId} (huri : eid.uri = eid'.uri) :
    s.outgoingCla eid = s.outgoingCla eid' := by
  have hbeq : ∀ x : BpEndpointId, (x == eid) = (x == eid') := by
    intro x
    show (x.uri == eid.uri) = (x.uri == eid'.uri)
    rw [huri]
  unfold outgoingCla BpStaticRoutingAgent.nextHopEid BpStaticRoutingAgent.firstUp
    BpStaticRoutingAgent.find
  simp only [hbeq]

/-- Where the destination can be read back, it is the destination that is looked up. -/
theorem readyFor_iff_of_readBack (h : ReadBack src dst) :
    s.ReadyFor src dst ↔ ∃ cla, s.outgoingCla dst = some cla ∧ s.config.isReady cla = true := by
  have hroute : s.outgoingCla (.ofUri dst.uri) = s.outgoingCla dst :=
    outgoingCla_congr (BpEndpointId.uri_ofUri _)
  constructor
  · rintro ⟨uri, cla, huri, hcla, hready⟩
    obtain rfl : dst.uri = uri := Option.some.inj (h.symm.trans huri)
    exact ⟨cla, hroute.symm.trans hcla, hready⟩
  · rintro ⟨cla, hcla, hready⟩
    exact ⟨dst.uri, cla, h, hroute.trans hcla, hready⟩

/-! ## The bundle in the store -/

/-- `Forward` looks for the same convergence layer. -/
theorem readyCla_ne_none_iff
    (hnew : newHeader s.config.eid p.size src dst lifetime custody priority s.sim.now s.seq = some hdr)
    (hconfig : u.config = s.config) (hheader : u.header b = hdr) :
    u.readyCla b ≠ none ↔ s.ReadyFor src dst := by
  obtain ⟨-, hshown⟩ := newHeader_destination hnew
  have hroute : u.outgoingCla hdr.getDestinationEid =
      s.outgoingCla (.ofUri hdr.getDestinationEid.uri) := by
    rw [outgoingCla_congr (BpEndpointId.uri_ofUri hdr.getDestinationEid.uri)]
    unfold outgoingCla
    rw [hconfig]
  unfold readyCla ReadyFor
  rw [Option.ne_none_iff_exists', hheader, hroute, hconfig, hshown]
  simp [Option.filter_eq_some_iff]

/-- `Store` takes the new bundle unless it has expired. -/
theorem mem_createBundle_iff (hb : b ∉ s.mStore)
    (hu : s.createBundle b p src dst lifetime custody priority = some u) :
    b ∈ u.mStore ↔ ¬Late s.sim.now lifetime := by
  obtain ⟨hdr, hnew, hcase⟩ := createBundle_eq_some.mp hu
  have hspec := newHeader_spec hnew
  have hself := s.header_created_self b hdr p custody
  have hlate : (s.created b hdr p custody).Expired b ↔ Late s.sim.now lifetime := by
    unfold BundleStore.Expired Late BundleStore.timeLeft
    rw [hself, hspec.lifeTime, hspec.createTimestamp]
    exact and_congr_right fun _ => sub_neg
  rcases hcase with ⟨hexpired, rfl⟩ | ⟨hlive, -, rfl⟩
  · exact iff_of_false hb (not_not_intro (hlate.mp hexpired))
  · exact iff_of_true (BundleStore.mem_stored.mpr (Or.inl rfl)) fun h => hlive (hlate.mpr h)

/-- The retention constraints that are left once a new bundle was sent. -/
theorem retentionConstraints_sent (cla : ClaId)
    (hu : s.createBundle b p src dst lifetime custody priority = some u)
    (hm : u.config.bundleSize ≠ 0 ∨ p.size = 0) :
    ((u.sent b cla p).heap b).retentionConstraints = 0 ↔ custody = false := by
  obtain ⟨hdr, id, -, hbundle⟩ := heap_createBundle hu
  rw [(u.sentBundle b cla hm).retentionConstraints, hbundle]
  show ((if custody then dispatchPending ||| custodyAccepted else dispatchPending) ||| forwardPending)
    &&& ~~~dispatchPending &&& ~~~forwardPending = 0 ↔ custody = false
  cases custody with
  | true => decide
  | false => decide

/-! ## The bundle on its way -/

/-- **Everything is handed over**: the payloads of the transmissions make up the ADU. -/
theorem flatten_pieces {cla : ClaId} (hm : u.config.bundleSize ≠ 0) :
    (((u.pieces p).map (u.transmission b cla dst (u.fragmenting p) p)).map
      fun tx => tx.payload.bytes).flatten = p.bytes := by
  have hflatten := (tiles_pieces p hm).flatten_slice p.bytes
  rw [Nat.sub_zero, Packet.size, slice_length] at hflatten
  rw [List.map_map]
  exact hflatten

/-- The transmissions of a new bundle cover its ADU unless that is empty. -/
theorem covered_sent_iff {cla : ClaId} (hm : u.config.bundleSize ≠ 0) :
    Covered ((u.pieces p).map (u.transmission b cla dst (u.fragmenting p) p)) p ↔ 0 < p.size := by
  have hnil := (tiles_pieces p hm).eq_nil_iff
  unfold Covered
  rw [and_iff_left (flatten_pieces hm), ne_eq, List.map_eq_nil_iff, hnil]
  omega

/-- **What becomes of a bundle that `Send` accepts.**  It is stored, or handed over completely, exactly
when a convergence layer is ready and there is something to hand over, or when it has not
expired and either no convergence layer is ready or custody keeps it. -/
theorem send_keeps_iff (hb : b ∉ s.mStore) (hm : s.config.bundleSize ≠ 0)
    (hsend : s.send b p src dst lifetime custody priority = some (t, 0)) :
    (b ∈ t.mStore ∨ ∃ txs, t.handed = s.handed ++ txs ∧ Covered txs p) ↔
      (s.ReadyFor src dst ∧ 0 < p.size) ∨
        (¬Late s.sim.now lifetime ∧ (¬s.ReadyFor src dst ∨ custody = true)) := by
  rcases send_eq_some.mp hsend with ⟨-, -, hcode⟩ | ⟨-, u, hu, hforward, -⟩
  · exact absurd hcode (by decide)
  obtain ⟨hdr, id, hnew, hself⟩ := heap_createBundle hu
  have hheader : u.header b = hdr := congrArg Bundle6.primaryHeader hself
  obtain ⟨hconfig, hlog, -⟩ := rest_createBundle hu
  have hmem := mem_createBundle_iff hb hu
  have hready := readyCla_ne_none_iff hnew hconfig hheader
  have hm' : u.config.bundleSize ≠ 0 := by rwa [hconfig]
  rcases forward_eq_some.mp hforward with ⟨hnone, rfl⟩ | ⟨cla, adu, hcla, hadu, hm'', hcase⟩
  · -- nothing is handed over
    have hnot : ¬s.ReadyFor src dst := fun h => hready.mpr h hnone
    have hquiet : ¬∃ txs, (u.flagged b).handed = s.handed ++ txs ∧ Covered txs p := by
      rintro ⟨txs, htxs, hne, -⟩
      exact hne (List.self_eq_append_right.mp (hlog.symm.trans htxs))
    have hstored : b ∈ (u.flagged b).mStore ↔ b ∈ u.mStore := Iff.rfl
    rw [hstored, hmem, or_iff_left hquiet]
    simp [hnot]
  · have his : s.ReadyFor src dst := hready.mp (by simp [hcla])
    obtain rfl : p = adu := by
      rw [hself] at hadu
      exact Option.some.inj hadu
    have hhanded : t.handed = (u.sent b cla p).handed := by
      rcases hcase with ⟨-, rfl⟩ | ⟨-, -, rfl⟩
      · rfl
      · rfl
    have hcovered : (∃ txs, t.handed = s.handed ++ txs ∧ Covered txs p) ↔ 0 < p.size := by
      rw [hhanded, handed_sent, hlog]
      simp only [List.append_cancel_left_eq, exists_eq_left']
      exact covered_sent_iff hm'
    have hstored : b ∈ t.mStore ↔ ¬Late s.sim.now lifetime ∧ custody = true := by
      rw [← hmem]
      have hretention := retentionConstraints_sent cla hu hm''
      obtain ⟨hstore, -⟩ := u.rest_sent b cla p
      rcases hcase with ⟨hne, rfl⟩ | ⟨hzero, hord, rfl⟩
      · rw [hstore, and_iff_left]
        rwa [ne_eq, hretention, Bool.not_eq_false] at hne
      · refine iff_of_false ?_ (by simp [hretention.mp hzero])
        exact fun h => (BundleStore.Ordered.mem_removed hord).mp h |>.1 rfl
    rw [hcovered, hstored]
    simp only [his, true_and, not_true_eq_false, false_or]
    exact or_comm

/-- A bundle of three bytes, sent while no convergence layer is ready, is stored. -/
theorem send_keeps_iff_sample :
    ∃ t, (Sample.agent 2 false).send 1 Sample.threeBytes (Sample.eid 98) (Sample.eid 97) 0 false 0 =
      some (t, 0) ∧
      (1 ∈ t.mStore ∨ ∃ txs, t.handed = (Sample.agent 2 false).handed ++ txs ∧
        Covered txs Sample.threeBytes) := by
  have hrun : (((Sample.agent 2 false).send 1 Sample.threeBytes (Sample.eid 98) (Sample.eid 97) 0
      false 0).map Prod.snd) = some 0 := by decide +kernel
  obtain ⟨⟨t, code⟩, hsend, rfl⟩ := Option.map_eq_some_iff.mp hrun
  refine ⟨t, hsend, (send_keeps_iff (List.not_mem_nil) (by decide) hsend).mpr (Or.inr ?_)⟩
  refine ⟨by decide, Or.inl ?_⟩
  rintro ⟨uri, cla, -, -, hready⟩
  cases hready

/-- An agent without a ready convergence layer, at 1.5 s. -/
def lateAgent : BpAgent6 := { Sample.agent 2 false with sim := ⟨1500000000, 0, []⟩ }

/-- **A bundle is lost**: sent at 1.5 s with a lifetime of 0.2 s, while no convergence layer is ready, it
is neither stored nor handed over, and `Send` returns 0. -/
theorem send_loses :
    ∃ t, lateAgent.send 1 Sample.threeBytes (Sample.eid 98) (Sample.eid 97) 200000000 false 0 =
      some (t, 0) ∧
      ¬(1 ∈ t.mStore ∨ ∃ txs, t.handed = lateAgent.handed ++ txs ∧ Covered txs Sample.threeBytes) := by
  have hrun : ((lateAgent.send 1 Sample.threeBytes (Sample.eid 98) (Sample.eid 97) 200000000 false
      0).any fun r : BpAgent6 × ℤ =>
        decide (r.2 = 0 ∧ 1 ∉ r.1.mStore) && r.1.handed.isEmpty) = true := by decide +kernel
  obtain ⟨⟨t, code⟩, hsend, htest⟩ := (Option.any_eq_true _ _).mp hrun
  simp only [Bool.and_eq_true, decide_eq_true_eq, List.isEmpty_iff] at htest
  obtain ⟨⟨rfl, hmem⟩, hhanded⟩ := htest
  refine ⟨t, hsend, not_or.mpr ⟨hmem, ?_⟩⟩
  rintro ⟨txs, htxs, hne, -⟩
  exact hne (List.append_eq_nil_iff.mp (htxs.symm.trans hhanded)).2

end BpAgent6
end BundleProtocol
