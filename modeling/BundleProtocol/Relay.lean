import BundleProtocol.AgentRun

/-! # Relaying a fragment

A fragment that is not for this node is forwarded.  `Forward` cuts its payload as it
would cut an ADU of the node's own: it decides from the size of the payload whether
the pieces are fragments, and counts their offsets from the start of the payload.
`relay_keepsFragment_iff` says exactly when this leaves the pieces in their place in
the original ADU.  A fragment that waits or is sent again goes the same way: each
`Forward` starts from the payload that is stored.
-/
namespace BundleProtocol
open Tiling

/-- The bundles `txs` say of the fragment `rx` what it is: each is marked a fragment of
the same ADU, names the place of its payload in that ADU, and together they hold all of
the fragment. -/
structure KeepsFragment (rx : ReceivedBundle) (txs : List Transmission) : Prop where
  isFragment : ∀ tx ∈ txs, tx.header.isFragment = true
  aduLength : ∀ tx ∈ txs, tx.header.aduLength = rx.header.aduLength
  payload : ∀ tx ∈ txs, ∃ pos, pos + tx.payload.size ≤ rx.adu.size ∧
    tx.header.fragOffset.toNat = rx.header.fragOffset.toNat + pos ∧
    tx.payload.bytes = slice rx.adu.bytes pos tx.payload.size
  covers : ∀ i, rx.header.fragOffset.toNat ≤ i → i < rx.header.fragOffset.toNat + rx.adu.size →
    ∃ tx ∈ txs, tx.header.fragOffset.toNat ≤ i ∧ i < tx.header.fragOffset.toNat + tx.payload.size

namespace BpAgent6
variable {s s₁ t : BpAgent6} {b : Ptr} {cla : ClaId} {rx : ReceivedBundle}

/-- The transmissions of one bundle, by their pieces. -/
theorem header_transmission (s : BpAgent6) (b : Ptr) (cla : ClaId) (dst : BpEndpointId)
    (fragment : Bool) (adu : Packet) (p : ℕ × ℕ) :
    let tx := s.transmission b cla dst fragment adu p
    tx.header.isFragment = fragment ∧ tx.header.aduLength = (s.header b).aduLength ∧
      tx.header.fragOffset = UInt32.ofNat p.1 ∧ tx.payload = adu.piece p.1 p.2 :=
  ⟨BpHeader6.isFragment_setIsFragment _ _, rfl, rfl, rfl⟩

/-- The pieces of an ADU that starts at offset zero and does not fit one bundle are
fragments in their place. -/
theorem keepsFragment_of_offset_zero {dst : BpEndpointId}
    (hlength : (s.header b).aduLength = rx.header.aduLength) (hm : s.config.bundleSize ≠ 0)
    (ho : rx.header.fragOffset = 0) :
    KeepsFragment rx ((s.pieces rx.adu).map (s.transmission b cla dst true rx.adu)) := by
  have htiles := tiles_pieces rx.adu hm
  have hzero : rx.header.fragOffset.toNat = 0 := congrArg UInt32.toNat ho
  have hoffset : ∀ p ∈ s.pieces rx.adu, (UInt32.ofNat p.1).toNat = p.1 ∧
      (rx.adu.piece p.1 p.2).size = p.2 := by
    intro p hp
    have hb := htiles.bounds hp
    exact ⟨UInt32.toNat_ofNat_of_lt' (Nat.lt_of_le_of_lt (by omega) rx.adu.size_lt_two_pow),
      Packet.size_piece hb.2.2⟩
  refine ⟨?_, ?_, ?_, ?_⟩
  · rintro tx htx
    obtain ⟨p, -, rfl⟩ := List.mem_map.mp htx
    exact (s.header_transmission b cla dst true rx.adu p).1
  · rintro tx htx
    obtain ⟨p, -, rfl⟩ := List.mem_map.mp htx
    rw [(s.header_transmission b cla dst true rx.adu p).2.1, hlength]
  · rintro tx htx
    obtain ⟨p, hp, rfl⟩ := List.mem_map.mp htx
    obtain ⟨-, -, ho', hpayload⟩ := s.header_transmission b cla dst true rx.adu p
    obtain ⟨hp₁, hp₂⟩ := hoffset p hp
    rw [ho', hpayload, hp₁, hp₂, hzero]
    exact ⟨p.1, (htiles.bounds hp).2.2, (Nat.zero_add p.1).symm, rfl⟩
  · rintro i hlo hhi
    rw [hzero] at hlo hhi
    obtain ⟨p, hp, hpi⟩ := htiles.covers hlo (by omega)
    obtain ⟨hp₁, hp₂⟩ := hoffset p hp
    refine ⟨_, List.mem_map_of_mem hp, ?_⟩
    obtain ⟨-, -, ho', hpayload⟩ := s.header_transmission b cla dst true rx.adu p
    rw [ho', hpayload, hp₁, hp₂]
    exact hpi

/-- When the bundles that `Forward` makes of a fragment are fragments in their place. -/
theorem keepsFragment_transmissions_iff {dst : BpEndpointId}
    (hlength : (s.header b).aduLength = rx.header.aduLength) (hm : s.config.bundleSize ≠ 0) :
    KeepsFragment rx ((s.pieces rx.adu).map
        (s.transmission b cla dst (s.fragmenting rx.adu) rx.adu)) ↔
      rx.adu.size = 0 ∨
        (rx.header.fragOffset = 0 ∧ s.config.bundleSize.toNat < rx.adu.size) := by
  constructor
  · intro hkeeps
    by_cases hsize : rx.adu.size = 0
    · exact Or.inl hsize
    · -- the first piece shows the offset zero and the fragment flag
      obtain ⟨p, hp, hp₀, -⟩ := (tiles_pieces rx.adu hm).covers (Nat.le_refl 0)
        (Nat.pos_of_ne_zero hsize)
      have hmem := List.mem_map_of_mem (f := s.transmission b cla dst (s.fragmenting rx.adu) rx.adu)
        hp
      obtain ⟨hflag, -, hoffset, -⟩ :=
        s.header_transmission b cla dst (s.fragmenting rx.adu) rx.adu p
      obtain ⟨pos, -, hpos, -⟩ := hkeeps.payload _ hmem
      refine Or.inr ⟨?_, ?_⟩
      · rw [hoffset, Nat.le_zero.mp hp₀] at hpos
        have hzero : rx.header.fragOffset.toNat = 0 := (Nat.add_eq_zero_iff.mp hpos.symm).1
        exact UInt32.toNat_inj.mp hzero
      · exact of_decide_eq_true (hflag.symm.trans (hkeeps.isFragment _ hmem))
  · rintro (hsize | ⟨ho, hlt⟩)
    · have hpieces : s.pieces rx.adu = [] := by
        unfold pieces
        rw [hsize, chunks_zero]
      rw [hpieces, List.map_nil]
      refine ⟨by simp, by simp, by simp, fun i hlo hhi => ?_⟩
      omega
    · have hfragmenting : s.fragmenting rx.adu = true := decide_eq_true hlt
      rw [hfragmenting]
      exact keepsFragment_of_offset_zero hlength hm ho

/-- What a `Forward` hands over is handed over by its transmissions. -/
theorem handed_of_forward {u : BpAgent6} (hready : s.readyCla b = some cla)
    (hu : (s.flagged b).transmit b cla (s.header b).getDestinationEid = some u)
    (hrun : s.forward b = some t) : t.handed = u.handed := by
  obtain ⟨adu', hadu', -, rfl⟩ := transmit_eq_some.mp hu
  rw [flagged, heap_modify_self] at hadu'
  rcases forward_eq_some.mp hrun with ⟨hnone, -⟩ | ⟨cla', adu, hcla, hadu, -, hcase⟩
  · rw [hready] at hnone
    cases hnone
  · cases hready.symm.trans hcla
    cases hadu.symm.trans hadu'
    rcases hcase with ⟨-, rfl⟩ | ⟨-, -, rfl⟩ <;> rfl

/-- What `ProcessBundle` sends of a bundle that is not for this node. -/
theorem handed_processBundle {u : BpAgent6} {q : Ptr} (haccept : s.acceptBundle b rx = some s₁)
    (hlocal : s₁.isNodeMember (s₁.header b).getDestinationEid = false)
    (hready : s₁.readyCla b = some cla)
    (hu : (s₁.flagged b).transmit b cla (s₁.header b).getDestinationEid = some u)
    (hrun : s.processBundle b q rx = some t) : t.handed = u.handed := by
  obtain ⟨s', hs', hcase⟩ := processBundle_eq_some.mp hrun
  cases haccept.symm.trans hs'
  rcases hcase with ⟨hmember, -⟩ | ⟨-, hforward⟩
  · rw [hlocal] at hmember
    cases hmember
  · exact handed_of_forward hready hu hforward

/-- **One `Forward` of the fragment**, as it is stored. -/
theorem forward_keepsFragment_iff (cla : ClaId) (hm : s.config.bundleSize ≠ 0)
    (hlength : (s.header b).aduLength = rx.header.aduLength) (hadu : (s.heap b).adu = some rx.adu) :
    ∃ u txs, (s.flagged b).transmit b cla (s.header b).getDestinationEid = some u ∧
      u.handed = s.handed ++ txs ∧
      (KeepsFragment rx txs ↔
        rx.adu.size = 0 ∨
          (rx.header.fragOffset = 0 ∧ s.config.bundleSize.toNat < rx.adu.size)) := by
  have hadu' : ((s.flagged b).heap b).adu = some rx.adu := by
    rw [flagged, heap_modify_self]
    exact hadu
  exact ⟨_, _, transmit_eq_some.mpr ⟨rx.adu, hadu', Or.inl hm, rfl⟩, s.handed_sent b cla rx.adu,
    keepsFragment_transmissions_iff hlength hm⟩

/-- **When relaying preserves fragment identity**: exactly when the fragment is empty, or
starts the ADU and does not fit one bundle.  So it is when the fragment is forwarded on arrival, and
whenever the stored bundle is forwarded later. -/
theorem relay_keepsFragment_iff (q : Ptr) (cla : ClaId) (hm : s.config.bundleSize ≠ 0)
    (hlocal : s.isNodeMember rx.header.getDestinationEid = false)
    (hroute : s.outgoingCla rx.header.getDestinationEid = some cla)
    (hready : s.config.isReady cla = true)
    (haccept : s.acceptBundle b rx = some s₁) :
    (∃ u txs, (s₁.flagged b).transmit b cla rx.header.getDestinationEid = some u ∧
      u.handed = s.handed ++ txs ∧ (∀ t, s.processBundle b q rx = some t → t.handed = u.handed) ∧
      (KeepsFragment rx txs ↔
        rx.adu.size = 0 ∨
          (rx.header.fragOffset = 0 ∧ s.config.bundleSize.toNat < rx.adu.size))) ∧
    ∀ (v : BpAgent6) (cla' : ClaId), v.config.bundleSize ≠ 0 →
      rx.header.SameBundle (v.header b) → (v.heap b).adu = some rx.adu →
      ∃ u txs, (v.flagged b).transmit b cla' (v.header b).getDestinationEid = some u ∧
        u.handed = v.handed ++ txs ∧ (∀ t, v.readyCla b = some cla' → v.forward b = some t →
          t.handed = u.handed) ∧
        (KeepsFragment rx txs ↔
          rx.adu.size = 0 ∨
            (rx.header.fragOffset = 0 ∧ v.config.bundleSize.toNat < rx.adu.size)) := by
  constructor
  · obtain ⟨hconfig, -, -, hhanded, -⟩ := rest_acceptBundle haccept
    have hheader := header_acceptBundle haccept
    have hm₁ : s₁.config.bundleSize ≠ 0 := by rwa [hconfig]
    have hlocal₁ : s₁.isNodeMember (s₁.header b).getDestinationEid = false := by
      rw [hheader, isNodeMember, hconfig]
      exact hlocal
    have hready₁ : s₁.readyCla b = some cla := by
      rw [readyCla, hheader, outgoingCla, hconfig]
      exact Option.filter_eq_some_iff.mpr ⟨hroute, hready⟩
    obtain ⟨u, txs, hu, htxs, hkeeps⟩ := forward_keepsFragment_iff cla hm₁
      (congrArg BpHeader6.aduLength hheader) (adu_acceptBundle haccept)
    rw [hhanded] at htxs
    rw [hconfig] at hkeeps
    refine ⟨u, txs, hheader ▸ hu, htxs, fun t ht => ?_, hkeeps⟩
    exact handed_processBundle haccept hlocal₁ hready₁ hu ht
  · intro v cla' hm' hsame hadu
    obtain ⟨u, txs, hu, htxs, hkeeps⟩ := forward_keepsFragment_iff cla' hm' hsame.aduLength hadu
    exact ⟨u, txs, hu, htxs, fun t hready ht => handed_of_forward hready hu ht, hkeeps⟩

/-- A fragment of two bytes from the start of an ADU of three, relayed one byte at a time. -/
theorem relay_keepsFragment_sample :
    let s := Sample.agent 1 true
    let rx := Sample.received (Sample.header 6 2 1 0 3) (by decide) [10, 11] (by decide)
    ∃ s₁ u txs, s.acceptBundle 1 rx = some s₁ ∧
      (s₁.flagged 1).transmit 1 0 rx.header.getDestinationEid = some u ∧
      u.handed = s.handed ++ txs ∧ (∀ t, s.processBundle 1 2 rx = some t → t.handed = u.handed) ∧
      (KeepsFragment rx txs ↔
        rx.adu.size = 0 ∨ (rx.header.fragOffset = 0 ∧ s.config.bundleSize.toNat < rx.adu.size)) := by
  intro s rx
  obtain ⟨s₁, haccept⟩ := Option.isSome_iff_exists.mp
    (by decide +kernel : (s.acceptBundle 1 rx).isSome = true)
  obtain ⟨⟨u, txs, h⟩, -⟩ := relay_keepsFragment_iff 2 0 (by decide +kernel)
    (by decide +kernel) (by decide +kernel) (by decide +kernel) haccept
  exact ⟨s₁, u, txs, haccept, h⟩

/-- The fragment at offset one of an ADU of three bytes fits one bundle, and leaves as a
whole bundle. -/
theorem relay_loses_fragment :
    let rx := Sample.received (Sample.header 6 2 1 1 3) (by decide) [11] (by decide)
    ∃ t, (Sample.agent 10 true).processBundle 1 2 rx = some t ∧ ¬KeepsFragment rx t.handed := by
  intro rx
  obtain ⟨t, ht, hflags⟩ := (Option.any_eq_true (fun t : BpAgent6 =>
    !t.handed.all fun tx => tx.header.isFragment) _).mp (by decide +kernel :
      ((Sample.agent 10 true).processBundle 1 2 rx).any _ = true)
  refine ⟨t, ht, fun hkeeps => ?_⟩
  have hall : (t.handed.all fun tx => tx.header.isFragment) = true :=
    List.all_eq_true.mpr hkeeps.isFragment
  rw [hall] at hflags
  cases hflags

end BpAgent6
end BundleProtocol
