import BundleProtocol.Dictionary
import BundleProtocol.Fragments
import BundleProtocol.StoreOrder

/-! # Reassembly is sound

Fragments of one ADU arrive at their destination in any order, with duplicates and overlaps,
while applications receive and bundles expire.  Every stored bundle of that identity holds a
piece of the ADU at its fragment offset (`Sound`), so what `Receive` returns for it is the
ADU.  The identity must be the fragments' alone: a fragment that requests custody makes the
agent send a signal under a source of its own, and what the dictionary shows of that source must
be another one.  The signal must also keep its place in the set when it is sent (`OrderedOp`), as it
does when it goes out in one piece: a fragment that `Remove` does not find would stay without its ADU.
-/
namespace BundleProtocol
open Tiling TransitionSystem

namespace BpAgent6
variable {s t u v : BpAgent6} {b q x it : Ptr} {p : Packet} {h : BpHeader6} {rx : ReceivedBundle}

/-- The object at `x` holds a piece of the ADU. -/
def HoldsPart (p : Packet) (s : BpAgent6) (x : Ptr) : Prop := ∃ r, (s.heap x).PartOf p r

/-- Every stored bundle of the identity of `h` holds a piece of the ADU. -/
def Sound (h : BpHeader6) (p : Packet) (s : BpAgent6) : Prop :=
  ∀ x ∈ s.mStore, Named h (s.header x) → HoldsPart p s x

/-! ## Coalescing -/

/-- One iteration on two fragments of the ADU leaves every object that holds a piece one
that holds a piece. -/
theorem holdsPart_coalesceWith (hb : HoldsPart p s b) (hit : HoldsPart p s it)
    (hrun : s.coalesceWith b it = some t) (hx : HoldsPart p s x) : HoldsPart p t x := by
  obtain ⟨r, hb⟩ := hb
  obtain ⟨q, hit⟩ := hit
  have hrle := hb.le
  have hqle := hit.le
  rcases coalesceWith_parts hb hit hrun with ⟨htail, rfl⟩ | ⟨-, hhead, rfl⟩ | ⟨-, -, rfl⟩
  · by_cases hxit : x = it
    · subst hxit
      refine ⟨(q.1, q.2 + r.2), ?_⟩
      rw [heap_absorbed_self]
      exact hit.grown (by omega)
    · unfold HoldsPart
      rwa [heap_absorbed_of_ne s hxit]
  · by_cases hxb : x = b
    · subst hxb
      refine ⟨(r.1, r.2 + q.2), ?_⟩
      rw [heap_absorbed_self]
      exact hb.grown (by omega)
    · unfold HoldsPart
      rwa [heap_absorbed_of_ne s hxb]
  · exact hx

theorem holdsPart_coalesce {l : List Ptr} (hb : HoldsPart p s b) (hl : ∀ it ∈ l, HoldsPart p s it)
    (hrun : s.coalesce b l = some t) (hx : HoldsPart p s x) : HoldsPart p t x := by
  induction l generalizing s with
  | nil =>
    cases hrun
    exact hx
  | cons it l ih =>
    obtain ⟨u, hu, hrest⟩ := Option.bind_eq_some_iff.mp hrun
    have hkeeps : ∀ y, HoldsPart p s y → HoldsPart p u y := fun y =>
      holdsPart_coalesceWith hb (hl it List.mem_cons_self) hu
    exact ih (hkeeps b hb) (fun y hy => hkeeps y (hl y (List.mem_cons_of_mem it hy))) hrest
      (hkeeps x hx)

/-- Bundles that leave the store do no harm, and the others are the same. -/
theorem Sound.of_heap (hs : Sound h p s) (hstore : ∀ x ∈ t.mStore, x ∈ s.mStore)
    (hheap : ∀ x ∈ t.mStore, t.heap x = s.heap x) : Sound h p t := by
  intro x hx hnamed
  have hheader : t.header x = s.header x := congrArg Bundle6.primaryHeader (hheap x hx)
  rw [hheader] at hnamed
  unfold HoldsPart
  rw [hheap x hx]
  exact hs x (hstore x hx) hnamed

theorem Sound.discarded (hs : Sound h p s) (hord : s.Ordered) : Sound h p (s.discarded x) := by
  refine hs.of_heap (fun y hy => List.mem_of_mem_erase hy) fun y hy => ?_
  exact Memory.heap_doDispose_of_ne _ (hord.mem_removed.mp hy).1

/-- Accepting a fragment of the ADU. -/
theorem Sound.acceptBundle (hs : Sound h p s) (hrx : FragmentOf h p rx)
    (haccept : s.acceptBundle b rx = some u) : Sound h p u := by
  intro x hx hnamed
  by_cases hxb : x = b
  · subst hxb
    exact ⟨_, partOf_acceptBundle hrx haccept⟩
  · have hheap := heap_acceptBundle_of_ne haccept hxb
    have hheader : u.header x = s.header x := congrArg Bundle6.primaryHeader hheap
    have hmem := (mem_acceptBundle haccept hx).resolve_right fun hself => hxb hself.1
    unfold HoldsPart
    rw [hheap]
    exact hs x hmem (hheader ▸ hnamed)

/-- Matching an accepted fragment. -/
theorem Sound.matchFragments (hs : Sound h p s) (hb : HoldsPart p s b)
    (hnamed : Named h (s.header b)) (hrun : s.matchFragments b = some t) : Sound h p t := by
  unfold BpAgent6.matchFragments at hrun
  split at hrun
  · have hl : ∀ it ∈ s.getBundles (s.header b).getSourceEid (s.header b).createTimestamp
        (s.header b).timestampSeqNum, HoldsPart p s it := by
      intro it hit
      obtain ⟨hmem, hnames⟩ := BundleStore.mem_getBundles.mp hit
      exact hs it hmem ((names_iff_of_named hnamed _).mp hnames)
    have hkeys : SameKeys s t := (deliveryClosed_sameKeys s).coalesce (.refl s) hrun
    intro x hx hnamed'
    rw [named_congr (hkeys.header x hx)] at hnamed'
    exact holdsPart_coalesce hb hl hrun (hs x (hkeys.mStore.subset hx) hnamed')
  · cases hrun
    exact hs

/-! ## Custody signals -/

/-- A custody signal is sent under a source of the agent's own. -/
theorem Sound.sendCustodySignal {lifetime : Time} (hs : Sound h p s) (hq : q ∉ s.mStore)
    (hown : sourceUri s.config.eid ≠ some h.getSourceEid.uri)
    (hrun : s.sendCustodySignal b q lifetime = some t) : Sound h p t := by
  obtain ⟨cs, packet, code, -, hsend⟩ := sendCustodySignal_eq_some.mp hrun
  rcases send_eq_some.mp hsend with ⟨-, rfl, -⟩ | ⟨-, u, hu, hforward, -⟩
  · exact hs
  · obtain ⟨hdr, id, hnew, hself⟩ := heap_createBundle hu
    have hframe := forward_frame hforward
    intro x hx hnamed
    by_cases hxq : x = q
    · -- the signal is not of the identity
      subst hxq
      have hheader : u.header x = hdr := congrArg Bundle6.primaryHeader hself
      rw [named_congr (hframe.header x), hheader] at hnamed
      have hshown := newHeader_source hnew
      rw [BpEndpointId.beq_iff.mp hnamed.1] at hshown
      exact absurd hshown hown
    · have hcreated : u.heap x = s.heap x :=
        heap_createBundle_of_ne (s := s.signalLogged b cs) hu hxq
      have hheap : t.heap x = s.heap x := (hframe.heap x hxq).trans hcreated
      have hheader : t.header x = s.header x := congrArg Bundle6.primaryHeader hheap
      have hmem : x ∈ s.mStore := by
        have hmem' := (hframe.mem_iff hxq).mp hx
        obtain ⟨hdr', -, ⟨-, rfl⟩ | ⟨-, -, rfl⟩⟩ := createBundle_eq_some.mp hu
        · exact hmem'
        · exact (BundleStore.mem_stored.mp hmem').resolve_left hxq
      unfold HoldsPart
      rw [hheap]
      exact hs x hmem (hheader ▸ hnamed)

theorem config_send {src dst : BpEndpointId} {packet : Packet} {lifetime : Time} {custody : Bool}
    {priority : UInt32} {code : ℤ}
    (hrun : s.send b packet src dst lifetime custody priority = some (t, code)) :
    t.config = s.config := by
  rcases send_eq_some.mp hrun with ⟨-, rfl, -⟩ | ⟨-, u, hu, hforward, -⟩
  · rfl
  · obtain ⟨hdr, -, ⟨-, rfl⟩ | ⟨-, -, rfl⟩⟩ := createBundle_eq_some.mp hu
    · exact (forward_frame hforward).config
    · exact (forward_frame hforward).config

/-! ## Runs -/

/-- What happens while fragments of the ADU `p` arrive: fragments with the identity and the
destination of `h`, calls of `Receive`, expiries, and time.  A fragment that requests custody
has a source other than the agent's own, and the set stays in order. -/
def FragmentOp (h : BpHeader6) (p : Packet) (s : BpAgent6) (op : Op) : Prop :=
  s.OrderedOp op ∧ match op with
    | .processBundle _ _ rx => FragmentOf h p rx ∧
        (rx.header.custTxReq = true → sourceUri s.config.eid ≠ some h.getSourceEid.uri)
    | .receive _ => True
    | .fire e => ∃ b, e.call = .expire b
    | .advance _ => True
    | _ => False

/-- The destination of `h` is registered and active, and not the agent itself. -/
structure ActiveApplication (s : BpAgent6) (h : BpHeader6) : Prop where
  active : s.findRegistration h.getDestinationEid = some true
  other : (h.getDestinationEid == s.config.eid) = false

theorem ActiveApplication.of_config (ha : s.ActiveApplication h) (hconfig : t.config = s.config) :
    t.ActiveApplication h := by
  refine ⟨?_, ?_⟩
  · unfold findRegistration
    rw [hconfig]
    exact ha.active
  · rw [hconfig]
    exact ha.other

/-- Equal URIs are all that matters. -/
theorem ActiveApplication.of_uri {g : BpHeader6} (ha : s.ActiveApplication h)
    (huri : g.getDestinationEid.uri = h.getDestinationEid.uri) : s.ActiveApplication g := by
  refine ⟨(findRegistration_congr huri).trans ha.active, ?_⟩
  have hother := ha.other
  rw [BpEndpointId.beq_eq_false_iff] at hother ⊢
  rwa [huri]

/-- **One step.** -/
theorem Sound.step {op : Op} (hs : Sound h p s) (ha : s.ActiveApplication h)
    (hop : FragmentOp h p s op) (hstep : step op s = some t) :
    Sound h p t ∧ t.config = s.config := by
  cases op with
  | processBundle b q rx =>
    obtain ⟨hordered, hrx, hcust⟩ := hop
    obtain ⟨hb, hq, hne⟩ := hordered.admissible
    have ha' := ha.of_uri hrx.destination
    obtain ⟨u, v, haccept, hmatch, hsend⟩ := (processBundle_active ha'.active ha'.other).mp hstep
    have hframe := frame_matchFragments hmatch
    obtain ⟨hconfig, -⟩ := rest_acceptBundle haccept
    have hsound : Sound h p v := by
      have hpart : HoldsPart p u b := ⟨_, partOf_acceptBundle hrx haccept⟩
      have hnamed : Named h (u.header b) := by
        rw [header_acceptBundle haccept]
        exact hrx.named
      have haccepted : Sound h p u := hs.acceptBundle hrx haccept
      exact Sound.matchFragments (s := u.logged b) haccepted hpart hnamed hmatch
    have hconfig' : v.config = s.config := hframe.config.trans hconfig
    rcases hsend with ⟨-, rfl⟩ | ⟨hreq, hsend⟩
    · exact ⟨hsound, hconfig'⟩
    · have hqv : q ∉ v.mStore := by
        intro hmem
        have hmem' := ((deliveryClosed_sameKeys _).matchFragments (.refl _) hmatch).mStore.subset hmem
        rcases mem_acceptBundle haccept hmem' with hold | ⟨hself, -⟩
        · exact hq.1 hold
        · exact hne hself.symm
      have hown := hcust hreq
      rw [← hconfig'] at hown
      obtain ⟨cs, packet, code, -, hsend'⟩ := sendCustodySignal_eq_some.mp hsend
      exact ⟨hsound.sendCustodySignal hqv hown hsend, (config_send hsend').trans hconfig'⟩
  | receive eid =>
    obtain ⟨⟨u, packet⟩, hu, rfl⟩ := Option.map_eq_some_iff.mp hstep
    rcases receive_eq_some.mp hu with ⟨-, rfl, -⟩ | ⟨x, adu, -, hord, -, -, rfl⟩
    · exact ⟨hs, rfl⟩
    · exact ⟨hs.discarded hord, rfl⟩
  | fire e =>
    obtain ⟨-, x, hcall⟩ := hop
    rw [BpAgent6.step, hcall] at hstep
    obtain ⟨hord, -, rfl⟩ := expire_eq_some.mp hstep
    exact ⟨Sound.discarded (s := s.popEvent e) hs hord, rfl⟩
  | advance now =>
    cases hstep
    exact ⟨hs, rfl⟩
  | send => exact hop.2.elim
  | claReady => exact hop.2.elim
  | configure => exact hop.2.elim

end BpAgent6
end BundleProtocol
