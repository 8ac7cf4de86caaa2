import BundleProtocol.Accesses

/-! # Disposed bundles

`DoDispose` sets the ADU pointer of a bundle to null.  The branch for administrative records disposes of
the bundle and falls through to the matching of fragments and the custody signal, which use it:
`clean_deliver_iff` says when, whichever way the set is searched, and there delivery does not return
(`deliver_of_usesDisposed`).  A bundle that the search does not find is disposed of and stays in the set,
where the matching comes upon it again.
-/
namespace BundleProtocol
open AccessLog

namespace BpAgent6
variable {s t u : BpAgent6} {b q x it : Ptr} {logging : Bool} {p : Packet} {search : SetSearch}

/-! ## Administrative records -/

/-- What is read of an administrative record behind its flags: a custody signal when they announce one;
`none` when that is cut off. -/
def readBody (ar : AdminRecord) (bytes : List UInt8) : Option (Option CustodySignal) :=
  if ar.isCustodySignal then (CustodySignal.removeFrom bytes).map fun r => some r.1 else some none

/-- The same with the flags. -/
def readSignal (bytes : List UInt8) : Option (Option CustodySignal) :=
  (AdminRecord.removeFrom bytes).bind fun r => readBody r.1 r.2

/-- The stored bundle that a custody signal releases: all of it is acknowledged. -/
def releasedBy (s : BpAgent6) (cs : CustodySignal) : Option Ptr :=
  (s.signalled cs).filter fun x =>
    fullyAcked (addAck (thisack cs) (s.heap x).acks) (s.header x).aduLength

/-- The bundle at `b` is taken as an administrative record to the end: the record is complete, and the
bundle that it releases, if any and if it is found, can be removed. -/
structure TakenAsRecord (search : SetSearch) (s : BpAgent6) (b : Ptr) (gone : Option Ptr) : Prop where
  read : ∃ p sig, (s.heap b).adu = some p ∧ readSignal p.bytes = some sig ∧ gone = sig.bind s.releasedBy
  adu : ∀ x, gone = some x → search.finds s.toBundleStore x = true → (s.heap x).adu ≠ none

/-- Stripping a header off returns when there is one to strip. -/
theorem stripAdu_eq_some {α : Type} {a : α} {removeFrom : List UInt8 → Option (α × List UInt8)}
    (hadu : (s.heap b).adu = some p) : s.stripAdu b removeFrom = some (a, t) ↔
      ∃ p', removeFrom p.bytes = some (a, p'.bytes) ∧ t = s.withAdu b p' := by
  unfold stripAdu
  constructor
  · intro hrun
    obtain ⟨adu, hadu', hrun⟩ := Option.bind_eq_some_iff.mp hrun
    cases hadu.symm.trans hadu'
    obtain ⟨⟨a', rest⟩, hread, hrun⟩ := Option.bind_eq_some_iff.mp hrun
    obtain ⟨stripped, hstripped, hrun⟩ := Option.bind_eq_some_iff.mp hrun
    cases hrun
    exact ⟨stripped, by rw [hread, Packet.bytes_of_ofBytes hstripped], rfl⟩
  · rintro ⟨p', hread, rfl⟩
    refine Option.bind_eq_some_iff.mpr ⟨p, hadu, Option.bind_eq_some_iff.mpr ⟨_, hread, ?_⟩⟩
    exact Option.bind_eq_some_iff.mpr ⟨p', Packet.ofBytes_eq_some p'.size_lt, rfl⟩

theorem stripAdu_eq_none {α : Type} {removeFrom : List UInt8 → Option (α × List UInt8)}
    (hadu : (s.heap b).adu = some p) (hread : removeFrom p.bytes = none) :
    s.stripAdu b removeFrom = none := by
  refine Option.eq_none_iff_forall_ne_some.mpr fun r hr => ?_
  obtain ⟨p', hread', -⟩ := (stripAdu_eq_some (a := r.1) (t := r.2) hadu).mp hr
  rw [hread] at hread'
  cases hread'

/-- What a header leaves of a packet is a packet. -/
theorem exists_packet {bytes rest : List UInt8} (hbytes : bytes.length < 2 ^ 32)
    (hlen : rest.length ≤ bytes.length) : ∃ p' : Packet, p'.bytes = rest :=
  ⟨⟨rest, Nat.lt_of_le_of_lt hlen hbytes⟩, rfl⟩

/-- The flags are the first byte. -/
theorem adminRecord_removeFrom {bytes : List UInt8} (h : bytes ≠ []) :
    ∃ ar rest, AdminRecord.removeFrom bytes = some (ar, rest) ∧ rest.length ≤ bytes.length := by
  cases bytes with
  | nil => exact absurd rfl h
  | cons flags rest => exact ⟨⟨flags⟩, rest, rfl, Nat.le_succ _⟩

theorem custodySignal_removeFrom_length {bytes rest : List UInt8} {cs : CustodySignal}
    (h : CustodySignal.removeFrom bytes = some (cs, rest)) : rest.length ≤ bytes.length := by
  obtain ⟨⟨cs', rest'⟩, -, h⟩ := Option.bind_eq_some_iff.mp h
  cases h
  rw [List.length_drop]
  exact Nat.sub_le ..

/-- The custody signal, when there is one, is processed. -/
def signalStep (search : SetSearch) (sig : Option CustodySignal) (s : BpAgent6) : Option BpAgent6 :=
  sig.elim (some s) fun cs => search.processCustodySignal s cs

/-- Its accesses. -/
def signalAccesses (search : SetSearch) (sig : Option CustodySignal) (s : BpAgent6) :
    List (Access Ptr) := sig.elim [] fun cs => search.processCustodySignalAccesses s cs

theorem withAdu_withAdu (s : BpAgent6) (b : Ptr) (p p' : Packet) :
    (s.withAdu b p).withAdu b p' = s.withAdu b p' := by
  simp [withAdu, modify, Memory.modify]

theorem withAdu_self (hadu : (s.heap b).adu = some p) : s.withAdu b p = s := by
  have hsame : (fun x : Bundle6 => { x with adu := some p }) (s.heap b) = s.heap b := by
    dsimp only
    rw [← hadu]
  unfold withAdu modify Memory.modify
  rw [hsame, Function.update_eq_self]

theorem adu_withAdu_self (s : BpAgent6) (b : Ptr) (p : Packet) :
    ((s.withAdu b p).heap b).adu = some p := by
  unfold withAdu
  rw [heap_modify_self]

/-- No bundle gets or loses its ADU. -/
theorem adu_withAdu_ne_none {p' : Packet} (hadu : (s.heap b).adu = some p) :
    ((s.withAdu b p').heap x).adu ≠ none ↔ (s.heap x).adu ≠ none := by
  by_cases hx : x = b
  · rw [hx, adu_withAdu_self, hadu]
    exact iff_of_true (Option.some_ne_none _) (Option.some_ne_none _)
  · have hother : (s.withAdu b p').heap x = s.heap x := heap_modify_of_ne s hx _
    rw [hother]

/-- The branch on the type strips the ADU of the bundle at `b` and processes the signal. -/
structure HandlesRecord (search : SetSearch) (s : BpAgent6) (b : Ptr) (ar : AdminRecord) (p' : Packet)
    (sig : Option CustodySignal) : Prop where
  result : search.handleAdminRecord s b ar = signalStep search sig (s.withAdu b p')
  accesses : ∃ l, (∀ x ∈ l, x = .use b) ∧
    search.handleAdminRecordAccesses s b ar = l ++ signalAccesses search sig (s.withAdu b p')

/-- **The branches on the type**: the body is cut off, or it is read. -/
theorem handleAdminRecord_reads (ar : AdminRecord) (hadu : (s.heap b).adu = some p) :
    (readBody ar p.bytes = none ∧ search.handleAdminRecord s b ar = none ∧
        ∀ x ∈ search.handleAdminRecordAccesses s b ar, x = .use b) ∨
      ∃ sig p', readBody ar p.bytes = some sig ∧ HandlesRecord search s b ar p' sig := by
  unfold readBody
  by_cases hcs : ar.isCustodySignal = true
  · have hresult : search.handleAdminRecord s b ar =
        (s.stripAdu b CustodySignal.removeFrom).bind fun r => search.processCustodySignal r.2 r.1 :=
      if_pos hcs
    have haccesses : search.handleAdminRecordAccesses s b ar = .use b ::
        andThen (s.stripAdu b CustodySignal.removeFrom) fun r =>
          search.processCustodySignalAccesses r.2 r.1 := if_pos hcs
    rw [if_pos hcs]
    cases hread : CustodySignal.removeFrom p.bytes with
    | none =>
      have hcut := stripAdu_eq_none hadu hread
      rw [hcut] at hresult haccesses
      refine Or.inl ⟨rfl, hresult, ?_⟩
      intro x hx
      rw [haccesses] at hx
      exact List.mem_singleton.mp hx
    | some r =>
      obtain ⟨cs, rest⟩ := r
      obtain ⟨p', rfl⟩ := exists_packet p.size_lt (custodySignal_removeFrom_length hread)
      have hstrip : s.stripAdu b CustodySignal.removeFrom = some (cs, s.withAdu b p') :=
        (stripAdu_eq_some hadu).mpr ⟨p', hread, rfl⟩
      rw [hstrip] at hresult haccesses
      exact Or.inr ⟨some cs, p', rfl, hresult, [.use b], fun x hx => List.mem_singleton.mp hx,
        haccesses⟩
  · rw [if_neg hcs]
    by_cases hacs : ar.isAggregateCustodySignal = true
    · obtain ⟨p', hp'⟩ : ∃ p' : Packet, p'.bytes = p.bytes.drop 1 :=
        exists_packet p.size_lt (List.length_drop ▸ Nat.sub_le ..)
      have hstrip : s.stripAdu b (fun bytes => some ((), bytes.drop 1)) =
          some ((), s.withAdu b p') := (stripAdu_eq_some hadu).mpr ⟨p', by rw [hp'], rfl⟩
      have hresult : search.handleAdminRecord s b ar = some (s.withAdu b p') := by
        unfold SetSearch.handleAdminRecord
        rw [if_neg hcs, if_pos hacs, hstrip]
        rfl
      have haccesses : search.handleAdminRecordAccesses s b ar = [.use b] :=
        (if_neg hcs).trans (if_pos hacs)
      exact Or.inr ⟨none, p', rfl, hresult, [.use b], fun x hx => List.mem_singleton.mp hx, haccesses⟩
    · have hsame : s.withAdu b p = s := withAdu_self hadu
      have hresult : search.handleAdminRecord s b ar = some s := (if_neg hcs).trans (if_neg hacs)
      have haccesses : search.handleAdminRecordAccesses s b ar = [] := (if_neg hcs).trans (if_neg hacs)
      refine Or.inr ⟨none, p, rfl, ?_, [], fun x hx => absurd hx List.not_mem_nil, haccesses⟩
      rw [hresult, hsame]
      rfl

/-- The ADU of the bundle at `b` is used up, then its signal is processed, then it is removed. -/
structure ReadsRecord (search : SetSearch) (s : BpAgent6) (b : Ptr) (p' : Packet)
    (sig : Option CustodySignal) : Prop where
  result : search.processAdminRecord s b =
    (signalStep search sig (s.withAdu b p')).bind fun u => search.discard u b
  accesses : ∃ l, (∀ x ∈ l, x = .use b) ∧ search.processAdminRecordAccesses s b =
    l ++ (signalAccesses search sig (s.withAdu b p') ++
      andThen (signalStep search sig (s.withAdu b p')) fun u => search.discardAccesses u b)

/-- **What becomes of an administrative record**: it is cut off, or it is read. -/
theorem processAdminRecord_reads (search : SetSearch) (hadu : (s.heap b).adu = some p)
    (hne : p.bytes ≠ []) :
    (readSignal p.bytes = none ∧ search.processAdminRecord s b = none ∧
        ∀ x ∈ search.processAdminRecordAccesses s b, x = .use b) ∨
      ∃ sig p', readSignal p.bytes = some sig ∧ ReadsRecord search s b p' sig := by
  obtain ⟨ar, rest, hread, hlen⟩ := adminRecord_removeFrom hne
  obtain ⟨p₁, rfl⟩ := exists_packet p.size_lt hlen
  have hstrip : s.stripAdu b AdminRecord.removeFrom = some (ar, s.withAdu b p₁) :=
    (stripAdu_eq_some hadu).mpr ⟨p₁, hread, rfl⟩
  have hresult : search.processAdminRecord s b =
      (search.handleAdminRecord (s.withAdu b p₁) b ar).bind fun u => search.discard u b := by
    unfold SetSearch.processAdminRecord
    rw [hstrip]
    rfl
  have haccesses : search.processAdminRecordAccesses s b = .use b ::
      (search.handleAdminRecordAccesses (s.withAdu b p₁) b ar ++
        andThen (search.handleAdminRecord (s.withAdu b p₁) b ar) fun u => search.discardAccesses u b) := by
    unfold SetSearch.processAdminRecordAccesses
    rw [hstrip]
    rfl
  have hsignal : readSignal p.bytes = readBody ar p₁.bytes := by
    unfold readSignal
    rw [hread]
    rfl
  rw [hsignal, hresult, haccesses]
  rcases handleAdminRecord_reads ar (s.adu_withAdu_self b p₁) with ⟨hcut, hnone, huses⟩ |
    ⟨sig, p₂, hbody, hhandles⟩
  · refine Or.inl ⟨hcut, by rw [hnone]; rfl, ?_⟩
    intro x hx
    rw [hnone, andThen_none, List.append_nil] at hx
    rcases List.mem_cons.mp hx with rfl | hx
    · rfl
    · exact huses x hx
  · have hhandled := hhandles.result
    obtain ⟨l, huses, hl⟩ := hhandles.accesses
    rw [withAdu_withAdu] at hhandled hl
    refine Or.inr ⟨sig, p₂, hbody, ?_, .use b :: l, ?_, ?_⟩
    · rw [hresult, hhandled]
    · intro x hx
      rcases List.mem_cons.mp hx with rfl | hx
      · rfl
      · exact huses x hx
    · rw [haccesses, hhandled, hl]
      simp

/-! ## What a record leaves -/

/-- What the ADU of a bundle was that is disposed of does not matter. -/
theorem discarded_of_withAdu {l : List Ptr} (h : search.Discarded (s.withAdu b p) t l) (hb : b ∈ l) :
    search.Discarded s t l where
  store := by
    have hheader : (s.withAdu b p).header = s.header := funext fun x => s.header_withAdu b x p
    rw [h.store, hheader]
    rfl
  header x := (h.header x).trans (s.header_withAdu b x p)
  adu x hx := by
    rw [h.adu x hx]
    exact congrArg Bundle6.adu (heap_modify_of_ne s (ne_of_mem_of_not_mem hb hx).symm _)
  disposed := h.disposed

/-- A bundle is measured when it is found, and disposed of. -/
theorem discardAccesses_eq (hadu : search.finds s.toBundleStore b = true → (s.heap b).adu ≠ none) :
    search.discardAccesses s b =
      (if search.finds s.toBundleStore b then [.use b] else []) ++ [.dispose b] := by
  obtain ⟨st, hst, -⟩ := search.exists_remove hadu
  have hremove : search.removeFromStore s b = some { s with toBundleStore := st } := by
    unfold SetSearch.removeFromStore withStore
    dsimp only
    rw [hst]
    rfl
  unfold SetSearch.discardAccesses SetSearch.removeAccesses
  rw [hremove, andThen_some]

/-- A bundle that is found without an ADU stops the removal. -/
theorem onlyUses_discardAccesses (hfinds : search.finds s.toBundleStore b = true)
    (hadu : (s.heap b).adu = none) : OnlyUses (search.discardAccesses s b) := by
  have hremove : search.removeFromStore s b = none := by
    have hdiscard := search.discard_eq_none hfinds hadu
    unfold SetSearch.discard at hdiscard
    cases hremove : search.removeFromStore s b with
    | none => rfl
    | some t =>
      rw [hremove] at hdiscard
      cases hdiscard
  unfold SetSearch.discardAccesses
  rw [hremove]
  exact (search.onlyUses_removeAccesses s b).append onlyUses_nil

/-! ## The signal of a record -/

theorem releasedBy_eq_some {cs : CustodySignal} :
    s.releasedBy cs = some x ↔ s.signalled cs = some x ∧ s.Completes x cs :=
  Option.filter_eq_some_iff

theorem mem_of_releasedBy {cs : CustodySignal} (h : s.releasedBy cs = some x) : x ∈ s.mStore :=
  mem_of_signalled (releasedBy_eq_some.mp h).1

/-- Where a search ends does not depend on the ADUs. -/
theorem finds_withAdu (search : SetSearch) (s : BpAgent6) (b x : Ptr) (p : Packet) :
    search.finds (s.withAdu b p).toBundleStore x = search.finds s.toBundleStore x :=
  search.finds_congr rfl fun y => s.header_withAdu b y p

/-- What a signal releases does not depend on the ADUs. -/
theorem releasedBy_withAdu (s : BpAgent6) (b : Ptr) (p : Packet) (cs : CustodySignal) :
    (s.withAdu b p).releasedBy cs = s.releasedBy cs := by
  have hacks : ∀ x, ((s.withAdu b p).heap x).acks = (s.heap x).acks := by
    intro x
    apply field_heap_modify Bundle6.acks
    exact fun _ => rfl
  have hsignalled : (s.withAdu b p).signalled cs = s.signalled cs := by
    unfold signalled BundleStore.getBundle
    simp only [header_withAdu]
    rfl
  unfold releasedBy
  rw [hsignalled]
  simp only [hacks, header_withAdu]

theorem processCustodySignalAccesses_eq (search : SetSearch) (s : BpAgent6) (cs : CustodySignal) :
    search.processCustodySignalAccesses s cs =
      (s.releasedBy cs).elim [] fun x => search.discardAccesses (s.acked x cs) x := by
  have hacks : ∀ x, ((s.acked x cs).heap x).acks = addAck (thisack cs) (s.heap x).acks := by
    intro x
    unfold acked
    rw [heap_modify_self]
  have hunfold : search.processCustodySignalAccesses s cs = (s.signalled cs).elim [] fun x =>
      if fullyAcked ((s.acked x cs).heap x).acks ((s.acked x cs).header x).aduLength then
        search.discardAccesses (s.acked x cs) x else [] := by
    unfold SetSearch.processCustodySignalAccesses signalled
    split
    · cases s.getBundle (.ofUri cs.srcEid) cs.creationTimestamp cs.seqNo <;> rfl
    · rfl
  rw [hunfold, releasedBy]
  cases s.signalled cs with
  | none => rfl
  | some x =>
    rw [Option.elim_some, hacks, header_acked, Option.filter_some]
    split <;> rfl

/-- A signal that releases nothing. -/
theorem signalStep_keeps {sig : Option CustodySignal} (hkept : sig.bind s.releasedBy = none) :
    ∃ u, signalStep search sig s = some u ∧ search.Discarded s u [] ∧
      signalAccesses search sig s = [] := by
  cases sig with
  | none => exact ⟨s, rfl, .refl s, rfl⟩
  | some cs =>
    have hnone : s.releasedBy cs = none := hkept
    have haccesses : signalAccesses search (some cs) s = [] := by
      refine (processCustodySignalAccesses_eq search s cs).trans ?_
      rw [hnone]
      rfl
    cases hsig : s.signalled cs with
    | none => exact ⟨s, SetSearch.processCustodySignal_of_none hsig, .refl s, haccesses⟩
    | some x =>
      have hpart : ¬s.Completes x cs := by
        intro hfull
        rw [releasedBy_eq_some.mpr ⟨hsig, hfull⟩] at hnone
        cases hnone
      exact ⟨s.acked x cs, SetSearch.processCustodySignal_of_not_completes hsig hpart, .acked s x cs,
        haccesses⟩

/-- A signal that releases the bundle at `x`. -/
theorem signalStep_releases (search : SetSearch) {cs : CustodySignal}
    (hreleased : s.releasedBy cs = some x)
    (hadu : search.finds s.toBundleStore x = true → (s.heap x).adu ≠ none) :
    ∃ u, signalStep search (some cs) s = some u ∧ search.Discarded s u [x] ∧
      signalAccesses search (some cs) s =
        (if search.finds s.toBundleStore x then [.use x] else []) ++ [.dispose x] := by
  obtain ⟨hsig, hfull⟩ := releasedBy_eq_some.mp hreleased
  have hadu' : search.finds (s.acked x cs).toBundleStore x = true →
      ((s.acked x cs).heap x).adu ≠ none := by
    rw [search.finds_acked, adu_acked]
    exact hadu
  obtain ⟨u, hu, hgone⟩ := search.exists_discard hadu'
  refine ⟨u, (SetSearch.processCustodySignal_of_completes hsig hfull).trans hu,
    (SetSearch.Discarded.acked s x cs).trans hgone, ?_⟩
  refine (processCustodySignalAccesses_eq search s cs).trans ?_
  rw [hreleased, Option.elim_some, discardAccesses_eq hadu', search.finds_acked]

/-- The signal of a record whose ADU is used up. -/
theorem signalStep_returns {sig : Option CustodySignal} {gone : Option Ptr}
    (hadu : (s.heap b).adu = some p) (hgone : gone = sig.bind s.releasedBy)
    (hgoneAdu : ∀ x, gone = some x → search.finds s.toBundleStore x = true → (s.heap x).adu ≠ none)
    (p' : Packet) : ∃ u, signalStep search sig (s.withAdu b p') = some u ∧
      search.Discarded (s.withAdu b p') u gone.toList ∧
      signalAccesses search sig (s.withAdu b p') = gone.elim [] fun x =>
        (if search.finds s.toBundleStore x then [.use x] else []) ++ [.dispose x] := by
  cases gone with
  | none =>
    refine signalStep_keeps ?_
    rw [funext (s.releasedBy_withAdu b p'), ← hgone]
  | some x =>
    obtain ⟨cs, rfl, hreleased⟩ := Option.bind_eq_some_iff.mp hgone.symm
    have hfinds := finds_withAdu search s b x p'
    have hreturns := signalStep_releases search ((s.releasedBy_withAdu b p' cs).trans hreleased)
      fun h =>
        (adu_withAdu_ne_none hadu).mpr (hgoneAdu x rfl (hfinds.symm.trans h))
    rwa [hfinds] at hreturns

/-- A bundle that is found without an ADU stops the signal. -/
theorem signalStep_stuck {cs : CustodySignal} (hreleased : s.releasedBy cs = some x)
    (hfinds : search.finds s.toBundleStore x = true) (hadu : (s.heap x).adu = none) :
    signalStep search (some cs) s = none ∧ OnlyUses (signalAccesses search (some cs) s) := by
  obtain ⟨hsig, hfull⟩ := releasedBy_eq_some.mp hreleased
  have hfinds' : search.finds (s.acked x cs).toBundleStore x = true :=
    (search.finds_acked s x x cs).trans hfinds
  have hadu' : ((s.acked x cs).heap x).adu = none := (s.adu_acked x x cs).trans hadu
  constructor
  · exact (SetSearch.processCustodySignal_of_completes hsig hfull).trans
      (search.discard_eq_none hfinds' hadu')
  · have haccesses : signalAccesses search (some cs) s = _ := processCustodySignalAccesses_eq search s cs
    rw [haccesses, hreleased]
    exact onlyUses_discardAccesses hfinds' hadu'

/-! ## The bundle that carries a record -/

/-- The bundle at `b` is disposed of, after the bundle that its signal releases. -/
structure DisposesRecord (search : SetSearch) (s : BpAgent6) (b : Ptr) (gone : Option Ptr)
    (t : BpAgent6) : Prop where
  result : search.processAdminRecord s b = some t
  discarded : search.Discarded s t (gone.toList ++ [b])
  clean : Clean (search.processAdminRecordAccesses s b)
  disposes : ∀ x, .dispose x ∈ search.processAdminRecordAccesses s b ↔ x = b ∨ gone = some x

theorem ReadsRecord.disposesRecord {p' : Packet} {sig : Option CustodySignal} {gone : Option Ptr}
    (h : ReadsRecord search s b p' sig) (hset : s.mStore.Nodup) (hadu : (s.heap b).adu = some p)
    (hgone : gone = sig.bind s.releasedBy)
    (hgoneAdu : ∀ x, gone = some x → search.finds s.toBundleStore x = true → (s.heap x).adu ≠ none) :
    ∃ t, DisposesRecord search s b gone t := by
  obtain ⟨u, hu, hsignalled, hsignal⟩ := signalStep_returns hadu hgone hgoneAdu p'
  -- a second search for the bundle ends nowhere when the signal was about the bundle itself
  have hother : search.finds u.toBundleStore b = true → gone ≠ some b := by
    rintro hfinds rfl
    have hstore : u.mStore = search.erased (s.withAdu b p').header s.mStore b := hsignalled.store
    by_cases hfirst : search.finds (s.withAdu b p').toBundleStore b = true
    · have herased : u.mStore = s.mStore.erase b := hstore.trans (if_pos hfirst)
      have hmem := search.mem_of_finds hfinds
      rw [herased, hset.mem_erase_iff] at hmem
      exact hmem.1 rfl
    · have hsame : u.mStore = (s.withAdu b p').mStore := hstore.trans (if_neg hfirst)
      rw [search.finds_congr hsame hsignalled.header] at hfinds
      exact hfirst hfinds
  have hkept : search.finds u.toBundleStore b = true → (u.heap b).adu ≠ none := by
    intro hfinds
    have hnot : b ∉ gone.toList := fun hb => hother hfinds (Option.mem_toList.mp hb)
    rw [hsignalled.adu b hnot, s.adu_withAdu_self b p']
    exact Option.some_ne_none p'
  obtain ⟨t, ht, hdiscarded⟩ := search.exists_discard hkept
  obtain ⟨l, huses, haccesses⟩ := h.accesses
  have honly : OnlyUses l := onlyUses_of_forall huses
  rw [hsignal, hu, andThen_some, discardAccesses_eq hkept] at haccesses
  refine ⟨t, ?_, ?_, ?_, ?_⟩
  · rw [h.result, hu]
    exact ht
  · exact discarded_of_withAdu (hsignalled.trans hdiscarded) (by simp)
  · rw [haccesses]
    refine honly.append_clean (clean_append.mpr ⟨?_, ?_, fun a ha huse => ?_⟩)
    · cases gone with
      | none => exact clean_nil
      | some x =>
        rw [Option.elim_some]
        split <;> simp [Clean, Access.Before]
    · split <;> simp [Clean, Access.Before]
    · have hgone' : gone = some a := by
        cases gone with
        | none => cases ha
        | some x =>
          rw [Option.elim_some] at ha
          split at ha <;> simpa [eq_comm] using ha
      by_cases hfinds : search.finds u.toBundleStore b = true
      · rw [if_pos hfinds] at huse
        have hab : a = b := by simpa using huse
        exact hother hfinds (hab ▸ hgone')
      · rw [if_neg hfinds] at huse
        simp at huse
  · intro x
    have hl : .dispose x ∉ l := honly x
    rw [haccesses]
    cases gone with
    | none => split <;> simp [hl]
    | some y =>
      rw [Option.elim_some]
      split <;> split <;> simp [hl, eq_comm, or_comm]

theorem ReadsRecord.stuck {p' : Packet} {sig : Option CustodySignal} (h : ReadsRecord search s b p' sig)
    (hadu : (s.heap b).adu = some p) (hreleased : sig.bind s.releasedBy = some x)
    (hfinds : search.finds s.toBundleStore x = true) (hnone : (s.heap x).adu = none) :
    search.processAdminRecord s b = none ∧ OnlyUses (search.processAdminRecordAccesses s b) := by
  obtain ⟨l, huses, haccesses⟩ := h.accesses
  obtain ⟨cs, rfl, hcs⟩ := Option.bind_eq_some_iff.mp hreleased
  have hnone' : ((s.withAdu b p').heap x).adu = none := by
    by_contra hsome
    exact (adu_withAdu_ne_none hadu).mp hsome hnone
  obtain ⟨hstuck, hsignal⟩ := signalStep_stuck ((s.releasedBy_withAdu b p' cs).trans hcs)
    ((finds_withAdu search s b x p').trans hfinds) hnone'
  rw [hstuck, andThen_none, List.append_nil] at haccesses
  refine ⟨?_, haccesses ▸ (onlyUses_of_forall huses).append hsignal⟩
  rw [h.result, hstuck]
  rfl

/-- What is read of the ADU decides what the signal releases. -/
theorem TakenAsRecord.eq {gone gone' : Option Ptr} (h : TakenAsRecord search s b gone)
    (h' : TakenAsRecord search s b gone') : gone = gone' := by
  obtain ⟨p, sig, hadu, hread, rfl⟩ := h.read
  obtain ⟨p', sig', hadu', hread', rfl⟩ := h'.read
  cases hadu.symm.trans hadu'
  cases hread.symm.trans hread'
  rfl

/-- **The record is taken to the end, or delivery stops in it** before anything is disposed of. -/
theorem processAdminRecord_cases (search : SetSearch) (hset : s.mStore.Nodup)
    (hadu : (s.heap b).adu = some p) (hne : p.bytes ≠ []) :
    (∃ gone t, TakenAsRecord search s b gone ∧ DisposesRecord search s b gone t) ∨
      ((∀ gone, ¬TakenAsRecord search s b gone) ∧ search.processAdminRecord s b = none ∧
        OnlyUses (search.processAdminRecordAccesses s b)) := by
  rcases processAdminRecord_reads search hadu hne with ⟨hcut, hnone, huses⟩ |
    ⟨sig, p', hread, hreads⟩
  · refine Or.inr ⟨fun gone h => ?_, hnone, onlyUses_of_forall huses⟩
    obtain ⟨p₀, sig, hadu', hread, -⟩ := h.read
    cases hadu.symm.trans hadu'
    rw [hcut] at hread
    cases hread
  · by_cases hgoneAdu : ∀ x, sig.bind s.releasedBy = some x →
        search.finds s.toBundleStore x = true → (s.heap x).adu ≠ none
    · obtain ⟨t, ht⟩ := hreads.disposesRecord hset hadu rfl hgoneAdu
      exact Or.inl ⟨_, t, ⟨⟨p, sig, hadu, hread, rfl⟩, hgoneAdu⟩, ht⟩
    · refine Or.inr ⟨fun gone h => hgoneAdu ?_, ?_⟩
      · obtain ⟨p₀, sig₀, hadu', hread', hgone⟩ := h.read
        cases hadu.symm.trans hadu'
        cases hread.symm.trans hread'
        exact hgone ▸ h.adu
      · push Not at hgoneAdu
        obtain ⟨x, hreleased, hfinds, hnone⟩ := hgoneAdu
        exact hreads.stuck hadu hreleased hfinds hnone

/-! ## What comes after the record -/

theorem custodyAccesses_eq (search : SetSearch) (s : BpAgent6) (b q : Ptr) :
    ∃ l, Consumes q l ∧ search.custodyAccesses s b q =
      (if (s.header b).custTxReq = true ∧ (s.header b).isFragment = true then [.use b] else []) ++ l := by
  unfold SetSearch.custodyAccesses
  by_cases hcust : (s.header b).custTxReq = true
  · obtain ⟨l, hl, heq⟩ := search.sendCustodySignalAccesses_eq s b q (s.header b).lifeTime
    refine ⟨l, hl, ?_⟩
    rw [if_pos hcust, heq]
    simp [hcust]
  · exact ⟨[], .nil, by simp [hcust]⟩

theorem clean_custodyAccesses (search : SetSearch) (s : BpAgent6) (b q : Ptr) :
    Clean (search.custodyAccesses s b q) := by
  obtain ⟨l, hl, heq⟩ := custodyAccesses_eq search s b q
  rw [heq]
  refine OnlyUses.append_clean (onlyUses_of_forall (a := b) fun x hx => ?_) hl.clean
  split at hx
  · exact List.mem_singleton.mp hx
  · cases hx

/-- Of other bundles than the new one, the bundle itself is read when it is a fragment. -/
theorem use_mem_custodyAccesses (hx : x ≠ q) : .use x ∈ search.custodyAccesses s b q ↔
    x = b ∧ (s.header b).custTxReq = true ∧ (s.header b).isFragment = true := by
  obtain ⟨l, hl, heq⟩ := custodyAccesses_eq search s b q
  have hl' : .use x ∉ l := fun h => hx (hl.eq_of_mem (Or.inl h))
  rw [heq]
  by_cases hread : (s.header b).custTxReq = true ∧ (s.header b).isFragment = true
  · simp [hread, hl']
  · refine iff_of_false ?_ fun h => hread h.2
    rwa [if_neg hread, List.nil_append]

/-- What `Deliver` does to a bundle after its record. -/
def fallThroughAccesses (search : SetSearch) (logging : Bool) (s : BpAgent6) (b q : Ptr) :
    List (Access Ptr) :=
  search.matchFragmentsAccesses logging s b ++
    andThen (search.matchFragmentsLogged logging s b) fun s => search.custodyAccesses s b q

theorem clean_fallThroughAccesses (search : SetSearch) (logging : Bool) (s : BpAgent6) (b q : Ptr) :
    Clean (fallThroughAccesses search logging s b q) := by
  refine (search.onlyUses_matchFragmentsAccesses logging s b).append_clean ?_
  cases search.matchFragmentsLogged logging s b with
  | none => exact clean_nil
  | some t => exact clean_custodyAccesses search t b q

/-- Matching without an ADU stops at the first bundle. -/
theorem coalesceWith_of_disposed (hnone : (s.heap b).adu = none) (it : Ptr) :
    search.coalesceWith s b it = none := by
  unfold SetSearch.coalesceWith
  rw [hnone]
  cases (s.heap it).adu <;> rfl

/-- The first bundle is measured, then the fragment. -/
theorem use_mem_coalesceWithAccesses (hnone : (s.heap b).adu = none) :
    .use x ∈ search.coalesceWithAccesses logging s b it ↔
      x = it ∨ (x = b ∧ (s.heap it).adu ≠ none) := by
  unfold SetSearch.coalesceWithAccesses
  dsimp only
  cases (s.heap it).adu with
  | none => simp
  | some itAdu =>
    rw [hnone, andThen_some]
    split <;> simp

/-- The four ways of a bundle without an ADU. -/
theorem fallThroughAccesses_cases (search : SetSearch) (logging : Bool) (q : Ptr)
    (hnone : (s.heap b).adu = none) :
    ((s.header b).isFragment = false ∧
      fallThroughAccesses search logging s b q = search.custodyAccesses s b q) ∨
    ((s.header b).isFragment = true ∧
      ((logging = true ∧ fallThroughAccesses search logging s b q = [.use b]) ∨
        (logging = false ∧ s.prevFrags b = [] ∧
          fallThroughAccesses search logging s b q = search.custodyAccesses s b q) ∨
        ∃ it rest, logging = false ∧ s.prevFrags b = it :: rest ∧
          fallThroughAccesses search logging s b q = search.coalesceWithAccesses logging s b it)) := by
  unfold fallThroughAccesses SetSearch.matchFragmentsAccesses SetSearch.matchFragmentsLogged
  by_cases hfrag : (s.header b).isFragment = true
  · refine Or.inr ⟨hfrag, ?_⟩
    rw [if_pos hfrag, if_pos hfrag]
    cases logging with
    | true =>
      refine Or.inl ⟨rfl, ?_⟩
      have hsize : s.sizeLogged true b = none := by simp [sizeLogged, hnone]
      rw [hsize]
      rfl
    | false =>
      have hmatch : search.matchFragments s b = search.coalesce b (s.prevFrags b) s := if_pos hfrag
      have hsize : s.sizeLogged false b = some s := rfl
      rw [hsize, andThen_some, Option.bind_some, hmatch]
      cases s.prevFrags b with
      | nil => exact Or.inr (Or.inl ⟨rfl, rfl, rfl⟩)
      | cons it rest =>
        refine Or.inr (Or.inr ⟨it, rest, rfl, rfl, ?_⟩)
        simp [SetSearch.coalesceAccesses, SetSearch.coalesce, coalesceWith_of_disposed hnone it]
  · refine Or.inl ⟨eq_false_of_ne_true hfrag, ?_⟩
    rw [if_neg hfrag, if_neg hfrag]
    rfl

/-- With the bundles of `gone` disposed of and `left` to match, one of them is read: the size of the
bundle at `b` is printed, or that of the first one of `left` is taken, or compared with that of `b`, or the
size of `b` is taken for the custody signal. -/
def ReadsAgain (logging : Bool) (s : BpAgent6) (b : Ptr) (gone left : List Ptr) : Prop :=
  logging = true ∨ match left with
    | [] => (s.header b).custTxReq = true
    | it :: _ => it ∈ gone ∨ (s.heap it).adu ≠ none

/-- **When a disposed bundle is read again.** -/
theorem exists_use_mem_fallThroughAccesses (search : SetSearch) {gone : List Ptr}
    (hnone : ∀ x ∈ gone, (s.heap x).adu = none) (hb : b ∈ gone) (hq : q ∉ gone) :
    (∃ x ∈ gone, .use x ∈ fallThroughAccesses search logging s b q) ↔
      (s.header b).isFragment = true ∧ ReadsAgain logging s b gone (s.prevFrags b) := by
  have hcustody : (∃ x ∈ gone, .use x ∈ search.custodyAccesses s b q) ↔
      (s.header b).custTxReq = true ∧ (s.header b).isFragment = true := by
    constructor
    · rintro ⟨x, hx, huse⟩
      exact ((use_mem_custodyAccesses (ne_of_mem_of_not_mem hx hq)).mp huse).2
    · intro hread
      exact ⟨b, hb, (use_mem_custodyAccesses (ne_of_mem_of_not_mem hb hq)).mpr ⟨rfl, hread⟩⟩
  unfold ReadsAgain
  rcases fallThroughAccesses_cases search logging q (hnone b hb) with ⟨hwhole, heq⟩ |
    ⟨hfrag, ⟨hlog, heq⟩ | ⟨hlog, hleft, heq⟩ | ⟨it, rest, hlog, hleft, heq⟩⟩
  · rw [heq, hcustody]
    simp [hwhole]
  · rw [heq]
    simp [hfrag, hlog, hb]
  · rw [heq, hcustody, hleft]
    simp [hfrag, hlog]
  · rw [heq, hleft]
    simp only [use_mem_coalesceWithAccesses (hnone b hb), hfrag, hlog, true_and, Bool.false_eq_true,
      false_or]
    constructor
    · rintro ⟨x, hx, rfl | ⟨-, hsome⟩⟩
      · exact Or.inl hx
      · exact Or.inr hsome
    · rintro (hit | hsome)
      · exact ⟨it, hit, Or.inl rfl⟩
      · exact ⟨b, hb, Or.inr ⟨rfl, hsome⟩⟩

/-- The stored bundles of the identity of `b` when those of `gone` have been searched for and erased. -/
def leftFrags (search : SetSearch) (s : BpAgent6) (b : Ptr) (gone : List Ptr) : List Ptr :=
  (gone.foldl (search.erased s.header) s.mStore).filter fun x =>
    BundleStore.Names (s.header x) (s.header b).getSourceEid (s.header b).createTimestamp
      (s.header b).timestampSeqNum

/-- A record for the agent is carried by a fragment and taken to the end, and then a disposed bundle is
read again. -/
def UsesDisposed (search : SetSearch) (logging : Bool) (s : BpAgent6) (b : Ptr) : Prop :=
  s.findRegistration (s.header b).getDestinationEid = some true ∧ s.isForAgent b = true ∧
    (s.header b).isFragment = true ∧ ∃ gone, TakenAsRecord search s b gone ∧
      ReadsAgain logging s b (gone.toList ++ [b]) (leftFrags search s b (gone.toList ++ [b]))

/-- The same before the record and after it. -/
theorem readsAgain_iff {gone : List Ptr} (h : search.Discarded s t gone) :
    ReadsAgain logging t b gone (t.prevFrags b) ↔
      ReadsAgain logging s b gone (leftFrags search s b gone) := by
  have hleft : t.prevFrags b = leftFrags search s b gone := by
    unfold prevFrags BundleStore.getBundles leftFrags
    rw [h.store]
    simp only [h.header]
  unfold ReadsAgain
  rw [hleft]
  cases leftFrags search s b gone with
  | nil => simp [h.header b]
  | cons it rest =>
    by_cases hit : it ∈ gone
    · simp [hit]
    · simp [hit, h.adu it hit]

/-- The log of a record taken to the end, and of what comes after. -/
theorem DisposesRecord.clean_append_iff {gone : Option Ptr} (h : DisposesRecord search s b gone t)
    (htaken : TakenAsRecord search s b gone) (hqb : q ≠ b) (hq : q ∉ s.mStore) :
    Clean (search.processAdminRecordAccesses s b ++ fallThroughAccesses search logging t b q) ↔
      ¬((s.header b).isFragment = true ∧
        ReadsAgain logging s b (gone.toList ++ [b]) (leftFrags search s b (gone.toList ++ [b]))) := by
  have hdisposes : ∀ x, .dispose x ∈ search.processAdminRecordAccesses s b ↔
      x ∈ gone.toList ++ [b] := by
    intro x
    rw [h.disposes x, List.mem_append, Option.mem_toList, List.mem_singleton, or_comm]
  have hq' : q ∉ gone.toList ++ [b] := by
    intro hmem
    rcases List.mem_append.mp hmem with hgone | hself
    · obtain ⟨p, sig, -, -, hsig⟩ := htaken.read
      obtain ⟨cs, -, hreleased⟩ :=
        Option.bind_eq_some_iff.mp (hsig.symm.trans (Option.mem_toList.mp hgone))
      exact hq (mem_of_releasedBy hreleased)
    · exact hqb (List.mem_singleton.mp hself)
  rw [← readsAgain_iff h.discarded, ← h.discarded.header b,
    ← exists_use_mem_fallThroughAccesses search h.discarded.disposed (by simp) hq',
    clean_append]
  constructor
  · rintro ⟨-, -, hnot⟩ ⟨x, hx, huse⟩
    exact hnot x ((hdisposes x).mpr hx) huse
  · intro hnot
    exact ⟨h.clean, clean_fallThroughAccesses search logging t b q,
      fun x hx huse => hnot ⟨x, (hdisposes x).mp hx, huse⟩⟩

/-- **When delivery uses a bundle that it has disposed of**, whichever way the set is searched: exactly when
a fragment for the agent itself is taken as an administrative record to the end and a disposed bundle is
then read again. -/
theorem clean_deliver_iff (search : SetSearch) (hset : s.mStore.Nodup) (hadu : (s.heap b).adu = some p)
    (hne : p.bytes ≠ []) (hqb : q ≠ b) (hq : q ∉ s.mStore) :
    Clean (search.deliverAccesses logging s b q) ↔ ¬UsesDisposed search logging s b := by
  unfold SetSearch.deliverAccesses UsesDisposed
  cases hstate : s.findRegistration (s.header b).getDestinationEid with
  | none => simp [clean_nil]
  | some state =>
    cases state with
    | false => simp [clean_custodyAccesses]
    | true =>
      simp only [if_true]
      by_cases hagent : s.isForAgent b = true
      · have hlogged : ∀ gone, TakenAsRecord search (s.logged b) b gone ↔ TakenAsRecord search s b gone :=
          fun gone => ⟨fun h => ⟨h.read, h.adu⟩, fun h => ⟨h.read, h.adu⟩⟩
        unfold SetSearch.enqueueAccesses SetSearch.enqueueLogged
        rw [if_pos hagent, if_pos hagent]
        rcases processAdminRecord_cases (s := s.logged b) search hset hadu hne with
          ⟨gone, t, htaken, ht⟩ | ⟨hnot, hnone, huses⟩
        · rw [ht.result, andThen_some, Option.bind_some, List.append_assoc]
          refine (ht.clean_append_iff htaken hqb hq).trans (not_congr ?_)
          constructor
          · rintro ⟨hfrag, hreads⟩
            exact ⟨trivial, hagent, hfrag, gone, (hlogged gone).mp htaken, hreads⟩
          · rintro ⟨-, -, hfrag, gone', htaken', hreads⟩
            cases htaken.eq ((hlogged gone').mpr htaken')
            exact ⟨hfrag, hreads⟩
        · rw [hnone]
          refine iff_of_true ?_ ?_
          · simpa using huses.clean
          · rintro ⟨-, -, -, gone, htaken, -⟩
            exact hnot gone ((hlogged gone).mpr htaken)
      · unfold SetSearch.enqueueAccesses
        rw [if_neg hagent]
        refine iff_of_true (OnlyUses.append_clean (search.onlyUses_matchFragmentsAccesses _ _ b) ?_) ?_
        · cases search.enqueueLogged logging s b with
          | none => exact clean_nil
          | some t => exact clean_custodyAccesses search t b q
        · rintro ⟨-, hself, -⟩
          exact hagent hself

/-- There delivery does not return: the null pointer is followed. -/
theorem deliver_of_usesDisposed (hset : s.mStore.Nodup) (hadu : (s.heap b).adu = some p)
    (hne : p.bytes ≠ []) (h : UsesDisposed search false s b) : search.deliver s b q = none := by
  obtain ⟨hstate, hagent, hfrag, gone, htaken, hreads⟩ := h
  have hlogged : TakenAsRecord search (s.logged b) b gone := ⟨htaken.read, htaken.adu⟩
  obtain ⟨t, ht⟩ : ∃ t, DisposesRecord search (s.logged b) b gone t := by
    rcases processAdminRecord_cases (s := s.logged b) search hset hadu hne with
      ⟨gone', t, htaken', ht⟩ | ⟨hnot, -⟩
    · cases htaken'.eq hlogged
      exact ⟨t, ht⟩
    · exact absurd hlogged (hnot gone)
  have hnone : (t.heap b).adu = none := ht.discarded.disposed b (by simp)
  have hfrag' : (t.header b).isFragment = true := by
    rw [ht.discarded.header b]
    exact hfrag
  have hdeliver : search.deliver s b q = (search.coalesce b (t.prevFrags b) t).bind fun u =>
      if (u.header b).custTxReq then search.sendCustodySignal u b q (u.header b).lifeTime
      else some u := by
    have henqueue : search.enqueueIfActive s b true = search.matchFragments t b := by
      have hunfold : search.enqueueIfActive s b true = if s.isForAgent b then
          (search.processAdminRecord (s.logged b) b).bind fun t => search.matchFragments t b
        else search.matchFragments (s.logged b) b := rfl
      rw [hunfold, if_pos hagent, ht.result, Option.bind_some]
    have hmatch : search.matchFragments t b = search.coalesce b (t.prevFrags b) t := if_pos hfrag'
    unfold SetSearch.deliver
    rw [hstate]
    dsimp only
    rw [henqueue, hmatch]
    rfl
  rw [hdeliver]
  rcases (readsAgain_iff ht.discarded).mpr hreads with hlog | hleft
  · cases hlog
  cases hprev : t.prevFrags b with
  | nil =>
    -- the custody signal takes the size of the fragment
    rw [hprev] at hleft
    have hpacket : t.custodySignalPacket b = none := by
      have hlength : t.signalLength b = none := by
        unfold signalLength
        rw [if_pos hfrag', hnone]
        rfl
      unfold custodySignalPacket custodySignalFor
      rw [hlength]
      rfl
    rw [SetSearch.coalesce, Option.bind_some, if_pos hleft]
    unfold SetSearch.sendCustodySignal
    rw [hpacket]
    rfl
  | cons it rest =>
    rw [SetSearch.coalesce, coalesceWith_of_disposed hnone it]
    rfl

end BpAgent6

namespace Sample

theorem readable_record (flags : UInt32) : (header 2 4 flags 0 3).Readable :=
  Or.inr (show ∀ o ∈ ([0, 4, 0, 2, 0, 2, 0, 2] : List UInt16), o.toNat ≤ 8 by simp)

/-- Three bytes whose flags announce no signal, from `d:a` to `d:b`. -/
def record (flags : UInt32) : ReceivedBundle :=
  received (header 2 4 flags 0 3) (readable_record flags) threeBytes.bytes threeBytes.size_lt

end Sample

namespace BpAgent6

/-- A whole bundle that requests custody. -/
theorem clean_deliver_iff_sample :
    ∃ u, (Sample.agent 10 true).acceptBundle 1 (Sample.record 8) = some u ∧
      Clean (SetSearch.fromFront.deliverAccesses true u 1 2) := by
  have haccept : (Sample.agent 10 true).acceptBundle 1 (Sample.record 8) = some _ :=
    acceptBundle_of_lifeTime rfl List.Pairwise.nil
  refine ⟨_, haccept, (clean_deliver_iff SetSearch.fromFront (by decide +kernel)
    (adu_acceptBundle haccept) (List.cons_ne_nil _ _) (by decide) (by decide +kernel)).mpr ?_⟩
  rintro ⟨-, -, hfrag, -⟩
  rw [header_acceptBundle haccept] at hfrag
  revert hfrag
  decide +kernel

/-- A fragment that requests custody: the signal takes the size of the disposed bundle. -/
theorem not_clean_deliver :
    ∃ u, (Sample.agent 10 true).acceptBundle 1 (Sample.record 9) = some u ∧
      (u.heap 1).adu = some (Sample.record 9).adu ∧
      ¬Clean (SetSearch.fromFront.deliverAccesses false u 1 2) := by
  have haccept : (Sample.agent 10 true).acceptBundle 1 (Sample.record 9) = some _ :=
    acceptBundle_of_lifeTime rfl List.Pairwise.nil
  exact ⟨_, haccept, adu_acceptBundle haccept, by decide +kernel⟩

end BpAgent6
end BundleProtocol
