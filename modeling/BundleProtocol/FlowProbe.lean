import BundleProtocol.FlowClassifier
import BundleProtocol.FlowProbeTag
import BundleProtocol.TransitionSystem

/-! # What the flow probes report

The probes at the agents of a network share one classifier and one flow monitor.  An ADU that is sent
and has no tag is classified, reported as a first transmission and tagged with the ids that it got;
every later report about it takes the ids from its tag.  In between a tag goes where the bytes
go that carry it, and may be lost: whichever packets have which tags, the reports
are consistent (`consistent_reports`).  A run ends where a tag is read that `Deserialize` cannot
read (see `FlowProbeTag`).
-/
namespace BundleProtocol
open FixedBuffer ByteParser TransitionSystem

/-- The calls of the flow monitor. -/
inductive ReportKind
  | firstTx
  | forwarding
  | lastRx
  | drop (reason : ℤ)
deriving DecidableEq

/-- One call, by the probe at a node. -/
structure Report where
  kind : ReportKind
  probe : ℕ
  flowId : UInt32
  packetId : UInt32
  packetSize : UInt32
deriving DecidableEq

namespace Report

/-- What the monitor tells packets apart by. -/
def ids (r : Report) : UInt32 × UInt32 := (r.flowId, r.packetId)

def isFirst (r : Report) : Bool := r.kind = .firstTx

end Report

/-- The bundle that is handed to a trace: what is read from it, the packet that is its ADU, and the size of
that. -/
structure Traced where
  bundle : Bundle
  adu : Ptr
  size : UInt32

/-- The probes of a network: the classifier, the first flow tag on each packet, as it was serialized, and
the calls of the monitor so far. -/
structure FlowProbes where
  classifier : BpFlowClassifier
  tags : Ptr → Option (List UInt8)
  reports : List Report

/-- What happens at the probes and to the packets. -/
inductive ProbeEvent
  | send (probe : ℕ) (b : Traced)
  | forward (probe : ℕ) (b : Traced)
  | deliver (probe : ℕ) (b : Traced)
  | drop (probe : ℕ) (b : Traced) (reason : ℤ)
  /-- The packet `x` is made of one that has this tag in front. -/
  | carry (x y : Ptr)
  /-- The packet `x` is made of bytes without a tag. -/
  | strip (x : Ptr)

namespace FlowProbes

-- how tags are laid out, and what successive calls of `GetNewFlowId` return
variable (buffer : TagBuffer) (getNewFlowId : ℕ → UInt32)

/-- `Packet::FindFirstMatchingByteTag`, with what goes wrong in `Deserialize`. -/
def findFirstMatchingByteTag (s : FlowProbes) (x : Ptr) : Option (Option BpFlowProbeTag) :=
  match s.tags x with
  | none => some none
  | some bytes =>
    match BpFlowProbeTag.deserialize buffer bytes with
    | .ok (fTag, _) => some (some fTag)
    | .error _ => none

/-- `BpFlowProbe::SendLogger`. -/
def sendLogger (s : FlowProbes) (probe : ℕ) (b : Traced) : Option FlowProbes := do
  match ← s.findFirstMatchingByteTag buffer b.adu with
  | some _ => some s
  | none =>
    let (classifier, out) := s.classifier.classify getNewFlowId b.bundle
    if out.result then
      let fTag : BpFlowProbeTag :=
        ⟨out.outFlowId, out.outPacketId, b.size, b.bundle.flowId.srcEid, b.bundle.flowId.dstEid⟩
      some
        { classifier := classifier
          tags := Function.update s.tags b.adu (some (fTag.serialize buffer))
          reports := s.reports ++ [⟨.firstTx, probe, out.outFlowId, out.outPacketId, b.size⟩] }
    else some { s with classifier := classifier }

/-- What the other loggers do: a report with the ids of the tag, if there is one. -/
def tagLogger (s : FlowProbes) (kind : ReportKind) (size : BpFlowProbeTag → UInt32) (probe : ℕ)
    (b : Traced) : Option FlowProbes := do
  match ← s.findFirstMatchingByteTag buffer b.adu with
  | none => some s
  | some fTag =>
    some { s with reports := s.reports ++ [⟨kind, probe, fTag.flowId, fTag.packetId, size fTag⟩] }

/-- `BpFlowProbe::ForwardLogger`. -/
def forwardLogger (s : FlowProbes) (probe : ℕ) (b : Traced) : Option FlowProbes :=
  s.tagLogger buffer .forwarding (fun _ => b.size) probe b

/-- `BpFlowProbe::DeliverLogger`. -/
def deliverLogger (s : FlowProbes) (probe : ℕ) (b : Traced) : Option FlowProbes :=
  s.tagLogger buffer .lastRx (fun _ => b.size) probe b

/-- `BpFlowProbe::DropLogger`. -/
def dropLogger (s : FlowProbes) (probe : ℕ) (b : Traced) (reason : ℤ) : Option FlowProbes :=
  s.tagLogger buffer (.drop reason) (fun fTag => fTag.packetSize) probe b

/-- The effect of an event. -/
def step : ProbeEvent → FlowProbes → Option FlowProbes
  | .send probe b, s => s.sendLogger buffer getNewFlowId probe b
  | .forward probe b, s => s.forwardLogger buffer probe b
  | .deliver probe b, s => s.deliverLogger buffer probe b
  | .drop probe b reason, s => s.dropLogger buffer probe b reason
  | .carry x y, s => some { s with tags := Function.update s.tags x (s.tags y) }
  | .strip x, s => some { s with tags := Function.update s.tags x none }

/-- Probes that have not reported anything, on packets without tags. -/
def new : FlowProbes := ⟨.new, fun _ => none, []⟩

/-- Events may come in any order. -/
def Unguarded (_ : FlowProbes) (_ : ProbeEvent) : Prop := True

instance (s : FlowProbes) (e : ProbeEvent) : Decidable (Unguarded s e) := isTrue trivial

/-! ## Consistent reports -/

/-- The first transmissions are of different packets, numbered from zero in each flow; any other report
is about a packet whose first transmission has been reported before, a drop with the same size. -/
structure Consistent (reports : List Report) : Prop where
  distinct : ((reports.filter Report.isFirst).map Report.ids).Nodup
  numbered : ∀ before r after, reports = before ++ r :: after → r.isFirst = true →
    r.packetId.toNat = before.countP fun e => e.isFirst && e.flowId == r.flowId
  backed : ∀ before r after, reports = before ++ r :: after → r.isFirst = false →
    ∃ first ∈ before, first.isFirst = true ∧ first.ids = r.ids ∧
      ∀ reason, r.kind = .drop reason → r.packetSize = first.packetSize

/-- The tag was made for this first transmission. -/
structure MadeFor (fTag : BpFlowProbeTag) (r : Report) : Prop where
  isFirst : r.isFirst = true
  ids : r.ids = (fTag.flowId, fTag.packetId)
  packetSize : r.packetSize = fTag.packetSize

/-- What is known of the probes when `bundles` have been classified. -/
structure Accounted (s : FlowProbes) (bundles : List Bundle) : Prop where
  classifier : (BpFlowClassifier.classifyAll getNewFlowId bundles).1 = s.classifier
  firsts : (s.reports.filter Report.isFirst).map Report.ids =
    (BpFlowClassifier.classifyAll getNewFlowId bundles).2.map fun out => (out.outFlowId, out.outPacketId)
  tagged : ∀ x bytes, s.tags x = some bytes →
    ∃ fTag, bytes = fTag.serialize buffer ∧ ∃ r ∈ s.reports, MadeFor fTag r
  backed : ∀ before r after, s.reports = before ++ r :: after → r.isFirst = false →
    ∃ first ∈ before, first.isFirst = true ∧ first.ids = r.ids ∧
      ∀ reason, r.kind = .drop reason → r.packetSize = first.packetSize

variable {buffer getNewFlowId} {s t : FlowProbes} {x : Ptr} {bundles : List Bundle}
  {fTag fTag' : BpFlowProbeTag} {rest : List UInt8}

/-! ## Tags -/

/-- Whatever becomes of the endpoint ids, the numbers of a tag come back. -/
theorem numbers_of_deserialize
    (h : BpFlowProbeTag.deserialize buffer (fTag.serialize buffer) = .ok (fTag', rest)) :
    fTag'.flowId = fTag.flowId ∧ fTag'.packetId = fTag.packetId ∧
      fTag'.packetSize = fTag.packetSize := by
  unfold BpFlowProbeTag.deserialize BpFlowProbeTag.serialize at h
  rw [(BpFlowProbeTag.takes_readU32 fTag.flowId).bind_apply,
    (BpFlowProbeTag.takes_readU32 fTag.packetId).bind_apply,
    (BpFlowProbeTag.takes_readU32 fTag.packetSize).bind_apply] at h
  obtain ⟨src, ys, -, h⟩ := bind_eq_ok h
  obtain ⟨dst, zs, -, h⟩ := bind_eq_ok h
  cases h
  exact ⟨rfl, rfl, rfl⟩

/-- **What is found is a tag that was made**, as far as its numbers go. -/
theorem Accounted.found (h : Accounted buffer getNewFlowId s bundles)
    (hfind : s.findFirstMatchingByteTag buffer x = some (some fTag)) :
    ∃ r ∈ s.reports, MadeFor fTag r := by
  unfold findFirstMatchingByteTag at hfind
  split at hfind
  · cases hfind
  rename_i bytes hbytes
  split at hfind
  · rename_i fTag' rest hread
    cases hfind
    obtain ⟨made, rfl, r, hr, hmade⟩ := h.tagged x bytes hbytes
    obtain ⟨hflow, hpacket, hsize⟩ := numbers_of_deserialize hread
    refine ⟨r, hr, hmade.isFirst, ?_, ?_⟩
    · rw [hmade.ids, hflow, hpacket]
    · rw [hmade.packetSize, hsize]
  · cases hfind

/-! ## One event -/

/-- A report of a log with one more at its end. -/
theorem split_concat {reports before after : List Report} {r r' : Report}
    (h : reports ++ [r'] = before ++ r :: after) :
    after = [] ∧ reports = before ∧ r' = r ∨ ∃ after', reports = before ++ r :: after' := by
  rcases List.eq_nil_or_concat after with rfl | ⟨after', y, rfl⟩
  · obtain ⟨hbefore, hlast⟩ := List.append_inj' h rfl
    exact Or.inl ⟨rfl, hbefore, (List.cons_eq_cons.mp hlast).1⟩
  · rw [List.concat_eq_append, ← List.cons_append, ← List.append_assoc] at h
    exact Or.inr ⟨after', (List.append_inj' h rfl).1⟩

/-- The packets change their tags for others. -/
theorem Accounted.retagged (h : Accounted buffer getNewFlowId s bundles)
    {tags : Ptr → Option (List UInt8)}
    (htags : ∀ x bytes, tags x = some bytes → ∃ y, s.tags y = some bytes) :
    Accounted buffer getNewFlowId { s with tags := tags } bundles where
  classifier := h.classifier
  firsts := h.firsts
  tagged x bytes hbytes := by
    obtain ⟨y, hy⟩ := htags x bytes hbytes
    exact h.tagged y bytes hy
  backed := h.backed

/-- **A report with the ids of a tag.** -/
theorem Accounted.tagLogger (h : Accounted buffer getNewFlowId s bundles) {kind : ReportKind}
    {size : BpFlowProbeTag → UInt32} {probe : ℕ} {b : Traced} (hkind : kind ≠ .firstTx)
    (hsize : ∀ reason, kind = .drop reason → ∀ fTag, size fTag = fTag.packetSize)
    (hrun : s.tagLogger buffer kind size probe b = some t) :
    Accounted buffer getNewFlowId t bundles := by
  obtain ⟨found, hfind, hrun⟩ := Option.bind_eq_some_iff.mp hrun
  cases found with
  | none =>
    cases hrun
    exact h
  | some fTag =>
    cases hrun
    have hnot : (Report.isFirst ⟨kind, probe, fTag.flowId, fTag.packetId, size fTag⟩) = false :=
      decide_eq_false hkind
    refine ⟨h.classifier, ?_, fun x bytes hbytes => ?_, fun before r after hsplit hr => ?_⟩
    · rw [List.filter_append, List.filter_singleton, hnot, cond_false, List.append_nil]
      exact h.firsts
    · obtain ⟨made, hmade, r, hr, hfor⟩ := h.tagged x bytes hbytes
      exact ⟨made, hmade, r, List.mem_append_left _ hr, hfor⟩
    · rcases split_concat hsplit with ⟨-, rfl, rfl⟩ | ⟨after', hold⟩
      · obtain ⟨first, hmem, hfor⟩ := h.found hfind
        refine ⟨first, hmem, hfor.isFirst, hfor.ids, fun reason hdrop => ?_⟩
        rw [hfor.packetSize]
        exact hsize reason hdrop fTag
      · exact h.backed before r after' hold hr

/-- One more bundle is classified. -/
theorem classifyAll_concat (getNewFlowId : ℕ → UInt32) (bundles : List Bundle) (bundle : Bundle) :
    BpFlowClassifier.classifyAll getNewFlowId (bundles ++ [bundle]) =
      ((BpFlowClassifier.classifyAll getNewFlowId bundles).1.classify getNewFlowId bundle |>.1,
        (BpFlowClassifier.classifyAll getNewFlowId bundles).2 ++
          [((BpFlowClassifier.classifyAll getNewFlowId bundles).1.classify getNewFlowId bundle).2]) :=
  List.foldl_concat ..

/-- **The first transmission of a packet.** -/
theorem Accounted.sendLogger (h : Accounted buffer getNewFlowId s bundles) {probe : ℕ} {b : Traced}
    (hrun : s.sendLogger buffer getNewFlowId probe b = some t) :
    ∃ bundles', Accounted buffer getNewFlowId t bundles' := by
  obtain ⟨found, -, hrun⟩ := Option.bind_eq_some_iff.mp hrun
  cases found with
  | some fTag =>
    cases hrun
    exact ⟨bundles, h⟩
  | none =>
    refine ⟨bundles ++ [b.bundle], ?_⟩
    have hclassify := classifyAll_concat getNewFlowId bundles b.bundle
    rw [h.classifier] at hclassify
    generalize hout : s.classifier.classify getNewFlowId b.bundle = r at hclassify
    have hresult : r.2.result = true := by
      rw [← hout]
      rfl
    dsimp only at hrun
    rw [hout, if_pos hresult] at hrun
    cases hrun
    have hfirst : ∀ size, Report.isFirst ⟨.firstTx, probe, r.2.outFlowId, r.2.outPacketId, size⟩ = true :=
      fun _ => rfl
    refine ⟨by rw [hclassify], ?_, fun x bytes hbytes => ?_, fun before r' after hsplit hr => ?_⟩
    · rw [List.filter_append, List.filter_singleton, hfirst, cond_true, List.map_append, h.firsts,
        hclassify, List.map_append]
      rfl
    · -- the new tag is on this packet
      dsimp only at hbytes
      by_cases hx : x = b.adu
      · subst hx
        rw [Function.update_self] at hbytes
        cases hbytes
        exact ⟨_, rfl, _, List.mem_append_right _ (List.mem_singleton_self _), hfirst _, rfl, rfl⟩
      · rw [Function.update_of_ne hx] at hbytes
        obtain ⟨made, hmade, r', hr', hfor⟩ := h.tagged x bytes hbytes
        exact ⟨made, hmade, r', List.mem_append_left _ hr', hfor⟩
    · rcases split_concat hsplit with ⟨-, -, rfl⟩ | ⟨after', hold⟩
      · rw [hfirst] at hr
        cases hr
      · exact h.backed before r' after' hold hr

/-- **Any event.** -/
theorem Accounted.step (h : Accounted buffer getNewFlowId s bundles) {e : ProbeEvent}
    (hrun : step buffer getNewFlowId e s = some t) :
    ∃ bundles', Accounted buffer getNewFlowId t bundles' := by
  cases e with
  | send probe b => exact h.sendLogger hrun
  | forward probe b =>
    exact ⟨bundles, h.tagLogger (by decide) (fun reason hdrop => by cases hdrop) hrun⟩
  | deliver probe b =>
    exact ⟨bundles, h.tagLogger (by decide) (fun reason hdrop => by cases hdrop) hrun⟩
  | drop probe b reason =>
    exact ⟨bundles, h.tagLogger (fun hkind => by cases hkind) (fun _ _ _ => rfl) hrun⟩
  | carry x y =>
    cases hrun
    refine ⟨bundles, h.retagged fun z bytes hz => ?_⟩
    by_cases hzx : z = x
    · subst hzx
      rw [Function.update_self] at hz
      exact ⟨y, hz⟩
    · rw [Function.update_of_ne hzx] at hz
      exact ⟨z, hz⟩
  | strip x =>
    cases hrun
    refine ⟨bundles, h.retagged fun z bytes hz => ?_⟩
    by_cases hzx : z = x
    · subst hzx
      rw [Function.update_self] at hz
      cases hz
    · rw [Function.update_of_ne hzx] at hz
      exact ⟨z, hz⟩

theorem accounted_new (buffer : TagBuffer) (getNewFlowId : ℕ → UInt32) :
    Accounted buffer getNewFlowId new [] where
  classifier := rfl
  firsts := rfl
  tagged x bytes h := by cases h
  backed before r after h := by
    cases before with
    | nil => cases h
    | cons _ _ => cases h

/-! ## Every run -/

/-- The packet ids of a flow count the earlier calls that handed out its flow id. -/
theorem packetId_of_numbers {flows : List BpFlowId} {c : BpFlowClassifier}
    {outs before after : List Classification} {out : Classification}
    (h : BpFlowClassifier.Numbers getNewFlowId flows c outs) (hcalls : flows.length < 2 ^ 32)
    (houts : outs = before ++ out :: after) :
    out.outPacketId.toNat = before.countP fun o => o.outFlowId == out.outFlowId := by
  have hk : before.length < flows.length := by
    rw [← h.length, houts, List.length_append, List.length_cons]
    omega
  have hout : outs[before.length]? = some out := by
    rw [houts, List.getElem?_append_right (Nat.le_refl _), Nat.sub_self, List.getElem?_cons_zero]
  have hbefore : outs.take before.length = before := by rw [houts, List.take_left]
  have hflow := List.getElem?_eq_getElem hk
  -- call by call
  have hcount : ∀ n ≤ before.length, BpFlowClassifier.callsOf flows[before.length] (flows.take n) =
      (outs.take n).countP fun o => o.outFlowId == out.outFlowId := by
    intro n hn
    induction n with
    | zero => rfl
    | succ n ih =>
      have hn' : n < flows.length := by omega
      have hn'' : n < outs.length := h.length.symm ▸ hn'
      have hsame := h.outFlowId hflow (List.getElem?_eq_getElem hn') hout (List.getElem?_eq_getElem hn'')
      rw [List.take_add_one, List.take_add_one, List.getElem?_eq_getElem hn',
        List.getElem?_eq_getElem hn'', Option.toList_some, Option.toList_some,
        BpFlowClassifier.callsOf_concat, ih (Nat.le_of_succ_le hn), List.countP_append,
        List.countP_singleton]
      congr 1
      refine if_congr ?_ rfl rfl
      rw [← hsame, beq_iff_eq]
      exact eq_comm
  rw [h.outPacketId hcalls hflow hout, hcount _ (Nat.le_refl _), hbefore]

theorem length_classifyAll (bundles : List Bundle) :
    (BpFlowClassifier.classifyAll getNewFlowId bundles).2.length = bundles.length := by
  induction bundles using List.reverseRecOn with
  | nil => rfl
  | append_singleton bundles bundle ih =>
    rw [classifyAll_concat, List.length_append, ih, List.length_append]
    rfl

/-- Each first transmission is one call of `Classify`. -/
theorem Accounted.length (h : Accounted buffer getNewFlowId s bundles) :
    s.reports.countP Report.isFirst = bundles.length := by
  have hlength := congrArg List.length h.firsts
  rw [List.length_map, List.length_map, length_classifyAll] at hlength
  rw [List.countP_eq_length_filter, hlength]

/-- What a first transmission is numbered with. -/
theorem Accounted.numbered (h : Accounted buffer getNewFlowId s bundles)
    (hnumbers : BpFlowClassifier.Numbers getNewFlowId (bundles.map Bundle.flowId) s.classifier
      (BpFlowClassifier.classifyAll getNewFlowId bundles).2)
    (hcalls : bundles.length < 2 ^ 32) {before after : List Report} {r : Report}
    (hsplit : s.reports = before ++ r :: after) (hr : r.isFirst = true) :
    r.packetId.toNat = before.countP fun e => e.isFirst && e.flowId == r.flowId := by
  have hfirsts := h.firsts
  rw [hsplit, List.filter_append, List.filter_cons_of_pos hr, List.map_append, List.map_cons] at hfirsts
  obtain ⟨outs, outs', houts, hbefore, hrest⟩ := List.map_eq_append_iff.mp hfirsts.symm
  obtain ⟨out, outs'', rfl, hout, -⟩ := List.map_eq_cons_iff.mp hrest
  obtain ⟨hflow, hpacket⟩ := Prod.mk.inj hout
  have hnumber := packetId_of_numbers hnumbers (by rwa [List.length_map]) houts
  rw [hpacket, hflow] at hnumber
  rw [hnumber]
  -- the earlier calls are the earlier first transmissions
  calc outs.countP (fun o => o.outFlowId == r.flowId)
      = (outs.map fun out => (out.outFlowId, out.outPacketId)).countP fun ids => ids.1 == r.flowId := by
        rw [List.countP_map]
        rfl
    _ = (before.filter Report.isFirst).countP fun e => e.flowId == r.flowId := by
        rw [hbefore, List.countP_map]
        rfl
    _ = before.countP fun e => e.isFirst && e.flowId == r.flowId := by
        rw [List.countP_filter]
        exact List.countP_congr fun e _ => by rw [Bool.and_comm]

/-- **The reports of the probes are consistent**, whatever happens at the agents and to the packets. -/
theorem consistent_reports {events : List ProbeEvent}
    (hrun : Run Unguarded (step buffer getNewFlowId) new events t)
    (hcalls : t.reports.countP Report.isFirst < 2 ^ 32)
    (hfresh : ∀ i < t.reports.countP Report.isFirst, ∀ j < t.reports.countP Report.isFirst,
      getNewFlowId i = getNewFlowId j → i = j) : Consistent t.reports := by
  obtain ⟨bundles, h⟩ : ∃ bundles, Accounted buffer getNewFlowId t bundles := by
    refine hrun.invariant (fun s => ∃ bundles, Accounted buffer getNewFlowId s bundles) ?_
      ⟨[], accounted_new buffer getNewFlowId⟩
    rintro s e t ⟨bundles, hs⟩ - hstep
    exact hs.step hstep
  rw [h.length] at hcalls hfresh
  have hnumbers := BpFlowClassifier.numbers_classifyAll bundles hfresh
  rw [h.classifier] at hnumbers
  refine ⟨?_, fun before r after hsplit hr => h.numbered hnumbers hcalls hsplit hr, h.backed⟩
  rw [h.firsts]
  exact hnumbers.nodup (by rwa [List.length_map])

/-- Two packets of one flow: they are sent, one is copied and the copy forwarded, and the other dropped. -/
theorem consistent_reports_sample :
    ∃ t, Run Unguarded (step BpFlowProbeTag.littleEndian fun i => UInt32.ofNat (i + 1)) new
        [.send 0 ⟨.six Sample.blank, 1, 3⟩, .send 0 ⟨.six Sample.blank, 2, 5⟩, .carry 3 1,
          .forward 1 ⟨.six Sample.blank, 3, 3⟩, .drop 1 ⟨.six Sample.blank, 2, 4⟩ 0] t ∧
      t.reports.map (fun r => (r.ids, r.packetSize)) =
        [((1, 0), 3), ((1, 1), 5), ((1, 0), 3), ((1, 1), 5)] ∧ Consistent t.reports := by
  obtain ⟨t, hrun, htest⟩ := exists_run_of_exec Unguarded
    (step BpFlowProbeTag.littleEndian fun i => UInt32.ofNat (i + 1)) new
    [.send 0 ⟨.six Sample.blank, 1, 3⟩, .send 0 ⟨.six Sample.blank, 2, 5⟩, .carry 3 1,
      .forward 1 ⟨.six Sample.blank, 3, 3⟩, .drop 1 ⟨.six Sample.blank, 2, 4⟩ 0]
    (fun t => decide (t.reports.map (fun r => (r.ids, r.packetSize)) =
      [((1, 0), 3), ((1, 1), 5), ((1, 0), 3), ((1, 1), 5)] ∧ t.reports.countP Report.isFirst = 2))
    (by decide +kernel)
  obtain ⟨hreports, hcount⟩ := of_decide_eq_true htest
  refine ⟨t, hrun, hreports, consistent_reports hrun ?_ ?_⟩
  · rw [hcount]
    decide
  · rw [hcount]
    decide

end FlowProbes
end BundleProtocol
