import BundleProtocol.Dictionary
import BundleProtocol.EidRoles
import BundleProtocol.StringTable
import BundleProtocol.TransitionSystem

/-! # The last endpoint id set for each role

Without CBHE the four setters of a header append to one dictionary, and none removes anything.  To
its callers the header is still four independent variables (`Written`): each getter shows what was
last set for its role, whatever was set for the others before and after, and however often the header
went over the wire in between (`lastWriter_wins`).  The dictionary is a table of strings, and the two
numbers of each role that was set name its scheme and its ssp there (`Keeps`).
-/
namespace BundleProtocol
open TransitionSystem StringTable BpEndpointId

/-! ## The header and the four variables -/

/-- A call that sets an endpoint id, or the way over the wire into another header, in front of some
trailing bytes. -/
inductive EidOp
  | set (role : EidRole) (eid : BpEndpointId)
  | wire (other : BpHeader6) (rest : List UInt8)

/-- What was last set for each role, if anything was. -/
abbrev Written := EidRole → Option BpEndpointId

namespace EidOp

/-- What the call does to the header. -/
def step : EidOp → BpHeader6 → Option BpHeader6
  | .set role eid, h => h.setEid role eid
  | .wire other rest, h => (other.deserialize (h.serialize ++ rest)).map Prod.fst

/-- What it does to the four variables. -/
def write (w : Written) : EidOp → Written
  | .set role eid => Function.update w role (some eid)
  | .wire _ _ => w

/-- The dictionary stays at most 65535 bytes, and the other header does not use CBHE either. -/
inductive Allowed (h : BpHeader6) : EidOp → Prop
  | set {role eid scheme ssp} (hmade : MadeOf eid scheme ssp)
      (hfits : h.dictionary.length + (dictionaryEntry scheme ssp).length ≤ 65535) :
      Allowed h (.set role eid)
  | wire {other rest} (hcbhe : other.cbhe = false) (hfits : h.dictionary.length ≤ 65535) :
      Allowed h (.wire other rest)

end EidOp

namespace BpHeader6
variable {h h' : BpHeader6} {w : Written} {role : EidRole} {eid : BpEndpointId}

/-- The two numbers of `role` name the parts of `eid` in the dictionary. -/
def Names (h : BpHeader6) (role : EidRole) (eid : BpEndpointId) : Prop :=
  ∃ scheme ssp, MadeOf eid scheme ssp ∧
    StandsAt 0 h.dictionary (h.schemeOffset role).toNat scheme ∧
    StandsAt 0 h.dictionary (h.sspOffset role).toNat ssp

/-- The header keeps what was last set for each role. -/
structure Keeps (h : BpHeader6) (w : Written) : Prop where
  cbhe : h.cbhe = false
  names : ∀ role eid, w role = some eid → h.Names role eid

/-- What is named is shown. -/
theorem Names.shows (hnames : h.Names role eid) (hcbhe : h.cbhe = false) :
    h.Shows (h.schemeOffset role) (h.sspOffset role) ∧ (h.getEid role == eid) = true := by
  obtain ⟨scheme, ssp, hmade, hscheme, hssp⟩ := hnames
  have hscheme_lt := hscheme.add_length_lt
  have hssp_lt := hssp.add_length_lt
  refine ⟨Or.inr ⟨by omega, by omega⟩, ?_⟩
  have hplain := hmade.plain
  have hreadScheme : cStr (h.dictionary.drop (h.schemeOffset role).toNat) = scheme :=
    hscheme.takeWhile_drop hplain.nul_scheme
  have hreadSsp : cStr (h.dictionary.drop (h.sspOffset role).toNat) = ssp :=
    hssp.takeWhile_drop hplain.nul_ssp
  rw [beq_iff, getEid_eq_eidAt, eidAt, hcbhe, if_neg Bool.false_ne_true, hreadScheme, hreadSsp,
    hmade.uri_eq]
  rfl

/-- What a setter of a plain endpoint id does without CBHE. -/
theorem setEid_eq (hcbhe : h.cbhe = false) {scheme ssp : List UInt8} (hmade : MadeOf eid scheme ssp)
    (role : EidRole) : h.setEid role eid = some (h.putEid role (UInt16.ofNat h.dictionary.length)
      (UInt16.ofNat (h.dictionary.length + scheme.length + 1))
      (h.dictionary ++ dictionaryEntry scheme ssp)) := by
  obtain ⟨hscheme, hssp⟩ := hmade.parts
  have hplace : h.placeEid eid = some (_, _, _) :=
    (placeEid_eq_some hcbhe).mpr ⟨scheme, ssp, hscheme, hssp, rfl, rfl, rfl⟩
  rw [setEid_eq_map, hplace]
  rfl

/-- One call. -/
theorem Keeps.step {op : EidOp} (hkeeps : h.Keeps w) (hallowed : op.Allowed h) :
    ∃ h', op.step h = some h' ∧ h'.Keeps (op.write w) := by
  cases hallowed with
  | @set role eid scheme ssp hmade hfits =>
    refine ⟨_, setEid_eq hkeeps.cbhe hmade role, by simpa using hkeeps.cbhe, fun r e hwritten => ?_⟩
    have hentry : (dictionaryEntry scheme ssp).length = scheme.length + 1 + (ssp.length + 1) := by
      simp only [dictionaryEntry, List.length_append, List.length_cons, List.length_nil]
      omega
    by_cases hr : r = role
    · -- the parts that were just appended
      subst hr
      obtain rfl : eid = e := by simpa [EidOp.write] using hwritten
      refine ⟨scheme, ssp, hmade, ?_, ?_⟩
      · rw [dictionary_putEid, schemeOffset_putEid, if_pos rfl, UInt16.toNat_ofNat_of_lt' (by
          rw [UInt16.size]
          omega)]
        have hstands : StandsAt 0 (h.dictionary ++ (scheme ++ 0 :: (ssp ++ [0]))) h.dictionary.length
            scheme := standsAt_length _ _ _
        simpa [dictionaryEntry] using hstands
      · rw [dictionary_putEid, sspOffset_putEid, if_pos rfl, UInt16.toNat_ofNat_of_lt' (by
          rw [UInt16.size]
          omega)]
        have hstands : StandsAt 0 (h.dictionary ++ scheme ++ [0] ++ (ssp ++ 0 :: []))
            (h.dictionary ++ scheme ++ [0]).length ssp := standsAt_length _ _ _
        simpa [dictionaryEntry, Nat.add_assoc] using hstands
    · -- the other strings stay where they are
      have hbefore : w r = some e := by
        rw [← hwritten]
        exact (Function.update_of_ne hr _ _).symm
      obtain ⟨scheme', ssp', hmade', hscheme', hssp'⟩ := hkeeps.names r e hbefore
      refine ⟨scheme', ssp', hmade', ?_, ?_⟩
      · rw [dictionary_putEid, schemeOffset_putEid, if_neg hr]
        exact hscheme'.append _
      · rw [dictionary_putEid, sspOffset_putEid, if_neg hr]
        exact hssp'.append _
  | @wire other rest hcbhe hfits =>
    -- the dictionary and the offsets arrive as they are
    have hread := h.reads_onWire other (Nat.lt_of_le_of_lt hfits (by decide)) rest
    refine ⟨h.onWire other.cbhe, ?_, hcbhe, fun r e hwritten => ?_⟩
    · show (other.deserialize (h.serialize ++ rest)).map Prod.fst = some (h.onWire other.cbhe)
      rw [hread]
      rfl
    · obtain ⟨scheme, ssp, hmade, hscheme, hssp⟩ := hkeeps.names r e hwritten
      refine ⟨scheme, ssp, hmade, ?_, ?_⟩
      · rw [schemeOffset_onWire]
        exact hscheme
      · rw [sspOffset_onWire]
        exact hssp

/-- **Each getter shows what was last set for its role**, after any calls of the setters and any ways
over the wire, and the next permitted call returns. -/
theorem lastWriter_wins {ops : List EidOp} (hcbhe : h.cbhe = false)
    (hrun : Run EidOp.Allowed EidOp.step h ops h') :
    (∀ role eid, ops.foldl EidOp.write (fun _ => none) role = some eid →
      h'.Shows (h'.schemeOffset role) (h'.sspOffset role) ∧ (h'.getEid role == eid) = true) ∧
    ∀ op, EidOp.Allowed h' op → ∃ next, op.step h' = some next := by
  have hstart : h.Keeps fun _ => none := by
    refine ⟨hcbhe, fun role eid hwritten => ?_⟩
    cases hwritten
  have hend : h'.Keeps (ops.foldl EidOp.write fun _ => none) := by
    refine hrun.simulates Keeps EidOp.write (fun s op t w hkeeps hallowed hstep => ?_) hstart
    obtain ⟨t', hstep', hkeeps'⟩ := hkeeps.step hallowed
    rw [hstep] at hstep'
    cases hstep'
    exact hkeeps'
  refine ⟨fun role eid hwritten => (hend.names role eid hwritten).shows hend.cbhe,
    fun op hallowed => ?_⟩
  obtain ⟨next, hstep, -⟩ := hend.step hallowed
  exact ⟨next, hstep⟩

/-- The destination is set to `dtn:a`, the source to `dtn:b`, and after the way over the wire the
destination to `dtn:c`. -/
def resetOps : List EidOp :=
  [.set .destination (.ofUri (dtnScheme ++ colon :: [97])),
    .set .source (.ofComponents dtnScheme [98]), .wire (new false) [7],
    .set .destination (.ofComponents dtnScheme [99])]

theorem lastWriter_wins_sample :
    ∃ h, Run EidOp.Allowed EidOp.step (new false) resetOps h ∧
      (h.getEid .destination == ofComponents dtnScheme [99]) = true ∧
      (h.getEid .source == ofComponents dtnScheme [98]) = true := by
  have hplain : ∀ c : UInt8, c ≠ 0 → PlainParts dtnScheme [c] := fun c hc =>
    ⟨by decide, by simp, by decide, by simp, by decide, by decide, by simpa using hc.symm⟩
  have hrun : ∃ h, Run EidOp.Allowed EidOp.step (new false) resetOps h :=
    ⟨_, .cons (.set (.uri (hplain 97 (by decide))) (by decide)) rfl
      (.cons (.set (.components (hplain 98 (by decide))) (by decide)) rfl
        (.cons (.wire rfl (by decide)) rfl
          (.cons (.set (.components (hplain 99 (by decide))) (by decide)) rfl (.nil _))))⟩
  obtain ⟨h, hrun⟩ := hrun
  have hlast := (lastWriter_wins rfl hrun).1
  exact ⟨h, hrun, (hlast .destination _ rfl).2, (hlast .source _ rfl).2⟩

end BpHeader6
end BundleProtocol
