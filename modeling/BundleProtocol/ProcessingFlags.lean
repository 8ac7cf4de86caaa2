import BundleProtocol.PrimaryHeader

/-! # Processing flags

Eleven flags and the priority share the word `m_processingFlags`, each setter meant to change its own
bits and nothing else.  The flags keep to that.  `SetPriority` or-s the new value into the old one, and
the mask of the priority takes in the bit of `SetReceptionReport`: `Holds` says what the word holds after
any calls, and `shows_iff` when each getter returns what was last set for it.
-/
namespace BundleProtocol
open FlagWord

namespace BpHeader6

/-! ## The other flags -/

def bundleIsAdmin : UInt32 := (1 : UInt32) <<< (1 : UInt32)
def bundleDoNotFragment : UInt32 := (1 : UInt32) <<< (2 : UInt32)
def bundleSingletonDestination : UInt32 := (1 : UInt32) <<< (4 : UInt32)
def bundleAckByApp : UInt32 := (1 : UInt32) <<< (5 : UInt32)
def reqReportBundleReception : UInt32 := (1 : UInt32) <<< (14 : UInt32)
def reqReportCustodyAccept : UInt32 := (1 : UInt32) <<< (15 : UInt32)
def reqReportBundleForward : UInt32 := (1 : UInt32) <<< (16 : UInt32)
def reqReportBundleDelivery : UInt32 := (1 : UInt32) <<< (17 : UInt32)
def reqReportBundleDeletion : UInt32 := (1 : UInt32) <<< (18 : UInt32)

/-- What every flag setter does. -/
def assignFlags (h : BpHeader6) (mask : UInt32) (value : Bool) : BpHeader6 :=
  { h with processingFlags := assign h.processingFlags mask value }

def setIsAdmin (h : BpHeader6) (value : Bool) : BpHeader6 := h.assignFlags bundleIsAdmin value

def setDonotFragment (h : BpHeader6) (value : Bool) : BpHeader6 :=
  h.assignFlags bundleDoNotFragment value

def setAckbyAppReq (h : BpHeader6) (value : Bool) : BpHeader6 := h.assignFlags bundleAckByApp value

def setReceptionReport (h : BpHeader6) (value : Bool) : BpHeader6 :=
  h.assignFlags reqReportBundleReception value

def setForwardReport (h : BpHeader6) (value : Bool) : BpHeader6 :=
  h.assignFlags reqReportBundleForward value

def setDeliveryReport (h : BpHeader6) (value : Bool) : BpHeader6 :=
  h.assignFlags reqReportBundleDelivery value

def setDeletionReport (h : BpHeader6) (value : Bool) : BpHeader6 :=
  h.assignFlags reqReportBundleDeletion value

def setSingletonDest (h : BpHeader6) (value : Bool) : BpHeader6 :=
  h.assignFlags bundleSingletonDestination value

def setCustAcceptReport (h : BpHeader6) (value : Bool) : BpHeader6 :=
  h.assignFlags reqReportCustodyAccept value

def isAdmin (h : BpHeader6) : Bool := test h.processingFlags bundleIsAdmin

def donotFragment (h : BpHeader6) : Bool := test h.processingFlags bundleDoNotFragment

def ackbyAppReq (h : BpHeader6) : Bool := test h.processingFlags bundleAckByApp

def receptionReport (h : BpHeader6) : Bool := test h.processingFlags reqReportBundleReception

def forwardReport (h : BpHeader6) : Bool := test h.processingFlags reqReportBundleForward

def deliveryReport (h : BpHeader6) : Bool := test h.processingFlags reqReportBundleDelivery

def deletionReport (h : BpHeader6) : Bool := test h.processingFlags reqReportBundleDeletion

def singletonDest (h : BpHeader6) : Bool := test h.processingFlags bundleSingletonDestination

def custAcceptReport (h : BpHeader6) : Bool := test h.processingFlags reqReportCustodyAccept

end BpHeader6

/-! ## All of them -/

/-- The flags of `ProcessingFlags` and `ProcessingFlags6`, by their getters. -/
inductive ProcessingFlag
  | isFragment | isAdmin | donotFragment | custTxReq | singletonDest | ackbyAppReq
  | receptionReport | custAcceptReport | forwardReport | deliveryReport | deletionReport
deriving DecidableEq

/-- The bit of the flag. -/
def ProcessingFlag.mask : ProcessingFlag → UInt32
  | isFragment => BpHeader6.bundleIsFragment
  | isAdmin => BpHeader6.bundleIsAdmin
  | donotFragment => BpHeader6.bundleDoNotFragment
  | custTxReq => BpHeader6.reqBundleCustodyXfer
  | singletonDest => BpHeader6.bundleSingletonDestination
  | ackbyAppReq => BpHeader6.bundleAckByApp
  | receptionReport => BpHeader6.reqReportBundleReception
  | custAcceptReport => BpHeader6.reqReportCustodyAccept
  | forwardReport => BpHeader6.reqReportBundleForward
  | deliveryReport => BpHeader6.reqReportBundleDelivery
  | deletionReport => BpHeader6.reqReportBundleDeletion

namespace BpHeader6

/-- The setter of the flag. -/
def setFlag (h : BpHeader6) : ProcessingFlag → Bool → BpHeader6
  | .isFragment => h.setIsFragment
  | .isAdmin => h.setIsAdmin
  | .donotFragment => h.setDonotFragment
  | .custTxReq => h.setCustTxReq
  | .singletonDest => h.setSingletonDest
  | .ackbyAppReq => h.setAckbyAppReq
  | .receptionReport => h.setReceptionReport
  | .custAcceptReport => h.setCustAcceptReport
  | .forwardReport => h.setForwardReport
  | .deliveryReport => h.setDeliveryReport
  | .deletionReport => h.setDeletionReport

/-- The getter of the flag. -/
def getFlag (h : BpHeader6) : ProcessingFlag → Bool
  | .isFragment => h.isFragment
  | .isAdmin => h.isAdmin
  | .donotFragment => h.donotFragment
  | .custTxReq => h.custTxReq
  | .singletonDest => h.singletonDest
  | .ackbyAppReq => h.ackbyAppReq
  | .receptionReport => h.receptionReport
  | .custAcceptReport => h.custAcceptReport
  | .forwardReport => h.forwardReport
  | .deliveryReport => h.deliveryReport
  | .deletionReport => h.deletionReport

theorem setFlag_eq (h : BpHeader6) (flag : ProcessingFlag) (value : Bool) :
    h.setFlag flag value = h.assignFlags flag.mask value := by cases flag <;> rfl

theorem getFlag_eq (h : BpHeader6) (flag : ProcessingFlag) :
    h.getFlag flag = test h.processingFlags flag.mask := by cases flag <;> rfl

end BpHeader6

namespace ProcessingFlag
variable {flag other : ProcessingFlag}

theorem mask_ne_zero (flag : ProcessingFlag) : flag.mask ≠ 0 := by cases flag <;> decide

/-- No two flags share a bit. -/
theorem mask_and_mask (h : flag ≠ other) : flag.mask &&& other.mask = 0 := by
  cases flag <;> cases other <;> first | rfl | exact absurd rfl h

/-- The one flag inside the mask of the priority. -/
theorem mask_and_bundlePriority (h : flag ≠ receptionReport) :
    flag.mask &&& BpHeader6.bundlePriority = 0 := by
  cases flag <;> first | rfl | exact absurd rfl h

end ProcessingFlag

/-! ## Calls of the setters -/

/-- A call of one of the setters. -/
inductive FlagCall
  | set (flag : ProcessingFlag) (value : Bool)
  | setPriority (pri : UInt8) (hpri : pri ≤ 3)

/-- What was last set: the flags and the priority. -/
structure LastSet where
  flags : ProcessingFlag → Bool
  priority : UInt8

namespace LastSet

/-- Nothing was set. -/
def never : LastSet := ⟨fun _ => false, 0⟩

/-- A flag is set. -/
def setFlag (w : LastSet) (flag : ProcessingFlag) (value : Bool) : LastSet :=
  { w with flags := Function.update w.flags flag value }

theorem flags_setFlag_self (w : LastSet) (flag : ProcessingFlag) (value : Bool) :
    (w.setFlag flag value).flags flag = value := Function.update_self ..

theorem flags_setFlag_of_ne (w : LastSet) {flag other : ProcessingFlag} (h : other ≠ flag)
    (value : Bool) : (w.setFlag flag value).flags other = w.flags other := Function.update_of_ne h ..

end LastSet

namespace FlagCall

/-- What the call does to the header. -/
def step (h : BpHeader6) : FlagCall → BpHeader6
  | .set flag value => h.setFlag flag value
  | .setPriority pri _ => h.setPriority pri

/-- What it does to the separate variables. -/
def record (w : LastSet) : FlagCall → LastSet
  | .set flag value => w.setFlag flag value
  | .setPriority pri _ => { w with priority := pri }

/-- The bits of all priorities set so far. -/
def addBits (acc : UInt8) : FlagCall → UInt8
  | .set _ _ => acc
  | .setPriority pri _ => acc ||| pri

variable {calls : List FlagCall} {h : BpHeader6} {w : LastSet} {acc : UInt8}

/-! ## What the word holds -/

theorem or_le_three {a b : UInt8} (ha : a ≤ 3) (hb : b ≤ 3) : a ||| b ≤ 3 := by
  rw [UInt8.le_iff_toNat_le] at ha hb ⊢
  have hlt := Nat.or_lt_two_pow (x := a.toNat) (y := b.toNat) (n := 2) (Nat.lt_succ_of_le ha)
    (Nat.lt_succ_of_le hb)
  rw [UInt8.toNat_or]
  exact Nat.le_of_lt_succ hlt

theorem eq_of_le_three {a : UInt8} (h : a ≤ 3) : a = 0 ∨ a = 1 ∨ a = 2 ∨ a = 3 := by
  rw [UInt8.le_iff_toNat_le] at h
  simp only [← UInt8.toNat_inj]
  simp at h ⊢
  omega

/-- Each flag is as it was last set.  The field of the priority holds all the bits `acc` that were ever
set, and the flag that lies inside. -/
structure Holds (h : BpHeader6) (w : LastSet) (acc : UInt8) : Prop where
  flags : ∀ flag, h.getFlag flag = w.flags flag
  field : h.processingFlags &&& BpHeader6.bundlePriority = assign (acc.toUInt32 <<< 7)
    BpHeader6.reqReportBundleReception (w.flags .receptionReport)
  acc_le : acc ≤ 3
  priority_le : w.priority ≤ 3

theorem holds_new (useCbhe : Bool) : Holds (BpHeader6.new useCbhe) .never 0 where
  flags flag := by
    rw [BpHeader6.getFlag_eq]
    exact test_zero flag.mask
  field := by
    show (0 : UInt32) &&& BpHeader6.bundlePriority =
      assign ((0 : UInt8).toUInt32 <<< 7) BpHeader6.reqReportBundleReception false
    decide
  acc_le := by decide
  priority_le := by decide

/-- A priority lies in the field of the priority and outside every flag. -/
theorem shifted_and {pri : UInt8} (hpri : pri ≤ 3) :
    (pri.toUInt32 <<< 7) &&& BpHeader6.bundlePriority = pri.toUInt32 <<< 7 ∧
      ∀ flag : ProcessingFlag, (pri.toUInt32 <<< 7) &&& flag.mask = 0 := by
  rcases eq_of_le_three hpri with rfl | rfl | rfl | rfl
  · exact ⟨rfl, fun flag => by cases flag <;> rfl⟩
  · exact ⟨rfl, fun flag => by cases flag <;> rfl⟩
  · exact ⟨rfl, fun flag => by cases flag <;> rfl⟩
  · exact ⟨rfl, fun flag => by cases flag <;> rfl⟩

theorem Holds.set (hw : Holds h w acc) (flag : ProcessingFlag) (value : Bool) :
    Holds (h.setFlag flag value) (w.setFlag flag value) acc := by
  rw [BpHeader6.setFlag_eq]
  refine ⟨fun other => ?_, ?_, hw.acc_le, hw.priority_le⟩
  · rw [BpHeader6.getFlag_eq]
    by_cases hother : other = flag
    · subst hother
      rw [w.flags_setFlag_self]
      exact test_assign_self value other.mask_ne_zero
    · rw [w.flags_setFlag_of_ne hother, ← hw.flags, BpHeader6.getFlag_eq]
      exact test_assign_of_disjoint value (ProcessingFlag.mask_and_mask (Ne.symm hother))
  · have hfield := hw.field
    by_cases hinside : flag = .receptionReport
    · subst hinside
      rw [w.flags_setFlag_self]
      calc assign h.processingFlags BpHeader6.reqReportBundleReception value &&&
            BpHeader6.bundlePriority
          = assign (h.processingFlags &&& BpHeader6.bundlePriority)
              BpHeader6.reqReportBundleReception value := assign_and_of_subset value rfl
        _ = assign (acc.toUInt32 <<< 7) BpHeader6.reqReportBundleReception value := by
            rw [hfield, assign_assign]
    · rw [w.flags_setFlag_of_ne (Ne.symm hinside), ← hfield]
      exact assign_and_of_disjoint value (ProcessingFlag.mask_and_bundlePriority hinside)

theorem Holds.setPriority (hw : Holds h w acc) {pri : UInt8} (hpri : pri ≤ 3) :
    Holds (h.setPriority pri) { w with priority := pri } (acc ||| pri) := by
  obtain ⟨hinside, houtside⟩ := shifted_and hpri
  refine ⟨fun flag => ?_, ?_, or_le_three hw.acc_le hpri, hpri⟩
  · show (h.setPriority pri).getFlag flag = w.flags flag
    rw [← hw.flags, BpHeader6.getFlag_eq, BpHeader6.getFlag_eq]
    unfold test
    rw [BpHeader6.setPriority, or_or_and_of_disjoint (houtside flag)]
  · -- the old bits stay
    calc (h.setPriority pri).processingFlags &&& BpHeader6.bundlePriority
        = (h.processingFlags &&& BpHeader6.bundlePriority) |||
            ((pri.toUInt32 <<< 7) &&& BpHeader6.bundlePriority) := or_or_and_self _ _ _
      _ = assign (acc.toUInt32 <<< 7) BpHeader6.reqReportBundleReception (w.flags .receptionReport) |||
            pri.toUInt32 <<< 7 := by rw [hw.field, hinside]
      _ = assign ((acc ||| pri).toUInt32 <<< 7) BpHeader6.reqReportBundleReception
            (w.flags .receptionReport) := by
          have hmask : (pri.toUInt32 <<< 7) &&& BpHeader6.reqReportBundleReception = 0 :=
            houtside .receptionReport
          rw [assign_or_of_disjoint _ hmask, UInt8.toUInt32_or, UInt32.shiftLeft_or]

/-- One call. -/
theorem Holds.step (hw : Holds h w acc) (call : FlagCall) :
    Holds (call.step h) (call.record w) (call.addBits acc) := by
  cases call with
  | set flag value => exact hw.set flag value
  | setPriority pri hpri => exact hw.setPriority hpri

/-- Any calls. -/
theorem Holds.run (hw : Holds h w acc) (calls : List FlagCall) :
    Holds (calls.foldl FlagCall.step h) (calls.foldl record w) (calls.foldl addBits acc) := by
  induction calls generalizing h w acc with
  | nil => exact hw
  | cons call calls ih => exact ih (hw.step call)

/-- What `Priority` makes of the field. -/
theorem Holds.priority_eq (hw : Holds h w acc) :
    h.priority = if w.flags .receptionReport then acc ||| 128 else acc := by
  unfold BpHeader6.priority
  rw [hw.field]
  rcases eq_of_le_three hw.acc_le with rfl | rfl | rfl | rfl <;>
    cases w.flags .receptionReport <;> rfl

/-! ## When the bits are those of the last priority -/

theorem or_and_eq_or_iff {a b m : UInt8} : (a ||| b) &&& m = a ||| b ↔ a &&& m = a ∧ b &&& m = b := by
  simp only [← UInt8.toBitVec_inj, BitVec.eq_of_getElem_eq_iff]
  simp only [UInt8.toBitVec_and, UInt8.toBitVec_or, BitVec.getElem_and, BitVec.getElem_or]
  constructor
  · intro h
    refine ⟨fun i hi => ?_, fun i hi => ?_⟩
    · have hbit := h i hi
      grind
    · have hbit := h i hi
      grind
  · rintro ⟨ha, hb⟩ i hi
    have hbit := ha i hi
    have hbit' := hb i hi
    grind

/-- The bits lie in `m` when those of every priority do. -/
theorem addBits_and_iff (m : UInt8) : calls.foldl addBits acc &&& m = calls.foldl addBits acc ↔
    acc &&& m = acc ∧ ∀ pri hpri, .setPriority pri hpri ∈ calls → pri &&& m = pri := by
  induction calls generalizing acc with
  | nil => simp
  | cons call calls ih =>
    rw [List.foldl_cons, ih]
    cases call with
    | set flag value => simp [addBits]
    | setPriority pri hpri =>
      simp only [addBits, or_and_eq_or_iff, List.mem_cons, setPriority.injEq, and_assoc]
      refine and_congr_right fun _ => ⟨?_, ?_⟩
      · rintro ⟨hfirst, hrest⟩ pri' hpri' (rfl | hmem)
        · exact hfirst
        · exact hrest pri' hpri' hmem
      · intro hall
        exact ⟨hall pri hpri (Or.inl rfl), fun pri' hpri' hmem => hall pri' hpri' (Or.inr hmem)⟩

/-- The last priority is one that was set, if any was. -/
theorem priority_record (calls : List FlagCall) (w : LastSet) :
    (calls.foldl record w).priority = w.priority ∨
      ∃ hpri, .setPriority (calls.foldl record w).priority hpri ∈ calls := by
  induction calls generalizing w with
  | nil => exact Or.inl rfl
  | cons call calls ih =>
    rcases ih (call.record w) with heq | ⟨hpri, hmem⟩
    · cases call with
      | set flag value => exact Or.inl heq
      | setPriority pri hpri =>
        have heq' : (calls.foldl record (record w (.setPriority pri hpri))).priority = pri := heq
        rw [List.foldl_cons, heq']
        exact Or.inr ⟨hpri, List.mem_cons_self⟩
    · exact Or.inr ⟨hpri, List.mem_cons_of_mem call hmem⟩

theorem addBits_eq_iff : calls.foldl addBits 0 = (calls.foldl record .never).priority ↔
    ∀ pri hpri, .setPriority pri hpri ∈ calls → pri &&& (calls.foldl record .never).priority = pri := by
  have hlast : (calls.foldl record .never).priority &&& calls.foldl addBits 0 =
      (calls.foldl record .never).priority := by
    rcases priority_record calls .never with heq | ⟨hpri, hmem⟩
    · rw [heq]
      exact UInt8.zero_and
    · exact ((addBits_and_iff _).mp UInt8.and_self).2 _ hpri hmem
  have hiff : calls.foldl addBits 0 &&& _ = calls.foldl addBits 0 ↔ _ :=
    addBits_and_iff (calls.foldl record .never).priority
  rw [UInt8.and_comm, hlast] at hiff
  rw [eq_comm, hiff, UInt8.zero_and, and_iff_right rfl]

end FlagCall

open FlagCall

/-- Every getter returns what was last set for it. -/
def BpHeader6.ShowsLast (h : BpHeader6) (w : LastSet) : Prop :=
  (∀ flag, h.getFlag flag = w.flags flag) ∧ h.priority = w.priority

/-- **The flags and the priority are independent variables exactly when** the reception report was last
cleared, or never set, and no priority had a bit that the last one has not. -/
theorem showsLast_iff (useCbhe : Bool) (calls : List FlagCall) :
    (calls.foldl FlagCall.step (BpHeader6.new useCbhe)).ShowsLast (calls.foldl record .never) ↔
      (calls.foldl record .never).flags .receptionReport = false ∧
        ∀ pri hpri, .setPriority pri hpri ∈ calls →
          pri &&& (calls.foldl record .never).priority = pri := by
  have hend := (holds_new useCbhe).run calls
  have hpriority := hend.priority_eq
  rw [← addBits_eq_iff]
  unfold BpHeader6.ShowsLast
  rw [and_iff_right hend.flags, hpriority]
  cases (calls.foldl record .never).flags .receptionReport with
  | false => simp
  | true =>
    -- bit 7 of the priority is none that was set
    rcases eq_of_le_three hend.acc_le with hacc | hacc | hacc | hacc <;>
      rcases eq_of_le_three hend.priority_le with hpri | hpri | hpri | hpri <;>
      rw [hacc, hpri] <;> decide

/-- Priority 2 set over priority 1 reads as 3. -/
theorem not_showsLast :
    let calls : List FlagCall := [.setPriority 1 (by decide), .setPriority 2 (by decide)]
    (calls.foldl FlagCall.step (BpHeader6.new false)).priority = 3 ∧
      ¬(calls.foldl FlagCall.step (BpHeader6.new false)).ShowsLast (calls.foldl record .never) := by
  refine ⟨by decide, fun h => ?_⟩
  exact absurd h.2 (by decide)

end BundleProtocol
