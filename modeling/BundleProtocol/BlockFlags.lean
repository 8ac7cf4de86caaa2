import BundleProtocol.BlockHeader
import BundleProtocol.FlagWord

/-! # Control flags of a block

The seven control flags of a version 6 block header share one byte, four of them set by `BpBlockHeader`
and three by `BpBlockHeader6`.  They are independent and leave the highest bit of the byte clear
(`BlockCall.Keeps`), so that the byte stays one byte on the wire: a header that is written through its
setters fits its slot exactly when its block length does (`built_header`).
-/
namespace BundleProtocol
open FlagWord

namespace BpBlockHeader6

/-! ## The setters and getters -/

def blockReplicateMask : UInt8 := (1 : UInt8) <<< (0 : UInt8)
def txStatusReportMask : UInt8 := (1 : UInt8) <<< (1 : UInt8)
def deleteBlockMask : UInt8 := (1 : UInt8) <<< (2 : UInt8)
def lastBlockMask : UInt8 := (1 : UInt8) <<< (3 : UInt8)
def discardBlockMask : UInt8 := (1 : UInt8) <<< (4 : UInt8)
def forwardWithoutProcessMask : UInt8 := (1 : UInt8) <<< (5 : UInt8)
def eidReferenceMask : UInt8 := (1 : UInt8) <<< (6 : UInt8)

/-- What every flag setter does. -/
def assignFlag (h : BpBlockHeader6) (mask : UInt8) (value : Bool) : BpBlockHeader6 :=
  { h with processingControlFlags := assignByte h.processingControlFlags mask value }

def setBlockReplicate (h : BpBlockHeader6) (value : Bool) : BpBlockHeader6 :=
  h.assignFlag blockReplicateMask value

def setTxStatusReport (h : BpBlockHeader6) (value : Bool) : BpBlockHeader6 :=
  h.assignFlag txStatusReportMask value

def setDeleteBlock (h : BpBlockHeader6) (value : Bool) : BpBlockHeader6 :=
  h.assignFlag deleteBlockMask value

def setDiscardBlock (h : BpBlockHeader6) (value : Bool) : BpBlockHeader6 :=
  h.assignFlag discardBlockMask value

def setLastBlock (h : BpBlockHeader6) (value : Bool) : BpBlockHeader6 :=
  h.assignFlag lastBlockMask value

def setForwardWithoutProcess (h : BpBlockHeader6) (value : Bool) : BpBlockHeader6 :=
  h.assignFlag forwardWithoutProcessMask value

def setEidReference (h : BpBlockHeader6) (value : Bool) : BpBlockHeader6 :=
  h.assignFlag eidReferenceMask value

def blockReplicate (h : BpBlockHeader6) : Bool := testByte h.processingControlFlags blockReplicateMask

def txStatusReport (h : BpBlockHeader6) : Bool := testByte h.processingControlFlags txStatusReportMask

def deleteBlock (h : BpBlockHeader6) : Bool := testByte h.processingControlFlags deleteBlockMask

def discardBlock (h : BpBlockHeader6) : Bool := testByte h.processingControlFlags discardBlockMask

def lastBlock (h : BpBlockHeader6) : Bool := testByte h.processingControlFlags lastBlockMask

def forwardWithoutProcess (h : BpBlockHeader6) : Bool :=
  testByte h.processingControlFlags forwardWithoutProcessMask

def eidReference (h : BpBlockHeader6) : Bool := testByte h.processingControlFlags eidReferenceMask

def getBlockLength (h : BpBlockHeader6) : UInt32 := h.blockLength

end BpBlockHeader6

/-! ## All of them -/

/-- The flags of `ProcessingControlFlags` and `ProcessingControlFlags6`, by their getters. -/
inductive BlockFlag
  | blockReplicate | txStatusReport | deleteBlock | lastBlock | discardBlock
  | forwardWithoutProcess | eidReference
deriving DecidableEq

/-- The bit of the flag. -/
def BlockFlag.mask : BlockFlag → UInt8
  | blockReplicate => BpBlockHeader6.blockReplicateMask
  | txStatusReport => BpBlockHeader6.txStatusReportMask
  | deleteBlock => BpBlockHeader6.deleteBlockMask
  | lastBlock => BpBlockHeader6.lastBlockMask
  | discardBlock => BpBlockHeader6.discardBlockMask
  | forwardWithoutProcess => BpBlockHeader6.forwardWithoutProcessMask
  | eidReference => BpBlockHeader6.eidReferenceMask

namespace BpBlockHeader6

/-- The setter of the flag. -/
def setFlag (h : BpBlockHeader6) : BlockFlag → Bool → BpBlockHeader6
  | .blockReplicate => h.setBlockReplicate
  | .txStatusReport => h.setTxStatusReport
  | .deleteBlock => h.setDeleteBlock
  | .lastBlock => h.setLastBlock
  | .discardBlock => h.setDiscardBlock
  | .forwardWithoutProcess => h.setForwardWithoutProcess
  | .eidReference => h.setEidReference

/-- The getter of the flag. -/
def getFlag (h : BpBlockHeader6) : BlockFlag → Bool
  | .blockReplicate => h.blockReplicate
  | .txStatusReport => h.txStatusReport
  | .deleteBlock => h.deleteBlock
  | .lastBlock => h.lastBlock
  | .discardBlock => h.discardBlock
  | .forwardWithoutProcess => h.forwardWithoutProcess
  | .eidReference => h.eidReference

theorem setFlag_eq (h : BpBlockHeader6) (flag : BlockFlag) (value : Bool) :
    h.setFlag flag value = h.assignFlag flag.mask value := by cases flag <;> rfl

theorem getFlag_eq (h : BpBlockHeader6) (flag : BlockFlag) :
    h.getFlag flag = testByte h.processingControlFlags flag.mask := by cases flag <;> rfl

end BpBlockHeader6

namespace BlockFlag
variable {flag other : BlockFlag}

theorem mask_ne_zero (flag : BlockFlag) : flag.mask ≠ 0 := by cases flag <;> decide

/-- No two flags share a bit. -/
theorem mask_and_mask (h : flag ≠ other) : flag.mask &&& other.mask = 0 := by
  cases flag <;> cases other <;> first | rfl | exact absurd rfl h

/-- None has the bit that would make the byte two bytes on the wire. -/
theorem mask_and_high (flag : BlockFlag) : flag.mask &&& 0x80 = 0 := by cases flag <;> rfl

end BlockFlag

/-! ## Calls of the setters -/

/-- A call of one of the setters. -/
inductive BlockCall
  | set (flag : BlockFlag) (value : Bool)
  | setBlockLength (len : UInt32)

/-- What was last set: the flags and the block length. -/
structure BlockVariables where
  flags : BlockFlag → Bool
  blockLength : UInt32

namespace BlockVariables

/-- Nothing was set. -/
def initial : BlockVariables := ⟨fun _ => false, 0⟩

/-- A flag is set. -/
def setFlag (w : BlockVariables) (flag : BlockFlag) (value : Bool) : BlockVariables :=
  { w with flags := Function.update w.flags flag value }

theorem flags_setFlag_self (w : BlockVariables) (flag : BlockFlag) (value : Bool) :
    (w.setFlag flag value).flags flag = value := Function.update_self ..

theorem flags_setFlag_of_ne (w : BlockVariables) {flag other : BlockFlag} (h : other ≠ flag)
    (value : Bool) : (w.setFlag flag value).flags other = w.flags other := Function.update_of_ne h ..

end BlockVariables

namespace BlockCall

/-- What the call does to the header. -/
def step (h : BpBlockHeader6) : BlockCall → BpBlockHeader6
  | .set flag value => h.setFlag flag value
  | .setBlockLength len => h.setBlockLength len

/-- What it does to the separate variables. -/
def record (w : BlockVariables) : BlockCall → BlockVariables
  | .set flag value => w.setFlag flag value
  | .setBlockLength len => { w with blockLength := len }

variable {h : BpBlockHeader6} {w : BlockVariables} {blockType : UInt8}

/-- The header shows the variables, is of its block type, and has the highest bit of the flags clear. -/
structure Keeps (blockType : UInt8) (h : BpBlockHeader6) (w : BlockVariables) : Prop where
  blockType_eq : h.blockType = blockType
  flags : ∀ flag, h.getFlag flag = w.flags flag
  blockLength : h.getBlockLength = w.blockLength
  high : h.processingControlFlags &&& 0x80 = 0

theorem keeps_new (blockType : UInt8) : Keeps blockType (.new blockType) .initial where
  blockType_eq := rfl
  flags flag := by
    rw [BpBlockHeader6.getFlag_eq]
    exact testByte_zero flag.mask
  blockLength := rfl
  high := UInt8.zero_and

theorem Keeps.set (hw : Keeps blockType h w) (flag : BlockFlag) (value : Bool) :
    Keeps blockType (h.setFlag flag value) (w.setFlag flag value) := by
  rw [BpBlockHeader6.setFlag_eq]
  refine ⟨hw.blockType_eq, fun other => ?_, hw.blockLength, ?_⟩
  · rw [BpBlockHeader6.getFlag_eq]
    by_cases hother : other = flag
    · subst hother
      rw [w.flags_setFlag_self]
      exact testByte_assignByte_self value other.mask_ne_zero
    · rw [w.flags_setFlag_of_ne hother, ← hw.flags, BpBlockHeader6.getFlag_eq]
      exact testByte_assignByte_of_disjoint value (BlockFlag.mask_and_mask (Ne.symm hother))
  · calc assignByte h.processingControlFlags flag.mask value &&& 0x80
        = h.processingControlFlags &&& 0x80 := assignByte_and_of_disjoint value flag.mask_and_high
      _ = 0 := hw.high

theorem Keeps.setBlockLength (hw : Keeps blockType h w) (len : UInt32) :
    Keeps blockType (h.setBlockLength len) { w with blockLength := len } where
  blockType_eq := hw.blockType_eq
  flags flag := by
    have hflag := hw.flags flag
    rw [BpBlockHeader6.getFlag_eq] at hflag ⊢
    exact hflag
  blockLength := rfl
  high := hw.high

/-- One call. -/
theorem Keeps.step (hw : Keeps blockType h w) (call : BlockCall) :
    Keeps blockType (call.step h) (call.record w) := by
  cases call with
  | set flag value => exact hw.set flag value
  | setBlockLength len => exact hw.setBlockLength len

/-- Any calls. -/
theorem Keeps.run (hw : Keeps blockType h w) (calls : List BlockCall) :
    Keeps blockType (calls.foldl BlockCall.step h) (calls.foldl record w) := by
  induction calls generalizing h w with
  | nil => exact hw
  | cons call calls ih => exact ih (hw.step call)

/-- The flags take one byte on the wire, which leaves five of the six for type and length. -/
theorem Keeps.length_serialize_le_iff (hw : Keeps blockType h w) :
    h.serialize.length ≤ h.getSerializedSize ↔ w.blockLength.toNat < 2 ^ 28 := by
  have hflags := toNat_lt_of_and hw.high
  have hlen : h.blockLength = w.blockLength := hw.blockLength
  rw [BpBlockHeader6.getSerializedSize, BpBlockHeader6.length_serialize_le_iff, hlen]
  omega

end BlockCall

open BlockCall

/-- **A header is its setters' last values, on both sides of the wire**: after any calls each getter
returns what was last set for it, and exactly when the last block length is below 2²⁸ the header writes
no more than is reserved for it and comes back, with the payload it was put in front of. -/
theorem BpBlockHeader6.built_header (blockType : UInt8) (calls : List BlockCall) :
    let h := calls.foldl BlockCall.step (BpBlockHeader6.new blockType)
    let w := calls.foldl record .initial
    h.blockType = blockType ∧ (∀ flag, h.getFlag flag = w.flags flag) ∧
      h.getBlockLength = w.blockLength ∧
      ((h.serialize.length ≤ h.getSerializedSize ∧
          ∀ reserved payload : List UInt8, reserved.length = h.getSerializedSize →
            removeFrom (h.addTo reserved payload) = some (h, payload)) ↔
        w.blockLength.toNat < 2 ^ 28) := by
  have hend := (keeps_new blockType).run calls
  refine ⟨hend.blockType_eq, hend.flags, hend.blockLength, ?_⟩
  rw [← hend.length_serialize_le_iff]
  constructor
  · intro hfits
    exact hfits.1
  · intro hfit
    exact ⟨hfit, fun reserved payload hreserved => removeFrom_addTo hfit hreserved payload⟩

end BundleProtocol
