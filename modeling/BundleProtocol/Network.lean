import BundleProtocol.EndToEnd
import BundleProtocol.Interleaving

/-! # A network of agents

Agents at the nodes of a network, without CBHE.  What an agent hands to a convergence layer is a
packet on the medium: it may be lost, arrive late, twice or at any node, but it arrives whole.
A bundle comes from the `Send` of an application or from a custody signal; `Creates` names these
two, and `Origin` the bundles created in the course of a run.

The network is a `Party` of `Interleaving`: one node moves at a time, and an arrival takes a packet that
some node has handed over by then.  Packets are never taken off the medium, so loss, delay, repetition
and delivery to the wrong node are all runs of the same system.  The bytes reserved for the payload
header are not initialised by the sender, and may differ each time.

What is proved of a network is an invariant of each node, relative to the bundles created so far, and is
carried along the run by `Party.invariant`.  Three are built on one another: where headers come from
(`Provenance`), that a name belongs to one bundle (`Identities`), and that payloads are pieces of the
bundle in their place (`Integrity`).  A header changes on its way; `CopyOf` compares what lasts of it.
-/
namespace BundleProtocol
open Interleaving

namespace BpAgent6
variable {s t : BpAgent6} {Node : Type*} [DecidableEq Node]

/-- What happens at a node: something that concerns its agent alone, or the arrival of a packet. -/
inductive NodeOp
  | act (op : Op)
  | arrive (d : Datagram)

/-- The effect at the node. -/
def NodeOp.step : NodeOp → BpAgent6 → Option BpAgent6
  | .act op, s => BpAgent6.step op s
  | .arrive d, s => s.receiveDatagram d

/-- New objects have fresh addresses, time and events are in order, and bundles arrive as packets. -/
def NodeOp.Allowed (s : BpAgent6) : NodeOp → Prop
  | .act op => (∀ b q rx, op ≠ .processBundle b q rx) ∧ s.Admissible op
  | .arrive d => s.Fresh d.ptr ∧ s.Fresh d.signal ∧ d.ptr ≠ d.signal

/-- The agent has sent the packet, whatever the space reserved for the payload header held. -/
def HasSent (s : BpAgent6) (packet : List UInt8) : Prop :=
  ∃ tx ∈ s.handed, ∃ reserved : List UInt8, reserved.length = 6 ∧ packet = tx.wire reserved

/-- The packet that an operation takes from the medium. -/
def NodeOp.Takes : NodeOp → List UInt8 → Prop
  | .act _, _ => False
  | .arrive d, packet => packet = d.packet.bytes

/-- The agents of a network in which `guard` holds of every operation. -/
def network (guard : Node → BpAgent6 → NodeOp → Prop) :
    Party Node BpAgent6 NodeOp (List UInt8) where
  guard i s op := op.Allowed s ∧ guard i s op
  step := NodeOp.step
  sent := HasSent
  takes := NodeOp.Takes

/-- An agent that has not done anything yet and has sent nothing. -/
structure Pristine (s : BpAgent6) : Prop extends s.Initial where
  handed : s.handed = []
  delivered : s.delivered = []
  signals : s.signals = []

/-! ## Where bundles come from -/

/-- `Creates s op h p`: while `op` is performed from `s`, a bundle with the header `h` and the ADU
`p` is created. -/
inductive Creates (s : BpAgent6) : NodeOp → BpHeader6 → Packet → Prop
  | send {b p src dst lifetime custody priority h} (hsrc : ¬s.Refused src)
      (hnew : newHeader s.config.eid p.size src dst lifetime custody priority s.sim.now s.seq =
        some h) :
      Creates s (.act (.send b p src dst lifetime custody priority)) h p
  /-- The custody signal about a bundle that has arrived. -/
  | custodySignal {d rx u v state cs p h} (hrx : dataRecv false d.packet.bytes = some rx)
      (haccept : s.acceptBundle d.ptr rx = some u)
      (hfind : u.findRegistration (u.header d.ptr).getDestinationEid = some state)
      (henqueue : u.enqueueIfActive d.ptr state = some v)
      (hcust : (v.header d.ptr).custTxReq = true)
      (hpacket : v.custodySignalPacket d.ptr = some (cs, p)) (hsrc : ¬v.Refused v.config.eid)
      (hnew : newHeader v.config.eid p.size v.config.eid (v.header d.ptr).getCustEid
        (v.header d.ptr).lifeTime false 0 v.sim.now v.seq = some h) :
      Creates s (.arrive d) h p

/-- In the run `ops` from `n`, a bundle with this header and ADU was created at the node `i`. -/
def OriginAt (guard : Node → BpAgent6 → NodeOp → Prop) (n : Node → BpAgent6)
    (ops : List (Node × NodeOp)) (i : Node) (h : BpHeader6) (p : Packet) : Prop :=
  ∃ s op, (network guard).Occurs n ops i s op ∧ Creates s op h p

/-- In the run `ops` from `n`, a bundle with this header and ADU was created. -/
def Origin (guard : Node → BpAgent6 → NodeOp → Prop) (n : Node → BpAgent6)
    (ops : List (Node × NodeOp)) (h : BpHeader6) (p : Packet) : Prop :=
  ∃ i, OriginAt guard n ops i h p

/-- What a created header says of its bundle. -/
theorem Creates.newHeader_spec {op : NodeOp} {h : BpHeader6} {p : Packet} (hcreates : Creates s op h p) :
    ∃ lifetime custody now seq, NewHeader p.size lifetime custody now seq h := by
  cases hcreates with
  | send hsrc hnew => exact ⟨_, _, _, _, BpAgent6.newHeader_spec hnew⟩
  | custodySignal _ _ _ _ _ _ _ hnew => exact ⟨_, _, _, _, BpAgent6.newHeader_spec hnew⟩

end BpAgent6

/-! ## What lasts of a header -/

namespace BpHeader6

/-- A header without what processing and the wire may change: the block length, the fragment flag
and offset, and the part of the lifetime below a second. -/
def lasting (h : BpHeader6) : BpHeader6 :=
  { ((h.setBlockLength 0).setIsFragment false).setFragOffset 0 with
    lifeTime := seconds (UInt64.ofNat (wholeSeconds h.lifeTime)).toNat }

/-- `g` is a copy of the header `h`, as processing and the wire leave it. -/
def CopyOf (h g : BpHeader6) : Prop := g.lasting = h.lasting

variable {h g g' : BpHeader6}

theorem CopyOf.refl (h : BpHeader6) : CopyOf h h := rfl

theorem CopyOf.trans (hg : CopyOf h g) (hg' : CopyOf g g') : CopyOf h g' := Eq.trans hg' hg

theorem copyOf_setBlockLength (h : BpHeader6) (len : UInt32) : CopyOf h (h.setBlockLength len) := rfl

theorem copyOf_setFragOffset (h : BpHeader6) (offset : UInt32) :
    CopyOf h (h.setFragOffset offset) := rfl

theorem copyOf_setIsFragment (h : BpHeader6) (value : Bool) : CopyOf h (h.setIsFragment value) := by
  unfold CopyOf lasting setIsFragment setBlockLength setFragOffset
  simp only [FlagWord.assign_assign]

/-- The wire cuts the lifetime. -/
theorem copyOf_onWire (hcbhe : h.cbhe = false) : CopyOf h (h.onWire false) := by
  have hcut : ∀ n : UInt64, seconds (UInt64.ofNat (wholeSeconds (seconds n.toNat))).toNat =
      seconds n.toNat := by
    intro n
    rw [wholeSeconds_seconds, UInt64.ofNat_toNat]
  have hsame : h.onWire false = h.onWire h.cbhe := by rw [hcbhe]
  unfold CopyOf
  rw [hsame, lasting, onWire, hcut]
  rfl

/-- What a copy shows: all of it comes from the dictionary, the offsets into it and the numbers. -/
structure Shown (h g : BpHeader6) : Prop where
  source : g.getSourceEid = h.getSourceEid
  destination : g.getDestinationEid = h.getDestinationEid
  report : g.getReportEid = h.getReportEid
  custodian : g.getCustEid = h.getCustEid
  createTimestamp : g.createTimestamp = h.createTimestamp
  timestampSeqNum : g.timestampSeqNum = h.timestampSeqNum
  aduLength : g.aduLength = h.aduLength
  priority : g.priority = h.priority
  custTxReq : g.custTxReq = h.custTxReq
  cbhe : g.cbhe = h.cbhe

theorem shown_lasting (h : BpHeader6) : Shown h h.lasting where
  source := rfl
  destination := rfl
  report := rfl
  custodian := rfl
  createTimestamp := rfl
  timestampSeqNum := rfl
  aduLength := rfl
  priority := (h.setBlockLength 0).priority_setIsFragment false
  custTxReq := (h.setBlockLength 0).custTxReq_setIsFragment false
  cbhe := rfl

theorem CopyOf.shown (hg : CopyOf h g) : Shown h g := by
  have hh := shown_lasting h
  have hg' := shown_lasting g
  rw [show g.lasting = h.lasting from hg] at hg'
  exact ⟨hg'.source.symm.trans hh.source, hg'.destination.symm.trans hh.destination,
    hg'.report.symm.trans hh.report, hg'.custodian.symm.trans hh.custodian,
    hg'.createTimestamp.symm.trans hh.createTimestamp,
    hg'.timestampSeqNum.symm.trans hh.timestampSeqNum, hg'.aduLength.symm.trans hh.aduLength,
    hg'.priority.symm.trans hh.priority, hg'.custTxReq.symm.trans hh.custTxReq,
    hg'.cbhe.symm.trans hh.cbhe⟩

end BpHeader6

/-! ## Two agents -/

namespace BpAgent6

instance : (op : Op) → Decidable (∀ b q rx, op ≠ .processBundle b q rx)
  | .processBundle b q rx => isFalse fun h => h b q rx rfl
  | .send .. => isTrue nofun
  | .claReady _ => isTrue nofun
  | .receive _ => isTrue nofun
  | .fire _ => isTrue nofun
  | .advance _ => isTrue nofun
  | .configure _ => isTrue nofun

instance (s : BpAgent6) : (op : NodeOp) → Decidable (op.Allowed s)
  | .act op => inferInstanceAs (Decidable ((∀ b q rx, op ≠ .processBundle b q rx) ∧ s.Admissible op))
  | .arrive d => inferInstanceAs (Decidable (s.Fresh d.ptr ∧ s.Fresh d.signal ∧ d.ptr ≠ d.signal))

end BpAgent6

namespace Sample
open BpAgent6

/-- Another agent, at `d:c`, that has registered `d:a` and reaches `d:b`. -/
def peer : BpAgent6 :=
  { agent 100 true with
    config := { config 100 true with
      eid := eid 99
      registration := [(eid 99, true), (eid 97, true)]
      routingAgent := ⟨[(eid 98, [⟨eid 98, eid 98, true, 1, 1, some 0, []⟩])]⟩ } }

/-- An agent at `d:b`, and its peer. -/
def pair (i : Bool) : BpAgent6 := if i then peer else agent 1 true

theorem pristine_pair (i : Bool) :
    (pair i).Pristine ∧ (pair i).config.bundleSize.toNat < 2 ^ 28 := by
  cases i with
  | false => exact ⟨⟨initial_agent 1 true, rfl, rfl, rfl⟩, by decide⟩
  | true => exact ⟨⟨⟨rfl, rfl, rfl⟩, rfl, rfl, rfl⟩, by decide⟩

def twoBytes : Packet := ⟨[10, 11], by decide⟩

/-- What happens next at one of the two nodes. -/
inductive Turn
  | send (i : Bool) (ptr : Ptr) (p : Packet) (dst : BpEndpointId) (custody : Bool)
  /-- The packet arrives that the other node handed over after `k` others. -/
  | arrive (i : Bool) (ptr : Ptr) (k : ℕ)

/-- The operation of a turn, if the other node has handed over that many packets. -/
def Turn.op (n : Bool → BpAgent6) : Turn → Option (Bool × NodeOp)
  | .send i ptr p dst custody => some (i, .act (.send ptr p (pair i).config.eid dst 0 custody 0))
  | .arrive i ptr k => (n !i).handed[k]?.bind fun tx =>
    if h : (tx.wire zeros).length < 2 ^ 32 then some (i, .arrive (datagram ptr tx h)) else none

section Replay
variable (guard : Bool → BpAgent6 → NodeOp → Prop) [∀ i s op, Decidable (guard i s op)]

/-- The turns one after another, as long as they are permitted. -/
def replay (n : Bool → BpAgent6) : List Turn → Option (Bool → BpAgent6)
  | [] => some n
  | turn :: rest => (turn.op n).bind fun e =>
    if e.2.Allowed (n e.1) ∧ guard e.1 (n e.1) e.2 then
      (e.2.step (n e.1)).bind fun t => replay (Function.update n e.1 t) rest
    else none

variable {guard} {n n' : Bool → BpAgent6}

theorem Turn.takes_op {turn : Turn} {e : Bool × NodeOp} (hop : turn.op n = some e)
    {packet : List UInt8} (htakes : e.2.Takes packet) : ∃ j, (n j).HasSent packet := by
  cases turn with
  | send i ptr p dst custody =>
    cases hop
    exact htakes.elim
  | arrive i ptr k =>
    obtain ⟨tx, htx, hop⟩ := Option.bind_eq_some_iff.mp hop
    split at hop
    · cases hop
      exact ⟨!i, tx, List.mem_of_getElem? htx, zeros, rfl, htakes⟩
    · cases hop

/-- What is replayed is a run of the pair. -/
theorem run_of_replay {turns : List Turn} (hrun : replay guard n turns = some n') :
    ∃ ops, (network guard).Run n ops n' ∧ ops.length = turns.length := by
  induction turns generalizing n with
  | nil =>
    cases hrun
    exact ⟨[], .nil _, rfl⟩
  | cons turn rest ih =>
    obtain ⟨⟨i, op⟩, hop, hrun⟩ := Option.bind_eq_some_iff.mp hrun
    split at hrun
    · rename_i hguard
      obtain ⟨t, hstep, hrest⟩ := Option.bind_eq_some_iff.mp hrun
      obtain ⟨ops, hrun', hlength⟩ := ih hrest
      exact ⟨(i, op) :: ops, Interleaving.Party.run_cons hguard
        (fun packet htakes => Turn.takes_op hop htakes) hstep hrun', congrArg (· + 1) hlength⟩
    · cases hrun

end Replay

end Sample
end BundleProtocol
