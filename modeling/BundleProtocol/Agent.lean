import BundleProtocol.BundleStore
import BundleProtocol.Cla

/-! # The version 6 bundle agent

`BpAgent6` with what it inherits from `BpAgent`.  An operation that does not return
normally (a null pointer followed, a `std::set` searched out of order, a loop
without end, an exception) has no result.  Addresses of new objects come from outside: `b` is the
bundle an operation creates or receives, `q` the custody signal it may send.

What leaves the agent is recorded: `handed` lists the calls of `SendBundle`,
`signals` the custody signals generated, each with the bundle it is about,
`delivered` the local-delivery path firing.

The state extends that of the store, which extends the memory: a pointer that an
operation keeps over a call still shows what the call made of the object, and a
bundle can be disposed of while it is stored.  Each function of the source is one
definition that passes the state on in the order of the source's statements, so
`ForwardSpec` and `DeliverySpec` can say once what each of them can do, and no
later module unfolds it.

* The invariants of an agent over its runs are proved from these cases: `Healthy`
  and `Orderly` (the order of the store), `LiveTimers` (who owns a pending event),
  `AllDispatched` (which retention constraints come together), `Exact` (the byte
  counter).
* That an operation has no result in a store out of order makes each statement
  about its results one about the operations up to there.  What the source does
  behind that point is in `SetSearch`, for every way the search can come out, and
  a theorem about it says so.
-/
namespace BundleProtocol

/-- What the surroundings of an agent decide: its attributes, its registrations, the
routes and the state of the convergence layers. -/
structure Config where
  /-- `m_eid`. -/
  eid : BpEndpointId
  bundleSize : UInt32
  ctRto : Time
  /-- `BpRegistration`, with the state of each registration. -/
  registration : List (BpEndpointId × Bool)
  routingAgent : BpStaticRoutingAgent
  /-- `BpCla::IsReady`. -/
  isReady : ClaId → Bool

/-- `BpAgent6`. -/
structure BpAgent6 extends BundleStore where
  config : Config
  /-- `m_seq`. -/
  seq : UInt32
  bundlesDelivered : ℕ
  bytesDelivered : ℕ
  handed : List Transmission
  delivered : List (Time × Ptr × BpHeader6)
  signals : List (Time × Ptr × CustodySignal)

namespace BpAgent6

/-- An assignment to fields of the bundle object at `b`. -/
def modify (s : BpAgent6) (b : Ptr) (f : Bundle6 → Bundle6) : BpAgent6 :=
  { s with toMemory := s.toMemory.modify b f }

/-- An assignment to the primary header of the bundle at `b`. -/
def modifyHeader (s : BpAgent6) (b : Ptr) (f : BpHeader6 → BpHeader6) : BpAgent6 :=
  s.modify b fun x => { x with primaryHeader := f x.primaryHeader }

/-- A call into the bundle store. -/
def withStore (s : BpAgent6) (f : BundleStore → Option BundleStore) : Option BpAgent6 := do
  let st ← f s.toBundleStore
  some { s with toBundleStore := st }

/-- `m_bundleStore.Remove (b)`. -/
def removeFromStore (s : BpAgent6) (b : Ptr) : Option BpAgent6 := s.withStore fun st => st.remove b

/-- `DoDispose` on the bundle at `b`. -/
def dispose (s : BpAgent6) (b : Ptr) : BpAgent6 :=
  { s with toBundleStore := s.toBundleStore.doDispose b }

/-- `BpAgent::IsNodeMember`. -/
def isNodeMember (s : BpAgent6) (eid : BpEndpointId) : Bool :=
  s.config.registration.any fun r => r.1 == eid

/-- `BpAgent::OutgoingCla`. -/
def outgoingCla (s : BpAgent6) (dst : BpEndpointId) : Option ClaId :=
  let nextHop := s.config.routingAgent.nextHopEid dst
  if nextHop == defaultEid then none else s.config.routingAgent.nextHopCla nextHop

/-- `BpAgent::GetEidAddress`. -/
def getEidAddress (s : BpAgent6) (eid : BpEndpointId) : InetSocketAddress :=
  s.config.routingAgent.getRoute eid

/-! ## Forwarding -/

/-- Schedules the next retransmission of the bundle at `b`. -/
def scheduleRetransmission (s : BpAgent6) (b : Ptr) : BpAgent6 :=
  { s with
    heap := Function.update s.heap b { s.heap b with nextRetrans := some s.sim.nextUid }
    sim := s.sim.schedule s.config.ctRto (.forward b) }

/-- What the loop of `Forward` writes into the headers before each `SendBundle`. -/
def stamp (size offset : ℕ) (fragment : Bool) (x : Bundle6) : Bundle6 :=
  { x with
    primaryHeader := ((x.primaryHeader.setBlockLength (UInt32.ofNat size)).setIsFragment
      fragment).setFragOffset (UInt32.ofNat offset)
    payloadHeader := x.payloadHeader.setBlockLength (UInt32.ofNat size) }

/-- `while (bytesLeft > 0)` in `Forward`.  `aduSize` is the size of the ADU; the first
argument bounds the iterations, which never end when the bundle size is zero. -/
def sendFragments (b : Ptr) (cla : ClaId) (dst : BpEndpointId) (aduSize : ℕ) (fragment : Bool) :
    ℕ → ℕ → BpAgent6 → Option BpAgent6
  | _, 0, s => some s
  | 0, _ + 1, _ => none
  | fuel + 1, left + 1, s => do
    let bytesLeft := left + 1
    let size := min bytesLeft s.config.bundleSize.toNat
    let offset := if fragment then aduSize - bytesLeft else 0
    let s := s.modify b (stamp size offset fragment)
    let tx ← sendBundle s.sim.now b (s.heap b) cla (s.getEidAddress dst)
    sendFragments b cla dst aduSize fragment fuel (bytesLeft - size)
      { s with handed := s.handed ++ [tx] }

/-- Steps 4 and 5 of `Forward`: what happens once a ready convergence layer is found. -/
def transmit (s : BpAgent6) (b : Ptr) (cla : ClaId) (dst : BpEndpointId) : Option BpAgent6 := do
  let s := if (s.header b).custTxReq then s.scheduleRetransmission b else s
  let adu ← (s.heap b).adu
  let fragment := decide (s.config.bundleSize.toNat < adu.size)
  s.sendFragments b cla dst adu.size fragment adu.size adu.size

/-- Step 6 of `Forward`. -/
def wrapUp (s : BpAgent6) (b : Ptr) : Option BpAgent6 := do
  let s := s.modify b fun x =>
    { x with retentionConstraints := x.retentionConstraints &&& ~~~forwardPending }
  if (s.heap b).retentionConstraints = 0 then
    let s ← s.removeFromStore b
    some (s.dispose b)
  else some s

/-- The convergence layer `Forward` finds for the bundle at `b`, when it is ready. -/
def readyCla (s : BpAgent6) (b : Ptr) : Option ClaId :=
  (s.outgoingCla (s.header b).getDestinationEid).filter fun cla => s.config.isReady cla

/-- `BpAgent6::Forward`. -/
def forward (s : BpAgent6) (b : Ptr) : Option BpAgent6 :=
  let s := s.modify b fun x =>
    { x with retentionConstraints :=
        (x.retentionConstraints ||| forwardPending) &&& ~~~dispatchPending }
  match s.readyCla b with
  -- contraindicated: the bundle waits with its flag set
  | none => some s
  | some cla => do
    let s ← s.transmit b cla (s.header b).getDestinationEid
    s.wrapUp b

/-! ## Sending -/

/-- The fields `Send` sets between the endpoint ids. -/
def fillHeader (h : BpHeader6) (size : ℕ) (lifetime : Time) (custody : Bool) (priority : UInt32)
    (now : Time) (seq : UInt32) : BpHeader6 :=
  let h := h.setCustTxReq custody
  let h := h.setIsFragment false
  let h := h.setFragOffset 0
  let h := h.setCreateTimestamp (UInt32.ofNat (wholeSeconds now))
  let h := h.setSequenceNumber seq
  let h := h.setLifeTime lifetime
  let h := h.setPriority priority.toUInt8
  h.setAduLength (UInt32.ofNat size)

/-- The primary header of a bundle sent with these arguments by an agent whose own
endpoint id is `own`. -/
def newHeader (own : BpEndpointId) (size : ℕ) (src dst : BpEndpointId) (lifetime : Time)
    (custody : Bool) (priority : UInt32) (now : Time) (seq : UInt32) : Option BpHeader6 := do
  let h ← Bundle6.defaultHeader
  let h ← h.setSourceEid src
  let h ← h.setDestinationEid dst
  let h := fillHeader h size lifetime custody priority now seq
  if custody then h.setCustEid own else some h

/-- Step 2 of `Send`: the bundle is created at `b` and stored. -/
def createBundle (s : BpAgent6) (b : Ptr) (p : Packet) (src dst : BpEndpointId) (lifetime : Time)
    (custody : Bool) (priority : UInt32) : Option BpAgent6 := do
  let h ← newHeader s.config.eid p.size src dst lifetime custody priority s.sim.now s.seq
  let bundle := { Bundle6.new h (.new BpBlockHeader6.bundlePayloadBlock) p with
    retentionConstraints := if custody then dispatchPending ||| custodyAccepted else dispatchPending }
  let s := { s.modify b (fun _ => bundle) with seq := s.seq + 1 }
  s.withStore fun st => st.store b

/-- `BpAgent6::Send`, with its return code. -/
def send (s : BpAgent6) (b : Ptr) (p : Packet) (src dst : BpEndpointId) (lifetime : Time)
    (custody : Bool) (priority : UInt32) : Option (BpAgent6 × ℤ) :=
  if src != defaultEid && !s.isNodeMember src then some (s, -1)
  else do
    let s ← s.createBundle b p src dst lifetime custody priority
    let s ← s.forward b
    some (s, 0)

/-! ## Administrative records -/

/-- One iteration over the ack list: `ack` is merged with `thisack` where they touch. -/
def mergeAck (thisack ack : UInt32 × UInt32) : UInt32 × UInt32 :=
  let ack := if ack.2 = thisack.1 then (ack.1, thisack.2) else ack
  if thisack.2 = ack.1 then (thisack.1, ack.2) else ack

/-- The ack list after an acknowledgement of `thisack`. -/
def addAck (thisack : UInt32 × UInt32) (acks : List (UInt32 × UInt32)) : List (UInt32 × UInt32) :=
  let acks := acks.map (mergeAck thisack)
  if acks.length = 0 then acks ++ [thisack] else acks

/-- One acknowledged range is left and it is the whole ADU. -/
def fullyAcked (acks : List (UInt32 × UInt32)) (aduLength : UInt32) : Bool :=
  match acks with
  | [ack] => ack.1 == 0 && ack.2 == aduLength
  | _ => false

/-- What `EnqueueForDeliveryToApplication` does with a custody signal. -/
def processCustodySignal (s : BpAgent6) (cs : CustodySignal) : Option BpAgent6 :=
  if cs.status = CustodySignal.succeeded then
    match s.getBundle (.ofUri cs.srcEid) cs.creationTimestamp cs.seqNo with
    | some x =>
      let thisack := (cs.fragmentOffset, cs.fragmentOffset + cs.fragmentLength)
      let s := s.modify x fun y => { y with acks := addAck thisack y.acks }
      if fullyAcked (s.heap x).acks (s.header x).aduLength then do
        let s ← s.removeFromStore x
        some (s.dispose x)
      else some s
    | none => some s
  else some s

/-- `RemoveHeader` on the ADU of the bundle at `b`. -/
def stripAdu {α : Type} (s : BpAgent6) (b : Ptr)
    (removeFrom : List UInt8 → Option (α × List UInt8)) : Option (α × BpAgent6) := do
  let adu ← (s.heap b).adu
  let (header, rest) ← removeFrom adu.bytes
  let stripped ← Packet.ofBytes rest
  some (header, s.modify b fun x => { x with adu := some stripped })

/-- The branches on the type of the administrative record at `b`. -/
def handleAdminRecord (s : BpAgent6) (b : Ptr) (ar : AdminRecord) : Option BpAgent6 :=
  if ar.isCustodySignal then do
    let (cs, s) ← s.stripAdu b CustodySignal.removeFrom
    s.processCustodySignal cs
  else if ar.isAggregateCustodySignal then do
    -- `ACS` is a stub that takes one byte and looks at nothing
    let (_, s) ← s.stripAdu b fun bytes => some ((), bytes.drop 1)
    some s
  else some s

/-- Local agent delivery: the ADU of the bundle at `b` is taken as an administrative
record, then the bundle is removed.  `RemoveHeader (ar)` always returns one. -/
def processAdminRecord (s : BpAgent6) (b : Ptr) : Option BpAgent6 := do
  let (ar, s) ← s.stripAdu b AdminRecord.removeFrom
  let s ← s.handleAdminRecord b ar
  let s ← s.removeFromStore b
  some (s.dispose b)

/-! ## Reassembly -/

/-- One iteration of the coalescing loop: the new fragment at `b` against the stored
bundle at `it`. -/
def coalesceWith (s : BpAgent6) (b it : Ptr) : Option BpAgent6 := do
  let header := s.header b
  let itHeader := s.header it
  let itAdu ← (s.heap it).adu
  let adu ← (s.heap b).adu
  if header.fragOffset = itHeader.fragOffset + itAdu.getSize then
    let joined ← itAdu.addAtEnd adu
    let s ← (s.modify it fun x => { x with adu := some joined }).removeFromStore b
    if joined.getSize = itHeader.aduLength then
      some (s.modifyHeader it fun h => h.setIsFragment false)
    else some s
  else if header.fragOffset + adu.getSize = itHeader.fragOffset then
    let joined ← adu.addAtEnd itAdu
    let s ← (s.modify b fun x => { x with adu := some joined }).removeFromStore it
    if joined.getSize = header.aduLength then
      some (s.modifyHeader b fun h => h.setIsFragment false)
    else some s
  else some s

/-- The coalescing loop over the matching bundles. -/
def coalesce (b : Ptr) : List Ptr → BpAgent6 → Option BpAgent6
  | [], s => some s
  | it :: rest, s => do
    let s ← s.coalesceWith b it
    coalesce b rest s

/-- A fragment is matched against the stored bundles of the same identity. -/
def matchFragments (s : BpAgent6) (b : Ptr) : Option BpAgent6 :=
  if (s.header b).isFragment then
    coalesce b (s.getBundles (s.header b).getSourceEid (s.header b).createTimestamp
      (s.header b).timestampSeqNum) s
  else some s

/-- The bundle is for the local agent rather than an application. -/
def isForAgent (s : BpAgent6) (b : Ptr) : Bool := (s.header b).getDestinationEid == s.config.eid

/-- `BpAgent6::EnqueueForDeliveryToApplication`. -/
def enqueueForDeliveryToApplication (s : BpAgent6) (b : Ptr) : Option BpAgent6 :=
  let s := { s with delivered := s.delivered ++ [(s.sim.now, b, s.header b)] }
  if s.isForAgent b then do
    let s ← s.processAdminRecord b
    s.matchFragments b
  else s.matchFragments b

/-! ## Receiving -/

/-- The fragment length of a custody signal about the bundle at `b`. -/
def signalLength (s : BpAgent6) (b : Ptr) : Option UInt32 :=
  if (s.header b).isFragment then (s.heap b).adu.map Packet.getSize else some 0

/-- The custody signal `SendCustodySignal` generates for the bundle at `b`. -/
def custodySignalFor (s : BpAgent6) (b : Ptr) : Option CustodySignal := do
  let header := s.header b
  let fragmentLength ← s.signalLength b
  some {
    status := CustodySignal.succeeded
    fragmentOffset := header.fragOffset
    fragmentLength := fragmentLength
    timeOfSignal := s.sim.now
    creationTimestamp := header.createTimestamp
    seqNo := header.timestampSeqNum
    srcEidLen := UInt32.ofNat header.getSourceEid.uri.length
    srcEid := header.getSourceEid.uri }

/-- The packet of a custody signal about the bundle at `b`. -/
def custodySignalPacket (s : BpAgent6) (b : Ptr) : Option (CustodySignal × Packet) := do
  let cs ← s.custodySignalFor b
  let ar : AdminRecord := ⟨if (s.header b).isFragment then
    (arCustodySignal <<< 4) ||| arFragment else arCustodySignal <<< 4⟩
  let p ← Packet.ofBytes (ar.serialize ++ cs.encode)
  some (cs, p)

/-- `BpAgent6::SendCustodySignal`, for a success; the signal becomes the bundle at `q`. -/
def sendCustodySignal (s : BpAgent6) (b q : Ptr) (lifetime : Time) : Option BpAgent6 := do
  let (cs, p) ← s.custodySignalPacket b
  let s := { s with signals := s.signals ++ [(s.sim.now, b, cs)] }
  let (s, _) ← s.send q p s.config.eid (s.header b).getCustEid lifetime false 0
  some s

/-- `BpRegistration.find (eid)`: the state of the registration. -/
def findRegistration (s : BpAgent6) (eid : BpEndpointId) : Option Bool :=
  (s.config.registration.find? fun r => r.1 == eid).map Prod.snd

/-- Step 2 of `Deliver`: a passive registration gets nothing. -/
def enqueueIfActive (s : BpAgent6) (b : Ptr) (state : Bool) : Option BpAgent6 :=
  if state then s.enqueueForDeliveryToApplication b else some s

/-- `BpAgent6::Deliver`. -/
def deliver (s : BpAgent6) (b q : Ptr) : Option BpAgent6 :=
  match s.findRegistration (s.header b).getDestinationEid with
  | none => some s
  | some state => do
    let s ← s.enqueueIfActive b state
    if (s.header b).custTxReq then s.sendCustodySignal b q (s.header b).lifeTime else some s

/-- `BpAgent::Dispatch`. -/
def dispatch (s : BpAgent6) (b q : Ptr) : Option BpAgent6 :=
  if s.isNodeMember (s.header b).getDestinationEid then s.deliver b q else s.forward b

/-- The part of `ProcessBundle` before `Dispatch`: the bundle is at `b` and stored. -/
def acceptBundle (s : BpAgent6) (b : Ptr) (rx : ReceivedBundle) : Option BpAgent6 :=
  let bundle := { Bundle6.new rx.header rx.payloadHeader rx.adu with
    retentionConstraints := dispatchPending }
  (s.modify b fun _ => bundle).withStore fun st => st.store b

/-- `BpAgent::ProcessBundle`, for a bundle that `DataRecv` built at `b`. -/
def processBundle (s : BpAgent6) (b q : Ptr) (rx : ReceivedBundle) : Option BpAgent6 := do
  let s ← s.acceptBundle b rx
  s.dispatch b q

/-- `BpAgent::Receive`. -/
def receive (s : BpAgent6) (eid : BpEndpointId) : Option (BpAgent6 × Option Packet) := do
  let (st, p) ← s.toBundleStore.getAndRemoveBundle eid false
  let s := { s with toBundleStore := st }
  match p with
  | some adu =>
    some ({ s with
      bundlesDelivered := s.bundlesDelivered + 1
      bytesDelivered := s.bytesDelivered + adu.size }, some adu)
  | none => some (s, none)

/-! ## Callbacks -/

/-- `Forward` on each bundle of a list. -/
def forwardAll : List Ptr → BpAgent6 → Option BpAgent6
  | [], s => some s
  | b :: rest, s => do
    let s ← s.forward b
    forwardAll rest s

/-- `BpAgent::ClaReady`. -/
def claReady (s : BpAgent6) (cla : ClaId) : Option BpAgent6 :=
  forwardAll (s.getForwardPendingBundles cla s.outgoingCla) s

/-- The simulator takes the event out of its queue and sets its clock. -/
def popEvent (s : BpAgent6) (e : ScheduledEvent) : BpAgent6 :=
  { s with sim := { s.sim with now := e.ts, pending := s.sim.pending.erase e } }

/-- The call an event makes. -/
def runCallback (s : BpAgent6) : Callback → Option BpAgent6
  | .expire b => s.withStore fun st => st.expire b
  | .forward b => s.forward b

end BpAgent6
end BundleProtocol
