import BundleProtocol.Bundle
import BundleProtocol.AdminRecord

/-! # Routing and convergence layers

The lookups of the static routing agent, and the two ends of a convergence layer:
`SendBundle` slices the payload out of the bundle at the fragment offset its header
shows and puts both headers in front of it, `DataRecv` takes them off again.
`dataRecv_wire` says that the receiving end reads the headers and the payload it was
sent.
-/
namespace BundleProtocol
open ByteParser

/-- `InetSocketAddress`. -/
structure InetSocketAddress where
  addr : UInt32
  port : UInt16
deriving DecidableEq

/-- The address `127.0.0.1:0` that stands for no route. -/
def noRoute : InetSocketAddress := ⟨0x7F000001, 0⟩

/-- A convergence layer, by its address. -/
abbrev ClaId := ℕ

/-! ## Static routing -/

/-- `dtnRoute`. -/
structure DtnRoute where
  dstEid : BpEndpointId
  nxtHop : BpEndpointId
  up : Bool
  addr : UInt32
  port : UInt16
  cla : Option ClaId
  note : List UInt8

/-- `BpStaticRoutingAgent`: a map from destinations to lists of routes. -/
structure BpStaticRoutingAgent where
  routes : List (BpEndpointId × List DtnRoute)

namespace BpStaticRoutingAgent

/-- `m_routes.find (eid)`. -/
def find (agent : BpStaticRoutingAgent) (eid : BpEndpointId) : Option (List DtnRoute) :=
  (agent.routes.find? fun r => r.1 == eid).map Prod.snd

/-- The first route for `eid` that is up, which the three lookups walk to. -/
def firstUp (agent : BpStaticRoutingAgent) (eid : BpEndpointId) : Option DtnRoute := do
  let routes ← agent.find eid
  routes.find? fun r => r.up

def getRoute (agent : BpStaticRoutingAgent) (eid : BpEndpointId) : InetSocketAddress :=
  match agent.firstUp eid with
  | some r => ⟨r.addr, r.port⟩
  | none => noRoute

def nextHopEid (agent : BpStaticRoutingAgent) (dst : BpEndpointId) : BpEndpointId :=
  match agent.firstUp dst with
  | some r => r.nxtHop
  | none => defaultEid

def nextHopCla (agent : BpStaticRoutingAgent) (eid : BpEndpointId) : Option ClaId :=
  match agent.firstUp eid with
  | some r => r.cla
  | none => none

end BpStaticRoutingAgent

/-! ## Sending -/

/-- One call of `SendBundle`: what was handed to which convergence layer, when and
for which address. -/
structure Transmission where
  time : Time
  bundle : Ptr
  cla : ClaId
  dstAddress : InetSocketAddress
  header : BpHeader6
  payloadHeader : BpBlockHeader6
  payload : Packet

/-- `BpCla::SendBundle` up to the headers: the payload is the range of the ADU that
the primary header names. -/
def sendBundle (time : Time) (b : Ptr) (bundle : Bundle6) (cla : ClaId)
    (dstAddress : InetSocketAddress) : Option Transmission := do
  let size := bundle.primaryHeader.blockLength
  let adu ← bundle.adu
  let payload ← adu.createFragment bundle.primaryHeader.fragOffset.toNat size.toNat
  some ⟨time, b, cla, dstAddress, bundle.primaryHeader, bundle.payloadHeader, payload⟩

/-- The packet `SendBundle` passes to `SendPacket`; `reserved` is what the space for
the payload header held before it was written. -/
def Transmission.wire (tx : Transmission) (reserved : List UInt8) : List UInt8 :=
  tx.header.serialize ++ tx.payloadHeader.addTo reserved tx.payload.bytes

/-- A header in a packet has a dictionary of a length that fits its field. -/
theorem Transmission.length_dictionary_lt {tx : Transmission} {reserved : List UInt8} {p : Packet}
    (hp : p.bytes = tx.wire reserved) : tx.header.dictionary.length < 2 ^ 32 := by
  have hsize := p.size_lt
  rw [hp, wire, BpHeader6.serialize] at hsize
  simp only [List.length_append, List.length_cons] at hsize
  omega

/-! ## Receiving -/

/-- A bundle as `DataRecv` builds it.  Those of its endpoint ids that the agent reads can be read:
reading one that cannot throws `std::out_of_range`, which nothing catches. -/
structure ReceivedBundle where
  header : BpHeader6
  payloadHeader : BpBlockHeader6
  adu : Packet
  readable : header.ReadableOnArrival

/-- `BpCla::DataRecv`, for one packet. -/
def dataRecv (cbhe : Bool) (packet : List UInt8) : Option ReceivedBundle := do
  let (header, rest) ← (BpHeader6.new cbhe).deserialize packet
  let (payloadHeader, rest) ← BpBlockHeader6.removeFrom rest
  let adu ← Packet.ofBytes rest
  if readable : header.ReadableOnArrival then some ⟨header, payloadHeader, adu, readable⟩ else none

/-- **The receiving end gets what was sent**: same headers, same payload, whatever the
reserved bytes held. -/
theorem dataRecv_wire {tx : Transmission} {n : ℕ} (hcbhe : tx.header.cbhe = false)
    (hlife : tx.header.lifeTime = seconds n) (hn : n < 2 ^ 64)
    (hdict : tx.header.dictionary.length < 2 ^ 32) (hreadable : tx.header.Readable)
    (hfit : tx.payloadHeader.serialize.length ≤ 6) {reserved : List UInt8}
    (hreserved : reserved.length = 6) :
    dataRecv false (tx.wire reserved) =
      some ⟨tx.header, tx.payloadHeader, tx.payload, hreadable.onArrival⟩ := by
  have hheader : { tx.header with cbhe := (BpHeader6.new false).cbhe } = tx.header := by
    show { tx.header with cbhe := false } = tx.header
    rw [← hcbhe]
  have hread := BpHeader6.reads_deserialize tx.header (BpHeader6.new false) hlife hn hdict
  rw [hheader] at hread
  unfold dataRecv Transmission.wire
  rw [hread]
  have hpayload : Packet.ofBytes tx.payload.bytes = some tx.payload :=
    Packet.ofBytes_eq_some tx.payload.size_lt
  simp [BpBlockHeader6.removeFrom_addTo hfit hreserved, hpayload, hreadable.onArrival]

end BundleProtocol
