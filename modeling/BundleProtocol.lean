import BundleProtocol.TransitionSystem
import BundleProtocol.FlagWord
import BundleProtocol.OrderedList
import BundleProtocol.OrderedMap
import BundleProtocol.AccessLog
import BundleProtocol.FixedBuffer
import BundleProtocol.Tiling
import BundleProtocol.Agent
import BundleProtocol.AgentRun
import BundleProtocol.Accounting
import BundleProtocol.Relay
import BundleProtocol.Retransmission
import BundleProtocol.StoreOrder
import BundleProtocol.Custody
import BundleProtocol.CustodySignals
import BundleProtocol.Dictionary
import BundleProtocol.EndToEnd
import BundleProtocol.SendSockets
import BundleProtocol.TcpStream
import BundleProtocol.Cbhe
import BundleProtocol.Bundle7
import BundleProtocol.Lifetimes
import BundleProtocol.Registrations
import BundleProtocol.Expiry
import BundleProtocol.Routing
import BundleProtocol.RouteLog
import BundleProtocol.Partition
import BundleProtocol.Serving
import BundleProtocol.PriorityOrder
import BundleProtocol.PriorityService
import BundleProtocol.Draining
import BundleProtocol.StoreRun
import BundleProtocol.Accesses
import BundleProtocol.Disposal
import BundleProtocol.ProcessingFlags
import BundleProtocol.EidWire
import BundleProtocol.CheckedDecoder
import BundleProtocol.DecoderSafety
import BundleProtocol.EidParts
import BundleProtocol.StringTable
import BundleProtocol.Decimal
import BundleProtocol.EidRoles
import BundleProtocol.LastWriter
import BundleProtocol.HeaderNumbers
import BundleProtocol.CbheLossless
import BundleProtocol.MinimalSdnv
import BundleProtocol.FlowClassifier
import BundleProtocol.FlowProbeTag
import BundleProtocol.Interleaving
import BundleProtocol.Network
import BundleProtocol.Provenance
import BundleProtocol.Identities
import BundleProtocol.Integrity
import BundleProtocol.CustodyTransfer
import BundleProtocol.Persistence
import BundleProtocol.Custodian
import BundleProtocol.RelayPath
import BundleProtocol.FlowProbe
import BundleProtocol.BlockFlags
import BundleProtocol.Carrying
import BundleProtocol.Handshake
import BundleProtocol.Reception
