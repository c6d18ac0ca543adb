import RoutingMesh.RoutingLookup
import RoutingMesh.DirectLinks
import RoutingMesh.RoutingFollows
import RoutingMesh.GossipFreshness
import RoutingMesh.HierarchicalForwarding
import RoutingMesh.BeaconCodec
import RoutingMesh.TcpPeers
import RoutingMesh.TransmitOrder
import RoutingMesh.SlotGate
import RoutingMesh.PrimOptimality
import RoutingMesh.TreeRouting
import RoutingMesh.LinkQualityBounds
import RoutingMesh.AdmittedNodes
import RoutingMesh.FramedConnection
import RoutingMesh.MsgIdGaps
import RoutingMesh.SlotSync
import RoutingMesh.OwnComponent
import RoutingMesh.MergedQualities
import RoutingMesh.WorseMeasurement
import RoutingMesh.RowFreshness
import RoutingMesh.ExpiredReports
import RoutingMesh.MergeIdempotent
import RoutingMesh.SlotWindow
import RoutingMesh.MstSearch
import RoutingMesh.SlotMoves
import RoutingMesh.PdrWindow
import RoutingMesh.PdrCounterWrap
import RoutingMesh.SlotBudget
import RoutingMesh.ReceiveBuffer
import RoutingMesh.LossWindow
import RoutingMesh.TxQueueHeap
import RoutingMesh.KernelRoutes
import RoutingMesh.SlotExclusion
import RoutingMesh.DataGate
import RoutingMesh.Membership
import RoutingMesh.NodeShutdown
import RoutingMesh.WireNetwork
import RoutingMesh.PacketDelivery
import RoutingMesh.PeerSockets
import RoutingMesh.RouteCommands
import RoutingMesh.PeerAddresses
import RoutingMesh.TransmitLedger
import RoutingMesh.MeshTraffic
import RoutingMesh.SlotTurns
import RoutingMesh.MutexUse
import RoutingMesh.NewsSpread
import RoutingMesh.HeardHops
