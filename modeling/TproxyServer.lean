import TproxyServer.RecentRing
import TproxyServer.Change
import TproxyServer.BatchAgreement
import TproxyServer.BudgetAccounting
import TproxyServer.UplinkOnce
import TproxyServer.ControlHeadroom
import TproxyServer.DataRoom
import TproxyServer.BootstrapAccounting
import TproxyServer.LaneBound
import TproxyServer.LaneUplink
import TproxyServer.LaneOwners
import TproxyServer.LanePolls
import TproxyServer.BackendTraffic
import TproxyServer.ReadAllowance
import TproxyServer.FleetAccounting
import TproxyServer.TokenLife
import TproxyServer.Shutdown
import TproxyServer.Codec
import TproxyServer.DataBudget
import TproxyServer.PageFrames
import TproxyServer.DownlinkBodies
import TproxyServer.DownlinkGrammar
import TproxyServer.UplinkBytes
import TproxyServer.Reserves
import TproxyServer.BridgeAccounting
import TproxyServer.Representation
import TproxyServer.Rates
import TproxyServer.LaneIsolation
import TproxyServer.BridgeLanes
import TproxyServer.NewestPoll
import TproxyServer.Forwarding
import TproxyServer.Authority
import TproxyServer.FlowControl
import TproxyServer.TunnelOrder
import TproxyServer.SocketReader
import TproxyServer.SocketWriter
