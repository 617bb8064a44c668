import NetLabs.Lib.Lts
import NetLabs.Lib.Ledger
import NetLabs.Lib.TailQueue
import NetLabs.ChecksumLoops
import NetLabs.Ctcp.SendQueue
import NetLabs.Ctcp.Retransmission
import NetLabs.Ctcp.Accounting
import NetLabs.Ctcp.Delivery
import NetLabs.Ctcp.AckHonesty
import NetLabs.Ctcp.Validity
import NetLabs.Ctcp.BbrModes
import NetLabs.Ctcp.Read
import NetLabs.Ctcp.Teardown
import NetLabs.Ctcp.EndOfStream
import NetLabs.Ctcp.Stranding
import NetLabs.Ctcp.FlowControl
import NetLabs.Ctcp.Datagram
import NetLabs.Ctcp.OutputQueue
import NetLabs.Ctcp.MainLoop
import NetLabs.Ctcp.ConnectionList
import NetLabs.Ctcp.ConnectionTable
import NetLabs.Ctcp.SequenceComparison
import NetLabs.Ctcp.UninitialisedMemory
import NetLabs.Ctcp.Segmentation
import NetLabs.Ctcp.CumulativeAck
import NetLabs.Ctcp.LostAck
import NetLabs.Ctcp.RttEstimates
import NetLabs.Ctcp.RttWindow
import NetLabs.Ctcp.CwndRange
import NetLabs.Ctcp.Pacing
import NetLabs.Ctcp.Timestamps
import NetLabs.Ctcp.ChecksumTransfer
import NetLabs.Ctcp.Corruption
import NetLabs.Ctcp.DestroyQueues
import NetLabs.Ctcp.TimerSpacing
import NetLabs.Ctcp.DatagramBounds
import NetLabs.Ctcp.RecvFilter
import NetLabs.Ctcp.HandshakeAck
import NetLabs.Ctcp.ConnInput
import NetLabs.Router.CacheMap
import NetLabs.Router.Conservation
import NetLabs.Router.LifeCycle
import NetLabs.Router.SlowPath
import NetLabs.Router.Emission
import NetLabs.Router.ServerCommand
import NetLabs.Router.LongestPrefix
import NetLabs.Router.RequestHandles
import NetLabs.Router.ReadCommand
import NetLabs.Router.RoutingTableFile
import NetLabs.Router.FrameBounds
import NetLabs.Vns.HardwareInfo
import NetLabs.Vns.Decoding
import NetLabs.Vns.Framing
import NetLabs.Vns.PacketFraming
import NetLabs.Ctcp.Handshake
import NetLabs.Ctcp.Wire
import NetLabs.Vns.Transparency
import NetLabs.Router.Announcements
