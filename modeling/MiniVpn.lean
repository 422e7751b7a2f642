import MiniVpn.Lib.Table
import MiniVpn.Lib.Runs
import MiniVpn.Lib.EpochGuard
import MiniVpn.Lib.Decode
import MiniVpn.Lib.Scan
import MiniVpn.Net
import MiniVpn.FakeIp
import MiniVpn.PoolTheorems
import MiniVpn.Assoc
import MiniVpn.AssocTheorems
import MiniVpn.ReuseDistance
import MiniVpn.Target
import MiniVpn.DnsPolicy
import MiniVpn.Tcp
import MiniVpn.Slot
import MiniVpn.Registry
import MiniVpn.Relay
import MiniVpn.Loop
import MiniVpn.Flows
import MiniVpn.Effects
import MiniVpn.Invariants
import MiniVpn.Wiring
import MiniVpn.References
import MiniVpn.Reaping
import MiniVpn.Scheduling
import MiniVpn.RelayExits
import MiniVpn.Downlink
import MiniVpn.Handshakes
import MiniVpn.Buffering
import MiniVpn.Uplink
import MiniVpn.Changes
import MiniVpn.Representation
import MiniVpn.Backlog
import MiniVpn.ListenerSetup
import MiniVpn.RegistryTheorems
import MiniVpn.ListenerCap
import MiniVpn.Teardown
import MiniVpn.HalfClose
import MiniVpn.Failover
import MiniVpn.Switching
import MiniVpn.HealthTask
import MiniVpn.Heartbeat
import MiniVpn.UdpPump
import MiniVpn.TuicConnection
import MiniVpn.OneConnection
import MiniVpn.Identifiers
import MiniVpn.SocketText
import MiniVpn.SocketDisplay
import MiniVpn.TargetText
import MiniVpn.Packets
import MiniVpn.Addresses
import MiniVpn.Reassembly
import MiniVpn.Dns
import MiniVpn.UdpDownlink
import MiniVpn.Upcalls
import MiniVpn.Blocking
import MiniVpn.Names
import MiniVpn.Backpressure
import MiniVpn.Retention
import MiniVpn.LiveFlows
import MiniVpn.Forging
import MiniVpn.UdpFlows
import MiniVpn.Reality.KeySchedule
import MiniVpn.Reality.Record
import MiniVpn.Reality.ServerHello
import MiniVpn.Reality.HelloGrammar
import MiniVpn.Reality.ClientHello
import MiniVpn.Reality.Handshake
import MiniVpn.Reality.Authentication
import MiniVpn.Reality.Messages
import MiniVpn.Reality.Deliveries
import MiniVpn.Reality.CleanEnd
import MiniVpn.Reality.Stream
import MiniVpn.Reality.Segmentation
import MiniVpn.Reality.WritePath
import MiniVpn.Reality.Lockstep
import MiniVpn.Reality.ReadPath
import MiniVpn.Reality.Certificate
import MiniVpn.Reality.Establish
import MiniVpn.Reality.Server
import MiniVpn.Reality.Session
import MiniVpn.Reality.RelaySession
