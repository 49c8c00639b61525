import P2PNet.API.Answers
import P2PNet.API.Daemon
import P2PNet.API.Garbage
import P2PNet.API.Isolation
import P2PNet.API.KeyForms
import P2PNet.API.Lifetimes
import P2PNet.API.NodeIds
import P2PNet.API.Server
import P2PNet.API.Sockets
import P2PNet.API.UnixAPISocket
import P2PNet.API.Wire
import P2PNet.Common.Base58
import P2PNet.Common.MathString
import P2PNet.DHT.Capacity
import P2PNet.DHT.Closest
import P2PNet.DHT.Distance
import P2PNet.DHT.Duplicates
import P2PNet.DHT.Exhaustion
import P2PNet.DHT.Growth
import P2PNet.DHT.Insertion
import P2PNet.DHT.Network
import P2PNet.DHT.Rebuild
import P2PNet.DHT.Search
import P2PNet.DHT.Service
import P2PNet.Discovery.Announcements
import P2PNet.Discovery.BootstrapDiscovery
import P2PNet.Discovery.Daemon
import P2PNet.Discovery.DiscoveryService
import P2PNet.Discovery.UDPLPD
import P2PNet.Library.Agreement
import P2PNet.Library.Answering
import P2PNet.Library.Link
import P2PNet.Library.Matching
import P2PNet.Library.Stack
import P2PNet.Overlay.Completions
import P2PNet.Overlay.Delivery
import P2PNet.Overlay.Handshaking
import P2PNet.Overlay.KeyHistory
import P2PNet.Overlay.Lifecycle
import P2PNet.Overlay.Preference
import P2PNet.Overlay.Rotation
import P2PNet.Overlay.Secrecy
import P2PNet.Overlay.Skeleton
import P2PNet.P2P.Database
import P2PNet.P2P.Rebinding
import P2PNet.Transport.Establishment
import P2PNet.Transport.Mesh
import P2PNet.Transport.Provenance
import P2PNet.Transport.Registration
import P2PNet.Transport.Timers
