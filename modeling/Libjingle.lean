import Libjingle.Base.AddressText
import Libjingle.Base.IpPrefix
import Libjingle.Base.ByteQueue
import Libjingle.Base.ClockWrap
import Libjingle.Srtp.Keyed
import Libjingle.Srtp.Agreement
import Libjingle.Fifo.Uncommitted
import Libjingle.Base.Flow
import Libjingle.PseudoTcp.Parse
import Libjingle.PseudoTcp.Labels
import Libjingle.PseudoTcp.PacketSize
import Libjingle.PseudoTcp.Handshake
import Libjingle.PseudoTcp.Readable
import Libjingle.PseudoTcp.Estimator
import Libjingle.PseudoTcp.Options
import Libjingle.PseudoTcp.Timer
import Libjingle.PseudoTcp.Wrap
import Libjingle.Tunnel.Clock
import Libjingle.Stun.Lengths
import Libjingle.Stun.Bounds
import Libjingle.Stun.Checksum
import Libjingle.Stun.Reencoding
import Libjingle.Stun.Transactions
import Libjingle.Turn.Nonce
import Libjingle.Turn.Bindings
import Libjingle.Turn.Lifetime
import Libjingle.Turn.Sockets
import Libjingle.Turn.Relaying
import Libjingle.Relay.Expiry
import Libjingle.Relay.Table
import Libjingle.Ice.Agreement
import Libjingle.Tcp.AsyncTCPSocket
import Libjingle.P2P.Priority
import Libjingle.P2P.ClockShift
import Libjingle.P2P.Deletion
import Libjingle.P2P.Steady
import Libjingle.P2P.Follow
import Libjingle.P2P.Username
import Libjingle.Negotiation.Failed
import Libjingle.Signaling.Manager
import Libjingle.Signaling.Order
import Libjingle.Signaling.Trace
import Libjingle.Signaling.Watchdog
import Libjingle.Signaling.Delivery
import Libjingle.Xml.RoundTrip
import Libjingle.FileShare.Description
import Libjingle.FileShare.Session
import Libjingle.Tar.Inside
import Libjingle.Tar.RoundTrip
import Libjingle.Codec.Markup
import Libjingle.Codec.UrlEncode
import Libjingle.Codec.Hex
import Libjingle.Base.RollingAccumulator
import Libjingle.Media.Ssrcs
import Libjingle.Xml.Frames
import Libjingle.Xml.Children
import Libjingle.Signaling.NormalForm
import Libjingle.Turn.Refresh
import Libjingle.Media.RtpDumpLoop
import Libjingle.Http.Successive
