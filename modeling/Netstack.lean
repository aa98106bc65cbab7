import Netstack.Library.Transition
import Netstack.Library.SerialNumber
import Netstack.Library.Stream
import Netstack.Library.Scan
import Netstack.Tcp.Segment
import Netstack.TcpConnection.State
import Netstack.TcpConnection.Reassembly
import Netstack.TcpConnection.Engine
import Netstack.TcpConnection.Run
import Netstack.TcpConnection.Promotion
import Netstack.TcpConnection.Fixpoint
import Netstack.TcpConnection.ReceivePath
import Netstack.TcpConnection.Calls
import Netstack.TcpConnection.SendSide
import Netstack.TcpConnection.Outstanding
import Netstack.TcpConnection.Reach
import Netstack.TcpConnection.Timer
import Netstack.TcpConnection.CloseStates
import Netstack.TcpConnection.StreamEnd
import Netstack.TcpConnection.PendingFin
import Netstack.TcpConnection.HonestPeer
import Netstack.TcpConnection.Stranded
import Netstack.TcpConnection.Retry
import Netstack.TcpConnection.Completeness
import Netstack.TcpConnection.Capacity
import Netstack.TcpConnection.Bounds
import Netstack.TcpConnection.Arrays
import Netstack.TcpConnection.SynSent
import Netstack.Library.Backoff
import Netstack.TcpConnection.Schedule
import Netstack.TcpConnection.Duplicate
import Netstack.TcpConnection.Shift
import Netstack.Library.Memory
import Netstack.Library.Format
import Netstack.Bytes
import Netstack.Dns.Name
import Netstack.Dns.Response
import Netstack.Http.Chunked
import Netstack.Http.ChunkedCoding
import Netstack.Library.OnesComplement
import Netstack.Checksum
import Netstack.Ethernet.Frame
import Netstack.Udp.Datagram
import Netstack.Icmp.Echo
import Netstack.Ipv4.Packet
import Netstack.Ipv4.Codec
import Netstack.Tcp.Codec
import Netstack.Stack.Integrity
import Netstack.Stack.Encapsulation
import Netstack.Udp.Padding
import Netstack.Stack.InternetChecksum
import Netstack.Stack.PacketStructs
import Netstack.Stack.Serializers
import Netstack.Library.CString
import Netstack.Dns.Query
import Netstack.Library.Padding
import Netstack.Http.ChunkSize
import Netstack.Http.Completeness
import Netstack.Http.Response
import Netstack.Http.Head
import Netstack.Http.TransferEncoding
import Netstack.Http.Report
import Netstack.Http.StatusLine
import Netstack.Http.Arrival
import Netstack.Http.Request
import Netstack.Http.Accumulation
import Netstack.Http.Lengths
import Netstack.Arp.Packet
import Netstack.TcpConnection.Endpoint
import Netstack.TcpConnection.Link
import Netstack.TcpConnection.Acknowledged
import Netstack.TcpConnection.Recovery
import Netstack.Library.Interaction
import Netstack.Netdev.Host
import Netstack.Tools.Reception
import Netstack.Tools.Packets
import Netstack.Tools.Http
import Netstack.TcpConnection.Handshake
import Netstack.Tools.Connect
import Netstack.Http.Settled
import Netstack.Tools.Session
import Netstack.Tools.RunHttp
import Netstack.Tools.HttpReport
import Netstack.Tools.Arp
import Netstack.Tools.Query
import Netstack.Tools.Tcp
