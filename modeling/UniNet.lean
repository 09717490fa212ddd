import UniNet.Errno
import UniNet.Infra.Bytes
import UniNet.Infra.Word
import UniNet.Infra.Serial
import UniNet.Infra.Search
import UniNet.Infra.Run
import UniNet.Infra.Text
import UniNet.Infra.History
import UniNet.Infra.Ledger
import UniNet.Infra.Access
import UniNet.Infra.Ring
import UniNet.Tcp.StreamBuffer
import UniNet.Tcp.Pipe
import UniNet.Tcp.Queue
import UniNet.Tcp.Socket
import UniNet.Tcp.Receive
import UniNet.Tcp.Window
import UniNet.Tcp.Reassembly
import UniNet.Http.Common
import UniNet.Http.Parser
import UniNet.Http.Server
import UniNet.Http.Header
import UniNet.Http.Response
import UniNet.Http.Step
import UniNet.Http.Sendfile
import UniNet.Http.Work
import UniNet.Http.Routing
import UniNet.Http.Framing
import UniNet.Http.Wire
import UniNet.Http.Connection
import UniNet.Http.Message
import UniNet.Http.Exchange
import UniNet.Http.KeepAlive
import UniNet.Http.Service
import UniNet.Http.Boundary
import UniNet.Http.Uploads
import UniNet.Http.Slots
import UniNet.Http.Lines
import UniNet.Http.RequestLine
import UniNet.Http.Bounds
import UniNet.Http.Interest
import UniNet.Http.Leftovers
import UniNet.Http.Thread
import UniNet.Udp.Stack
import UniNet.Udp.Address
import UniNet.Udp.Client
import UniNet.Udp.Shared
import UniNet.Udp.Dispatch
import UniNet.Udp.Timeouts
import UniNet.Udp.Server
import UniNet.Udp.Receive
import UniNet.Udp.Account
import UniNet.Udp.Lifecycle
import UniNet.Udp.Send
import UniNet.Ftp.Common
import UniNet.Ftp.Client
import UniNet.Ftp.Act
import UniNet.Ftp.Chain
import UniNet.Ftp.Moves
import UniNet.Ftp.Sequence
import UniNet.Ftp.Commands
import UniNet.Ftp.Passive
import UniNet.Ftp.Multiline
import UniNet.Ftp.Stream
import UniNet.Ftp.Replies
import UniNet.Ftp.Transfer
import UniNet.Ftp.Startup
import UniNet.Ftp.Sockets
import UniNet.Ftp.Arrival
import UniNet.Ftp.Disconnect
import UniNet.Ftp.Tasks
