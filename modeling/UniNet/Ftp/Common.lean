import UniNet.Infra.Text

/-!
# The FTP client: tasks, context and calls

The types of `uni_net_ftp_client.h`, and the vocabulary of a session: what the stack and the
application answer (`Input`), and every call the worker makes, in order (`Event`).
-/

namespace UniNet.Ftp

open Infra

/-! ## Tasks -/

/-- `uni_net_ftp_client_task_type_e`. -/
inductive TaskType where
  | startup
  | idle
  | retr
  | list
  | termination
  deriving DecidableEq, Repr

/--
`uni_net_ftp_client_task_state_e`. `REQUESTED` and `IN_PROGRESS` are both 4, so they are one
value here too.
-/
inductive TaskState where
  | notStarted
  | switchToPasv
  | started
  | inProgress
  | finished
  | failed
  deriving DecidableEq, Repr

/-- `UNI_NET_FTP_CLIENT_TASK_STATE_REQUESTED`. -/
@[match_pattern] abbrev TaskState.requested : TaskState := .inProgress

/-- `uni_net_ftp_client_task_t`. `name` is the C string in the array of 32 bytes. -/
structure Task where
  type : TaskType
  state : TaskState
  cookieFile : Option Nat
  progress : Nat
  progressTotal : Nat
  name : CString
  deriving DecidableEq

/-- The task of a context that is all zero. -/
def Task.zero : Task where
  type := .startup
  state := .notStarted
  cookieFile := none
  progress := 0
  progressTotal := 0
  name := .ofBytes []

/-- `UNI_NET_FTP_CLIENT_DISCONNECT_REASON_*`. -/
inductive Reason where
  | unknown
  | responseErr
  | wrongData
  | wrongCmd
  | memoryAlloc
  | noBytes
  | termination
  | connect
  | network
  | socket
  deriving DecidableEq, Repr

/-- `uni_net_ftp_client_callback_type_e`. -/
inductive CallbackType where
  | disconnect
  | recv
  | recvFinished
  | recvFailed
  deriving DecidableEq, Repr

/-- A call of the application's callback, with what is passed as data and size. -/
inductive Callback where
  | disconnect (reason : Reason)
  | recv (data : Bytes)
  | recvFinished
  | recvFailed
  deriving DecidableEq

def Callback.type : Callback → CallbackType
  | disconnect _ => .disconnect
  | recv _ => .recv
  | recvFinished => .recvFinished
  | recvFailed => .recvFailed

/-! ## The context -/

/--
A `Socket_t` that is not NULL: `FREERTOS_INVALID_SOCKET`, or a socket. A socket has the name
of the moment it was made at, so no two sockets of a session share one.
-/
inductive Socket where
  | invalid
  | valid (id : Nat)
  deriving DecidableEq

/-- Which of the two connections a call of `connect_socket` is for. -/
inductive Role where
  | cmd
  | data
  deriving DecidableEq

/-- `uni_net_ftp_client_config_t`. -/
structure Config where
  serverAddr : Nat
  serverPort : Nat
  timeoutRx : Nat
  timeoutTx : Nat
  authUser : CString
  authPassword : CString
  deriving DecidableEq

/-- A configuration without timeouts. -/
def Config.plain : Config where
  serverAddr := 16777343
  serverPort := 21
  timeoutRx := 0
  timeoutTx := 0
  authUser := .ofBytes (ascii "user")
  authPassword := .ofBytes (ascii "secret")

/--
`uni_net_ftp_client_context_t`. NULL is `none`; of the thread handle and of the callback only
matters whether there is one.
-/
structure Client where
  config : Config
  thread : Bool
  socketSet : Option Nat
  socketCmd : Option Socket
  socketData : Option Socket
  task : Task
  callback : Bool
  deriving DecidableEq

namespace Client

/-- The socket of a role. -/
def socket (c : Client) : Role → Option Socket
  | .cmd => c.socketCmd
  | .data => c.socketData

def setSocket (c : Client) (role : Role) (s : Option Socket) : Client :=
  match role with
  | .cmd => { c with socketCmd := s }
  | .data => { c with socketData := s }

/-- `uni_net_ftp_client_is_connected`. -/
def isConnected (c : Client) : Bool := c.socketCmd.isSome || c.thread

/-- `uni_net_ftp_client_is_idle`. -/
def isIdle (c : Client) : Bool := c.isConnected && c.task.type == .idle

end Client

/-! ## Calls -/

/-- The calls of the application that reach a running session. -/
inductive ApiCall where
  | disconnect
  | download (filename : CString) (cookie : Option Nat) (size : Nat)
  | list
  deriving DecidableEq

/-- The options that `connect_socket` sets. -/
inductive SockOpt where
  | winProperties
  | rcvTimeo
  | sndTimeo
  deriving DecidableEq

/-- What the worker calls, and the points of interest in between. -/
inductive Event where
  | createSocketSet (set : Option Nat)
  | deleteSocketSet (set : Nat)
  /-- `FreeRTOS_socket`, in `connect_socket` for this role -/
  | socket (role : Role) (s : Option Socket)
  | setsockopt (s : Socket) (opt : SockOpt)
  | connect (role : Role) (s : Socket) (addr port : Nat) (result : Int)
  | fdSet (s : Socket) (set : Option Nat)
  | closesocket (s : Socket)
  | select (set : Option Nat) (result : Bool)
  | fdIsset (s : Option Socket) (set : Option Nat) (result : Bool)
  | isNetworkUp (up : Bool)
  | issocketconnected (s : Option Socket) (result : Bool)
  | recvcount (s : Option Socket) (count : Nat)
  /-- `pvPortCalloc` -/
  | calloc (ok : Bool)
  /-- `FreeRTOS_recv` on the control connection -/
  | recv (s : Option Socket) (bytes : Bytes)
  /-- a line is passed to `work_cmd_single` -/
  | line (text : Bytes)
  | send (s : Option Socket) (text : Bytes) (result : Int)
  /-- `FreeRTOS_recv` on the data connection -/
  | recvData (s : Option Socket) (bytes : Bytes)
  /-- `FreeRTOS_ReleaseTCPPayloadBuffer` -/
  | release (s : Option Socket) (bytes : Bytes)
  | callback (call : Callback)
  /-- the application calls the client, maybe inside a callback -/
  | api (inside : Option CallbackType) (call : ApiCall)
  /-- `task.type` is written -/
  | setType (type : TaskType)
  /-- `work_state` is entered with this task -/
  | workState (type : TaskType) (state : TaskState)
  /-- `vTaskDelete(NULL)` -/
  | taskDelete
  deriving DecidableEq

/--
What the stack and the application answer during one iteration of the worker. What can be
asked more than once is answered by the time, which is the number of events so far.

A result of `FreeRTOS_recv` that is not positive gives no bytes; which one it is plays no role.
The data connection hands over `data`, slice by slice, and then nothing more.
-/
structure Input where
  /-- calls of other tasks before the loop condition is tested -/
  api : List ApiCall
  createSocketSet : Nat → Bool
  /-- NULL, invalid or valid -/
  socket : Nat → Option Bool
  connect : Nat → Int
  /-- calls of other tasks while the worker waits in `FreeRTOS_select` -/
  selectApi : List ApiCall
  select : Bool
  cmdSet : Bool
  dataSet : Bool
  recvcount : Nat
  calloc : Bool
  recv : Bytes
  data : List Bytes
  networkUp : Bool
  connected : Bool
  send : Nat → Int
  /-- what the application calls inside the callback at this time -/
  callback : Nat → List ApiCall

/-- A worker that waits in vain, with a stack on which everything works. -/
def Input.idle : Input where
  api := []
  createSocketSet := fun _ => true
  socket := fun _ => some true
  connect := fun _ => 0
  selectApi := []
  select := false
  cmdSet := false
  dataSet := false
  recvcount := 0
  calloc := true
  recv := []
  data := []
  networkUp := true
  connected := true
  send := fun _ => 0
  callback := fun _ => []

/-- The control connection hands over these bytes, and everything else works. -/
def Input.reply (bytes : Bytes) : Input :=
  { Input.idle with select := true, cmdSet := true, recvcount := bytes.length, recv := bytes }

/-- Another task calls the client. -/
def Input.call (call : ApiCall) : Input := { Input.idle with api := [call] }

/-- The data connection hands over a slice. -/
def Input.slice (bytes : Bytes) : Input :=
  { Input.idle with select := true, dataSet := true, data := [bytes] }

/-- `FreeRTOS_send` takes so many bytes. -/
def Input.sends (inp : Input) (count : Int) : Input := { inp with send := fun _ => count }

/-- A server that asks for no login answers the startup commands. -/
def Input.startup : List Input :=
  [(Input.reply (ascii "220 ready\r\n")).sends 14, (Input.reply (ascii "200 ok\r\n")).sends 8,
    (Input.reply (ascii "200 ok\r\n")).sends 5, .reply (ascii "257 ok\r\n")]

/-- A listing that is under way. -/
def Input.listing : List Input :=
  Input.startup ++ [.call .list, .reply (ascii "227 (1,2,3,4,5,6)\r\n")]

/-- A listing, which the application breaks off. -/
def Input.brokenOff : List Input := Input.listing ++ [.call .disconnect]

/-- The context and everything that has happened. -/
structure Session where
  client : Client
  log : List Event
  deriving DecidableEq

end UniNet.Ftp
