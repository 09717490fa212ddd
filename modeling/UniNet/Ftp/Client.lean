import UniNet.Ftp.Common

/-!
# The FTP client

`uni_net_ftp_client.c`, function by function. Every function takes the session to the session
afterwards: it changes the context and adds what it calls to the log. The names are those of
the source without the `_uni_net_ftp_client_` in front.

`step` is one iteration of the worker's loop, `session` a whole run of the thread. The
application may call the client between two iterations, while the worker waits in
`FreeRTOS_select`, and inside every callback.
-/

namespace UniNet.Ftp

open Infra

/-! ## Helpers -/

namespace Session

/-- One more event. -/
def emit (s : Session) (e : Event) : Session := { s with log := s.log ++ [e] }

/-- The time: how many events there were. -/
def now (s : Session) : Nat := s.log.length

def setTask (s : Session) (task : Task) : Session :=
  { s with client := { s.client with task := task } }

/-- `ctx->state.task.state = state`. -/
def setState (s : Session) (state : TaskState) : Session :=
  s.setTask { s.client.task with state := state }

/-- `ctx->state.task.type = type`. -/
def setType (s : Session) (type : TaskType) : Session :=
  (s.setTask { s.client.task with type := type }).emit (.setType type)

end Session

/-- `strncpy(task.name, filename, sizeof(task.name) - 1)`. -/
def taskName (filename : CString) : CString where
  bytes := filename.bytes.take 31
  noNul := fun h => filename.noNul (List.mem_of_mem_take h)

/-- The empty string. -/
def noName : CString := ⟨[], by simp⟩

/-- `uni_net_ftp_client_disconnect`, `uni_net_ftp_client_download` and `uni_net_ftp_client_list`. -/
def apiCall (inside : Option CallbackType) (s : Session) (call : ApiCall) : Session :=
  let s := s.emit (.api inside call)
  match call with
  | .disconnect => s.setType .termination
  | .download filename cookie size =>
    if s.client.isIdle then
      let s := s.setType .retr
      s.setTask
        { s.client.task with
          state := .notStarted
          progress := 0
          progressTotal := u32 size
          cookieFile := cookie
          name := taskName filename }
    else s
  | .list =>
    if s.client.isIdle then
      let s := s.setType .list
      s.setTask
        { s.client.task with
          state := .notStarted
          progress := 0
          progressTotal := 0
          name := noName }
    else s

def apiCalls (inside : Option CallbackType) (s : Session) (calls : List ApiCall) : Session :=
  calls.foldl (apiCall inside) s

/-- `if (ctx->state.callback) ctx->state.callback(…)`, with what the application does in it. -/
def callback (inp : Input) (s : Session) (call : Callback) : Session :=
  if s.client.callback then
    apiCalls (some call.type) (s.emit (.callback call)) (inp.callback s.now)
  else s

/-- `_uni_net_ftp_client_send_cmd`. None of its callers looks at the result. -/
def sendCmd (inp : Input) (s : Session) (cmd : Bytes) : Session :=
  s.emit (.send s.client.socketCmd cmd (inp.send s.now))

/-- `snprintf` into `char data[64]`. -/
def snprintf64 (text : Bytes) : Bytes := text.take 63

def switchToPassive (inp : Input) (s : Session) : Session := sendCmd inp s (ascii "PASV\r\n")

def listFiles (inp : Input) (s : Session) : Session := sendCmd inp s (ascii "LIST\r\n")

def retrFile (inp : Input) (s : Session) (file : CString) : Session :=
  sendCmd inp s (snprintf64 (ascii "RETR " ++ file.bytes ++ crlf))

def sendLogin (inp : Input) (s : Session) : Session :=
  sendCmd inp s (snprintf64 (ascii "USER " ++ s.client.config.authUser.bytes ++ crlf))

def sendPassword (inp : Input) (s : Session) : Session :=
  sendCmd inp s (snprintf64 (ascii "PASS " ++ s.client.config.authPassword.bytes ++ crlf))

/-- `if (socket != NULL) { FreeRTOS_closesocket(socket); socket = NULL; }`. -/
def closeSocket (role : Role) (s : Session) : Session :=
  match s.client.socket role with
  | some sock =>
    { client := s.client.setSocket role none, log := s.log ++ [.closesocket sock] }
  | none => s

/-- `_uni_net_ftp_client_set_to_idle`. -/
def setToIdle (s : Session) : Session :=
  let s := (closeSocket .data s).setType .idle
  s.setTask
    { s.client.task with
      state := .finished
      cookieFile := none
      progress := 0
      progressTotal := 0
      name := noName }

/-! ## Connection -/

/-- `FreeRTOS_connect`. The stack refuses a socket that is not valid. -/
def freertosConnect (inp : Input) (now : Nat) : Socket → Int
  | .valid _ => inp.connect now
  | .invalid => -9

/-- The options that are set for a connection to `port`. -/
def sockOpts (cfg : Config) (port : Nat) : List SockOpt :=
  (if port ≠ cfg.serverPort then [.winProperties] else [])
    ++ (if 0 < cfg.timeoutRx then [.rcvTimeo] else [])
    ++ (if 0 < cfg.timeoutTx then [.sndTimeo] else [])

/-- The first lines of `connect_socket`. -/
def createSet (inp : Input) (s : Session) : Session :=
  match s.client.socketSet with
  | none =>
    let set := if inp.createSocketSet s.now then some s.now else none
    { client := { s.client with socketSet := set }, log := s.log ++ [.createSocketSet set] }
  | some _ => s

/-- `*socket = FreeRTOS_socket(…)`. -/
def createSocket (inp : Input) (role : Role) (s : Session) : Session :=
  let sock := (inp.socket s.now).map fun ok => if ok then Socket.valid s.now else .invalid
  { client := s.client.setSocket role sock, log := s.log ++ [.socket role sock] }

/-- `connect_socket` up to the call of `FreeRTOS_connect`. -/
def prepareSocket (inp : Input) (role : Role) (port : Nat) (s : Session) : Session :=
  let s := createSocket inp role (createSet inp s)
  match s.client.socket role with
  | some sock =>
    { s with log := s.log ++ (sockOpts s.client.config port).map (Event.setsockopt sock) }
  | none => s

/-- `_uni_net_ftp_client_connect_socket`, with the role in place of the pointer. -/
def connectSocket (inp : Input) (role : Role) (port : Nat) (s : Session) : Session × Bool :=
  let s := prepareSocket inp role port s
  match s.client.socket role with
  | some sock =>
    let result := freertosConnect inp s.now sock
    let s := s.emit (.connect role sock s.client.config.serverAddr port result)
    if result = 0 then (s.emit (.fdSet sock s.client.socketSet), true) else (s, false)
  | none => (s, false)

/-- `if (socket_set != NULL) { FreeRTOS_DeleteSocketSet(socket_set); socket_set = NULL; }`. -/
def deleteSet (s : Session) : Session :=
  match s.client.socketSet with
  | some set =>
    { client := { s.client with socketSet := none }, log := s.log ++ [.deleteSocketSet set] }
  | none => s

/-- The sockets and the set, as `disconnect` gives them back. -/
def closeSockets (s : Session) : Session := deleteSet (closeSocket .cmd (closeSocket .data s))

/-- `_uni_net_ftp_client_disconnect` with `call_callback`. -/
def disconnect (inp : Input) (reason : Reason) (s : Session) : Session :=
  (callback inp (closeSockets s) (.disconnect reason)).setType .termination

/-! ## Handlers -/

/-- `_uni_net_ftp_client_handler_150`. The payload is never NULL. -/
def handler150 (s : Session) (str : Bytes) : Session :=
  let total :=
    match strchrBehind 40 str with
    | some text => u32OfInt (strtolValue text)
    | none => 1
  s.setTask { s.client.task with progressTotal := total }

def handler20x (s : Session) : Session := s.setState .finished

def handler220 (s : Session) : Session :=
  if s.client.task.type = .startup then
    s.setTask { s.client.task with state := .notStarted, progress := 0 }
  else s

def handler226 (s : Session) : Session := s

/-- The loop of `handler_227` from number `i` on: all numbers up to the sixth, or `none`. -/
def parsePasv : Nat → Bytes → Option (List Int)
  | 0, _ => some []
  | n + 1, p =>
    match strtol p with
    | none => none
    | some (v, rest) =>
      if n = 0 then some [v]
      else
        match rest with
        | 44 :: rest => (parsePasv n rest).map (v :: ·)
        | _ => none

/-- `uint16_t port = (data[4] << 8) + data[5]`. -/
def pasvPort (data : List Int) : Nat := ((data.getD 4 0 * 256 + data.getD 5 0) % 2 ^ 16).toNat

/-- The port in the payload of a 227 reply. -/
def pasvTarget (str : Bytes) : Option Nat :=
  match strchrBehind 40 str with
  | some text => (parsePasv 6 text).map pasvPort
  | none => none

/-- `_uni_net_ftp_client_handler_227`. -/
def handler227 (inp : Input) (s : Session) (str : Bytes) : Session :=
  let (s, result) :=
    match pasvTarget str with
    | some port => connectSocket inp .data port s
    | none => (s, false)
  let s := s.setState .started
  if result then s else s.setType .termination

def handler230 (s : Session) : Session := s.setState .finished

def handler257 (s : Session) : Session := s.setState .finished

def handler331 (inp : Input) (s : Session) : Session := sendPassword inp s

def handlerError (inp : Input) (s : Session) : Session := disconnect inp .responseErr s

def handler530 (inp : Input) (s : Session) : Session := sendLogin inp s

def handler550 (s : Session) : Session := s.setState .failed

/-! ## Replies -/

/-- The handlers that `_uni_net_ftp_client_cmd_map` refers to. -/
inductive Handler where
  | h150
  | h20x
  | h220
  | h226
  | h227
  | h230
  | h257
  | h331
  | error
  | h530
  | h550
  deriving DecidableEq

/-- `_uni_net_ftp_client_cmd_map`. -/
def cmdMap : List (Int × Handler) :=
  [ (150, .h150), (200, .h20x), (202, .h20x), (220, .h220), (226, .h226), (227, .h227),
    (230, .h230), (257, .h257), (331, .h331), (421, .error), (425, .error), (426, .error),
    (451, .error), (500, .error), (501, .error), (530, .h530), (550, .h550) ]

/-- What a line says: its handler, `none` for an unknown code; or that it is not a reply. -/
inductive Reply where
  | wrongData
  | wrongCmd
  | handled (handler : Handler) (payload : Bytes)
  deriving DecidableEq

/-- How `_uni_net_ftp_client_work_cmd_single` reads a line. -/
def replyOf (buf : Bytes) : Reply :=
  if buf.length < 4 ∨ (byteAt buf 3 ≠ 32 ∧ byteAt buf 3 ≠ 45) then .wrongData
  else
    match cmdMap.find? fun row => row.1 = strtolValue (buf.take 3) with
    | some row => .handled row.2 (buf.drop 4)
    | none => .wrongCmd

/-- The call through the map. -/
def handle (inp : Input) (s : Session) (payload : Bytes) : Handler → Session
  | .h150 => handler150 s payload
  | .h20x => handler20x s
  | .h220 => handler220 s
  | .h226 => handler226 s
  | .h227 => handler227 inp s payload
  | .h230 => handler230 s
  | .h257 => handler257 s
  | .h331 => handler331 inp s
  | .error => handlerError inp s
  | .h530 => handler530 inp s
  | .h550 => handler550 s

/-- `_uni_net_ftp_client_work_cmd_single`. -/
def workCmdSingle (inp : Input) (s : Session) (buf : Bytes) : Session :=
  let s := s.emit (.line buf)
  match replyOf buf with
  | .wrongData => disconnect inp .wrongData s
  | .wrongCmd => disconnect inp .wrongCmd s
  | .handled handler payload => handle inp s payload handler

/-- The loop over the lines. The task may have been terminated before, too. -/
def workCmdLines (inp : Input) : List Bytes → Session → Session
  | [], s => s
  | line :: lines, s =>
    let s := if line = [] then s else workCmdSingle inp s line
    if s.client.task.type = .termination then s else workCmdLines inp lines s

/-- `_uni_net_ftp_client_work_cmd`. -/
def workCmd (inp : Input) (s : Session) : Session :=
  let s := s.emit (.recvcount s.client.socketCmd inp.recvcount)
  if 0 < inp.recvcount then
    let s := s.emit (.calloc inp.calloc)
    if inp.calloc then
      let bytes := inp.recv.take inp.recvcount
      let s := s.emit (.recv s.client.socketCmd bytes)
      if bytes = [] then disconnect inp .noBytes s
      -- the buffer was zeroed, so its text ends where the received bytes end
      else workCmdLines inp (splitLines (CString.ofBytes bytes).bytes) s
    else disconnect inp .memoryAlloc s
  else s

/-! ## Data -/

/-- What `work_data` does with a slice. -/
def recvSlice (inp : Input) (data : Bytes) (s : Session) : Session :=
  let s := if s.client.task.state = .started then s.setState .inProgress else s
  let s := callback inp s (.recv data)
  let s := s.setTask
    { s.client.task with progress := u32 (s.client.task.progress + data.length) }
  s.emit (.release s.client.socketData data)

/-- The `do` loop of `work_data`. -/
def workDataLoop (inp : Input) : List Bytes → Session → Session
  | [], s => s.emit (.recvData s.client.socketData [])
  | data :: rest, s =>
    let s := s.emit (.recvData s.client.socketData data)
    if data = [] then s
    else
      let s := recvSlice inp data s
      if s.client.task.progress < s.client.task.progressTotal then workDataLoop inp rest s else s

/-- `_uni_net_ftp_client_work_data`. -/
def workData (inp : Input) (s : Session) : Session :=
  match s.client.task.type with
  | .list | .retr => workDataLoop inp inp.data s
  | _ => s

/-! ## The task -/

/-- `_uni_net_ftp_client_startup_cmds`. -/
def startupCmds : List Bytes := [ascii "OPTS UTF8 ON\r\n", ascii "TYPE I\r\n", ascii "PWD\r\n"]

/-- `_uni_net_ftp_client_work_state_startup`. -/
def workStateStartup (inp : Input) (s : Session) : Session :=
  let s :=
    if s.client.task.state = .finished then
      s.setTask
        { s.client.task with progress := u32 (s.client.task.progress + 1), state := .notStarted }
    else s
  let s :=
    if startupCmds.length ≤ s.client.task.progress then (s.setType .idle).setState .finished
    else s
  if s.client.task.state = .notStarted then
    let s := s.setState .inProgress
    sendCmd inp s (startupCmds.getD s.client.task.progress [])
  else s

/-- `_uni_net_ftp_client_work_state_data`. -/
def workStateData (inp : Input) (s : Session) : Session :=
  match s.client.task.state with
  | .notStarted => switchToPassive inp (s.setState .switchToPasv)
  | .started =>
    match s.client.task.type with
    | .retr => retrFile inp (s.setState .requested) s.client.task.name
    | .list => listFiles inp (s.setState .requested)
    | _ => setToIdle s
  | .inProgress =>
    if s.client.task.progressTotal ≤ s.client.task.progress then
      setToIdle (callback inp s .recvFinished)
    else s
  | .failed => setToIdle (callback inp s .recvFailed)
  | _ => s

/-- `_uni_net_ftp_client_work_state`. -/
def workState (inp : Input) (s : Session) : Session :=
  let s := s.emit (.workState s.client.task.type s.client.task.state)
  match s.client.task.type with
  | .startup => workStateStartup inp s
  | .retr | .list => workStateData inp s
  | _ => s

/-! ## The thread -/

/-- The loop body once the select has returned; a reason is a `break`. -/
def workSelected (inp : Input) (s : Session) : Session × Option Reason :=
  if inp.select then
    let s := s.emit (.fdIsset s.client.socketCmd s.client.socketSet inp.cmdSet)
    let s := if inp.cmdSet then workCmd inp s else s
    let s :=
      if s.client.socketData.isSome then
        let s := s.emit (.fdIsset s.client.socketData s.client.socketSet inp.dataSet)
        if inp.dataSet then workData inp s else s
      else s
    (workState inp s, none)
  else
    let s := s.emit (.isNetworkUp inp.networkUp)
    if inp.networkUp then
      let s := s.emit (.issocketconnected s.client.socketCmd inp.connected)
      if inp.connected then (workState inp s, none) else (s, some .socket)
    else (s, some .network)

/-- The body of the loop of `_uni_net_ftp_client_thread`. -/
def body (inp : Input) (s : Session) : Session × Option Reason :=
  let (s, connected) :=
    if s.client.socketCmd.isNone then connectSocket inp .cmd s.client.config.serverPort s
    else (s, true)
  if connected then
    let s := apiCalls none s inp.selectApi
    workSelected inp (s.emit (.select s.client.socketSet inp.select))
  else (s, some .connect)

/-- What the thread does behind its loop. -/
def finish (inp : Input) (reason : Reason) (s : Session) : Session :=
  let s := disconnect inp reason s
  { client := { s.client with thread := false }, log := s.log ++ [.taskDelete] }

/-- One round of the loop; nothing more happens once the thread has deleted itself. -/
def step (inp : Input) (s : Session) : Session :=
  if s.client.thread then
    let s := apiCalls none s inp.api
    if s.client.task.type = .termination then finish inp .termination s
    else
      match body inp s with
      | (s, none) => s
      | (s, some reason) => finish inp reason s
  else s

/-- The beginning of `_uni_net_ftp_client_thread`. -/
def threadStart (s : Session) : Session :=
  let s := ((closeSockets s).setType .termination).setType .startup
  s.setTask { s.client.task with state := .inProgress, progress := 0 }

/-- A context whose thread was just created: nothing is left of an earlier session but its task. -/
def newClient (config : Config) (hasCallback : Bool) (task : Task) : Client where
  config := config
  thread := true
  socketSet := none
  socketCmd := none
  socketData := none
  task := task
  callback := hasCallback

/-- The run of a thread. -/
def session (config : Config) (hasCallback : Bool) (task : Task) (inputs : List Input) : Session :=
  inputs.foldl (fun s inp => step inp s) (threadStart ⟨newClient config hasCallback task, []⟩)

end UniNet.Ftp
