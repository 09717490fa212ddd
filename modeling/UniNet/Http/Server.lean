import UniNet.Http.Parser

/-!
# The HTTP server, one client at a time

`uni_net_http_server.c` from the header formatter up to `_uni_net_http_server_client_work`.

A call of `clientWork` is a function of the context, the client and an `Input`: everything
the TCP stack and the registered handlers answer during that call. It returns the C result,
the client afterwards, and the calls it made, in order, as a list of events. So a run of the
server is a list of inputs, and an assumption about the stack is a property of the events.
-/

namespace UniNet.Http

open Infra

/-! ## Configuration -/

/--
`ipconfigTCP_MSS`, which all buffer sizes are multiples of.

`FreeRTOSIPConfigDefaults.h` refuses to compile below 536, and the stack keeps the value in
a `uint16_t`. This repository's build leaves the default, 1460.
-/
structure NetConfig where
  mss : Nat
  mss_ge : 536 ≤ mss
  mss_lt : mss < 2 ^ 16

namespace NetConfig

/-- `UNI_NET_HTTP_SERVER_RX_BUF`, the size of `buf_rx`. -/
def rxBuf (N : NetConfig) : Nat := 2 * N.mss

/-- `UNI_NET_HTTP_SERVER_TX_BUF`, the size of `buf_tx`. -/
def txBuf (N : NetConfig) : Nat := 6 * N.mss

/-- The configuration the build writes. -/
def default : NetConfig := ⟨1460, by decide, by decide⟩

theorem rxBuf_pos (N : NetConfig) : 0 < N.rxBuf := by
  have := N.mss_ge
  unfold rxBuf
  omega

theorem rxBuf_lt (N : NetConfig) : N.rxBuf < 2 ^ 31 := by
  have := N.mss_lt
  unfold rxBuf
  omega

theorem txBuf_ge (N : NetConfig) : 536 ≤ N.txBuf := by
  have := N.mss_ge
  unfold txBuf
  omega

theorem txBuf_lt (N : NetConfig) : N.txBuf < 2 ^ 31 := by
  have := N.mss_lt
  unfold txBuf
  omega

end NetConfig

/--
`uni_common_array_t` of Uni.Common, as the server uses it: whether it is valid, and the
elements in the order they were pushed.
-/
structure UniArray (α : Type) where
  valid : Bool
  items : List α

/-- The search loops: the first element with `p`, nothing in an array that is not valid. -/
def UniArray.search {α : Type} (a : UniArray α) (p : α → Bool) : Option α :=
  if a.valid then a.items.find? p else none

/-- `uni_net_http_server_config_t`. -/
structure Context where
  handlers : UniArray HttpHandler
  files : UniArray HttpFile
  maxClients : Nat

/-- The handler loop of `cmd_get_start` and `cmd_post_start`. -/
def Context.findHandler (ctx : Context) (command : CommandType) (url : CString) :
    Option HttpHandler :=
  ctx.handlers.search fun h => h.command == command && h.path == url

/-- The file loop of `cmd_get_start`. -/
def Context.findFile (ctx : Context) (url : CString) : Option HttpFile :=
  ctx.files.search fun f => f.path == url

/-! ## Clients -/

/-- `uni_net_http_server_client_state_t`. -/
structure Client (N : NetConfig) where
  socket : Nat
  commandType : CommandType
  file : Option HttpFile
  handler : Option HttpHandler
  fileOffset : Nat
  contentLength : Nat
  headerSent : Bool
  contentType : Option Bytes
  rxLen : Nat
  headersDone : Bool
  bufRx : Buf N.rxBuf
  bufTx : Buf N.txBuf
  deriving DecidableEq

namespace Client

variable {N : NetConfig}

/-- `pvPortCalloc` and the socket. -/
def new (N : NetConfig) (socket : Nat) : Client N where
  socket := socket
  commandType := .unknown
  file := none
  handler := none
  fileOffset := 0
  contentLength := 0
  headerSent := false
  contentType := none
  rxLen := 0
  headersDone := false
  bufRx := Buf.zero _
  bufTx := Buf.zero _

/-- `_uni_net_http_server_client_clear`. The socket and the two buffers stay. -/
def clear (c : Client N) : Client N :=
  { c with
    commandType := .unknown
    file := none
    handler := none
    fileOffset := 0
    contentLength := 0
    headerSent := false
    contentType := none
    rxLen := 0
    headersDone := false }

/-- The cleared state: clearing again changes nothing. -/
def Cleared (c : Client N) : Prop := c.clear = c

@[simp] theorem clear_clear (c : Client N) : c.clear.clear = c.clear := rfl

theorem cleared_clear (c : Client N) : c.clear.Cleared := clear_clear c

end Client

/-! ## What the environment answers -/

/-- A call of a handler function. A null `buf_out` is `none`, and so is a null `buf_in`. -/
structure HandlerCall where
  function : Nat
  userdata : Nat
  bufOut : Option Nat
  bufIn : Option Bytes
  deriving DecidableEq

/-- What a handler returns, and what it has written to the front of `buf_out`. -/
structure HandlerReply where
  size : Nat
  out : Bytes

/-- The outcome of `FreeRTOS_recv`. A negative result is `-(errno + 1)`. -/
inductive Recv where
  | data (bytes : Bytes)
  | error (errno : Nat)
  deriving DecidableEq

namespace Recv

def result : Recv → Int
  | data bytes => bytes.length
  | error errno => -(errno + 1)

def bytes : Recv → Bytes
  | data bytes => bytes
  | error _ => []

end Recv

/--
The answers of the stack and of the handlers during one call of `client_work`.

`send k` and `txSpace k` belong to the `k`-th place in the call that asks: the header is sent
with `send 0`, everything after it with the following ones.
-/
structure Input where
  connected : Bool
  recv : Recv
  send : Nat → Int
  txSpace : Nat → Int
  handler : HandlerCall → HandlerReply

/-- A connected socket on which nothing happens. -/
def Input.idle : Input where
  connected := true
  recv := .data []
  send := fun _ => 0
  txSpace := fun _ => 0
  handler := fun _ => ⟨0, []⟩

/-- `FreeRTOS_recv` never hands over more than the caller has room for. -/
def Input.recvUpTo (inp : Input) (len : Nat) : Recv :=
  match inp.recv with
  | .data bytes => .data (bytes.take len)
  | .error errno => .error errno

/-- The bits of `FreeRTOS_FD_SET` and `FreeRTOS_FD_CLR`. -/
inductive SelectBit where
  | read
  | write
  | except
  | intr
  deriving DecidableEq

/-- The calls a client makes, and the points of interest in between. -/
inductive Event where
  /-- `FreeRTOS_recv` with room for `len` bytes -/
  | recv (len : Nat) (r : Recv)
  /-- a complete header block was found in the first `rxLen` bytes of the buffer -/
  | headers (block : Bytes) (rxLen : Nat)
  /-- `_uni_net_http_server_cmd_process_start` -/
  | start (cmdType : CommandType) (url : CString)
  /-- `_uni_net_http_server_send_header`, with the announced length and the bytes of the header -/
  | sendHeader (status : Status) (length : Nat) (header : Bytes) (result : Int)
  /-- `FreeRTOS_tx_space` -/
  | txSpace (space : Int)
  /-- `FreeRTOS_send` of response data -/
  | send (data : Bytes) (result : Int)
  /-- a handler function was called -/
  | call (call : HandlerCall)
  /-- a null function pointer was called -/
  | nullCall
  | fdSet (bits : List SelectBit)
  | fdClr (bits : List SelectBit)
  /-- `FreeRTOS_accept` returned the socket of this client -/
  | accept (socket : Nat)
  | closesocket
  deriving DecidableEq

/-- What a call returns: the C result, the client afterwards, and the events. -/
structure Out (N : NetConfig) where
  result : Int
  client : Client N
  events : List Event
  deriving DecidableEq

variable {N : NetConfig}

/-! ## The response header -/

/-- The texts that `send_header` formats one after the other. -/
def headerLines (status : Status) (contentType : Option Bytes) (length : Nat) : List Bytes :=
  [ ascii "HTTP/1.1 " ++ decText status.code ++ ascii " " ++ statusName status ++ ascii "\r\n",
    ascii "Content-Type: " ++ contentType.getD (ascii "text/html") ++ ascii "\r\n",
    ascii "Cache-Control: no-store, no-cache, must-revalidate, max-age=0\r\n",
    ascii "Pragma: no-cache\r\n",
    ascii "Expires: 0\r\n",
    ascii "Connection: keep-alive\r\n",
    ascii "Content-Length: " ++ decText length ++ ascii "\r\n\r\n" ]

/--
One `snprintf` into `buf_tx_hdr` of `cap` bytes at `idx`: at most `cap - idx - 1` bytes with
the NUL, and the index grows by the length of the text, cut off or not.
-/
def formatLine (cap : Nat) (s : Bytes × Nat) (text : Bytes) : Bytes × Nat :=
  (s.1.take s.2 ++ text.take (cap - s.2 - 1 - 1), s.2 + text.length)

/-- `buf_tx_hdr` and `idx` after all the `snprintf` calls. -/
def formatHeader (cap : Nat) (lines : List Bytes) : Bytes × Nat :=
  lines.foldl (formatLine cap) ([], 0)

/-- The bytes that `send_header` passes to `FreeRTOS_send`. -/
def headerBytes (N : NetConfig) (status : Status) (contentType : Option Bytes) (length : Nat) :
    Bytes :=
  (formatHeader N.mss (headerLines status contentType length)).1.take
    (formatHeader N.mss (headerLines status contentType length)).2

/-- `_uni_net_http_server_send_header`. -/
def sendHeader (inp : Input) (c : Client N) (status : Status) : Out N :=
  -- an error is answered without a body, as text/html
  let c := if status ≠ .ok then { c with contentType := none, contentLength := 0 } else c
  { result := inp.send 0
    client := { c with headerSent := true }
    events := [.sendHeader status c.contentLength
      (headerBytes N status c.contentType c.contentLength) (inp.send 0)] }

/-! ## GET -/

/-- The variables of the `do` loop in `cmd_get_sendfile`; `idx` counts the rounds. -/
structure SendLoop (N : NetConfig) where
  client : Client N
  result : Int
  idx : Nat
  events : List Event

/-- `uxCount` of the next round. -/
def SendLoop.count (inp : Input) (file : HttpFile) (s : SendLoop N) : Nat :=
  min (u32OfInt (inp.txSpace s.idx)) (min (u32Sub file.size s.client.fileOffset) N.txBuf)

/-- One round of the `do` loop, and whether another one follows. -/
def sendfileRound (inp : Input) (file : HttpFile) (s : SendLoop N) : SendLoop N × Bool :=
  if 0 < s.count inp file then
    let bufTx := s.client.bufTx.write 0
      ((file.data.drop s.client.fileOffset).take (s.count inp file))
    ({ client :=
        { s.client with
          bufTx := bufTx
          fileOffset := u32 (s.client.fileOffset + s.count inp file) }
       result := inp.send (s.idx + 1)
       idx := s.idx + 1
       events := s.events ++ [.txSpace (inp.txSpace s.idx),
         .send (bufTx.slice 0 (s.count inp file)) (inp.send (s.idx + 1))] },
      decide (0 ≤ inp.send (s.idx + 1)))
  else
    ({ s with idx := s.idx + 1, events := s.events ++ [.txSpace (inp.txSpace s.idx)] }, false)

/-- At most `k` rounds of the loop, and whether it has ended by itself. -/
def sendfileLoop (inp : Input) (file : HttpFile) : Nat → SendLoop N → SendLoop N × Bool
  | 0, s => (s, false)
  | k + 1, s =>
    if (sendfileRound inp file s).2 then sendfileLoop inp file k (sendfileRound inp file s).1
    else ((sendfileRound inp file s).1, true)

/-- The header in front of the first part of a file. -/
def sendfileHeader (inp : Input) (c : Client N) (file : HttpFile) (url : Option CString) : Out N :=
  if c.headerSent then ⟨0, c, []⟩
  else sendHeader inp
    { c with contentType := some (contentType url), contentLength := file.size } .ok

/-- What `cmd_get_sendfile` does when the loop has ended. -/
def sendfileFinish (file : HttpFile) (s : SendLoop N) : Out N :=
  if file.size ≤ s.client.fileOffset then
    ⟨s.result, s.client.clear, s.events ++ [.fdClr [.write]]⟩
  else
    ⟨s.result, s.client, s.events ++ [.fdSet [.write]]⟩

/--
`_uni_net_http_server_cmd_get_sendfile`, with `client->file` as an argument.

Every round that continues advances the offset, so `file.size + 1` rounds are enough
(`sendfileLoop_ends`).
-/
def cmdGetSendfile (inp : Input) (c : Client N) (file : HttpFile) (url : Option CString) : Out N :=
  let o := sendfileHeader inp c file url
  let s : SendLoop N := { client := o.client, result := o.result, idx := 0, events := o.events }
  if 0 ≤ o.result then
    sendfileFinish file (sendfileLoop inp file (file.size + 1) s).1
  else
    sendfileFinish file s

/--
The response of a handler, as `cmd_get_sendresponse` and `cmd_post_next` both send it: the
handler has returned `reply`, the length is cut down to the free space, and header and body
are sent.
-/
def sendReply (inp : Input) (c : Client N) (reply : HandlerReply) (type : Bytes) : Out N :=
  -- the free space is asked for before the header takes its share of it
  let c :=
    { c with
      bufTx := c.bufTx.write 0 reply.out
      contentLength := min (u32OfInt (inp.txSpace 0)) (u32OfInt (i32 reply.size))
      contentType := some type }
  let o := sendHeader inp c .ok
  if 0 ≤ o.result ∧ 0 ≤ i32 reply.size then
    { result := inp.send 1
      client := o.client
      events := .txSpace (inp.txSpace 0) :: o.events
        ++ [.send (o.client.bufTx.slice 0 o.client.contentLength) (inp.send 1)] }
  else
    -- the result of the header is lost here
    { result := i32 reply.size
      client := o.client
      events := .txSpace (inp.txSpace 0) :: o.events }

/-- `_uni_net_http_server_cmd_get_sendresponse`, with `client->handler` as an argument. -/
def cmdGetSendresponse (inp : Input) (c : Client N) (handler : HttpHandler) (url : CString) :
    Out N :=
  let o :=
    match handler.command, handler.function with
    | .get, some f =>
      let call : HandlerCall :=
        { function := f
          userdata := handler.userdata
          bufOut := some N.txBuf
          bufIn := some c.bufRx.bytes }
      let o := sendReply inp c (inp.handler call) (contentType (some url))
      { o with events := .call call :: o.events }
    | _, _ => sendHeader inp c .internalserverr
  { o with client := o.client.clear, events := o.events ++ [.fdClr [.write]] }

/-- The handler loop of the start handlers, on the client: no match leaves the pointer alone. -/
def selectHandler (ctx : Context) (c : Client N) (command : CommandType) (url : CString) :
    Client N :=
  match ctx.findHandler command url with
  | some h => { c with handler := some h }
  | none => c

/-- The file loop of `cmd_get_start`, on the client. -/
def selectFile (ctx : Context) (c : Client N) (url : CString) : Client N :=
  match ctx.findFile url with
  | some f => { c with file := some f }
  | none => c

/-- `_uni_net_http_server_cmd_get_start`. -/
def cmdGetStart (ctx : Context) (inp : Input) (c : Client N) (url : CString) : Out N :=
  let c := selectHandler ctx { c with commandType := .get } .get url
  match c.handler with
  | some h => cmdGetSendresponse inp c h url
  | none =>
    let c := selectFile ctx c url
    match c.file with
    | some f => cmdGetSendfile inp c f (some url)
    | none =>
      let o := sendHeader inp c .notfound
      { o with client := o.client.clear }

/-- `_uni_net_http_server_cmd_get_next`. -/
def cmdGetNext (inp : Input) (c : Client N) : Out N :=
  match c.file with
  | some f => cmdGetSendfile inp c f none
  | none => ⟨0, c, []⟩

/-! ## POST -/

/-- A call of `client->handler->function`. A null pointer is called without a check. -/
def callEvent (handler : HttpHandler) (bufOut : Option Nat) (bufIn : Option Bytes) : Event :=
  match handler.function with
  | some f => .call ⟨f, handler.userdata, bufOut, bufIn⟩
  | none => .nullCall

/-- What that call returns; behind a null pointer there is nothing to return. -/
def callReply (inp : Input) (handler : HttpHandler) (bufOut : Option Nat)
    (bufIn : Option Bytes) : HandlerReply :=
  match handler.function with
  | some f => inp.handler ⟨f, handler.userdata, bufOut, bufIn⟩
  | none => ⟨0, []⟩

/-- The call that hands over body bytes. -/
def chunkEvent (handler : HttpHandler) (data : Bytes) : Event :=
  callEvent handler none (some data)

/-- `_uni_net_http_server_cmd_post_next`. -/
def cmdPostNext (inp : Input) (c : Client N) : Out N :=
  match c.handler with
  | none => ⟨0, c, []⟩
  | some h =>
    let remaining := u32Sub c.contentLength c.fileOffset
    if 0 < remaining then
      let toRecv := min remaining N.rxBuf
      let r := inp.recvUpTo toRecv
      if 0 < r.result then
        let bufRx := c.bufRx.write 0 r.bytes
        let deliver := min r.bytes.length remaining
        { result := r.result
          client := { c with bufRx := bufRx, fileOffset := u32 (c.fileOffset + deliver) }
          events := [.recv toRecv r, chunkEvent h (bufRx.slice 0 deliver)] }
      else
        ⟨r.result, c, [.recv toRecv r]⟩
    else
      let o := sendReply inp c (callReply inp h (some N.txBuf) none) (ascii "text/plain")
      { result := o.result
        client := o.client.clear
        events := callEvent h (some N.txBuf) none :: o.events ++ [.fdClr [.read, .write]] }

/-- `cmd_post_start` once a handler is selected; `data` are the body bytes behind the block. -/
def cmdPostStartHandler (inp : Input) (c : Client N) (h : HttpHandler) (data : Bytes) : Out N :=
  -- what came with the block beyond the body is not looked at
  let chunk :=
    if c.fileOffset ≤ c.contentLength then
      min (u32Sub c.contentLength c.fileOffset) data.length
    else 0
  let called := if 0 < chunk then [chunkEvent h (data.take chunk)] else []
  let c := { c with fileOffset := u32 (c.fileOffset + chunk) }
  if c.contentLength ≤ c.fileOffset then
    let o := cmdPostNext inp c
    { o with events := called ++ o.events }
  else
    ⟨0, c, called ++ [.fdSet [.read]]⟩

/-- `_uni_net_http_server_cmd_post_start`. -/
def cmdPostStart (ctx : Context) (inp : Input) (c : Client N) (url : CString) (data : Bytes) :
    Out N :=
  let c := selectHandler ctx { c with commandType := .post } .post url
  match c.handler with
  | some h => cmdPostStartHandler inp c h data
  | none =>
    let o := sendHeader inp c .notfound
    { o with client := o.client.clear }

/-! ## Dispatch -/

/-- `_uni_net_http_server_cmd_process_start`: the rows of `g_http_cmd_map`, or nothing. -/
def cmdProcessStart (ctx : Context) (inp : Input) (c : Client N) (cmdType : CommandType)
    (url : CString) (data : Bytes) : Out N :=
  match cmdType with
  | .get => cmdGetStart ctx inp c url
  | .post => cmdPostStart ctx inp c url data
  | _ => ⟨0, c, []⟩

/-- `_uni_net_http_server_cmd_process_next`. -/
def cmdProcessNext (inp : Input) (c : Client N) : Out N :=
  match c.commandType with
  | .get => cmdGetNext inp c
  | .post => cmdPostNext inp c
  | _ => ⟨0, c, []⟩

/-- The answer 400 of `client_work`. Its callers choose the result. -/
def badRequest (inp : Input) (c : Client N) (result : Int) : Out N :=
  let o := sendHeader inp c .badrequest
  { result := result
    client := o.client.clear
    events := o.events ++ [.fdClr [.read, .write]] }

/-- The call of `process_start` and the reset of `rx_len` behind it. -/
def startRequest (ctx : Context) (inp : Input) (c : Client N) (cmdType : CommandType)
    (url : CString) (data : Bytes) : Out N :=
  let o := cmdProcessStart ctx inp c cmdType url data
  -- whatever follows the request in the buffer is dropped with this
  { o with client := { o.client with rxLen := 0 }, events := .start cmdType url :: o.events }

/-- `client_work` once the header block that ends at `e` is complete. -/
def clientWorkHeaders (ctx : Context) (inp : Input) (c : Client N) (e : Nat) : Out N :=
  let c := { c with headersDone := true }
  match findCmd c.bufRx.bytes c.rxLen with
  | none => badRequest inp c (-1)
  | some cmd =>
    match urlEnd c.bufRx.bytes (cmd.cmdLen + 1) e with
    | none => badRequest inp c (-1)
    | some i =>
      -- the URL ends in the buffer itself, with a NUL in place of the blank
      let c := { c with bufRx := c.bufRx.set i 0 }
      let url := CString.ofBytes (c.bufRx.bytes.drop (cmd.cmdLen + 1))
      let data := c.bufRx.slice e (u32Sub c.rxLen e)
      if cmd.cmdType = .post then
        match contentLength u32Digits c.bufRx.bytes e with
        | none => badRequest inp c (-1)
        | some n => startRequest ctx inp { c with contentLength := n } cmd.cmdType url data
      else
        startRequest ctx inp c cmd.cmdType url data

/-- `client_work` once bytes were appended to the receive buffer. -/
def clientWorkReceived (ctx : Context) (inp : Input) (c : Client N) (result : Int) : Out N :=
  match hdrEnd c.bufRx.bytes c.rxLen with
  -- a full buffer without an empty line never becomes a request
  | none => if c.rxLen = N.rxBuf then badRequest inp c result else ⟨result, c, []⟩
  | some e =>
    let o := clientWorkHeaders ctx inp c e
    { o with events := .headers (c.bufRx.bytes.take e) c.rxLen :: o.events }

/-- `_uni_net_http_server_client_work`. -/
def clientWork (ctx : Context) (inp : Input) (c : Client N) : Out N :=
  if inp.connected = false then ⟨-1, c, []⟩
  else if c.commandType = .unknown then
    let len := u32Sub N.rxBuf c.rxLen
    let r := inp.recvUpTo len
    if 0 < r.result then
      let c :=
        { c with
          bufRx := c.bufRx.write c.rxLen r.bytes
          rxLen := min (u32 (c.rxLen + r.bytes.length)) N.rxBuf }
      let o := clientWorkReceived ctx inp c r.result
      { o with events := .recv len r :: o.events }
    else
      ⟨0, c, [.recv len r]⟩
  else cmdProcessNext inp c

end UniNet.Http
