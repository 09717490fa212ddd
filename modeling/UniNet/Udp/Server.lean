import UniNet.Infra.Run
import UniNet.Udp.Stack

/-!
# The UDP server

A server is a context in memory and a task that was started for it. The task waits for the
network, obtains a mutex and a socket, gives them up again where a step fails, and receives in
bursts until it is asked to stop. `uni_net_udp_server_stop` runs on the side of the caller, at
the same time.

The model has one step for each access that the other side can see, so that a run is any
interleaving of the two. The kernel and the stack come in as answers. The log has the calls that
are made.

* `taskStep` — a step of `_uni_net_udp_server_task`
* `stopStep` — a step of `uni_net_udp_server_stop`
* `serverStep` — the two sides and the starts
* `server_wf` — what holds between the two sides: the task is known as long as it runs, it
  leaves when it is asked to and not before, and a context without a task and without a caller
  is all zero
-/

namespace UniNet.Udp

open Infra

/-! ## Configuration and context -/

/-- What the server is compiled with. -/
structure ServerBuild where
  /-- `UNI_NET_UDP_SERVER_RX_BATCH_DEPTH` -/
  batchDepth : Nat
  /-- `UNI_NET_UDP_SERVER_RX_BURST_BUDGET` -/
  burstBudget : Nat
  /-- `UNI_NET_UDP_SERVER_RX_QUEUE_PACKETS` -/
  queuePackets : Nat
  /-- `ipconfigUDP_MAX_RX_PACKETS` -/
  maxRxPackets : Nat

/-- The defaults of `uni_net_udp_server.c`, on a stack without a limit for received packets. -/
def ServerBuild.standard : ServerBuild := ⟨8, 32, 64, 0⟩

/-- `_udp_rx_queue_packets_value`. -/
def ServerBuild.rxQueuePackets (b : ServerBuild) : Nat :=
  if 0 < b.maxRxPackets then min b.queuePackets b.maxRxPackets else 0

/-- `uni_net_udp_server_config_t`, without what `xTaskCreate` alone looks at. -/
structure ServerConfig where
  bindAddr : UInt32
  bindPort : UInt16
  rxTimeoutMs : Nat
  txTimeoutMs : Nat
  onReceive : Option Nat
  user : Nat
  deriving DecidableEq

/-- The configuration of a server that is started without one. -/
def ServerConfig.standard : ServerConfig := ⟨0, 0, 1000, 1000, none, 0⟩

/-- A `Socket_t` as it is stored. -/
inductive SocketHandle where
  | null
  /-- `FREERTOS_INVALID_SOCKET` -/
  | invalid
  | valid (n : Nat)
  deriving DecidableEq

/-- `_socket_valid`. -/
def SocketHandle.isValid : SocketHandle → Bool
  | .valid _ => true
  | _ => false

/-- `uni_net_udp_server_context_t`. -/
structure ServerContext where
  config : ServerConfig
  initialized : Bool
  socket : SocketHandle
  lock : Option Nat
  task : Option Nat
  stopRequested : Bool
  rxPacketsTotal : Nat
  rxDropTotal : Nat
  rxQueuePackets : Nat
  deriving DecidableEq

/-- What `memset` leaves. -/
def ServerContext.zero : ServerContext where
  config := ⟨0, 0, 0, 0, none, 0⟩
  initialized := false
  socket := .null
  lock := none
  task := none
  stopRequested := false
  rxPacketsTotal := 0
  rxDropTotal := 0
  rxQueuePackets := 0

/-- `_stats_add_packets`. -/
def ServerContext.addPackets (ctx : ServerContext) (amount : Nat) : ServerContext :=
  { ctx with rxPacketsTotal := u64 (ctx.rxPacketsTotal + amount) }

/-- `_stats_add_drops`. -/
def ServerContext.addDrops (ctx : ServerContext) (amount : Nat) : ServerContext :=
  { ctx with rxDropTotal := u64 (ctx.rxDropTotal + amount) }

/-- `uni_net_udp_server_start`: what it returns and the context. `created` is what `xTaskCreate`
stores for the new task, if it makes one. -/
def serverStart (cfg : Option ServerConfig) (created : Option Nat) : Bool × ServerContext :=
  match created with
  | some task => (true, { ServerContext.zero with
      config := cfg.getD ServerConfig.standard
      task := some task })
  | none => (false, ServerContext.zero)

/-! ## Receiving -/

/-- What `FreeRTOS_recvfrom` does with `FREERTOS_ZERO_COPY`. -/
inductive RecvOutcome where
  /-- it hands out the payload of a datagram, which may be empty, and returns its length -/
  | datagram (payload length : Nat) (source : Sockaddr)
  /-- it returns `-errno` and hands out nothing -/
  | error (errno : Nat)
  deriving DecidableEq

namespace RecvOutcome

/-- What it returns. -/
def result : RecvOutcome → Int
  | datagram _ length _ => length
  | error errno => -errno

/-- What it stores in `payload`. -/
def payload : RecvOutcome → Option Nat
  | datagram payload _ _ => some payload
  | error _ => none

/-- What it stores in `from`. -/
def source : RecvOutcome → Sockaddr
  | datagram _ _ source => source
  | error _ => .zero

end RecvOutcome

/-- `_endpoint_from_sockaddr`. -/
def endpointFromSockaddr (source : Sockaddr) : Endpoint := ⟨source.addr, source.port⟩

/-- `_uni_net_udp_server_rx_item_t`. -/
structure RxItem where
  payload : Option Nat
  length : Nat
  source : Endpoint
  releaseWithStack : Bool
  deriving DecidableEq

/-- `{ 0 }`. -/
def RxItem.zero : RxItem := ⟨none, 0, ⟨0, 0⟩, false⟩

/-- The locals of the receive loop. -/
structure Burst where
  /-- `s` -/
  socket : SocketHandle
  /-- `batch` -/
  items : List RxItem
  /-- `burst_budget` -/
  budget : Nat
  waitForFirst : Bool
  deriving DecidableEq

/-! ## The two sides -/

/-- Where the task is. -/
inductive TaskPc where
  | network
  | checkStop
  | createMutex
  | createSocket
  | applyTimeouts
  | tuneQueue
  | bind
  | setInitialized
  | closeSocket
  | invalidateSocket
  | checkInitialized
  | deleteMutex
  | clearLock
  | checkIdle
  | idle
  | outer
  | lockTake
  | readSocket
  | lockGive (socket : SocketHandle)
  | inner (burst : Burst)
  | recvBatch (burst : Burst) (capacity count : Nat)
  | dispatch (burst : Burst) (count i : Nat)
  | exit
  deriving DecidableEq

/-- Where the caller is: outside, or in `uni_net_udp_server_stop`. -/
inductive StopPc where
  | outside
  | request
  | lockCheck
  | lockTake (lock : Nat)
  | setOption
  | lockGive
  | waitTask
  | lockAgain
  | closeSocket
  | invalidateSocket
  | giveAgain
  | deleteMutex
  | clear
  deriving DecidableEq

/-- The server: its context, whether its mutex is taken, and where the two sides are. -/
structure Server where
  ctx : ServerContext
  taken : Bool
  task : Option TaskPc
  caller : StopPc
  deriving DecidableEq

/-- A context in static memory. -/
def Server.init : Server := ⟨.zero, false, none, .outside⟩

/-- The calls that are made, and the accesses to `batch`. -/
inductive ServerEvent where
  | started (result : Bool)
  | mutexCreated (m : Nat)
  | mutexDeleted (m : Nat)
  | take (m : Nat)
  | give (m : Nat)
  | socketOpened (n : Nat)
  | socketClosed (n : Nat)
  | timeouts (socket : SocketHandle) (rxMs txMs : Nat)
  | rxQueue (socket : SocketHandle) (packets : Nat)
  | bind (socket : SocketHandle) (addr : Sockaddr)
  | rxTimeout (socket : SocketHandle) (ms : Nat)
  /-- `wait` says that `FREERTOS_MSG_DONTWAIT` is not set -/
  | recvfrom (socket : SocketHandle) (wait : Bool) (outcome : RecvOutcome)
  /-- `items[i]` is written -/
  | store (i : Nat)
  /-- `items[i]` is read -/
  | fetch (i : Nat)
  /-- `received` is subtracted from `burst_budget` -/
  | spend (budget received : Nat)
  | onReceive (callback user payload length : Nat) (source : Endpoint)
  /-- `on_receive` returns -/
  | returned (payload : Nat)
  /-- `FreeRTOS_ReleaseUDPPayloadBuffer` -/
  | release (payload : Nat)
  | taskExit
  /-- `uni_net_udp_server_stop` returns true -/
  | stopped
  deriving DecidableEq

/-- What the kernel and the stack answer to a step of the task. -/
structure TaskAnswer where
  /-- `FreeRTOS_IsNetworkUp` -/
  networkUp : Bool
  /-- the mutex or the socket that is made -/
  object : Option Nat
  /-- whether `FreeRTOS_setsockopt` or `FreeRTOS_bind` succeeds -/
  ok : Bool
  recv : RecvOutcome
  deriving DecidableEq

/-- The task goes to `pc`. -/
def Server.goto (s : Server) (pc : TaskPc) : Server := { s with task := some pc }

/-- The caller goes to `pc`. -/
def Server.call (s : Server) (pc : StopPc) : Server := { s with caller := pc }

/-! ## The receive loop -/

/-- The loop in `_recv_batch` is left with `count` items. -/
def batchEnd (burst : Burst) (count : Nat) (s : Server) : Server × List ServerEvent :=
  if count = 0 then (s.goto .outer, [])
  else
    (s.goto (.dispatch
      { burst with waitForFirst := false, budget := u32Sub burst.budget count } count 0),
      [.spend burst.budget count])

/-- A round of the loop in `_recv_batch`. Both of its counters are `count`. -/
def recvBatch (recv : RecvOutcome) (burst : Burst) (capacity count : Nat) (s : Server) :
    Server × List ServerEvent :=
  if count < capacity then
    let wait := count == 0 && burst.waitForFirst
    let rv := mapTimeoutToWouldblock recv.result
    if rv ≤ 0 then
      let ended := batchEnd burst count (if rv < 0 then { s with ctx := s.ctx.addDrops 1 } else s)
      (ended.1, .recvfrom burst.socket wait recv :: recv.payload.toList.map .release ++ ended.2)
    else
      let item := ⟨recv.payload, rv.toNat, endpointFromSockaddr recv.source, true⟩
      (s.goto (.recvBatch { burst with items := burst.items.set count item } capacity (count + 1)),
        [.recvfrom burst.socket wait recv, .store count])
  else batchEnd burst count s

/-- The call of `on_receive` for an item, if it is made. -/
def deliver (cfg : ServerConfig) (item : RxItem) : Option (List ServerEvent) :=
  match cfg.onReceive, item.payload with
  | some callback, some payload =>
    if 0 < item.length then
      some [.onReceive callback cfg.user payload item.length item.source, .returned payload]
    else none
  | _, _ => none

/-- A round of the loop in `_dispatch_batch`. -/
def dispatchBatch (burst : Burst) (count i : Nat) (s : Server) : Server × List ServerEvent :=
  if i < count then
    let item := burst.items.getD i .zero
    let release := if item.releaseWithStack then item.payload.toList.map .release else []
    match deliver s.ctx.config item with
    | some events => (s.goto (.dispatch burst count (i + 1)), .fetch i :: events ++ release)
    | none =>
      ({ s with ctx := s.ctx.addDrops 1 }.goto (.dispatch burst count (i + 1)),
        .fetch i :: release)
  else ({ s with ctx := s.ctx.addPackets count }.goto (.inner burst), [])

/-! ## Steps -/

/-- `uni_common_bytes_swap16`. -/
def swap16 (x : UInt16) : UInt16 := (x >>> 8) ||| (x <<< 8)

/-- A step of `_uni_net_udp_server_task` that is at `pc`. -/
def taskStep (b : ServerBuild) (a : TaskAnswer) (s : Server) : TaskPc → Server × List ServerEvent
  | .network => (s.goto (if a.networkUp || s.ctx.stopRequested then .checkStop else .network), [])
  | .checkStop => (s.goto (if s.ctx.stopRequested then .checkIdle else .createMutex), [])
  | .createMutex =>
    match a.object with
    | some m =>
      ({ s with ctx := { s.ctx with lock := some m }, taken := false }.goto .createSocket,
        [.mutexCreated m])
    | none => ({ s with ctx := { s.ctx with lock := none } }.goto .checkIdle, [])
  | .createSocket =>
    match a.object with
    | some n =>
      ({ s with ctx := { s.ctx with socket := .valid n } }.goto .applyTimeouts, [.socketOpened n])
    | none => ({ s with ctx := { s.ctx with socket := .invalid } }.goto .checkInitialized, [])
  | .applyTimeouts =>
    (s.goto (if a.ok then .tuneQueue else .closeSocket),
      [.timeouts s.ctx.socket s.ctx.config.rxTimeoutMs s.ctx.config.txTimeoutMs])
  | .tuneQueue =>
    ({ s with ctx := { s.ctx with rxQueuePackets := b.rxQueuePackets } }.goto .bind,
      if 0 < b.maxRxPackets then [.rxQueue s.ctx.socket b.rxQueuePackets] else [])
  | .bind =>
    (s.goto (if a.ok then .setInitialized else .closeSocket),
      [.bind s.ctx.socket ⟨.inet, swap16 s.ctx.config.bindPort, s.ctx.config.bindAddr⟩])
  | .setInitialized =>
    ({ s with ctx := { s.ctx with initialized := true } }.goto .checkInitialized, [])
  | .closeSocket =>
    (s.goto .invalidateSocket,
      match s.ctx.socket with
      | .valid n => [.socketClosed n]
      | _ => [])
  | .invalidateSocket =>
    ({ s with ctx := { s.ctx with socket := .invalid } }.goto .checkInitialized, [])
  | .checkInitialized => (s.goto (if s.ctx.initialized then .checkIdle else .deleteMutex), [])
  | .deleteMutex =>
    ({ s with taken := false }.goto .clearLock, s.ctx.lock.toList.map .mutexDeleted)
  | .clearLock => ({ s with ctx := { s.ctx with lock := none } }.goto .checkIdle, [])
  | .checkIdle =>
    (s.goto (if !s.ctx.stopRequested && s.ctx.config.onReceive.isNone then .idle else .outer), [])
  | .idle => (s.goto (if s.ctx.stopRequested then .outer else .idle), [])
  | .outer =>
    (s.goto (if !s.ctx.stopRequested && s.ctx.config.onReceive.isSome then .lockTake else .exit),
      [])
  | .lockTake =>
    match s.ctx.lock with
    | some m => if s.taken then (s, []) else ({ s with taken := true }.goto .readSocket, [.take m])
    | none => (s.goto .readSocket, [])
  | .readSocket => (s.goto (.lockGive s.ctx.socket), [])
  | .lockGive socket =>
    let next : TaskPc :=
      if socket.isValid then
        .inner ⟨socket, List.replicate b.batchDepth .zero, b.burstBudget, true⟩
      else .outer
    match s.ctx.lock with
    | some m => ({ s with taken := false }.goto next, [.give m])
    | none => (s.goto next, [])
  | .inner burst =>
    (s.goto (if !s.ctx.stopRequested && 0 < burst.budget then
        .recvBatch burst (min burst.budget b.batchDepth) 0 else .outer), [])
  | .recvBatch burst capacity count => recvBatch a.recv burst capacity count s
  | .dispatch burst count i => dispatchBatch burst count i s
  | .exit => ({ s with ctx := { s.ctx with task := none }, task := none }, [.taskExit])

/--
A step of `uni_net_udp_server_stop` that is at `pc`. The handle of the mutex is read once, with
the test for it. The task may delete the mutex in between, and a take of a deleted mutex is let
through.
-/
def stopStep (s : Server) : StopPc → Server × List ServerEvent
  | .outside => (s, [])
  | .request => ({ s with ctx := { s.ctx with stopRequested := true } }.call .lockCheck, [])
  | .lockCheck =>
    match s.ctx.lock with
    | some m => (s.call (.lockTake m), [])
    | none => (s.call .setOption, [])
  | .lockTake m =>
    if s.taken then (s, []) else ({ s with taken := true }.call .setOption, [.take m])
  | .setOption =>
    (s.call .lockGive, if s.ctx.socket.isValid then [.rxTimeout s.ctx.socket 50] else [])
  | .lockGive =>
    match s.ctx.lock with
    | some m => ({ s with taken := false }.call .waitTask, [.give m])
    | none => (s.call .waitTask, [])
  | .waitTask => if s.ctx.task.isSome then (s, []) else (s.call .lockAgain, [])
  | .lockAgain =>
    match s.ctx.lock with
    | some m =>
      if s.taken then (s, []) else ({ s with taken := true }.call .closeSocket, [.take m])
    | none => (s.call .closeSocket, [])
  | .closeSocket =>
    match s.ctx.socket with
    | .valid n => (s.call .invalidateSocket, [.socketClosed n])
    | _ => (s.call .giveAgain, [])
  | .invalidateSocket =>
    ({ s with ctx := { s.ctx with socket := .invalid } }.call .giveAgain, [])
  | .giveAgain =>
    match s.ctx.lock with
    | some m => ({ s with taken := false }.call .deleteMutex, [.give m])
    | none => (s.call .deleteMutex, [])
  | .deleteMutex =>
    match s.ctx.lock with
    | some m => ({ s with taken := false }.call .clear, [.mutexDeleted m])
    | none => (s.call .clear, [])
  | .clear => ({ s with ctx := .zero }.call .outside, [.stopped])

/-- What can happen to a server. -/
inductive ServerAct where
  /-- the caller starts it, unless it runs or is being stopped -/
  | start (cfg : Option ServerConfig) (created : Option Nat)
  /-- the caller calls `uni_net_udp_server_stop` -/
  | stop
  /-- the caller goes on with the call -/
  | caller
  | task (a : TaskAnswer)
  deriving DecidableEq

/-- `uni_net_udp_server_start` for a server without a task. -/
def startStep (cfg : Option ServerConfig) (created : Option Nat) (s : Server) :
    Server × List ServerEvent :=
  ({ s with ctx := (serverStart cfg created).2, task := created.map fun _ => .network },
    [.started (serverStart cfg created).1])

/-- One step of the server. -/
def serverStep (b : ServerBuild) : ServerAct → Server → Server × List ServerEvent
  | .start cfg created, s =>
    if s.caller = .outside ∧ s.task = none then startStep cfg created s else (s, [])
  | .stop, s => if s.caller = .outside then (s.call .request, []) else (s, [])
  | .caller, s => stopStep s s.caller
  | .task a, s =>
    match s.task with
    | some pc => taskStep b a s pc
    | none => (s, [])

/-- A server for datagrams to one port. -/
def ServerConfig.listening : ServerConfig := ⟨0, 7, 1000, 1000, some 5, 9⟩

/-- A step of the task at which nothing fails but the receive. -/
def ServerAct.answered (recv : RecvOutcome) : ServerAct := .task ⟨true, some 7, true, recv⟩

/-- The server is started, and its task gets to the first receive. -/
def upActs : List ServerAct :=
  .start (some .listening) (some 1) :: List.replicate 15 (.answered (.error 11))

/-- A run of a server with the defaults. -/
def serverAfter (acts : List ServerAct) : Server × List ServerEvent :=
  run (serverStep .standard) acts .init

/-! ## What a step leaves alone -/

section

variable (b : ServerBuild) (a : TaskAnswer) (s : Server)

/-- The receive loop changes the statistics only. -/
structure Server.SameBut (s s' : Server) : Prop where
  config : s'.ctx.config = s.ctx.config
  stop : s'.ctx.stopRequested = s.ctx.stopRequested
  handle : s'.ctx.task = s.ctx.task
  socket : s'.ctx.socket = s.ctx.socket
  lock : s'.ctx.lock = s.ctx.lock
  initialized : s'.ctx.initialized = s.ctx.initialized
  caller : s'.caller = s.caller

theorem batchEnd_same (burst : Burst) (count : Nat) : s.SameBut (batchEnd burst count s).1 := by
  unfold batchEnd
  split <;> constructor <;> rfl

theorem recvBatch_same (recv : RecvOutcome) (burst : Burst) (capacity count : Nat) :
    s.SameBut (recvBatch recv burst capacity count s).1 := by
  unfold recvBatch
  split
  · dsimp only
    split
    · -- an outcome that ends the batch may count as a drop
      split
      · have h := batchEnd_same { s with ctx := s.ctx.addDrops 1 } burst count
        exact ⟨h.config, h.stop, h.handle, h.socket, h.lock, h.initialized, h.caller⟩
      · exact batchEnd_same s burst count
    · constructor <;> rfl
  · exact batchEnd_same s burst count

theorem dispatchBatch_same (burst : Burst) (count i : Nat) :
    s.SameBut (dispatchBatch burst count i s).1 := by
  unfold dispatchBatch
  split
  · dsimp only
    split <;> constructor <;> rfl
  · constructor <;> rfl

/-- The task writes neither its configuration nor the request, and does not move the caller. -/
theorem taskStep_keeps (pc : TaskPc) :
    (taskStep b a s pc).1.ctx.config = s.ctx.config
      ∧ (taskStep b a s pc).1.ctx.stopRequested = s.ctx.stopRequested
      ∧ (taskStep b a s pc).1.caller = s.caller := by
  cases pc with
  | recvBatch burst capacity count =>
    have h := recvBatch_same s a.recv burst capacity count
    exact ⟨h.config, h.stop, h.caller⟩
  | dispatch burst count i =>
    have h := dispatchBatch_same s burst count i
    exact ⟨h.config, h.stop, h.caller⟩
  | createMutex | createSocket | lockGive =>
    simp only [taskStep]
    split <;> exact ⟨rfl, rfl, rfl⟩
  | lockTake =>
    simp only [taskStep]
    split
    · split <;> exact ⟨rfl, rfl, rfl⟩
    · exact ⟨rfl, rfl, rfl⟩
  | _ => exact ⟨rfl, rfl, rfl⟩

end

/-! ## Where the task can be -/

/-- The task is in the receive loop only if there is a callback, and leaves only if asked to. -/
def TaskPc.Allowed (ctx : ServerContext) : TaskPc → Prop
  | .outer => ctx.stopRequested = true ∨ ctx.config.onReceive.isSome = true
  | .lockTake | .readSocket | .lockGive _ | .inner _ | .recvBatch .. | .dispatch .. =>
    ctx.config.onReceive.isSome = true
  | .exit => ctx.stopRequested = true
  | _ => True

/-- A request to stop allows what was allowed. -/
theorem TaskPc.Allowed.mono {ctx ctx' : ServerContext} {pc : TaskPc} (h : pc.Allowed ctx)
    (hconfig : ctx'.config = ctx.config)
    (hstop : ctx.stopRequested = true → ctx'.stopRequested = true) : pc.Allowed ctx' := by
  cases pc with
  | outer => exact h.imp hstop fun hs => hconfig ▸ hs
  | exit => exact hstop h
  | lockTake | readSocket | lockGive | inner | recvBatch | dispatch =>
    simp only [TaskPc.Allowed, hconfig] at h ⊢
    exact h
  | _ => trivial

theorem batchEnd_allowed {s : Server} {ctx : ServerContext} (burst : Burst) (count : Nat)
    (h : ctx.config.onReceive.isSome = true) :
    ∃ pc, (batchEnd burst count s).1.task = some pc ∧ pc.Allowed ctx := by
  unfold batchEnd
  split
  · exact ⟨_, rfl, Or.inr h⟩
  · exact ⟨_, rfl, h⟩

theorem recvBatch_allowed {s : Server} {ctx : ServerContext} (recv : RecvOutcome) (burst : Burst)
    (capacity count : Nat) (h : ctx.config.onReceive.isSome = true) :
    ∃ pc, (recvBatch recv burst capacity count s).1.task = some pc ∧ pc.Allowed ctx := by
  unfold recvBatch
  split
  · dsimp only
    split
    · exact batchEnd_allowed burst count h
    · exact ⟨_, rfl, h⟩
  · exact batchEnd_allowed burst count h

theorem dispatchBatch_allowed {s : Server} {ctx : ServerContext} (burst : Burst) (count i : Nat)
    (h : ctx.config.onReceive.isSome = true) :
    ∃ pc, (dispatchBatch burst count i s).1.task = some pc ∧ pc.Allowed ctx := by
  unfold dispatchBatch
  split
  · dsimp only
    split <;> exact ⟨_, rfl, h⟩
  · exact ⟨_, rfl, h⟩

/-- **The task stays where it is allowed to be,** until it leaves. -/
theorem taskStep_allowed (b : ServerBuild) (a : TaskAnswer) {s : Server} {pc : TaskPc}
    (hpc : s.task = some pc) (hne : pc ≠ .exit) (h : pc.Allowed s.ctx) :
    (∃ pc', (taskStep b a s pc).1.task = some pc' ∧ pc'.Allowed s.ctx)
      ∧ (taskStep b a s pc).1.ctx.task = s.ctx.task := by
  cases pc with
  | exit => exact absurd rfl hne
  | recvBatch burst capacity count =>
    exact ⟨recvBatch_allowed a.recv burst capacity count h,
      (recvBatch_same s a.recv burst capacity count).handle⟩
  | dispatch burst count i =>
    exact ⟨dispatchBatch_allowed burst count i h, (dispatchBatch_same s burst count i).handle⟩
  | createMutex | createSocket =>
    simp only [taskStep]
    split <;> exact ⟨⟨_, rfl, trivial⟩, rfl⟩
  | network | checkStop | applyTimeouts | bind | checkInitialized =>
    refine ⟨⟨_, rfl, ?_⟩, rfl⟩
    split <;> trivial
  | checkIdle =>
    refine ⟨⟨_, rfl, ?_⟩, rfl⟩
    by_cases hidle : (!s.ctx.stopRequested && s.ctx.config.onReceive.isNone) = true
    · rw [if_pos hidle]
      trivial
    · rw [if_neg hidle]
      simp only [TaskPc.Allowed]
      cases hstop : s.ctx.stopRequested <;> cases hcb : s.ctx.config.onReceive <;>
        simp [hstop, hcb] at hidle ⊢
  | idle =>
    refine ⟨⟨_, rfl, ?_⟩, rfl⟩
    by_cases hstop : s.ctx.stopRequested = true
    · rw [if_pos hstop]
      exact Or.inl hstop
    · rw [if_neg hstop]
      trivial
  | outer =>
    refine ⟨⟨_, rfl, ?_⟩, rfl⟩
    by_cases hloop : (!s.ctx.stopRequested && s.ctx.config.onReceive.isSome) = true
    · rw [if_pos hloop]
      exact (Bool.and_eq_true_iff.mp hloop).2
    · rw [if_neg hloop]
      rcases h with hstop | hcb
      · exact hstop
      · simpa [TaskPc.Allowed, hcb] using hloop
  | lockTake =>
    simp only [taskStep]
    split
    · split
      · exact ⟨⟨_, hpc, h⟩, rfl⟩
      · exact ⟨⟨_, rfl, h⟩, rfl⟩
    · exact ⟨⟨_, rfl, h⟩, rfl⟩
  | lockGive socket =>
    have hnext : ∀ burst, TaskPc.Allowed s.ctx
        (if socket.isValid = true then .inner burst else .outer) := by
      intro burst
      split
      · exact h
      · exact Or.inr h
    simp only [taskStep]
    split <;> exact ⟨⟨_, rfl, hnext _⟩, rfl⟩
  | inner burst =>
    refine ⟨⟨_, rfl, ?_⟩, rfl⟩
    split
    · exact h
    · exact Or.inr h
  | readSocket => exact ⟨⟨_, rfl, h⟩, rfl⟩
  | _ => exact ⟨⟨_, rfl, trivial⟩, rfl⟩

/-! ## Between the two sides -/

/-- The caller has asked the task to stop. -/
def StopPc.requested : StopPc → Bool
  | .outside | .request => false
  | _ => true

/-- The caller has seen that the task is gone. -/
def StopPc.alone : StopPc → Bool
  | .lockAgain | .closeSocket | .invalidateSocket | .giveAgain | .deleteMutex | .clear => true
  | _ => false

/-- What holds between the two sides. -/
structure Server.Wf (s : Server) : Prop where
  handle : s.ctx.task.isSome = s.task.isSome
  stop : s.ctx.stopRequested = s.caller.requested
  alone : s.caller.alone = true → s.task = none
  fresh : s.caller.requested = false → s.task = none → s.ctx = .zero
  task : ∀ pc, s.task = some pc → pc.Allowed s.ctx

/-- As long as there is a task the caller waits for it. -/
theorem Server.Wf.busy {s : Server} (h : s.Wf) {pc : TaskPc} (hpc : s.task = some pc) :
    s.caller.alone = false := by
  by_contra halone
  rw [Bool.not_eq_false] at halone
  exact absurd (hpc.symm.trans (h.alone halone)) (Option.some_ne_none _)

theorem init_wf : Server.init.Wf :=
  ⟨rfl, rfl, fun _ => rfl, fun _ _ => rfl, fun _ h => absurd h.symm (Option.some_ne_none _)⟩

theorem startStep_wf (cfg : Option ServerConfig) (created : Option Nat) {s : Server}
    (houtside : s.caller = .outside) : (startStep cfg created s).1.Wf := by
  cases created with
  | some task =>
    refine ⟨rfl, ?_, ?_, ?_, ?_⟩
    · exact (congrArg StopPc.requested houtside).symm
    · intro halone
      exact absurd (houtside ▸ halone : StopPc.outside.alone = true) Bool.false_ne_true
    · intro _ hnone
      exact absurd hnone (Option.some_ne_none _)
    · intro pc hpc
      obtain rfl := Option.some.inj hpc
      trivial
  | none =>
    refine ⟨rfl, ?_, fun _ => rfl, fun _ _ => rfl, ?_⟩
    · exact (congrArg StopPc.requested houtside).symm
    · intro pc hpc
      exact absurd hpc.symm (Option.some_ne_none _)

theorem taskStep_wf (b : ServerBuild) (a : TaskAnswer) {s : Server} {pc : TaskPc} (h : s.Wf)
    (hpc : s.task = some pc) : (taskStep b a s pc).1.Wf := by
  obtain ⟨hconfig, hstop, hcaller⟩ := taskStep_keeps b a s pc
  by_cases hexit : pc = .exit
  · subst hexit
    have hrequested : s.ctx.stopRequested = true := h.task _ hpc
    refine ⟨rfl, h.stop, fun _ => rfl, ?_, fun _ hnone => absurd hnone.symm (Option.some_ne_none _)⟩
    intro hnot
    exact absurd (h.stop ▸ hrequested) (by rw [Bool.not_eq_true]; exact hnot)
  · obtain ⟨⟨pc', htask, hallowed⟩, hhandle⟩ := taskStep_allowed b a hpc hexit (h.task pc hpc)
    refine ⟨?_, ?_, ?_, ?_, ?_⟩
    · rw [hhandle, htask, h.handle, hpc]
      rfl
    · rw [hstop, hcaller, h.stop]
    · intro halone
      rw [hcaller, h.busy hpc] at halone
      exact Bool.noConfusion halone
    · intro _ hnone
      rw [htask] at hnone
      exact absurd hnone (Option.some_ne_none _)
    · intro pc'' hpc''
      rw [htask] at hpc''
      obtain rfl := Option.some.inj hpc''
      exact hallowed.mono hconfig fun hs => hstop ▸ hs

/-- A step of the caller that leaves the request, the task and the configuration alone. -/
theorem Server.Wf.call {s s' : Server} (h : s.Wf) (htask : s'.task = s.task)
    (hhandle : s'.ctx.task = s.ctx.task) (hconfig : s'.ctx.config = s.ctx.config)
    (hstop : s'.ctx.stopRequested = s.ctx.stopRequested) (hbefore : s.caller.requested = true)
    (hafter : s'.caller.requested = true) (halone : s'.caller.alone = true → s.task = none) :
    s'.Wf where
  handle := by rw [hhandle, htask, h.handle]
  stop := by rw [hstop, h.stop, hbefore, hafter]
  alone := fun ha => htask.trans (halone ha)
  fresh := fun hn => Bool.noConfusion (hafter.symm.trans hn)
  task := fun pc hpc => (h.task pc (htask ▸ hpc)).mono hconfig fun hs => hstop ▸ hs

theorem stopStep_wf {s : Server} (h : s.Wf) : (stopStep s s.caller).1.Wf := by
  have hgone : s.caller.alone = true → s.task = none := h.alone
  cases hpc : s.caller with
  | outside => exact h
  | request =>
    exact ⟨h.handle, rfl, fun ha => Bool.noConfusion ha, fun hn => Bool.noConfusion hn,
      fun pc hp => (h.task pc hp).mono rfl fun _ => rfl⟩
  | waitTask =>
    simp only [stopStep]
    split
    · exact h
    · rename_i hnone
      -- the handle of the task is cleared by the task alone, as the last thing it does
      have htask : s.task = none := by
        rw [h.handle, Bool.not_eq_true, Option.isSome_eq_false_iff, Option.isNone_iff_eq_none]
          at hnone
        exact hnone
      exact h.call rfl rfl rfl rfl (by rw [hpc]; rfl) rfl fun _ => htask
  | clear =>
    have htask : s.task = none := hgone (by rw [hpc]; rfl)
    refine ⟨?_, rfl, fun _ => htask, fun _ _ => rfl, ?_⟩
    · exact (congrArg Option.isSome htask).symm
    · intro pc hp
      exact absurd (htask.symm.trans hp).symm (Option.some_ne_none _)
  | lockCheck | lockGive | closeSocket | giveAgain | deleteMutex =>
    rw [hpc] at hgone
    simp only [stopStep]
    split <;> exact h.call rfl rfl rfl rfl (by rw [hpc]; rfl) rfl (fun ha => hgone ha)
  | lockTake =>
    simp only [stopStep]
    split
    · exact h
    · exact h.call rfl rfl rfl rfl (by rw [hpc]; rfl) rfl (fun ha => Bool.noConfusion ha)
  | lockAgain =>
    rw [hpc] at hgone
    simp only [stopStep]
    split
    · split
      · exact h
      · exact h.call rfl rfl rfl rfl (by rw [hpc]; rfl) rfl (fun ha => hgone ha)
    · exact h.call rfl rfl rfl rfl (by rw [hpc]; rfl) rfl (fun ha => hgone ha)
  | setOption | invalidateSocket =>
    rw [hpc] at hgone
    exact h.call rfl rfl rfl rfl (by rw [hpc]; rfl) rfl (fun ha => hgone ha)

/-- Every step keeps what holds between the two sides. -/
theorem serverStep_wf (b : ServerBuild) (act : ServerAct) {s : Server} (h : s.Wf) :
    (serverStep b act s).1.Wf := by
  cases act with
  | start cfg created =>
    simp only [serverStep]
    split
    · rename_i hfree
      exact startStep_wf cfg created hfree.1
    · exact h
  | stop =>
    simp only [serverStep]
    split
    · rename_i hout
      refine ⟨h.handle, ?_, fun ha => Bool.noConfusion ha, ?_, h.task⟩
      · have hstop : s.ctx.stopRequested = false := by rw [h.stop, hout]; rfl
        exact hstop
      · intro _
        exact h.fresh (by rw [hout]; rfl)
    · exact h
  | caller => exact stopStep_wf h
  | task a =>
    simp only [serverStep]
    split
    · rename_i pc hpc
      exact taskStep_wf b a h hpc
    · exact h

/-- **Whatever happens, the two sides agree.** -/
theorem server_wf (b : ServerBuild) (acts : List ServerAct) :
    (run (serverStep b) acts .init).1.Wf :=
  run_inv (serverStep b) (P := fun s _ => s.Wf) (fun act _ _ h => serverStep_wf b act h) init_wf
    acts

end UniNet.Udp
