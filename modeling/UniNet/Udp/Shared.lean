import Mathlib.Logic.Function.Basic
import UniNet.Udp.Client

/-!
# One client, several tasks

The functions of `uni_net_udp_client.c` between which a task may be interrupted: any number of
tasks call them on one client, datagrams arrive at any time, and one access to the context, the
mutex or the socket is one step. `uni_net_udp_client_deinit` may be called while other tasks are
in the middle of a call.

`prvRecvFromWaitForPacket` looks at the length of the list of packets and takes the first entry
afterwards. That is safe only when no other task takes it in between, and the stack does not see
to that. The lock of the client does, as long as the handle of the socket is in the context: a
handle is taken away under the lock, and the lock is deleted behind that.

* `Guarded` — what the lock protects, also when it is being deleted
* `Guarded.sharedStep` — every step of every task keeps it
-/

namespace UniNet.Udp

open Infra

/-! ## The source -/

/-- A packet in `xWaitingPacketsList`. -/
structure Packet where
  data : Bytes
  source : Endpoint
  deriving DecidableEq

/-- The mutex of a client, as the kernel has it. -/
inductive Mutex where
  | free
  | owned (task : Nat)
  | deleted
  deriving DecidableEq

/-- A call of the interface; a null buffer or endpoint is `none`. -/
inductive Call where
  | recvfrom (size : Option Nat) (wantSource : Bool)
  | sendto (buf : Option Bytes) (remote : Option Endpoint)
  | send (buf : Option Bytes)
  | connect (remote : Option Endpoint)
  | setTimeouts (config : ClientConfig)
  | deinit
  deriving DecidableEq

/-- What a function of the stack leaves: its result, and what it wrote to the buffer and `from`. -/
structure Raw where
  rv : Int
  data : Bytes
  source : Endpoint
  deriving DecidableEq

/-- A result alone; `from` is `{0}`. -/
def Raw.code (rv : Int) : Raw := ⟨rv, [], ⟨0, 0⟩⟩

/-- What a call leaves: its result, the bytes in `buf`, and `*out_src` if it was written. -/
structure Reply where
  rv : Int
  data : Bytes
  source : Option Endpoint
  deriving DecidableEq

def Reply.code (rv : Int) : Reply := ⟨rv, [], none⟩

/-- Where a task is. -/
inductive Pc where
  | idle
  /-- `uni_net_udp_client_is_inited` -/
  | inited (c : Call)
  /-- `!ctx->state.connected` -/
  | peer (c : Call)
  /-- `ctx->state.lock != NULL`, in `_lock` -/
  | lockTest (c : Call)
  /-- `xSemaphoreTake` -/
  | take (c : Call)
  /-- `ctx->state.socket` is read -/
  | handle (c : Call)
  /-- a function of the stack, for a handle that is valid or not -/
  | stack (c : Call) (valid : Bool)
  /-- `prvRecvFromWaitForPacket`: the length of the list is read -/
  | count (size : Nat) (want : Bool)
  /-- `xEventGroupWaitBits`, or a socket that does not block -/
  | wait (size : Nat) (want : Bool)
  /-- the first entry of the list is taken -/
  | head (size : Nat) (want : Bool)
  /-- `FreeRTOS_closesocket`, if the socket is valid -/
  | close
  /-- `ctx->state.socket = FREERTOS_INVALID_SOCKET` -/
  | invalidate
  /-- `ctx->state.connected = false` -/
  | disconnect
  /-- `ctx->state.lock != NULL`, in `_unlock` -/
  | unlockTest (c : Call) (raw : Raw)
  /-- `xSemaphoreGive` -/
  | give (c : Call) (raw : Raw)
  /-- `ctx->state.lock != NULL`, in `deinit` -/
  | deleteTest
  /-- `vSemaphoreDelete` -/
  | delete
  /-- `memset` -/
  | clear
  deriving DecidableEq

/-- A client with its socket, its mutex and the tasks that use it. -/
structure Shared where
  ctx : ClientContext
  /-- the socket was closed -/
  closed : Bool
  /-- `xWaitingPacketsList` -/
  waiting : List Packet
  mutex : Mutex
  tasks : Nat → Pc

def Shared.goto (s : Shared) (i : Nat) (pc : Pc) : Shared :=
  { s with tasks := Function.update s.tasks i pc }

inductive SharedEvent where
  /-- a packet was put into the list -/
  | arrived (p : Packet)
  | called (task : Nat) (c : Call)
  /-- a packet was taken out of the list -/
  | took (task : Nat) (p : Packet)
  | sent (task : Nat) (d : Datagram)
  | returned (task : Nat) (c : Call) (r : Reply)
  | socketClosed (task : Nat)
  | mutexDeleted (task : Nat)
  /-- a closed socket was used -/
  | usedClosed (task : Nat)
  /-- an empty list was asked for its first entry -/
  | headOfEmpty (task : Nat)
  /-- a mutex was used through a null handle, after it was deleted, or by a task without it -/
  | badMutex (task : Nat)
  deriving DecidableEq

/-- How the wait for a packet goes on. -/
inductive Wake where
  /-- the socket does not block -/
  | dontBlock
  /-- `FreeRTOS_SignalSocket` -/
  | interrupted
  /-- woken in time -/
  | woken
  /-- the time is over -/
  | late
  deriving DecidableEq

/-- What the kernel and the stack answer to a task. -/
structure Answer where
  send : SendAnswer
  connect : ConnectAnswer
  /-- `FreeRTOS_send`, for a TCP socket -/
  tcp : Int
  /-- `_apply_timeouts`, for a valid socket -/
  accepted : Bool
  wake : Wake

/-- What the caller gets for what the stack has left. -/
def Call.finish (raw : Raw) : Call → Reply
  | .recvfrom _ want =>
    let rv := mapTimeoutToWouldblock raw.rv
    ⟨rv, raw.data, if 0 ≤ rv ∧ want then some raw.source else none⟩
  | .sendto buf _ | .send buf => .code (sendResult (buf.getD []).length raw.rv)
  | .connect _ | .setTimeouts _ => .code (if raw.rv = 0 then 1 else 0)
  | .deinit => .code 1

/-- Whether the checks of the arguments let a call pass. -/
def Call.checked : Call → Bool
  | .recvfrom size _ => size.any (0 < ·)
  | .sendto buf remote => buf.any (· ≠ []) && remote.isSome
  | .send buf => buf.any (· ≠ [])
  | .connect remote => remote.isSome
  | .setTimeouts _ | .deinit => true

/-- What a call returns when a check fails: `-pdFREERTOS_ERRNO_EINVAL`, or false. -/
def Call.rejected : Call → Reply
  | .recvfrom _ _ | .sendto _ _ | .send _ => .code (-einval)
  | .connect _ | .setTimeouts _ | .deinit => .code 0

/-- `prvRecvFrom_CopyPacket`. -/
def copyPacket (size : Nat) (p : Packet) : Raw :=
  let rv := if i32 size < p.data.length then i32 size else p.data.length
  ⟨rv, p.data.take rv.toNat, p.source⟩

/-- The functions of the stack that are left after one step, with the context afterwards. -/
def stackCall (w mtu : Nat) (a : Answer) (ctx : ClientContext) (socket : Option Socket) :
    Call → Raw × ClientContext × List Datagram
  | .sendto buf remote =>
    let data := buf.getD []
    let sent := freertosSendto mtu a.send socket data (castLen w data.length)
      ((remote.map Endpoint.sockaddr).getD .zero)
    (.code sent.result, { ctx with socket := sent.socket.or ctx.socket }, sent.datagrams)
  | .send _ => (.code (freertosSend a.tcp socket).result, ctx, [])
  | .connect remote =>
    let rc := freertosConnect a.connect socket
    (.code rc, if rc = 0 then { ctx with connected := true, defaultRemote :=
      (remote.map Endpoint.sockaddr).getD .zero } else ctx, [])
  | .setTimeouts config =>
    if socket.isSome && a.accepted then (.code 0, { ctx with config := config }, [])
    else (.code (-1), ctx, [])
  | .recvfrom _ _ | .deinit => (.code (-einval), ctx, [])

/-- Where a call begins. -/
def Call.enter : Call → Pc
  | .deinit => .lockTest .deinit
  | c => .inited c

/-- Where a call goes on when the client is initialised. -/
def Call.locking : Call → Pc
  | .send buf => .peer (.send buf)
  | c => .lockTest c

/-- What is behind `_lock`. -/
def Call.locked : Call → Pc
  | .deinit => .close
  | c => .handle c

/-- A task that has unlocked returns, or goes on with `deinit`. -/
def Shared.leave (s : Shared) (i : Nat) (c : Call) (raw : Raw) : Shared × List SharedEvent :=
  match c with
  | .deinit => (s.goto i .deleteTest, [])
  | c => (s.goto i .idle, [.returned i c (c.finish raw)])

/-- The note that a task leaves when it uses the socket. -/
def Shared.used (s : Shared) (i : Nat) : List SharedEvent :=
  if s.closed then [.usedClosed i] else []

/-- The wait for a packet has ended; `lPacketCount` is read again when the time is not up. -/
def Shared.recount (s : Shared) (i size : Nat) (want : Bool) (empty : Pc) : Shared :=
  s.goto i (if s.waiting = [] then empty else .head size want)

/-- The next step of a task, with the answers it gets. -/
def taskGo (w mtu i : Nat) (a : Answer) (s : Shared) : Pc → Shared × List SharedEvent
  | .idle => (s, [])
  | .inited c =>
    if s.ctx.initialized then (s.goto i c.locking, [])
    else (s.goto i .idle, [.returned i c c.rejected])
  | .peer c =>
    if s.ctx.connected then (s.goto i (.lockTest c), [])
    else (s.goto i .idle, [.returned i c (.code (-enotconn))])
  | .lockTest c => (s.goto i (if s.ctx.lock then .take c else c.locked), [])
  | .take c =>
    -- what the kernel does with a mutex that is gone is not known: the task may be let through
    if s.ctx.lock = false then (s.goto i c.locked, [.badMutex i])
    else match s.mutex with
      | .free => ({ s with mutex := .owned i }.goto i c.locked, [])
      | .owned _ => (s, [])
      | .deleted => (s.goto i c.locked, [.badMutex i])
  | .handle c => (s.goto i (.stack c s.ctx.socket.isSome), [])
  | .stack (.recvfrom size want) true =>
    if validSocket s.ctx.socket .udp true then (s.goto i (.count (size.getD 0) want), s.used i)
    else (s.goto i (.unlockTest (.recvfrom size want) (.code (-einval))), s.used i)
  -- `deinit` goes to `.close` instead
  | .stack .deinit _ => (s, [])
  | .stack c valid =>
    let (raw, ctx, datagrams) := stackCall w mtu a s.ctx (if valid then s.ctx.socket else none) c
    ({ s with ctx := ctx }.goto i (.unlockTest c raw),
      (if valid then s.used i else []) ++ datagrams.map (.sent i))
  | .count size want => (s.recount i size want (.wait size want), s.used i)
  | .wait size want =>
    let again := Pc.unlockTest (.recvfrom (some size) want) (.code (-ewouldblock))
    match a.wake with
    | .dontBlock => (s.goto i again, s.used i)
    | .interrupted =>
      (s.goto i (.unlockTest (.recvfrom (some size) want) (.code (-eintr))), s.used i)
    | .woken => (s.recount i size want (.wait size want), s.used i)
    | .late => (s.recount i size want again, s.used i)
  | .head size want =>
    match s.waiting with
    | [] => (s, [.headOfEmpty i])
    | p :: rest =>
      ({ s with waiting := rest }.goto i
        (.unlockTest (.recvfrom (some size) want) (copyPacket size p)), s.used i ++ [.took i p])
  | .close =>
    if s.ctx.socket.isSome then
      ({ s with closed := true, waiting := [] }.goto i .invalidate,
        s.used i ++ [.socketClosed i])
    else (s.goto i .disconnect, [])
  | .invalidate => ({ s with ctx := { s.ctx with socket := none } }.goto i .disconnect, [])
  | .disconnect =>
    ({ s with ctx := { s.ctx with connected := false } }.goto i (.unlockTest .deinit (.code 0)), [])
  | .unlockTest c raw => if s.ctx.lock then (s.goto i (.give c raw), []) else s.leave i c raw
  | .give c raw =>
    if s.ctx.lock ∧ s.mutex = .owned i then { s with mutex := .free }.leave i c raw
    else ((s.leave i c raw).1, .badMutex i :: (s.leave i c raw).2)
  | .deleteTest => (s.goto i (if s.ctx.lock then .delete else .clear), [])
  | .delete =>
    ({ s with mutex := .deleted }.goto i .clear,
      (if s.mutex = .deleted then [.badMutex i] else []) ++ [.mutexDeleted i])
  | .clear =>
    ({ s with ctx := .zero }.goto i .idle, [.returned i .deinit (Call.deinit.finish (.code 0))])

inductive SharedAct where
  /-- the IP task has a packet for the socket -/
  | arrive (p : Packet)
  | call (task : Nat) (c : Call)
  | step (task : Nat) (a : Answer)

/-- One step of the IP task or of a task; `limit` is `uxMaxPackets`, if there is one. -/
def sharedStep (w mtu : Nat) (limit : Option Nat) (act : SharedAct) (s : Shared) :
    Shared × List SharedEvent :=
  match act with
  | .arrive p =>
    if s.closed = false ∧ s.ctx.socket.any Socket.bound = true ∧
        limit.all (s.waiting.length < ·) = true then
      ({ s with waiting := s.waiting ++ [p] }, [.arrived p])
    else (s, [])
  | .call i c =>
    match s.tasks i with
    | .idle =>
      if c.checked then
        (s.goto i c.enter, [.called i c])
      else (s, [.called i c, .returned i c c.rejected])
    | _ => (s, [])
  | .step i a => taskGo w mtu i a s (s.tasks i)

/-- A client that was just initialised. -/
def Shared.new (cfg : Option ClientConfig) : Shared where
  ctx := (clientInit ⟨true, true, true⟩ cfg).2
  closed := false
  waiting := []
  mutex := .free
  tasks := fun _ => .idle

/-! ## What the lock protects -/

/-- The places between `_lock` and `_unlock`. -/
def Pc.holds : Pc → Bool
  | .handle _ | .stack _ _ | .count _ _ | .wait _ _ | .head _ _ | .close | .invalidate
  | .disconnect | .unlockTest _ _ | .give _ _ => true
  | _ => false

/-- The places inside the stack, with the socket in hand. -/
def Pc.inHand : Pc → Bool
  | .stack _ true | .count _ _ | .wait _ _ | .head _ _ => true
  | _ => false

/-- The places of `deinit` behind the end of the socket. -/
def Pc.past : Pc → Bool
  | .disconnect | .unlockTest .deinit _ | .give .deinit _ | .deleteTest | .delete | .clear => true
  | _ => false

theorem Pc.holds_of_inHand {pc : Pc} (h : pc.inHand = true) : pc.holds = true := by
  cases pc <;> first | rfl | cases h

theorem Pc.past_of_inHand {pc : Pc} (h : pc.inHand = true) : pc.past = false := by
  cases pc <;> first | rfl | cases h

/-- There is a mutex, and the context has its handle. -/
def Shared.Live (s : Shared) : Prop := s.ctx.lock = true ∧ s.mutex ≠ .deleted

/-- What a place of a task says about the client. -/
structure Suited (s : Shared) (i : Nat) (pc : Pc) : Prop where
  owned : s.Live → pc.holds = true → s.mutex = .owned i
  hand : pc.inHand = true → s.ctx.socket.isSome = true ∧ s.closed = false
  closing : pc = .invalidate → s.ctx.socket.isSome = true
  past : pc.past = true → s.ctx.socket.isSome = false
  packets : ∀ size want, pc = .head size want → s.waiting ≠ []

/--
**What the lock protects.**

While the lock is there, one task at a time is behind it. The handle of the socket disappears
before the lock does, so whoever gets past a lock that is gone has no socket in hand.
-/
structure Guarded (s : Shared) : Prop where
  fits : ∀ i, Suited s i (s.tasks i)
  live : s.ctx.socket.isSome = true → s.Live
  closed : s.ctx.socket.isSome = true → s.closed = true → ∃ i, s.tasks i = .invalidate

/-- A change of the context that the lock has nothing to do with. -/
def SameHandles (ctx ctx' : ClientContext) : Prop :=
  ctx'.socket.isSome = ctx.socket.isSome ∧ ctx'.lock = ctx.lock

theorem SameHandles.refl (ctx : ClientContext) : SameHandles ctx ctx := ⟨rfl, rfl⟩

theorem goto_self (s : Shared) (i : Nat) (pc : Pc) : (s.goto i pc).tasks i = pc :=
  Function.update_self ..

theorem goto_of_ne {i j : Nat} (s : Shared) (pc : Pc) (h : j ≠ i) :
    (s.goto i pc).tasks j = s.tasks j :=
  Function.update_of_ne h ..

/-- What holds of the task that moves and of the others holds of all. -/
theorem forall_goto (P : Nat → Pc → Prop) {s : Shared} {i : Nat} {pc : Pc} (hpc : P i pc)
    (hothers : ∀ j, j ≠ i → P j (s.tasks j)) (j : Nat) : P j ((s.goto i pc).tasks j) := by
  by_cases hj : j = i
  · subst hj
    rw [goto_self]
    exact hpc
  · rw [goto_of_ne s pc hj]
    exact hothers j hj

/-- A place where nothing is promised. -/
theorem suited_outside {s : Shared} {i : Nat} {pc : Pc} (hholds : pc.holds = false)
    (hpast : pc.past = true → s.ctx.socket.isSome = false) : Suited s i pc := by
  have hno : pc.inHand ≠ true := fun h => by
    rw [Pc.holds_of_inHand h] at hholds
    cases hholds
  refine ⟨fun _ h => ?_, fun h => absurd h hno, ?_, hpast, ?_⟩
  · rw [hholds] at h
    cases h
  · rintro rfl
    cases hholds
  · rintro size want rfl
    cases hholds

/-- A place behind the lock where the socket is not in hand. -/
theorem suited_locked {s : Shared} {i : Nat} {pc : Pc} (hown : s.Live → s.mutex = .owned i)
    (hhand : pc.inHand = false) (hclosing : pc = .invalidate → s.ctx.socket.isSome = true)
    (hpast : pc.past = true → s.ctx.socket.isSome = false) : Suited s i pc := by
  have hno : pc.inHand ≠ true := fun h => by
    rw [hhand] at h
    cases h
  refine ⟨fun hl _ => hown hl, fun h => absurd h hno, hclosing, hpast, ?_⟩
  rintro size want rfl
  cases hhand

/-- The places of the others do not matter. -/
theorem suited_goto {s : Shared} {i j : Nat} {pc pc' : Pc} (h : Suited s j pc') :
    Suited (s.goto i pc) j pc' :=
  ⟨h.owned, h.hand, h.closing, h.past, h.packets⟩

namespace Guarded

variable {s : Shared} {i : Nat}

/-- Two tasks are not behind the lock at the same time, as long as there is a socket. -/
theorem only (h : Guarded s) (hsome : s.ctx.socket.isSome = true) {j : Nat}
    (hi : (s.tasks i).holds = true) (hj : (s.tasks j).holds = true) : j = i := by
  have hown := (h.fits i).owned (h.live hsome) hi
  rw [(h.fits j).owned (h.live hsome) hj] at hown
  cases hown
  rfl

/-- No task has the socket in hand while another one is behind the lock. -/
theorem other (h : Guarded s) {j : Nat} (hj : j ≠ i) (hi : (s.tasks i).holds = true) :
    (s.tasks j).inHand = false := by
  by_contra hhand
  have hhand : (s.tasks j).inHand = true := by simpa using hhand
  exact hj (h.only ((h.fits j).hand hhand).1 hi (Pc.holds_of_inHand hhand))

/-- A step of one task, which may change the client. -/
theorem step (h : Guarded s) {s' : Shared} {pc : Pc} (htasks : s'.tasks = s.tasks)
    (hpc : Suited s' i pc) (hothers : ∀ j, j ≠ i → Suited s' j (s.tasks j))
    (hlive : s'.ctx.socket.isSome = true → s'.Live)
    (hclosed : s'.ctx.socket.isSome = true → s'.closed = true → pc = .invalidate ∨
      s.tasks i ≠ .invalidate ∧ s.ctx.socket.isSome = true ∧ s.closed = true) :
    Guarded (s'.goto i pc) := by
  refine ⟨fun j => suited_goto ?_, hlive, fun hs hc => ?_⟩
  · refine forall_goto (fun j pc => Suited s' j pc) hpc (fun j hj => ?_) j
    rw [htasks]
    exact hothers j hj
  · rcases hclosed hs hc with rfl | ⟨hold, hs, hc⟩
    · exact ⟨i, goto_self s' i _⟩
    · obtain ⟨j, hj⟩ := h.closed hs hc
      have hne : j ≠ i := by
        rintro rfl
        exact hold hj
      exact ⟨j, by rw [goto_of_ne s' pc hne, htasks, hj]⟩

/-- A task goes on, and nothing that the lock protects changes. -/
theorem go (h : Guarded s) {ctx : ClientContext} {pc : Pc} (hctx : SameHandles s.ctx ctx)
    (hold : s.tasks i ≠ .invalidate) (hpc : Suited s i pc) :
    Guarded ({ s with ctx := ctx }.goto i pc) := by
  obtain ⟨hsocket, hlock⟩ := hctx
  have hsame : ∀ {j pc}, Suited s j pc → Suited { s with ctx := ctx } j pc := by
    intro j pc hfits
    refine ⟨fun hl => hfits.owned ?_, fun hp => ?_, fun hp => ?_, fun hp => ?_, hfits.packets⟩
    · exact ⟨hlock ▸ hl.1, hl.2⟩
    · exact ⟨hsocket.trans (hfits.hand hp).1, (hfits.hand hp).2⟩
    · exact hsocket.trans (hfits.closing hp)
    · exact hsocket.trans (hfits.past hp)
  refine h.step rfl (hsame hpc) (fun j _ => hsame (h.fits j)) (fun hs => ?_)
    fun hs hc => .inr ⟨hold, hsocket ▸ hs, hc⟩
  have hl := h.live (hsocket ▸ hs)
  exact ⟨hlock.trans hl.1, hl.2⟩

/-- A task that has no socket in hand goes on. -/
theorem outside (h : Guarded s) {pc : Pc} (hold : s.tasks i ≠ .invalidate)
    (hholds : pc.holds = false) (hpast : pc.past = true → s.ctx.socket.isSome = false) :
    Guarded (s.goto i pc) :=
  h.go (.refl _) hold (suited_outside hholds hpast)

/-- A task behind the lock goes on to a place without the socket in hand. -/
theorem within (h : Guarded s) {ctx : ClientContext} {pc : Pc} (hctx : SameHandles s.ctx ctx)
    (hold : s.tasks i ≠ .invalidate) (hholds : (s.tasks i).holds = true)
    (hhand : pc.inHand = false) (hnew : pc ≠ .invalidate)
    (hpast : pc.past = true → s.ctx.socket.isSome = false) :
    Guarded ({ s with ctx := ctx }.goto i pc) :=
  h.go hctx hold (suited_locked (fun hl => (h.fits i).owned hl hholds) hhand
    (fun hp => absurd hp hnew) hpast)

/-- The free mutex is taken. -/
theorem acquire (h : Guarded s) {pc : Pc} (hlock : s.ctx.lock = true) (hfree : s.mutex = .free)
    (hold : s.tasks i ≠ .invalidate) (hhand : pc.inHand = false) (hnew : pc ≠ .invalidate)
    (hpast : pc.past = false) : Guarded ({ s with mutex := .owned i }.goto i pc) := by
  have hlive : s.Live := ⟨hlock, by rw [hfree]; exact fun hno => by cases hno⟩
  refine h.step rfl ?_ (fun j _ => ?_) (fun _ => ⟨hlock, fun hno => by cases hno⟩)
    fun hs hc => .inr ⟨hold, hs, hc⟩
  · exact suited_locked (fun _ => rfl) hhand (fun hp => absurd hp hnew)
      fun hp => by rw [hpast] at hp; cases hp
  · have hfits := h.fits j
    refine ⟨fun _ hj => ?_, hfits.hand, hfits.closing, hfits.past, hfits.packets⟩
    have hown := hfits.owned hlive hj
    rw [hfree] at hown
    cases hown

/-- The mutex is given back by the task that has it. -/
theorem release (h : Guarded s) {pc : Pc} (hown : s.mutex = .owned i)
    (hold : s.tasks i ≠ .invalidate) (hholds : pc.holds = false)
    (hpast : pc.past = true → s.ctx.socket.isSome = false) :
    Guarded ({ s with mutex := .free }.goto i pc) := by
  have hlive : s.ctx.lock = true → s.Live :=
    fun hl => ⟨hl, by rw [hown]; exact fun hno => by cases hno⟩
  refine h.step rfl (suited_outside hholds hpast) (fun j hj => ?_)
    (fun hs => ⟨(h.live hs).1, fun hno => by cases hno⟩) fun hs hc => .inr ⟨hold, hs, hc⟩
  have hfits := h.fits j
  refine ⟨fun hl hholds' => ?_, hfits.hand, hfits.closing, hfits.past, hfits.packets⟩
  have hown' := hfits.owned (hlive hl.1) hholds'
  rw [hown] at hown'
  cases hown'
  exact absurd rfl hj

/-- The task behind the lock takes a packet, or the socket is closed with all its packets. -/
theorem dequeue (h : Guarded s) {pc : Pc} {closed : Bool} {rest : List Packet}
    (hholds : (s.tasks i).holds = true)
    (hpc : Suited { s with closed := closed, waiting := rest } i pc)
    (hold : s.tasks i ≠ .invalidate)
    (hclosed : closed = true → s.ctx.socket.isSome = true → pc = .invalidate ∨ s.closed = true) :
    Guarded ({ s with closed := closed, waiting := rest }.goto i pc) := by
  refine h.step rfl hpc (fun j hj => ?_) h.live fun hs hc => ?_
  · have hfits := h.fits j
    have hno := h.other hj hholds
    refine ⟨hfits.owned, fun hp => ?_, hfits.closing, hfits.past, fun size want hp => ?_⟩
    · rw [hno] at hp
      cases hp
    · rw [hp] at hno
      cases hno
  · exact (hclosed hc hs).imp_right fun hc => ⟨hold, hs, hc⟩

/-- The handle is taken out of the context. -/
theorem invalidate (h : Guarded s) (hi : s.tasks i = .invalidate) :
    Guarded ({ s with ctx := { s.ctx with socket := none } }.goto i .disconnect) := by
  have hholds : (s.tasks i).holds = true := by rw [hi]; rfl
  have hsome := (h.fits i).closing hi
  refine h.step rfl ?_ (fun j hj => ?_) (fun hs => by cases hs) (fun hs => by cases hs)
  · exact suited_locked (fun hl => (h.fits i).owned hl hholds) rfl (fun hp => by cases hp)
      fun _ => rfl
  · have hfits := h.fits j
    have hno := h.other hj hholds
    refine ⟨hfits.owned, fun hp => ?_, fun hp => ?_, fun _ => rfl, hfits.packets⟩
    · rw [hno] at hp
      cases hp
    · exact absurd (h.only hsome hholds (by rw [hp]; rfl)) hj

/-- The lock disappears, behind the socket. -/
theorem unlock (h : Guarded s) {ctx : ClientContext} {mutex : Mutex} {pc : Pc}
    (hnone : s.ctx.socket.isSome = false) (hctx : ctx.socket.isSome = false)
    (hlock : ctx.lock = false ∨ mutex = .deleted) (hholds : pc.holds = false) :
    Guarded ({ s with ctx := ctx, mutex := mutex }.goto i pc) := by
  have hdead : ¬ Shared.Live { s with ctx := ctx, mutex := mutex } := by
    rintro ⟨hl, hm⟩
    rcases hlock with hlock | hlock
    · rw [hlock] at hl
      cases hl
    · exact hm hlock
  refine h.step rfl (suited_outside hholds fun _ => hctx) (fun j _ => ?_)
    (fun hs => by rw [hctx] at hs; cases hs) (fun hs => by rw [hctx] at hs; cases hs)
  have hfits := h.fits j
  refine ⟨fun hl => absurd hl hdead, fun hp => ?_, fun hp => ?_, fun _ => hctx, hfits.packets⟩
  · have hs := (hfits.hand hp).1
    rw [hnone] at hs
    cases hs
  · have hs := hfits.closing hp
    rw [hnone] at hs
    cases hs

end Guarded

/-! ## The steps keep it -/

theorem freertosSendto_isSome (mtu : Nat) (a : SendAnswer) (socket : Option Socket) (buf : Bytes)
    (len : Nat) (dest : Sockaddr) :
    (freertosSendto mtu a socket buf len dest).socket.isSome = socket.isSome := by
  have hbound : (makeSureSocketIsBound a socket).2.isSome = socket.isSome := by
    unfold makeSureSocketIsBound
    split
    · split
      · rfl
      · split
        · rw [Option.isSome_map]
        · rfl
    · rfl
  unfold freertosSendto
  split
  · rfl
  · split
    · split
      · unfold sendtoActualSend
        split <;> exact hbound
      · exact hbound
    · rfl

/-- No call but `deinit` takes the handles away. -/
theorem stackCall_handles (w mtu : Nat) (a : Answer) (ctx : ClientContext) (valid : Bool)
    (c : Call) :
    SameHandles ctx (stackCall w mtu a ctx (if valid then ctx.socket else none) c).2.1 := by
  cases c with
  | sendto buf remote =>
    refine ⟨?_, rfl⟩
    have hsome := freertosSendto_isSome mtu a.send (if valid then ctx.socket else none)
      (buf.getD []) (castLen w (buf.getD []).length) ((remote.map Endpoint.sockaddr).getD .zero)
    cases valid with
    | true =>
      simp only [if_true] at hsome
      simp [stackCall, hsome]
    | false =>
      simp only [Bool.false_eq_true, if_false, Option.isSome_none] at hsome
      simp [stackCall, hsome]
  | send buf => exact .refl ctx
  | connect remote =>
    generalize (if valid then ctx.socket else none) = socket
    simp only [stackCall]
    split <;> exact ⟨rfl, rfl⟩
  | setTimeouts config =>
    generalize (if valid then ctx.socket else none) = socket
    simp only [stackCall]
    split <;> exact ⟨rfl, rfl⟩
  | recvfrom size want => exact .refl ctx
  | deinit => exact .refl ctx

theorem Guarded.leave {s : Shared} {i : Nat} {c : Call} (raw : Raw)
    (h : ∀ pc : Pc, (pc = .idle ∨ c = .deinit ∧ pc = .deleteTest) → Guarded (s.goto i pc)) :
    Guarded (s.leave i c raw).1 := by
  unfold Shared.leave
  split
  · exact h _ (.inr ⟨rfl, rfl⟩)
  · exact h _ (.inl rfl)

/-- A task keeps the socket in hand. -/
theorem Guarded.keep {s : Shared} {i : Nat} {pc : Pc} (h : Guarded s)
    (hhand : (s.tasks i).inHand = true) (hnew : pc.inHand = true)
    (hhead : ∀ size want, pc = .head size want → s.waiting ≠ []) : Guarded (s.goto i pc) := by
  have hold : s.tasks i ≠ .invalidate := by
    intro hno
    rw [hno] at hhand
    cases hhand
  refine h.go (.refl _) hold
    ⟨fun hl _ => ?_, fun _ => (h.fits i).hand hhand, ?_, fun hp => ?_, hhead⟩
  · exact (h.fits i).owned hl (Pc.holds_of_inHand hhand)
  · rintro rfl
    cases hnew
  · rw [Pc.past_of_inHand hnew] at hp
    cases hp

theorem Guarded.recount {s : Shared} {i size : Nat} {want : Bool} {empty : Pc} (h : Guarded s)
    (hhand : (s.tasks i).inHand = true) (hempty : Guarded (s.goto i empty)) :
    Guarded (s.recount i size want empty) := by
  unfold Shared.recount
  split
  · exact hempty
  · next hne => exact h.keep hhand rfl fun _ _ _ => hne

theorem Call.locking_outside (c : Call) : c.locking.holds = false ∧ c.locking.past = false := by
  cases c <;> exact ⟨rfl, rfl⟩

theorem Call.locked_inside (c : Call) :
    c.locked.inHand = false ∧ c.locked ≠ .invalidate ∧ c.locked.past = false := by
  cases c <;> simp [Call.locked, Pc.inHand, Pc.past]

/-- A task gets past a lock that is not there. -/
theorem Guarded.through {s : Shared} {i : Nat} (h : Guarded s) (c : Call) (hdead : ¬ s.Live)
    (hold : s.tasks i ≠ .invalidate) : Guarded (s.goto i c.locked) := by
  obtain ⟨hhand, hnew, hpast⟩ := c.locked_inside
  refine h.go (.refl _) hold (suited_locked (fun hl => absurd hl hdead) hhand
    (fun hp => absurd hp hnew) fun hp => ?_)
  rw [hpast] at hp
  cases hp

/-! ### One place at a time -/

section

variable {s : Shared} {i : Nat} (w mtu : Nat) (a : Answer)

namespace Guarded

/-- Before the lock there is nothing to keep. -/
theorem taskGo_inited {c : Call} (h : Guarded s) (hpc : s.tasks i = .inited c) :
    Guarded (taskGo w mtu i a s (.inited c)).1 := by
  have hold : s.tasks i ≠ .invalidate := by simp [hpc]
  simp only [taskGo]
  split
  · obtain ⟨hout, hpast⟩ := c.locking_outside
    exact h.outside hold hout fun hp => by rw [hpast] at hp; cases hp
  · exact h.outside hold rfl fun hp => by cases hp

theorem taskGo_peer {c : Call} (h : Guarded s) (hpc : s.tasks i = .peer c) :
    Guarded (taskGo w mtu i a s (.peer c)).1 := by
  have hold : s.tasks i ≠ .invalidate := by simp [hpc]
  simp only [taskGo]
  split <;> exact h.outside hold rfl fun hp => by cases hp

theorem taskGo_lockTest {c : Call} (h : Guarded s) (hpc : s.tasks i = .lockTest c) :
    Guarded (taskGo w mtu i a s (.lockTest c)).1 := by
  have hold : s.tasks i ≠ .invalidate := by simp [hpc]
  simp only [taskGo]
  split
  · exact h.outside hold rfl fun hp => by cases hp
  · next hlock => exact h.through c (fun hl => hlock hl.1) hold

/-- The mutex is free, or it is waited for, or it is gone. -/
theorem taskGo_take {c : Call} (h : Guarded s) (hpc : s.tasks i = .take c) :
    Guarded (taskGo w mtu i a s (.take c)).1 := by
  have hold : s.tasks i ≠ .invalidate := by simp [hpc]
  simp only [taskGo]
  split
  · next hlock => exact h.through c (fun hl => absurd (hlock.symm.trans hl.1) (by decide)) hold
  · next hlock =>
    obtain ⟨hhand, hnew, hpast⟩ := c.locked_inside
    split
    · next hfree => exact h.acquire (by simpa using hlock) hfree hold hhand hnew hpast
    · exact h
    · next hdel => exact h.through c (fun hl => hl.2 hdel) hold

/-- A socket whose handle is still there was not closed: who closes it has the lock. -/
theorem not_closed (h : Guarded s) (hsome : s.ctx.socket.isSome = true)
    (hholds : (s.tasks i).holds = true) (hold : s.tasks i ≠ .invalidate) : s.closed = false := by
  by_contra hclosed
  obtain ⟨j, hj⟩ := h.closed hsome (by simpa using hclosed)
  have hjholds : (s.tasks j).holds = true := by rw [hj]; rfl
  rw [h.only hsome hholds hjholds] at hj
  exact hold hj

/-- The handle is read behind the lock. -/
theorem taskGo_handle {c : Call} (h : Guarded s) (hpc : s.tasks i = .handle c) :
    Guarded (taskGo w mtu i a s (.handle c)).1 := by
  have hold : s.tasks i ≠ .invalidate := by simp [hpc]
  have hholds : (s.tasks i).holds = true := by rw [hpc]; rfl
  refine h.go (.refl _) hold ⟨fun hl _ => (h.fits i).owned hl hholds, fun hp => ?_,
    (fun hp => by cases hp), (fun hp => by cases hp), (fun size want hp => by cases hp)⟩
  have hsome : s.ctx.socket.isSome = true := by
    cases hs : s.ctx.socket.isSome with
    | true => rfl
    | false =>
      rw [hs] at hp
      cases c <;> cases hp
  exact ⟨hsome, h.not_closed hsome hholds hold⟩

/-- A call of the stack comes back, except that `FreeRTOS_recvfrom` goes on with the packets. -/
theorem taskGo_stack {c : Call} {valid : Bool} (h : Guarded s) (hpc : s.tasks i = .stack c valid) :
    Guarded (taskGo w mtu i a s (.stack c valid)).1 := by
  have hold : s.tasks i ≠ .invalidate := by simp [hpc]
  have hholds : (s.tasks i).holds = true := by rw [hpc]; rfl
  have hdone : ∀ {ctx raw}, c ≠ .deinit → SameHandles s.ctx ctx →
      Guarded ({ s with ctx := ctx }.goto i (.unlockTest c raw)) := fun hc hctx =>
    h.within hctx hold hholds rfl (by simp) fun hp => by
      cases c <;> first | exact absurd rfl hc | cases hp
  have hcall := stackCall_handles w mtu a s.ctx valid c
  cases c with
  | recvfrom size want =>
    cases valid with
    | true =>
      simp only [taskGo]
      split
      · exact h.keep (by rw [hpc]; rfl) rfl (by simp)
      · exact hdone (by simp) (.refl _)
    | false => exact hdone (by simp) (.refl _)
  | deinit => exact h
  | sendto _ _ | send _ | connect _ | setTimeouts _ => exact hdone (by simp) hcall

theorem taskGo_count {size : Nat} {want : Bool} (h : Guarded s)
    (hpc : s.tasks i = .count size want) : Guarded (taskGo w mtu i a s (.count size want)).1 := by
  have hhand : (s.tasks i).inHand = true := by rw [hpc]; rfl
  exact h.recount hhand (h.keep hhand rfl (by simp))

/-- However the wait ends, the socket is in hand until the call is through with it. -/
theorem taskGo_wait {size : Nat} {want : Bool} (h : Guarded s)
    (hpc : s.tasks i = .wait size want) : Guarded (taskGo w mtu i a s (.wait size want)).1 := by
  have hold : s.tasks i ≠ .invalidate := by simp [hpc]
  have hhand : (s.tasks i).inHand = true := by rw [hpc]; rfl
  have hdone : ∀ raw, Guarded (s.goto i (.unlockTest (.recvfrom (some size) want) raw)) :=
    fun raw => h.within (.refl _) hold (Pc.holds_of_inHand hhand) rfl (by simp)
      fun hp => by cases hp
  simp only [taskGo]
  split
  · exact hdone _
  · exact hdone _
  · exact h.recount hhand (h.keep hhand rfl (by simp))
  · exact h.recount hhand (hdone _)

theorem taskGo_head {size : Nat} {want : Bool} (h : Guarded s)
    (hpc : s.tasks i = .head size want) : Guarded (taskGo w mtu i a s (.head size want)).1 := by
  have hold : s.tasks i ≠ .invalidate := by simp [hpc]
  have hholds : (s.tasks i).holds = true := by rw [hpc]; rfl
  simp only [taskGo]
  split
  · exact h
  · exact h.dequeue hholds (suited_locked (fun hl => (h.fits i).owned hl hholds) rfl
      (fun hp => by cases hp) fun hp => by cases hp) hold fun hc _ => .inr hc

theorem taskGo_close (h : Guarded s) (hpc : s.tasks i = .close) :
    Guarded (taskGo w mtu i a s .close).1 := by
  have hold : s.tasks i ≠ .invalidate := by simp [hpc]
  have hholds : (s.tasks i).holds = true := by rw [hpc]; rfl
  simp only [taskGo]
  split
  · next hsome =>
    exact h.dequeue hholds (suited_locked (fun hl => (h.fits i).owned hl hholds) rfl
      (fun _ => hsome) fun hp => by cases hp) hold fun _ _ => .inl rfl
  · next hnone =>
    exact h.within (.refl _) hold hholds rfl (by simp) fun _ => by simpa using hnone

theorem taskGo_unlockTest {c : Call} {raw : Raw} (h : Guarded s)
    (hpc : s.tasks i = .unlockTest c raw) :
    Guarded (taskGo w mtu i a s (.unlockTest c raw)).1 := by
  have hold : s.tasks i ≠ .invalidate := by simp [hpc]
  have hholds : (s.tasks i).holds = true := by rw [hpc]; rfl
  have hfits := h.fits i
  rw [hpc] at hfits
  simp only [taskGo]
  split
  · exact h.within (.refl _) hold hholds rfl (by simp) fun hp => hfits.past (by
      cases c <;> first | rfl | cases hp)
  · refine Guarded.leave raw fun pc hpc' => ?_
    rcases hpc' with rfl | ⟨rfl, rfl⟩
    · exact h.outside hold rfl fun hp => by cases hp
    · exact h.outside hold rfl fun _ => hfits.past rfl

/-- The mutex is given back by the task that has it, or it is gone. -/
theorem taskGo_give {c : Call} {raw : Raw} (h : Guarded s) (hpc : s.tasks i = .give c raw) :
    Guarded (taskGo w mtu i a s (.give c raw)).1 := by
  have hold : s.tasks i ≠ .invalidate := by simp [hpc]
  have hfits := h.fits i
  rw [hpc] at hfits
  simp only [taskGo]
  split
  · next hown =>
    refine Guarded.leave raw fun pc hpc' => ?_
    rcases hpc' with rfl | ⟨rfl, rfl⟩
    · exact h.release hown.2 hold rfl fun hp => by cases hp
    · exact h.release hown.2 hold rfl fun _ => hfits.past rfl
  · refine Guarded.leave raw fun pc hpc' => ?_
    rcases hpc' with rfl | ⟨rfl, rfl⟩
    · exact h.outside hold rfl fun hp => by cases hp
    · exact h.outside hold rfl fun _ => hfits.past rfl

end Guarded

/-- **Every step of a task keeps what the lock protects.** -/
theorem Guarded.taskGo (h : Guarded s) : Guarded (taskGo w mtu i a s (s.tasks i)).1 := by
  obtain ⟨pc, hpc⟩ : ∃ pc, s.tasks i = pc := ⟨_, rfl⟩
  have hold : pc ≠ .invalidate → s.tasks i ≠ .invalidate := fun hne => by rwa [hpc]
  have hpast := (h.fits i).past
  rw [hpc] at hpast ⊢
  cases pc with
  | idle => exact h
  | inited c => exact h.taskGo_inited w mtu a hpc
  | peer c => exact h.taskGo_peer w mtu a hpc
  | lockTest c => exact h.taskGo_lockTest w mtu a hpc
  | take c => exact h.taskGo_take w mtu a hpc
  | handle c => exact h.taskGo_handle w mtu a hpc
  | stack c valid => exact h.taskGo_stack w mtu a hpc
  | count size want => exact h.taskGo_count w mtu a hpc
  | wait size want => exact h.taskGo_wait w mtu a hpc
  | head size want => exact h.taskGo_head w mtu a hpc
  | close => exact h.taskGo_close w mtu a hpc
  | invalidate => exact h.invalidate hpc
  | disconnect =>
    exact h.within ⟨rfl, rfl⟩ (hold (by simp)) (by rw [hpc]; rfl) rfl (by simp) fun _ => hpast rfl
  | unlockTest c raw => exact h.taskGo_unlockTest w mtu a hpc
  | give c raw => exact h.taskGo_give w mtu a hpc
  | deleteTest =>
    simp only [Udp.taskGo]
    split <;> exact h.outside (hold (by simp)) rfl fun _ => hpast rfl
  | delete => exact h.unlock (hpast rfl) (hpast rfl) (.inr rfl) rfl
  | clear => exact h.unlock (hpast rfl) rfl (.inl rfl) rfl

end

theorem guarded_new (cfg : Option ClientConfig) : Guarded (.new cfg) where
  fits _ := suited_outside rfl (fun hp => by cases hp)
  live _ := ⟨rfl, fun hno => by cases hno⟩
  closed _ hc := by cases hc

/-- **So does every step.** -/
theorem Guarded.sharedStep {s : Shared} (h : Guarded s) (w mtu : Nat) (limit : Option Nat)
    (act : SharedAct) : Guarded (sharedStep w mtu limit act s).1 := by
  cases act with
  | arrive p =>
    simp only [Udp.sharedStep]
    split
    · refine ⟨fun j => ?_, h.live, h.closed⟩
      have hfits := h.fits j
      exact ⟨hfits.owned, hfits.hand, hfits.closing, hfits.past, fun _ _ _ => by simp⟩
    · exact h
  | call i c =>
    simp only [Udp.sharedStep]
    split
    · next hidle =>
      split
      · refine h.outside (by simp [hidle]) (by cases c <;> rfl) fun hp => ?_
        cases c <;> cases hp
      · exact h
    · exact h
  | step i a => exact h.taskGo w mtu a

end UniNet.Udp
