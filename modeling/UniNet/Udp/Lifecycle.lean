import UniNet.Infra.Ledger
import UniNet.Udp.Server

/-!
# Starting and stopping the UDP server

The task obtains a mutex and a socket, and gives up what it has when a later step fails. What is
left when it leaves is given up by `uni_net_udp_server_stop`, which may be called while the task
is anywhere.

Three fields of the context tell how far the task has come (`Stage`), and each place of the task
and of the caller goes with one or two stages. A closed socket and a deleted mutex stay in the
context for a moment, so what the server holds (`Server.sockets`, `Server.mutexes`) depends on
the place as well.

* `taskStep_holds`, `stopStep_holds` — the steps of the two sides
* `server_holds` — what the server holds is what it obtained and did not give up
-/

namespace UniNet.Udp

open Infra

/-! ## Resources in the log -/

def opened : ServerEvent → Option Nat
  | .socketOpened n => some n
  | _ => none

def closed : ServerEvent → Option Nat
  | .socketClosed n => some n
  | _ => none

def created : ServerEvent → Option Nat
  | .mutexCreated m => some m
  | _ => none

def deleted : ServerEvent → Option Nat
  | .mutexDeleted m => some m
  | _ => none

/-- An event that has nothing to do with sockets and mutexes coming and going. -/
def Neutral (e : ServerEvent) : Prop :=
  opened e = none ∧ closed e = none ∧ created e = none ∧ deleted e = none

/-! ## How far the server has come -/

/-- Whether the socket is valid, whether there is a mutex, and `initialized`. -/
structure Stage where
  socket : Bool
  lock : Bool
  initialized : Bool
  deriving DecidableEq

def ServerContext.stage (ctx : ServerContext) : Stage :=
  ⟨ctx.socket.isValid, ctx.lock.isSome, ctx.initialized⟩

namespace Stage

def bare : Stage := ⟨false, false, false⟩

def locked : Stage := ⟨false, true, false⟩

def opened : Stage := ⟨true, true, false⟩

def ready : Stage := ⟨true, true, true⟩

/-- The caller has invalidated the socket. -/
def closing : Stage := ⟨false, true, true⟩

end Stage

/-- The stages that go with a place of the task. -/
def TaskPc.stages : TaskPc → List Stage
  | .network | .checkStop | .createMutex => [.bare]
  | .createSocket | .deleteMutex | .clearLock => [.locked]
  | .applyTimeouts | .tuneQueue | .bind | .setInitialized | .closeSocket | .invalidateSocket =>
    [.opened]
  | .checkInitialized => [.locked, .ready]
  | _ => [.bare, .ready]

/-- The stages that go with a place of the caller when there is no task. -/
def StopPc.stages : StopPc → List Stage
  | .outside | .request => [.bare]
  | .invalidateSocket => [.ready]
  | .giveAgain | .deleteMutex | .clear => [.bare, .closing]
  | _ => [.bare, .ready]

def Server.stages (s : Server) : List Stage :=
  match s.task with
  | some pc => pc.stages
  | none => s.caller.stages

/-! ## What the server holds -/

/-- The task has closed the socket that is still stored. -/
def TaskPc.hasClosed : TaskPc → Bool
  | .invalidateSocket => true
  | _ => false

/-- The task has deleted the mutex that is still stored. -/
def TaskPc.hasDeleted : TaskPc → Bool
  | .clearLock => true
  | _ => false

def StopPc.hasClosed : StopPc → Bool
  | .invalidateSocket => true
  | _ => false

def StopPc.hasDeleted : StopPc → Bool
  | .clear => true
  | _ => false

def SocketHandle.held : SocketHandle → List Nat
  | .valid n => [n]
  | _ => []

def Server.sockets (s : Server) : List Nat :=
  if s.task.any TaskPc.hasClosed || s.caller.hasClosed then [] else s.ctx.socket.held

def Server.mutexes (s : Server) : List Nat :=
  if s.task.any TaskPc.hasDeleted || s.caller.hasDeleted then [] else s.ctx.lock.toList

/-- The stage goes with the place, and what is held is what was obtained and not given up. -/
structure Holds (s : Server) (log : List ServerEvent) : Prop where
  stage : s.ctx.stage ∈ s.stages
  sockets : ∀ n, lost opened closed log s.sockets n = 0
  mutexes : ∀ m, lost created deleted log s.mutexes m = 0

theorem init_holds : Holds .init [] :=
  ⟨List.mem_singleton_self _, fun _ => rfl, fun _ => rfl⟩

namespace Holds

variable {s s' : Server} {log es : List ServerEvent}

/-- A step that leaves everything in its place. -/
theorem neutral (h : Holds s log) (hstage : s'.ctx.stage ∈ s'.stages)
    (hsockets : s'.sockets = s.sockets) (hmutexes : s'.mutexes = s.mutexes)
    (hes : ∀ e ∈ es, Neutral e) : Holds s' (log ++ es) where
  stage := hstage
  sockets := by
    intro n
    rw [lost_other (fun e he => (hes e he).1) (fun e he => (hes e he).2.1), hsockets]
    exact h.sockets n
  mutexes := by
    intro m
    rw [lost_other (fun e he => (hes e he).2.2.1) (fun e he => (hes e he).2.2.2), hmutexes]
    exact h.mutexes m

/-- A socket is opened. -/
theorem openSocket {n : Nat} (h : Holds s log) (hstage : s'.ctx.stage ∈ s'.stages)
    (hbefore : s.sockets = []) (hafter : s'.sockets = [n]) (hmutexes : s'.mutexes = s.mutexes) :
    Holds s' (log ++ [.socketOpened n]) where
  stage := hstage
  sockets := by
    intro k
    have hevent : opened (.socketOpened n) = some n := rfl
    have hperm : s'.sockets.Perm (n :: s.sockets) := by rw [hbefore, hafter]
    rw [lost_acquire hevent rfl hperm]
    exact h.sockets k
  mutexes := by
    intro m
    rw [lost_other (by simp [created]) (by simp [deleted]), hmutexes]
    exact h.mutexes m

/-- A socket is closed. -/
theorem closeSocket {n : Nat} (h : Holds s log) (hstage : s'.ctx.stage ∈ s'.stages)
    (hbefore : s.sockets = [n]) (hafter : s'.sockets = []) (hmutexes : s'.mutexes = s.mutexes) :
    Holds s' (log ++ [.socketClosed n]) where
  stage := hstage
  sockets := by
    intro k
    have hevent : closed (.socketClosed n) = some n := rfl
    have hperm : s.sockets.Perm (n :: s'.sockets) := by rw [hbefore, hafter]
    rw [lost_release rfl hevent hperm]
    exact h.sockets k
  mutexes := by
    intro m
    rw [lost_other (by simp [created]) (by simp [deleted]), hmutexes]
    exact h.mutexes m

/-- A mutex is created. -/
theorem createMutex {m : Nat} (h : Holds s log) (hstage : s'.ctx.stage ∈ s'.stages)
    (hbefore : s.mutexes = []) (hafter : s'.mutexes = [m]) (hsockets : s'.sockets = s.sockets) :
    Holds s' (log ++ [.mutexCreated m]) where
  stage := hstage
  sockets := by
    intro n
    rw [lost_other (by simp [opened]) (by simp [closed]), hsockets]
    exact h.sockets n
  mutexes := by
    intro k
    have hevent : created (.mutexCreated m) = some m := rfl
    have hperm : s'.mutexes.Perm (m :: s.mutexes) := by rw [hbefore, hafter]
    rw [lost_acquire hevent rfl hperm]
    exact h.mutexes k

/-- A mutex is deleted. -/
theorem deleteMutex {m : Nat} (h : Holds s log) (hstage : s'.ctx.stage ∈ s'.stages)
    (hbefore : s.mutexes = [m]) (hafter : s'.mutexes = []) (hsockets : s'.sockets = s.sockets) :
    Holds s' (log ++ [.mutexDeleted m]) where
  stage := hstage
  sockets := by
    intro n
    rw [lost_other (by simp [opened]) (by simp [closed]), hsockets]
    exact h.sockets n
  mutexes := by
    intro k
    have hevent : deleted (.mutexDeleted m) = some m := rfl
    have hperm : s.mutexes.Perm (m :: s'.mutexes) := by rw [hbefore, hafter]
    rw [lost_release rfl hevent hperm]
    exact h.mutexes k

end Holds

/-! ## The side of the task -/

theorem stage_eq {ctx : ServerContext} {socket lock initialized : Bool} :
    ctx.stage = ⟨socket, lock, initialized⟩
      ↔ ctx.socket.isValid = socket ∧ ctx.lock.isSome = lock ∧ ctx.initialized = initialized := by
  rw [ServerContext.stage, Stage.mk.injEq]

theorem held_valid {socket : SocketHandle} (h : socket.isValid = true) :
    ∃ n, socket = .valid n := by
  cases socket with
  | valid n => exact ⟨n, rfl⟩
  | null => exact Bool.noConfusion h
  | invalid => exact Bool.noConfusion h

theorem held_nil {socket : SocketHandle} (h : socket.isValid = false) : socket.held = [] := by
  cases socket with
  | valid n => exact Bool.noConfusion h
  | null => rfl
  | invalid => rfl

theorem lock_nil {lock : Option Nat} (h : lock.isSome = false) : lock.toList = [] := by
  rw [Option.isSome_eq_false_iff, Option.isNone_iff_eq_none] at h
  rw [h]
  rfl

section

variable {s s' : Server} {log es : List ServerEvent} {pc pc' : TaskPc}

/-- The stages of a server with a task are those of the task. -/
theorem Holds.task_stage (h : Holds s log) (hpc : s.task = some pc) : s.ctx.stage ∈ pc.stages := by
  have hstage := h.stage
  rwa [Server.stages, hpc] at hstage

/-- What a server with a task holds, as long as the caller waits for it. -/
theorem sockets_task (hpc : s.task = some pc) (halone : s.caller.alone = false) :
    s.sockets = if pc.hasClosed then [] else s.ctx.socket.held := by
  have hcaller : s.caller.hasClosed = false := by
    cases hc : s.caller with
    | invalidateSocket => rw [hc] at halone; exact Bool.noConfusion halone
    | _ => rfl
  rw [Server.sockets, hpc, hcaller, Bool.or_false]
  rfl

theorem mutexes_task (hpc : s.task = some pc) (halone : s.caller.alone = false) :
    s.mutexes = if pc.hasDeleted then [] else s.ctx.lock.toList := by
  have hcaller : s.caller.hasDeleted = false := by
    cases hc : s.caller with
    | clear => rw [hc] at halone; exact Bool.noConfusion halone
    | _ => rfl
  rw [Server.mutexes, hpc, hcaller, Bool.or_false]
  rfl

/-- The same after a step that does not move the caller. -/
theorem sockets_next (hpc' : s'.task = some pc') (hcaller : s'.caller = s.caller)
    (halone : s.caller.alone = false) :
    s'.sockets = if pc'.hasClosed then [] else s'.ctx.socket.held :=
  sockets_task hpc' (by rw [hcaller]; exact halone)

theorem mutexes_next (hpc' : s'.task = some pc') (hcaller : s'.caller = s.caller)
    (halone : s.caller.alone = false) :
    s'.mutexes = if pc'.hasDeleted then [] else s'.ctx.lock.toList :=
  mutexes_task hpc' (by rw [hcaller]; exact halone)

/-- The task moves on and leaves everything in its place. -/
theorem Holds.move (h : Holds s log) (hpc : s.task = some pc) (halone : s.caller.alone = false)
    (hpc' : s'.task = some pc') (hsame : s.SameBut s') (hstage : s.ctx.stage ∈ pc'.stages)
    (hclosed : pc'.hasClosed = pc.hasClosed) (hdeleted : pc'.hasDeleted = pc.hasDeleted)
    (hes : ∀ e ∈ es, Neutral e) : Holds s' (log ++ es) := by
  refine h.neutral ?_ ?_ ?_ hes
  · rw [Server.stages, hpc', ServerContext.stage, hsame.socket, hsame.lock, hsame.initialized]
    exact hstage
  · rw [sockets_task hpc halone, sockets_next hpc' hsame.caller halone, hclosed, hsame.socket]
  · rw [mutexes_task hpc halone, mutexes_next hpc' hsame.caller halone, hdeleted, hsame.lock]

/-- The places from the end of the initialisation to the end of the task. -/
def TaskPc.settled : TaskPc → Bool
  | .checkIdle | .idle | .outer | .lockTake | .readSocket | .lockGive _ | .inner _
  | .recvBatch .. | .dispatch .. | .exit => true
  | _ => false

theorem settled_place (h : pc.settled = true) :
    pc.stages = [.bare, .ready] ∧ pc.hasClosed = false ∧ pc.hasDeleted = false := by
  cases pc <;> first | exact ⟨rfl, rfl, rfl⟩ | exact Bool.noConfusion h

/-- The task moves on after the initialisation. -/
theorem Holds.settle (h : Holds s log) (hpc : s.task = some pc) (halone : s.caller.alone = false)
    (hpc' : s'.task = some pc') (hsame : s.SameBut s') (hbefore : pc.settled = true)
    (hafter : pc'.settled = true) (hes : ∀ e ∈ es, Neutral e) : Holds s' (log ++ es) := by
  obtain ⟨hstages, hclosed, hdeleted⟩ := settled_place hbefore
  obtain ⟨hstages', hclosed', hdeleted'⟩ := settled_place hafter
  refine h.move hpc halone hpc' hsame ?_ (hclosed'.trans hclosed.symm)
    (hdeleted'.trans hdeleted.symm) hes
  rw [hstages', ← hstages]
  exact h.task_stage hpc

end

/-! ### The receive loop -/

section

variable {s : Server} {burst : Burst} {capacity count i : Nat}

theorem batchEnd_settled : ∃ pc, (batchEnd burst count s).1.task = some pc ∧ pc.settled = true := by
  unfold batchEnd
  split <;> exact ⟨_, rfl, rfl⟩

theorem batchEnd_neutral : ∀ e ∈ (batchEnd burst count s).2, Neutral e := by
  unfold batchEnd
  split
  · exact List.forall_mem_nil _
  · exact List.forall_mem_singleton.mpr ⟨rfl, rfl, rfl, rfl⟩

theorem recvBatch_settled (recv : RecvOutcome) :
    ∃ pc, (recvBatch recv burst capacity count s).1.task = some pc ∧ pc.settled = true := by
  unfold recvBatch
  split
  · dsimp only
    split
    · exact batchEnd_settled
    · exact ⟨_, rfl, rfl⟩
  · exact batchEnd_settled

theorem recvBatch_neutral (recv : RecvOutcome) :
    ∀ e ∈ (recvBatch recv burst capacity count s).2, Neutral e := by
  unfold recvBatch
  split
  · dsimp only
    split
    · intro e he
      simp only [List.cons_append, List.mem_cons, List.mem_append, List.mem_map] at he
      rcases he with rfl | ⟨payload, -, rfl⟩ | he
      · exact ⟨rfl, rfl, rfl, rfl⟩
      · exact ⟨rfl, rfl, rfl, rfl⟩
      · exact batchEnd_neutral e he
    · simp [Neutral, opened, closed, created, deleted]
  · exact batchEnd_neutral

theorem dispatchBatch_settled :
    ∃ pc, (dispatchBatch burst count i s).1.task = some pc ∧ pc.settled = true := by
  unfold dispatchBatch
  split
  · dsimp only
    split <;> exact ⟨_, rfl, rfl⟩
  · exact ⟨_, rfl, rfl⟩

theorem dispatchBatch_neutral : ∀ e ∈ (dispatchBatch burst count i s).2, Neutral e := by
  have hrelease : ∀ item : RxItem, ∀ e ∈ (if item.releaseWithStack = true then
      item.payload.toList.map ServerEvent.release else []), Neutral e := by
    intro item e he
    split at he
    · obtain ⟨payload, -, rfl⟩ := List.mem_map.mp he
      exact ⟨rfl, rfl, rfl, rfl⟩
    · exact List.forall_mem_nil _ e he
  unfold dispatchBatch
  split
  · dsimp only
    split
    · rename_i events hevents
      intro e he
      simp only [List.cons_append, List.mem_cons, List.mem_append] at he
      rcases he with rfl | he | he
      · exact ⟨rfl, rfl, rfl, rfl⟩
      · unfold deliver at hevents
        split at hevents
        · split at hevents
          · obtain rfl := Option.some.inj hevents
            simp only [List.mem_cons, List.not_mem_nil, or_false] at he
            rcases he with rfl | rfl <;> exact ⟨rfl, rfl, rfl, rfl⟩
          · exact absurd hevents.symm (Option.some_ne_none _)
        · exact absurd hevents.symm (Option.some_ne_none _)
      · exact hrelease _ e he
    · intro e he
      rcases List.mem_cons.mp he with rfl | he
      · exact ⟨rfl, rfl, rfl, rfl⟩
      · exact hrelease _ e he
  · exact List.forall_mem_nil _

end

/-! ### The initialisation -/

section

variable {b : ServerBuild} {s : Server} {log : List ServerEvent} {a : TaskAnswer}

/-- A step to another place only. -/
theorem goto_same (s : Server) (taken : Bool) (pc : TaskPc) :
    s.SameBut ({ s with taken := taken }.goto pc) :=
  ⟨rfl, rfl, rfl, rfl, rfl, rfl, rfl⟩

theorem createMutex_holds (h : Holds s log) (hpc : s.task = some .createMutex)
    (halone : s.caller.alone = false) :
    Holds (taskStep b a s .createMutex).1 (log ++ (taskStep b a s .createMutex).2) := by
  obtain ⟨hsocket, hlock, hinit⟩ := stage_eq.mp (List.mem_singleton.mp (h.task_stage hpc))
  have hbefore : s.mutexes = [] := (mutexes_task hpc halone).trans (lock_nil hlock)
  simp only [taskStep]
  split
  · refine h.createMutex ?_ hbefore (Eq.trans (mutexes_next rfl rfl halone) rfl) ?_
    · exact List.mem_singleton.mpr (stage_eq.mpr ⟨hsocket, rfl, hinit⟩)
    · exact Eq.trans (sockets_next rfl rfl halone) (sockets_task hpc halone).symm
  · refine h.neutral ?_ ?_ ?_ (List.forall_mem_nil _)
    · exact List.mem_cons.mpr (Or.inl (stage_eq.mpr ⟨hsocket, rfl, hinit⟩))
    · exact Eq.trans (sockets_next rfl rfl halone) (sockets_task hpc halone).symm
    · exact Eq.trans (mutexes_next rfl rfl halone) hbefore.symm

theorem createSocket_holds (h : Holds s log) (hpc : s.task = some .createSocket)
    (halone : s.caller.alone = false) :
    Holds (taskStep b a s .createSocket).1 (log ++ (taskStep b a s .createSocket).2) := by
  obtain ⟨hsocket, hlock, hinit⟩ := stage_eq.mp (List.mem_singleton.mp (h.task_stage hpc))
  have hbefore : s.sockets = [] := (sockets_task hpc halone).trans (held_nil hsocket)
  simp only [taskStep]
  split
  · refine h.openSocket ?_ hbefore (Eq.trans (sockets_next rfl rfl halone) rfl) ?_
    · exact List.mem_singleton.mpr (stage_eq.mpr ⟨rfl, hlock, hinit⟩)
    · exact Eq.trans (mutexes_next rfl rfl halone) (mutexes_task hpc halone).symm
  · refine h.neutral ?_ ?_ ?_ (List.forall_mem_nil _)
    · exact List.mem_cons.mpr (Or.inl (stage_eq.mpr ⟨rfl, hlock, hinit⟩))
    · exact Eq.trans (sockets_next rfl rfl halone) hbefore.symm
    · exact Eq.trans (mutexes_next rfl rfl halone) (mutexes_task hpc halone).symm

/-- Closing the socket, and forgetting it in the next step. -/
theorem closeSocket_holds (h : Holds s log) (hpc : s.task = some .closeSocket)
    (halone : s.caller.alone = false) :
    Holds (taskStep b a s .closeSocket).1 (log ++ (taskStep b a s .closeSocket).2) := by
  have hstage := h.task_stage hpc
  obtain ⟨hsocket, -, -⟩ := stage_eq.mp (List.mem_singleton.mp hstage)
  obtain ⟨n, hn⟩ := held_valid hsocket
  have hbefore : s.sockets = [n] := by
    rw [sockets_task hpc halone, hn]
    rfl
  simp only [taskStep, hn]
  refine h.closeSocket hstage hbefore (Eq.trans (sockets_next rfl rfl halone) rfl) ?_
  exact Eq.trans (mutexes_next rfl rfl halone) (mutexes_task hpc halone).symm

theorem invalidateSocket_holds (h : Holds s log) (hpc : s.task = some .invalidateSocket)
    (halone : s.caller.alone = false) :
    Holds (taskStep b a s .invalidateSocket).1 (log ++ (taskStep b a s .invalidateSocket).2) := by
  obtain ⟨-, hlock, hinit⟩ := stage_eq.mp (List.mem_singleton.mp (h.task_stage hpc))
  refine h.neutral ?_ ?_ ?_ (List.forall_mem_nil _)
  · exact List.mem_cons.mpr (Or.inl (stage_eq.mpr ⟨rfl, hlock, hinit⟩))
  · exact Eq.trans (sockets_next rfl rfl halone) (sockets_task hpc halone).symm
  · exact Eq.trans (mutexes_next rfl rfl halone) (mutexes_task hpc halone).symm

theorem setInitialized_holds (h : Holds s log) (hpc : s.task = some .setInitialized)
    (halone : s.caller.alone = false) :
    Holds (taskStep b a s .setInitialized).1 (log ++ (taskStep b a s .setInitialized).2) := by
  obtain ⟨hsocket, hlock, -⟩ := stage_eq.mp (List.mem_singleton.mp (h.task_stage hpc))
  refine h.neutral ?_ ?_ ?_ (List.forall_mem_nil _)
  · exact List.mem_cons_of_mem _
      (List.mem_singleton.mpr (stage_eq.mpr ⟨hsocket, hlock, rfl⟩))
  · exact Eq.trans (sockets_next rfl rfl halone) (sockets_task hpc halone).symm
  · exact Eq.trans (mutexes_next rfl rfl halone) (mutexes_task hpc halone).symm

theorem deleteMutex_holds (h : Holds s log) (hpc : s.task = some .deleteMutex)
    (halone : s.caller.alone = false) :
    Holds (taskStep b a s .deleteMutex).1 (log ++ (taskStep b a s .deleteMutex).2) := by
  have hstage := h.task_stage hpc
  obtain ⟨-, hlock, -⟩ := stage_eq.mp (List.mem_singleton.mp hstage)
  obtain ⟨m, hm⟩ := Option.isSome_iff_exists.mp hlock
  have hbefore : s.mutexes = [m] := by
    rw [mutexes_task hpc halone, hm]
    rfl
  simp only [taskStep, hm]
  refine h.deleteMutex hstage hbefore (Eq.trans (mutexes_next rfl rfl halone) rfl) ?_
  exact Eq.trans (sockets_next rfl rfl halone) (sockets_task hpc halone).symm

theorem clearLock_holds (h : Holds s log) (hpc : s.task = some .clearLock)
    (halone : s.caller.alone = false) :
    Holds (taskStep b a s .clearLock).1 (log ++ (taskStep b a s .clearLock).2) := by
  obtain ⟨hsocket, -, hinit⟩ := stage_eq.mp (List.mem_singleton.mp (h.task_stage hpc))
  refine h.neutral ?_ ?_ ?_ (List.forall_mem_nil _)
  · exact List.mem_cons.mpr (Or.inl (stage_eq.mpr ⟨hsocket, rfl, hinit⟩))
  · exact Eq.trans (sockets_next rfl rfl halone) (sockets_task hpc halone).symm
  · exact Eq.trans (mutexes_next rfl rfl halone) (mutexes_task hpc halone).symm

/-- A task that failed to initialise deletes its mutex, and one that did not keeps it. -/
theorem checkInitialized_holds (h : Holds s log) (hpc : s.task = some .checkInitialized)
    (halone : s.caller.alone = false) :
    Holds (taskStep b a s .checkInitialized).1 (log ++ (taskStep b a s .checkInitialized).2) := by
  have hstage : s.ctx.stage = .locked ∨ s.ctx.stage = .ready := by
    simpa [TaskPc.stages] using h.task_stage hpc
  have hsame := goto_same s s.taken
  rcases hstage with hlocked | hready
  · have hinit : s.ctx.initialized = false := (stage_eq.mp hlocked).2.2
    simp only [taskStep, hinit, Bool.false_eq_true, if_false]
    exact h.move hpc halone rfl (hsame _) (List.mem_singleton.mpr hlocked) rfl rfl
      (List.forall_mem_nil _)
  · have hinit : s.ctx.initialized = true := (stage_eq.mp hready).2.2
    simp only [taskStep, hinit, if_true]
    exact h.move hpc halone rfl (hsame _) (List.mem_cons_of_mem _ (List.mem_singleton.mpr hready))
      rfl rfl (List.forall_mem_nil _)

/-- A caller that waits for the task. -/
theorem waiting_stages {pc : StopPc} (hrequested : pc.requested = true)
    (halone : pc.alone = false) :
    pc.stages = [.bare, .ready] ∧ pc.hasClosed = false ∧ pc.hasDeleted = false := by
  cases pc <;>
    first
      | exact ⟨rfl, rfl, rfl⟩
      | exact Bool.noConfusion hrequested
      | exact Bool.noConfusion halone

theorem exit_holds (h : Holds s log) (hpc : s.task = some .exit) (halone : s.caller.alone = false)
    (hrequested : s.caller.requested = true) :
    Holds (taskStep b a s .exit).1 (log ++ (taskStep b a s .exit).2) := by
  obtain ⟨hstages, hclosed, hdeleted⟩ := waiting_stages hrequested halone
  refine h.neutral ?_ ?_ ?_ (List.forall_mem_singleton.mpr ⟨rfl, rfl, rfl, rfl⟩)
  · have hstage := h.task_stage hpc
    simp only [taskStep, Server.stages, hstages]
    exact hstage
  · rw [sockets_task hpc halone]
    simp only [taskStep, Server.sockets, hclosed]
    rfl
  · rw [mutexes_task hpc halone]
    simp only [taskStep, Server.mutexes, hdeleted]
    rfl

/-- **A step of the task keeps the account.** -/
theorem taskStep_holds (hwf : s.Wf) (h : Holds s log) {pc : TaskPc} (hpc : s.task = some pc) :
    Holds (taskStep b a s pc).1 (log ++ (taskStep b a s pc).2) := by
  have halone := hwf.busy hpc
  have hstage := h.task_stage hpc
  have hsame := goto_same s s.taken
  cases pc with
  | createMutex => exact createMutex_holds h hpc halone
  | createSocket => exact createSocket_holds h hpc halone
  | closeSocket => exact closeSocket_holds h hpc halone
  | invalidateSocket => exact invalidateSocket_holds h hpc halone
  | setInitialized => exact setInitialized_holds h hpc halone
  | checkInitialized => exact checkInitialized_holds h hpc halone
  | deleteMutex => exact deleteMutex_holds h hpc halone
  | clearLock => exact clearLock_holds h hpc halone
  | exit =>
    have hrequested : s.ctx.stopRequested = true := hwf.task _ hpc
    exact exit_holds h hpc halone (hwf.stop ▸ hrequested)
  | network =>
    refine h.move hpc halone rfl (hsame _) ?_ ?_ ?_ (List.forall_mem_nil _)
    · split <;> exact hstage
    · split <;> rfl
    · split <;> rfl
  | checkStop =>
    refine h.move hpc halone rfl (hsame _) ?_ ?_ ?_ (List.forall_mem_nil _)
    · split
      · exact List.mem_cons.mpr (Or.inl (List.mem_singleton.mp hstage))
      · exact hstage
    · split <;> rfl
    · split <;> rfl
  | applyTimeouts | bind =>
    refine h.move hpc halone rfl (hsame _) ?_ ?_ ?_
      (List.forall_mem_singleton.mpr ⟨rfl, rfl, rfl, rfl⟩)
    · split <;> exact hstage
    · split <;> rfl
    · split <;> rfl
  | tuneQueue =>
    refine h.move hpc halone rfl ⟨rfl, rfl, rfl, rfl, rfl, rfl, rfl⟩ hstage rfl rfl ?_
    simp only [taskStep]
    split
    · exact List.forall_mem_singleton.mpr ⟨rfl, rfl, rfl, rfl⟩
    · exact List.forall_mem_nil _
  | checkIdle | idle | outer | inner =>
    refine h.settle hpc halone rfl (hsame _) rfl ?_ (List.forall_mem_nil _)
    split <;> rfl
  | lockTake =>
    simp only [taskStep]
    split
    · split
      · exact h.settle hpc halone hpc ⟨rfl, rfl, rfl, rfl, rfl, rfl, rfl⟩ rfl rfl
          (List.forall_mem_nil _)
      · exact h.settle hpc halone rfl (goto_same s true _) rfl rfl
          (List.forall_mem_singleton.mpr ⟨rfl, rfl, rfl, rfl⟩)
    · exact h.settle hpc halone rfl (hsame _) rfl rfl (List.forall_mem_nil _)
  | readSocket => exact h.settle hpc halone rfl (hsame _) rfl rfl (List.forall_mem_nil _)
  | lockGive socket =>
    have hnext : ∀ burst, TaskPc.settled (if socket.isValid = true then .inner burst else .outer)
        = true := by
      intro burst
      split <;> rfl
    simp only [taskStep]
    split
    · exact h.settle hpc halone rfl (goto_same s false _) rfl (hnext _)
        (List.forall_mem_singleton.mpr ⟨rfl, rfl, rfl, rfl⟩)
    · exact h.settle hpc halone rfl (hsame _) rfl (hnext _) (List.forall_mem_nil _)
  | recvBatch burst capacity count =>
    obtain ⟨pc', hpc', hsettled⟩ := recvBatch_settled (s := s) a.recv
    exact h.settle hpc halone hpc' (recvBatch_same ..) rfl hsettled (recvBatch_neutral a.recv)
  | dispatch burst count i =>
    obtain ⟨pc', hpc', hsettled⟩ := dispatchBatch_settled (s := s)
    exact h.settle hpc halone hpc' (dispatchBatch_same ..) rfl hsettled dispatchBatch_neutral

end

/-! ## The side of the caller -/

section

variable {s s' : Server} {log es : List ServerEvent}

/-- The caller moves on and leaves everything in its place. -/
theorem Holds.call (h : Holds s log) (htask : s'.task = s.task)
    (hsocket : s'.ctx.socket = s.ctx.socket) (hlock : s'.ctx.lock = s.ctx.lock)
    (hinit : s'.ctx.initialized = s.ctx.initialized)
    (hclosed : s'.caller.hasClosed = s.caller.hasClosed)
    (hdeleted : s'.caller.hasDeleted = s.caller.hasDeleted)
    (hstages : s.task = none → s.caller.stages ⊆ s'.caller.stages)
    (hes : ∀ e ∈ es, Neutral e) : Holds s' (log ++ es) := by
  refine h.neutral ?_ ?_ ?_ hes
  · have hstage := h.stage
    have hsame : s'.ctx.stage = s.ctx.stage := by
      rw [ServerContext.stage, ServerContext.stage, hsocket, hlock, hinit]
    rw [Server.stages] at hstage
    rw [Server.stages, htask, hsame]
    cases hpc : s.task with
    | some pc => rwa [hpc] at hstage
    | none =>
      rw [hpc] at hstage
      exact hstages hpc hstage
  · rw [Server.sockets, Server.sockets, htask, hclosed, hsocket]
  · rw [Server.mutexes, Server.mutexes, htask, hdeleted, hlock]

/-- A step to another place, with the mutex taken or given. -/
theorem Holds.pass (h : Holds s log) (taken : Bool) {pc pc' : StopPc} (hpc : s.caller = pc)
    (hstages : pc.stages ⊆ pc'.stages) (hclosed : pc'.hasClosed = pc.hasClosed)
    (hdeleted : pc'.hasDeleted = pc.hasDeleted) (hes : ∀ e ∈ es, Neutral e) :
    Holds ({ s with taken := taken }.call pc') (log ++ es) := by
  subst hpc
  exact h.call rfl rfl rfl rfl hclosed hdeleted (fun _ => hstages) hes

/-! A caller that is alone with the context. -/

theorem stage_alone (hpc : s.task = none) (h : s.ctx.stage ∈ s.caller.stages) :
    s.ctx.stage ∈ s.stages := by
  rwa [Server.stages, hpc]

theorem sockets_alone (hpc : s.task = none) :
    s.sockets = if s.caller.hasClosed then [] else s.ctx.socket.held := by
  rw [Server.sockets, hpc, Option.any_none, Bool.false_or]

theorem mutexes_alone (hpc : s.task = none) :
    s.mutexes = if s.caller.hasDeleted then [] else s.ctx.lock.toList := by
  rw [Server.mutexes, hpc, Option.any_none, Bool.false_or]

theorem Holds.caller_stage (h : Holds s log) (htask : s.task = none) {pc : StopPc}
    (hcaller : s.caller = pc) : s.ctx.stage ∈ pc.stages := by
  have hstage := h.stage
  rwa [Server.stages, htask, hcaller] at hstage

theorem stopClose_holds (h : Holds s log) (hcaller : s.caller = .closeSocket)
    (htask : s.task = none) :
    Holds (stopStep s .closeSocket).1 (log ++ (stopStep s .closeSocket).2) := by
  have hstage : s.ctx.stage = .bare ∨ s.ctx.stage = .ready := by
    simpa [StopPc.stages] using h.caller_stage htask hcaller
  have hsockets : s.sockets = s.ctx.socket.held := by
    rw [sockets_alone htask, hcaller]
    rfl
  have hmutexes : s.mutexes = s.ctx.lock.toList := by
    rw [mutexes_alone htask, hcaller]
    rfl
  rcases hstage with hbare | hready
  · obtain ⟨hsocket, -, -⟩ := stage_eq.mp hbare
    have hstep : stopStep s .closeSocket = (s.call .giveAgain, []) := by
      simp only [stopStep]
      split
      · rename_i hn
        rw [hn] at hsocket
        exact Bool.noConfusion hsocket
      · rfl
    rw [hstep]
    refine h.neutral ?_ (Eq.trans (sockets_alone htask) hsockets.symm)
      (Eq.trans (mutexes_alone htask) hmutexes.symm) (List.forall_mem_nil _)
    refine stage_alone htask ?_
    exact List.mem_cons.mpr (Or.inl hbare)
  · obtain ⟨hsocket, -, -⟩ := stage_eq.mp hready
    obtain ⟨n, hn⟩ := held_valid hsocket
    have hstep : stopStep s .closeSocket = (s.call .invalidateSocket, [.socketClosed n]) := by
      simp only [stopStep, hn]
    rw [hstep]
    refine h.closeSocket ?_ (hsockets.trans (by rw [hn]; rfl)) (sockets_alone htask)
      (Eq.trans (mutexes_alone htask) hmutexes.symm)
    refine stage_alone htask ?_
    exact List.mem_singleton.mpr hready

theorem stopInvalidate_holds (h : Holds s log) (hcaller : s.caller = .invalidateSocket)
    (htask : s.task = none) :
    Holds (stopStep s .invalidateSocket).1 (log ++ (stopStep s .invalidateSocket).2) := by
  obtain ⟨-, hlock, hinit⟩ := stage_eq.mp (List.mem_singleton.mp (h.caller_stage htask hcaller))
  refine h.neutral ?_ ?_ ?_ (List.forall_mem_nil _)
  · refine stage_alone htask ?_
    exact List.mem_cons_of_mem _ (List.mem_singleton.mpr (stage_eq.mpr ⟨rfl, hlock, hinit⟩))
  · rw [sockets_alone htask, hcaller]
    exact sockets_alone htask
  · rw [mutexes_alone htask, hcaller]
    exact mutexes_alone htask

theorem stopDelete_holds (h : Holds s log) (hcaller : s.caller = .deleteMutex)
    (htask : s.task = none) :
    Holds (stopStep s .deleteMutex).1 (log ++ (stopStep s .deleteMutex).2) := by
  have hstage := h.caller_stage htask hcaller
  have hmutexes : s.mutexes = s.ctx.lock.toList := by
    rw [mutexes_alone htask, hcaller]
    rfl
  have hsockets : s.sockets = s.ctx.socket.held := by
    rw [sockets_alone htask, hcaller]
    rfl
  cases hlock : s.ctx.lock with
  | some m =>
    simp only [stopStep, hlock]
    refine h.deleteMutex ?_ (hmutexes.trans (by rw [hlock]; rfl)) (mutexes_alone htask)
      (Eq.trans (sockets_alone htask) hsockets.symm)
    refine stage_alone htask ?_
    exact hstage
  | none =>
    simp only [stopStep, hlock]
    refine h.neutral ?_ (Eq.trans (sockets_alone htask) hsockets.symm)
      (Eq.trans (mutexes_alone htask) ?_) (List.forall_mem_nil _)
    · refine stage_alone htask ?_
      exact hstage
    · rw [hmutexes, hlock]
      rfl

/-- Nothing is held any more when the context is cleared. -/
theorem stopClear_holds (h : Holds s log) (hcaller : s.caller = .clear) (htask : s.task = none) :
    Holds (stopStep s .clear).1 (log ++ (stopStep s .clear).2) := by
  have hsocket : s.ctx.socket.isValid = false := by
    have hstage : s.ctx.stage = .bare ∨ s.ctx.stage = .closing := by
      simpa [StopPc.stages] using h.caller_stage htask hcaller
    rcases hstage with hbare | hclosing
    · exact (stage_eq.mp hbare).1
    · exact (stage_eq.mp hclosing).1
  refine h.neutral ?_ ?_ ?_ (List.forall_mem_singleton.mpr ⟨rfl, rfl, rfl, rfl⟩)
  · refine stage_alone htask ?_
    exact List.mem_singleton_self _
  · rw [sockets_alone htask, hcaller]
    exact Eq.trans (sockets_alone htask) (held_nil hsocket).symm
  · rw [mutexes_alone htask, hcaller]
    exact mutexes_alone htask

/-- **A step of the caller keeps the account.** -/
theorem stopStep_holds (hwf : s.Wf) (h : Holds s log) :
    Holds (stopStep s s.caller).1 (log ++ (stopStep s s.caller).2) := by
  have hstay : Holds s (log ++ []) := by rwa [List.append_nil]
  cases hpc : s.caller with
  | closeSocket => exact stopClose_holds h hpc (hwf.alone (by rw [hpc]; rfl))
  | invalidateSocket => exact stopInvalidate_holds h hpc (hwf.alone (by rw [hpc]; rfl))
  | deleteMutex => exact stopDelete_holds h hpc (hwf.alone (by rw [hpc]; rfl))
  | clear => exact stopClear_holds h hpc (hwf.alone (by rw [hpc]; rfl))
  | outside => exact hstay
  | request =>
    refine h.call rfl rfl rfl rfl (by rw [hpc]; rfl) (by rw [hpc]; rfl) ?_ (List.forall_mem_nil _)
    intro _
    rw [hpc]
    exact List.cons_subset_cons _ (List.nil_subset _)
  | lockCheck =>
    simp only [stopStep]
    split
    · exact h.pass s.taken hpc (List.Subset.refl _) rfl rfl (List.forall_mem_nil _)
    · exact h.pass s.taken hpc (List.Subset.refl _) rfl rfl (List.forall_mem_nil _)
  | lockTake =>
    simp only [stopStep]
    split
    · exact hstay
    · exact h.pass true hpc (List.Subset.refl _) rfl rfl
        (List.forall_mem_singleton.mpr ⟨rfl, rfl, rfl, rfl⟩)
  | setOption =>
    refine h.pass s.taken hpc (List.Subset.refl _) rfl rfl ?_
    simp only [stopStep]
    split
    · exact List.forall_mem_singleton.mpr ⟨rfl, rfl, rfl, rfl⟩
    · exact List.forall_mem_nil _
  | lockGive | giveAgain =>
    simp only [stopStep]
    split
    · exact h.pass false hpc (List.Subset.refl _) rfl rfl
        (List.forall_mem_singleton.mpr ⟨rfl, rfl, rfl, rfl⟩)
    · exact h.pass s.taken hpc (List.Subset.refl _) rfl rfl (List.forall_mem_nil _)
  | waitTask =>
    simp only [stopStep]
    split
    · exact hstay
    · exact h.pass s.taken hpc (List.Subset.refl _) rfl rfl (List.forall_mem_nil _)
  | lockAgain =>
    simp only [stopStep]
    split
    · split
      · exact hstay
      · exact h.pass true hpc (List.Subset.refl _) rfl rfl
          (List.forall_mem_singleton.mpr ⟨rfl, rfl, rfl, rfl⟩)
    · exact h.pass s.taken hpc (List.Subset.refl _) rfl rfl (List.forall_mem_nil _)

/-! ## Runs -/

/-- A server is started when nothing is held. -/
theorem startStep_holds (cfg : Option ServerConfig) (created : Option Nat) (hwf : s.Wf)
    (h : Holds s log) (hcaller : s.caller = .outside) (htask : s.task = none) :
    Holds (startStep cfg created s).1 (log ++ (startStep cfg created s).2) := by
  have hzero : s.ctx = .zero := hwf.fresh (by rw [hcaller]; rfl) htask
  have halone : s.caller.alone = false := by rw [hcaller]; rfl
  have hbefore : s.sockets = [] ∧ s.mutexes = [] := by
    rw [sockets_alone htask, mutexes_alone htask, hcaller, hzero]
    exact ⟨rfl, rfl⟩
  refine h.neutral ?_ ?_ ?_ (List.forall_mem_singleton.mpr ⟨rfl, rfl, rfl, rfl⟩)
  · cases created with
    | some task => exact List.mem_singleton_self _
    | none =>
      refine stage_alone rfl ?_
      simp only [startStep, hcaller]
      exact List.mem_singleton_self _
  · rw [hbefore.1]
    cases created with
    | some task => exact Eq.trans (sockets_next rfl rfl halone) rfl
    | none =>
      refine Eq.trans (sockets_alone rfl) ?_
      simp only [startStep, hcaller]
      rfl
  · rw [hbefore.2]
    cases created with
    | some task => exact Eq.trans (mutexes_next rfl rfl halone) rfl
    | none =>
      refine Eq.trans (mutexes_alone rfl) ?_
      simp only [startStep, hcaller]
      rfl

/-- Every step keeps the account. -/
theorem serverStep_holds (b : ServerBuild) (act : ServerAct) (hwf : s.Wf) (h : Holds s log) :
    Holds (serverStep b act s).1 (log ++ (serverStep b act s).2) := by
  have hstay : Holds s (log ++ []) := by rwa [List.append_nil]
  cases act with
  | start cfg created =>
    simp only [serverStep]
    split
    · rename_i hfree
      exact startStep_holds cfg created hwf h hfree.1 hfree.2
    · exact hstay
  | stop =>
    simp only [serverStep]
    split
    · rename_i hout
      exact h.pass s.taken hout (List.Subset.refl _) rfl rfl (List.forall_mem_nil _)
    · exact hstay
  | caller => exact stopStep_holds hwf h
  | task a =>
    simp only [serverStep]
    split
    · rename_i pc hpc
      exact taskStep_holds hwf h hpc
    · exact hstay

end

/-- **What the server holds is what it obtained and did not give up.** -/
theorem server_holds (b : ServerBuild) (acts : List ServerAct) :
    Holds (run (serverStep b) acts .init).1 (run (serverStep b) acts .init).2 := by
  have hboth := run_inv (serverStep b) (P := fun s log => s.Wf ∧ Holds s log)
    (fun act _ _ h => ⟨serverStep_wf b act h.1, serverStep_holds b act h.1 h.2⟩)
    ⟨init_wf, init_holds⟩ acts
  exact hboth.2

/-! ## Start and stop -/

/-- The caller has closed the socket. -/
def StopPc.closes : StopPc → Bool
  | .invalidateSocket | .giveAgain | .deleteMutex | .clear => true
  | _ => false

theorem Stage.ne_of_initialized {st : Stage} (h : st.initialized = true) :
    ∀ st' : Stage, st'.initialized = false → st ≠ st' := by
  rintro st' hst' rfl
  exact Bool.noConfusion (h.symm.trans hst')

/-- The task is initialised in one stage only, and has everything then. -/
theorem TaskPc.ready_of_mem {pc : TaskPc} {st : Stage} (h : st ∈ pc.stages)
    (hinit : st.initialized = true) :
    st = .ready ∧ pc.hasClosed = false ∧ pc.hasDeleted = false := by
  have hnot := Stage.ne_of_initialized hinit
  cases pc with
  | network | checkStop | createMutex | createSocket | deleteMutex | clearLock | applyTimeouts
  | tuneQueue | bind | setInitialized | closeSocket | invalidateSocket =>
    exact absurd (List.mem_singleton.mp h) (hnot _ rfl)
  | _ =>
    rcases List.mem_cons.mp h with hbare | hready
    · exact absurd hbare (hnot _ rfl)
    · exact ⟨List.mem_singleton.mp hready, rfl, rfl⟩

/-- The same for a caller that is alone with the context. -/
theorem StopPc.ready_of_mem {pc : StopPc} {st : Stage} (h : st ∈ pc.stages)
    (hinit : st.initialized = true) (hcloses : pc.closes = false) :
    st = .ready ∧ pc.hasClosed = false ∧ pc.hasDeleted = false := by
  have hnot := Stage.ne_of_initialized hinit
  cases pc with
  | outside | request => exact absurd (List.mem_singleton.mp h) (hnot _ rfl)
  | invalidateSocket | giveAgain | deleteMutex | clear => exact Bool.noConfusion hcloses
  | _ =>
    rcases List.mem_cons.mp h with hbare | hready
    · exact absurd hbare (hnot _ rfl)
    · exact ⟨List.mem_singleton.mp hready, rfl, rfl⟩

/-- An initialised server has its socket and its mutex, until the caller closes the socket. -/
theorem Holds.ready {s : Server} {log : List ServerEvent} (hwf : s.Wf) (h : Holds s log)
    (hinit : s.ctx.initialized = true) (hcloses : s.caller.closes = false) :
    s.ctx.stage = .ready ∧ s.sockets = s.ctx.socket.held ∧ s.mutexes = s.ctx.lock.toList := by
  cases htask : s.task with
  | some pc =>
    have halone := hwf.busy htask
    obtain ⟨hready, hclosed, hdeleted⟩ := TaskPc.ready_of_mem (h.task_stage htask) hinit
    refine ⟨hready, ?_, ?_⟩
    · rw [sockets_task htask halone, hclosed]
      rfl
    · rw [mutexes_task htask halone, hdeleted]
      rfl
  | none =>
    obtain ⟨hready, hclosed, hdeleted⟩ :=
      StopPc.ready_of_mem (h.caller_stage htask rfl) hinit hcloses
    refine ⟨hready, ?_, ?_⟩
    · rw [sockets_alone htask, hclosed]
      rfl
    · rw [mutexes_alone htask, hdeleted]
      rfl

/-- The socket and the mutex of an initialised server are open. -/
theorem Holds.open_of_initialized {s : Server} {log : List ServerEvent} (hwf : s.Wf)
    (h : Holds s log) (hinit : s.ctx.initialized = true) (hcloses : s.caller.closes = false) :
    ∃ n m, s.ctx.socket = .valid n ∧ s.ctx.lock = some m
      ∧ acquired opened log n = acquired closed log n + 1
      ∧ acquired created log m = acquired deleted log m + 1 := by
  obtain ⟨hready, hsockets, hmutexes⟩ := h.ready hwf hinit hcloses
  obtain ⟨hsocket, hlock, -⟩ := stage_eq.mp hready
  obtain ⟨n, hn⟩ := held_valid hsocket
  obtain ⟨m, hm⟩ := Option.isSome_iff_exists.mp hlock
  have hopen := h.sockets n
  have hcreated := h.mutexes m
  rw [hsockets, hn, lost, SocketHandle.held, List.count_singleton_self] at hopen
  rw [hmutexes, hm, lost, Option.toList_some, List.count_singleton_self] at hcreated
  exact ⟨n, m, hn, hm, by omega, by omega⟩

/-- Nothing is given up that was not obtained. -/
theorem Holds.given_up_le {s : Server} {log : List ServerEvent} (h : Holds s log) :
    (∀ n, acquired closed log n ≤ acquired opened log n)
      ∧ ∀ m, acquired deleted log m ≤ acquired created log m := by
  constructor
  · intro n
    have hlost := h.sockets n
    unfold lost at hlost
    omega
  · intro m
    have hlost := h.mutexes m
    unfold lost at hlost
    omega

/-- Everything is given up when the context is zero and nobody is at work on it. -/
theorem Holds.given_up {s : Server} {log : List ServerEvent} (h : Holds s log)
    (htask : s.task = none) (hcaller : s.caller = .outside) (hzero : s.ctx = .zero) :
    (∀ n, acquired opened log n = acquired closed log n)
      ∧ ∀ m, acquired created log m = acquired deleted log m := by
  have hnothing : s.sockets = [] ∧ s.mutexes = [] := by
    rw [sockets_alone htask, mutexes_alone htask, hcaller, hzero]
    exact ⟨rfl, rfl⟩
  constructor
  · intro n
    have hlost := h.sockets n
    rw [hnothing.1, lost, List.count_nil] at hlost
    omega
  · intro m
    have hlost := h.mutexes m
    rw [hnothing.2, lost, List.count_nil] at hlost
    omega

/-- The call returns from its last statement only. -/
theorem stopStep_returns {s : Server} (hin : s.caller ≠ .outside)
    (hout : (stopStep s s.caller).1.caller = .outside) : s.caller = .clear := by
  cases hpc : s.caller with
  | clear => rfl
  | outside => exact absurd hpc hin
  | lockCheck | lockGive | closeSocket | giveAgain | deleteMutex =>
    rw [hpc] at hout
    simp only [stopStep] at hout
    split at hout <;> exact StopPc.noConfusion hout
  | lockTake | waitTask =>
    rw [hpc] at hout
    simp only [stopStep] at hout
    split at hout
    · exact absurd hout hin
    · exact StopPc.noConfusion hout
  | lockAgain =>
    rw [hpc] at hout
    simp only [stopStep] at hout
    split at hout
    · split at hout
      · exact absurd hout hin
      · exact StopPc.noConfusion hout
    · exact StopPc.noConfusion hout
  | request | setOption | invalidateSocket =>
    rw [hpc] at hout
    exact StopPc.noConfusion hout

theorem serverStep_returns {b : ServerBuild} {act : ServerAct} {s : Server}
    (hin : s.caller ≠ .outside) (hout : (serverStep b act s).1.caller = .outside) :
    act = .caller ∧ s.caller = .clear := by
  cases act with
  | start cfg created =>
    simp only [serverStep] at hout
    split at hout
    · rename_i hfree
      exact absurd hfree.1 hin
    · exact absurd hout hin
  | stop =>
    simp only [serverStep] at hout
    split at hout
    · rename_i hfree
      exact absurd hfree hin
    · exact absurd hout hin
  | caller => exact ⟨rfl, stopStep_returns hin hout⟩
  | task a =>
    simp only [serverStep] at hout
    split at hout
    · rename_i pc hpc
      rw [(taskStep_keeps b a s pc).2.2] at hout
      exact absurd hout hin
    · exact absurd hout hin

/--
**Stop releases everything that the task acquired.** In any run, whatever the kernel and the
stack answer and wherever the task is when the caller asks it to stop:

* no socket is closed and no mutex is deleted more often than it was obtained
* an initialised server has an open socket and a mutex, until the caller closes the socket
* when the call returns, the task has left, the context is all zero, and every socket and every
  mutex was given up as often as it was obtained
-/
theorem stop_releases (b : ServerBuild) (acts : List ServerAct) :
    let s := (run (serverStep b) acts .init).1
    let log := (run (serverStep b) acts .init).2
    (∀ n, acquired closed log n ≤ acquired opened log n)
      ∧ (∀ m, acquired deleted log m ≤ acquired created log m)
      ∧ (s.ctx.initialized = true → s.caller.closes = false →
          ∃ n m, s.ctx.socket = .valid n ∧ s.ctx.lock = some m
            ∧ acquired opened log n = acquired closed log n + 1
            ∧ acquired created log m = acquired deleted log m + 1)
      ∧ ∀ act, s.caller ≠ .outside → (serverStep b act s).1.caller = .outside →
          let s' := (run (serverStep b) (acts ++ [act]) .init).1
          let log' := (run (serverStep b) (acts ++ [act]) .init).2
          (serverStep b act s).2 = [.stopped] ∧ s'.task = none ∧ s'.ctx = .zero
            ∧ (∀ n, acquired opened log' n = acquired closed log' n)
            ∧ ∀ m, acquired created log' m = acquired deleted log' m := by
  intro s log
  have hwf : s.Wf := server_wf b acts
  have hholds : Holds s log := server_holds b acts
  refine ⟨hholds.given_up_le.1, hholds.given_up_le.2, hholds.open_of_initialized hwf, ?_⟩
  intro act hin hout s' log'
  obtain ⟨rfl, hclear⟩ := serverStep_returns hin hout
  have htask : s.task = none := hwf.alone (by rw [hclear]; rfl)
  have hstep : serverStep b .caller s = ({ s with ctx := .zero }.call .outside, [.stopped]) := by
    rw [serverStep, hclear]
    rfl
  have hs' : s' = { s with ctx := .zero }.call .outside := by
    have hrun := run_concat (serverStep b) acts .caller .init
    rw [hstep] at hrun
    exact congrArg Prod.fst hrun
  have hlast : Holds s' log' := server_holds b (acts ++ [.caller])
  have htask' : s'.task = none := by rw [hs']; exact htask
  have hcaller' : s'.caller = .outside := by rw [hs']; rfl
  have hzero : s'.ctx = .zero := by rw [hs']; rfl
  exact ⟨by rw [hstep], htask', hzero, hlast.given_up htask' hcaller' hzero⟩

/-- The task is asked to stop between its timeouts and a bind that fails. -/
def bindFails : List ServerAct :=
  .start none (some 1) :: List.replicate 6 (.answered (.error 11)) ++ [.stop, .caller]
    ++ List.replicate 9 (.task ⟨true, none, false, .error 11⟩) ++ List.replicate 8 .caller

/-- A server that is up, and one that is stopped while it is set up. -/
theorem stop_releases_bind_fails :
    ((serverAfter upActs).1.ctx.initialized = true ∧ ∃ n m,
        (serverAfter upActs).1.ctx.socket = .valid n ∧ (serverAfter upActs).1.ctx.lock = some m
          ∧ acquired opened (serverAfter upActs).2 n = acquired closed (serverAfter upActs).2 n + 1
          ∧ acquired created (serverAfter upActs).2 m
            = acquired deleted (serverAfter upActs).2 m + 1)
      ∧ (serverAfter (bindFails ++ [.caller])).2.drop 1
        = [.mutexCreated 7, .socketOpened 7, .timeouts (.valid 7) 1000 1000,
          .bind (.valid 7) ⟨.inet, 0, 0⟩, .socketClosed 7, .mutexDeleted 7, .taskExit, .stopped]
      ∧ (serverAfter (bindFails ++ [.caller])).1.task = none
      ∧ (serverAfter (bindFails ++ [.caller])).1.ctx = .zero
      ∧ (∀ n, acquired opened (serverAfter (bindFails ++ [.caller])).2 n
          = acquired closed (serverAfter (bindFails ++ [.caller])).2 n)
      ∧ ∀ m, acquired created (serverAfter (bindFails ++ [.caller])).2 m
          = acquired deleted (serverAfter (bindFails ++ [.caller])).2 m := by
  have hup : (serverAfter upActs).1.ctx.initialized = true := by decide +kernel
  obtain ⟨-, -, hopen, -⟩ := stop_releases .standard upActs
  obtain ⟨-, -, -, hstop⟩ := stop_releases .standard bindFails
  obtain ⟨-, htask, hctx, hsockets, hmutexes⟩ :=
    hstop .caller (by decide +kernel) (by decide +kernel)
  exact ⟨⟨hup, hopen hup (by decide +kernel)⟩, by decide +kernel, htask, hctx, hsockets, hmutexes⟩

end UniNet.Udp
