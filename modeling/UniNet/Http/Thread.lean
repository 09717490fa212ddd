import UniNet.Infra.Run
import Mathlib.Tactic.Common

/-!
# Starting the server

`uni_net_http_server_init` creates the server thread and then stores `initialized`. The thread
begins with clearing the whole of `ctx->state`, `initialized` with it. Nothing orders the two:
the store is lost when the thread runs after it, and then the next call creates a second thread
on the same context.

One task calls `uni_net_http_server_init` again and again, and every thread that is created runs
`_uni_net_http_thread`. A run is any order of their steps, with any answers of the kernel and of
the stack.

* `ThreadFirst` — the steps after which nothing is lost: the store waits for the clearing
* `initPhase_step` — such steps keep the server in one of three phases
-/

namespace UniNet.Http

open Infra

/-! ## The source -/

/-- `uni_net_http_server_state_t`, without the buffer for headers. A null pointer is `none`. -/
structure ServerState where
  initialized : Bool
  handle : Option Nat
  socketSet : Option Nat
  socket : Option Nat
  clients : Option Nat
  deriving DecidableEq

/-- What `memset` leaves. -/
def ServerState.zero : ServerState := ⟨false, none, none, none, none⟩

/-- `uni_net_http_server_is_inited`. -/
def isInited (s : ServerState) : Bool := s.initialized

/-- Where a thread is in `_uni_net_http_thread`: in front of a statement of `init`, or behind. -/
inductive ThreadPc where
  | memset
  | network
  | clients
  | socketSet
  | socket
  | listen
  | work
  deriving DecidableEq

/-- What the next statement of a thread gets: whether the network is up, or a new object. -/
structure InitAnswer where
  networkUp : Bool
  object : Option Nat
  deriving DecidableEq

/-- The next statement of `_uni_net_http_server_init`. -/
def initStatement (a : InitAnswer) : ThreadPc → ServerState → ThreadPc × ServerState
  | .memset, _ => (.network, .zero)
  | .network, s => (if a.networkUp then .clients else .network, s)
  | .clients, s => (.socketSet, { s with clients := a.object })
  | .socketSet, s => (.socket, { s with socketSet := a.object })
  | .socket, s => (.listen, { s with socket := a.object })
  -- bind, listen, the options and `FD_SET` work on the socket and the set
  | .listen, s => (.work, s)
  | .work, s => (.work, s)

/-- Where the caller is in `uni_net_http_server_init`. -/
inductive CallerPc where
  | outside
  | create
  | store (result : Bool)
  deriving DecidableEq

/-- The context, the task that calls `init`, and the threads in the order of their creation. -/
structure Startup where
  state : ServerState
  caller : CallerPc
  threads : List ThreadPc
  deriving DecidableEq

/-- A step of the caller or of a thread. -/
inductive StartupAct where
  | call
  /-- `xTaskCreate`, with the handle of the new thread or a failure -/
  | create (handle : Option Nat)
  | store
  | thread (i : Nat) (a : InitAnswer)
  deriving DecidableEq

/--
One step, and what a call returns with it. A step that is not the turn of its task does nothing.
-/
def startupStep (act : StartupAct) (s : Startup) : Startup × List Bool :=
  match act, s.caller with
  | .call, .outside =>
    if isInited s.state then (s, [false]) else ({ s with caller := .create }, [])
  | .create (some handle), .create =>
    -- the handle is written before the thread can run
    ({ state := { s.state with handle := some handle }
       caller := .store true
       threads := s.threads ++ [.memset] }, [])
  | .create none, .create => ({ s with caller := .store false }, [])
  | .store, .store result =>
    ({ s with state := { s.state with initialized := result }, caller := .outside }, [result])
  | .thread i a, _ =>
    match s.threads[i]? with
    | some pc =>
      ({ s with
          state := (initStatement a pc s.state).2
          threads := s.threads.set i (initStatement a pc s.state).1 }, [])
    | none => (s, [])
  | _, _ => (s, [])

/-- A context with any content, in front of the first call. -/
def Startup.fresh (state : ServerState) : Startup := ⟨state, .outside, []⟩

/-- The steps of the two sides from there on, and what the calls have returned. -/
def startup (state : ServerState) (acts : List StartupAct) : Startup × List Bool :=
  run startupStep acts (Startup.fresh state)

/-! ## What is expected -/

/-- Once a call has returned true and a thread is through `init`, the context says so. -/
def Remembered (s : Startup) (returned : List Bool) : Prop :=
  true ∈ returned → .work ∈ s.threads → isInited s.state = true

/-- The store of a call waits until the thread that it created has cleared the state. -/
def ThreadFirst (act : StartupAct) (s : Startup) : Prop :=
  act = .store → s.caller = .store true → .memset ∉ s.threads

instance (act : StartupAct) (s : Startup) : Decidable (ThreadFirst act s) :=
  inferInstanceAs (Decidable (_ → _ → _))

/-! ## The phases of an orderly start -/

/-- Before there is a thread, while it starts, and once the call has returned. -/
inductive InitPhase : Startup → List Bool → Prop
  | before {state : ServerState} {caller : CallerPc} {returned : List Bool}
      (hcaller : caller ≠ .store true) (hnot : true ∉ returned) :
      InitPhase ⟨state, caller, []⟩ returned
  | starting {state : ServerState} {pc : ThreadPc} {returned : List Bool}
      (hnot : true ∉ returned) : InitPhase ⟨state, .store true, [pc]⟩ returned
  | running {state : ServerState} {pc : ThreadPc} {returned : List Bool} (hpc : pc ≠ .memset)
      (hinit : isInited state = true) : InitPhase ⟨state, .outside, [pc]⟩ returned

theorem initStatement_inited (a : InitAnswer) {pc : ThreadPc} (s : ServerState) (h : pc ≠ .memset) :
    (initStatement a pc s).1 ≠ .memset ∧ isInited (initStatement a pc s).2 = isInited s := by
  cases pc with
  | memset => exact absurd rfl h
  | network =>
    refine ⟨?_, rfl⟩
    by_cases hup : a.networkUp = true <;> simp [initStatement, hup]
  | clients | socketSet | socket | listen | work => simp [initStatement, isInited]

theorem initPhase_step {act : StartupAct} {s : Startup} {returned : List Bool}
    (hfirst : ThreadFirst act s) (h : InitPhase s returned) :
    InitPhase (startupStep act s).1 (returned ++ (startupStep act s).2) := by
  cases h with
  | @before state caller _ hcaller hnot =>
    have hsame : InitPhase ⟨state, caller, []⟩ (returned ++ []) := by
      rw [List.append_nil]
      exact .before hcaller hnot
    cases act with
    | thread i a => exact hsame
    | call =>
      cases caller with
      | outside =>
        by_cases hinit : isInited state = true
        · simpa [startupStep, hinit] using InitPhase.before hcaller (by simpa using hnot)
        · simpa [startupStep, hinit] using InitPhase.before (by simp) hnot
      | create | store _ => exact hsame
    | create handle =>
      cases caller with
      | create =>
        cases handle with
        | none => simpa [startupStep] using InitPhase.before (by simp) hnot
        | some handle => simpa [startupStep] using InitPhase.starting hnot
      | outside | store _ => cases handle <;> exact hsame
    | store =>
      cases caller with
      | store result =>
        have hfalse : result = false := by simpa using hcaller
        subst hfalse
        simpa [startupStep] using InitPhase.before (by simp) (by simpa using hnot)
      | outside | create => exact hsame
  | @starting state pc _ hnot =>
    have hsame : InitPhase ⟨state, .store true, [pc]⟩ (returned ++ []) := by
      rw [List.append_nil]
      exact .starting hnot
    cases act with
    | call => exact hsame
    | create handle => cases handle <;> exact hsame
    | store =>
      have hpc : pc ≠ .memset := by simpa [eq_comm] using hfirst rfl rfl
      exact .running hpc rfl
    | thread i a =>
      cases i with
      | zero => simpa [startupStep] using InitPhase.starting hnot
      | succ i => exact hsame
  | @running state pc _ hpc hinit =>
    have hsame : InitPhase ⟨state, .outside, [pc]⟩ (returned ++ []) := .running hpc hinit
    cases act with
    | call => simpa [startupStep, hinit] using InitPhase.running hpc hinit
    | create handle => cases handle <;> exact hsame
    | store => exact hsame
    | thread i a =>
      cases i with
      | zero =>
        obtain ⟨hpc', hkeep⟩ := initStatement_inited a state hpc
        exact .running hpc' (hkeep.trans hinit)
      | succ i => exact hsame

theorem InitPhase.remembered {s : Startup} {returned : List Bool} (h : InitPhase s returned) :
    Remembered s returned ∧ s.threads.length ≤ 1 := by
  cases h with
  | before _ hnot => exact ⟨fun h => absurd h hnot, Nat.zero_le 1⟩
  | starting hnot => exact ⟨fun h => absurd h hnot, Nat.le_refl 1⟩
  | running _ hinit => exact ⟨fun _ _ => hinit, Nat.le_refl 1⟩

/-! ## Every order of the steps -/

section

variable {state : ServerState} {caller : CallerPc} {threads : List ThreadPc} {i : Nat}

theorem startupStep_thread (hi : i < threads.length) (a : InitAnswer) (pc : ThreadPc) :
    startupStep (.thread i a) ⟨state, caller, threads.set i pc⟩
      = (⟨(initStatement a pc state).2, caller, threads.set i (initStatement a pc state).1⟩,
          []) := by
  simp [startupStep, hi]

/-- A thread that runs through `init` leaves nothing of the state as it was. -/
theorem thread_through (h : threads[i]? = some .memset) :
    run startupStep (List.replicate 6 (.thread i ⟨true, none⟩)) ⟨state, caller, threads⟩
      = (⟨.zero, caller, threads.set i .work⟩, []) := by
  obtain ⟨hi, hpc⟩ := List.getElem?_eq_some_iff.mp h
  have hset : threads = threads.set i .memset := by rw [← hpc, List.set_getElem_self]
  conv_lhs => rw [hset]
  simp only [List.replicate, run, startupStep_thread hi, initStatement, if_true]
  simp [ServerState.zero]

end

/--
**The initialisation is remembered, and there is one thread**, in every order of the steps in
which the store of a call waits for the thread that it created. As soon as one store does not
wait, that thread can go on to its work loop and find `initialized` lost.
-/
theorem init_remembered (state : ServerState) (acts : List StartupAct) :
    (Along startupStep ThreadFirst acts (Startup.fresh state) →
        Remembered (startup state acts).1 (startup state acts).2 ∧
          (startup state acts).1.threads.length ≤ 1) ∧
      ∀ i, (startup state acts).1.caller = .store true →
        (startup state acts).1.threads[i]? = some .memset →
        let late := startup state (acts ++ .store :: List.replicate 6 (.thread i ⟨true, none⟩))
        ¬ Remembered late.1 late.2 := by
  constructor
  · intro hfirst
    have hphase : InitPhase (startup state acts).1 (startup state acts).2 :=
      run_inv_along startupStep (fun _ _ _ hok h => initPhase_step hok h)
        (InitPhase.before (by simp) (by simp)) acts hfirst
    exact hphase.remembered
  · intro i hcaller hpc late hrem
    have hlate : late = run startupStep
        (acts ++ .store :: List.replicate 6 (.thread i ⟨true, none⟩)) (Startup.fresh state) := rfl
    have hi : i < (startup state acts).1.threads.length := (List.getElem?_eq_some_iff.mp hpc).1
    unfold startup at hcaller hpc hi
    rw [run_append, run] at hlate
    simp only [startupStep, hcaller, thread_through hpc] at hlate
    have hinit := hrem (by simp [hlate]) (by simp [hlate, List.mem_set, hi])
    simp [hlate, isInited, ServerState.zero] at hinit

/-- The thread runs first, and then the store. -/
theorem init_remembered_preempted :
    let acts : List StartupAct :=
      [.call, .create (some 1), .thread 0 ⟨true, none⟩, .store, .thread 0 ⟨true, none⟩,
        .thread 0 ⟨true, some 2⟩, .thread 0 ⟨true, some 3⟩, .thread 0 ⟨true, some 4⟩,
        .thread 0 ⟨true, none⟩, .call]
    let s := startup .zero acts
    (s.2 = [true, false] ∧ s.1.threads = [.work]) ∧ Remembered s.1 s.2 := by
  intro acts s
  exact ⟨by decide, ((init_remembered .zero acts).1 (by decide)).1⟩

/-- The store runs first, and the next call creates a second thread. -/
theorem init_remembered_lost :
    let acts : List StartupAct :=
      .call :: .create (some 1) :: .store :: List.replicate 6 (.thread 0 ⟨true, none⟩)
    let s := startup .zero acts
    let again := startup .zero (acts ++ [.call, .create (some 2), .store])
    ¬ Remembered s.1 s.2 ∧ again.1.threads = [.work, .memset] ∧ again.2 = [true, true] := by
  intro acts s again
  refine ⟨fun h => ?_, by decide, by decide⟩
  have hinit := h (by decide) (by decide)
  exact absurd hinit (by decide)

end UniNet.Http
