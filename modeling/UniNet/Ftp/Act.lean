import Mathlib.Logic.Relation
import UniNet.Ftp.Client

/-!
# What the worker can do

Every iteration of the worker is a chain of small acts: a call of the stack that changes
nothing, an API call, a socket made or closed, a line of a reply, a slice of data, or one move
of the task. An act comes with what the worker knows when it takes it, so an invariant of the
session needs a look at each act and never at the functions again.

What ends the loop stands apart: a `Break` is the last thing a round does before `finish`.
-/

namespace UniNet.Ftp

open Infra Relation

/-! ## The session, field by field -/

namespace Session

variable (s : Session)

@[simp] theorem emit_client (e : Event) : (s.emit e).client = s.client := rfl

@[simp] theorem emit_log (e : Event) : (s.emit e).log = s.log ++ [e] := rfl

@[simp] theorem setTask_client (task : Task) :
    (s.setTask task).client = { s.client with task := task } := rfl

@[simp] theorem setTask_log (task : Task) : (s.setTask task).log = s.log := rfl

@[simp] theorem setState_client (state : TaskState) :
    (s.setState state).client = { s.client with task := { s.client.task with state := state } } :=
  rfl

@[simp] theorem setState_log (state : TaskState) : (s.setState state).log = s.log := rfl

@[simp] theorem setType_client (type : TaskType) :
    (s.setType type).client = { s.client with task := { s.client.task with type := type } } := rfl

@[simp] theorem setType_log (type : TaskType) :
    (s.setType type).log = s.log ++ [.setType type] := rfl

end Session

@[simp] theorem sendCmd_client (inp : Input) (s : Session) (cmd : Bytes) :
    (sendCmd inp s cmd).client = s.client := rfl

@[simp] theorem sendCmd_log (inp : Input) (s : Session) (cmd : Bytes) :
    (sendCmd inp s cmd).log = s.log ++ [.send s.client.socketCmd cmd (inp.send s.now)] := rfl

/-! ## What the log says -/

/-- The reasons that `work_cmd` gives, with a notification of its own. -/
def Reason.isLocal : Reason → Bool
  | .responseErr | .wrongData | .wrongCmd | .memoryAlloc | .noBytes => true
  | _ => false

/-- An event that ends the session, with its reason. -/
def Event.ends : Event → Option Reason
  | .socket .cmd none => some .connect
  | .socket .data none => some .termination
  | .connect .cmd _ _ _ result => if result = 0 then none else some .connect
  | .connect .data _ _ _ result => if result = 0 then none else some .termination
  | .isNetworkUp up => if up then none else some .network
  | .issocketconnected _ ok => if ok then none else some .socket
  | .calloc ok => if ok then none else some .memoryAlloc
  | .recv _ bytes => if bytes = [] then some .noBytes else none
  | .line text =>
    match replyOf text with
    | .wrongData => some .wrongData
    | .wrongCmd => some .wrongCmd
    | .handled .error _ => some .responseErr
    | .handled .h227 payload => if (pasvTarget payload).isNone then some .termination else none
    | .handled _ _ => none
  | .api _ .disconnect => some .termination
  | _ => none

/-- A call that makes or ends a connection, or finds that there is none. -/
def Event.isCall : Event → Bool
  | .createSocketSet _ | .deleteSocketSet _ | .socket _ _ | .closesocket _
  | .connect _ _ _ _ _ | .isNetworkUp _ | .issocketconnected _ _ => true
  | _ => false

/-- What the application is told and what it asks for. -/
def Event.isApp : Event → Bool
  | .callback _ | .api _ _ | .setType _ => true
  | _ => false

theorem Event.not_isApp_of_isCall {e : Event} (h : e.isCall = true) : e.isApp = false := by
  cases e <;> first | rfl | simp [Event.isCall] at h

/-- The line that is passed to `work_cmd_single`. -/
@[simp] def Event.lineText : Event → Option Bytes
  | .line text => some text
  | _ => none

/-- The part that is received on the control connection. -/
@[simp] def Event.part : Event → Option Bytes
  | .recv _ bytes => some bytes
  | _ => none

/-- The lines that were passed to `work_cmd_single`. -/
def passed (log : List Event) : List Bytes := log.filterMap Event.lineText

/-- The parts in which the control connection was received. -/
def parts (log : List Event) : List Bytes := log.filterMap Event.part

/-- The lines that there are in the received parts. -/
def offered (log : List Event) : List Bytes :=
  (parts log).flatMap fun part => lineTexts (CString.ofBytes part).bytes

@[simp] theorem passed_append (l m : List Event) : passed (l ++ m) = passed l ++ passed m :=
  List.filterMap_append

@[simp] theorem passed_cons (e : Event) (l : List Event) :
    passed (e :: l) = e.lineText.toList ++ passed l := by
  unfold passed
  rw [List.filterMap_cons]
  cases e.lineText <;> rfl

@[simp] theorem passed_nil : passed [] = [] := rfl

@[simp] theorem parts_append (l m : List Event) : parts (l ++ m) = parts l ++ parts m :=
  List.filterMap_append

@[simp] theorem parts_cons (e : Event) (l : List Event) :
    parts (e :: l) = e.part.toList ++ parts l := by
  unfold parts
  rw [List.filterMap_cons]
  cases e.part <;> rfl

@[simp] theorem parts_nil : parts [] = [] := rfl

@[simp] theorem offered_append (l m : List Event) : offered (l ++ m) = offered l ++ offered m := by
  simp [offered]

/-- Every line that was received is passed on, and none of them ends the session. -/
structure Caught (log : List Event) : Prop where
  all : passed log = offered log
  live : ∀ text ∈ passed log, (Event.line text).ends = none

theorem Caught.of_eq {log log' : List Event} (h : Caught log) (hp : passed log' = passed log)
    (hq : parts log' = parts log) : Caught log' := by
  refine ⟨?_, by rw [hp]; exact h.live⟩
  rw [hp, h.all]
  unfold offered
  rw [hq]

/-! ## Acts -/

/-- What a line does to the task at once. -/
def replyTask (task : Task) (text : Bytes) : Task :=
  match replyOf text with
  | .handled .h150 payload =>
    { task with
      progressTotal :=
        match strchrBehind 40 payload with
        | some number => u32OfInt (strtolValue number)
        | none => 1 }
  | .handled .h20x _ | .handled .h230 _ | .handled .h257 _ => { task with state := .finished }
  | .handled .h220 _ =>
    if task.type = .startup then { task with state := .notStarted, progress := 0 } else task
  | .handled .h227 _ => { task with state := .started }
  | .handled .h550 _ => { task with state := .failed }
  | _ => task

/-- The total that a line announces: only a 150 reply does. -/
def announcedBy (text : Bytes) : Option Nat :=
  match replyOf text with
  | .handled .h150 payload =>
    match strchrBehind 40 payload with
    | some number => some (u32OfInt (strtolValue number))
    | none => some 1
  | _ => none

@[simp] theorem replyTask_type (task : Task) (text : Bytes) :
    (replyTask task text).type = task.type := by
  unfold replyTask
  split <;> try rfl
  split <;> rfl

@[simp] theorem replyTask_name (task : Task) (text : Bytes) :
    (replyTask task text).name = task.name := by
  unfold replyTask
  split <;> try rfl
  split <;> rfl

theorem replyTask_progress {task : Task} (text : Bytes) (h : task.type ≠ .startup) :
    (replyTask task text).progress = task.progress := by
  unfold replyTask
  split <;> try rfl
  rw [if_neg h]

theorem replyTask_progressTotal (task : Task) (text : Bytes) :
    (replyTask task text).progressTotal = (announcedBy text).getD task.progressTotal := by
  unfold replyTask announcedBy
  cases hreply : replyOf text with
  | wrongData => rfl
  | wrongCmd => rfl
  | handled h payload =>
    cases h with
    | h150 => cases hbehind : strchrBehind 40 payload <;> simp [hbehind]
    | h220 => by_cases htype : task.type = .startup <;> simp [htype]
    | _ => rfl

/-- The session once a line has been passed on, and before its handler makes a call. -/
def replied (s : Session) (text : Bytes) : Session :=
  (s.setTask (replyTask s.client.task text)).emit (.line text)

@[simp] theorem replied_client (s : Session) (text : Bytes) :
    (replied s text).client = { s.client with task := replyTask s.client.task text } := rfl

@[simp] theorem replied_log (s : Session) (text : Bytes) :
    (replied s text).log = s.log ++ [.line text] := rfl

/-- The control connection is up. -/
def CmdOpen (s : Session) : Prop :=
  ∃ n addr port, s.client.socketCmd = some (.valid n) ∧
    .connect .cmd (.valid n) addr port 0 ∈ s.log

/-- The calls that change nothing in the context, and what the worker knows when it makes them. -/
def Noted (s : Session) : Event → Prop
  | .setsockopt _ _ => True
  | .connect role sock _ _ result =>
    s.client.socket role = some sock ∧ (role = .cmd → result = 0) ∧ (sock = .invalid → result ≠ 0)
  | .fdSet sock set =>
    set = s.client.socketSet ∧ ∃ role n, sock = .valid n ∧ s.client.socket role = some sock
  | .select set _ => set = s.client.socketSet ∧ CmdOpen s
  | .fdIsset sock set _ => set = s.client.socketSet ∧
      ((sock = s.client.socketCmd ∧ CmdOpen s) ∨ (sock = s.client.socketData ∧ sock ≠ none))
  | .isNetworkUp up => up = true
  | .issocketconnected sock ok => ok = true ∧ sock = s.client.socketCmd ∧ CmdOpen s
  | .recvcount sock _ => sock = s.client.socketCmd ∧ CmdOpen s
  | .recv sock _ => sock = s.client.socketCmd ∧ CmdOpen s ∧ Caught s.log
  | .calloc _ => True
  | .send sock _ _ => sock = s.client.socketCmd ∧ ∃ text ∈ passed s.log, ∃ payload,
      replyOf text = .handled .h331 payload ∨ replyOf text = .handled .h530 payload
  | .recvData sock _ => sock = s.client.socketData ∧ sock ≠ none
  | .workState type state => type = s.client.task.type ∧ state = s.client.task.state
  | _ => False

/-- A task that transfers data. -/
def TaskType.isTransfer (type : TaskType) : Prop := type = .retr ∨ type = .list

instance (type : TaskType) : Decidable type.isTransfer := inferInstanceAs (Decidable (_ ∨ _))

/-- A transfer, or what is left of one, is not idle. -/
theorem TaskType.ne_idle {type : TaskType} (h : type.isTransfer ∨ type = .termination) :
    type ≠ .idle := by
  rcases h with (rfl | rfl) | rfl <;> simp

/-- One act of the worker. -/
inductive Act : Session → Session → Prop
  | note (s : Session) {e : Event} (h : Noted s e) : Act s (s.emit e)
  | api (s : Session) (call : ApiCall) : Act s (apiCall none s call)
  | createSet (inp : Input) (s : Session) : Act s (createSet inp s)
  | createCmd (inp : Input) (s : Session) (hnone : s.client.socketCmd = none)
      (hset : s.client.socketSet ≠ none ∨ .createSocketSet none ∈ s.log)
      (hsock : inp.socket s.now ≠ none) : Act s (createSocket inp .cmd s)
  | createData (inp : Input) (s : Session) (hopen : CmdOpen s) : Act s (createSocket inp .data s)
  | closeData (s : Session) : Act s (closeSocket .data s)
  | closeCmd (s : Session) (hdata : s.client.socketData = none) : Act s (closeSocket .cmd s)
  | deleteSet (s : Session) (hcmd : s.client.socketCmd = none)
      (hdata : s.client.socketData = none) : Act s (deleteSet s)
  | notify (inp : Input) (s : Session) {reason : Reason} (hlocal : reason.isLocal = true)
      (hcause : ∃ e ∈ s.log, e.ends = some reason) : Act s (callback inp s (.disconnect reason))
  | terminate (s : Session) (hcause : ∃ e ∈ s.log, e.ends ≠ none) : Act s (s.setType .termination)
  | reply (s : Session) {text : Bytes} (hnext : passed s.log ++ [text] <+: offered s.log)
      (hlive : ∀ text ∈ passed s.log, (Event.line text).ends = none) : Act s (replied s text)
  | slice (inp : Input) (s : Session) {data : Bytes} (hsock : s.client.socketData ≠ none)
      (hne : data ≠ [])
      (htype : s.client.task.type.isTransfer ∨ s.client.task.type = .termination) :
      Act s (recvSlice inp data s)
  | startupNext (s : Session) (htype : s.client.task.type = .startup)
      (hstate : s.client.task.state = .finished) :
      Act s (s.setTask
        { s.client.task with progress := u32 (s.client.task.progress + 1), state := .notStarted })
  | startupDone (s : Session) (htype : s.client.task.type = .startup)
      (hdone : startupCmds.length ≤ s.client.task.progress) :
      Act s ((s.setType .idle).setState .finished)
  | startupSend (inp : Input) (s : Session) (htype : s.client.task.type = .startup)
      (hstate : s.client.task.state = .notStarted)
      (hlt : s.client.task.progress < startupCmds.length) :
      Act s (sendCmd inp (s.setState .inProgress) (startupCmds.getD s.client.task.progress []))
  | pasv (inp : Input) (s : Session) (htype : s.client.task.type.isTransfer)
      (hstate : s.client.task.state = .notStarted) :
      Act s (switchToPassive inp (s.setState .switchToPasv))
  | request (inp : Input) (s : Session) (cmd : Bytes) (htype : s.client.task.type.isTransfer)
      (hstate : s.client.task.state = .started) : Act s (sendCmd inp (s.setState .requested) cmd)
  | finished (inp : Input) (s : Session) (htype : s.client.task.type.isTransfer)
      (hstate : ∃ log, s.log = log ++ [.workState s.client.task.type .requested])
      (hdone : s.client.task.progressTotal ≤ s.client.task.progress) :
      Act s (setToIdle (callback inp s .recvFinished))
  | failed (inp : Input) (s : Session) (htype : s.client.task.type.isTransfer) :
      Act s (setToIdle (callback inp s .recvFailed))

/-- A number of acts. -/
abbrev Acts : Session → Session → Prop := ReflTransGen Act

/-- What ends a round with a `break`. -/
inductive Break : Session → Reason → Session → Prop
  | noSocket (inp : Input) (s : Session) (hnone : s.client.socketCmd = none)
      (hsock : inp.socket s.now = none) : Break s .connect (createSocket inp .cmd s)
  | connect (s : Session) {sock : Socket} {addr port : Nat} {result : Int}
      (hsock : s.client.socketCmd = some sock) (hfail : result ≠ 0) :
      Break s .connect (s.emit (.connect .cmd sock addr port result))
  | network (s : Session) : Break s .network (s.emit (.isNetworkUp false))
  | socket (s : Session) (hopen : CmdOpen s) :
      Break s .socket (s.emit (.issocketconnected s.client.socketCmd false))

/-! ## API calls and callbacks -/

/-- The transfer that a call asks for, with its size. -/
def ApiCall.request : ApiCall → Option (TaskType × Nat)
  | .disconnect => none
  | .download _ _ size => some (.retr, size)
  | .list => some (.list, 0)

/-- **What an API call does**: it asks for the end, it is refused, or it starts a transfer. -/
theorem apiCall_cases (inside : Option CallbackType) (s : Session) (call : ApiCall) :
    (call = .disconnect ∧
        apiCall inside s call = (s.emit (.api inside call)).setType .termination) ∨
      (call ≠ .disconnect ∧ apiCall inside s call = s.emit (.api inside call)) ∨
      (call ≠ .disconnect ∧ s.client.task.type = .idle ∧
        ∃ (task : Task) (size : Nat), call.request = some (task.type, size) ∧
          task.type.isTransfer ∧ task.state = .notStarted ∧ task.progress = 0 ∧
          task.progressTotal = u32 size ∧ apiCall inside s call
            = ((s.setTask task).emit (.api inside call)).emit (.setType task.type)) := by
  have hidle : s.client.isIdle = true → s.client.task.type = .idle := by
    intro h
    simpa [Client.isIdle] using (Bool.and_eq_true_iff.mp h).2
  cases call with
  | disconnect => exact Or.inl ⟨rfl, rfl⟩
  | download filename cookie size =>
    refine Or.inr ?_
    by_cases h : s.client.isIdle = true
    · refine Or.inr ⟨by simp, hidle h, ⟨.retr, .notStarted, cookie, 0, u32 size,
        taskName filename⟩, size, rfl, Or.inl rfl, rfl, rfl, rfl, ?_⟩
      simp [apiCall, h, Session.setType, Session.setTask, Session.emit]
    · exact Or.inl ⟨by simp, by simp [apiCall, h]⟩
  | list =>
    refine Or.inr ?_
    by_cases h : s.client.isIdle = true
    · refine Or.inr ⟨by simp, hidle h, ⟨.list, .notStarted, s.client.task.cookieFile, 0, 0,
        noName⟩, 0, rfl, Or.inr rfl, rfl, rfl, rfl, ?_⟩
      simp [apiCall, h, Session.setType, Session.setTask, Session.emit]
    · exact Or.inl ⟨by simp, by simp [apiCall, h]⟩

/-- The application's calls keep what a single one keeps. -/
theorem apiCalls_inv {inside : Option CallbackType} {P : Session → Prop}
    (h : ∀ s call, P s → P (apiCall inside s call)) {s : Session} (hs : P s) :
    ∀ calls, P (apiCalls inside s calls) := by
  intro calls
  induction calls generalizing s with
  | nil => exact hs
  | cons call calls ih => exact ih (h s call hs)

/-- A callback keeps what its event and every call of the application keep. -/
theorem callback_inv {inp : Input} {s : Session} {call : Callback} {P : Session → Prop}
    (hs : P s) (hcall : P (s.emit (.callback call)))
    (h : ∀ s c, P s → P (apiCall (some call.type) s c)) : P (callback inp s call) := by
  unfold callback
  split
  · exact apiCalls_inv h hcall _
  · exact hs

/-- Nothing but the task is different, and the log is longer by events of the application. -/
structure AppOnly (s s' : Session) : Prop where
  client : ∃ task, s'.client = { s.client with task := task }
  log : ∃ es, s'.log = s.log ++ es ∧ ∀ e ∈ es, e.isApp = true

theorem AppOnly.refl (s : Session) : AppOnly s s := ⟨⟨_, rfl⟩, [], by simp, by simp⟩

theorem AppOnly.trans {s s' s'' : Session} (h : AppOnly s s') (h' : AppOnly s' s'') :
    AppOnly s s'' := by
  obtain ⟨⟨_, hc⟩, es, hl, hes⟩ := h
  obtain ⟨⟨task, hc'⟩, es', hl', hes'⟩ := h'
  refine ⟨⟨task, by rw [hc', hc]⟩, es ++ es', by rw [hl', hl, List.append_assoc], ?_⟩
  rw [List.forall_mem_append]
  exact ⟨hes, hes'⟩

theorem appOnly_apiCall (inside : Option CallbackType) (s : Session) (call : ApiCall) :
    AppOnly s (apiCall inside s call) := by
  rcases apiCall_cases inside s call with
    ⟨-, he⟩ | ⟨-, he⟩ | ⟨-, -, task, -, -, -, -, -, -, he⟩
  · rw [he]
    exact ⟨⟨_, rfl⟩, [.api inside call, .setType .termination], by simp, by simp [Event.isApp]⟩
  · rw [he]
    exact ⟨⟨_, rfl⟩, [.api inside call], rfl, by simp [Event.isApp]⟩
  · rw [he]
    exact ⟨⟨task, rfl⟩, [.api inside call, .setType task.type], by simp, by simp [Event.isApp]⟩

theorem appOnly_apiCalls (inside : Option CallbackType) (s : Session) (calls : List ApiCall) :
    AppOnly s (apiCalls inside s calls) :=
  apiCalls_inv (fun s' call h => h.trans (appOnly_apiCall inside s' call)) (AppOnly.refl s) calls

theorem appOnly_callback (inp : Input) (s : Session) (call : Callback) :
    AppOnly s (callback inp s call) :=
  callback_inv (AppOnly.refl s) ⟨⟨_, rfl⟩, [.callback call], rfl, by simp [Event.isApp]⟩
    fun s' c h => h.trans (appOnly_apiCall _ s' c)

/-- Nothing but the task is different, nothing is received and no line is passed on. -/
structure TaskOnly (s s' : Session) : Prop where
  client : ∃ task, s'.client = { s.client with task := task }
  log : ∃ es, s'.log = s.log ++ es
  passed_eq : passed s'.log = passed s.log
  parts_eq : parts s'.log = parts s.log

theorem AppOnly.taskOnly {s s' : Session} (h : AppOnly s s') : TaskOnly s s' := by
  obtain ⟨hc, es, hl, hes⟩ := h
  have hline : passed es = [] := by
    refine List.filterMap_eq_nil_iff.mpr fun e he => ?_
    have happ := hes e he
    cases e <;> first | rfl | simp [Event.isApp] at happ
  have hpart : parts es = [] := by
    refine List.filterMap_eq_nil_iff.mpr fun e he => ?_
    have happ := hes e he
    cases e <;> first | rfl | simp [Event.isApp] at happ
  exact ⟨hc, ⟨es, hl⟩, by simp [hl, hline], by simp [hl, hpart]⟩

theorem TaskOnly.refl (s : Session) : TaskOnly s s :=
  ⟨⟨_, rfl⟩, ⟨[], by simp⟩, rfl, rfl⟩

theorem TaskOnly.trans {s s' s'' : Session} (h : TaskOnly s s') (h' : TaskOnly s' s'') :
    TaskOnly s s'' := by
  obtain ⟨⟨_, hc⟩, ⟨_, hl⟩, hp, hq⟩ := h
  obtain ⟨⟨task, hc'⟩, ⟨_, hl'⟩, hp', hq'⟩ := h'
  exact ⟨⟨task, by rw [hc', hc]⟩, ⟨_, by rw [hl', hl, List.append_assoc]⟩, hp'.trans hp,
    hq'.trans hq⟩

theorem taskOnly_setTask (s : Session) (task : Task) : TaskOnly s (s.setTask task) :=
  ⟨⟨task, rfl⟩, ⟨[], by simp⟩, rfl, rfl⟩

theorem taskOnly_emit (s : Session) {e : Event} (hl : e.lineText = none) (hp : e.part = none) :
    TaskOnly s (s.emit e) := by
  refine ⟨⟨_, rfl⟩, ⟨_, rfl⟩, ?_, ?_⟩
  · rw [Session.emit_log, passed_append, passed_cons, hl]
    simp
  · rw [Session.emit_log, parts_append, parts_cons, hp]
    simp

theorem taskOnly_apiCalls (inside : Option CallbackType) (s : Session) (calls : List ApiCall) :
    TaskOnly s (apiCalls inside s calls) :=
  (appOnly_apiCalls inside s calls).taskOnly

theorem taskOnly_callback (inp : Input) (s : Session) (call : Callback) :
    TaskOnly s (callback inp s call) :=
  (appOnly_callback inp s call).taskOnly

/-- **A task that is not idle is only ever terminated by the application.** -/
theorem callback_client (inp : Input) {s : Session} (call : Callback)
    (h : s.client.task.type ≠ .idle) : (callback inp s call).client = s.client ∨
      ((callback inp s call).client
          = { s.client with task := { s.client.task with type := .termination } } ∧
        .api (some call.type) .disconnect ∈ (callback inp s call).log) := by
  refine callback_inv (P := fun s' => s'.client = s.client ∨ (s'.client
    = { s.client with task := { s.client.task with type := .termination } } ∧
      .api (some call.type) .disconnect ∈ s'.log)) (Or.inl rfl) (Or.inl rfl) ?_
  intro s' c hs'
  rcases apiCall_cases (some call.type) s' c with ⟨rfl, he⟩ | ⟨-, he⟩ | ⟨-, hidle, -⟩
  · refine Or.inr ⟨?_, by simp [he]⟩
    rcases hs' with hc | ⟨hc, -⟩ <;> simp [he, hc]
  · rw [he]
    exact hs'.imp_right fun ⟨hc, hmem⟩ => ⟨hc, List.mem_append_left _ hmem⟩
  · rcases hs' with hc | ⟨hc, -⟩
    · exact absurd (hc ▸ hidle) h
    · simp [hc] at hidle

end UniNet.Ftp
