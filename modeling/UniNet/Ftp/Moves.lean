import UniNet.Ftp.Chain

/-!
# The moves of the worker

An `Act` knows the sockets and why a session ends. What is said on the control connection, and
what becomes of a slice, does not show in it. A `Move` is a step of the same sessions the other
way round: it forgets the sockets, and keeps the helper that sends a command, the task it was
called with and the receive that a slice comes from.

* `Plain` — the calls that make, use and give back sockets
* `session_moves` — every session is a chain of moves
-/

namespace UniNet.Ftp

open Infra Relation

/-! ## Calls that leave the task alone -/

/-- A call, or an answer, that says nothing about the task. -/
def Event.isPlain : Event → Bool
  | .line _ | .send _ _ _ | .recvData _ _ | .release _ _ | .callback _ | .api _ _ | .setType _
  | .workState _ _ => false
  | _ => true

/-- The task, the configuration and the callback stay, and only plain calls are made. -/
structure Plain (s s' : Session) : Prop where
  task : s'.client.task = s.client.task
  config : s'.client.config = s.client.config
  callback : s'.client.callback = s.client.callback
  log : ∃ es, s'.log = s.log ++ es ∧ ∀ e ∈ es, e.isPlain = true

theorem Plain.refl (s : Session) : Plain s s := ⟨rfl, rfl, rfl, [], by simp, by simp⟩

theorem Plain.trans {s s' s'' : Session} (h : Plain s s') (h' : Plain s' s'') : Plain s s'' := by
  obtain ⟨ht, hc, hb, es, hlog, hes⟩ := h
  obtain ⟨ht', hc', hb', es', hlog', hes'⟩ := h'
  refine ⟨ht'.trans ht, hc'.trans hc, hb'.trans hb, es ++ es', ?_, ?_⟩
  · rw [hlog', hlog, List.append_assoc]
  · rw [List.forall_mem_append]
    exact ⟨hes, hes'⟩

theorem Plain.emit (s : Session) {e : Event} (h : e.isPlain = true) : Plain s (s.emit e) :=
  ⟨rfl, rfl, rfl, [e], rfl, by simpa using h⟩

theorem Calls.plain {s s' : Session} (h : Calls s s') : Plain s s' := by
  obtain ⟨htask, ⟨hconfig, -, hcb⟩, es, hlog, hes⟩ := h
  refine ⟨htask, hconfig, hcb, es, hlog, ?_⟩
  intro e he
  have hcall := hes e he
  cases e <;> first | rfl | simp [Event.isCall] at hcall

theorem plain_prepareSocket (inp : Input) (role : Role) (port : Nat) (s : Session) :
    Plain s (prepareSocket inp role port s) := by
  refine ((calls_createSet inp s).plain.trans (calls_createSocket inp role _).plain).trans ?_
  unfold prepareSocket
  dsimp only
  split
  · refine ⟨rfl, rfl, rfl, _, rfl, ?_⟩
    simp [Event.isPlain]
  · exact .refl _

theorem plain_connectSocket (inp : Input) (role : Role) (port : Nat) (s : Session) :
    Plain s (connectSocket inp role port s).1 := by
  have hprep := plain_prepareSocket inp role port s
  unfold connectSocket
  dsimp only
  split
  · split
    · exact (hprep.trans (.emit _ rfl)).trans (.emit _ rfl)
    · exact hprep.trans (.emit _ rfl)
  · exact hprep

/-! ## What becomes of a slice -/

/-- What the application asks for while a task is under way: it can only end it. -/
def Event.isAsk : Event → Bool
  | .api _ _ | .setType .termination => true
  | _ => false

/-- The task, and perhaps its end. -/
def Task.Ended (task task' : Task) : Prop :=
  task' = task ∨ task' = { task with type := .termination }

/-- **A task that is not idle can only be ended** by the calls of the application. -/
theorem apiCalls_asks (inside : Option CallbackType) {s : Session}
    (hidle : s.client.task.type ≠ .idle) (calls : List ApiCall) :
    ∃ asks task, (∀ e ∈ asks, e.isAsk = true) ∧ s.client.task.Ended task ∧
      apiCalls inside s calls = ⟨{ s.client with task := task }, s.log ++ asks⟩ := by
  induction calls generalizing s with
  | nil => exact ⟨[], s.client.task, by simp, Or.inl rfl, by simp [apiCalls]⟩
  | cons call calls ih =>
    rcases apiCall_cases inside s call with ⟨-, he⟩ | ⟨-, he⟩ | ⟨-, htype, -⟩
    · obtain ⟨asks, task, hasks, htask, hrun⟩ := ih (s := apiCall inside s call) (by simp [he])
      refine ⟨.api inside call :: .setType .termination :: asks, task, ?_, Or.inr ?_, ?_⟩
      · simpa [Event.isAsk] using hasks
      · rcases htask with rfl | rfl <;> simp [he]
      · rw [apiCalls, List.foldl_cons, ← apiCalls, hrun]
        simp [he]
    · obtain ⟨asks, task, hasks, htask, hrun⟩ := ih (s := apiCall inside s call) (by simpa [he])
      refine ⟨.api inside call :: asks, task, ?_, ?_, ?_⟩
      · simpa [Event.isAsk] using hasks
      · simpa [he] using htask
      · rw [apiCalls, List.foldl_cons, ← apiCalls, hrun]
        simp [he]
    · exact absurd htype hidle

/-- The events of a slice between its receive and its release. -/
def Shown (hasCallback : Bool) (data : Bytes) (es : List Event) : Prop :=
  if hasCallback then ∃ asks, es = .callback (.recv data) :: asks ∧ ∀ e ∈ asks, e.isAsk = true
  else es = []

theorem Shown.forall_mem {hasCallback : Bool} {data : Bytes} {es : List Event}
    (h : Shown hasCallback data es) {P : Event → Prop} (hrecv : P (.callback (.recv data)))
    (hask : ∀ e : Event, e.isAsk = true → P e) : ∀ e ∈ es, P e := by
  unfold Shown at h
  split at h
  · obtain ⟨asks, rfl, hasks⟩ := h
    rw [List.forall_mem_cons]
    exact ⟨hrecv, fun e he => hask e (hasks e he)⟩
  · rw [h]
    exact List.forall_mem_nil _

/--
**What `work_data` does with a slice**: the application gets it, it is counted, and it is given
back to the socket it came from.
-/
theorem recvSlice_spec (inp : Input) (data : Bytes) {s : Session}
    (hidle : s.client.task.type ≠ .idle) :
    ∃ es task, Shown s.client.callback data es ∧
      (task.type = s.client.task.type ∨ task.type = .termination) ∧
      task.progress = u32 (s.client.task.progress + data.length) ∧
      task.name = s.client.task.name ∧ recvSlice inp data s
        = ⟨{ s.client with task := task }, s.log ++ es ++ [.release s.client.socketData data]⟩ := by
  unfold recvSlice
  dsimp only
  generalize hs : (if s.client.task.state = .started then s.setState .inProgress else s) = s₁
  obtain ⟨state, hs₁⟩ : ∃ state, s₁ = s.setTask { s.client.task with state := state } := by
    rw [← hs]
    split
    · exact ⟨.inProgress, rfl⟩
    · exact ⟨s.client.task.state, rfl⟩
  subst hs₁
  unfold callback
  by_cases hcb : s.client.callback = true
  · obtain ⟨asks, task, hasks, htask, hrun⟩ := apiCalls_asks (some .recv)
      (s := (s.setTask { s.client.task with state := state }).emit (.callback (.recv data)))
      hidle (inp.callback (s.setTask { s.client.task with state := state }).now)
    refine ⟨.callback (.recv data) :: asks,
      { task with progress := u32 (task.progress + data.length) }, ?_, ?_, ?_, ?_, ?_⟩
    · rw [hcb, Shown, if_pos rfl]
      exact ⟨asks, rfl, hasks⟩
    · rcases htask with rfl | rfl
      · exact Or.inl rfl
      · exact Or.inr rfl
    · rcases htask with rfl | rfl <;> rfl
    · rcases htask with rfl | rfl <;> rfl
    · have hcb' : (s.setTask { s.client.task with state := state }).client.callback = true := hcb
      rw [if_pos hcb', Callback.type, hrun]
      simp [Session.setTask, Session.emit]
  · have hcb' : ¬ (s.setTask { s.client.task with state := state }).client.callback = true := hcb
    rw [if_neg hcb']
    rw [Bool.not_eq_true] at hcb
    refine ⟨[], { s.client.task with
      state := state, progress := u32 (s.client.task.progress + data.length) }, ?_, Or.inl rfl,
      rfl, rfl, ?_⟩
    · rw [hcb]
      rfl
    · simp [Session.setTask, Session.emit]

/-- The same with the receive in front of it. -/
theorem slice_spec (inp : Input) (data : Bytes) {s : Session}
    (htype : s.client.task.type.isTransfer ∨ s.client.task.type = .termination) :
    ∃ es task, Shown s.client.callback data es ∧
      (task.type = s.client.task.type ∨ task.type = .termination) ∧
      task.progress = u32 (s.client.task.progress + data.length) ∧
      task.name = s.client.task.name ∧
      recvSlice inp data (s.emit (.recvData s.client.socketData data))
        = ⟨{ s.client with task := task }, s.log ++ .recvData s.client.socketData data ::
            (es ++ [.release s.client.socketData data])⟩ := by
  obtain ⟨es, task, hes, ht, hprogress, hname, hrun⟩ :=
    recvSlice_spec inp data (s := s.emit (.recvData s.client.socketData data))
      (TaskType.ne_idle htype)
  refine ⟨es, task, hes, ht, hprogress, hname, ?_⟩
  rw [hrun]
  simp

/-! ## What the startup does -/

/-- Command `i` is the next one of a startup with this task. -/
def Task.Next (task : Task) (i : Nat) : Prop :=
  (task.state = .finished ∧ i = u32 (task.progress + 1)) ∨
    (task.state = .notStarted ∧ i = task.progress)

/-- **`work_state_startup` waits, is done, or sends the next command.** -/
theorem workStateStartup_cases (inp : Input) {s : Session} (htype : s.client.task.type = .startup) :
    workStateStartup inp s = s ∨
      (∃ task, task.type = .idle ∧ workStateStartup inp s
        = ⟨{ s.client with task := task }, s.log ++ [.setType .idle]⟩) ∨
      ∃ i task, i < startupCmds.length ∧ s.client.task.Next i ∧ task.type = .startup ∧
        task.progress = i ∧ task.state = .inProgress ∧ workStateStartup inp s
          = ⟨{ s.client with task := task }, s.log
              ++ [.send s.client.socketCmd (startupCmds.getD i []) (inp.send s.now)]⟩ := by
  unfold workStateStartup
  dsimp only
  by_cases hfin : s.client.task.state = .finished
  · simp only [hfin, if_true, Session.setTask_client]
    by_cases hdone : startupCmds.length ≤ u32 (s.client.task.progress + 1)
    · simp only [hdone, if_true, Session.setState_client, Session.setType_client, reduceCtorEq,
        if_false]
      exact Or.inr (Or.inl ⟨_, rfl, rfl⟩)
    · simp only [hdone, if_false, if_true, Session.setTask_client, Session.setState_client]
      exact Or.inr (Or.inr ⟨u32 (s.client.task.progress + 1), { s.client.task with
        progress := u32 (s.client.task.progress + 1), state := .inProgress }, by omega,
        Or.inl ⟨hfin, rfl⟩, htype, rfl, rfl, rfl⟩)
  · simp only [hfin, if_false]
    by_cases hdone : startupCmds.length ≤ s.client.task.progress
    · simp only [hdone, if_true, Session.setState_client, Session.setType_client, reduceCtorEq,
        if_false]
      exact Or.inr (Or.inl ⟨_, rfl, rfl⟩)
    · simp only [hdone, if_false]
      split
      · next hnot =>
        exact Or.inr (Or.inr ⟨s.client.task.progress, { s.client.task with state := .inProgress },
          by omega, Or.inr ⟨hnot, rfl⟩, htype, rfl, rfl, rfl⟩)
      · exact Or.inl rfl

/-! ## Moves -/

/-- The last thing that happened is that `work_state` was entered with this task. -/
def Looked (s : Session) : Prop :=
  ∃ log, s.log = log ++ [.workState s.client.task.type s.client.task.state]

/-- The last thing that happened is that a line came for this handler. -/
def Answering (s : Session) (handler : Handler) : Prop :=
  ∃ log text payload, s.log = log ++ [.line text] ∧ replyOf text = .handled handler payload

/-- One move of the worker, or of the application. -/
inductive Move : Session → Session → Prop
  | plain {s s' : Session} (h : Plain s s') : Move s s'
  | api (inside : Option CallbackType) (s : Session) (call : ApiCall) :
      Move s (apiCall inside s call)
  | notify (s : Session) {call : Callback} (hcall : call.type ≠ .recv) :
      Move s (s.emit (.callback call))
  | terminate (s : Session) : Move s (s.setType .termination)
  | line (s : Session) (text : Bytes) : Move s (replied s text)
  | password (inp : Input) (s : Session) (hline : Answering s .h331) : Move s (sendPassword inp s)
  | login (inp : Input) (s : Session) (hline : Answering s .h530) : Move s (sendLogin inp s)
  | nothing (s : Session) : Move s (s.emit (.recvData s.client.socketData []))
  | slice (inp : Input) (s : Session) {data : Bytes} (hne : data ≠ [])
      (htype : s.client.task.type.isTransfer ∨ s.client.task.type = .termination) :
      Move s (recvSlice inp data (s.emit (.recvData s.client.socketData data)))
  | look (s : Session) : Move s (s.emit (.workState s.client.task.type s.client.task.state))
  | startup (inp : Input) (s : Session) (htype : s.client.task.type = .startup)
      (hlook : Looked s) : Move s (workStateStartup inp s)
  | passive (inp : Input) (s : Session) (htype : s.client.task.type.isTransfer)
      (hstate : s.client.task.state = .notStarted) (hlook : Looked s) :
      Move s (switchToPassive inp (s.setState .switchToPasv))
  | retr (inp : Input) (s : Session) (htype : s.client.task.type = .retr)
      (hstate : s.client.task.state = .started) (hlook : Looked s) :
      Move s (retrFile inp (s.setState .requested) s.client.task.name)
  | list (inp : Input) (s : Session) (htype : s.client.task.type = .list)
      (hstate : s.client.task.state = .started) (hlook : Looked s) :
      Move s (listFiles inp (s.setState .requested))
  | idle (s : Session) (hdata : s.client.socketData = none) : Move s (setToIdle s)

/-- A number of moves. -/
abbrev Moves : Session → Session → Prop := ReflTransGen Move

theorem Plain.moves {s s' : Session} (h : Plain s s') : Moves s s' := .single (.plain h)

theorem moves_apiCalls (inside : Option CallbackType) (s : Session) (calls : List ApiCall) :
    Moves s (apiCalls inside s calls) :=
  apiCalls_inv (fun s' call h => h.tail (.api inside s' call)) .refl calls

theorem moves_callback (inp : Input) (s : Session) {call : Callback} (hcall : call.type ≠ .recv) :
    Moves s (callback inp s call) := by
  unfold callback
  split
  · exact ReflTransGen.head (.notify s hcall) (moves_apiCalls ..)
  · exact .refl

theorem moves_disconnect (inp : Input) (reason : Reason) (s : Session) :
    Moves s (disconnect inp reason s) := by
  have hclose := (calls_closeSockets s).plain.moves
  have hcall : Moves (closeSockets s) (callback inp (closeSockets s) (.disconnect reason)) :=
    moves_callback inp _ (by simp [Callback.type])
  exact (hclose.trans hcall).tail (.terminate _)

/-! ## The functions of the worker -/

theorem moves_workCmdSingle (inp : Input) (s : Session) (buf : Bytes) :
    Moves s (workCmdSingle inp s buf) := by
  have hline : Moves s (replied s buf) := .single (.line s buf)
  unfold workCmdSingle
  dsimp only
  cases hreply : replyOf buf with
  | wrongData =>
    rw [← replied_of_task (s := s) (by simp [replyTask, hreply])]
    exact hline.trans (moves_disconnect ..)
  | wrongCmd =>
    rw [← replied_of_task (s := s) (by simp [replyTask, hreply])]
    exact hline.trans (moves_disconnect ..)
  | handled h payload =>
    dsimp only
    cases h with
    | error =>
      rw [← replied_of_task (s := s) (by simp [replyTask, hreply])]
      exact hline.trans (moves_disconnect ..)
    | h331 =>
      rw [← replied_of_task (s := s) (by simp [replyTask, hreply])]
      exact hline.tail (.password inp _ ⟨s.log, buf, payload, rfl, hreply⟩)
    | h530 =>
      rw [← replied_of_task (s := s) (by simp [replyTask, hreply])]
      exact hline.tail (.login inp _ ⟨s.log, buf, payload, rfl, hreply⟩)
    | h227 =>
      dsimp only [handle]
      rw [handler227_eq inp s hreply]
      cases pasvTarget payload with
      | none => exact hline.tail (.terminate _)
      | some port =>
        have hconn := hline.tail (.plain (plain_connectSocket inp .data port (replied s buf)))
        dsimp only
        split
        · exact hconn
        · exact hconn.tail (.terminate _)
    | _ =>
      rw [handle_eq_replied hreply (by simp)]
      exact hline

theorem moves_workCmdLines (inp : Input) (lines : List Bytes) (s : Session) :
    Moves s (workCmdLines inp lines s) := by
  induction lines generalizing s with
  | nil => exact .refl
  | cons line lines ih =>
    have hfirst : Moves s (if line = [] then s else workCmdSingle inp s line) := by
      split
      · exact .refl
      · exact moves_workCmdSingle ..
    unfold workCmdLines
    dsimp only
    generalize (if line = [] then s else workCmdSingle inp s line) = s' at hfirst ⊢
    split
    · exact hfirst
    · exact hfirst.trans (ih s')

theorem moves_workCmd (inp : Input) (s : Session) : Moves s (workCmd inp s) := by
  have hcount : Plain s (s.emit (.recvcount s.client.socketCmd inp.recvcount)) := .emit s rfl
  unfold workCmd
  dsimp only
  split
  · have hcalloc := hcount.trans (.emit _ (e := .calloc inp.calloc) rfl)
    split
    · have hrecv := hcalloc.trans
        (.emit _ (e := .recv s.client.socketCmd (inp.recv.take inp.recvcount)) rfl)
      split
      · exact hrecv.moves.trans (moves_disconnect ..)
      · exact hrecv.moves.trans (moves_workCmdLines ..)
    · exact hcalloc.moves.trans (moves_disconnect ..)
  · exact hcount.moves

theorem moves_workDataLoop (inp : Input) : ∀ (datas : List Bytes) {s : Session},
    s.client.task.type.isTransfer ∨ s.client.task.type = .termination →
    Moves s (workDataLoop inp datas s) := by
  intro datas
  induction datas with
  | nil => exact fun _ => .single (.nothing _)
  | cons data datas ih =>
    intro s htype
    simp only [workDataLoop]
    split
    · next hnil =>
      rw [hnil]
      exact .single (.nothing s)
    · next hne =>
      have hslice : Moves s _ := .single (.slice inp s hne htype)
      split
      · exact hslice.trans (ih (recvSlice_goes_on inp data htype))
      · exact hslice

theorem moves_workData (inp : Input) (s : Session) : Moves s (workData inp s) := by
  unfold workData
  split
  · next h => exact moves_workDataLoop inp inp.data (Or.inl (Or.inr h))
  · next h => exact moves_workDataLoop inp inp.data (Or.inl (Or.inl h))
  · exact .refl

theorem moves_setToIdle (s : Session) : Moves s (setToIdle s) := by
  have hdata : (closeSocket .data s).client.socketData = none := by rw [closeData_client]
  have hagain : setToIdle (closeSocket .data s) = setToIdle s := by
    unfold setToIdle
    rw [closeSocket_none .data hdata]
  rw [← hagain]
  exact (calls_closeSocket .data s).plain.moves.tail (.idle _ hdata)

theorem moves_workStateData (inp : Input) {s : Session} (htype : s.client.task.type.isTransfer)
    (hlook : Looked s) : Moves s (workStateData inp s) := by
  unfold workStateData
  split
  · next hstate => exact .single (.passive inp s htype hstate hlook)
  · next hstate =>
    split
    · next h => exact .single (.retr inp s h hstate hlook)
    · next h => exact .single (.list inp s h hstate hlook)
    · exact moves_setToIdle s
  · split
    · exact (moves_callback inp s (by simp [Callback.type])).trans (moves_setToIdle _)
    · exact .refl
  · exact (moves_callback inp s (by simp [Callback.type])).trans (moves_setToIdle _)
  · exact .refl

theorem moves_workState (inp : Input) (s : Session) : Moves s (workState inp s) := by
  have hlook : Moves s (s.emit (.workState s.client.task.type s.client.task.state)) :=
    .single (.look s)
  unfold workState
  dsimp only
  split
  · next h => exact hlook.tail (.startup inp _ h ⟨_, rfl⟩)
  · next h => exact hlook.trans (moves_workStateData inp (Or.inl h) ⟨_, rfl⟩)
  · next h => exact hlook.trans (moves_workStateData inp (Or.inr h) ⟨_, rfl⟩)
  · exact hlook

/-! ## Rounds and sessions -/

theorem moves_workSelected (inp : Input) (s : Session) : Moves s (workSelected inp s).1 := by
  unfold workSelected
  dsimp only
  split
  · refine ReflTransGen.trans ?_ (moves_workState ..)
    have hisset : Moves s (s.emit (.fdIsset s.client.socketCmd s.client.socketSet inp.cmdSet)) :=
      (Plain.emit s rfl).moves
    refine ReflTransGen.trans (b := if inp.cmdSet then workCmd inp (s.emit
      (.fdIsset s.client.socketCmd s.client.socketSet inp.cmdSet)) else s.emit
      (.fdIsset s.client.socketCmd s.client.socketSet inp.cmdSet)) ?_ ?_
    · split
      · exact hisset.trans (moves_workCmd ..)
      · exact hisset
    · generalize (if inp.cmdSet then _ else _) = s'
      split
      · have hdata : Moves s' (s'.emit
            (.fdIsset s'.client.socketData s'.client.socketSet inp.dataSet)) :=
          (Plain.emit s' rfl).moves
        split
        · exact hdata.trans (moves_workData ..)
        · exact hdata
      · exact .refl
  · have hup : Plain s (s.emit (.isNetworkUp inp.networkUp)) := .emit s rfl
    split
    · have hconn := hup.trans
        (.emit _ (e := .issocketconnected s.client.socketCmd inp.connected) rfl)
      split
      · exact hconn.moves.trans (moves_workState ..)
      · exact hconn.moves
    · exact hup.moves

theorem moves_body (inp : Input) (s : Session) : Moves s (body inp s).1 := by
  have hselect : ∀ s', Moves s' (workSelected inp ((apiCalls none s' inp.selectApi).emit
      (.select (apiCalls none s' inp.selectApi).client.socketSet inp.select))).1 := by
    intro s'
    exact ((moves_apiCalls none s' inp.selectApi).trans (Plain.emit _ rfl).moves).trans
      (moves_workSelected ..)
  have hconn := (plain_connectSocket inp .cmd s.client.config.serverPort s).moves
  unfold body
  by_cases h : s.client.socketCmd.isNone = true
  · simp only [h, if_true]
    split
    · exact hconn.trans (hselect _)
    · exact hconn
  · simp only [h]
    exact hselect s

theorem moves_finish (inp : Input) (reason : Reason) (s : Session) :
    Moves s (finish inp reason s) := by
  refine (moves_disconnect inp reason s).tail (.plain ?_)
  exact ⟨rfl, rfl, rfl, [.taskDelete], rfl, by simp [Event.isPlain]⟩

theorem moves_step (inp : Input) (s : Session) : Moves s (step inp s) := by
  have hapi := moves_apiCalls none s inp.api
  unfold step
  split
  · dsimp only
    split
    · exact hapi.trans (moves_finish ..)
    · have hbody := hapi.trans (moves_body inp (apiCalls none s inp.api))
      generalize body inp (apiCalls none s inp.api) = o at hbody
      match o, hbody with
      | (s', none), h => exact h
      | (s', some reason), h => exact h.trans (moves_finish ..)
  · exact .refl

/-- **Every session is a chain of moves.** -/
theorem session_moves (config : Config) (hasCallback : Bool) (task : Task) (inputs : List Input) :
    Moves (sessionStart config hasCallback task) (session config hasCallback task inputs) := by
  unfold session
  suffices h : ∀ s, Moves s (inputs.foldl (fun s inp => step inp s) s) from h _
  induction inputs with
  | nil => exact fun _ => .refl
  | cons inp inputs ih => exact fun s => (moves_step inp s).trans (ih _)

/-- **What every move keeps holds wherever moves lead.** -/
theorem moves_inv {P : Session → Prop} (hmove : ∀ {s s'}, Move s s' → P s → P s')
    {s s' : Session} (h : Moves s s') (hs : P s) : P s' := by
  induction h with
  | refl => exact hs
  | tail _ hm ih => exact hmove hm ih

end UniNet.Ftp
