import UniNet.Ftp.Act

/-!
# Sessions as chains of acts

The functions of the client, from the handlers up to the loop, are taken apart into acts. What
is left of a session is `session_ran`: it is a chain of acts from the start, and `finish` behind
such a chain once the thread is over.
-/

namespace UniNet.Ftp

open Infra Relation

/-! ## Chains in which nothing is received -/

/-- A chain of acts in which nothing is received and no line is passed on. -/
structure Quiet (s s' : Session) : Prop where
  acts : Acts s s'
  log : s.log <+: s'.log
  passed_eq : passed s'.log = passed s.log
  parts_eq : parts s'.log = parts s.log

namespace Quiet

variable {s s' s'' : Session}

theorem refl (s : Session) : Quiet s s := ⟨.refl, List.prefix_refl _, rfl, rfl⟩

theorem trans (h : Quiet s s') (h' : Quiet s' s'') : Quiet s s'' :=
  ⟨h.acts.trans h'.acts, h.log.trans h'.log, h'.passed_eq.trans h.passed_eq,
    h'.parts_eq.trans h.parts_eq⟩

theorem act (h : Act s s') (hl : s.log <+: s'.log) (hp : passed s'.log = passed s.log)
    (hq : parts s'.log = parts s.log) : Quiet s s' :=
  ⟨.single h, hl, hp, hq⟩

/-- A call that changes nothing, other than a receive. -/
theorem note {e : Event} (h : Noted s e) (hl : e.lineText = none) (hp : e.part = none) :
    Quiet s (s.emit e) :=
  act (.note s h) ⟨_, rfl⟩ (by rw [Session.emit_log, passed_append, passed_cons, hl]; simp)
    (by rw [Session.emit_log, parts_append, parts_cons, hp]; simp)

theorem caught (h : Quiet s s') (hall : Caught s.log) : Caught s'.log :=
  hall.of_eq h.passed_eq h.parts_eq

end Quiet

theorem CmdOpen.mono {s s' : Session} (h : CmdOpen s)
    (hsock : s'.client.socketCmd = s.client.socketCmd) (hlog : s.log <+: s'.log) : CmdOpen s' := by
  obtain ⟨n, addr, port, hn, hmem⟩ := h
  exact ⟨n, addr, port, hsock.trans hn, hlog.subset hmem⟩

/-- The control connection stays up when only the task changes. -/
theorem CmdOpen.taskOnly {s s' : Session} (h : CmdOpen s) (ht : TaskOnly s s') : CmdOpen s' := by
  obtain ⟨⟨task, hc⟩, ⟨es, hl⟩, -, -⟩ := ht
  exact h.mono (by rw [hc]) ⟨es, hl.symm⟩

theorem quiet_apiCalls (s : Session) (calls : List ApiCall) : Quiet s (apiCalls none s calls) := by
  have ht := taskOnly_apiCalls none s calls
  obtain ⟨es, hl⟩ := ht.log
  exact ⟨apiCalls_inv (fun s' call h => h.tail (.api s' call)) .refl calls, ⟨es, hl.symm⟩,
    ht.passed_eq, ht.parts_eq⟩

theorem closeSocket_none {s : Session} (role : Role) (h : s.client.socket role = none) :
    closeSocket role s = s := by
  simp [closeSocket, h]

theorem closeSocket_some {s : Session} (role : Role) {sock : Socket}
    (h : s.client.socket role = some sock) :
    closeSocket role s
      = { client := s.client.setSocket role none, log := s.log ++ [.closesocket sock] } := by
  simp [closeSocket, h]

theorem quiet_closeData (s : Session) : Quiet s (closeSocket .data s) := by
  cases h : s.client.socket .data with
  | none => rw [closeSocket_none .data h]; exact .refl s
  | some sock =>
    refine .act (.closeData s) ?_ ?_ ?_
    all_goals simp [closeSocket_some .data h]

theorem closeData_client (s : Session) :
    (closeSocket .data s).client = { s.client with socketData := none } := by
  cases h : s.client.socketData with
  | none => rw [closeSocket_none .data h, ← h]
  | some sock => rw [closeSocket_some .data h]; rfl

theorem quiet_closeCmd {s : Session} (hdata : s.client.socketData = none) :
    Quiet s (closeSocket .cmd s) := by
  cases h : s.client.socket .cmd with
  | none => rw [closeSocket_none .cmd h]; exact .refl s
  | some sock =>
    refine .act (.closeCmd s hdata) ?_ ?_ ?_
    all_goals simp [closeSocket_some .cmd h]

theorem closeCmd_client (s : Session) :
    (closeSocket .cmd s).client = { s.client with socketCmd := none } := by
  cases h : s.client.socketCmd with
  | none => rw [closeSocket_none .cmd h, ← h]
  | some sock => rw [closeSocket_some .cmd h]; rfl

theorem quiet_deleteSet {s : Session} (hcmd : s.client.socketCmd = none)
    (hdata : s.client.socketData = none) : Quiet s (deleteSet s) := by
  cases h : s.client.socketSet with
  | none => simp only [deleteSet, h]; exact .refl s
  | some set =>
    refine .act (.deleteSet s hcmd hdata) ?_ ?_ ?_
    all_goals simp [deleteSet, h]

theorem deleteSet_client (s : Session) :
    (deleteSet s).client = { s.client with socketSet := none } := by
  cases h : s.client.socketSet with
  | none => simp only [deleteSet, h]; rw [← h]
  | some set => simp [deleteSet, h]

/-- **Everything is given back.** -/
theorem closeSockets_client (s : Session) : (closeSockets s).client
    = { s.client with socketSet := none, socketCmd := none, socketData := none } := by
  simp [closeSockets, deleteSet_client, closeCmd_client, closeData_client]

theorem quiet_closeSockets (s : Session) : Quiet s (closeSockets s) := by
  have hdata : (closeSocket .data s).client.socketData = none := by simp [closeData_client]
  refine (quiet_closeData s).trans ((quiet_closeCmd hdata).trans (quiet_deleteSet ?_ ?_))
  · simp [closeCmd_client]
  · simp [closeCmd_client, closeData_client]

theorem quiet_disconnect (inp : Input) {s : Session} (reason : Reason)
    (hlocal : reason.isLocal = true) (hcause : ∃ e ∈ s.log, e.ends = some reason) :
    Quiet s (disconnect inp reason s) := by
  have hclose := quiet_closeSockets s
  have hcall := taskOnly_callback inp (closeSockets s) (.disconnect reason)
  obtain ⟨es, hl⟩ := hcall.log
  obtain ⟨e, he, hends⟩ := hcause
  have he' := hclose.log.subset he
  have hnotify : Quiet (closeSockets s) (callback inp (closeSockets s) (.disconnect reason)) :=
    .act (.notify inp _ hlocal ⟨e, he', hends⟩) ⟨es, hl.symm⟩ hcall.passed_eq hcall.parts_eq
  have hend : Quiet (callback inp (closeSockets s) (.disconnect reason))
      (disconnect inp reason s) := by
    refine .act (.terminate _ ⟨e, ?_, ?_⟩) ⟨_, rfl⟩ ?_ ?_
    · rw [hl]
      exact List.mem_append_left _ he'
    · simp [hends]
    · simp [disconnect]
    · simp [disconnect]
  exact hclose.trans (hnotify.trans hend)

@[simp] theorem disconnect_type (inp : Input) (s : Session) (reason : Reason) :
    (disconnect inp reason s).client.task.type = .termination := rfl

/-! ## Making a connection -/

@[simp] theorem Client.socket_setSocket (c : Client) (role : Role) (sock : Option Socket) :
    (c.setSocket role sock).socket role = sock := by
  cases role <;> rfl

theorem createSet_client (inp : Input) (s : Session) :
    ∃ set, (createSet inp s).client = { s.client with socketSet := set } := by
  unfold createSet
  split
  · exact ⟨_, rfl⟩
  · next h => exact ⟨s.client.socketSet, rfl⟩

/-- There is a set, or it could not be made. -/
theorem createSet_made (inp : Input) (s : Session) :
    (createSet inp s).client.socketSet ≠ none ∨
      .createSocketSet none ∈ (createSet inp s).log := by
  unfold createSet
  split
  · by_cases h : inp.createSocketSet s.now = true <;> simp [h]
  · next h => exact Or.inl (by simp [h])

theorem quiet_createSet (inp : Input) (s : Session) : Quiet s (createSet inp s) := by
  refine .act (.createSet inp s) ?_ ?_ ?_
  all_goals
    unfold createSet
    split <;> simp

theorem quiet_setsockopts (sock : Socket) (opts : List SockOpt) (s : Session) :
    Quiet s { s with log := s.log ++ opts.map (Event.setsockopt sock) } := by
  induction opts generalizing s with
  | nil => simpa using Quiet.refl s
  | cons opt opts ih =>
    have hnote : Quiet s (s.emit (.setsockopt sock opt)) := .note trivial rfl rfl
    have hrest := hnote.trans (ih (s.emit (.setsockopt sock opt)))
    simpa [Session.emit] using hrest

/-- The options leave the context alone. -/
theorem prepareSocket_client (inp : Input) (role : Role) (port : Nat) (s : Session) :
    (prepareSocket inp role port s).client = (createSocket inp role (createSet inp s)).client := by
  unfold prepareSocket
  dsimp only
  split <;> rfl

theorem quiet_prepareSocket {inp : Input} {role : Role} {port : Nat} {s : Session}
    (h : Quiet (createSet inp s) (createSocket inp role (createSet inp s))) :
    Quiet s (prepareSocket inp role port s) := by
  refine (quiet_createSet inp s).trans (h.trans ?_)
  unfold prepareSocket
  dsimp only
  split
  · exact quiet_setsockopts ..
  · exact .refl _

theorem quiet_createSocket {inp : Input} {role : Role} {s : Session}
    (h : Act s (createSocket inp role s)) : Quiet s (createSocket inp role s) :=
  .act h ⟨_, rfl⟩ (by simp [createSocket]) (by simp [createSocket])

/-- A socket that could be connected is valid. -/
theorem freertosConnect_valid {inp : Input} {now : Nat} {sock : Socket}
    (h : freertosConnect inp now sock = 0) : ∃ n, sock = .valid n := by
  cases sock with
  | invalid => simp [freertosConnect] at h
  | valid n => exact ⟨n, rfl⟩

theorem freertosConnect_invalid {inp : Input} {now : Nat} {sock : Socket}
    (h : sock = .invalid) : freertosConnect inp now sock ≠ 0 := by
  simp [h, freertosConnect]

/-- **A data connection is made, or there is a reason to stop.** -/
theorem connectData (inp : Input) (port : Nat) {s : Session} (hopen : CmdOpen s) :
    Quiet s (connectSocket inp .data port s).1 ∧ CmdOpen (connectSocket inp .data port s).1 ∧
      ((connectSocket inp .data port s).2 = false →
        ∃ e ∈ (connectSocket inp .data port s).1.log, e.ends ≠ none) := by
  obtain ⟨set, hset⟩ := createSet_client inp s
  have hopen' : CmdOpen (createSet inp s) :=
    hopen.mono (by rw [hset]) (quiet_createSet inp s).log
  have hsock := quiet_createSocket (.createData inp _ hopen')
  have hprep : Quiet s (prepareSocket inp .data port s) := quiet_prepareSocket hsock
  have hcmd : (prepareSocket inp .data port s).client.socketCmd = s.client.socketCmd := by
    rw [prepareSocket_client]
    simp [createSocket, Client.setSocket, hset]
  unfold connectSocket
  dsimp only
  cases hs : (prepareSocket inp .data port s).client.socket .data with
  | none =>
    refine ⟨hprep, hopen.mono hcmd hprep.log, fun _ =>
      ⟨.socket .data none, ?_, by simp [Event.ends]⟩⟩
    rw [prepareSocket_client] at hs
    have hs' : (createSocket inp .data (createSet inp s)).client.socket .data = none := hs
    simp [prepareSocket, hs']
    simp only [createSocket, Client.socket_setSocket] at hs' ⊢
    simp [hs']
  | some sock =>
    have hconn : Noted (prepareSocket inp .data port s) (.connect .data sock
        (prepareSocket inp .data port s).client.config.serverAddr port
        (freertosConnect inp (prepareSocket inp .data port s).now sock)) :=
      ⟨hs, by simp, freertosConnect_invalid⟩
    have hquiet := hprep.trans (.note hconn rfl rfl)
    dsimp only
    split
    · next h =>
      obtain ⟨n, rfl⟩ := freertosConnect_valid h
      have hfd := hquiet.trans (.note (e := .fdSet (.valid n) _) ⟨rfl, .data, n, rfl, hs⟩ rfl rfl)
      exact ⟨hfd, hopen.mono hcmd hfd.log, by simp⟩
    · next h =>
      refine ⟨hquiet, hopen.mono hcmd hquiet.log, fun _ => ⟨_, List.mem_append_right _
        (List.mem_singleton_self _), ?_⟩⟩
      simp [Event.ends, h]

/-- **The control connection is made, or the round ends with a break.** -/
theorem connectCmd (inp : Input) (port : Nat) {s : Session} (hnone : s.client.socketCmd = none) :
    ((connectSocket inp .cmd port s).2 = true →
        Quiet s (connectSocket inp .cmd port s).1 ∧ CmdOpen (connectSocket inp .cmd port s).1) ∧
      ((connectSocket inp .cmd port s).2 = false →
        ∃ s', Quiet s s' ∧ Break s' .connect (connectSocket inp .cmd port s).1) := by
  obtain ⟨set, hset⟩ := createSet_client inp s
  have hnone' : (createSet inp s).client.socketCmd = none := by rw [hset]; exact hnone
  cases hsock : inp.socket (createSet inp s).now with
  | none =>
    have hprep : prepareSocket inp .cmd port s = createSocket inp .cmd (createSet inp s) := by
      simp [prepareSocket, createSocket, hsock, Client.setSocket, Client.socket]
    have hconn : connectSocket inp .cmd port s
        = (createSocket inp .cmd (createSet inp s), false) := by
      simp [connectSocket, hprep, createSocket, hsock, Client.setSocket, Client.socket]
    rw [hconn]
    exact ⟨by simp, fun _ => ⟨_, quiet_createSet inp s, .noSocket inp _ hnone' hsock⟩⟩
  | some ok =>
    have hcreate := quiet_createSocket (.createCmd inp _ hnone' (createSet_made inp s)
      (by simp [hsock]))
    have hprep : Quiet s (prepareSocket inp .cmd port s) := quiet_prepareSocket hcreate
    unfold connectSocket
    dsimp only
    cases hs : (prepareSocket inp .cmd port s).client.socket .cmd with
    | none =>
      rw [prepareSocket_client] at hs
      simp [createSocket, hsock] at hs
    | some sock =>
      dsimp only
      split
      · next h =>
        obtain ⟨n, rfl⟩ := freertosConnect_valid h
        rw [h]
        have hconn : Noted (prepareSocket inp .cmd port s) (.connect .cmd (.valid n)
            (prepareSocket inp .cmd port s).client.config.serverAddr port 0) :=
          ⟨hs, by simp, by simp⟩
        have hfd := (hprep.trans (.note hconn rfl rfl)).trans
          (.note (e := .fdSet (.valid n) _) ⟨rfl, .cmd, n, rfl, hs⟩ rfl rfl)
        exact ⟨fun _ => ⟨hfd, n, (prepareSocket inp .cmd port s).client.config.serverAddr, port, hs,
          by simp⟩, by simp⟩
      · next h => exact ⟨by simp, fun _ => ⟨_, hprep, .connect _ hs h⟩⟩

/-! ### Connecting does not look at the task -/

theorem createSet_setTask (inp : Input) (s : Session) (task : Task) :
    createSet inp (s.setTask task) = (createSet inp s).setTask task := by
  unfold createSet
  simp only [Session.setTask_client]
  cases s.client.socketSet <;> rfl

theorem createSocket_setTask (inp : Input) (role : Role) (s : Session) (task : Task) :
    createSocket inp role (s.setTask task) = (createSocket inp role s).setTask task := by
  cases role <;> rfl

theorem socket_setTask (s : Session) (task : Task) (role : Role) :
    (s.setTask task).client.socket role = s.client.socket role := by
  cases role <;> rfl

theorem prepareSocket_setTask (inp : Input) (role : Role) (port : Nat) (s : Session)
    (task : Task) :
    prepareSocket inp role port (s.setTask task)
      = (prepareSocket inp role port s).setTask task := by
  unfold prepareSocket
  dsimp only
  rw [createSet_setTask, createSocket_setTask, socket_setTask]
  split <;> rfl

theorem connectSocket_setTask (inp : Input) (role : Role) (port : Nat) (s : Session)
    (task : Task) : connectSocket inp role port (s.setTask task)
      = ((connectSocket inp role port s).1.setTask task, (connectSocket inp role port s).2) := by
  unfold connectSocket
  dsimp only
  rw [prepareSocket_setTask, socket_setTask]
  have hnow : ((prepareSocket inp role port s).setTask task).now
      = (prepareSocket inp role port s).now := rfl
  rw [hnow]
  split
  · split <;> rfl
  · rfl

theorem connectSocket_task (inp : Input) (role : Role) (port : Nat) (s : Session) :
    (connectSocket inp role port s).1.client.task = s.client.task := by
  have h := connectSocket_setTask inp role port s s.client.task
  exact congrArg (fun o => o.1.client.task) h

/-! ## Replies -/

/-- A handler that only writes the task does what `replied` does. -/
theorem handle_eq_replied {inp : Input} {s : Session} {buf payload : Bytes} {h : Handler}
    (hreply : replyOf buf = .handled h payload)
    (hh : h ≠ .h227 ∧ h ≠ .h331 ∧ h ≠ .h530 ∧ h ≠ .error) :
    handle inp (s.emit (.line buf)) payload h = replied s buf := by
  cases h with
  | h227 => simp at hh
  | h331 => simp at hh
  | h530 => simp at hh
  | error => simp at hh
  | h220 =>
    by_cases htype : s.client.task.type = .startup
    · simp [handle, handler220, replied, replyTask, hreply, htype, Session.setTask, Session.emit]
    · simp [handle, handler220, replied, replyTask, hreply, htype, Session.setTask, Session.emit]
  | _ => simp only [replied, replyTask, hreply]; rfl

theorem replied_of_task {s : Session} {buf : Bytes}
    (h : replyTask s.client.task buf = s.client.task) :
    replied s buf = s.emit (.line buf) := by
  unfold replied
  rw [h]
  rfl

/--
A 227 reply connects, and then writes the state. The attempt does not look at the state, so it
may as well be written with the line.
-/
theorem handler227_eq (inp : Input) (s : Session) {buf payload : Bytes}
    (hreply : replyOf buf = .handled .h227 payload) :
    handler227 inp (s.emit (.line buf)) payload = match pasvTarget payload with
      | some port =>
        if (connectSocket inp .data port (replied s buf)).2 then
          (connectSocket inp .data port (replied s buf)).1
        else (connectSocket inp .data port (replied s buf)).1.setType .termination
      | none => (replied s buf).setType .termination := by
  have hstart : replied s buf = (s.emit (.line buf)).setState .started := by
    simp [replied, replyTask, hreply, Session.setState, Session.emit]
    rfl
  unfold handler227
  cases pasvTarget payload with
  | none =>
    dsimp only
    rw [hstart]
    rfl
  | some port =>
    have hcomm : connectSocket inp .data port (replied s buf)
        = ((connectSocket inp .data port (s.emit (.line buf))).1.setState .started,
            (connectSocket inp .data port (s.emit (.line buf))).2) := by
      rw [hstart, Session.setState, connectSocket_setTask, Session.setState, connectSocket_task]
    dsimp only
    rw [hcomm]

/-- **A line is passed on, and its handler makes its calls.** -/
theorem quiet_workCmdSingle (inp : Input) {s : Session} (buf : Bytes) (hopen : CmdOpen s) :
    Quiet (replied s buf) (workCmdSingle inp s buf) ∧
      ((workCmdSingle inp s buf).client.task.type = .termination ∨
        (CmdOpen (workCmdSingle inp s buf) ∧ (Event.line buf).ends = none)) := by
  have hopen' : CmdOpen (replied s buf) := hopen.mono rfl ⟨_, rfl⟩
  have hline : Event.line buf ∈ (replied s buf).log := by simp
  unfold workCmdSingle
  dsimp only
  cases hreply : replyOf buf with
  | wrongData =>
    rw [← replied_of_task (s := s) (by simp [replyTask, hreply])]
    exact ⟨quiet_disconnect inp _ rfl ⟨_, hline, by simp [Event.ends, hreply]⟩, Or.inl rfl⟩
  | wrongCmd =>
    rw [← replied_of_task (s := s) (by simp [replyTask, hreply])]
    exact ⟨quiet_disconnect inp _ rfl ⟨_, hline, by simp [Event.ends, hreply]⟩, Or.inl rfl⟩
  | handled h payload =>
    dsimp only
    cases h with
    | error =>
      rw [← replied_of_task (s := s) (by simp [replyTask, hreply])]
      exact ⟨quiet_disconnect inp _ rfl ⟨_, hline, by simp [Event.ends, hreply]⟩, Or.inl rfl⟩
    | h331 =>
      rw [← replied_of_task (s := s) (by simp [replyTask, hreply])]
      have hnote : Quiet (replied s buf) (sendPassword inp (replied s buf)) :=
        .note ⟨rfl, buf, by simp, payload, Or.inl hreply⟩ rfl rfl
      exact ⟨hnote, Or.inr ⟨hopen'.mono rfl hnote.log, by simp [Event.ends, hreply]⟩⟩
    | h530 =>
      rw [← replied_of_task (s := s) (by simp [replyTask, hreply])]
      have hnote : Quiet (replied s buf) (sendLogin inp (replied s buf)) :=
        .note ⟨rfl, buf, by simp, payload, Or.inr hreply⟩ rfl rfl
      exact ⟨hnote, Or.inr ⟨hopen'.mono rfl hnote.log, by simp [Event.ends, hreply]⟩⟩
    | h227 =>
      dsimp only [handle]
      rw [handler227_eq inp s hreply]
      cases htarget : pasvTarget payload with
      | none =>
        exact ⟨.act (.terminate _ ⟨_, hline, by simp [Event.ends, hreply, htarget]⟩) ⟨_, rfl⟩
          (by simp) (by simp), Or.inl rfl⟩
      | some port =>
        obtain ⟨hquiet, hopen'', hfail⟩ := connectData inp port hopen'
        dsimp only
        cases hres : (connectSocket inp .data port (replied s buf)).2 with
        | true => exact ⟨hquiet, Or.inr ⟨hopen'', by simp [Event.ends, hreply, htarget]⟩⟩
        | false =>
          refine ⟨hquiet.trans (.act (.terminate _ (hfail hres)) ⟨_, rfl⟩ (by simp) (by simp)), ?_⟩
          exact Or.inl rfl
    | _ =>
      rw [handle_eq_replied hreply (by simp)]
      exact ⟨.refl _, Or.inr ⟨hopen', by simp [Event.ends, hreply]⟩⟩

/-- A chain at whose end the task is terminated, or every line that was received is passed on. -/
structure Worked (s s' : Session) : Prop where
  acts : Acts s s'
  done : s'.client.task.type = .termination ∨ (CmdOpen s' ∧ Caught s'.log)

theorem workCmdLines_worked {inp : Input} : ∀ (lines : List Bytes) {s : Session}, CmdOpen s →
    offered s.log = passed s.log ++ lines.filter (· ≠ []) →
    (∀ text ∈ passed s.log, (Event.line text).ends = none) →
    Worked s (workCmdLines inp lines s) := by
  intro lines
  induction lines with
  | nil =>
    intro s hopen hrest hlive
    rw [List.filter_nil, List.append_nil] at hrest
    exact ⟨.refl, Or.inr ⟨hopen, hrest.symm, hlive⟩⟩
  | cons line lines ih =>
    intro s hopen hrest hlive
    by_cases hline : line = []
    · simp only [workCmdLines, hline, if_true]
      split
      · next h => exact ⟨.refl, Or.inl h⟩
      · exact ih hopen (by simpa [hline] using hrest) hlive
    · have hnext : passed s.log ++ [line] <+: offered s.log := by
        rw [hrest]
        simp [hline]
      obtain ⟨hquiet, hdone⟩ := quiet_workCmdSingle inp line hopen
      have hacts : Acts s (workCmdSingle inp s line) :=
        ReflTransGen.head (.reply s hnext hlive) hquiet.acts
      simp only [workCmdLines, hline, if_false]
      split
      · next h => exact ⟨hacts, Or.inl h⟩
      · next h =>
        obtain ⟨hopen', hend⟩ := hdone.resolve_left h
        have hrest' : offered (workCmdSingle inp s line).log
            = passed (workCmdSingle inp s line).log ++ lines.filter (· ≠ []) := by
          unfold offered at hrest ⊢
          rw [hquiet.passed_eq, hquiet.parts_eq]
          simpa [hline] using hrest
        have hlive' : ∀ text ∈ passed (workCmdSingle inp s line).log,
            (Event.line text).ends = none := by
          rw [hquiet.passed_eq, replied_log, passed_append, List.forall_mem_append]
          exact ⟨hlive, by simpa using hend⟩
        obtain ⟨hmore, hdone⟩ := ih hopen' hrest' hlive'
        exact ⟨hacts.trans hmore, hdone⟩

theorem workCmd_worked (inp : Input) {s : Session} (hopen : CmdOpen s) (hall : Caught s.log) :
    Worked s (workCmd inp s) := by
  have hcount : Quiet s (s.emit (.recvcount s.client.socketCmd inp.recvcount)) :=
    .note ⟨rfl, hopen⟩ rfl rfl
  unfold workCmd
  dsimp only
  split
  · have hcalloc := hcount.trans (.note (e := .calloc inp.calloc) trivial rfl rfl)
    generalize hs : (s.emit (.recvcount s.client.socketCmd inp.recvcount)).emit
      (.calloc inp.calloc) = s' at hcalloc ⊢
    have hopen' : CmdOpen s' := hopen.mono (by rw [← hs]; rfl) hcalloc.log
    have hall' := hcalloc.caught hall
    split
    · have hrecv : Acts s (s'.emit (.recv s'.client.socketCmd (inp.recv.take inp.recvcount))) :=
        hcalloc.acts.tail (.note _ ⟨rfl, hopen', hall'⟩)
      split
      · next hnil =>
        refine ⟨hrecv.trans (quiet_disconnect inp .noBytes rfl ⟨.recv s'.client.socketCmd
          (inp.recv.take inp.recvcount), by simp, by simp [Event.ends, hnil]⟩).acts, Or.inl rfl⟩
      · have hopen'' : CmdOpen (s'.emit (.recv s'.client.socketCmd
            (inp.recv.take inp.recvcount))) := hopen'.mono rfl ⟨_, rfl⟩
        obtain ⟨hacts, hdone⟩ := workCmdLines_worked
          (splitLines (CString.ofBytes (inp.recv.take inp.recvcount)).bytes) hopen'' (by
            simp [← hall'.all]
            simp [offered, lineTexts]) (by simpa using hall'.live)
        exact ⟨hrecv.trans hacts, hdone⟩
    · next hno =>
      have hbye := hcalloc.trans (quiet_disconnect inp .memoryAlloc rfl
        ⟨.calloc inp.calloc, by rw [← hs]; simp, by simp [Event.ends, hno]⟩)
      exact ⟨hbye.acts, Or.inl rfl⟩
  · exact ⟨hcount.acts, Or.inr ⟨hopen.mono rfl hcount.log, hcount.caught hall⟩⟩

/-! ## Data and state -/

theorem taskOnly_recvSlice (inp : Input) (data : Bytes) (s : Session) :
    TaskOnly s (recvSlice inp data s) := by
  unfold recvSlice
  dsimp only
  refine TaskOnly.trans ?_ (((taskOnly_callback inp _ _).trans (taskOnly_setTask _ _)).trans
    (taskOnly_emit _ rfl rfl))
  split
  · exact taskOnly_setTask _ _
  · exact .refl s

theorem recvSlice_type (inp : Input) (data : Bytes) {s : Session}
    (h : s.client.task.type ≠ .idle) :
    (recvSlice inp data s).client.task.type = s.client.task.type ∨
      (recvSlice inp data s).client.task.type = .termination := by
  unfold recvSlice
  dsimp only
  generalize hs : (if s.client.task.state = .started then s.setState .inProgress else s) = s'
  have htype : s'.client.task.type = s.client.task.type := by
    rw [← hs]
    split <;> rfl
  rcases callback_client inp (.recv data) (htype ▸ h) with hc | ⟨hc, -⟩
  · exact Or.inl (by simp [hc, htype])
  · exact Or.inr (by simp [hc])

/-- The loop goes on with a transfer, or with what is left of one. -/
theorem recvSlice_goes_on (inp : Input) (data : Bytes) {s : Session}
    (h : s.client.task.type.isTransfer ∨ s.client.task.type = .termination) :
    (recvSlice inp data s).client.task.type.isTransfer ∨
      (recvSlice inp data s).client.task.type = .termination := by
  rcases recvSlice_type inp data (TaskType.ne_idle h) with hsame | hended
  · rw [hsame]
    exact h
  · exact Or.inr hended

theorem quiet_workDataLoop {inp : Input} : ∀ (datas : List Bytes) {s : Session},
    s.client.socketData ≠ none →
    s.client.task.type.isTransfer ∨ s.client.task.type = .termination →
    Quiet s (workDataLoop inp datas s) ∧ TaskOnly s (workDataLoop inp datas s) := by
  intro datas
  induction datas with
  | nil => intro s hsock _; exact ⟨.note ⟨rfl, hsock⟩ rfl rfl, taskOnly_emit s rfl rfl⟩
  | cons data datas ih =>
    intro s hsock htype
    have hnote : Quiet s (s.emit (.recvData s.client.socketData data)) :=
      .note ⟨rfl, hsock⟩ rfl rfl
    have hemit := taskOnly_emit s (e := .recvData s.client.socketData data) rfl rfl
    simp only [workDataLoop]
    split
    · exact ⟨hnote, hemit⟩
    · next hne =>
      have hslice := taskOnly_recvSlice inp data (s.emit (.recvData s.client.socketData data))
      have honly := hemit.trans hslice
      obtain ⟨⟨task, hc⟩, ⟨es, hl⟩, hp, hq⟩ := hslice
      have hquiet := hnote.trans (.act (.slice inp _ hsock hne htype) ⟨es, hl.symm⟩ hp hq)
      split
      · obtain ⟨hmore, honly'⟩ := ih (s := recvSlice inp data
          (s.emit (.recvData s.client.socketData data))) (by rw [hc]; exact hsock)
          (recvSlice_goes_on inp data htype)
        exact ⟨hquiet.trans hmore, honly.trans honly'⟩
      · exact ⟨hquiet, honly⟩

theorem workData_quiet (inp : Input) {s : Session} (hsock : s.client.socketData ≠ none) :
    Quiet s (workData inp s) ∧ TaskOnly s (workData inp s) := by
  unfold workData
  split
  · next h => exact quiet_workDataLoop inp.data hsock (Or.inl (Or.inr h))
  · next h => exact quiet_workDataLoop inp.data hsock (Or.inl (Or.inl h))
  · exact ⟨.refl s, .refl s⟩

theorem setToIdle_client (s : Session) : (setToIdle s).client = { s.client with
    socketData := none
    task := { s.client.task with
      type := .idle
      state := .finished
      cookieFile := none
      progress := 0
      progressTotal := 0
      name := noName } } := by
  simp [setToIdle, closeData_client]

theorem setToIdle_log (s : Session) :
    (setToIdle s).log = (closeSocket .data s).log ++ [.setType .idle] := rfl

/-- The end of a task, seen from the outside. -/
theorem quiet_setToIdle {s s' : Session} (hcall : TaskOnly s s') (h : Act s (setToIdle s')) :
    Quiet s (setToIdle s') := by
  have hclose := quiet_closeData s'
  obtain ⟨es, hl⟩ := hcall.log
  refine .act h ?_ ?_ ?_
  · rw [setToIdle_log]
    have hpre : s.log <+: s'.log := ⟨es, hl.symm⟩
    exact (hpre.trans hclose.log).trans (List.prefix_append ..)
  · simp [setToIdle_log, hclose.passed_eq, hcall.passed_eq]
  · simp [setToIdle_log, hclose.parts_eq, hcall.parts_eq]

/-- The moves of the startup sequence. -/
theorem quiet_workStateStartup (inp : Input) {s : Session} (htype : s.client.task.type = .startup) :
    Quiet s (workStateStartup inp s) ∧ TaskOnly s (workStateStartup inp s) := by
  unfold workStateStartup
  dsimp only
  generalize hs : (if s.client.task.state = .finished then s.setTask
    { s.client.task with progress := u32 (s.client.task.progress + 1), state := .notStarted }
    else s) = s'
  have hnext : Quiet s s' ∧ TaskOnly s s' ∧ s'.client.task.type = .startup := by
    rw [← hs]
    split
    · next h => exact ⟨.act (.startupNext s htype h) (List.prefix_refl _) rfl rfl,
        taskOnly_setTask _ _, htype⟩
    · exact ⟨.refl s, .refl s, htype⟩
  obtain ⟨hquiet, honly, htype'⟩ := hnext
  by_cases hdone : startupCmds.length ≤ s'.client.task.progress
  · simp only [hdone, if_true, Session.setState_client, reduceCtorEq, if_false]
    refine ⟨hquiet.trans (.act (.startupDone s' htype' hdone) ⟨_, rfl⟩ (by simp) (by simp)),
      honly.trans ((TaskOnly.trans ?_ (taskOnly_emit _ rfl rfl)).trans (taskOnly_setTask _ _))⟩
    exact taskOnly_setTask _ _
  · simp only [hdone, if_false]
    split
    · next h =>
      refine ⟨hquiet.trans (.act (.startupSend inp s' htype' h (by omega)) ⟨_, rfl⟩ (by simp)
        (by simp)), honly.trans (TaskOnly.trans ?_ (taskOnly_emit _ rfl rfl))⟩
      exact taskOnly_setTask _ _
    · exact ⟨hquiet, honly⟩

theorem quiet_workStateData (inp : Input) {s : Session} (htype : s.client.task.type.isTransfer)
    (hlog : ∃ log, s.log = log ++ [.workState s.client.task.type s.client.task.state]) :
    Quiet s (workStateData inp s) ∧
      (workStateData inp s).client.socketCmd = s.client.socketCmd := by
  unfold workStateData
  split
  · next h => exact ⟨.act (.pasv inp s htype h) ⟨_, rfl⟩ (by simp [switchToPassive])
      (by simp [switchToPassive]), rfl⟩
  · next h =>
    split
    · exact ⟨.act (.request inp s _ htype h) ⟨_, rfl⟩ (by simp [retrFile])
        (by simp [retrFile]), rfl⟩
    · exact ⟨.act (.request inp s _ htype h) ⟨_, rfl⟩ (by simp [listFiles])
        (by simp [listFiles]), rfl⟩
    · next h1 h2 => exact absurd htype (not_or.mpr ⟨h1, h2⟩)
  · next h =>
    rw [h] at hlog
    split
    · next hdone =>
      have hcall := taskOnly_callback inp s .recvFinished
      obtain ⟨task, hc⟩ := hcall.client
      exact ⟨quiet_setToIdle hcall (.finished inp s htype hlog hdone), by
        rw [setToIdle_client, hc]⟩
    · exact ⟨.refl s, rfl⟩
  · have hcall := taskOnly_callback inp s .recvFailed
    obtain ⟨task, hc⟩ := hcall.client
    exact ⟨quiet_setToIdle hcall (.failed inp s htype), by rw [setToIdle_client, hc]⟩
  · exact ⟨.refl s, rfl⟩

theorem quiet_workState (inp : Input) (s : Session) : Quiet s (workState inp s) ∧
    (workState inp s).client.socketCmd = s.client.socketCmd ∧
    (s.client.task.type = .termination → (workState inp s).client.task.type = .termination) := by
  have hnote : Quiet s (s.emit (.workState s.client.task.type s.client.task.state)) :=
    .note ⟨rfl, rfl⟩ rfl rfl
  have htransfer : s.client.task.type.isTransfer → Quiet s (workStateData inp
      (s.emit (.workState s.client.task.type s.client.task.state))) ∧ (workStateData inp
        (s.emit (.workState s.client.task.type s.client.task.state))).client.socketCmd
          = s.client.socketCmd := by
    intro htype
    obtain ⟨hquiet, hcmd⟩ := quiet_workStateData inp (s := s.emit (.workState s.client.task.type
      s.client.task.state)) htype ⟨_, rfl⟩
    exact ⟨hnote.trans hquiet, hcmd⟩
  unfold workState
  dsimp only
  split
  · next h =>
    obtain ⟨hquiet, ⟨task, hc⟩, -⟩ := quiet_workStateStartup inp h
    exact ⟨hnote.trans hquiet, by rw [hc]; rfl, fun ht => by simp [ht] at h⟩
  · next h =>
    obtain ⟨hquiet, hcmd⟩ := htransfer (Or.inl h)
    exact ⟨hquiet, hcmd, fun ht => by simp [ht] at h⟩
  · next h =>
    obtain ⟨hquiet, hcmd⟩ := htransfer (Or.inr h)
    exact ⟨hquiet, hcmd, fun ht => by simp [ht] at h⟩
  · exact ⟨hnote, rfl, fun ht => ht⟩

/-! ## The loop -/

theorem Worked.quiet {s s' s'' : Session} (h : Worked s s') (hq : Quiet s' s'')
    (hcmd : s''.client.socketCmd = s'.client.socketCmd)
    (hterm : s'.client.task.type = .termination → s''.client.task.type = .termination) :
    Worked s s'' := by
  refine ⟨h.acts.trans hq.acts, ?_⟩
  rcases h.done with ht | ⟨hopen, hall⟩
  · exact Or.inl (hterm ht)
  · exact Or.inr ⟨hopen.mono hcmd hq.log, hq.caught hall⟩

theorem Quiet.worked {s s' : Session} (h : Quiet s s') (hopen : CmdOpen s')
    (hall : Caught s.log) : Worked s s' :=
  ⟨h.acts, Or.inr ⟨hopen, h.caught hall⟩⟩

/-- What a round of the loop leaves behind, or how it ends. -/
def Round (s : Session) : Session × Option Reason → Prop
  | (s', none) => Worked s s'
  | (s', some reason) => ∃ s'', Acts s s'' ∧ Break s'' reason s'

/-- The look at the data socket. -/
theorem quiet_dataSelected (inp : Input) (s : Session) :
    ∀ s', (if s.client.socketData.isSome then
        if inp.dataSet then
          workData inp (s.emit (.fdIsset s.client.socketData s.client.socketSet inp.dataSet))
        else s.emit (.fdIsset s.client.socketData s.client.socketSet inp.dataSet)
      else s) = s' →
    Quiet s s' ∧ s'.client.socketCmd = s.client.socketCmd ∧
      (s.client.task.type = .termination → s'.client.task.type = .termination) := by
  rintro s' rfl
  split
  · next h =>
    have hsock : s.client.socketData ≠ none := Option.isSome_iff_ne_none.mp h
    have hnote : Quiet s (s.emit (.fdIsset s.client.socketData s.client.socketSet inp.dataSet)) :=
      .note ⟨rfl, Or.inr ⟨rfl, hsock⟩⟩ rfl rfl
    split
    · obtain ⟨hquiet, ⟨task, hc⟩, -⟩ := workData_quiet inp (s := s.emit
        (.fdIsset s.client.socketData s.client.socketSet inp.dataSet)) hsock
      refine ⟨hnote.trans hquiet, by rw [hc]; rfl, ?_⟩
      intro ht
      simp [workData, ht]
    · exact ⟨hnote, rfl, fun ht => ht⟩
  · exact ⟨.refl s, rfl, fun ht => ht⟩

theorem workSelected_round (inp : Input) {s : Session} (hopen : CmdOpen s)
    (hall : Caught s.log) : Round s (workSelected inp s) := by
  unfold workSelected
  split
  · have hnote : Quiet s (s.emit (.fdIsset s.client.socketCmd s.client.socketSet inp.cmdSet)) :=
      .note ⟨rfl, Or.inl ⟨rfl, hopen⟩⟩ rfl rfl
    have hopen' : CmdOpen (s.emit (.fdIsset s.client.socketCmd s.client.socketSet inp.cmdSet)) :=
      hopen.mono rfl hnote.log
    have hworked := hnote.worked hopen' hall
    dsimp only
    generalize hs : (if inp.cmdSet then workCmd inp
      (s.emit (.fdIsset s.client.socketCmd s.client.socketSet inp.cmdSet))
      else s.emit (.fdIsset s.client.socketCmd s.client.socketSet inp.cmdSet)) = s'
    have hcmd : Worked s s' := by
      rw [← hs]
      split
      · obtain ⟨hacts, hdone⟩ := workCmd_worked inp hopen' (hnote.caught hall)
        exact ⟨hworked.acts.trans hacts, hdone⟩
      · exact hworked
    generalize hd : (if s'.client.socketData.isSome = true then _ else s') = s''
    obtain ⟨hquiet, hsame, hterm⟩ := quiet_dataSelected inp s' s'' hd
    obtain ⟨hquiet', hsame', hterm'⟩ := quiet_workState inp s''
    exact (hcmd.quiet hquiet hsame hterm).quiet hquiet' hsame' hterm'
  · dsimp only
    split
    · have hup : Quiet s (s.emit (.isNetworkUp inp.networkUp)) :=
        .note (by assumption) rfl rfl
      have hopen' : CmdOpen (s.emit (.isNetworkUp inp.networkUp)) := hopen.mono rfl hup.log
      split
      · next hconn =>
        have hconn' := hup.trans (.note (e := .issocketconnected s.client.socketCmd inp.connected)
          ⟨hconn, rfl, hopen'⟩ rfl rfl)
        obtain ⟨hquiet, hsame, hterm⟩ := quiet_workState inp
          ((s.emit (.isNetworkUp inp.networkUp)).emit
            (.issocketconnected s.client.socketCmd inp.connected))
        exact (hconn'.worked (hopen.mono rfl hconn'.log) hall).quiet hquiet hsame hterm
      · next hconn =>
        rw [Bool.not_eq_true] at hconn
        rw [hconn]
        exact ⟨_, hup.acts, .socket _ hopen'⟩
    · next hup =>
      rw [Bool.not_eq_true] at hup
      rw [hup]
      exact ⟨s, .refl, .network s⟩

/-- The state in which a round of the loop begins. -/
def Synced (s : Session) : Prop :=
  s.client.task.type = .termination ∨
    ((s.client.socketCmd = none ∨ CmdOpen s) ∧ Caught s.log)

/-- **A round is a chain of acts, with a break at its end or not.** -/
theorem body_round (inp : Input) {s : Session} (hcmd : s.client.socketCmd = none ∨ CmdOpen s)
    (hall : Caught s.log) : Round s (body inp s) := by
  have hselect : ∀ {s'}, Quiet s s' → CmdOpen s' → Round s (workSelected inp
      ((apiCalls none s' inp.selectApi).emit
        (.select (apiCalls none s' inp.selectApi).client.socketSet inp.select))) := by
    intro s' hquiet hopen
    have hapi := hopen.taskOnly (taskOnly_apiCalls none s' inp.selectApi)
    have hsel := (hquiet.trans (quiet_apiCalls s' inp.selectApi)).trans
      (.note (e := .select _ inp.select) ⟨rfl, hapi⟩ rfl rfl)
    have hopen' : CmdOpen ((apiCalls none s' inp.selectApi).emit
        (.select (apiCalls none s' inp.selectApi).client.socketSet inp.select)) :=
      hapi.mono rfl ⟨_, rfl⟩
    have hround := workSelected_round inp hopen' (hsel.caught hall)
    generalize workSelected inp _ = o at hround
    match o, hround with
    | (s'', none), h => exact ⟨hsel.acts.trans h.acts, h.done⟩
    | (s'', some r), ⟨s3, hacts, hbreak⟩ => exact ⟨s3, hsel.acts.trans hacts, hbreak⟩
  by_cases h : s.client.socketCmd.isNone = true
  · obtain ⟨hok, hfail⟩ := connectCmd inp s.client.config.serverPort
      (Option.isNone_iff_eq_none.mp h)
    simp only [body, h, if_true]
    generalize connectSocket inp .cmd s.client.config.serverPort s = o at hok hfail
    match o, hok, hfail with
    | (s', true), hok, _ => exact hselect (hok rfl).1 (hok rfl).2
    | (s', false), _, hfail =>
      obtain ⟨s'', hquiet, hbreak⟩ := hfail rfl
      exact ⟨s'', hquiet.acts, hbreak⟩
  · simp only [body, h]
    exact hselect (.refl s) (hcmd.resolve_left (by simpa using h))

/-- A termination cannot be taken back by the application. -/
theorem apiCalls_termination {inside : Option CallbackType} {s : Session}
    (h : s.client.task.type = .termination) (calls : List ApiCall) :
    (apiCalls inside s calls).client.task.type = .termination := by
  refine apiCalls_inv (P := fun s' => s'.client.task.type = .termination) ?_ h calls
  intro s' call hs'
  rcases apiCall_cases inside s' call with ⟨-, he⟩ | ⟨-, he⟩ | ⟨-, hidle, -⟩
  · rw [he]
    rfl
  · rw [he]
    exact hs'
  · simp [hs'] at hidle

/-- Everything but the sockets and the task. -/
def Client.Same (c c' : Client) : Prop :=
  c'.config = c.config ∧ c'.thread = c.thread ∧ c'.callback = c.callback

theorem TaskOnly.same {s s' : Session} (h : TaskOnly s s') : s.client.Same s'.client := by
  obtain ⟨task, hc⟩ := h.client
  rw [hc]
  exact ⟨rfl, rfl, rfl⟩

theorem Act.same {s s' : Session} (h : Act s s') : s.client.Same s'.client := by
  cases h with
  | api _ call => exact (taskOnly_apiCalls none s [call]).same
  | createSet inp =>
    obtain ⟨set, hc⟩ := createSet_client inp s
    rw [hc]
    exact ⟨rfl, rfl, rfl⟩
  | closeData => rw [closeData_client]; exact ⟨rfl, rfl, rfl⟩
  | closeCmd _ => rw [closeCmd_client]; exact ⟨rfl, rfl, rfl⟩
  | deleteSet _ _ => rw [deleteSet_client]; exact ⟨rfl, rfl, rfl⟩
  | notify inp _ _ => exact (taskOnly_callback inp s _).same
  | slice inp _ _ _ => exact (taskOnly_recvSlice inp _ s).same
  | finished inp _ _ _ => rw [setToIdle_client]; exact (taskOnly_callback inp s _).same
  | failed inp _ => rw [setToIdle_client]; exact (taskOnly_callback inp s _).same
  | _ => exact ⟨rfl, rfl, rfl⟩

theorem acts_same {s s' : Session} (h : Acts s s') : s.client.Same s'.client := by
  induction h with
  | refl => exact ⟨rfl, rfl, rfl⟩
  | tail _ hact ih =>
    obtain ⟨h1, h2, h3⟩ := hact.same
    exact ⟨h1.trans ih.1, h2.trans ih.2.1, h3.trans ih.2.2⟩

/-! ## Connections -/

/-- A connection is made or ended, and the task stays. -/
structure Calls (s s' : Session) : Prop where
  task : s'.client.task = s.client.task
  same : s.client.Same s'.client
  log : ∃ es, s'.log = s.log ++ es ∧ ∀ e ∈ es, e.isCall = true

theorem Calls.single {s s' : Session} {e : Event} (htask : s'.client.task = s.client.task)
    (hsame : s.client.Same s'.client) (hlog : s'.log = s.log ++ [e]) (he : e.isCall = true) :
    Calls s s' :=
  ⟨htask, hsame, [e], hlog, by simpa using he⟩

theorem Calls.refl (s : Session) : Calls s s := ⟨rfl, ⟨rfl, rfl, rfl⟩, [], by simp, by simp⟩

theorem calls_createSet (inp : Input) (s : Session) : Calls s (createSet inp s) := by
  unfold createSet
  split
  · exact .single rfl ⟨rfl, rfl, rfl⟩ rfl rfl
  · exact .refl s

theorem calls_createSocket (inp : Input) (role : Role) (s : Session) :
    Calls s (createSocket inp role s) := by
  cases role <;> exact .single rfl ⟨rfl, rfl, rfl⟩ rfl rfl

theorem calls_closeSocket (role : Role) (s : Session) : Calls s (closeSocket role s) := by
  cases h : s.client.socket role with
  | none => rw [closeSocket_none role h]; exact .refl s
  | some sock =>
    rw [closeSocket_some role h]
    cases role <;> exact .single rfl ⟨rfl, rfl, rfl⟩ rfl rfl

theorem calls_deleteSet (s : Session) : Calls s (deleteSet s) := by
  unfold deleteSet
  split
  · exact .single rfl ⟨rfl, rfl, rfl⟩ rfl rfl
  · exact .refl s

theorem Calls.trans {s s' s'' : Session} (h : Calls s s') (h' : Calls s' s'') : Calls s s'' := by
  obtain ⟨htask, ⟨h1, h2, h3⟩, es, hlog, hes⟩ := h
  obtain ⟨htask', ⟨h1', h2', h3'⟩, es', hlog', hes'⟩ := h'
  refine ⟨htask'.trans htask, ⟨h1'.trans h1, h2'.trans h2, h3'.trans h3⟩, es ++ es', ?_, ?_⟩
  · rw [hlog', hlog, List.append_assoc]
  · rw [List.forall_mem_append]
    exact ⟨hes, hes'⟩

theorem calls_closeSockets (s : Session) : Calls s (closeSockets s) :=
  ((calls_closeSocket .data s).trans (calls_closeSocket .cmd _)).trans (calls_deleteSet _)

theorem Break.calls {s s' : Session} {reason : Reason} (h : Break s reason s') : Calls s s' := by
  cases h with
  | noSocket inp _ _ => exact calls_createSocket inp .cmd s
  | connect _ _ => exact .single rfl ⟨rfl, rfl, rfl⟩ rfl rfl
  | network => exact .single rfl ⟨rfl, rfl, rfl⟩ rfl rfl
  | socket _ => exact .single rfl ⟨rfl, rfl, rfl⟩ rfl rfl

theorem Calls.log_grows {s s' : Session} (h : Calls s s') : s.log <+: s'.log := by
  obtain ⟨es, hlog, -⟩ := h.log
  exact ⟨es, hlog.symm⟩

theorem Calls.filterMap_eq {s s' : Session} {β : Type*} {f : Event → Option β} (h : Calls s s')
    (hf : ∀ e, e.isCall = true → f e = none) : s'.log.filterMap f = s.log.filterMap f := by
  obtain ⟨es, hlog, hes⟩ := h.log
  rw [hlog, List.filterMap_append,
    List.filterMap_eq_nil_iff.mpr fun e he => hf e (hes e he), List.append_nil]

/-- Nothing is ever taken out of the log. -/
theorem Act.log_grows {s s' : Session} (h : Act s s') : s.log <+: s'.log := by
  have honly : ∀ {s''}, TaskOnly s s'' → s.log <+: s''.log := by
    intro s'' h
    obtain ⟨es, hl⟩ := h.log
    exact ⟨es, hl.symm⟩
  have hidle : ∀ {s''}, TaskOnly s s'' → s.log <+: (setToIdle s'').log := by
    intro s'' h
    rw [setToIdle_log]
    exact ((honly h).trans (calls_closeSocket .data s'').log_grows).trans (List.prefix_append ..)
  cases h with
  | api _ call => exact honly (taskOnly_apiCalls none s [call])
  | createSet inp => exact (calls_createSet inp s).log_grows
  | closeData => exact (calls_closeSocket .data s).log_grows
  | closeCmd _ => exact (calls_closeSocket .cmd s).log_grows
  | deleteSet _ _ => exact (calls_deleteSet s).log_grows
  | notify inp _ _ => exact honly (taskOnly_callback inp s _)
  | slice inp _ _ _ => exact honly (taskOnly_recvSlice inp _ s)
  | finished inp _ _ _ => exact hidle (taskOnly_callback inp s _)
  | failed inp _ => exact hidle (taskOnly_callback inp s _)
  | startupNext _ _ _ => exact List.prefix_refl _
  | _ => exact ⟨_, rfl⟩

theorem finish_log_grows (inp : Input) (reason : Reason) (s : Session) :
    s.log <+: (finish inp reason s).log := by
  have hcall := (taskOnly_callback inp (closeSockets s) (.disconnect reason)).log
  obtain ⟨es, hl⟩ := hcall
  refine (quiet_closeSockets s).log.trans ⟨es ++ [.setType .termination, .taskDelete], ?_⟩
  simp [finish, disconnect, hl]

/-! ## Sessions -/

/--
**What a session is.** As long as the thread runs it is a chain of acts from the start. A
thread that is over has run `finish` behind such a chain, because the task was terminated or
because of a break.
-/
inductive Ran (start : Session) : Session → Prop
  | running {s : Session} (hacts : Acts start s) (hthread : s.client.thread = true)
      (hsync : Synced s) : Ran start s
  | terminated (inp : Input) {s : Session} (hacts : Acts start s)
      (htype : s.client.task.type = .termination) : Ran start (finish inp .termination s)
  | broken (inp : Input) {s s' : Session} {reason : Reason} (hacts : Acts start s)
      (hbreak : Break s reason s') : Ran start (finish inp reason s')

theorem Ran.step {start s : Session} (h : Ran start s) (inp : Input) :
    Ran start (step inp s) := by
  cases h with
  | terminated inp' hacts htype => exact .terminated inp' hacts htype
  | broken inp' hacts hbreak => exact .broken inp' hacts hbreak
  | running hacts hthread hsync =>
    have hapi := quiet_apiCalls s inp.api
    have honly := taskOnly_apiCalls none s inp.api
    unfold Ftp.step
    rw [if_pos hthread]
    dsimp only
    split
    · next htype => exact .terminated inp (hacts.trans hapi.acts) htype
    · next htype =>
      obtain ⟨hcmd, hall⟩ := hsync.resolve_left fun ht => htype (apiCalls_termination ht _)
      have hcmd' : (apiCalls none s inp.api).client.socketCmd = none ∨
          CmdOpen (apiCalls none s inp.api) := by
        rcases hcmd with hnone | hopen
        · obtain ⟨task, hc⟩ := honly.client
          exact Or.inl (by rw [hc]; exact hnone)
        · exact Or.inr (hopen.taskOnly honly)
      have hround := body_round inp hcmd' (hapi.caught hall)
      generalize body inp (apiCalls none s inp.api) = o at hround
      match o, hround with
      | (s', none), h =>
        have hacts' := (hacts.trans hapi.acts).trans h.acts
        have hthread' := (acts_same (hapi.acts.trans h.acts)).2.1.trans hthread
        exact .running hacts' hthread' (h.done.imp_right fun hd => ⟨Or.inr hd.1, hd.2⟩)
      | (s', some reason), ⟨s'', hacts', hbreak⟩ =>
        exact .broken inp ((hacts.trans hapi.acts).trans hacts') hbreak

/-- The session before the first round. -/
def sessionStart (config : Config) (hasCallback : Bool) (task : Task) : Session :=
  threadStart ⟨newClient config hasCallback task, []⟩

theorem sessionStart_log (config : Config) (hasCallback : Bool) (task : Task) :
    (sessionStart config hasCallback task).log = [.setType .termination, .setType .startup] := rfl

theorem session_ran (config : Config) (hasCallback : Bool) (task : Task) (inputs : List Input) :
    Ran (sessionStart config hasCallback task) (session config hasCallback task inputs) := by
  unfold session
  suffices h : ∀ s, Ran (sessionStart config hasCallback task) s →
      Ran (sessionStart config hasCallback task) (inputs.foldl (fun s inp => step inp s) s) by
    exact h _ (.running .refl rfl (Or.inr ⟨Or.inl rfl, rfl, List.forall_mem_nil _⟩))
  induction inputs with
  | nil => exact fun s hs => hs
  | cons inp inputs ih => exact fun s hs => ih _ (hs.step inp)

theorem acts_inv {P : Session → Prop} (hact : ∀ {s s'}, Act s s' → P s → P s') {s s' : Session}
    (h : Acts s s') (hs : P s) : P s' := by
  induction h with
  | refl => exact hs
  | tail _ ha ih => exact hact ha ih

/-- **What every act keeps holds in every session**, if a break and the end keep it too. -/
theorem session_inv {P : Session → Prop} (hact : ∀ {s s'}, Act s s' → P s → P s')
    (hbreak : ∀ {s reason s'}, Break s reason s' → P s → P s')
    (hfinish : ∀ inp reason {s}, P s → P (finish inp reason s))
    {config : Config} {hasCallback : Bool} {task : Task}
    (hstart : P (sessionStart config hasCallback task)) (inputs : List Input) :
    P (session config hasCallback task inputs) := by
  have hran := session_ran config hasCallback task inputs
  generalize session config hasCallback task inputs = s at hran ⊢
  cases hran with
  | running hacts _ _ => exact acts_inv hact hacts hstart
  | terminated inp hacts _ => exact hfinish inp _ (acts_inv hact hacts hstart)
  | broken inp hacts hb => exact hfinish inp _ (hbreak hb (acts_inv hact hacts hstart))

end UniNet.Ftp
