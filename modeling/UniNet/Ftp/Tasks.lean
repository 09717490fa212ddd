import UniNet.Ftp.Disconnect

/-!
# Type and state of the task

The handlers write `task.state` without a look at `task.type`. Not every pair of the two leads
on: `work_state` does nothing in a startup that has `STARTED` or `FAILED`, and nothing in a
transfer that has `FINISHED`. Which pairs occur depends on the replies alone.

* `Task.OnTrack` — the pairs that lead on
* `session_typed` — the type of the task is the one that was written last
* `task_on_track` — replies that belong to the task keep it on track
-/

namespace UniNet.Ftp

open Infra

/-! ## The type that was written last -/

/-- The type that was written last. -/
def currentType (log : List Event) : Option TaskType := (log.filterMap Event.newType).getLast?

theorem currentType_append {log es : List Event} (h : ∀ e ∈ es, e.newType = none) :
    currentType (log ++ es) = currentType log := by
  unfold currentType
  rw [List.filterMap_append, List.filterMap_eq_nil_iff.mpr h, List.append_nil]

theorem currentType_concat (log : List Event) (type : TaskType) :
    currentType (log ++ [.setType type]) = some type := by
  simp [currentType, Event.newType]

/-- The log knows the type of the task. -/
def Typed (s : Session) : Prop := currentType s.log = some s.client.task.type

namespace Typed

variable {s s' : Session}

theorem extend (h : Typed s) {es : List Event}
    (htype : s'.client.task.type = s.client.task.type) (hlog : s'.log = s.log ++ es)
    (hes : ∀ e ∈ es, e.newType = none) : Typed s' := by
  unfold Typed
  rw [hlog, currentType_append hes, h, htype]

theorem write {type : TaskType} (htype : s'.client.task.type = type) {log : List Event}
    (hlog : s'.log = log ++ [.setType type]) : Typed s' := by
  unfold Typed
  rw [hlog, currentType_concat, htype]

theorem apiCall (h : Typed s) (inside : Option CallbackType) (call : ApiCall) :
    Typed (apiCall inside s call) := by
  rcases apiCall_cases inside s call with
    ⟨-, he⟩ | ⟨-, he⟩ | ⟨-, -, task, -, -, -, -, -, -, he⟩
  · rw [he]
    exact write rfl rfl
  · rw [he]
    exact h.extend rfl rfl (by simp [Event.newType])
  · rw [he]
    exact write rfl rfl

theorem step (h : Typed s) (hstep : TypeStep s s') : Typed s' := by
  cases hstep with
  | keep es htype hlog hes =>
    exact h.extend htype hlog fun e he => (Event.no_request (hes e he).1).2
  | tell _ call _ => exact h.extend rfl rfl (by simp [Event.newType])
  | api inside _ call => exact h.apiCall inside call
  | terminate _ _ => exact write rfl rfl
  | idle _ hidle hlog => exact write hidle hlog

theorem calls (h : Typed s) (hc : Calls s s') : Typed s' := by
  obtain ⟨es, hlog, hes⟩ := hc.log
  refine h.extend (by rw [hc.task]) hlog fun e he => ?_
  exact (Event.no_request (Event.not_isApp_of_isCall (hes e he))).2

theorem finish (inp : Input) (reason : Reason) (s : Session) : Typed (finish inp reason s) := by
  have hend : Typed (disconnect inp reason s) := write rfl rfl
  exact hend.extend rfl rfl (by simp [Event.newType])

end Typed

/-! ## Replies that belong to the task -/

/-- The pairs of type and state that `work_state` or an expected reply leads on from. -/
def Task.OnTrack (task : Task) : Prop :=
  (task.type = .startup →
    task.state = .notStarted ∨ task.state = .inProgress ∨ task.state = .finished) ∧
  (task.type.isTransfer →
    task.state = .notStarted ∨ task.state = .switchToPasv ∨ task.state = .started ∨
      task.state = .inProgress ∨ task.state = .failed)

instance (task : Task) : Decidable task.OnTrack := inferInstanceAs (Decidable (_ ∧ _))

/-- A reply of this handler is expected during a task of this type, or does no harm. -/
def Handler.fits : Handler → TaskType → Bool
  | .h227, type | .h550, type => type != .startup
  | .h20x, type | .h230, type | .h257, type => type != .retr && type != .list
  | _, _ => true

/-- The reply on this line fits. -/
def lineFits (type : TaskType) (text : Bytes) : Bool :=
  match replyOf text with
  | .handled h _ => h.fits type
  | _ => true

/-- A line that is passed on fits the task. -/
def FitsTask (log : List Event) (e : Event) : Prop :=
  ∀ type ∈ currentType log, ∀ text ∈ e.lineText, lineFits type text = true

instance (log : List Event) (e : Event) : Decidable (FitsTask log e) :=
  inferInstanceAs (Decidable (∀ type ∈ currentType log, _))

namespace Task.OnTrack

variable {s s' : Session}

theorem of_eq (h : s.client.task.OnTrack) (htask : s'.client.task = s.client.task) :
    s'.client.task.OnTrack := by
  rw [htask]
  exact h

/-- A task of another type is always on track. -/
theorem of_type {task : Task} (h₁ : task.type ≠ .startup) (h₂ : ¬ task.type.isTransfer) :
    task.OnTrack :=
  ⟨fun h => absurd h h₁, fun h => absurd h h₂⟩

theorem termination {task : Task} (h : task.type = .termination) : task.OnTrack :=
  of_type (by simp [h]) (by simp [h, TaskType.isTransfer])

theorem idle {task : Task} (h : task.type = .idle) : task.OnTrack :=
  of_type (by simp [h]) (by simp [h, TaskType.isTransfer])

theorem startup {task : Task} (htype : task.type = .startup)
    (hstate : task.state = .notStarted ∨ task.state = .inProgress) : task.OnTrack := by
  refine ⟨fun _ => ?_, by simp [htype, TaskType.isTransfer]⟩
  rcases hstate with h | h <;> simp [h]

theorem transfer {task : Task} (htype : task.type.isTransfer)
    (hstate : task.state ≠ .finished) : task.OnTrack := by
  refine ⟨fun h => ?_, fun _ => ?_⟩
  · rcases htype with ht | ht <;> simp [ht] at h
  · cases hs : task.state <;> simp [hs] at hstate ⊢

/-- **A reply that fits keeps the task on track.** -/
theorem reply {task : Task} {text : Bytes} (h : task.OnTrack)
    (hfits : lineFits task.type text = true) : (replyTask task text).OnTrack := by
  unfold lineFits at hfits
  unfold replyTask
  cases hreply : replyOf text with
  | wrongData => exact h
  | wrongCmd => exact h
  | handled handler payload =>
    simp only [hreply] at hfits
    cases handler with
    | h20x | h230 | h257 =>
      refine ⟨by simp, fun (htype : task.type.isTransfer) => ?_⟩
      rcases htype with ht | ht <;> simp [Handler.fits, ht] at hfits
    | h227 | h550 =>
      refine ⟨fun (htype : task.type = .startup) => ?_, by simp⟩
      simp [Handler.fits, htype] at hfits
    | h220 =>
      by_cases htype : task.type = .startup
      · simp only [if_pos htype]
        exact startup htype (Or.inl rfl)
      · simp only [if_neg htype]
        exact h
    | _ => exact h

theorem apiCall (h : s.client.task.OnTrack) (inside : Option CallbackType) (call : ApiCall) :
    (apiCall inside s call).client.task.OnTrack := by
  rcases apiCall_cases inside s call with
    ⟨-, he⟩ | ⟨-, he⟩ | ⟨-, -, task, -, -, htype, hstate, -, -, he⟩
  · rw [he]
    exact termination rfl
  · rw [he]
    exact h
  · rw [he]
    exact transfer htype (by simp [hstate])

theorem callback (h : s.client.task.OnTrack) (inp : Input) (call : Callback) :
    (callback inp s call).client.task.OnTrack :=
  callback_inv (P := fun s => s.client.task.OnTrack) h h fun _ c hs => hs.apiCall _ c

theorem recvSlice (h : s.client.task.OnTrack) (inp : Input) (data : Bytes) :
    (recvSlice inp data s).client.task.OnTrack := by
  have hstarted : (if s.client.task.state = .started then s.setState .inProgress
      else s).client.task.OnTrack := by
    split
    · exact ⟨by simp, by simp⟩
    · exact h
  exact hstarted.callback inp (.recv data)

end Task.OnTrack

/-- **Every act keeps a task on track**, if the lines fit. -/
theorem Act.onTrack {s s' : Session} (h : Act s s') (hs : s.client.task.OnTrack)
    (htyped : Typed s) (hfits : Throughout FitsTask s'.log) : s'.client.task.OnTrack := by
  cases h with
  | note _ _ => exact hs
  | api _ call => exact hs.apiCall none call
  | createSet inp => exact hs.of_eq (calls_createSet inp s).task
  | createCmd inp _ _ _ _ => exact hs.of_eq (calls_createSocket inp .cmd s).task
  | createData inp _ _ => exact hs.of_eq (calls_createSocket inp .data s).task
  | closeData => exact hs.of_eq (calls_closeSocket .data s).task
  | closeCmd _ => exact hs.of_eq (calls_closeSocket .cmd s).task
  | deleteSet _ _ => exact hs.of_eq (calls_deleteSet s).task
  | notify inp _ _ _ => exact hs.callback inp _
  | terminate _ _ => exact .termination rfl
  | reply _ _ _ =>
    rw [replied_log, throughout_concat] at hfits
    exact hs.reply (hfits.2 _ htyped _ rfl)
  | slice inp _ _ _ _ => exact hs.recvSlice inp _
  | startupNext _ htype _ => exact .startup htype (Or.inl rfl)
  | startupDone _ _ _ => exact .idle rfl
  | startupSend inp _ htype _ _ => exact .startup htype (Or.inr rfl)
  | pasv inp _ htype _ => exact .transfer htype (by simp [switchToPassive, sendCmd])
  | request inp _ cmd htype _ => exact .transfer htype (by simp [sendCmd])
  | finished inp _ _ _ _ => exact .idle rfl
  | failed inp _ _ => exact .idle rfl

/--
**The task always has a way on**, at the end of every iteration of every session, if every
reply fits the task it arrives in: no 227 and no 550 in the startup, and no 200, 202, 230
and 257 in a transfer.
-/
theorem task_on_track (config : Config) (hasCallback : Bool) (task : Task) (inputs : List Input)
    (hfits : Throughout FitsTask (session config hasCallback task inputs).log) :
    (session config hasCallback task inputs).client.task.OnTrack := by
  suffices h : Typed (session config hasCallback task inputs) ∧
      (Throughout FitsTask (session config hasCallback task inputs).log →
        (session config hasCallback task inputs).client.task.OnTrack) from h.2 hfits
  refine session_inv (P := fun s => Typed s ∧
    (Throughout FitsTask s.log → s.client.task.OnTrack)) ?_ ?_ ?_ ?_ inputs
  · rintro s s' ha ⟨htyped, htrack⟩
    refine ⟨typeSteps_inv (fun ht hs => hs.step ht) ha.typeSteps htyped, fun hf => ?_⟩
    exact ha.onTrack (htrack (hf.of_begin ha.log_grows)) htyped hf
  · rintro s reason s' hb ⟨htyped, htrack⟩
    exact ⟨htyped.calls hb.calls, fun hf =>
      (htrack (hf.of_begin hb.calls.log_grows)).of_eq hb.calls.task⟩
  · rintro inp reason s -
    exact ⟨Typed.finish inp reason s, fun _ => .termination rfl⟩
  · exact ⟨rfl, fun _ => .startup rfl (Or.inr rfl)⟩

theorem task_on_track_listing :
    (session .plain true .zero Input.listing).client.task.type = .list ∧
      (session .plain true .zero Input.listing).client.task.OnTrack :=
  ⟨by decide +kernel, task_on_track .plain true .zero Input.listing (by decide +kernel)⟩

/-- A server that wants the login again in the middle of a download. -/
def loginAgain : List Input :=
  Input.startup ++
    [.call (.download (.ofBytes (ascii "f")) none 5), .reply (ascii "530 login\r\n"),
      .reply (ascii "331 password\r\n"), .reply (ascii "230 welcome\r\n")]

/-- **A login in the middle of a download wedges the client**: the 230 reply writes `FINISHED`. -/
theorem download_wedged :
    (session .plain true .zero loginAgain).client.task.type = .retr ∧
      (session .plain true .zero loginAgain).client.task.state = .finished ∧
      ¬ (session .plain true .zero loginAgain).client.task.OnTrack := by
  decide +kernel

end UniNet.Ftp
