import UniNet.Ftp.Chain
import UniNet.Infra.History

/-!
# The end of a session

`task.type` is the channel through which the application asks for the end, and the state of the
worker at the same time. A request is lost when the worker writes the type again, and it does
so right behind the callback that reports the end of a transfer.

The application is told about the end by `disconnect`. The thread calls it once behind its
loop, and `work_cmd` calls it for errors of its own before.

* `Act.typeSteps` — the type of the task and the application, step by step
* `request_kept` — a request for the end is not lost
* `disconnect_notified_once` — the application is told once, and why
-/

namespace UniNet.Ftp

open Infra Relation

/-! ## Steps -/

/-- The application asked for the end while it was told about the end of a transfer. -/
def Late (log : List Event) : Prop :=
  .api (some .recvFinished) .disconnect ∈ log ∨ .api (some .recvFailed) .disconnect ∈ log

instance (log : List Event) : Decidable (Late log) := inferInstanceAs (Decidable (_ ∨ _))

/-- An event of the worker's own, that ends the session at the top of the loop at most. -/
def Event.Inner (e : Event) : Prop :=
  e.isApp = false ∧ ∀ reason ∈ e.ends, reason = .termination ∨ reason.isLocal = true

/-- One step, as far as the type of the task and the application are concerned. -/
inductive TypeStep : Session → Session → Prop
  | keep {s s' : Session} (es : List Event)
      (htype : s'.client.task.type = s.client.task.type) (hlog : s'.log = s.log ++ es)
      (hes : ∀ e ∈ es, e.Inner) : TypeStep s s'
  | tell (s : Session) (call : Callback)
      (hcall : ∀ reason, call = .disconnect reason → reason.isLocal = true ∧
        ∃ e ∈ s.log, e.ends = some reason) : TypeStep s (s.emit (.callback call))
  | api (inside : Option CallbackType) (s : Session) (call : ApiCall) :
      TypeStep s (apiCall inside s call)
  | terminate (s : Session) (hcause : ∃ e ∈ s.log, e.ends ≠ none) :
      TypeStep s (s.setType .termination)
  | idle {s s' : Session} (htype : s.client.task.type ≠ .termination ∨ Late s.log)
      (hidle : s'.client.task.type = .idle) (hlog : s'.log = s.log ++ [.setType .idle]) :
      TypeStep s s'

abbrev TypeSteps : Session → Session → Prop := ReflTransGen TypeStep

theorem Noted.inner {s : Session} {e : Event} (h : Noted s e) : e.Inner := by
  cases e with
  | connect role sock addr port result =>
    refine ⟨rfl, ?_⟩
    cases role with
    | cmd => simp [Event.ends, h.2.1 rfl]
    | data => by_cases hr : result = 0 <;> simp [Event.ends, hr]
  | isNetworkUp up =>
    obtain rfl : up = true := h
    exact ⟨rfl, by simp [Event.ends]⟩
  | issocketconnected sock ok => exact ⟨rfl, by simp [Event.ends, h.1]⟩
  | calloc ok => cases ok <;> exact ⟨rfl, by simp [Event.ends, Reason.isLocal]⟩
  | recv sock bytes =>
    by_cases hb : bytes = [] <;> exact ⟨rfl, by simp [Event.ends, hb, Reason.isLocal]⟩
  | createSocketSet _ => exact h.elim
  | deleteSocketSet _ => exact h.elim
  | socket _ _ => exact h.elim
  | closesocket _ => exact h.elim
  | line _ => exact h.elim
  | callback _ => exact h.elim
  | api _ _ => exact h.elim
  | setType _ => exact h.elim
  | release _ _ => exact h.elim
  | taskDelete => exact h.elim
  | _ => exact ⟨rfl, by simp [Event.ends]⟩

theorem inner_line (text : Bytes) : (Event.line text).Inner := by
  refine ⟨rfl, ?_⟩
  cases hreply : replyOf text with
  | wrongData => simp [Event.ends, hreply, Reason.isLocal]
  | wrongCmd => simp [Event.ends, hreply, Reason.isLocal]
  | handled h payload =>
    cases h with
    | error => simp [Event.ends, hreply, Reason.isLocal]
    | h227 => by_cases ht : (pasvTarget payload).isNone = true <;> simp [Event.ends, hreply, ht]
    | _ => simp [Event.ends, hreply]

theorem TypeStep.refl (s : Session) : TypeStep s s := .keep [] rfl (by simp) (by simp)

/-- An event that leaves the task alone. -/
theorem TypeStep.event {s s' : Session} {e : Event}
    (htype : s'.client.task.type = s.client.task.type) (hlog : s'.log = s.log ++ [e])
    (he : e.Inner) : TypeStep s s' :=
  .keep [e] htype hlog (by simpa using he)

theorem typeStep_createSet (inp : Input) (s : Session) : TypeStep s (createSet inp s) := by
  unfold createSet
  split
  · exact .event rfl rfl ⟨rfl, by simp [Event.ends]⟩
  · exact .refl s

theorem typeStep_createSocket (inp : Input) (role : Role) (s : Session)
    (hsock : role = .cmd → inp.socket s.now ≠ none) : TypeStep s (createSocket inp role s) := by
  cases role with
  | data =>
    refine .event rfl rfl ⟨rfl, ?_⟩
    cases inp.socket s.now <;> simp [Event.ends]
  | cmd =>
    refine .event rfl rfl ⟨rfl, ?_⟩
    obtain ⟨ok, hok⟩ := Option.ne_none_iff_exists'.mp (hsock rfl)
    simp [Event.ends, hok]

theorem typeStep_closeSocket (role : Role) (s : Session) : TypeStep s (closeSocket role s) := by
  cases h : s.client.socket role with
  | none => rw [closeSocket_none role h]; exact .refl s
  | some sock =>
    rw [closeSocket_some role h]
    refine .event ?_ rfl ⟨rfl, by simp [Event.ends]⟩
    cases role <;> rfl

theorem typeStep_deleteSet (s : Session) : TypeStep s (deleteSet s) := by
  unfold deleteSet
  split
  · exact .event rfl rfl ⟨rfl, by simp [Event.ends]⟩
  · exact .refl s

/-- The application is told something, and answers. -/
theorem typeSteps_callback (inp : Input) {s : Session} {call : Callback}
    (hcall : ∀ reason, call = .disconnect reason → reason.isLocal = true ∧
      ∃ e ∈ s.log, e.ends = some reason) : TypeSteps s (callback inp s call) :=
  callback_inv .refl (.single (.tell s call hcall)) fun s' c h => h.tail (.api _ s' c)

/-- The end of a transfer: the type is written whatever the application asked for. -/
theorem typeSteps_setToIdle (inp : Input) {s : Session} {call : Callback}
    (htype : s.client.task.type.isTransfer) (hcall : call = .recvFinished ∨ call = .recvFailed) :
    TypeSteps s (setToIdle (callback inp s call)) := by
  have htold : TypeSteps s (callback inp s call) := by
    refine typeSteps_callback inp ?_
    rintro reason rfl
    simp at hcall
  refine (htold.tail (typeStep_closeSocket .data _)).tail (.idle ?_ rfl rfl)
  have hidle : s.client.task.type ≠ .idle ∧ s.client.task.type ≠ .termination := by
    rcases htype with h | h <;> simp [h]
  rw [closeData_client]
  rcases callback_client inp call hidle.1 with hc | ⟨-, hmem⟩
  · exact Or.inl (by rw [hc]; exact hidle.2)
  · have hlate := (calls_closeSocket .data (callback inp s call)).log_grows.subset hmem
    rcases hcall with rfl | rfl
    · exact Or.inr (Or.inl hlate)
    · exact Or.inr (Or.inr hlate)

theorem typeSteps_recvSlice (inp : Input) (data : Bytes) (s : Session) :
    TypeSteps s (recvSlice inp data s) := by
  unfold recvSlice
  dsimp only
  generalize hs : (if s.client.task.state = .started then s.setState .inProgress else s) = s₁
  have h₁ : TypeStep s s₁ := by
    rw [← hs]
    split
    · exact .keep [] rfl (by simp) (by simp)
    · exact .refl s
  have h₂ : TypeSteps s₁ (callback inp s₁ (.recv data)) := typeSteps_callback inp (by simp)
  exact (h₂.head h₁).tail (.event rfl rfl ⟨rfl, by simp [Event.ends]⟩)

/-- **The type of the task and the application, step by step.** -/
theorem Act.typeSteps {s s' : Session} (h : Act s s') : TypeSteps s s' := by
  have hinner : ∀ {e : Event}, e.isApp = false → e.ends = none → e.Inner :=
    fun h1 h2 => ⟨h1, by simp [h2]⟩
  cases h with
  | note _ hn => exact .single (.event rfl rfl hn.inner)
  | api _ call => exact .single (.api none s call)
  | createSet inp => exact .single (typeStep_createSet inp s)
  | createCmd inp _ _ _ hsock => exact .single (typeStep_createSocket inp .cmd s fun _ => hsock)
  | createData inp _ _ => exact .single (typeStep_createSocket inp .data s (by simp))
  | closeData => exact .single (typeStep_closeSocket .data s)
  | closeCmd _ => exact .single (typeStep_closeSocket .cmd s)
  | deleteSet _ _ => exact .single (typeStep_deleteSet s)
  | notify inp _ hlocal hcause =>
    refine typeSteps_callback inp ?_
    rintro _ ⟨rfl⟩
    exact ⟨hlocal, hcause⟩
  | terminate _ hcause => exact .single (.terminate s hcause)
  | reply _ _ => exact .single (.event (by simp) rfl (inner_line _))
  | slice inp _ _ _ => exact typeSteps_recvSlice inp _ s
  | startupNext _ _ _ => exact .single (.keep [] rfl (by simp) (by simp))
  | startupDone _ htype _ => exact .single (.idle (Or.inl (by simp [htype])) rfl rfl)
  | startupSend inp _ _ _ => exact .single (.event rfl rfl (hinner rfl rfl))
  | pasv inp _ _ _ => exact .single (.event rfl rfl (hinner rfl rfl))
  | request inp _ _ _ => exact .single (.event rfl rfl (hinner rfl rfl))
  | finished inp _ htype _ _ => exact typeSteps_setToIdle inp htype (Or.inl rfl)
  | failed inp _ htype => exact typeSteps_setToIdle inp htype (Or.inr rfl)

/-! ## A request for the end -/

def Event.isRequest : Event → Bool
  | .api _ .disconnect => true
  | _ => false

/-- The application has asked for the end. -/
def Requested (log : List Event) : Prop := ∃ e ∈ log, e.isRequest = true

instance (log : List Event) : Decidable (Requested log) :=
  inferInstanceAs (Decidable (∃ e ∈ log, _))

/-- The type that is written. -/
def Event.newType : Event → Option TaskType
  | .setType type => some type
  | _ => none

/-- The worker's own events neither ask for the end nor write the type. -/
theorem Event.no_request {e : Event} (h : e.isApp = false) :
    e.isRequest = false ∧ e.newType = none := by
  cases e <;> first | exact ⟨rfl, rfl⟩ | simp [Event.isApp] at h

/-- Once the end was asked for, no other type is written. -/
def KeepsRequest (log : List Event) (e : Event) : Prop :=
  Requested log → ∀ type ∈ e.newType, type = .termination

instance (log : List Event) (e : Event) : Decidable (KeepsRequest log e) :=
  inferInstanceAs (Decidable (_ → _))

/-- A request is remembered in the type. -/
structure Remembered (s : Session) : Prop where
  type : Requested s.log → s.client.task.type = .termination
  kept : Throughout KeepsRequest s.log

namespace Remembered

variable {s s' : Session}

theorem extend (h : Remembered s) {es : List Event}
    (htype : s'.client.task.type = s.client.task.type) (hlog : s'.log = s.log ++ es)
    (hes : ∀ e ∈ es, e.isRequest = false ∧ e.newType = none) : Remembered s' := by
  constructor
  · rintro ⟨e, he, hreq⟩
    rw [hlog, List.mem_append] at he
    rcases he with he | he
    · rw [htype]
      exact h.type ⟨e, he, hreq⟩
    · simp [(hes e he).1] at hreq
  · rw [hlog, throughout_append]
    · exact h.kept
    · intro pre e he _
      simp [(hes e he).2]

/-- A type that is written, `TERMINATION` if the end was asked for. -/
theorem write (h : Remembered s) {type : TaskType} (htype : s'.client.task.type = type)
    (hlog : s'.log = s.log ++ [.setType type])
    (hreq : Requested s.log → type = .termination) : Remembered s' := by
  constructor
  · rintro ⟨e, he, hr⟩
    rw [hlog, List.mem_append, List.mem_singleton] at he
    rcases he with he | rfl
    · rw [htype]
      exact hreq ⟨e, he, hr⟩
    · simp [Event.isRequest] at hr
  · rw [hlog, throughout_concat]
    refine ⟨h.kept, fun hr => ?_⟩
    simpa [Event.newType] using hreq hr

theorem apiCall (h : Remembered s) (inside : Option CallbackType) (call : ApiCall) :
    Remembered (apiCall inside s call) := by
  have hasked : call ≠ .disconnect → Remembered (s.emit (.api inside call)) := by
    intro hne
    refine h.extend rfl rfl ?_
    cases call <;> simp [Event.isRequest, Event.newType] at hne ⊢
  rcases apiCall_cases inside s call with
    ⟨-, he⟩ | ⟨hne, he⟩ | ⟨hne, hidle, task, -, -, -, -, -, -, he⟩
  · rw [he]
    refine ⟨fun _ => rfl, ?_⟩
    simp only [Session.setType_log, Session.emit_log, throughout_concat]
    exact ⟨⟨h.kept, by simp [KeepsRequest, Event.newType]⟩, by simp [KeepsRequest, Event.newType]⟩
  · rw [he]
    exact hasked hne
  · rw [he]
    refine (hasked hne).write rfl rfl fun hreq => ?_
    have htype := (hasked hne).type hreq
    simp [hidle] at htype

theorem callback (h : Remembered s) (inp : Input) (call : Callback) :
    Remembered (callback inp s call) := by
  have htold : Remembered (s.emit (.callback call)) :=
    h.extend rfl rfl (by simp [Event.isRequest, Event.newType])
  exact callback_inv h htold fun _ c hs => hs.apiCall _ c

theorem calls (h : Remembered s) (hc : Calls s s') : Remembered s' := by
  obtain ⟨es, hlog, hes⟩ := hc.log
  refine h.extend (by rw [hc.task]) hlog fun e he => ?_
  exact Event.no_request (Event.not_isApp_of_isCall (hes e he))

theorem finish (h : Remembered s) (inp : Input) (reason : Reason) :
    Remembered (finish inp reason s) := by
  have htold := (h.calls (calls_closeSockets s)).callback inp (.disconnect reason)
  have hend : Remembered (disconnect inp reason s) := htold.write rfl rfl fun _ => rfl
  exact hend.extend rfl rfl (by simp [Event.isRequest, Event.newType])

theorem step (h : Remembered s) (hstep : TypeStep s s') (hlate : ¬ Late s'.log) :
    Remembered s' := by
  cases hstep with
  | keep es htype hlog hes =>
    exact h.extend htype hlog fun e he => Event.no_request (hes e he).1
  | tell _ call _ => exact h.extend rfl rfl (by simp [Event.isRequest, Event.newType])
  | api inside _ call => exact h.apiCall inside call
  | terminate _ _ => exact h.write rfl rfl fun _ => rfl
  | idle htype hidle hlog =>
    refine h.write hidle hlog fun hreq => ?_
    rcases htype with htype | hlate'
    · exact absurd (h.type hreq) htype
    · refine absurd ?_ hlate
      rw [hlog]
      exact hlate'.imp (List.mem_append_left _) (List.mem_append_left _)

end Remembered

theorem TypeStep.log_grows {s s' : Session} (h : TypeStep s s') : s.log <+: s'.log := by
  cases h with
  | keep es _ hlog _ => exact ⟨es, hlog.symm⟩
  | tell _ call _ => exact ⟨_, rfl⟩
  | api inside _ call =>
    obtain ⟨es, hl, -⟩ := (appOnly_apiCall inside s call).log
    exact ⟨es, hl.symm⟩
  | terminate _ _ => exact ⟨_, rfl⟩
  | idle _ _ hlog => exact ⟨_, hlog.symm⟩

theorem typeSteps_inv {P : Session → Prop} (hstep : ∀ {s s'}, TypeStep s s' → P s → P s')
    {s s' : Session} (h : TypeSteps s s') (hs : P s) : P s' := by
  induction h with
  | refl => exact hs
  | tail _ hlast ih => exact hstep hlast ih

theorem Late.mono {log log' : List Event} (h : Late log) (hp : log <+: log') : Late log' :=
  h.imp (fun hm => hp.subset hm) fun hm => hp.subset hm

/--
**A request for the end is never lost**, unless it is made inside the callback for the end of a
transfer.
-/
theorem request_kept (config : Config) (hasCallback : Bool) (task : Task) (inputs : List Input)
    (hlate : ¬ Late (session config hasCallback task inputs).log) :
    Throughout KeepsRequest (session config hasCallback task inputs).log ∧
      (Requested (session config hasCallback task inputs).log →
        (session config hasCallback task inputs).client.task.type = .termination) := by
  have hstep : ∀ {s s'}, TypeStep s s' → (¬ Late s.log → Remembered s) →
      ¬ Late s'.log → Remembered s' := fun hs h hl =>
    (h fun hl' => hl (hl'.mono hs.log_grows)).step hs hl
  suffices h : ¬ Late (session config hasCallback task inputs).log →
      Remembered (session config hasCallback task inputs) from ⟨(h hlate).kept, (h hlate).type⟩
  refine session_inv (P := fun s => ¬ Late s.log → Remembered s) ?_ ?_ ?_ ?_ inputs
  · exact fun ha h => typeSteps_inv hstep ha.typeSteps h
  · exact fun hb h hl => (h fun hl' => hl (hl'.mono hb.calls.log_grows)).calls hb.calls
  · exact fun inp reason s h hl =>
      (h fun hl' => hl (hl'.mono (finish_log_grows inp reason s))).finish inp reason
  · refine fun _ => ⟨?_, ?_⟩
    · simp [sessionStart_log, Requested, Event.isRequest]
    · simp [sessionStart_log, Throughout, ThroughoutFrom, KeepsRequest, Requested,
        Event.isRequest]

theorem request_kept_broken_off :
    .api none .disconnect ∈ (session .plain true .zero Input.brokenOff).log ∧
      (session .plain true .zero Input.brokenOff).client.task.type = .termination := by
  have hcall : .api none .disconnect ∈ (session .plain true .zero Input.brokenOff).log := by
    decide +kernel
  exact ⟨hcall, (request_kept .plain true .zero Input.brokenOff (by decide +kernel)).2
    ⟨_, hcall, rfl⟩⟩

/-- A listing of an empty directory; the application wants nothing more and says so. -/
def listThenDisconnect : List Input :=
  Input.listing ++
    [{ Input.reply (ascii "150 ok (0)\r\n") with callback := fun _ => [.disconnect] }]

/-- **A request inside `RECV_FINISHED` is lost**: the session goes on and is idle. -/
theorem request_lost :
    .api (some .recvFinished) .disconnect ∈ (session .plain true .zero listThenDisconnect).log ∧
      (session .plain true .zero listThenDisconnect).client.thread = true ∧
      (session .plain true .zero listThenDisconnect).client.task.type = .idle ∧
      ¬ Throughout KeepsRequest (session .plain true .zero listThenDisconnect).log := by
  decide +kernel

/-! ## The notification -/

/-- Before the end of the loop: what has ended the session, and what the application was told. -/
structure Unfinished (s : Session) : Prop where
  cause : s.client.task.type = .termination → ∃ e ∈ s.log, e.ends ≠ none
  inner : ∀ e ∈ s.log, ∀ reason ∈ e.ends, reason = .termination ∨ reason.isLocal = true
  told : ∀ reason, .callback (.disconnect reason) ∈ s.log → reason.isLocal = true ∧
    ∃ e ∈ s.log, e.ends = some reason

namespace Unfinished

variable {s s' : Session}

theorem extend (h : Unfinished s) (es : List Event) (hlog : s'.log = s.log ++ es)
    (hcause : s'.client.task.type = .termination → s.client.task.type = .termination ∨
      ∃ e ∈ s'.log, e.ends ≠ none)
    (hes : ∀ e ∈ es, (∀ reason ∈ e.ends, reason = .termination ∨ reason.isLocal = true) ∧
      ∀ reason, e = .callback (.disconnect reason) → reason.isLocal = true ∧
        ∃ e ∈ s.log, e.ends = some reason) : Unfinished s' := by
  have hgrow : ∀ {P : Event → Prop}, (∃ e ∈ s.log, P e) → ∃ e ∈ s'.log, P e := by
    rintro P ⟨e, he, hP⟩
    exact ⟨e, by rw [hlog]; exact List.mem_append_left _ he, hP⟩
  constructor
  · intro htype
    rcases hcause htype with h' | h'
    · exact hgrow (h.cause h')
    · exact h'
  · rw [hlog, List.forall_mem_append]
    exact ⟨h.inner, fun e he => (hes e he).1⟩
  · intro reason hmem
    rw [hlog, List.mem_append] at hmem
    rcases hmem with hmem | hmem
    · exact (h.told reason hmem).imp_right hgrow
    · exact ((hes _ hmem).2 reason rfl).imp_right hgrow

theorem step (h : Unfinished s) (hstep : TypeStep s s') : Unfinished s' := by
  cases hstep with
  | keep es htype hlog hes =>
    refine h.extend es hlog (fun ht => Or.inl (htype ▸ ht)) fun e he => ⟨(hes e he).2, ?_⟩
    rintro reason rfl
    simpa [Event.isApp] using (hes _ he).1
  | tell _ call hcall =>
    refine h.extend [_] rfl Or.inl ?_
    simpa [Event.ends] using hcall
  | api inside _ call =>
    rcases apiCall_cases inside s call with
      ⟨rfl, he⟩ | ⟨hne, he⟩ | ⟨hne, -, task, -, -, ht, -, -, -, he⟩
    · rw [he]
      refine h.extend [.api inside .disconnect, .setType .termination] (by simp) ?_ ?_
      · exact fun _ => Or.inr ⟨.api inside .disconnect, by simp, by simp [Event.ends]⟩
      · simp [Event.ends]
    · rw [he]
      refine h.extend [_] rfl Or.inl ?_
      cases call <;> simp [Event.ends] at hne ⊢
    · rw [he]
      refine h.extend [.api inside call, .setType task.type] (by simp) ?_ ?_
      · intro htype
        rcases ht with ht | ht <;> simp [ht] at htype
      · cases call <;> simp [Event.ends] at hne ⊢
  | terminate _ hcause =>
    obtain ⟨e, he, hends⟩ := hcause
    exact h.extend [_] rfl (fun _ => Or.inr ⟨e, List.mem_append_left _ he, hends⟩)
      (by simp [Event.ends])
  | idle _ hidle hlog => exact h.extend [_] hlog (by simp [hidle]) (by simp [Event.ends])

theorem start (config : Config) (hasCallback : Bool) (task : Task) :
    Unfinished (sessionStart config hasCallback task) := by
  constructor
  · intro htype
    cases htype
  · simp [sessionStart_log, Event.ends]
  · simp [sessionStart_log]

theorem acts (h : Unfinished s) (ha : Acts s s') : Unfinished s' :=
  acts_inv (fun ha hs => typeSteps_inv (fun ht hs => hs.step ht) ha.typeSteps hs) ha h

end Unfinished

/-- A break is the last event that ends the session. -/
theorem Break.ends {s s' : Session} {reason : Reason} (h : Break s reason s') :
    ∃ e, s'.log = s.log ++ [e] ∧ e.ends = some reason ∧ e.isApp = false := by
  cases h with
  | noSocket inp _ _ hsock => exact ⟨_, rfl, by simp [Event.ends, hsock], rfl⟩
  | connect _ _ hfail => exact ⟨_, rfl, by simp [Event.ends, hfail], rfl⟩
  | network => exact ⟨_, rfl, by simp [Event.ends], rfl⟩
  | socket _ => exact ⟨_, rfl, by simp [Event.ends], rfl⟩

/-- The reasons to end the session, in the order in which they came up. -/
def reasons (log : List Event) : List Reason := log.filterMap Event.ends

theorem closeSockets_reasons (s : Session) : reasons (closeSockets s).log = reasons s.log := by
  have hclose : ∀ role s, reasons (closeSocket role s).log = reasons s.log := by
    intro role s
    unfold closeSocket
    split <;> simp [reasons, Event.ends]
  have hdelete : ∀ s, reasons (deleteSet s).log = reasons s.log := by
    intro s
    unfold deleteSet
    split <;> simp [reasons, Event.ends]
  rw [closeSockets, hdelete, hclose, hclose]

theorem apiCalls_no_callback (inside : Option CallbackType) (s : Session) (calls : List ApiCall) :
    ∃ es, (apiCalls inside s calls).log = s.log ++ es ∧ ∀ call, .callback call ∉ es := by
  refine apiCalls_inv (P := fun s' => ∃ es, s'.log = s.log ++ es ∧ ∀ call, .callback call ∉ es)
    ?_ ⟨[], (List.append_nil _).symm, by simp⟩ calls
  rintro s' c ⟨es, hlog, hes⟩
  rcases apiCall_cases inside s' c with
    ⟨-, he⟩ | ⟨-, he⟩ | ⟨-, -, task, -, -, -, -, -, -, he⟩
  · exact ⟨es ++ [.api inside c, .setType .termination], by simp [he, hlog], by simpa using hes⟩
  · exact ⟨es ++ [.api inside c], by simp [he, hlog], by simpa using hes⟩
  · exact ⟨es ++ [.api inside c, .setType task.type], by simp [he, hlog], by simpa using hes⟩

/-- Behind the loop the application is told about the end, and about nothing else. -/
theorem finish_told (inp : Input) (reason : Reason) {s : Session}
    (hcallback : s.client.callback = true) :
    ∃ post, (finish inp reason s).log =
        (closeSockets s).log ++ .callback (.disconnect reason) :: post ∧
      ∀ call, .callback call ∉ post := by
  have hsame : (closeSockets s).client.callback = true := by rw [closeSockets_client, hcallback]
  obtain ⟨es, hlog, hes⟩ := apiCalls_no_callback (some .disconnect)
    ((closeSockets s).emit (.callback (.disconnect reason))) (inp.callback (closeSockets s).now)
  refine ⟨es ++ [.setType .termination, .taskDelete], ?_, by simpa using hes⟩
  simp [finish, disconnect, callback, hsame, Callback.type, hlog]

/--
The application was told about the end once, with the reason that ended the session, and was
called for nothing else afterwards.
-/
def Notified (log : List Event) : Prop :=
  ∃ pre reason post, log = pre ++ .callback (.disconnect reason) :: post ∧
    (∀ r, .callback (.disconnect r) ∉ pre) ∧ (∀ call, .callback call ∉ post) ∧
    (reasons pre).getLast? = some reason

/--
A reason that `work_cmd` reports on its own: a line that is no reply, an unknown code or an
error code, memory that is not there, or a receive without bytes.
-/
def LocalEnd (log : List Event) : Prop := ∃ reason ∈ reasons log, reason.isLocal = true

instance (log : List Event) : Decidable (LocalEnd log) :=
  inferInstanceAs (Decidable (∃ reason ∈ reasons log, _))

theorem not_localEnd_of_begin {log log' : List Event} (h : ¬ LocalEnd log')
    (hp : log <+: log') : ¬ LocalEnd log := by
  rintro ⟨reason, hmem, hr⟩
  exact h ⟨reason, (hp.filterMap _).subset hmem, hr⟩

/-- Without an error of its own `work_cmd` tells the application nothing. -/
theorem Unfinished.not_told {s : Session} (h : Unfinished s) (hno : ¬ LocalEnd s.log) :
    ∀ r, .callback (.disconnect r) ∉ s.log := by
  intro r hmem
  obtain ⟨hr, e, he, hends⟩ := h.told r hmem
  exact hno ⟨r, List.mem_filterMap.mpr ⟨e, he, hends⟩, hr⟩

theorem Unfinished.reasons_ne_nil {s : Session} (h : Unfinished s)
    (htype : s.client.task.type = .termination) : reasons s.log ≠ [] := by
  obtain ⟨e, he, hends⟩ := h.cause htype
  obtain ⟨reason, hreason⟩ := Option.ne_none_iff_exists'.mp hends
  exact List.ne_nil_of_mem (List.mem_filterMap.mpr ⟨e, he, hreason⟩)

theorem Unfinished.reason_eq {s : Session} (h : Unfinished s) (hno : ¬ LocalEnd s.log) :
    ∀ reason ∈ reasons s.log, reason = .termination := by
  intro reason hmem
  obtain ⟨e, he, hends⟩ := List.mem_filterMap.mp hmem
  exact (h.inner e he reason hends).resolve_right fun hr => hno ⟨reason, hmem, hr⟩

theorem notified_of_finish {inp : Input} {reason : Reason} {s : Session}
    (hcallback : s.client.callback = true) (htold : ∀ r, .callback (.disconnect r) ∉ s.log)
    (hlast : (reasons s.log).getLast? = some reason) : Notified (finish inp reason s).log := by
  obtain ⟨post, hlog, hpost⟩ := finish_told inp reason hcallback
  refine ⟨(closeSockets s).log, reason, post, hlog, ?_, hpost, ?_⟩
  · intro r hmem
    obtain ⟨es, hes, hcalls⟩ := (calls_closeSockets s).log
    rw [hes, List.mem_append] at hmem
    rcases hmem with hmem | hmem
    · exact htold r hmem
    · simpa [Event.isCall] using hcalls _ hmem
  · rw [closeSockets_reasons, hlast]

/--
**The application is told about the end once**, and why, in every session that ends without an
error that `work_cmd` finds.
-/
theorem disconnect_notified_once (config : Config) (task : Task) (inputs : List Input)
    (hend : (session config true task inputs).client.thread = false)
    (hlocal : ¬ LocalEnd (session config true task inputs).log) :
    Notified (session config true task inputs).log := by
  have hran := session_ran config true task inputs
  generalize session config true task inputs = s at hran hend hlocal ⊢
  have hacts : ∀ {s'}, Acts (sessionStart config true task) s' → Unfinished s' ∧
      s'.client.callback = true :=
    fun h => ⟨(Unfinished.start config true task).acts h, (acts_same h).2.2⟩
  cases hran with
  | running _ hthread _ => simp [hthread] at hend
  | terminated inp h htype =>
    obtain ⟨hs, hcallback⟩ := hacts h
    have hno := not_localEnd_of_begin hlocal (finish_log_grows inp .termination _)
    have hne := hs.reasons_ne_nil htype
    refine notified_of_finish hcallback (hs.not_told hno) ?_
    rw [List.getLast?_eq_some_getLast hne,
      hs.reason_eq hno _ (List.getLast_mem hne)]
  | broken inp h hbreak =>
    obtain ⟨hs, hcallback⟩ := hacts h
    have hno := not_localEnd_of_begin hlocal
      (hbreak.calls.log_grows.trans (finish_log_grows inp _ _))
    obtain ⟨e, hlog, hends, happ⟩ := hbreak.ends
    refine notified_of_finish (hbreak.calls.same.2.2.trans hcallback) ?_ ?_
    · intro r hmem
      rw [hlog, List.mem_append, List.mem_singleton] at hmem
      rcases hmem with hmem | rfl
      · exact hs.not_told hno r hmem
      · simp [Event.isApp] at happ
    · simp [hlog, reasons, hends]

theorem disconnect_notified_once_broken_off :
    (session .plain true .zero Input.brokenOff).client.thread = false ∧
      Notified (session .plain true .zero Input.brokenOff).log := by
  have hend : (session .plain true .zero Input.brokenOff).client.thread = false := by
    decide +kernel
  exact ⟨hend, disconnect_notified_once .plain .zero Input.brokenOff hend (by decide +kernel)⟩

/-- The server closes the session with a 421 reply. -/
def serverCloses : List Input := [.reply (ascii "421 bye\r\n"), .idle]

theorem Notified.reason_unique {log : List Event} (h : Notified log) {r r' : Reason}
    (hr : .callback (.disconnect r) ∈ log) (hr' : .callback (.disconnect r') ∈ log) : r = r' := by
  obtain ⟨pre, reason, post, rfl, hpre, hpost, -⟩ := h
  have honly : ∀ r, .callback (.disconnect r) ∈
      pre ++ .callback (.disconnect reason) :: post → r = reason := by
    intro r hmem
    simpa [hpre, hpost] using hmem
  rw [honly r hr, honly r' hr']

/-- **An error reply is reported twice**, and the second time with another reason. -/
theorem error_reply_notified_twice :
    (session .plain true .zero serverCloses).client.thread = false ∧
      .callback (.disconnect .responseErr) ∈ (session .plain true .zero serverCloses).log ∧
      .callback (.disconnect .termination) ∈ (session .plain true .zero serverCloses).log ∧
      ¬ Notified (session .plain true .zero serverCloses).log := by
  have h₁ : .callback (.disconnect .responseErr) ∈
      (session .plain true .zero serverCloses).log := by decide +kernel
  have h₂ : .callback (.disconnect .termination) ∈
      (session .plain true .zero serverCloses).log := by decide +kernel
  refine ⟨by decide +kernel, h₁, h₂, fun h => ?_⟩
  simpa using h.reason_unique h₁ h₂

end UniNet.Ftp
