import UniNet.Ftp.Moves
import UniNet.Ftp.Startup

/-!
# The order of the startup commands

`work_state_startup` sends the startup command with the number `task.progress`. A 220 reply sets
the number back to 0, a reply that completes a command moves it on, and the server may send
either at any time. What it sends, and how it cuts its replies into parts, does not matter here:
whatever it says, the number stays inside the table, and the commands come one after the other.

* `Sequence` — the last startup command, and what has come since, as the log tells it
* `startup_in_sequence` — every startup command has its turn
-/

namespace UniNet.Ftp

open Infra Relation

/-! ## The sequence in the log -/

/-- The place of a command in the table of the startup commands. -/
def startupIndex (text : Bytes) : Option Nat := startupCmds.idxOf? text

/-- The startup command that was sent last, and what has been said since. -/
structure Sequence where
  last : Option Nat
  /-- a 220 reply -/
  greeted : Bool
  /-- a 200, 202, 230 or 257 reply -/
  completed : Bool
  deriving DecidableEq

def Sequence.next (q : Sequence) : Event → Sequence
  | .line text =>
    match replyOf text with
    | .handled .h220 _ => { q with greeted := true }
    | .handled .h20x _ | .handled .h230 _ | .handled .h257 _ => { q with completed := true }
    | _ => q
  | .send _ text _ =>
    match startupIndex text with
    | some i => ⟨some i, false, false⟩
    | none => q
  | _ => q

def sequenceOf (log : List Event) : Sequence := log.foldl Sequence.next ⟨none, false, false⟩

/--
Command `i` has its turn: a reply asks for it. It is one of the first two, at the beginning and
behind a 220 reply, and otherwise the one behind the last.
-/
def Sequence.Turn (q : Sequence) (i : Nat) : Prop :=
  (q.greeted = true ∨ q.completed = true) ∧
    match q.last with
    | none => i = 0 ∨ i = 1
    | some j => if q.greeted then i = 0 ∨ i = 1 else i = j + 1

/--
What `work_state_startup` sends is in the table, and a startup command is only sent when it has
its turn.
-/
def InSequence (log : List Event) : Event → Prop
  | .send _ text _ =>
    (∀ state, log.getLast? = some (.workState .startup state) → startupIndex text ≠ none) ∧
      ∀ i, startupIndex text = some i → i < startupCmds.length ∧ (sequenceOf log).Turn i
  | _ => True

@[simp] theorem sequenceOf_concat (log : List Event) (e : Event) :
    sequenceOf (log ++ [e]) = (sequenceOf log).next e := by
  simp [sequenceOf]

/-- Neither a line nor a command. -/
def Event.isSilent : Event → Bool
  | .line _ | .send _ _ _ => false
  | _ => true

theorem sequenceOf_silent {log es : List Event} (h : ∀ e ∈ es, e.isSilent = true) :
    sequenceOf (log ++ es) = sequenceOf log := by
  unfold sequenceOf
  rw [List.foldl_append]
  refine foldl_unmoved (fun e he q => ?_) _
  have hsilent := h e he
  cases e <;> first | rfl | simp [Event.isSilent] at hsilent

theorem throughout_silent {log es : List Event} (h : ∀ e ∈ es, e.isSilent = true) :
    Throughout InSequence (log ++ es) ↔ Throughout InSequence log := by
  refine throughout_append fun pre e he => ?_
  have hsilent := h e he
  cases e <;> trivial

/-- Every startup command is found at its own place. -/
theorem startupIndex_getD :
    ∀ i < startupCmds.length, startupIndex (startupCmds.getD i []) = some i := by
  decide +kernel

/-- A short verb is not cut off. -/
theorem snprintf64_begin {verb : Bytes} (h : verb.length ≤ 63) (arg : Bytes) :
    verb <+: snprintf64 (verb ++ arg ++ crlf) := by
  rw [snprintf64, List.append_assoc, List.take_append, List.take_of_length_le h]
  exact List.prefix_append ..

/-- A command with another verb is no startup command. -/
theorem startupIndex_verb (verb arg : Bytes) (hlen : verb.length ≤ 63)
    (hverb : ∀ cmd ∈ startupCmds, ¬ verb <+: cmd) :
    startupIndex (snprintf64 (verb ++ arg ++ crlf)) = none := by
  rw [startupIndex, List.idxOf?_eq_none_iff]
  intro hmem
  exact hverb _ hmem (snprintf64_begin hlen arg)

theorem Looked.not_startup {s : Session} (h : Looked s) (htype : s.client.task.type.isTransfer)
    (state : TaskState) : s.log.getLast? ≠ some (.workState .startup state) := by
  obtain ⟨log, hlog⟩ := h
  rcases htype with ht | ht <;> simp [hlog, ht]

/-! ## The task keeps the pace -/

/-- The number that the next command is counted from. -/
def Sequence.base (q : Sequence) : Nat := if q.greeted then 0 else q.last.getD 0

/-- The task of the startup says what the log says. -/
structure Pace (task : Task) (q : Sequence) : Prop where
  progress : task.progress = q.base
  inside : task.progress < startupCmds.length
  ready : task.state = .notStarted → q.greeted = true
  completed : task.state = .finished → q.completed = true

/-- The startup is in step with the log, and so far it was in sequence. -/
structure Paced (s : Session) : Prop where
  startup : s.client.task.type = .startup → Pace s.client.task (sequenceOf s.log)
  order : Throughout InSequence s.log

/-- **A line moves the task and the sequence alike.** -/
theorem Pace.line {task : Task} {q : Sequence} (h : Pace task q) (htype : task.type = .startup)
    (text : Bytes) : Pace (replyTask task text) (q.next (.line text)) := by
  obtain ⟨hprogress, hinside, hready, hcompleted⟩ := h
  have hnone : replyTask task text = task → q.next (.line text) = q →
      Pace (replyTask task text) (q.next (.line text)) := by
    intro htask hseq
    rw [htask, hseq]
    exact ⟨hprogress, hinside, hready, hcompleted⟩
  have hfinished : replyTask task text = { task with state := .finished } →
      q.next (.line text) = { q with completed := true } →
      Pace (replyTask task text) (q.next (.line text)) := by
    intro htask hseq
    rw [htask, hseq]
    exact ⟨hprogress, hinside, by simp, fun _ => rfl⟩
  cases hreply : replyOf text with
  | wrongData => exact hnone (by simp [replyTask, hreply]) (by simp [Sequence.next, hreply])
  | wrongCmd => exact hnone (by simp [replyTask, hreply]) (by simp [Sequence.next, hreply])
  | handled handler payload =>
    cases handler with
    | h220 =>
      have htask : replyTask task text = { task with state := .notStarted, progress := 0 } := by
        simp [replyTask, hreply, htype]
      have hseq : q.next (.line text) = { q with greeted := true } := by
        simp [Sequence.next, hreply]
      rw [htask, hseq]
      exact ⟨by simp [Sequence.base], by simp [startupCmds], fun _ => rfl, by simp⟩
    | h20x => exact hfinished (by simp [replyTask, hreply]) (by simp [Sequence.next, hreply])
    | h230 => exact hfinished (by simp [replyTask, hreply]) (by simp [Sequence.next, hreply])
    | h257 => exact hfinished (by simp [replyTask, hreply]) (by simp [Sequence.next, hreply])
    | h150 =>
      simp only [replyTask, Sequence.next, hreply]
      exact ⟨hprogress, hinside, hready, hcompleted⟩
    | h227 =>
      simp only [replyTask, Sequence.next, hreply]
      exact ⟨hprogress, hinside, by simp, by simp⟩
    | h550 =>
      simp only [replyTask, Sequence.next, hreply]
      exact ⟨hprogress, hinside, by simp, by simp⟩
    | _ => exact hnone (by simp [replyTask, hreply]) (by simp [Sequence.next, hreply])

/-- **The next command has its turn.** -/
theorem Pace.turn {task : Task} {q : Sequence} (h : Pace task q) {i : Nat} (hi : task.Next i) :
    q.Turn i := by
  obtain ⟨hprogress, hinside, hready, hcompleted⟩ := h
  have hlen : startupCmds.length = 3 := rfl
  rcases hi with ⟨hstate, rfl⟩ | ⟨hstate, rfl⟩
  · refine ⟨Or.inr (hcompleted hstate), ?_⟩
    rw [u32_of_lt (by omega), hprogress, Sequence.base]
    split
    · next hlast => split <;> simp [hlast]
    · next j hlast => split <;> simp [hlast]
  · have hgreeted := hready hstate
    refine ⟨Or.inl hgreeted, ?_⟩
    rw [hprogress, Sequence.base, hgreeted]
    split <;> simp

namespace Paced

variable {s s' : Session}

/-- Nothing is said, and during startup the task stays. -/
theorem silent (h : Paced s) (es : List Event) (hlog : s'.log = s.log ++ es)
    (hes : ∀ e ∈ es, e.isSilent = true)
    (htask : s'.client.task.type = .startup → s'.client.task = s.client.task) : Paced s' := by
  constructor
  · intro ht
    have heq := htask ht
    rw [hlog, sequenceOf_silent hes, heq]
    exact h.startup (heq ▸ ht)
  · rw [hlog, throughout_silent hes]
    exact h.order

theorem event (h : Paced s) {e : Event} (he : e.isSilent = true) : Paced (s.emit e) :=
  h.silent [e] rfl (by simpa using he) fun _ => rfl

/-- A command that is none of the startup commands, and not sent by `work_state_startup`. -/
theorem other (h : Paced s) {sock : Option Socket} {text : Bytes} {result : Int}
    (hother : startupIndex text = none) (hlog : s'.log = s.log ++ [.send sock text result])
    (hlast : ∀ state, s.log.getLast? ≠ some (.workState .startup state))
    (htask : s'.client.task.type = .startup → s'.client.task = s.client.task) : Paced s' := by
  constructor
  · intro ht
    have heq := htask ht
    rw [hlog, sequenceOf_concat, Sequence.next, hother, heq]
    exact h.startup (heq ▸ ht)
  · rw [hlog, throughout_concat]
    refine ⟨h.order, fun state hstate => absurd hstate (hlast state), ?_⟩
    simp [hother]

theorem apiCall (h : Paced s) (inside : Option CallbackType) (call : ApiCall) :
    Paced (apiCall inside s call) := by
  rcases apiCall_cases inside s call with
    ⟨-, he⟩ | ⟨-, he⟩ | ⟨-, -, task, -, -, ht, -, -, -, he⟩
  · rw [he]
    exact (h.event rfl).silent [.setType .termination] rfl (by simp [Event.isSilent]) (by simp)
  · rw [he]
    exact h.event rfl
  · rw [he]
    refine h.silent [.api inside call, .setType task.type] (by simp) (by simp [Event.isSilent]) ?_
    intro hstartup
    rcases ht with ht | ht <;> simp [ht] at hstartup

/-- A command of the table is sent in its turn. -/
theorem send (h : Paced s) {i : Nat} (hi : i < startupCmds.length) {sock : Option Socket}
    {result : Int} (hturn : (sequenceOf s.log).Turn i)
    (hlog : s'.log = s.log ++ [.send sock (startupCmds.getD i []) result])
    (hprogress : s'.client.task.progress = i) (hstate : s'.client.task.state = .inProgress) :
    Paced s' := by
  have hindex := startupIndex_getD i hi
  constructor
  · intro _
    rw [hlog, sequenceOf_concat, Sequence.next, hindex]
    exact ⟨hprogress, hprogress ▸ hi, by simp [hstate], by simp [hstate]⟩
  · rw [hlog, throughout_concat]
    refine ⟨h.order, fun _ _ => hindex ▸ Option.some_ne_none i, ?_⟩
    intro j hj
    obtain rfl := Option.some.inj (hindex.symm.trans hj)
    exact ⟨hi, hturn⟩

/-- **The next startup command has its turn.** -/
theorem workStateStartup (h : Paced s) (inp : Input) (htype : s.client.task.type = .startup) :
    Paced (workStateStartup inp s) := by
  rcases workStateStartup_cases inp htype with he | ⟨task, ht, he⟩ |
    ⟨i, task, hi, hnext, -, hprogress, hstate, he⟩
  · rw [he]
    exact h
  · rw [he]
    exact h.silent [.setType .idle] rfl (by simp [Event.isSilent]) (by simp [ht])
  · rw [he]
    exact h.send hi ((h.startup htype).turn hnext) rfl hprogress hstate

/-- Data comes when the startup is over. -/
theorem slice (h : Paced s) (inp : Input) {data : Bytes}
    (htype : s.client.task.type.isTransfer ∨ s.client.task.type = .termination) :
    Paced (recvSlice inp data (s.emit (.recvData s.client.socketData data))) := by
  obtain ⟨es, task, hes, ht, -, -, hrun⟩ := slice_spec inp data htype
  rw [hrun]
  refine h.silent (.recvData s.client.socketData data ::
    (es ++ [.release s.client.socketData data])) rfl ?_ ?_
  · have hsilent : ∀ e ∈ es, e.isSilent = true := hes.forall_mem rfl fun e he => by
      cases e <;> first | rfl | simp [Event.isAsk] at he
    simpa [Event.isSilent, or_imp, forall_and] using hsilent
  · intro hs
    rcases ht with ht | ht
    · rcases htype with (ht' | ht') | ht' <;> simp [ht, ht'] at hs
    · simp [ht] at hs

theorem move (h : Paced s) (hm : Move s s') : Paced s' := by
  have hstartup : s.client.task.type.isTransfer → s.client.task.type ≠ .startup := by
    rintro (ht | ht) <;> simp [ht]
  cases hm with
  | plain hp =>
    obtain ⟨htask, -, -, es, hlog, hes⟩ := hp
    refine h.silent es hlog (fun e he => ?_) fun _ => htask
    have hplain := hes e he
    cases e <;> first | rfl | simp [Event.isPlain] at hplain
  | api inside _ call => exact h.apiCall inside call
  | notify _ => exact h.event rfl
  | terminate => exact h.silent [.setType .termination] rfl (by simp [Event.isSilent]) (by simp)
  | line _ text =>
    constructor
    · intro ht
      rw [replied_client, replyTask_type] at ht
      rw [replied_log, sequenceOf_concat]
      exact (h.startup ht).line ht text
    · rw [replied_log, throughout_concat]
      exact ⟨h.order, trivial⟩
  | password inp _ hline =>
    obtain ⟨log, text, payload, hlog, -⟩ := hline
    have htext := startupIndex_verb (ascii "PASS ") s.client.config.authPassword.bytes (by decide)
      (by decide +kernel)
    exact h.other htext rfl (by simp [hlog]) fun _ => rfl
  | login inp _ hline =>
    obtain ⟨log, text, payload, hlog, -⟩ := hline
    have htext := startupIndex_verb (ascii "USER ") s.client.config.authUser.bytes (by decide)
      (by decide +kernel)
    exact h.other htext rfl (by simp [hlog]) fun _ => rfl
  | nothing => exact h.event rfl
  | slice inp _ _ htype => exact h.slice inp htype
  | look => exact h.event rfl
  | startup inp _ htype _ => exact h.workStateStartup inp htype
  | passive inp _ htype _ hlook =>
    have htext : startupIndex (ascii "PASV\r\n") = none := by decide +kernel
    exact h.other htext rfl (hlook.not_startup htype) (fun ht => absurd ht (hstartup htype))
  | retr inp _ htype _ hlook =>
    have htext := startupIndex_verb (ascii "RETR ") s.client.task.name.bytes (by decide)
      (by decide +kernel)
    exact h.other htext rfl (hlook.not_startup (Or.inl htype))
      (fun ht => absurd ht (hstartup (Or.inl htype)))
  | list inp _ htype _ hlook =>
    have htext : startupIndex (ascii "LIST\r\n") = none := by decide +kernel
    exact h.other htext rfl (hlook.not_startup (Or.inr htype))
      (fun ht => absurd ht (hstartup (Or.inr htype)))
  | idle _ hdata =>
    refine h.silent [.setType .idle] ?_ (by simp [Event.isSilent]) (by simp [setToIdle_client])
    rw [setToIdle_log, closeSocket_none .data hdata]

end Paced

/-- **Every startup command has its turn**, whatever the server says and however it is cut. -/
theorem startup_in_sequence (config : Config) (hasCallback : Bool) (task : Task)
    (inputs : List Input) :
    Throughout InSequence (session config hasCallback task inputs).log := by
  have hpaced : Paced (session config hasCallback task inputs) := by
    refine moves_inv (fun hm h => h.move hm) (session_moves config hasCallback task inputs) ?_
    constructor
    · intro _
      exact ⟨rfl, by simp [sessionStart, threadStart, startupCmds], by simp [sessionStart,
        threadStart], by simp [sessionStart, threadStart]⟩
    · rw [sessionStart_log]
      exact ⟨trivial, trivial, trivial⟩
  exact hpaced.order

/-- A greeting that comes with a completion skips the first command, and another one goes back. -/
example : (sent (session .plain true .zero [.reply (ascii "220 a\r\n200 b\r\n"),
    .reply (ascii "200 c\r\n"), .reply (ascii "220 d\r\n")]).log).filterMap startupIndex
      = [1, 2, 0] := by
  decide +kernel

end UniNet.Ftp
