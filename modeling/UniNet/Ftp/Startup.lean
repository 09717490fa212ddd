import UniNet.Ftp.Replies
import UniNet.Infra.History

/-!
# The startup sequence

The client sends the startup commands one by one, the next one when a reply has set the task to
`FINISHED`. With a server that answers every command with one line, the reply that does so is
the answer to the command, as long as the server takes the commands. The reply to a password
sets the task to `FINISHED` too, and then completes a command that was refused.

* `Lockstep` — the commands that were sent and the replies that came, side by side
* `startup_completes` — nothing else begins before every startup command was accepted
-/

namespace UniNet.Ftp

open Infra Relation

/-! ## The server -/

/-- A reply of one line with this code. -/
def HasCode (code : String) (text : Bytes) : Prop := ascii code ++ [32] <+: text

instance (code : String) (text : Bytes) : Decidable (HasCode code text) :=
  inferInstanceAs (Decidable (_ <+: _))

/-- A positive completion. -/
def Positive (text : Bytes) : Prop := HasCode "200" text ∨ HasCode "202" text ∨ HasCode "257" text

instance (text : Bytes) : Decidable (Positive text) := inferInstanceAs (Decidable (_ ∨ _))

/-- What a server says: a greeting, and one line for every command it gets. -/
structure Server where
  greeting : Bytes
  answers : List Bytes
  lines : ∀ line ∈ greeting :: answers, ReplyLine line
  ready : HasCode "220" greeting

/-- All that a server has said once it has got `n` commands. -/
def Server.said (server : Server) (n : Nat) : List Bytes :=
  server.greeting :: server.answers.take n

/--
How a server answers a command: it asks for a password, it lets the user in, it carries out the
command, or it refuses the command because no user is logged in.
-/
def Legal (loggedIn : Bool) (cmd reply : Bytes) : Prop :=
  if ascii "USER " <+: cmd then HasCode "331" reply
  else if ascii "PASS " <+: cmd then HasCode "230" reply
  else Positive reply ∨ (loggedIn = false ∧ HasCode "530" reply)

instance (loggedIn : Bool) (cmd reply : Bytes) : Decidable (Legal loggedIn cmd reply) :=
  inferInstanceAs (Decidable (if ascii "USER " <+: cmd then HasCode "331" reply
    else if ascii "PASS " <+: cmd then HasCode "230" reply
    else Positive reply ∨ (loggedIn = false ∧ HasCode "530" reply)))

/-- A server answers these commands with these replies, one after the other. -/
def LegalRun (loggedIn : Bool) : List (Bytes × Bytes) → Prop
  | [] => True
  | (cmd, reply) :: rest =>
    Legal loggedIn cmd reply ∧ LegalRun (loggedIn || decide (ascii "PASS " <+: cmd)) rest

instance LegalRun.decidable : ∀ (loggedIn : Bool) (run : List (Bytes × Bytes)),
    Decidable (LegalRun loggedIn run)
  | _, [] => isTrue trivial
  | loggedIn, (cmd, reply) :: rest =>
    have := LegalRun.decidable (loggedIn || decide (ascii "PASS " <+: cmd)) rest
    inferInstanceAs (Decidable (Legal loggedIn cmd reply ∧
      LegalRun (loggedIn || decide (ascii "PASS " <+: cmd)) rest))

/-- A command that is handed over to the stack as a whole. -/
@[simp] def Event.command : Event → Option Bytes
  | .send _ text result => if result = text.length then some text else none
  | _ => none

/-- The text of a command. -/
@[simp] def Event.sentText : Event → Option Bytes
  | .send _ text _ => some text
  | _ => none

/-- The commands that the server gets. -/
def commands (log : List Event) : List Bytes := log.filterMap Event.command

/-- The commands that were sent, or should have been. -/
def sent (log : List Event) : List Bytes := log.filterMap Event.sentText

/-- The control connection leads to a server: replies come after their commands, in order. -/
structure Served (server : Server) (log : List Event) : Prop where
  fed : ∀ pre, pre <+: log → (parts pre).flatten <+: wire (server.said (commands pre).length)
  legal : LegalRun false ((commands log).zip server.answers)

/-- The commands with the replies that have come. -/
def exchanges (server : Server) (log : List Event) : List (Bytes × Bytes) :=
  (commands log).zip (server.answers.take ((passed log).length - 1))

/-- Every startup command was sent and accepted. -/
def StartupAccepted (server : Server) (log : List Event) : Prop :=
  ∀ cmd ∈ startupCmds, ∃ x ∈ exchanges server log, x.1 = cmd ∧ Positive x.2

/-- The client becomes idle, or begins a transfer, only behind the startup commands. -/
def StartupFirst (server : Server) (log : List Event) (e : Event) : Prop :=
  ∀ type ∈ [TaskType.idle, .retr, .list], e = .setType type → StartupAccepted server log

instance (server : Server) (log : List Event) : Decidable (StartupAccepted server log) :=
  inferInstanceAs (Decidable (∀ cmd ∈ startupCmds, _))

instance (server : Server) (log : List Event) (e : Event) :
    Decidable (StartupFirst server log e) :=
  inferInstanceAs (Decidable (∀ type ∈ _, _))

/-! ### How the client reads the replies -/

theorem replyOf_hasCode (row : Int × Handler) {code : String} {text : Bytes}
    (h : HasCode code text) (hlen : (ascii code).length = 3)
    (hrow : cmdMap.find? (fun row => row.1 = strtolValue (ascii code)) = some row) :
    replyOf text = .handled row.2 (text.drop 4) := by
  obtain ⟨rest, rfl⟩ := h
  rw [List.append_assoc, List.singleton_append]
  have hsep : byteAt (ascii code ++ 32 :: rest) 3 = 32 := by simp [byteAt, ← hlen]
  have hcode : (ascii code ++ 32 :: rest).take 3 = ascii code := by simp [← hlen]
  unfold replyOf
  rw [if_neg (by simp [hsep, hlen]; omega), hcode, hrow]

theorem Positive.replyOf {text : Bytes} (h : Positive text) : ∃ payload,
    replyOf text = .handled .h20x payload ∨ replyOf text = .handled .h257 payload := by
  rcases h with h | h | h
  · exact ⟨_, Or.inl (replyOf_hasCode (200, .h20x) h (by decide) (by decide))⟩
  · exact ⟨_, Or.inl (replyOf_hasCode (202, .h20x) h (by decide) (by decide))⟩
  · exact ⟨_, Or.inr (replyOf_hasCode (257, .h257) h (by decide) (by decide))⟩

theorem Positive.replyTask {text : Bytes} (h : Positive text) (task : Task) :
    replyTask task text = { task with state := .finished } := by
  obtain ⟨payload, h | h⟩ := h.replyOf <;> simp [Ftp.replyTask, h]

/-! ### Logs that grow -/

@[simp] theorem commands_append (l m : List Event) :
    commands (l ++ m) = commands l ++ commands m :=
  List.filterMap_append

@[simp] theorem sent_append (l m : List Event) : sent (l ++ m) = sent l ++ sent m :=
  List.filterMap_append

@[simp] theorem commands_cons (e : Event) (l : List Event) :
    commands (e :: l) = e.command.toList ++ commands l := by
  unfold commands
  rw [List.filterMap_cons]
  cases e.command <;> rfl

@[simp] theorem sent_cons (e : Event) (l : List Event) :
    sent (e :: l) = e.sentText.toList ++ sent l := by
  unfold sent
  rw [List.filterMap_cons]
  cases e.sentText <;> rfl

@[simp] theorem commands_nil : commands [] = [] := rfl

@[simp] theorem sent_nil : sent [] = [] := rfl

/-- Every command that the server gets was sent. -/
theorem commands_sublist (log : List Event) : (commands log).Sublist (sent log) := by
  unfold commands sent
  induction log with
  | nil => exact List.Sublist.slnil
  | cons e log ih =>
    cases e with
    | send sock text result =>
      by_cases h : result = text.length
      · simpa [h] using ih
      · simpa [h] using ih.cons _
    | _ => exact ih

theorem StartupAccepted.mono {server : Server} {log log' : List Event}
    (h : StartupAccepted server log) (hp : log <+: log') : StartupAccepted server log' := by
  obtain ⟨es, rfl⟩ := hp
  intro cmd hcmd
  obtain ⟨x, hx, hfst, hpos⟩ := h cmd hcmd
  refine ⟨x, ?_, hfst, hpos⟩
  refine (zip_begin ?_ ?_).subset hx
  · rw [commands_append]
    exact List.prefix_append ..
  · rw [passed_append, List.length_append]
    exact List.take_prefix_take_left (by omega)

/-- Once the startup commands are accepted, everything may begin. -/
theorem StartupAccepted.throughout {server : Server} {log log' : List Event}
    (h : StartupAccepted server log) (hfirst : Throughout (StartupFirst server) log)
    (hp : log <+: log') : Throughout (StartupFirst server) log' := by
  obtain ⟨es, rfl⟩ := hp
  exact hfirst.more fun _ _ _ _ _ _ _ => h.mono (List.prefix_append ..)

/-- A run in which the server takes every startup command, and no line is cut apart. -/
structure Accepting (server : Server) (log : List Event) : Prop where
  served : Served server log
  cut : WellCut (server.greeting :: server.answers) (parts log)
  accepts : ∀ x ∈ (commands log).zip server.answers, x.1 ∈ startupCmds → ¬ HasCode "530" x.2

theorem LegalRun.of_begin {loggedIn : Bool} {run run' : List (Bytes × Bytes)}
    (h : LegalRun loggedIn run') (hp : run <+: run') : LegalRun loggedIn run := by
  induction run generalizing loggedIn run' with
  | nil => trivial
  | cons x run ih =>
    obtain ⟨rest, rfl⟩ := hp
    exact ⟨h.1, ih h.2 (List.prefix_append ..)⟩

theorem LegalRun.mem {loggedIn : Bool} {run : List (Bytes × Bytes)} (h : LegalRun loggedIn run)
    {x : Bytes × Bytes} (hx : x ∈ run) : ∃ loggedIn, Legal loggedIn x.1 x.2 := by
  induction run generalizing loggedIn with
  | nil => simp at hx
  | cons y run ih =>
    rcases List.mem_cons.mp hx with rfl | hx
    · exact ⟨_, h.1⟩
    · exact ih h.2 hx

namespace Accepting

variable {server : Server} {log log' : List Event}

theorem of_begin (h : Accepting server log') (hp : log <+: log') : Accepting server log := by
  have hzip : (commands log).zip server.answers <+: (commands log').zip server.answers := by
    obtain ⟨es, rfl⟩ := hp
    refine zip_begin ?_ (List.prefix_refl _)
    rw [commands_append]
    exact List.prefix_append ..
  refine ⟨⟨fun pre hpre => h.served.fed pre (hpre.trans hp), h.served.legal.of_begin hzip⟩, ?_,
    fun x hx => h.accepts x (hzip.subset hx)⟩
  intro first hfirst
  refine h.cut first (hfirst.trans ?_)
  obtain ⟨es, rfl⟩ := hp
  rw [parts_append]
  exact List.prefix_append ..

/-- The answer to a startup command is a positive completion. -/
theorem positive (h : Accepting server log) {x : Bytes × Bytes}
    (hx : x ∈ (commands log).zip server.answers) (hcmd : x.1 ∈ startupCmds) : Positive x.2 := by
  obtain ⟨loggedIn, hlegal⟩ := h.served.legal.mem hx
  have hother : ¬ ascii "USER " <+: x.1 ∧ ¬ ascii "PASS " <+: x.1 := by
    generalize x.1 = cmd at hcmd
    revert cmd
    decide
  rw [Legal, if_neg hother.1, if_neg hother.2] at hlegal
  exact hlegal.resolve_right fun hno => h.accepts x hx hcmd hno.2

/-- **What is passed on are the first lines of what the server has said.** -/
theorem passed_prefix (h : Accepting server log) (hheard : Heard log) :
    passed log <+: server.said (commands log).length := by
  have hsaid : server.said (commands log).length <+: server.greeting :: server.answers := by
    rw [Server.said, List.cons_prefix_cons]
    exact ⟨rfl, List.take_prefix _ _⟩
  have hfed := h.served.fed log (List.prefix_refl _)
  have hstream : (parts log).flatten <+: wire (server.greeting :: server.answers) := by
    obtain ⟨rest, hrest⟩ := hsaid
    rw [← hrest, wire_append]
    exact hfed.trans (List.prefix_append ..)
  have hl : ∀ line ∈ server.greeting :: server.answers, OneLine line ∧ line ≠ [] :=
    fun line hm => ⟨(server.lines line hm).oneLine, (server.lines line hm).nonempty⟩
  have htexts : textsOf (parts log) = lineTexts (parts log).flatten := by
    rw [textsOf_eq server.lines hstream, lineTexts_parts hl hstream h.cut]
  have hpre := hheard.passed_prefix
  rw [htexts] at hpre
  refine List.prefix_of_prefix_length_le (hpre.trans ?_) hsaid ?_
  · exact (atLineEnd_iff hl hstream).mp (h.cut _ (List.prefix_refl _))
  · have hlen := length_lineTexts_le (fun line hm => hl line (hsaid.subset hm)) hfed
    exact hpre.length_le.trans hlen

end Accepting

/-! ## Commands and replies, side by side -/

/-- Where the startup stands, with what was sent and what was passed on. -/
inductive Lockstep (task : Task) (sent passed : List Bytes) : Prop
  /-- for the greeting -/
  | waiting (hstate : task.state = .inProgress) (hprogress : task.progress = 0)
      (hsent : sent = []) (hpassed : passed = [])
  /-- the next command can be sent -/
  | ready (hstate : task.state = .notStarted) (hprogress : task.progress ≤ startupCmds.length)
      (hsent : sent = startupCmds.take task.progress)
      (hpassed : passed.length = task.progress + 1)
  /-- a command is sent, and its reply has not come -/
  | asked (hstate : task.state = .inProgress) (hprogress : task.progress < startupCmds.length)
      (hsent : sent = startupCmds.take (task.progress + 1))
      (hpassed : passed.length = task.progress + 1)
  /-- the reply has come -/
  | answered (hstate : task.state = .finished) (hprogress : task.progress < startupCmds.length)
      (hsent : sent = startupCmds.take (task.progress + 1))
      (hpassed : passed.length = task.progress + 2)

/-- The client and the server are in step. -/
structure InStep (server : Server) (s : Session) : Prop where
  startup : s.client.task.type = .startup → Lockstep s.client.task (sent s.log) (passed s.log)
  behind : s.client.task.type ≠ .startup → s.client.task.type ≠ .termination →
    StartupAccepted server s.log
  first : Throughout (StartupFirst server) s.log

namespace InStep

variable {server : Server} {s s' : Session}

/-- The type stays, and during startup everything else does, too. -/
theorem extend (h : InStep server s) (es : List Event)
    (htype : s'.client.task.type = s.client.task.type)
    (hstep : s.client.task.type = .startup → s'.client.task = s.client.task ∧
      sent s'.log = sent s.log ∧ passed s'.log = passed s.log)
    (hlog : s'.log = s.log ++ es) (hes : ∀ log, ∀ e ∈ es, StartupFirst server log e) :
    InStep server s' := by
  constructor
  · intro hs
    rw [htype] at hs
    obtain ⟨h1, h2, h3⟩ := hstep hs
    rw [h1, h2, h3]
    exact h.startup hs
  · rw [htype, hlog]
    exact fun h1 h2 => (h.behind h1 h2).mono (List.prefix_append ..)
  · rw [hlog, throughout_append hes]
    exact h.first

/-- Behind the startup nothing can go wrong any more. -/
theorem later (h : InStep server s) (hacc : StartupAccepted server s.log)
    (hp : s.log <+: s'.log) (htype : s'.client.task.type ≠ .startup) : InStep server s' :=
  ⟨fun hs => absurd hs htype, fun _ _ => hacc.mono hp, hacc.throughout h.first hp⟩

theorem stop (h : InStep server s) (htype : s'.client.task.type = .termination)
    (hlog : s'.log = s.log ++ [.setType .termination]) : InStep server s' := by
  refine ⟨by simp [htype], by simp [htype], ?_⟩
  rw [hlog, throughout_concat]
  exact ⟨h.first, by simp [StartupFirst]⟩

/-- An event that is neither a command nor a reply. -/
theorem event (h : InStep server s) {e : Event} (htask : s'.client.task = s.client.task)
    (hsent : e.sentText = none) (hline : e.lineText = none) (hlog : s'.log = s.log ++ [e])
    (hfirst : ∀ log, StartupFirst server log e) : InStep server s' := by
  refine h.extend [e] (by rw [htask]) (fun _ => ⟨htask, ?_, ?_⟩) hlog (by simpa using hfirst)
  · rw [hlog, sent_append, sent_cons, hsent]
    simp
  · rw [hlog, passed_append, passed_cons, hline]
    simp

theorem calls (h : InStep server s) (hc : Calls s s') : InStep server s' := by
  have hsent : ∀ e : Event, e.isCall = true → e.sentText = none := by
    rintro (_ | _) <;> simp [Event.isCall]
  have hline : ∀ e : Event, e.isCall = true → e.lineText = none := by
    rintro (_ | _) <;> simp [Event.isCall]
  obtain ⟨es, hlog, hes⟩ := hc.log
  refine h.extend es (by rw [hc.task]) (fun _ => ⟨hc.task, ?_, ?_⟩) hlog ?_
  · exact hc.filterMap_eq hsent
  · exact hc.filterMap_eq hline
  · rintro log e he type - rfl
    simpa [Event.isCall] using hes _ he

theorem apiCall (h : InStep server s) (inside : Option CallbackType) (call : ApiCall) :
    InStep server (apiCall inside s call) := by
  have hasked : InStep server (s.emit (.api inside call)) :=
    h.event rfl rfl rfl rfl (by simp [StartupFirst])
  rcases apiCall_cases inside s call with
    ⟨-, he⟩ | ⟨-, he⟩ | ⟨-, hidle, task, -, -, ht, -, -, -, he⟩
  · rw [he]
    exact hasked.stop rfl rfl
  · rw [he]
    exact hasked
  · rw [he]
    refine h.later (h.behind (by simp [hidle]) (by simp [hidle])) ⟨_, by simp; rfl⟩ ?_
    rcases ht with ht | ht <;> simp [ht]

theorem callback (h : InStep server s) (inp : Input) (call : Callback) :
    InStep server (callback inp s call) :=
  callback_inv h (h.event rfl rfl rfl rfl (by simp [StartupFirst])) fun _ c hs => hs.apiCall _ c

/-- The commands are sent when as many replies have come. -/
theorem commands_eq {log : List Event} (hco : Accepting server log) (hheard : Heard log) {n : Nat}
    (hsent : sent log = startupCmds.take n) (hn : n ≤ startupCmds.length)
    (hpassed : n + 1 ≤ (passed log).length) : commands log = startupCmds.take n := by
  rw [← hsent]
  refine (commands_sublist log).eq_of_length_le ?_
  have hlen := (hco.passed_prefix hheard).length_le
  simp only [Server.said, List.length_cons, List.length_take] at hlen
  rw [hsent, List.length_take]
  omega

/-- **The startup commands are accepted** when the last reply has come. -/
theorem accepted (h : InStep server s) (hco : Accepting server s.log) (hheard : Heard s.log)
    (htype : s.client.task.type = .startup)
    (hdone : startupCmds.length ≤ s.client.task.progress) : StartupAccepted server s.log := by
  cases h.startup htype with
  | waiting _ hprogress _ _ => simp [hprogress, startupCmds] at hdone
  | asked _ hprogress _ _ => omega
  | answered _ hprogress _ _ => omega
  | ready _ hprogress hsent hpassed =>
    have hcmds := commands_eq hco hheard hsent hprogress hpassed.ge
    rw [List.take_of_length_le hdone] at hcmds
    have hlen := (hco.passed_prefix hheard).length_le
    simp only [Server.said, List.length_cons, List.length_take] at hlen
    intro cmd hcmd
    have hfst : (exchanges server s.log).map Prod.fst = commands s.log := by
      refine List.map_fst_zip ?_
      rw [List.length_take, hcmds]
      omega
    rw [← hcmds, ← hfst] at hcmd
    obtain ⟨x, hx, rfl⟩ := List.mem_map.mp hcmd
    have hzip := (zip_begin (List.prefix_refl (commands s.log)) (List.take_prefix _ _)).subset hx
    exact ⟨x, hx, rfl, hco.positive hzip (hcmds ▸ (List.of_mem_zip hx).1)⟩

/-- During startup nothing but startup commands is sent. -/
theorem sent_subset (h : InStep server s) (htype : s.client.task.type = .startup) :
    sent s.log ⊆ startupCmds := by
  cases h.startup htype with
  | waiting _ _ hsent _ => simp [hsent]
  | ready _ _ hsent _ => exact hsent ▸ List.take_subset ..
  | asked _ _ hsent _ => exact hsent ▸ List.take_subset ..
  | answered _ _ hsent _ => exact hsent ▸ List.take_subset ..

/-- During startup no user name or password is sent. -/
theorem no_login (h : InStep server s) (hco : Accepting server s.log) (hheard : Heard s.log)
    (htype : s.client.task.type = .startup) {text : Bytes} (htext : text ∈ passed s.log)
    (payload : Bytes) :
    replyOf text ≠ .handled .h331 payload ∧ replyOf text ≠ .handled .h530 payload := by
  have hmem := (hco.passed_prefix hheard).subset htext
  rcases List.mem_cons.mp hmem with rfl | hmem
  · rw [replyOf_hasCode (220, .h220) server.ready (by decide) (by decide)]
    simp
  · have hsnd : ((commands s.log).zip (server.answers.take (commands s.log).length)).map Prod.snd
        = server.answers.take (commands s.log).length :=
      List.map_snd_zip (List.length_take_le ..)
    rw [← hsnd] at hmem
    obtain ⟨x, hx, rfl⟩ := List.mem_map.mp hmem
    have hzip := (zip_begin (List.prefix_refl (commands s.log)) (List.take_prefix _ _)).subset hx
    have hcmd := h.sent_subset htype ((commands_sublist s.log).subset (List.of_mem_zip hx).1)
    obtain ⟨payload, hpos | hpos⟩ := (hco.positive hzip hcmd).replyOf <;> simp [hpos]

/-- A move inside the startup. -/
theorem move (h : InStep server s) (task : Task) (es : List Event)
    (hlock : Lockstep task (sent s.log ++ sent es) (passed s.log ++ passed es))
    (htask : s'.client.task = task) (htype : task.type = .startup) (hlog : s'.log = s.log ++ es)
    (hes : ∀ log, ∀ e ∈ es, StartupFirst server log e) : InStep server s' := by
  constructor
  · rw [htask, hlog, sent_append, passed_append]
    exact fun _ => hlock
  · rw [htask, htype]
    exact fun h => absurd rfl h
  · rw [hlog, throughout_append hes]
    exact h.first

/-- **A line during startup is the greeting, or the answer to the command.** -/
theorem reply (h : InStep server s) {text : Bytes} (hco : Accepting server (replied s text).log)
    (hheard : Heard (replied s text).log) (htype : s.client.task.type = .startup) :
    InStep server (replied s text) := by
  have hpre := hco.passed_prefix hheard
  have hco' : Accepting server s.log := hco.of_begin ⟨_, rfl⟩
  simp only [replied_log, passed_append, passed_cons, passed_nil, Event.lineText, Option.toList,
    List.append_nil, commands_append, commands_cons, commands_nil, Event.command] at hpre
  have hlen := hpre.length_le
  have hsub := (commands_sublist s.log).length_le
  simp only [Server.said, List.length_append, List.length_cons, List.length_nil,
    List.length_take] at hlen
  have hmove : Lockstep (replyTask s.client.task text) (sent s.log) (passed s.log ++ [text]) →
      InStep server (replied s text) := by
    intro hlock
    refine h.move _ [.line text] ?_ rfl (by simp [htype]) rfl (by simp [StartupFirst])
    simpa using hlock
  cases h.startup htype with
  | waiting hstate hprogress hsent hpassed =>
    rw [hpassed, List.nil_append, Server.said, List.cons_prefix_cons] at hpre
    have htask : replyTask s.client.task text
        = { s.client.task with state := .notStarted, progress := 0 } := by
      have hreply := replyOf_hasCode (220, .h220) server.ready (by decide) (by decide)
      rw [hpre.1]
      simp [replyTask, hreply, htype]
    refine hmove (.ready ?_ ?_ ?_ ?_) <;> simp [htask, hsent, hpassed]
  | ready _ _ hsent hpassed =>
    -- every reply has come already
    rw [hsent, List.length_take] at hsub
    omega
  | answered _ _ hsent hpassed =>
    rw [hsent, List.length_take] at hsub
    omega
  | asked hstate hprogress hsent hpassed =>
    have hcmds : commands s.log = startupCmds.take (s.client.task.progress + 1) := by
      rw [← hsent]
      refine (commands_sublist s.log).eq_of_length_le ?_
      rw [hsent, List.length_take]
      omega
    have hanswer : server.answers[s.client.task.progress]? = some text := by
      obtain ⟨rest, hrest⟩ := hpre
      have hget := congrArg (·[(passed s.log).length]?) hrest
      simp only [List.append_assoc, List.singleton_append, List.getElem?_append_right, le_refl,
        Nat.sub_self, List.getElem?_cons_zero, Server.said, hpassed, List.getElem?_cons_succ,
        List.getElem?_take] at hget
      split at hget
      · exact hget.symm
      · simp at hget
    have hpos : Positive text := by
      refine hco'.positive (x := (startupCmds[s.client.task.progress], text)) ?_
        (List.getElem_mem hprogress)
      refine List.mem_of_getElem? (i := s.client.task.progress) ?_
      rw [List.getElem?_zip_eq_some]
      refine ⟨?_, hanswer⟩
      rw [hcmds, List.getElem?_take_of_lt (by omega), List.getElem?_eq_getElem hprogress]
    refine hmove (.answered ?_ ?_ ?_ ?_)
    · rw [hpos.replyTask]
    · rw [hpos.replyTask]
      exact hprogress
    · rw [hpos.replyTask]
      exact hsent
    · rw [hpos.replyTask]
      simp [hpassed]

/-- The data connection does not care about the startup. -/
theorem slice (h : InStep server s) (inp : Input) (data : Bytes)
    (hstartup : s.client.task.type ≠ .startup) (hidle : s.client.task.type ≠ .idle) :
    InStep server (recvSlice inp data s) := by
  unfold recvSlice
  dsimp only
  generalize hs : (if s.client.task.state = .started then s.setState .inProgress else s) = s₁
  have h₁ : InStep server s₁ ∧ s₁.client.task.type = s.client.task.type := by
    rw [← hs]
    split
    · exact ⟨h.extend [] rfl (fun ht => absurd ht hstartup) (by simp) (by simp), rfl⟩
    · exact ⟨h, rfl⟩
  obtain ⟨h₁, htype₁⟩ := h₁
  have h₂ := h₁.callback inp (.recv data)
  have htype₂ : (Ftp.callback inp s₁ (.recv data)).client.task.type ≠ .startup := by
    rcases callback_client inp (.recv data) (htype₁ ▸ hidle) with hc | ⟨hc, -⟩
    · rw [hc, htype₁]
      exact hstartup
    · simp [hc]
  generalize Ftp.callback inp s₁ (.recv data) = s₂ at h₂ htype₂
  exact h₂.extend [.release s₂.client.socketData data] rfl (fun ht => absurd ht htype₂) rfl
    (by simp [StartupFirst])

theorem act (h : InStep server s) (ha : Act s s') (hco : Accepting server s'.log)
    (hheard : Heard s.log) : InStep server s' := by
  have hco' := hco.of_begin ha.log_grows
  have hlater : s.client.task.type.isTransfer → s'.client.task.type ≠ .startup →
      InStep server s' := by
    intro htr hs'
    refine h.later (h.behind ?_ ?_) ha.log_grows hs'
    · rcases htr with htr | htr <;> simp [htr]
    · rcases htr with htr | htr <;> simp [htr]
  cases ha with
  | @note _ e hn =>
    cases e with
    | line _ => exact hn.elim
    | setType _ => exact hn.elim
    | send sock text result =>
      obtain ⟨-, reply, hreply, payload, hcode⟩ := hn
      refine h.extend [.send sock text result] rfl (fun htype => ?_) rfl (by simp [StartupFirst])
      obtain ⟨h331, h530⟩ := h.no_login hco' hheard htype hreply payload
      exact (hcode.elim h331 h530).elim
    | _ => exact h.event rfl rfl rfl rfl (by simp [StartupFirst])
  | api _ call => exact h.apiCall none call
  | createSet inp => exact h.calls (calls_createSet inp s)
  | createCmd inp _ _ _ _ => exact h.calls (calls_createSocket inp .cmd s)
  | createData inp _ => exact h.calls (calls_createSocket inp .data s)
  | closeData => exact h.calls (calls_closeSocket .data s)
  | closeCmd _ => exact h.calls (calls_closeSocket .cmd s)
  | deleteSet _ _ => exact h.calls (calls_deleteSet s)
  | notify inp _ _ => exact h.callback inp _
  | terminate _ => exact h.stop rfl rfl
  | @reply _ text hnext hlive =>
    by_cases htype : s.client.task.type = .startup
    · exact h.reply hco (hheard.act (.reply s hnext hlive)) htype
    · exact h.extend [.line text] (by simp) (fun ht => absurd ht htype) rfl (by simp [StartupFirst])
  | slice inp _ _ _ htype =>
    refine h.slice inp _ ?_ ?_
    · rcases htype with (ht | ht) | ht <;> simp [ht]
    · rcases htype with (ht | ht) | ht <;> simp [ht]
  | startupNext _ htype hstate =>
    cases h.startup htype with
    | waiting hs _ _ _ => simp [hs] at hstate
    | ready hs _ _ _ => simp [hs] at hstate
    | asked hs _ _ _ => simp [hs] at hstate
    | answered _ hprogress hsent hpassed =>
      have hnext : u32 (s.client.task.progress + 1) = s.client.task.progress + 1 := by
        refine u32_of_lt ?_
        simp only [startupCmds, List.length_cons, List.length_nil] at hprogress
        omega
      refine h.move _ [] (.ready rfl ?_ ?_ ?_) rfl htype (by simp) (by simp)
      · rw [hnext]
        exact hprogress
      · simp [hnext, hsent]
      · simp [hnext, hpassed]
  | startupDone _ htype hdone =>
    exact h.later (h.accepted hco' hheard htype hdone) ⟨_, rfl⟩ (by simp)
  | startupSend inp _ htype hstate hlt =>
    cases h.startup htype with
    | waiting hs _ _ _ => simp [hs] at hstate
    | asked hs _ _ _ => simp [hs] at hstate
    | answered hs _ _ _ => simp [hs] at hstate
    | ready _ _ hsent hpassed =>
      refine h.move { s.client.task with state := .inProgress } [.send _ _ _]
        (.asked rfl hlt ?_ ?_) rfl htype rfl (by simp [StartupFirst])
      · rw [hsent, List.getD_eq_getElem?_getD, List.getElem?_eq_getElem hlt, Option.getD_some]
        exact List.take_append_getElem hlt
      · simp [hpassed]
  | pasv inp _ htype _ =>
    exact hlater htype (by rcases htype with ht | ht <;> simp [switchToPassive, ht])
  | request inp _ _ htype _ => exact hlater htype (by rcases htype with ht | ht <;> simp [ht])
  | finished inp _ htype _ _ => exact hlater htype (by simp [setToIdle_client])
  | failed inp _ htype => exact hlater htype (by simp [setToIdle_client])

theorem finish (h : InStep server s) (inp : Input) (reason : Reason) :
    InStep server (finish inp reason s) := by
  have hclose := h.calls (calls_closeSockets s)
  have hend : InStep server (disconnect inp reason s) :=
    (hclose.callback inp (.disconnect reason)).stop rfl rfl
  exact hend.event rfl rfl rfl rfl (by simp [StartupFirst])

end InStep

/-! ## Sessions -/

/-- **The startup really completes**, when the server takes the commands and no line is cut. -/
theorem startup_completes (config : Config) (hasCallback : Bool) (task : Task)
    (inputs : List Input) (server : Server)
    (hserved : Served server (session config hasCallback task inputs).log)
    (hcut : WellCut (server.greeting :: server.answers)
      (parts (session config hasCallback task inputs).log))
    (haccepts : ∀ x ∈ (commands (session config hasCallback task inputs).log).zip server.answers,
      x.1 ∈ startupCmds → ¬ HasCode "530" x.2) :
    Throughout (StartupFirst server) (session config hasCallback task inputs).log := by
  suffices h : Heard (session config hasCallback task inputs).log ∧
      (Accepting server (session config hasCallback task inputs).log →
        InStep server (session config hasCallback task inputs)) from
    (h.2 ⟨hserved, hcut, haccepts⟩).first
  refine session_inv (P := fun s => Heard s.log ∧ (Accepting server s.log → InStep server s))
    ?_ ?_ ?_ ?_ inputs
  · rintro s s' ha ⟨hheard, hstep⟩
    exact ⟨hheard.act ha, fun hco => (hstep (hco.of_begin ha.log_grows)).act ha hco hheard⟩
  · rintro s reason s' hb ⟨hheard, hstep⟩
    exact ⟨hheard.of_eq hb.heard.1 hb.heard.2,
      fun hco => (hstep (hco.of_begin hb.calls.log_grows)).calls hb.calls⟩
  · rintro inp reason s ⟨hheard, hstep⟩
    obtain ⟨hp, hq⟩ := finish_heard inp reason s
    exact ⟨hheard.of_eq hp hq,
      fun hco => (hstep (hco.of_begin (finish_log_grows inp reason s))).finish inp reason⟩
  · refine ⟨⟨List.nil_prefix, List.nil_prefix, List.forall_mem_nil _⟩, fun _ => ⟨?_, ?_, ?_⟩⟩
    · exact fun _ => .waiting rfl rfl rfl rfl
    · exact fun h => absurd rfl h
    · simp [sessionStart_log, Throughout, ThroughoutFrom, StartupFirst]

/-- A server that asks for no login. -/
def openServer : Server where
  greeting := ascii "220 ready"
  answers := [ascii "200 ok", ascii "200 ok", ascii "257 ok"]
  lines := by decide +kernel
  ready := by decide +kernel

theorem startup_completes_open :
    Event.setType .idle ∈ (session .plain true .zero Input.startup).log ∧
      Throughout (StartupFirst openServer) (session .plain true .zero Input.startup).log := by
  refine ⟨by decide +kernel, startup_completes .plain true .zero Input.startup openServer
    ⟨?_, by decide +kernel⟩ ?_ (by decide +kernel)⟩
  · intro pre hpre
    rw [← List.mem_inits] at hpre
    revert pre
    decide +kernel
  · exact wellCut_of_begin (by decide +kernel) (by decide +kernel) (by decide +kernel)
      (by decide +kernel)

/-- A server that takes the first command, and then asks for a login. -/
def loginServer : Server where
  greeting := ascii "220 ready"
  answers := [ascii "200 ok", ascii "530 login", ascii "331 password", ascii "230 ok",
    ascii "257 ok"]
  lines := by decide +kernel
  ready := by decide +kernel

/-- The session with `loginServer`. -/
def loginSession : Session :=
  session .plain true .zero
    [(Input.reply (ascii "220 ready\r\n")).sends 14, (Input.reply (ascii "200 ok\r\n")).sends 8,
      (Input.reply (ascii "530 login\r\n")).sends 11,
      (Input.reply (ascii "331 password\r\n")).sends 13,
      (Input.reply (ascii "230 ok\r\n")).sends 5, .reply (ascii "257 ok\r\n")]

/-- **The reply to a password completes a command that was refused**: `TYPE I` never is accepted. -/
theorem type_not_accepted : Served loginServer loginSession.log ∧
    loginSession.client.task.type = .idle ∧
    (ascii "TYPE I\r\n", ascii "530 login") ∈ exchanges loginServer loginSession.log ∧
    ¬ Throughout (StartupFirst loginServer) loginSession.log := by
  refine ⟨⟨?_, by decide +kernel⟩, by decide +kernel, by decide +kernel, by decide +kernel⟩
  intro pre hpre
  rw [← List.mem_inits] at hpre
  revert pre
  decide +kernel

end UniNet.Ftp
