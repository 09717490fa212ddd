import UniNet.Ftp.Sequence

/-!
# Commands and their arguments

Three helpers put an argument into a command: the user name, the password and the name of a
file. The command is formatted into an array of 64 bytes, and the name of a file goes through
an array of 32 bytes before. Neither copy tells the caller when it cuts something off, and
nothing looks for a CR or an LF inside.

* `Due` — which helper sends a command, and what for
* `session_said` — every command of a session is due
* `carries_iff` — an argument arrives as a whole when it is short enough and has no CR or LF
-/

namespace UniNet.Ftp

open Infra Relation

/-! ## Commands -/

/-- The commands, as the helpers send them. -/
inductive Command where
  | startup (i : Nat)
  | pasv
  | list
  | user (name : CString)
  | pass (word : CString)
  | retr (file : CString)

/-- What is passed to `FreeRTOS_send`, with the name of a file as `download` got it. -/
def Command.text : Command → Bytes
  | startup i => startupCmds.getD i []
  | pasv => ascii "PASV\r\n"
  | list => ascii "LIST\r\n"
  | user name => snprintf64 (ascii "USER " ++ name.bytes ++ crlf)
  | pass word => snprintf64 (ascii "PASS " ++ word.bytes ++ crlf)
  | retr file => snprintf64 (ascii "RETR " ++ (taskName file).bytes ++ crlf)

/-- The verb of a command with an argument, and the argument. -/
def Command.spoken : Command → Option (Bytes × Bytes)
  | user name => some (ascii "USER", name.bytes)
  | pass word => some (ascii "PASS", word.bytes)
  | retr file => some (ascii "RETR", file.bytes)
  | _ => none

/-- How many bytes of an argument get through. -/
def Command.room : Command → Nat
  | retr _ => 31
  | _ => 56

/-- The verb, a blank, the whole argument and CRLF, and no other CR or LF. -/
def Carries (verb arg text : Bytes) : Prop :=
  text = verb ++ [32] ++ arg ++ crlf ∧ 13 ∉ arg ∧ 10 ∉ arg

instance (verb arg text : Bytes) : Decidable (Carries verb arg text) :=
  inferInstanceAs (Decidable (_ ∧ _ ∧ _))

/-- A verb of four letters and a short argument are not cut off. -/
theorem snprintf64_eq_iff (verb arg : Bytes) (h : verb.length = 5) :
    snprintf64 (verb ++ arg ++ crlf) = verb ++ arg ++ crlf ↔ arg.length ≤ 56 := by
  rw [snprintf64, List.take_eq_self_iff, List.length_append, List.length_append, h]
  simp only [crlf, List.length_cons, List.length_nil]
  omega

/-- The name of a file is cut off before it is formatted. -/
theorem taskName_eq_iff (file : CString) :
    (taskName file).bytes = file.bytes ↔ file.bytes.length ≤ 31 := by
  rw [taskName, List.take_eq_self_iff]

/-- **An argument arrives as a whole** exactly if it is short enough and has no CR or LF. -/
theorem carries_iff (cmd : Command) {verb arg : Bytes} (h : cmd.spoken = some (verb, arg)) :
    Carries verb arg cmd.text ↔ arg.length ≤ cmd.room ∧ 13 ∉ arg ∧ 10 ∉ arg := by
  refine and_congr_left fun _ => ?_
  cases cmd with
  | startup i => cases h
  | pasv => cases h
  | list => cases h
  | user name =>
    cases h
    exact snprintf64_eq_iff (ascii "USER ") name.bytes rfl
  | pass word =>
    cases h
    exact snprintf64_eq_iff (ascii "PASS ") word.bytes rfl
  | retr file =>
    cases h
    have hcut : snprintf64 (ascii "RETR " ++ (taskName file).bytes ++ crlf)
        = ascii "RETR " ++ (taskName file).bytes ++ crlf := by
      rw [snprintf64_eq_iff _ _ rfl, taskName, List.length_take]
      omega
    have hverb : ascii "RETR" ++ [32] = ascii "RETR " := rfl
    rw [Command.text, hcut, hverb, List.append_left_inj, List.append_right_inj, taskName_eq_iff]
    rfl

/-! ## Who sends a command, and why -/

/-- The file that a call asks for, and the one that is being downloaded. -/
structure Asked where
  pending : Option CString
  file : Option CString
  deriving DecidableEq

def Asked.next (a : Asked) : Event → Asked
  | .api _ (.download filename _ _) => { a with pending := some filename }
  | .setType .retr => { a with file := a.pending }
  | _ => a

/-- The file of the last download that `uni_net_ftp_client_download` has accepted. -/
def downloadOf (log : List Event) : Option CString := (log.foldl Asked.next ⟨none, none⟩).file

/--
Why a command is sent. Startup commands, `PASV`, `LIST` and `RETR` come out of `work_state`, the
user name and the password answer a reply.
-/
inductive Due (config : Config) : List Event → Command → Prop
  | startup (log : List Event) (state : TaskState) {i : Nat} (hi : i < startupCmds.length) :
      Due config (log ++ [.workState .startup state]) (.startup i)
  | pasv (log : List Event) {type : TaskType} (htype : type.isTransfer) :
      Due config (log ++ [.workState type .notStarted]) .pasv
  | list (log : List Event) : Due config (log ++ [.workState .list .started]) .list
  | user (log : List Event) {text payload : Bytes}
      (hreply : replyOf text = .handled .h530 payload) :
      Due config (log ++ [.line text]) (.user config.authUser)
  | pass (log : List Event) {text payload : Bytes}
      (hreply : replyOf text = .handled .h331 payload) :
      Due config (log ++ [.line text]) (.pass config.authPassword)
  | retr (log : List Event) {file : CString} (hfile : downloadOf log = some file) :
      Due config (log ++ [.workState .retr .started]) (.retr file)

/-- What is sent is a command that is due. -/
def Said (config : Config) (log : List Event) : Event → Prop
  | .send _ text _ => ∃ cmd, Due config log cmd ∧ text = cmd.text
  | _ => True

/-- Nothing that starts a download, and no command. -/
def Event.isMute : Event → Bool
  | .send _ _ _ | .setType .retr => false
  | _ => true

theorem Asked.next_mute (a : Asked) {e : Event} (h : e.isMute = true) :
    (a.next e).file = a.file := by
  cases e with
  | api _ call => cases call <;> rfl
  | setType type => cases type <;> first | rfl | simp [Event.isMute] at h
  | _ => rfl

theorem downloadOf_mute {log es : List Event} (h : ∀ e ∈ es, e.isMute = true) :
    downloadOf (log ++ es) = downloadOf log := by
  unfold downloadOf
  rw [List.foldl_append]
  exact foldl_keeps Asked.file (fun e he a => Asked.next_mute a (h e he)) _

theorem said_mute {config : Config} {log es : List Event} (h : ∀ e ∈ es, e.isMute = true) :
    Throughout (Said config) (log ++ es) ↔ Throughout (Said config) log := by
  refine throughout_append fun pre e he => ?_
  have hmute := h e he
  cases e <;> trivial

/-! ## Sessions -/

/-- The name in the task is the one that was asked for, and what was sent was due. -/
structure Speaking (config : Config) (s : Session) : Prop where
  same : s.client.config = config
  file : s.client.task.type = .retr →
    ∃ file, downloadOf s.log = some file ∧ s.client.task.name = taskName file
  said : Throughout (Said config) s.log

namespace Speaking

variable {config : Config} {s s' : Session}

/-- Nothing is sent, and a download keeps its name. -/
theorem mute (h : Speaking config s) (es : List Event)
    (hconfig : s'.client.config = s.client.config) (hlog : s'.log = s.log ++ es)
    (hes : ∀ e ∈ es, e.isMute = true)
    (htask : s'.client.task.type = .retr →
      s.client.task.type = .retr ∧ s'.client.task.name = s.client.task.name) :
    Speaking config s' := by
  refine ⟨hconfig.trans h.same, ?_, ?_⟩
  · intro ht
    obtain ⟨htype, hname⟩ := htask ht
    rw [hlog, downloadOf_mute hes, hname]
    exact h.file htype
  · rw [hlog, said_mute hes]
    exact h.said

theorem event (h : Speaking config s) {e : Event} (he : e.isMute = true) :
    Speaking config (s.emit e) :=
  h.mute [e] rfl rfl (by simpa using he) fun ht => ⟨ht, rfl⟩

/-- A command that is due is sent, and a download keeps its name. -/
theorem send (h : Speaking config s) {cmd : Command} (hdue : Due config s.log cmd)
    {sock : Option Socket} {result : Int} (hconfig : s'.client.config = s.client.config)
    (hlog : s'.log = s.log ++ [.send sock cmd.text result])
    (htask : s'.client.task.type = .retr →
      s.client.task.type = .retr ∧ s'.client.task.name = s.client.task.name) :
    Speaking config s' := by
  refine ⟨hconfig.trans h.same, ?_, ?_⟩
  · intro ht
    obtain ⟨htype, hname⟩ := htask ht
    obtain ⟨file, hfile, heq⟩ := h.file htype
    refine ⟨file, ?_, hname.trans heq⟩
    rw [hlog, downloadOf, List.foldl_append]
    exact hfile
  · rw [hlog, throughout_concat]
    exact ⟨h.said, cmd, hdue, rfl⟩

theorem apiCall (h : Speaking config s) (inside : Option CallbackType) (call : ApiCall) :
    Speaking config (apiCall inside s call) := by
  have hasked : Speaking config (s.emit (.api inside call)) := h.event rfl
  cases call with
  | disconnect =>
    show Speaking config ((s.emit (.api inside .disconnect)).setType .termination)
    exact hasked.mute [.setType .termination] rfl rfl (by simp [Event.isMute]) (by simp)
  | list =>
    by_cases hidle : s.client.isIdle = true
    · refine hasked.mute [.setType .list] ?_ ?_ (by simp [Event.isMute]) ?_
      all_goals simp [Ftp.apiCall, hidle]
    · simpa [Ftp.apiCall, hidle] using hasked
  | download filename cookie size =>
    by_cases hidle : s.client.isIdle = true
    · refine ⟨?_, ?_, ?_⟩
      · simpa [Ftp.apiCall, hidle] using h.same
      · intro _
        refine ⟨filename, ?_, by simp [Ftp.apiCall, hidle]⟩
        simp [Ftp.apiCall, hidle, downloadOf, Asked.next]
      · have hlog : (Ftp.apiCall inside s (.download filename cookie size)).log
            = s.log ++ [.api inside (.download filename cookie size)] ++ [.setType .retr] := by
          simp [Ftp.apiCall, hidle]
        rw [hlog, throughout_concat]
        exact ⟨hasked.said, trivial⟩
    · simpa [Ftp.apiCall, hidle] using hasked

/-- A slice has nothing to do with the name. -/
theorem slice (h : Speaking config s) (inp : Input) {data : Bytes}
    (htype : s.client.task.type.isTransfer ∨ s.client.task.type = .termination) :
    Speaking config (recvSlice inp data (s.emit (.recvData s.client.socketData data))) := by
  obtain ⟨es, task, hes, ht, -, hname, hrun⟩ := slice_spec inp data htype
  rw [hrun]
  refine h.mute (.recvData s.client.socketData data ::
    (es ++ [.release s.client.socketData data])) rfl rfl ?_ ?_
  · have hmute : ∀ e ∈ es, e.isMute = true := hes.forall_mem rfl fun e he => by
      cases e with
      | setType type => cases type <;> first | rfl | simp [Event.isAsk] at he
      | _ => first | rfl | simp [Event.isAsk] at he
    simpa [Event.isMute, or_imp, forall_and] using hmute
  · intro hretr
    refine ⟨?_, hname⟩
    rcases ht with ht | ht
    · exact ht.symm.trans hretr
    · simp [ht] at hretr

/-- A startup command is due. -/
theorem workStateStartup (h : Speaking config s) (inp : Input)
    (htype : s.client.task.type = .startup)
    (hlook : Looked s) :
    Speaking config (workStateStartup inp s) := by
  rcases workStateStartup_cases inp htype with he | ⟨task, ht, he⟩ |
    ⟨i, task, hi, -, ht, -, -, he⟩
  · rw [he]
    exact h
  · rw [he]
    exact h.mute [.setType .idle] rfl rfl (by simp [Event.isMute]) (by simp [ht])
  · obtain ⟨log, hlog⟩ := hlook
    have hdue : Due config s.log (.startup i) := by
      rw [hlog, htype]
      exact .startup log _ hi
    rw [he]
    exact h.send hdue rfl rfl (by simp [ht])

theorem move (h : Speaking config s) (hm : Move s s') : Speaking config s' := by
  cases hm with
  | plain hp =>
    obtain ⟨htask, hconfig, -, es, hlog, hes⟩ := hp
    refine h.mute es hconfig hlog (fun e he => ?_) fun ht => ⟨htask ▸ ht, by rw [htask]⟩
    have hplain := hes e he
    cases e <;> first | rfl | simp [Event.isPlain] at hplain
  | api inside _ call => exact h.apiCall inside call
  | notify _ => exact h.event rfl
  | terminate =>
    exact h.mute [.setType .termination] rfl rfl (by simp [Event.isMute]) (by simp)
  | line _ text =>
    refine h.mute [.line text] rfl rfl (by simp [Event.isMute]) fun ht => ?_
    exact ⟨by simpa using ht, replyTask_name ..⟩
  | password inp _ hline =>
    obtain ⟨log, text, payload, hlog, hreply⟩ := hline
    have hdue : Due config s.log (.pass s.client.config.authPassword) := by
      rw [hlog, h.same]
      exact .pass log hreply
    exact h.send hdue rfl rfl fun ht => ⟨ht, rfl⟩
  | login inp _ hline =>
    obtain ⟨log, text, payload, hlog, hreply⟩ := hline
    have hdue : Due config s.log (.user s.client.config.authUser) := by
      rw [hlog, h.same]
      exact .user log hreply
    exact h.send hdue rfl rfl fun ht => ⟨ht, rfl⟩
  | nothing => exact h.event rfl
  | slice inp _ _ htype => exact h.slice inp htype
  | look => exact h.event rfl
  | startup inp _ htype hlook => exact h.workStateStartup inp htype hlook
  | passive inp _ htype hstate hlook =>
    obtain ⟨log, hlog⟩ := hlook
    have hdue : Due config s.log .pasv := by
      rw [hlog, hstate]
      exact .pasv log htype
    exact h.send hdue rfl rfl fun ht => ⟨ht, rfl⟩
  | retr inp _ htype hstate hlook =>
    obtain ⟨log, hlog⟩ := hlook
    obtain ⟨file, hfile, hname⟩ := h.file htype
    have hdue : Due config s.log (.retr file) := by
      rw [hlog, downloadOf_mute (by simp [Event.isMute])] at hfile
      rw [hlog, htype, hstate]
      exact .retr log hfile
    have hsent : (retrFile inp (s.setState .requested) s.client.task.name).log
        = s.log ++ [.send s.client.socketCmd (Command.retr file).text (inp.send s.now)] := by
      rw [hname]
      rfl
    exact h.send hdue rfl hsent fun ht => ⟨ht, rfl⟩
  | list inp _ htype hstate hlook =>
    obtain ⟨log, hlog⟩ := hlook
    have hdue : Due config s.log .list := by
      rw [hlog, htype, hstate]
      exact .list log
    exact h.send hdue rfl rfl fun ht => ⟨ht, rfl⟩
  | idle _ hdata =>
    refine h.mute [.setType .idle] ?_ ?_ (by simp [Event.isMute]) ?_
    · rw [setToIdle_client]
    · rw [setToIdle_log, closeSocket_none .data hdata]
    · simp [setToIdle_client]

end Speaking

/-- **Every command of a session is due**, and a `RETR` is for the file that was asked for. -/
theorem session_said (config : Config) (hasCallback : Bool) (task : Task) (inputs : List Input) :
    Throughout (Said config) (session config hasCallback task inputs).log := by
  have hspeaking : Speaking config (session config hasCallback task inputs) := by
    refine moves_inv (fun hm h => h.move hm) (session_moves config hasCallback task inputs) ?_
    refine ⟨rfl, by simp [sessionStart, threadStart], ?_⟩
    rw [sessionStart_log]
    exact ⟨trivial, trivial, trivial⟩
  exact hspeaking.said

/--
**When a command carries its argument.** Whatever a session sends is due; and a user name, a
password or the name of a file that was accepted arrives as a whole on one line exactly if it is
short enough and has no CR or LF.
-/
theorem commands_carried_iff (config : Config) (hasCallback : Bool) (task : Task)
    (inputs : List Input) :
    Throughout (fun log e => ∀ sock text result, e = .send sock text result →
      ∃ cmd, Due config log cmd ∧ text = cmd.text ∧ ∀ verb arg, cmd.spoken = some (verb, arg) →
        (Carries verb arg text ↔ arg.length ≤ cmd.room ∧ 13 ∉ arg ∧ 10 ∉ arg))
      (session config hasCallback task inputs).log := by
  have hsaid := session_said config hasCallback task inputs
  rw [throughout_iff] at hsaid ⊢
  rintro pre e post hlog sock text result rfl
  obtain ⟨cmd, hdue, rfl⟩ := hsaid pre _ post hlog
  exact ⟨cmd, hdue, rfl, fun verb arg harg => carries_iff cmd harg⟩

/-- A session that downloads this file. -/
def downloading (file : Bytes) : Session :=
  session .plain true .zero (Input.startup ++
    [.call (.download (.ofBytes file) none 1), .reply (ascii "227 (1,2,3,4,5,6)\r\n")])

/-- A session that logs in with this user name. -/
def loggingIn (user : Bytes) : Session :=
  session { Config.plain with authUser := .ofBytes user } true .zero
    [.reply (ascii "220 ready\r\n"), .reply (ascii "530 login\r\n")]

/--
**Arguments that do not arrive**: a name with a CRLF becomes two commands, one of 32 bytes is that
of another file, and behind a user name of 57 bytes there is no LF.
-/
theorem command_not_carried :
    (downloadOf (downloading (ascii "a\r\nDELE b")).log = some (.ofBytes (ascii "a\r\nDELE b")) ∧
      ascii "RETR a\r\nDELE b\r\n" ∈ sent (downloading (ascii "a\r\nDELE b")).log) ∧
    (downloadOf (downloading (List.replicate 32 97)).log = some (.ofBytes (List.replicate 32 97)) ∧
      ascii "RETR " ++ List.replicate 31 97 ++ crlf
        ∈ sent (downloading (List.replicate 32 97)).log) ∧
    ascii "USER " ++ List.replicate 57 97 ++ [13]
      ∈ sent (loggingIn (List.replicate 57 97)).log := by
  decide +kernel

end UniNet.Ftp
