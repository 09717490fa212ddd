import UniNet.Ftp.Chain
import UniNet.Infra.History
import UniNet.Infra.Ledger

/-!
# Sockets

The client holds at most two sockets and one socket set. What it makes and closes is booked in
the log, so the sockets are resources in the sense of `Infra.Ledger`. There is one place where
a socket can get lost: a 227 reply makes a data socket without a look at the one that is there.

* `Act.lostSocket` — every act keeps the books, but for a data socket that is overwritten
* `sockets_closed_once` — every socket is closed exactly once
* `sockets_live` — whatever the stack is called with is there
-/

namespace UniNet.Ftp

open Infra Relation

/-! ## The books -/

/-- The socket that is made. -/
def Event.madeSocket : Event → Option Nat
  | .socket _ (some (.valid n)) => some n
  | _ => none

def Event.closedSocket : Event → Option Nat
  | .closesocket (.valid n) => some n
  | _ => none

/-- The socket set that is made. -/
def Event.madeSet : Event → Option Nat
  | .createSocketSet set => set
  | _ => none

def Event.deletedSet : Event → Option Nat
  | .deleteSocketSet set => some set
  | _ => none

/-- The event is about sockets or sets that come or go. -/
def Event.isResource : Event → Bool
  | .socket _ _ | .closesocket _ | .createSocketSet _ | .deleteSocketSet _ => true
  | _ => false

/-- The name of a socket that is valid. -/
def validId : Option Socket → List Nat
  | some (.valid n) => [n]
  | _ => []

/-- The sockets that the client holds. -/
def Client.held (c : Client) : List Nat := validId c.socketCmd ++ validId c.socketData

/-- How often a socket was made that is neither closed nor held. -/
def lostSocket (s : Session) (n : Nat) : Int :=
  lost Event.madeSocket Event.closedSocket s.log s.client.held n

def lostSet (s : Session) (n : Nat) : Int :=
  lost Event.madeSet Event.deletedSet s.log s.client.socketSet.toList n

/-! ## Steps -/

/-- What the stack is called with: the sockets and the set that the client has. -/
def Uses (cmd data : Option Socket) (set : Option Nat) : Event → Prop
  | .fdIsset sock set' _ => set' = set ∧ sock ≠ none ∧
      ((sock = cmd ∧ cmd ≠ some .invalid) ∨ sock = data)
  | .fdSet sock _ => sock ≠ .invalid ∧ (some sock = cmd ∨ some sock = data)
  | .select set' _ => set' = set ∧ cmd ≠ none
  | .recvcount sock _ | .recv sock _ | .issocketconnected sock _ =>
      sock = cmd ∧ sock ≠ none ∧ sock ≠ some .invalid
  | .recvData sock _ | .release sock _ => sock = data ∧ sock ≠ none
  | _ => True

/-- The sockets and the set stay, and what is called with them is called with these. -/
structure Untouched (s s' : Session) : Prop where
  cmd : s'.client.socketCmd = s.client.socketCmd
  data : s'.client.socketData = s.client.socketData
  set : s'.client.socketSet = s.client.socketSet
  log : ∃ es, s'.log = s.log ++ es ∧ ∀ e ∈ es, e.isResource = false ∧
    Uses s.client.socketCmd s.client.socketData s.client.socketSet e

/-- One step, as far as the sockets are concerned. -/
inductive SocketStep : Session → Session → Prop
  | keep {s s' : Session} (h : Untouched s s') : SocketStep s s'
  | createSet (inp : Input) (s : Session) : SocketStep s (createSet inp s)
  | createCmd (inp : Input) (s : Session) (hnone : s.client.socketCmd = none)
      (hset : s.client.socketSet ≠ none ∨ .createSocketSet none ∈ s.log ∨
        inp.socket s.now = none) : SocketStep s (createSocket inp .cmd s)
  | createData (inp : Input) (s : Session) (hcmd : s.client.socketCmd ≠ none) :
      SocketStep s (createSocket inp .data s)
  | close (role : Role) (s : Session) : SocketStep s (closeSocket role s)
  | deleteSet (s : Session) (hcmd : s.client.socketCmd = none)
      (hdata : s.client.socketData = none) : SocketStep s (deleteSet s)

abbrev SocketSteps : Session → Session → Prop := ReflTransGen SocketStep

namespace Untouched

variable {s s' s'' : Session}

theorem emit (s : Session) {e : Event} (h : e.isResource = false)
    (hu : Uses s.client.socketCmd s.client.socketData s.client.socketSet e) :
    Untouched s (s.emit e) :=
  ⟨rfl, rfl, rfl, [e], rfl, by simpa using ⟨h, hu⟩⟩

theorem setTask (s : Session) (task : Task) : Untouched s (s.setTask task) :=
  ⟨rfl, rfl, rfl, [], by simp, by simp⟩

theorem refl (s : Session) : Untouched s s := ⟨rfl, rfl, rfl, [], by simp, by simp⟩

theorem trans (h : Untouched s s') (h' : Untouched s' s'') : Untouched s s'' := by
  obtain ⟨hc, hd, hs, es, hl, hes⟩ := h
  obtain ⟨hc', hd', hs', es', hl', hes'⟩ := h'
  rw [hc, hd, hs] at hes'
  refine ⟨hc'.trans hc, hd'.trans hd, hs'.trans hs, es ++ es', ?_, ?_⟩
  · rw [hl', hl, List.append_assoc]
  · rw [List.forall_mem_append]
    exact ⟨hes, hes'⟩

theorem setType (s : Session) (type : TaskType) : Untouched s (s.setType type) :=
  (setTask s _).trans (emit _ rfl trivial)

end Untouched

theorem CmdOpen.ne {s : Session} (h : CmdOpen s) :
    s.client.socketCmd ≠ none ∧ s.client.socketCmd ≠ some .invalid := by
  obtain ⟨n, -, -, hn, -⟩ := h
  simp [hn]

theorem Noted.untouched {s : Session} {e : Event} (h : Noted s e) : Untouched s (s.emit e) := by
  cases e with
  | setsockopt _ _ => exact .emit s rfl trivial
  | connect _ _ _ _ _ => exact .emit s rfl trivial
  | fdSet sock set =>
    obtain ⟨-, role, n, rfl, hsock⟩ := h
    refine .emit s rfl ⟨by simp, ?_⟩
    cases role with
    | cmd => exact Or.inl hsock.symm
    | data => exact Or.inr hsock.symm
  | select set _ => exact .emit s rfl ⟨h.1, h.2.ne.1⟩
  | fdIsset sock set _ =>
    obtain ⟨hset, ⟨rfl, hopen⟩ | ⟨rfl, hne⟩⟩ := h
    · exact .emit s rfl ⟨hset, hopen.ne.1, Or.inl ⟨rfl, hopen.ne.2⟩⟩
    · exact .emit s rfl ⟨hset, hne, Or.inr rfl⟩
  | isNetworkUp _ => exact .emit s rfl trivial
  | issocketconnected sock _ =>
    obtain ⟨-, rfl, hopen⟩ := h
    exact .emit s rfl ⟨rfl, hopen.ne⟩
  | recvcount sock _ =>
    obtain ⟨rfl, hopen⟩ := h
    exact .emit s rfl ⟨rfl, hopen.ne⟩
  | recv sock _ =>
    obtain ⟨rfl, hopen, -⟩ := h
    exact .emit s rfl ⟨rfl, hopen.ne⟩
  | calloc _ => exact .emit s rfl trivial
  | send _ _ _ => exact .emit s rfl trivial
  | recvData sock _ => exact .emit s rfl h
  | workState _ _ => exact .emit s rfl trivial
  | _ => exact h.elim

theorem AppOnly.untouched {s s' : Session} (h : AppOnly s s') : Untouched s s' := by
  obtain ⟨⟨task, hc⟩, es, hl, hes⟩ := h
  refine ⟨by rw [hc], by rw [hc], by rw [hc], es, hl, fun e he => ?_⟩
  have happ := hes e he
  cases e <;> first | exact ⟨rfl, trivial⟩ | simp [Event.isApp] at happ

theorem untouched_recvSlice (inp : Input) (data : Bytes) {s : Session}
    (hsock : s.client.socketData ≠ none) : Untouched s (recvSlice inp data s) := by
  unfold recvSlice
  dsimp only
  generalize hs : (if s.client.task.state = .started then s.setState .inProgress else s) = s₁
  have h₁ : Untouched s s₁ := by
    rw [← hs]
    split
    · exact .setTask _ _
    · exact .refl s
  have h₂ := (h₁.trans (appOnly_callback inp s₁ (.recv data)).untouched)
  refine (h₂.trans (.setTask _ _)).trans (.emit _ rfl ⟨rfl, ?_⟩)
  rw [Session.setTask_client, h₂.data]
  exact hsock

theorem steps_setToIdle {s s' : Session} (h : AppOnly s s') : SocketSteps s (setToIdle s') := by
  have hidle : Untouched (closeSocket .data s') (setToIdle s') :=
    (Untouched.setType _ .idle).trans (.setTask _ _)
  exact (ReflTransGen.single (.keep h.untouched)).tail (.close .data s') |>.tail (.keep hidle)

/-- **An act is a number of socket steps.** -/
theorem Act.steps {s s' : Session} (h : Act s s') : SocketSteps s s' := by
  have hkeep : ∀ {s''}, Untouched s s'' → SocketSteps s s'' := fun h => .single (.keep h)
  have hsend : ∀ (inp : Input) (state : TaskState) (cmd : Bytes),
      SocketSteps s (sendCmd inp (s.setState state) cmd) :=
    fun inp state cmd => hkeep ((Untouched.setTask s _).trans (.emit _ rfl trivial))
  cases h with
  | note _ hn => exact hkeep hn.untouched
  | api _ call => exact hkeep (appOnly_apiCall none s call).untouched
  | createSet inp => exact .single (.createSet inp s)
  | createCmd inp _ hnone hset _ =>
    exact .single (.createCmd inp s hnone (hset.imp_right Or.inl))
  | createData inp _ hopen => exact .single (.createData inp s hopen.ne.1)
  | closeData => exact .single (.close .data s)
  | closeCmd _ => exact .single (.close .cmd s)
  | deleteSet _ hcmd hdata => exact .single (.deleteSet s hcmd hdata)
  | notify inp _ _ => exact hkeep (appOnly_callback inp s _).untouched
  | terminate _ => exact hkeep (.setType s .termination)
  | reply _ => exact hkeep ((Untouched.setTask s _).trans (.emit _ rfl trivial))
  | slice inp _ hsock _ _ => exact hkeep (untouched_recvSlice inp _ hsock)
  | startupNext _ _ _ => exact hkeep (.setTask s _)
  | startupDone _ _ _ =>
    exact hkeep ((Untouched.setType s .idle).trans (.setTask _ _))
  | startupSend inp _ _ _ => exact hsend inp _ _
  | pasv inp _ _ _ => exact hsend inp _ _
  | request inp _ _ _ => exact hsend inp _ _
  | finished inp _ _ _ => exact steps_setToIdle (appOnly_callback inp s _)
  | failed inp _ => exact steps_setToIdle (appOnly_callback inp s _)

theorem Break.steps {s s' : Session} {reason : Reason} (h : Break s reason s') :
    SocketSteps s s' := by
  cases h with
  | noSocket inp _ hnone hsock =>
    exact .single (.createCmd inp s hnone (Or.inr (Or.inr hsock)))
  | connect _ _ => exact .single (.keep (.emit s rfl trivial))
  | network => exact .single (.keep (.emit s rfl trivial))
  | socket _ hopen => exact .single (.keep (.emit s rfl ⟨rfl, hopen.ne⟩))

theorem steps_closeSockets (s : Session) : SocketSteps s (closeSockets s) := by
  refine ((ReflTransGen.single (.close .data s)).tail (.close .cmd _)).tail (.deleteSet _ ?_ ?_)
  · simp [closeCmd_client]
  · simp [closeCmd_client, closeData_client]

theorem finish_steps (inp : Input) (reason : Reason) (s : Session) :
    SocketSteps s (finish inp reason s) := by
  have hcall := (appOnly_callback inp (closeSockets s) (.disconnect reason)).untouched
  have hend : Untouched (callback inp (closeSockets s) (.disconnect reason))
      (finish inp reason s) :=
    ⟨rfl, rfl, rfl, [.setType .termination, .taskDelete], by simp [finish, disconnect],
      by simp [Event.isResource, Uses]⟩
  exact (steps_closeSockets s).tail (.keep (hcall.trans hend))

/-- What every socket step keeps holds in every session. -/
theorem session_socket_inv {P : Session → Prop} (hstep : ∀ {s s'}, SocketStep s s' → P s → P s')
    {config : Config} {hasCallback : Bool} {task : Task}
    (hstart : P (sessionStart config hasCallback task)) (inputs : List Input) :
    P (session config hasCallback task inputs) := by
  have hsteps : ∀ {s s'}, SocketSteps s s' → P s → P s' := by
    intro s s' h hs
    induction h with
    | refl => exact hs
    | tail _ hlast ih => exact hstep hlast ih
  exact session_inv (fun ha => hsteps ha.steps) (fun hb => hsteps hb.steps)
    (fun inp reason s => hsteps (finish_steps inp reason s)) hstart inputs

/-! ## Keeping the books -/

theorem Event.not_resource {e : Event} (h : e.isResource = false) : e.madeSocket = none ∧
    e.closedSocket = none ∧ e.madeSet = none ∧ e.deletedSet = none := by
  cases e <;> first | exact ⟨rfl, rfl, rfl, rfl⟩ | simp [Event.isResource] at h

/-- A socket that is made is held, if it is one. -/
theorem lost_made (log : List Event) (role : Role) (sock : Option Socket) {held held' : List Nat}
    (hperm : held'.Perm (validId sock ++ held)) (n : Nat) :
    lost Event.madeSocket Event.closedSocket (log ++ [.socket role sock]) held' n
      = lost Event.madeSocket Event.closedSocket log held n := by
  match sock with
  | some (.valid m) => exact lost_acquire (by rfl) (by rfl) hperm n
  | some .invalid =>
    rw [lost_other (by simp [Event.madeSocket]) (by simp [Event.closedSocket]), lost, lost,
      hperm.count_eq]
    rfl
  | none =>
    rw [lost_other (by simp [Event.madeSocket]) (by simp [Event.closedSocket]), lost, lost,
      hperm.count_eq]
    rfl

/-- A socket that is closed was held, if it is one. -/
theorem lost_closed (log : List Event) (sock : Socket) {held held' : List Nat}
    (hperm : held.Perm (validId (some sock) ++ held')) (n : Nat) :
    lost Event.madeSocket Event.closedSocket (log ++ [.closesocket sock]) held' n
      = lost Event.madeSocket Event.closedSocket log held n := by
  cases sock with
  | valid m => exact lost_release (by rfl) (by rfl) hperm n
  | invalid =>
    rw [lost_other (by simp [Event.madeSocket]) (by simp [Event.closedSocket]), lost, lost,
      hperm.count_eq]
    rfl

/-- **Every step keeps the books**, but for a data socket that is overwritten. -/
theorem SocketStep.lostSocket {s s' : Session} (h : SocketStep s s') :
    (∀ n, lostSocket s' n = lostSocket s n) ∨
      ∃ sock, s'.log = s.log ++ [.socket .data sock] ∧
        ∀ n, Ftp.lostSocket s' n = Ftp.lostSocket s n + (validId s.client.socketData).count n := by
  cases h with
  | keep h =>
    obtain ⟨hc, hd, -, es, hl, hes⟩ := h
    refine Or.inl fun n => ?_
    rw [Ftp.lostSocket, Ftp.lostSocket, Client.held, Client.held, hc, hd, hl]
    exact lost_other (fun e he => (Event.not_resource (hes e he).1).1)
      (fun e he => (Event.not_resource (hes e he).1).2.1) _ n
  | createSet inp =>
    refine Or.inl fun n => ?_
    unfold Ftp.createSet
    split
    · exact lost_other (by simp [Event.madeSocket]) (by simp [Event.closedSocket]) _ n
    · rfl
  | createCmd inp _ hnone hset =>
    refine Or.inl fun n => lost_made s.log .cmd _ ?_ n
    rw [Client.held, Client.held, hnone]
    exact List.Perm.refl _
  | createData inp _ hcmd =>
    refine Or.inr ⟨_, rfl, fun n => ?_⟩
    have hdrop : s.client.held.Perm (validId s.client.socketData ++ validId s.client.socketCmd) :=
      List.perm_append_comm
    rw [Ftp.lostSocket, Ftp.lostSocket, ← lost_drop hdrop]
    exact lost_made s.log .data _ List.perm_append_comm n
  | close role =>
    refine Or.inl fun n => ?_
    cases hs : s.client.socket role with
    | none => rw [closeSocket_none role hs]
    | some sock =>
      rw [closeSocket_some role hs]
      refine lost_closed s.log sock ?_ n
      cases role with
      | cmd => rw [Client.held, show s.client.socketCmd = some sock from hs]; exact List.Perm.refl _
      | data =>
        rw [Client.held, show s.client.socketData = some sock from hs]
        simpa [Client.held, Client.setSocket, validId] using List.perm_append_comm
  | deleteSet _ _ _ =>
    refine Or.inl fun n => ?_
    unfold Ftp.deleteSet
    split
    · exact lost_other (by simp [Event.madeSocket]) (by simp [Event.closedSocket]) _ n
    · rfl

theorem SocketStep.lostSet {s s' : Session} (h : SocketStep s s') (n : Nat) :
    lostSet s' n = lostSet s n := by
  have hother : ∀ (c : Client) (e : Event), c.socketSet = s.client.socketSet →
      e.madeSet = none → e.deletedSet = none →
      Ftp.lostSet ⟨c, s.log ++ [e]⟩ n = Ftp.lostSet s n := by
    intro c e hset hm hd
    rw [Ftp.lostSet, Ftp.lostSet, hset]
    exact lost_other (by simpa using hm) (by simpa using hd) _ n
  cases h with
  | keep h =>
    obtain ⟨-, -, hs, es, hl, hes⟩ := h
    rw [Ftp.lostSet, Ftp.lostSet, hs, hl]
    exact lost_other (fun e he => (Event.not_resource (hes e he).1).2.2.1)
      (fun e he => (Event.not_resource (hes e he).1).2.2.2) _ n
  | createSet inp =>
    unfold Ftp.createSet
    split
    · next hnone =>
      rw [Ftp.lostSet, Ftp.lostSet, hnone]
      cases inp.createSocketSet s.now with
      | true => exact lost_acquire (by rfl) (by rfl) (List.Perm.refl _) n
      | false => exact lost_other (by simp [Event.madeSet]) (by simp [Event.deletedSet]) _ n
    · rfl
  | createCmd inp _ _ _ => exact hother _ _ rfl rfl rfl
  | createData inp _ _ => exact hother _ _ rfl rfl rfl
  | close role =>
    cases hs : s.client.socket role with
    | none => rw [closeSocket_none role hs]
    | some sock =>
      rw [closeSocket_some role hs]
      refine hother _ _ ?_ rfl rfl
      cases role <;> rfl
  | deleteSet _ _ _ =>
    unfold Ftp.deleteSet
    split
    · next set hset =>
      rw [Ftp.lostSet, Ftp.lostSet, hset]
      exact lost_release (by rfl) (by rfl) (List.Perm.refl _) n
    · rfl

/-- What is made gets the time as its name. -/
theorem SocketStep.grows {s s' : Session} (h : SocketStep s s') : ∃ es, s'.log = s.log ++ es ∧
    ((∀ e ∈ es, e.isResource = false) ∨ ∃ e, es = [e] ∧
      (e.madeSocket = none ∨ e.madeSocket = some s.log.length) ∧
      (e.madeSet = none ∨ e.madeSet = some s.log.length)) := by
  have hsame : ∃ es, s.log = s.log ++ es ∧ ((∀ e ∈ es, e.isResource = false) ∨ ∃ e, es = [e] ∧
      (e.madeSocket = none ∨ e.madeSocket = some s.log.length) ∧
      (e.madeSet = none ∨ e.madeSet = some s.log.length)) := ⟨[], by simp, by simp⟩
  have hsocket : ∀ (inp : Input) (role : Role), ∃ sock,
      (createSocket inp role s).log = s.log ++ [.socket role sock] ∧
      ((Event.socket role sock).madeSocket = none ∨
        (Event.socket role sock).madeSocket = some s.log.length) := by
    intro inp role
    refine ⟨_, rfl, ?_⟩
    match inp.socket s.now with
    | none => exact Or.inl rfl
    | some true => exact Or.inr rfl
    | some false => exact Or.inl rfl
  cases h with
  | keep h =>
    obtain ⟨-, -, -, es, hl, hes⟩ := h
    exact ⟨es, hl, Or.inl fun e he => (hes e he).1⟩
  | createSet inp =>
    unfold Ftp.createSet
    split
    · refine ⟨_, rfl, Or.inr ⟨_, rfl, Or.inl rfl, ?_⟩⟩
      cases inp.createSocketSet s.now with
      | true => exact Or.inr rfl
      | false => exact Or.inl rfl
    · exact hsame
  | createCmd inp _ _ _ =>
    obtain ⟨sock, hl, hmade⟩ := hsocket inp .cmd
    exact ⟨_, hl, Or.inr ⟨_, rfl, hmade, Or.inl rfl⟩⟩
  | createData inp _ _ =>
    obtain ⟨sock, hl, hmade⟩ := hsocket inp .data
    exact ⟨_, hl, Or.inr ⟨_, rfl, hmade, Or.inl rfl⟩⟩
  | close role =>
    cases hs : s.client.socket role with
    | none => rw [closeSocket_none role hs]; exact hsame
    | some sock =>
      rw [closeSocket_some role hs]
      exact ⟨_, rfl, Or.inr ⟨_, rfl, Or.inl rfl, Or.inl rfl⟩⟩
  | deleteSet _ _ _ =>
    unfold Ftp.deleteSet
    split
    · exact ⟨_, rfl, Or.inr ⟨_, rfl, Or.inl rfl, Or.inl rfl⟩⟩
    · exact hsame

theorem SocketStep.log_grows {s s' : Session} (h : SocketStep s s') : s.log <+: s'.log := by
  obtain ⟨es, hl, -⟩ := h.grows
  exact ⟨es, hl.symm⟩

/-- The books are in order. -/
structure Books (s : Session) : Prop where
  sockets : ∀ n, 0 ≤ lostSocket s n
  sets : ∀ n, lostSet s n = 0
  timed : Timed Event.madeSocket s.log
  timedSet : Timed Event.madeSet s.log
  data : ∀ n, s.client.socketData = some (.valid n) → .socket .data (some (.valid n)) ∈ s.log

/-- A data socket was made as one. -/
theorem SocketStep.data {s s' : Session} (h : SocketStep s s')
    (hdata : ∀ n, s.client.socketData = some (.valid n) →
      .socket .data (some (.valid n)) ∈ s.log) :
    ∀ n, s'.client.socketData = some (.valid n) →
      .socket .data (some (.valid n)) ∈ s'.log := by
  have hgrow := h.log_grows
  have hsame : s'.client.socketData = s.client.socketData → ∀ n,
      s'.client.socketData = some (.valid n) → .socket .data (some (.valid n)) ∈ s'.log := by
    intro hd n hn
    exact hgrow.subset (hdata n (hd ▸ hn))
  cases h with
  | keep h => exact hsame h.data
  | createSet inp =>
    obtain ⟨set, hc⟩ := createSet_client inp s
    exact hsame (by rw [hc])
  | createCmd inp _ _ _ => exact hsame rfl
  | createData inp _ _ =>
    intro n hn
    exact List.mem_append_right _ (List.mem_singleton.mpr (congrArg _ hn.symm))
  | close role =>
    cases role with
    | cmd => exact hsame (by rw [closeCmd_client])
    | data => simp [closeData_client]
  | deleteSet _ _ _ => exact hsame (by rw [deleteSet_client])

theorem Books.step {s s' : Session} (h : Books s) (hstep : SocketStep s s') : Books s' := by
  obtain ⟨es, hl, hes⟩ := hstep.grows
  constructor
  · intro n
    have hn := h.sockets n
    rcases hstep.lostSocket with hlost | ⟨_, -, hlost⟩
    · rw [hlost]
      exact hn
    · rw [hlost]
      omega
  · intro n
    rw [hstep.lostSet, h.sets]
  · rw [hl]
    rcases hes with hes | ⟨e, rfl, hmade | hmade, -⟩
    · exact h.timed.other fun e he => (Event.not_resource (hes e he)).1
    · exact h.timed.other (by simpa using hmade)
    · exact h.timed.acquire hmade
  · rw [hl]
    rcases hes with hes | ⟨e, rfl, -, hmade | hmade⟩
    · exact h.timedSet.other fun e he => (Event.not_resource (hes e he)).2.2.1
    · exact h.timedSet.other (by simpa using hmade)
    · exact h.timedSet.acquire hmade
  · exact hstep.data h.data

theorem books_start (config : Config) (hasCallback : Bool) (task : Task) :
    Books (sessionStart config hasCallback task) := by
  have hlog : ∀ e ∈ (sessionStart config hasCallback task).log, e.isResource = false := by
    simp [sessionStart_log, Event.isResource]
  constructor
  · intro n
    rw [lostSocket, lost, acquired_none fun e he => (Event.not_resource (hlog e he)).1,
      acquired_none fun e he => (Event.not_resource (hlog e he)).2.1]
    exact Int.le_refl 0
  · intro n
    rw [lostSet, lost, acquired_none fun e he => (Event.not_resource (hlog e he)).2.2.1,
      acquired_none fun e he => (Event.not_resource (hlog e he)).2.2.2]
    rfl
  · exact (timed_nil _).other fun e he => (Event.not_resource (hlog e he)).1
  · exact (timed_nil _).other fun e he => (Event.not_resource (hlog e he)).2.2.1
  · intro n hn
    cases hn

/-! ## Closed exactly once -/

def Event.isDataSocket : Event → Bool
  | .socket .data _ => true
  | _ => false

/-- The data socket that is made. -/
def Event.madeData : Event → Option Nat
  | .socket .data (some (.valid n)) => some n
  | _ => none

/-- A data socket is made when every earlier one is closed. -/
def DataClosed (log : List Event) (e : Event) : Prop :=
  e.isDataSocket = true → ∀ n ∈ log.filterMap Event.madeData, .closesocket (.valid n) ∈ log

instance (log : List Event) (e : Event) : Decidable (DataClosed log e) :=
  inferInstanceAs (Decidable (_ → _))

theorem acquired_closed (log : List Event) (n : Nat) :
    acquired Event.closedSocket log n = log.count (.closesocket (.valid n)) := by
  rw [acquired, List.count_filterMap, List.count]
  refine List.countP_congr fun e _ => ?_
  cases e with
  | closesocket sock => cases sock <;> simp [Event.closedSocket]
  | _ => simp [Event.closedSocket]

/-- What the client holds is not closed. -/
theorem Books.not_closed {s : Session} (h : Books s) {n : Nat} (hn : n ∈ s.client.held) :
    .closesocket (.valid n) ∉ s.log := by
  obtain ⟨-, hzero⟩ := released_eq_zero h.timed (h.sockets n) hn
  rw [acquired_closed, List.count_eq_zero] at hzero
  exact hzero

/-- **Nothing is lost** while no data socket is overwritten. -/
theorem session_no_leak (config : Config) (hasCallback : Bool) (task : Task)
    (inputs : List Input) : Books (session config hasCallback task inputs) ∧
      (Throughout DataClosed (session config hasCallback task inputs).log →
        ∀ n, lostSocket (session config hasCallback task inputs) n = 0) := by
  refine session_socket_inv (P := fun s => Books s ∧
    (Throughout DataClosed s.log → ∀ n, lostSocket s n = 0)) ?_ ?_ inputs
  · rintro s s' hstep ⟨hbooks, hzero⟩
    refine ⟨hbooks.step hstep, fun hclosed n => ?_⟩
    have hn := hzero (hclosed.of_begin hstep.log_grows) n
    rcases hstep.lostSocket with hlost | ⟨sock, hlog, hlost⟩
    · rw [hlost, hn]
    · rw [hlog, throughout_concat] at hclosed
      have hcount : (validId s.client.socketData).count n = 0 := by
        rw [List.count_eq_zero]
        intro hmem
        -- the socket that would be overwritten has been closed, so it is not there any more
        have hdata : s.client.socketData = some (.valid n) := by
          match hs : s.client.socketData with
          | none => simp [hs, validId] at hmem
          | some .invalid => simp [hs, validId] at hmem
          | some (.valid m) => simp [hs, validId] at hmem; rw [hmem]
        refine hbooks.not_closed (List.mem_append_right _ hmem) (hclosed.2 rfl n ?_)
        exact List.mem_filterMap.mpr ⟨_, hbooks.data n hdata, rfl⟩
      rw [hlost, hn, hcount]
      rfl
  · refine ⟨books_start config hasCallback task, fun _ n => ?_⟩
    rw [lostSocket, lost, acquired_none (by simp [sessionStart_log, Event.madeSocket]),
      acquired_none (by simp [sessionStart_log, Event.closedSocket])]
    rfl

theorem finish_client (inp : Input) (reason : Reason) (s : Session) :
    (finish inp reason s).client.socketCmd = none ∧
      (finish inp reason s).client.socketData = none ∧
      (finish inp reason s).client.socketSet = none := by
  obtain ⟨task, hc⟩ := (appOnly_callback inp (closeSockets s) (.disconnect reason)).client
  simp [finish, disconnect, hc, closeSockets_client]

/-- A thread that is over holds nothing. -/
theorem session_ended (config : Config) (hasCallback : Bool) (task : Task) (inputs : List Input)
    (hend : (session config hasCallback task inputs).client.thread = false) :
    (session config hasCallback task inputs).client.socketCmd = none ∧
      (session config hasCallback task inputs).client.socketData = none ∧
      (session config hasCallback task inputs).client.socketSet = none := by
  have hran := session_ran config hasCallback task inputs
  generalize session config hasCallback task inputs = s at hran hend ⊢
  cases hran with
  | running _ hthread _ => simp [hthread] at hend
  | terminated inp _ _ => exact finish_client inp _ _
  | broken inp _ _ => exact finish_client inp _ _

/-- **Every socket is closed exactly once** when no data socket is overwritten. -/
theorem sockets_closed_once (config : Config) (hasCallback : Bool) (task : Task)
    (inputs : List Input)
    (hend : (session config hasCallback task inputs).client.thread = false)
    (hclosed : Throughout DataClosed (session config hasCallback task inputs).log) :
    (∀ role n, .socket role (some (.valid n)) ∈ (session config hasCallback task inputs).log →
        (session config hasCallback task inputs).log.count (.closesocket (.valid n)) = 1) ∧
      (session config hasCallback task inputs).client.socketCmd = none ∧
      (session config hasCallback task inputs).client.socketData = none ∧
      (session config hasCallback task inputs).client.socketSet = none := by
  obtain ⟨hbooks, hzero⟩ := session_no_leak config hasCallback task inputs
  have hnone := session_ended config hasCallback task inputs hend
  refine ⟨fun role n hmade => ?_, hnone⟩
  have hheld : (session config hasCallback task inputs).client.held = [] := by
    rw [Client.held, hnone.1, hnone.2.1]
    rfl
  have hlost := hzero hclosed n
  rw [lostSocket, hheld] at hlost
  rw [← acquired_closed]
  exact released_eq_one hbooks.timed hlost (acquired_pos_iff.mpr ⟨_, hmade, rfl⟩)

theorem sockets_closed_once_broken_off :
    .socket .data (some (.valid 51)) ∈ (session .plain true .zero Input.brokenOff).log ∧
      (session .plain true .zero Input.brokenOff).log.count (.closesocket (.valid 51)) = 1 := by
  have hmade : .socket .data (some (.valid 51)) ∈
      (session .plain true .zero Input.brokenOff).log := by
    decide +kernel
  exact ⟨hmade, (sockets_closed_once .plain true .zero Input.brokenOff (by decide +kernel)
    (by decide +kernel)).1 .data 51 hmade⟩

/-- A server that says twice where it listens. -/
def repeatedPasv : List Input :=
  Input.startup ++
    [.call .list, .reply (ascii "227 (1,2,3,4,5,6)\r\n227 (1,2,3,4,5,6)\r\n"),
      .call .disconnect]

/-- **A second 227 reply leaks a socket**: the first data socket is never closed. -/
theorem data_socket_leaked : (session .plain true .zero repeatedPasv).client.thread = false ∧
    .socket .data (some (.valid 51)) ∈ (session .plain true .zero repeatedPasv).log ∧
    .closesocket (.valid 51) ∉ (session .plain true .zero repeatedPasv).log := by
  decide +kernel

/-! ## Live sockets -/

/-- The socket that the stack is called with. -/
def Event.usedSocket : Event → Option (Option Socket)
  | .fdIsset sock _ _ | .recvcount sock _ | .recv sock _ | .recvData sock _
  | .issocketconnected sock _ | .release sock _ => some sock
  | .fdSet sock _ => some (some sock)
  | _ => none

/-- The set that is waited for or looked at. -/
def Event.usedSet : Event → Option (Option Nat)
  | .fdIsset _ set _ | .select set _ => some set
  | _ => none

/-- A socket that was made and is not closed. -/
def LiveSocket (log : List Event) : Option Socket → Prop
  | some (.valid n) => n ∈ log.filterMap Event.madeSocket ∧ .closesocket (.valid n) ∉ log
  | _ => False

/-- A set that was made and is not deleted. -/
def LiveSet (log : List Event) : Option Nat → Prop
  | some n => .createSocketSet (some n) ∈ log ∧ .deleteSocketSet n ∉ log
  | none => False

instance (log : List Event) (sock : Option Socket) : Decidable (LiveSocket log sock) :=
  match sock with
  | some (.valid _) => inferInstanceAs (Decidable (_ ∧ _))
  | some .invalid => isFalse id
  | none => isFalse id

instance (log : List Event) (set : Option Nat) : Decidable (LiveSet log set) :=
  match set with
  | some _ => inferInstanceAs (Decidable (_ ∧ _))
  | none => isFalse id

/-- The stack is called with what is there. -/
def UsesLive (log : List Event) (e : Event) : Prop :=
  (∀ sock ∈ e.usedSocket, LiveSocket log sock) ∧ ∀ set ∈ e.usedSet, LiveSet log set

instance (log : List Event) (e : Event) : Decidable (UsesLive log e) :=
  inferInstanceAs (Decidable (_ ∧ _))

theorem LiveSocket.append {log es : List Event} {sock : Option Socket} (h : LiveSocket log sock)
    (hes : ∀ e ∈ es, e.isResource = false) : LiveSocket (log ++ es) sock := by
  match sock, h with
  | some (.valid n), ⟨hmade, hclosed⟩ =>
    refine ⟨by rw [List.filterMap_append]; exact List.mem_append_left _ hmade, ?_⟩
    rw [List.mem_append, not_or]
    exact ⟨hclosed, fun hmem => by simpa [Event.isResource] using hes _ hmem⟩

theorem LiveSet.append {log es : List Event} {set : Option Nat} (h : LiveSet log set)
    (hes : ∀ e ∈ es, e.isResource = false) : LiveSet (log ++ es) set := by
  match set, h with
  | some n, ⟨hmade, hdeleted⟩ =>
    refine ⟨List.mem_append_left _ hmade, ?_⟩
    rw [List.mem_append, not_or]
    exact ⟨hdeleted, fun hmem => by simpa [Event.isResource] using hes _ hmem⟩

/-- **What the client holds is there.** -/
theorem Books.live_socket {s : Session} (h : Books s) {n : Nat} (hn : n ∈ s.client.held) :
    LiveSocket s.log (some (.valid n)) := by
  obtain ⟨hmade, -⟩ := released_eq_zero h.timed (h.sockets n) hn
  exact ⟨List.count_pos_iff.mp hmade, h.not_closed hn⟩

theorem Books.live_set {s : Session} (h : Books s) {n : Nat}
    (hn : s.client.socketSet = some n) : LiveSet s.log (some n) := by
  have hlost : 0 ≤ lostSet s n := Int.le_of_eq (h.sets n).symm
  obtain ⟨hmade, hzero⟩ := released_eq_zero h.timedSet hlost (by simp [hn])
  obtain ⟨e, he, hset⟩ := acquired_pos_iff.mp hmade
  constructor
  · cases e with
    | createSocketSet set => simp only [Event.madeSet] at hset; exact hset ▸ he
    | _ => simp [Event.madeSet] at hset
  · intro hmem
    have hpos : 0 < acquired Event.deletedSet s.log n := acquired_pos_iff.mpr ⟨_, hmem, rfl⟩
    omega

/-- The client is ready for a call: a data socket is none or valid, and there is a set. -/
structure Armed (s : Session) : Prop where
  data : s.client.socketData ≠ some .invalid
  set : s.client.socketCmd ≠ none ∨ s.client.socketData ≠ none → s.client.socketSet ≠ none
  uses : Throughout UsesLive s.log

/-- A call with what the client has is a call with what is there. -/
theorem Armed.usesLive {s : Session} (h : Armed s) (hbooks : Books s) {e : Event}
    (hu : Uses s.client.socketCmd s.client.socketData s.client.socketSet e) :
    UsesLive s.log e := by
  have hcmd : ∀ {sock}, sock = s.client.socketCmd → sock ≠ none → sock ≠ some .invalid →
      LiveSocket s.log sock := by
    intro sock hs hne hinv
    match sock, hne, hinv with
    | some (.valid n), _, _ => exact hbooks.live_socket (by simp [Client.held, ← hs, validId])
    | some .invalid, _, hinv => exact absurd rfl hinv
    | none, hne, _ => exact absurd rfl hne
  have hdata : ∀ {sock}, sock = s.client.socketData → sock ≠ none → LiveSocket s.log sock := by
    intro sock hs hne
    have hinv := h.data
    rw [← hs] at hinv
    match sock, hne, hinv with
    | some (.valid n), _, _ => exact hbooks.live_socket (by simp [Client.held, ← hs, validId])
    | some .invalid, _, hinv => exact absurd rfl hinv
    | none, hne, _ => exact absurd rfl hne
  have hset : s.client.socketCmd ≠ none ∨ s.client.socketData ≠ none →
      LiveSet s.log s.client.socketSet := by
    intro hsome
    obtain ⟨n, hn⟩ := Option.ne_none_iff_exists'.mp (h.set hsome)
    rw [hn]
    exact hbooks.live_set hn
  cases e with
  | fdIsset sock set _ =>
    obtain ⟨rfl, hne, ⟨rfl, hinv⟩ | rfl⟩ := hu
    · simpa [UsesLive, Event.usedSocket, Event.usedSet]
        using ⟨hcmd rfl hne hinv, hset (Or.inl hne)⟩
    · simpa [UsesLive, Event.usedSocket, Event.usedSet] using ⟨hdata rfl hne, hset (Or.inr hne)⟩
  | fdSet sock _ =>
    obtain ⟨hinv, hs | hs⟩ := hu
    · simpa [UsesLive, Event.usedSocket, Event.usedSet]
        using hcmd hs (by simp) (by simpa using hinv)
    · simpa [UsesLive, Event.usedSocket, Event.usedSet] using hdata hs (by simp)
  | select set _ =>
    obtain ⟨rfl, hne⟩ := hu
    simpa [UsesLive, Event.usedSocket, Event.usedSet] using hset (Or.inl hne)
  | recvcount sock _ =>
    simpa [UsesLive, Event.usedSocket, Event.usedSet] using hcmd hu.1 hu.2.1 hu.2.2
  | recv sock _ =>
    simpa [UsesLive, Event.usedSocket, Event.usedSet] using hcmd hu.1 hu.2.1 hu.2.2
  | issocketconnected sock _ =>
    simpa [UsesLive, Event.usedSocket, Event.usedSet] using hcmd hu.1 hu.2.1 hu.2.2
  | recvData sock _ => simpa [UsesLive, Event.usedSocket, Event.usedSet] using hdata hu.1 hu.2
  | release sock _ => simpa [UsesLive, Event.usedSocket, Event.usedSet] using hdata hu.1 hu.2
  | _ => simp [UsesLive, Event.usedSocket, Event.usedSet]

theorem Armed.step {s s' : Session} (h : Armed s) (hbooks : Books s) (hstep : SocketStep s s')
    (hdata : .socket .data (some .invalid) ∉ s'.log) (hset : .createSocketSet none ∉ s'.log) :
    Armed s' := by
  have hquiet : ∀ {e : Event}, e.usedSocket = none → e.usedSet = none →
      Throughout UsesLive (s.log ++ [e]) := by
    intro e h1 h2
    rw [throughout_concat]
    exact ⟨h.uses, by simp [UsesLive, h1, h2]⟩
  cases hstep with
  | keep hk =>
    obtain ⟨hc, hd, hs, es, hl, hes⟩ := hk
    refine ⟨by rw [hd]; exact h.data, by rw [hc, hd, hs]; exact h.set, ?_⟩
    rw [hl]
    refine h.uses.more ?_
    rintro pre e post rfl
    rw [List.forall_mem_append, List.forall_mem_cons] at hes
    obtain ⟨hpre, he, -⟩ := hes
    obtain ⟨h1, h2⟩ := h.usesLive hbooks he.2
    exact ⟨fun sock hm => (h1 sock hm).append fun e he => (hpre e he).1,
      fun set hm => (h2 set hm).append fun e he => (hpre e he).1⟩
  | createSet inp =>
    unfold Ftp.createSet at hset ⊢
    split
    · next hnone =>
      cases hok : inp.createSocketSet s.now with
      | true => exact ⟨h.data, by simp, hquiet rfl rfl⟩
      | false => simp [hnone, hok] at hset
    · exact h
  | createCmd inp _ hnone hmade =>
    refine ⟨h.data, ?_, hquiet rfl rfl⟩
    rcases hmade with hmade | hmade | hmade
    · exact fun _ => hmade
    · exact absurd (List.mem_append_left _ hmade) hset
    · intro hsome
      refine h.set (hsome.imp_left fun hcmd => ?_)
      simp [createSocket, hmade, Client.setSocket] at hcmd
  | createData inp _ hcmd =>
    refine ⟨fun hinv => hdata ?_, fun _ => h.set (Or.inl hcmd), hquiet rfl rfl⟩
    exact List.mem_append_right _ (List.mem_singleton.mpr (congrArg _ hinv.symm))
  | close role =>
    cases hs : s.client.socket role with
    | none => rw [closeSocket_none role hs]; exact h
    | some sock =>
      rw [closeSocket_some role hs]
      cases role with
      | cmd => exact ⟨h.data, fun hsome => h.set (Or.inr
          (by simpa [Client.setSocket] using hsome)), hquiet rfl rfl⟩
      | data => exact ⟨by simp [Client.setSocket], fun hsome => h.set (Or.inl
          (by simpa [Client.setSocket] using hsome)), hquiet rfl rfl⟩
  | deleteSet _ hcmd hnone =>
    unfold Ftp.deleteSet
    split
    · exact ⟨h.data, by simp [hcmd, hnone], hquiet rfl rfl⟩
    · exact h

/--
**The worker never uses a dead socket** when no data socket is the invalid one and every set
could be made.
-/
theorem sockets_live (config : Config) (hasCallback : Bool) (task : Task) (inputs : List Input)
    (hdata : .socket .data (some .invalid) ∉ (session config hasCallback task inputs).log)
    (hset : .createSocketSet none ∉ (session config hasCallback task inputs).log) :
    Throughout UsesLive (session config hasCallback task inputs).log := by
  suffices h : Books (session config hasCallback task inputs) ∧
      (.socket .data (some .invalid) ∉ (session config hasCallback task inputs).log →
        .createSocketSet none ∉ (session config hasCallback task inputs).log →
        Armed (session config hasCallback task inputs)) from (h.2 hdata hset).uses
  refine session_socket_inv (P := fun s => Books s ∧ (.socket .data (some .invalid) ∉ s.log →
    .createSocketSet none ∉ s.log → Armed s)) ?_ ?_ inputs
  · rintro s s' hstep ⟨hbooks, harmed⟩
    refine ⟨hbooks.step hstep, fun hd hs => ?_⟩
    have hsub := hstep.log_grows.subset
    exact (harmed (fun h => hd (hsub h)) (fun h => hs (hsub h))).step hbooks hstep hd hs
  · have hcmd : (sessionStart config hasCallback task).client.socketCmd = none := rfl
    have hdata : (sessionStart config hasCallback task).client.socketData = none := rfl
    refine ⟨books_start config hasCallback task, fun _ _ => ⟨by simp [hdata], ?_, ?_⟩⟩
    · simp [hcmd, hdata]
    · simp [sessionStart_log, Throughout, ThroughoutFrom, UsesLive, Event.usedSocket,
        Event.usedSet]

theorem sockets_live_broken_off :
    .recv (some (.valid 3)) (ascii "257 ok\r\n") ∈ (session .plain true .zero Input.brokenOff).log ∧
      Throughout UsesLive (session .plain true .zero Input.brokenOff).log :=
  ⟨by decide +kernel,
    sockets_live .plain true .zero Input.brokenOff (by decide +kernel) (by decide +kernel)⟩

/-- A listing for which `FreeRTOS_socket` has no memory. -/
def noMemory : List Input :=
  Input.startup ++
    [.call .list,
      { Input.reply (ascii "227 (1,2,3,4,5,6)\r\n") with socket := fun _ => some false }]

/-- **`FREERTOS_INVALID_SOCKET` is taken for a socket**: `FreeRTOS_FD_ISSET` is called with it. -/
theorem invalid_socket_used :
    .fdIsset (some .invalid) (some 2) false ∈ (session .plain true .zero noMemory).log ∧
      ¬ Throughout UsesLive (session .plain true .zero noMemory).log := by
  decide +kernel

end UniNet.Ftp
