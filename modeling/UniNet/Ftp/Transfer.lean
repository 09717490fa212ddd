import UniNet.Ftp.Chain
import UniNet.Infra.History

/-!
# Transfers

A download or a listing is reported finished when the bytes that were delivered reach a total.
The total is what the caller gave, until a 150 reply announces another one, and it is compared
every time `work_state` runs, from the moment the command was sent.

* `session_tracked` — what the log says about a transfer is what the task says
* `download_finished_whole`, `list_finished_whole` — when `RECV_FINISHED` means what it says
-/

namespace UniNet.Ftp

open Infra Relation

/-! ## Transfers in the log -/

/-- The total behind an event. -/
def Event.total (total : Nat) : Event → Nat
  | .line text => (announcedBy text).getD total
  | _ => total

/-- The total that a transfer of this size has behind these events. -/
def announced (size : Nat) (log : List Event) : Nat := log.foldl Event.total (u32 size)

/-- How many bytes the application gets in an event. -/
def Event.payload : Event → Nat
  | .callback (.recv data) => data.length
  | _ => 0

/-- How many bytes the application gets. -/
def delivered (log : List Event) : Nat := (log.map Event.payload).sum

def Event.isSetType : Event → Bool
  | .setType _ => true
  | _ => false

/-- The events up to the next change of `task.type`. -/
def taskLog (log : List Event) : List Event := log.takeWhile fun e => !e.isSetType

/-- `RECV_FINISHED` comes after `n` bytes. -/
def Whole (n : Nat) (log : List Event) (e : Event) : Prop :=
  e = .callback .recvFinished → n ≤ delivered log

/--
When `work_state` looks at the counters before all of the `n` bytes are there, the total is
ahead of them.
-/
def Ahead (type : TaskType) (size n : Nat) (log : List Event) (e : Event) : Prop :=
  e = .workState type .requested → n ≤ delivered log ∨ u32 (delivered log) < announced size log

instance (n : Nat) (log : List Event) (e : Event) : Decidable (Whole n log e) :=
  inferInstanceAs (Decidable (_ → _))

instance (type : TaskType) (size n : Nat) (log : List Event) (e : Event) :
    Decidable (Ahead type size n log e) :=
  inferInstanceAs (Decidable (_ → _))

@[simp] theorem delivered_concat (log : List Event) (e : Event) :
    delivered (log ++ [e]) = delivered log + e.payload := by
  simp [delivered]

@[simp] theorem announced_concat (size : Nat) (log : List Event) (e : Event) :
    announced size (log ++ [e]) = e.total (announced size log) := by
  simp [announced]

/-! ## The transfer that is going on -/

/-- A transfer as the log tells it. -/
structure Transfer where
  type : TaskType
  announced : Nat
  delivered : Nat
  deriving DecidableEq

/-- The size that was asked for last, and the transfer that is going on. -/
structure Track where
  asked : Nat
  current : Option Transfer
  deriving DecidableEq

def Track.next (t : Track) : Event → Track
  | .api _ call =>
    match call.request with
    | some (_, size) => { t with asked := u32 size }
    | none => t
  | .setType type =>
    { t with current := if type.isTransfer then some ⟨type, t.asked, 0⟩ else none }
  | .line text =>
    { t with current := t.current.map fun c =>
        { c with announced := (announcedBy text).getD c.announced } }
  | .callback (.recv data) =>
    { t with current := t.current.map fun c =>
        { c with delivered := c.delivered + data.length } }
  | _ => t

def trackOf (log : List Event) : Track := log.foldl Track.next ⟨0, none⟩

@[simp] theorem trackOf_concat (log : List Event) (e : Event) :
    trackOf (log ++ [e]) = (trackOf log).next e := by
  simp [trackOf]

/-- **What the log says about a transfer**, from the request on. -/
theorem trackOf_transfer {call : ApiCall} {type : TaskType} {size : Nat}
    (hcall : call.request = some (type, size)) (inside : Option CallbackType)
    (pre : List Event) {log : List Event} (hlog : ∀ e ∈ log, e.isSetType = false) :
    (trackOf (pre ++ .api inside call :: .setType type :: log)).current
      = some ⟨type, announced size log, delivered log⟩ := by
  have htype : type.isTransfer := by
    cases call with
    | disconnect => simp [ApiCall.request] at hcall
    | download _ _ _ => exact Or.inl (Prod.mk.inj (Option.some.inj hcall)).1.symm
    | list => exact Or.inr (Prod.mk.inj (Option.some.inj hcall)).1.symm
  induction log using List.reverseRecOn with
  | nil =>
    rw [List.append_cons, List.append_cons, List.append_nil, trackOf_concat, trackOf_concat]
    simp [Track.next, hcall, htype, announced, delivered]
  | append_singleton log e ih =>
    rw [List.forall_mem_append, List.forall_mem_singleton] at hlog
    rw [← List.cons_append, ← List.cons_append, ← List.append_assoc, trackOf_concat,
      announced_concat, delivered_concat]
    have hcur := ih hlog.1
    generalize trackOf (pre ++ .api inside call :: .setType type :: log) = t at hcur ⊢
    cases e with
    | setType _ => simp [Event.isSetType] at hlog
    | api _ call =>
      cases call <;> simpa [Track.next, ApiCall.request, Event.total, Event.payload] using hcur
    | callback call => cases call <;> simp [Track.next, hcur, Event.total, Event.payload]
    | _ => simp [Track.next, hcur, Event.total, Event.payload]

/-- What `RECV_FINISHED` tells: the bytes have reached the total when `work_state` was entered. -/
def Done (log : List Event) (e : Event) : Prop :=
  e = .callback .recvFinished → ∃ t log', (trackOf log).current = some t ∧
    log = log' ++ [.workState t.type .requested] ∧ t.announced ≤ u32 t.delivered

/--
The task follows the transfer in the log. While a callback runs, `lag` bytes have been handed
over that `progress` does not count yet.
-/
structure Tracked (lag : Nat) (s : Session) : Prop where
  callback : s.client.callback = true
  follows : ∀ t, (trackOf s.log).current = some t → t.type.isTransfer ∧
    s.client.task.type = t.type ∧ s.client.task.progressTotal = t.announced ∧
    ∃ d, t.delivered = d + lag ∧ s.client.task.progress = u32 d
  going : s.client.task.type.isTransfer → (trackOf s.log).current ≠ none
  finished : Throughout Done s.log

namespace Tracked

variable {s s' : Session} {lag lag' : Nat}

/-- An event that says nothing about the transfer. -/
theorem event (h : Tracked lag s) {e : Event} (hnext : ∀ t : Track, (t.next e).current = t.current)
    (hdone : Done s.log e) (hcb : s'.client.callback = s.client.callback)
    (htype : s'.client.task.type = s.client.task.type)
    (hprogress : s'.client.task.progress = s.client.task.progress)
    (htotal : s'.client.task.progressTotal = s.client.task.progressTotal)
    (hlog : s'.log = s.log ++ [e]) : Tracked lag s' := by
  obtain ⟨h1, h2, h3, h4⟩ := h
  constructor
  · rw [hcb, h1]
  · rw [hlog, trackOf_concat, hnext, htype, hprogress, htotal]
    exact h2
  · rw [hlog, trackOf_concat, hnext, htype]
    exact h3
  · rw [hlog, throughout_concat]
    exact ⟨h4, hdone⟩

/-- The type becomes one that is no transfer. -/
theorem stop (h : Tracked lag s) (type : TaskType) (hnot : ¬ type.isTransfer)
    (hcb : s'.client.callback = s.client.callback) (htype : s'.client.task.type = type)
    (hlog : s'.log = s.log ++ [.setType type]) : Tracked lag' s' := by
  have hnone : (trackOf s'.log).current = none := by simp [hlog, Track.next, hnot]
  constructor
  · rw [hcb, h.callback]
  · simp [hnone]
  · rw [htype]
    exact fun h => absurd h hnot
  · rw [hlog, throughout_concat]
    exact ⟨h.finished, by simp [Done]⟩

/-- Without a transfer the counters are free. -/
theorem of_not_transfer (h : Tracked lag s) (hnot : ¬ s.client.task.type.isTransfer) (task : Task)
    (htype : task.type = s.client.task.type) : Tracked lag' (s.setTask task) := by
  have hnone : (trackOf s.log).current = none := by
    rw [Option.eq_none_iff_forall_ne_some]
    intro t ht
    obtain ⟨htransfer, htype, -⟩ := h.follows t ht
    exact hnot (htype ▸ htransfer)
  constructor
  · exact h.callback
  · intro t ht
    simp [hnone] at ht
  · simp only [Session.setTask_client, htype]
    exact fun h => absurd h hnot
  · exact h.finished

theorem calls (h : Tracked lag s) (hc : Calls s s') : Tracked lag s' := by
  obtain ⟨htask, ⟨-, -, hcb⟩, es, hlog, hes⟩ := hc
  have hnext : ∀ e ∈ es, ∀ t : Track, t.next e = t := by
    intro e he t
    have hcall := hes e he
    cases e <;> first | rfl | simp [Event.isCall] at hcall
  have htrack : trackOf s'.log = trackOf s.log := by
    rw [trackOf, hlog, List.foldl_append]
    exact foldl_unmoved hnext _
  constructor
  · rw [hcb, h.callback]
  · rw [htrack, htask]
    exact h.follows
  · rw [htrack, htask]
    exact h.going
  · rw [hlog, throughout_append]
    · exact h.finished
    · intro pre e he hfin
      have hcall := hes e he
      simp [hfin, Event.isCall] at hcall

theorem track_api (t : Track) (inside : Option CallbackType) (call : ApiCall) :
    (t.next (.api inside call)).current = t.current := by
  cases call <;> rfl

/-- **The application's calls are followed.** A new transfer begins with no lag. -/
theorem apiCall (h : Tracked lag s) (hidle : lag = 0 ∨ s.client.task.type ≠ .idle)
    (inside : Option CallbackType) (call : ApiCall) : Tracked lag (apiCall inside s call) ∧
      (lag = 0 ∨ (Ftp.apiCall inside s call).client.task.type ≠ .idle) := by
  have hasked : Tracked lag (s.emit (.api inside call)) :=
    h.event (track_api · inside call) (by simp [Done]) rfl rfl rfl rfl rfl
  rcases apiCall_cases inside s call with ⟨-, he⟩ | ⟨-, he⟩ |
    ⟨-, htype, task, size, hreq, htransfer, -, hprogress, htotal, he⟩
  · rw [he]
    exact ⟨hasked.stop _ (by simp [TaskType.isTransfer]) rfl rfl rfl, Or.inr (by simp)⟩
  · rw [he]
    exact ⟨hasked, hidle⟩
  · rw [he]
    have hlag : lag = 0 := hidle.resolve_right (by simp [htype])
    have hcur : (trackOf (s.log ++ [.api inside call] ++ [.setType task.type])).current
        = some ⟨task.type, u32 size, 0⟩ := by
      rw [trackOf_concat, trackOf_concat]
      simp [Track.next, hreq, htransfer]
    subst hlag
    refine ⟨⟨h.callback, ?_, ?_, ?_⟩, Or.inl rfl⟩
    · intro t ht
      obtain rfl : _ = t := Option.some.inj (hcur.symm.trans ht)
      exact ⟨htransfer, rfl, htotal, 0, rfl, hprogress⟩
    · intro _
      exact hcur ▸ Option.some_ne_none _
    · have hdone := hasked.finished
      simp only [Session.emit_log, Session.setTask_log] at hdone ⊢
      rw [throughout_concat]
      exact ⟨hdone, by simp [Done]⟩

theorem apiCalls (h : Tracked lag s) (hidle : lag = 0 ∨ s.client.task.type ≠ .idle)
    (inside : Option CallbackType) (calls : List ApiCall) :
    Tracked lag (apiCalls inside s calls) :=
  (apiCalls_inv (P := fun s => Tracked lag s ∧ (lag = 0 ∨ s.client.task.type ≠ .idle))
    (fun _ call h => h.1.apiCall h.2 inside call) ⟨h, hidle⟩ calls).1

/-- A callback is followed if its event is. -/
theorem of_callback {call : Callback} (h : Tracked lag (s.emit (.callback call))) (inp : Input)
    (hidle : lag = 0 ∨ s.client.task.type ≠ .idle) : Tracked lag (Ftp.callback inp s call) := by
  have hcb : s.client.callback = true := h.callback
  unfold Ftp.callback
  rw [if_pos hcb]
  exact h.apiCalls hidle _ _

/-- The bytes of a slice are handed over first and counted afterwards. -/
theorem slice (h : Tracked 0 s) (inp : Input) (data : Bytes)
    (htype : s.client.task.type ≠ .idle) : Tracked 0 (recvSlice inp data s) := by
  unfold recvSlice
  dsimp only
  generalize hs : (if s.client.task.state = .started then s.setState .inProgress else s) = s₁
  have h₁ : Tracked 0 s₁ ∧ s₁.client.task.type ≠ .idle := by
    rw [← hs]
    split
    · exact ⟨⟨h.callback, h.follows, h.going, h.finished⟩, htype⟩
    · exact ⟨h, htype⟩
  obtain ⟨h₁, htype₁⟩ := h₁
  have hevent : Tracked data.length (s₁.emit (.callback (.recv data))) := by
    constructor
    · exact h₁.callback
    · intro t ht
      simp only [Session.emit_log, trackOf_concat, Track.next, Option.map_eq_some_iff] at ht
      obtain ⟨c, hc, rfl⟩ := ht
      obtain ⟨h1, h2, h3, d, hd, h4⟩ := h₁.follows c hc
      exact ⟨h1, h2, h3, d, by simp [hd], h4⟩
    · intro htr
      simpa [Track.next] using h₁.going htr
    · rw [Session.emit_log, throughout_concat]
      exact ⟨h₁.finished, by simp [Done]⟩
  have hcall := hevent.of_callback inp (Or.inr htype₁)
  generalize Ftp.callback inp s₁ (.recv data) = s₂ at hcall
  have hcount : Tracked 0 (s₂.setTask
      { s₂.client.task with progress := u32 (s₂.client.task.progress + data.length) }) := by
    refine ⟨hcall.callback, ?_, hcall.going, hcall.finished⟩
    intro t ht
    obtain ⟨h1, h2, h3, d, hd, h4⟩ := hcall.follows t ht
    refine ⟨h1, h2, h3, d + data.length, by simpa using hd, ?_⟩
    simp [h4, u32]
  exact hcount.event (fun _ => rfl) (by simp [Done]) rfl rfl rfl rfl rfl

theorem setToIdle (h : Tracked lag s) : Tracked 0 (setToIdle s) := by
  have hclose := h.calls (calls_closeSocket .data s)
  exact hclose.stop .idle (by simp [TaskType.isTransfer]) rfl rfl rfl

/-- A line is followed: only a 150 reply changes the total, and none the progress. -/
theorem replied (h : Tracked 0 s) (text : Bytes) : Tracked 0 (replied s text) := by
  constructor
  · exact h.callback
  · intro t ht
    simp only [replied_log, trackOf_concat, Track.next, Option.map_eq_some_iff] at ht
    obtain ⟨c, hc, rfl⟩ := ht
    obtain ⟨h1, h2, h3, d, hd, h4⟩ := h.follows c hc
    have hstartup : s.client.task.type ≠ .startup := by
      rw [h2]
      rcases h1 with h | h <;> simp [h]
    refine ⟨h1, by simp [h2], ?_, d, hd, ?_⟩
    · simp [replyTask_progressTotal, h3]
    · rw [replied_client, replyTask_progress text hstartup, h4]
  · intro htr
    rw [replied_client, replyTask_type] at htr
    simpa [Track.next] using h.going htr
  · rw [replied_log, throughout_concat]
    exact ⟨h.finished, by simp [Done]⟩

/-- **What the log says about a transfer is what the task says**, after every act. -/
theorem act (h : Tracked 0 s) (ha : Act s s') : Tracked 0 s' := by
  cases ha with
  | @note _ e hn =>
    cases e with
    | line _ => exact hn.elim
    | callback _ => exact hn.elim
    | api _ _ => exact hn.elim
    | setType _ => exact hn.elim
    | _ => exact h.event (fun _ => rfl) (by simp [Done]) rfl rfl rfl rfl rfl
  | api _ call => exact (h.apiCall (Or.inl rfl) none call).1
  | createSet inp => exact h.calls (calls_createSet inp s)
  | createCmd inp _ _ _ _ => exact h.calls (calls_createSocket inp .cmd s)
  | createData inp _ => exact h.calls (calls_createSocket inp .data s)
  | closeData => exact h.calls (calls_closeSocket .data s)
  | closeCmd _ => exact h.calls (calls_closeSocket .cmd s)
  | deleteSet _ _ => exact h.calls (calls_deleteSet s)
  | @notify inp _ reason _ _ =>
    have hevent : Tracked 0 (s.emit (.callback (.disconnect reason))) :=
      h.event (fun _ => rfl) (by simp [Done]) rfl rfl rfl rfl rfl
    exact hevent.of_callback inp (Or.inl rfl)
  | terminate _ => exact h.stop _ (by simp [TaskType.isTransfer]) rfl rfl rfl
  | reply _ => exact h.replied _
  | slice inp _ _ _ htype =>
    exact h.slice inp _ (TaskType.ne_idle htype)
  | startupNext _ htype _ => exact h.of_not_transfer (by simp [htype, TaskType.isTransfer]) _ rfl
  | startupDone _ htype _ =>
    have hidle : Tracked 0 (s.setType .idle) := h.stop _ (by simp [TaskType.isTransfer]) rfl rfl rfl
    exact ⟨hidle.callback, hidle.follows, hidle.going, hidle.finished⟩
  | startupSend inp _ _ => exact h.event (fun _ => rfl) (by simp [Done]) rfl rfl rfl rfl rfl
  | pasv inp _ _ => exact h.event (fun _ => rfl) (by simp [Done]) rfl rfl rfl rfl rfl
  | request inp _ _ _ => exact h.event (fun _ => rfl) (by simp [Done]) rfl rfl rfl rfl rfl
  | finished inp _ htype hstate hdone =>
    obtain ⟨t, ht⟩ := Option.ne_none_iff_exists'.mp (h.going htype)
    obtain ⟨-, h2, h3, d, hd, h4⟩ := h.follows t ht
    obtain ⟨log, hlog⟩ := hstate
    have hend : Done s.log (.callback .recvFinished) := by
      refine fun _ => ⟨t, log, ht, h2 ▸ hlog, ?_⟩
      rw [← h3, hd, Nat.add_zero, ← h4]
      exact hdone
    have hevent : Tracked 0 (s.emit (.callback .recvFinished)) :=
      h.event (fun _ => rfl) hend rfl rfl rfl rfl rfl
    exact (hevent.of_callback inp (Or.inl rfl)).setToIdle
  | failed inp _ =>
    have hevent : Tracked 0 (s.emit (.callback .recvFailed)) :=
      h.event (fun _ => rfl) (by simp [Done]) rfl rfl rfl rfl rfl
    exact (hevent.of_callback inp (Or.inl rfl)).setToIdle

theorem finish (h : Tracked 0 s) (inp : Input) (reason : Reason) :
    Tracked 0 (finish inp reason s) := by
  have hclose := h.calls (calls_closeSockets s)
  have hevent : Tracked 0 ((closeSockets s).emit (.callback (.disconnect reason))) :=
    hclose.event (fun _ => rfl) (by simp [Done]) rfl rfl rfl rfl rfl
  have hcall := hevent.of_callback inp (Or.inl rfl)
  have hend : Tracked 0 (disconnect inp reason s) :=
    hcall.stop _ (by simp [TaskType.isTransfer]) rfl rfl rfl
  exact hend.event (fun _ => rfl) (by simp [Done]) rfl rfl rfl rfl rfl

end Tracked

/-- **In every session the task follows the transfer in the log.** -/
theorem session_tracked (config : Config) (task : Task) (inputs : List Input) :
    Tracked 0 (session config true task inputs) := by
  refine session_inv (fun ha h => h.act ha) (fun hb h => h.calls hb.calls)
    (fun inp reason _ h => h.finish inp reason) ?_ inputs
  constructor
  · rfl
  · simp [sessionStart_log, trackOf, Track.next, TaskType.isTransfer]
  · simp [sessionStart, threadStart, TaskType.isTransfer]
  · simp [sessionStart_log, Throughout, ThroughoutFrom, Done]

/-! ## When a transfer is finished -/

/--
**What `RECV_FINISHED` means**: if the total is ahead of the bytes at every look before the
last byte, it comes after the last byte.
-/
theorem transfer_finished_whole (config : Config) (task : Task) (inputs : List Input)
    {inside : Option CallbackType} {call : ApiCall} {type : TaskType} {size n : Nat}
    {pre post : List Event} (hcall : call.request = some (type, size))
    (hlog : (session config true task inputs).log
      = pre ++ .api inside call :: .setType type :: post)
    (hahead : Throughout (Ahead type size n) (taskLog post)) :
    Throughout (Whole n) (taskLog post) := by
  have hfin := (session_tracked config task inputs).finished
  have hmid : ∀ e ∈ taskLog post, e.isSetType = false := by
    intro e he
    simpa using List.mem_takeWhile_imp he
  rw [throughout_iff]
  rintro mid e rest htask rfl
  obtain ⟨rest', hpost⟩ : taskLog post <+: post := List.takeWhile_prefix _
  rw [htask] at hahead hpost hmid
  have hsplit : (session config true task inputs).log = (pre ++ .api inside call :: .setType type ::
      mid) ++ .callback .recvFinished :: (rest ++ rest') := by
    rw [hlog, ← hpost]
    simp
  rw [hsplit] at hfin
  obtain ⟨t, log, hcur, hlast, hle⟩ := hfin.allowed rfl
  rw [trackOf_transfer hcall inside pre (List.forall_mem_append.mp hmid).1] at hcur
  obtain rfl := Option.some.inj hcur
  -- the callback follows `work_state`, and nothing happens in between
  obtain ⟨mid, rfl⟩ : ∃ mid', mid = mid' ++ [.workState type .requested] := by
    rcases List.eq_nil_or_concat mid with rfl | ⟨mid', e, rfl⟩
    · have hset : (pre ++ [.api inside call]) ++ [.setType type]
          = log ++ [Event.workState type .requested] := by simpa using hlast
      simpa using (List.append_inj' hset rfl).2
    · rw [List.concat_eq_append, ← List.cons_append, ← List.cons_append, ← List.append_assoc]
        at hlast
      refine ⟨mid', ?_⟩
      rw [List.concat_eq_append, (List.append_inj' hlast rfl).2]
  rw [List.append_assoc] at hahead
  have hlook := hahead.allowed rfl
  simp only [announced_concat, delivered_concat, Event.total, Event.payload, Nat.add_zero]
    at hle ⊢
  omega

theorem announced_known {n : Nat} (hn : n < 2 ^ 32) {log : List Event}
    (h : ∀ text, .line text ∈ log → (announcedBy text).getD n = n) : announced n log = n := by
  induction log using List.reverseRecOn with
  | nil => exact u32_of_lt hn
  | append_singleton log e ih =>
    rw [announced_concat, ih fun text ht => h text (List.mem_append_left _ ht)]
    cases e with
    | line text => exact h text (by simp)
    | _ => rfl

/-- **A known size keeps ahead** when every 150 reply announces it, or none comes. -/
theorem ahead_of_announced {n : Nat} (hn : n < 2 ^ 32) (type : TaskType) {log : List Event}
    (h : ∀ text, .line text ∈ log → (announcedBy text).getD n = n) :
    Throughout (Ahead type n n) log := by
  rw [throughout_iff]
  rintro pre e post rfl -
  have htotal := announced_known hn fun text ht => h text (List.mem_append_left _ ht)
  have hle : u32 (delivered pre) ≤ delivered pre := Nat.mod_le ..
  omega

/--
**A download is reported finished after all its bytes** when the total is ahead of them at every
look before.
-/
theorem download_finished_whole (config : Config) (task : Task) (inputs : List Input)
    {inside : Option CallbackType} {filename : CString} {cookie : Option Nat} {size n : Nat}
    {pre post : List Event}
    (hlog : (session config true task inputs).log
      = pre ++ .api inside (.download filename cookie size) :: .setType .retr :: post)
    (hahead : Throughout (Ahead .retr size n) (taskLog post)) :
    Throughout (Whole n) (taskLog post) :=
  transfer_finished_whole config task inputs rfl hlog hahead

/-- A download of five bytes, from a server that announces them. -/
def downloadSession : Session :=
  session .plain true .zero (Input.startup ++
    [.call (.download (.ofBytes (ascii "f")) none 5), .reply (ascii "227 (1,2,3,4,5,6)\r\n"),
      .reply (ascii "150 f (5)\r\n"), .slice (ascii "hello")])

theorem download_finished_whole_five :
    Event.callback .recvFinished ∈ taskLog (downloadSession.log.drop 40) ∧
      Throughout (Whole 5) (taskLog (downloadSession.log.drop 40)) := by
  refine ⟨by decide +kernel, ?_⟩
  have hlog : downloadSession.log = downloadSession.log.take 38
      ++ .api none (.download (.ofBytes (ascii "f")) none 5) :: .setType .retr
      :: downloadSession.log.drop 40 := by decide +kernel
  exact download_finished_whole _ _ _ hlog (by decide +kernel)

/-- A download of unknown size, and nothing happens once the command is sent. -/
def silentDownload : Session :=
  session .plain true .zero (Input.startup ++
    [.call (.download (.ofBytes (ascii "f")) none 0), .reply (ascii "227 (1,2,3,4,5,6)\r\n"),
      .idle])

/-- **A download of unknown size is finished by the first timeout**, before its first byte. -/
theorem download_finished_early : silentDownload.log = silentDownload.log.take 38
      ++ .api none (.download (.ofBytes (ascii "f")) none 0) :: .setType .retr
      :: silentDownload.log.drop 40 ∧
    delivered silentDownload.log = 0 ∧
    ¬ Throughout (Whole 5) (taskLog (silentDownload.log.drop 40)) := by
  decide +kernel

/--
**A listing is reported finished after all its bytes** when the total is ahead of them at every
look before.
-/
theorem list_finished_whole (config : Config) (task : Task) (inputs : List Input)
    {inside : Option CallbackType} {n : Nat} {pre post : List Event}
    (hlog : (session config true task inputs).log
      = pre ++ .api inside .list :: .setType .list :: post)
    (hahead : Throughout (Ahead .list 0 n) (taskLog post)) :
    Throughout (Whole n) (taskLog post) :=
  transfer_finished_whole config task inputs rfl hlog hahead

/-- A listing of five bytes, from a server that announces them at once. -/
def listSession : Session :=
  session .plain true .zero (Input.listing ++
    [.reply (ascii "150 list (5)\r\n"), .slice (ascii "hello")])

theorem list_finished_whole_five :
    Event.callback .recvFinished ∈ taskLog (listSession.log.drop 40) ∧
      Throughout (Whole 5) (taskLog (listSession.log.drop 40)) := by
  refine ⟨by decide +kernel, ?_⟩
  have hlog : listSession.log = listSession.log.take 38 ++ .api none .list :: .setType .list
      :: listSession.log.drop 40 := by decide +kernel
  exact list_finished_whole _ _ _ hlog (by decide +kernel)

/-- A listing of five bytes in two slices, and a 150 reply without a count. -/
def slicedList : Session :=
  session .plain true .zero (Input.listing ++
    [.reply (ascii "150 list\r\n"), .slice (ascii "he"), .slice (ascii "llo")])

/-- **A listing is finished by its first slice**, because its total is 1. -/
theorem list_finished_early : slicedList.log = slicedList.log.take 38
      ++ .api none .list :: .setType .list :: slicedList.log.drop 40 ∧
    delivered slicedList.log = 2 ∧
    ¬ Throughout (Whole 5) (taskLog (slicedList.log.drop 40)) := by
  decide +kernel

end UniNet.Ftp
