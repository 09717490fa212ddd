import UniNet.Infra.History
import UniNet.Ftp.Moves

/-!
# The data connection

`work_data` reads the stream of the data connection in place. `FreeRTOS_recv` points at bytes
that have come and were not given back, and `FreeRTOS_ReleaseTCPPayloadBuffer` gives them back.

* `Shows` — what the stack shows, told from the log alone
* `Kept` — a slice is handed over, and then given back, before the next one is asked for
* `receivedFrom_begin` — under both, what was received from a socket begins its stream
* `dataLoop_ended` — the loop ends on a stream that does
* `data_in_order` — every task of every session gets its stream in order, and counts it
-/

namespace UniNet.Ftp

open Infra

/-! ## Bytes of the log -/

/-- What a receive brings, on the sockets that count. -/
def Event.arrived (on : Option Socket → Bool) : Event → Bytes
  | .recvData sock data => if on sock then data else []
  | _ => []

/-- What a release gives back, on the sockets that count. -/
def Event.givenBack (on : Option Socket → Bool) : Event → Bytes
  | .release sock data => if on sock then data else []
  | _ => []

/-- Everything that was received from these sockets. -/
def receivedFrom (on : Option Socket → Bool) (log : List Event) : Bytes :=
  log.flatMap (Event.arrived on)

/-- Everything that was given back to these sockets. -/
def takenFrom (on : Option Socket → Bool) (log : List Event) : Bytes :=
  log.flatMap (Event.givenBack on)

/-- All sockets. -/
def everywhere : Option Socket → Bool := fun _ => true

/-- One socket. -/
def only (sock : Option Socket) : Option Socket → Bool := fun sock' => decide (sock' = sock)

/-- The bytes that were passed to the application, and whether the last receive counts. -/
structure Handed where
  here : Bool
  bytes : Bytes
  deriving DecidableEq

def Handed.next (on : Option Socket → Bool) (q : Handed) : Event → Handed
  | .recvData sock _ => { q with here := on sock }
  | .callback (.recv data) => if q.here then { q with bytes := q.bytes ++ data } else q
  | _ => q

/-- The buffers that were passed to the application, of these sockets. -/
def handedFrom (on : Option Socket → Bool) (log : List Event) : Bytes :=
  (log.foldl (Handed.next on) ⟨false, []⟩).bytes

/-! ## The stack and the worker -/

/--
What the stack shows: bytes of the stream from the first one that was not given back. How many
they are is left to it.
-/
def Shows (stream : Option Socket → Bytes) (log : List Event) : Event → Prop
  | .recvData sock data => data <+: (stream sock).drop (takenFrom (only sock) log).length
  | _ => True

instance (stream : Option Socket → Bytes) (log : List Event) :
    (e : Event) → Decidable (Shows stream log e)
  | .recvData sock data =>
    inferInstanceAs (Decidable (data <+: (stream sock).drop (takenFrom (only sock) log).length))
  | .createSocketSet _ | .deleteSocketSet _ | .socket _ _ | .setsockopt _ _ | .connect _ _ _ _ _
  | .fdSet _ _ | .closesocket _ | .select _ _ | .fdIsset _ _ _ | .isNetworkUp _
  | .issocketconnected _ _ | .recvcount _ _ | .calloc _ | .recv _ _ | .line _ | .send _ _ _
  | .release _ _ | .callback _ | .api _ _ | .setType _ | .workState _ _ | .taskDelete =>
    isTrue trivial

/-- A slice in the hands of the worker, and whether the application has seen it. -/
structure Slice where
  sock : Option Socket
  data : Bytes
  seen : Bool
  deriving DecidableEq

/-- The slice the worker holds. -/
def heldNext (held : Option Slice) : Event → Option Slice
  | .recvData sock data => if data = [] then none else some ⟨sock, data, false⟩
  | .callback (.recv _) => held.map fun slice => { slice with seen := true }
  | .release _ _ => none
  | _ => held

def held (log : List Event) : Option Slice := log.foldl heldNext none

/--
Nothing is received while a slice is held; what the application gets is the slice; what is given
back is the slice, as it was received, and once the application is done with it.
-/
def Kept (hasCallback : Bool) (log : List Event) : Event → Prop
  | .recvData _ _ => held log = none
  | .callback (.recv data) => ∃ sock, held log = some ⟨sock, data, false⟩
  | .release sock data => held log = some ⟨sock, data, hasCallback⟩
  | .setType type => type.isTransfer → held log = none
  | _ => True

@[simp] theorem held_concat (log : List Event) (e : Event) :
    held (log ++ [e]) = heldNext (held log) e := by
  simp [held]

@[simp] theorem receivedFrom_append (on : Option Socket → Bool) (log more : List Event) :
    receivedFrom on (log ++ more) = receivedFrom on log ++ receivedFrom on more := by
  simp [receivedFrom]

@[simp] theorem takenFrom_append (on : Option Socket → Bool) (log more : List Event) :
    takenFrom on (log ++ more) = takenFrom on log ++ takenFrom on more := by
  simp [takenFrom]

/-- The bytes of a slice, if its socket counts. -/
def Slice.counted (on : Option Socket → Bool) (slice : Slice) : Bytes :=
  if on slice.sock then slice.data else []

/-- The bytes of a slice that the application has not seen. -/
def Slice.unseen (on : Option Socket → Bool) (slice : Slice) : Bytes :=
  if slice.seen then [] else slice.counted on

/-- **What was received was given back, up to the slice that is held.** -/
theorem receivedFrom_eq {hasCallback : Bool} {log : List Event}
    (h : Throughout (Kept hasCallback) log) (on : Option Socket → Bool) :
    receivedFrom on log = takenFrom on log ++ ((held log).map (Slice.counted on)).getD [] := by
  induction log using List.reverseRecOn with
  | nil => rfl
  | append_singleton log e ih =>
    rw [throughout_concat] at h
    obtain ⟨hlog, he⟩ := h
    have hr := ih hlog
    rw [receivedFrom_append, takenFrom_append, held_concat]
    cases e with
    | recvData sock data =>
      rw [show held log = none from he] at hr ⊢
      by_cases hdata : data = []
      · simpa [receivedFrom, takenFrom, Event.arrived, Event.givenBack, heldNext, hdata] using hr
      · rw [hr]
        simp [receivedFrom, takenFrom, Event.arrived, Event.givenBack, heldNext, hdata,
          Slice.counted]
    | release sock data =>
      rw [show held log = some ⟨sock, data, hasCallback⟩ from he] at hr ⊢
      rw [hr]
      simp [receivedFrom, takenFrom, Event.arrived, Event.givenBack, heldNext, Slice.counted]
    | callback call =>
      cases call with
      | recv data =>
        obtain ⟨sock, hheld⟩ := he
        rw [hheld] at hr ⊢
        rw [hr]
        simp [receivedFrom, takenFrom, Event.arrived, Event.givenBack, heldNext, Slice.counted]
      | _ => simpa [receivedFrom, takenFrom, Event.arrived, Event.givenBack, heldNext] using hr
    | _ => simpa [receivedFrom, takenFrom, Event.arrived, Event.givenBack, heldNext] using hr

/-- **What was received from a socket begins its stream**: no gap, and nothing twice. -/
theorem receivedFrom_begin {hasCallback : Bool} {stream : Option Socket → Bytes}
    {log : List Event} (h : Throughout (Kept hasCallback) log)
    (hshows : Throughout (Shows stream) log) (sock : Option Socket) :
    receivedFrom (only sock) log <+: stream sock := by
  induction log using List.reverseRecOn with
  | nil => exact List.nil_prefix
  | append_singleton log e ih =>
    rw [throughout_concat] at h hshows
    have hbegin := ih h.1 hshows.1
    rw [receivedFrom_append]
    cases e with
    | recvData sock' data =>
      by_cases hsock : sock' = sock
      · subst hsock
        have hall := receivedFrom_eq h.1 (only sock')
        rw [show held log = none from h.2, Option.map_none, Option.getD_none,
          List.append_nil] at hall
        have hnext : data <+: (stream sock').drop (receivedFrom (only sock') log).length := by
          rw [hall]
          exact hshows.2
        obtain ⟨rest, hrest⟩ := hbegin
        rw [← hrest, List.drop_left] at hnext
        rw [← hrest]
        simpa [receivedFrom, Event.arrived, only, List.prefix_append_right_inj] using hnext
      · simpa [receivedFrom, Event.arrived, only, hsock] using hbegin
    | _ => simpa [receivedFrom, Event.arrived] using hbegin

/-- The application has the slices that were received, up to one that it has not seen yet. -/
theorem handedFrom_held {log : List Event} (h : Throughout (Kept true) log)
    (on : Option Socket → Bool) :
    (∀ slice, held log = some slice →
        (log.foldl (Handed.next on) ⟨false, []⟩).here = on slice.sock) ∧
      receivedFrom on log = handedFrom on log ++ ((held log).map (Slice.unseen on)).getD [] := by
  induction log using List.reverseRecOn with
  | nil => exact ⟨by simp [held], rfl⟩
  | append_singleton log e ih =>
    rw [throughout_concat] at h
    obtain ⟨hlog, he⟩ := h
    obtain ⟨hhere, hr⟩ := ih hlog
    unfold handedFrom at hr ⊢
    simp only [List.foldl_append, List.foldl_cons, List.foldl_nil]
    rw [receivedFrom_append, held_concat]
    generalize log.foldl (Handed.next on) ⟨false, []⟩ = q at hhere hr ⊢
    cases e with
    | recvData sock data =>
      rw [show held log = none from he] at hr ⊢
      by_cases hdata : data = []
      · refine ⟨by simp [heldNext, hdata], ?_⟩
        simpa [receivedFrom, Event.arrived, heldNext, Handed.next, hdata] using hr
      · refine ⟨by simp [heldNext, hdata, Handed.next], ?_⟩
        rw [hr]
        simp [receivedFrom, Event.arrived, heldNext, Handed.next, hdata, Slice.unseen,
          Slice.counted]
    | release sock data =>
      rw [show held log = some ⟨sock, data, true⟩ from he] at hr ⊢
      refine ⟨by simp [heldNext], ?_⟩
      simpa [receivedFrom, Event.arrived, heldNext, Handed.next, Slice.unseen] using hr
    | callback call =>
      cases call with
      | recv data =>
        obtain ⟨sock, hheld⟩ := he
        have hon := hhere _ hheld
        rw [hheld] at hr ⊢
        rw [hr]
        by_cases hs : on sock = true
        · simp [receivedFrom, Event.arrived, heldNext, Handed.next, hon, hs, Slice.unseen,
            Slice.counted]
        · simp [receivedFrom, Event.arrived, heldNext, Handed.next, hon, hs, Slice.unseen,
            Slice.counted]
      | _ => exact ⟨hhere, by simpa [receivedFrom, Event.arrived, heldNext, Handed.next] using hr⟩
    | _ => exact ⟨hhere, by simpa [receivedFrom, Event.arrived, heldNext, Handed.next] using hr⟩

/-- **The application has everything that was received**, when no slice is held. -/
theorem handedFrom_eq {log : List Event} (h : Throughout (Kept true) log)
    (hfree : held log = none) (on : Option Socket → Bool) :
    handedFrom on log = receivedFrom on log := by
  have hr := (handedFrom_held h on).2
  rw [hfree] at hr
  simpa using hr.symm

/-! ## One task of many -/

theorem held_later {pre : List Event} (hfree : held pre = none) (log : List Event) :
    held (pre ++ log) = held log := by
  rw [held, List.foldl_append, ← held, hfree, held]

theorem kept_later {hasCallback : Bool} {pre log : List Event} (hfree : held pre = none)
    (h : Throughout (Kept hasCallback) (pre ++ log)) : Throughout (Kept hasCallback) log := by
  refine h.later fun l e he => ?_
  cases e with
  | recvData sock data => simpa [Kept, held_later hfree] using he
  | release sock data => simpa [Kept, held_later hfree] using he
  | setType type => simpa [Kept, held_later hfree] using he
  | callback call =>
    cases call with
    | recv data => simpa [Kept, held_later hfree] using he
    | _ => trivial
  | _ => trivial

theorem shows_later {stream : Option Socket → Bytes} {pre log : List Event}
    (h : Throughout (Shows stream) (pre ++ log)) :
    Throughout (Shows fun sock => (stream sock).drop (takenFrom (only sock) pre).length) log := by
  refine h.later fun l e he => ?_
  cases e with
  | recvData sock data => simpa [Shows, List.drop_drop] using he
  | _ => trivial

/-- What was received since the last transfer began; `none` when it is over. -/
def transferNext (q : Option Bytes) : Event → Option Bytes
  | .setType .retr | .setType .list => some []
  | .setType .startup | .setType .idle => none
  | .recvData _ data => q.map (· ++ data)
  | _ => q

def transferOf (log : List Event) : Option Bytes := log.foldl transferNext none

/-- No other task begins, and this one is not over. -/
def SameTask (es : List Event) : Prop := ∀ type, .setType type ∈ es → type = .termination

theorem transferOf_split {pre es : List Event} {type : TaskType} (htype : type.isTransfer)
    (hsame : SameTask es) :
    transferOf (pre ++ .setType type :: es) = some (receivedFrom everywhere es) := by
  have hstart : transferNext (transferOf pre) (.setType type) = some [] := by
    rcases htype with rfl | rfl <;> rfl
  rw [transferOf, List.foldl_append, List.foldl_cons, ← transferOf, hstart]
  clear hstart
  induction es using List.reverseRecOn with
  | nil => rfl
  | append_singleton es e ih =>
    have hes : SameTask es := fun t ht => hsame t (by simp [ht])
    rw [List.foldl_append, ih hes, receivedFrom_append]
    cases e with
    | setType t =>
      obtain rfl := hsame t (by simp)
      simp [transferNext, receivedFrom, Event.arrived]
    | _ => simp [transferNext, receivedFrom, Event.arrived, everywhere]

/-! ## The worker keeps the slices -/

/-- Says nothing about a slice, and begins and ends no task. -/
def Event.isStill : Event → Bool
  | .recvData _ _ | .release _ _ | .callback (.recv _) => false
  | .setType type => type == .termination
  | _ => true

/-- The worker holds no slice, kept every one so far, and has counted those of the transfer. -/
structure Streamed (hasCallback : Bool) (s : Session) : Prop where
  callback : s.client.callback = hasCallback
  kept : Throughout (Kept hasCallback) s.log
  free : held s.log = none
  count : ∀ bytes, transferOf s.log = some bytes → s.client.task.progress = u32 bytes.length ∧
    (s.client.task.type.isTransfer ∨ s.client.task.type = .termination)

section Still

variable {log es : List Event} (h : ∀ e ∈ es, e.isStill = true)

include h

theorem held_still : held (log ++ es) = held log := by
  rw [held, List.foldl_append]
  refine foldl_unmoved (fun e he q => ?_) _
  have hstill := h e he
  cases e with
  | callback call => cases call <;> first | rfl | simp [Event.isStill] at hstill
  | _ => first | rfl | simp [Event.isStill] at hstill

theorem transferOf_still : transferOf (log ++ es) = transferOf log := by
  rw [transferOf, List.foldl_append]
  refine foldl_unmoved (fun e he q => ?_) _
  have hstill := h e he
  cases e with
  | setType type =>
    obtain rfl : type = .termination := by simpa [Event.isStill] using hstill
    rfl
  | _ => first | rfl | simp [Event.isStill] at hstill

theorem kept_still (hasCallback : Bool) :
    Throughout (Kept hasCallback) (log ++ es) ↔ Throughout (Kept hasCallback) log := by
  refine throughout_append fun pre e he => ?_
  have hstill := h e he
  cases e with
  | callback call => cases call <;> trivial
  | setType type =>
    obtain rfl : type = .termination := by simpa [Event.isStill] using hstill
    simp [Kept, TaskType.isTransfer]
  | _ => trivial

end Still

theorem isStill_of_isPlain {e : Event} (h : e.isPlain = true) : e.isStill = true := by
  cases e <;> first | rfl | simp [Event.isPlain] at h

theorem isStill_of_isAsk {e : Event} (h : e.isAsk = true) : e.isStill = true := by
  cases e with
  | api inside call => rfl
  | setType type => cases type <;> first | rfl | simp [Event.isAsk] at h
  | _ => simp [Event.isAsk] at h

/-- **A slice is held until it is given back**, and the application has seen it by then. -/
theorem held_shown {hasCallback : Bool} {data : Bytes} {es log : List Event}
    (hes : Shown hasCallback data es) {sock : Option Socket}
    (hheld : held log = some ⟨sock, data, false⟩) (hlog : Throughout (Kept hasCallback) log) :
    held (log ++ es) = some ⟨sock, data, hasCallback⟩ ∧
      Throughout (Kept hasCallback) (log ++ es) ∧ transferOf (log ++ es) = transferOf log := by
  unfold Shown at hes
  split at hes
  · next hcb =>
    obtain ⟨asks, rfl, hasks⟩ := hes
    have hstill : ∀ e ∈ asks, e.isStill = true := fun e he => isStill_of_isAsk (hasks e he)
    rw [List.append_cons, held_still hstill, kept_still hstill, transferOf_still hstill,
      throughout_concat, held_concat, hheld]
    refine ⟨by simp [heldNext, hcb], ⟨hlog, sock, hheld⟩, by simp [transferOf, transferNext]⟩
  · next hcb =>
    rw [hes, List.append_nil, hheld, Bool.eq_false_of_not_eq_true hcb]
    rw [Bool.eq_false_of_not_eq_true hcb] at hlog
    exact ⟨rfl, hlog, rfl⟩

namespace Streamed

variable {hasCallback : Bool} {s s' : Session}

/-- Nothing is received, and no task begins or ends. -/
theorem still (h : Streamed hasCallback s) (es : List Event) (hlog : s'.log = s.log ++ es)
    (hes : ∀ e ∈ es, e.isStill = true) (hcb : s'.client.callback = s.client.callback)
    (htask : s.client.task.type.isTransfer ∨ s.client.task.type = .termination →
      s'.client.task.progress = s.client.task.progress ∧
        (s'.client.task.type = s.client.task.type ∨ s'.client.task.type = .termination)) :
    Streamed hasCallback s' := by
  refine ⟨hcb.trans h.callback, ?_, ?_, ?_⟩
  · rw [hlog, kept_still hes]
    exact h.kept
  · rw [hlog, held_still hes]
    exact h.free
  · intro bytes hbytes
    rw [hlog, transferOf_still hes] at hbytes
    obtain ⟨hprogress, htype⟩ := h.count bytes hbytes
    obtain ⟨hprogress', htype'⟩ := htask htype
    refine ⟨hprogress'.trans hprogress, ?_⟩
    rcases htype' with ht | ht
    · rw [ht]
      exact htype
    · exact Or.inr ht

/-- An event by itself. -/
theorem event (h : Streamed hasCallback s) {e : Event} (he : e.isStill = true) :
    Streamed hasCallback (s.emit e) :=
  h.still [e] rfl (by simpa using he) rfl fun _ => ⟨rfl, Or.inl rfl⟩

/-- A task begins, or the worker is idle. -/
theorem retype (h : Streamed hasCallback s) {type : TaskType}
    (hlog : s'.log = s.log ++ [.setType type]) (hcb : s'.client.callback = s.client.callback)
    (hne : type ≠ .termination) (htype : s'.client.task.type = type)
    (hprogress : type.isTransfer → s'.client.task.progress = 0) : Streamed hasCallback s' := by
  refine ⟨hcb.trans h.callback, ?_, ?_, ?_⟩
  · rw [hlog, throughout_concat]
    exact ⟨h.kept, fun _ => h.free⟩
  · rw [hlog, held_concat]
    exact h.free
  · intro bytes hbytes
    rw [hlog, transferOf, List.foldl_append, ← transferOf] at hbytes
    cases type with
    | retr =>
      obtain rfl : [] = bytes := by simpa [transferNext] using hbytes
      exact ⟨hprogress (Or.inl rfl), Or.inl (Or.inl htype)⟩
    | list =>
      obtain rfl : [] = bytes := by simpa [transferNext] using hbytes
      exact ⟨hprogress (Or.inr rfl), Or.inl (Or.inr htype)⟩
    | termination => exact absurd rfl hne
    | startup => simp [transferNext] at hbytes
    | idle => simp [transferNext] at hbytes

theorem apiCall (h : Streamed hasCallback s) (inside : Option CallbackType) (call : ApiCall) :
    Streamed hasCallback (apiCall inside s call) := by
  rcases apiCall_cases inside s call with
    ⟨-, he⟩ | ⟨-, he⟩ | ⟨-, -, task, -, -, ht, -, hprogress, -, he⟩
  · rw [he]
    exact h.still [.api inside call, .setType .termination] (by simp) (by simp [Event.isStill])
      rfl fun _ => ⟨rfl, Or.inr rfl⟩
  · rw [he]
    exact h.event rfl
  · rw [he]
    refine (h.event (e := .api inside call) rfl).retype rfl rfl ?_ rfl fun _ => hprogress
    rcases ht with ht | ht <;> simp [ht]

/-- **A slice is received, seen, counted and given back.** -/
theorem slice (h : Streamed hasCallback s) (inp : Input) {data : Bytes} (hne : data ≠ [])
    (htype : s.client.task.type.isTransfer ∨ s.client.task.type = .termination) :
    Streamed hasCallback
      (recvSlice inp data (s.emit (.recvData s.client.socketData data))) := by
  obtain ⟨es, task, hes, ht, hprogress, -, hrun⟩ := slice_spec inp data htype
  rw [hrun, List.append_cons, ← List.append_assoc]
  have hheld : held (s.log ++ [.recvData s.client.socketData data])
      = some ⟨s.client.socketData, data, false⟩ := by
    simp [heldNext, hne]
  have hrecv : Throughout (Kept hasCallback) (s.log ++ [.recvData s.client.socketData data]) :=
    throughout_concat.mpr ⟨h.kept, h.free⟩
  rw [h.callback] at hes
  obtain ⟨hheld', hkept, htransfer⟩ := held_shown hes hheld hrecv
  refine ⟨h.callback, ?_, ?_, ?_⟩
  · exact throughout_concat.mpr ⟨hkept, hheld'⟩
  · rw [held_concat]
    rfl
  · intro bytes hbytes
    rw [transferOf, List.foldl_append, ← transferOf] at hbytes
    rw [htransfer, transferOf, List.foldl_append, ← transferOf] at hbytes
    obtain ⟨before, hbefore, rfl⟩ : ∃ before, transferOf s.log = some before ∧
        before ++ data = bytes := by
      simpa [transferNext] using hbytes
    refine ⟨?_, ?_⟩
    · rw [hprogress, (h.count before hbefore).1, List.length_append, u32, u32,
        u32, Nat.mod_add_mod]
    · rcases ht with ht | ht
      · rw [ht]
        exact htype
      · exact Or.inr ht

theorem workStateStartup (h : Streamed hasCallback s) (inp : Input)
    (htype : s.client.task.type = .startup) : Streamed hasCallback (workStateStartup inp s) := by
  have hno : ¬ (s.client.task.type.isTransfer ∨ s.client.task.type = .termination) := by
    simp [htype, TaskType.isTransfer]
  rcases workStateStartup_cases inp htype with he | ⟨task, ht, he⟩ | ⟨i, task, -, -, -, -, -, he⟩
  · rw [he]
    exact h
  · rw [he]
    exact h.retype rfl rfl (by simp) ht (by simp [TaskType.isTransfer])
  · rw [he]
    exact h.still _ rfl (by simp [Event.isStill]) rfl fun ht => absurd ht hno

theorem move (h : Streamed hasCallback s) (hm : Move s s') : Streamed hasCallback s' := by
  cases hm with
  | plain hp =>
    obtain ⟨htask, -, hcb, es, hlog, hes⟩ := hp
    refine h.still es hlog (fun e he => isStill_of_isPlain (hes e he)) hcb fun _ => ?_
    rw [htask]
    exact ⟨rfl, Or.inl rfl⟩
  | api inside _ call => exact h.apiCall inside call
  | @notify _ call hcall =>
    refine h.event ?_
    cases call <;> first | rfl | exact absurd rfl hcall
  | terminate =>
    exact h.still [.setType .termination] rfl (by simp [Event.isStill]) rfl
      fun _ => ⟨rfl, Or.inr rfl⟩
  | line _ text =>
    refine h.still [.line text] rfl (by simp [Event.isStill]) rfl fun ht => ?_
    refine ⟨replyTask_progress text ?_, Or.inl (replyTask_type ..)⟩
    rcases ht with (ht | ht) | ht <;> simp [ht]
  | password inp _ _ => exact h.event rfl
  | login inp _ _ => exact h.event rfl
  | nothing =>
    refine ⟨h.callback, throughout_concat.mpr ⟨h.kept, h.free⟩, by simp [heldNext], ?_⟩
    intro bytes hbytes
    rw [Session.emit_log, transferOf, List.foldl_append, ← transferOf] at hbytes
    exact h.count bytes (by simpa [transferNext] using hbytes)
  | slice inp _ hne htype => exact h.slice inp hne htype
  | look => exact h.event rfl
  | startup inp _ htype _ => exact h.workStateStartup inp htype
  | passive inp _ _ _ _ =>
    exact h.still _ rfl (by simp [Event.isStill]) rfl fun _ => ⟨rfl, Or.inl rfl⟩
  | retr inp _ _ _ _ =>
    exact h.still _ rfl (by simp [Event.isStill]) rfl fun _ => ⟨rfl, Or.inl rfl⟩
  | list inp _ _ _ _ =>
    exact h.still _ rfl (by simp [Event.isStill]) rfl fun _ => ⟨rfl, Or.inl rfl⟩
  | idle _ hdata =>
    have hlog : (setToIdle s).log = s.log ++ [.setType .idle] := by
      rw [setToIdle_log, closeSocket_none .data hdata]
    exact h.retype hlog (by rw [setToIdle_client]) (by simp) (by rw [setToIdle_client])
      (by simp [TaskType.isTransfer])

end Streamed

/-! ## The loop -/

/-- Where the loop of `work_data` is: the session, what is left of the stream, whether it ended. -/
structure Reading where
  session : Session
  unread : Bytes
  ended : Bool

/--
The loop of `work_data` over a stream, for so many rounds. At each time the stack shows as many
of the unread bytes as `cut` allows.
-/
def dataLoop (inp : Input) (cut : Nat → Nat) : Nat → Session → Bytes → Reading
  | 0, s, unread => ⟨s, unread, false⟩
  | k + 1, s, unread =>
    let data := unread.take (cut s.now)
    let s := s.emit (.recvData s.client.socketData data)
    if data = [] then ⟨s, unread, true⟩
    else
      let s := recvSlice inp data s
      let unread := unread.drop data.length
      if s.client.task.progress < s.client.task.progressTotal then dataLoop inp cut k s unread
      else ⟨s, unread, true⟩

/-- A slice leaves less of the stream. -/
theorem length_drop_slice {unread : Bytes} {n k : Nat} (hne : unread.take n ≠ [])
    (hk : unread.length < k + 1) : (unread.drop (unread.take n).length).length < k := by
  have hpos := List.length_pos_iff.mpr hne
  have hle := List.length_take_le n unread
  rw [List.length_take] at hpos
  rw [List.length_drop, List.length_take]
  omega

/-- **The loop ends** within one round more than there are bytes. -/
theorem dataLoop_ended (inp : Input) (cut : Nat → Nat) (k : Nat) (s : Session) (unread : Bytes)
    (hk : unread.length < k) : (dataLoop inp cut k s unread).ended = true := by
  induction k generalizing s unread with
  | zero => omega
  | succ k ih =>
    unfold dataLoop
    dsimp only
    split
    · rfl
    · next hne =>
      split
      · exact ih _ _ (length_drop_slice hne hk)
      · rfl

/-- The slices of the receives. -/
def slices (log : List Event) : List Bytes :=
  log.filterMap fun
    | .recvData _ data => some data
    | _ => none

/-- A receive of a loop that began at `now` shows as many of the unread bytes as `cut` allows. -/
def CutBy (cut : Nat → Nat) (unread : Bytes) (now : Nat) (log : List Event) : Event → Prop
  | .recvData _ data =>
    data = (unread.drop (slices log).flatten.length).take (cut (now + log.length))
  | _ => True

@[simp] theorem slices_append (log more : List Event) :
    slices (log ++ more) = slices log ++ slices more := by
  simp [slices]

@[simp] theorem slices_recvData (sock : Option Socket) (data : Bytes) (log : List Event) :
    slices (.recvData sock data :: log) = data :: slices log := rfl

/-- Nothing is received. -/
def NoRecv (es : List Event) : Prop := ∀ e ∈ es, ∀ sock data, e ≠ .recvData sock data

theorem slices_noRecv {es : List Event} (h : NoRecv es) : slices es = [] := by
  refine List.filterMap_eq_nil_iff.mpr fun e he => ?_
  cases e with
  | recvData sock data => exact absurd rfl (h _ he sock data)
  | _ => rfl

/-- **What a round leaves in the log**: one receive. -/
theorem recvSlice_log (inp : Input) (data : Bytes) {s : Session}
    (htype : s.client.task.type.isTransfer ∨ s.client.task.type = .termination) : ∃ round,
      (recvSlice inp data (s.emit (.recvData s.client.socketData data))).log
        = s.log ++ .recvData s.client.socketData data :: round ∧ NoRecv round := by
  obtain ⟨es, task, hes, -, -, -, hrun⟩ := slice_spec inp data htype
  refine ⟨es ++ [.release s.client.socketData data], by rw [hrun], ?_⟩
  unfold NoRecv
  rw [List.forall_mem_append, List.forall_mem_singleton]
  refine ⟨hes.forall_mem (by simp) ?_, by simp⟩
  rintro e he sock bytes rfl
  cases he

/-- Behind a round the loop is one over what is left. -/
theorem throughout_cutBy_round {cut : Nat → Nat} {unread data : Bytes} {now : Nat}
    {sock : Option Socket} {round es : List Event} (hdata : data = unread.take (cut now))
    (hround : NoRecv round)
    (hes : Throughout (CutBy cut (unread.drop data.length) (now + (round.length + 1))) es) :
    Throughout (CutBy cut unread now) (.recvData sock data :: round ++ es) := by
  have hrecv : Throughout (CutBy cut unread now) [.recvData sock data] :=
    ⟨by simpa [CutBy, slices] using hdata, trivial⟩
  have hfirst : Throughout (CutBy cut unread now) ([.recvData sock data] ++ round) := by
    refine (throughout_append fun pre e he => ?_).mpr hrecv
    cases e with
    | recvData sock' data' => exact absurd rfl (hround _ he sock' data')
    | _ => trivial
  refine hfirst.more ?_
  rintro pre e post rfl
  have hlast := hes.allowed
  cases e with
  | recvData sock' data' =>
    simpa [CutBy, slices_noRecv hround, List.drop_drop, Nat.add_assoc, Nat.add_comm,
      Nat.add_left_comm] using hlast
  | _ => trivial

/--
The receives of a loop that ended show what `cut` allows, and the loop of the worker makes the
same of them.
-/
theorem dataLoop_eq (inp : Input) (cut : Nat → Nat) (k : Nat) {s : Session} (unread : Bytes)
    (htype : s.client.task.type.isTransfer ∨ s.client.task.type = .termination)
    (hk : unread.length < k) : ∃ es,
      (dataLoop inp cut k s unread).session.log = s.log ++ es ∧
        Throughout (CutBy cut unread s.now) es ∧
        (slices es).flatten ++ (dataLoop inp cut k s unread).unread = unread ∧
        (dataLoop inp cut k s unread).session = workDataLoop inp (slices es) s := by
  induction k generalizing s unread with
  | zero => omega
  | succ k ih =>
    unfold dataLoop
    dsimp only
    generalize hdata : unread.take (cut s.now) = data
    split
    · next hnil =>
      subst hnil
      refine ⟨[.recvData s.client.socketData []], rfl, ⟨?_, trivial⟩, rfl, rfl⟩
      simpa [CutBy, slices] using hdata.symm
    · next hne =>
      have hrest : data ++ unread.drop data.length = unread := by
        rw [← hdata]
        exact List.prefix_iff_eq_append.mp (List.take_prefix (cut s.now) unread)
      obtain ⟨round, hlog, hround⟩ := recvSlice_log inp data htype
      have hnone := slices_noRecv hround
      split
      · next hmore =>
        have hlt : (unread.drop data.length).length < k := by
          rw [← hdata] at hne ⊢
          exact length_drop_slice hne hk
        obtain ⟨es, hes, hcuts, hall, heq⟩ := ih
          (s := recvSlice inp data (s.emit (.recvData s.client.socketData data)))
          (unread.drop data.length) (recvSlice_goes_on inp data htype) hlt
        refine ⟨.recvData s.client.socketData data :: round ++ es, ?_, ?_, ?_, ?_⟩
        · rw [hes, hlog, List.append_assoc]
        · refine throughout_cutBy_round hdata.symm hround ?_
          simpa [Session.now, hlog] using hcuts
        · simpa [hnone] using (congrArg (data ++ ·) hall).trans hrest
        · simp only [List.cons_append, slices_recvData, slices_append, hnone, List.nil_append,
            workDataLoop, hne, hmore, if_true, if_false]
          exact heq
      · next hdone =>
        refine ⟨.recvData s.client.socketData data :: round, hlog, ?_, ?_, ?_⟩
        · rw [← List.append_nil (.recvData s.client.socketData data :: round)]
          exact throughout_cutBy_round hdata.symm hround throughout_nil
        · simpa [hnone] using hrest
        · simp [hnone, workDataLoop, hne, hdone]

/-- After every round the worker is where its moves lead. -/
theorem moves_dataLoop (inp : Input) (cut : Nat → Nat) (k : Nat) {s : Session} (unread : Bytes)
    (htype : s.client.task.type.isTransfer ∨ s.client.task.type = .termination) :
    Moves s (dataLoop inp cut k s unread).session := by
  induction k generalizing s unread with
  | zero => exact .refl
  | succ k ih =>
    unfold dataLoop
    dsimp only
    split
    · next hnil =>
      rw [hnil]
      exact .single (.nothing s)
    · next hne =>
      have hslice : Moves s _ := .single (.slice inp s hne htype)
      split
      · exact hslice.trans (ih _ (recvSlice_goes_on inp _ htype))
      · exact hslice

/-! ## Sessions -/

/-- What a task had of the stream: `pre` is what came before it, and `es` what came since. -/
structure InOrder (hasCallback : Bool) (stream : Option Socket → Bytes) (pre es : List Event)
    (progress : Nat) : Prop where
  received : ∀ sock,
    receivedFrom (only sock) es <+: (stream sock).drop (takenFrom (only sock) pre).length
  handed : hasCallback = true → ∀ on, handedFrom on es = receivedFrom on es
  progress : progress = u32 (receivedFrom everywhere es).length

/-- **A task of a session that kept its slices had the stream in order.** -/
theorem Streamed.inOrder {hasCallback : Bool} {s : Session} (h : Streamed hasCallback s)
    {stream : Option Socket → Bytes} (hshows : Throughout (Shows stream) s.log)
    {pre es : List Event} {type : TaskType} (hlog : s.log = pre ++ .setType type :: es)
    (htype : type.isTransfer) (hsame : SameTask es) :
    InOrder hasCallback stream pre es s.client.task.progress := by
  have hkept := h.kept
  have hfree := h.free
  rw [hlog] at hkept
  -- no slice is held where the task begins, so its part of the log stands by itself
  have hpre : held (pre ++ [.setType type]) = none := by
    rw [held_concat]
    exact hkept.allowed htype
  rw [List.append_cons] at hlog hkept
  rw [hlog] at hshows
  rw [hlog, held_later hpre] at hfree
  have htask := kept_later hpre hkept
  refine ⟨fun sock => ?_, ?_, ?_⟩
  · have hbegin := receivedFrom_begin htask (shows_later hshows) sock
    simpa [takenFrom, Event.givenBack] using hbegin
  · rintro rfl on
    exact handedFrom_eq htask hfree on
  · refine (h.count _ ?_).1
    rw [hlog, ← List.append_cons]
    exact transferOf_split htype hsame

/-- Wherever a session gets to. -/
theorem streamed_of_moves {config : Config} {hasCallback : Bool} {task : Task} {s : Session}
    (hs : Moves (sessionStart config hasCallback task) s) : Streamed hasCallback s := by
  refine moves_inv (fun hm h => h.move hm) hs ⟨rfl, ?_, rfl, ?_⟩
  · rw [sessionStart_log]
    simp [Throughout, ThroughoutFrom, Kept, TaskType.isTransfer]
  · intro bytes hbytes
    rw [sessionStart_log] at hbytes
    simp [transferOf, transferNext] at hbytes

/--
**Data is handed over in order and accounted for.** Wherever a session gets to, with a stack that
shows the streams, a task that is under way had the stream from where it began, without a gap or
a repetition; every slice was given back once, as it was received and after the application was
done with it; and the loop of `work_data` ends on what is left of the stream, however it is cut,
with the slices of that cut.
-/
theorem data_in_order (config : Config) (hasCallback : Bool) (task : Task)
    (stream : Option Socket → Bytes) {s : Session}
    (hs : Moves (sessionStart config hasCallback task) s)
    (hshows : Throughout (Shows stream) s.log) :
    (∀ pre type es, s.log = pre ++ .setType type :: es → type.isTransfer → SameTask es →
        InOrder hasCallback stream pre es s.client.task.progress) ∧
      (Throughout (Kept hasCallback) s.log ∧ held s.log = none) ∧
      ∀ inp cut unread, s.client.task.type.isTransfer →
        (∃ es, (dataLoop inp cut (unread.length + 1) s unread).session.log = s.log ++ es ∧
          Throughout (CutBy cut unread s.now) es ∧
          (slices es).flatten ++ (dataLoop inp cut (unread.length + 1) s unread).unread = unread ∧
          (dataLoop inp cut (unread.length + 1) s unread).ended = true ∧
          (dataLoop inp cut (unread.length + 1) s unread).session
            = workDataLoop inp (slices es) s) ∧
        ∀ k, Moves (sessionStart config hasCallback task)
          (dataLoop inp cut k s unread).session := by
  have hstreamed : Streamed hasCallback s := streamed_of_moves hs
  refine ⟨?_, ⟨hstreamed.kept, hstreamed.free⟩, ?_⟩
  · intro pre type es hlog htype hsame
    exact hstreamed.inOrder hshows hlog htype hsame
  · intro inp cut unread htype
    obtain ⟨es, hlog, hcuts, hall, heq⟩ :=
      dataLoop_eq inp cut (unread.length + 1) unread (Or.inl htype) (by omega)
    have hended := dataLoop_ended inp cut (unread.length + 1) s unread (by omega)
    refine ⟨⟨es, hlog, hcuts, hall, hended, heq⟩, fun k => ?_⟩
    exact hs.trans (moves_dataLoop inp cut k unread (Or.inl htype))

/-- A listing that came in two slices so far, with more to come. -/
def Input.sliced : List Input :=
  Input.listing ++
    [.reply (ascii "150 (4 bytes)\r\n"), .slice (ascii "ab"), .slice (ascii "c")]

/-- The session with it. -/
def listed : Session := session .plain true .zero Input.sliced

/-- What was logged before the listing, and since. -/
def beforeList : List Event := listed.log.takeWhile fun e => e ≠ .setType .list

def sinceList : List Event := (listed.log.dropWhile fun e => e ≠ .setType .list).tail

/-- The first three bytes of a listing of four, and then the fourth. -/
theorem data_in_order_listing :
    Throughout (Shows fun _ => ascii "abcd") listed.log ∧
      (InOrder true (fun _ => ascii "abcd") beforeList sinceList listed.client.task.progress ∧
        handedFrom everywhere sinceList = ascii "abc" ∧ listed.client.task.progress = 3) ∧
      held listed.log = none ∧
      ∃ es, (dataLoop .idle (fun _ => 1) 2 listed (ascii "d")).session.log = listed.log ++ es ∧
        Throughout (CutBy (fun _ => 1) (ascii "d") listed.now) es ∧
        (slices es).flatten = ascii "d" ∧
        (dataLoop .idle (fun _ => 1) 2 listed (ascii "d")).session
          = workDataLoop .idle (slices es) listed := by
  have hshows : Throughout (Shows fun _ => ascii "abcd") listed.log := by
    decide +kernel
  have hsame : SameTask sinceList := by
    intro type hmem
    cases type <;> first | rfl | exact absurd hmem (by decide +kernel)
  obtain ⟨htasks, ⟨-, hheld⟩, hloop⟩ := data_in_order .plain true .zero (fun _ => ascii "abcd")
    (session_moves .plain true .zero Input.sliced) hshows
  have horder := htasks beforeList .list sinceList (by decide +kernel) (by decide +kernel) hsame
  obtain ⟨⟨es, hlog, hcuts, hall, -, heq⟩, -⟩ :=
    hloop .idle (fun _ => 1) (ascii "d") (by decide +kernel)
  have hunread : (dataLoop .idle (fun _ => 1) 2 listed (ascii "d")).unread = [] := by
    decide +kernel
  refine ⟨hshows, ⟨horder, by decide +kernel, by decide +kernel⟩, hheld, es, hlog, hcuts, ?_, heq⟩
  rw [← List.append_nil (slices es).flatten, ← hunread]
  exact hall

end UniNet.Ftp
