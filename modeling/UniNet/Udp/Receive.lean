import UniNet.Infra.History
import UniNet.Infra.Ledger
import UniNet.Udp.Server

/-!
# The receive loop

The task receives a batch of datagrams without copying them and then hands them to `on_receive`
one by one. Each payload is a buffer of the stack that has to be given back, and the stop request
may come at any time.

`Books` relates the log to the list of what is in the batch and not dispatched yet. There is one
lemma for each thing that happens to a datagram, and the steps of the task are made of these.

* `Books.empty`, `Books.arrive`, `Books.dispatch` — what happens to a datagram
* `recvBatch_books`, `dispatchBatch_books` — the steps of the two loops
* `server_books` — the books are right after any run
* `batch_over` — a batch that was begun is finished, whatever else happens
-/

namespace UniNet.Udp

open Infra

/-! ## Datagrams in the log -/

/-- A datagram as `on_receive` gets it. -/
structure Delivery where
  payload : Nat
  length : Nat
  source : Endpoint
  deriving DecidableEq

/-- The item of a batch that holds it. -/
def Delivery.item (d : Delivery) : RxItem := ⟨some d.payload, d.length, d.source, true⟩

/-- The datagram in an item. -/
def RxItem.delivery (item : RxItem) : Option Delivery :=
  item.payload.map fun payload => ⟨payload, item.length, item.source⟩

/-- A datagram of positive length that is received. -/
def arrived : ServerEvent → Option Delivery
  | .recvfrom _ _ (.datagram payload length source) =>
    if 0 < length then some ⟨payload, length, endpointFromSockaddr source⟩ else none
  | _ => none

/-- A datagram that is passed to `on_receive`. -/
def delivered : ServerEvent → Option Delivery
  | .onReceive _ _ payload length source => some ⟨payload, length, source⟩
  | _ => none

/-- A payload that the stack hands out. -/
def handed : ServerEvent → Option Nat
  | .recvfrom _ _ (.datagram payload _ _) => some payload
  | _ => none

/-- A payload that is given back. -/
def released : ServerEvent → Option Nat
  | .release payload => some payload
  | _ => none

/-- A payload that nobody needs any more: its call of `on_receive` has returned, or there is
none because it is empty. -/
def done : ServerEvent → Option Nat
  | .returned payload => some payload
  | .recvfrom _ _ (.datagram payload length _) => if 0 < length then none else some payload
  | _ => none

/-- A payload is given back only when there is one that is done and was not given back. -/
def ReleasedAfter (log : List ServerEvent) (e : ServerEvent) : Prop :=
  ∀ payload, released e = some payload →
    acquired released log payload < acquired done log payload

theorem releasedAfter_other {log : List ServerEvent} {e : ServerEvent} (h : released e = none) :
    ReleasedAfter log e := by
  intro payload hp
  rw [h] at hp
  exact absurd hp.symm (Option.some_ne_none _)

/-- Accesses are inside `batch`, and no more is spent than there is. -/
def Fits (b : ServerBuild) : ServerEvent → Prop
  | .store i => i < b.batchDepth
  | .fetch i => i < b.batchDepth
  | .spend budget received => received ≤ budget
  | _ => True

/-! ## The books -/

/-- What the log says when `ds` is received and not dispatched yet. -/
structure Books (b : ServerBuild) (log : List ServerEvent) (ds : List Delivery) : Prop where
  positive : ∀ d ∈ ds, 0 < d.length
  order : log.filterMap arrived = log.filterMap delivered ++ ds
  owned : ∀ p, acquired handed log p
    = acquired released log p + (ds.map Delivery.payload).count p
  even : ∀ p, acquired released log p = acquired done log p
  after : Throughout ReleasedAfter log
  fits : ∀ e ∈ log, Fits b e

/-- An event that has nothing to do with datagrams. -/
def Quiet (b : ServerBuild) (e : ServerEvent) : Prop :=
  arrived e = none ∧ delivered e = none ∧ handed e = none ∧ released e = none ∧ done e = none
    ∧ Fits b e

theorem books_nil (b : ServerBuild) : Books b [] [] :=
  ⟨by simp, rfl, fun _ => rfl, fun _ => rfl, throughout_nil, by simp⟩

namespace Books

variable {b : ServerBuild} {log : List ServerEvent} {ds : List Delivery}

/-- What the events have to say for themselves when they make `ds'` of `ds`. -/
theorem add {es : List ServerEvent} {ds' : List Delivery} (h : Books b log ds)
    (hpos : ∀ d ∈ ds', 0 < d.length)
    (horder : ds ++ es.filterMap arrived = es.filterMap delivered ++ ds')
    (howned : ∀ p, (ds.map Delivery.payload).count p + acquired handed es p
      = acquired released es p + (ds'.map Delivery.payload).count p)
    (heven : ∀ p, acquired released es p = acquired done es p)
    (hafter : ThroughoutFrom ReleasedAfter log es) (hfits : ∀ e ∈ es, Fits b e) :
    Books b (log ++ es) ds' := by
  refine ⟨hpos, ?_, ?_, ?_, ?_, ?_⟩
  · rw [List.filterMap_append, List.filterMap_append, h.order, List.append_assoc, horder,
      List.append_assoc]
  · intro p
    have hp := h.owned p
    have hq := howned p
    rw [acquired_append, acquired_append]
    omega
  · intro p
    rw [acquired_append, acquired_append, h.even p, heven p]
  · exact throughoutFrom_append.mpr ⟨h.after, hafter⟩
  · intro e he
    rcases List.mem_append.mp he with he | he
    · exact h.fits e he
    · exact hfits e he

/-- A release is allowed when one more payload is done than is given back. -/
theorem releasedAfter {es : List ServerEvent} {payload : Nat} (h : Books b log ds)
    (hreleased : acquired released es payload = 0) (hdone : 0 < acquired done es payload) :
    ReleasedAfter (log ++ es) (.release payload) := by
  intro p hp
  obtain rfl := Option.some.inj hp
  rw [acquired_append, acquired_append, hreleased, h.even]
  omega

theorem quiet {es : List ServerEvent} (h : Books b log ds) (hes : ∀ e ∈ es, Quiet b e) :
    Books b (log ++ es) ds := by
  have harrived : es.filterMap arrived = [] :=
    List.filterMap_eq_nil_iff.mpr fun e he => (hes e he).1
  have hdelivered : es.filterMap delivered = [] :=
    List.filterMap_eq_nil_iff.mpr fun e he => (hes e he).2.1
  have hhanded : ∀ p, acquired handed es p = 0 := acquired_none fun e he => (hes e he).2.2.1
  have hreleased : ∀ p, acquired released es p = 0 :=
    acquired_none fun e he => (hes e he).2.2.2.1
  have hdone : ∀ p, acquired done es p = 0 := acquired_none fun e he => (hes e he).2.2.2.2.1
  refine h.add h.positive ?_ ?_ ?_ ?_ fun e he => (hes e he).2.2.2.2.2
  · rw [harrived, hdelivered, List.append_nil, List.nil_append]
  · intro p
    rw [hhanded, hreleased, Nat.zero_add, Nat.add_zero]
  · intro p
    rw [hreleased, hdone]
  · have hall : Throughout ReleasedAfter (log ++ es) := by
      refine (throughout_append ?_).mpr h.after
      intro pre e he
      exact releasedAfter_other (hes e he).2.2.2.1
    exact (throughoutFrom_append.mp hall).2

/-- The budget is spent. -/
theorem spend {budget received : Nat} (h : Books b log ds) (hle : received ≤ budget) :
    Books b (log ++ [.spend budget received]) ds := by
  refine h.quiet ?_
  intro e he
  obtain rfl := List.mem_singleton.mp he
  exact ⟨rfl, rfl, rfl, rfl, rfl, hle⟩

/-- A call that hands out nothing. -/
theorem error (h : Books b log ds) (socket : SocketHandle) (wait : Bool) (errno : Nat) :
    Books b (log ++ [.recvfrom socket wait (.error errno)]) ds := by
  refine h.quiet ?_
  intro e he
  obtain rfl := List.mem_singleton.mp he
  exact ⟨rfl, rfl, rfl, rfl, rfl, trivial⟩

/-- An empty datagram is given back at once. -/
theorem empty (h : Books b log ds) (socket : SocketHandle) (wait : Bool) (payload : Nat)
    (source : Sockaddr) :
    Books b (log ++ [.recvfrom socket wait (.datagram payload 0 source), .release payload])
      ds := by
  refine h.add h.positive (List.append_nil ds) ?_ (fun _ => rfl)
    ⟨releasedAfter_other rfl, ?_, trivial⟩ ?_
  · intro p
    exact Nat.add_comm _ _
  · exact h.releasedAfter rfl (List.count_pos_iff.mpr (List.mem_singleton_self payload))
  · simp [Fits]

/-- A datagram is stored in the batch. -/
theorem arrive (h : Books b log ds) (socket : SocketHandle) (wait : Bool) {payload length i : Nat}
    {source : Sockaddr} (hlen : 0 < length) (hi : i < b.batchDepth) :
    Books b (log ++ [.recvfrom socket wait (.datagram payload length source), .store i])
      (ds ++ [⟨payload, length, endpointFromSockaddr source⟩]) := by
  refine h.add ?_ ?_ ?_ ?_ ⟨releasedAfter_other rfl, releasedAfter_other rfl, trivial⟩ ?_
  · intro d hd
    rcases List.mem_append.mp hd with hd | hd
    · exact h.positive d hd
    · obtain rfl := List.mem_singleton.mp hd
      exact hlen
  · simp [List.filterMap_cons, arrived, delivered, hlen]
  · intro p
    simp [acquired, List.filterMap_cons, handed, released]
  · intro p
    simp [acquired, List.filterMap_cons, released, done, hlen]
  · simp [Fits, hi]

/-- The first datagram of the batch goes to `on_receive` and is given back. -/
theorem dispatch {d : Delivery} (h : Books b log (d :: ds)) (callback user : Nat) {i : Nat}
    (hi : i < b.batchDepth) :
    Books b (log ++ [.fetch i, .onReceive callback user d.payload d.length d.source,
      .returned d.payload, .release d.payload]) ds := by
  refine h.add (fun d' hd' => h.positive d' (List.mem_cons_of_mem d hd')) (List.append_nil _) ?_
    (fun _ => rfl) ?_ ?_
  · intro p
    rw [List.map_cons, List.count_cons, Nat.add_comm (List.count p _)]
    simp [acquired, List.filterMap_cons, handed, released, List.count_singleton]
  · refine ⟨releasedAfter_other rfl, releasedAfter_other rfl, releasedAfter_other rfl, ?_, trivial⟩
    rw [List.append_assoc, List.append_assoc]
    exact h.releasedAfter rfl (List.count_pos_iff.mpr (List.mem_singleton_self d.payload))
  · simp [Fits, hi]

end Books

/-! ## The batch -/

/-- The items that are in the batch and not dispatched yet. -/
def TaskPc.slice : TaskPc → List RxItem
  | .recvBatch burst _ count => burst.items.take count
  | .dispatch burst count i => (burst.items.take count).drop i
  | _ => []

/-- The counters are inside the batch and the budget. -/
def TaskPc.InBounds (b : ServerBuild) : TaskPc → Prop
  | .inner burst => burst.items.length = b.batchDepth
  | .recvBatch burst capacity count =>
    burst.items.length = b.batchDepth ∧ capacity ≤ burst.budget ∧ capacity ≤ b.batchDepth
      ∧ count ≤ capacity
  | .dispatch burst count i => burst.items.length = b.batchDepth ∧ count ≤ b.batchDepth ∧ i ≤ count
  | _ => True

/-- How many steps of the task the batch still takes, at most. -/
def TaskPc.left : TaskPc → Nat
  | .recvBatch _ capacity count => capacity - count + capacity + 2
  | .dispatch _ count i => count - i + 1
  | _ => 0

/-- The books are right for a task that is at `pc`. -/
def TaskPc.Keeps (b : ServerBuild) (log : List ServerEvent) (pc : TaskPc) : Prop :=
  pc.InBounds b ∧ ∃ ds, pc.slice = ds.map Delivery.item ∧ Books b log ds

/-- The same for the server. -/
def Server.Keeps (b : ServerBuild) (s : Server) (log : List ServerEvent) : Prop :=
  (s.task = none → Books b log []) ∧ ∀ pc, s.task = some pc → pc.Keeps b log

theorem Server.Keeps.of_some {b : ServerBuild} {s : Server} {log : List ServerEvent} {pc : TaskPc}
    (hpc : s.task = some pc) (h : pc.Keeps b log) : s.Keeps b log := by
  refine ⟨fun hnone => absurd (hpc.symm.trans hnone) (Option.some_ne_none _), ?_⟩
  intro pc' hpc'
  obtain rfl := Option.some.inj (hpc.symm.trans hpc')
  exact h

section

variable {b : ServerBuild} {s : Server} {log : List ServerEvent} {burst : Burst}
  {capacity count i : Nat}

theorem batchEnd_books {ds : List Delivery} (hlength : burst.items.length = b.batchDepth)
    (hbudget : count ≤ burst.budget) (hdepth : count ≤ b.batchDepth)
    (hslice : burst.items.take count = ds.map Delivery.item) (h : Books b log ds) :
    (batchEnd burst count s).1.Keeps b (log ++ (batchEnd burst count s).2) := by
  unfold batchEnd
  split
  · rename_i hzero
    subst hzero
    refine .of_some rfl ⟨trivial, ds, hslice, ?_⟩
    rw [List.append_nil]
    exact h
  · exact .of_some rfl ⟨⟨hlength, hdepth, Nat.zero_le _⟩, ds, hslice, h.spend hbudget⟩

/-- The next item is stored. -/
theorem recvBatch_arrives {payload length : Nat} (source : Sockaddr) (hmore : count < capacity)
    (hlen : 0 < length) :
    recvBatch (.datagram payload length source) burst capacity count s
      = (s.goto (.recvBatch { burst with
            items := burst.items.set count
              (Delivery.item ⟨payload, length, endpointFromSockaddr source⟩) }
            capacity (count + 1)),
          [.recvfrom burst.socket (count == 0 && burst.waitForFirst)
            (.datagram payload length source), .store count]) := by
  have hrv : mapTimeoutToWouldblock (RecvOutcome.datagram payload length source).result = length :=
    mapTimeout_length length
  unfold recvBatch
  dsimp only
  rw [if_pos hmore, hrv, if_neg (by omega)]
  rfl

/-- An empty datagram ends the batch. -/
theorem recvBatch_empty (payload : Nat) (source : Sockaddr) (hmore : count < capacity) :
    recvBatch (.datagram payload 0 source) burst capacity count s
      = ((batchEnd burst count s).1,
          [.recvfrom burst.socket (count == 0 && burst.waitForFirst) (.datagram payload 0 source),
            .release payload] ++ (batchEnd burst count s).2) := by
  unfold recvBatch
  rw [if_pos hmore]
  rfl

/-- So does an error, which may count as a drop. -/
theorem recvBatch_error (errno : Nat) (hmore : count < capacity) :
    let s' := if mapTimeoutToWouldblock (-errno) < 0 then { s with ctx := s.ctx.addDrops 1 } else s
    recvBatch (.error errno) burst capacity count s
      = ((batchEnd burst count s').1,
          [.recvfrom burst.socket (count == 0 && burst.waitForFirst) (.error errno)]
            ++ (batchEnd burst count s').2) := by
  have hrv : mapTimeoutToWouldblock (RecvOutcome.error errno).result ≤ 0 := mapTimeout_error errno
  unfold recvBatch
  dsimp only
  rw [if_pos hmore, if_pos hrv]
  rfl

/-- Storing the next item makes the list of the items longer. -/
theorem take_set_next {α : Type*} {l : List α} {n : Nat} (x : α) (h : n < l.length) :
    (l.set n x).take (n + 1) = l.take n ++ [x] := by
  rw [List.take_add_one, List.take_set_of_le (Nat.le_refl n), List.getElem?_set_self h]
  rfl

/-- **A round of the receiving loop keeps the books.** -/
theorem recvBatch_books (recv : RecvOutcome)
    (h : (TaskPc.recvBatch burst capacity count).Keeps b log) :
    (recvBatch recv burst capacity count s).1.Keeps b
      (log ++ (recvBatch recv burst capacity count s).2) := by
  obtain ⟨⟨hlength, hbudget, hdepth, hcount⟩, ds, hslice, hbooks⟩ := h
  have hend : ∀ (s : Server) (es : List ServerEvent), Books b (log ++ es) ds →
      (batchEnd burst count s).1.Keeps b (log ++ (es ++ (batchEnd burst count s).2)) := by
    intro s es hes
    rw [← List.append_assoc]
    exact batchEnd_books hlength (hcount.trans hbudget) (hcount.trans hdepth) hslice hes
  by_cases hmore : count < capacity
  · cases recv with
    | datagram payload length source =>
      by_cases hlen : 0 < length
      · rw [recvBatch_arrives source hmore hlen]
        refine .of_some rfl ⟨⟨?_, hbudget, hdepth, hmore⟩, _, ?_,
          hbooks.arrive _ _ hlen (hmore.trans_le hdepth)⟩
        · rw [List.length_set, hlength]
        · rw [List.map_append, ← hslice]
          exact take_set_next _ (by omega)
      · obtain rfl := Nat.eq_zero_of_not_pos hlen
        rw [recvBatch_empty payload source hmore]
        exact hend s _ (hbooks.empty ..)
    | error errno =>
      rw [recvBatch_error errno hmore]
      exact hend _ _ (hbooks.error ..)
  · unfold recvBatch
    rw [if_neg hmore]
    exact batchEnd_books hlength (hcount.trans hbudget) (hcount.trans hdepth) hslice hbooks

/-- The item that is read is the first one that waits, and it goes to `on_receive`. -/
theorem dispatchBatch_delivers (hcallback : s.ctx.config.onReceive.isSome = true)
    (h : (TaskPc.dispatch burst count i).Keeps b log) (hmore : i < count) :
    ∃ callback d ds, (burst.items.take count).drop (i + 1) = ds.map Delivery.item
      ∧ Books b log (d :: ds)
      ∧ dispatchBatch burst count i s
        = (s.goto (.dispatch burst count (i + 1)),
            [.fetch i, .onReceive callback s.ctx.config.user d.payload d.length d.source,
              .returned d.payload, .release d.payload]) := by
  obtain ⟨⟨hlength, hcount, hi⟩, ds, hslice, hbooks⟩ := h
  have hlt : i < (burst.items.take count).length := by rw [List.length_take]; omega
  obtain ⟨d, ds, rfl⟩ : ∃ d ds', ds = d :: ds' := by
    cases ds with
    | nil => simp [TaskPc.slice] at hslice; omega
    | cons d ds => exact ⟨d, ds, rfl⟩
  rw [TaskPc.slice, List.drop_eq_getElem_cons hlt, List.map_cons, List.cons.injEq] at hslice
  have hitem : burst.items.getD i .zero = d.item := by
    rw [← hslice.1, List.getElem_take, List.getD_eq_getElem?_getD, List.getElem?_eq_getElem]
    rfl
  obtain ⟨callback, hcb⟩ := Option.isSome_iff_exists.mp hcallback
  have hdeliver : deliver s.ctx.config d.item
      = some [.onReceive callback s.ctx.config.user d.payload d.length d.source,
          .returned d.payload] := by
    simp only [deliver, hcb, Delivery.item]
    exact if_pos (hbooks.positive d (List.mem_cons_self ..))
  refine ⟨callback, d, ds, hslice.2, hbooks, ?_⟩
  unfold dispatchBatch
  dsimp only
  rw [if_pos hmore, hitem, hdeliver]
  rfl

/-- **A round of the dispatching loop keeps the books.** -/
theorem dispatchBatch_books (hcallback : s.ctx.config.onReceive.isSome = true)
    (h : (TaskPc.dispatch burst count i).Keeps b log) :
    (dispatchBatch burst count i s).1.Keeps b (log ++ (dispatchBatch burst count i s).2) := by
  have ⟨⟨hlength, hcount, _⟩, ds, hslice, hbooks⟩ := h
  by_cases hmore : i < count
  · obtain ⟨callback, d, ds, hrest, hbooks, hstep⟩ := dispatchBatch_delivers hcallback h hmore
    rw [hstep]
    exact .of_some rfl ⟨⟨hlength, hcount, hmore⟩, ds, hrest,
      hbooks.dispatch callback _ (hmore.trans_le hcount)⟩
  · have hnil : ds = [] := by
      rw [TaskPc.slice, List.drop_eq_nil_of_le (by rw [List.length_take]; omega)] at hslice
      exact List.map_eq_nil_iff.mp hslice.symm
    subst hnil
    unfold dispatchBatch
    rw [if_neg hmore]
    refine .of_some rfl ⟨hlength, [], rfl, ?_⟩
    rw [List.append_nil]
    exact hbooks

/-! ## The other steps -/

/-- The calls that the task makes outside the batch. -/
def ServerEvent.isSetup : ServerEvent → Bool
  | .mutexCreated _ | .mutexDeleted _ | .take _ | .give _ | .socketOpened _ | .socketClosed _
  | .timeouts .. | .rxQueue .. | .bind .. | .taskExit => true
  | _ => false

theorem quiet_of_isSetup {e : ServerEvent} (h : e.isSetup = true) : Quiet b e := by
  cases e <;> first | exact ⟨rfl, rfl, rfl, rfl, rfl, trivial⟩ | exact Bool.noConfusion h

/-- A place outside the batch, or where one begins. -/
def TaskPc.Begins (pc : TaskPc) : Prop :=
  pc.left = 0 ∨ ∃ burst capacity, pc = .recvBatch burst capacity 0

theorem TaskPc.Begins.slice_nil {pc : TaskPc} (h : pc.Begins) : pc.slice = [] := by
  rcases h with hleft | ⟨burst, capacity, rfl⟩
  · cases pc with
    | recvBatch => exact absurd hleft (Nat.succ_ne_zero _)
    | dispatch => exact absurd hleft (Nat.succ_ne_zero _)
    | _ => rfl
  · rfl

/-- What a step from outside the batch leaves: a place of that kind, or no task, and the counters
as they were. -/
structure Server.Outside (b : ServerBuild) (s s' : Server) : Prop where
  place : ∀ pc, s'.task = some pc → pc.InBounds b ∧ pc.Begins
  packets : s'.ctx.rxPacketsTotal = s.ctx.rxPacketsTotal
  drops : s'.ctx.rxDropTotal = s.ctx.rxDropTotal

theorem Server.Outside.of_some {s' : Server} {pc : TaskPc} (hpc : s'.task = some pc)
    (hplace : pc.InBounds b ∧ pc.Begins) (hpackets : s'.ctx.rxPacketsTotal = s.ctx.rxPacketsTotal)
    (hdrops : s'.ctx.rxDropTotal = s.ctx.rxDropTotal) : s.Outside b s' := by
  refine ⟨fun pc' hpc' => ?_, hpackets, hdrops⟩
  obtain rfl := Option.some.inj (hpc.symm.trans hpc')
  exact hplace

/-- **A step of the task outside the batch.** -/
theorem taskStep_outside (a : TaskAnswer) {pc : TaskPc} (hpc : s.task = some pc)
    (hbounds : pc.InBounds b) (hleft : pc.left = 0) :
    s.Outside b (taskStep b a s pc).1 ∧ ∀ e ∈ (taskStep b a s pc).2, e.isSetup = true := by
  cases pc with
  | recvBatch => exact absurd hleft (Nat.succ_ne_zero _)
  | dispatch => exact absurd hleft (Nat.succ_ne_zero _)
  | exit =>
    refine ⟨⟨fun pc h => ?_, rfl, rfl⟩, by simp [taskStep, ServerEvent.isSetup]⟩
    exact absurd h.symm (Option.some_ne_none _)
  | network | checkStop | checkInitialized | checkIdle | idle | outer | applyTimeouts | bind =>
    refine ⟨.of_some rfl ?_ rfl rfl, by simp [taskStep, ServerEvent.isSetup]⟩
    split <;> exact ⟨trivial, Or.inl rfl⟩
  | createMutex | createSocket =>
    simp only [taskStep]
    split <;> exact ⟨.of_some rfl ⟨trivial, Or.inl rfl⟩ rfl rfl, by simp [ServerEvent.isSetup]⟩
  | tuneQueue | closeSocket =>
    refine ⟨.of_some rfl ⟨trivial, Or.inl rfl⟩ rfl rfl, ?_⟩
    simp only [taskStep]
    split <;> simp [ServerEvent.isSetup]
  | deleteMutex =>
    refine ⟨.of_some rfl ⟨trivial, Or.inl rfl⟩ rfl rfl, ?_⟩
    simp [taskStep, ServerEvent.isSetup]
  | lockTake =>
    simp only [taskStep]
    split
    · split
      · exact ⟨.of_some hpc ⟨trivial, Or.inl rfl⟩ rfl rfl, by simp⟩
      · exact ⟨.of_some rfl ⟨trivial, Or.inl rfl⟩ rfl rfl, by simp [ServerEvent.isSetup]⟩
    · exact ⟨.of_some rfl ⟨trivial, Or.inl rfl⟩ rfl rfl, by simp⟩
  | lockGive socket =>
    -- the batch of a new burst is empty
    have hnext : ∀ next : TaskPc, next = (if socket.isValid = true then
        .inner ⟨socket, List.replicate b.batchDepth .zero, b.burstBudget, true⟩ else .outer) →
        next.InBounds b ∧ next.Begins := by
      rintro next rfl
      split
      · exact ⟨List.length_replicate, Or.inl rfl⟩
      · exact ⟨trivial, Or.inl rfl⟩
    simp only [taskStep]
    split
    · exact ⟨.of_some rfl (hnext _ rfl) rfl rfl, by simp [ServerEvent.isSetup]⟩
    · exact ⟨.of_some rfl (hnext _ rfl) rfl rfl, by simp⟩
  | inner burst =>
    refine ⟨.of_some rfl ?_ rfl rfl, by simp [taskStep]⟩
    split
    · exact ⟨⟨hbounds, Nat.min_le_left .., Nat.min_le_right .., Nat.zero_le _⟩,
        Or.inr ⟨_, _, rfl⟩⟩
    · exact ⟨trivial, Or.inl rfl⟩
  | setInitialized | invalidateSocket | clearLock | readSocket =>
    exact ⟨.of_some rfl ⟨trivial, Or.inl rfl⟩ rfl rfl, by simp [taskStep]⟩

/-- **A step of the task keeps the books.** -/
theorem taskStep_books (a : TaskAnswer) {pc : TaskPc} (hpc : s.task = some pc)
    (hallowed : pc.Allowed s.ctx) (h : pc.Keeps b log) :
    (taskStep b a s pc).1.Keeps b (log ++ (taskStep b a s pc).2) := by
  by_cases hleft : pc.left = 0
  · obtain ⟨hbounds, ds, hslice, hbooks⟩ := h
    have hnil : ds = [] := by
      rw [TaskPc.Begins.slice_nil (Or.inl hleft)] at hslice
      exact List.map_eq_nil_iff.mp hslice.symm
    subst hnil
    obtain ⟨hplace, hevents⟩ := taskStep_outside a hpc hbounds hleft
    have hnext : Books b (log ++ (taskStep b a s pc).2) [] :=
      hbooks.quiet fun e he => quiet_of_isSetup (hevents e he)
    refine ⟨fun _ => hnext, fun pc' hpc' => ?_⟩
    obtain ⟨hbounds', hbegins⟩ := hplace.place pc' hpc'
    exact ⟨hbounds', [], hbegins.slice_nil, hnext⟩
  · cases pc with
    | recvBatch burst capacity count => exact recvBatch_books a.recv h
    | dispatch burst count i => exact dispatchBatch_books hallowed h
    | _ => exact absurd rfl hleft

/-- The caller does not move the task. -/
theorem stopStep_task (s : Server) (pc : StopPc) : (stopStep s pc).1.task = s.task := by
  cases pc with
  | lockCheck | lockTake | lockGive | waitTask | closeSocket | giveAgain | deleteMutex =>
    simp only [stopStep]
    split <;> rfl
  | lockAgain =>
    simp only [stopStep]
    split
    · split <;> rfl
    · rfl
  | _ => rfl

/-- The caller has nothing to do with datagrams. -/
theorem stopStep_quiet (s : Server) (pc : StopPc) : ∀ e ∈ (stopStep s pc).2, Quiet b e := by
  cases pc with
  | lockCheck | waitTask =>
    simp only [stopStep]
    split <;> exact List.forall_mem_nil _
  | setOption | lockGive | closeSocket | giveAgain | deleteMutex =>
    simp only [stopStep]
    split
    · exact List.forall_mem_singleton.mpr ⟨rfl, rfl, rfl, rfl, rfl, trivial⟩
    · exact List.forall_mem_nil _
  | lockTake =>
    simp only [stopStep]
    split
    · exact List.forall_mem_nil _
    · exact List.forall_mem_singleton.mpr ⟨rfl, rfl, rfl, rfl, rfl, trivial⟩
  | lockAgain =>
    simp only [stopStep]
    split
    · split
      · exact List.forall_mem_nil _
      · exact List.forall_mem_singleton.mpr ⟨rfl, rfl, rfl, rfl, rfl, trivial⟩
    · exact List.forall_mem_nil _
  | clear => exact List.forall_mem_singleton.mpr ⟨rfl, rfl, rfl, rfl, rfl, trivial⟩
  | outside | request | invalidateSocket => exact List.forall_mem_nil _

/-- A step that does not move the task keeps the books. -/
theorem Server.Keeps.quiet {s' : Server} {es : List ServerEvent} (h : s.Keeps b log)
    (htask : s'.task = s.task) (hes : ∀ e ∈ es, Quiet b e) : s'.Keeps b (log ++ es) := by
  refine ⟨fun hnone => (h.1 (htask ▸ hnone)).quiet hes, ?_⟩
  intro pc hpc
  obtain ⟨hbounds, ds, hslice, hbooks⟩ := h.2 pc (htask ▸ hpc)
  exact ⟨hbounds, ds, hslice, hbooks.quiet hes⟩

theorem startStep_books (cfg : Option ServerConfig) (created : Option Nat) (h : Books b log []) :
    (startStep cfg created s).1.Keeps b (log ++ (startStep cfg created s).2) := by
  have hes : Books b (log ++ (startStep cfg created s).2) [] :=
    h.quiet (List.forall_mem_singleton.mpr ⟨rfl, rfl, rfl, rfl, rfl, trivial⟩)
  cases created with
  | some task => exact .of_some rfl ⟨trivial, [], rfl, hes⟩
  | none => exact ⟨fun _ => hes, fun pc hpc => absurd hpc.symm (Option.some_ne_none _)⟩

/-- **Every step keeps the books.** -/
theorem serverStep_books (act : ServerAct) (hwf : s.Wf) (h : s.Keeps b log) :
    (serverStep b act s).1.Keeps b (log ++ (serverStep b act s).2) := by
  cases act with
  | start cfg created =>
    simp only [serverStep]
    split
    · rename_i hfree
      exact startStep_books cfg created (h.1 hfree.2)
    · exact h.quiet rfl (List.forall_mem_nil _)
  | stop =>
    simp only [serverStep]
    split <;> exact h.quiet rfl (List.forall_mem_nil _)
  | caller => exact h.quiet (stopStep_task s s.caller) (stopStep_quiet s s.caller)
  | task a =>
    simp only [serverStep]
    split
    · rename_i pc hpc
      exact taskStep_books a hpc (hwf.task pc hpc) (h.2 pc hpc)
    · exact h.quiet rfl (List.forall_mem_nil _)

end

/-- **The books are right after any run.** -/
theorem server_books (b : ServerBuild) (acts : List ServerAct) :
    (run (serverStep b) acts .init).1.Keeps b (run (serverStep b) acts .init).2 := by
  have hboth := run_inv (serverStep b) (P := fun s log => s.Wf ∧ s.Keeps b log)
    (fun act _ _ h => ⟨serverStep_wf b act h.1, serverStep_books act h.1 h.2⟩)
    ⟨init_wf, fun _ => books_nil b, fun _ hpc => absurd hpc.symm (Option.some_ne_none _)⟩ acts
  exact hboth.2

/-! ## A batch is finished -/

/-- The same for the server. -/
def Server.left (s : Server) : Nat :=
  match s.task with
  | some pc => pc.left
  | none => 0

/-- The datagrams that are received and not dispatched yet, in their order. -/
def Server.waiting (s : Server) : List Delivery :=
  match s.task with
  | some pc => pc.slice.filterMap RxItem.delivery
  | none => []

def ServerAct.isTask : ServerAct → Bool
  | .task _ => true
  | _ => false

theorem Server.left_some {s : Server} {pc : TaskPc} (h : s.task = some pc) : s.left = pc.left := by
  rw [Server.left, h]

/-- The books, with what waits. -/
theorem Server.Keeps.books {b : ServerBuild} {s : Server} {log : List ServerEvent}
    (h : s.Keeps b log) : Books b log s.waiting := by
  cases htask : s.task with
  | none =>
    rw [Server.waiting, htask]
    exact h.1 htask
  | some pc =>
    obtain ⟨-, ds, hslice, hbooks⟩ := h.2 pc htask
    have hwaiting : s.waiting = ds := by
      rw [Server.waiting, htask]
      dsimp only
      rw [hslice, List.filterMap_map]
      exact List.filterMap_some
    rw [hwaiting]
    exact hbooks

/-- Outside the batch nothing waits. -/
theorem Server.waiting_nil {s : Server} (h : s.left = 0) : s.waiting = [] := by
  cases htask : s.task with
  | none => rw [Server.waiting, htask]
  | some pc =>
    rw [s.left_some htask] at h
    rw [Server.waiting, htask]
    dsimp only
    rw [TaskPc.Begins.slice_nil (Or.inl h)]
    rfl

section

variable {b : ServerBuild} {s : Server} {log : List ServerEvent}

theorem batchEnd_left (burst : Burst) (count : Nat) :
    (batchEnd burst count s).1.left ≤ count + 1 := by
  unfold batchEnd
  split
  · exact Nat.zero_le _
  · exact Nat.le_refl _

/-- In a batch every step of the task brings its end closer. -/
theorem taskStep_left (a : TaskAnswer) {pc : TaskPc} (hbounds : pc.InBounds b)
    (hleft : pc.left ≠ 0) : (taskStep b a s pc).1.left < pc.left := by
  cases pc with
  | recvBatch burst capacity count =>
    obtain ⟨-, -, -, hcount⟩ := hbounds
    have hend := fun s : Server => batchEnd_left (s := s) burst count
    simp only [taskStep, recvBatch, TaskPc.left]
    split
    · split
      · exact (hend _).trans_lt (by omega)
      · rw [Server.left_some rfl, TaskPc.left]
        omega
    · exact (hend _).trans_lt (by omega)
  | dispatch burst count i =>
    simp only [taskStep, dispatchBatch, TaskPc.left]
    split
    · split
      · rw [Server.left_some rfl, TaskPc.left]
        omega
      · rw [Server.left_some rfl, TaskPc.left]
        omega
    · exact Nat.succ_pos _
  | _ => exact absurd rfl hleft

/-- Nothing else matters to it. -/
theorem serverStep_left {act : ServerAct} (hact : act.isTask = false) (hleft : s.left ≠ 0) :
    (serverStep b act s).1.left = s.left := by
  cases act with
  | start cfg created =>
    simp only [serverStep]
    split
    · rename_i hfree
      rw [Server.left, hfree.2] at hleft
      exact absurd rfl hleft
    · rfl
  | stop =>
    simp only [serverStep]
    split <;> rfl
  | caller =>
    have htask : (serverStep b .caller s).1.task = s.task := stopStep_task s s.caller
    rw [Server.left, Server.left, htask]
  | task a => exact Bool.noConfusion hact

/-- **A batch that was begun is finished** once the task has taken enough steps, whatever the
stack answers and whatever the caller does meanwhile. -/
theorem batch_over : ∀ (more : List ServerAct) {s : Server} {log : List ServerEvent}, s.Wf →
    s.Keeps b log → s.left ≤ (more.filter ServerAct.isTask).length →
    ∃ pre, pre <+: more ∧ (run (serverStep b) pre s).1.left = 0
  | [], _, _, _, _, hleft => ⟨[], List.prefix_rfl, Nat.le_zero.mp hleft⟩
  | act :: more, s, log, hwf, h, hleft => by
    by_cases hover : s.left = 0
    · exact ⟨[], List.nil_prefix, hover⟩
    · have hnext : (serverStep b act s).1.left ≤ (more.filter ServerAct.isTask).length := by
        cases hact : act.isTask with
        | false =>
          rw [serverStep_left hact hover]
          rwa [List.filter_cons_of_neg (by rw [hact]; exact Bool.false_ne_true)] at hleft
        | true =>
          rw [List.filter_cons_of_pos hact, List.length_cons] at hleft
          cases act with
          | task a =>
            cases htask : s.task with
            | none =>
              rw [Server.left, htask] at hover
              exact absurd rfl hover
            | some pc =>
              rw [s.left_some htask] at hover hleft
              have hstep := taskStep_left (s := s) a (h.2 pc htask).1 hover
              simp only [serverStep, htask]
              omega
          | _ => exact absurd hact Bool.false_ne_true
      obtain ⟨pre, hpre, hzero⟩ :=
        batch_over more (serverStep_wf b act hwf) (serverStep_books act hwf h) hnext
      exact ⟨act :: pre, List.cons_prefix_cons.mpr ⟨rfl, hpre⟩, hzero⟩

/-- A batch takes no more than two rounds through its items. -/
theorem Server.Keeps.left_le (h : s.Keeps b log) : s.left ≤ 2 * b.batchDepth + 2 := by
  cases htask : s.task with
  | none =>
    rw [Server.left, htask]
    exact Nat.zero_le _
  | some pc =>
    rw [s.left_some htask]
    have hbounds := (h.2 pc htask).1
    cases pc with
    | recvBatch burst capacity count =>
      obtain ⟨-, -, hdepth, -⟩ := hbounds
      simp only [TaskPc.left]
      omega
    | dispatch burst count i =>
      obtain ⟨-, hcount, -⟩ := hbounds
      simp only [TaskPc.left]
      omega
    | _ => exact Nat.zero_le _

end

/-! ## The receive loop -/

/--
**The receive loop loses nothing.** After any run, whatever the stack answers and whenever the
caller asks the task to stop:

* the datagrams of positive length that came in are those that `on_receive` got, in the same
  order and each with its own length and source, and then those that wait in the batch
* every payload that was handed out was given back once, or waits in the batch
* none was given back before its call of `on_receive` returned
* the batch was accessed at its items only, and no more was spent than the budget had
* the batch is finished once the task has taken `2 * batchDepth + 2` more steps, so that nothing
  waits then, stop or not
-/
theorem receive_conserved (b : ServerBuild) (acts : List ServerAct) :
    let s := (run (serverStep b) acts .init).1
    let log := (run (serverStep b) acts .init).2
    log.filterMap arrived = log.filterMap delivered ++ s.waiting
      ∧ (∀ p, acquired handed log p
          = acquired released log p + (s.waiting.map Delivery.payload).count p)
      ∧ Throughout ReleasedAfter log
      ∧ (∀ e ∈ log, Fits b e)
      ∧ ∀ more : List ServerAct, 2 * b.batchDepth + 2 ≤ (more.filter ServerAct.isTask).length →
          ∃ pre, pre <+: more ∧ (run (serverStep b) (acts ++ pre) .init).1.waiting = [] := by
  intro s log
  have hkeeps : s.Keeps b log := server_books b acts
  have hbooks := hkeeps.books
  refine ⟨hbooks.order, hbooks.owned, hbooks.after, hbooks.fits, ?_⟩
  intro more hmore
  obtain ⟨pre, hpre, hover⟩ :=
    batch_over more (server_wf b acts) hkeeps (hkeeps.left_le.trans hmore)
  refine ⟨pre, hpre, ?_⟩
  rw [run_append]
  exact Server.waiting_nil hover

/--
Two datagrams come in, the task is asked to stop, and an empty datagram ends the batch. The task
goes on as far as its first call of `on_receive`.
-/
def batchActs : List ServerAct :=
  upActs ++ [.answered (.datagram 100 3 ⟨.inet, 1, 2⟩), .answered (.datagram 101 5 ⟨.inet, 3, 4⟩),
    .stop, .caller, .answered (.datagram 102 0 ⟨.inet, 1, 2⟩), .answered (.error 11)]

/-- One of them has been delivered, and the other one is not lost. -/
theorem receive_conserved_stop :
    (serverAfter batchActs).1.ctx.stopRequested = true
      ∧ (serverAfter batchActs).2.filterMap delivered = [⟨100, 3, ⟨2, 1⟩⟩]
      ∧ (serverAfter batchActs).1.waiting = [⟨101, 5, ⟨4, 3⟩⟩]
      ∧ (serverAfter batchActs).2.filterMap arrived = [⟨100, 3, ⟨2, 1⟩⟩, ⟨101, 5, ⟨4, 3⟩⟩]
      ∧ acquired released (serverAfter batchActs).2 100 = 1
      ∧ Throughout ReleasedAfter (serverAfter batchActs).2
      ∧ ∃ pre, pre <+: List.replicate 18 (.answered (.error 11))
        ∧ (serverAfter (batchActs ++ pre)).1.waiting = [] := by
  obtain ⟨horder, howned, hafter, -, hover⟩ := receive_conserved .standard batchActs
  have hdelivered : (serverAfter batchActs).2.filterMap delivered = [⟨100, 3, ⟨2, 1⟩⟩] := by
    decide +kernel
  have hwaiting : (serverAfter batchActs).1.waiting = [⟨101, 5, ⟨4, 3⟩⟩] := by
    decide +kernel
  have hhanded : acquired handed (serverAfter batchActs).2 100 = 1 := by
    decide +kernel
  refine ⟨by decide +kernel, hdelivered, hwaiting, ?_, ?_, hafter, ?_⟩
  · exact horder.trans (congrArg₂ (· ++ ·) hdelivered hwaiting)
  · have hone := (howned 100).symm.trans hhanded
    rw [show (run (serverStep .standard) batchActs .init).1.waiting = _ from hwaiting] at hone
    exact hone
  · exact hover _ (by decide +kernel)

end UniNet.Udp
