import UniNet.Infra.History
import UniNet.Udp.Shared

/-!
# Which call gets which datagram

Several tasks receive through one client (`Udp/Shared`). What a task was told last says what its
call has taken out of the list of packets, and its place says what is still to be returned
(`Pc.Pending`). The packets that were taken and those that wait are the packets that arrived
(`Served`).

* `Served.sharedStep` — every step keeps the account of the packets
* `client_shared` — every datagram goes to one call, in order, and no closed socket is used
-/

namespace UniNet.Udp

open Infra

/-! ## Who gets which packet -/

/-- The task that an event is a word of, or an answer to. -/
def SharedEvent.speaker : SharedEvent → Option Nat
  | .called i _ | .took i _ | .returned i _ _ => some i
  | _ => none

/-- What was last said by a task or to it. -/
def lastOf (i : Nat) (log : List SharedEvent) : Option SharedEvent :=
  (log.filter (·.speaker == some i)).getLast?

/-- The packets that were put into the list. -/
def arrivals (log : List SharedEvent) : List Packet :=
  log.filterMap fun | .arrived p => some p | _ => none

/-- The packets that were taken out of it. -/
def taken (log : List SharedEvent) : List Packet :=
  log.filterMap fun | .took _ p => some p | _ => none

/-- What `uni_net_udp_client_recvfrom` is to return for a packet. -/
def replyFor (size : Nat) (want : Bool) (p : Packet) : Reply :=
  ⟨(p.data.take size).length, p.data.take size, if want then some p.source else none⟩

/--
What may happen behind a history. A call that has taken a packet returns that packet, and a call
that has not returns no bytes and no sender.
-/
def SharedEvent.Right (pre : List SharedEvent) : SharedEvent → Prop
  | .returned i c r =>
    match lastOf i pre with
    | some (.took _ p) => ∃ size want, c = .recvfrom (some size) want ∧ r = replyFor size want p
    | some (.called _ c') => c' = c ∧ r.data = [] ∧ (∀ ep ∈ r.source, ep = ⟨0, 0⟩) ∧
        ∀ size want, c = .recvfrom size want → r.rv ≤ 0
    | _ => False
  | .usedClosed _ | .headOfEmpty _ => False
  | _ => True

/-- A buffer is smaller than 2 GiB, so its size is positive as an `int32_t`. -/
def Call.Sized (c : Call) : Prop := ∀ size want, c = .recvfrom (some size) want → size < 2 ^ 31

/-- What the place of a task says about the last event of it. -/
def Pc.Pending (i : Nat) (last : Option SharedEvent) : Pc → Prop
  | .idle => True
  | .inited c | .peer c | .lockTest c | .take c | .handle c | .stack c _ =>
    last = some (.called i c) ∧ c.checked = true ∧ c.Sized
  | .count size want | .wait size want | .head size want =>
    last = some (.called i (.recvfrom (some size) want)) ∧ size < 2 ^ 31
  | .unlockTest c raw | .give c raw =>
    last = some (.called i c) ∧ raw.data = [] ∧ raw.source = ⟨0, 0⟩ ∧
        (∀ size want, c = .recvfrom size want → mapTimeoutToWouldblock raw.rv ≤ 0) ∨
      ∃ size want p, c = .recvfrom (some size) want ∧ last = some (.took i p) ∧
        raw = copyPacket size p ∧ size < 2 ^ 31
  | .close | .invalidate | .disconnect | .deleteTest | .delete | .clear =>
    last = some (.called i .deinit)

/-- **The packets, the tasks and the history.** -/
structure Served (s : Shared) (log : List SharedEvent) : Prop where
  queue : s.closed = false → arrivals log = taken log ++ s.waiting
  begun : taken log <+: arrivals log
  pending : ∀ i, (s.tasks i).Pending i (lastOf i log)
  right : Throughout (fun pre e => e.Right pre) log

theorem Pc.Pending.locked {i : Nat} {last : Option SharedEvent} {c : Call}
    (h : (Pc.take c).Pending i last) : c.locked.Pending i last := by
  cases c <;> first | exact h | exact h.1

theorem lastOf_append (i : Nat) (log es : List SharedEvent) :
    lastOf i (log ++ es) = (lastOf i es).or (lastOf i log) := by
  rw [lastOf, List.filter_append, List.getLast?_append]
  rfl

/-- An event that says nothing to a task and moves no packet. -/
def SharedEvent.Quiet : SharedEvent → Prop
  | .sent _ _ | .socketClosed _ | .mutexDeleted _ | .badMutex _ => True
  | _ => False

theorem lastOf_quiet {es : List SharedEvent} (h : ∀ e ∈ es, e.Quiet) (i : Nat) :
    lastOf i es = none := by
  have hnil : es.filter (·.speaker == some i) = [] := by
    rw [List.filter_eq_nil_iff]
    intro e he
    have hq := h e he
    cases e <;> first | exact False.elim hq | simp [SharedEvent.speaker]
  rw [lastOf, hnil]
  rfl

theorem packets_quiet {es : List SharedEvent} (h : ∀ e ∈ es, e.Quiet) :
    arrivals es = [] ∧ taken es = [] := by
  constructor <;>
  · refine List.filterMap_eq_nil_iff.mpr fun e he => ?_
    have hq := h e he
    cases e <;> first | exact False.elim hq | rfl

theorem arrivals_append (l m : List SharedEvent) : arrivals (l ++ m) = arrivals l ++ arrivals m :=
  List.filterMap_append

theorem taken_append (l m : List SharedEvent) : taken (l ++ m) = taken l ++ taken m :=
  List.filterMap_append

theorem right_of_quiet {e : SharedEvent} (h : e.Quiet) (pre : List SharedEvent) : e.Right pre := by
  cases e <;> first | exact False.elim h | trivial

namespace Served

variable {s s' : Shared} {log es : List SharedEvent} {i : Nat}

/-- Nothing is said, and no packet moves. -/
theorem append_quiet (h : Served s log) (hes : ∀ e ∈ es, e.Quiet)
    (hqueue : s'.closed = false → s.closed = false ∧ s'.waiting = s.waiting)
    (hothers : ∀ j, j ≠ i → s'.tasks j = s.tasks j)
    (hi : (s'.tasks i).Pending i (lastOf i log)) : Served s' (log ++ es) := by
  have hlast : ∀ j, lastOf j (log ++ es) = lastOf j log := by
    intro j
    rw [lastOf_append, lastOf_quiet hes, Option.none_or]
  obtain ⟨harr, htaken⟩ := packets_quiet hes
  refine ⟨fun hc => ?_, ?_, fun j => ?_, ?_⟩
  · obtain ⟨hc, hw⟩ := hqueue hc
    rw [arrivals_append, taken_append, harr, htaken, List.append_nil, List.append_nil, hw]
    exact h.queue hc
  · rw [arrivals_append, taken_append, harr, htaken, List.append_nil, List.append_nil]
    exact h.begun
  · rw [hlast]
    by_cases hj : j = i
    · subst hj
      exact hi
    · rw [hothers j hj]
      exact h.pending j
  · exact (throughout_append fun pre e he => right_of_quiet (hes e he) pre).mpr h.right

/-- Something is said to a task, or by it. -/
theorem append_spoken (h : Served s log) {e : SharedEvent} (he : e.speaker = some i)
    (hright : e.Right log) (hbegun : taken (log ++ [e]) <+: arrivals (log ++ [e]))
    (hqueue : s'.closed = false → arrivals (log ++ [e]) = taken (log ++ [e]) ++ s'.waiting)
    (hothers : ∀ j, j ≠ i → s'.tasks j = s.tasks j)
    (hi : (s'.tasks i).Pending i (some e)) : Served s' (log ++ [e]) := by
  refine ⟨hqueue, hbegun, fun j => ?_, throughout_concat.mpr ⟨h.right, hright⟩⟩
  rw [lastOf_append]
  by_cases hj : j = i
  · subst hj
    rw [show lastOf j [e] = some e by simp [lastOf, he], Option.some_or]
    exact hi
  · rw [show lastOf j [e] = none by simp [lastOf, he, Ne.symm hj], Option.none_or, hothers j hj]
    exact h.pending j

/-- A word that moves no packet. -/
theorem append_spoken_of_no_packet (h : Served s log) {e : SharedEvent} (he : e.speaker = some i)
    (hright : e.Right log) (hplain : arrivals [e] = [] ∧ taken [e] = [])
    (hqueue : s'.closed = false → s.closed = false ∧ s'.waiting = s.waiting)
    (hothers : ∀ j, j ≠ i → s'.tasks j = s.tasks j)
    (hi : (s'.tasks i).Pending i (some e)) : Served s' (log ++ [e]) := by
  have harr : arrivals (log ++ [e]) = arrivals log := by
    rw [arrivals_append, hplain.1, List.append_nil]
  have htaken : taken (log ++ [e]) = taken log := by
    rw [taken_append, hplain.2, List.append_nil]
  refine h.append_spoken he hright (by rw [harr, htaken]; exact h.begun) (fun hc => ?_) hothers hi
  obtain ⟨hc, hw⟩ := hqueue hc
  rw [harr, htaken, hw]
  exact h.queue hc

/-- A call returns. -/
theorem append_returned (h : Served s log) {c : Call} {r : Reply}
    (hright : (SharedEvent.returned i c r).Right log)
    (hqueue : s'.closed = false → s.closed = false ∧ s'.waiting = s.waiting)
    (hothers : ∀ j, j ≠ i → s'.tasks j = s.tasks j) (hi : s'.tasks i = .idle) :
    Served s' (log ++ [.returned i c r]) :=
  h.append_spoken_of_no_packet rfl hright ⟨rfl, rfl⟩ hqueue hothers (by rw [hi]; trivial)

end Served

/-- A call that has not taken a packet. -/
theorem right_rejected {i : Nat} {log : List SharedEvent} {c : Call} (rv : Int)
    (hlast : lastOf i log = some (.called i c))
    (hrv : ∀ size want, c = .recvfrom size want → rv ≤ 0) :
    (SharedEvent.returned i c (.code rv)).Right log := by
  simp only [SharedEvent.Right, hlast]
  exact ⟨trivial, rfl, by simp [Reply.code], hrv⟩

/-- **A packet that was taken is what the call returns.** -/
theorem finish_copyPacket {size : Nat} (want : Bool) (p : Packet) (hsize : size < 2 ^ 31) :
    (Call.recvfrom (some size) want).finish (copyPacket size p) = replyFor size want p := by
  have hrv : (copyPacket size p).rv = (p.data.take size).length := by
    unfold copyPacket
    dsimp only
    rw [i32_of_lt hsize, List.length_take]
    split <;> omega
  have hdata : (copyPacket size p).data = p.data.take size := by
    have hcut : (copyPacket size p).data = p.data.take (copyPacket size p).rv.toNat := by
      simp only [copyPacket]
    rw [hcut, hrv, Int.toNat_natCast, List.length_take, ← List.take_take, List.take_length]
  have hsource : (copyPacket size p).source = p.source := rfl
  unfold Call.finish replyFor
  dsimp only
  rw [hrv, mapTimeout_length, hdata, hsource]
  cases want <;> simp

/-- What is pending in front of `_unlock` is right when the call returns. -/
theorem right_finish {i : Nat} {log : List SharedEvent} {c : Call} {raw : Raw}
    (h : (Pc.give c raw).Pending i (lastOf i log)) :
    (SharedEvent.returned i c (c.finish raw)).Right log := by
  rcases h with ⟨hlast, hdata, hsource, hrv⟩ | ⟨size, want, p, rfl, hlast, rfl, hsize⟩
  · simp only [SharedEvent.Right, hlast]
    refine ⟨trivial, ?_, ?_, ?_⟩
    · cases c <;> first | exact hdata | rfl
    · cases c with
      | recvfrom size want =>
        simp only [Call.finish, hsource]
        split <;> simp
      | _ => simp [Call.finish, Reply.code]
    · rintro size want rfl
      exact hrv size want rfl
  · simp only [SharedEvent.Right, hlast]
    exact ⟨size, want, rfl, finish_copyPacket want p hsize⟩

namespace Served

variable {s : Shared} {log : List SharedEvent} {i : Nat}

/-- A task goes on without a word. -/
theorem goto_quiet (h : Served s log) {ctx : ClientContext} {mutex : Mutex} {pc : Pc}
    {es : List SharedEvent} (hes : ∀ e ∈ es, e.Quiet) (hpc : pc.Pending i (lastOf i log)) :
    Served ({ s with ctx := ctx, mutex := mutex }.goto i pc) (log ++ es) :=
  h.append_quiet hes (fun hc => ⟨hc, rfl⟩) (fun _ hj => goto_of_ne _ _ hj)
    (by rw [goto_self]; exact hpc)

/-- A task goes on, and nothing is noted. -/
theorem goto_silent (h : Served s log) {ctx : ClientContext} {mutex : Mutex} {pc : Pc}
    (hpc : pc.Pending i (lastOf i log)) :
    Served ({ s with ctx := ctx, mutex := mutex }.goto i pc) (log ++ []) :=
  h.goto_quiet (fun _ he => absurd he List.not_mem_nil) hpc

/-- A task returns at once. -/
theorem goto_idle_returned (h : Served s log) {c : Call} {rv : Int}
    (hlast : lastOf i log = some (.called i c))
    (hrv : ∀ size want, c = .recvfrom size want → rv ≤ 0) :
    Served (s.goto i .idle) (log ++ [.returned i c (.code rv)]) :=
  h.append_returned (right_rejected rv hlast hrv) (fun hc => ⟨hc, rfl⟩)
    (fun _ hj => goto_of_ne _ _ hj) (goto_self s i _)

/-- A task leaves the lock, with or without a complaint about it. -/
theorem leave (h : Served s log) {mutex : Mutex} {c : Call} {raw : Raw}
    (hpend : (Pc.give c raw).Pending i (lastOf i log)) (bad : List SharedEvent)
    (hbad : ∀ e ∈ bad, e.Quiet) :
    Served ({ s with mutex := mutex }.leave i c raw).1
      (log ++ (bad ++ ({ s with mutex := mutex }.leave i c raw).2)) := by
  have hquiet : Served s (log ++ bad) :=
    h.append_quiet hbad (fun hc => ⟨hc, rfl⟩) (fun _ _ => rfl) (h.pending i)
  have hsame : lastOf i (log ++ bad) = lastOf i log := by
    rw [lastOf_append, lastOf_quiet hbad, Option.none_or]
  rw [← List.append_assoc]
  unfold Shared.leave
  split
  · rcases hpend with ⟨hlast, -⟩ | ⟨size, want, p, hc, -⟩
    · exact hquiet.goto_silent (hsame.trans hlast)
    · cases hc
  · exact hquiet.append_returned (right_finish (by rw [hsame]; exact hpend)) (fun hc => ⟨hc, rfl⟩)
      (fun _ hj => goto_of_ne _ _ hj) (goto_self _ i _)

/-- The list is looked at again. -/
theorem recount (h : Served s log) {size : Nat} {want : Bool} {empty : Pc}
    (hhead : (Pc.head size want).Pending i (lastOf i log))
    (hempty : empty.Pending i (lastOf i log)) :
    Served (s.recount i size want empty) (log ++ []) := by
  refine h.goto_silent ?_
  split
  · exact hempty
  · exact hhead

end Served

theorem stackCall_raw (w mtu : Nat) (a : Answer) (ctx : ClientContext) (socket : Option Socket)
    (c : Call) : (stackCall w mtu a ctx socket c).1.data = [] ∧
      (stackCall w mtu a ctx socket c).1.source = ⟨0, 0⟩ ∧
      ∀ size want, c = .recvfrom size want →
        mapTimeoutToWouldblock (stackCall w mtu a ctx socket c).1.rv ≤ 0 := by
  cases c with
  | setTimeouts config =>
    simp only [stackCall]
    split <;> exact ⟨rfl, rfl, by simp⟩
  | recvfrom size want => exact ⟨rfl, rfl, fun _ _ _ => mapTimeout_error 22⟩
  | _ => exact ⟨rfl, rfl, by simp⟩

/-- What a call of the stack notes sends nothing to a task, as long as the socket is open. -/
theorem quiet_sent {s : Shared} {i : Nat} {valid : Bool} (hused : valid = true → s.used i = [])
    (ds : List Datagram) :
    ∀ e ∈ (if valid then s.used i else []) ++ ds.map (.sent i), SharedEvent.Quiet e := by
  have hnone : (if valid then s.used i else []) = [] := by
    cases valid with
    | true => exact hused rfl
    | false => rfl
  intro e he
  rw [hnone, List.nil_append, List.mem_map] at he
  obtain ⟨d, -, rfl⟩ := he
  trivial

/-- A call that is refused returns no bytes. -/
theorem rejected_eq (c : Call) : ∃ rv, c.rejected = .code rv ∧ rv ≤ 0 := by
  cases c <;> exact ⟨_, rfl, by decide⟩

/-! ### One place at a time -/

section

variable {s : Shared} {log : List SharedEvent} {i : Nat} (w mtu : Nat) (a : Answer)

/-- The socket is open while a task has it in hand. -/
theorem Guarded.used_eq_nil (hg : Guarded s) (hhand : (s.tasks i).inHand = true) :
    s.used i = [] := by
  rw [Shared.used, ((hg.fits i).hand hhand).2]
  rfl

namespace Served

theorem taskGo_inited {c : Call} (h : Served s log) (hpc : s.tasks i = .inited c) :
    Served (taskGo w mtu i a s (.inited c)).1 (log ++ (taskGo w mtu i a s (.inited c)).2) := by
  have hpend := h.pending i
  rw [hpc] at hpend
  simp only [taskGo]
  split
  · exact h.goto_silent (by cases c <;> exact hpend)
  · obtain ⟨rv, hcode, hrv⟩ := rejected_eq c
    rw [hcode]
    exact h.goto_idle_returned hpend.1 fun _ _ _ => hrv

theorem taskGo_peer {c : Call} (h : Served s log) (hpc : s.tasks i = .peer c) :
    Served (taskGo w mtu i a s (.peer c)).1 (log ++ (taskGo w mtu i a s (.peer c)).2) := by
  have hpend := h.pending i
  rw [hpc] at hpend
  simp only [taskGo]
  split
  · exact h.goto_silent hpend
  · exact h.goto_idle_returned hpend.1 fun _ _ _ => by decide

theorem taskGo_take {c : Call} (h : Served s log) (hpc : s.tasks i = .take c) :
    Served (taskGo w mtu i a s (.take c)).1 (log ++ (taskGo w mtu i a s (.take c)).2) := by
  have hpend := h.pending i
  rw [hpc] at hpend
  simp only [taskGo]
  split
  · exact h.goto_quiet (by simp [SharedEvent.Quiet]) hpend.locked
  · split
    · exact h.goto_silent hpend.locked
    · rw [List.append_nil]
      exact h
    · exact h.goto_quiet (by simp [SharedEvent.Quiet]) hpend.locked

/-- No function of the stack takes a packet, except that `FreeRTOS_recvfrom` goes on to do so. -/
theorem taskGo_stack {c : Call} {valid : Bool} (h : Served s log) (hg : Guarded s)
    (hpc : s.tasks i = .stack c valid) :
    Served (taskGo w mtu i a s (.stack c valid)).1
      (log ++ (taskGo w mtu i a s (.stack c valid)).2) := by
  have hpend := h.pending i
  rw [hpc] at hpend
  obtain ⟨hlast, hchecked, hsized⟩ := hpend
  have hused : valid = true → s.used i = [] := by
    rintro rfl
    exact hg.used_eq_nil (by rw [hpc]; rfl)
  have hdone : ∀ {ctx raw es}, raw.data = [] → raw.source = ⟨0, 0⟩ →
      (∀ size want, c = .recvfrom size want → mapTimeoutToWouldblock raw.rv ≤ 0) →
      (∀ e ∈ es, SharedEvent.Quiet e) →
      Served ({ s with ctx := ctx }.goto i (.unlockTest c raw)) (log ++ es) :=
    fun hdata hsource hrv hes => h.goto_quiet hes (.inl ⟨hlast, hdata, hsource, hrv⟩)
  obtain ⟨hdata, hsource, hrv⟩ :=
    stackCall_raw w mtu a s.ctx (if valid then s.ctx.socket else none) c
  cases c with
  | recvfrom size want =>
    cases valid with
    | true =>
      simp only [taskGo, hused rfl]
      obtain ⟨n, rfl⟩ : ∃ n, size = some n := by
        cases size with
        | none => cases hchecked
        | some n => exact ⟨n, rfl⟩
      split
      · exact h.goto_silent ⟨hlast, hsized n want rfl⟩
      · exact hdone rfl rfl (fun _ _ _ => mapTimeout_error 22) (by simp)
    | false => exact hdone hdata hsource hrv (quiet_sent hused _)
  | deinit =>
    rw [taskGo, List.append_nil]
    exact h
  | sendto _ _ | send _ | connect _ | setTimeouts _ =>
    exact hdone hdata hsource hrv (quiet_sent hused _)

theorem taskGo_wait {size : Nat} {want : Bool} (h : Served s log) (hg : Guarded s)
    (hpc : s.tasks i = .wait size want) :
    Served (taskGo w mtu i a s (.wait size want)).1
      (log ++ (taskGo w mtu i a s (.wait size want)).2) := by
  have hpend := h.pending i
  rw [hpc] at hpend
  have hempty : ∀ errno : Nat,
      (Pc.unlockTest (.recvfrom (some size) want) (.code (-errno))).Pending i (lastOf i log) :=
    fun errno => .inl ⟨hpend.1, rfl, rfl, fun _ _ _ => mapTimeout_error errno⟩
  simp only [taskGo, hg.used_eq_nil (show (s.tasks i).inHand = true by rw [hpc]; rfl)]
  split
  · exact h.goto_silent (hempty 11)
  · exact h.goto_silent (hempty 4)
  · exact h.recount hpend hpend
  · exact h.recount hpend (hempty 11)

/-- **The first packet goes to the task that is behind the lock.** -/
theorem taskGo_head {size : Nat} {want : Bool} (h : Served s log) (hg : Guarded s)
    (hpc : s.tasks i = .head size want) :
    Served (taskGo w mtu i a s (.head size want)).1
      (log ++ (taskGo w mtu i a s (.head size want)).2) := by
  have hpend := h.pending i
  have hfits := hg.fits i
  rw [hpc] at hpend hfits
  obtain ⟨p, rest, hwait⟩ := List.exists_cons_of_ne_nil (hfits.packets size want rfl)
  have hqueue := h.queue (hfits.hand rfl).2
  rw [hwait] at hqueue
  have harr : arrivals (log ++ [.took i p]) = arrivals log := by
    rw [arrivals_append]
    exact List.append_nil _
  have htaken : taken (log ++ [.took i p]) = taken log ++ [p] := taken_append ..
  simp only [taskGo, hwait, hg.used_eq_nil (show (s.tasks i).inHand = true by rw [hpc]; rfl),
    List.nil_append]
  refine h.append_spoken rfl trivial ?_ (fun _ => ?_) (fun _ hj => goto_of_ne _ _ hj) ?_
  · rw [harr, htaken, hqueue]
    exact ⟨rest, by simp⟩
  · rw [harr, htaken, hqueue, List.append_cons]
    rfl
  · rw [goto_self]
    exact .inr ⟨size, want, p, rfl, rfl, rfl, hpend.2⟩

theorem taskGo_close (h : Served s log) (hg : Guarded s) (hpc : s.tasks i = .close) :
    Served (taskGo w mtu i a s .close).1 (log ++ (taskGo w mtu i a s .close).2) := by
  have hpend := h.pending i
  rw [hpc] at hpend
  simp only [taskGo]
  split
  · next hsome =>
    have hopen := hg.not_closed hsome (show (s.tasks i).holds = true by rw [hpc]; rfl)
      (by simp [hpc])
    rw [Shared.used, hopen]
    exact h.append_quiet (by simp [SharedEvent.Quiet]) (fun hc => by cases hc)
      (fun _ hj => goto_of_ne _ _ hj) (by rw [goto_self]; exact hpend)
  · exact h.goto_silent hpend

theorem taskGo_unlockTest {c : Call} {raw : Raw} (h : Served s log)
    (hpc : s.tasks i = .unlockTest c raw) :
    Served (taskGo w mtu i a s (.unlockTest c raw)).1
      (log ++ (taskGo w mtu i a s (.unlockTest c raw)).2) := by
  have hpend := h.pending i
  rw [hpc] at hpend
  simp only [taskGo]
  split
  · exact h.goto_silent hpend
  · exact h.leave hpend [] (by simp)

theorem taskGo_give {c : Call} {raw : Raw} (h : Served s log) (hpc : s.tasks i = .give c raw) :
    Served (taskGo w mtu i a s (.give c raw)).1
      (log ++ (taskGo w mtu i a s (.give c raw)).2) := by
  have hpend := h.pending i
  rw [hpc] at hpend
  simp only [taskGo]
  split
  · exact h.leave hpend [] (by simp)
  · exact h.leave hpend [.badMutex i] (by simp [SharedEvent.Quiet])

end Served

/-- **Every step of a task keeps the account of the packets.** -/
theorem Served.taskGo (h : Served s log) (hg : Guarded s) :
    Served (taskGo w mtu i a s (s.tasks i)).1 (log ++ (taskGo w mtu i a s (s.tasks i)).2) := by
  obtain ⟨pc, hpc⟩ : ∃ pc, s.tasks i = pc := ⟨_, rfl⟩
  have hpend := h.pending i
  rw [hpc] at hpend ⊢
  cases pc with
  | idle =>
    simp only [Udp.taskGo, List.append_nil]
    exact h
  | inited c => exact h.taskGo_inited w mtu a hpc
  | peer c => exact h.taskGo_peer w mtu a hpc
  | lockTest c =>
    refine h.goto_silent ?_
    split
    · exact hpend
    · exact hpend.locked
  | take c => exact h.taskGo_take w mtu a hpc
  | handle c => exact h.goto_silent hpend
  | stack c valid => exact h.taskGo_stack w mtu a hg hpc
  | count size want =>
    simp only [Udp.taskGo, hg.used_eq_nil (show (s.tasks i).inHand = true by rw [hpc]; rfl)]
    exact h.recount hpend hpend
  | wait size want => exact h.taskGo_wait w mtu a hg hpc
  | head size want => exact h.taskGo_head w mtu a hg hpc
  | close => exact h.taskGo_close w mtu a hg hpc
  | invalidate => exact h.goto_silent hpend
  | disconnect => exact h.goto_silent (.inl ⟨hpend, rfl, rfl, by simp⟩)
  | unlockTest c raw => exact h.taskGo_unlockTest w mtu a hpc
  | give c raw => exact h.taskGo_give w mtu a hpc
  | deleteTest =>
    refine h.goto_silent ?_
    split <;> exact hpend
  | delete =>
    simp only [Udp.taskGo]
    refine h.goto_quiet ?_ hpend
    split <;> simp [SharedEvent.Quiet]
  | clear =>
    exact h.append_returned (right_rejected 1 hpend (by simp)) (fun hc => ⟨hc, rfl⟩)
      (fun _ hj => goto_of_ne _ _ hj) (goto_self _ i _)

end

theorem served_new (cfg : Option ClientConfig) : Served (.new cfg) [] :=
  ⟨fun _ => rfl, List.prefix_rfl, fun _ => trivial, throughout_nil⟩

/-- No buffer has 2 GiB. -/
def SharedAct.Sized : SharedAct → Prop
  | .call _ c => c.Sized
  | _ => True

/-- **So does every step.** -/
theorem Served.sharedStep {s : Shared} {log : List SharedEvent} (h : Served s log)
    (hg : Guarded s) (w mtu : Nat) (limit : Option Nat) {act : SharedAct} (hact : act.Sized) :
    Served (sharedStep w mtu limit act s).1 (log ++ (sharedStep w mtu limit act s).2) := by
  cases act with
  | arrive p =>
    simp only [Udp.sharedStep]
    split
    · next hopen =>
      have harr : arrivals (log ++ [.arrived p]) = arrivals log ++ [p] := arrivals_append ..
      have htaken : taken (log ++ [.arrived p]) = taken log := by
        rw [taken_append]
        exact List.append_nil _
      refine ⟨fun _ => ?_, ?_, fun j => ?_, throughout_concat.mpr ⟨h.right, trivial⟩⟩
      · rw [harr, htaken, h.queue hopen.1, List.append_assoc]
      · rw [harr, htaken]
        exact h.begun.trans (List.prefix_append _ _)
      · rw [lastOf_append]
        exact h.pending j
    · rw [List.append_nil]
      exact h
  | call i c =>
    simp only [Udp.sharedStep]
    split
    · next hidle =>
      split
      · next hchecked =>
        refine h.append_spoken_of_no_packet rfl trivial ⟨rfl, rfl⟩ (fun hc => ⟨hc, rfl⟩)
          (fun _ hj => goto_of_ne _ _ hj) ?_
        rw [goto_self]
        cases c <;> exact ⟨rfl, hchecked, hact⟩
      · -- the call is noted, and returns at once
        have hcalled : Served s (log ++ [.called i c]) :=
          h.append_spoken_of_no_packet rfl trivial ⟨rfl, rfl⟩ (fun hc => ⟨hc, rfl⟩) (fun _ _ => rfl)
            (by rw [hidle]; trivial)
        obtain ⟨rv, hcode, hrv⟩ := rejected_eq c
        rw [List.append_cons, hcode]
        refine hcalled.append_returned (right_rejected rv ?_ fun _ _ _ => hrv) (fun hc => ⟨hc, rfl⟩)
          (fun _ _ => rfl) hidle
        rw [lastOf_append]
        simp [lastOf, SharedEvent.speaker]
    · rw [List.append_nil]
      exact h
  | step i a => exact h.taskGo w mtu a hg

/-! ## Main results -/

/--
**Tasks that share a client do not get into each other's way.**

Any number of tasks call the functions of the client in any interleaving, `deinit` included. Every
packet that the socket accepts is handed to one call, in the order of arrival; that call returns
its bytes as far as they fit and its sender, and no other call returns bytes. No closed socket is
used, and the list of packets is not asked for its first entry when it is empty.
-/
theorem client_shared (w mtu : Nat) (limit : Option Nat) (cfg : Option ClientConfig)
    (acts : List SharedAct) (hacts : ∀ act ∈ acts, act.Sized) :
    let r := run (sharedStep w mtu limit) acts (Shared.new cfg)
    Throughout (fun pre e => e.Right pre) r.2 ∧ taken r.2 <+: arrivals r.2 ∧
      (r.1.closed = false → arrivals r.2 = taken r.2 ++ r.1.waiting) := by
  intro r
  have h : Guarded r.1 ∧ Served r.1 r.2 := by
    have hrun := run_inv_from (sharedStep w mtu limit) (P := fun s log => Guarded s ∧ Served s log)
      (fun act s log hact h =>
        ⟨h.1.sharedStep w mtu limit act, h.2.sharedStep h.1 w mtu limit hact⟩)
      ⟨guarded_new cfg, served_new cfg⟩ acts hacts
    rwa [List.nil_append] at hrun
  exact ⟨h.2.right, h.2.begun, h.2.queue⟩

/-- Answers of a stack that has time and space. -/
def obliging : Answer := ⟨⟨true, true, true⟩, ⟨0, 0, 0, true, 0⟩, 0, true, .woken⟩

/-- The client sends, two datagrams come back, and two tasks receive at the same time. -/
def rivals : List SharedAct :=
  [.call 0 (.sendto (some [1]) (some ⟨1, 2⟩))] ++ List.replicate 8 (.step 0 obliging) ++
    [.arrive ⟨[7, 8, 9], ⟨5, 6⟩⟩, .arrive ⟨[4], ⟨5, 6⟩⟩, .call 1 (.recvfrom (some 2) true),
      .call 2 (.recvfrom (some 9) false)] ++
    (List.replicate 16 [.step 2 obliging, .step 1 obliging]).flatten

/-- The second task is faster; the first one gets the other datagram, which fits. -/
theorem client_shared_rivals :
    (run (sharedStep 32 1500 none) rivals (Shared.new none)).2.filter (·.speaker.isSome)
        = [.called 0 (.sendto (some [1]) (some ⟨1, 2⟩)),
          .returned 0 (.sendto (some [1]) (some ⟨1, 2⟩)) (.code 1),
          .called 1 (.recvfrom (some 2) true), .called 2 (.recvfrom (some 9) false),
          .took 2 ⟨[7, 8, 9], ⟨5, 6⟩⟩, .returned 2 (.recvfrom (some 9) false) ⟨3, [7, 8, 9], none⟩,
          .took 1 ⟨[4], ⟨5, 6⟩⟩, .returned 1 (.recvfrom (some 2) true) ⟨1, [4], some ⟨5, 6⟩⟩] ∧
      taken (run (sharedStep 32 1500 none) rivals (Shared.new none)).2
        <+: arrivals (run (sharedStep 32 1500 none) rivals (Shared.new none)).2 := by
  refine ⟨by decide +kernel, ?_⟩
  refine (client_shared 32 1500 none none rivals ?_).2.1
  simp [rivals, SharedAct.Sized, Call.Sized]

end UniNet.Udp
