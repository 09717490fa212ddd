import UniNet.Udp.Receive

/-!
# The receive counters

`rx_packets_total` counts what was delivered, to `on_receive` or to the caller of
`uni_net_udp_server_recvfrom`, and `rx_drop_total` what was lost. Both are updated from the result
of `FreeRTOS_recvfrom`, where 0 is a timeout as well as an empty datagram, and a negative result
may come with a datagram that the stack has thrown away or with none.

A tally of what really happened is kept beside the run. The datagrams that are in a batch are
pending, and those of them that went to `on_receive` are in the counter only when the batch is
finished.

* `Balanced.loss`, `Balanced.arrive`, `Balanced.deliver`, `Balanced.finish` — what happens to the
  counters and to the tally
* `accountStep_balanced` — every step keeps the two balanced
* `account_exact_iff` — so the counters are off by the datagrams that are taken for a timeout and
  by the errors that are taken for a drop, and by nothing else
-/

namespace UniNet.Udp

open Infra

/-! ## The synchronous receive -/

/-- What `FreeRTOS_recvfrom` returns when it copies the payload: no more than fits the buffer,
whose size it gets as an `int32_t`. -/
def RecvOutcome.copied (bufSize : Nat) : RecvOutcome → Int
  | datagram _ length _ => min (length : Int) (i32 bufSize)
  | error errno => -errno

/-- What a call of `uni_net_udp_server_recvfrom` leaves. -/
structure Received where
  result : Int
  /-- `out_from`, if it is written -/
  source : Option Endpoint
  /-- whether `FreeRTOS_recvfrom` is called -/
  called : Bool
  ctx : ServerContext

/-- `uni_net_udp_server_recvfrom` without the timeouts. `buf` is the size of the buffer, if there
is one. -/
def serverRecvfrom (outcome : RecvOutcome) (buf : Option Nat) (ctx : ServerContext) : Received :=
  match buf with
  | none => ⟨-einval, none, false, ctx⟩
  | some bufSize =>
    if bufSize = 0 ∨ ctx.initialized = false then ⟨-einval, none, false, ctx⟩
    else if ctx.config.onReceive.isSome = true ∧ ctx.task.isSome = true then
      ⟨-ealready, none, false, ctx⟩
    else
      let rv := mapTimeoutToWouldblock (outcome.copied bufSize)
      ⟨rv, if 0 ≤ rv then some (endpointFromSockaddr outcome.source) else none, true,
        if 0 < rv then ctx.addPackets 1 else if rv < 0 then ctx.addDrops 1 else ctx⟩

/-! ## What really happens -/

/-- A datagram that is handed out is taken from the socket. With an error one is taken only when
the stack does not know its IP header, and `lost` is about that. -/
def RecvOutcome.removes (lost : Bool) : RecvOutcome → Bool
  | datagram .. => true
  | error errno => lost && (errno : Int) == einval

inductive Note where
  /-- a receive: whether a datagram was taken from the socket, and the result of it as the
  server sees it -/
  | received (removed : Bool) (rv : Int)
  /-- a datagram goes to `on_receive`, or its length is returned to the caller -/
  | delivered
  /-- the counters are cleared -/
  | reset

def ServerEvent.note (lost : Bool) : ServerEvent → Option Note
  | .recvfrom _ _ outcome =>
    some (.received (outcome.removes lost) (mapTimeoutToWouldblock outcome.result))
  | .onReceive .. => some .delivered
  | .started _ | .stopped => some .reset
  | _ => none

/-- A step of the server, or a synchronous receive. -/
inductive AccountAct where
  | server (act : ServerAct) (lost : Bool)
  | recvfrom (outcome : RecvOutcome) (buf : Option Nat) (lost : Bool)

def accountStep (b : ServerBuild) : AccountAct → Server → Server × List Note
  | .server act lost, s =>
    ((serverStep b act s).1, (serverStep b act s).2.filterMap (ServerEvent.note lost))
  | .recvfrom outcome buf lost, s =>
    let r := serverRecvfrom outcome buf s.ctx
    ({ s with ctx := r.ctx },
      if r.called then
        .received (outcome.removes lost) r.result :: if 0 < r.result then [.delivered] else []
      else [])

/-- What happened since the counters were cleared. -/
structure Tally where
  /-- datagrams taken from the socket -/
  removed : Nat
  delivered : Nat
  /-- datagrams that are taken for a timeout -/
  silent : Nat
  /-- errors that are taken for a drop, when there was no datagram -/
  spurious : Nat
  deriving DecidableEq

def Tally.zero : Tally := ⟨0, 0, 0, 0⟩

def Tally.add (t : Tally) : Note → Tally
  | .received removed rv =>
    { t with
      removed := t.removed + removed.toNat
      silent := t.silent + (removed && rv == 0).toNat
      spurious := t.spurious + (!removed && decide (rv < 0)).toNat }
  | .delivered => { t with delivered := t.delivered + 1 }
  | .reset => .zero

def tally (notes : List Note) : Tally := notes.foldl Tally.add .zero

/-- **The counters are right**: what was taken from the socket was delivered or dropped, and what
was delivered is counted. They have 64 bits. -/
structure Exact (ctx : ServerContext) (t : Tally) : Prop where
  drops : u64 t.removed = u64 (t.delivered + ctx.rxDropTotal)
  packets : ctx.rxPacketsTotal = u64 t.delivered

instance (ctx : ServerContext) (t : Tally) : Decidable (Exact ctx t) :=
  decidable_of_iff (u64 t.removed = u64 (t.delivered + ctx.rxDropTotal)
      ∧ ctx.rxPacketsTotal = u64 t.delivered)
    ⟨fun h => ⟨h.1, h.2⟩, fun h => ⟨h.drops, h.packets⟩⟩

/-! ## The balance -/

/-- The datagrams of a batch that wait in it. -/
def TaskPc.pending : TaskPc → Nat
  | .recvBatch _ _ count => count
  | .dispatch _ count i => count - i
  | _ => 0

/-- The datagrams of a batch that went to `on_receive`. -/
def TaskPc.dispatched : TaskPc → Nat
  | .dispatch _ _ i => i
  | _ => 0

theorem TaskPc.Begins.none_pending {pc : TaskPc} (h : pc.Begins) :
    pc.pending = 0 ∧ pc.dispatched = 0 := by
  rcases h with hleft | ⟨burst, capacity, rfl⟩
  · cases pc with
    | recvBatch => exact absurd hleft (Nat.succ_ne_zero _)
    | dispatch => exact absurd hleft (Nat.succ_ne_zero _)
    | _ => exact ⟨rfl, rfl⟩
  · exact ⟨rfl, rfl⟩

/-- What the balance looks at. -/
structure Counts where
  pending : Nat
  dispatched : Nat
  packets : Nat
  drops : Nat

def Server.counts (s : Server) : Counts where
  pending := (s.task.map TaskPc.pending).getD 0
  dispatched := (s.task.map TaskPc.dispatched).getD 0
  packets := s.ctx.rxPacketsTotal
  drops := s.ctx.rxDropTotal

/-- **The counters and the tally are in balance.** -/
structure Balanced (c : Counts) (t : Tally) : Prop where
  drops : u64 (t.removed + t.spurious) = u64 (t.delivered + c.pending + t.silent + c.drops)
  packets : u64 (c.packets + c.dispatched) = u64 t.delivered
  bounded : c.packets < 2 ^ 64

theorem balanced_zero : Balanced ⟨0, 0, 0, 0⟩ .zero := ⟨rfl, rfl, Nat.two_pow_pos 64⟩

namespace Balanced

variable {c : Counts} {t : Tally} {rv : Int}

/-- A receive that gives nothing counts as a drop if it is an error. -/
theorem loss (h : Balanced c t) (removed : Bool) (hrv : rv ≤ 0) :
    Balanced { c with drops := if rv < 0 then u64 (c.drops + 1) else c.drops }
      (t.add (.received removed rv)) := by
  obtain ⟨hdrops, hpackets, hbounded⟩ := h
  refine ⟨?_, hpackets, hbounded⟩
  unfold u64 at hdrops ⊢
  by_cases hneg : rv < 0
  · have hne : (rv == 0) = false := by simpa using hneg.ne
    cases removed with
    | true => simp [Tally.add, hneg, hne]; omega
    | false => simp [Tally.add, hneg]; omega
  · have hzero : rv = 0 := by omega
    subst hzero
    cases removed with
    | true => simp [Tally.add]; omega
    | false => simpa [Tally.add] using hdrops

/-- A datagram comes into the batch. -/
theorem arrive (h : Balanced c t) (hrv : 0 < rv) :
    Balanced { c with pending := c.pending + 1 } (t.add (.received true rv)) := by
  obtain ⟨hdrops, hpackets, hbounded⟩ := h
  have hne : (rv == 0) = false := by simpa using hrv.ne'
  refine ⟨?_, hpackets, hbounded⟩
  unfold u64 at hdrops ⊢
  simp only [Tally.add, hne, Bool.and_false, Bool.toNat_true, Bool.toNat_false, Bool.not_true,
    Bool.false_and]
  omega

/-- A datagram of the batch goes to `on_receive`. -/
theorem deliver (h : Balanced c t) (hsome : 0 < c.pending) :
    Balanced { c with pending := c.pending - 1, dispatched := c.dispatched + 1 }
      (t.add .delivered) := by
  obtain ⟨hdrops, hpackets, hbounded⟩ := h
  refine ⟨?_, ?_, hbounded⟩
  · unfold u64 at hdrops ⊢
    simp only [Tally.add]
    omega
  · unfold u64 at hpackets ⊢
    simp only [Tally.add]
    omega

/-- The batch is finished. -/
theorem finish (h : Balanced c t) :
    Balanced { c with dispatched := 0, packets := u64 (c.packets + c.dispatched) } t := by
  refine ⟨h.drops, ?_, Nat.mod_lt _ (by omega)⟩
  have hpackets := h.packets
  unfold u64 at hpackets ⊢
  dsimp only
  omega

/-- A datagram goes to the caller at once. -/
theorem receive (h : Balanced c t) (hrv : 0 < rv) :
    Balanced { c with packets := u64 (c.packets + 1) }
      ((t.add (.received true rv)).add .delivered) := by
  obtain ⟨hdrops, -, hbounded⟩ := (h.arrive hrv).deliver (Nat.succ_pos _)
  refine ⟨hdrops, ?_, Nat.mod_lt _ (by omega)⟩
  have hpackets := h.packets
  unfold u64 at hpackets ⊢
  simp only [Tally.add]
  omega

end Balanced

/-! ## The receive loop -/

section

variable {b : ServerBuild} {s : Server} {t : Tally} {burst : Burst} {capacity count i : Nat}
  (lost : Bool)

/-- The notes of a step, added to the tally. -/
def notesOf (events : List ServerEvent) (t : Tally) : Tally :=
  (events.filterMap (ServerEvent.note lost)).foldl Tally.add t

theorem notesOf_none {events : List ServerEvent} (h : ∀ e ∈ events, e.note lost = none) :
    notesOf lost events t = t := by
  rw [notesOf, List.filterMap_eq_nil_iff.mpr h]
  rfl

/-- One note, and nothing behind it. -/
theorem notesOf_cons {e : ServerEvent} {n : Note} {events : List ServerEvent}
    (he : e.note lost = some n) (h : ∀ e ∈ events, e.note lost = none) :
    notesOf lost (e :: events) t = t.add n := by
  rw [notesOf, List.filterMap_cons_some he, List.filterMap_eq_nil_iff.mpr h]
  rfl

theorem counts_some {pc : TaskPc} (h : s.task = some pc) :
    s.counts = ⟨pc.pending, pc.dispatched, s.ctx.rxPacketsTotal, s.ctx.rxDropTotal⟩ := by
  rw [Server.counts, h]
  rfl

theorem batchEnd_counts (burst : Burst) (count : Nat) (s : Server) :
    (batchEnd burst count s).1.counts
        = ⟨count, 0, s.ctx.rxPacketsTotal, s.ctx.rxDropTotal⟩
      ∧ ∀ e ∈ (batchEnd burst count s).2, e.note lost = none := by
  unfold batchEnd
  split
  · next hzero =>
    subst hzero
    exact ⟨rfl, by simp⟩
  · exact ⟨rfl, by simp [ServerEvent.note]⟩

/-- What the server takes for a datagram is one. -/
theorem removes_of_pos {recv : RecvOutcome} {rv : Int}
    (herror : ∀ errno : Nat, recv = .error errno → rv = -errno)
    (h : 0 < mapTimeoutToWouldblock rv) : recv.removes lost = true := by
  cases recv with
  | datagram => rfl
  | error errno =>
    rw [herror errno rfl] at h
    exact absurd (mapTimeout_error errno) (not_le.mpr h)

/-- **A round of the receiving loop keeps the balance.** -/
theorem recvBatch_balanced (recv : RecvOutcome)
    (h : Balanced ⟨count, 0, s.ctx.rxPacketsTotal, s.ctx.rxDropTotal⟩ t) :
    Balanced (recvBatch recv burst capacity count s).1.counts
      (notesOf lost (recvBatch recv burst capacity count s).2 t) := by
  unfold recvBatch
  dsimp only
  split
  · split
    · next hrv =>
      -- the batch ends here
      obtain ⟨hcounts, hnotes⟩ := batchEnd_counts lost burst count
        (if mapTimeoutToWouldblock recv.result < 0 then { s with ctx := s.ctx.addDrops 1 } else s)
      have hrest : ∀ e ∈ recv.payload.toList.map ServerEvent.release, e.note lost = none := by
        intro e he
        obtain ⟨payload, -, rfl⟩ := List.mem_map.mp he
        rfl
      rw [List.cons_append, notesOf_cons lost rfl (List.forall_mem_append.mpr ⟨hrest, hnotes⟩),
        hcounts]
      have hloss := h.loss (recv.removes lost) hrv
      by_cases hneg : mapTimeoutToWouldblock recv.result < 0
      · rw [if_pos hneg] at hloss ⊢
        exact hloss
      · rw [if_neg hneg] at hloss ⊢
        exact hloss
    · next hrv =>
      have hremoved : recv.removes lost = true :=
        removes_of_pos lost (by rintro errno rfl; rfl) (not_le.mp hrv)
      rw [notesOf_cons lost rfl (by simp [ServerEvent.note]), hremoved]
      exact h.arrive (not_le.mp hrv)
  · obtain ⟨hcounts, hnotes⟩ := batchEnd_counts lost burst count s
    rw [notesOf_none lost hnotes, hcounts]
    exact h

/-- **A round of the dispatching loop keeps the balance.** -/
theorem dispatchBatch_balanced {log : List ServerEvent}
    (hcallback : s.ctx.config.onReceive.isSome = true)
    (hkeeps : (TaskPc.dispatch burst count i).Keeps b log)
    (h : Balanced ⟨count - i, i, s.ctx.rxPacketsTotal, s.ctx.rxDropTotal⟩ t) :
    Balanced (dispatchBatch burst count i s).1.counts
      (notesOf lost (dispatchBatch burst count i s).2 t) := by
  by_cases hmore : i < count
  · obtain ⟨callback, d, ds, -, -, hstep⟩ := dispatchBatch_delivers hcallback hkeeps hmore
    have hnotes : notesOf lost (dispatchBatch burst count i s).2 t = t.add .delivered := by
      rw [hstep]
      rfl
    rw [hnotes, hstep]
    exact h.deliver (Nat.sub_pos_of_lt hmore)
  · have hi : i = count := le_antisymm hkeeps.1.2.2 (Nat.le_of_not_lt hmore)
    subst hi
    unfold dispatchBatch
    rw [if_neg hmore]
    rw [Nat.sub_self] at h
    exact h.finish

/-! ## The other steps -/

/-- A step that has nothing to do with datagrams. -/
theorem Balanced.still {s' : Server} {events : List ServerEvent} (h : Balanced s.counts t)
    (hcounts : s'.counts = s.counts) (hnotes : ∀ e ∈ events, e.note lost = none) :
    Balanced s'.counts (notesOf lost events t) := by
  rw [notesOf_none lost hnotes, hcounts]
  exact h

theorem note_of_isSetup {e : ServerEvent} (h : e.isSetup = true) : e.note lost = none := by
  cases e <;> first | rfl | exact Bool.noConfusion h

/-- Where nothing is pending. -/
theorem counts_of_begins (h : ∀ pc, s.task = some pc → pc.Begins) :
    s.counts = ⟨0, 0, s.ctx.rxPacketsTotal, s.ctx.rxDropTotal⟩ := by
  cases htask : s.task with
  | none =>
    rw [Server.counts, htask]
    rfl
  | some pc =>
    obtain ⟨hpending, hdispatched⟩ := (h pc htask).none_pending
    rw [counts_some htask, hpending, hdispatched]

/-- **A step of the task keeps the balance.** -/
theorem taskStep_balanced {log : List ServerEvent} (a : TaskAnswer) {pc : TaskPc}
    (hpc : s.task = some pc) (hallowed : pc.Allowed s.ctx) (hkeeps : pc.Keeps b log)
    (h : Balanced s.counts t) :
    Balanced (taskStep b a s pc).1.counts (notesOf lost (taskStep b a s pc).2 t) := by
  rw [counts_some hpc] at h
  by_cases hleft : pc.left = 0
  · obtain ⟨hpending, hdispatched⟩ := TaskPc.Begins.none_pending (Or.inl hleft)
    rw [hpending, hdispatched] at h
    obtain ⟨hout, hevents⟩ := taskStep_outside a hpc hkeeps.1 hleft
    rw [notesOf_none lost fun e he => note_of_isSetup lost (hevents e he),
      counts_of_begins fun pc' hpc' => (hout.place pc' hpc').2, hout.packets, hout.drops]
    exact h
  · cases pc with
    | recvBatch burst capacity count => exact recvBatch_balanced lost a.recv h
    | dispatch burst count i => exact dispatchBatch_balanced lost hallowed hkeeps h
    | _ => exact absurd rfl hleft

/-- The caller counts nothing, until it clears the context. -/
theorem stopStep_still {pc : StopPc} (hpc : pc ≠ .clear) :
    (stopStep s pc).1.counts = s.counts ∧ ∀ e ∈ (stopStep s pc).2, e.note lost = none := by
  cases pc with
  | clear => exact absurd rfl hpc
  | lockCheck | lockTake | lockGive | waitTask | closeSocket | giveAgain | deleteMutex =>
    simp only [stopStep]
    split <;> exact ⟨rfl, by simp [ServerEvent.note]⟩
  | lockAgain =>
    simp only [stopStep]
    split
    · split <;> exact ⟨rfl, by simp [ServerEvent.note]⟩
    · exact ⟨rfl, by simp⟩
  | setOption =>
    refine ⟨rfl, ?_⟩
    simp only [stopStep]
    split <;> simp [ServerEvent.note]
  | outside | request | invalidateSocket => exact ⟨rfl, by simp [stopStep]⟩

theorem stopStep_balanced (hwf : s.Wf) (h : Balanced s.counts t) :
    Balanced (stopStep s s.caller).1.counts (notesOf lost (stopStep s s.caller).2 t) := by
  by_cases hclear : s.caller = .clear
  · have htask : s.task = none := hwf.alone (by rw [hclear]; rfl)
    rw [hclear]
    have hcounts : (stopStep s .clear).1.counts = ⟨0, 0, 0, 0⟩ := by
      simp only [stopStep, Server.counts, Server.call, htask]
      rfl
    rw [hcounts]
    exact balanced_zero
  · obtain ⟨hcounts, hnotes⟩ := stopStep_still (s := s) lost hclear
    exact h.still lost hcounts hnotes

/-- **A step of the server keeps the balance.** -/
theorem serverStep_balanced {log : List ServerEvent} (act : ServerAct) (hwf : s.Wf)
    (hkeeps : s.Keeps b log) (h : Balanced s.counts t) :
    Balanced (serverStep b act s).1.counts (notesOf lost (serverStep b act s).2 t) := by
  cases act with
  | start cfg created =>
    simp only [serverStep]
    split
    · -- a start clears the counters, whether there is a task then or not
      have hcounts : (startStep cfg created s).1.counts = ⟨0, 0, 0, 0⟩ := by
        cases created <;> rfl
      rw [hcounts]
      exact balanced_zero
    · exact h
  | stop =>
    simp only [serverStep]
    split <;> exact h
  | caller => exact stopStep_balanced lost hwf h
  | task a =>
    simp only [serverStep]
    split
    · next pc hpc => exact taskStep_balanced lost a hpc (hwf.task pc hpc) (hkeeps.2 pc hpc) h
    · exact h

/-! ## The synchronous receive -/

/-- It is refused, or made with some buffer on a server that is initialised. -/
theorem serverRecvfrom_cases (outcome : RecvOutcome) (buf : Option Nat) (ctx : ServerContext) :
    ((serverRecvfrom outcome buf ctx).called = false ∧ (serverRecvfrom outcome buf ctx).ctx = ctx)
      ∨ ctx.initialized = true ∧ ∃ bufSize, let r := serverRecvfrom outcome buf ctx
          r.called = true ∧ r.result = mapTimeoutToWouldblock (outcome.copied bufSize)
            ∧ r.ctx = if 0 < r.result then ctx.addPackets 1
                else if r.result < 0 then ctx.addDrops 1 else ctx := by
  unfold serverRecvfrom
  cases buf with
  | none => exact Or.inl ⟨rfl, rfl⟩
  | some bufSize =>
    dsimp only
    split
    · exact Or.inl ⟨rfl, rfl⟩
    · next hok =>
      rw [not_or, Bool.not_eq_false] at hok
      split
      · exact Or.inl ⟨rfl, rfl⟩
      · exact Or.inr ⟨hok.2, bufSize, rfl, rfl, rfl⟩

/-- It writes the counters only. -/
theorem recvfrom_wf (outcome : RecvOutcome) (buf : Option Nat) (hwf : s.Wf) :
    Server.Wf { s with ctx := (serverRecvfrom outcome buf s.ctx).ctx } := by
  rcases serverRecvfrom_cases outcome buf s.ctx with ⟨-, hctx⟩ | ⟨hinit, bufSize, -, -, hctx⟩
  · rw [hctx]
    exact hwf
  · -- a context that is all zero is not initialised
    have hsome : s.caller.requested = false → s.task ≠ none := by
      intro hrequested hnone
      rw [hwf.fresh hrequested hnone] at hinit
      exact Bool.noConfusion hinit
    rw [hctx]
    split
    · exact ⟨hwf.handle, hwf.stop, hwf.alone, fun hr hn => absurd hn (hsome hr),
        fun pc hpc => (hwf.task pc hpc).mono rfl id⟩
    · split
      · exact ⟨hwf.handle, hwf.stop, hwf.alone, fun hr hn => absurd hn (hsome hr),
          fun pc hpc => (hwf.task pc hpc).mono rfl id⟩
      · exact hwf

/-- **A synchronous receive keeps the balance.** -/
theorem recvfrom_balanced (outcome : RecvOutcome) (buf : Option Nat) (h : Balanced s.counts t) :
    Balanced (accountStep b (.recvfrom outcome buf lost) s).1.counts
      ((accountStep b (.recvfrom outcome buf lost) s).2.foldl Tally.add t) := by
  unfold accountStep
  dsimp only
  rcases serverRecvfrom_cases outcome buf s.ctx with
    ⟨hcalled, hctx⟩ | ⟨-, bufSize, hcalled, hresult, hctx⟩
  · rw [hcalled, hctx]
    exact h
  · rw [hcalled, hctx, hresult, if_pos rfl]
    by_cases hpos : 0 < mapTimeoutToWouldblock (outcome.copied bufSize)
    · have hremoved : outcome.removes lost = true :=
        removes_of_pos lost (by rintro errno rfl; rfl) hpos
      rw [if_pos hpos, if_pos hpos, hremoved]
      exact h.receive hpos
    · rw [if_neg hpos, if_neg hpos]
      have hloss := h.loss (outcome.removes lost) (not_lt.mp hpos)
      by_cases hneg : mapTimeoutToWouldblock (outcome.copied bufSize) < 0
      · rw [if_pos hneg] at hloss ⊢
        exact hloss
      · rw [if_neg hneg] at hloss ⊢
        exact hloss

end

/-! ## Runs -/

/-- What is kept along a run, with the log of the server. -/
def Accounted (b : ServerBuild) (s : Server) (notes : List Note) : Prop :=
  s.Wf ∧ (∃ log, s.Keeps b log) ∧ Balanced s.counts (tally notes)

theorem accountStep_balanced (b : ServerBuild) (act : AccountAct) {s : Server} {notes : List Note}
    (h : Accounted b s notes) :
    Accounted b (accountStep b act s).1 (notes ++ (accountStep b act s).2) := by
  obtain ⟨hwf, ⟨log, hkeeps⟩, hbalanced⟩ := h
  rw [Accounted, tally, List.foldl_append]
  cases act with
  | server act lost =>
    exact ⟨serverStep_wf b act hwf, ⟨_, serverStep_books act hwf hkeeps⟩,
      serverStep_balanced lost act hwf hkeeps hbalanced⟩
  | recvfrom outcome buf lost =>
    exact ⟨recvfrom_wf outcome buf hwf, ⟨_, hkeeps.quiet rfl (List.forall_mem_nil _)⟩,
      recvfrom_balanced lost outcome buf hbalanced⟩

theorem account_balanced (b : ServerBuild) (acts : List AccountAct) :
    Accounted b (run (accountStep b) acts .init).1 (run (accountStep b) acts .init).2 := by
  refine run_inv (accountStep b) (P := Accounted b)
    (fun act _ _ h => accountStep_balanced b act h) ⟨init_wf, ⟨[], ?_⟩, balanced_zero⟩ acts
  exact ⟨fun _ => books_nil b, fun _ hpc => absurd hpc.symm (Option.some_ne_none _)⟩

/-- Between two batches nothing is pending. -/
theorem counts_outside {s : Server} (h : s.left = 0) :
    s.counts = ⟨0, 0, s.ctx.rxPacketsTotal, s.ctx.rxDropTotal⟩ := by
  refine counts_of_begins fun pc hpc => Or.inl ?_
  rwa [s.left_some hpc] at h

/--
**The counters are right** between two batches if and only if as many datagrams were taken for a
timeout as there were errors without a datagram. Both are counted modulo `2 ^ 64`, since the
counters are. An empty datagram is of the first kind, and an interrupt by a signal or a socket
that is not valid is of the second. In a batch the counters lag behind by what is pending in it.
-/
theorem account_exact_iff (b : ServerBuild) (acts : List AccountAct) :
    let s := (run (accountStep b) acts .init).1
    let t := tally (run (accountStep b) acts .init).2
    (Exact s.ctx t ↔
      u64 (s.counts.pending + t.silent) = u64 t.spurious ∧ u64 s.counts.dispatched = 0)
    ∧ (s.left = 0 → (Exact s.ctx t ↔ u64 t.silent = u64 t.spurious)) := by
  intro s t
  obtain ⟨hdrops, hpackets, hbounded⟩ : Balanced s.counts t := (account_balanced b acts).2.2
  have hall : Exact s.ctx t ↔
      u64 (s.counts.pending + t.silent) = u64 t.spurious ∧ u64 s.counts.dispatched = 0 := by
    have hctx : s.ctx.rxPacketsTotal = s.counts.packets ∧ s.ctx.rxDropTotal = s.counts.drops :=
      ⟨rfl, rfl⟩
    unfold u64 at hdrops hpackets ⊢
    constructor
    · rintro ⟨hexact, hcounted⟩
      unfold u64 at hexact hcounted
      omega
    · rintro ⟨hequal, hnone⟩
      refine ⟨?_, ?_⟩
      · unfold u64
        omega
      · unfold u64
        omega
  refine ⟨hall, fun hleft => ?_⟩
  rw [hall, counts_outside hleft, Nat.zero_add]
  exact and_iff_left rfl

/-- A server with a callback whose task has begun a batch. -/
def listening : List AccountAct :=
  .server (.start (some ⟨0, 0, 1000, 1000, some 1, 0⟩) (some 1)) false
    :: List.replicate 15 (.server (.task ⟨true, some 7, true, .error 11⟩) false)

/-- A server without one that is initialised. -/
def polling : List AccountAct :=
  .server (.start none (some 1)) false
    :: List.replicate 8 (.server (.task ⟨true, some 7, true, .error 11⟩) false)

/-- A datagram and a timeout. -/
theorem account_exact_five :
    let out := run (accountStep .standard) (listening
      ++ [.server (.task ⟨true, none, true, .datagram 3 5 .zero⟩) false]
      ++ List.replicate 3 (.server (.task ⟨true, none, true, .error 11⟩) false)) .init
    (tally out.2).delivered = 1 ∧ Exact out.1.ctx (tally out.2) := by
  refine ⟨by decide +kernel, ((account_exact_iff .standard _).2 ?_).mpr ?_⟩ <;> decide +kernel

/-- **An empty datagram is in neither counter, and an interrupt is a drop.** -/
theorem account_not_exact :
    let empty := run (accountStep .standard) (listening
      ++ [.server (.task ⟨true, none, true, .datagram 3 0 .zero⟩) false]) .init
    let interrupted := run (accountStep .standard) (polling
      ++ [.recvfrom (.error 4) (some 64) false]) .init
    (empty.1.left = 0 ∧ tally empty.2 = ⟨1, 0, 1, 0⟩ ∧ empty.1.ctx.rxDropTotal = 0
        ∧ ¬ Exact empty.1.ctx (tally empty.2))
      ∧ interrupted.1.left = 0 ∧ tally interrupted.2 = ⟨0, 0, 0, 1⟩
        ∧ interrupted.1.ctx.rxDropTotal = 1 ∧ ¬ Exact interrupted.1.ctx (tally interrupted.2) := by
  decide +kernel

end UniNet.Udp
