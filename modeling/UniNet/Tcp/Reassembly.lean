import UniNet.Tcp.Pipe
import UniNet.Tcp.Window

/-!
# From segments to bytes

A `Receiver` is what lies between the segments of a peer and the bytes that an application reads:
`prvStoreRxData` with the receive window on one side of the incoming stream buffer, a task that
gets bytes on the other one. The network may lose, repeat, delay and reorder segments, and the
peer may cut its stream differently each time. The two tasks take turns at single memory accesses.

The list of the window only remembers what is stored in the ring ahead of the head, and a segment
is entered into it before its bytes are copied. So the invariant says where the IP task is
(`Phase`): which position the window expects, how far the head is behind it, and which positions
are just being stored.

The stream buffer is made for the first segment that is stored. If there is no memory for it, the
connection is reset and stores nothing any more (`Refused`).

* `Assembles.step`, `Refused.step` — one step of either task
* `segments_in_order` — what is read is the stream of the peer, whatever became of its segments
-/

namespace UniNet.Tcp

open Infra

variable {n : Nat}

/-! ## The code -/

inductive IpTask where
  | idle
  /-- in `prvStoreRxData`: what is left of a call of `lTCPAddRxdata`, and whether one fell short -/
  | storing (acts : List Act) (failed : Bool)
  /-- in a loop that does not end -/
  | stuck
  deriving DecidableEq

structure Receiver (n : Nat) where
  pipe : Pipe n
  window : RxWindow
  /-- `rxStream` is not NULL -/
  made : Bool
  ip : IpTask
  /-- `prvTCPSendReset` was called -/
  reset : Bool
  /-- `bMallocError`: there was no memory for `rxStream`, and the state is `eCLOSE_WAIT` -/
  mallocError : Bool
  deriving DecidableEq

/-- A new connection, on which the number `first` is expected. -/
def Receiver.new (first : Nat) (array : Buf n) : Receiver n where
  pipe := .new array
  window := ⟨serial first 0, [], 0, none⟩
  made := false
  ip := .idle
  reset := false
  mallocError := false

/-- `uxStreamBufferAdd` for data, one memory access at a time. -/
def addData (offset : Nat) (data : Bytes) (count : Nat) : List Act :=
  .add offset (some data) count :: (List.replicate count .store ++ [.commit])

/--
`prvStoreRxData` up to the first call of `lTCPAddRxdata`, when the IP task gets to it. `mem`: there
is memory for `rxStream`.
-/
def storeRxData (rxStreamSize seq : Nat) (data : Bytes) (alloc mem : Bool) (s : Receiver n) :
    Receiver n :=
  match s.ip with
  | .idle =>
    if data = [] then { s with window := { s.window with sack := none } }
    else
      let space := if s.made then s.pipe.buf.getSpace else rxStreamSize
      match rxCheck alloc seq data.length space s.window with
      | none => { s with ip := .stuck }
      | some c =>
        if 0 ≤ c.offset then
          if s.made || mem then
            { s with
              window := c.window
              made := true
              ip := .storing (addData c.offset.toNat (data.drop c.skip)
                (u32Sub data.length c.skip)) false }
          else
            -- `prvTCPCreateStream` fails, and `lTCPAddRxdata` returns -1
            { s with
              window := c.window
              mallocError := true
              ip := .storing [] true
              reset := true }
        else { s with window := c.window, ip := .storing [] false }
  | _ => s

/-- `lStored != ulRxLength`. -/
def Act.fallsShort (a : Act) (b : StreamBuffer n) : Bool :=
  match a with
  | .add offset (some _) count => b.addCount offset count ≠ count
  | _ => false

/-- The next memory access of the IP task, or the next one of its two calls. -/
def ipStep (s : Receiver n) : Receiver n × List PipeEvent :=
  match s.ip with
  | .storing (a :: acts) failed =>
    let short := a.fallsShort s.pipe.buf
    ({ s with
        pipe := (pipeStep a s.pipe).1
        ip := .storing acts (failed || short)
        reset := s.reset || short },
      (pipeStep a s.pipe).2)
  | .storing [] failed =>
    if failed = false ∧ 0 < s.window.userDataLength then
      ({ s with
          window := { s.window with userDataLength := 0 }
          ip := .storing [.add 0 none s.window.userDataLength, .commit] false },
        [])
    else ({ s with ip := .idle }, [])
  | .idle | .stuck => (s, [])

/-- The application only gets. -/
def Act.isRead : Act → Bool
  | .get _ _ _ _ | .load | .finish => true
  | _ => false

inductive NetAct where
  /-- a segment with so many bytes of the stream arrives -/
  | segment (pos len : Nat) (alloc mem : Bool)
  | ip
  | app (a : Act)
  deriving DecidableEq

/-- One step, for a peer whose stream is `S`. -/
def netStep (S : Nat → UInt8) (first rxStreamSize : Nat) (a : NetAct) (s : Receiver n) :
    Receiver n × List PipeEvent :=
  match a with
  | .segment pos len alloc mem =>
    -- `prvTCPSocketIsActive`: in the state `eCLOSE_WAIT` a segment is not looked at
    if s.mallocError then (s, [])
    else (storeRxData rxStreamSize (serial first pos) (Tcp.window S pos len) alloc mem s, [])
  | .ip => ipStep s
  | .app a =>
    if a.isRead then ({ s with pipe := (pipeStep a s.pipe).1 }, (pipeStep a s.pipe).2) else (s, [])

/-! ## The invariant -/

/--
What comes after the call that stores `len` bytes: if they are expected, the head moves over them
and then over what the list had behind them.
-/
def Follow (s : Receiver n) (offset len cur : Nat) : Prop :=
  if offset = 0 then cur = s.pipe.written + len + s.window.userDataLength ∧
    ∀ i < s.window.userDataLength, s.pipe.written + len + i ∈ s.pipe.stored
  else cur = s.pipe.written ∧ s.window.userDataLength = 0

/--
Where the IP task is. `cur` is the position that the window expects, and what lies between `lo` and
`hi` is just being stored.
-/
inductive Phase (S : Nat → UInt8) (s : Receiver n) (cur : Nat) : Nat → Nat → Prop
  | idle (hip : s.ip = .idle) (hw : s.pipe.writer = .idle) (hu : s.window.userDataLength = 0)
      (hmore : cur = s.pipe.written) : Phase S s cur 0 0
  | call {offset len : Nat} {data : Bytes} (hip : s.ip = .storing (addData offset data len) false)
      (hw : s.pipe.writer = .idle) (hmade : s.made = true) (hpos : 0 < len)
      (hdata : ∀ i < len, byteAt data i = S (s.pipe.written + offset + i))
      (hroom : s.pipe.written + offset + len < s.pipe.read + n) (hmore : Follow s offset len cur) :
      Phase S s cur (s.pipe.written + offset) (s.pipe.written + offset + len)
  | copy {offset start len k : Nat} {data : Bytes}
      (hip : s.ip = .storing (List.replicate k .store ++ [.commit]) false)
      (hw : s.pipe.writer = .adding offset start (some data) len (len - k)) (hmade : s.made = true)
      (hk : k ≤ len) (hmore : Follow s offset len cur) :
      Phase S s cur (s.pipe.written + offset) (s.pipe.written + offset + len)
  | done (hip : s.ip = .storing [] false) (hw : s.pipe.writer = .idle)
      (hmore : Follow s 0 0 cur) : Phase S s cur 0 0
  | moving {u : Nat} (hip : s.ip = .storing [.add 0 none u, .commit] false)
      (hw : s.pipe.writer = .idle) (hmade : s.made = true) (hu : s.window.userDataLength = 0)
      (hpos : 0 < u) (hmore : cur = s.pipe.written + u)
      (hstored : ∀ i < u, s.pipe.written + i ∈ s.pipe.stored) : Phase S s cur 0 0
  | moved {u start : Nat} (hip : s.ip = .storing [.commit] false)
      (hw : s.pipe.writer = .adding 0 start none u 0) (hmade : s.made = true)
      (hu : s.window.userDataLength = 0) (hmore : cur = s.pipe.written + u) : Phase S s cur 0 0

/-- The list remembers what is stored, or about to be, ahead of the position that is expected. -/
def Remembers (first : Nat) (s : Receiver n) (cur lo hi : Nat) : Prop :=
  ∀ seg ∈ s.window.segments, ∃ p, seg.At first p ∧ p ≠ cur ∧
    (cur < p → ∀ i < seg.dataLength, p + i ∈ s.pipe.stored ∨ lo ≤ p + i ∧ p + i < hi)

/-- The invariant of a connection that was not reset. -/
structure Assembles (S : Nat → UInt8) (first : Nat) (s : Receiver n) (log : List PipeEvent) :
    Prop where
  told : Told S s.pipe log
  phase : ∃ cur lo hi, Phase S s cur lo hi ∧ s.window.current = serial first cur ∧ cur < 2 ^ 31 ∧
    Remembers first s cur lo hi
  ahead : ∀ p ∈ s.pipe.stored, p + 1 < s.pipe.read + n
  fresh : s.made = false → s.pipe.written = 0 ∧ s.pipe.stored = []
  alive : s.reset = false ∧ s.mallocError = false

/-- The invariant of one that was, for want of memory: there is no stream, and nothing in it. -/
structure Refused (S : Nat → UInt8) (s : Receiver n) (log : List PipeEvent) : Prop where
  told : Told S s.pipe log
  ip : s.ip = .idle ∨ s.ip = .storing [] true
  written : s.pipe.written = 0
  dead : s.reset = true ∧ s.mallocError = true

/-- The segment is the first one to be stored, and there is no memory for `rxStream`. -/
def NetAct.LacksMemory (rxStreamSize : Nat) (a : NetAct) (s : Receiver n) : Prop :=
  match a with
  | .segment pos len alloc mem =>
    mem = false ∧ s.ip = .idle ∧ s.made = false ∧ 0 < len ∧ pos + len ≤ rxStreamSize ∧
      (pos = 0 ∨ alloc = true)
  | _ => False

instance (rxStreamSize : Nat) (a : NetAct) (s : Receiver n) :
    Decidable (a.LacksMemory rxStreamSize s) :=
  match a with
  | .segment pos len alloc mem => inferInstanceAs (Decidable (mem = false ∧ s.ip = .idle ∧
      s.made = false ∧ 0 < len ∧ pos + len ≤ rxStreamSize ∧ (pos = 0 ∨ alloc = true)))
  | .ip | .app _ => isFalse id

/-! ## The application -/

/-- What the application does is seen by the IP task as more space only. -/
theorem pipeStep_of_isRead {a : Act} (ha : a.isRead = true) (s : Pipe n) :
    (pipeStep a s).1.writer = s.writer ∧ (pipeStep a s).1.written = s.written ∧
      (pipeStep a s).1.stored = s.stored ∧ s.read ≤ (pipeStep a s).1.read := by
  cases a with
  | get offset maxCount wanted peek =>
    simp only [pipeStep, getStep]
    split
    · split <;> exact ⟨rfl, rfl, rfl, Nat.le_refl _⟩
    · exact ⟨rfl, rfl, rfl, Nat.le_refl _⟩
  | load =>
    simp only [pipeStep, loadStep]
    split
    · split <;> exact ⟨rfl, rfl, rfl, Nat.le_refl _⟩
    · exact ⟨rfl, rfl, rfl, Nat.le_refl _⟩
  | finish =>
    simp only [pipeStep, finishStep]
    split
    · split
      · exact ⟨rfl, rfl, rfl, Nat.le_add_right ..⟩
      · exact ⟨rfl, rfl, rfl, Nat.le_refl _⟩
    · exact ⟨rfl, rfl, rfl, Nat.le_refl _⟩
  | _ => cases ha

theorem Phase.with_pipe {S : Nat → UInt8} {s : Receiver n} {p : Pipe n} {cur lo hi : Nat}
    (h : Phase S s cur lo hi) (hwriter : p.writer = s.pipe.writer)
    (hwritten : p.written = s.pipe.written) (hstored : p.stored = s.pipe.stored)
    (hread : s.pipe.read ≤ p.read) : Phase S { s with pipe := p } cur lo hi := by
  have hfollow : ∀ {offset len}, Follow s offset len cur →
      Follow { s with pipe := p } offset len cur := by
    intro offset len hf
    unfold Follow at hf ⊢
    rw [hwritten, hstored]
    exact hf
  cases h with
  | idle hip hw hu hmore => exact .idle hip (hwriter.trans hw) hu (hmore.trans hwritten.symm)
  | call hip hw hmade hpos hdata hroom hmore =>
    rw [← hwritten]
    refine .call hip (hwriter.trans hw) hmade hpos ?_ ?_ (hfollow hmore)
    · rw [hwritten]
      exact hdata
    · rw [hwritten]
      exact hroom.trans_le (Nat.add_le_add_right hread n)
  | copy hip hw hmade hk hmore =>
    rw [← hwritten]
    exact .copy hip (hwriter.trans hw) hmade hk (hfollow hmore)
  | done hip hw hmore => exact .done hip (hwriter.trans hw) (hfollow hmore)
  | moving hip hw hmade hu hpos hmore hsame =>
    refine .moving hip (hwriter.trans hw) hmade hu hpos ?_ ?_
    · rw [hwritten]
      exact hmore
    · rw [hwritten, hstored]
      exact hsame
  | moved hip hw hmade hu hmore =>
    refine .moved hip (hwriter.trans hw) hmade hu ?_
    rw [hwritten]
    exact hmore

theorem feeds_read {a : Act} (ha : a.isRead = true) (S : Nat → UInt8) (s : Pipe n) :
    Feeds S a s := by
  cases a with
  | add _ _ _ => cases ha
  | _ => trivial

namespace Assembles

variable {S : Nat → UInt8} {first : Nat} {s : Receiver n} {log : List PipeEvent}

theorem pipeStep_read (h : Assembles S first s log) (hn : n < 2 ^ 31) {a : Act}
    (ha : a.isRead = true) :
    Assembles S first { s with pipe := (pipeStep a s.pipe).1 } (log ++ (pipeStep a s.pipe).2) := by
  obtain ⟨hwriter, hwritten, hstored, hread⟩ := pipeStep_of_isRead ha s.pipe
  obtain ⟨cur, lo, hi, hphase, hcur, hlt, hsegs⟩ := h.phase
  refine ⟨h.told.step hn (feeds_read ha S s.pipe), ?_, ?_, ?_, h.alive⟩
  · refine ⟨cur, lo, hi, hphase.with_pipe hwriter hwritten hstored hread, hcur, hlt, ?_⟩
    unfold Remembers
    rw [hstored]
    exact hsegs
  · intro p hp
    rw [hstored] at hp
    exact (h.ahead p hp).trans_le (Nat.add_le_add_right hread n)
  · intro hmade
    rw [hwritten, hstored]
    exact h.fresh hmade

/-! ## The IP task -/

/-- There is room for the whole call. -/
theorem addCount_eq (h : Inv S s.pipe) {offset len : Nat}
    (hroom : s.pipe.written + offset + len < s.pipe.read + n) :
    s.pipe.buf.addCount offset len = len := by
  have hle := h.le
  rw [StreamBuffer.addCount, h.getSpace_eq]
  split <;> omega

/-- The call of `lTCPAddRxdata` for the data of the segment begins. -/
theorem ipStep_add (h : Assembles S first s log) (hn : n < 2 ^ 31) {offset len cur : Nat}
    {data : Bytes} (hip : s.ip = .storing (addData offset data len) false)
    (hw : s.pipe.writer = .idle)
    (hmade : s.made = true) (hpos : 0 < len)
    (hdata : ∀ i < len, byteAt data i = S (s.pipe.written + offset + i))
    (hroom : s.pipe.written + offset + len < s.pipe.read + n) (hmore : Follow s offset len cur)
    (hcur : s.window.current = serial first cur) (hlt : cur < 2 ^ 31)
    (hsegs : Remembers first s cur (s.pipe.written + offset) (s.pipe.written + offset + len)) :
    Assembles S first (ipStep s).1 (log ++ (ipStep s).2) := by
  have hcount := addCount_eq h.told.inv hroom
  have hfeeds : Feeds S (.add offset (some data) len) s.pipe := by
    intro i hi
    rw [hcount] at hi
    exact hdata i hi
  have hstep : (pipeStep (.add offset (some data) len) s.pipe).1
      = { s.pipe with
          writer := .adding offset (s.pipe.buf.addStart offset) (some data) len 0 } := by
    simp [pipeStep, addStep, hw, hcount, Nat.ne_of_gt hpos]
  have htold := h.told.step hn hfeeds
  have hshort : (Act.add offset (some data) len).fallsShort s.pipe.buf = false := by
    simp [Act.fallsShort, hcount]
  unfold ipStep
  rw [hip]
  simp only [addData, hshort, Bool.or_false]
  rw [hstep] at htold ⊢
  refine ⟨htold, ⟨cur, _, _, ?_, hcur, hlt, hsegs⟩, h.ahead, ?_, h.alive⟩
  · exact .copy (k := len) rfl (by rw [Nat.sub_self]) hmade (Nat.le_refl len) hmore
  · intro hm
    rw [hmade] at hm
    cases hm

/-- A byte is stored. -/
theorem ipStep_store (h : Assembles S first s log) (hn : n < 2 ^ 31) {offset start len k cur : Nat}
    {data : Bytes} (hip : s.ip = .storing (List.replicate (k + 1) .store ++ [.commit]) false)
    (hw : s.pipe.writer = .adding offset start (some data) len (len - (k + 1)))
    (hmade : s.made = true) (hk : k + 1 ≤ len) (hmore : Follow s offset len cur)
    (hcur : s.window.current = serial first cur) (hlt : cur < 2 ^ 31)
    (hsegs : Remembers first s cur (s.pipe.written + offset) (s.pipe.written + offset + len)) :
    Assembles S first (ipStep s).1 (log ++ (ipStep s).2) := by
  have hwok := h.told.inv.writer
  rw [hw] at hwok
  obtain ⟨-, hroom, -⟩ := hwok
  have hstep : (pipeStep .store s.pipe).1 = { s.pipe with
      buf := { s.pipe.buf with
        array := s.pipe.buf.array.set (wrap n (start + (len - (k + 1))))
          (byteAt data (len - (k + 1))) }
      writer := .adding offset start (some data) len (len - (k + 1) + 1)
      stored := (s.pipe.written + offset + (len - (k + 1))) :: s.pipe.stored } := by
    simp [pipeStep, storeStep, hw, show len - (k + 1) < len by omega]
  have htold := h.told.step (a := .store) hn trivial
  unfold ipStep
  rw [hip, List.replicate_succ, List.cons_append]
  simp only [Act.fallsShort, Bool.or_false]
  rw [hstep] at htold ⊢
  refine ⟨htold, ⟨cur, s.pipe.written + offset, s.pipe.written + offset + len, ?_, hcur, hlt, ?_⟩,
    ?_, ?_, h.alive⟩
  · have hdone : len - (k + 1) + 1 = len - k := by omega
    refine .copy (k := k) rfl (congrArg (Writer.adding offset start (some data) len) hdone) hmade
      (by omega) ?_
    unfold Follow at hmore ⊢
    split at hmore
    · next h0 =>
      rw [if_pos h0]
      exact ⟨hmore.1, fun i hi => List.mem_cons_of_mem _ (hmore.2 i hi)⟩
    · next h0 =>
      rw [if_neg h0]
      exact hmore
  · intro seg hseg
    obtain ⟨p, hp, hne, hall⟩ := hsegs seg hseg
    exact ⟨p, hp, hne, fun hcp i hi => (hall hcp i hi).imp_left (List.mem_cons_of_mem _)⟩
  · intro p hp
    rcases List.mem_cons.mp hp with rfl | hp
    · show s.pipe.written + offset + (len - (k + 1)) + 1 < s.pipe.read + n
      omega
    · exact h.ahead p hp
  · intro hm
    rw [hmade] at hm
    cases hm

/-- The critical section: what was expected can be read, what came too early is remembered. -/
theorem ipStep_commit (h : Assembles S first s log) (hn : n < 2 ^ 31) {offset start len cur : Nat}
    {data : Bytes} (hip : s.ip = .storing [.commit] false)
    (hw : s.pipe.writer = .adding offset start (some data) len len) (hmade : s.made = true)
    (hmore : Follow s offset len cur) (hcur : s.window.current = serial first cur)
    (hlt : cur < 2 ^ 31)
    (hsegs : Remembers first s cur (s.pipe.written + offset) (s.pipe.written + offset + len)) :
    Assembles S first (ipStep s).1 (log ++ (ipStep s).2) := by
  have hwok := h.told.inv.writer
  rw [hw] at hwok
  obtain ⟨-, -, -, -, hstored⟩ := hwok
  have hstep : pipeStep .commit s.pipe = ({ s.pipe with
      buf := s.pipe.buf.advanceHead offset start len
      writer := .idle
      written := s.pipe.written + if offset = 0 then len else 0 }, [.added offset len]) := by
    simp [pipeStep, commitStep, hw]
  have htold := h.told.step (a := .commit) hn trivial
  unfold ipStep
  rw [hip]
  simp only [Act.fallsShort, Bool.or_false]
  rw [hstep] at htold ⊢
  -- everything that was due is stored by now
  have hall : Remembers first s cur 0 0 := by
    intro seg hseg
    obtain ⟨p, hp, hne, hdue⟩ := hsegs seg hseg
    refine ⟨p, hp, hne, fun hcp i hi => Or.inl ?_⟩
    rcases hdue hcp i hi with hmem | ⟨hlo, hhi⟩
    · exact hmem
    · obtain ⟨j, hj⟩ := Nat.exists_eq_add_of_le hlo
      rw [hj]
      exact hstored j (by omega)
  refine ⟨htold, ⟨cur, 0, 0, ?_, hcur, hlt, hall⟩, h.ahead, ?_, h.alive⟩
  · refine .done rfl rfl ?_
    unfold Follow at hmore ⊢
    split at hmore
    · next h0 =>
      simp only [if_pos h0, if_true, Nat.add_zero]
      exact hmore
    · next h0 =>
      simp only [if_neg h0, if_true, Nat.add_zero, hmore.2]
      exact ⟨hmore.1, fun i hi => absurd hi (Nat.not_lt_zero i)⟩
  · intro hm
    rw [hmade] at hm
    cases hm

/-- The head is about to move over what was stored before. -/
theorem ipStep_add_none (h : Assembles S first s log) (hn : n < 2 ^ 31) {u cur : Nat}
    (hip : s.ip = .storing [.add 0 none u, .commit] false) (hw : s.pipe.writer = .idle)
    (hmade : s.made = true) (hu : s.window.userDataLength = 0) (hpos : 0 < u)
    (hmore : cur = s.pipe.written + u) (hstored : ∀ i < u, s.pipe.written + i ∈ s.pipe.stored)
    (hcur : s.window.current = serial first cur) (hlt : cur < 2 ^ 31)
    (hsegs : Remembers first s cur 0 0) :
    Assembles S first (ipStep s).1 (log ++ (ipStep s).2) := by
  have hlast := h.ahead _ (hstored (u - 1) (by omega))
  have hcount : s.pipe.buf.addCount 0 u = u := addCount_eq h.told.inv (by omega)
  have hfeeds : Feeds S (.add 0 none u) s.pipe := by
    intro _ i hi
    rw [hcount] at hi
    exact hstored i hi
  have hstep : (pipeStep (.add 0 none u) s.pipe).1
      = { s.pipe with writer := .adding 0 (s.pipe.buf.addStart 0) none u 0 } := by
    simp [pipeStep, addStep, hw, hcount, Nat.ne_of_gt hpos]
  have htold := h.told.step hn hfeeds
  unfold ipStep
  rw [hip]
  simp only [Act.fallsShort, Bool.or_false]
  rw [hstep] at htold ⊢
  refine ⟨htold, ⟨cur, 0, 0, .moved rfl rfl hmade hu hmore, hcur, hlt, hsegs⟩, h.ahead, ?_,
    h.alive⟩
  intro hm
  rw [hmade] at hm
  cases hm

/-- The head moves. -/
theorem ipStep_commit_none (h : Assembles S first s log) (hn : n < 2 ^ 31) {u start cur : Nat}
    (hip : s.ip = .storing [.commit] false) (hw : s.pipe.writer = .adding 0 start none u 0)
    (hmade : s.made = true) (hu : s.window.userDataLength = 0) (hmore : cur = s.pipe.written + u)
    (hcur : s.window.current = serial first cur) (hlt : cur < 2 ^ 31)
    (hsegs : Remembers first s cur 0 0) :
    Assembles S first (ipStep s).1 (log ++ (ipStep s).2) := by
  have hstep : pipeStep .commit s.pipe = ({ s.pipe with
      buf := s.pipe.buf.advanceHead 0 start u
      writer := .idle
      written := s.pipe.written + u }, [.added 0 u]) := by
    simp [pipeStep, commitStep, hw]
  have htold := h.told.step (a := .commit) hn trivial
  unfold ipStep
  rw [hip]
  simp only [Act.fallsShort, Bool.or_false]
  rw [hstep] at htold ⊢
  refine ⟨htold, ⟨cur, 0, 0, .done rfl rfl ?_, hcur, hlt, hsegs⟩, h.ahead, ?_, h.alive⟩
  · simp only [Follow, if_true, hu, Nat.add_zero]
    exact ⟨hmore, fun i hi => absurd hi (Nat.not_lt_zero i)⟩
  · intro hm
    rw [hmade] at hm
    cases hm

/-- The first call has returned. -/
theorem ipStep_return (h : Assembles S first s log) {cur : Nat} (hip : s.ip = .storing [] false)
    (hw : s.pipe.writer = .idle) (hmore : Follow s 0 0 cur)
    (hcur : s.window.current = serial first cur) (hlt : cur < 2 ^ 31)
    (hsegs : Remembers first s cur 0 0) :
    Assembles S first (ipStep s).1 (log ++ (ipStep s).2) := by
  simp only [Follow, if_true, Nat.add_zero] at hmore
  obtain ⟨hmore, hstored⟩ := hmore
  unfold ipStep
  rw [hip]
  dsimp only
  by_cases hu : 0 < s.window.userDataLength
  · have hmade : s.made = true := by
      by_contra hno
      have hempty := (h.fresh (eq_false_of_ne_true hno)).2
      have hmem := hstored 0 hu
      rw [hempty] at hmem
      cases hmem
    rw [if_pos ⟨rfl, hu⟩]
    refine ⟨by simpa using h.told, ⟨cur, 0, 0, ?_, hcur, hlt, hsegs⟩, h.ahead, h.fresh, h.alive⟩
    exact .moving rfl hw hmade rfl hu hmore hstored
  · have hzero : s.window.userDataLength = 0 := by omega
    rw [if_neg fun hc => hu hc.2]
    refine ⟨by simpa using h.told, ⟨cur, 0, 0, ?_, hcur, hlt, hsegs⟩, h.ahead, h.fresh, h.alive⟩
    exact .idle rfl hw hzero (by rw [hmore, hzero, Nat.add_zero])

/-- **A step of the IP task.** -/
theorem after_ipStep (h : Assembles S first s log) (hn : n < 2 ^ 31) :
    Assembles S first (ipStep s).1 (log ++ (ipStep s).2) := by
  obtain ⟨cur, lo, hi, hphase, hcur, hlt, hsegs⟩ := h.phase
  cases hphase with
  | idle hip _ _ _ =>
    unfold ipStep
    rw [hip]
    dsimp only
    rwa [List.append_nil]
  | call hip hw hmade hpos hdata hroom hmore =>
    exact h.ipStep_add hn hip hw hmade hpos hdata hroom hmore hcur hlt hsegs
  | @copy offset start len k data hip hw hmade hk hmore =>
    cases k with
    | zero => exact h.ipStep_commit hn hip hw hmade hmore hcur hlt hsegs
    | succ k => exact h.ipStep_store hn hip hw hmade hk hmore hcur hlt hsegs
  | done hip hw hmore => exact h.ipStep_return hip hw hmore hcur hlt hsegs
  | moving hip hw hmade hu hpos hmore hstored =>
    exact h.ipStep_add_none hn hip hw hmade hu hpos hmore hstored hcur hlt hsegs
  | moved hip hw hmade hu hmore =>
    exact h.ipStep_commit_none hn hip hw hmade hu hmore hcur hlt hsegs

/-! ## A segment arrives -/

theorem byteAt_drop_window {pos len k i : Nat} (h : k + i < len) :
    byteAt ((Tcp.window S pos len).drop k) i = S (pos + (k + i)) := by
  rw [byteAt, List.getD_eq_getElem?_getD, List.getElem?_drop, Tcp.window,
    List.getElem?_map, List.getElem?_range h]
  rfl

/-- The space that is reported to the window is there. -/
theorem space_le (h : Assembles S first s log) {rxStreamSize : Nat} (hsize : rxStreamSize < n) :
    s.pipe.written + (if s.made then s.pipe.buf.getSpace else rxStreamSize)
      < s.pipe.read + n := by
  have hle := h.told.inv.le
  have hlt := h.told.inv.lt
  split
  · rw [h.told.inv.getSpace_eq]
    omega
  · next hno =>
    have hzero := (h.fresh (eq_false_of_ne_true hno)).1
    omega

/-- Nothing is due while the IP task is idle, so what is remembered is stored. -/
theorem mem_stored {cur : Nat} (hsegs : Remembers first s cur 0 0) {seg : RxSegment}
    (hseg : seg ∈ s.window.segments) {p i : Nat} (hp : seg.At first p) (hcp : cur < p)
    (hi : i < seg.dataLength) : p + i ∈ s.pipe.stored := by
  obtain ⟨p', hp', -, hall⟩ := hsegs seg hseg
  have hfits := Nat.lt_of_le_of_lt (Nat.le_add_right p _) hp.fits
  obtain rfl := (hp'.number_iff hfits).mp hp.number
  exact (hall hcp i hi).resolve_right fun hno => Nat.not_lt_zero _ hno.2

section

variable {cur pos len : Nat} {w : RxWindow} (h : Assembles S first s log)
  (hw : s.pipe.writer = .idle) (hmore : cur = s.pipe.written)
  (hcur : s.window.current = serial first cur) (hlt : cur < 2 ^ 31)
  (hsegs : Remembers first s cur 0 0)

include h hw hmore hcur hlt hsegs

/-- The window does not take the segment over. -/
theorem storing_nothing (hcur' : w.current = s.window.current)
    (hsegs' : w.segments = s.window.segments) (hzero : w.userDataLength = 0) :
    Assembles S first { s with window := w, ip := .storing [] false } log := by
  refine ⟨h.told, ⟨cur, 0, 0, .done rfl hw ?_, hcur'.trans hcur, hlt, ?_⟩, h.ahead, h.fresh,
    h.alive⟩
  · simp only [Follow, if_true, hzero, Nat.add_zero]
    exact ⟨hmore, fun i hi => absurd hi (Nat.not_lt_zero i)⟩
  · unfold Remembers
    rw [hsegs']
    exact hsegs

omit hcur hlt in
/-- The expected bytes are passed on, and with them what follows in the list. -/
theorem storing_expected (hle : pos ≤ cur) (hend : cur < pos + len)
    (hroom : s.pipe.written + (pos + len - cur) < s.pipe.read + n)
    {u : Nat} (hmoved : Advanced first cur (pos + len - cur) u s.window w) :
    Assembles S first { s with
      window := w
      made := true
      ip := .storing (addData 0 ((Tcp.window S pos len).drop (cur - pos)) (pos + len - cur))
        false } log := by
  refine ⟨h.told, ⟨_, _, _, .call rfl hw rfl (by omega) ?_ hroom ?_, hmoved.current, hmoved.fits,
    ?_⟩, h.ahead, (by intro hm; cases hm), h.alive⟩
  · intro i hi
    have hat : pos + (cur - pos + i) = s.pipe.written + 0 + i := by omega
    rw [byteAt_drop_window (by omega)]
    exact congrArg S hat
  · simp only [Follow, if_true, hmoved.userDataLength]
    refine ⟨by rw [hmore], fun i hi => ?_⟩
    obtain ⟨seg, hseg, p, hp, hxp, hpi, hip⟩ := hmoved.covered
      (cur + (pos + len - cur) + i) (by omega) (by omega)
    have hmem := mem_stored hsegs hseg hp (by omega)
      (show cur + (pos + len - cur) + i - p < seg.dataLength by omega)
    rw [Nat.add_sub_cancel' hpi] at hmem
    rw [← hmore]
    exact hmem
  · intro seg hseg
    obtain ⟨p, hp, -⟩ := hsegs seg (hmoved.segments hseg)
    refine ⟨p, hp, ?_, fun hcp i hi => Or.inl ?_⟩
    · rintro rfl
      exact hmoved.gap seg hseg hp
    · exact mem_stored hsegs (hmoved.segments hseg) hp (by omega) hi

/-- Bytes that come too early are stored ahead of the head, and remembered. -/
theorem storing_ahead (hpos : 0 < len) (hlen : pos + len < 2 ^ 31) (hlater : cur < pos)
    (hroom : s.pipe.written + (pos - cur) + len < s.pipe.read + n)
    (hcur' : w.current = s.window.current)
    (hsegs' : w.segments = s.window.segments ++ [⟨serial first pos, len⟩])
    (hzero : w.userDataLength = 0) :
    Assembles S first { s with
      window := w
      made := true
      ip := .storing (addData (pos - cur) ((Tcp.window S pos len).drop 0) len) false } log := by
  refine ⟨h.told, ⟨cur, _, _, .call rfl hw rfl hpos ?_ hroom ?_, hcur'.trans hcur, hlt, ?_⟩,
    h.ahead, (by intro hm; cases hm), h.alive⟩
  · intro i hi
    have hat : pos + (0 + i) = s.pipe.written + (pos - cur) + i := by omega
    rw [byteAt_drop_window (by omega)]
    exact congrArg S hat
  · simp only [Follow, hzero, if_neg (show ¬ pos - cur = 0 by omega)]
    exact ⟨hmore, trivial⟩
  · intro seg hseg
    simp only [hsegs', List.mem_append, List.mem_singleton] at hseg
    rcases hseg with hseg | rfl
    · obtain ⟨p, hp, hne, -⟩ := hsegs seg hseg
      exact ⟨p, hp, hne, fun hcp i hi => Or.inl (mem_stored hsegs hseg hp hcp hi)⟩
    · refine ⟨pos, ⟨rfl, hpos, hlen⟩, by omega, fun _ i hi => Or.inr ?_⟩
      show s.pipe.written + (pos - cur) ≤ pos + i ∧ pos + i < s.pipe.written + (pos - cur) + len
      have hi : i < len := hi
      omega

end

/-- Between two segments nothing is due, and the head is where the window expects it. -/
theorem idle (h : Assembles S first s log) (hip : s.ip = .idle) :
    s.pipe.writer = .idle ∧ s.window.userDataLength = 0 ∧
      s.window.current = serial first s.pipe.written ∧ s.pipe.written < 2 ^ 31 ∧
      Remembers first s s.pipe.written 0 0 := by
  obtain ⟨cur, lo, hi, hphase, hcur, hlt, hsegs⟩ := h.phase
  cases hphase with
  | idle _ hw hu hmore =>
    subst hmore
    exact ⟨hw, hu, hcur, hlt, hsegs⟩
  | call hip' _ _ _ _ _ _ | copy hip' _ _ _ _ | done hip' _ _ | moving hip' _ _ _ _ _ _
  | moved hip' _ _ _ _ =>
    rw [hip'] at hip
    cases hip

/-- Without a stream, nothing was stored and nothing is remembered. -/
theorem window_of_not_made (h : Assembles S first s log) (hip : s.ip = .idle)
    (hmade : s.made = false) :
    s.window.current = serial first 0 ∧ s.window.segments = [] := by
  obtain ⟨-, -, hcur, -, hsegs⟩ := h.idle hip
  obtain ⟨hzero, hempty⟩ := h.fresh hmade
  rw [hzero] at hcur hsegs
  refine ⟨hcur, List.eq_nil_iff_forall_not_mem.mpr fun seg hseg => ?_⟩
  obtain ⟨p, hp, hne, -⟩ := hsegs seg hseg
  have hmem := mem_stored hsegs hseg hp (Nat.pos_of_ne_zero hne) hp.pos
  rw [hempty] at hmem
  cases hmem

section

variable {rxStreamSize pos len : Nat} {alloc mem : Bool} (h : Assembles S first s log)
  (hn : n < 2 ^ 31) (hsize : rxStreamSize < n) (hlen : pos + len < 2 ^ 31)

include h hn hsize hlen

/-- When a segment is to be stored, there is a stream or memory for one. -/
theorem made_or_mem (hip : s.ip = .idle) (hpos : 0 < len)
    (hmem : ¬ (NetAct.segment pos len alloc mem).LacksMemory rxStreamSize s) {c : Checked}
    (hc : rxCheck alloc (serial first pos) len
      (if s.made then s.pipe.buf.getSpace else rxStreamSize) s.window = some c)
    (hoff : 0 ≤ c.offset) : (s.made || mem) = true := by
  by_contra hno
  rw [Bool.or_eq_true, not_or, Bool.not_eq_true, Bool.not_eq_true] at hno
  obtain ⟨hmade, hnone⟩ := hno
  obtain ⟨hcur, hnil⟩ := h.window_of_not_made hip hmade
  obtain ⟨c', hc', hiff⟩ := rxCheck_first alloc hcur hnil hpos hlen
    (show rxStreamSize < 2 ^ 31 by omega)
  rw [hmade, if_neg Bool.false_ne_true, hc', Option.some_inj] at hc
  subst hc
  exact hmem ⟨hnone, hip, hmade, hpos, hiff.mp hoff⟩

/-- **The IP task takes up a segment.** -/
theorem after_storeRxData
    (hmem : ¬ (NetAct.segment pos len alloc mem).LacksMemory rxStreamSize s) :
    Assembles S first
      (storeRxData rxStreamSize (serial first pos) (Tcp.window S pos len) alloc mem s) log := by
  unfold storeRxData
  cases hip : s.ip with
  | storing _ _ | stuck => exact h
  | idle =>
    obtain ⟨hw, hu, hcur, hlt, hsegs⟩ := h.idle hip
    have hspace := h.space_le hsize
    have hroom := h.told.inv.lt
    have hle := h.told.inv.le
    dsimp only
    by_cases hnil : Tcp.window S pos len = []
    · rw [if_pos hnil]
      exact ⟨h.told, ⟨_, 0, 0, .idle rfl hw hu rfl, hcur, hlt, hsegs⟩, h.ahead, h.fresh, h.alive⟩
    rw [if_neg hnil, window_length]
    have hpos : 0 < len := by
      rw [← window_length S pos len]
      exact List.length_pos_iff.mpr hnil
    have hplaced : Placed first s.window.segments := fun seg hseg =>
      (hsegs seg hseg).imp fun p hp => hp.1
    obtain ⟨c, hc, hout⟩ := rxCheck_spec alloc hcur hplaced hlt hpos hlen
      (show (if s.made then s.pipe.buf.getSpace else rxStreamSize) < 2 ^ 31 by omega)
    have hmade := h.made_or_mem hn hsize hlen hip hpos hmem hc
    rw [hc]
    dsimp only
    cases hout with
    | refused hoff hcur' hsegs' hzero =>
      rw [if_neg (show ¬ 0 ≤ c.offset by omega)]
      exact h.storing_nothing hw rfl hcur hlt hsegs hcur' hsegs' hzero
    | inOrder hoff hle' hlt' hskip hfits hmoved =>
      obtain ⟨u, hmoved⟩ := hmoved
      have hcount : u32Sub len (s.pipe.written - pos) = pos + len - s.pipe.written := by
        rw [u32Sub_of_le (by omega) (by omega)]
        omega
      rw [if_pos (show 0 ≤ c.offset by omega), if_pos (hmade (by omega)), hoff, hskip, hcount]
      exact h.storing_expected hw rfl hsegs hle' hlt' (by omega) hmoved
    | ahead hoff hlater hskip hfits hcur' hsegs' hzero =>
      have hcount : u32Sub len 0 = len := u32Sub_of_le (Nat.zero_le len) (by omega)
      rw [if_pos (show 0 ≤ c.offset by omega), if_pos (hmade (by omega)), hoff, hskip, hcount]
      exact h.storing_ahead hw rfl hcur hlt hsegs hpos hlen hlater (by omega) hcur' hsegs' hzero

end

end Assembles

/-! ## Whole runs -/

/-- The segments are in front of the end of the stream. -/
def NetAct.Within : NetAct → Prop
  | .segment pos len _ _ => pos + len < 2 ^ 31
  | _ => True

instance : (a : NetAct) → Decidable a.Within
  | .segment pos len _ _ => inferInstanceAs (Decidable (pos + len < 2 ^ 31))
  | .ip => isTrue trivial
  | .app _ => isTrue trivial

section

variable {S : Nat → UInt8} {first rxStreamSize : Nat} {s : Receiver n} {log : List PipeEvent}
  {a : NetAct}

theorem Assembles.step (h : Assembles S first s log) (hn : n < 2 ^ 31) (hsize : rxStreamSize < n)
    (ha : a.Within) (hmem : ¬ a.LacksMemory rxStreamSize s) :
    Assembles S first (netStep S first rxStreamSize a s).1
      (log ++ (netStep S first rxStreamSize a s).2) := by
  cases a with
  | segment pos len alloc mem =>
    simp only [netStep, h.alive.2, Bool.false_eq_true, if_false, List.append_nil]
    exact h.after_storeRxData hn hsize ha hmem
  | ip => exact h.after_ipStep hn
  | app a =>
    simp only [netStep]
    split
    · next hread => exact h.pipeStep_read hn hread
    · rwa [List.append_nil]

theorem Refused.step (h : Refused S s log) (hn : n < 2 ^ 31) (a : NetAct) :
    Refused S (netStep S first rxStreamSize a s).1
      (log ++ (netStep S first rxStreamSize a s).2) := by
  cases a with
  | segment pos len alloc mem =>
    simp only [netStep, h.dead.2, if_true, List.append_nil]
    exact h
  | ip =>
    simp only [netStep, ipStep]
    rcases h.ip with hip | hip
    · rw [hip]
      simpa using h
    · rw [hip]
      exact ⟨by simpa using h.told, Or.inl rfl, h.written, h.dead⟩
  | app a =>
    simp only [netStep]
    split
    · next hread =>
      obtain ⟨-, hwritten, -, -⟩ := pipeStep_of_isRead hread s.pipe
      exact ⟨h.told.step hn (feeds_read hread S s.pipe), h.ip, hwritten.trans h.written, h.dead⟩
    · rwa [List.append_nil]

end

end UniNet.Tcp
