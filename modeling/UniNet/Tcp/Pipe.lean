import UniNet.Infra.History
import UniNet.Infra.Run
import UniNet.Tcp.StreamBuffer

/-!
# Two tasks at one stream buffer

A stream buffer is shared by two tasks and no lock protects it. The IP task adds what the peer
sends while the application gets it, and the other way round for what is sent. Only the last
step of `uxStreamBufferAdd` is a critical section, so a task may be interrupted by the other one
after the free space or the size was determined and after every byte that was copied.

A `Pipe` is the buffer with both tasks somewhere in their calls. The bytes that are added belong
to a stream `S`, not necessarily in its order: with an offset they are stored ahead of the head,
and a call without data makes the head step over them later (`Feeds`). For the proofs the pipe
also counts how far both ends are in the stream, which no step looks at.

* `Inv` — the slots show the stream wherever something has been stored
* `stream_in_order` — what is got is the stream, in order, in every interleaving
-/

namespace UniNet.Tcp

open Infra

variable {n : Nat}

/-! ## The tasks -/

/-- Where the task that adds is in `uxStreamBufferAdd`. -/
inductive Writer where
  | idle
  /-- `done` of the `count` bytes are stored, from the slot `start` on -/
  | adding (offset start : Nat) (data : Option Bytes) (count done : Nat)
  deriving DecidableEq

/-- Where the task that gets is in `uxStreamBufferGet`. -/
inductive Reader where
  | idle
  /-- `got` are the bytes that are loaded of the `count` ones from the slot `start` on -/
  | getting (offset start count : Nat) (wanted peek : Bool) (got : Bytes)
  deriving DecidableEq

/--
A stream buffer and its two tasks.

`written` and `read` are the positions of head and tail in the stream, `stored` the positions
that were stored so far.
-/
structure Pipe (n : Nat) where
  buf : StreamBuffer n
  writer : Writer
  reader : Reader
  written : Nat
  read : Nat
  stored : List Nat
  deriving DecidableEq

/-- A new stream buffer; there may be anything in its array. -/
def Pipe.new (array : Buf n) : Pipe n where
  buf := .create array
  writer := .idle
  reader := .idle
  written := 0
  read := 0
  stored := []

/-- What the two tasks do, one memory access at a time. -/
inductive Act where
  /-- `uxStreamBufferAdd` is called, up to the computation of `uxCount` -/
  | add (offset : Nat) (data : Option Bytes) (byteCount : Nat)
  /-- `memcpy` stores a byte -/
  | store
  /-- the critical section -/
  | commit
  /-- `uxStreamBufferGet` is called, up to the computation of `uxCount` -/
  | get (offset maxCount : Nat) (wanted peek : Bool)
  /-- `memcpy` loads a byte -/
  | load
  /-- the tail is stored, if it moves -/
  | finish
  deriving DecidableEq

/-- The results of the calls. -/
inductive PipeEvent where
  | added (offset count : Nat)
  /-- these bytes at the position `pos`; the tail has moved by `freed` -/
  | got (pos : Nat) (bytes : Bytes) (freed : Nat)
  deriving DecidableEq

/-- The task that adds. -/
def addStep (offset : Nat) (data : Option Bytes) (byteCount : Nat) (s : Pipe n) : Pipe n :=
  match s.writer with
  | .idle =>
    if s.buf.addCount offset byteCount ≠ 0 then
      { s with
        writer := .adding offset (s.buf.addStart offset) data (s.buf.addCount offset byteCount) 0 }
    else s
  | _ => s

def storeStep (s : Pipe n) : Pipe n :=
  match s.writer with
  | .adding offset start (some data) count done =>
    if done < count then
      { s with
        buf := { s.buf with
          array := s.buf.array.set (wrap n (start + done)) (byteAt data done) }
        writer := .adding offset start (some data) count (done + 1)
        stored := (s.written + offset + done) :: s.stored }
    else s
  | _ => s

def commitStep (s : Pipe n) : Pipe n × List PipeEvent :=
  match s.writer with
  | .adding offset start data count done =>
    if data = none ∨ done = count then
      ({ s with
          buf := s.buf.advanceHead offset start count
          writer := .idle
          written := s.written + if offset = 0 then count else 0 },
        [.added offset count])
    else (s, [])
  | .idle => (s, [])

/-- The task that gets. -/
def getStep (offset maxCount : Nat) (wanted peek : Bool) (s : Pipe n) : Pipe n :=
  match s.reader with
  | .idle =>
    if s.buf.getCount offset maxCount ≠ 0 then
      { s with
        reader := .getting offset (s.buf.getStart offset) (s.buf.getCount offset maxCount)
          wanted peek [] }
    else s
  | _ => s

def loadStep (s : Pipe n) : Pipe n :=
  match s.reader with
  | .getting offset start count true peek got =>
    if got.length < count then
      { s with
        reader := .getting offset start count true peek
          (got ++ [byteAt s.buf.array.bytes (wrap n (start + got.length))]) }
    else s
  | _ => s

def finishStep (s : Pipe n) : Pipe n × List PipeEvent :=
  match s.reader with
  | .getting offset start count wanted peek got =>
    if wanted = false ∨ got.length = count then
      let freed := if peek = false ∧ offset = 0 then count else 0
      ({ s with
          buf := s.buf.advanceTail offset start count peek
          reader := .idle
          read := s.read + freed },
        [.got (s.read + offset) got freed])
    else (s, [])
  | .idle => (s, [])

/-- A step of one of the tasks. One that is not due changes nothing. -/
def pipeStep (a : Act) (s : Pipe n) : Pipe n × List PipeEvent :=
  match a with
  | .add offset data byteCount => (addStep offset data byteCount s, [])
  | .store => (storeStep s, [])
  | .commit => commitStep s
  | .get offset maxCount wanted peek => (getStep offset maxCount wanted peek s, [])
  | .load => (loadStep s, [])
  | .finish => finishStep s

/-! ## The stream -/

/-- `len` bytes of the stream. -/
def window (S : Nat → UInt8) (pos len : Nat) : Bytes := (List.range len).map fun i => S (pos + i)

@[simp] theorem window_length (S : Nat → UInt8) (pos len : Nat) :
    (window S pos len).length = len := by
  rw [window, List.length_map, List.length_range]

theorem window_succ (S : Nat → UInt8) (pos len : Nat) :
    window S pos (len + 1) = window S pos len ++ [S (pos + len)] := by
  rw [window, List.range_succ, List.map_append, List.map_singleton, window]

/--
What is added is the stream: data with an offset are those that far ahead of the head, and
without data the head only steps over positions that have been stored.
-/
def Feeds (S : Nat → UInt8) (a : Act) (s : Pipe n) : Prop :=
  match a with
  | .add offset (some data) byteCount =>
    ∀ i < s.buf.addCount offset byteCount, byteAt data i = S (s.written + offset + i)
  | .add offset none byteCount =>
    offset = 0 → ∀ i < s.buf.addCount offset byteCount, s.written + i ∈ s.stored
  | _ => True

instance (S : Nat → UInt8) : (a : Act) → (s : Pipe n) → Decidable (Feeds S a s)
  | .add offset (some data) byteCount, s =>
    inferInstanceAs (Decidable (∀ i < s.buf.addCount offset byteCount,
      byteAt data i = S (s.written + offset + i)))
  | .add offset none byteCount, s =>
    inferInstanceAs (Decidable (offset = 0 → ∀ i < s.buf.addCount offset byteCount,
      s.written + i ∈ s.stored))
  | .store, _ | .commit, _ | .get _ _ _ _, _ | .load, _ | .finish, _ => isTrue trivial

/-! ## The invariant -/

/-- What the adding task relies on while it copies. -/
def Writer.Ok (S : Nat → UInt8) (s : Pipe n) : Writer → Prop
  | .idle => True
  | .adding offset start data count done =>
    start = (s.written + offset) % n ∧ s.written + offset + count < s.read + n ∧ done ≤ count ∧
      match data with
      | some data => (∀ i < count, byteAt data i = S (s.written + offset + i)) ∧
          ∀ i < done, s.written + offset + i ∈ s.stored
      | none => offset = 0 → ∀ i < count, s.written + i ∈ s.stored

/-- What the getting task relies on while it copies. -/
def Reader.Ok (S : Nat → UInt8) (s : Pipe n) : Reader → Prop
  | .idle => True
  | .getting offset start count _ _ got =>
    start = (s.read + offset) % n ∧ s.read + offset + count ≤ s.written ∧ got.length ≤ count ∧
      got = window S (s.read + offset) got.length

/-- The positions that can be read back: between tail and head, and what is stored ahead. -/
def Pipe.known (s : Pipe n) : Set Nat :=
  {p | s.read ≤ p ∧ (p < s.written ∨ p ∈ s.stored)}

/-- **The slots show the stream wherever something has been stored.** -/
structure Inv (S : Nat → UInt8) (s : Pipe n) : Prop where
  tail : s.buf.tail = s.read % n
  head : s.buf.head = s.written % n
  front : ∃ f, s.buf.front = f % n ∧ s.written ≤ f ∧ f < s.read + n
  le : s.read ≤ s.written
  ahead : ∀ p ∈ s.stored, p < s.read + n
  shows : Retains (byteAt s.buf.array.bytes) n S s.known
  writer : s.writer.Ok S s
  reader : s.reader.Ok S s

namespace Inv

variable {S : Nat → UInt8} {s : Pipe n}

theorem lt (h : Inv S s) : s.written < s.read + n := by
  obtain ⟨f, -, hle, hlt⟩ := h.front
  omega

theorem pos (h : Inv S s) : 0 < n := by
  have := h.lt
  have := h.le
  omega

theorem known_lt (h : Inv S s) : ∀ p ∈ s.known, s.read ≤ p ∧ p < s.read + n := by
  rintro p ⟨hle, hlt | hstored⟩
  · have := h.lt
    exact ⟨hle, by omega⟩
  · exact ⟨hle, h.ahead p hstored⟩

theorem getSpace_eq (h : Inv S s) : s.buf.getSpace = n - 1 - (s.written - s.read) := by
  rw [StreamBuffer.getSpace, StreamBuffer.space, h.head, h.tail, gap_mod h.le h.lt]

theorem getSize_eq (h : Inv S s) : s.buf.getSize = s.written - s.read := by
  rw [StreamBuffer.getSize, StreamBuffer.distance, h.head, h.tail, distance_mod h.le h.lt]

/-- There is room for what a call takes over. -/
theorem addCount_lt (h : Inv S s) {offset byteCount : Nat}
    (hne : s.buf.addCount offset byteCount ≠ 0) :
    s.written + offset + s.buf.addCount offset byteCount < s.read + n := by
  have hle := h.le
  have hlt := h.lt
  unfold StreamBuffer.addCount at hne ⊢
  rw [h.getSpace_eq] at hne ⊢
  split at hne
  · split <;> omega
  · omega

theorem addStart_eq (h : Inv S s) {offset : Nat} (ho : offset ≤ n) :
    s.buf.addStart offset = (s.written + offset) % n := by
  unfold StreamBuffer.addStart
  rw [h.head]
  split
  · rw [wrap_mod_add h.pos ho]
  · next h0 =>
    have h0 : offset = 0 := by omega
    rw [h0, Nat.add_zero]

theorem getCount_le (h : Inv S s) {offset maxCount : Nat}
    (hne : s.buf.getCount offset maxCount ≠ 0) :
    s.read + offset + s.buf.getCount offset maxCount ≤ s.written := by
  have hle := h.le
  unfold StreamBuffer.getCount at hne ⊢
  rw [h.getSize_eq] at hne ⊢
  split at hne
  · split <;> omega
  · omega

theorem getStart_eq (h : Inv S s) {offset : Nat} (ho : offset ≤ n) :
    s.buf.getStart offset = (s.read + offset) % n := by
  unfold StreamBuffer.getStart
  rw [h.tail]
  split
  · rw [wrap_mod_add h.pos ho]
  · next h0 =>
    have h0 : offset = 0 := by omega
    rw [h0, Nat.add_zero]

end Inv

/-! ## The steps -/

section steps

variable {S : Nat → UInt8} {s : Pipe n}

theorem Inv.addStep (h : Inv S s) {offset byteCount : Nat} {data : Option Bytes}
    (hf : Feeds S (.add offset data byteCount) s) : Inv S (addStep offset data byteCount s) := by
  unfold Tcp.addStep
  split
  · split
    · next hw hne =>
      have hlt := h.addCount_lt hne
      have := h.le
      refine ⟨h.tail, h.head, h.front, h.le, h.ahead, h.shows, ?_, h.reader⟩
      refine ⟨h.addStart_eq (by omega), hlt, Nat.zero_le _, ?_⟩
      cases data with
      | none => exact hf
      | some data => exact ⟨hf, fun i hi => absurd hi (Nat.not_lt_zero i)⟩
    · exact h
  · exact h

theorem Inv.storeStep (h : Inv S s) : Inv S (storeStep s) := by
  unfold Tcp.storeStep
  split
  · next offset start data count done hw =>
    split
    · next hlt =>
      have hok := h.writer
      rw [hw] at hok
      obtain ⟨hstart, hroom, hle, hdata, hdone⟩ := hok
      have hrw := h.le
      have hslot : wrap n (start + done) = (s.written + offset + done) % n := by
        rw [hstart, wrap_mod_add h.pos (by omega)]
      have hbytes : wrap n (start + done) < s.buf.array.bytes.length := by
        rw [Buf.length_eq, hslot]
        exact Nat.mod_lt _ h.pos
      refine ⟨h.tail, h.head, h.front, h.le, ?_, ?_, ?_, h.reader⟩
      · intro p hp
        rcases List.mem_cons.mp hp with rfl | hp
        · show s.written + offset + done < s.read + n
          omega
        · exact h.ahead p hp
      · have hshows : Retains (byteAt (s.buf.array.set (wrap n (start + done))
            (byteAt data done)).bytes) n S (insert (s.written + offset + done) s.known) := by
          refine h.shows.store h.known_lt ⟨by omega, by omega⟩ fun i => ?_
          rw [Buf.set, byteAt_set _ hbytes, hslot, hdata done hlt]
        refine hshows.mono ?_
        rintro p ⟨hp, hlt | hp'⟩
        · exact Set.mem_insert_of_mem _ ⟨hp, Or.inl hlt⟩
        · rcases List.mem_cons.mp hp' with rfl | hp'
          · exact Set.mem_insert _ _
          · exact Set.mem_insert_of_mem _ ⟨hp, Or.inr hp'⟩
      · refine ⟨hstart, hroom, hlt, hdata, fun i hi => ?_⟩
        rcases Nat.lt_succ_iff_lt_or_eq.mp hi with hi | rfl
        · exact List.mem_cons_of_mem _ (hdone i hi)
        · exact List.mem_cons_self
    · exact h
  · exact h

/-- The front is the furthest position that data were added at. -/
theorem Inv.front_advanceHead (h : Inv S s) (hn : n < 2 ^ 31) {offset start count : Nat}
    (hstart : start = (s.written + offset) % n) (hroom : s.written + offset + count < s.read + n) :
    ∃ f, (s.buf.advanceHead offset start count).front = f % n ∧
      s.written + (if offset = 0 then count else 0) ≤ f ∧ f < s.read + n := by
  obtain ⟨f, hf, hle, hlt⟩ := h.front
  have hrw := h.le
  -- the position that the front is compared with
  obtain ⟨p, hp, hpos, hple, hplt⟩ : ∃ p,
      (if offset = 0 then wrap n (start + count) else start) = p % n ∧
        s.written + (if offset = 0 then count else 0) ≤ p ∧ s.read ≤ p ∧ p < s.read + n := by
    by_cases h0 : offset = 0
    · subst h0
      refine ⟨s.written + count, ?_, by simp, by omega, by omega⟩
      rw [if_pos rfl, hstart, wrap_mod_add h.pos (by omega), Nat.add_zero]
    · exact ⟨s.written + offset, by rw [if_neg h0, hstart], by rw [if_neg h0]; omega, by omega,
        by omega⟩
  have hcmp := StreamBuffer.lessThenEqual_iff hn h.tail (show s.read ≤ f by omega) hlt hple hplt
  unfold StreamBuffer.advanceHead
  rw [hf, hp]
  by_cases hfp : f ≤ p
  · exact ⟨p, if_pos (hcmp.mpr hfp), hpos, hplt⟩
  · exact ⟨f, if_neg (fun hle => hfp (hcmp.mp hle)), by omega, hlt⟩

theorem Inv.commitStep (h : Inv S s) (hn : n < 2 ^ 31) : Inv S (commitStep s).1 := by
  unfold Tcp.commitStep
  split
  · next offset start data count done hw =>
    split
    · next hdue =>
      have hok := h.writer
      rw [hw] at hok
      obtain ⟨hstart, hroom, -, hdata⟩ := hok
      -- what the head steps over has been stored
      have hover : offset = 0 → ∀ i < count, s.written + i ∈ s.stored := by
        rintro rfl i hi
        cases data with
        | none => exact hdata rfl i hi
        | some data =>
          have hdone := hdata.2 i (by
            rcases hdue with hnone | rfl
            · cases hnone
            · exact hi)
          rwa [Nat.add_zero] at hdone
      have hle := h.le
      refine ⟨h.tail, ?_, h.front_advanceHead hn hstart hroom, by
        show s.read ≤ s.written + _
        omega, h.ahead, ?_, trivial, ?_⟩
      · show (s.buf.advanceHead offset start count).head
          = (s.written + if offset = 0 then count else 0) % n
        unfold StreamBuffer.advanceHead
        by_cases h0 : offset = 0
        · subst h0
          simp only [if_pos, hstart, Nat.add_zero]
          rw [wrap_mod_add h.pos (by omega)]
        · simp only [if_neg h0, Nat.add_zero, h.head]
      · refine h.shows.mono ?_
        rintro p ⟨hp, hlt | hp'⟩
        · have hlt : p < s.written + if offset = 0 then count else 0 := hlt
          refine ⟨hp, ?_⟩
          by_cases hw' : p < s.written
          · exact Or.inl hw'
          · by_cases h0 : offset = 0
            · obtain ⟨i, rfl⟩ := Nat.exists_eq_add_of_le (Nat.not_lt.mp hw')
              rw [if_pos h0] at hlt
              exact Or.inr (hover h0 i (by omega))
            · rw [if_neg h0, Nat.add_zero] at hlt
              exact Or.inl hlt
        · exact ⟨hp, Or.inr hp'⟩
      · have hr := h.reader
        cases hreader : s.reader with
        | idle => trivial
        | getting roffset rstart rcount wanted peek got =>
          rw [hreader] at hr
          obtain ⟨h₁, h₂, h₃, h₄⟩ := hr
          exact ⟨h₁, by
            show s.read + roffset + rcount ≤ s.written + _
            omega, h₃, h₄⟩
    · exact h
  · exact h

theorem Inv.getStep (h : Inv S s) (offset maxCount : Nat) (wanted peek : Bool) :
    Inv S (getStep offset maxCount wanted peek s) := by
  unfold Tcp.getStep
  split
  · split
    · next hr hne =>
      have hle := h.getCount_le hne
      have hlt := h.lt
      refine ⟨h.tail, h.head, h.front, h.le, h.ahead, h.shows, h.writer, ?_⟩
      exact ⟨h.getStart_eq (by omega), hle, Nat.zero_le _, rfl⟩
    · exact h
  · exact h

theorem Inv.loadStep (h : Inv S s) : Inv S (loadStep s) := by
  unfold Tcp.loadStep
  split
  · next offset start count peek got hr =>
    split
    · next hlt =>
      have hok := h.reader
      rw [hr] at hok
      obtain ⟨hstart, hle, -, hgot⟩ := hok
      have hw := h.lt
      have hload : byteAt s.buf.array.bytes (wrap n (start + got.length))
          = S (s.read + offset + got.length) := by
        rw [hstart, wrap_mod_add h.pos (by omega)]
        exact h.shows _ ⟨by omega, Or.inl (by omega)⟩
      refine ⟨h.tail, h.head, h.front, h.le, h.ahead, h.shows, h.writer, ?_⟩
      refine ⟨hstart, hle, ?_, ?_⟩
      · rw [List.length_append, List.length_singleton]
        exact hlt
      · rw [List.length_append, List.length_singleton, window_succ, ← hgot, hload]
    · exact h
  · exact h

theorem Inv.finishStep (h : Inv S s) : Inv S (finishStep s).1 := by
  unfold Tcp.finishStep
  split
  · next offset start count wanted peek got hr =>
    split
    · have hok := h.reader
      rw [hr] at hok
      obtain ⟨hstart, hle, -, -⟩ := hok
      have hlt := h.lt
      by_cases hmove : peek = false ∧ offset = 0
      · simp only [StreamBuffer.advanceTail, if_pos hmove]
        obtain ⟨f, hf, hwf, hfr⟩ := h.front
        refine ⟨?_, h.head, ⟨f, hf, hwf, by
          show f < s.read + count + n
          omega⟩, by
          show s.read + count ≤ s.written
          omega, ?_, ?_, ?_, trivial⟩
        · show wrap n (start + count) = (s.read + count) % n
          rw [hstart, hmove.2, Nat.add_zero, wrap_mod_add h.pos (by omega)]
        · intro p hp
          have := h.ahead p hp
          show p < s.read + count + n
          omega
        · refine h.shows.mono ?_
          rintro p ⟨hp, hp'⟩
          exact ⟨by
            have hp : s.read + count ≤ p := hp
            omega, hp'⟩
        · have hw := h.writer
          cases hwriter : s.writer with
          | idle => trivial
          | adding woffset wstart data wcount done =>
            rw [hwriter] at hw
            obtain ⟨h₁, h₂, h₃⟩ := hw
            exact ⟨h₁, by
              show s.written + woffset + wcount < s.read + count + n
              omega, h₃⟩
      · simp only [StreamBuffer.advanceTail, if_neg hmove]
        exact ⟨h.tail, h.head, h.front, h.le, h.ahead, h.shows, h.writer, trivial⟩
    · exact h
  · exact h

theorem Inv.step (h : Inv S s) (hn : n < 2 ^ 31) {a : Act} (hf : Feeds S a s) :
    Inv S (pipeStep a s).1 := by
  cases a with
  | add offset data byteCount => exact h.addStep hf
  | store => exact h.storeStep
  | commit => exact h.commitStep hn
  | get offset maxCount wanted peek => exact h.getStep offset maxCount wanted peek
  | load => exact h.loadStep
  | finish => exact h.finishStep

end steps

/-! ## Whole runs -/

/-- How far the head has moved. -/
def added (log : List PipeEvent) : Nat :=
  (log.map fun
    | .added offset count => if offset = 0 then count else 0
    | .got _ _ _ => 0).sum

/-- How far the tail has moved. -/
def freed (log : List PipeEvent) : Nat :=
  (log.map fun
    | .added _ _ => 0
    | .got _ _ freed => freed).sum

theorem added_append (l m : List PipeEvent) : added (l ++ m) = added l + added m := by
  rw [added, List.map_append, List.sum_append, added, added]

theorem freed_append (l m : List PipeEvent) : freed (l ++ m) = freed l + freed m := by
  rw [freed, List.map_append, List.sum_append, freed, freed]

/--
What was got is the stream, in between of what had been freed and what had been added by then.
The tail moves on from where it was and never past what has been added.
-/
def PipeEvent.Right (S : Nat → UInt8) (read written : Nat) : PipeEvent → Prop
  | .added _ _ => True
  | .got pos bytes freed =>
    bytes = window S pos bytes.length ∧ read ≤ pos ∧ pos + bytes.length ≤ written ∧
      (0 < freed → pos = read ∧ pos + freed ≤ written)

instance (S : Nat → UInt8) (read written : Nat) : (e : PipeEvent) →
    Decidable (e.Right S read written)
  | .added _ _ => isTrue trivial
  | .got _ _ _ => inferInstanceAs (Decidable (_ ∧ _ ∧ _ ∧ (_ → _)))

/-- No slot is written by a call while another call reads it. -/
def RaceFree (s : Pipe n) : Prop :=
  match s.writer, s.reader with
  | .adding _ wstart (some _) wcount _, .getting _ rstart rcount true _ _ =>
    ∀ i < wcount, ∀ j < rcount, wrap n (wstart + i) ≠ wrap n (rstart + j)
  | _, _ => True

theorem Inv.raceFree {S : Nat → UInt8} {s : Pipe n} (h : Inv S s) : RaceFree s := by
  unfold RaceFree
  split
  · next woffset wstart data wcount done roffset rstart rcount peek got hw hr =>
    intro i hi j hj heq
    have hwok := h.writer
    have hrok := h.reader
    rw [hw] at hwok
    rw [hr] at hrok
    obtain ⟨hwstart, hroom, -⟩ := hwok
    obtain ⟨hrstart, hle, -⟩ := hrok
    have hrw := h.le
    rw [hwstart, hrstart, wrap_mod_add h.pos (by omega), wrap_mod_add h.pos (by omega)] at heq
    have heq := Nat.mod_injOn_Ico s.read n
      (Finset.mem_coe.mpr (Finset.mem_Ico.mpr ⟨by omega, by omega⟩))
      (Finset.mem_coe.mpr (Finset.mem_Ico.mpr ⟨by omega, by omega⟩)) heq
    omega
  · trivial

/-- The log of a run up to a state. -/
structure Told (S : Nat → UInt8) (s : Pipe n) (log : List PipeEvent) : Prop where
  inv : Inv S s
  read : s.read = freed log
  written : s.written = added log
  right : Throughout (fun pre e => e.Right S (freed pre) (added pre)) log

theorem Told.quiet {S : Nat → UInt8} {s s' : Pipe n} {log : List PipeEvent} (h : Told S s log)
    (hinv : Inv S s') (hr : s'.read = s.read) (hw : s'.written = s.written) :
    Told S s' (log ++ []) := by
  rw [List.append_nil]
  exact ⟨hinv, hr.trans h.read, hw.trans h.written, h.right⟩

/-! Only the last steps of the calls move the ends. -/

theorem addStep_ends (offset : Nat) (data : Option Bytes) (byteCount : Nat) (s : Pipe n) :
    (addStep offset data byteCount s).read = s.read ∧
      (addStep offset data byteCount s).written = s.written := by
  unfold addStep
  split
  · split <;> exact ⟨rfl, rfl⟩
  · exact ⟨rfl, rfl⟩

theorem storeStep_ends (s : Pipe n) :
    (storeStep s).read = s.read ∧ (storeStep s).written = s.written := by
  unfold storeStep
  split
  · split <;> exact ⟨rfl, rfl⟩
  · exact ⟨rfl, rfl⟩

theorem getStep_ends (offset maxCount : Nat) (wanted peek : Bool) (s : Pipe n) :
    (getStep offset maxCount wanted peek s).read = s.read ∧
      (getStep offset maxCount wanted peek s).written = s.written := by
  unfold getStep
  split
  · split <;> exact ⟨rfl, rfl⟩
  · exact ⟨rfl, rfl⟩

theorem loadStep_ends (s : Pipe n) :
    (loadStep s).read = s.read ∧ (loadStep s).written = s.written := by
  unfold loadStep
  split
  · split <;> exact ⟨rfl, rfl⟩
  · exact ⟨rfl, rfl⟩

theorem Told.step {S : Nat → UInt8} {s : Pipe n} {log : List PipeEvent} (h : Told S s log)
    (hn : n < 2 ^ 31) {a : Act} (hf : Feeds S a s) :
    Told S (pipeStep a s).1 (log ++ (pipeStep a s).2) := by
  have hinv := h.inv.step hn hf
  cases a with
  | add offset data byteCount =>
    obtain ⟨hr, hw⟩ := addStep_ends offset data byteCount s
    exact h.quiet hinv hr hw
  | store =>
    obtain ⟨hr, hw⟩ := storeStep_ends s
    exact h.quiet hinv hr hw
  | get offset maxCount wanted peek =>
    obtain ⟨hr, hw⟩ := getStep_ends offset maxCount wanted peek s
    exact h.quiet hinv hr hw
  | load =>
    obtain ⟨hr, hw⟩ := loadStep_ends s
    exact h.quiet hinv hr hw
  | commit =>
    revert hinv
    simp only [pipeStep]
    unfold commitStep
    split
    · split
      · intro hinv
        refine ⟨hinv, ?_, ?_, throughout_concat.mpr ⟨h.right, trivial⟩⟩
        · rw [freed_append]
          exact h.read
        · rw [added_append, ← h.written]
          simp [added]
      · intro hinv
        exact h.quiet hinv rfl rfl
    · intro hinv
      exact h.quiet hinv rfl rfl
  | finish =>
    have hok := h.inv.reader
    revert hinv
    simp only [pipeStep]
    unfold finishStep
    split
    · next offset start count wanted peek got hr =>
      rw [hr] at hok
      obtain ⟨-, hle, hlen, hgot⟩ := hok
      split
      · intro hinv
        refine ⟨hinv, ?_, ?_, throughout_concat.mpr ⟨h.right, ?_⟩⟩
        · rw [freed_append, ← h.read]
          simp [freed]
        · rw [added_append]
          exact h.written
        · rw [← h.read, ← h.written]
          refine ⟨hgot, by omega, by omega, ?_⟩
          by_cases hmove : peek = false ∧ offset = 0
          · rw [if_pos hmove]
            intro _
            omega
          · rw [if_neg hmove]
            intro h0
            omega
      · intro hinv
        exact h.quiet hinv rfl rfl
    · intro hinv
      exact h.quiet hinv rfl rfl

theorem told_new (S : Nat → UInt8) (array : Buf n) (hpos : 0 < n) : Told S (Pipe.new array) [] where
  inv :=
    { tail := (Nat.zero_mod n).symm
      head := (Nat.zero_mod n).symm
      front := ⟨0, (Nat.zero_mod n).symm, Nat.le_refl 0, by
        show 0 < 0 + n
        omega⟩
      le := Nat.le_refl 0
      ahead := fun p hp => absurd hp List.not_mem_nil
      shows := by
        rintro p ⟨-, hlt | hp⟩
        · exact absurd hlt (Nat.not_lt_zero p)
        · exact absurd hp List.not_mem_nil
      writer := trivial
      reader := trivial }
  read := rfl
  written := rfl
  right := trivial

/--
**What is got is the stream, in order, in every interleaving.**

No slot is ever written during a call that reads it, the tail never overtakes the head, and the
buffer never holds more than `n - 1` bytes.
-/
theorem stream_in_order (S : Nat → UInt8) (array : Buf n) (hpos : 0 < n) (hn : n < 2 ^ 31)
    (acts : List Act) (hfeeds : Along pipeStep (Feeds S) acts (Pipe.new array)) :
    Throughout (fun pre e => e.Right S (freed pre) (added pre))
        (run pipeStep acts (Pipe.new array)).2 ∧
      RaceFree (run pipeStep acts (Pipe.new array)).1 ∧
      freed (run pipeStep acts (Pipe.new array)).2 ≤ added (run pipeStep acts (Pipe.new array)).2 ∧
      added (run pipeStep acts (Pipe.new array)).2
        < freed (run pipeStep acts (Pipe.new array)).2 + n := by
  have htold : Told S (run pipeStep acts (Pipe.new array)).1
      (run pipeStep acts (Pipe.new array)).2 :=
    run_inv_along (P := Told S) pipeStep (fun a s log hf h => h.step hn hf)
      (told_new S array hpos) acts hfeeds
  refine ⟨htold.right, htold.inv.raceFree, ?_, ?_⟩
  · rw [← htold.read, ← htold.written]
    exact htold.inv.le
  · rw [← htold.read, ← htold.written]
    exact htold.inv.lt

/-- The second byte comes first, and the two tasks take turns around the end of the ring. -/
def crossing : List Act :=
  [.add 1 (some [1]) 1, .store, .commit, .add 0 (some [0]) 1, .store, .get 0 4 true false, .commit,
    .add 0 none 1, .commit, .get 0 4 true false, .load, .add 0 (some [2, 3]) 2, .store, .load,
    .finish, .commit, .add 0 (some [3]) 1, .get 0 4 true false, .store, .load, .commit, .finish]

/-- A ring of four slots with something in it. -/
def fourSlots : Buf 4 := ⟨[7, 7, 7, 7], rfl⟩

theorem stream_in_order_crossing :
    Along pipeStep (Feeds UInt8.ofNat) crossing (Pipe.new fourSlots) ∧
      (run pipeStep crossing (Pipe.new fourSlots)).2 = [.added 1 1, .added 0 1, .added 0 1,
        .got 0 [0, 1] 2, .added 0 1, .added 0 1, .got 2 [2] 1] ∧
      RaceFree (run pipeStep crossing (Pipe.new fourSlots)).1 := by
  have hfeeds : Along pipeStep (Feeds UInt8.ofNat) crossing (Pipe.new fourSlots) := by
    decide +kernel
  exact ⟨hfeeds, by decide +kernel,
    (stream_in_order UInt8.ofNat fourSlots (by decide) (by decide) crossing hfeeds).2.1⟩

end UniNet.Tcp
