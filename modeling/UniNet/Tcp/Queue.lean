import UniNet.Tcp.Pipe

/-!
# A stream buffer is a queue

Calls that are not interrupted are runs of the two tasks in which only one of them moves, so the
invariant of the pipe says what `uxStreamBufferAdd` and `uxStreamBufferGet` do as functions: a
buffer of `n` slots is a queue for up to `n - 1` bytes.

* `add_undisturbed`, `get_undisturbed` — a call is the run of its own steps
* `Holds` — the buffer holds these bytes
* `Holds.add`, `Holds.get`, `Holds.getPtr` — what the calls do to them
-/

namespace UniNet.Tcp

open Infra

variable {n : Nat}

/-! ## Calls as runs -/

theorem store_congr {a : Buf n} {start : Nat} {data data' : Bytes} :
    ∀ {k : Nat}, (∀ i < k, byteAt data i = byteAt data' i) →
      StreamBuffer.store a start data k = StreamBuffer.store a start data' k
  | 0, _ => rfl
  | k + 1, h => by
    rw [StreamBuffer.store, StreamBuffer.store, store_congr fun i hi => h i (by omega),
      h k (Nat.lt_succ_self k)]

/-- The bytes are stored one after the other. -/
theorem run_store {s : Pipe n} {offset start count : Nat} {data : Bytes}
    (hw : s.writer = .adding offset start (some data) count 0) :
    ∀ k ≤ count, ∃ stored, run pipeStep (List.replicate k .store) s
      = ({ s with
            buf := { s.buf with array := StreamBuffer.store s.buf.array start data k }
            writer := .adding offset start (some data) count k
            stored := stored }, [])
  | 0, _ => ⟨s.stored, by rw [List.replicate_zero, run_nil, StreamBuffer.store, ← hw]⟩
  | k + 1, hk => by
    obtain ⟨stored, hrun⟩ := run_store hw k (by omega)
    refine ⟨(s.written + offset + k) :: stored, ?_⟩
    rw [List.replicate_succ', run_concat, hrun]
    simp only [pipeStep, storeStep, if_pos (show k < count by omega), List.append_nil,
      StreamBuffer.store]

/-- The bytes are loaded one after the other. -/
theorem run_load {s : Pipe n} {offset start count : Nat} {peek : Bool}
    (hr : s.reader = .getting offset start count true peek []) :
    ∀ k ≤ count, run pipeStep (List.replicate k .load) s
      = ({ s with
            reader := .getting offset start count true peek
              ((List.range k).map fun i => byteAt s.buf.array.bytes (wrap n (start + i))) }, [])
  | 0, _ => by rw [List.replicate_zero, run_nil, List.range_zero, List.map_nil, ← hr]
  | k + 1, hk => by
    rw [List.replicate_succ', run_concat, run_load hr k (by omega)]
    simp only [pipeStep, loadStep, List.length_map, List.length_range,
      if_pos (show k < count by omega), List.append_nil, List.range_succ, List.map_append,
      List.map_singleton]

/-- The steps of one call of `uxStreamBufferAdd`. -/
def addActs (b : StreamBuffer n) (offset : Nat) (data : Option Bytes) (byteCount : Nat) :
    List Act :=
  .add offset data byteCount ::
    ((if data = none then [] else List.replicate (b.addCount offset byteCount) .store) ++ [.commit])

/-- **A call of `uxStreamBufferAdd` that is not interrupted is the run of its steps.** -/
theorem add_undisturbed {s : Pipe n} (hw : s.writer = .idle) {offset byteCount : Nat}
    {data : Option Bytes} (hdata : ∀ d, data = some d → byteCount ≤ d.length)
    (hstart : s.buf.addCount offset byteCount ≠ 0 → s.buf.addStart offset < n)
    (hcount : s.buf.addCount offset byteCount ≤ n) :
    ∃ stored, (run pipeStep (addActs s.buf offset data byteCount) s).1
      = { s with
          buf := (s.buf.add offset data byteCount).1
          written := s.written + if offset = 0 then s.buf.addCount offset byteCount else 0
          stored := stored } := by
  obtain ⟨b, w, r, written, read, stored⟩ := s
  simp only at hw hstart hcount
  subst hw
  by_cases hne : b.addCount offset byteCount = 0
  · refine ⟨stored, ?_⟩
    simp [addActs, run, pipeStep, addStep, commitStep, StreamBuffer.add, hne]
  · cases data with
    | none =>
      refine ⟨stored, ?_⟩
      simp [addActs, run, pipeStep, addStep, commitStep, StreamBuffer.add, hne]
    | some data =>
      obtain ⟨stored', hrun⟩ := run_store
        (s := ⟨b, .adding offset (b.addStart offset) (some data) (b.addCount offset byteCount) 0,
          r, written, read, stored⟩) rfl _ (Nat.le_refl _)
      refine ⟨stored', ?_⟩
      have hlen : (data.take (b.addCount offset byteCount)).length
          = b.addCount offset byteCount := by
        have hle := hdata data rfl
        have hmin : b.addCount offset byteCount ≤ byteCount := Nat.min_le_right _ _
        rw [List.length_take]
        omega
      have harray : StreamBuffer.writeRing b.array (b.addStart offset)
            (data.take (b.addCount offset byteCount))
          = StreamBuffer.store b.array (b.addStart offset) data (b.addCount offset byteCount) := by
        rw [StreamBuffer.writeRing_eq_store (hstart hne) (by omega), hlen]
        exact store_congr fun i hi => byteAt_take hi
      simp [addActs, run, run_append, pipeStep, addStep, commitStep, StreamBuffer.add, hne, hrun,
        harray]

/-- The steps of one call of `uxStreamBufferGet`. -/
def getActs (b : StreamBuffer n) (offset : Nat) (wanted : Bool) (maxCount : Nat) (peek : Bool) :
    List Act :=
  .get offset maxCount wanted peek ::
    ((if wanted then List.replicate (b.getCount offset maxCount) .load else []) ++ [.finish])

/-- **A call of `uxStreamBufferGet` that is not interrupted is the run of its steps.** -/
theorem get_undisturbed {s : Pipe n} (hr : s.reader = .idle) {offset maxCount : Nat}
    {wanted peek : Bool} (hne : s.buf.getCount offset maxCount ≠ 0)
    (hstart : s.buf.getStart offset < n) (hcount : s.buf.getCount offset maxCount ≤ n) :
    run pipeStep (getActs s.buf offset wanted maxCount peek) s
      = ({ s with
            buf := (s.buf.get offset wanted maxCount peek).1
            read := s.read + if peek = false ∧ offset = 0 then s.buf.getCount offset maxCount
              else 0 },
          [.got (s.read + offset) (s.buf.get offset wanted maxCount peek).2.1
            (if peek = false ∧ offset = 0 then s.buf.getCount offset maxCount else 0)]) := by
  obtain ⟨b, w, r, written, read, stored⟩ := s
  simp only at hr hne hstart hcount
  subst hr
  cases wanted with
  | false => simp [getActs, run, pipeStep, getStep, finishStep, StreamBuffer.get, hne]
  | true =>
    have hload := run_load
      (s := ⟨b, w, .getting offset (b.getStart offset) (b.getCount offset maxCount) true peek [],
        written, read, stored⟩) rfl _ (Nat.le_refl _)
    have hread := StreamBuffer.readRing_eq_map (a := b.array) hstart hcount
    simp [getActs, run, run_append, pipeStep, getStep, finishStep, StreamBuffer.get, hne, hload,
      hread]

/-! ## The queue -/

theorem window_congr {S S' : Nat → UInt8} {pos len : Nat}
    (h : ∀ i < len, S (pos + i) = S' (pos + i)) : window S pos len = window S' pos len :=
  List.map_congr_left fun i hi => h i (List.mem_range.mp hi)

theorem window_append (S : Nat → UInt8) (pos len len' : Nat) :
    window S pos (len + len') = window S pos len ++ window S (pos + len) len' := by
  rw [window, List.range_add, List.map_append, List.map_map, window, window]
  congr 1
  refine List.map_congr_left fun i _ => ?_
  rw [Function.comp_apply, Nat.add_assoc]

theorem window_eq_take {S : Nat → UInt8} {pos k : Nat} {d : Bytes} (hk : k ≤ d.length)
    (h : ∀ i < k, S (pos + i) = byteAt d i) : window S pos k = d.take k := by
  refine List.ext_getElem (by rw [window_length, List.length_take]; omega) ?_
  intro i hi hi'
  rw [window_length] at hi
  simp only [window, List.getElem_map, List.getElem_range, List.getElem_take]
  rw [h i hi, byteAt, List.getD_eq_getElem?_getD, List.getElem?_eq_getElem (by omega),
    Option.getD_some]

theorem window_take (S : Nat → UInt8) (pos len k : Nat) :
    (window S pos len).take k = window S pos (min k len) := by
  rw [window, ← List.map_take, List.take_range, window]

/-- The stream up to `w`, and `d` from there on. -/
def extend (S : Nat → UInt8) (w : Nat) (d : Bytes) (p : Nat) : UInt8 :=
  if p < w then S p else byteAt d (p - w)

theorem extend_of_lt {S : Nat → UInt8} {w p : Nat} {d : Bytes} (h : p < w) :
    extend S w d p = S p := if_pos h

theorem extend_add (S : Nat → UInt8) (w : Nat) (d : Bytes) (i : Nat) :
    extend S w d (w + i) = byteAt d i := by
  rw [extend, if_neg (by omega), Nat.add_sub_cancel_left]

/-- A buffer between two calls, with the ends of the stream in it. -/
def Pipe.rest (b : StreamBuffer n) (written read : Nat) : Pipe n :=
  ⟨b, .idle, .idle, written, read, []⟩

/-- **The buffer holds these bytes.** -/
def Holds (b : StreamBuffer n) (q : Bytes) : Prop :=
  ∃ S t, Inv S (Pipe.rest b (t + q.length) t) ∧ q = window S t q.length

theorem Inv.rest {S : Nat → UInt8} {b : StreamBuffer n} {written read : Nat} {stored : List Nat}
    (h : Inv S ⟨b, .idle, .idle, written, read, stored⟩) : Inv S (Pipe.rest b written read) where
  tail := h.tail
  head := h.head
  front := h.front
  le := h.le
  ahead := fun p hp => absurd hp List.not_mem_nil
  shows := by
    refine h.shows.mono ?_
    rintro p ⟨hle, hlt | hp⟩
    · exact ⟨hle, Or.inl hlt⟩
    · exact absurd hp List.not_mem_nil
  writer := trivial
  reader := trivial

/-- Only what is in between of tail and head matters. -/
theorem Inv.of_agree {S S' : Nat → UInt8} {b : StreamBuffer n} {written read : Nat}
    (h : Inv S (Pipe.rest b written read)) (hS : ∀ p, read ≤ p → p < written → S p = S' p) :
    Inv S' (Pipe.rest b written read) where
  tail := h.tail
  head := h.head
  front := h.front
  le := h.le
  ahead := h.ahead
  shows := by
    rintro p ⟨hle, hlt | hp⟩
    · rw [h.shows p ⟨hle, Or.inl hlt⟩, hS p hle hlt]
    · exact absurd hp List.not_mem_nil
  writer := trivial
  reader := trivial

theorem Inv.run {S : Nat → UInt8} {s : Pipe n} (h : Inv S s) (hn : n < 2 ^ 31) (acts : List Act)
    (hfeeds : Along pipeStep (Feeds S) acts s) : Inv S (run pipeStep acts s).1 :=
  run_inv_along (P := fun s _ => Inv S s) pipeStep (fun _ _ _ hf hinv => hinv.step hn hf) h acts
    hfeeds

/-- After the first step of a call nothing more is added. -/
theorem along_call {S : Nat → UInt8} {s : Pipe n} {a : Act} {acts : List Act}
    (ha : Feeds S a s) (hacts : ∀ x ∈ acts, x = .store ∨ x = .commit ∨ x = .load ∨ x = .finish) :
    Along pipeStep (Feeds S) (a :: acts) s := by
  refine ⟨ha, ?_⟩
  generalize (pipeStep a s).1 = s'
  induction acts generalizing s' with
  | nil => trivial
  | cons x acts ih =>
    rw [List.forall_mem_cons] at hacts
    refine ⟨?_, ih hacts.2 _⟩
    rcases hacts.1 with rfl | rfl | rfl | rfl <;> trivial

namespace Holds

variable {b : StreamBuffer n} {q : Bytes}

theorem lt (h : Holds b q) : q.length < n := by
  obtain ⟨S, t, hinv, -⟩ := h
  have hlt : t + q.length < t + n := hinv.lt
  omega

theorem getSize_eq (h : Holds b q) : b.getSize = q.length := by
  obtain ⟨S, t, hinv, -⟩ := h
  have hsize := hinv.getSize_eq
  rw [Pipe.rest, Nat.add_sub_cancel_left] at hsize
  exact hsize

theorem getSpace_eq (h : Holds b q) : b.getSpace = n - 1 - q.length := by
  obtain ⟨S, t, hinv, -⟩ := h
  have hspace := hinv.getSpace_eq
  rw [Pipe.rest, Nat.add_sub_cancel_left] at hspace
  exact hspace

theorem addCount_eq (h : Holds b q) (byteCount : Nat) :
    b.addCount 0 byteCount = min (n - 1 - q.length) byteCount := by
  rw [StreamBuffer.addCount, h.getSpace_eq]
  split <;> omega

theorem getCount_eq (h : Holds b q) (offset maxCount : Nat) :
    b.getCount offset maxCount = min (q.length - offset) maxCount := by
  rw [StreamBuffer.getCount, h.getSize_eq]
  split <;> omega

theorem drop_window {S : Nat → UInt8} {t k : Nat} (hq : q = window S t q.length)
    (hk : k ≤ q.length) : q.drop k = window S (t + k) (q.length - k) := by
  obtain ⟨m, hm⟩ := Nat.exists_eq_add_of_le hk
  rw [hm, window_append] at hq
  rw [hm, Nat.add_sub_cancel_left]
  nth_rewrite 1 [hq]
  rw [List.drop_left' (window_length S t k)]

theorem take_window {S : Nat → UInt8} {t k : Nat} (hq : q = window S t q.length)
    (hk : k ≤ q.length) : q.take k = window S t k :=
  calc q.take k = (window S t q.length).take k := congrArg (List.take k) hq
    _ = window S t k := by rw [window_take, Nat.min_eq_left hk]

/-- **`uxStreamBufferAdd` appends as much as there is room for.** -/
theorem add (h : Holds b q) (hn : n < 2 ^ 31) {d : Bytes} {byteCount : Nat}
    (hd : byteCount ≤ d.length) :
    (b.add 0 (some d) byteCount).2 = min (n - 1 - q.length) byteCount ∧
      Holds (b.add 0 (some d) byteCount).1 (q ++ d.take (min (n - 1 - q.length) byteCount)) := by
  have hcount := h.addCount_eq byteCount
  have hlt := h.lt
  have hresult : (b.add 0 (some d) byteCount).2 = b.addCount 0 byteCount := by
    unfold StreamBuffer.add
    by_cases hne : b.addCount 0 byteCount = 0 <;> simp [hne]
  refine ⟨hresult.trans hcount, ?_⟩
  obtain ⟨S, t, hinv, hq⟩ := h
  -- the stream goes on with the data
  have hS : Inv (extend S (t + q.length) d) (Pipe.rest b (t + q.length) t) :=
    hinv.of_agree fun p _ hp => (extend_of_lt hp).symm
  have hhead : b.addStart 0 < n := by
    have hstart : b.addStart 0 = (t + q.length + 0) % n := hinv.addStart_eq (Nat.zero_le n)
    rw [hstart]
    exact Nat.mod_lt _ hinv.pos
  obtain ⟨stored, hrun⟩ : ∃ stored,
      (run pipeStep (addActs b 0 (some d) byteCount) (Pipe.rest b (t + q.length) t)).1
        = ⟨(b.add 0 (some d) byteCount).1, .idle, .idle, t + q.length + b.addCount 0 byteCount, t,
            stored⟩ :=
    add_undisturbed (s := Pipe.rest b (t + q.length) t) rfl (by rintro _ ⟨⟩; exact hd)
      (fun _ => hhead) (by
        show b.addCount 0 byteCount ≤ n
        omega)
  have hfeeds : Along pipeStep (Feeds (extend S (t + q.length) d))
      (addActs b 0 (some d) byteCount) (Pipe.rest b (t + q.length) t) := by
    refine along_call (fun i _ => (extend_add S (t + q.length) d i).symm) ?_
    simp only [reduceCtorEq, if_false, List.mem_append, List.mem_replicate, List.mem_singleton]
    rintro x (⟨-, rfl⟩ | rfl)
    · exact Or.inl rfl
    · exact Or.inr (Or.inl rfl)
  have hinv' := hS.run hn _ hfeeds
  rw [hrun] at hinv'
  have hlen : (q ++ d.take (min (n - 1 - q.length) byteCount)).length
      = q.length + b.addCount 0 byteCount := by
    rw [List.length_append, List.length_take]
    omega
  refine ⟨extend S (t + q.length) d, t, ?_, ?_⟩
  · rw [hlen, ← Nat.add_assoc]
    exact hinv'.rest
  · rw [hlen, window_append]
    congr 1
    · nth_rewrite 1 [hq]
      exact window_congr fun i hi => (extend_of_lt (by omega)).symm
    · rw [← hcount]
      exact (window_eq_take (by omega) fun i _ => extend_add S (t + q.length) d i).symm

/-- **`uxStreamBufferGet` reads what is there from the offset on.** -/
theorem get_bytes (h : Holds b q) (offset maxCount : Nat) (peek : Bool) :
    (b.get offset true maxCount peek).2
      = ((q.drop offset).take maxCount, min (q.length - offset) maxCount) := by
  have hcount := h.getCount_eq offset maxCount
  have hlt := h.lt
  by_cases hne : b.getCount offset maxCount = 0
  · have hnil : (q.drop offset).take maxCount = [] := by
      rw [← List.length_eq_zero_iff, List.length_take, List.length_drop]
      omega
    rw [hnil, ← hcount, hne]
    simp [StreamBuffer.get, hne]
  · obtain ⟨S, t, hinv, hq⟩ := h
    have hstart : b.getStart offset = (t + offset) % n := hinv.getStart_eq (by omega)
    have hread : StreamBuffer.readRing b.array (b.getStart offset) (b.getCount offset maxCount)
        = window S (t + offset) (b.getCount offset maxCount) := by
      rw [StreamBuffer.readRing_eq_map (by rw [hstart]; exact Nat.mod_lt _ hinv.pos) (by omega)]
      refine List.map_congr_left fun i hi => ?_
      have hi := List.mem_range.mp hi
      rw [hstart, wrap_mod_add hinv.pos (by omega)]
      refine hinv.shows _ ⟨by
        show t ≤ t + offset + i
        omega, Or.inl ?_⟩
      show t + offset + i < t + q.length
      omega
    have hbytes : (q.drop offset).take maxCount
        = window S (t + offset) (b.getCount offset maxCount) := by
      rw [drop_window hq (by omega), hcount, window_take, Nat.min_comm]
    rw [hbytes, ← hread, ← hcount]
    simp [StreamBuffer.get, hne]

/-- The tail moves past what was read, unless it was a peek. -/
theorem get_rest (h : Holds b q) (hn : n < 2 ^ 31) (wanted : Bool) (maxCount : Nat) :
    Holds (b.get 0 wanted maxCount false).1 (q.drop maxCount) := by
  have hcount := h.getCount_eq 0 maxCount
  have hlt := h.lt
  rw [Nat.sub_zero] at hcount
  have hsame : (b.get 0 wanted maxCount false).1 = (b.get 0 false maxCount false).1 := by
    by_cases hne : b.getCount 0 maxCount = 0 <;> simp [StreamBuffer.get, hne]
  rw [hsame]
  by_cases hne : b.getCount 0 maxCount = 0
  · have hq : q.drop maxCount = q := by
      rcases Nat.eq_zero_or_pos maxCount with rfl | hpos
      · rw [List.drop_zero]
      · have hnil : q = [] := by
          rw [← List.length_eq_zero_iff]
          omega
        rw [hnil, List.drop_nil]
    rw [hq, show (b.get 0 false maxCount false).1 = b by simp [StreamBuffer.get, hne]]
    exact h
  · obtain ⟨S, t, hinv, hq⟩ := h
    have hstart : b.getStart 0 < n := by
      have hstart : b.getStart 0 = (t + 0) % n := hinv.getStart_eq (Nat.zero_le n)
      rw [hstart]
      exact Nat.mod_lt _ hinv.pos
    have hrun : (run pipeStep (getActs b 0 false maxCount false)
        (Pipe.rest b (t + q.length) t)).1
          = Pipe.rest (b.get 0 false maxCount false).1 (t + q.length)
              (t + b.getCount 0 maxCount) := by
      rw [show getActs b 0 false maxCount false
          = getActs (Pipe.rest b (t + q.length) t).buf 0 false maxCount false from rfl,
        get_undisturbed (s := Pipe.rest b (t + q.length) t) rfl hne hstart (by
          show b.getCount 0 maxCount ≤ n
          omega)]
      rfl
    have hfeeds : Along pipeStep (Feeds S) (getActs b 0 false maxCount false)
        (Pipe.rest b (t + q.length) t) := by
      refine along_call trivial ?_
      intro x hx
      simp only [Bool.false_eq_true, if_false, List.nil_append, List.mem_singleton] at hx
      exact Or.inr (Or.inr (Or.inr hx))
    have hinv' := hinv.run hn _ hfeeds
    rw [hrun] at hinv'
    have hdrop : q.drop maxCount = q.drop (b.getCount 0 maxCount) := by
      rw [hcount]
      rcases Nat.le_total q.length maxCount with hle | hle
      · rw [Nat.min_eq_left hle, List.drop_of_length_le hle, List.drop_length]
      · rw [Nat.min_eq_right hle]
    rw [hdrop]
    refine ⟨S, t + b.getCount 0 maxCount, ?_, ?_⟩
    · rw [List.length_drop, show t + b.getCount 0 maxCount + (q.length - b.getCount 0 maxCount)
        = t + q.length by omega]
      exact hinv'
    · rw [List.length_drop]
      exact drop_window hq (by omega)

/-- A buffer holds one queue. -/
theorem unique {q' : Bytes} (h : Holds b q) (h' : Holds b q') : q = q' := by
  have hlen : q.length = q'.length := h.getSize_eq.symm.trans h'.getSize_eq
  have hbytes := congrArg Prod.fst ((h.get_bytes 0 q.length true).symm.trans
    (h'.get_bytes 0 q.length true))
  simp only [List.drop_zero] at hbytes
  rwa [List.take_length, hlen, List.take_length] at hbytes

/--
**What `uxStreamBufferGetPtr` points at is the front part of the queue**, and there is something
to point at unless the queue is empty.
-/
theorem getPtr (h : Holds b q) :
    b.array.slice b.getPtr.1 b.getPtr.2 = q.take b.getPtr.2 ∧ b.getPtr.2 ≤ q.length ∧
      (q ≠ [] → 0 < b.getPtr.2) := by
  have hsize := h.getSize_eq
  have hlt := h.lt
  obtain ⟨S, t, hinv, hq⟩ := h
  have htail : b.tail = t % n := hinv.tail
  have htn : t % n < n := Nat.mod_lt _ hinv.pos
  unfold StreamBuffer.getPtr
  rw [hsize]
  refine ⟨?_, Nat.min_le_left _ _, fun hne => ?_⟩
  · have hlen : min q.length (n - b.tail) ≤ q.length := Nat.min_le_left _ _
    have hfits : b.tail + min q.length (n - b.tail) ≤ n := by omega
    rw [StreamBuffer.slice_eq_map hfits, take_window hq hlen]
    refine List.map_congr_left fun i hi => ?_
    have hi := List.mem_range.mp hi
    have hslot : b.tail + i = (t + i) % n := by
      rw [← wrap_mod_add hinv.pos (by omega), ← htail, wrap, if_neg (by omega)]
    rw [hslot]
    refine hinv.shows _ ⟨Nat.le_add_right t i, Or.inl ?_⟩
    show t + i < t + q.length
    omega
  · have hpos := List.length_pos_iff.mpr hne
    omega

end Holds

end UniNet.Tcp
