import UniNet.Infra.Bytes
import UniNet.Infra.Ring
import UniNet.Infra.Word

/-!
# Stream buffers

`FreeRTOS_Stream_Buffer.c` of the vendored stack. Every TCP socket has two of these buffers:
what `FreeRTOS_send` takes over waits in one of them until the peer has confirmed it, and what
the peer sends waits in the other one for `FreeRTOS_recv`. The names are those of the source
without the `StreamBuffer` inside.

A buffer is used as a ring, and one of its slots always stays free. `size_t` is a natural number
here. The indices are below `LENGTH`, so only `xStreamBufferLessThenEqual` relies on wrapping.

* `lessThenEqual_iff` — the wrapping comparison compares positions
* `writeRing_eq_store` — the two calls of `memcpy` store the bytes one after the other
-/

namespace UniNet.Tcp

open Infra

/-- `StreamBuffer_t`, without `uxMid`. `LENGTH` never changes, so it is a parameter. -/
structure StreamBuffer (length : Nat) where
  tail : Nat
  head : Nat
  front : Nat
  array : Buf length
  deriving DecidableEq

variable {n : Nat}

namespace StreamBuffer

/-- The buffer that `prvTCPCreateStream` makes. Only the markers are cleared. -/
def create (array : Buf n) : StreamBuffer n := ⟨0, 0, 0, array⟩

/-- `uxStreamBufferSpace`. -/
def space (_ : StreamBuffer n) (lower upper : Nat) : Nat := gap n lower upper

/-- `uxStreamBufferDistance`. -/
def distance (_ : StreamBuffer n) (lower upper : Nat) : Nat := Infra.distance n lower upper

/-- `uxStreamBufferGetSpace`. -/
def getSpace (b : StreamBuffer n) : Nat := b.space b.head b.tail

/-- `uxStreamBufferGetSize`. -/
def getSize (b : StreamBuffer n) : Nat := b.distance b.tail b.head

/-- `xStreamBufferLessThenEqual`. -/
def lessThenEqual (b : StreamBuffer n) (left right : Nat) : Bool :=
  u32Sub left b.tail ≤ u32Sub right b.tail

/-- `uxStreamBufferGetPtr`: the index of the first byte, and how many can be read in one go. -/
def getPtr (b : StreamBuffer n) : Nat × Nat := (b.tail, min b.getSize (n - b.tail))

/-! ## Adding -/

/-- The two calls of `memcpy` in `uxStreamBufferAdd`. -/
def writeRing (a : Buf n) (start : Nat) (data : Bytes) : Buf n :=
  let first := min (n - start) data.length
  let a := a.write start (data.take first)
  if first < data.length then a.write 0 (data.drop first) else a

/-- How many bytes `uxStreamBufferAdd` takes over. -/
def addCount (b : StreamBuffer n) (offset byteCount : Nat) : Nat :=
  min (if offset < b.getSpace then b.getSpace - offset else 0) byteCount

/-- The slot of the first byte that is added. -/
def addStart (b : StreamBuffer n) (offset : Nat) : Nat :=
  if offset ≠ 0 then wrap n (b.head + offset) else b.head

/-- The critical section of `uxStreamBufferAdd`. -/
def advanceHead (b : StreamBuffer n) (offset start count : Nat) : StreamBuffer n :=
  let nextHead := if offset = 0 then wrap n (start + count) else start
  { b with
    head := if offset = 0 then nextHead else b.head
    -- out-of-order data move the front to where they begin, not to where they end
    front := if b.lessThenEqual b.front nextHead then nextHead else b.front }

/-- `uxStreamBufferAdd`. A null `pucData` is `none`. -/
def add (b : StreamBuffer n) (offset : Nat) (data : Option Bytes) (byteCount : Nat) :
    StreamBuffer n × Nat :=
  let count := b.addCount offset byteCount
  if count ≠ 0 then
    let start := b.addStart offset
    let array :=
      match data with
      | some data => writeRing b.array start (data.take count)
      | none => b.array
    ({ b with array := array }.advanceHead offset start count, count)
  else (b, 0)

/-! ## Getting -/

/-- The two calls of `memcpy` in `uxStreamBufferGet`. -/
def readRing (a : Buf n) (start count : Nat) : Bytes :=
  let first := min (n - start) count
  a.slice start first ++ if first < count then a.slice 0 (count - first) else []

/-- How many bytes `uxStreamBufferGet` finds. -/
def getCount (b : StreamBuffer n) (offset maxCount : Nat) : Nat :=
  min (if offset < b.getSize then b.getSize - offset else 0) maxCount

/-- The slot of the first byte that is read. -/
def getStart (b : StreamBuffer n) (offset : Nat) : Nat :=
  if offset ≠ 0 then wrap n (b.tail + offset) else b.tail

/-- The tail after `uxStreamBufferGet`. -/
def advanceTail (b : StreamBuffer n) (offset start count : Nat) (peek : Bool) : StreamBuffer n :=
  if peek = false ∧ offset = 0 then { b with tail := wrap n (start + count) } else b

/--
`uxStreamBufferGet`, with the bytes that were copied. `wanted` is false for a null `pucData`.
-/
def get (b : StreamBuffer n) (offset : Nat) (wanted : Bool) (maxCount : Nat) (peek : Bool) :
    StreamBuffer n × Bytes × Nat :=
  let count := b.getCount offset maxCount
  if count ≠ 0 then
    let start := b.getStart offset
    (b.advanceTail offset start count peek, if wanted then readRing b.array start count else [],
      count)
  else (b, [], 0)

/-! ## Positions -/

/-- **The wrapping comparison compares positions**, if they are in the window behind the tail. -/
theorem lessThenEqual_iff {b : StreamBuffer n} {t p q : Nat} (hn : n < 2 ^ 31)
    (ht : b.tail = t % n) (hp : t ≤ p) (hpt : p < t + n) (hq : t ≤ q) (hqt : q < t + n) :
    b.lessThenEqual (p % n) (q % n) = true ↔ p ≤ q := by
  have hpn : p % n < n := Nat.mod_lt p (by omega)
  have hqn : q % n < n := Nat.mod_lt q (by omega)
  have htn : t % n < n := Nat.mod_lt t (by omega)
  rw [mod_ahead_iff hp hpt hq hqt, lessThenEqual, decide_eq_true_iff, ht]
  unfold u32Sub
  omega

/-! ## Slots -/

theorem byteAt_write {b : Buf n} {off i : Nat} {data : Bytes} (h : off + data.length ≤ n) :
    byteAt (b.write off data).bytes i
      = if off ≤ i ∧ i < off + data.length then byteAt data (i - off) else byteAt b.bytes i := by
  have hb := b.length_eq
  have hoff : (b.bytes.take off).length = off := by rw [List.length_take]; omega
  have hall : (b.write off data).bytes
      = b.bytes.take off ++ (data ++ b.bytes.drop (off + data.length)) := by
    rw [← List.append_assoc]
    refine List.take_of_length_le ?_
    simp only [List.length_append, List.length_take, List.length_drop]
    omega
  rw [hall]
  by_cases hlt : i < off
  · rw [byteAt_append_left (by omega), byteAt_take hlt, if_neg (by omega)]
  · obtain ⟨j, rfl⟩ := Nat.exists_eq_add_of_le (Nat.not_lt.mp hlt)
    have hright := byteAt_append_right (b.bytes.take off)
      (data ++ b.bytes.drop (off + data.length)) j
    rw [hoff] at hright
    rw [hright]
    by_cases hj : j < data.length
    · rw [byteAt_append_left hj, if_pos (by omega), Nat.add_sub_cancel_left]
    · obtain ⟨k, rfl⟩ := Nat.exists_eq_add_of_le (Nat.not_lt.mp hj)
      rw [byteAt_append_right, if_neg (by omega)]
      unfold byteAt
      rw [List.getD_eq_getElem?_getD, List.getD_eq_getElem?_getD, List.getElem?_drop,
        Nat.add_assoc]

/-- Two buffers with the same bytes are the same. -/
theorem buf_ext {a b : Buf n} (h : ∀ i < n, byteAt a.bytes i = byteAt b.bytes i) : a = b := by
  ext1
  refine List.ext_getElem (a.length_eq.trans b.length_eq.symm) ?_
  intro i hi hi'
  have hbyte := h i (a.length_eq ▸ hi)
  unfold byteAt at hbyte
  rwa [List.getD_eq_getElem?_getD, List.getD_eq_getElem?_getD, List.getElem?_eq_getElem hi,
    List.getElem?_eq_getElem hi', Option.getD_some, Option.getD_some] at hbyte

/-- The first `k` bytes, stored one after the other. -/
def store (a : Buf n) (start : Nat) (data : Bytes) : Nat → Buf n
  | 0 => a
  | k + 1 => (store a start data k).set (wrap n (start + k)) (byteAt data k)

theorem byteAt_store {a : Buf n} {start : Nat} {data : Bytes} (hs : start < n) :
    ∀ {k i : Nat}, k ≤ n → i < n → byteAt (store a start data k).bytes i
      = if Infra.distance n start i < k then byteAt data (Infra.distance n start i)
        else byteAt a.bytes i
  | 0, _, _, _ => by rw [if_neg (Nat.not_lt_zero _), store]
  | k + 1, i, hk, hi => by
    have hslot : wrap n (start + k) < (store a start data k).bytes.length := by
      rw [Buf.length_eq]
      exact wrap_lt (by omega)
    -- the slot that is stored is the one that is `k` ahead
    have hiff : i = wrap n (start + k) ↔ Infra.distance n start i = k := by
      unfold Infra.distance wrap
      split <;> split <;> omega
    rw [store, Buf.set, byteAt_set _ hslot, byteAt_store hs (by omega) hi]
    by_cases heq : i = wrap n (start + k)
    · rw [if_pos heq, hiff.mp heq, if_pos (Nat.lt_succ_self k)]
    · have hne : Infra.distance n start i ≠ k := fun h => heq (hiff.mpr h)
      rw [if_neg heq]
      by_cases hlt : Infra.distance n start i < k
      · rw [if_pos hlt, if_pos (by omega)]
      · rw [if_neg hlt, if_neg (by omega)]

/-- **The two calls of `memcpy` store the bytes one after the other.** -/
theorem writeRing_eq_store {a : Buf n} {start : Nat} {data : Bytes} (hs : start < n)
    (hd : data.length ≤ n) : writeRing a start data = store a start data data.length := by
  refine buf_ext fun i hi => ?_
  rw [byteAt_store hs hd hi]
  unfold writeRing
  have hdist : Infra.distance n start i = if start ≤ i then i - start else n + i - start := by
    unfold Infra.distance wrap
    split <;> split <;> omega
  by_cases hwrap : n - start < data.length
  · have hfirst : min (n - start) data.length = n - start := by omega
    simp only [hfirst, if_pos hwrap]
    rw [byteAt_write (by rw [List.length_drop]; omega),
      byteAt_write (by rw [List.length_take]; omega), List.length_drop, List.length_take, hfirst]
    by_cases hle : start ≤ i
    · rw [if_pos hle] at hdist
      rw [if_neg (by omega), if_pos (by omega), byteAt_take (by omega), hdist, if_pos (by omega)]
    · rw [if_neg hle] at hdist
      rw [hdist]
      by_cases hlt : n + i - start < data.length
      · rw [if_pos (by omega), if_pos hlt]
        unfold byteAt
        rw [List.getD_eq_getElem?_getD, List.getD_eq_getElem?_getD, List.getElem?_drop,
          show n - start + (i - 0) = n + i - start by omega]
      · rw [if_neg (by omega), if_neg (by omega), if_neg hlt]
  · have hfirst : min (n - start) data.length = data.length := by omega
    simp only [hfirst, lt_self_iff_false, if_false, List.take_length]
    rw [byteAt_write (by omega), hdist]
    by_cases hle : start ≤ i
    · rw [if_pos hle]
      by_cases hlt : i - start < data.length
      · rw [if_pos (by omega), if_pos hlt]
      · rw [if_neg (by omega), if_neg hlt]
    · rw [if_neg hle, if_neg (by omega), if_neg (by omega)]

theorem slice_eq_map {a : Buf n} {off len : Nat} (h : off + len ≤ n) :
    a.slice off len = (List.range len).map fun k => byteAt a.bytes (off + k) := by
  have ha := a.length_eq
  refine List.ext_getElem ?_ ?_
  · rw [Buf.slice, List.length_take, List.length_drop, List.length_map, List.length_range]
    omega
  · intro i hi hi'
    rw [List.length_map, List.length_range] at hi'
    rw [List.getElem_map, List.getElem_range, byteAt, List.getD_eq_getElem?_getD,
      List.getElem?_eq_getElem (by omega), Option.getD_some]
    simp only [Buf.slice, List.getElem_take, List.getElem_drop]

/-- **The two calls of `memcpy` read the slots one after the other.** -/
theorem readRing_eq_map {a : Buf n} {start count : Nat} (hs : start < n) (hc : count ≤ n) :
    readRing a start count
      = (List.range count).map fun k => byteAt a.bytes (wrap n (start + k)) := by
  by_cases hwrap : n - start < count
  · have hfirst : min (n - start) count = n - start := by omega
    obtain ⟨k, hk⟩ := Nat.exists_eq_add_of_le (Nat.le_of_lt hwrap)
    simp only [readRing, hfirst, if_pos hwrap]
    rw [slice_eq_map (by omega), slice_eq_map (by omega), hk,
      Nat.add_sub_cancel_left, List.range_add, List.map_append, List.map_map]
    congr 1
    · refine List.map_congr_left fun i hi => ?_
      have := List.mem_range.mp hi
      rw [wrap, if_neg (by omega)]
    · refine List.map_congr_left fun i hi => ?_
      have := List.mem_range.mp hi
      rw [Function.comp_apply, wrap, if_pos (by omega),
        show start + (n - start + i) - n = 0 + i by omega]
  · have hfirst : min (n - start) count = count := by omega
    simp only [readRing, hfirst, lt_irrefl, if_false, List.append_nil]
    rw [slice_eq_map (by omega)]
    refine List.map_congr_left fun i hi => ?_
    have := List.mem_range.mp hi
    rw [wrap, if_neg (by omega)]

end StreamBuffer

end UniNet.Tcp
