import Mathlib.Data.List.Basic
import Mathlib.Data.List.Infix
import Mathlib.Data.List.TakeWhile

/-!
# Bytes, C strings and fixed size buffers

The vocabulary for code that works on `char` arrays. A buffer has a fixed length that every
write keeps, and a C string has no NUL byte inside. Both are structures with the invariant as
a field, so neither needs a well-formedness hypothesis later.

A read past the end of a list gives 0. Nothing below relies on that value: the lemmas about
loops over a buffer always come with the bound below which they read.
-/

namespace UniNet.Infra

abbrev Bytes := List UInt8

/-- The bytes of an ASCII text. -/
def ascii (s : String) : Bytes := s.toList.map fun c => UInt8.ofNat c.toNat

/-- The byte at index `i`. -/
def byteAt (l : Bytes) (i : Nat) : UInt8 := l.getD i 0

theorem byteAt_take {l : Bytes} {n i : Nat} (h : i < n) : byteAt (l.take n) i = byteAt l i := by
  simp [byteAt, List.getD_eq_getElem?_getD, List.getElem?_take_of_lt h]

theorem byteAt_append_left {l m : Bytes} {i : Nat} (h : i < l.length) :
    byteAt (l ++ m) i = byteAt l i := by
  simp [byteAt, List.getD_eq_getElem?_getD, List.getElem?_append_left h]

theorem byteAt_append_right (l m : Bytes) (i : Nat) :
    byteAt (l ++ m) (l.length + i) = byteAt m i := by
  simp [byteAt, List.getD_eq_getElem?_getD, List.getElem?_append_right]

/-- A byte that was stored is read back, and every other one is left alone. -/
theorem byteAt_set {l : Bytes} {i j : Nat} (v : UInt8) (hi : i < l.length) :
    byteAt (l.set i v) j = if j = i then v else byteAt l j := by
  unfold byteAt
  by_cases hj : j = i
  · rw [if_pos hj, hj, List.getD_eq_getElem?_getD, List.getElem?_set_self hi, Option.getD_some]
  · rw [if_neg hj, List.getD_eq_getElem?_getD, List.getElem?_set_ne (Ne.symm hj),
      List.getD_eq_getElem?_getD]

/-! ## C strings -/

/-- The text a `const char *` points to: everything before the NUL. -/
@[ext] structure CString where
  bytes : Bytes
  noNul : (0 : UInt8) ∉ bytes
  deriving DecidableEq

/-- Reading a C string stops at the first NUL. -/
def CString.ofBytes (l : Bytes) : CString where
  bytes := l.takeWhile fun b => b != 0
  noNul := by
    intro h
    simpa using List.mem_takeWhile_imp h

@[simp] theorem CString.ofBytes_bytes (l : Bytes) :
    (CString.ofBytes l).bytes = l.takeWhile fun b => b != 0 := rfl

theorem CString.ofBytes_noNul {l : Bytes} (h : (0 : UInt8) ∉ l) :
    (CString.ofBytes l).bytes = l := by
  rw [CString.ofBytes_bytes, List.takeWhile_eq_self_iff]
  intro b hb
  rw [bne_iff_ne]
  rintro rfl
  exact h hb

/-- A NUL stored at `i` ends every string that starts in front of it. -/
theorem CString.ofBytes_set {l : Bytes} {k i : Nat} (hk : k ≤ i) (hi : i < l.length) :
    CString.ofBytes ((l.set i 0).drop k) = CString.ofBytes ((l.drop k).take (i - k)) := by
  have hset : (l.set i 0).drop k
      = (l.drop k).take (i - k) ++ 0 :: (l.drop k).drop (i - k + 1) := by
    rw [List.drop_set, if_neg (by omega), List.set_eq_take_append_cons_drop,
      if_pos (by rw [List.length_drop]; omega)]
  ext1
  rw [CString.ofBytes_bytes, CString.ofBytes_bytes, hset, List.takeWhile_append]
  split
  · next hall =>
    have hle := List.takeWhile_prefix (fun b : UInt8 => b != 0) (l := (l.drop k).take (i - k))
    rw [List.takeWhile_cons_of_neg (by simp), List.append_nil]
    exact (hle.eq_of_length hall).symm
  · rfl

/-! ## Fixed size buffers -/

/-- A `char buf[n]`. -/
@[ext] structure Buf (n : Nat) where
  bytes : Bytes
  length_eq : bytes.length = n
  deriving DecidableEq

namespace Buf

variable {n : Nat}

/-- The buffer of a zeroed allocation. -/
def zero (n : Nat) : Buf n := ⟨List.replicate n 0, List.length_replicate⟩

/-- `memcpy(&buf[off], data, len)`. What would fall behind the end is not stored. -/
def write (b : Buf n) (off : Nat) (data : Bytes) : Buf n where
  bytes := (b.bytes.take off ++ data ++ b.bytes.drop (off + data.length)).take n
  length_eq := by
    have h := b.length_eq
    simp only [List.length_take, List.length_append, List.length_drop, h]
    omega

/-- `buf[i] = v`. -/
def set (b : Buf n) (i : Nat) (v : UInt8) : Buf n where
  bytes := b.bytes.set i v
  length_eq := by rw [List.length_set]; exact b.length_eq

/-- The `len` bytes from `&buf[off]` on. -/
def slice (b : Buf n) (off len : Nat) : Bytes := (b.bytes.drop off).take len

theorem length_slice (b : Buf n) (len : Nat) : (b.slice 0 len).length = min len n := by
  rw [slice, List.drop_zero, List.length_take, b.length_eq]

/-- **What was in front of a write stays, and the written bytes follow it.** -/
theorem take_write (b : Buf n) {off : Nat} {data : Bytes} (h : off + data.length ≤ n) :
    (b.write off data).bytes.take (off + data.length) = b.bytes.take off ++ data := by
  have hlen : (b.bytes.take off ++ data).length = off + data.length := by
    have := b.length_eq
    simp only [List.length_append, List.length_take]
    omega
  unfold write
  rw [List.take_take, Nat.min_eq_left h, List.take_append_of_le_length (by omega)]
  exact List.take_of_length_le (by omega)

/-- What is behind a write stays. -/
theorem drop_write (b : Buf n) {off : Nat} {data : Bytes} (h : off + data.length ≤ n) :
    (b.write off data).bytes.drop (off + data.length) = b.bytes.drop (off + data.length) := by
  have hb := b.length_eq
  have hlen : (b.bytes.take off ++ data).length = off + data.length := by
    simp only [List.length_append, List.length_take]
    omega
  have hall : (b.write off data).bytes
      = b.bytes.take off ++ data ++ b.bytes.drop (off + data.length) := by
    refine List.take_of_length_le ?_
    rw [List.length_append, List.length_drop, hlen]
    omega
  rw [hall, List.drop_left' hlen]

/-- What was written to the front is read back. -/
theorem slice_write (b : Buf n) {data : Bytes} (h : data.length ≤ n) :
    (b.write 0 data).slice 0 data.length = data := by
  have h := b.take_write (show 0 + data.length ≤ n by omega)
  rw [Nat.zero_add, List.take_zero, List.nil_append] at h
  exact h

/-- A slice that ends inside a known front part is a slice of that part. -/
theorem slice_eq (b : Buf n) {l : Bytes} {off len : Nat} (hl : b.bytes.take (off + len) = l) :
    b.slice off len = l.drop off := by
  rw [← hl, List.drop_take, slice]
  congr 1
  omega

end Buf

end UniNet.Infra
