import Mathlib.Algebra.Ring.Int.Defs
import Mathlib.Algebra.Ring.Nat

/-!
# 32 bit words

`uint32_t` and `size_t` values are natural numbers below `2 ^ 32`, and C's conversions and
wrapping operations are written out. A subtraction that could underflow is never Lean's
truncated one: `u32Sub` wraps, and it agrees with `-` exactly when nothing underflows.
-/

namespace UniNet.Infra

/-- `(uint32_t)n` for an unsigned value. -/
def u32 (n : Nat) : Nat := n % 2 ^ 32

/-- `(uint64_t)n` for an unsigned value. -/
def u64 (n : Nat) : Nat := n % 2 ^ 64

/-- `a - b` in `uint32_t`. -/
def u32Sub (a b : Nat) : Nat := (a + 2 ^ 32 - b) % 2 ^ 32

/-- `(uint32_t)v` or `(size_t)v` for a signed value. -/
def u32OfInt (v : Int) : Nat := (v % 2 ^ 32).toNat

/-- `(int32_t)n` for an unsigned value. -/
def i32 (n : Nat) : Int := (n : Int).bmod (2 ^ 32)

theorem u32_of_lt {n : Nat} (h : n < 2 ^ 32) : u32 n = n := Nat.mod_eq_of_lt h

theorem u32Sub_of_le {a b : Nat} (h : b ≤ a) (ha : a < 2 ^ 32) : u32Sub a b = a - b := by
  unfold u32Sub
  omega

theorem u32OfInt_lt (v : Int) : u32OfInt v < 2 ^ 32 := by
  unfold u32OfInt
  omega

theorem u32OfInt_natCast {n : Nat} (h : n < 2 ^ 32) : u32OfInt (n : Int) = n := by
  unfold u32OfInt
  omega

theorem i32_of_lt {n : Nat} (h : n < 2 ^ 31) : i32 n = n := by
  unfold i32
  rw [Int.bmod_def]
  omega

theorem i32_le (n : Nat) : i32 n ≤ n := by
  unfold i32
  rw [Int.bmod_def]
  split <;> omega

theorem i32_lt (n : Nat) : i32 n < 2 ^ 31 := by
  unfold i32
  rw [Int.bmod_def]
  omega

theorem u32OfInt_of_nonneg {v : Int} (h : 0 ≤ v) (hv : v < 2 ^ 32) : u32OfInt v = v.toNat := by
  unfold u32OfInt
  omega

end UniNet.Infra
