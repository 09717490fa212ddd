import UniNet.Infra.Word

/-!
# Serial numbers

A position in a long sequence is told with its last 32 bits, counted from a first number that
may be anything. Such numbers wrap around, but as long as two positions are less than half of the
range apart, the difference of their numbers says which one comes first and by how much.

* `serial_inj` — nearby positions with one number are one position
* `i32_u32Sub_serial` — the signed difference of the numbers is the distance of the positions
* `u32Sub_serial_lt_iff` — the highest bit of the difference says which one comes first
-/

namespace UniNet.Infra

/-- The number of the position `p`. -/
def serial (first p : Nat) : Nat := u32 (first + p)

variable {first p q : Nat}

theorem u32_serial_add (first p k : Nat) : u32 (serial first p + k) = serial first (p + k) := by
  unfold serial u32
  omega

theorem u32Sub_serial (hle : q ≤ p) (hlt : p < q + 2 ^ 32) :
    u32Sub (serial first p) (serial first q) = p - q := by
  unfold u32Sub serial u32
  omega

theorem serial_inj (hpq : p < q + 2 ^ 32) (hqp : q < p + 2 ^ 32) :
    serial first p = serial first q ↔ p = q := by
  unfold serial u32
  omega

theorem u32Sub_serial_lt_iff (hpq : p < q + 2 ^ 31) (hqp : q < p + 2 ^ 31) :
    u32Sub (serial first q) (serial first p) < 2 ^ 31 ↔ p ≤ q := by
  unfold u32Sub serial u32
  omega

theorem i32_u32Sub_serial (hpq : p < q + 2 ^ 31) (hqp : q < p + 2 ^ 31) :
    i32 (u32Sub (serial first p) (serial first q)) = (p : Int) - q := by
  unfold i32
  rw [Int.bmod_def]
  unfold u32Sub serial u32
  omega

end UniNet.Infra
