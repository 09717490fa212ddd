import Mathlib.Data.Set.Insert
import Mathlib.Order.Interval.Finset.Nat

/-!
# Rings

A ring of `n` slots holds a window of an endless sequence. The element at position `p` is in the
slot `p % n`, and positions that are less than `n` apart never share a slot. Code that works on a
ring only knows the slots: it adds to an index and subtracts `n` once when it has run past the
end, and it compares indices by how far they are ahead of another one.

* `wrap_mod_add`, `distance_mod` — what such code computes, in terms of positions
* `Retains` — the slots show the sequence at certain positions
* `Retains.store` — one more position, and none of the others in the window is lost
-/

namespace UniNet.Infra

/-! ## Indices -/

section

variable {n p q k : Nat}

/-- An index that may have run past the end once. -/
def wrap (n i : Nat) : Nat := if n ≤ i then i - n else i

theorem wrap_lt {i : Nat} (h : i < n + n) : wrap n i < n := by
  unfold wrap
  split <;> omega

theorem wrap_eq_mod {i : Nat} (h : i < n + n) : wrap n i = i % n := by
  unfold wrap
  by_cases hle : n ≤ i
  · rw [if_pos hle, Nat.mod_eq_sub_mod hle, Nat.mod_eq_of_lt (by omega)]
  · rw [if_neg hle, Nat.mod_eq_of_lt (by omega)]

theorem wrap_mod_add (hn : 0 < n) (hk : k ≤ n) : wrap n (p % n + k) = (p + k) % n := by
  have hp : p % n < n := Nat.mod_lt p hn
  rw [wrap_eq_mod (by omega), Nat.mod_add_mod]

/-- How far the slot `hi` is ahead of the slot `lo`. -/
def distance (n lo hi : Nat) : Nat := wrap n (n + hi - lo)

theorem distance_mod (hle : p ≤ q) (hlt : q < p + n) : distance n (p % n) (q % n) = q - p := by
  have hn : 0 < n := by omega
  have hp : p % n < n := Nat.mod_lt p hn
  have hq : q % n = wrap n (p % n + (q - p)) := by
    rw [wrap_mod_add hn (by omega), Nat.add_sub_cancel' hle]
  unfold distance
  rw [hq]
  unfold wrap
  split <;> split <;> omega

/-- How many slots are free from `lo` on, when the one in front of `hi` has to stay free. -/
def gap (n lo hi : Nat) : Nat := wrap n (n + hi - lo - 1)

theorem gap_mod (hle : p ≤ q) (hlt : q < p + n) : gap n (q % n) (p % n) = n - 1 - (q - p) := by
  have hn : 0 < n := by omega
  have hp : p % n < n := Nat.mod_lt p hn
  have hq : q % n = wrap n (p % n + (q - p)) := by
    rw [wrap_mod_add hn (by omega), Nat.add_sub_cancel' hle]
  unfold gap
  rw [hq]
  unfold wrap
  split <;> split <;> omega

/-- Ahead of `lo`, an index behind the wrap stands for a later position than one in front of it. -/
theorem mod_ahead_iff (hp : k ≤ p) (hpk : p < k + n) (hq : k ≤ q) (hqk : q < k + n) :
    p ≤ q ↔ (k % n ≤ p % n ∧ (k % n ≤ q % n → p % n ≤ q % n)) ∨
      (p % n < k % n ∧ q % n < k % n ∧ p % n ≤ q % n) := by
  have hn : 0 < n := by omega
  have hk : k % n < n := Nat.mod_lt k hn
  have hpe : p % n = wrap n (k % n + (p - k)) := by
    rw [wrap_mod_add hn (by omega), Nat.add_sub_cancel' hp]
  have hqe : q % n = wrap n (k % n + (q - k)) := by
    rw [wrap_mod_add hn (by omega), Nat.add_sub_cancel' hq]
  rw [hpe, hqe]
  unfold wrap
  split <;> split <;> omega

end

/-! ## Contents -/

variable {α : Type*}

/-- The slots show the sequence `S` at the positions `K`. -/
def Retains (slots : Nat → α) (n : Nat) (S : Nat → α) (K : Set Nat) : Prop :=
  ∀ p ∈ K, slots (p % n) = S p

namespace Retains

variable {slots slots' : Nat → α} {n : Nat} {S : Nat → α} {K K' : Set Nat}

theorem mono (h : Retains slots n S K) (hK : K' ⊆ K) : Retains slots n S K' :=
  fun p hp => h p (hK hp)

/-- **Storing a position loses none of the others in the window.** -/
theorem store {lo q : Nat} (h : Retains slots n S K) (hK : ∀ p ∈ K, lo ≤ p ∧ p < lo + n)
    (hq : lo ≤ q ∧ q < lo + n)
    (hslots : ∀ i, slots' i = if i = q % n then S q else slots i) :
    Retains slots' n S (insert q K) := by
  intro p hp
  rw [hslots]
  by_cases hslot : p % n = q % n
  · rw [if_pos hslot]
    have hin : lo ≤ p ∧ p < lo + n := by
      rcases Set.mem_insert_iff.mp hp with rfl | hp
      · exact hq
      · exact hK p hp
    have heq : p = q :=
      Nat.mod_injOn_Ico lo n (Finset.mem_coe.mpr (Finset.mem_Ico.mpr hin))
        (Finset.mem_coe.mpr (Finset.mem_Ico.mpr hq)) hslot
    rw [heq]
  · rw [if_neg hslot]
    rcases Set.mem_insert_iff.mp hp with rfl | hp
    · exact absurd rfl hslot
    · exact h p hp

end Retains

end UniNet.Infra
