import Mathlib.Data.List.Find

/-!
# Bounded search

`for (i = lo; i < hi; ++i) if (p(i)) break;` is the whole story of most parser loops.
`findFrom p lo hi` is the index such a loop stops at, `none` when it runs to the end.

What a parser relies on is always the same: the index found is the first one, and the loop
looks at nothing at `hi` or behind it (`findFrom_congr`).

A loop over a table stops at an entry instead. `FirstIn` says which one that is without the loop.
-/

namespace UniNet.Infra

/-- The first index in `[lo, hi)` at which `p` holds. -/
def findFrom (p : Nat → Bool) (lo hi : Nat) : Option Nat :=
  (List.range' lo (hi - lo)).find? p

variable {p q : Nat → Bool} {lo hi i : Nat}

theorem findFrom_eq_some : findFrom p lo hi = some i ↔
    (lo ≤ i ∧ i < hi) ∧ p i = true ∧ ∀ j, lo ≤ j → j < i → p j = false := by
  unfold findFrom
  rw [List.find?_range'_eq_some]
  simp only [List.mem_range'_1, Bool.not_eq_eq_eq_not, Bool.not_true]
  constructor
  · rintro ⟨h1, h2, h3⟩
    exact ⟨by omega, h1, h3⟩
  · rintro ⟨h1, h2, h3⟩
    exact ⟨h2, by omega, h3⟩

theorem findFrom_eq_none : findFrom p lo hi = none ↔ ∀ j, lo ≤ j → j < hi → p j = false := by
  unfold findFrom
  rw [List.find?_range'_eq_none]
  simp only [Bool.not_eq_eq_eq_not, Bool.not_true]
  constructor
  · intro h j h1 h2
    exact h j h1 (by omega)
  · intro h j h1 h2
    exact h j h1 (by omega)

/-- The search takes one step at a time. -/
theorem findFrom_step (h : lo < hi) :
    findFrom p lo hi = if p lo then some lo else findFrom p (lo + 1) hi := by
  unfold findFrom
  obtain ⟨k, hk⟩ : ∃ k, hi - lo = k + 1 := ⟨hi - lo - 1, by omega⟩
  rw [hk, List.range'_succ, List.find?_cons, show hi - (lo + 1) = k by omega]
  split <;> simp_all

/-- A search that takes the end of the interval when there is no hit stays in front of it. -/
theorem findFrom_getD_le : (findFrom p lo hi).getD hi ≤ hi := by
  cases hf : findFrom p lo hi with
  | none => exact Nat.le_refl _
  | some i => exact Nat.le_of_lt (findFrom_eq_some.mp hf).1.2

/-- **The search depends only on `p` inside the interval.** -/
theorem findFrom_congr (h : ∀ j, lo ≤ j → j < hi → p j = q j) :
    findFrom p lo hi = findFrom q lo hi := by
  refine List.find?_congr fun j hj => ?_
  rw [List.mem_range'_1] at hj
  exact h j (by omega) (by omega)

/-- There is a hit as soon as `p` holds somewhere in the interval, and not behind that place. -/
theorem findFrom_of_mem {k : Nat} (h1 : lo ≤ k) (h2 : k < hi) (hp : p k = true) :
    ∃ i, findFrom p lo hi = some i ∧ i ≤ k := by
  cases hf : findFrom p lo hi with
  | none =>
    rw [findFrom_eq_none] at hf
    rw [hf k h1 h2] at hp
    cases hp
  | some i =>
    refine ⟨i, rfl, ?_⟩
    rw [findFrom_eq_some] at hf
    by_contra hlt
    rw [hf.2.2 k h1 (by omega)] at hp
    cases hp

/-! ## Tables -/

section

variable {α : Type*} {p : α → Prop} {table : List α} {x y : α}

/-- `x` is the first entry of the table with `p`. -/
def FirstIn (p : α → Prop) (table : List α) (x : α) : Prop :=
  ∃ front back, table = front ++ x :: back ∧ p x ∧ ∀ y ∈ front, ¬ p y

theorem find?_eq_some_iff_firstIn [DecidablePred p] :
    table.find? (fun a => decide (p a)) = some x ↔ FirstIn p table x := by
  rw [List.find?_eq_some_iff_append, decide_eq_true_iff]
  simp only [Bool.not_eq_true', decide_eq_false_iff_not]
  constructor
  · rintro ⟨hx, front, back, htable, hfront⟩
    exact ⟨front, back, htable, hx, hfront⟩
  · rintro ⟨front, back, htable, hx, hfront⟩
    exact ⟨hx, front, back, htable, hfront⟩

theorem FirstIn.mem (h : FirstIn p table x) : x ∈ table ∧ p x := by
  obtain ⟨front, back, rfl, hx, -⟩ := h
  exact ⟨List.mem_append_right front (List.mem_cons_self ..), hx⟩

/-- A table has one first entry. -/
theorem FirstIn.unique (hx : FirstIn p table x) (hy : FirstIn p table y) : x = y := by
  classical
  rw [← find?_eq_some_iff_firstIn] at hx hy
  exact Option.some.inj (hx.symm.trans hy)

end

end UniNet.Infra
