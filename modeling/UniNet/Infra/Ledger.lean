import Mathlib.Data.List.Perm.Basic

/-!
# Resources in a log

Some events of a log acquire a resource, some release one, and the state of the system holds a
number of them. `lost` counts how often a resource was acquired and is neither released nor
held. A step that keeps its books leaves `lost` alone (`lost_other`, `lost_acquire`,
`lost_release`), so a system that does so all the time loses nothing and gives nothing back
twice.

A resource may be named after the time it was acquired at (`Timed`). Such a name is never used
again, and what is held was not released before (`released_eq_zero`).
-/

namespace UniNet.Infra

variable {ε ι : Type*} [DecidableEq ι] (acq rel : ε → Option ι)

/-- How often `n` was acquired. -/
def acquired (log : List ε) (n : ι) : Nat := (log.filterMap acq).count n

/-- How often `n` was acquired and is neither released nor held. -/
def lost (log : List ε) (held : List ι) (n : ι) : Int :=
  acquired acq log n - acquired rel log n - held.count n

variable {acq rel}

theorem acquired_append (l m : List ε) (n : ι) :
    acquired acq (l ++ m) n = acquired acq l n + acquired acq m n := by
  simp [acquired]

theorem acquired_none {log : List ε} (h : ∀ e ∈ log, acq e = none) (n : ι) :
    acquired acq log n = 0 := by
  simp [acquired, List.filterMap_eq_nil_iff.mpr h]

theorem acquired_some {e : ε} {m : ι} (h : acq e = some m) (n : ι) :
    acquired acq [e] n = [m].count n := by
  simp [acquired, h]

theorem acquired_pos_iff {log : List ε} {n : ι} :
    0 < acquired acq log n ↔ ∃ e ∈ log, acq e = some n := by
  simp [acquired, List.count_pos_iff]

/-- Other events do not matter. -/
theorem lost_other {log es : List ε} (ha : ∀ e ∈ es, acq e = none) (hr : ∀ e ∈ es, rel e = none)
    (held : List ι) (n : ι) : lost acq rel (log ++ es) held n = lost acq rel log held n := by
  simp [lost, acquired_append, acquired_none ha, acquired_none hr]

/-- What is acquired is held. -/
theorem lost_acquire {log : List ε} {e : ε} {m : ι} (ha : acq e = some m) (hr : rel e = none)
    {held held' : List ι} (hperm : held'.Perm (m :: held)) (n : ι) :
    lost acq rel (log ++ [e]) held' n = lost acq rel log held n := by
  have hnone : acquired rel [e] n = 0 := acquired_none (by simpa using hr) n
  simp only [lost, acquired_append, hnone, acquired_some ha, hperm.count_eq, List.count_cons,
    List.count_nil]
  omega

/-- What was held is released. -/
theorem lost_release {log : List ε} {e : ε} {m : ι} (ha : acq e = none) (hr : rel e = some m)
    {held held' : List ι} (hperm : held.Perm (m :: held')) (n : ι) :
    lost acq rel (log ++ [e]) held' n = lost acq rel log held n := by
  have hnone : acquired acq [e] n = 0 := acquired_none (by simpa using ha) n
  simp only [lost, acquired_append, hnone, acquired_some hr, hperm.count_eq, List.count_cons,
    List.count_nil]
  omega

/-- What is held no more, without being released, is lost. -/
theorem lost_drop {log : List ε} {held held' dropped : List ι}
    (hperm : held.Perm (dropped ++ held')) (n : ι) :
    lost acq rel log held' n = lost acq rel log held n + dropped.count n := by
  rw [lost, lost, hperm.count_eq, List.count_append]
  omega

/-! ## Names that are times -/

/-- Every resource has the time it was acquired at as its name. -/
def Timed (acq : ε → Option Nat) (log : List ε) : Prop :=
  ∀ n, acquired acq log n ≤ if n < log.length then 1 else 0

theorem timed_nil (acq : ε → Option Nat) : Timed acq [] := fun _ => by simp [acquired]

theorem Timed.other {acq : ε → Option Nat} {log es : List ε} (h : Timed acq log)
    (hes : ∀ e ∈ es, acq e = none) : Timed acq (log ++ es) := by
  intro n
  have hn := h n
  rw [acquired_append, acquired_none hes, List.length_append]
  split at hn <;> split <;> omega

theorem Timed.acquire {acq : ε → Option Nat} {log : List ε} (h : Timed acq log) {e : ε}
    (he : acq e = some log.length) : Timed acq (log ++ [e]) := by
  intro n
  have hn := h n
  simp only [acquired_append, acquired_some he, List.length_append, List.length_singleton,
    List.count_singleton, beq_iff_eq]
  split at hn <;> split <;> split <;> omega

/-- A name is given by one event. -/
theorem Timed.unique {acq : ε → Option Nat} {log : List ε} (h : Timed acq log) {e e' : ε} {n : Nat}
    (he : e ∈ log) (he' : e' ∈ log) (ha : acq e = some n) (ha' : acq e' = some n) : e = e' := by
  by_contra hne
  obtain ⟨l, m, rfl⟩ := List.append_of_mem he
  have hother : e' ∈ l ++ m := by
    rcases List.mem_append.mp he' with hl | hm
    · exact List.mem_append_left _ hl
    · exact List.mem_append_right _ ((List.mem_cons.mp hm).resolve_left (Ne.symm hne))
  have hpos : 0 < acquired acq (l ++ m) n := acquired_pos_iff.mpr ⟨e', hother, ha'⟩
  have hone : acquired acq [e] n = 1 := by rw [acquired_some ha, List.count_singleton_self]
  have honce := h n
  rw [List.append_cons, acquired_append, acquired_append] at honce
  rw [acquired_append] at hpos
  split at honce <;> omega

/-- **What is held was acquired, and not released since.** -/
theorem released_eq_zero {acq rel : ε → Option Nat} {log : List ε} {held : List Nat} {n : Nat}
    (htimed : Timed acq log) (hlost : 0 ≤ lost acq rel log held n) (hn : n ∈ held) :
    0 < acquired acq log n ∧ acquired rel log n = 0 := by
  have honce := htimed n
  have hcount := List.count_pos_iff.mpr hn
  unfold lost at hlost
  split at honce <;> omega

/-- **Once nothing is held, everything was released exactly once.** -/
theorem released_eq_one {acq rel : ε → Option Nat} {log : List ε} {n : Nat}
    (htimed : Timed acq log) (hlost : lost acq rel log [] n = 0) (hn : 0 < acquired acq log n) :
    acquired rel log n = 1 := by
  have honce := htimed n
  simp only [lost, List.count_nil] at hlost
  split at honce <;> omega

end UniNet.Infra
