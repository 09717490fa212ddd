import Mathlib.Data.List.Basic
import Mathlib.Data.List.Infix
import Mathlib.Order.WellFounded

/-!
# Runs of a machine with a log

A machine takes an input and a state to a new state and a list of outputs. A run feeds it a
list of inputs and collects all outputs in a log. Nothing is said about where the inputs come
from, so a statement about every run is a statement about every environment.

* `run_inv` — what holds at the start and is kept by every step holds after every run
* `run_inv_along` — the same for a run whose steps all meet a condition
* `run_iff_along` — what is lost at certain steps is kept by a run that has none of them
* `after` — the run along an infinite schedule, of which every finite run is a beginning
* `eventually_of_fair` — a goal is reached when a step that brings what the machine needs gets
  closer to it, and such steps never stop coming
-/

namespace UniNet.Infra

variable {σ ι ε : Type*} (step : ι → σ → σ × List ε)

/-- The state after the inputs, and the log. -/
def run : List ι → σ → σ × List ε
  | [], s => (s, [])
  | i :: is, s => ((run is (step i s).1).1, (step i s).2 ++ (run is (step i s).1).2)

@[simp] theorem run_nil (s : σ) : run step [] s = (s, []) := rfl

theorem run_append : ∀ (is js : List ι) (s : σ),
    run step (is ++ js) s
      = ((run step js (run step is s).1).1, (run step is s).2 ++ (run step js (run step is s).1).2)
  | [], _, _ => rfl
  | i :: is, js, s => by
    rw [List.cons_append, run, run_append is js, run, List.append_assoc]

/-- One more input at the end. -/
theorem run_concat (is : List ι) (i : ι) (s : σ) :
    run step (is ++ [i]) s
      = ((step i (run step is s).1).1, (run step is s).2 ++ (step i (run step is s).1).2) := by
  rw [run_append, run, run_nil, List.append_nil]

/-- Every step of the run meets `ok`, which may look at the state that the step starts from. -/
def Along (ok : ι → σ → Prop) : List ι → σ → Prop
  | [], _ => True
  | i :: is, s => ok i s ∧ Along ok is (step i s).1

instance Along.decidable (ok : ι → σ → Prop) [∀ i s, Decidable (ok i s)] :
    ∀ (is : List ι) (s : σ), Decidable (Along step ok is s)
  | [], _ => isTrue trivial
  | i :: is, s =>
    have := Along.decidable ok is (step i s).1
    inferInstanceAs (Decidable (ok i s ∧ Along step ok is (step i s).1))

theorem along_of_forall {ok : ι → Prop} : ∀ (is : List ι) (s : σ), (∀ i ∈ is, ok i) →
    Along step (fun i _ => ok i) is s
  | [], _, _ => trivial
  | i :: is, s, h => by
    rw [List.forall_mem_cons] at h
    exact ⟨h.1, along_of_forall is _ h.2⟩

/--
**The rule for invariants.** `P` speaks about the state and the log so far. The run may start
in the middle, behind a log, and its steps may be known to meet `ok`.
-/
theorem run_inv_along_from {P : σ → List ε → Prop} {ok : ι → σ → Prop} {s : σ} {log : List ε}
    (hstep : ∀ i s log, ok i s → P s log → P (step i s).1 (log ++ (step i s).2)) (h : P s log) :
    ∀ is : List ι, Along step ok is s → P (run step is s).1 (log ++ (run step is s).2) := by
  intro is
  induction is generalizing s log with
  | nil => intro _; rw [run_nil, List.append_nil]; exact h
  | cons i is ih =>
    rintro ⟨hi, his⟩
    have hrest := ih (hstep i s log hi h) his
    rw [List.append_assoc] at hrest
    exact hrest

/-- The rule when something is known about the inputs only. -/
theorem run_inv_from {P : σ → List ε → Prop} {ok : ι → Prop} {s : σ} {log : List ε}
    (hstep : ∀ i s log, ok i → P s log → P (step i s).1 (log ++ (step i s).2)) (h : P s log)
    (is : List ι) (his : ∀ i ∈ is, ok i) : P (run step is s).1 (log ++ (run step is s).2) :=
  run_inv_along_from step hstep h is (along_of_forall step is s his)

/-- The rule for a whole run. -/
theorem run_inv_along {P : σ → List ε → Prop} {ok : ι → σ → Prop} {s : σ}
    (hstep : ∀ i s log, ok i s → P s log → P (step i s).1 (log ++ (step i s).2)) (h : P s [])
    (is : List ι) (his : Along step ok is s) : P (run step is s).1 (run step is s).2 := by
  have hrun := run_inv_along_from step hstep h is his
  rw [List.nil_append] at hrun
  exact hrun

/-- The rule for a whole run on any inputs. -/
theorem run_inv {P : σ → List ε → Prop} {s : σ}
    (hstep : ∀ i s log, P s log → P (step i s).1 (log ++ (step i s).2)) (h : P s [])
    (is : List ι) : P (run step is s).1 (run step is s).2 :=
  run_inv_along step (fun i s log (_ : True) hp => hstep i s log hp) h is
    (along_of_forall step is s fun _ _ => trivial)

/-- The run along the first `n` inputs of a schedule. -/
def after (sched : Nat → ι) (s : σ) (n : Nat) : σ × List ε :=
  run step ((List.range n).map sched) s

theorem after_succ (sched : Nat → ι) (s : σ) (n : Nat) :
    after step sched s (n + 1)
      = ((step (sched n) (after step sched s n).1).1,
          (after step sched s n).2 ++ (step (sched n) (after step sched s n).1).2) := by
  unfold after
  rw [List.range_succ, List.map_append, List.map_singleton, run_concat]

/-- The rule for invariants along a schedule, from some point on. -/
theorem after_inv_from {P : σ → List ε → Prop} {s : σ} (sched : Nat → ι)
    (hstep : ∀ n s log, P s log → P (step (sched n) s).1 (log ++ (step (sched n) s).2))
    {n : Nat} (h : P (after step sched s n).1 (after step sched s n).2) :
    ∀ m, n ≤ m → P (after step sched s m).1 (after step sched s m).2 := by
  intro m hm
  induction m, hm using Nat.le_induction with
  | base => exact h
  | succ m _ ih =>
    rw [after_succ]
    exact hstep m _ _ ih

theorem after_inv {P : σ → List ε → Prop} {s : σ} (sched : Nat → ι)
    (hstep : ∀ n s log, P s log → P (step (sched n) s).1 (log ++ (step (sched n) s).2))
    (h : P s []) (n : Nat) : P (after step sched s n).1 (after step sched s n).2 :=
  after_inv_from step sched hstep (n := 0) h n (Nat.zero_le n)

/--
**Progress under fairness.** A step that does not make the measure smaller leaves the needs of
the machine as they are, a step that brings what is needed makes it smaller, and what is needed
comes at some time.
-/
theorem eventually_of_fair {α κ : Type*} [Preorder α] [WellFoundedLT α] {goal : Nat → Prop}
    (μ : Nat → α) (needs : Nat → κ) (brings : κ → Nat → Prop)
    (hkeep : ∀ n, ¬ goal n → μ (n + 1) < μ n ∨ (μ (n + 1) = μ n ∧ needs (n + 1) = needs n))
    (hless : ∀ n, ¬ goal n → brings (needs n) n → μ (n + 1) < μ n)
    (hfair : ∀ n, ∃ m, n ≤ m ∧ brings (needs n) m) : ∃ n, goal n := by
  by_contra hnever
  rw [not_exists] at hnever
  -- as long as the measure stays the same the needs do, so what is needed comes at last
  have hwait : ∀ d n, (∃ m, μ m < μ n) ∨ (μ (n + d) = μ n ∧ needs (n + d) = needs n) := by
    intro d
    induction d with
    | zero => intro n; exact Or.inr ⟨rfl, rfl⟩
    | succ d ih =>
      intro n
      rcases ih n with hlt | ⟨hμ, hneeds⟩
      · exact Or.inl hlt
      · rcases hkeep (n + d) (hnever _) with hlt | ⟨hμ', hneeds'⟩
        · exact Or.inl ⟨_, hμ ▸ hlt⟩
        · exact Or.inr ⟨hμ'.trans hμ, hneeds'.trans hneeds⟩
  have hdown : ∀ n, ∃ m, μ m < μ n := by
    intro n
    obtain ⟨m, hm, hb⟩ := hfair n
    rcases hwait (m - n) n with hlt | ⟨hμ, hneeds⟩
    · exact hlt
    · rw [Nat.add_sub_cancel' hm] at hμ hneeds
      exact ⟨m + 1, hμ ▸ hless m (hnever _) (hneeds ▸ hb)⟩
  obtain ⟨a, ⟨n, rfl⟩, hmin⟩ :=
    WellFounded.has_min (wellFounded_lt (α := α)) (Set.range μ) ⟨_, 0, rfl⟩
  obtain ⟨m, hlt⟩ := hdown n
  exact hmin (μ m) ⟨m, rfl⟩ hlt

end UniNet.Infra
