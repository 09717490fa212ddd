import Mathlib.Data.List.Infix

/-!
# Histories

A safety property of a log says of every event that what came before allows it. `Throughout`
is that, by recursion over the log, so that it can be decided for a given log and grows one
event at a time (`throughout_concat`) where a system is followed step by step.
-/

namespace UniNet.Infra

variable {ε : Type*} (P : List ε → ε → Prop)

/-- Every event of the log is allowed by what came before it, `pre` and the log up to it. -/
def ThroughoutFrom : List ε → List ε → Prop
  | _, [] => True
  | pre, e :: log => P pre e ∧ ThroughoutFrom (pre ++ [e]) log

/-- Every event of the log is allowed by what came before it. -/
def Throughout (log : List ε) : Prop := ThroughoutFrom P [] log

instance ThroughoutFrom.decidable [∀ pre e, Decidable (P pre e)] :
    ∀ pre log : List ε, Decidable (ThroughoutFrom P pre log)
  | _, [] => isTrue trivial
  | pre, e :: log =>
    have := ThroughoutFrom.decidable (pre ++ [e]) log
    inferInstanceAs (Decidable (P pre e ∧ ThroughoutFrom P (pre ++ [e]) log))

instance [∀ pre e, Decidable (P pre e)] (log : List ε) : Decidable (Throughout P log) :=
  ThroughoutFrom.decidable P [] log

variable {P}

theorem throughoutFrom_append {pre l m : List ε} :
    ThroughoutFrom P pre (l ++ m) ↔ ThroughoutFrom P pre l ∧ ThroughoutFrom P (pre ++ l) m := by
  induction l generalizing pre with
  | nil => simp [ThroughoutFrom]
  | cons e l ih =>
    simp only [List.cons_append, ThroughoutFrom, ih, List.append_assoc, List.nil_append, and_assoc]

@[simp] theorem throughout_nil : Throughout P [] := trivial

/-- One more event at the end. -/
theorem throughout_concat {log : List ε} {e : ε} :
    Throughout P (log ++ [e]) ↔ Throughout P log ∧ P log e := by
  unfold Throughout
  rw [throughoutFrom_append]
  simp [ThroughoutFrom]

/-- What is said of an event in the middle of the log. -/
theorem Throughout.allowed {pre post : List ε} {e : ε} (h : Throughout P (pre ++ e :: post)) :
    P pre e := by
  unfold Throughout at h
  rw [throughoutFrom_append] at h
  exact h.2.1

theorem throughout_iff {log : List ε} :
    Throughout P log ↔ ∀ pre e post, log = pre ++ e :: post → P pre e := by
  constructor
  · rintro h pre e post rfl
    exact h.allowed
  · intro h
    induction log using List.reverseRecOn with
    | nil => exact throughout_nil
    | append_singleton log e ih =>
      rw [throughout_concat]
      refine ⟨ih ?_, h log e [] rfl⟩
      rintro pre e' post rfl
      exact h pre e' (post ++ [e]) (by simp)

theorem Throughout.of_begin {log log' : List ε} (h : Throughout P log') (hp : log <+: log') :
    Throughout P log := by
  obtain ⟨post, rfl⟩ := hp
  unfold Throughout at h ⊢
  rw [throughoutFrom_append] at h
  exact h.1

/-- A later part of the log, by itself. -/
theorem Throughout.later {Q : List ε → ε → Prop} {pre log : List ε}
    (h : Throughout P (pre ++ log)) (hq : ∀ l e, P (pre ++ l) e → Q l e) : Throughout Q log := by
  rw [throughout_iff] at h ⊢
  rintro l e post rfl
  exact hq l e (h (pre ++ l) e post (by simp))

/-- Events are added that are allowed one after the other. -/
theorem Throughout.more {log more : List ε} (h : Throughout P log)
    (hmore : ∀ pre e post, more = pre ++ e :: post → P (log ++ pre) e) :
    Throughout P (log ++ more) := by
  induction more using List.reverseRecOn with
  | nil => simpa using h
  | append_singleton more e ih =>
    rw [← List.append_assoc, throughout_concat]
    refine ⟨ih ?_, hmore more e [] rfl⟩
    rintro pre e' post rfl
    exact hmore pre e' (post ++ [e]) (by simp)

/-- Events that are always allowed can be added at will. -/
theorem throughout_append {log more : List ε} (h : ∀ pre, ∀ e ∈ more, P pre e) :
    Throughout P (log ++ more) ↔ Throughout P log := by
  refine ⟨fun hall => hall.of_begin (List.prefix_append ..), fun hlog => hlog.more ?_⟩
  rintro pre e post rfl
  exact h _ e (by simp)

/-- Events that leave a part of an account of the log alone. -/
theorem foldl_keeps {σ τ : Type*} {f : σ → ε → σ} {more : List ε} (part : σ → τ)
    (h : ∀ e ∈ more, ∀ q, part (f q e) = part q) (q : σ) : part (more.foldl f q) = part q := by
  induction more generalizing q with
  | nil => rfl
  | cons e more ih =>
    rw [List.forall_mem_cons] at h
    rw [List.foldl_cons, ih h.2, h.1]

/-- Events that leave all of it alone. -/
theorem foldl_unmoved {σ : Type*} {f : σ → ε → σ} {more : List ε}
    (h : ∀ e ∈ more, ∀ q, f q e = q) (q : σ) : more.foldl f q = q :=
  foldl_keeps id h q

/-- Two logs that grow are paired up to a log that grows. -/
theorem zip_begin {α β : Type*} {l l' : List α} {m m' : List β} (hl : l <+: l') (hm : m <+: m') :
    l.zip m <+: l'.zip m' := by
  induction l generalizing l' m m' with
  | nil => exact List.nil_prefix
  | cons a l ih =>
    cases m with
    | nil => exact List.nil_prefix
    | cons b m =>
      obtain ⟨l₂, rfl⟩ := hl
      obtain ⟨m₂, rfl⟩ := hm
      simp only [List.cons_append, List.zip_cons_cons, List.cons_prefix_cons, true_and]
      exact ih (List.prefix_append ..) (List.prefix_append ..)

end UniNet.Infra
