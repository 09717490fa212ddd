import UniNet.Infra.Bytes
import UniNet.Infra.Search

/-!
# Programs on a buffer

Whether a loop stays inside a buffer cannot be said of a function from bytes to bytes. `Prog`
is a program that works on a buffer and keeps a record of every index it reads or writes, and
`Ends` says three things about a run of it at once: it comes to an end, all accesses are
allowed, and the result is right.

* `Ends.bind`, `Ends.read`, `Ends.write` — one step after the other
* `Ends.loop` — a loop ends when something gets smaller with every round
* `Ends.search` — the loop that looks for an index finds what `findFrom` finds
-/

namespace UniNet.Infra

/-- An access to the buffer. -/
inductive Access where
  | read (i : Nat)
  | write (i : Nat)
  deriving DecidableEq

/-- The index of an access. -/
def Access.index : Access → Nat
  | read i => i
  | write i => i

/--
A program on a buffer: its result, the buffer afterwards, and the accesses in order. A loop
that has not ended when its fuel is used up has no result.
-/
def Prog (α : Type) : Type := Bytes → Option (α × Bytes × List Access)

namespace Prog

variable {α β σ : Type}

protected def pure (a : α) : Prog α := fun buf => some (a, buf, [])

protected def bind (m : Prog α) (f : α → Prog β) : Prog β := fun buf =>
  match m buf with
  | none => none
  | some (a, buf', log) =>
    match f a buf' with
    | none => none
    | some (b, buf'', log') => some (b, buf'', log ++ log')

instance : Monad Prog where
  pure := Prog.pure
  bind := Prog.bind

/-- `buf[i]`. -/
def read (i : Nat) : Prog UInt8 := fun buf => some (byteAt buf i, buf, [.read i])

/-- `buf[i] = v`. -/
def write (i : Nat) (v : UInt8) : Prog Unit := fun buf => some ((), buf.set i v, [.write i])

/-- A loop. Each round goes on with a new state, or leaves the loop with a result. -/
def loop (body : σ → Prog (σ ⊕ α)) : Nat → σ → Prog α
  | 0, _ => fun _ => none
  | fuel + 1, s => do
    match ← body s with
    | .inl s' => loop body fuel s'
    | .inr a => pure a

/-- `for (i = lo; i < hi; ++i) if (test(i)) break;`. -/
def search (test : Nat → Prog Bool) (hi fuel lo : Nat) : Prog (Option Nat) :=
  loop (fun i =>
    if i < hi then do
      if ← test i then pure (.inr (some i)) else pure (.inl (i + 1))
    else pure (.inr none)) fuel lo

end Prog

open Prog

/-- The program ends on `buf`, makes only accesses that are `ok`, and `Q` holds then. -/
def Ends {α : Type} (ok : Access → Prop) (m : Prog α) (buf : Bytes) (Q : α → Bytes → Prop) :
    Prop :=
  ∃ a buf' log, m buf = some (a, buf', log) ∧ (∀ x ∈ log, ok x) ∧ Q a buf'

namespace Ends

variable {α β σ : Type} {ok : Access → Prop} {buf : Bytes}

theorem pure {a : α} {Q : α → Bytes → Prop} (h : Q a buf) : Ends ok (Pure.pure a) buf Q :=
  ⟨a, buf, [], rfl, by simp, h⟩

theorem read {i : Nat} {Q : UInt8 → Bytes → Prop} (hi : ok (.read i)) (h : Q (byteAt buf i) buf) :
    Ends ok (Prog.read i) buf Q :=
  ⟨byteAt buf i, buf, [.read i], rfl, by simpa using hi, h⟩

theorem write {i : Nat} {v : UInt8} {Q : Unit → Bytes → Prop} (hi : ok (.write i))
    (h : Q () (buf.set i v)) : Ends ok (Prog.write i v) buf Q :=
  ⟨(), buf.set i v, [.write i], rfl, by simpa using hi, h⟩

theorem bind {m : Prog α} {f : α → Prog β} {Q : α → Bytes → Prop} {R : β → Bytes → Prop}
    (hm : Ends ok m buf Q) (hf : ∀ a buf', Q a buf' → Ends ok (f a) buf' R) :
    Ends ok (m >>= f) buf R := by
  obtain ⟨a, buf', log, hrun, hlog, hQ⟩ := hm
  obtain ⟨b, buf'', log', hrun', hlog', hR⟩ := hf a buf' hQ
  refine ⟨b, buf'', log ++ log', ?_, ?_, hR⟩
  · change Prog.bind m f buf = _
    unfold Prog.bind
    simp only [hrun, hrun']
  · rw [List.forall_mem_append]
    exact ⟨hlog, hlog'⟩

theorem mono {m : Prog α} {Q R : α → Bytes → Prop} (h : Ends ok m buf Q)
    (hQR : ∀ a buf', Q a buf' → R a buf') : Ends ok m buf R := by
  obtain ⟨a, buf', log, hrun, hlog, hQ⟩ := h
  exact ⟨a, buf', log, hrun, hlog, hQR a buf' hQ⟩

theorem allow {m : Prog α} {ok' : Access → Prop} {Q : α → Bytes → Prop} (h : Ends ok m buf Q)
    (hok : ∀ x, ok x → ok' x) : Ends ok' m buf Q := by
  obtain ⟨a, buf', log, hrun, hlog, hQ⟩ := h
  exact ⟨a, buf', log, hrun, fun x hx => hok x (hlog x hx), hQ⟩

/--
**The rule for loops.** A round keeps the invariant and makes the measure smaller, or leaves
with the result. The fuel has to be more than the measure at the start, no matter how much.
-/
theorem loop {body : σ → Prog (σ ⊕ α)} {Q : α → Bytes → Prop} (inv : σ → Bytes → Prop)
    (measure : σ → Nat)
    (hbody : ∀ s buf, inv s buf → Ends ok (body s) buf fun r buf' =>
      match r with
      | .inl s' => inv s' buf' ∧ measure s' < measure s
      | .inr a => Q a buf') :
    ∀ (fuel : Nat) (s : σ) (buf : Bytes), inv s buf → measure s < fuel →
      Ends ok (Prog.loop body fuel s) buf Q := by
  intro fuel
  induction fuel with
  | zero => intro s buf _ hlt; cases hlt
  | succ fuel ih =>
    intro s buf hinv hlt
    refine bind (hbody s buf hinv) fun r buf' hr => ?_
    cases r with
    | inl s' => exact ih s' buf' hr.1 (by omega)
    | inr a => exact pure hr

/-- **A search finds the first index**, when the test looks at the buffer and does not change it. -/
theorem search {test : Nat → Prog Bool} {p : Nat → Bool} {lo hi fuel : Nat}
    (htest : ∀ i, lo ≤ i → i < hi →
      Ends ok (test i) buf fun b buf' => b = p i ∧ buf' = buf)
    (hfuel : hi < lo + fuel) (hle : lo ≤ hi) :
    Ends ok (Prog.search test hi fuel lo) buf fun r buf' => r = findFrom p lo hi ∧ buf' = buf := by
  -- what has been passed has no hit, so the rest of the interval decides
  refine loop (fun i buf' => (lo ≤ i ∧ i ≤ hi) ∧ findFrom p lo hi = findFrom p i hi ∧ buf' = buf)
    (fun i => hi - i) ?_ fuel lo buf ⟨⟨by omega, hle⟩, rfl, rfl⟩ (by omega)
  rintro i _ ⟨hi', hrest, rfl⟩
  by_cases hlt : i < hi
  · rw [if_pos hlt]
    refine bind (htest i hi'.1 hlt) ?_
    rintro b _ ⟨rfl, rfl⟩
    rw [findFrom_step hlt] at hrest
    by_cases hp : p i = true
    · rw [if_pos hp] at hrest ⊢
      exact pure ⟨hrest.symm, rfl⟩
    · rw [if_neg hp] at hrest ⊢
      exact pure ⟨⟨by omega, hrest, rfl⟩, by omega⟩
  · rw [if_neg hlt]
    refine pure ⟨?_, rfl⟩
    rw [hrest, eq_comm, findFrom_eq_none]
    exact fun j h1 h2 => absurd h2 (by omega)

end Ends

end UniNet.Infra
