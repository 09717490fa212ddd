import UniNet.Infra.Run
import Mathlib.Tactic.Common

/-!
# The receive timeout of the UDP server

`uni_net_udp_server_recvfrom` sets `RCVTIMEO` to the timeout of its caller in one section under
the lock, receives without the lock, and in a second section puts back the value that it has
read from the configuration in the first. `uni_net_udp_server_set_timeouts` changes the option
and the configuration together, in one section.

A run is any order of such sections, of any number of calls from any tasks, on a server that is
initialised and has no `on_receive`. `FreeRTOS_setsockopt` succeeds.

* `sectionStep_settled` — sections that leave the running receives alone keep every saved value
  equal to the configured one
* `receives_return` — the receives that are running can return in any order, and the last one
  decides
-/

namespace UniNet.Udp

open Infra

/-! ## The source -/

/-- The two options of the socket, the configuration, and what the running receives will put
back, in the order they began. -/
structure Timeouts where
  rcvtimeo : Nat
  sndtimeo : Nat
  rxTimeoutMs : Nat
  txTimeoutMs : Nat
  saved : List Nat
  deriving DecidableEq

/-- A section under the lock. -/
inductive Section where
  /-- the first section of `recvfrom` -/
  | override (timeoutMs : Nat)
  /-- the second section of the `i`-th receive that is running -/
  | restore (i : Nat)
  /-- `set_timeouts` -/
  | setTimeouts (rxMs txMs : Nat)
  deriving DecidableEq

variable (ticks : Nat → Nat)

/-- One section, where `ticks` is `pdMS_TO_TICKS`, and what `RCVTIMEO` is set to in it. -/
def sectionStep (x : Section) (s : Timeouts) : Timeouts × List Nat :=
  match x with
  | .override timeoutMs =>
    ({ s with rcvtimeo := ticks timeoutMs, saved := s.saved ++ [ticks s.rxTimeoutMs] },
      [ticks timeoutMs])
  | .restore i =>
    match s.saved[i]? with
    | some orig => ({ s with rcvtimeo := orig, saved := s.saved.eraseIdx i }, [orig])
    | none => (s, [])
  | .setTimeouts rxMs txMs =>
    ({ s with
        rcvtimeo := ticks rxMs
        sndtimeo := ticks txMs
        rxTimeoutMs := rxMs
        txTimeoutMs := txMs }, [ticks rxMs])

/-- The server as its task has initialised it: the options are those of the configuration. -/
def Timeouts.applied (rxMs txMs : Nat) : Timeouts := ⟨ticks rxMs, ticks txMs, rxMs, txMs, []⟩

/-- The sections from there on. -/
def timeouts (rxMs txMs : Nat) (xs : List Section) : Timeouts :=
  (run (sectionStep ticks) xs (.applied ticks rxMs txMs)).1

/-! ## What is expected -/

/-- When all calls have returned, the option is the configured one. -/
def Agreed (s : Timeouts) : Prop := s.saved = [] → s.rcvtimeo = ticks s.rxTimeoutMs

/-- `set_timeouts` does not change what a running receive will put back. -/
def Undisturbed (x : Section) (s : Timeouts) : Prop :=
  match x with
  | .setTimeouts rxMs _ => ∀ orig ∈ s.saved, orig = ticks rxMs
  | _ => True

instance (x : Section) (s : Timeouts) : Decidable (Undisturbed ticks x s) :=
  match x with
  | .setTimeouts rxMs _ => inferInstanceAs (Decidable (∀ orig ∈ s.saved, orig = ticks rxMs))
  | .override _ => isTrue trivial
  | .restore _ => isTrue trivial

/-! ## Without interference -/

variable {ticks}

/-- **The invariant**: what will be put back is the configured value, and it is in force already
when nothing will be put back. -/
structure Settled (ticks : Nat → Nat) (s : Timeouts) : Prop where
  saved : ∀ orig ∈ s.saved, orig = ticks s.rxTimeoutMs
  agreed : Agreed ticks s

theorem sectionStep_settled {x : Section} {s : Timeouts} (hx : Undisturbed ticks x s)
    (h : Settled ticks s) : Settled ticks (sectionStep ticks x s).1 := by
  cases x with
  | override timeoutMs =>
    constructor
    · intro orig ho
      rcases List.mem_append.mp ho with ho | ho
      · exact h.saved orig ho
      · exact List.mem_singleton.mp ho
    · intro hnil
      simp [sectionStep] at hnil
  | restore i =>
    unfold sectionStep
    cases hi : s.saved[i]? with
    | none => simpa [hi] using h
    | some orig =>
      have horig : orig = ticks s.rxTimeoutMs := h.saved orig (List.mem_of_getElem? hi)
      simp only [hi]
      exact ⟨fun o ho => h.saved o (List.mem_of_mem_eraseIdx ho), fun _ => horig⟩
  | setTimeouts rxMs txMs => exact ⟨hx, fun _ => rfl⟩

/-! ## With interference -/

variable (ticks)

/-- The receives that began first return one after the other. -/
theorem restore_first (saved rest : List Nat) : ∀ s : Timeouts, s.saved = saved ++ rest →
    let s' := (run (sectionStep ticks) (List.replicate saved.length (.restore 0)) s).1
    s'.saved = rest ∧ s'.rxTimeoutMs = s.rxTimeoutMs := by
  induction saved with
  | nil => intro s hs; exact ⟨hs, rfl⟩
  | cons orig saved ih =>
    intro s hs
    have hstep : sectionStep ticks (.restore 0) s
        = ({ s with rcvtimeo := orig, saved := saved ++ rest }, [orig]) := by
      simp [sectionStep, hs]
    rw [List.length_cons, List.replicate_succ]
    simp only [run, hstep]
    exact ih _ rfl

/-- All receives but the one that began first return. -/
theorem restore_second (orig : Nat) (saved : List Nat) : ∀ s : Timeouts, s.saved = orig :: saved →
    let s' := (run (sectionStep ticks) (List.replicate saved.length (.restore 1)) s).1
    s'.saved = [orig] ∧ s'.rxTimeoutMs = s.rxTimeoutMs := by
  induction saved with
  | nil => intro s hs; exact ⟨hs, rfl⟩
  | cons o saved ih =>
    intro s hs
    have hstep : sectionStep ticks (.restore 1) s
        = ({ s with rcvtimeo := o, saved := orig :: saved }, [o]) := by
      simp [sectionStep, hs]
    rw [List.length_cons, List.replicate_succ]
    simp only [run, hstep]
    exact ih _ rfl

/-- **Any receive that is running can be the last one to return**, and then its value stays. -/
theorem receives_return {s : Timeouts} {orig : Nat} (h : orig ∈ s.saved) :
    ∃ xs, let s' := (run (sectionStep ticks) xs s).1
      s'.saved = [] ∧ s'.rcvtimeo = orig ∧ s'.rxTimeoutMs = s.rxTimeoutMs := by
  obtain ⟨before, after, hs⟩ := List.append_of_mem h
  obtain ⟨hsaved, hms⟩ := restore_first ticks before (orig :: after) s hs
  obtain ⟨hsaved', hms'⟩ := restore_second ticks orig after _ hsaved
  refine ⟨List.replicate before.length (.restore 0)
    ++ (List.replicate after.length (.restore 1) ++ [.restore 0]), ?_⟩
  rw [run_append, run_append]
  simp only [run, sectionStep, hsaved', List.getElem?_cons_zero]
  exact ⟨rfl, trivial, hms'.trans hms⟩

/--
**The timeout survives** in every order of the sections in which `set_timeouts` leaves the
running receives alone. When it does not, those receives can return so that the new timeout is
lost.
-/
theorem timeouts_agreed (rxMs txMs : Nat) (xs : List Section) :
    (Along (sectionStep ticks) (Undisturbed ticks) xs (.applied ticks rxMs txMs) →
        Agreed ticks (timeouts ticks rxMs txMs xs)) ∧
      ∀ rx tx, ¬ Undisturbed ticks (.setTimeouts rx tx) (timeouts ticks rxMs txMs xs) →
        ∃ ys, (timeouts ticks rxMs txMs (xs ++ .setTimeouts rx tx :: ys)).saved = [] ∧
          ¬ Agreed ticks (timeouts ticks rxMs txMs (xs ++ .setTimeouts rx tx :: ys)) := by
  constructor
  · intro hxs
    have hrun := run_inv_along (sectionStep ticks) (P := fun s _ => Settled ticks s)
      (fun _ _ _ hok h => sectionStep_settled hok h)
      ⟨by simp [Timeouts.applied], fun _ => rfl⟩ xs hxs
    exact hrun.agreed
  · intro rx tx hno
    simp only [Undisturbed, not_forall] at hno
    obtain ⟨orig, hmem, hne⟩ := hno
    obtain ⟨ys, hsaved, hrcv, hms⟩ := receives_return ticks
      (s := (sectionStep ticks (.setTimeouts rx tx) (timeouts ticks rxMs txMs xs)).1) hmem
    have hall : timeouts ticks rxMs txMs (xs ++ .setTimeouts rx tx :: ys)
        = (run (sectionStep ticks) ys
            (sectionStep ticks (.setTimeouts rx tx) (timeouts ticks rxMs txMs xs)).1).1 := by
      unfold timeouts
      rw [run_append, run]
    refine ⟨ys, by rw [hall]; exact hsaved, fun hagreed => hne ?_⟩
    rw [hall] at hagreed
    rw [← hrcv, hagreed hsaved, hms]
    rfl

/-- Two receives at once, and `set_timeouts` behind them. -/
theorem timeouts_agreed_overlapping :
    let xs : List Section :=
      [.override 0, .override 50, .restore 0, .restore 0, .setTimeouts 2000 1000, .override 10,
        .restore 0]
    (timeouts id 1000 1000 xs).rcvtimeo = 2000 ∧ Agreed id (timeouts id 1000 1000 xs) := by
  intro xs
  exact ⟨by decide, (timeouts_agreed id 1000 1000 xs).1 (by decide)⟩

/-- `set_timeouts` while a receive is running. -/
theorem timeouts_agreed_lost :
    let s := timeouts id 1000 1000 [.override 50, .setTimeouts 2000 1000, .restore 0]
    s.saved = [] ∧ s.rxTimeoutMs = 2000 ∧ s.rcvtimeo = 1000 ∧ ¬ Agreed id s := by
  intro s
  refine ⟨by decide, by decide, by decide, fun h => ?_⟩
  exact absurd (h (by decide)) (by decide)

end UniNet.Udp
