import UniNet.Ftp.Moves

/-!
# Replies of several lines

A reply of several lines repeats its code in the last one, and in between there may be any text.
`work_cmd` passes on every line by itself. The first line is a reply of its own, because a `-` is
taken like a blank, and so is the last one; and a line in between is read as a reply, too, and
ends the session when it is none.

* `MultiLine` — a reply of several lines
* `workCmdSingle_type` — which lines end the session
* `multiline_once_iff` — when such a reply counts once
-/

namespace UniNet.Ftp

open Infra

/-! ## The reply -/

/-- The digits of a reply code. -/
def codeText (code : Int) : Bytes := decText code.toNat

/-- The lines of a reply: `c-text`, lines of any text, and `c text`. -/
def multiLines (code : Int) (first : Bytes) (inner : List Bytes) (last : Bytes) : List Bytes :=
  (codeText code ++ 45 :: first) :: (inner ++ [codeText code ++ 32 :: last])

/-- A reply of several lines with a code of the map. -/
structure MultiLine where
  row : Int × Handler
  mapped : row ∈ cmdMap
  first : Bytes
  inner : List Bytes
  last : Bytes
  lines : ∀ line ∈ multiLines row.1 first inner last, OneLine line
  between : ∀ line ∈ inner, ¬ codeText row.1 ++ [32] <+: line

namespace MultiLine

/-- The lines that `work_cmd` cuts out. -/
def shown (r : MultiLine) : List Bytes := shownLines (multiLines r.row.1 r.first r.inner r.last)

/-- The reply on the control connection. -/
def bytes (r : MultiLine) : Bytes := wire (multiLines r.row.1 r.first r.inner r.last)

end MultiLine

/-- The handler that a line is for. -/
def handlerOf (text : Bytes) : Option Handler :=
  match replyOf text with
  | .handled h _ => some h
  | _ => none

/-- Every code of the map is read back, with the handler of its row. -/
theorem codeText_spec : ∀ row ∈ cmdMap, (codeText row.1).length = 3 ∧ 0 ∉ codeText row.1 ∧
    cmdMap.find? (fun row' => row'.1 = strtolValue (codeText row.1)) = some row := by
  decide +kernel

/-- A line with a code of the map is for the handler of its row, with a blank or a `-`. -/
theorem handlerOf_code {row : Int × Handler} (h : row ∈ cmdMap) {sep : UInt8}
    (hsep : sep = 32 ∨ sep = 45) (text : Bytes) :
    handlerOf (codeText row.1 ++ sep :: text) = some row.2 := by
  obtain ⟨hlen, -, hfind⟩ := codeText_spec row h
  have hbyte : byteAt (codeText row.1 ++ sep :: text) 3 = sep := by simp [byteAt, ← hlen]
  have hcode : (codeText row.1 ++ sep :: text).take 3 = codeText row.1 := by simp [← hlen]
  unfold handlerOf replyOf
  rw [if_neg, hcode, hfind]
  rw [hbyte, List.length_append, hlen]
  rcases hsep with rfl | rfl
  · simp
    omega
  · simp
    omega

/-- A NUL behind the code does not hide it. -/
theorem takeWhile_code {row : Int × Handler} (h : row ∈ cmdMap) {sep : UInt8} (hsep : sep ≠ 0)
    (text : Bytes) : (codeText row.1 ++ sep :: text).takeWhile (fun b => b != 0)
      = codeText row.1 ++ sep :: text.takeWhile fun b => b != 0 := by
  obtain ⟨-, hnul, -⟩ := codeText_spec row h
  rw [List.takeWhile_append_of_pos fun b hb => ?_, List.takeWhile_cons_of_pos (by simpa using hsep)]
  rw [bne_iff_ne]
  exact fun h0 => hnul (h0 ▸ hb)

/-! ## Lines that end the session -/

/-- The line ends the session, whatever the stack answers. -/
def endsAlways (text : Bytes) : Bool := (Event.line text).ends.isSome

/-- The port that a line wants the data connection to be made to. -/
def portOf (text : Bytes) : Option Nat :=
  match replyOf text with
  | .handled .h227 payload => pasvTarget payload
  | _ => none

/-- The line ends the session, by itself or because its data connection is not made. -/
def ends (inp : Input) (s : Session) (text : Bytes) : Bool :=
  endsAlways text ||
    (portOf text).any fun port => !(connectSocket inp .data port (s.emit (.line text))).2

/-- The line may end the session. -/
def mayEnd (text : Bytes) : Bool := endsAlways text || (portOf text).isSome

/-- **A session is over behind a line** if it was before, or the line ends it. -/
theorem workCmdSingle_type (inp : Input) (s : Session) (text : Bytes) :
    (workCmdSingle inp s text).client.task.type = .termination ↔
      s.client.task.type = .termination ∨ ends inp s text = true := by
  unfold workCmdSingle ends endsAlways portOf Event.ends
  dsimp only
  cases replyOf text with
  | wrongData => simp
  | wrongCmd => simp
  | handled h payload =>
    cases h with
    | error => simp [handle, handlerError]
    | h227 =>
      simp only [handle, handler227]
      cases pasvTarget payload with
      | none => simp
      | some port =>
        dsimp only
        cases hmade : (connectSocket inp .data port (s.emit (.line text))).2 with
        | true => simp [connectSocket_task, hmade]
        | false => simp [hmade]
    | h220 => by_cases ht : s.client.task.type = .startup <;> simp [handle, handler220, ht]
    | _ => simp [handle, handler150, handler20x, handler226, handler230, handler257, handler331,
        handler530, handler550, sendPassword, sendLogin]

/-- On a stack that makes every connection. -/
theorem connectSocket_made {inp : Input} (hsocket : ∀ now, inp.socket now = some true)
    (hconnect : ∀ now, inp.connect now = 0) (port : Nat) (s : Session) :
    (connectSocket inp .data port s).2 = true := by
  simp [connectSocket, prepareSocket, createSocket, hsocket, hconnect, freertosConnect]

/-- On a stack that makes none. -/
theorem connectSocket_refused {inp : Input} (hconnect : ∀ now, inp.connect now ≠ 0) (port : Nat)
    (s : Session) : (connectSocket inp .data port s).2 = false := by
  unfold connectSocket
  dsimp only
  split
  · next sock _ => cases sock <;> simp [freertosConnect, hconnect]
  · rfl

theorem ends_made {inp : Input} (hsocket : ∀ now, inp.socket now = some true)
    (hconnect : ∀ now, inp.connect now = 0) (s : Session) (text : Bytes) :
    ends inp s text = endsAlways text := by
  simp [ends, connectSocket_made hsocket hconnect]

theorem ends_refused {inp : Input} (hconnect : ∀ now, inp.connect now ≠ 0) (s : Session)
    (text : Bytes) : ends inp s text = mayEnd text := by
  simp [ends, mayEnd, connectSocket_refused hconnect]

/-- A line with a port is a 227. -/
theorem handlerOf_of_portOf {text : Bytes} (h : (portOf text).isSome = true) :
    handlerOf text = some .h227 := by
  unfold portOf at h
  unfold handlerOf
  split at h
  · next hreply => rw [hreply]
  · cases h

/-- The two are apart for a 227 that can be connected to. -/
theorem ends_between (inp : Input) (s : Session) (text : Bytes) :
    (endsAlways text = true → ends inp s text = true) ∧
      (ends inp s text = true → mayEnd text = true) ∧
      (mayEnd text = true → endsAlways text = true ∨ handlerOf text = some .h227) := by
  unfold ends mayEnd
  simp only [Bool.or_eq_true]
  refine ⟨Or.inl, Or.imp_right fun hany => ?_, Or.imp_right handlerOf_of_portOf⟩
  cases hport : portOf text with
  | none => simp [hport] at hany
  | some port => rfl

theorem passed_disconnect (inp : Input) (reason : Reason) (s : Session) :
    passed (disconnect inp reason s).log = passed s.log := by
  have hclose := quiet_closeSockets s
  have hcall := taskOnly_callback inp (closeSockets s) (.disconnect reason)
  simp [disconnect, hcall.passed_eq, hclose.passed_eq]

theorem Plain.passed_eq {s s' : Session} (h : Plain s s') : passed s'.log = passed s.log := by
  obtain ⟨es, hlog, hes⟩ := h.log
  have hnone : passed es = [] := by
    refine List.filterMap_eq_nil_iff.mpr fun e he => ?_
    have hplain := hes e he
    cases e <;> first | rfl | simp [Event.isPlain] at hplain
  rw [hlog, passed_append, hnone, List.append_nil]

/-- One line is passed on, whatever its handler does. -/
theorem passed_workCmdSingle (inp : Input) (s : Session) (text : Bytes) :
    passed (workCmdSingle inp s text).log = passed s.log ++ [text] := by
  unfold workCmdSingle
  dsimp only
  cases replyOf text with
  | wrongData => simp [passed_disconnect]
  | wrongCmd => simp [passed_disconnect]
  | handled h payload =>
    cases h with
    | error => simp [handle, handlerError, passed_disconnect]
    | h227 =>
      simp only [handle, handler227]
      cases pasvTarget payload with
      | none => simp
      | some port =>
        have hconn := (plain_connectSocket inp .data port (s.emit (.line text))).passed_eq
        dsimp only
        split <;> simp [hconn]
    | h220 => by_cases ht : s.client.task.type = .startup <;> simp [handle, handler220, ht]
    | _ => simp [handle, handler150, handler20x, handler226, handler230, handler257, handler331,
        handler530, handler550, sendPassword, sendLogin]

/-! ## How often a handler runs -/

/-- How often a handler was called. -/
def runs (h : Handler) (log : List Event) : Nat :=
  (passed log).countP fun text => handlerOf text = some h

theorem runs_workCmdSingle (inp : Input) (s : Session) (h : Handler) (text : Bytes) :
    runs h (workCmdSingle inp s text).log
      = runs h s.log + if handlerOf text = some h then 1 else 0 := by
  simp [runs, passed_workCmdSingle, List.countP_append, List.countP_cons]

/-- The session behind a line, which may be empty. -/
def lineDone (inp : Input) (s : Session) (line : Bytes) : Session :=
  if line = [] then s else workCmdSingle inp s line

theorem workCmdLines_cons (inp : Input) (line : Bytes) (lines : List Bytes) (s : Session) :
    workCmdLines inp (line :: lines) s
      = if (lineDone inp s line).client.task.type = .termination then lineDone inp s line
        else workCmdLines inp lines (lineDone inp s line) := rfl

theorem runs_le_lineDone (inp : Input) (s : Session) (h : Handler) (line : Bytes) :
    runs h s.log ≤ runs h (lineDone inp s line).log := by
  unfold lineDone
  split
  · exact le_refl _
  · rw [runs_workCmdSingle]
    exact Nat.le_add_right ..

theorem runs_le_workCmdLines (inp : Input) (h : Handler) (lines : List Bytes) (s : Session) :
    runs h s.log ≤ runs h (workCmdLines inp lines s).log := by
  induction lines generalizing s with
  | nil => exact le_refl _
  | cons line lines ih =>
    have hline := runs_le_lineDone inp s h line
    rw [workCmdLines_cons]
    split
    · exact hline
    · exact hline.trans (ih _)

/-- A line for the handler counts, whatever follows it. -/
theorem runs_lt_workCmdLines (inp : Input) {h : Handler} {line : Bytes} (hne : line ≠ [])
    (hline : handlerOf line = some h) (lines : List Bytes) (s : Session) :
    runs h s.log < runs h (workCmdLines inp (line :: lines) s).log := by
  have hdone : lineDone inp s line = workCmdSingle inp s line := by simp [lineDone, hne]
  have hruns := runs_workCmdSingle inp s h line
  have hle := runs_le_workCmdLines inp h lines (workCmdSingle inp s line)
  rw [if_pos hline] at hruns
  rw [workCmdLines_cons, hdone]
  split
  · omega
  · omega

/-- The loop goes on behind lines that do not end the session. -/
theorem workCmdLines_append {inp : Input} {lines : List Bytes} {s : Session}
    (h : (workCmdLines inp lines s).client.task.type ≠ .termination) (more : List Bytes) :
    workCmdLines inp (lines ++ more) s = workCmdLines inp more (workCmdLines inp lines s) := by
  induction lines generalizing s with
  | nil => rfl
  | cons line lines ih =>
    rw [workCmdLines_cons] at h
    rw [List.cons_append, workCmdLines_cons, workCmdLines_cons]
    split
    · next ht => simp [ht] at h
    · next ht =>
      rw [if_neg ht] at h
      exact ih h

/-- None of these lines is for handler `h`, and none of them ends the session. -/
def Passes (inp : Input) (h : Handler) : List Bytes → Session → Prop
  | [], _ => True
  | line :: lines, s =>
    (line = [] ∨ handlerOf line ≠ some h ∧ ends inp s line = false) ∧
      Passes inp h lines (lineDone inp s line)

/-- **Lines pass** exactly if they neither call the handler nor end the session. -/
theorem passes_iff {inp : Input} {h : Handler} {lines : List Bytes} {s : Session}
    (hs : s.client.task.type ≠ .termination) :
    Passes inp h lines s ↔ runs h (workCmdLines inp lines s).log = runs h s.log ∧
      (workCmdLines inp lines s).client.task.type ≠ .termination := by
  induction lines generalizing s with
  | nil => simp [Passes, workCmdLines, hs]
  | cons line lines ih =>
    rw [workCmdLines_cons, Passes]
    by_cases hline : line = []
    · have hsame : lineDone inp s line = s := by simp [lineDone, hline]
      rw [hsame, if_neg hs, ih hs]
      simp [hline]
    · have hdone : lineDone inp s line = workCmdSingle inp s line := by simp [lineDone, hline]
      have htype := workCmdSingle_type inp s line
      have hruns := runs_workCmdSingle inp s h line
      rw [hdone]
      by_cases hend : ends inp s line = true
      · have hterm := htype.mpr (Or.inr hend)
        simp [hline, hend, hterm]
      · have hlive : (workCmdSingle inp s line).client.task.type ≠ .termination :=
          fun ht => (htype.mp ht).elim hs hend
        have hle := runs_le_workCmdLines inp h lines (workCmdSingle inp s line)
        rw [if_neg hlive, ih hlive]
        by_cases hh : handlerOf line = some h
        · rw [if_pos hh] at hruns
          simp only [hline, hh, ne_eq, not_true_eq_false, false_and, or_false, false_iff, not_and]
          intro heq
          omega
        · rw [if_neg hh] at hruns
          simp [hline, hh, hend, hruns]

/-- Among lines that pass there is none that ends every session. -/
theorem Passes.forall_mem {inp : Input} {h : Handler} {e : Bytes → Bool} {lines : List Bytes}
    {s : Session} (hp : Passes inp h lines s)
    (he : ∀ s text, e text = true → ends inp s text = true) :
    ∀ line ∈ lines, line = [] ∨ handlerOf line ≠ some h ∧ e line = false := by
  induction lines generalizing s with
  | nil => exact List.forall_mem_nil _
  | cons line lines ih =>
    rw [List.forall_mem_cons]
    refine ⟨hp.1.imp id fun ⟨hne, hnot⟩ => ⟨hne, ?_⟩, ih hp.2⟩
    rw [Bool.eq_false_iff] at hnot ⊢
    exact fun hends => hnot (he _ _ hends)

/-- Lines pass when there is none among them that ends some session. -/
theorem passes_of_forall {inp : Input} {h : Handler} {e : Bytes → Bool}
    (he : ∀ s text, ends inp s text = true → e text = true) {lines : List Bytes}
    (hall : ∀ line ∈ lines, line = [] ∨ handlerOf line ≠ some h ∧ e line = false) (s : Session) :
    Passes inp h lines s := by
  induction lines generalizing s with
  | nil => trivial
  | cons line lines ih =>
    rw [List.forall_mem_cons] at hall
    refine ⟨hall.1.imp id fun ⟨hne, hnot⟩ => ⟨hne, ?_⟩, ih hall.2 _⟩
    rw [Bool.eq_false_iff] at hnot ⊢
    exact fun hends => hnot (he _ _ hends)

/-! ## When a reply counts once -/

/-- The control connection hands over these bytes in one piece. -/
def Input.handsOver (inp : Input) (bytes : Bytes) : Input :=
  { inp with recvcount := bytes.length, calloc := true, recv := bytes }

/-- The session in which `work_cmd` begins with the lines of these bytes. -/
def received (s : Session) (bytes : Bytes) : Session :=
  ((s.emit (.recvcount s.client.socketCmd bytes.length)).emit (.calloc true)).emit
    (.recv s.client.socketCmd bytes)

theorem workCmd_handsOver (inp : Input) (s : Session) {bytes : Bytes} (h : bytes ≠ []) :
    workCmd (inp.handsOver bytes) s = workCmdLines (inp.handsOver bytes)
      (splitLines (CString.ofBytes bytes).bytes) (received s bytes) := by
  have hpos : 0 < bytes.length := List.length_pos_iff.mpr h
  simp [workCmd, Input.handsOver, hpos, h, received]

/-- The session once the first `k` lines of the reply are done. -/
def MultiLine.upTo (r : MultiLine) (inp : Input) (s : Session) (k : Nat) : Session :=
  workCmdLines (inp.handsOver r.bytes) (r.shown.take k) (received s r.bytes)

/--
The reply counts once: its handler runs exactly once, and if the first line does not end the
session, no line between the first and the last does.
-/
def CountsOnce (inp : Input) (s : Session) (r : MultiLine) : Prop :=
  runs r.row.2 (workCmd (inp.handsOver r.bytes) s).log = runs r.row.2 s.log + 1 ∧
    ((r.upTo inp s 1).client.task.type ≠ .termination →
      (r.upTo inp s (r.inner.length + 1)).client.task.type ≠ .termination)

instance (inp : Input) (s : Session) (r : MultiLine) : Decidable (CountsOnce inp s r) :=
  inferInstanceAs (Decidable (_ ∧ (_ → _)))

/-- The first line as the client sees it. -/
def MultiLine.opening (r : MultiLine) : Bytes :=
  codeText r.row.1 ++ 45 :: r.first.takeWhile fun b => b != 0

/-- **The first line is a reply of its own**, and what is seen behind it. -/
theorem MultiLine.shown_eq (r : MultiLine) : ∃ rest, r.shown = r.opening :: rest ∧
    ((∃ line ∈ r.first :: r.inner, 0 ∈ line) → rest.length ≤ r.inner.length) ∧
    ((∀ line ∈ r.first :: r.inner, 0 ∉ line) → ∃ text more,
      rest = r.inner ++ (codeText r.row.1 ++ 32 :: text) :: more) := by
  obtain ⟨-, hcode, -⟩ := codeText_spec r.row r.mapped
  unfold shown multiLines opening
  rw [shownLines]
  by_cases hfirst : 0 ∈ r.first
  · rw [if_pos (by simp [hfirst]), takeWhile_code r.mapped (by decide)]
    exact ⟨[], rfl, fun _ => Nat.zero_le _, fun hno => absurd hfirst (hno _ (by simp))⟩
  · have hself : r.first.takeWhile (fun b => b != 0) = r.first := CString.ofBytes_noNul hfirst
    rw [if_neg (by simp [hcode, hfirst]), hself]
    refine ⟨_, rfl, fun hnul => ?_, fun hno => ?_⟩
    · have hinner : ∃ line ∈ r.inner, 0 ∈ line := by simpa [hfirst] using hnul
      exact shownLines_length_le hinner _
    · rw [shownLines_append fun line hm => hno line (List.mem_cons_of_mem _ hm), shownLines]
      split
      · exact ⟨_, [], by rw [takeWhile_code r.mapped (by decide)]⟩
      · exact ⟨_, _, rfl⟩

/--
With the answers of the stack, a reply counts once if the session was over before or its first
line ends it. Or a NUL in front of the last line hides the rest of it, and what is left between
neither calls the handler nor ends the session.
-/
theorem countsOnce_iff (inp : Input) (s : Session) (r : MultiLine) :
    CountsOnce inp s r ↔
      (s.client.task.type = .termination ∨
        ends (inp.handsOver r.bytes) (received s r.bytes) r.opening = true) ∨
      ((∃ line ∈ r.first :: r.inner, 0 ∈ line) ∧
        Passes (inp.handsOver r.bytes) r.row.2 r.shown.tail (r.upTo inp s 1)) := by
  have hne : r.bytes ≠ [] := by simp [MultiLine.bytes, multiLines]
  have hwork : workCmd (inp.handsOver r.bytes) s
      = workCmdLines (inp.handsOver r.bytes) r.shown (received s r.bytes) := by
    rw [workCmd_handsOver inp s hne, MultiLine.bytes, splitLines_ofBytes_wire r.lines]
    rfl
  have hbefore : runs r.row.2 (received s r.bytes).log = runs r.row.2 s.log := by
    simp [runs, received]
  obtain ⟨rest, hshown, hcut, hwhole⟩ := r.shown_eq
  have hone : lineDone (inp.handsOver r.bytes) (received s r.bytes) r.opening
      = workCmdSingle (inp.handsOver r.bytes) (received s r.bytes) r.opening := by
    simp [lineDone, MultiLine.opening]
  have hruns := runs_workCmdSingle (inp.handsOver r.bytes) (received s r.bytes) r.row.2 r.opening
  have htype := workCmdSingle_type (inp.handsOver r.bytes) (received s r.bytes) r.opening
  rw [MultiLine.opening, if_pos (handlerOf_code r.mapped (Or.inr rfl) _), ← MultiLine.opening]
    at hruns
  unfold CountsOnce MultiLine.upTo
  rw [hwork, hshown, List.take_succ_cons, List.take_succ_cons, List.take_zero, List.tail_cons]
  simp only [workCmdLines_cons, hone]
  generalize workCmdSingle (inp.handsOver r.bytes) (received s r.bytes) r.opening = s₁
    at hruns htype ⊢
  have htype' : s₁.client.task.type = .termination ↔ s.client.task.type = .termination ∨
    ends (inp.handsOver r.bytes) (received s r.bytes) r.opening = true := htype
  rw [← htype', ← hbefore, ← hruns]
  by_cases hover : s₁.client.task.type = .termination
  · simp [hover]
  · simp only [hover, if_false, false_or, workCmdLines, ne_eq, not_false_eq_true, true_implies]
    by_cases hnul : ∃ line ∈ r.first :: r.inner, 0 ∈ line
    · rw [List.take_of_length_le (hcut hnul), passes_iff hover]
      exact ⟨fun h => ⟨hnul, h⟩, fun h => h.2⟩
    · obtain ⟨text, more, rfl⟩ := hwhole (by simpa using hnul)
      rw [List.take_left]
      simp only [hnul, false_and, iff_false, not_and]
      intro hcount hlive
      -- the last line is reached, and runs the handler once more
      rw [workCmdLines_append hlive] at hcount
      have hinner := runs_le_workCmdLines (inp.handsOver r.bytes) r.row.2 r.inner s₁
      have hlast := runs_lt_workCmdLines (inp.handsOver r.bytes) (by simp)
        (handlerOf_code r.mapped (Or.inl rfl) text) more
        (workCmdLines (inp.handsOver r.bytes) r.inner s₁)
      omega

/-- A stack that makes no connection. -/
def Input.refusing : Input := { Input.idle with connect := fun _ => -1 }

/--
**When a reply of several lines counts once, whatever the stack answers.** The session was over
before, or the first line of the reply ends it by itself: its code is an error, or it is a 227 that
names no port. Or a NUL in front of the last line hides the rest of it, and no line that is seen
behind the first is for the handler or can end the session.
-/
theorem multiline_once_iff (s : Session) (r : MultiLine) :
    (∀ inp, CountsOnce inp s r) ↔
      (s.client.task.type = .termination ∨ endsAlways r.opening = true) ∨
      ((∃ line ∈ r.first :: r.inner, 0 ∈ line) ∧
        ∀ line ∈ r.shown.tail,
          line = [] ∨ handlerOf line ≠ some r.row.2 ∧ mayEnd line = false) := by
  constructor
  · intro h
    have hmade := (countsOnce_iff .idle s r).mp (h .idle)
    have hrefused := (countsOnce_iff .refusing s r).mp (h .refusing)
    have hno : ∀ now, (Input.refusing.handsOver r.bytes).connect now ≠ 0 :=
      fun _ => Int.neg_ne_zero.mpr Int.one_ne_zero
    rw [ends_made (fun _ => rfl) (fun _ => rfl)] at hmade
    rw [ends_refused hno] at hrefused
    rcases hmade with hends | ⟨hnul, hpass⟩
    · exact Or.inl hends
    · replace hpass := hpass.forall_mem fun s text => (ends_between _ s text).1
      rcases hrefused with (hover | hmay) | ⟨-, hall⟩
      · exact Or.inl (Or.inl hover)
      · -- a 227 is the first line, so that there is none behind it
        rcases (ends_between .idle s r.opening).2.2 hmay with halways | h227
        · exact Or.inl (Or.inr halways)
        · refine Or.inr ⟨hnul, fun line hline => ?_⟩
          have hrow : r.row.2 = .h227 := by
            rw [MultiLine.opening, handlerOf_code r.mapped (Or.inr rfl)] at h227
            exact Option.some.inj h227
          refine (hpass line hline).imp id fun ⟨hne, hnot⟩ => ⟨hne, ?_⟩
          rw [Bool.eq_false_iff]
          intro hmay'
          rcases (ends_between .idle s line).2.2 hmay' with halways | h227'
          · exact Bool.noConfusion (halways.symm.trans hnot)
          · exact hne (h227'.trans (congrArg some hrow.symm))
      · exact Or.inr ⟨hnul, hall.forall_mem fun s text => (ends_refused hno s text).trans⟩
  · rintro ((hover | halways) | ⟨hnul, hall⟩) inp
    · exact (countsOnce_iff inp s r).mpr (Or.inl (Or.inl hover))
    · exact (countsOnce_iff inp s r).mpr (Or.inl (Or.inr ((ends_between ..).1 halways)))
    · refine (countsOnce_iff inp s r).mpr (Or.inr ⟨hnul, ?_⟩)
      exact passes_of_forall (fun s text => (ends_between _ s text).2.1) hall _

/-- A 331 reply of two lines. -/
def passwordPlease : MultiLine where
  row := (331, .h331)
  mapped := by decide
  first := ascii "Hello"
  inner := []
  last := ascii "Password please"
  lines := by decide +kernel
  between := by simp

/-- A greeting with a banner. -/
def banner : MultiLine where
  row := (220, .h220)
  mapped := by decide
  first := ascii "Hello"
  inner := [ascii "  Welcome to the server"]
  last := ascii "ready"
  lines := by decide +kernel
  between := by decide +kernel

/--
**A reply of two lines counts twice**, so that the password is sent twice; and a banner ends the
session.
-/
theorem multiline_not_once :
    (¬ CountsOnce .idle (sessionStart .plain true .zero) passwordPlease ∧
      (session .plain true .zero [.reply passwordPlease.bytes]).log.countP (fun
        | .send _ text _ => text = ascii "PASS secret\r\n"
        | _ => false) = 2) ∧
    ¬ CountsOnce .idle (sessionStart .plain true .zero) banner ∧
      .callback (.disconnect .wrongData)
        ∈ (session .plain true .zero [.reply banner.bytes]).log := by
  decide +kernel

end UniNet.Ftp
