import Mathlib.Data.List.Infix
import Mathlib.Data.Nat.Digits.Lemmas
import UniNet.Infra.Bytes
import UniNet.Infra.Search
import UniNet.Infra.Word

/-!
# Text in C

`strstr`, `strchr` and `strtol` as a line based protocol uses them.

A stream of lines is `wire lines`: every line with its CRLF. A reader that sees a part of the
stream cuts it with `splitLines`, and `prefix_wire` says what it has seen: whole lines, and a rest
that is the beginning of the next one. When the rest happens to be a whole line, the CRLF that
follows it gives an empty line in the next part, and nothing else goes wrong.
-/

namespace UniNet.Infra

/-! ## Lines -/

/-- `"\r\n"`. -/
def crlf : Bytes := [13, 10]

/-- A byte in front of the first line. -/
def consLine (b : UInt8) : List Bytes → List Bytes
  | [] => [[b]]
  | line :: lines => (b :: line) :: lines

/--
The texts that repeated `strstr(line, "\r\n")` cuts a text into. The last one has no CRLF
behind it; it is empty when the text ends with a CRLF.
-/
def splitLines : Bytes → List Bytes
  | [] => [[]]
  | [b] => [[b]]
  | b :: b' :: rest =>
    if b = 13 ∧ b' = 10 then [] :: splitLines rest else consLine b (splitLines (b' :: rest))

/-- A text without a CRLF in it. -/
def OneLine (text : Bytes) : Prop := splitLines text = [text]

instance (text : Bytes) : Decidable (OneLine text) := inferInstanceAs (Decidable (_ = _))

/-- The lines as they are sent. -/
def wire (lines : List Bytes) : Bytes := lines.flatMap (· ++ crlf)

@[simp] theorem wire_nil : wire [] = [] := rfl

@[simp] theorem wire_cons (line : Bytes) (lines : List Bytes) :
    wire (line :: lines) = line ++ crlf ++ wire lines := by
  simp [wire]

theorem wire_append (l m : List Bytes) : wire (l ++ m) = wire l ++ wire m := by
  simp [wire]

@[simp] theorem splitLines_crlf (rest : Bytes) :
    splitLines (crlf ++ rest) = [] :: splitLines rest := by
  simp [crlf, splitLines]

theorem splitLines_ne_nil (text : Bytes) : splitLines text ≠ [] := by
  fun_induction splitLines text with
  | case1 => simp
  | case2 => simp
  | case3 => simp
  | case4 b b' rest _ ih =>
    cases h : splitLines (b' :: rest) with
    | nil => exact absurd h ih
    | cons l ls => simp [consLine]

/-- What `OneLine` says about a text, byte by byte. -/
theorem oneLine_cons_cons {b b' : UInt8} {rest : Bytes} :
    OneLine (b :: b' :: rest) ↔ ¬ (b = 13 ∧ b' = 10) ∧ OneLine (b' :: rest) := by
  unfold OneLine
  rw [splitLines]
  split
  · next h => simp [h]
  · next h =>
    cases hs : splitLines (b' :: rest) with
    | nil => exact absurd hs (splitLines_ne_nil _)
    | cons l ls =>
      simp only [consLine, List.cons.injEq, true_and, h, not_false_eq_true]

/-- **The first CRLF ends the first line.** -/
theorem splitLines_line {line : Bytes} (h : OneLine line) (rest : Bytes) :
    splitLines (line ++ crlf ++ rest) = line :: splitLines rest := by
  induction line with
  | nil => simp
  | cons b line ih =>
    cases line with
    | nil => simp [crlf, splitLines, consLine]
    | cons b' line =>
      rw [oneLine_cons_cons] at h
      have hrest := ih h.2
      simp only [List.cons_append] at hrest ⊢
      rw [splitLines, if_neg h.1, hrest, consLine]

theorem splitLines_wire {lines : List Bytes} (h : ∀ line ∈ lines, OneLine line) (rest : Bytes) :
    splitLines (wire lines ++ rest) = lines ++ splitLines rest := by
  induction lines with
  | nil => simp
  | cons line lines ih =>
    rw [List.forall_mem_cons] at h
    rw [wire_cons, List.append_assoc, splitLines_line h.1, ih h.2, List.cons_append]

/-- The lines with their CRLFs are the text with one CRLF more. -/
theorem wire_splitLines (text : Bytes) : wire (splitLines text) = text ++ crlf := by
  fun_induction splitLines text with
  | case1 => rfl
  | case2 b => rfl
  | case3 b b' rest h ih =>
    rw [wire_cons, ih, h.1, h.2]
    rfl
  | case4 b b' rest _ ih =>
    cases hs : splitLines (b' :: rest) with
    | nil => exact absurd hs (splitLines_ne_nil _)
    | cons line lines =>
      rw [hs, wire_cons] at ih
      rw [consLine, wire_cons, List.cons_append, List.cons_append, ih]
      rfl

/-- A text that begins inside a line begins with the byte the line begins with. -/
theorem head_splitLines {b : UInt8} {rest line : Bytes} {lines : List Bytes}
    (h : splitLines (b :: rest) = line :: lines) (hne : line ≠ []) :
    ∃ line', line = b :: line' := by
  cases rest with
  | nil =>
    rw [splitLines, List.cons.injEq] at h
    exact ⟨[], h.1.symm⟩
  | cons b' rest =>
    rw [splitLines] at h
    split at h
    · rw [List.cons.injEq] at h
      exact absurd h.1.symm hne
    · cases hs : splitLines (b' :: rest) with
      | nil => exact absurd hs (splitLines_ne_nil _)
      | cons l ls =>
        rw [hs, consLine, List.cons.injEq] at h
        exact ⟨l, h.1.symm⟩

/-- **What is cut out between two CRLFs has none inside.** -/
theorem oneLine_of_mem_splitLines (text : Bytes) : ∀ line ∈ splitLines text, OneLine line := by
  fun_induction splitLines text with
  | case1 => exact List.forall_mem_singleton.mpr rfl
  | case2 b => exact List.forall_mem_singleton.mpr rfl
  | case3 b b' rest _ ih => exact List.forall_mem_cons.mpr ⟨rfl, ih⟩
  | case4 b b' rest hno ih =>
    cases hs : splitLines (b' :: rest) with
    | nil => exact absurd hs (splitLines_ne_nil _)
    | cons line lines =>
      rw [hs, List.forall_mem_cons] at ih
      refine List.forall_mem_cons.mpr ⟨?_, ih.2⟩
      cases line with
      | nil => rfl
      | cons a line =>
        -- the line goes on with the next byte of the text
        obtain ⟨_, hhead⟩ := head_splitLines hs (List.cons_ne_nil _ _)
        rw [List.cons.injEq] at hhead
        rw [oneLine_cons_cons, hhead.1]
        exact ⟨hno, hhead.1 ▸ ih.1⟩

/-- The beginning of a line is one line, and it stays one with the CR of its end. -/
theorem OneLine.of_begin {line text : Bytes} (h : OneLine line) (hp : text <+: line ++ [13]) :
    OneLine text := by
  induction text generalizing line with
  | nil => rfl
  | cons b text ih =>
    cases text with
    | nil => rfl
    | cons b' text =>
      cases line with
      | nil => simp at hp
      | cons a line =>
        rw [List.cons_append, List.cons_prefix_cons] at hp
        obtain ⟨rfl, hp⟩ := hp
        cases line with
        | nil =>
          obtain ⟨rfl, htext⟩ := List.cons_prefix_cons.mp hp
          rw [oneLine_cons_cons]
          exact ⟨by simp, ih (show OneLine [] from rfl) hp⟩
        | cons a' line =>
          rw [oneLine_cons_cons] at h
          have hhead := List.cons_prefix_cons.mp (by simpa using hp)
          rw [oneLine_cons_cons, hhead.1]
          exact ⟨h.1, by rw [← hhead.1]; exact ih h.2 hp⟩

/-! ## Parts of a stream -/

/-- What a reader that skips empty lines gets from a text. -/
def lineTexts (text : Bytes) : List Bytes := (splitLines text).filter (· ≠ [])

/-- `text` ends where a line ends, or right in front of the CRLF of a line. -/
def AtLineEnd (lines : List Bytes) (text : Bytes) : Prop :=
  ∃ done, done <+: lines ∧ (text = wire done ∨ text ++ crlf = wire done)

/-- Every part of the stream ends at a line end. -/
def WellCut (lines : List Bytes) (parts : List Bytes) : Prop :=
  ∀ first, first <+: parts → AtLineEnd lines first.flatten

variable {lines : List Bytes}

@[simp] theorem lineTexts_nil : lineTexts [] = [] := rfl

theorem lineTexts_oneLine {text : Bytes} (h : OneLine text) :
    lineTexts text = if text = [] then [] else [text] := by
  unfold lineTexts
  rw [h]
  split
  · next he => simp [he]
  · next he => simp [he]

@[simp] theorem lineTexts_crlf (rest : Bytes) : lineTexts (crlf ++ rest) = lineTexts rest := by
  simp [lineTexts]

theorem lineTexts_wire (h : ∀ line ∈ lines, OneLine line ∧ line ≠ []) (rest : Bytes) :
    lineTexts (wire lines ++ rest) = lines ++ lineTexts rest := by
  unfold lineTexts
  rw [splitLines_wire fun line hl => (h line hl).1, List.filter_append]
  congr 1
  rw [List.filter_eq_self]
  intro line hl
  simp [(h line hl).2]

/-- A text that ends right in front of a CRLF ends with the whole line. -/
theorem eq_of_append_crlf {text : Bytes} (h : text ++ crlf = wire lines) :
    ∃ done line, lines = done ++ [line] ∧ text = wire done ++ line := by
  rcases List.eq_nil_or_concat lines with rfl | ⟨done, line, rfl⟩
  · simp [crlf] at h
  · refine ⟨done, line, List.concat_eq_append, ?_⟩
    rw [List.concat_eq_append, wire_append, wire_cons, wire_nil, List.append_nil,
      ← List.append_assoc] at h
    exact List.append_cancel_right h

/-- **A part of the stream is a number of whole lines, and the beginning of the next one.** -/
theorem prefix_wire {text : Bytes} (h : text <+: wire lines) :
    ∃ done rest r, lines = done ++ rest ∧ text = wire done ++ r ∧
      (r = [] ∨ ∃ line more, rest = line :: more ∧ r <+: line ++ [13]) := by
  induction lines generalizing text with
  | nil => exact ⟨[], [], [], rfl, by simpa using h, Or.inl rfl⟩
  | cons line lines ih =>
    rw [wire_cons] at h
    by_cases hlen : text.length ≤ line.length + 1
    · refine ⟨[], line :: lines, text, rfl, rfl, Or.inr ⟨line, lines, rfl, ?_⟩⟩
      refine List.prefix_of_prefix_length_le h ?_ (by simpa using hlen)
      exact ⟨10 :: wire lines, by simp [crlf]⟩
    · have hfirst : line ++ crlf <+: text := by
        refine List.prefix_of_prefix_length_le (List.prefix_append ..) h ?_
        simp [crlf]
        omega
      obtain ⟨text, rfl⟩ := hfirst
      obtain ⟨done, rest, r, rfl, rfl, hr⟩ := ih ((List.prefix_append_right_inj _).mp h)
      exact ⟨line :: done, rest, r, rfl, by simp, hr⟩

/-- **A part ends at a line end exactly when the texts cut out of it are lines of the stream.** -/
theorem atLineEnd_iff {text : Bytes} (hl : ∀ line ∈ lines, OneLine line ∧ line ≠ [])
    (h : text <+: wire lines) : AtLineEnd lines text ↔ lineTexts text <+: lines := by
  constructor
  · rintro ⟨done, hdone, rfl | hcrlf⟩
    · have htexts := lineTexts_wire (fun line hm => hl line (hdone.subset hm)) []
      rw [List.append_nil, lineTexts_nil, List.append_nil] at htexts
      rwa [htexts]
    · obtain ⟨done, line, rfl, rfl⟩ := eq_of_append_crlf hcrlf
      have hmem := fun l hm => hl l (hdone.subset hm)
      rw [List.forall_mem_append, List.forall_mem_singleton] at hmem
      rw [lineTexts_wire hmem.1, lineTexts_oneLine hmem.2.1, if_neg hmem.2.2]
      exact hdone
  · intro htexts
    obtain ⟨done, rest, r, rfl, rfl, rfl | ⟨line, more, rfl, hr⟩⟩ := prefix_wire h
    · exact ⟨done, List.prefix_append .., Or.inl (by simp)⟩
    · rw [List.forall_mem_append, List.forall_mem_cons] at hl
      rw [lineTexts_wire hl.1, lineTexts_oneLine (hl.2.1.1.of_begin hr)] at htexts
      split at htexts
      · next he => exact ⟨done, List.prefix_append .., Or.inl (by simp [he])⟩
      · -- the rest is passed on, so it is the whole next line
        rw [List.prefix_append_right_inj, List.cons_prefix_cons] at htexts
        obtain ⟨rfl, -⟩ := htexts
        refine ⟨done ++ [r], ?_, Or.inr ?_⟩
        · exact (List.prefix_append_right_inj _).mpr ⟨more, rfl⟩
        · simp [wire_append]

/-- No more texts come out of a part than there are lines in the stream. -/
theorem length_lineTexts_le {text : Bytes} (hl : ∀ line ∈ lines, OneLine line ∧ line ≠ [])
    (h : text <+: wire lines) : (lineTexts text).length ≤ lines.length := by
  obtain ⟨done, rest, r, rfl, rfl, rfl | ⟨line, more, rfl, hr⟩⟩ := prefix_wire h
  · rw [lineTexts_wire fun line hm => hl line (List.mem_append_left _ hm)]
    simp
  · rw [List.forall_mem_append, List.forall_mem_cons] at hl
    rw [lineTexts_wire hl.1, lineTexts_oneLine (hl.2.1.1.of_begin hr)]
    split <;> simp

/-- The next part behind a line end adds its own lines, unless it is the CR of the CRLF alone. -/
theorem lineTexts_append {text part : Bytes} (hl : ∀ line ∈ lines, OneLine line ∧ line ≠ [])
    (h : text ++ part <+: wire lines) (hend : AtLineEnd lines text) :
    lineTexts (text ++ part) = lineTexts text ++ lineTexts part ∨
      (part = [13] ∧ ¬ AtLineEnd lines (text ++ part)) := by
  obtain ⟨done, hdone, rfl | hcrlf⟩ := hend
  · have hmem := fun line hm => hl line (hdone.subset hm)
    have htexts := lineTexts_wire hmem []
    rw [List.append_nil, lineTexts_nil, List.append_nil] at htexts
    exact Or.inl (by rw [lineTexts_wire hmem, htexts])
  · obtain ⟨done, line, rfl, rfl⟩ := eq_of_append_crlf hcrlf
    obtain ⟨rest, rfl⟩ := hdone
    have hpart : part <+: crlf ++ wire rest := by
      rw [wire_append, wire_append, wire_cons, wire_nil, List.append_nil, List.append_assoc,
        List.append_assoc, List.append_assoc, List.prefix_append_right_inj,
        List.prefix_append_right_inj] at h
      exact h
    have hmem := hl
    rw [List.forall_mem_append, List.forall_mem_append, List.forall_mem_singleton] at hmem
    obtain ⟨⟨hdone, hline⟩, -⟩ := hmem
    match part, hpart with
    | [], _ => simp
    | [b], hb =>
      have hb : b = 13 := (List.cons_prefix_cons.mp hb).1
      subst hb
      refine Or.inr ⟨rfl, ?_⟩
      have hcr : OneLine (line ++ [13]) := hline.1.of_begin (List.prefix_refl _)
      rw [atLineEnd_iff hl h, List.append_assoc, lineTexts_wire hdone, lineTexts_oneLine hcr,
        if_neg (by simp), List.append_assoc, List.prefix_append_right_inj, List.singleton_append,
        List.cons_prefix_cons]
      simp
    | b :: b' :: part, hb =>
      obtain ⟨hb, hb'⟩ := List.cons_prefix_cons.mp hb
      obtain ⟨hb', -⟩ := List.cons_prefix_cons.mp hb'
      subst hb hb'
      refine Or.inl ?_
      have h1 : wire done ++ line ++ 13 :: 10 :: part = wire done ++ (line ++ crlf ++ part) := by
        simp [crlf]
      have h2 : lineTexts (line ++ crlf ++ part) = line :: lineTexts part := by
        rw [show line ++ crlf ++ part = wire [line] ++ part by simp,
          lineTexts_wire (by simpa using hline), List.singleton_append]
      have h3 : lineTexts (13 :: 10 :: part) = lineTexts part := lineTexts_crlf part
      rw [h1, h3, lineTexts_wire hdone, lineTexts_wire hdone, h2, lineTexts_oneLine hline.1,
        if_neg hline.2, List.append_assoc, List.singleton_append]

theorem wellCut_concat {parts : List Bytes} {part : Bytes} :
    WellCut lines (parts ++ [part]) ↔
      WellCut lines parts ∧ AtLineEnd lines (parts.flatten ++ part) := by
  unfold WellCut
  simp only [List.prefix_concat_iff]
  constructor
  · intro h
    exact ⟨fun first hf => h first (Or.inr hf), by simpa using h _ (Or.inl rfl)⟩
  · rintro ⟨h, hlast⟩ first (rfl | hf)
    · simpa using hlast
    · exact h first hf

/-- **Parts that are cut well are read like the stream they are parts of.** -/
theorem lineTexts_parts {parts : List Bytes} (hl : ∀ line ∈ lines, OneLine line ∧ line ≠ [])
    (h : parts.flatten <+: wire lines) (hcut : WellCut lines parts) :
    parts.flatMap lineTexts = lineTexts parts.flatten := by
  induction parts using List.reverseRecOn with
  | nil => simp
  | append_singleton parts part ih =>
    rw [wellCut_concat] at hcut
    simp only [List.flatten_append, List.flatten_singleton, List.flatMap_append,
      List.flatMap_singleton] at h ⊢
    have hfirst := hcut.1 parts (List.prefix_refl _)
    rw [ih ((List.prefix_append ..).trans h) hcut.1]
    rcases lineTexts_append hl h hfirst with heq | ⟨-, hnot⟩
    · exact heq.symm
    · exact absurd hcut.2 hnot

/-- When the parts are read as lines of the stream, they are cut well. -/
theorem wellCut_of_begin {parts : List Bytes} (hl : ∀ line ∈ lines, OneLine line ∧ line ≠ [])
    (hcr : [13] ∉ lines) (h : parts.flatten <+: wire lines)
    (hread : parts.flatMap lineTexts <+: lines) : WellCut lines parts := by
  induction parts using List.reverseRecOn with
  | nil => intro first hf; exact ⟨[], List.nil_prefix, by simp [List.prefix_nil.mp hf]⟩
  | append_singleton parts part ih =>
    simp only [List.flatten_append, List.flatten_singleton, List.flatMap_append,
      List.flatMap_singleton] at h hread
    have hbefore := (List.prefix_append ..).trans h
    have hcut := ih hbefore ((List.prefix_append ..).trans hread)
    refine wellCut_concat.mpr ⟨hcut, ?_⟩
    rw [lineTexts_parts hl hbefore hcut] at hread
    rcases lineTexts_append hl h (hcut parts (List.prefix_refl _)) with heq | ⟨rfl, -⟩
    · rw [atLineEnd_iff hl h, heq]
      exact hread
    · -- the lone CR would have to be a line of its own
      refine absurd (hread.subset ?_) hcr
      simp [lineTexts, splitLines]

/-! ## Lines with a NUL inside -/

/-- The lines that a C string shows of a buffer: a NUL cuts off its line and all that follow. -/
def shownLines : List Bytes → List Bytes
  | [] => [[]]
  | line :: lines =>
    if 0 ∈ line then [line.takeWhile fun b => b != 0] else line :: shownLines lines

theorem shownLines_length_le {lines : List Bytes} (h : ∃ line ∈ lines, 0 ∈ line)
    (more : List Bytes) : (shownLines (lines ++ more)).length ≤ lines.length := by
  induction lines with
  | nil => simp at h
  | cons line lines ih =>
    rw [List.cons_append, shownLines]
    split
    · simp
    · next hno =>
      have hrest : ∃ line ∈ lines, 0 ∈ line := by simpa [hno] using h
      simpa using ih hrest

theorem shownLines_append {lines : List Bytes} (h : ∀ line ∈ lines, 0 ∉ line)
    (more : List Bytes) : shownLines (lines ++ more) = lines ++ shownLines more := by
  induction lines with
  | nil => rfl
  | cons line lines ih =>
    rw [List.forall_mem_cons] at h
    rw [List.cons_append, shownLines, if_neg h.1, ih h.2, List.cons_append]

/-- **What is cut out of a buffer** that holds these lines. -/
theorem splitLines_ofBytes_wire {lines : List Bytes} (h : ∀ line ∈ lines, OneLine line) :
    splitLines (CString.ofBytes (wire lines)).bytes = shownLines lines := by
  induction lines with
  | nil => rfl
  | cons line lines ih =>
    rw [List.forall_mem_cons] at h
    rw [CString.ofBytes_bytes, wire_cons, List.append_assoc, shownLines]
    split
    · next hnul =>
      have hcut : (line ++ (crlf ++ wire lines)).takeWhile (fun b => b != 0)
          = line.takeWhile fun b => b != 0 := by
        rw [List.takeWhile_append, if_neg]
        intro hlen
        have hall := List.takeWhile_eq_self_iff.mp
          ((List.takeWhile_prefix _).eq_of_length hlen)
        simpa using hall 0 hnul
      rw [hcut]
      exact h.1.of_begin ((List.takeWhile_prefix _).trans (List.prefix_append ..))
    · next hno =>
      have hline : ∀ b ∈ line, (b != 0) = true := fun b hb => by
        rw [bne_iff_ne]
        exact fun h0 => hno (h0 ▸ hb)
      rw [List.takeWhile_append_of_pos hline, List.takeWhile_append_of_pos (by simp [crlf]),
        ← List.append_assoc, splitLines_line h.1, ← CString.ofBytes_bytes, ih h.2]

/-! ## Searching -/

/-- A search for the end of a run of bytes stops where `takeWhile` does. -/
theorem findFrom_takeWhile (p : UInt8 → Bool) (front text post : Bytes) :
    (findFrom (fun k => !p (byteAt (front ++ text ++ post) k)) front.length
        (front.length + text.length)).getD (front.length + text.length)
      = front.length + (text.takeWhile p).length := by
  induction text generalizing front with
  | nil => simp [findFrom]
  | cons b text ih =>
    have hb : byteAt (front ++ b :: text ++ post) front.length = b := by
      rw [List.append_assoc]
      exact byteAt_append_right front (b :: text ++ post) 0
    rw [findFrom_step (by simp), hb]
    by_cases hp : p b = true
    · have hrest := ih (front ++ [b])
      simp only [List.length_append, List.length_singleton, List.append_assoc,
        List.cons_append, List.nil_append] at hrest
      rw [List.takeWhile_cons_of_pos hp]
      simp only [hp, Bool.not_true, Bool.false_eq_true, if_false, List.length_cons,
        List.append_assoc, List.cons_append]
      rw [show front.length + (text.length + 1) = front.length + 1 + text.length by omega, hrest]
      omega
    · rw [List.takeWhile_cons_of_neg hp]
      simp [hp]

/-! ## Numbers -/

/-- `isspace`. -/
def isSpace (b : UInt8) : Bool := b == 32 || (decide (9 ≤ b) && decide (b ≤ 13))

/-- `isdigit`. -/
def isDecDigit (b : UInt8) : Bool := decide (48 ≤ b) && decide (b ≤ 57)

/-- The number that a run of digits stands for. -/
def decValue (digits : Bytes) : Nat := digits.foldl (fun v b => v * 10 + (b.toNat - 48)) 0

/-- The value as a `long`: `strtol` saturates at both ends. -/
def clampLong (v : Int) : Int := max (-2 ^ 31) (min v (2 ^ 31 - 1))

/-- The sign in front of a number, and what follows it. -/
def sign : Bytes → Int × Bytes
  | 45 :: rest => (-1, rest)
  | 43 :: rest => (1, rest)
  | text => (1, text)

/--
`strtol(text, &end, 10)`: the value and the text at `end`, `none` when there is no number. C
then returns 0 and leaves `end` at the start.
-/
def strtol (text : Bytes) : Option (Int × Bytes) :=
  let (sgn, rest) := sign (text.dropWhile isSpace)
  let digits := rest.takeWhile isDecDigit
  if digits = [] then none
  else some (clampLong (sgn * decValue digits), rest.drop digits.length)

/-- The value of `strtol` or `atoi`, without a look at where the number ends. -/
def strtolValue (text : Bytes) : Int := ((strtol text).map Prod.fst).getD 0

/-- `%d`, `%u` and `%lu`: a number in decimal digits. -/
def decText (n : Nat) : Bytes := (Nat.toDigits 10 n).map fun c => UInt8.ofNat c.toNat

theorem digitChar_byte : ∀ d < 10, UInt8.ofNat d.digitChar.toNat = UInt8.ofNat (48 + d) := by
  decide

theorem decText_of_lt {n : Nat} (h : n < 10) : decText n = [UInt8.ofNat (48 + n)] := by
  rw [decText, Nat.toDigits_of_lt_base h, List.map_singleton, digitChar_byte n h]

theorem decText_of_le {n : Nat} (h : 10 ≤ n) :
    decText n = decText (n / 10) ++ [UInt8.ofNat (48 + n % 10)] := by
  rw [decText, Nat.toDigits_of_base_le (by decide) h, List.map_append, List.map_singleton,
    digitChar_byte _ (Nat.mod_lt n (by decide))]
  rfl

theorem decText_ne_nil (n : Nat) : decText n ≠ [] := by
  rcases Nat.lt_or_ge n 10 with h | h
  · rw [decText_of_lt h]
    exact List.cons_ne_nil _ _
  · rw [decText_of_le h]
    exact List.concat_ne_nil _ _

theorem length_decText_le {n k : Nat} (hk : 0 < k) (hn : n < 10 ^ k) : (decText n).length ≤ k := by
  unfold decText
  rw [List.length_map]
  exact (Nat.length_toDigits_le_iff (by decide) hk).mpr hn

theorem decValue_concat (digits : Bytes) (b : UInt8) :
    decValue (digits ++ [b]) = decValue digits * 10 + (b.toNat - 48) := by
  simp [decValue]

/-- **The digits of a number are digits, and stand for the number.** -/
theorem decText_spec (n : Nat) :
    (∀ b ∈ decText n, isDecDigit b = true) ∧ decValue (decText n) = n := by
  have hdigit : ∀ d < 10, isDecDigit (UInt8.ofNat (48 + d)) = true ∧
      (UInt8.ofNat (48 + d)).toNat - 48 = d := by decide
  induction n using Nat.strong_induction_on with
  | h n ih =>
    rcases Nat.lt_or_ge n 10 with h | h
    · rw [decText_of_lt h]
      simpa [decValue] using hdigit n h
    · obtain ⟨hlast, hvalue⟩ := hdigit (n % 10) (by omega)
      obtain ⟨hfront, hrest⟩ := ih (n / 10) (by omega)
      rw [decText_of_le h, List.forall_mem_append, List.forall_mem_singleton, decValue_concat,
        hrest, hvalue]
      exact ⟨⟨hfront, hlast⟩, by omega⟩

/-- A number is below the power of ten that its digits allow. -/
theorem decValue_lt {digits : Bytes} (hall : ∀ b ∈ digits, isDecDigit b = true) :
    decValue digits < 10 ^ digits.length := by
  induction digits using List.reverseRecOn with
  | nil => decide
  | append_singleton digits b ih =>
    rw [List.forall_mem_append, List.forall_mem_singleton] at hall
    have hb := hall.2
    simp only [isDecDigit, Bool.and_eq_true, decide_eq_true_eq, UInt8.le_iff_toNat_le,
      UInt8.reduceToNat] at hb
    have hrest := ih hall.1
    rw [decValue_concat, List.length_append, List.length_singleton, Nat.pow_succ]
    omega

/-- Digits that do not begin with a zero stand for a positive number. -/
theorem decValue_pos {digits : Bytes} (hall : ∀ b ∈ digits, isDecDigit b = true)
    (hne : digits ≠ []) (hzero : digits.head? ≠ some 48) : 0 < decValue digits := by
  induction digits using List.reverseRecOn with
  | nil => exact absurd rfl hne
  | append_singleton digits b ih =>
    rw [List.forall_mem_append, List.forall_mem_singleton] at hall
    rw [decValue_concat]
    cases digits with
    | nil =>
      have hb := hall.2
      simp only [isDecDigit, Bool.and_eq_true, decide_eq_true_eq, UInt8.le_iff_toNat_le,
        UInt8.reduceToNat] at hb
      have hb0 : b.toNat ≠ 48 := by
        intro h
        apply hzero
        rw [List.nil_append, List.head?_cons, Option.some.injEq, ← UInt8.toNat_inj]
        exact h
      omega
    | cons b' digits =>
      have hpos := ih hall.1 (by simp) (by simpa using hzero)
      omega

/-- **A number has one text without leading zeros.** -/
theorem decText_decValue {digits : Bytes} (hall : ∀ b ∈ digits, isDecDigit b = true)
    (hne : digits ≠ []) (hzero : ∀ rest, digits = 48 :: rest → rest = []) :
    decText (decValue digits) = digits := by
  induction digits using List.reverseRecOn with
  | nil => exact absurd rfl hne
  | append_singleton digits b ih =>
    rw [List.forall_mem_append, List.forall_mem_singleton] at hall
    have hb := hall.2
    simp only [isDecDigit, Bool.and_eq_true, decide_eq_true_eq, UInt8.le_iff_toNat_le,
      UInt8.reduceToNat] at hb
    have hlast : UInt8.ofNat (48 + (b.toNat - 48)) = b := by
      rw [Nat.add_sub_cancel' hb.1, UInt8.ofNat_toNat]
    rw [decValue_concat]
    by_cases hnil : digits = []
    · subst hnil
      rw [decText_of_lt (by simp [decValue]; omega)]
      simp [decValue, hlast]
    · -- with another digit in front, the number in front is positive
      have hhead : digits.head? ≠ some 48 := by
        intro h
        obtain ⟨rest, rfl⟩ := List.head?_eq_some_iff.mp h
        have := hzero (rest ++ [b]) rfl
        simp at this
      have hpos := decValue_pos hall.1 hnil hhead
      rw [decText_of_le (by omega), show (decValue digits * 10 + (b.toNat - 48)) / 10
        = decValue digits by omega, show (decValue digits * 10 + (b.toNat - 48)) % 10
        = b.toNat - 48 by omega, hlast, ih hall.1 hnil]
      intro rest h
      rw [h] at hhead
      simp at hhead

/-- A digit is neither a blank nor a sign. -/
theorem isSpace_of_isDecDigit {b : UInt8} (h : isDecDigit b = true) : isSpace b = false := by
  simp only [isDecDigit, Bool.and_eq_true, decide_eq_true_eq, UInt8.le_iff_toNat_le,
    UInt8.reduceToNat] at h
  simp only [isSpace, Bool.or_eq_false_iff, Bool.and_eq_false_iff, decide_eq_false_iff_not,
    beq_eq_false_iff_ne, ne_eq, UInt8.le_iff_toNat_le, ← UInt8.toNat_inj, UInt8.reduceToNat]
  omega

theorem sign_of_isDecDigit {b : UInt8} (h : isDecDigit b = true) (rest : Bytes) :
    sign (b :: rest) = (1, b :: rest) := by
  unfold sign
  split
  · next heq => exact absurd ((List.cons.inj heq).1 ▸ h) (by decide)
  · next heq => exact absurd ((List.cons.inj heq).1 ▸ h) (by decide)
  · rfl

/-- **`strtol` reads a number up to the first byte that is no digit.** -/
theorem strtol_decText {n : Nat} (hn : n < 2 ^ 31) {rest : Bytes}
    (hrest : ∀ b ∈ rest.head?, isDecDigit b = false) :
    strtol (decText n ++ rest) = some ((n : Int), rest) := by
  obtain ⟨hdigits, hvalue⟩ := decText_spec n
  have hrun : (decText n ++ rest).takeWhile isDecDigit = decText n := by
    rw [List.takeWhile_append_of_pos hdigits]
    cases rest with
    | nil => simp
    | cons b rest => rw [List.takeWhile_cons_of_neg (by simpa using hrest b), List.append_nil]
  obtain ⟨b, digits, hcons⟩ := List.exists_cons_of_ne_nil (decText_ne_nil n)
  have hb : isDecDigit b = true := hdigits b (by simp [hcons])
  have hsign : sign ((decText n ++ rest).dropWhile isSpace) = (1, decText n ++ rest) := by
    rw [hcons, List.cons_append, List.dropWhile_cons_of_neg (by simp [isSpace_of_isDecDigit hb]),
      sign_of_isDecDigit hb]
  unfold strtol
  rw [hsign]
  dsimp only
  rw [hrun, if_neg (decText_ne_nil n), hvalue, List.drop_left, clampLong]
  congr 2
  omega

/-- `strchr(text, c)`: the text behind the first `c`. -/
def strchrBehind (c : UInt8) (text : Bytes) : Option Bytes :=
  match text.dropWhile (· != c) with
  | [] => none
  | _ :: rest => some rest

end UniNet.Infra
