import UniNet.Http.Parser
import UniNet.Infra.Text

/-!
# The header lines and the length they announce

The parser scans a buffer by index, with a line splitter, a comparison and a digit loop of its
own. Here a header block is a list of lines instead, and what it says about the length of the
body is read off the lines.

* `LengthLine` — a line that announces a length, and the digits it has
* `contentLength_lines` — the scan of a block finds the digits of the last such line
* `contentLength_terminated` — it does so behind the NUL that ends the URL, unless that NUL has
  overwritten a byte of the CRLF of the request line; the scan then misses the first header line
-/

namespace UniNet.Http

open Infra

/-! ## What a line says -/

/--
A line that announces a length: the name of the field in any case, spaces and tabs, and a run
of digits that is as long as it can be.
-/
def LengthLine (line digits : Bytes) : Prop :=
  ∃ name blanks rest, line = name ++ (blanks ++ (digits ++ rest)) ∧
    strcasecmpEq name clName = true ∧ (∀ b ∈ blanks, isBlank b = true) ∧
    digits ≠ [] ∧ (∀ b ∈ digits, isDecDigit b = true) ∧ ∀ b ∈ rest.head?, isDecDigit b = false

/-- The digits of a line, when it announces a length. -/
def lengthDigits (line : Bytes) : Option Bytes :=
  if strcasecmpEq (line.take clName.length) clName = true ∧
      ((line.drop clName.length).dropWhile isBlank).takeWhile isDecDigit ≠ [] then
    some (((line.drop clName.length).dropWhile isBlank).takeWhile isDecDigit)
  else none

/-- The digits of the last line that announces a length. -/
def lastDigits (lines : List Bytes) : Option Bytes := (lines.filterMap lengthDigits).getLast?

/-- The lines of a header block in front of its blank line: the request line comes first. -/
def blockLines (block : Bytes) : List Bytes := splitLines (block.take (block.length - 4))

/-- The header lines, between the request line and the blank line. -/
def fieldLines (block : Bytes) : List Bytes := (blockLines block).tail

theorem isBlank_of_isDecDigit {b : UInt8} (h : isDecDigit b = true) : isBlank b = false := by
  unfold isDecDigit at h
  unfold isBlank
  simp only [Bool.and_eq_true, decide_eq_true_eq] at h
  rw [Bool.or_eq_false_iff, beq_eq_false_iff_ne, beq_eq_false_iff_ne]
  constructor
  · rintro rfl
    exact absurd h.1 (by decide)
  · rintro rfl
    exact absurd h.1 (by decide)

theorem dropWhile_blanks {blanks text : Bytes} (hb : ∀ b ∈ blanks, isBlank b = true)
    (ht : ∀ b ∈ text.head?, isBlank b = false) : (blanks ++ text).dropWhile isBlank = text := by
  rw [List.dropWhile_append_of_pos hb]
  cases text with
  | nil => rfl
  | cons b text => rw [List.dropWhile_cons_of_neg (by simp [ht b (by simp)])]

theorem takeWhile_digits {digits rest : Bytes} (hd : ∀ b ∈ digits, isDecDigit b = true)
    (hr : ∀ b ∈ rest.head?, isDecDigit b = false) :
    (digits ++ rest).takeWhile isDecDigit = digits := by
  rw [List.takeWhile_append_of_pos hd]
  cases rest with
  | nil => simp
  | cons b rest => rw [List.takeWhile_cons_of_neg (by simp [hr b (by simp)]), List.append_nil]

theorem head?_dropWhile_takeWhile (text : Bytes) :
    ∀ b ∈ (text.dropWhile isDecDigit).head?, isDecDigit b = false := by
  intro b hb
  have h := List.head?_dropWhile_not isDecDigit text
  rw [Option.mem_def.mp hb] at h
  exact h

/-- **`lengthDigits` decides `LengthLine`.** -/
theorem lengthDigits_eq_some {line digits : Bytes} :
    lengthDigits line = some digits ↔ LengthLine line digits := by
  constructor
  · intro h
    unfold lengthDigits at h
    split at h
    · next hc =>
      rw [Option.some.injEq] at h
      rw [h] at hc
      refine ⟨line.take clName.length, (line.drop clName.length).takeWhile isBlank,
        ((line.drop clName.length).dropWhile isBlank).dropWhile isDecDigit, ?_, hc.1,
        fun b hb => List.mem_takeWhile_imp hb, hc.2, ?_, head?_dropWhile_takeWhile _⟩
      · rw [← h, List.takeWhile_append_dropWhile, List.takeWhile_append_dropWhile,
          List.take_append_drop]
      · rw [← h]
        exact fun b hb => List.mem_takeWhile_imp hb
    · cases h
  · rintro ⟨name, blanks, rest, rfl, hname, hblanks, hne, hdigits, hrest⟩
    have hlen : clName.length = name.length := by
      unfold strcasecmpEq at hname
      have := congrArg List.length (beq_iff_eq.mp hname)
      rw [List.length_map, List.length_map] at this
      exact this.symm
    have hhead : ∀ b ∈ (digits ++ rest).head?, isBlank b = false := by
      cases digits with
      | nil => exact absurd rfl hne
      | cons d digits =>
        intro b hb
        rw [List.cons_append, List.head?_cons, Option.mem_some_iff] at hb
        exact hb ▸ isBlank_of_isDecDigit (hdigits d (List.mem_cons_self ..))
    unfold lengthDigits
    rw [hlen, List.take_left, List.drop_left, dropWhile_blanks hblanks hhead,
      takeWhile_digits hdigits hrest, if_pos ⟨hname, hne⟩]

theorem lastDigits_cons (line : Bytes) (lines : List Bytes) :
    lastDigits (line :: lines) = (lastDigits lines).or (lengthDigits line) := by
  unfold lastDigits
  cases h : lengthDigits line with
  | none => rw [List.filterMap_cons_none h, Option.or_none]
  | some ds =>
    rw [List.filterMap_cons_some h, List.getLast?_cons]
    cases (lines.filterMap lengthDigits).getLast? <;> rfl

theorem lastDigits_isSome {lines : List Bytes} :
    (lastDigits lines).isSome = true ↔ ∃ line ∈ lines, ∃ digits, LengthLine line digits := by
  unfold lastDigits
  rw [List.getLast?_isSome, ne_eq, List.filterMap_eq_nil_iff]
  simp only [not_forall, ← ne_eq, Option.ne_none_iff_exists', lengthDigits_eq_some, exists_prop]

/-- No line behind the last one with digits has a say, and none in front of it. -/
theorem lastDigits_eq_some {before after : List Bytes} {line digits : Bytes}
    (h : LengthLine line digits) (hafter : ∀ l ∈ after, ∀ ds, ¬ LengthLine l ds) :
    lastDigits (before ++ line :: after) = some digits := by
  have hnone : after.filterMap lengthDigits = [] := by
    rw [List.filterMap_eq_nil_iff]
    intro l hl
    rw [Option.eq_none_iff_forall_ne_some]
    exact fun ds hds => hafter l hl ds (lengthDigits_eq_some.mp hds)
  unfold lastDigits
  rw [List.filterMap_append, List.filterMap_cons_some (lengthDigits_eq_some.mpr h), hnone,
    List.getLast?_append_of_ne_nil _ (by simp), List.getLast?_singleton]

/-! ## The lines in the buffer -/

section

variable {front line post : Bytes}

theorem crlfAt_append_right (front text : Bytes) (i : Nat) :
    crlfAt (front ++ text) (front.length + i) = crlfAt text i := by
  unfold crlfAt
  rw [byteAt_append_right, Nat.add_assoc, byteAt_append_right]

theorem crlfAt_cons_succ (b : UInt8) (text : Bytes) (i : Nat) :
    crlfAt (b :: text) (i + 1) = crlfAt text i := rfl

/-- There is no CRLF inside a line, not even across its end. -/
theorem crlfAt_oneLine {line : Bytes} (h : OneLine line) (post : Bytes) :
    ∀ i, i < line.length → crlfAt (line ++ (crlf ++ post)) i = false := by
  induction line with
  | nil => intro i hi; cases hi
  | cons b line ih =>
    intro i hi
    cases line with
    | nil =>
      obtain rfl : i = 0 := by simpa using hi
      simp [crlfAt, byteAt, crlf]
    | cons b' line =>
      rw [oneLine_cons_cons] at h
      cases i with
      | zero =>
        unfold crlfAt
        rw [Bool.and_eq_false_iff, beq_eq_false_iff_ne, beq_eq_false_iff_ne]
        exact not_and_or.mp h.1
      | succ i => exact ih h.2 i (by simpa using hi)

/-- **A text is one line when no CRLF is found in it.** -/
theorem oneLine_iff_crlfAt {text : Bytes} :
    OneLine text ↔ ∀ i, i + 1 < text.length → crlfAt text i = false := by
  constructor
  · intro h i hi
    have := crlfAt_oneLine h [] i (by omega)
    rwa [crlfAt_congr (n := text.length) (fun j hj => byteAt_append_left hj) hi] at this
  · intro h
    induction text with
    | nil => rfl
    | cons b text ih =>
      cases text with
      | nil => rfl
      | cons b' text =>
        rw [oneLine_cons_cons]
        constructor
        · have h0 := h 0 (by simp)
          rintro ⟨rfl, rfl⟩
          cases h0
        · refine ih fun i hi => ?_
          have := h (i + 1) (by simpa using hi)
          rwa [crlfAt_cons_succ] at this

/-- A NUL does not make a CRLF. -/
theorem crlfAt_set {text : Bytes} {i j : Nat} (hi : i < text.length) (h : crlfAt text j = false) :
    crlfAt (text.set i 0) j = false := by
  rw [← Bool.not_eq_true, crlfAt_eq_true] at h ⊢
  rw [byteAt_set 0 hi, byteAt_set 0 hi]
  rintro ⟨h1, h2⟩
  split at h1
  · exact absurd h1 (by decide)
  · split at h2
    · exact absurd h2 (by decide)
    · exact h ⟨h1, h2⟩

theorem oneLine_set {text : Bytes} {i : Nat} (h : OneLine text) : OneLine (text.set i 0) := by
  by_cases hi : i < text.length
  · rw [oneLine_iff_crlfAt, List.length_set] at *
    exact fun j hj => crlfAt_set hi (h j hj)
  · rwa [List.set_eq_of_length_le (by omega)]

/-- A NUL in the CRLF between two lines joins them. -/
theorem oneLine_joined {line line' : Bytes} {i : Nat} (h : OneLine line) (h' : OneLine line')
    (h1 : line.length ≤ i) (h2 : i < line.length + 2) :
    OneLine ((line ++ (crlf ++ line')).set i 0) := by
  have hlen : (line ++ (crlf ++ line')).length = line.length + 2 + line'.length := by
    simp [crlf]
    omega
  rw [oneLine_iff_crlfAt]
  intro j hj
  rw [List.length_set] at hj
  have hset := fun k => byteAt_set (l := line ++ (crlf ++ line')) (j := k) 0 (show i < _ by omega)
  by_cases hhit : j = i ∨ j + 1 = i
  · -- the NUL is one of the two bytes
    rw [← Bool.not_eq_true, crlfAt_eq_true, hset, hset]
    rcases hhit with hji | hji
    · rw [if_pos hji]
      exact fun h => absurd h.1 (by decide)
    · rw [if_pos hji]
      exact fun h => absurd h.2 (by decide)
  · refine crlfAt_set (by omega) ?_
    by_cases hj1 : j < line.length
    · exact crlfAt_oneLine h line' j hj1
    · obtain ⟨k, rfl⟩ : ∃ k, j = line.length + k := ⟨j - line.length, by omega⟩
      rw [crlfAt_append_right]
      by_cases hk : k = 1
      · rw [hk, ← Bool.not_eq_true, crlfAt_eq_true]
        exact fun h => absurd h.1 (by simp [byteAt, crlf])
      · obtain ⟨m, rfl⟩ : ∃ m, k = crlf.length + m := ⟨k - 2, by simp [crlf]; omega⟩
        rw [crlfAt_append_right]
        exact oneLine_iff_crlfAt.mp h' m (by simp [crlf] at hj; omega)

theorem crlfAt_line (front line post : Bytes) :
    crlfAt (front ++ (line ++ (crlf ++ post))) (front.length + line.length) = true := by
  rw [crlfAt_append_right]
  exact crlfAt_append_right line (crlf ++ post) 0

/-- The first CRLF from the start of a line on is the one that ends it. -/
theorem findFrom_crlfAt (h : OneLine line) {hi : Nat}
    (hhi : front.length + line.length < hi) :
    findFrom (crlfAt (front ++ (line ++ (crlf ++ post)))) front.length hi
      = some (front.length + line.length) := by
  refine findFrom_eq_some.mpr ⟨⟨by omega, hhi⟩, crlfAt_line .., fun j h1 h2 => ?_⟩
  obtain ⟨i, rfl⟩ : ∃ i, j = front.length + i := ⟨j - front.length, by omega⟩
  rw [crlfAt_append_right]
  exact crlfAt_oneLine h post i (by omega)

theorem nameMatch_append (hlen : clName.length ≤ line.length) (post : Bytes) :
    nameMatch (front ++ (line ++ post)) front.length
      = strcasecmpEq (line.take clName.length) clName := by
  have hat : ∀ i, i < clName.length → byteAt (front ++ (line ++ post)) (front.length + i)
      = byteAt (line.take clName.length) i := by
    intro i hi
    rw [byteAt_append_right, byteAt_append_left (by omega), byteAt_take hi]
  have hmin : (line.take clName.length).length = clName.length := by
    rw [List.length_take, Nat.min_eq_left hlen]
  rw [Bool.eq_iff_iff, nameMatch, List.all_eq_true, strcasecmpEq, beq_iff_eq]
  simp only [List.mem_range, beq_iff_eq]
  constructor
  · intro h
    refine List.ext_getElem (by rw [List.length_map, List.length_map, hmin]) fun i h1 h2 => ?_
    rw [List.length_map] at h1 h2
    have hi := h i h2
    rw [hat i h2] at hi
    rw [List.getElem_map, List.getElem_map]
    simpa only [byteAt, List.getD_eq_getElem _ _ h1, List.getD_eq_getElem _ _ h2] using hi
  · intro h i hi
    rw [hat i hi]
    have hget := congrArg (fun l => l[i]?) h
    simp only [List.getElem?_map] at hget
    rw [List.getElem?_eq_getElem (by omega), List.getElem?_eq_getElem hi] at hget
    simpa only [byteAt, List.getD_eq_getElem _ _ hi,
      List.getD_eq_getElem _ _ (show i < (line.take clName.length).length by omega),
      Option.map_some, Option.some.injEq] using hget

/-- The digit loop, from an index on that lies in front of `text`. -/
theorem digitRun_append (front text post : Bytes) :
    digitRun (front ++ (text ++ post)) front.length (front.length + text.length)
      = if text.takeWhile isDecDigit ≠ [] then some (text.takeWhile isDecDigit) else none := by
  have hend : digitsEnd (front ++ (text ++ post)) front.length (front.length + text.length)
      = front.length + (text.takeWhile isDecDigit).length := by
    rw [← List.append_assoc]
    exact findFrom_takeWhile isDecDigit front text post
  unfold digitRun
  rw [hend, List.drop_left, Nat.add_sub_cancel_left]
  by_cases hd : text.takeWhile isDecDigit = []
  · rw [if_neg (by simp [hd]), if_neg (by simp [hd])]
  · have hpos := List.length_pos_iff_ne_nil.mpr hd
    have htake : (text ++ post).take (text.takeWhile isDecDigit).length
        = text.takeWhile isDecDigit := by
      rw [List.take_append_of_le_length (List.takeWhile_prefix isDecDigit).length_le]
      exact (List.prefix_iff_eq_take.mp (List.takeWhile_prefix isDecDigit)).symm
    rw [if_pos (by omega), if_pos hd, htake]

/-- **What the scan reads off a line of the buffer is what the line says.** -/
theorem lineDigits_append (front line post : Bytes) :
    lineDigits (front ++ (line ++ post)) front.length (front.length + line.length)
      = lengthDigits line := by
  unfold lineDigits
  rw [Nat.add_sub_cancel_left]
  by_cases hlen : clName.length ≤ line.length
  · -- the blanks and the digits are searched for behind the name
    generalize hname : line.take clName.length = name
    generalize htext : line.drop clName.length = text
    have hline : line = name ++ text := by rw [← hname, ← htext, List.take_append_drop]
    have hnlen : name.length = clName.length := by
      rw [← hname, List.length_take, Nat.min_eq_left hlen]
    have hskip : skipBlanks (front ++ (line ++ post)) (front.length + clName.length)
        (front.length + line.length) = (front ++ name ++ text.takeWhile isBlank).length := by
      have h := findFrom_takeWhile isBlank (front ++ name) text post
      simp only [List.length_append] at h ⊢
      rw [hnlen, List.append_assoc, List.append_assoc, ← List.append_assoc name, ← hline] at h
      unfold skipBlanks
      rw [show front.length + line.length = front.length + clName.length + text.length by
        rw [hline, List.length_append, hnlen]; omega]
      rw [hnlen]
      exact h
    have hrun := digitRun_append (front ++ name ++ text.takeWhile isBlank)
      (text.dropWhile isBlank) post
    have hbuf : front ++ name ++ text.takeWhile isBlank ++ (text.dropWhile isBlank ++ post)
        = front ++ (line ++ post) := by
      rw [List.append_assoc (front ++ name), ← List.append_assoc (text.takeWhile isBlank),
        List.takeWhile_append_dropWhile, hline, List.append_assoc, List.append_assoc]
    have hend : (front ++ name ++ text.takeWhile isBlank).length + (text.dropWhile isBlank).length
        = front.length + line.length := by
      have h := congrArg List.length (List.takeWhile_append_dropWhile (p := isBlank) (l := text))
      simp only [List.length_append, hline] at h ⊢
      omega
    rw [hbuf, hend] at hrun
    rw [hskip, hrun, nameMatch_append hlen, lengthDigits, hname, htext]
    by_cases hm : strcasecmpEq name clName = true
    · by_cases hd : (text.dropWhile isBlank).takeWhile isDecDigit = []
      · rw [if_pos ⟨hlen, hm⟩, if_neg (by simp [hd]), if_neg (by simp [hd])]
      · rw [if_pos ⟨hlen, hm⟩, if_pos hd, if_pos ⟨hm, hd⟩]
    · rw [if_neg fun h => hm h.2, if_neg fun h => hm h.1]
  · rw [if_neg fun h => hlen h.1, lengthDigits, if_neg]
    rintro ⟨hm, -⟩
    unfold strcasecmpEq at hm
    have h := congrArg List.length (beq_iff_eq.mp hm)
    rw [List.length_map, List.length_map, List.length_take] at h
    omega

end

/-! ## The scan of a block -/

section

variable {value : Bytes → Nat} {line : Bytes} {lines : List Bytes}

/-- **The loop over the header lines keeps the digits of the last line that has some.** -/
theorem scanLines_lines (h : ∀ line ∈ lines, OneLine line ∧ line ≠ []) :
    ∀ (front : Bytes) (fuel : Nat) (cl : Option Nat), lines.length < fuel →
      scanLines value (front ++ (wire lines ++ crlf)) (front ++ (wire lines ++ crlf)).length fuel
          front.length cl
        = ((lastDigits lines).map value).or cl := by
  induction lines with
  | nil =>
    intro front fuel cl hfuel
    obtain ⟨fuel, rfl⟩ : ∃ k, fuel = k + 1 := ⟨fuel - 1, by simp at hfuel; omega⟩
    have hend : crlfAt (front ++ (wire [] ++ crlf)) front.length = true :=
      crlfAt_append_right front crlf 0
    rw [scanLines, if_pos (by simp [crlf]), if_pos hend]
    rfl
  | cons line lines ih =>
    intro front fuel cl hfuel
    rw [List.forall_mem_cons] at h
    obtain ⟨fuel, rfl⟩ : ∃ k, fuel = k + 1 := ⟨fuel - 1, by simp at hfuel; omega⟩
    have hpos := List.length_pos_iff_ne_nil.mpr h.1.2
    have hbuf : front ++ (wire (line :: lines) ++ crlf)
        = front ++ (line ++ (crlf ++ (wire lines ++ crlf))) := by
      simp only [wire_cons, List.append_assoc]
    have hstart :
        crlfAt (front ++ (line ++ (crlf ++ (wire lines ++ crlf)))) front.length = false := by
      have := crlfAt_oneLine h.1.1 (wire lines ++ crlf) 0 hpos
      rwa [← crlfAt_append_right front, Nat.add_zero] at this
    have hlen : (front ++ (line ++ (crlf ++ (wire lines ++ crlf)))).length
        = front.length + line.length + 2 + (wire lines).length + 2 := by
      simp [crlf]
      omega
    have hend : lineEnd (front ++ (line ++ (crlf ++ (wire lines ++ crlf)))) front.length
        (front ++ (line ++ (crlf ++ (wire lines ++ crlf)))).length
        = front.length + line.length := by
      unfold lineEnd
      rw [findFrom_crlfAt h.1.1 (by rw [hlen]; omega), Option.getD_some]
    have hnext := ih h.2 (front ++ (line ++ crlf)) fuel (((lengthDigits line).map value).or cl)
      (by simp only [List.length_cons] at hfuel; omega)
    rw [hbuf, scanLines, if_pos (by rw [hlen]; omega), if_neg (by rw [hstart]; decide), hend,
      lineDigits_append]
    simp only [List.append_assoc, List.length_append, show crlf.length = 2 from rfl] at hnext ⊢
    rw [show front.length + line.length + 2 = front.length + (line.length + 2) by omega, hnext,
      lastDigits_cons, ← Option.or_assoc]
    cases lastDigits lines <;> rfl

theorem requestLineEnd_line (h : OneLine line) {post : Bytes} {e : Nat} (he : line.length + 2 ≤ e) :
    requestLineEnd (line ++ (crlf ++ post)) e = line.length + 2 := by
  have hfind : findFrom (crlfAt ([] ++ (line ++ (crlf ++ post)))) [].length (e - 1)
      = some ([].length + line.length) := findFrom_crlfAt h (by rw [List.length_nil]; omega)
  rw [List.nil_append, List.length_nil, Nat.zero_add] at hfind
  unfold requestLineEnd
  rw [hfind]

/-- Behind a request line, the scan finds what the header lines say. -/
theorem contentLength_lines (hline : OneLine line) (h : ∀ line ∈ lines, OneLine line ∧ line ≠ []) :
    contentLength value (wire (line :: lines) ++ crlf) (wire (line :: lines) ++ crlf).length
      = (lastDigits lines).map value := by
  have hbuf : wire (line :: lines) ++ crlf = line ++ crlf ++ (wire lines ++ crlf) := by
    rw [wire_cons, List.append_assoc]
  have hfuel : lines.length ≤ (wire lines).length := by
    have : ∀ ls : List Bytes, ls.length ≤ (wire ls).length := by
      intro ls
      induction ls with
      | nil => simp
      | cons l ls ih =>
        rw [wire_cons]
        simp only [List.length_append, List.length_cons, show crlf.length = 2 from rfl]
        omega
    exact this lines
  have hlen : (line ++ crlf ++ (wire lines ++ crlf)).length
      = line.length + 2 + (wire lines).length + 2 := by
    simp [crlf]
    omega
  have hscan : scanLines value (line ++ crlf ++ (wire lines ++ crlf))
      (line ++ crlf ++ (wire lines ++ crlf)).length
      (line ++ crlf ++ (wire lines ++ crlf)).length (line ++ crlf).length none
      = ((lastDigits lines).map value).or none := scanLines_lines h _ _ none (by rw [hlen]; omega)
  have hstart : requestLineEnd (line ++ crlf ++ (wire lines ++ crlf))
      (line ++ crlf ++ (wire lines ++ crlf)).length = (line ++ crlf).length := by
    rw [hlen, List.append_assoc, requestLineEnd_line hline (by omega)]
    simp [crlf]
  unfold contentLength
  rw [hbuf, hstart, hscan, Option.or_none]

/-- Without a blank line behind the request line there is nothing to scan. -/
theorem contentLength_single (hline : OneLine line) :
    contentLength value (line ++ crlf) (line ++ crlf).length = none := by
  have hend : requestLineEnd (line ++ crlf) (line ++ crlf).length = (line ++ crlf).length := by
    have h : requestLineEnd (line ++ (crlf ++ [])) (line ++ crlf).length = line.length + 2 :=
      requestLineEnd_line hline (by simp [crlf])
    rw [List.append_nil] at h
    rw [h]
    simp [crlf]
  unfold contentLength
  rw [hend, show (line ++ crlf).length = line.length + 1 + 1 by simp [crlf], scanLines,
    if_neg (by omega)]

end

/-! ## A header block -/

section

variable {block : Bytes}

/-- A block is some text and the CRLFCRLF behind it. -/
theorem IsBlock.eq_append (hb : IsBlock block) :
    block = block.take (block.length - 4) ++ (crlf ++ crlf) := by
  obtain ⟨⟨h4, -⟩, ⟨hcr, hcr'⟩, -⟩ := hdrEnd_eq_some.mp hb
  have hsplit := List.take_append_drop (block.length - 4) block
  have hfront : (block.take (block.length - 4)).length = block.length - 4 := by
    rw [List.length_take]
    omega
  have htail : (block.drop (block.length - 4)).length = 4 := by
    rw [List.length_drop]
    omega
  generalize block.take (block.length - 4) = front at *
  generalize block.drop (block.length - 4) = tail at *
  match tail, htail with
  | [a, b, c, d], _ =>
    rw [← hsplit] at hcr hcr' ⊢
    rw [show (front ++ [a, b, c, d]).length - 4 = front.length + 0 by simp,
      crlfAt_append_right, crlfAt_eq_true] at hcr
    rw [show (front ++ [a, b, c, d]).length - 2 = front.length + 2 by simp,
      crlfAt_append_right, crlfAt_eq_true] at hcr'
    obtain ⟨rfl, rfl⟩ : a = 13 ∧ b = 10 := hcr
    obtain ⟨rfl, rfl⟩ : c = 13 ∧ d = 10 := hcr'
    rfl

theorem IsBlock.eq_wire (hb : IsBlock block) : block = wire (blockLines block) ++ crlf := by
  unfold blockLines
  rw [wire_splitLines, List.append_assoc]
  exact hb.eq_append

/-- An empty line would be the blank line. -/
theorem IsBlock.fieldLines_ne_nil (hb : IsBlock block) : ∀ line ∈ fieldLines block, line ≠ [] := by
  rintro line hmem rfl
  obtain ⟨req, lines, hlines⟩ := List.exists_cons_of_ne_nil (splitLines_ne_nil _)
  have hfields : fieldLines block = lines := congrArg List.tail hlines
  rw [hfields] at hmem
  obtain ⟨before, after, rfl⟩ := List.append_of_mem hmem
  -- the CRLF of the line before it makes an earlier CRLFCRLF
  obtain ⟨done, line, hdone⟩ : ∃ done line, req :: before = done ++ [line] :=
    ⟨(req :: before).dropLast, (req :: before).getLast (List.cons_ne_nil _ _),
      (List.dropLast_append_getLast _).symm⟩
  have hwire : block = wire done ++ (line ++ (crlf ++ (crlf ++ (wire after ++ crlf)))) := by
    refine hb.eq_wire.trans ?_
    rw [show blockLines block = req :: (before ++ [] :: after) from hlines, ← List.cons_append,
      hdone]
    simp [wire_append]
  obtain ⟨-, -, hmin⟩ := hdrEnd_eq_some.mp hb
  have h1 : crlfAt block ((wire done).length + line.length) = true := by
    rw [hwire]
    exact crlfAt_line ..
  have h2 : crlfAt block ((wire done).length + line.length + 2) = true := by
    have := crlfAt_line (wire done ++ (line ++ crlf)) [] (wire after ++ crlf)
    rw [hwire]
    simpa [crlf, Nat.add_assoc] using this
  have hlt : (wire done).length + line.length + 4 < block.length := by
    rw [hwire]
    simp [crlf]
    omega
  have := hmin _ hlt
  rw [h1, h2] at this
  cases this

/-- **A block is a request line, header lines and the blank line.** -/
theorem IsBlock.lines (hb : IsBlock block) :
    ∃ req, block = wire (req :: fieldLines block) ++ crlf ∧ OneLine req ∧
      ∀ line ∈ fieldLines block, OneLine line ∧ line ≠ [] := by
  obtain ⟨req, lines, hlines⟩ := List.exists_cons_of_ne_nil (splitLines_ne_nil _)
  have hfields : fieldLines block = lines := congrArg List.tail hlines
  have hone := oneLine_of_mem_splitLines (block.take (block.length - 4))
  have hwire := hb.eq_wire
  have hne := hb.fieldLines_ne_nil
  rw [blockLines, hlines] at hwire
  rw [hlines, List.forall_mem_cons] at hone
  rw [hfields] at hne ⊢
  exact ⟨req, hwire, hone.1, fun line hl => ⟨hone.2 line hl, hne line hl⟩⟩

end

/-! ## The scan behind the URL -/

section

variable {value : Bytes → Nat} {req : Bytes} {lines : List Bytes} {cmd : HttpCommand} {i : Nat}

/-- The URL ends in the request line, unless its NUL hits the CRLF of it. -/
theorem urlEnd_line {post : Bytes} {e : Nat} (hcmd : findCmd (req ++ (crlf ++ post)) e = some cmd)
    (hi : urlEnd (req ++ (crlf ++ post)) (cmd.cmdLen + 1) e = some i) :
    i < req.length + 2 ∧ (isBlank (byteAt (req ++ (crlf ++ post)) i) = true → i < req.length) := by
  obtain ⟨hbounds, -, hmin⟩ := findFrom_eq_some.mp hi
  have hcr : byteAt (req ++ (crlf ++ post)) req.length = 13 := byteAt_append_right req _ 0
  have hlf : byteAt (req ++ (crlf ++ post)) (req.length + 1) = 10 := byteAt_append_right req _ 1
  have hle : cmd.cmdLen ≤ req.length := by
    have hm := List.find?_some hcmd
    simp only [Bool.and_eq_true, decide_eq_true_eq] at hm
    by_contra hlt
    exact byteAt_ne_cr (findCmd_mem hcmd) hm.2 (show req.length < cmd.cmdLen by omega) hcr
  have hlt : i < req.length + 2 := by
    by_contra hge
    have := hmin (req.length + 1) (by omega) (by omega)
    rw [hlf] at this
    cases this
  refine ⟨hlt, fun hblank => ?_⟩
  by_contra hge
  rcases (show i = req.length ∨ i = req.length + 1 by omega) with rfl | rfl
  · rw [hcr] at hblank
    cases hblank
  · rw [hlf] at hblank
    cases hblank

/-- A NUL in the request line does not disturb the scan. -/
theorem contentLength_inside (hreq : OneLine req)
    (h : ∀ line ∈ lines, OneLine line ∧ line ≠ []) (hi : i < req.length) :
    contentLength value ((wire (req :: lines) ++ crlf).set i 0) (wire (req :: lines) ++ crlf).length
      = (lastDigits lines).map value := by
  have hset : (wire (req :: lines) ++ crlf).set i 0 = wire (req.set i 0 :: lines) ++ crlf := by
    rw [wire_cons, wire_cons, List.append_assoc, List.append_assoc, List.set_append_left _ _ hi,
      List.append_assoc, List.append_assoc]
  have hscan : contentLength value (wire (req.set i 0 :: lines) ++ crlf)
      (wire (req.set i 0 :: lines) ++ crlf).length = (lastDigits lines).map value :=
    contentLength_lines (oneLine_set hreq) h
  rw [← hset, List.length_set] at hscan
  exact hscan

/-- A NUL in the CRLF of the request line makes the scan miss the first header line. -/
theorem contentLength_joined (hreq : OneLine req)
    (h : ∀ line ∈ lines, OneLine line ∧ line ≠ []) (h1 : req.length ≤ i)
    (h2 : i < req.length + 2) :
    contentLength value ((wire (req :: lines) ++ crlf).set i 0) (wire (req :: lines) ++ crlf).length
      = (lastDigits lines.tail).map value := by
  cases lines with
  | nil =>
    have hone := oneLine_joined hreq (show OneLine [] from rfl) h1 h2
    have hset : (wire [req] ++ crlf).set i 0 = (req ++ (crlf ++ [])).set i 0 ++ crlf := by
      rw [wire_cons, wire_nil, List.append_nil, List.append_nil,
        List.set_append_left _ _ (by simp [crlf]; omega)]
    have hscan : contentLength value ((req ++ (crlf ++ [])).set i 0 ++ crlf)
        ((req ++ (crlf ++ [])).set i 0 ++ crlf).length = none := contentLength_single hone
    rw [← hset, List.length_set] at hscan
    exact hscan
  | cons line lines =>
    rw [List.forall_mem_cons] at h
    have hone := oneLine_joined hreq h.1.1 h1 h2
    have hset : (wire (req :: line :: lines) ++ crlf).set i 0
        = wire ((req ++ (crlf ++ line)).set i 0 :: lines) ++ crlf := by
      rw [wire_cons, wire_cons, wire_cons, show req ++ crlf ++ (line ++ crlf ++ wire lines) ++ crlf
        = (req ++ (crlf ++ line)) ++ (crlf ++ wire lines ++ crlf) by simp only [List.append_assoc],
        List.set_append_left _ _ (by simp [crlf]; omega)]
      simp only [List.append_assoc]
    have hscan : contentLength value (wire ((req ++ (crlf ++ line)).set i 0 :: lines) ++ crlf)
        (wire ((req ++ (crlf ++ line)).set i 0 :: lines) ++ crlf).length
        = (lastDigits lines).map value := contentLength_lines hone h.2
    rw [← hset, List.length_set] at hscan
    exact hscan

variable {buf : Bytes} {n e : Nat}

/--
**What the scan finds in a header block.** It is the length announced last, among the header
lines or among all but the first of them.
-/
theorem contentLength_terminated (hlen : n ≤ buf.length) (he : hdrEnd buf n = some e)
    (hcmd : findCmd buf n = some cmd) (hi : urlEnd buf (cmd.cmdLen + 1) e = some i) :
    contentLength value (buf.set i 0) e = (lastDigits (fieldLines (buf.take e))).map value ∨
      (isBlank (byteAt buf i) = false ∧
        contentLength value (buf.set i 0) e
          = (lastDigits (fieldLines (buf.take e)).tail).map value) := by
  have hle := hdrEnd_le he
  have hib := (findFrom_eq_some.mp hi).1
  have hblen : (buf.take e).length = e := by
    rw [List.length_take]
    omega
  obtain ⟨req, hwire, hreq, hlines⟩ := (isBlock_take hlen he).lines
  rw [findCmd_block he] at hcmd
  rw [← urlEnd_take] at hi
  rw [← byteAt_take (show i < e by omega), ← contentLength_take, List.take_set]
  generalize hfields : fieldLines (buf.take e) = lines at *
  generalize buf.take e = block at *
  subst hwire
  rw [← hblen]
  have hbuf : wire (req :: lines) ++ crlf = req ++ (crlf ++ (wire lines ++ crlf)) := by
    rw [wire_cons, List.append_assoc, List.append_assoc]
  rw [hbuf] at hcmd hi
  have hline := urlEnd_line hcmd hi
  rw [← hbuf] at hline
  by_cases hin : i < req.length
  · exact Or.inl (contentLength_inside hreq hlines hin)
  · refine Or.inr ⟨?_, contentLength_joined hreq hlines (by omega) hline.1⟩
    rw [← Bool.not_eq_true]
    exact fun hblank => hin (hline.2 hblank)

end

/-! ## The length of a request -/

/--
**The scan for `Content-Length` is what it should be.** In a header block whose request target
ends with a space or a tab it finds a length exactly if some header line announces one. It is
the number on the last such line, when that fits in 32 bits. Nothing but the digits of that
line has a say: no other line, no byte of the body and no stale byte of the buffer.
-/
theorem content_length_scan {buf : Bytes} {rxLen e i : Nat} {cmd : HttpCommand}
    (hlen : rxLen ≤ buf.length) (he : hdrEnd buf rxLen = some e)
    (hcmd : findCmd buf rxLen = some cmd) (hi : urlEnd buf (cmd.cmdLen + 1) e = some i)
    (hblank : isBlank (byteAt buf i) = true) :
    ((contentLength u32Digits (buf.set i 0) e).isSome = true ↔
        ∃ line ∈ fieldLines (buf.take e), ∃ digits, LengthLine line digits) ∧
      (∀ before line after digits, fieldLines (buf.take e) = before ++ line :: after →
        LengthLine line digits → (∀ l ∈ after, ∀ ds, ¬ LengthLine l ds) →
        decValue digits < 2 ^ 32 →
        contentLength u32Digits (buf.set i 0) e = some (decValue digits)) ∧
      contentLength u32Digits (buf.set i 0) e
        = (lastDigits (fieldLines (buf.take e))).map u32Digits := by
  have hscan : contentLength u32Digits (buf.set i 0) e
      = (lastDigits (fieldLines (buf.take e))).map u32Digits := by
    rcases contentLength_terminated hlen he hcmd hi with h | ⟨hno, -⟩
    · exact h
    · rw [hblank] at hno
      cases hno
  refine ⟨?_, ?_, hscan⟩
  · rw [hscan, Option.isSome_map]
    exact lastDigits_isSome
  · intro before line after digits hlines hline hafter hlt
    rw [hscan, hlines, lastDigits_eq_some hline hafter, Option.map_some, u32Digits_eq,
      u32_of_lt hlt]

/-- The length is on the second of two lines that announce one, in front of some body. -/
theorem content_length_scan_second :
    contentLength u32Digits
        ((ascii "POST /a HTTP/1.1\r\nContent-Length: 7\r\ncontent-LENGTH: \t42;\r\n\r\n01").set 7 0)
        61
      = some 42 := by
  have hcmd : findCmd
      (ascii "POST /a HTTP/1.1\r\nContent-Length: 7\r\ncontent-LENGTH: \t42;\r\n\r\n01") 63
      = some ⟨4, ascii "POST", .post⟩ := by decide
  exact (content_length_scan (by decide) (by decide) hcmd (by decide) (by decide)).2.1
    [ascii "Content-Length: 7"]
    (ascii "content-LENGTH: \t42;") [] (ascii "42") (by decide +kernel)
    ⟨ascii "content-LENGTH:", ascii " \t", ascii ";", by decide +kernel⟩ (by simp) (by decide)

end UniNet.Http
