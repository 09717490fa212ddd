import UniNet.Infra.Text
import UniNet.Http.Header

/-!
# Reading responses

A client of the server gets nothing but bytes. `readResponse` is how such a client reads them: it
cuts the lines out of the text up to the first empty one, takes the code from the status line and
the type and the length from their fields, and that many bytes behind the empty line are the body.
It knows nothing of the order in which `send_header` writes its lines.

* `readResponse_bytes` — a response is read back, whatever follows it
* `readResponse_short` — a response whose body is not complete is not read yet
* `responses_cut` — of any number of responses, cut off anywhere, the complete ones are read
-/

namespace UniNet.Http

open Infra

/-! ## The reader -/

/-- What a client makes of a response. -/
structure Seen where
  code : Nat
  type : Bytes
  body : Bytes
  deriving DecidableEq

/-- What follows `front` in a text that begins with it. -/
def behind (front text : Bytes) : Option Bytes :=
  if text.take front.length = front then some (text.drop front.length) else none

/-- A text that is a number. -/
def number (text : Bytes) : Option Nat :=
  if text ≠ [] ∧ text.all isDecDigit then some (decValue text) else none

/-- The value of the first field of that name. -/
def fieldValue (name : Bytes) (fields : List Bytes) : Option Bytes :=
  fields.findSome? (behind name)

/-- The code, the type and the length, from the lines of a head. -/
def readHead : List Bytes → Option (Nat × Bytes × Nat)
  | [] => none
  | statusLine :: fields => do
    let status ← behind (ascii "HTTP/1.1 ") statusLine
    let code ← number (status.takeWhile (· != 32))
    let type ← fieldValue (ascii "Content-Type: ") fields
    let length ← fieldValue (ascii "Content-Length: ") fields
    let length ← number length
    return (code, type, length)

/-- One response from the front of a text, and what follows it. -/
def readResponse (text : Bytes) : Option (Seen × Bytes) :=
  let head := (splitLines text).takeWhile (· != [])
  let rest := text.drop ((wire head).length + crlf.length)
  -- the empty line is there when another text follows it
  if head.length + 1 < (splitLines text).length then
    match readHead head with
    | some (code, type, length) =>
      if length ≤ rest.length then some (⟨code, type, rest.take length⟩, rest.drop length)
      else none
    | none => none
  else none

/-- At most `fuel` responses from the front of a text, and what is left of it. -/
def readResponses : Nat → Bytes → List Seen × Bytes
  | 0, text => ([], text)
  | fuel + 1, text =>
    match readResponse text with
    | some (seen, rest) => (seen :: (readResponses fuel rest).1, (readResponses fuel rest).2)
    | none => ([], text)

/-- All responses from the front of a text. Each of them takes at least one byte. -/
def readAll (text : Bytes) : List Seen × Bytes := readResponses text.length text

/-! ## Lines and numbers -/

theorem behind_append (front text : Bytes) : behind front (front ++ text) = some text := by
  rw [behind, if_pos List.take_left, List.drop_left]

/-- A text without a CR is one line. -/
theorem oneLine_of_not_mem {text : Bytes} (h : 13 ∉ text) : OneLine text := by
  induction text with
  | nil => decide
  | cons b text ih =>
    rw [List.mem_cons, not_or] at h
    cases text with
    | nil => rfl
    | cons b' text => exact oneLine_cons_cons.mpr ⟨fun hb => h.1 hb.1.symm, ih h.2⟩

theorem number_decText (n : Nat) : number (decText n) = some n := by
  obtain ⟨hdigits, hvalue⟩ := decText_spec n
  rw [number, if_pos ⟨decText_ne_nil n, List.all_eq_true.mpr hdigits⟩, hvalue]

theorem not_mem_decText {b : UInt8} (hb : isDecDigit b = false) (n : Nat) : b ∉ decText n := by
  intro hmem
  rw [(decText_spec n).1 b hmem] at hb
  cases hb

/-! ## Responses -/

/-- A response as `send_header` and the sends behind it make it up. -/
structure Response where
  status : Status
  type : Option Bytes
  body : Bytes
  deriving DecidableEq

/-- The header, with the length of the body, and the body. -/
def Response.bytes (N : NetConfig) (r : Response) : Bytes :=
  headerBytes N r.status r.type r.body.length ++ r.body

/-- What a client is to make of it. Without a type it is `text/html`. -/
def Response.seen (r : Response) : Seen :=
  ⟨r.status.code, r.type.getD (ascii "text/html"), r.body⟩

/-- A response that fits into a header. -/
structure Response.Sendable (r : Response) : Prop where
  fits : FitsType r.type
  line : 13 ∉ r.type.getD (ascii "text/html")
  lt : r.body.length < 2 ^ 32

/-- The lines of a header without their ends. -/
def headLines (status : Status) (type : Option Bytes) (length : Nat) : List Bytes :=
  [ ascii "HTTP/1.1 " ++ decText status.code ++ ascii " " ++ statusName status,
    ascii "Content-Type: " ++ type.getD (ascii "text/html"),
    ascii "Cache-Control: no-store, no-cache, must-revalidate, max-age=0",
    ascii "Pragma: no-cache",
    ascii "Expires: 0",
    ascii "Connection: keep-alive",
    ascii "Content-Length: " ++ decText length ]

section

variable {N : NetConfig} {status : Status} {type : Option Bytes} {length : Nat}

theorem headerBytes_wire (ht : FitsType type) (hl : length < 2 ^ 32) :
    headerBytes N status type length = wire (headLines status type length) ++ crlf := by
  rw [headerBytes_eq N status ht hl]
  have hend : ascii "\r\n" = crlf := rfl
  have hends : ascii "\r\n\r\n" = crlf ++ crlf := rfl
  have hcache : ascii "Cache-Control: no-store, no-cache, must-revalidate, max-age=0\r\n"
      = ascii "Cache-Control: no-store, no-cache, must-revalidate, max-age=0" ++ crlf := rfl
  have hpragma : ascii "Pragma: no-cache\r\n" = ascii "Pragma: no-cache" ++ crlf := rfl
  have hexpires : ascii "Expires: 0\r\n" = ascii "Expires: 0" ++ crlf := rfl
  have hkeep : ascii "Connection: keep-alive\r\n" = ascii "Connection: keep-alive" ++ crlf := rfl
  simp only [headerLines, headLines, hend, hends, hcache, hpragma, hexpires, hkeep,
    List.flatten_cons, List.flatten_nil, wire_cons, wire_nil, List.append_assoc, List.append_nil]

theorem headLines_oneLine (hline : 13 ∉ type.getD (ascii "text/html")) :
    ∀ line ∈ headLines status type length, OneLine line ∧ line ≠ [] := by
  have hstatus : 13 ∉ ascii "HTTP/1.1 " ++ decText status.code ++ ascii " "
      ++ statusName status := by
    cases status <;> decide
  have hdigits : 13 ∉ ascii "Content-Length: " ++ decText length := by
    rw [List.mem_append, not_or]
    exact ⟨by decide, not_mem_decText (by decide) length⟩
  have htype : 13 ∉ ascii "Content-Type: " ++ type.getD (ascii "text/html") := by
    rw [List.mem_append, not_or]
    exact ⟨by decide, hline⟩
  simp only [headLines, List.forall_mem_cons]
  exact ⟨⟨oneLine_of_not_mem hstatus, by simp [ascii]⟩,
    ⟨oneLine_of_not_mem htype, by simp [ascii]⟩, ⟨by decide, by decide⟩, ⟨by decide, by decide⟩,
    ⟨by decide, by decide⟩, ⟨by decide, by decide⟩,
    ⟨oneLine_of_not_mem hdigits, by simp [ascii]⟩, List.forall_mem_nil _⟩

/-- The lines that are cut out of a header and what follows it. -/
theorem splitLines_header (ht : FitsType type) (hline : 13 ∉ type.getD (ascii "text/html"))
    (hl : length < 2 ^ 32) (rest : Bytes) :
    splitLines (headerBytes N status type length ++ rest)
      = headLines status type length ++ [] :: splitLines rest := by
  rw [headerBytes_wire ht hl, List.append_assoc,
    splitLines_wire (fun line hmem => (headLines_oneLine hline line hmem).1), splitLines_crlf]

/-- **The lines of a header say what was put into them.** -/
theorem readHead_headLines : readHead (headLines status type length)
    = some (status.code, type.getD (ascii "text/html"), length) := by
  have hcode : (decText status.code ++ ascii " " ++ statusName status).takeWhile (· != 32)
      = decText status.code := by
    cases status <;> decide
  have htype : fieldValue (ascii "Content-Type: ") (headLines status type length).tail
      = some (type.getD (ascii "text/html")) := by
    rw [fieldValue, headLines, List.tail_cons, List.findSome?_cons, behind_append]
  have hlength : fieldValue (ascii "Content-Length: ") (headLines status type length).tail
      = some (decText length) := by
    have hother : behind (ascii "Content-Length: ")
        (ascii "Content-Type: " ++ type.getD (ascii "text/html")) = none := by
      simp [behind, ascii]
    have hothers : ∀ line ∈ [ascii "Cache-Control: no-store, no-cache, must-revalidate, max-age=0",
        ascii "Pragma: no-cache", ascii "Expires: 0", ascii "Connection: keep-alive"],
        behind (ascii "Content-Length: ") line = none := by decide
    simp only [List.forall_mem_cons] at hothers
    simp only [fieldValue, headLines, List.tail_cons, List.findSome?_cons, hother, hothers,
      behind_append]
  rw [headLines] at htype hlength ⊢
  rw [List.tail_cons] at htype hlength
  rw [readHead, List.append_assoc, List.append_assoc, behind_append, ← List.append_assoc]
  simp only [Option.bind_eq_bind, Option.bind_some, hcode, number_decText, htype, hlength]
  rfl

/-- What the reader makes of a header with any bytes behind it. -/
theorem readResponse_header (ht : FitsType type) (hline : 13 ∉ type.getD (ascii "text/html"))
    (hl : length < 2 ^ 32) (rest : Bytes) :
    readResponse (headerBytes N status type length ++ rest)
      = if length ≤ rest.length then
          some (⟨status.code, type.getD (ascii "text/html"), rest.take length⟩, rest.drop length)
        else none := by
  have hsplit : splitLines (headerBytes N status type length ++ rest)
      = headLines status type length ++ [] :: splitLines rest := splitLines_header ht hline hl rest
  have hhead : (splitLines (headerBytes N status type length ++ rest)).takeWhile (· != [])
      = headLines status type length := by
    rw [hsplit, List.takeWhile_append_of_pos, List.takeWhile_cons_of_neg (by simp),
      List.append_nil]
    intro line hmem
    simpa using (headLines_oneLine hline line hmem).2
  have hmore : (headLines status type length).length + 1
      < (splitLines (headerBytes N status type length ++ rest)).length := by
    have hpos := List.length_pos_iff.mpr (splitLines_ne_nil rest)
    rw [hsplit, List.length_append, List.length_cons]
    omega
  have hrest : (headerBytes N status type length ++ rest).drop
      ((wire (headLines status type length)).length + crlf.length) = rest := by
    rw [← List.length_append, ← headerBytes_wire ht hl, List.drop_left]
  unfold readResponse
  simp only [hhead, if_pos hmore, readHead_headLines, hrest]

end

section

variable {N : NetConfig} {r : Response}

/-- **A response is read back, whatever follows it.** -/
theorem readResponse_bytes (hr : r.Sendable) (rest : Bytes) :
    readResponse (r.bytes N ++ rest) = some (r.seen, rest) := by
  rw [Response.bytes, List.append_assoc, readResponse_header hr.fits hr.line hr.lt,
    if_pos (by rw [List.length_append]; omega), List.take_left, List.drop_left]
  rfl

/-- **A response is not read before its body is complete.** -/
theorem readResponse_short (hr : r.Sendable) {part : Bytes} (hpart : part.length < r.body.length) :
    readResponse (headerBytes N r.status r.type r.body.length ++ part) = none := by
  rw [readResponse_header hr.fits hr.line hr.lt, if_neg (by omega)]

theorem Response.bytes_length (hr : r.Sendable) : 0 < (r.bytes N).length := by
  have := (headerBytes_length N r.status hr.fits hr.lt).1
  rw [Response.bytes, List.length_append]
  omega

theorem readResponses_bytes {rs : List Response} (hrs : ∀ r ∈ rs, r.Sendable) {part : Bytes}
    (hpart : readResponse part = none) {fuel : Nat} (hfuel : rs.length ≤ fuel) :
    readResponses fuel (rs.flatMap (Response.bytes N) ++ part)
      = (rs.map Response.seen, part) := by
  induction rs generalizing fuel with
  | nil =>
    cases fuel with
    | zero => rfl
    | succ fuel => rw [List.flatMap_nil, List.nil_append, readResponses, hpart, List.map_nil]
  | cons r rs ih =>
    rw [List.forall_mem_cons] at hrs
    rw [List.length_cons] at hfuel
    obtain ⟨fuel, rfl⟩ : ∃ k, fuel = k + 1 := ⟨fuel - 1, by omega⟩
    rw [List.flatMap_cons, List.append_assoc, readResponses, readResponse_bytes hrs.1]
    simp only [ih hrs.2 (show rs.length ≤ fuel by omega), List.map_cons]

end

theorem length_le_flatMap_bytes {N : NetConfig} {rs : List Response} (hrs : ∀ r ∈ rs, r.Sendable) :
    rs.length ≤ (rs.flatMap (Response.bytes N)).length := by
  induction rs with
  | nil => exact Nat.zero_le _
  | cons r rs ih =>
    rw [List.forall_mem_cons] at hrs
    have hpos := Response.bytes_length (N := N) hrs.1
    have hrest := ih hrs.2
    rw [List.flatMap_cons, List.length_append, List.length_cons]
    omega

theorem readAll_bytes {N : NetConfig} {rs : List Response} (hrs : ∀ r ∈ rs, r.Sendable)
    {part : Bytes} (hpart : readResponse part = none) :
    readAll (rs.flatMap (Response.bytes N) ++ part) = (rs.map Response.seen, part) := by
  refine readResponses_bytes hrs hpart ?_
  rw [List.length_append]
  exact Nat.le_trans (length_le_flatMap_bytes hrs) (Nat.le_add_right _ _)

/-! ## Responses that are not complete -/

/-- The beginning of a head ends before its empty line. -/
theorem readResponse_head {lines : List Bytes} (hl : ∀ line ∈ lines, OneLine line ∧ line ≠ [])
    {part : Bytes} (hp : part <+: wire lines ++ crlf)
    (hlt : part.length < (wire lines ++ crlf).length) : readResponse part = none := by
  have hwire : wire (lines ++ [[]]) = wire lines ++ crlf := by
    simp [wire_append]
  rw [← hwire] at hp hlt
  obtain ⟨before, rest, r, hsplit, rfl, hr⟩ := prefix_wire hp
  -- the empty line is not among the lines that are there
  have hbefore : before <+: lines := by
    rcases List.prefix_concat_iff.mp ⟨rest, hsplit.symm⟩ with hall | hbefore
    · have hnil : rest = [] := by
        rw [hall, List.self_eq_append_right] at hsplit
        exact hsplit
      rcases hr with rfl | ⟨line, more, hcons, -⟩
      · rw [hall, List.append_nil] at hlt
        omega
      · rw [hnil] at hcons
        cases hcons
    · exact hbefore
  have hone : OneLine r := by
    rcases hr with rfl | ⟨line, more, rfl, hline⟩
    · decide
    · have hmem : line ∈ lines ++ [[]] := by
        rw [hsplit]
        exact List.mem_append_right _ (List.mem_cons_self ..)
      refine OneLine.of_begin ?_ hline
      rcases List.mem_append.mp hmem with hmem | hmem
      · exact (hl line hmem).1
      · rw [List.mem_singleton.mp hmem]
        decide
  have hlines : splitLines (wire before ++ r) = before ++ [r] := by
    rw [splitLines_wire fun line hmem => (hl line (hbefore.subset hmem)).1,
      show splitLines r = [r] from hone]
  have hhead : before.length ≤ ((before ++ [r]).takeWhile (· != [])).length := by
    rw [List.takeWhile_append_of_pos, List.length_append]
    · exact Nat.le_add_right _ _
    · intro line hmem
      simpa using (hl line (hbefore.subset hmem)).2
  unfold readResponse
  simp only [hlines, List.length_append, List.length_singleton]
  rw [if_neg (by omega)]

/-- **No part of a response is read as one.** -/
theorem readResponse_begin {N : NetConfig} {r : Response} (hr : r.Sendable) {part : Bytes}
    (hp : part <+: r.bytes N) (hlt : part.length < (r.bytes N).length) :
    readResponse part = none := by
  rw [Response.bytes] at hp hlt
  by_cases hlen : (headerBytes N r.status r.type r.body.length).length ≤ part.length
  · obtain ⟨body, rfl⟩ := List.prefix_of_prefix_length_le (List.prefix_append ..) hp hlen
    rw [List.length_append, List.length_append] at hlt
    exact readResponse_short hr (by omega)
  · have hhead := List.prefix_of_prefix_length_le hp (List.prefix_append ..) (by omega)
    rw [headerBytes_wire hr.fits hr.lt] at hhead hlen
    exact readResponse_head (headLines_oneLine hr.line) hhead (by omega)

/-- The part of a stream of responses in front of a cut: whole ones, and the beginning of one. -/
theorem take_flatMap_bytes {N : NetConfig} {rs : List Response} (hrs : ∀ r ∈ rs, r.Sendable)
    (n : Nat) :
    ∃ k part, k ≤ rs.length ∧ readResponse part = none ∧
      (rs.take k).flatMap (Response.bytes N) ++ part = (rs.flatMap (Response.bytes N)).take n ∧
      ∀ j ≤ rs.length, ((rs.take j).flatMap (Response.bytes N)).length ≤ n → j ≤ k := by
  induction rs generalizing n with
  | nil => exact ⟨0, [], Nat.le_refl 0, rfl, by simp, fun j hj _ => hj⟩
  | cons r rs ih =>
    rw [List.forall_mem_cons] at hrs
    by_cases hn : n < (r.bytes N).length
    · refine ⟨0, (r.bytes N).take n, Nat.zero_le _, ?_, ?_, fun j _ hj => ?_⟩
      · exact readResponse_begin hrs.1 (List.take_prefix n _) (by rw [List.length_take]; omega)
      · rw [List.take_zero, List.flatMap_nil, List.nil_append, List.flatMap_cons,
          List.take_append_of_le_length (by omega)]
      · cases j with
        | zero => exact Nat.le_refl 0
        | succ j =>
          rw [List.take_succ_cons, List.flatMap_cons, List.length_append] at hj
          omega
    · obtain ⟨k, part, hk, hpart, htake, hmax⟩ := ih hrs.2 (n - (r.bytes N).length)
      refine ⟨k + 1, part, Nat.succ_le_succ hk, hpart, ?_, fun j hj hle => ?_⟩
      · have hle : (r.bytes N).length ≤ n := by omega
        rw [List.take_succ_cons, List.flatMap_cons, List.append_assoc, htake, List.flatMap_cons,
          List.take_append, List.take_of_length_le hle]
      · cases j with
        | zero => exact Nat.zero_le _
        | succ j =>
          rw [List.take_succ_cons, List.flatMap_cons, List.length_append] at hle
          rw [List.length_cons] at hj
          exact Nat.succ_le_succ (hmax j (by omega) (by omega))

/--
**However far the bytes have come, the responses that are complete are read, and no other.**

Of any number of responses, with any bytes in their bodies, a reader that has got the first `n`
bytes reads those that end there or before, as they were sent, and what is left are the bytes of
the next one.
-/
theorem responses_cut (N : NetConfig) (rs : List Response) (hrs : ∀ r ∈ rs, r.Sendable) (n : Nat) :
    ∃ k part, k ≤ rs.length ∧
      readAll ((rs.flatMap (Response.bytes N)).take n) = ((rs.take k).map Response.seen, part) ∧
      (rs.take k).flatMap (Response.bytes N) ++ part = (rs.flatMap (Response.bytes N)).take n ∧
      ∀ j ≤ rs.length, ((rs.take j).flatMap (Response.bytes N)).length ≤ n → j ≤ k := by
  obtain ⟨k, part, hk, hpart, htake, hmax⟩ := take_flatMap_bytes (N := N) hrs n
  refine ⟨k, part, hk, ?_, htake, hmax⟩
  rw [← htake]
  exact readAll_bytes (fun r hr => hrs r (List.mem_of_mem_take hr)) hpart

/-- Two responses, cut off inside the second one. -/
theorem responses_cut_inside :
    let rs : List Response := [⟨.notfound, none, []⟩, ⟨.ok, some (ascii "text/plain"), [13, 10, 7]⟩]
    ∃ k part, k ≤ rs.length ∧
      readAll ((rs.flatMap (Response.bytes NetConfig.default)).take 367)
        = ((rs.take k).map Response.seen, part) := by
  intro rs
  have hrs : ∀ r ∈ rs, r.Sendable := by
    have hfirst : Response.Sendable ⟨.notfound, none, []⟩ :=
      ⟨fitsType_none, by decide, by decide⟩
    have hsecond : Response.Sendable ⟨.ok, some (ascii "text/plain"), [13, 10, 7]⟩ :=
      ⟨fitsType_textPlain, by decide, by decide⟩
    simp only [rs, List.forall_mem_cons]
    exact ⟨hfirst, hsecond, List.forall_mem_nil _⟩
  obtain ⟨k, part, hk, hread, -, -⟩ := responses_cut NetConfig.default rs hrs 367
  exact ⟨k, part, hk, hread⟩

end UniNet.Http
