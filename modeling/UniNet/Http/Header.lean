import UniNet.Http.Server

/-!
# The text of a response header

`send_header` formats its lines into `buf_tx_hdr` with one `snprintf` after the other. A line
that does not fit would be cut off while the index still grows by its full length. That never
happens: whatever the status, the type and the length are, all lines together take at most 226
bytes (`headerLines_length`), and the smallest buffer has 536.

So the header that is sent is the plain concatenation of its lines (`headerBytes_eq`).
-/

namespace UniNet.Http

open Infra

/-! ## Formatting -/

/-- A line that fits, with its NUL and the byte the code keeps free, is appended as it is. -/
theorem formatLine_fits {cap : Nat} {b text : Bytes} (h : b.length + text.length + 2 ≤ cap) :
    formatLine cap (b, b.length) text = (b ++ text, (b ++ text).length) := by
  unfold formatLine
  rw [List.take_length, List.take_of_length_le (by omega), List.length_append]

theorem foldl_formatLine_fits {cap : Nat} : ∀ (lines : List Bytes) (b : Bytes),
    b.length + lines.flatten.length + 2 ≤ cap →
    lines.foldl (formatLine cap) (b, b.length) = (b ++ lines.flatten, (b ++ lines.flatten).length)
  | [], b, _ => by rw [List.foldl_nil, List.flatten_nil, List.append_nil]
  | text :: lines, b, h => by
    rw [List.flatten_cons, List.length_append] at h
    rw [List.foldl_cons, formatLine_fits (by omega),
      foldl_formatLine_fits lines (b ++ text) (by rw [List.length_append]; omega),
      List.flatten_cons, List.append_assoc]

/-! ## Lengths -/

theorem statusLine_length (status : Status) :
    (decText status.code).length + (statusName status).length ≤ 25 := by
  cases status <;> decide

/-- The types that a header is sent with. -/
def FitsType (contentType : Option Bytes) : Prop :=
  (contentType.getD (ascii "text/html")).length ≤ 24

theorem fitsType_none : FitsType none := by
  unfold FitsType
  decide

theorem fitsType_textPlain : FitsType (some (ascii "text/plain")) := by
  unfold FitsType
  decide

theorem headerLines_length (status : Status) {contentType : Option Bytes} {length : Nat}
    (ht : FitsType contentType) (hl : length < 2 ^ 32) :
    (headerLines status contentType length).flatten.length ≤ 226 := by
  have hstatus := statusLine_length status
  have hlength : (decText length).length ≤ 10 := length_decText_le (by decide) (by omega)
  unfold FitsType at ht
  unfold headerLines
  simp only [List.flatten_cons, List.flatten_nil, List.length_append, List.length_nil,
    show (ascii "HTTP/1.1 ").length = 9 from rfl, show (ascii " ").length = 1 from rfl,
    show (ascii "\r\n").length = 2 from rfl, show (ascii "Content-Type: ").length = 14 from rfl,
    show (ascii "Cache-Control: no-store, no-cache, must-revalidate, max-age=0\r\n").length = 63
      from rfl,
    show (ascii "Pragma: no-cache\r\n").length = 18 from rfl,
    show (ascii "Expires: 0\r\n").length = 12 from rfl,
    show (ascii "Connection: keep-alive\r\n").length = 24 from rfl,
    show (ascii "Content-Length: ").length = 16 from rfl,
    show (ascii "\r\n\r\n").length = 4 from rfl]
  omega

/-- **No header is ever cut off.** -/
theorem headerBytes_eq (N : NetConfig) (status : Status) {contentType : Option Bytes}
    {length : Nat} (ht : FitsType contentType) (hl : length < 2 ^ 32) :
    headerBytes N status contentType length
      = (headerLines status contentType length).flatten := by
  have hlen := headerLines_length status ht hl
  have hmss := N.mss_ge
  unfold headerBytes formatHeader
  have hfold := foldl_formatLine_fits (headerLines status contentType length) []
    (show ([] : Bytes).length + (headerLines status contentType length).flatten.length + 2 ≤ N.mss
      by rw [List.length_nil]; omega)
  rw [List.length_nil, List.nil_append] at hfold
  rw [hfold, List.take_length]

theorem headerBytes_length (N : NetConfig) (status : Status) {contentType : Option Bytes}
    {length : Nat} (ht : FitsType contentType) (hl : length < 2 ^ 32) :
    0 < (headerBytes N status contentType length).length ∧
      (headerBytes N status contentType length).length ≤ 226 := by
  rw [headerBytes_eq N status ht hl]
  refine ⟨?_, headerLines_length status ht hl⟩
  unfold headerLines
  simp only [List.flatten_cons, List.length_append, show (ascii "HTTP/1.1 ").length = 9 from rfl]
  omega

/-- Every header announces that the connection is kept open. -/
theorem keepAlive_line (N : NetConfig) (status : Status) {contentType : Option Bytes}
    {length : Nat} (ht : FitsType contentType) (hl : length < 2 ^ 32) :
    ascii "Connection: keep-alive\r\n" <:+: headerBytes N status contentType length := by
  rw [headerBytes_eq N status ht hl]
  refine List.infix_of_mem_flatten ?_
  unfold headerLines
  simp only [List.mem_cons, true_or, or_true]

end UniNet.Http
