import UniNet.Infra.Bytes
import UniNet.Infra.Word

/-!
# Commands, status codes, files and handlers

The types of `uni_net_http_common.h` and the MIME table of `uni_net_http_common.c`.
-/

namespace UniNet.Http

open Infra

/-- `uni_net_http_command_type_e`. -/
inductive CommandType where
  | unknown
  | get
  | post
  | head
  | put
  | delete
  | trace
  | options
  | connect
  | patch
  deriving DecidableEq, Repr

/-- `uni_net_http_status_e`. -/
inductive Status where
  | ok
  | nocontent
  | badrequest
  | unauthorized
  | notfound
  | gone
  | precondfailed
  | internalserverr
  deriving DecidableEq, Repr

/-- The number in the status line. -/
def Status.code : Status → Nat
  | ok => 200
  | nocontent => 204
  | badrequest => 400
  | unauthorized => 401
  | notfound => 404
  | gone => 410
  | precondfailed => 412
  | internalserverr => 500

/-- `_uni_net_http_server_status_name`. Every status has a name, so `"Unknown"` never shows. -/
def statusName : Status → Bytes
  | .ok => ascii "OK"
  | .nocontent => ascii "No content"
  | .badrequest => ascii "Bad request"
  | .unauthorized => ascii "Authorization Required"
  | .notfound => ascii "Not Found"
  | .gone => ascii "Done"
  | .precondfailed => ascii "Precondition Failed"
  | .internalserverr => ascii "Internal Server Error"

/--
`uni_net_http_file_t`.

`size` is the length of `data`, which is what whoever registers a file promises; it is a
`uint32_t`.
-/
structure HttpFile where
  path : CString
  data : Bytes
  size_lt : data.length < 2 ^ 32
  deriving DecidableEq

def HttpFile.size (f : HttpFile) : Nat := f.data.length

/-- `uni_net_http_handler_t`. A function pointer is a number, and NULL is `none`. -/
structure HttpHandler where
  path : CString
  command : CommandType
  function : Option Nat
  userdata : Nat
  deriving DecidableEq

/-! ## MIME types -/

/-- One byte of `strcasecmp`. -/
def toLower (b : UInt8) : UInt8 := if 65 ≤ b ∧ b ≤ 90 then b + 32 else b

/-- `strcasecmp(a, b) == 0`. -/
def strcasecmpEq (a b : Bytes) : Bool := a.map toLower == b.map toLower

/-- `g_uni_net_http_types`. -/
def httpTypes : List (Bytes × Bytes) :=
  [ (ascii "html", ascii "text/html"),
    (ascii "json", ascii "application/json"),
    (ascii "css", ascii "text/css"),
    (ascii "js", ascii "text/javascript"),
    (ascii "png", ascii "image/png"),
    (ascii "jpg", ascii "image/jpeg"),
    (ascii "gif", ascii "image/gif"),
    (ascii "txt", ascii "text/plain"),
    (ascii "mp3", ascii "audio/mpeg3"),
    (ascii "wav", ascii "audio/wav"),
    (ascii "flac", ascii "audio/ogg"),
    (ascii "pdf", ascii "application/pdf"),
    (ascii "ttf", ascii "application/x-font-ttf"),
    (ascii "ttc", ascii "application/x-font-ttf") ]

/-- `uni_net_http_get_mime_type`. -/
def getMimeType (extension : Bytes) : Bytes :=
  match httpTypes.find? fun t => strcasecmpEq extension t.1 with
  | some t => t.2
  | none => ascii "application/octet-stream"

/-- The last `.` and the last `/`, as the loop over a file name leaves them. -/
def dotAndSlash (filename : Bytes) : Option Nat × Option Nat :=
  (List.range filename.length).foldl
    (fun s i =>
      (if byteAt filename i = 46 then some i else s.1,
        if byteAt filename i = 47 then some i else s.2))
    (none, none)

/--
`_uni_net_http_server_content_type`.

The pointers are compared with `>`, so a dot counts when no slash follows it. A null pointer
is below every other one.
-/
def contentType : Option CString → Bytes
  | none => ascii "text/html"
  | some filename =>
    match dotAndSlash filename.bytes with
    | (some dot, some slash) =>
      if slash < dot then getMimeType (filename.bytes.drop (dot + 1)) else ascii "text/html"
    | (some dot, none) => getMimeType (filename.bytes.drop (dot + 1))
    | (none, _) => ascii "text/html"

/-- A MIME type is at most 24 bytes long. -/
theorem getMimeType_length (extension : Bytes) : (getMimeType extension).length ≤ 24 := by
  unfold getMimeType
  split
  · next t ht =>
    have hall : ∀ t ∈ httpTypes, t.2.length ≤ 24 := by decide
    exact hall t (List.mem_of_find?_eq_some ht)
  · decide

theorem contentType_length (filename : Option CString) : (contentType filename).length ≤ 24 := by
  have htext : (ascii "text/html").length ≤ 24 := by decide
  unfold contentType
  split
  · exact htext
  · split
    · split
      · exact getMimeType_length _
      · exact htext
    · exact getMimeType_length _
    · exact htext

end UniNet.Http
