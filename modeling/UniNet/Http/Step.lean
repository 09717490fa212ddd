import UniNet.Http.Server

/-!
# What one call of `client_work` can do

A client that lives in a slot is in one of three phases: awaiting a request, sending a file,
or receiving the body of a POST. From a phase, `Work` lists everything a call of
`client_work` can do, with the result, the phase it leads to and the calls it makes.
`clientWork_work` proves the list complete. All later results about requests and responses go
through it, and none of them unfolds `clientWork` again.
-/

namespace UniNet.Http

open Infra

variable {N : NetConfig}

/-! ## The three phases -/

/-- No request is being served, and `acc` has been received of the next one. -/
structure Holding (c : Client N) (acc : Bytes) : Prop where
  command : c.commandType = .unknown
  file : c.file = none
  handler : c.handler = none
  offset : c.fileOffset = 0
  length : c.contentLength = 0
  header : c.headerSent = false
  rxLen : c.rxLen = acc.length
  received : c.bufRx.bytes.take acc.length = acc

/-- Awaiting a request of which `acc` has been received: there is room for more. -/
structure Awaiting (c : Client N) (acc : Bytes) : Prop extends Holding c acc where
  room : acc.length < N.rxBuf

/-- Sending the file `f`, of which `off` bytes have been passed to the stack. -/
structure Sending (c : Client N) (f : HttpFile) (off : Nat) : Prop where
  command : c.commandType = .get
  file : c.file = some f
  handler : c.handler = none
  header : c.headerSent = true
  length : c.contentLength = f.size
  offset : c.fileOffset = off
  rest : off < f.size
  rxLen : c.rxLen = 0

/-- Receiving a body of `n` bytes for `h`, of which `off` have been handed over. -/
structure Receiving (ctx : Context) (c : Client N) (h : HttpHandler) (n off : Nat) : Prop where
  command : c.commandType = .post
  file : c.file = none
  handler : c.handler = some h
  registered : h ∈ ctx.handlers.items ∧ h.command = .post
  header : c.headerSent = false
  length : c.contentLength = n
  offset : c.fileOffset = off
  le : off ≤ n
  lt : n < 2 ^ 32
  rxLen : c.rxLen = 0

/-- **The invariant of a client in a slot.** -/
def ClientInv (ctx : Context) (c : Client N) : Prop :=
  (∃ acc, Awaiting c acc) ∨ (∃ f off, Sending c f off) ∨ (∃ h n off, Receiving ctx c h n off)

/-- The buffer tells what has been received. -/
theorem Awaiting.unique {c : Client N} {acc acc' : Bytes} (h : Awaiting c acc)
    (h' : Awaiting c acc') : acc = acc' := by
  have hlen : acc.length = acc'.length := h.rxLen.symm.trans h'.rxLen
  rw [← h.received, ← h'.received, hlen]

/-- The fields tell which body is received, and how far. -/
theorem Receiving.unique {ctx : Context} {c : Client N} {h h' : HttpHandler}
    {n n' off off' : Nat} (hv : Receiving ctx c h n off) (hv' : Receiving ctx c h' n' off') :
    h = h' ∧ n = n' ∧ off = off' :=
  ⟨Option.some.inj (hv.handler.symm.trans hv'.handler), hv.length.symm.trans hv'.length,
    hv.offset.symm.trans hv'.offset⟩

theorem awaiting_new (N : NetConfig) (socket : Nat) : Awaiting (Client.new N socket) [] :=
  ⟨⟨rfl, rfl, rfl, rfl, rfl, rfl, rfl, rfl⟩, N.rxBuf_pos⟩

theorem awaiting_clear (c : Client N) : Awaiting c.clear [] :=
  ⟨⟨rfl, rfl, rfl, rfl, rfl, rfl, rfl, rfl⟩, N.rxBuf_pos⟩

theorem Client.Cleared.awaiting {c : Client N} (h : c.Cleared) : Awaiting c [] := by
  rw [← show c.clear = c from h]
  exact awaiting_clear c

/-! ## Starting a request -/

/-- The header that a status other than 200 goes out with. -/
def errorEvent (N : NetConfig) (inp : Input) (status : Status) : Event :=
  .sendHeader status 0 (headerBytes N status none 0) (inp.send 0)

/-- The call that hands over a piece of the body, unless it is empty. -/
def chunkEvents (h : HttpHandler) (data : Bytes) : List Event :=
  if data = [] then [] else [chunkEvent h data]

/-- A reply of handler `h` on behalf of some client, with the call that produced it. -/
def replyEvents (inp : Input) (c : Client N) (h : HttpHandler) (bufIn : Option Bytes)
    (type : Bytes) : List Event :=
  callEvent h (some N.txBuf) bufIn
    :: (sendReply inp c (callReply inp h (some N.txBuf) bufIn) type).events

/-- The C result of that reply. -/
def replyResult (inp : Input) (c : Client N) (h : HttpHandler) (bufIn : Option Bytes)
    (type : Bytes) : Int :=
  (sendReply inp c (callReply inp h (some N.txBuf) bufIn) type).result

section

variable (P : Event → Prop) {h : HttpHandler} (hnull : P .nullCall)

include hnull

/-- What holds of the call of a function and of the call of a null pointer. -/
theorem callEvent_cases {bufOut : Option Nat} {bufIn : Option Bytes}
    (hcall : ∀ f, P (.call ⟨f, h.userdata, bufOut, bufIn⟩)) : P (callEvent h bufOut bufIn) := by
  unfold callEvent
  split
  · exact hcall _
  · exact hnull

theorem forall_mem_chunkEvents {data : Bytes}
    (hcall : ∀ f, P (.call ⟨f, h.userdata, none, some data⟩)) :
    ∀ e ∈ chunkEvents h data, P e := by
  unfold chunkEvents
  split
  · exact List.forall_mem_nil P
  · exact List.forall_mem_singleton.mpr (callEvent_cases P hnull hcall)

theorem forall_mem_replyEvents {inp : Input} {c : Client N} {bufIn : Option Bytes} {type : Bytes}
    (hcall : ∀ k, P (.call k)) (hspace : ∀ space, P (.txSpace space))
    (hheader : ∀ n bytes result, P (.sendHeader .ok n bytes result))
    (hsend : ∀ data result, P (.send data result)) :
    ∀ e ∈ replyEvents inp c h bufIn type, P e := by
  unfold replyEvents sendReply
  rw [List.forall_mem_cons]
  refine ⟨callEvent_cases P hnull fun _ => hcall _, ?_⟩
  simp only [sendHeader, ne_eq, not_true_eq_false, if_false]
  split
  · simp only [List.cons_append, List.nil_append, List.forall_mem_cons]
    exact ⟨hspace _, hheader _ _ _, hsend _ _, List.forall_mem_nil P⟩
  · simp only [List.forall_mem_cons]
    exact ⟨hspace _, hheader _ _ _, List.forall_mem_nil P⟩

end

/--
What `process_start` can do with a request whose header block was followed by `rest` in the
buffer, for a client that was awaiting it.
-/
inductive Start (ctx : Context) (inp : Input) (req : Request) (rest : Bytes) : Out N → Prop
  | ignored {c : Client N} (hget : req.cmdType ≠ .get) (hpost : req.cmdType ≠ .post)
      (hc : Awaiting c []) : Start ctx inp req rest ⟨0, c, []⟩
  | getReply {c d : Client N} {h : HttpHandler} {bufIn : Bytes} (hget : req.cmdType = .get)
      (hh : ctx.findHandler .get req.url = some h) (hf : h.function ≠ none) :
      Start ctx inp req rest
        ⟨replyResult inp c h (some bufIn) (contentType (some req.url)), d.clear,
          replyEvents inp c h (some bufIn) (contentType (some req.url)) ++ [.fdClr [.write]]⟩
  | getError {d : Client N} {h : HttpHandler} (hget : req.cmdType = .get)
      (hh : ctx.findHandler .get req.url = some h) (hf : h.function = none) :
      Start ctx inp req rest
        ⟨inp.send 0, d.clear, [errorEvent N inp .internalserverr, .fdClr [.write]]⟩
  | getFile {c : Client N} {f : HttpFile} (hget : req.cmdType = .get)
      (hh : ctx.findHandler .get req.url = none) (hf : ctx.findFile req.url = some f)
      (hc : c.commandType = .get ∧ c.file = some f ∧ c.handler = none ∧ c.fileOffset = 0 ∧
        c.headerSent = false) :
      Start ctx inp req rest
        { cmdGetSendfile inp c f (some req.url) with
          client := { (cmdGetSendfile inp c f (some req.url)).client with rxLen := 0 } }
  | getNotFound {d : Client N} (hget : req.cmdType = .get)
      (hh : ctx.findHandler .get req.url = none) (hf : ctx.findFile req.url = none) :
      Start ctx inp req rest ⟨inp.send 0, d.clear, [errorEvent N inp .notfound]⟩
  | postNotFound {d : Client N} (hpost : req.cmdType = .post)
      (hh : ctx.findHandler .post req.url = none) :
      Start ctx inp req rest ⟨inp.send 0, d.clear, [errorEvent N inp .notfound]⟩
  | postBody {c : Client N} {h : HttpHandler} {n : Nat} (hpost : req.cmdType = .post)
      (hlen : req.length = some n) (hh : ctx.findHandler .post req.url = some h)
      (hlt : rest.length < n) (hc : Receiving ctx c h n rest.length) :
      Start ctx inp req rest ⟨0, c, chunkEvents h rest ++ [.fdSet [.read]]⟩
  | postReply {c d : Client N} {h : HttpHandler} {n : Nat} (hpost : req.cmdType = .post)
      (hlen : req.length = some n) (hh : ctx.findHandler .post req.url = some h)
      (hle : n ≤ rest.length) :
      Start ctx inp req rest
        ⟨replyResult inp c h none (ascii "text/plain"), d.clear,
          chunkEvents h (rest.take n)
            ++ (replyEvents inp c h none (ascii "text/plain") ++ [.fdClr [.read, .write]])⟩

/-! ## One call -/

/-- Everything a call of `client_work` can do with a client that satisfies `ClientInv`. -/
inductive Work (ctx : Context) (inp : Input) : Client N → Out N → Prop
  | disconnected {c : Client N} (hc : inp.connected = false) : Work ctx inp c ⟨-1, c, []⟩
  | idle {c : Client N} {acc : Bytes} (hc : inp.connected = true) (ha : Awaiting c acc)
      (hr : (inp.recvUpTo (N.rxBuf - acc.length)).result ≤ 0) :
      Work ctx inp c
        ⟨0, c, [.recv (N.rxBuf - acc.length) (inp.recvUpTo (N.rxBuf - acc.length))]⟩
  | accumulate {c d : Client N} {acc data : Bytes} (hc : inp.connected = true)
      (ha : Awaiting c acc) (hr : inp.recvUpTo (N.rxBuf - acc.length) = .data data)
      (hne : data ≠ []) (hno : hdrEnd (acc ++ data) (acc ++ data).length = none)
      (ha' : Awaiting d (acc ++ data)) :
      Work ctx inp c ⟨data.length, d, [.recv (N.rxBuf - acc.length) (.data data)]⟩
  | overflow {c d : Client N} {acc data : Bytes} (hc : inp.connected = true)
      (ha : Awaiting c acc) (hr : inp.recvUpTo (N.rxBuf - acc.length) = .data data)
      (hne : data ≠ []) (hno : hdrEnd (acc ++ data) (acc ++ data).length = none)
      (hfull : (acc ++ data).length = N.rxBuf) :
      Work ctx inp c
        ⟨data.length, d.clear, [.recv (N.rxBuf - acc.length) (.data data),
          errorEvent N inp .badrequest, .fdClr [.read, .write]]⟩
  | rejected {c d : Client N} {acc data block rest : Bytes} (hc : inp.connected = true)
      (ha : Awaiting c acc) (hr : inp.recvUpTo (N.rxBuf - acc.length) = .data data)
      (hne : data ≠ []) (hsplit : acc ++ data = block ++ rest) (hb : IsBlock block)
      (hreq : ∀ req, requestOf block = some req → req.cmdType = .post ∧ req.length = none) :
      Work ctx inp c
        ⟨-1, d.clear, [.recv (N.rxBuf - acc.length) (.data data),
          .headers block (acc ++ data).length,
          errorEvent N inp .badrequest, .fdClr [.read, .write]]⟩
  | request {c : Client N} {acc data block rest : Bytes} {req : Request} {o : Out N}
      (hc : inp.connected = true)
      (ha : Awaiting c acc) (hr : inp.recvUpTo (N.rxBuf - acc.length) = .data data)
      (hne : data ≠ []) (hsplit : acc ++ data = block ++ rest) (hb : IsBlock block)
      (hreq : requestOf block = some req) (hs : Start ctx inp req rest o) :
      Work ctx inp c
        ⟨o.result, o.client, .recv (N.rxBuf - acc.length) (.data data)
          :: .headers block (acc ++ data).length :: .start req.cmdType req.url :: o.events⟩
  | sendFile {c : Client N} {f : HttpFile} {off : Nat} (hc : inp.connected = true)
      (hs : Sending c f off) : Work ctx inp c (cmdGetSendfile inp c f none)
  | bodyNone {c : Client N} {h : HttpHandler} {n off : Nat} (hc : inp.connected = true)
      (hv : Receiving ctx c h n off) (hlt : off < n)
      (hr : (inp.recvUpTo (min (n - off) N.rxBuf)).result ≤ 0) :
      Work ctx inp c
        ⟨(inp.recvUpTo (min (n - off) N.rxBuf)).result, c,
          [.recv (min (n - off) N.rxBuf) (inp.recvUpTo (min (n - off) N.rxBuf))]⟩
  | bodyChunk {c d : Client N} {h : HttpHandler} {n off : Nat} {data : Bytes}
      (hc : inp.connected = true) (hv : Receiving ctx c h n off)
      (hr : inp.recvUpTo (min (n - off) N.rxBuf) = .data data) (hne : data ≠ [])
      (hle : off + data.length ≤ n) (hv' : Receiving ctx d h n (off + data.length)) :
      Work ctx inp c
        ⟨data.length, d, [.recv (min (n - off) N.rxBuf) (.data data), chunkEvent h data]⟩
  | bodyReply {c d : Client N} {h : HttpHandler} {n : Nat} (hc : inp.connected = true)
      (hv : Receiving ctx c h n n) :
      Work ctx inp c
        ⟨replyResult inp c h none (ascii "text/plain"), d.clear,
          replyEvents inp c h none (ascii "text/plain") ++ [.fdClr [.read, .write]]⟩

/-! ## The functions below `client_work` -/

theorem Context.findHandler_spec {ctx : Context} {command : CommandType} {url : CString}
    {h : HttpHandler} (hh : ctx.findHandler command url = some h) :
    h ∈ ctx.handlers.items ∧ h.command = command ∧ h.path = url := by
  unfold Context.findHandler UniArray.search at hh
  split at hh
  · have hp := List.find?_some hh
    simp only [Bool.and_eq_true, beq_iff_eq] at hp
    exact ⟨List.mem_of_find?_eq_some hh, hp⟩
  · cases hh

theorem Input.recvUpTo_length {inp : Input} {len : Nat} {data : Bytes}
    (h : inp.recvUpTo len = .data data) : data.length ≤ len := by
  unfold Input.recvUpTo at h
  split at h
  · rw [← Recv.data.inj h, List.length_take]
    omega
  · cases h

/-- A positive result comes with that many bytes. -/
theorem Recv.data_of_result {r : Recv} (h : 0 < r.result) : ∃ data, r = .data data ∧ data ≠ [] := by
  cases r with
  | data bytes =>
    refine ⟨bytes, rfl, ?_⟩
    rintro rfl
    exact absurd h (by decide)
  | error errno =>
    simp only [Recv.result] at h
    omega

/-- An error header leaves nothing behind once the client is cleared. -/
theorem sendHeader_error (inp : Input) (c : Client N) {status : Status} (h : status ≠ .ok) :
    (sendHeader inp c status).result = inp.send 0 ∧
      (sendHeader inp c status).client.clear = c.clear ∧
      (sendHeader inp c status).events = [errorEvent N inp status] := by
  unfold sendHeader errorEvent
  rw [if_pos h]
  exact ⟨rfl, rfl, rfl⟩

theorem badRequest_eq (inp : Input) (c : Client N) (result : Int) :
    badRequest inp c result
      = ⟨result, c.clear, [errorEvent N inp .badrequest, .fdClr [.read, .write]]⟩ := by
  obtain ⟨-, hc, he⟩ := sendHeader_error inp c (show Status.badrequest ≠ .ok by decide)
  unfold badRequest
  simp only [hc, he, List.cons_append, List.nil_append]

theorem contentLength_lt {buf : Bytes} {e n : Nat}
    (h : contentLength u32Digits buf e = some n) : n < 2 ^ 32 := by
  rw [contentLength_u32, Option.map_eq_some_iff] at h
  obtain ⟨m, -, rfl⟩ := h
  exact Nat.mod_lt _ (by decide)

/-! ### GET -/

section

variable {ctx : Context} {inp : Input} {c : Client N} {url : CString}

theorem cmdGetSendresponse_reply {h : HttpHandler} (hcmd : h.command = .get)
    (hf : h.function ≠ none) :
    cmdGetSendresponse inp c h url
      = ⟨replyResult inp c h (some c.bufRx.bytes) (contentType (some url)),
          (sendReply inp c (callReply inp h (some N.txBuf) (some c.bufRx.bytes))
            (contentType (some url))).client.clear,
          replyEvents inp c h (some c.bufRx.bytes) (contentType (some url))
            ++ [.fdClr [.write]]⟩ := by
  obtain ⟨f, hf⟩ := Option.ne_none_iff_exists'.mp hf
  unfold cmdGetSendresponse replyResult replyEvents callEvent callReply
  simp only [hcmd, hf]

theorem cmdGetSendresponse_error {h : HttpHandler} (hcmd : h.command = .get)
    (hf : h.function = none) :
    cmdGetSendresponse inp c h url
      = ⟨inp.send 0, c.clear, [errorEvent N inp .internalserverr, .fdClr [.write]]⟩ := by
  obtain ⟨hr, hc, he⟩ := sendHeader_error inp c (show Status.internalserverr ≠ .ok by decide)
  unfold cmdGetSendresponse
  simp only [hcmd, hf, hr, hc, he, List.cons_append, List.nil_append]

theorem cmdGetStart_handler {h : HttpHandler} (hh : ctx.findHandler .get url = some h) :
    cmdGetStart ctx inp c url
      = cmdGetSendresponse inp { c with commandType := .get, handler := some h } h url := by
  unfold cmdGetStart selectHandler
  simp only [hh]

theorem cmdGetStart_file {f : HttpFile} (hh : ctx.findHandler .get url = none)
    (hc : c.handler = none) (hf : ctx.findFile url = some f) :
    cmdGetStart ctx inp c url
      = cmdGetSendfile inp { c with commandType := .get, file := some f } f (some url) := by
  unfold cmdGetStart selectHandler selectFile
  simp only [hh, hc, hf]

theorem cmdGetStart_notFound (hh : ctx.findHandler .get url = none)
    (hc : c.handler = none) (hf : ctx.findFile url = none) (hcf : c.file = none) :
    cmdGetStart ctx inp c url = ⟨inp.send 0, c.clear, [errorEvent N inp .notfound]⟩ := by
  obtain ⟨hr, hcl, he⟩ := sendHeader_error inp { c with commandType := .get }
    (show Status.notfound ≠ .ok by decide)
  unfold cmdGetStart selectHandler selectFile
  simp only [hh, hc, hf, hcf] at hr hcl he ⊢
  rw [hr, hcl, he]
  rfl

/-- `cmd_get_start` for a client with nothing selected. -/
theorem cmdGetStart_start {req : Request} {rest : Bytes} (hget : req.cmdType = .get)
    (hfile : c.file = none) (hhandler : c.handler = none) (hoff : c.fileOffset = 0)
    (hsent : c.headerSent = false) :
    Start ctx inp req rest
      { cmdGetStart ctx inp c req.url with
        client := { (cmdGetStart ctx inp c req.url).client with rxLen := 0 } } := by
  cases hh : ctx.findHandler .get req.url with
  | some h =>
    have hcmd := (Context.findHandler_spec hh).2.1
    rw [cmdGetStart_handler hh]
    by_cases hf : h.function = none
    · rw [cmdGetSendresponse_error hcmd hf]
      exact Start.getError (d := { c with commandType := .get, handler := some h }) hget hh hf
    · rw [cmdGetSendresponse_reply hcmd hf]
      exact Start.getReply (c := { c with commandType := .get, handler := some h })
        (d := (sendReply inp { c with commandType := .get, handler := some h } _ _).client)
        hget hh hf
  | none =>
    cases hf : ctx.findFile req.url with
    | some f =>
      rw [cmdGetStart_file hh hhandler hf]
      exact Start.getFile (c := { c with commandType := .get, file := some f }) hget hh hf
        ⟨rfl, rfl, hhandler, hoff, hsent⟩
    | none =>
      rw [cmdGetStart_notFound hh hhandler hf hfile]
      exact Start.getNotFound (d := c) hget hh hf

end

/-! ### POST -/

section

variable {ctx : Context} {inp : Input} {c : Client N} {h : HttpHandler}

theorem cmdPostNext_reply (hh : c.handler = some h)
    (hdone : u32Sub c.contentLength c.fileOffset = 0) :
    cmdPostNext inp c
      = ⟨replyResult inp c h none (ascii "text/plain"),
          (sendReply inp c (callReply inp h (some N.txBuf) none)
            (ascii "text/plain")).client.clear,
          replyEvents inp c h none (ascii "text/plain") ++ [.fdClr [.read, .write]]⟩ := by
  unfold cmdPostNext replyResult replyEvents
  simp only [hh, hdone, Nat.lt_irrefl, if_false]

theorem cmdPostStart_notFound {url : CString} {data : Bytes}
    (hh : ctx.findHandler .post url = none) (hc : c.handler = none) :
    cmdPostStart ctx inp c url data = ⟨inp.send 0, c.clear, [errorEvent N inp .notfound]⟩ := by
  obtain ⟨hr, hcl, he⟩ := sendHeader_error inp { c with commandType := .post }
    (show Status.notfound ≠ .ok by decide)
  unfold cmdPostStart selectHandler
  simp only [hh, hc] at hr hcl he ⊢
  rw [hr, hcl, he]
  rfl

/-- The handler gets what is there of the body, and then either answers or waits. -/
theorem cmdPostStart_handler {url : CString} {data : Bytes}
    (hh : ctx.findHandler .post url = some h) (hoff : c.fileOffset = 0)
    (hn : c.contentLength < 2 ^ 32) :
    cmdPostStart ctx inp c url data
      = if c.contentLength ≤ data.length then
          { cmdPostNext inp { c with
              commandType := .post
              handler := some h
              fileOffset := c.contentLength } with
            events := chunkEvents h (data.take c.contentLength)
              ++ (cmdPostNext inp { c with
                  commandType := .post
                  handler := some h
                  fileOffset := c.contentLength }).events }
        else
          ⟨0, { c with commandType := .post, handler := some h, fileOffset := data.length },
            chunkEvents h data ++ [.fdSet [.read]]⟩ := by
  have hcalled : ∀ k ≤ data.length,
      (if 0 < k then [chunkEvent h (data.take k)] else []) = chunkEvents h (data.take k) := by
    intro k hk
    rw [chunkEvents]
    by_cases hpos : 0 < k
    · rw [if_pos hpos, if_neg]
      rw [← ne_eq, ← List.length_pos_iff_ne_nil, List.length_take]
      omega
    · rw [if_neg hpos, if_pos]
      rw [← List.length_eq_zero_iff, List.length_take]
      omega
  -- the offset is 0, so the length of the piece does not wrap
  unfold cmdPostStart selectHandler cmdPostStartHandler
  simp only [hh, hoff, Nat.zero_le, if_true, u32Sub_of_le (Nat.zero_le _) hn, Nat.sub_zero,
    Nat.zero_add]
  rw [hcalled _ (Nat.min_le_right _ _)]
  split
  · next hle =>
    rw [u32_of_lt (by omega)] at hle
    rw [if_pos (by omega), Nat.min_eq_left (by omega), u32_of_lt hn]
  · next hlt =>
    rw [u32_of_lt (by omega)] at hlt
    rw [if_neg (by omega), Nat.min_eq_right (by omega), u32_of_lt (by omega), List.take_length]

/-- `cmd_post_start` for a client with nothing selected and `n` as the length of the body. -/
theorem cmdPostStart_start {req : Request} {rest : Bytes} {n : Nat} (hpost : req.cmdType = .post)
    (hlen : req.length = some n) (hn : n < 2 ^ 32) (hcl : c.contentLength = n)
    (hfile : c.file = none) (hhandler : c.handler = none) (hoff : c.fileOffset = 0)
    (hsent : c.headerSent = false) :
    Start ctx inp req rest
      { cmdPostStart ctx inp c req.url rest with
        client := { (cmdPostStart ctx inp c req.url rest).client with rxLen := 0 } } := by
  subst hcl
  cases hh : ctx.findHandler .post req.url with
  | none =>
    rw [cmdPostStart_notFound hh hhandler]
    exact Start.postNotFound (d := c) hpost hh
  | some h =>
    rw [cmdPostStart_handler hh hoff hn]
    split
    · next hle =>
      -- the whole body came with the block, and `post_next` answers at once
      rw [cmdPostNext_reply (h := h) rfl (u32Sub_of_le (Nat.le_refl _) hn ▸ Nat.sub_self _)]
      exact Start.postReply (d := (sendReply inp _ _ _).client) hpost hlen hh hle
    · next hlt =>
      obtain ⟨hmem, hcmd, -⟩ := Context.findHandler_spec hh
      exact Start.postBody hpost hlen hh (by omega)
        ⟨rfl, hfile, rfl, ⟨hmem, hcmd⟩, hsent, rfl, rfl, by omega, hn, rfl⟩

end

/-! ## The call itself -/

section

variable {ctx : Context} {inp : Input} {c : Client N}

/-- Received bytes go behind the ones that are there. -/
theorem Awaiting.write {acc data : Bytes} (ha : Awaiting c acc)
    (hlen : data.length ≤ N.rxBuf - acc.length) :
    Holding { c with
      bufRx := c.bufRx.write c.rxLen data
      rxLen := min (u32 (c.rxLen + data.length)) N.rxBuf } (acc ++ data) := by
  have hroom := ha.room
  have hmax := N.rxBuf_lt
  refine ⟨ha.command, ha.file, ha.handler, ha.offset, ha.length, ha.header, ?_, ?_⟩
  · simp only [ha.rxLen, List.length_append]
    rw [u32_of_lt (by omega)]
    omega
  · simp only [List.length_append, ha.rxLen]
    rw [Buf.take_write _ (by omega), ha.received]

section

variable {block rest : Bytes}

theorem Holding.take_block (hc : Holding c (block ++ rest)) :
    c.bufRx.bytes.take block.length = block := by
  have h := congrArg (List.take block.length) hc.received
  rw [List.take_take, List.length_append, Nat.min_eq_left (by omega), List.take_left] at h
  exact h

theorem Holding.length_le {acc : Bytes} (hc : Holding c acc) : acc.length ≤ N.rxBuf := by
  have h := congrArg List.length hc.received
  rw [List.length_take, c.bufRx.length_eq] at h
  omega

theorem Holding.hdrEnd_eq {acc : Bytes} (hc : Holding c acc) :
    hdrEnd c.bufRx.bytes c.rxLen = hdrEnd acc acc.length := by
  rw [hc.rxLen, ← hdrEnd_take, hc.received]

/-- The URL, the length and the body, as the code reads them once the URL has its NUL. -/
theorem Holding.terminated (hc : Holding c (block ++ rest)) {i k : Nat} (hk : k ≤ i)
    (hi : i < block.length) :
    CString.ofBytes ((c.bufRx.set i 0).bytes.drop k) = CString.ofBytes ((block.set i 0).drop k) ∧
      contentLength u32Digits (c.bufRx.set i 0).bytes block.length
        = contentLength u32Digits (block.set i 0) block.length ∧
      (c.bufRx.set i 0).slice block.length (u32Sub c.rxLen block.length) = rest := by
  have hblock := hc.take_block
  have hle := hc.length_le
  have hmax := N.rxBuf_lt
  have hbuf := c.bufRx.length_eq
  rw [List.length_append] at hle
  refine ⟨?_, ?_, ?_⟩
  · unfold Buf.set
    rw [CString.ofBytes_set hk (by omega), CString.ofBytes_set hk hi]
    congr 1
    rw [← List.drop_take, ← List.drop_take]
    conv_rhs => rw [← hblock, List.take_take, Nat.min_eq_left (by omega)]
  · unfold Buf.set
    rw [← contentLength_take, List.take_set, hblock]
  · have hrecv := hc.received
    rw [List.length_append] at hrecv
    have hrest := c.bufRx.slice_eq hrecv
    rw [List.drop_left] at hrest
    rw [hc.rxLen, List.length_append, u32Sub_of_le (by omega) (by omega), Nat.add_sub_cancel_left]
    unfold Buf.slice Buf.set at *
    rw [List.drop_set_of_lt hi]
    exact hrest

/-- **What the code makes of a complete header block is what `requestOf` reads off it.** -/
theorem clientWorkHeaders_cases (ctx : Context) (inp : Input) (hc : Holding c (block ++ rest))
    (hb : IsBlock block) :
    (∃ d, (∀ req, requestOf block = some req → req.cmdType = .post ∧ req.length = none) ∧
        clientWorkHeaders ctx inp c block.length = badRequest inp d (-1)) ∨
      ∃ req d n, requestOf block = some req ∧ (req.cmdType = .post → req.length = some n) ∧
        (req.cmdType ≠ .post → n = 0) ∧ n < 2 ^ 32 ∧
        clientWorkHeaders ctx inp c block.length
          = startRequest ctx inp { c with headersDone := true, bufRx := d, contentLength := n }
              req.cmdType req.url rest := by
  have hblock := hc.take_block
  have he : hdrEnd c.bufRx.bytes c.rxLen = some block.length := by
    rw [hc.hdrEnd_eq]
    exact hdrEnd_append hb
  have hcmd := findCmd_block he
  rw [hblock] at hcmd
  unfold clientWorkHeaders requestOf
  cases hf : findCmd block block.length with
  | none =>
    simp only [hcmd, hf]
    exact Or.inl ⟨_, (fun _ h => nomatch h), rfl⟩
  | some cmd =>
    obtain ⟨i, hi, hk, hlt⟩ := urlEnd_isSome he (hcmd.trans hf)
    have hi' := hi
    rw [← urlEnd_take, hblock] at hi'
    obtain ⟨hurl, hlen, hrest⟩ := hc.terminated hk hlt
    simp only [hcmd, hf, hi, hi', hurl, hlen, hrest]
    by_cases hpost : cmd.cmdType = .post
    · cases hcl : contentLength u32Digits (block.set i 0) block.length with
      | none =>
        simp only [hpost, if_true]
        exact Or.inl ⟨_, fun req h => by rw [← Option.some.inj h]; exact ⟨rfl, rfl⟩, rfl⟩
      | some n =>
        simp only [hpost, if_true]
        exact Or.inr ⟨_, _, n, rfl, fun _ => rfl, fun h => absurd rfl h, contentLength_lt hcl, rfl⟩
    · rw [if_neg hpost]
      refine Or.inr ⟨_, c.bufRx.set i 0, 0, rfl, fun h => absurd h hpost, fun _ => rfl,
        by decide, ?_⟩
      simp only [hc.length]

/-- A request is started from a client that holds its header block. -/
theorem cmdProcessStart_start {req : Request} {n : Nat} {b : Buf N.rxBuf}
    (hc : Holding c (block ++ rest)) (hpost : req.cmdType = .post → req.length = some n)
    (hother : req.cmdType ≠ .post → n = 0) (hn : n < 2 ^ 32) :
    let o := cmdProcessStart ctx inp
      { c with headersDone := true, bufRx := b, contentLength := n } req.cmdType req.url rest
    Start ctx inp req rest { o with client := { o.client with rxLen := 0 } } := by
  unfold cmdProcessStart
  split
  · next hget => exact cmdGetStart_start hget hc.file hc.handler hc.offset hc.header
  · next hp =>
    exact cmdPostStart_start hp (hpost hp) hn rfl hc.file hc.handler hc.offset hc.header
  · next hg hp =>
    exact Start.ignored hg hp
      ⟨⟨hc.command, hc.file, hc.handler, hc.offset, hother hp, hc.header, rfl, rfl⟩, N.rxBuf_pos⟩

end

/-- A complete header block goes on to the parser. -/
theorem clientWorkReceived_block {d : Client N} {block rest : Bytes} (result : Int)
    (hd : Holding d (block ++ rest)) (hb : IsBlock block) :
    clientWorkReceived ctx inp d result =
      { clientWorkHeaders ctx inp d block.length with
        events := .headers block (block ++ rest).length
          :: (clientWorkHeaders ctx inp d block.length).events } := by
  rw [clientWorkReceived, hd.hdrEnd_eq, hdrEnd_append hb]
  simp only [hd.take_block, hd.rxLen]

/-- Once bytes have been received, for a client that holds them all. -/
theorem clientWorkReceived_work {d : Client N} {acc data : Bytes} (hcon : inp.connected = true)
    (ha : Awaiting c acc) (hr : inp.recvUpTo (N.rxBuf - acc.length) = .data data)
    (hne : data ≠ []) (hd : Holding d (acc ++ data)) :
    Work ctx inp c
      { clientWorkReceived ctx inp d data.length with
        events := .recv (N.rxBuf - acc.length) (.data data)
          :: (clientWorkReceived ctx inp d data.length).events } := by
  cases he : hdrEnd (acc ++ data) (acc ++ data).length with
  | none =>
    rw [clientWorkReceived, hd.hdrEnd_eq, he]
    simp only [hd.rxLen]
    split
    · next hfull =>
      rw [badRequest_eq]
      exact Work.overflow hcon ha hr hne he hfull
    · next hroom =>
      have := hd.length_le
      exact Work.accumulate hcon ha hr hne he ⟨hd, by omega⟩
  | some e =>
    have hb := isBlock_take (Nat.le_refl _) he
    generalize hrest : (acc ++ data).drop e = rest
    generalize hblock : (acc ++ data).take e = block at hb
    have hsplit : acc ++ data = block ++ rest := by
      rw [← hblock, ← hrest, List.take_append_drop]
    rw [hsplit] at hd
    rw [clientWorkReceived_block _ hd hb, ← hsplit]
    rcases clientWorkHeaders_cases ctx inp hd hb with
      ⟨x, hreq, hbad⟩ | ⟨req, b, n, hreq, hpost, hother, hn, hstart⟩
    · rw [hbad, badRequest_eq]
      exact Work.rejected hcon ha hr hne hsplit hb hreq
    · rw [hstart]
      exact Work.request hcon ha hr hne hsplit hb hreq (cmdProcessStart_start hd hpost hother hn)

/-- The room that is left in the buffer. -/
theorem Awaiting.space {acc : Bytes} (ha : Awaiting c acc) :
    u32Sub N.rxBuf c.rxLen = N.rxBuf - acc.length := by
  have hroom := ha.room
  have hmax := N.rxBuf_lt
  rw [ha.rxLen, u32Sub_of_le (by omega) (by omega)]

/-- A receive that returns nothing, or an error. -/
theorem clientWork_idle {acc : Bytes} (hcon : inp.connected = true) (ha : Awaiting c acc)
    (hr : (inp.recvUpTo (N.rxBuf - acc.length)).result ≤ 0) :
    clientWork ctx inp c
      = ⟨0, c, [.recv (N.rxBuf - acc.length) (inp.recvUpTo (N.rxBuf - acc.length))]⟩ := by
  unfold clientWork
  simp only [if_neg (show ¬ inp.connected = false by simp [hcon]), if_pos ha.command, ha.space,
    if_neg (show ¬ 0 < (inp.recvUpTo (N.rxBuf - acc.length)).result by omega)]

/-- A receive that returns something is appended to what the client holds. -/
theorem clientWork_append (ctx : Context) {acc data : Bytes} (hcon : inp.connected = true)
    (ha : Awaiting c acc) (hr : inp.recvUpTo (N.rxBuf - acc.length) = .data data)
    (hne : data ≠ []) :
    ∃ d, Holding d (acc ++ data) ∧ d.bufRx = c.bufRx.write acc.length data ∧
      clientWork ctx inp c =
        { clientWorkReceived ctx inp d data.length with
          events := .recv (N.rxBuf - acc.length) (.data data)
            :: (clientWorkReceived ctx inp d data.length).events } := by
  have hpos : 0 < (data.length : Int) :=
    Int.natCast_pos.mpr (List.length_pos_iff_ne_nil.mpr hne)
  refine ⟨_, ha.write (Input.recvUpTo_length hr), by rw [ha.rxLen], ?_⟩
  unfold clientWork
  simp only [if_neg (show ¬ inp.connected = false by simp [hcon]), if_pos ha.command, ha.space, hr,
    if_pos hpos, Recv.bytes, Recv.result]

/-- A receive that returns something, from a client that awaits a request. -/
theorem clientWork_receive (ctx : Context) {acc data : Bytes} (hcon : inp.connected = true)
    (ha : Awaiting c acc) (hr : inp.recvUpTo (N.rxBuf - acc.length) = .data data)
    (hne : data ≠ []) :
    ∃ d, Holding d (acc ++ data) ∧ clientWork ctx inp c =
      { clientWorkReceived ctx inp d data.length with
        events := .recv (N.rxBuf - acc.length) (.data data)
          :: (clientWorkReceived ctx inp d data.length).events } := by
  obtain ⟨d, hd, -, hwork⟩ := clientWork_append ctx hcon ha hr hne
  exact ⟨d, hd, hwork⟩

/-- A client with a command does not look for a request. -/
theorem clientWork_next (hcon : inp.connected = true) (hc : c.commandType ≠ .unknown) :
    clientWork ctx inp c = cmdProcessNext inp c := by
  unfold clientWork
  rw [if_neg (by simp [hcon]), if_neg hc]

theorem clientWork_sending {f : HttpFile} {off : Nat} (hcon : inp.connected = true)
    (hs : Sending c f off) : clientWork ctx inp c = cmdGetSendfile inp c f none := by
  rw [clientWork_next hcon (by rw [hs.command]; decide), cmdProcessNext, hs.command]
  simp only [cmdGetNext, hs.file]

theorem clientWork_receiving {h : HttpHandler} {n off : Nat} (hcon : inp.connected = true)
    (hv : Receiving ctx c h n off) : clientWork ctx inp c = cmdPostNext inp c := by
  rw [clientWork_next hcon (by rw [hv.command]; decide), cmdProcessNext, hv.command]

theorem cmdPostNext_work {h : HttpHandler} {n off : Nat} (hcon : inp.connected = true)
    (hv : Receiving ctx c h n off) : Work ctx inp c (cmdPostNext inp c) := by
  have hle := hv.le
  have hlt := hv.lt
  have hrem : u32Sub c.contentLength c.fileOffset = n - off := by
    rw [hv.length, hv.offset, u32Sub_of_le hle hlt]
  by_cases hdone : off = n
  · subst hdone
    rw [cmdPostNext_reply hv.handler (by omega)]
    exact Work.bodyReply hcon hv
  · unfold cmdPostNext
    simp only [hv.handler, hrem, if_pos (show 0 < n - off by omega)]
    split
    · next hpos =>
      obtain ⟨data, hdata, hne⟩ := Recv.data_of_result hpos
      have hlen := Input.recvUpTo_length hdata
      have htake := c.bufRx.slice_write (show data.length ≤ N.rxBuf by omega)
      have hmin : min data.length (n - off) = data.length := by omega
      simp only [hdata, Recv.bytes, Recv.result, hmin, htake,
        hv.offset, u32_of_lt (show off + data.length < 2 ^ 32 by omega)]
      exact Work.bodyChunk hcon hv hdata hne (by omega)
        ⟨hv.command, hv.file, rfl, hv.registered, hv.header, hv.length, rfl, by omega, hlt,
          hv.rxLen⟩
    · next hno =>
      exact Work.bodyNone hcon hv (by omega) (by omega)

/-- **`Work` is everything a call can do.** -/
theorem clientWork_work (hc : ClientInv ctx c) (inp : Input) :
    Work ctx inp c (clientWork ctx inp c) := by
  by_cases hcon : inp.connected = true
  · rcases hc with ⟨acc, ha⟩ | ⟨f, off, hs⟩ | ⟨h, n, off, hv⟩
    · by_cases hpos : 0 < (inp.recvUpTo (N.rxBuf - acc.length)).result
      · obtain ⟨data, hdata, hne⟩ := Recv.data_of_result hpos
        obtain ⟨d, hd, heq⟩ := clientWork_receive ctx hcon ha hdata hne
        rw [heq]
        exact clientWorkReceived_work hcon ha hdata hne hd
      · rw [clientWork_idle hcon ha (by omega)]
        exact Work.idle hcon ha (by omega)
    · rw [clientWork_sending hcon hs]
      exact Work.sendFile hcon hs
    · rw [clientWork_receiving hcon hv]
      exact cmdPostNext_work hcon hv
  · have hcon : inp.connected = false := by simpa using hcon
    rw [clientWork, if_pos hcon]
    exact Work.disconnected hcon

end

end UniNet.Http
