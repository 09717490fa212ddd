import UniNet.Http.RequestLine
import UniNet.Http.Interest

/-!
# What is left of a request

Two things of a request outlive it. The rest of a rejected one may still be on its way: three of
the four places that answer 400 end the connection, and the one for a header block that does
not fit keeps it, so that the rest of the block is read as the next request. And `buf_rx` is
never cleared, while a GET handler gets all of it.

* `rejected_ends_iff` — a 400 ends the connection, unless the header block filled the buffer
* `clientRun_request` — what a GET handler gets to see, behind any history
* `get_input_same_iff` — two histories look the same to it if they left the same bytes
-/

namespace UniNet.Http

open Infra

variable {N : NetConfig}

/-! ## The rest of a rejected request -/

/-- The call fills the buffer, and there is no complete header block in it. -/
def overflows (inp : Input) (c : Client N) : Bool :=
  inp.connected && decide (c.commandType = .unknown)
    && decide (0 < (inp.recvUpTo (N.rxBuf - c.rxLen)).result)
    && (hdrEnd (c.gathered inp) (c.gathered inp).length).isNone
    && decide ((c.gathered inp).length = N.rxBuf)

def Event.isRejection : Event → Bool
  | .sendHeader .badrequest _ _ _ => true
  | _ => false

theorem Out.not_answers400 {o : Out N} (h : ∀ e ∈ o.events, e.isRejection = false) :
    ¬ o.answers400 := by
  rintro ⟨header, result, hmem⟩
  have hno := h _ hmem
  simp [Event.isRejection] at hno

theorem Event.isRejection_of_isTransfer {e : Event} (h : e.isTransfer = true) :
    e.isRejection = false := by
  cases e <;> first | rfl | cases h

section

variable {ctx : Context} {inp : Input} {c : Client N} {o : Out N} {acc data : Bytes}

theorem Awaiting.overflows_iff (hcon : inp.connected = true) (ha : Awaiting c acc)
    (hr : inp.recvUpTo (N.rxBuf - acc.length) = .data data) (hne : data ≠ []) :
    overflows inp c = true ↔
      hdrEnd (acc ++ data) (acc ++ data).length = none ∧ (acc ++ data).length = N.rxBuf := by
  have hpos : 0 < (data.length : Int) :=
    Int.natCast_pos.mpr (List.length_pos_iff_ne_nil.mpr hne)
  unfold overflows
  simp only [hcon, ha.command, ha.gathered_eq hr, ha.rxLen, hr, Recv.result, hpos, decide_true,
    Bool.and_self, Bool.true_and, Bool.and_eq_true, Option.isNone_iff_eq_none, decide_eq_true_eq]

/-- Sending a file is no 400. -/
theorem cmdGetSendfile_isRejection {f : HttpFile} (url : Option CString) (hc : Selected c f) :
    ∀ e ∈ (cmdGetSendfile inp c f url).events, e.isRejection = false := by
  obtain ⟨tail, htail, hall⟩ := cmdGetSendfile_events inp url hc
  rw [htail, List.forall_mem_append]
  refine ⟨?_, fun e he => Event.isRejection_of_isTransfer (hall e he)⟩
  unfold sendfileHeader
  split
  · simp
  · simp [sendHeader, Event.isRejection]

/-- Neither is the reply of a handler. -/
theorem replyEvents_isRejection (inp : Input) (c : Client N) (h : HttpHandler)
    (bufIn : Option Bytes) (type : Bytes) :
    ∀ e ∈ replyEvents inp c h bufIn type, e.isRejection = false :=
  forall_mem_replyEvents (·.isRejection = false) rfl (fun _ => rfl) (fun _ => rfl)
    (fun _ _ _ => rfl) fun _ _ => rfl

/-- A request that is started is not answered 400. -/
theorem Start.isRejection {req : Request} {rest : Bytes} (h : Start ctx inp req rest o) :
    ∀ e ∈ o.events, e.isRejection = false := by
  cases h with
  | ignored _ _ _ => simp
  | getReply _ _ _ =>
    rw [List.forall_mem_append, List.forall_mem_singleton]
    exact ⟨replyEvents_isRejection _ _ _ _ _, rfl⟩
  | getError _ _ _ => simp [errorEvent, Event.isRejection]
  | getFile _ _ _ hc => exact cmdGetSendfile_isRejection _ (selected_of_getFile hc)
  | getNotFound _ _ _ => simp [errorEvent, Event.isRejection]
  | postNotFound _ _ => simp [errorEvent, Event.isRejection]
  | postBody _ _ _ _ _ =>
    rw [List.forall_mem_append, List.forall_mem_singleton]
    exact ⟨forall_mem_chunkEvents (·.isRejection = false) rfl fun _ => rfl, rfl⟩
  | postReply _ _ _ _ =>
    simp only [List.forall_mem_append, List.forall_mem_singleton]
    exact ⟨forall_mem_chunkEvents (·.isRejection = false) rfl fun _ => rfl,
      replyEvents_isRejection _ _ _ _ _, rfl⟩

/--
**The four answers 400.** Either the header block fills the buffer, and the client is kept and
waits for its next request; or a 400, if there is one, comes with a negative result.
-/
theorem Work.rejection (h : Work ctx inp c o) :
    (overflows inp c = true ∧ o.answers400 ∧ 0 < o.result ∧ Awaiting o.client []) ∨
      (overflows inp c = false ∧ (o.answers400 → o.result < 0)) := by
  cases h with
  | disconnected hcon => exact Or.inr ⟨by simp [overflows, hcon], fun _ => by simp⟩
  | idle hcon ha hr =>
    refine Or.inr ⟨?_, fun h400 => absurd h400 (Out.not_answers400 (by simp [Event.isRejection]))⟩
    simp [overflows, ha.rxLen, Int.not_lt.mpr hr]
  | accumulate hcon ha hr hne hno ha' =>
    have hroom := ha'.room
    refine Or.inr ⟨?_, fun h400 => absurd h400 (Out.not_answers400 (by simp [Event.isRejection]))⟩
    rw [← Bool.not_eq_true, ha.overflows_iff hcon hr hne]
    omega
  | overflow hcon ha hr hne hno hfull =>
    refine Or.inl ⟨(ha.overflows_iff hcon hr hne).mpr ⟨hno, hfull⟩,
      ⟨headerBytes N .badrequest none 0, inp.send 0, by simp [errorEvent]⟩, ?_, awaiting_clear _⟩
    exact Int.natCast_pos.mpr (List.length_pos_iff_ne_nil.mpr hne)
  | rejected hcon ha hr hne hsplit hb hreq =>
    refine Or.inr ⟨?_, fun _ => by simp⟩
    rw [← Bool.not_eq_true, ha.overflows_iff hcon hr hne, hsplit, hdrEnd_append hb]
    simp
  | request hcon ha hr hne hsplit hb hreq hs =>
    refine Or.inr ⟨?_, fun h400 => absurd h400 (Out.not_answers400 ?_)⟩
    · rw [← Bool.not_eq_true, ha.overflows_iff hcon hr hne, hsplit, hdrEnd_append hb]
      simp
    · simpa [Event.isRejection] using hs.isRejection
  | sendFile hcon hs =>
    refine Or.inr ⟨by simp [overflows, hs.command], fun h400 => absurd h400 ?_⟩
    exact Out.not_answers400 (cmdGetSendfile_isRejection none hs.serving.selected)
  | bodyNone hcon hv hlt hr =>
    refine Or.inr ⟨by simp [overflows, hv.command], fun h400 => absurd h400 ?_⟩
    exact Out.not_answers400 (by simp [Event.isRejection])
  | bodyChunk hcon hv hr hne hle hv' =>
    refine Or.inr ⟨by simp [overflows, hv.command], fun h400 => absurd h400 ?_⟩
    refine Out.not_answers400 ?_
    rw [List.forall_mem_cons, List.forall_mem_singleton]
    exact ⟨rfl, callEvent_cases (·.isRejection = false) rfl fun _ => rfl⟩
  | bodyReply hcon hv =>
    refine Or.inr ⟨by simp [overflows, hv.command], fun h400 => absurd h400 ?_⟩
    refine Out.not_answers400 ?_
    rw [List.forall_mem_append, List.forall_mem_singleton]
    exact ⟨replyEvents_isRejection _ _ _ _ _, rfl⟩

end

/--
**A 400 ends the connection**, with a negative result and an empty slot, exactly if the call does
not fill the buffer without a complete header block. That call answers 400 as well, returns a
positive result and keeps the client, which takes the next byte for the first one of a request.
-/
theorem rejected_ends_iff (ctx : Context) (c : Client N) (hc : ClientInv ctx c) (inp : Input) :
    (((clientWork ctx inp c).answers400 →
        (clientWork ctx inp c).result < 0 ∧ (slotWork ctx inp (some c)).1 = none) ↔
      overflows inp c = false) ∧
    (overflows inp c = true → (clientWork ctx inp c).answers400 ∧
      0 < (clientWork ctx inp c).result ∧
      ∃ d, (slotWork ctx inp (some c)).1 = some d ∧ Awaiting d []) := by
  unfold slotWork
  dsimp only
  rcases (clientWork_work hc inp).rejection with ⟨ho, h400, hpos, ha⟩ | ⟨ho, hneg⟩
  · rw [if_neg (by omega), ho]
    refine ⟨⟨fun h => ?_, by simp⟩, fun _ => ⟨h400, hpos, _, rfl, ha⟩⟩
    have hres := (h h400).1
    omega
  · rw [ho]
    refine ⟨⟨fun _ => rfl, fun _ h400 => ⟨hneg h400, ?_⟩⟩, by simp⟩
    rw [if_pos (hneg h400)]

/-- An unknown method is answered 400, and the connection ends. -/
theorem rejected_ends_unknown :
    let ctx : Context := ⟨⟨true, []⟩, ⟨true, []⟩, 1⟩
    let inp : Input := { Input.idle with recv := .data (ascii "BREW / HTTP/1.1\r\n\r\n") }
    let c := Client.new NetConfig.default 7
    overflows inp c = false ∧ ((clientWork ctx inp c).answers400 →
      (clientWork ctx inp c).result < 0 ∧ (slotWork ctx inp (some c)).1 = none) := by
  intro ctx inp c
  have hno : overflows inp c = false := by decide +kernel
  exact ⟨hno, (rejected_ends_iff ctx c (Or.inl ⟨[], awaiting_new _ 7⟩) inp).1.mpr hno⟩

/-- A buffer full of `A` has no complete header block in it. -/
theorem hdrEnd_replicate (n : Nat) : hdrEnd (List.replicate n 65) n = none := by
  rw [Option.eq_none_iff_forall_ne_some]
  intro e he
  obtain ⟨⟨h4, hle⟩, ⟨hcr, -⟩, -⟩ := hdrEnd_eq_some.mp he
  have hbyte := (crlfAt_eq_true.mp hcr).1
  rw [byteAt, List.getD_replicate 65 (show e - 4 < n by omega)] at hbyte
  cases hbyte

theorem requestLine_getA : RequestLine (ascii "GET /a HTTP/1.1\r\n\r\n") ⟨3, ascii "GET", .get⟩ 32
    (ascii "/a") :=
  ⟨by decide, ⟨32, ascii "HTTP/1.1\r\n\r\n", by decide, by decide⟩, by decide +kernel⟩

/-- A peer that sends as many `A` as there is room for. -/
def Input.flood (N : NetConfig) : Input :=
  { Input.idle with recv := .data (List.replicate N.rxBuf 65) }

theorem overflows_flood {c : Client N} (ha : Awaiting c []) : overflows (.flood N) c = true := by
  have hpos := N.rxBuf_pos
  have hr : (Input.flood N).recvUpTo (N.rxBuf - ([] : Bytes).length)
      = .data (List.replicate N.rxBuf 65) := by
    simp [Input.flood, Input.recvUpTo]
  have hne : List.replicate N.rxBuf (65 : UInt8) ≠ [] := by
    simp only [ne_eq, List.replicate_eq_nil_iff]
    omega
  rw [ha.overflows_iff rfl hr hne, List.nil_append, List.length_replicate]
  exact ⟨hdrEnd_replicate _, rfl⟩

/--
A header block of which the first part fills the buffer is answered 400. Its second part is
served as a request, of the peer's choice.
-/
theorem rejected_not_ended :
    let ctx : Context := ⟨⟨true, []⟩, ⟨true, []⟩, 1⟩
    let rest : Input := { Input.idle with recv := .data (ascii "GET /a HTTP/1.1\r\n\r\n") }
    let o := clientWork ctx (.flood NetConfig.default) (Client.new NetConfig.default 7)
    o.answers400 ∧ 0 < o.result ∧
      .start .get (CString.ofBytes (ascii "/a")) ∈ (clientWork ctx rest o.client).events := by
  intro ctx rest o
  have hnew : Awaiting (Client.new NetConfig.default 7) [] := awaiting_new _ 7
  have hwork : Work ctx (.flood NetConfig.default) (Client.new NetConfig.default 7) o :=
    clientWork_work (Or.inl ⟨[], hnew⟩) _
  rcases hwork.rejection with ⟨-, h400, hpos, ha⟩ | ⟨hno, -⟩
  · refine ⟨h400, hpos, ?_⟩
    have hr : rest.recvUpTo (NetConfig.default.rxBuf - ([] : Bytes).length)
        = .data (ascii "GET /a HTTP/1.1\r\n\r\n") := by decide +kernel
    have hstart := clientWork_dispatched ctx rfl ha hr (by decide)
      (show [] ++ _ = ascii "GET /a HTTP/1.1\r\n\r\n" ++ [] from (List.append_nil _).symm)
      (by decide)
    rw [hstart.1, dispatches_iff requestLine_getA]
    exact ⟨rfl, rfl, fun h => by cases h⟩
  · rw [overflows_flood hnew] at hno
    cases hno

/-! ## The rest of earlier requests -/

/-- The calls of handler functions in a log. -/
def handlerCalls (log : List Event) : List HandlerCall :=
  log.filterMap fun e => match e with
    | .call k => some k
    | _ => none

@[simp] theorem handlerCalls_append (log more : List Event) :
    handlerCalls (log ++ more) = handlerCalls log ++ handlerCalls more :=
  List.filterMap_append

/-- A client in its slot, over a number of iterations. -/
def clientRun (ctx : Context) (inps : List Input) (c : Client N) :
    Option (Client N) × List Event :=
  run (slotStep ctx) (inps.map fun inp => ⟨none, inp⟩) (some c)

/--
A header block and what follows it come in these receives, and the block is complete with the
last one.
-/
structure Delivers (N : NetConfig) (first : List Input) (last : Input) (block rest : Bytes) :
    Prop where
  connected : ∀ inp ∈ first ++ [last], inp.connected = true
  received : ∀ inp ∈ first ++ [last], ∃ data, inp.recv = .data data ∧ data ≠ []
  all : (first ++ [last]).flatMap (·.recv.bytes) = block ++ rest
  before : (first.flatMap (·.recv.bytes)).length < block.length
  fits : (block ++ rest).length ≤ N.rxBuf

/-- Behind the first `n` bytes the two receive buffers are the same. -/
def SameBehind (n : Nat) (c d : Client N) : Prop := c.bufRx.bytes.drop n = d.bufRx.bytes.drop n

section

variable {ctx : Context} {inp : Input} {c d : Client N} {acc data block rest : Bytes}

theorem SameBehind.mono {n m : Nat} (h : SameBehind n c d) (hle : n ≤ m) : SameBehind m c d := by
  unfold SameBehind at h ⊢
  rw [← Nat.add_sub_cancel' hle, ← List.drop_drop, ← List.drop_drop, h]

theorem SameBehind.trans {n : Nat} {e : Client N} (h : SameBehind n c d) (h' : SameBehind n d e) :
    SameBehind n c e :=
  Eq.trans h h'

/-- There is room for all that comes. -/
theorem recvUpTo_of_fits (hr : inp.recv = .data data)
    (hfits : (acc ++ data).length ≤ N.rxBuf) :
    inp.recvUpTo (N.rxBuf - acc.length) = .data data := by
  rw [List.length_append] at hfits
  unfold Input.recvUpTo
  rw [hr]
  simp only [List.take_of_length_le (show data.length ≤ N.rxBuf - acc.length by omega)]

/-- What is received goes where it belongs, and nowhere else. -/
theorem SameBehind.write (hfits : (acc ++ data).length ≤ N.rxBuf)
    (hd : d.bufRx = c.bufRx.write acc.length data) : SameBehind (acc ++ data).length d c := by
  rw [List.length_append] at hfits ⊢
  unfold SameBehind
  rw [hd, Buf.drop_write _ hfits]

/-- **A receive that does not complete the block** is kept, and nothing else happens. -/
theorem slotStep_part (ctx : Context) (hcon : inp.connected = true) (ha : Awaiting c acc)
    (hr : inp.recv = .data data) (hne : data ≠ []) (hb : IsBlock block)
    (hpart : acc ++ data <+: block ++ rest) (hlt : (acc ++ data).length < block.length)
    (hfits : block.length ≤ N.rxBuf) :
    ∃ d, slotStep ctx ⟨none, inp⟩ (some c)
          = (some d, [.recv (N.rxBuf - acc.length) (.data data)]) ∧
      Awaiting d (acc ++ data) ∧ SameBehind (acc ++ data).length d c := by
  have hup : inp.recvUpTo (N.rxBuf - acc.length) = .data data := recvUpTo_of_fits hr (by omega)
  obtain ⟨d, hd, hbuf, hwork⟩ := clientWork_append ctx hcon ha hup hne
  have hend : hdrEnd (acc ++ data) (acc ++ data).length = none := by
    rw [hb.hdrEnd_part hpart, if_neg (by omega)]
  have hwait : clientWorkReceived ctx inp d data.length = ⟨data.length, d, []⟩ := by
    rw [clientWorkReceived, hd.hdrEnd_eq, hend]
    simp only [hd.rxLen]
    rw [if_neg (by omega)]
  refine ⟨d, ?_, ⟨hd, by omega⟩, .write (by omega) hbuf⟩
  simp only [slotStep, slotAccept, slotWork, hwork, hwait, List.nil_append]
  rw [if_neg (by omega)]

/-- **All receives up to the last one.** -/
theorem clientRun_part (ctx : Context) (first : List Input) (hb : IsBlock block)
    (hcon : ∀ inp ∈ first, inp.connected = true)
    (hr : ∀ inp ∈ first, ∃ data, inp.recv = .data data ∧ data ≠ [])
    (hpart : acc ++ first.flatMap (·.recv.bytes) <+: block ++ rest)
    (hlt : (acc ++ first.flatMap (·.recv.bytes)).length < block.length)
    (hfits : block.length ≤ N.rxBuf) (ha : Awaiting c acc) :
    ∃ d, (clientRun ctx first c).1 = some d ∧ handlerCalls (clientRun ctx first c).2 = [] ∧
      Awaiting d (acc ++ first.flatMap (·.recv.bytes)) ∧
      SameBehind (acc ++ first.flatMap (·.recv.bytes)).length d c := by
  induction first generalizing acc c with
  | nil => exact ⟨c, rfl, rfl, by simpa using ha, rfl⟩
  | cons inp first ih =>
    rw [List.forall_mem_cons] at hcon hr
    obtain ⟨⟨data, hdata, hne⟩, hr⟩ := hr
    rw [List.flatMap_cons, hdata, Recv.bytes, ← List.append_assoc] at hpart hlt ⊢
    have hle : (acc ++ data).length ≤ (acc ++ data ++ first.flatMap (·.recv.bytes)).length :=
      (List.prefix_append ..).length_le
    obtain ⟨c', hstep, ha', hsame⟩ := slotStep_part ctx hcon.1 ha hdata hne hb
      ((List.prefix_append ..).trans hpart) (by omega) hfits
    obtain ⟨d, hrun, hcalls, hd, hsame'⟩ := ih hcon.2 hr hpart hlt ha'
    refine ⟨d, ?_, ?_, hd, hsame'.trans (hsame.mono hle)⟩
    · rw [clientRun, List.map_cons, run, hstep]
      exact hrun
    · rw [clientRun, List.map_cons, run, hstep, handlerCalls_append]
      exact hcalls

/-- Where the NUL goes that ends the URL of a block. -/
def urlStop (block : Bytes) : Option Nat :=
  (findCmd block block.length).bind fun cmd => urlEnd block (cmd.cmdLen + 1) block.length

/-- The front of `buf_rx` when the handler of a GET is called. -/
def shownFront (block rest : Bytes) : Bytes := (block ++ rest).set ((urlStop block).getD 0) 0

theorem urlStop_lt (hb : IsBlock block) : (urlStop block).getD 0 < block.length := by
  have hlen := (hdrEnd_eq_some.mp hb).1.1
  cases hstop : urlStop block with
  | none =>
    rw [Option.getD_none]
    omega
  | some i =>
    obtain ⟨cmd, -, hi⟩ := Option.bind_eq_some_iff.mp hstop
    exact (findFrom_eq_some.mp hi).1.2

/-- A GET is started with its header block in the buffer, and a NUL behind its URL. -/
theorem clientWorkHeaders_get (ctx : Context) (inp : Input) (hc : Holding c (block ++ rest))
    (hb : IsBlock block) {req : Request} (hreq : requestOf block = some req)
    (hget : req.cmdType = .get) :
    clientWorkHeaders ctx inp c block.length
      = startRequest ctx inp
          { c with headersDone := true, bufRx := c.bufRx.set ((urlStop block).getD 0) 0 }
          .get req.url rest := by
  have hblock := hc.take_block
  have he : hdrEnd c.bufRx.bytes c.rxLen = some block.length := by
    rw [hc.hdrEnd_eq]
    exact hdrEnd_append hb
  have hcmd := findCmd_block he
  rw [hblock] at hcmd
  unfold requestOf at hreq
  cases hf : findCmd block block.length with
  | none => simp [hf] at hreq
  | some cmd =>
    obtain ⟨i, hi, hk, hlt⟩ := urlEnd_isSome he (hcmd.trans hf)
    have hi' := hi
    rw [← urlEnd_take, hblock] at hi'
    have hstop : (urlStop block).getD 0 = i := by
      rw [urlStop, hf, Option.bind_some, hi', Option.getD_some]
    simp only [hf, hi', Option.some.injEq] at hreq
    subst hreq
    obtain ⟨hurl, -, hrest⟩ := hc.terminated hk hlt
    have hcmdType : cmd.cmdType = .get := hget
    unfold clientWorkHeaders
    simp only [hcmd, hf, hi, hurl, hrest, hstop, hcmdType, reduceCtorEq, if_false]

theorem handlerCalls_sendReply (inp : Input) (c : Client N) (reply : HandlerReply) (type : Bytes) :
    handlerCalls (sendReply inp c reply type).events = [] := by
  unfold sendReply
  simp only [sendHeader, ne_eq, not_true_eq_false, if_false]
  split <;> rfl

/-- **The handler of a GET gets the whole buffer.** -/
theorem handlerCalls_get (ctx : Context) (inp : Input) {h : HttpHandler} {f : Nat} {url : CString}
    (hh : ctx.findHandler .get url = some h) (hf : h.function = some f) :
    handlerCalls (startRequest ctx inp c .get url rest).events
      = [⟨f, h.userdata, some N.txBuf, some c.bufRx.bytes⟩] := by
  have hcmd := (Context.findHandler_spec hh).2.1
  have hne : h.function ≠ none := by
    rw [hf]
    exact Option.some_ne_none f
  unfold startRequest cmdProcessStart
  dsimp only
  rw [cmdGetStart_handler hh, cmdGetSendresponse_reply hcmd hne]
  unfold replyEvents callEvent
  simp only [hf, handlerCalls, List.filterMap_cons, List.filterMap_append, List.filterMap_nil,
    List.append_nil]
  rw [← handlerCalls, handlerCalls_sendReply]

/-- Deleting a client calls no handler. -/
theorem handlerCalls_slotStep (ctx : Context) (inp : Input) (c : Client N) :
    handlerCalls (slotStep ctx ⟨none, inp⟩ (some c)).2
      = handlerCalls (clientWork ctx inp c).events := by
  simp only [slotStep, slotAccept, slotWork, List.nil_append]
  split
  · rw [handlerCalls_append]
    exact List.append_nil _
  · rfl

/-- A buffer whose front is known. -/
theorem Holding.bytes_eq (hd : Holding d acc) :
    d.bufRx.bytes = acc ++ d.bufRx.bytes.drop acc.length := by
  conv_lhs => rw [← List.take_append_drop acc.length d.bufRx.bytes, hd.received]

/--
**What the handler of a GET gets to see**: its own request, with a NUL behind the URL, and then
what earlier requests have left in the buffer.
-/
theorem clientRun_request (ctx : Context) {first : List Input} {last : Input}
    (hdel : Delivers N first last block rest) (hb : IsBlock block) {req : Request}
    (hreq : requestOf block = some req) (hget : req.cmdType = .get) {h : HttpHandler} {f : Nat}
    (hh : ctx.findHandler .get req.url = some h) (hf : h.function = some f)
    (ha : Awaiting c []) :
    handlerCalls (clientRun ctx (first ++ [last]) c).2 = [⟨f, h.userdata, some N.txBuf,
      some (shownFront block rest ++ c.bufRx.bytes.drop (block ++ rest).length)⟩] := by
  obtain ⟨hcon, hrecv, hall, hbefore, hfits⟩ := hdel
  rw [List.forall_mem_append, List.forall_mem_singleton] at hcon hrecv
  obtain ⟨data, hdata, hne⟩ := hrecv.2
  rw [List.flatMap_append, List.flatMap_singleton, hdata, Recv.bytes] at hall
  have hblock : block.length ≤ N.rxBuf :=
    Nat.le_trans (List.prefix_append ..).length_le hfits
  have hpart : [] ++ first.flatMap (·.recv.bytes) <+: block ++ rest :=
    hall ▸ List.prefix_append ..
  obtain ⟨d, hrun, hcalls, hd, hsame⟩ :=
    clientRun_part ctx first hb hcon.1 hrecv.1 hpart hbefore hblock ha
  rw [List.nil_append] at hd hsame
  -- the last receive completes the block
  have hup : last.recvUpTo (N.rxBuf - (first.flatMap (·.recv.bytes)).length) = .data data :=
    recvUpTo_of_fits hdata (hall ▸ hfits)
  obtain ⟨e, he, hbuf, hwork⟩ := clientWork_append ctx hcon.2 hd hup hne
  have hbehind : SameBehind (block ++ rest).length e c := by
    have hle : (first.flatMap (·.recv.bytes)).length ≤ (block ++ rest).length :=
      hall ▸ (List.prefix_append ..).length_le
    have hwrite := SameBehind.write (hall ▸ hfits) hbuf
    rw [hall] at hwrite
    exact hwrite.trans (hsame.mono hle)
  rw [hall] at he
  have hbytes : (e.bufRx.set ((urlStop block).getD 0) 0).bytes
      = shownFront block rest ++ c.bufRx.bytes.drop (block ++ rest).length := by
    have hlt := urlStop_lt hb
    rw [← hbehind, shownFront, ← List.set_append_left, ← he.bytes_eq, Buf.set]
    rw [List.length_append]
    omega
  have hsplit : clientRun ctx (first ++ [last]) c
      = ((slotStep ctx ⟨none, last⟩ (clientRun ctx first c).1).1,
          (clientRun ctx first c).2
            ++ (slotStep ctx ⟨none, last⟩ (clientRun ctx first c).1).2) := by
    unfold clientRun
    rw [List.map_append, List.map_singleton, run_concat]
  rw [hsplit, handlerCalls_append, hcalls, hrun, handlerCalls_slotStep, hwork,
    clientWorkReceived_block _ he hb, clientWorkHeaders_get ctx last he hb hreq hget, ← hbytes]
  exact handlerCalls_get ctx last hh hf

/--
**Two histories look the same to the handler of a GET** exactly if they left the same bytes in
the buffer behind the request.
-/
theorem get_input_same_iff (ctx : Context) {first : List Input} {last : Input}
    (hdel : Delivers N first last block rest) (hb : IsBlock block) {req : Request}
    (hreq : requestOf block = some req) (hget : req.cmdType = .get) {h : HttpHandler} {f : Nat}
    (hh : ctx.findHandler .get req.url = some h) (hf : h.function = some f)
    (hc : Awaiting c []) (hd : Awaiting d []) :
    handlerCalls (clientRun ctx (first ++ [last]) c).2
        = handlerCalls (clientRun ctx (first ++ [last]) d).2 ↔
      SameBehind (block ++ rest).length c d := by
  rw [clientRun_request ctx hdel hb hreq hget hh hf hc,
    clientRun_request ctx hdel hb hreq hget hh hf hd]
  simp [SameBehind]

end

/-- A GET handler for `/a`. -/
def Context.onlyA : Context :=
  ⟨⟨true, [⟨CString.ofBytes (ascii "/a"), .get, some 1, 0⟩]⟩, ⟨true, []⟩, 1⟩

/-- The peer sends this text. -/
def Input.text (text : Bytes) : Input := { Input.idle with recv := .data text }

/-- Two new connections look the same, with a request that comes in two parts. -/
theorem get_input_same_new :
    handlerCalls (clientRun .onlyA [.text (ascii "GET /a HT"), .text (ascii "TP/1.1\r\n\r\n")]
        (Client.new NetConfig.default 7)).2
      = handlerCalls (clientRun .onlyA [.text (ascii "GET /a HT"), .text (ascii "TP/1.1\r\n\r\n")]
          (Client.new NetConfig.default 8)).2 := by
  have hdel : Delivers NetConfig.default [.text (ascii "GET /a HT")]
      (.text (ascii "TP/1.1\r\n\r\n")) (ascii "GET /a HTTP/1.1\r\n\r\n") [] := by
    refine ⟨?_, ?_, by decide, by decide, by decide⟩
    · simp [Input.text, Input.idle]
    · intro inp hinp
      rw [List.mem_append, List.mem_singleton, List.mem_singleton] at hinp
      rcases hinp with rfl | rfl
      · exact ⟨_, rfl, by decide⟩
      · exact ⟨_, rfl, by decide⟩
  obtain ⟨req, hreq, hget, hurl⟩ := requestLine_getA.requestOf
  have hh : Context.onlyA.findHandler .get req.url
      = some ⟨CString.ofBytes (ascii "/a"), .get, some 1, 0⟩ := by
    rw [hurl]
    decide +kernel
  exact (get_input_same_iff .onlyA hdel (by decide) hreq hget hh rfl (awaiting_new _ 7)
    (awaiting_new _ 8)).mpr rfl

/--
The same request on a new connection, and on one that asked for something else before. The
handler is called once each time, and the second time it finds the earlier request.
-/
theorem get_input_not_same :
    let earlier := ascii "GET /b?the-password=secret HTTP/1.1\r\n\r\n"
    let request := ascii "GET /a HTTP/1.1\r\n\r\n"
    let calls (texts : List Bytes) := handlerCalls (slotRun NetConfig.default .onlyA
      (⟨some 7, .idle⟩ :: texts.map fun text => ⟨none, .text text⟩)).2
    calls [request] ≠ calls [earlier, request] ∧
      (calls [earlier, request]).map (fun k => ((k.bufIn.getD []).drop 20).take 6)
        = [ascii "secret"] := by
  decide +kernel

end UniNet.Http
