import UniNet.Http.Lines
import UniNet.Http.Work

/-!
# The request line

A header block begins with a method, a byte that nobody looks at, a target and a byte that
ends it. `RequestLine` says so in terms of the bytes, and the parser finds exactly that:

* `requestLine_of_findCmd`, `RequestLine.findCmd` — the method loop and the URL loop together
  decide `RequestLine`
* `clientWork_dispatched` — what `client_work` does with a complete block
* `post_length_kept_iff` — the length that `client_work` stores for a POST
-/

namespace UniNet.Http

open Infra

variable {N : NetConfig}

/-! ## The grammar -/

/--
The block begins with the name of the method `cmd`, the byte `sep`, the bytes of `target`, and
one of space, tab, CR and LF.
-/
structure RequestLine (block : Bytes) (cmd : HttpCommand) (sep : UInt8) (target : Bytes) :
    Prop where
  row : cmd ∈ httpCmd.take 9
  begins : ∃ stop rest, isUrlEnd stop = true ∧
    block = cmd.cmdName ++ sep :: (target ++ stop :: rest)
  plain : ∀ b ∈ target, isUrlEnd b = false

/-- No method is the beginning of another one. -/
theorem httpCmd_distinct : ∀ a ∈ httpCmd.take 9, ∀ b ∈ httpCmd.take 9,
    a.cmdName <+: b.cmdName → a = b := by decide

section

variable {block : Bytes} {cmd : HttpCommand} {sep : UInt8} {target : Bytes}

theorem memcmpEq_iff_begins (hmem : cmd ∈ httpCmd.take 9) :
    (cmd.cmdLen ≤ block.length ∧ memcmpEq cmd.cmdName block cmd.cmdLen = true) ↔
      cmd.cmdName <+: block := by
  have hlen := (httpCmd_rows cmd hmem).1
  unfold memcmpEq
  rw [beq_iff_eq, List.take_of_length_le (Nat.le_of_eq hlen), List.prefix_iff_eq_take, hlen]
  constructor
  · exact fun h => h.2
  · intro h
    refine ⟨?_, h⟩
    have := congrArg List.length h
    rw [List.length_take, hlen] at this
    omega

/-- **The method loop finds the method that the block begins with.** -/
theorem findCmd_eq_some : findCmd block block.length = some cmd ↔
    cmd ∈ httpCmd.take 9 ∧ cmd.cmdName <+: block := by
  have hfound : ∀ {x}, findCmd block block.length = some x →
      x ∈ httpCmd.take 9 ∧ x.cmdName <+: block := by
    intro x hx
    have hm := List.find?_some hx
    simp only [Bool.and_eq_true, decide_eq_true_eq] at hm
    exact ⟨findCmd_mem hx, (memcmpEq_iff_begins (findCmd_mem hx)).mp hm⟩
  constructor
  · exact hfound
  · rintro ⟨hmem, hp⟩
    cases hf : findCmd block block.length with
    | none =>
      have hno := List.find?_eq_none.mp hf cmd hmem
      simp only [Bool.and_eq_true, decide_eq_true_eq] at hno
      exact absurd ((memcmpEq_iff_begins hmem).mpr hp) hno
    | some x =>
      -- two methods that the block begins with are the same
      obtain ⟨hx, hxp⟩ := hfound hf
      rcases List.prefix_or_prefix_of_prefix hxp hp with h | h
      · rw [httpCmd_distinct x hx cmd hmem h]
      · rw [httpCmd_distinct cmd hmem x hx h]

/-- What the parser finds in a block with a known request line. -/
theorem RequestLine.findCmd (h : RequestLine block cmd sep target) :
    Http.findCmd block block.length = some cmd ∧
      urlEnd block (cmd.cmdLen + 1) block.length = some (cmd.cmdLen + 1 + target.length) ∧
      (block.drop (cmd.cmdLen + 1)).take target.length = target ∧
      byteAt block cmd.cmdLen = sep := by
  obtain ⟨hmem, ⟨stop, rest, hstop, rfl⟩, hplain⟩ := h
  have hlen := (httpCmd_rows cmd hmem).1
  have hfront : (cmd.cmdName ++ [sep]).length = cmd.cmdLen + 1 := by simp [hlen]
  have hassoc : cmd.cmdName ++ sep :: (target ++ stop :: rest)
      = (cmd.cmdName ++ [sep]) ++ (target ++ stop :: rest) := by simp
  refine ⟨findCmd_eq_some.mpr ⟨hmem, List.prefix_append ..⟩, ?_, ?_, ?_⟩
  · rw [hassoc]
    refine findFrom_eq_some.mpr ⟨⟨by omega, ?_⟩, ?_, fun j h1 h2 => ?_⟩
    · simp [hlen]
      omega
    · rw [← hfront, byteAt_append_right]
      exact (congrArg isUrlEnd (byteAt_append_right target (stop :: rest) 0)).trans hstop
    · obtain ⟨k, rfl⟩ : ∃ k, j = cmd.cmdLen + 1 + k := ⟨j - (cmd.cmdLen + 1), by omega⟩
      have hk : k < target.length := by omega
      rw [← hfront, byteAt_append_right, byteAt_append_left hk, byteAt,
        List.getD_eq_getElem _ _ hk]
      exact hplain _ (List.getElem_mem hk)
  · rw [hassoc, ← hfront, List.drop_left, List.take_left]
  · rw [← hlen]
    exact byteAt_append_right cmd.cmdName (sep :: (target ++ stop :: rest)) 0

/-- The method and the URL that the parser finds make up the request line. -/
theorem requestLine_of_findCmd {i : Nat} (hcmd : Http.findCmd block block.length = some cmd)
    (hi : urlEnd block (cmd.cmdLen + 1) block.length = some i) :
    RequestLine block cmd (byteAt block cmd.cmdLen)
      ((block.drop (cmd.cmdLen + 1)).take (i - (cmd.cmdLen + 1))) := by
  obtain ⟨hmem, tail, rfl⟩ := findCmd_eq_some.mp hcmd
  obtain ⟨⟨h1, h2⟩, hstop, hmin⟩ := findFrom_eq_some.mp hi
  have hlen := (httpCmd_rows cmd hmem).1
  rw [List.length_append, hlen] at h2
  obtain ⟨k, rfl⟩ : ∃ k, i = cmd.cmdLen + 1 + k := ⟨i - (cmd.cmdLen + 1), by omega⟩
  cases tail with
  | nil => simp at h2; omega
  | cons sep tail =>
    have hassoc : cmd.cmdName ++ sep :: tail = (cmd.cmdName ++ [sep]) ++ tail := by simp
    have hfront : (cmd.cmdName ++ [sep]).length = cmd.cmdLen + 1 := by simp [hlen]
    have hk : k < tail.length := by
      rw [List.length_cons] at h2
      omega
    have hsep : byteAt (cmd.cmdName ++ sep :: tail) cmd.cmdLen = sep := by
      rw [← hlen]
      exact byteAt_append_right cmd.cmdName (sep :: tail) 0
    have hat : ∀ j, byteAt (cmd.cmdName ++ sep :: tail) (cmd.cmdLen + 1 + j) = byteAt tail j := by
      intro j
      rw [hassoc, ← hfront, byteAt_append_right]
    have htail : byteAt tail k = tail.get ⟨k, hk⟩ := by
      rw [byteAt, List.getD_eq_getElem _ _ hk]
      rfl
    rw [hat] at hstop
    rw [hsep, hassoc, ← hfront, List.drop_left, Nat.add_sub_cancel_left]
    refine ⟨hmem, ⟨byteAt tail k, tail.drop (k + 1), hstop, ?_⟩, fun b hb => ?_⟩
    · rw [htail, List.append_assoc, List.singleton_append]
      congr 2
      have := List.take_append_drop k tail
      rw [List.drop_eq_getElem_cons hk] at this
      exact this.symm
    · obtain ⟨j, hj, rfl⟩ := List.getElem_of_mem hb
      rw [List.length_take] at hj
      have := hmin (cmd.cmdLen + 1 + j) (by omega) (by omega)
      rw [hat, byteAt, List.getD_eq_getElem _ _ (show j < tail.length by omega)] at this
      rw [List.getElem_take]
      exact this

theorem RequestLine.unique {cmd' : HttpCommand} {sep' : UInt8} {target' : Bytes}
    (h : RequestLine block cmd sep target) (h' : RequestLine block cmd' sep' target') :
    cmd = cmd' ∧ sep = sep' ∧ target = target' := by
  obtain ⟨hcmd, hurl, htarget, hsep⟩ := h.findCmd
  obtain ⟨hcmd', hurl', htarget', hsep'⟩ := h'.findCmd
  obtain rfl : cmd = cmd' := Option.some.inj (hcmd.symm.trans hcmd')
  have hlen := Option.some.inj (hurl.symm.trans hurl')
  refine ⟨rfl, hsep.symm.trans hsep', ?_⟩
  rw [← htarget, ← htarget', show target.length = target'.length by omega]

/-- **The request in a block is the one of its request line.** -/
theorem RequestLine.requestOf (h : RequestLine block cmd sep target) :
    ∃ req, Http.requestOf block = some req ∧ req.cmdType = cmd.cmdType ∧
      req.url = CString.ofBytes target := by
  obtain ⟨hcmd, hurl, htarget, -⟩ := h.findCmd
  have hlt := (findFrom_eq_some.mp hurl).1
  unfold Http.requestOf
  simp only [hcmd, hurl]
  refine ⟨_, rfl, rfl, ?_⟩
  rw [CString.ofBytes_set (by omega) hlt.2, Nat.add_sub_cancel_left, htarget]

theorem exists_requestLine (hb : IsBlock block) {req : Request}
    (h : Http.requestOf block = some req) : ∃ cmd sep target, RequestLine block cmd sep target := by
  unfold Http.requestOf at h
  split at h
  · cases h
  · next cmd hcmd =>
    obtain ⟨i, hi, -⟩ := urlEnd_isSome hb hcmd
    exact ⟨_, _, _, requestLine_of_findCmd hcmd hi⟩

end

/-! ## What `client_work` does with a block -/

section

variable {ctx : Context} {inp : Input} {c : Client N} {acc data block rest : Bytes}

/-- A complete block goes to the parser, with all bytes in the buffer. -/
theorem clientWork_block (ctx : Context) (hcon : inp.connected = true) (ha : Awaiting c acc)
    (hr : inp.recvUpTo (N.rxBuf - acc.length) = .data data) (hne : data ≠ [])
    (hsplit : acc ++ data = block ++ rest) (hb : IsBlock block) :
    ∃ d : Client N, Holding d (block ++ rest) ∧
      clientWork ctx inp c =
        { clientWorkHeaders ctx inp d block.length with
          events := .recv (N.rxBuf - acc.length) (.data data)
            :: .headers block (block ++ rest).length
            :: (clientWorkHeaders ctx inp d block.length).events } := by
  obtain ⟨d, hd, hwork⟩ := clientWork_receive ctx hcon ha hr hne
  rw [hsplit] at hd
  exact ⟨d, hd, by rw [hwork, clientWorkReceived_block _ hd hb]⟩

/-- The block says which request is dispatched. -/
def Dispatches (block : Bytes) (cmdType : CommandType) (url : CString) : Prop :=
  ∃ req, requestOf block = some req ∧ req.cmdType = cmdType ∧ req.url = url ∧
    (cmdType = .post → req.length ≠ none)

/-- `client_work` has answered 400. -/
def Out.answers400 (o : Out N) : Prop :=
  ∃ header result, .sendHeader .badrequest 0 header result ∈ o.events

/--
**What `client_work` does with a complete block.** A block that says so is dispatched, and
every other one is answered 400.
-/
theorem clientWork_dispatched (ctx : Context) (hcon : inp.connected = true) (ha : Awaiting c acc)
    (hr : inp.recvUpTo (N.rxBuf - acc.length) = .data data) (hne : data ≠ [])
    (hsplit : acc ++ data = block ++ rest) (hb : IsBlock block) :
    (∀ cmdType url, .start cmdType url ∈ (clientWork ctx inp c).events ↔
        Dispatches block cmdType url) ∧
      ((∀ cmdType url, ¬ Dispatches block cmdType url) →
        (clientWork ctx inp c).answers400 ∧ (clientWork ctx inp c).result = -1) := by
  obtain ⟨d, hd, hwork⟩ := clientWork_block ctx hcon ha hr hne hsplit hb
  rw [hwork]
  rcases clientWorkHeaders_cases ctx inp hd hb with
    ⟨x, hreq, hbad⟩ | ⟨req, b, n, hreq, hpost, hother, hn, hstart⟩
  · have hno : ∀ cmdType url, ¬ Dispatches block cmdType url := by
      rintro _ _ ⟨req, hr', rfl, -, hlen⟩
      exact hlen (hreq req hr').1 (hreq req hr').2
    rw [hbad, badRequest_eq]
    refine ⟨fun cmdType url => ?_, fun _ =>
      ⟨⟨headerBytes N .badrequest none 0, inp.send 0, ?_⟩, rfl⟩⟩
    · simp [errorEvent, hno]
    · simp [errorEvent]
  · have hresp : ∀ e ∈ (cmdProcessStart ctx inp
        { d with headersDone := true, bufRx := b, contentLength := n } req.cmdType req.url
        rest).events, e.isResponse = true :=
      fun e he => Start.isResponse (cmdProcessStart_start hd hpost hother hn) e he
    have hdisp : Dispatches block req.cmdType req.url :=
      ⟨req, hreq, rfl, rfl, fun h => by rw [hpost h]; exact Option.some_ne_none n⟩
    refine ⟨fun cmdType url => ?_, fun hno => absurd hdisp (hno _ _)⟩
    rw [hstart, startRequest]
    simp only [List.mem_cons, reduceCtorEq, false_or, Event.start.injEq]
    constructor
    · rintro (⟨rfl, rfl⟩ | hmem)
      · exact hdisp
      · cases hresp _ hmem
    · rintro ⟨req', hreq', rfl, rfl, -⟩
      rw [hreq, Option.some.injEq] at hreq'
      exact Or.inl (hreq' ▸ ⟨rfl, rfl⟩)

/-- The scan of the block finds a length. -/
def FindsLength (block : Bytes) : Prop := ∃ req, requestOf block = some req ∧ req.length ≠ none

theorem dispatches_iff {cmd : HttpCommand} {sep : UInt8} {target : Bytes}
    (h : RequestLine block cmd sep target) {cmdType : CommandType} {url : CString} :
    Dispatches block cmdType url ↔
      cmd.cmdType = cmdType ∧ CString.ofBytes target = url ∧
        (cmdType = .post → FindsLength block) := by
  obtain ⟨req, hreq, htype, hurl⟩ := h.requestOf
  unfold Dispatches FindsLength
  simp only [hreq, Option.some.injEq, exists_eq_left', htype, hurl]

/--
**The grammar of the request line**, for blocks in which a method is followed by a space and
the target has no NUL. Such a block is dispatched with a method and a URL exactly if it begins
with the method, the space, the URL and a byte that ends it, and for a POST if the scan finds a
length. Every other block is answered 400 and not dispatched.
-/
theorem request_line_grammar (ctx : Context) (hcon : inp.connected = true) (ha : Awaiting c acc)
    (hr : inp.recvUpTo (N.rxBuf - acc.length) = .data data) (hne : data ≠ [])
    (hsplit : acc ++ data = block ++ rest) (hb : IsBlock block)
    (hclean : ∀ cmd sep target, RequestLine block cmd sep target →
      sep = 32 ∧ (0 : UInt8) ∉ target) :
    (∀ cmdType (url : CString), .start cmdType url ∈ (clientWork ctx inp c).events ↔
        ∃ cmd, RequestLine block cmd 32 url.bytes ∧ cmd.cmdType = cmdType ∧
          (cmdType = .post → FindsLength block)) ∧
      ((∀ cmdType url, .start cmdType url ∉ (clientWork ctx inp c).events) →
        (clientWork ctx inp c).answers400 ∧ (clientWork ctx inp c).result = -1) := by
  obtain ⟨hstart, hother⟩ := clientWork_dispatched ctx hcon ha hr hne hsplit hb
  refine ⟨fun cmdType url => (hstart cmdType url).trans ?_, fun hno =>
    hother fun cmdType url => (hstart cmdType url).not.mp (hno cmdType url)⟩
  constructor
  · intro hd
    obtain ⟨req, hreq, -⟩ := id hd
    obtain ⟨cmd, sep, target, hline⟩ := exists_requestLine hb hreq
    obtain ⟨rfl, hnul⟩ := hclean _ _ _ hline
    obtain ⟨htype, rfl, hlen⟩ := (dispatches_iff hline).mp hd
    exact ⟨cmd, by rwa [CString.ofBytes_noNul hnul], htype, hlen⟩
  · rintro ⟨cmd, hline, htype, hlen⟩
    refine (dispatches_iff hline).mpr ⟨htype, ?_, hlen⟩
    ext1
    exact CString.ofBytes_noNul url.noNul

end

/-- A GET request for `/a` is dispatched. -/
theorem request_line_grammar_get :
    let block := ascii "GET /a HTTP/1.1\r\n\r\n"
    .start .get (CString.ofBytes (ascii "/a"))
      ∈ (clientWork ⟨⟨true, []⟩, ⟨true, []⟩, 1⟩ { Input.idle with recv := .data block }
          (Client.new NetConfig.default 7)).events := by
  intro block
  have hline : RequestLine block ⟨3, ascii "GET", .get⟩ 32 (ascii "/a") :=
    ⟨by decide, ⟨32, ascii "HTTP/1.1\r\n\r\n", by decide, by decide⟩, by decide +kernel⟩
  have hsplit : block = block ++ [] := by rw [List.append_nil]
  refine ((request_line_grammar _ rfl (awaiting_new NetConfig.default 7) (by decide +kernel)
    (by decide) hsplit (by decide) fun cmd sep target h => ?_).1 _ _).mpr
    ⟨_, hline, rfl, fun h => by cases h⟩
  obtain ⟨-, rfl, rfl⟩ := hline.unique h
  exact ⟨rfl, by decide⟩

/--
A POST without a length begins as it should and is answered 400. A method that is not followed
by a space is dispatched.
-/
theorem request_line_other :
    let post := ascii "POST /a HTTP/1.1\r\n\r\n"
    let glued := ascii "GETX/a HTTP/1.1\r\n\r\n"
    let events (block : Bytes) :=
      (clientWork ⟨⟨true, []⟩, ⟨true, []⟩, 1⟩ { Input.idle with recv := .data block }
        (Client.new NetConfig.default 7)).events
    (RequestLine post ⟨4, ascii "POST", .post⟩ 32 (ascii "/a") ∧
        .start .post (CString.ofBytes (ascii "/a")) ∉ events post) ∧
      RequestLine glued ⟨3, ascii "GET", .get⟩ 88 (ascii "/a") ∧
        .start .get (CString.ofBytes (ascii "/a")) ∈ events glued :=
  ⟨⟨⟨by decide, ⟨32, ascii "HTTP/1.1\r\n\r\n", by decide, by decide⟩, by decide +kernel⟩,
      by decide +kernel⟩,
    ⟨by decide, ⟨32, ascii "HTTP/1.1\r\n\r\n", by decide, by decide⟩, by decide +kernel⟩,
      by decide +kernel⟩

/-! ## The length of a POST -/

section

variable {ctx : Context} {inp : Input} {c : Client N} {acc data block rest : Bytes}

/-- The length of a request is the number on the last line that announces one, in 32 bits. -/
theorem requestOf_lastDigits {req : Request} {n : Nat} {digits : Bytes} (hb : IsBlock block)
    (hreq : requestOf block = some req) (hn : req.length = some n)
    (hd : lastDigits (fieldLines block) = some digits) : n = u32 (decValue digits) := by
  obtain ⟨cmd, sep, target, hline⟩ := exists_requestLine hb hreq
  obtain ⟨hcmd, hurl, -, -⟩ := hline.findCmd
  unfold requestOf at hreq
  simp only [hcmd, hurl, Option.some.injEq] at hreq
  subst hreq
  -- the first header line may be missed, but then another one has the last digits
  have hlast : (lastDigits (fieldLines block)).map u32Digits = some n := by
    rcases contentLength_terminated (Nat.le_refl _) hb hcmd hurl with h | ⟨-, h⟩
    · rw [List.take_length] at h
      exact h.symm.trans hn
    · rw [List.take_length] at h
      have htail := h.symm.trans hn
      cases hf : fieldLines block with
      | nil => rwa [hf] at htail
      | cons line lines =>
        rw [hf, List.tail_cons] at htail
        rw [lastDigits_cons, Option.map_or, htail]
        rfl
  rw [hd, Option.map_some, Option.some.injEq, u32Digits_eq] at hlast
  exact hlast.symm

/-- A POST that is still received has the length it came with. -/
theorem Start.contentLength_eq {req : Request} {n : Nat} {o : Out N}
    (hstart : Start ctx inp req rest o) (hpost : req.cmdType = .post) (hn : req.length = some n)
    (ho : o.client.commandType = .post) : o.client.contentLength = n := by
  cases hstart with
  | postBody _ hlen _ _ hc => exact hc.length.trans (Option.some.inj (hlen.symm.trans hn))
  | ignored _ hno _ => exact absurd hpost hno
  | getFile hget _ _ _ => exact absurd (hpost.symm.trans hget) (by decide)
  | getReply | getError | getNotFound | postNotFound | postReply => cases ho

/--
**A length is kept exactly if it fits.** Of every POST that is passed on to `process_start`,
`content_length` is the number on the last line that announces a length if and only if that is
below `2 ^ 32`. A greater number is not rejected, but wraps.
-/
theorem post_length_kept_iff (ctx : Context) (hcon : inp.connected = true) (ha : Awaiting c acc)
    (hr : inp.recvUpTo (N.rxBuf - acc.length) = .data data) (hne : data ≠ [])
    (hsplit : acc ++ data = block ++ rest) (hb : IsBlock block) {url : CString}
    (hpost : .start .post url ∈ (clientWork ctx inp c).events) {before after : List Bytes}
    {line digits : Bytes} (hlines : fieldLines block = before ++ line :: after)
    (hline : LengthLine line digits) (hafter : ∀ l ∈ after, ∀ ds, ¬ LengthLine l ds) :
    ∃ d : Client N,
      clientWork ctx inp c =
        { startRequest ctx inp d .post url rest with
          events := .recv (N.rxBuf - acc.length) (.data data)
            :: .headers block (block ++ rest).length
            :: (startRequest ctx inp d .post url rest).events } ∧
      (d.contentLength = decValue digits ↔ decValue digits < 2 ^ 32) ∧
      ((clientWork ctx inp c).client.commandType = .post →
        (clientWork ctx inp c).client.contentLength = d.contentLength) := by
  obtain ⟨req, hreq, hcmd, hurl, hfound⟩ :=
    ((clientWork_dispatched ctx hcon ha hr hne hsplit hb).1 .post url).mp hpost
  obtain ⟨d, hd, hwork⟩ := clientWork_block ctx hcon ha hr hne hsplit hb
  rcases clientWorkHeaders_cases ctx inp hd hb with
    ⟨x, hbad, -⟩ | ⟨req', b, n, hreq', hlen, hother, hn, hstart⟩
  · exact absurd (hbad req hreq).2 (hfound rfl)
  · obtain rfl : req = req' := Option.some.inj (hreq.symm.trans hreq')
    have hlast : lastDigits (fieldLines block) = some digits := by
      rw [hlines]
      exact lastDigits_eq_some hline hafter
    have hvalue : n = u32 (decValue digits) := requestOf_lastDigits hb hreq (hlen hcmd) hlast
    have hstill : (startRequest ctx inp
          { d with headersDone := true, bufRx := b, contentLength := n } req.cmdType req.url
          rest).client.commandType = .post →
        (startRequest ctx inp { d with headersDone := true, bufRx := b, contentLength := n }
          req.cmdType req.url rest).client.contentLength = n :=
      (cmdProcessStart_start hd hlen hother hn).contentLength_eq hcmd (hlen hcmd)
    rw [hcmd, hurl] at hstill
    rw [hwork, hstart, hcmd, hurl]
    refine ⟨_, rfl, ?_, hstill⟩
    show n = decValue digits ↔ decValue digits < 2 ^ 32
    constructor
    · intro heq
      rwa [heq] at hn
    · intro hlt
      rw [hvalue, u32_of_lt hlt]

end

/-- A length of 12 is kept. -/
theorem post_length_kept_iff_small :
    let block := ascii "POST /u HTTP/1.1\r\nContent-Length: 12\r\n\r\n"
    let url := CString.ofBytes (ascii "/u")
    let ctx : Context := ⟨⟨true, [⟨url, .post, some 1, 0⟩]⟩, ⟨true, []⟩, 1⟩
    let o := clientWork ctx { Input.idle with recv := .data block }
      (Client.new NetConfig.default 7)
    o.client.commandType = .post ∧ o.client.contentLength = 12 := by
  intro block url ctx o
  have hstill : o.client.commandType = .post := by decide +kernel
  have hr : Input.recvUpTo { Input.idle with recv := .data block }
      (NetConfig.default.rxBuf - ([] : Bytes).length) = .data block := by decide +kernel
  have hsplit : [] ++ block = block ++ [] := (List.append_nil block).symm
  have hpost : .start .post url ∈ o.events := by decide +kernel
  have hlines : fieldLines block = [] ++ ascii "Content-Length: 12" :: [] := by decide +kernel
  have hline : LengthLine (ascii "Content-Length: 12") (ascii "12") :=
    ⟨ascii "Content-Length:", ascii " ", [], by decide +kernel⟩
  obtain ⟨d, -, hkept, hsame⟩ := post_length_kept_iff ctx rfl (awaiting_new NetConfig.default 7)
    hr (by decide) hsplit (by decide +kernel) hpost hlines hline (List.forall_mem_nil _)
  exact ⟨hstill, (hsame hstill).trans (hkept.mpr (by decide))⟩

/-- A length of `2 ^ 32 + 1` is accepted, as 1. -/
theorem post_length_wraps :
    let block := ascii "POST /u HTTP/1.1\r\nContent-Length: 4294967297\r\n\r\n"
    let url := CString.ofBytes (ascii "/u")
    let h : HttpHandler := ⟨url, .post, some 1, 0⟩
    let o := clientWork ⟨⟨true, [h]⟩, ⟨true, []⟩, 1⟩ { Input.idle with recv := .data block }
      (Client.new NetConfig.default 7)
    fieldLines block = [ascii "Content-Length: 4294967297"] ∧
      LengthLine (ascii "Content-Length: 4294967297") (ascii "4294967297") ∧
      decValue (ascii "4294967297") = 4294967297 ∧
      .start .post url ∈ o.events ∧ o.client.handler = some h ∧ o.client.contentLength = 1 := by
  intro block url h o
  refine ⟨by decide +kernel, ⟨ascii "Content-Length:", ascii " ", [], ?_⟩, by decide, ?_⟩
  · decide +kernel
  · exact ⟨by decide +kernel, by decide +kernel, by decide +kernel⟩

end UniNet.Http
