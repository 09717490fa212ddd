import UniNet.Http.KeepAlive
import UniNet.Http.Response
import UniNet.Http.Routing
import UniNet.Http.Wire

/-!
# Requests and their responses

What the server is for: requests get their responses. `Answered` says which response a request is
to get, from the first handler or file of the tables that is for it. A connection is then looked at
from the outside, as the bytes that go in and the bytes that come out, and the latter are read
with `readAll`.

Not every request gets one. A POST that nobody takes leaves its body to be parsed as the next
request, and what is received behind the end of a request is thrown away with it. So the requests
are `Proper`, and no call receives bytes of two of them (`Segmented`).

The stack has to have room for what it is given: `Roomy` asks for the space of a header, and of a
handler's reply with it. A file needs none, it waits for its space.

* `Start.answering` — a request that was received is answered, or its body is waited for
* `Progress.answering` — one step of a client that is in the middle of a request
* `requests_answered` — the responses that are read are the responses to the requests, in order
-/

namespace UniNet.Http

open Infra

variable {N : NetConfig}

/-! ## The response to a request -/

/-- `env k reply`: at some time the call `k` of a handler was answered with `reply`. -/
abbrev Replies := HandlerCall → HandlerReply → Prop

/-- The reply of a handler as a response. -/
def replyResponse (type : Bytes) (reply : HandlerReply) : Response :=
  ⟨.ok, some type, reply.out.take reply.size⟩

/-- A status other than 200 as a response. -/
def errorResponse (status : Status) : Response := ⟨status, none, []⟩

/-- A file as a response. -/
def fileResponse (url : CString) (f : HttpFile) : Response :=
  ⟨.ok, some (contentType (some url)), f.data⟩

/--
**The response to a request.** The target is the first entry of the tables that is for the command
and the path.
-/
inductive Message.Answered (ctx : Context) (env : Replies) (q : Message N) : Response → Prop
  | getReply {h : HttpHandler} {f : Nat} {bufIn : Bytes} {reply : HandlerReply}
      (get : q.request.cmdType = .get) (target : ctx.Selects .get q.request.url (.handler h))
      (function : h.function = some f)
      (replied : env ⟨f, h.userdata, some N.txBuf, some bufIn⟩ reply) :
      Answered ctx env q (replyResponse (contentType (some q.request.url)) reply)
  | getError {h : HttpHandler} (get : q.request.cmdType = .get)
      (target : ctx.Selects .get q.request.url (.handler h)) (function : h.function = none) :
      Answered ctx env q (errorResponse .internalserverr)
  | getFile {f : HttpFile} (get : q.request.cmdType = .get)
      (target : ctx.Selects .get q.request.url (.file f)) :
      Answered ctx env q (fileResponse q.request.url f)
  | getNotFound (get : q.request.cmdType = .get)
      (target : ctx.Selects .get q.request.url .notFound) :
      Answered ctx env q (errorResponse .notfound)
  | postReply {h : HttpHandler} {f : Nat} {reply : HandlerReply}
      (post : q.request.cmdType = .post) (target : ctx.Selects .post q.request.url (.handler h))
      (function : h.function = some f) (replied : env ⟨f, h.userdata, some N.txBuf, none⟩ reply) :
      Answered ctx env q (replyResponse (ascii "text/plain") reply)

/-- A GET, or a POST for a handler with a function. -/
def Message.Proper (ctx : Context) (q : Message N) : Prop :=
  q.request.cmdType = .get ∨ (q.request.cmdType = .post ∧
    ∃ h, ctx.Selects .post q.request.url (.handler h) ∧ h.function ≠ none)

section

variable {ctx : Context} {command : CommandType} {url : CString} {q : Message N}

theorem selects_handler {h : HttpHandler} (hh : ctx.findHandler command url = some h) :
    ctx.Selects command url (.handler h) :=
  .handler (findHandler_eq_some.mp hh)

theorem selects_file {f : HttpFile} (hh : ctx.findHandler .get url = none)
    (hf : ctx.findFile url = some f) : ctx.Selects .get url (.file f) :=
  .file (findHandler_eq_none.mp hh) rfl (findFile_eq_some.mp hf)

theorem selects_notFound (hh : ctx.findHandler .get url = none) (hf : ctx.findFile url = none) :
    ctx.Selects .get url .notFound :=
  .notFound (findHandler_eq_none.mp hh) fun _ => findFile_eq_none.mp hf

/-- The handler of a proper POST has a function. -/
theorem Message.Proper.function {h : HttpHandler} (hq : q.Proper ctx)
    (hpost : q.request.cmdType = .post) (hh : ctx.findHandler .post q.request.url = some h) :
    ∃ f, h.function = some f := by
  rcases hq with hget | ⟨-, h', hsel, hf⟩
  · exact absurd (hget.symm.trans hpost) (by decide)
  · obtain rfl := Target.handler.inj (hsel.unique (selects_handler hh))
    exact Option.ne_none_iff_exists'.mp hf

theorem Message.Proper.taken (hq : q.Proper ctx) : q.Taken ctx := by
  intro hpost hnone
  rcases hq with hget | ⟨-, h, hsel, -⟩
  · exact absurd (hget.symm.trans hpost) (by decide)
  · cases hsel with
    | handler first => exact findHandler_eq_none.mp hnone _ first.mem.1 first.mem.2

end

/-! ## Room -/

/-- There is room for what a call sends, and the handler that it asks writes what it returns. -/
structure Roomy (N : NetConfig) (inp : Input) (t : Nat) (evs : List Event) : Prop where
  lt : t < 2 ^ 31
  follows : Follows t evs
  header : ∀ e ∈ evs, e.isHeader = true → 226 ≤ t
  reply : ∀ k ∈ asked evs, 226 + (inp.handler k).size ≤ t ∧ (inp.handler k).size ≤ N.txBuf ∧
    (inp.handler k).size ≤ (inp.handler k).out.length

section

variable {inp : Input} {t : Nat} {evs : List Event}

/-- What is in front of an answer sends nothing. -/
theorem Roomy.behind {pre : List Event} (h : Roomy N inp t (pre ++ evs))
    (hpre : ∀ e ∈ pre, e.isPrelude = true) : Roomy N inp t evs := by
  refine ⟨h.lt, ?_, fun e he => h.header e (List.mem_append_right _ he), fun k hk => ?_⟩
  · exact (follows_silent fun e he => Event.isSilent_of_isPrelude (hpre e he)).mp h.follows
  · refine h.reply k ?_
    rw [asked_append]
    exact List.mem_append_right _ hk

/-- A header that there is room for goes out as a whole. -/
theorem header_whole {status : Status} {type : Option Bytes} (ht : FitsType type) {n : Nat}
    (hn : n < 2 ^ 32) (hroom : 226 ≤ t) {r : Int}
    (h : SendOutcome (headerBytes N status type n).length t r) :
    r = (headerBytes N status type n).length := by
  obtain ⟨hpos, hmax⟩ := headerBytes_length N status ht hn
  have := h.of_space hpos (by omega)
  omega

/-- **An error goes out as its response.** -/
theorem error_whole {status : Status} {post : List Event}
    (hpost : ∀ e ∈ post, ∃ bits, e = .fdClr bits)
    (h : Roomy N inp t (errorEvent N inp status :: post)) :
    wired (errorEvent N inp status :: post) = (errorResponse status).bytes N ∧
      0 ≤ inp.send 0 := by
  have hroom : 226 ≤ t := h.header _ (List.mem_cons_self ..) rfl
  have hsend := header_whole fitsType_none (show 0 < 2 ^ 32 by decide) hroom h.follows.1
  have hnone : wired post = [] := wired_silent fun e he => by
    obtain ⟨_, rfl⟩ := hpost e he
    rfl
  refine ⟨?_, by omega⟩
  rw [wired_cons, hnone, List.append_nil, errorEvent, Event.wire, hsend, Int.toNat_natCast,
    List.take_length, Response.bytes]
  exact (List.append_nil _).symm

/-- **A reply goes out as its response.** -/
theorem reply_whole {d : Client N} {h : HttpHandler} {f : Nat} {bufIn : Option Bytes}
    {type : Bytes} {bits : List SelectBit} (hf : h.function = some f)
    (ht : FitsType (some type))
    (hroom : Roomy N inp t (replyEvents inp d h bufIn type ++ [.fdClr bits])) :
    wired (replyEvents inp d h bufIn type ++ [.fdClr bits])
        = (replyResponse type (inp.handler ⟨f, h.userdata, some N.txBuf, bufIn⟩)).bytes N ∧
      0 ≤ replyResult inp d h bufIn type ∧
      (inp.handler ⟨f, h.userdata, some N.txBuf, bufIn⟩).size ≤ N.txBuf := by
  have hevents : replyEvents inp d h bufIn type = .call ⟨f, h.userdata, some N.txBuf, bufIn⟩
      :: (sendReply inp d (inp.handler ⟨f, h.userdata, some N.txBuf, bufIn⟩) type).events := by
    simp only [replyEvents, callEvent, callReply, hf]
  have hresult : replyResult inp d h bufIn type
      = (sendReply inp d (inp.handler ⟨f, h.userdata, some N.txBuf, bufIn⟩) type).result := by
    simp only [replyResult, callReply, hf]
  rw [hevents] at hroom ⊢
  rw [hresult]
  generalize hk : (⟨f, h.userdata, some N.txBuf, bufIn⟩ : HandlerCall) = k at hroom ⊢
  obtain ⟨hspace, hsize, hout⟩ := hroom.reply k (by
    rw [List.cons_append, asked_reply (by rw [← hk]; rfl)]
    exact List.mem_singleton_self k)
  have hfront : ∀ e ∈ ([] : List Event), e.isPrelude = true := List.forall_mem_nil _
  have hlaw : Follows t (sendReply inp d (inp.handler k) type).events :=
    follows_reply hfront hroom.follows
  have hlt := hroom.lt
  obtain ⟨ha, hheader, hbody⟩ := sendReply_follows hlt hlaw
  have htx := N.txBuf_lt
  have hi32 : i32 (inp.handler k).size = (inp.handler k).size := i32_of_lt (by omega)
  rw [hi32, u32OfInt_natCast (by omega)] at ha
  have hmin : min t (inp.handler k).size = (inp.handler k).size := by omega
  rw [hmin] at ha
  rw [ha] at hheader hbody
  obtain ⟨hpos, hmax⟩ := headerBytes_length N .ok ht
    (show (inp.handler k).size < 2 ^ 32 by omega)
  have h0 := hheader.of_space hpos (by omega)
  refine ⟨?_, ?_, hsize⟩
  · rw [List.cons_append, wired_cons, wired_append, wired_sendReply hlt ht hsize hout hlaw, hmin,
      List.take_of_length_le (by rw [List.length_append, List.length_take]; omega)]
    rw [Response.bytes, replyResponse, List.length_take, Nat.min_eq_left hout]
    simp [Event.wire, wired]
  · rw [(sendReply_eq inp d (inp.handler k) type).2, if_pos (by omega)]
    have hb := hbody (by omega) (by omega)
    rcases Nat.eq_zero_or_pos (min (inp.handler k).size N.txBuf) with hz | hp
    · have := hb.of_empty hz
      omega
    · have := hb.of_space hp (by omega)
      omega

end

/-! ### Files -/

/-- The law of the free space keeps what is reported. -/
theorem Follows.spaceKept {log : List Event} {t : Nat} (h : Follows t log) (ht : t < 2 ^ 31) :
    log.IsChain SpaceKept := by
  induction log generalizing t with
  | nil => exact List.isChain_nil
  | cons e log ih =>
    cases log with
    | nil => exact List.isChain_singleton e
    | cons e' log =>
      refine List.isChain_cons_cons.mpr ⟨?_, ih h.2 (by omega)⟩
      unfold SpaceKept
      split
      · next space data result =>
        obtain ⟨hspace, houtcome, -⟩ := h
        have hs : space = t := hspace
        have ho : SendOutcome data.length t result := houtcome
        rw [hs, u32OfInt_natCast (by omega)]
        intro hle
        rcases Nat.eq_zero_or_pos data.length with h0 | hpos
        · have := ho.of_empty h0
          omega
        · have := ho.of_space hpos (by omega)
          omega
      · trivial

section

variable {inp : Input} {t : Nat} {c : Client N} {f : HttpFile} {url : Option CString}

theorem sendfileRound_result {s : SendLoop N} (hs : Serving s.client f) (hr : 0 ≤ s.result)
    (hlaw : (sendfileRound inp f s).1.events.IsChain SpaceKept) :
    0 ≤ (sendfileRound inp f s).1.result := by
  rcases sendfileRound_cases inp hs.le with ⟨-, h⟩ | ⟨k, b, -, hspace, hle, h⟩
  · rw [h]
    exact hr
  · simp only [h] at hlaw ⊢
    have hlen : ((f.data.drop s.client.fileOffset).take k).length ≤ k := by
      rw [List.length_take]
      omega
    have hkept : SpaceKept (.txSpace (inp.txSpace s.idx))
        (.send ((f.data.drop s.client.fileOffset).take k) (inp.send (s.idx + 1))) :=
      (List.isChain_cons_cons.mp hlaw.right_of_append).1
    have := hkept (by omega)
    omega

/-- A call for a file fails only with its header, if the space is kept. -/
theorem cmdGetSendfile_result (hc : Selected c f) (hok : 0 ≤ (sendfileHeader inp c f url).result)
    (hlaw : (cmdGetSendfile inp c f url).events.IsChain SpaceKept) :
    0 ≤ (cmdGetSendfile inp c f url).result := by
  obtain ⟨hs, -, -⟩ := sendfileHeader_serving inp url hc
  rw [cmdGetSendfile_eq, if_pos hok] at hlaw ⊢
  obtain ⟨e, he, -, -⟩ := sendfileFinish_events f (sendfileAfter inp c f url (f.size + 1))
  rw [he] at hlaw
  rw [sendfileFinish_result]
  -- the rounds up to here have kept the law as well: the events of a round come at the end
  refine (sendfileLoop_inv (P := fun s => Serving s.client f ∧
    (s.events.IsChain SpaceKept → 0 ≤ s.result)) (fun s hs => ⟨(sendfileRound_serving inp hs.1).1,
      fun hlaw => ?_⟩) _ (sendfileEnter inp c f url) ⟨hs, fun _ => hok⟩).2 hlaw.left_of_append
  obtain ⟨new, hnew, -⟩ := sendfileRound_events inp hs.1
  have hbefore : s.events.IsChain SpaceKept := by
    rw [hnew] at hlaw
    exact hlaw.left_of_append
  exact sendfileRound_result hs.1 (hs.2 hbefore) hlaw

/-- **A call for a file sends the next part of it.** -/
theorem cmdGetSendfile_part (hc : Selected c f) (hok : 0 ≤ (sendfileHeader inp c f url).result)
    (hlaw : (cmdGetSendfile inp c f url).events.IsChain SpaceKept) :
    ((cmdGetSendfile inp c f url).client.Cleared ∧
        f.data.take c.fileOffset ++ queued (cmdGetSendfile inp c f url).events = f.data) ∨
      (Serving (cmdGetSendfile inp c f url).client f ∧
        (cmdGetSendfile inp c f url).client.fileOffset < f.size ∧
        f.data.take c.fileOffset ++ queued (cmdGetSendfile inp c f url).events
          = f.data.take (cmdGetSendfile inp c f url).client.fileOffset) := by
  -- what was sent before, as one send
  let before : List Event := [.send (f.data.take c.fileOffset) c.fileOffset]
  have hbefore : queued before = f.data.take c.fileOffset := by
    simp [before, queued, Event.queued]
  have hchain : (before ++ (cmdGetSendfile inp c f url).events).IsChain SpaceKept := by
    cases hevents : (cmdGetSendfile inp c f url).events with
    | nil => exact List.isChain_singleton _
    | cons e log =>
      rw [hevents] at hlaw
      exact List.isChain_cons_cons.mpr ⟨trivial, hlaw⟩
  have hprogress := cmdGetSendfile_progress inp url hc hok (fun _ => hbefore) hchain
  rw [queued_append, hbefore] at hprogress
  exact hprogress

end

/-! ## One request -/

theorem contentType_line (filename : Option CString) : 13 ∉ contentType filename := by
  have htext : 13 ∉ ascii "text/html" := by decide
  have hmime : ∀ extension, 13 ∉ getMimeType extension := by
    intro extension
    unfold getMimeType
    split
    · next t ht =>
      have hall : ∀ t ∈ httpTypes, 13 ∉ t.2 := by decide
      exact hall t (List.mem_of_find?_eq_some ht)
    · decide
  unfold contentType
  split
  · exact htext
  · split
    · split
      · exact hmime _
      · exact htext
    · exact hmime _
    · exact htext

theorem errorResponse_sendable (status : Status) : (errorResponse status).Sendable :=
  ⟨fitsType_none, by simp only [errorResponse, Option.getD_none]; decide,
    show 0 < 2 ^ 32 by decide⟩

theorem fileResponse_sendable (url : CString) (f : HttpFile) : (fileResponse url f).Sendable :=
  ⟨contentType_length (some url), contentType_line (some url), f.size_lt⟩

theorem replyResponse_sendable {type : Bytes} (ht : FitsType (some type)) (hline : 13 ∉ type)
    {reply : HandlerReply} (hsize : reply.size ≤ N.txBuf) :
    (replyResponse type reply).Sendable := by
  refine ⟨ht, hline, ?_⟩
  have htx := N.txBuf_lt
  rw [replyResponse, List.length_take]
  omega

/--
How far the answer to a request is, by what was sent for it.

Nothing, while the request is still received. A file that is sent behind its header, up to the
offset. Or all of the response.
-/
inductive Answering (ctx : Context) (env : Replies) (q : Message N) (c : Client N) (answers : Nat)
    (w : Bytes) : Prop
  | silent (h0 : answers = 0) (hw : w = [])
  | sending {f : HttpFile} {off : Nat} (h1 : answers = 1) (hget : q.request.cmdType = .get)
      (ht : ctx.Selects .get q.request.url (.file f)) (hs : Sending c f off)
      (hw : w = headerBytes N .ok (some (contentType (some q.request.url))) f.size
        ++ f.data.take off)
  | done {r : Response} (h1 : answers = 1) (hc : c.commandType = .unknown)
      (hr : q.Answered ctx env r) (hsend : r.Sendable) (hw : w = r.bytes N)

section

variable {ctx : Context} {env : Replies} {q : Message N} {inp : Input} {t : Nat} {o : Out N}

/-- A call for a file, the first one or a later one, with what was sent before it. -/
theorem file_answering {c : Client N} {f : HttpFile} {url : Option CString}
    (hget : q.request.cmdType = .get) (ht : ctx.Selects .get q.request.url (.file f))
    (hc : Selected c f)
    (hok : 0 ≤ (sendfileHeader inp c f url).result)
    (hroom : Roomy N inp t (cmdGetSendfile inp c f url).events) {d : Client N}
    (hd : d = (cmdGetSendfile inp c f url).client ∨
      d = { (cmdGetSendfile inp c f url).client with rxLen := 0 })
    (hrx : d.rxLen = 0) {w : Bytes}
    (hw : w = headerBytes N .ok (some (contentType (some q.request.url))) f.size
      ++ (f.data.take c.fileOffset ++ queued (cmdGetSendfile inp c f url).events)) :
    0 ≤ (cmdGetSendfile inp c f url).result ∧ Answering ctx env q d 1 w := by
  have hlaw := hroom.follows.spaceKept hroom.lt
  refine ⟨cmdGetSendfile_result hc hok hlaw, ?_⟩
  rcases cmdGetSendfile_part hc hok hlaw with ⟨hcl, hpart⟩ | ⟨hs, hlt, hpart⟩
  · have hunknown : (cmdGetSendfile inp c f url).client.commandType = .unknown :=
      hcl.awaiting.command
    refine .done rfl ?_ (.getFile hget ht) (fileResponse_sendable _ f) ?_
    · rcases hd with rfl | rfl <;> exact hunknown
    · rw [hw, hpart]
      rfl
  · have hsending : Sending d f (cmdGetSendfile inp c f url).client.fileOffset := by
      rcases hd with rfl | rfl <;>
        exact ⟨hs.command, hs.file, hs.handler, hs.header, hs.length, rfl, hlt, hrx⟩
    exact .sending rfl hget ht hsending (by rw [hw, hpart])

/-- What comes in front of an answer is none, and sends nothing. -/
theorem Answering.behind {pre evs : List Event} {c : Client N}
    (hpre : ∀ e ∈ pre, e.isPrelude = true)
    (h : Answering ctx env q c (summary evs).answers (wired evs)) :
    Answering ctx env q c (summary (pre ++ evs)).answers (wired (pre ++ evs)) := by
  have hanswers : (summary (pre ++ evs)).answers = (summary evs).answers := by
    induction pre with
    | nil => rfl
    | cons e pre ih =>
      rw [List.forall_mem_cons] at hpre
      have he : e.summary.answers = 0 := by
        have := hpre.1
        cases e <;> first | rfl | cases this
      rw [List.cons_append, summary_cons, Summary.append_def, ← ih hpre.2, he]
      exact Nat.zero_add _
  rw [hanswers, wired_append,
    wired_silent fun e he => Event.isSilent_of_isPrelude (hpre e he)]
  exact h

/-- An error is the whole answer. -/
theorem error_answering {status : Status} {post : List Event} {d : Client N}
    (hr : q.Answered ctx env (errorResponse status))
    (hpost : ∀ e ∈ post, ∃ bits, e = .fdClr bits)
    (hroom : Roomy N inp t (errorEvent N inp status :: post)) :
    0 ≤ inp.send 0 ∧ Answering ctx env q d.clear (summary (errorEvent N inp status :: post)).answers
      (wired (errorEvent N inp status :: post)) := by
  obtain ⟨hwire, hresult⟩ := error_whole hpost hroom
  have hnone : summary post = Summary.none := by
    refine summary_transfer fun e he => ?_
    obtain ⟨_, rfl⟩ := hpost e he
    rfl
  refine ⟨hresult, .done ?_ rfl hr (errorResponse_sendable _) hwire⟩
  rw [summary_cons, hnone]
  rfl

/-- The reply of a handler is the whole answer. -/
theorem reply_answering {c d : Client N} {h : HttpHandler} {f : Nat} {bufIn : Option Bytes}
    {type : Bytes} {bits : List SelectBit} (hf : h.function = some f)
    (hr : ∀ reply, env ⟨f, h.userdata, some N.txBuf, bufIn⟩ reply →
      q.Answered ctx env (replyResponse type reply))
    (henv : ∀ k, env k (inp.handler k)) (htype : FitsType (some type)) (hline : 13 ∉ type)
    (hroom : Roomy N inp t (replyEvents inp c h bufIn type ++ [.fdClr bits])) :
    0 ≤ replyResult inp c h bufIn type ∧
      Answering ctx env q d.clear
        (summary (replyEvents inp c h bufIn type ++ [.fdClr bits])).answers
        (wired (replyEvents inp c h bufIn type ++ [.fdClr bits])) := by
  obtain ⟨hwire, hresult, hsize⟩ := reply_whole hf htype hroom
  refine ⟨hresult, .done ?_ rfl (hr _ (henv _)) (replyResponse_sendable htype hline hsize) hwire⟩
  rw [summary_append, replyEvents_summary]
  rfl

/-- A file begins with its header. -/
theorem file_header_answering {c : Client N} {f : HttpFile} (hget : q.request.cmdType = .get)
    (ht : ctx.Selects .get q.request.url (.file f))
    (hc : c.commandType = .get ∧ c.file = some f ∧ c.handler = none ∧ c.fileOffset = 0 ∧
      c.headerSent = false)
    (hroom : Roomy N inp t (cmdGetSendfile inp c f (some q.request.url)).events) :
    0 ≤ (cmdGetSendfile inp c f (some q.request.url)).result ∧ Answering ctx env q
      { (cmdGetSendfile inp c f (some q.request.url)).client with rxLen := 0 }
      (summary (cmdGetSendfile inp c f (some q.request.url)).events).answers
      (wired (cmdGetSendfile inp c f (some q.request.url)).events) := by
  have hsel := selected_of_getFile hc
  obtain ⟨hevents, hsend⟩ := sendfileHeader_eq inp f (some q.request.url) hc.2.2.2.2
  obtain ⟨tail, htail, hall⟩ := cmdGetSendfile_events inp (some q.request.url) hsel
  rw [hevents] at htail
  -- the header goes out as a whole
  have hheader : inp.send 0
      = (headerBytes N .ok (some (contentType (some q.request.url))) f.size).length := by
    have htype : FitsType (some (contentType (some q.request.url))) :=
      contentType_length (some q.request.url)
    have hlaw := hroom.follows
    have hspace := hroom.header
    rw [htail] at hlaw hspace
    exact header_whole htype f.size_lt (hspace _ (List.mem_cons_self ..) rfl) hlaw.1
  have hwire : wired (cmdGetSendfile inp c f (some q.request.url)).events
      = headerBytes N .ok (some (contentType (some q.request.url))) f.size
        ++ (f.data.take c.fileOffset
          ++ queued (cmdGetSendfile inp c f (some q.request.url)).events) := by
    rw [htail, List.singleton_append, wired_cons, wired_transfer hall, hc.2.2.2.1,
      List.take_zero, List.nil_append, Event.wire, hheader, Int.toNat_natCast, List.take_length]
    rfl
  rw [sendfile_summary hsel hc.2.2.2.2]
  exact file_answering hget ht hsel (by rw [hsend]; omega) hroom (Or.inr rfl) rfl hwire

/-- **Starting a request answers it**, or begins to, or waits for the rest of the body. -/
theorem Start.answering {req : Request} {tail : Bytes} (hstart : Start ctx inp req tail o)
    (hreq : (req.cmdType, req.url) = q.key) (hq : q.Proper ctx)
    (henv : ∀ k, env k (inp.handler k)) (hroom : Roomy N inp t o.events) :
    0 ≤ o.result ∧
      Answering ctx env q o.client (summary o.events).answers (wired o.events) := by
  obtain ⟨hcmd, hurl⟩ : req.cmdType = q.request.cmdType ∧ req.url = q.request.url := by
    simpa [Message.key] using hreq
  have hclr : ∀ e ∈ [Event.fdClr [.write]], ∃ bits, e = .fdClr bits := by
    simp
  cases hstart with
  | ignored hget hpost ha =>
    rcases hq with h | ⟨h, -⟩
    · exact absurd (hcmd.trans h) hget
    · exact absurd (hcmd.trans h) hpost
  | @getReply c d h bufIn hget hh hf =>
    rw [hurl] at hh hroom ⊢
    obtain ⟨f, hf⟩ := Option.ne_none_iff_exists'.mp hf
    exact reply_answering hf
      (fun reply => .getReply (hcmd.symm.trans hget) (selects_handler hh) hf) henv
      (contentType_length (some q.request.url)) (contentType_line _) hroom
  | @getError d h hget hh hf =>
    rw [hurl] at hh
    exact error_answering (.getError (hcmd.symm.trans hget) (selects_handler hh) hf) hclr hroom
  | @getFile c f hget hh hf hc =>
    rw [hurl] at hh hf hroom ⊢
    exact file_header_answering (hcmd.symm.trans hget) (selects_file hh hf) hc hroom
  | @getNotFound d hget hh hf =>
    rw [hurl] at hh hf
    exact error_answering (.getNotFound (hcmd.symm.trans hget) (selects_notFound hh hf))
      (List.forall_mem_nil _) hroom
  | @postNotFound d hpost hh =>
    rw [hurl] at hh
    exact absurd hh (hq.taken (hcmd.symm.trans hpost))
  | @postBody c h n hpost hlen hh hlt hc =>
    exact ⟨Int.le_refl 0, .behind (chunkEvents_isPrelude h tail) (.silent rfl rfl)⟩
  | @postReply c d h n hpost hlen hh hle =>
    rw [hurl] at hh
    have hpre := chunkEvents_isPrelude h (tail.take n)
    obtain ⟨f, hf⟩ := hq.function (hcmd.symm.trans hpost) hh
    obtain ⟨hresult, hanswering⟩ := reply_answering (d := d) hf
      (fun reply => .postReply (hcmd.symm.trans hpost) (selects_handler hh) hf) henv
      fitsType_textPlain (by decide) (hroom.behind hpre)
    exact ⟨hresult, hanswering.behind hpre⟩

end

section

variable {ctx : Context} {env : Replies} {q : Message N} {s : Conn N} {σ : Summary} {w : Bytes}

theorem Reached.key_of_dispatched (h : Reached ctx q s σ) (hne : σ.dispatched ≠ []) :
    σ.dispatched = [q.key] := by
  rcases h with ⟨hp, -⟩ | hc
  · cases hp with
    | waiting _ _ _ hσ => exact absurd hσ.1 hne
    | sending _ _ _ hσ => exact hσ.1
    | receiving _ _ _ _ _ hσ => exact hσ.1
  · exact hc.dispatched

/-- An answer without a dispatched request is none of this message. -/
theorem Reached.not_rejected (h : Reached ctx q s σ) (hnil : σ.dispatched = [])
    (h1 : σ.answers = 1) : False := by
  rcases h with ⟨hp, -⟩ | hc
  · cases hp with
    | waiting _ _ _ hσ => exact absurd (hσ.2.1.symm.trans h1) (by decide)
    | sending _ _ _ hσ => exact absurd (hσ.1.symm.trans hnil) (by simp)
    | receiving _ _ _ _ _ hσ => exact absurd (hσ.1.symm.trans hnil) (by simp)
  · exact absurd (hc.dispatched.symm.trans hnil) (by simp)

/-- A client that awaits a request has shown nothing of it yet. -/
theorem Progress.unseen (hp : Progress ctx q s σ) {acc : Bytes} (ha : Awaiting s.client acc) :
    σ.dispatched = [] ∧ σ.answers = 0 := by
  cases hp with
  | waiting _ _ _ hσ => exact ⟨hσ.1, hσ.2.1⟩
  | sending _ hs _ _ => exact absurd (ha.command.symm.trans hs.command) (by decide)
  | receiving _ _ hv _ _ _ => exact absurd (ha.command.symm.trans hv.command) (by decide)

/-- A client in the middle of a request is not through with its answer. -/
theorem Progress.not_done (hp : Progress ctx q s σ) (h1 : σ.answers = 1)
    (hc : s.client.commandType = .unknown) : False := by
  cases hp with
  | waiting _ _ _ hσ => exact absurd (hσ.2.1.symm.trans h1) (by decide)
  | sending _ hs _ _ => exact absurd (hs.command.symm.trans hc) (by decide)
  | receiving _ _ hv _ _ _ => exact absurd (hv.command.symm.trans hc) (by decide)

variable {inp : Input} {t : Nat} {s' : Conn N}

/-- A request that is rejected would have been answered without being dispatched. -/
theorem Progress.not_rejected (hp : Progress ctx q s σ) {acc : Bytes} (ha : Awaiting s.client acc)
    {evs : List Event} (hnil : (summary evs).dispatched = []) (h1 : (summary evs).answers = 1)
    (hreached : Reached ctx q s' (σ ++ summary evs)) : False := by
  obtain ⟨hσ, h0⟩ := hp.unseen ha
  refine hreached.not_rejected ?_ ?_
  · rw [Summary.append_def, hσ, hnil]
    rfl
  · rw [Summary.append_def, h0, h1]

/-- The request that is dispatched is the one that was sent. -/
theorem Progress.key_eq (hp : Progress ctx q s σ) {acc : Bytes} (ha : Awaiting s.client acc)
    {evs : List Event} {key : CommandType × CString} {more : List (CommandType × CString)}
    (hkey : (summary evs).dispatched = key :: more)
    (hreached : Reached ctx q s' (σ ++ summary evs)) : key = q.key := by
  have hall : (σ ++ summary evs).dispatched = key :: more := by
    rw [Summary.append_def, (hp.unseen ha).1, hkey]
    rfl
  have hone := hreached.key_of_dispatched (by rw [hall]; exact List.cons_ne_nil _ _)
  rw [hall] at hone
  exact (List.cons.inj hone).1

/-- The body is complete: the handler is asked for its reply. -/
theorem Progress.body_answering (hp : Progress ctx q s σ) (hq : q.Proper ctx)
    (henv : ∀ k, env k (inp.handler k)) {h : HttpHandler} {n off : Nat} {d : Client N}
    (hv : Receiving ctx s.client h n off)
    (hroom : Roomy N inp t
      (replyEvents inp s.client h none (ascii "text/plain") ++ [.fdClr [.read, .write]])) :
    0 ≤ replyResult inp s.client h none (ascii "text/plain") ∧
      Answering ctx env q d.clear (summary
        (replyEvents inp s.client h none (ascii "text/plain") ++ [.fdClr [.read, .write]])).answers
        (wired
          (replyEvents inp s.client h none (ascii "text/plain") ++ [.fdClr [.read, .write]])) := by
  cases hp with
  | waiting ha _ _ _ => exact absurd (ha.command.symm.trans hv.command) (by decide)
  | sending _ hs _ _ => exact absurd (hs.command.symm.trans hv.command) (by decide)
  | receiving hpost hh hv' _ _ _ =>
    obtain ⟨rfl, -, -⟩ := hv.unique hv'
    obtain ⟨f, hf⟩ := hq.function hpost hh
    exact reply_answering hf (fun reply => .postReply hpost (selects_handler hh) hf) henv
      fitsType_textPlain (by decide) hroom

/-- A file goes on where it stopped. -/
theorem file_next_answering {c : Client N} {f : HttpFile} {off : Nat}
    (hget : q.request.cmdType = .get) (ht : ctx.Selects .get q.request.url (.file f))
    (hs : Sending c f off) (hroom : Roomy N inp t (cmdGetSendfile inp c f none).events)
    (hw : w = headerBytes N .ok (some (contentType (some q.request.url))) f.size
      ++ f.data.take off) :
    0 ≤ (cmdGetSendfile inp c f none).result ∧
      Answering ctx env q (cmdGetSendfile inp c f none).client 1
        (w ++ wired (cmdGetSendfile inp c f none).events) := by
  have hsel := hs.serving.selected
  have hheader : sendfileHeader inp c f none = ⟨0, c, []⟩ := if_pos hs.header
  obtain ⟨tail, htail, hall⟩ := cmdGetSendfile_events inp none hsel
  rw [hheader, List.nil_append] at htail
  have hrx : (cmdGetSendfile inp c f none).client.rxLen = 0 := by
    rcases cmdGetSendfile_next_phase inp hs with hcl | ⟨_, hs'⟩
    · rw [← show Client.clear _ = _ from hcl]
      rfl
    · exact hs'.rxLen
  refine file_answering hget ht hsel (by rw [hheader]) hroom (Or.inl rfl) hrx ?_
  rw [hw, hs.offset, List.append_assoc, wired_transfer (by rw [htail]; exact hall)]

/-- As long as nothing was sent for a request, a call receives more of it or begins to answer. -/
theorem Progress.answering_silent (hp : Progress ctx q s σ) (hq : q.Proper ctx) (x : Offer)
    (more : Bytes) (henv : ∀ k, env k (x.env.handler k)) (h0 : σ.answers = 0) {o : Out N}
    (hw : Work ctx (x.input (s.pending ++ more)) s.client o)
    (hroom : Roomy N (x.input (s.pending ++ more)) t o.events)
    (hreached : Reached ctx q s' (σ ++ summary o.events)) :
    0 ≤ o.result ∧
      Answering ctx env q o.client (summary o.events).answers (wired o.events) := by
  have henv : ∀ k, env k ((x.input (s.pending ++ more)).handler k) := henv
  cases hw with
  | disconnected hcon => cases hcon
  | idle _ ha hr => exact ⟨Int.le_refl 0, .silent rfl rfl⟩
  | accumulate _ ha hr hne hno hd => exact ⟨Int.natCast_nonneg _, .silent rfl rfl⟩
  | overflow _ ha _ _ _ _ | rejected _ ha _ _ _ _ _ =>
    exact (hp.not_rejected ha rfl rfl hreached).elim
  | @request acc data block rest req o' _ ha hr hne hsplit hb hreq hstart =>
    have hkey := hp.key_eq ha rfl hreached
    have hpre : ∀ e ∈ [Event.recv (N.rxBuf - acc.length) (.data data),
        .headers block (acc ++ data).length, .start req.cmdType req.url], e.isPrelude = true := by
      simp [Event.isPrelude]
    have hroom : Roomy N (x.input (s.pending ++ more)) t
        ([.recv (N.rxBuf - acc.length) (.data data), .headers block (acc ++ data).length,
          .start req.cmdType req.url] ++ o'.events) := hroom
    obtain ⟨hresult, hanswering⟩ := hstart.answering hkey hq henv (hroom.behind hpre)
    exact ⟨hresult, hanswering.behind hpre⟩
  | sendFile _ hs =>
    cases hp with
    | waiting ha _ _ _ => exact absurd (ha.command.symm.trans hs.command) (by decide)
    | sending _ _ _ hσ => exact absurd (hσ.2.1.symm.trans h0) (by decide)
    | receiving _ _ hv _ _ _ => exact absurd (hv.command.symm.trans hs.command) (by decide)
  | bodyNone _ hv hlt hr =>
    obtain ⟨hdata, -⟩ := Offer.recvUpTo_nonpos hr (by have := N.rxBuf_pos; omega)
    rw [hdata]
    exact ⟨Int.le_refl 0, .silent rfl rfl⟩
  | @bodyChunk d h n off data _ hv hr hne hle hd =>
    refine ⟨Int.natCast_nonneg _, .silent ?_ ?_⟩
    · rw [bodyChunk_summary]
      rfl
    · rw [wired_cons, chunkEvent, callEvent]
      split <;> rfl
  | bodyReply _ hv => exact hp.body_answering hq henv hv hroom

/-- **One call for a client in the middle of a request**: the answer gets on with it. -/
theorem Progress.answering (hp : Progress ctx q s σ) (hq : q.Proper ctx) (x : Offer)
    (more : Bytes) (henv : ∀ k, env k (x.env.handler k))
    (ha : Answering ctx env q s.client σ.answers w)
    (hroom : Roomy N (x.input (s.pending ++ more)) t
      (clientWork ctx (x.input (s.pending ++ more)) s.client).events)
    (hreached : Reached ctx q s'
      (σ ++ summary (clientWork ctx (x.input (s.pending ++ more)) s.client).events)) :
    0 ≤ (clientWork ctx (x.input (s.pending ++ more)) s.client).result ∧
      Answering ctx env q (clientWork ctx (x.input (s.pending ++ more)) s.client).client
        (σ ++ summary (clientWork ctx (x.input (s.pending ++ more)) s.client).events).answers
        (w ++ wired (clientWork ctx (x.input (s.pending ++ more)) s.client).events) := by
  have hw := clientWork_work hp.inv (x.input (s.pending ++ more))
  generalize clientWork ctx (x.input (s.pending ++ more)) s.client = o at hw hroom hreached ⊢
  have hanswers : ∀ evs, (σ ++ summary evs).answers = σ.answers + (summary evs).answers :=
    fun _ => rfl
  cases ha with
  | silent h0 hnil =>
    rw [hanswers, h0, Nat.zero_add, hnil, List.nil_append]
    exact hp.answering_silent hq x more henv h0 hw hroom hreached
  | @sending f off h1 hget ht hs hw' =>
    cases hw with
    | disconnected hcon => cases hcon
    | idle _ ha _ | accumulate _ ha _ _ _ _ | overflow _ ha _ _ _ _ | rejected _ ha _ _ _ _ _
    | request _ ha _ _ _ _ _ _ => exact absurd (ha.command.symm.trans hs.command) (by decide)
    | @sendFile f' off' _ hs' =>
      obtain rfl : f = f' := Option.some.inj (hs.file.symm.trans hs'.file)
      rw [hanswers, h1, sendfile_next_summary hs]
      exact file_next_answering hget ht hs hroom hw'
    | bodyNone _ hv _ _ | bodyChunk _ hv _ _ _ _ | bodyReply _ hv =>
      exact absurd (hv.command.symm.trans hs.command) (by decide)
  | done h1 hc _ _ _ => exact (hp.not_done h1 hc).elim

end

/-! ## Any number of requests -/

section

variable {ctx : Context} {env : Replies} {q : Message N} {s : Conn N} {σ : Summary} {w : Bytes}

/-- A client is through with a request exactly when its response is complete. -/
theorem Reached.settle (h : Reached ctx q s σ) (hq : q.Proper ctx)
    (ha : Answering ctx env q s.client σ.answers w) :
    Progress ctx q s σ ∨ (Complete ctx q s σ ∧
      ∃ r, q.Answered ctx env r ∧ r.Sendable ∧ w = r.bytes N) := by
  rcases h with ⟨hp, -⟩ | hc
  · exact Or.inl hp
  · refine Or.inr ⟨hc, ?_⟩
    cases ha with
    | silent h0 _ =>
      cases hc with
      | ignored hget hpost _ _ _ =>
        rcases hq with h | ⟨h, -⟩
        · exact absurd h hget
        · exact absurd h hpost
      | got _ _ _ _ hσ => exact absurd (hσ.2.1.symm.trans h0) (by decide)
      | notFound _ _ _ hσ => exact absurd (hσ.2.1.symm.trans h0) (by decide)
      | posted _ _ _ _ _ _ hσ => exact absurd (hσ.2.1.symm.trans h0) (by decide)
    | sending _ _ _ hs _ =>
      exact absurd (hc.awaiting.command.symm.trans hs.command) (by decide)
    | done _ _ hr hsend hw => exact ⟨_, hr, hsend, hw⟩

/-- In the middle of a request there is no whole response to be read. -/
theorem Progress.readResponse_eq_none (hp : Progress ctx q s σ)
    (ha : Answering ctx env q s.client σ.answers w) : readResponse w = none := by
  cases ha with
  | silent _ hw =>
    rw [hw]
    rfl
  | @sending f off _ _ _ hs hw =>
    have hlt : (f.data.take off).length < f.data.length := by
      have hrest : off < f.data.length := hs.rest
      rw [List.length_take]
      omega
    rw [hw]
    exact readResponse_short (fileResponse_sendable q.request.url f) hlt
  | done h1 hc _ _ _ => exact (hp.not_done h1 hc).elim

end

/-- Some requests were answered, one is being answered, the others follow. -/
def InService (ctx : Context) (env : Replies) (ms : List (Message N)) (s : Conn N) (w : Bytes) :
    Prop :=
  ∃ served q todo s' σ rs v, ms = served ++ q :: todo ∧ s = Conn.before s' (stream todo) ∧
    Progress ctx q s' σ ∧ Answering ctx env q s'.client σ.answers v ∧
    List.Forall₂ (Message.Answered ctx env) served rs ∧ (∀ r ∈ rs, r.Sendable) ∧
    w = rs.flatMap (Response.bytes N) ++ v

/-- All requests were answered. -/
def AllAnswered (ctx : Context) (env : Replies) (ms : List (Message N)) (s : Conn N) (w : Bytes) :
    Prop :=
  Awaiting s.client [] ∧ s.pending = [] ∧ ∃ rs, List.Forall₂ (Message.Answered ctx env) ms rs ∧
    (∀ r ∈ rs, r.Sendable) ∧ w = rs.flatMap (Response.bytes N)

section

variable {ctx : Context} {env : Replies} {ms todo : List (Message N)} {s : Conn N} {w : Bytes}

theorem service_next {served : List (Message N)} {rs : List Response} (ha : Awaiting s.client [])
    (hnil : s.pending = []) (hms : ms = served ++ todo)
    (hrs : List.Forall₂ (Message.Answered ctx env) served rs) (hsend : ∀ r ∈ rs, r.Sendable)
    (hw : w = rs.flatMap (Response.bytes N)) :
    InService ctx env ms (s.before (stream todo)) w ∨
      AllAnswered ctx env ms (s.before (stream todo)) w := by
  cases todo with
  | nil =>
    rw [List.append_nil] at hms
    subst hms
    refine Or.inr ⟨ha, ?_, rs, hrs, hsend, hw⟩
    rw [Conn.before, hnil]
    rfl
  | cons q todo =>
    refine Or.inl ⟨served, q, todo, { s with pending := q.bytes }, Summary.none, rs, [], hms, ?_,
      .start ha rfl q.block_pos, .silent rfl rfl, hrs, hsend, ?_⟩
    · rw [Conn.before, Conn.before, hnil, stream, List.flatMap_cons]
      rfl
    · rw [hw, List.append_nil]

/-- **A call keeps the responses in step with the requests.** -/
theorem InService.step (hproper : ∀ q ∈ ms, q.Proper ctx)
    (h : InService ctx env ms s w) (x : Offer) (henv : ∀ k, env k (x.env.handler k))
    (hseg : Segmented ms s.pending (connStep ctx x s).1.pending) {t : Nat}
    (hroom : Roomy N (x.input s.pending) t (connStep ctx x s).2) :
    0 ≤ (connStep ctx x s).1.result ∧
      (InService ctx env ms (connStep ctx x s).1 (w ++ wired (connStep ctx x s).2) ∨
        AllAnswered ctx env ms (connStep ctx x s).1 (w ++ wired (connStep ctx x s).2)) := by
  obtain ⟨served, q, todo, s', σ, rs, v, hms, rfl, hp, ha, hrs, hsend, rfl⟩ := h
  have hq : q ∈ ms := by
    rw [hms]
    exact List.mem_append_right _ (List.mem_cons_self ..)
  have hle := received_le_of_segmented hp hms hseg
  obtain ⟨s'', hs, hreached⟩ := hp.step x (stream todo)
  rw [Nat.sub_eq_zero_of_le hle, List.drop_zero] at hs
  obtain ⟨hresult, ha'⟩ := hp.answering (hproper q hq) x (stream todo) henv ha hroom hreached
  refine ⟨hresult, ?_⟩
  have hclient : s''.client
      = (clientWork ctx (x.input (s'.pending ++ stream todo)) s'.client).client :=
    (congrArg Conn.client hs).symm
  rw [← hclient] at ha'
  rw [hs, List.append_assoc]
  rcases hreached.settle (hproper q hq) ha' with hp' | ⟨hc, r, hr, hsend', hv⟩
  · exact Or.inl ⟨served, q, todo, s'', _, rs, _, hms, rfl, hp', ha', hrs, hsend, rfl⟩
  · refine service_next hc.awaiting (hc.pending_eq_nil (hproper q hq).taken)
      (show ms = (served ++ [q]) ++ todo by rw [hms, List.append_cons])
      (List.rel_append hrs (.cons hr .nil)) ?_ ?_
    · rw [List.forall_mem_append, List.forall_mem_singleton]
      exact ⟨hsend, hsend'⟩
    · rw [List.flatMap_append, List.flatMap_singleton, ← hv]
      rfl

/-- A client with nothing to do asks for something to receive, and that is all. -/
theorem connStep_idle (ctx : Context) (ha : Awaiting s.client []) (hnil : s.pending = [])
    (x : Offer) : ∃ len, (connStep ctx x s).2 = [.recv len (.data [])] := by
  have hrecv : (x.input s.pending).recvUpTo (N.rxBuf - ([] : Bytes).length) = .data [] := by
    rw [Offer.recvUpTo, hnil, List.take_nil]
  have hwork : clientWork ctx (x.input s.pending) s.client = _ :=
    clientWork_idle rfl ha (by rw [hrecv]; exact Int.le_refl 0)
  exact ⟨N.rxBuf - ([] : Bytes).length, by rw [connStep, hwork, hrecv]⟩

theorem AllAnswered.stay (h : AllAnswered ctx env ms s w) (x : Offer) :
    0 ≤ (connStep ctx x s).1.result ∧
      AllAnswered ctx env ms (connStep ctx x s).1 (w ++ wired (connStep ctx x s).2) := by
  obtain ⟨ha, hnil, hrs⟩ := h
  obtain ⟨hs, -⟩ := connStep_awaiting ctx ha hnil x
  obtain ⟨len, hevents⟩ := connStep_idle ctx ha hnil x
  rw [hs, hevents]
  refine ⟨Int.le_refl 0, ha, hnil, ?_⟩
  rw [show wired [.recv len (.data [])] = [] from rfl, List.append_nil]
  exact hrs

/-- What is read on the way. -/
theorem InService.readAll (h : InService ctx env ms s w) :
    ∃ served rs rest, served <+: ms ∧ List.Forall₂ (Message.Answered ctx env) served rs ∧
      readAll w = (rs.map Response.seen, rest) := by
  obtain ⟨served, q, todo, s', σ, rs, v, hms, -, hp, ha, hrs, hsend, rfl⟩ := h
  exact ⟨served, rs, v, ⟨q :: todo, hms.symm⟩, hrs,
    readAll_bytes hsend (hp.readResponse_eq_none ha)⟩

theorem AllAnswered.readAll (h : AllAnswered ctx env ms s w) :
    ∃ rs, List.Forall₂ (Message.Answered ctx env) ms rs ∧
      readAll w = (rs.map Response.seen, []) := by
  obtain ⟨-, -, rs, hrs, hsend, rfl⟩ := h
  refine ⟨rs, hrs, ?_⟩
  have hread := readAll_bytes (N := N) hsend (show readResponse [] = none from rfl)
  rwa [List.append_nil] at hread

theorem InService.not_starved (h : InService ctx env ms s w) : ¬ Starved s := by
  obtain ⟨served, q, todo, s', σ, rs, v, hms, rfl, hp, -⟩ := h
  exact hp.not_starved _

end

/--
**Requests get their responses.**

A cleared client is sent any number of requests, one behind the other, each a GET or a POST for a
handler with a function, and no call receives bytes of two of them. There is room for every
header and every reply, and the handlers write what they return. Then the client is never given
up, and a reader of the bytes that were sent reads, at every time, the responses to the first of
the requests, one for each and in order: the file, the handler's reply, or the status, with the
type and the length that belong to it. In the end it reads the responses to all of them and
nothing else, as long as the stack hands over bytes and has space again and again.
-/
theorem requests_answered (ctx : Context) (ms : List (Message N))
    (hproper : ∀ q ∈ ms, q.Proper ctx) (c : Client N) (hc : c.Cleared)
    (sched : Nat → Offer) :
    let run := after (connStep ctx) sched ⟨c, stream ms, 0⟩
    let env : Replies := fun k reply => ∃ n, reply = (sched n).env.handler k
    (∀ n, Segmented ms (run n).1.pending (run (n + 1)).1.pending) →
    (∀ n, ∃ t, Roomy N ((sched n).input (run n).1.pending) t
      (connStep ctx (sched n) (run n).1).2) →
    (∀ m, 0 ≤ (run m).1.result ∧
      ∃ served rs rest, served <+: ms ∧ List.Forall₂ (Message.Answered ctx env) served rs ∧
        readAll (wired (run m).2) = (rs.map Response.seen, rest)) ∧
      ((∀ r n, ∃ m, n ≤ m ∧ (sched m).Brings r) →
        ∃ m₀, ∀ m, m₀ ≤ m → ∃ rs, List.Forall₂ (Message.Answered ctx env) ms rs ∧
          readAll (wired (run m).2) = (rs.map Response.seen, [])) := by
  intro run env hseg hroom
  have hreached : ∀ m, 0 ≤ (run m).1.result ∧ (InService ctx env ms (run m).1 (wired (run m).2) ∨
      AllAnswered ctx env ms (run m).1 (wired (run m).2)) := by
    intro m
    induction m with
    | zero =>
      refine ⟨Int.le_refl 0, ?_⟩
      exact service_next (s := ⟨c, [], 0⟩) hc.awaiting rfl rfl .nil (List.forall_mem_nil _) rfl
    | succ m ih =>
      have hnext := hseg m
      obtain ⟨t, hroom⟩ := hroom m
      simp only [run, after_succ, wired_append] at hnext ih hroom ⊢
      rcases ih.2 with h | h
      · exact h.step hproper _ (fun k => ⟨m, rfl⟩) hnext hroom
      · exact ⟨(h.stay _).1, Or.inr (h.stay _).2⟩
  constructor
  · intro m
    refine ⟨(hreached m).1, ?_⟩
    rcases (hreached m).2 with h | h
    · exact h.readAll
    · obtain ⟨rs, hrs, hread⟩ := h.readAll
      exact ⟨ms, rs, [], List.prefix_rfl, hrs, hread⟩
  · intro hfair
    obtain ⟨n, hstarved⟩ := eventually_starved (s := ⟨c, stream ms, 0⟩)
      (Or.inl ⟨[], hc.awaiting⟩) sched fun n => hfair _ n
    have hall := (hreached n).2.resolve_left fun h => h.not_starved hstarved
    refine ⟨n, fun m hm => ?_⟩
    refine (after_inv_from (connStep ctx) (P := fun s log => AllAnswered ctx env ms s (wired log))
      sched (fun k s log hk => ?_) hall m hm).readAll
    rw [wired_append]
    exact (hk.stay _).2

/-! ### A visit -/

theorem length_page : (List.replicate 50 (97 : UInt8)).length < 2 ^ 32 := by decide

/-- A file that does not fit into the space behind its header. -/
def page : HttpFile := ⟨CString.ofBytes (ascii "/a"), List.replicate 50 97, length_page⟩

def setter : HttpHandler := ⟨CString.ofBytes (ascii "/set"), .post, some 1, 0⟩

def site : Context := ⟨⟨true, [setter]⟩, ⟨true, [page]⟩, 1⟩

def pageBlock : Bytes := ascii "GET /a HTTP/1.1\r\n\r\n"

def rootBlock : Bytes := ascii "GET / HTTP/1.1\r\n\r\n"

def setBlock : Bytes := ascii "POST /set HTTP/1.1\r\nContent-Length: 2\r\n\r\n"

def pageRequest : Request := ⟨.get, CString.ofBytes (ascii "/a"), none, none⟩

def rootRequest : Request := ⟨.get, CString.ofBytes (ascii "/"), none, none⟩

def setRequest : Request := ⟨.post, CString.ofBytes (ascii "/set"), some 2, some 2⟩

theorem isBlock_visit : IsBlock pageBlock ∧ IsBlock rootBlock ∧ IsBlock setBlock := by
  decide +kernel

theorem length_visit : pageBlock.length ≤ NetConfig.default.rxBuf ∧
    rootBlock.length ≤ NetConfig.default.rxBuf ∧ setBlock.length ≤ NetConfig.default.rxBuf := by
  decide +kernel

theorem requestOf_visit : requestOf pageBlock = some pageRequest ∧
    requestOf rootBlock = some rootRequest ∧ requestOf setBlock = some setRequest := by
  decide +kernel

/-- Only a POST announces a body. -/
theorem length_of_get {req : Request} (h : req.cmdType = .get) :
    req.cmdType = .post → req.length = some ([] : Bytes).length :=
  fun hpost => absurd (h.symm.trans hpost) (by decide)

theorem noBody_of_post {req : Request} {body : Bytes} (h : req.cmdType = .post) :
    req.cmdType ≠ .post → body = [] :=
  fun hne => absurd h hne

def getPage : Message NetConfig.default where
  block := pageBlock
  body := []
  request := pageRequest
  isBlock := isBlock_visit.1
  fits := length_visit.1
  parsed := requestOf_visit.1
  length := length_of_get rfl
  noBody := fun _ => rfl

def getRoot : Message NetConfig.default where
  block := rootBlock
  body := []
  request := rootRequest
  isBlock := isBlock_visit.2.1
  fits := length_visit.2.1
  parsed := requestOf_visit.2.1
  length := length_of_get rfl
  noBody := fun _ => rfl

def postSet : Message NetConfig.default where
  block := setBlock
  body := ascii "on"
  request := setRequest
  isBlock := isBlock_visit.2.2
  fits := length_visit.2.2
  parsed := requestOf_visit.2.2
  length := fun _ => rfl
  noBody := noBody_of_post rfl

/-- A file, an upload and a page that does not exist. -/
def visit : List (Message NetConfig.default) := [getPage, postSet, getRoot]

/-- What the stack answers in one call, in the order in which it is asked. -/
def answers (send txSpace : List Int) : Input :=
  { Input.idle with
    send := fun k => send.getD k 0
    txSpace := fun k => txSpace.getD k 0
    handler := fun _ => ⟨2, ascii "ok"⟩ }

/-- The first request comes in two parts and the file goes out in two, the body comes in two. -/
def visitSched : Nat → Offer
  | 0 => ⟨10, answers [] []⟩
  | 1 => ⟨9, answers [181, 45] [45]⟩
  | 2 => ⟨0, answers [0, 5] [1000, 995]⟩
  | 3 => ⟨42, answers [] []⟩
  | 4 => ⟨1, answers [] []⟩
  | 5 => ⟨0, answers [181, 2] [1000]⟩
  | 6 => ⟨18, answers [187] []⟩
  | _ => ⟨100, answers [] [1000]⟩

/-- The space that there is at the beginning of each call. -/
def visitSpace : Nat → Nat
  | 1 => 226
  | _ => 1000

/-- The connection after so many calls. -/
def visited (n : Nat) : Conn NetConfig.default × List Event :=
  after (connStep site) visitSched ⟨Client.new NetConfig.default 7, stream visit, 0⟩ n

theorem visit_proper : ∀ q ∈ visit, q.Proper site := by
  have hset : site.findHandler .post setRequest.url = some setter := by decide
  simp only [visit, List.forall_mem_cons]
  exact ⟨Or.inl rfl, Or.inr ⟨rfl, setter, selects_handler hset, Option.some_ne_none 1⟩, Or.inl rfl,
    List.forall_mem_nil _⟩

/-- After seven calls everything was received and answered. -/
theorem visited_idle : ∀ n, 7 ≤ n →
    Awaiting (visited n).1.client [] ∧ (visited n).1.pending = [] := by
  refine after_inv_from (connStep site) (n := 7) (P := fun s _ =>
    Awaiting s.client [] ∧ s.pending = []) visitSched (fun k s log hk => ?_) ?_
  · rw [(connStep_awaiting site hk.1 hk.2 (visitSched k)).1]
    exact hk
  · have hlast : let c := (visited 7).1.client
        c.commandType = .unknown ∧ c.file = none ∧ c.handler = none ∧ c.fileOffset = 0 ∧
          c.contentLength = 0 ∧ c.headerSent = false ∧ c.rxLen = 0 ∧
          (visited 7).1.pending = [] := by
      decide +kernel
    obtain ⟨hcommand, hfile, hhandler, hoffset, hlength, hheader, hrxLen, hpending⟩ := hlast
    exact ⟨⟨⟨hcommand, hfile, hhandler, hoffset, hlength, hheader, hrxLen, rfl⟩,
      NetConfig.default.rxBuf_pos⟩, hpending⟩

/-- Up to then no call receives bytes of two requests. -/
theorem visited_segmented : ∀ n < 7, ∀ i < 3,
    (stream (visit.drop i)).length ≤ (visited (n + 1)).1.pending.length ∨
      (visited n).1.pending.length ≤ (stream (visit.drop i)).length := by
  decide +kernel

/-- The space is enough for what is sent. -/
theorem visited_roomy : ∀ n < 7, ∃ t,
    Roomy NetConfig.default ((visitSched n).input (visited n).1.pending) t
      (connStep site (visitSched n) (visited n).1).2 := by
  have hroom : ∀ n < 7, let evs := (connStep site (visitSched n) (visited n).1).2
      Follows (visitSpace n) evs ∧ (∀ e ∈ evs, e.isHeader = true → 226 ≤ visitSpace n) ∧
      ∀ k ∈ asked evs, 226 + ((visitSched n).env.handler k).size ≤ visitSpace n ∧
        ((visitSched n).env.handler k).size ≤ NetConfig.default.txBuf ∧
        ((visitSched n).env.handler k).size ≤ ((visitSched n).env.handler k).out.length := by
    decide +kernel
  have hspace : ∀ n < 7, visitSpace n < 2 ^ 31 := by decide
  intro n hn
  obtain ⟨hfollows, hheader, hreply⟩ := hroom n hn
  exact ⟨visitSpace n, hspace n hn, hfollows, hheader, hreply⟩

/-- The three responses of the visit, and nothing else. -/
theorem requests_answered_visit :
    let env : Replies := fun k reply => ∃ n, reply = (visitSched n).env.handler k
    readAll (wired (visited 7).2) = ([⟨200, ascii "text/html", page.data⟩,
      ⟨200, ascii "text/plain", ascii "ok"⟩, ⟨404, ascii "text/html", []⟩], []) ∧
    ∃ m₀, ∀ m, m₀ ≤ m → ∃ rs, List.Forall₂ (Message.Answered site env) visit rs ∧
      readAll (wired (visited m).2) = (rs.map Response.seen, []) := by
  intro env
  refine ⟨by decide +kernel, ?_⟩
  refine (requests_answered site visit visit_proper (Client.new NetConfig.default 7) rfl visitSched
    (fun n => ?_) fun n => ?_).2 fun r n => ⟨max n 7, Nat.le_max_left n 7, ?_⟩
  · show Segmented visit (visited n).1.pending (visited (n + 1)).1.pending
    intro i
    by_cases hi : i < 3
    · by_cases hn : n < 7
      · exact visited_segmented n hn i hi
      · rw [(visited_idle n (by omega)).2]
        exact Or.inr (Nat.zero_le _)
    · refine Or.inl ?_
      rw [List.drop_eq_nil_of_le (Nat.le_of_not_lt hi : visit.length ≤ i)]
      exact Nat.zero_le _
  · by_cases hn : n < 7
    · exact visited_roomy n hn
    · obtain ⟨ha, hnil⟩ := visited_idle n (by omega)
      obtain ⟨len, hevents⟩ := connStep_idle site ha hnil (visitSched n)
      refine ⟨0, ?_⟩
      show Roomy _ _ 0 (connStep site (visitSched n) (visited n).1).2
      rw [hevents]
      exact ⟨by decide, ⟨trivial, trivial⟩, by simp [Event.isHeader], by simp [asked, Event.asked]⟩
  · obtain ⟨k, hk⟩ := Nat.exists_eq_add_of_le (Nat.le_max_right n 7)
    rw [hk, Nat.add_comm]
    cases r with
    | input => exact (by decide : 0 < 100)
    | space => exact (by decide : 0 < u32OfInt 1000)

end UniNet.Http
