import UniNet.Http.Work

/-!
# Routing

`cmd_get_start` and `cmd_post_start` look through the handlers and files and store what they
find in the client. They do not reset the two pointers first, so what they select depends on
the client as well as on the tables.

`Selects` says what a request is to be served with, by what stands in the tables in front of it,
and `serve` is what the start handlers do for a target, without the tables. For a client that
awaits a request the code is `serve` of the target that is selected, because the invariant keeps
both pointers null then.

* `findHandler_eq_some`, `findFile_eq_some` — the search loops find the first match
* `cmdProcessStart_serve` — a client with nothing selected is served by the tables
* `routing_history_free` — and so is a client that awaits a request, in every reachable state
-/

namespace UniNet.Http

open Infra

variable {N : NetConfig}

/-! ## Targets -/

/-- What a request is served with. -/
inductive Target where
  | handler (h : HttpHandler)
  | file (f : HttpFile)
  | notFound
  deriving DecidableEq

/-- The elements of an array. One that is not valid has none. -/
def UniArray.entries {α : Type} (a : UniArray α) : List α := if a.valid then a.items else []

/-- The handler is for this command and this path. -/
def HttpHandler.Matches (command : CommandType) (url : CString) (h : HttpHandler) : Prop :=
  h.command = command ∧ h.path = url

instance (command : CommandType) (url : CString) :
    DecidablePred (HttpHandler.Matches command url) :=
  fun h => inferInstanceAs (Decidable (h.command = command ∧ h.path = url))

/--
What a request is to be served with: the first handler for its command and path, or else, if it
is a GET, the first file with the path, or else 404.
-/
inductive Context.Selects (ctx : Context) (command : CommandType) (url : CString) : Target → Prop
  | handler {h : HttpHandler} (first : FirstIn (HttpHandler.Matches command url)
      ctx.handlers.entries h) : Selects ctx command url (.handler h)
  | file {f : HttpFile} (others : ∀ h ∈ ctx.handlers.entries, ¬ h.Matches command url)
      (get : command = .get) (first : FirstIn (fun f => f.path = url) ctx.files.entries f) :
      Selects ctx command url (.file f)
  | notFound (others : ∀ h ∈ ctx.handlers.entries, ¬ h.Matches command url)
      (files : command = .get → ∀ f ∈ ctx.files.entries, f.path ≠ url) :
      Selects ctx command url .notFound

section

variable {ctx : Context} {command : CommandType} {url : CString}

theorem UniArray.search_eq {α : Type} (a : UniArray α) (p : α → Bool) :
    a.search p = a.entries.find? p := by
  unfold search entries
  split <;> rfl

/-- **The handler loop finds the first handler.** -/
theorem findHandler_eq_some {h : HttpHandler} : ctx.findHandler command url = some h ↔
    FirstIn (HttpHandler.Matches command url) ctx.handlers.entries h := by
  have htest : (fun h : HttpHandler => h.command == command && h.path == url)
      = fun h => decide (h.Matches command url) := by
    funext h
    rw [Bool.eq_iff_iff, Bool.and_eq_true, beq_iff_eq, beq_iff_eq, decide_eq_true_iff]
    rfl
  rw [Context.findHandler, UniArray.search_eq, htest, find?_eq_some_iff_firstIn]

theorem findHandler_eq_none : ctx.findHandler command url = none ↔
    ∀ h ∈ ctx.handlers.entries, ¬ h.Matches command url := by
  rw [Context.findHandler, UniArray.search_eq, List.find?_eq_none]
  simp only [HttpHandler.Matches, Bool.and_eq_true, beq_iff_eq]

/-- **The file loop finds the first file.** -/
theorem findFile_eq_some {f : HttpFile} : ctx.findFile url = some f ↔
    FirstIn (fun f => f.path = url) ctx.files.entries f := by
  rw [Context.findFile, UniArray.search_eq, ← find?_eq_some_iff_firstIn]
  simp only [beq_eq_decide]

theorem findFile_eq_none : ctx.findFile url = none ↔
    ∀ f ∈ ctx.files.entries, f.path ≠ url := by
  rw [Context.findFile, UniArray.search_eq, List.find?_eq_none]
  simp only [beq_iff_eq, ne_eq]

/-- A target is selected for every request. -/
theorem Context.exists_selects (ctx : Context) (command : CommandType) (url : CString) :
    ∃ t, ctx.Selects command url t := by
  cases hh : ctx.findHandler command url with
  | some h => exact ⟨_, .handler (findHandler_eq_some.mp hh)⟩
  | none =>
    have hothers := findHandler_eq_none.mp hh
    by_cases hget : command = .get
    · cases hf : ctx.findFile url with
      | some f => exact ⟨_, .file hothers hget (findFile_eq_some.mp hf)⟩
      | none => exact ⟨_, .notFound hothers fun _ => findFile_eq_none.mp hf⟩
    · exact ⟨_, .notFound hothers fun h => absurd h hget⟩

/-- Only one target is selected. -/
theorem Context.Selects.unique {t t' : Target} (h : ctx.Selects command url t)
    (h' : ctx.Selects command url t') : t = t' := by
  cases h with
  | handler first =>
    cases h' with
    | handler first' => rw [first.unique first']
    | file others _ _ | notFound others _ => exact absurd first.mem.2 (others _ first.mem.1)
  | file others get first =>
    cases h' with
    | handler first' => exact absurd first'.mem.2 (others _ first'.mem.1)
    | file _ _ first' => rw [first.unique first']
    | notFound _ files => exact absurd first.mem.2 (files get _ first.mem.1)
  | notFound others files =>
    cases h' with
    | handler first' => exact absurd first'.mem.2 (others _ first'.mem.1)
    | file _ get first' => exact absurd first'.mem.2 (files get _ first'.mem.1)
    | notFound _ _ => rfl

end

/-! ## The start handlers -/

/-- What `process_start` does for a target. -/
def serve (inp : Input) (c : Client N) (command : CommandType) (url : CString) (data : Bytes) :
    Target → Out N
  | .handler h =>
    let c := { c with commandType := command, handler := some h }
    if command = .get then cmdGetSendresponse inp c h url else cmdPostStartHandler inp c h data
  | .file f => cmdGetSendfile inp { c with commandType := command, file := some f } f (some url)
  | .notFound =>
    let o := sendHeader inp { c with commandType := command } .notfound
    { o with client := o.client.clear }

section

variable {ctx : Context} {inp : Input} {c : Client N}

/-- **A client with nothing selected is served by the tables.** -/
theorem cmdProcessStart_serve (inp : Input) {command : CommandType} {url : CString} {t : Target}
    (data : Bytes) (hcmd : command = .get ∨ command = .post) (ht : ctx.Selects command url t)
    (hfile : c.file = none) (hhandler : c.handler = none) :
    cmdProcessStart ctx inp c command url data = serve inp c command url data t := by
  -- the loops leave a pointer alone when nothing matches, and it was null before
  cases c
  simp only at hfile hhandler
  subst hfile hhandler
  cases ht with
  | handler first =>
    have hh := findHandler_eq_some.mpr first
    rcases hcmd with rfl | rfl
    · simp only [cmdProcessStart, cmdGetStart, selectHandler, hh, serve]
      rfl
    · simp only [cmdProcessStart, cmdPostStart, selectHandler, hh, serve]
      rfl
  | file others get first =>
    subst get
    have hh := findHandler_eq_none.mpr others
    have hf := findFile_eq_some.mpr first
    simp only [cmdProcessStart, cmdGetStart, selectHandler, selectFile, hh, hf, serve]
  | notFound others files =>
    have hh := findHandler_eq_none.mpr others
    rcases hcmd with rfl | rfl
    · have hf := findFile_eq_none.mpr (files rfl)
      simp only [cmdProcessStart, cmdGetStart, selectHandler, selectFile, hh, hf, serve]
    · simp only [cmdProcessStart, cmdPostStart, selectHandler, hh, serve]

/-- The call that completes a header block hands it to `process_start`, with a client that has
nothing selected. -/
theorem clientWork_dispatch {acc data block rest : Bytes} {req : Request}
    (hcon : inp.connected = true) (ha : Awaiting c acc)
    (hr : inp.recvUpTo (N.rxBuf - acc.length) = .data data) (hne : data ≠ [])
    (hsplit : acc ++ data = block ++ rest) (hb : IsBlock block)
    (hreq : requestOf block = some req) (hlen : req.cmdType = .post → req.length ≠ none) :
    ∃ d : Client N, d.file = none ∧ d.handler = none ∧
      clientWork ctx inp c =
        { startRequest ctx inp d req.cmdType req.url rest with
          events := .recv (N.rxBuf - acc.length) (.data data)
            :: .headers block (acc ++ data).length
            :: (startRequest ctx inp d req.cmdType req.url rest).events } := by
  obtain ⟨d, hd, heq⟩ := clientWork_receive ctx hcon ha hr hne
  rw [hsplit] at hd
  rw [heq, clientWorkReceived_block _ hd hb, ← hsplit]
  rcases clientWorkHeaders_cases ctx inp hd hb with
    ⟨x, hbad, -⟩ | ⟨req', b, n, hreq', -, -, -, hstart⟩
  · exact absurd (hbad req hreq).2 (hlen (hbad req hreq).1)
  · rw [hreq, Option.some.injEq] at hreq'
    subst hreq'
    rw [hstart]
    exact ⟨{ d with headersDone := true, bufRx := b, contentLength := n }, hd.file, hd.handler, rfl⟩

end

/--
**Routing does not depend on the history of the connection.**

In every reachable state a client that awaits a request is served for a complete GET or POST
header block with the one target that the tables select, as a connection is that has just been
accepted.
-/
theorem routing_history_free (ctx : Context) (ws : List WorkInput) (i : Nat) (c : Client N)
    (hs : (server N ctx ws).1[i]? = some (some c)) (hc : c.commandType = .unknown)
    (inp : Input) (hcon : inp.connected = true) (data block rest : Bytes) (req : Request)
    (hr : inp.recvUpTo (N.rxBuf - c.rxLen) = .data data) (hne : data ≠ [])
    (hsplit : c.bufRx.bytes.take c.rxLen ++ data = block ++ rest) (hb : IsBlock block)
    (hreq : requestOf block = some req)
    (hcmd : req.cmdType = .get ∨ (req.cmdType = .post ∧ req.length ≠ none)) :
    ∃ t, (∀ t', ctx.Selects req.cmdType req.url t' ↔ t' = t) ∧ ∃ d : Client N,
      clientWork ctx inp c =
        { startRequest ctx inp d req.cmdType req.url rest with
          events := .recv (N.rxBuf - c.rxLen) (.data data)
            :: .headers block (block ++ rest).length
            :: (startRequest ctx inp d req.cmdType req.url rest).events } ∧
      cmdProcessStart ctx inp d req.cmdType req.url rest
        = serve inp d req.cmdType req.url rest t ∧
      ∀ (socket : Nat) (inp' : Input) (data' : Bytes),
        cmdProcessStart ctx inp' (Client.new N socket) req.cmdType req.url data'
          = serve inp' (Client.new N socket) req.cmdType req.url data' t := by
  rcases server_inv ws hs with ⟨acc, ha⟩ | ⟨f, off, h⟩ | ⟨g, n, off, h⟩
  · rw [ha.rxLen, ha.received] at hsplit
    rw [ha.rxLen] at hr ⊢
    have hlen : req.cmdType = .post → req.length ≠ none := by
      intro hpost
      rcases hcmd with hget | ⟨-, hlen⟩
      · rw [hpost] at hget
        cases hget
      · exact hlen
    obtain ⟨d, hfile, hhandler, heq⟩ := clientWork_dispatch hcon ha hr hne hsplit hb hreq hlen
    have hcmd' := hcmd.imp_right And.left
    obtain ⟨t, ht⟩ := ctx.exists_selects req.cmdType req.url
    rw [hsplit] at heq
    refine ⟨t, fun t' => ⟨fun ht' => ht'.unique ht, ?_⟩, d, heq,
      cmdProcessStart_serve inp _ hcmd' ht hfile hhandler, ?_⟩
    · rintro rfl
      exact ht
    · intro socket inp' data'
      exact cmdProcessStart_serve inp' _ hcmd' ht rfl rfl
  · have := h.command.symm.trans hc
    cases this
  · have := h.command.symm.trans hc
    cases this

theorem length_new : (ascii "new").length < 2 ^ 32 := by decide

theorem length_old : (ascii "old").length < 2 ^ 32 := by decide

def newPage : HttpFile := ⟨CString.ofBytes (ascii "/page"), ascii "new", length_new⟩

def oldPage : HttpFile := ⟨CString.ofBytes (ascii "/page"), ascii "old", length_old⟩

def firstHandler : HttpHandler := ⟨CString.ofBytes (ascii "/call"), .get, some 1, 0⟩

/-- Two handlers for one path, and two files for another one that has a handler for POST only. -/
def overlapping : Context where
  handlers := ⟨true, [⟨newPage.path, .post, some 3, 0⟩, firstHandler,
    { firstHandler with function := some 2 }]⟩
  files := ⟨true, [newPage, oldPage]⟩
  maxClients := 1

theorem overlapping_handler : overlapping.Selects .get firstHandler.path (.handler firstHandler) :=
  .handler (findHandler_eq_some.mp (by decide))

theorem overlapping_file : overlapping.Selects .get newPage.path (.file newPage) :=
  .file (findHandler_eq_none.mp (by decide)) rfl (findFile_eq_some.mp (by decide))

/-- A connection that has just been accepted is served with the first handler, and with the first
file. -/
theorem routing_history_free_first :
    let served (block : Bytes) (url : CString) (t : Target) : Prop :=
      let inp := { Input.idle with recv := .data block }
      ∃ d : Client NetConfig.default,
        (clientWork overlapping inp (Client.new NetConfig.default 7)).result
          = (startRequest overlapping inp d .get url []).result ∧
        cmdProcessStart overlapping inp d .get url [] = serve inp d .get url [] t
    served (ascii "GET /call HTTP/1.1\r\n\r\n") firstHandler.path (.handler firstHandler) ∧
      served (ascii "GET /page HTTP/1.1\r\n\r\n") newPage.path (.file newPage) := by
  intro served
  have hserved : ∀ (block : Bytes) (url : CString) (t : Target), block ≠ [] →
      (Input.recvUpTo { Input.idle with recv := .data block } NetConfig.default.rxBuf
        = .data block) → IsBlock block →
      requestOf block = some ⟨.get, url, none, none⟩ → overlapping.Selects .get url t →
      served block url t := by
    intro block url t hne hr hb hreq ht
    obtain ⟨t', hone, d, heq, hserve, -⟩ := routing_history_free (N := NetConfig.default)
      overlapping [⟨some 7, fun _ => Input.idle⟩] 0 (Client.new NetConfig.default 7) rfl rfl
      { Input.idle with recv := .data block } rfl block block [] ⟨.get, url, none, none⟩ hr hne
      (List.append_nil _).symm hb hreq (Or.inl rfl)
    obtain rfl := (hone t).mp ht
    exact ⟨d, by rw [heq], hserve⟩
  exact ⟨hserved _ _ _ (by decide) rfl (by decide) (by decide) overlapping_handler,
    hserved _ _ _ (by decide) rfl (by decide) (by decide) overlapping_file⟩

end UniNet.Http
