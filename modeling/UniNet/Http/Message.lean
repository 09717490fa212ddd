import UniNet.Http.Connection

/-!
# Serving one request

`Message` is a request as it stands in the stream: a complete header block that fits into the
receive buffer, and the body that it declares. `Progress` says how far a client is with it and
what the log must look like by then, `Complete` how it ends. `Progress.step` is the step lemma,
for any amount of bytes that a call receives and for anything that follows the message in the
stream. Everything that is proved about connections goes through it.
-/

namespace UniNet.Http

open Infra

variable {N : NetConfig}

/-- A request in the stream. -/
structure Message (N : NetConfig) where
  block : Bytes
  body : Bytes
  request : Request
  isBlock : IsBlock block
  fits : block.length ≤ N.rxBuf
  parsed : requestOf block = some request
  length : request.cmdType = .post → request.length = some body.length
  noBody : request.cmdType ≠ .post → body = []

namespace Message

variable (q : Message N)

def bytes : Bytes := q.block ++ q.body

/-- What is dispatched. -/
def key : CommandType × CString := (q.request.cmdType, q.request.url)

variable {q} {acc data rest more : Bytes}

theorem received_bytes (hsplit : acc ++ rest = q.bytes) (hdata : data <+: rest ++ more) :
    acc ++ data <+: q.block ++ (q.body ++ more) := by
  rw [← List.append_assoc, ← bytes, ← hsplit, List.append_assoc]
  exact (List.prefix_append_right_inj _).mpr hdata

/-- The end of the header block has not been received. -/
theorem length_lt_of_hdrEnd (hsplit : acc ++ rest = q.bytes) (hdata : data <+: rest ++ more)
    (hno : hdrEnd (acc ++ data) (acc ++ data).length = none) :
    (acc ++ data).length < q.block.length := by
  rw [q.isBlock.hdrEnd_part (received_bytes hsplit hdata)] at hno
  split at hno
  · cases hno
  · omega

/-- **The block that is found is the block of the message**, and behind it the received bytes
go on with its body. -/
theorem block_eq {block tail : Bytes} (hsplit : acc ++ rest = q.bytes)
    (hdata : data <+: rest ++ more) (hfound : acc ++ data = block ++ tail) (hb : IsBlock block) :
    block = q.block ∧ tail <+: q.body ++ more ∧
      rest.drop data.length = q.body.drop tail.length := by
  have hpre := received_bytes hsplit hdata
  have hend := hdrEnd_append (m := tail) hb
  rw [← hfound, q.isBlock.hdrEnd_part hpre] at hend
  have hlen : q.block.length = block.length := by
    split at hend
    · exact Option.some.inj hend
    · cases hend
  rw [hfound] at hpre
  have hblock : block = q.block :=
    (List.prefix_of_prefix_length_le ((List.prefix_append block tail).trans hpre)
      (List.prefix_append _ _) hlen.ge).eq_of_length hlen.symm
  subst hblock
  refine ⟨rfl, (List.prefix_append_right_inj _).mp hpre, ?_⟩
  have htotal := congrArg List.length hfound
  rw [List.length_append, List.length_append] at htotal
  calc rest.drop data.length
      = (acc ++ rest).drop (acc.length + data.length) := (List.drop_length_add_append _).symm
    _ = (q.block ++ q.body).drop (q.block.length + tail.length) := by rw [hsplit, htotal]; rfl
    _ = q.body.drop tail.length := List.drop_length_add_append _

end Message

/-! ## How far a client is -/

/-- The dispatched requests, the number of answers and the calls of a summary. -/
def Summary.Shows (σ : Summary) (dispatched : List (CommandType × CString)) (answers : Nat)
    (calls : List Event) : Prop :=
  σ.dispatched = dispatched ∧ σ.answers = answers ∧ σ.calls = calls

theorem Summary.Shows.append {σ τ : Summary} {d d' : List (CommandType × CString)} {a a' : Nat}
    {k k' : List Event} (hσ : σ.Shows d a k) (hτ : τ.Shows d' a' k') :
    (σ ++ τ).Shows (d ++ d') (a + a') (k ++ k') := by
  obtain ⟨rfl, rfl, rfl⟩ := hσ
  obtain ⟨rfl, rfl, rfl⟩ := hτ
  exact ⟨rfl, rfl, rfl⟩

/-- A receive does not show. -/
theorem Summary.Shows.recv {σ : Summary} {d : List (CommandType × CString)} {a : Nat}
    {k : List Event} (hσ : σ.Shows d a k) (len : Nat) (r : Recv) :
    (σ ++ summary [.recv len r]).Shows d a k := by
  obtain ⟨rfl, rfl, rfl⟩ := hσ
  exact ⟨List.append_nil _, rfl, List.append_nil _⟩

/-- The connection when `more` follows in the stream. -/
def Conn.before (s : Conn N) (more : Bytes) : Conn N := { s with pending := s.pending ++ more }

/--
A client in the middle of a message, of which `s.pending` is still to be received.

While it awaits the rest of the block nothing has happened. A file is sent behind its header.
During an upload the handler has got the body as far as it was received, in pieces.
-/
inductive Progress (ctx : Context) (q : Message N) (s : Conn N) (σ : Summary) : Prop
  | waiting {acc : Bytes} (ha : Awaiting s.client acc) (hsplit : acc ++ s.pending = q.bytes)
      (hlt : acc.length < q.block.length) (hσ : σ.Shows [] 0 [])
  | sending {f : HttpFile} {off : Nat} (hget : q.request.cmdType = .get)
      (hs : Sending s.client f off) (hrest : s.pending = []) (hσ : σ.Shows [q.key] 1 [])
  | receiving {h : HttpHandler} {chunks : List Bytes} (hpost : q.request.cmdType = .post)
      (hh : ctx.findHandler .post q.request.url = some h)
      (hv : Receiving ctx s.client h q.body.length chunks.flatten.length) (hne : [] ∉ chunks)
      (hbody : chunks.flatten ++ s.pending = q.body)
      (hσ : σ.Shows [q.key] 0 (chunks.map (chunkEvent h)))

/-- A client that is through with a message. Only a POST that nobody handles can leave a part
of it unread. -/
inductive Complete (ctx : Context) (q : Message N) (s : Conn N) (σ : Summary) : Prop
  | ignored (hget : q.request.cmdType ≠ .get) (hpost : q.request.cmdType ≠ .post)
      (ha : Awaiting s.client []) (hrest : s.pending = []) (hσ : σ.Shows [q.key] 0 [])
  | got {calls : List Event} (hget : q.request.cmdType = .get) (hc : s.client.Cleared)
      (hrest : s.pending = []) (hnull : .nullCall ∉ calls) (hσ : σ.Shows [q.key] 1 calls)
  | notFound (hpost : q.request.cmdType = .post)
      (hh : ctx.findHandler .post q.request.url = none) (hc : s.client.Cleared)
      (hσ : σ.Shows [q.key] 1 [])
  | posted {h : HttpHandler} {chunks : List Bytes} (hpost : q.request.cmdType = .post)
      (hh : ctx.findHandler .post q.request.url = some h) (hc : s.client.Cleared)
      (hrest : s.pending = []) (hne : [] ∉ chunks) (hbody : chunks.flatten = q.body)
      (hσ : σ.Shows [q.key] 1
        (chunks.map (chunkEvent h) ++ [callEvent h (some N.txBuf) none]))

/-- In the middle of a message, and not given up without an answer, or through with it. -/
def Reached (ctx : Context) (q : Message N) (s : Conn N) (σ : Summary) : Prop :=
  (Progress ctx q s σ ∧ (σ.answers = 0 → 0 ≤ s.result)) ∨ Complete ctx q s σ

/-- The piece of the body that came with the block, if any. -/
def pieces (data : Bytes) : List Bytes := if data = [] then [] else [data]

theorem pieces_spec (h : HttpHandler) (data : Bytes) :
    (pieces data).flatten = data ∧ [] ∉ pieces data ∧
      chunkEvents h data = (pieces data).map (chunkEvent h) := by
  unfold pieces chunkEvents
  split
  · next hnil => exact ⟨hnil.symm, List.not_mem_nil, rfl⟩
  · next hne => exact ⟨List.append_nil data, by simpa using Ne.symm hne, rfl⟩

section

variable {ctx : Context} {q : Message N} {inp : Input} {o : Out N}

/-- **Dispatching a message**, of whose body, and what follows it, `tail` came with the block. -/
theorem Start.message {tail more : Bytes} {σ : Summary} (hstart : Start ctx inp q.request tail o)
    (hbody : tail <+: q.body ++ more) (hσ : σ.Shows [q.key] 0 []) :
    Reached ctx q ⟨o.client, q.body.drop tail.length, o.result⟩ (σ ++ summary o.events) := by
  have hnone : q.request.cmdType ≠ .post → q.body.drop tail.length = [] := fun h => by
    rw [q.noBody h, List.drop_nil]
  cases hstart with
  | ignored hget hpost ha =>
    exact Or.inr (.ignored hget hpost ha (hnone hpost) (hσ.append ⟨rfl, rfl, rfl⟩))
  | @getReply c d h bufIn hget hh hf =>
    have hrest := hnone (by rw [hget]; decide)
    rw [summary_append, replyEvents_summary]
    refine Or.inr (.got hget (Client.cleared_clear d) hrest ?_ (hσ.append ⟨rfl, rfl, rfl⟩))
    obtain ⟨f, hf⟩ := Option.ne_none_iff_exists'.mp hf
    simp [Summary.append_def, Summary.none, Event.summary, callEvent, hf]
  | @getError d h hget hh hf =>
    exact Or.inr (.got hget (Client.cleared_clear d) (hnone (by rw [hget]; decide))
      List.not_mem_nil (hσ.append ⟨rfl, rfl, rfl⟩))
  | @getFile c f hget hh hf hc =>
    have hsel := selected_of_getFile hc
    have hrest := hnone (by rw [hget]; decide)
    rw [sendfile_summary hsel hc.2.2.2.2]
    rcases cmdGetSendfile_phase (some q.request.url) hsel with hcl | ⟨off, hs⟩
    · exact Or.inr (.got hget hcl hrest List.not_mem_nil (hσ.append ⟨rfl, rfl, rfl⟩))
    · have hσ' := hσ.append (τ := { Summary.none with answers := 1 }) ⟨rfl, rfl, rfl⟩
      exact Or.inl ⟨.sending hget hs hrest hσ', fun h => absurd (hσ'.2.1.symm.trans h) (by decide)⟩
  | @getNotFound d hget hh hf =>
    exact Or.inr (.got hget (Client.cleared_clear d) (hnone (by rw [hget]; decide))
      List.not_mem_nil (hσ.append ⟨rfl, rfl, rfl⟩))
  | @postNotFound d hpost hh =>
    exact Or.inr (.notFound hpost hh (Client.cleared_clear d) (hσ.append ⟨rfl, rfl, rfl⟩))
  | @postBody c h n hpost hlen hh hlt hc =>
    obtain ⟨hflat, hne, hchunks⟩ := pieces_spec h tail
    have hn := Option.some.inj (hlen.symm.trans (q.length hpost))
    rw [summary_append, chunkEvents_summary, hchunks]
    have hc' : Receiving ctx c h q.body.length (pieces tail).flatten.length := by
      rw [hflat, ← hn]
      exact hc
    have hpart : tail <+: q.body :=
      List.prefix_of_prefix_length_le hbody (List.prefix_append _ _) (by omega)
    refine Or.inl ⟨.receiving hpost hh hc' hne ?_ ?_, fun _ => Int.le_refl 0⟩
    · rw [hflat]
      exact List.prefix_iff_eq_append.mp hpart
    · exact hσ.append ⟨rfl, rfl, List.append_nil _⟩
  | @postReply c d h n hpost hlen hh hle =>
    have hn := Option.some.inj (hlen.symm.trans (q.length hpost))
    -- the body is there, and what follows it is not looked at
    have hall : q.body <+: tail :=
      List.prefix_of_prefix_length_le (List.prefix_append _ _) hbody (by omega)
    rw [hn, ← List.prefix_iff_eq_take.mp hall]
    obtain ⟨hflat, hne, hchunks⟩ := pieces_spec h q.body
    rw [summary_append, chunkEvents_summary, summary_append, replyEvents_summary, hchunks]
    exact Or.inr (.posted hpost hh (Client.cleared_clear d) (List.drop_eq_nil_of_le (by omega)) hne
      hflat (hσ.append ⟨rfl, rfl, rfl⟩))

end

/-! ## The step lemma -/

section

variable {ctx : Context} {q : Message N} {s : Conn N} {σ : Summary} {inp : Input} {x : Offer}
  {more : Bytes} {o : Out N}

/-- A receive of a client that awaits the rest of the block. -/
theorem waiting_work {acc : Bytes} (ha : Awaiting s.client acc)
    (hsplit : acc ++ s.pending = q.bytes) (hlt : acc.length < q.block.length)
    (hσ : σ.Shows [] 0 []) (hw : Work ctx (x.input (s.pending ++ more)) s.client o) :
    Reached ctx q ⟨o.client, s.pending.drop (summary o.events).received.length, o.result⟩
      (σ ++ summary o.events) := by
  cases hw with
  | disconnected hcon => cases hcon
  | idle _ ha' hr' =>
    obtain ⟨hnil, -⟩ := Offer.recvUpTo_nonpos hr' (by have := ha'.room; omega)
    rw [hnil]
    exact Or.inl ⟨.waiting ha hsplit hlt (hσ.recv _ _), fun _ => Int.le_refl 0⟩
  | @accumulate d acc' data _ ha' hrecv hne hno hd =>
    obtain rfl := ha.unique ha'
    have hrecvd : (summary [Event.recv (N.rxBuf - acc.length) (.data data)]).received = data :=
      List.append_nil _
    rw [hrecvd]
    have hdata := Offer.received_le hrecv
    have hshort := Message.length_lt_of_hdrEnd hsplit hdata hno
    have htotal := congrArg List.length hsplit
    rw [Message.bytes, List.length_append, List.length_append] at htotal
    -- short of the end of the block nothing of what follows the message is received
    have hpart : data <+: s.pending := by
      rw [List.length_append] at hshort
      exact List.prefix_of_prefix_length_le hdata (List.prefix_append _ _) (by omega)
    refine Or.inl ⟨.waiting hd ?_ hshort (hσ.recv _ _), fun _ => Int.natCast_nonneg _⟩
    rw [List.append_assoc, List.prefix_iff_eq_append.mp hpart, hsplit]
  | @overflow d acc' data _ ha' hrecv hne hno hfull =>
    obtain rfl := ha.unique ha'
    -- the block fits into the buffer
    have hshort := Message.length_lt_of_hdrEnd hsplit (Offer.received_le hrecv) hno
    have := q.fits
    omega
  | @rejected d acc' data block rest _ ha' hrecv hne hfound hb hreq =>
    obtain rfl := ha.unique ha'
    obtain ⟨rfl, -⟩ := Message.block_eq hsplit (Offer.received_le hrecv) hfound hb
    -- a POST is rejected for its missing length only
    obtain ⟨hpost, hnone⟩ := hreq _ q.parsed
    rw [q.length hpost] at hnone
    cases hnone
  | @request acc' data block rest req o' _ ha' hrecv hne hfound hb hreq hstart =>
    obtain rfl := ha.unique ha'
    have hsummary : summary (.recv (N.rxBuf - acc.length) (.data data)
        :: .headers block (acc ++ data).length :: .start req.cmdType req.url :: o'.events)
          = ⟨data, [(req.cmdType, req.url)], 0, []⟩ ++ summary o'.events := by
      simp [Event.summary, Summary.append_def, Summary.none, Recv.bytes]
    have hrecvd : ((⟨data, [(req.cmdType, req.url)], 0, []⟩ : Summary)
        ++ summary o'.events).received = data := by
      rw [Summary.append_def, received_response hstart.isResponse]
      exact List.append_nil _
    rw [hsummary, hrecvd]
    obtain ⟨rfl, hbody, hdrop⟩ := Message.block_eq hsplit (Offer.received_le hrecv) hfound hb
    obtain rfl := Option.some.inj (q.parsed.symm.trans hreq)
    rw [← Summary.append_assoc, hdrop]
    exact hstart.message hbody (hσ.append ⟨rfl, rfl, rfl⟩)
  | sendFile _ hs => exact absurd (ha.command.symm.trans hs.command) (by decide)
  | bodyNone _ hv _ _ => exact absurd (ha.command.symm.trans hv.command) (by decide)
  | bodyChunk _ hv _ _ _ _ => exact absurd (ha.command.symm.trans hv.command) (by decide)
  | bodyReply _ hv => exact absurd (ha.command.symm.trans hv.command) (by decide)

/-- A call for the rest of a file. -/
theorem sending_work {f : HttpFile} {off : Nat} (hget : q.request.cmdType = .get)
    (hs : Sending s.client f off) (hσ : σ.Shows [q.key] 1 []) (hcon : inp.connected = true) :
    Reached ctx q
      ⟨(clientWork ctx inp s.client).client, [], (clientWork ctx inp s.client).result⟩
      (σ ++ summary (clientWork ctx inp s.client).events) := by
  rw [clientWork_sending hcon hs, sendfile_next_summary hs, Summary.append_none]
  rcases cmdGetSendfile_next_phase inp hs with hc | ⟨off', hs'⟩
  · exact Or.inr (.got hget hc rfl List.not_mem_nil hσ)
  · exact Or.inl ⟨.sending hget hs' rfl hσ, fun h => absurd (hσ.2.1.symm.trans h) (by decide)⟩

/-- A call during an upload. -/
theorem receiving_work {h : HttpHandler} {chunks : List Bytes}
    (hpost : q.request.cmdType = .post) (hh : ctx.findHandler .post q.request.url = some h)
    (hv : Receiving ctx s.client h q.body.length chunks.flatten.length) (hne : [] ∉ chunks)
    (hbody : chunks.flatten ++ s.pending = q.body)
    (hσ : σ.Shows [q.key] 0 (chunks.map (chunkEvent h)))
    (hw : Work ctx (x.input (s.pending ++ more)) s.client o) :
    Reached ctx q ⟨o.client, s.pending.drop (summary o.events).received.length, o.result⟩
      (σ ++ summary o.events) := by
  have hlen := congrArg List.length hbody
  rw [List.length_append] at hlen
  cases hw with
  | disconnected hno => cases hno
  | idle _ ha _ | accumulate _ ha _ _ _ _ | overflow _ ha _ _ _ _ | rejected _ ha _ _ _ _ _
  | request _ ha _ _ _ _ _ _ => exact absurd (hv.command.symm.trans ha.command) (by decide)
  | sendFile _ hs => exact absurd (hv.command.symm.trans hs.command) (by decide)
  | bodyNone _ hv' hlt hr =>
    obtain ⟨hnil, -⟩ := Offer.recvUpTo_nonpos hr (by have := N.rxBuf_pos; omega)
    rw [hnil]
    exact Or.inl ⟨.receiving hpost hh hv hne hbody (hσ.recv _ _), fun _ => Int.le_refl 0⟩
  | @bodyChunk d h' n off data _ hv' hrecv hdata hle hd =>
    obtain ⟨rfl, rfl, rfl⟩ := hv.unique hv'
    rw [bodyChunk_summary]
    -- it never receives more than the body
    have hpre : data <+: s.pending :=
      List.prefix_of_prefix_length_le (Offer.received_le hrecv) (List.prefix_append _ _) (by omega)
    have hflat : (chunks ++ [data]).flatten = chunks.flatten ++ data := by
      rw [List.flatten_append, List.flatten_singleton]
    have hd' : Receiving ctx d h q.body.length (chunks ++ [data]).flatten.length := by
      rw [hflat, List.length_append]
      exact hd
    refine Or.inl ⟨.receiving hpost hh hd' ?_ ?_ ?_, fun _ => Int.natCast_nonneg _⟩
    · rw [List.mem_append, List.mem_singleton]
      rintro (hmem | hmem)
      · exact hne hmem
      · exact hdata hmem.symm
    · rw [hflat, List.append_assoc]
      simp only [List.prefix_iff_eq_append.mp hpre, hbody]
    · rw [List.map_append]
      exact hσ.append ⟨rfl, rfl, rfl⟩
  | @bodyReply d h' n _ hv' =>
    obtain ⟨rfl, hn, hall⟩ := hv.unique hv'
    rw [summary_append, replyEvents_summary]
    have hrest : s.pending = [] := List.length_eq_zero_iff.mp (by omega)
    rw [hrest, List.append_nil] at hbody
    refine Or.inr (.posted hpost hh (Client.cleared_clear d) ?_ hne hbody
      (hσ.append ⟨rfl, rfl, rfl⟩))
    rw [hrest, List.drop_nil]

theorem Progress.inv (hp : Progress ctx q s σ) : ClientInv ctx s.client := by
  cases hp with
  | waiting ha _ _ _ => exact Or.inl ⟨_, ha⟩
  | sending _ hs _ _ => exact Or.inr (Or.inl ⟨_, _, hs⟩)
  | receiving _ _ hv _ _ _ => exact Or.inr (Or.inr ⟨_, _, _, hv⟩)

/--
**A call in the middle of a message** gets on with it, whatever follows in the stream. What it
receives behind the message is lost.
-/
theorem Progress.step (hp : Progress ctx q s σ) (x : Offer) (more : Bytes) :
    ∃ s', (connStep ctx x (s.before more)).1 = s'.before (more.drop
        ((summary (connStep ctx x (s.before more)).2).received.length - s.pending.length)) ∧
      Reached ctx q s' (σ ++ summary (connStep ctx x (s.before more)).2) := by
  have hw := clientWork_work hp.inv (x.input (s.pending ++ more))
  refine ⟨⟨(connStep ctx x (s.before more)).1.client,
    s.pending.drop (summary (connStep ctx x (s.before more)).2).received.length,
    (connStep ctx x (s.before more)).1.result⟩, ?_, ?_⟩
  · simp only [connStep, Conn.before, List.drop_append]
  · cases hp with
    | waiting ha hsplit hlt hσ => exact waiting_work ha hsplit hlt hσ hw
    | sending hget hs hrest hσ =>
      rw [hrest, List.drop_nil]
      exact sending_work hget hs hσ rfl
    | receiving hpost hh hv hne hbody hσ => exact receiving_work hpost hh hv hne hbody hσ hw

/-- When all of the message is there, nothing is received until it is served. -/
theorem Progress.received_nil (hp : Progress ctx q s σ) (hnil : s.pending = []) (x : Offer)
    (more : Bytes) : (summary (connStep ctx x (s.before more)).2).received = [] := by
  show (summary (clientWork ctx (x.input (s.pending ++ more)) s.client).events).received = []
  cases hp with
  | waiting ha hsplit hlt hσ =>
    have := congrArg List.length hsplit
    rw [hnil, List.append_nil, Message.bytes, List.length_append] at this
    omega
  | sending hget hs hrest hσ =>
    rw [clientWork_sending rfl hs, sendfile_next_summary hs]
    rfl
  | receiving hpost hh hv hne hbody hσ =>
    rw [hnil, List.append_nil] at hbody
    have hall : u32Sub s.client.contentLength s.client.fileOffset = 0 := by
      rw [hv.length, hv.offset, hbody, u32Sub_of_le (Nat.le_refl _) hv.lt, Nat.sub_self]
    rw [clientWork_receiving rfl hv, cmdPostNext_reply hv.handler hall, summary_append,
      replyEvents_summary]
    rfl

end

end UniNet.Http
