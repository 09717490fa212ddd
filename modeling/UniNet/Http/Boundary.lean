import UniNet.Http.Connection

/-!
# Where a request may begin

The header block of a POST declares the length of the body behind it. A later request on the
same connection must not begin before the end of that body, or else what one party sent as
data is read as a request.

Positions are counted from the first byte of the block. `BeginBehind B r log` says that after
`r` bytes have been received, all requests found in the log, up to the end of the connection,
begin at `B` or behind it. What carries it along a run is a balance: `B` is at most what was
received, less what still lies in the buffer, plus what the client owes to a handler
(`Work.balance`).

* `body_never_request_iff` — when no continuation of the run finds a request inside the body
-/

namespace UniNet.Http

open Infra

variable {N : NetConfig}

/-! ## Positions -/

/-- The number of bytes in the buffer in which a header block was found. -/
def Event.headersLen : Event → Option Nat
  | .headers _ rxLen => some rxLen
  | _ => none

def BeginBehind (B : Nat) : Nat → List Event → Prop
  | _, [] => True
  | r, e :: log => e = .closesocket ∨
      ((∀ rxLen, e.headersLen = some rxLen → B + rxLen ≤ r) ∧
        BeginBehind B (r + e.summary.received.length) log)

section

variable {B r : Nat}

theorem beginBehind_append (m : List Event) : ∀ {l : List Event} {r : Nat},
    BeginBehind B r (l ++ m) ↔ BeginBehind B r l ∧
      (.closesocket ∉ l → BeginBehind B (r + (summary l).received.length) m)
  | [], r => by simp [BeginBehind, Summary.none]
  | e :: l, r => by
    have hlen : (summary (e :: l)).received.length
        = e.summary.received.length + (summary l).received.length := by
      rw [summary_cons, Summary.append_def, List.length_append]
    rw [List.cons_append, BeginBehind, BeginBehind, beginBehind_append m, hlen, List.mem_cons,
      Nat.add_assoc]
    by_cases he : e = .closesocket
    · simp [he]
    · simp [he, Ne.symm he, and_assoc]

theorem beginBehind_of_none : ∀ {log : List Event} {r : Nat},
    (∀ e ∈ log, e.headersLen = none) → BeginBehind B r log
  | [], _, _ => trivial
  | e :: log, r, h => by
    rw [List.forall_mem_cons] at h
    refine Or.inr ⟨fun _ he => ?_, beginBehind_of_none h.2⟩
    rw [h.1] at he
    cases he

theorem Event.headersLen_of_isResponse {e : Event} (h : e.isResponse = true) :
    e.headersLen = none := by
  cases e <;> first | rfl | cases h

/-- A receive, and a block found in what is there then. -/
theorem beginBehind_block {len rxLen : Nat} {data block : Bytes} {log : List Event}
    (h : B + rxLen ≤ r + data.length) (hlog : ∀ e ∈ log, e.headersLen = none) :
    BeginBehind B r (.recv len (.data data) :: .headers block rxLen :: log) := by
  refine Or.inr ⟨fun _ he => (nomatch he), Or.inr ⟨fun _ he => ?_, beginBehind_of_none hlog⟩⟩
  rw [← Option.some.inj he]
  exact h

end

/-! ## The balance -/

/-- What a client has still to receive for a handler. -/
def Client.owed (c : Client N) : Nat :=
  if c.commandType = .post then c.contentLength - c.fileOffset else 0

theorem Awaiting.owed {c : Client N} {acc : Bytes} (h : Awaiting c acc) : c.owed = 0 := by
  rw [Client.owed, h.command]
  rfl

theorem Sending.owed {c : Client N} {f : HttpFile} {off : Nat} (h : Sending c f off) :
    c.owed = 0 := by
  rw [Client.owed, h.command]
  rfl

section

variable {ctx : Context} {inp : Input} {c : Client N} {o : Out N} {B r : Nat}

theorem Receiving.owed {h : HttpHandler} {n off : Nat} (hv : Receiving ctx c h n off) :
    c.owed = n - off := by
  rw [Client.owed, if_pos hv.command, hv.length, hv.offset]

theorem Start.rxLen {req : Request} {rest : Bytes} (h : Start ctx inp req rest o) :
    o.client.rxLen = 0 := by
  cases h with
  | ignored _ _ hc => exact hc.rxLen
  | getReply _ _ _ | getError _ _ _ | getFile _ _ _ _ | getNotFound _ _ _ | postNotFound _ _
  | postReply _ _ _ _ => rfl
  | postBody _ _ _ _ hc => exact hc.rxLen

theorem Start.headersLen {req : Request} {rest : Bytes} (h : Start ctx inp req rest o) :
    ∀ e ∈ o.events, e.headersLen = none :=
  fun e he => Event.headersLen_of_isResponse (h.isResponse e he)

/-- **A call looks at no more than one header block**, the one in front of what it holds then. -/
theorem Work.block_cases (hw : Work ctx inp c o) :
    (∀ e ∈ o.events, e.headersLen = none) ∨
      ∃ acc data block tail evs, Awaiting c acc ∧ data.length ≤ N.rxBuf - acc.length ∧
        acc ++ data = block ++ tail ∧
        o.events = .recv (N.rxBuf - acc.length) (.data data)
          :: .headers block (acc ++ data).length :: evs ∧
        (∀ e ∈ evs, e.headersLen = none) ∧
        ((∀ req, requestOf block = some req → req.cmdType = .post ∧ req.length = none) ∨
          ∃ req o', requestOf block = some req ∧ Start ctx inp req tail o' ∧
            evs = .start req.cmdType req.url :: o'.events ∧ o.result = o'.result ∧
            o.client = o'.client) := by
  cases hw with
  | disconnected _ => exact Or.inl (List.forall_mem_nil _)
  | idle _ _ _ | bodyNone _ _ _ _ | accumulate _ _ _ _ _ _ =>
    left
    rw [List.forall_mem_singleton]
    rfl
  | overflow _ _ _ _ _ _ =>
    left
    simp only [List.forall_mem_cons]
    exact ⟨rfl, rfl, rfl, List.forall_mem_nil _⟩
  | @rejected d acc data block rest _ ha hr _ hsplit hb hreq =>
    refine Or.inr ⟨acc, data, block, rest, _, ha, Input.recvUpTo_length hr, hsplit, rfl, ?_,
      Or.inl hreq⟩
    rw [List.forall_mem_cons, List.forall_mem_singleton]
    exact ⟨rfl, rfl⟩
  | @request acc data block rest req o' _ ha hr _ hsplit hb hreq hs =>
    refine Or.inr ⟨acc, data, block, rest, _, ha, Input.recvUpTo_length hr, hsplit, rfl, ?_,
      Or.inr ⟨req, o', hreq, hs, rfl, rfl, rfl⟩⟩
    rw [List.forall_mem_cons]
    exact ⟨rfl, hs.headersLen⟩
  | @sendFile f off _ hs =>
    obtain ⟨tail, htail, hall⟩ := cmdGetSendfile_events inp none hs.serving.selected
    rw [sendfileHeader, if_pos hs.header, List.nil_append] at htail
    rw [htail]
    exact Or.inl fun e he =>
      Event.headersLen_of_isResponse (Event.isResponse_of_isTransfer (hall e he))
  | @bodyChunk d g n off data _ hv _ _ _ _ =>
    left
    rw [List.forall_mem_cons, List.forall_mem_singleton]
    exact ⟨rfl, Event.headersLen_of_isResponse (callEvent_isResponse g none (some data))⟩
  | bodyReply _ _ =>
    left
    rw [List.forall_mem_append, List.forall_mem_singleton]
    exact ⟨fun e he => Event.headersLen_of_isResponse (replyEvents_isResponse _ _ _ _ _ e he), rfl⟩

/-- A call finds a request only behind `B`. -/
theorem Work.beginBehind (hw : Work ctx inp c o) (h : B + c.rxLen ≤ r + c.owed) :
    BeginBehind B r o.events := by
  rcases hw.block_cases with hnone | ⟨acc, data, block, tail, evs, ha, -, -, hevents, hevs, -⟩
  · exact beginBehind_of_none hnone
  · rw [ha.rxLen, ha.owed] at h
    rw [hevents]
    refine beginBehind_block ?_ hevs
    rw [List.length_append]
    omega

/-- **A call keeps the balance.** -/
theorem Work.balance (hw : Work ctx inp c o) (h : B + c.rxLen ≤ r + c.owed) :
    B + o.client.rxLen ≤ r + (summary o.events).received.length + o.client.owed := by
  cases hw with
  | disconnected _ => exact h
  | idle _ _ hr | bodyNone _ _ _ hr =>
    rw [summary_cons, Event.summary, Recv.bytes_of_nonpos hr]
    exact h
  | @accumulate d acc data _ ha _ _ _ ha' =>
    rw [ha.rxLen, ha.owed] at h
    have hrecvd : (summary [Event.recv (N.rxBuf - acc.length) (.data data)]).received = data :=
      List.append_nil _
    rw [hrecvd, ha'.rxLen, List.length_append]
    omega
  | @overflow d acc data _ ha _ _ _ _ | @rejected d acc data _ _ _ ha _ _ _ _ _ =>
    rw [ha.rxLen, ha.owed] at h
    rw [(awaiting_clear d).rxLen, List.length_nil]
    omega
  | @request acc data block rest req o' _ ha _ _ _ _ _ hs =>
    rw [ha.rxLen, ha.owed] at h
    simp only [hs.rxLen]
    omega
  | @sendFile f off _ hs =>
    rw [hs.rxLen, hs.owed] at h
    rcases cmdGetSendfile_next_phase inp hs with hc | ⟨off', hs'⟩
    · rw [hc.awaiting.rxLen, List.length_nil]
      omega
    · rw [hs'.rxLen]
      omega
  | @bodyChunk d g n off data _ hv _ _ hle hv' =>
    rw [hv.rxLen, hv.owed] at h
    rw [bodyChunk_summary, hv'.rxLen, hv'.owed]
    show B + 0 ≤ r + data.length + _
    omega
  | @bodyReply d g n _ hv =>
    rw [hv.rxLen, hv.owed] at h
    rw [(awaiting_clear d).rxLen, List.length_nil]
    omega

end

/-! ## Along a run -/

section

variable {ctx : Context} {B r : Nat}

theorem slotStep_kept {x : SlotInput} {c : Client N} (h : ¬ (clientWork ctx x.inp c).result < 0) :
    slotStep ctx x (some c)
      = (some (clientWork ctx x.inp c).client, (clientWork ctx x.inp c).events) :=
  slotWork_kept h

theorem slotStep_deleted {x : SlotInput} {c : Client N} (h : (clientWork ctx x.inp c).result < 0) :
    slotStep ctx x (some c)
      = (none, (clientWork ctx x.inp c).events
          ++ [.fdClr [.read, .write, .except, .intr], .closesocket]) :=
  slotWork_deleted h

/-- The log begins requests behind `B` only, and as long as the connection is open the balance
holds. -/
def Balanced (ctx : Context) (B r : Nat) (s : Option (Client N)) (log : List Event) : Prop :=
  BeginBehind B r log ∧ (.closesocket ∉ log → ∃ c, s = some c ∧ ClientInv ctx c ∧
    B + c.rxLen ≤ r + (summary log).received.length + c.owed)

theorem Balanced.step {s : Option (Client N)} {log : List Event} (h : Balanced ctx B r s log)
    (x : SlotInput) :
    Balanced ctx B r (slotStep ctx x s).1 (log ++ (slotStep ctx x s).2) := by
  obtain ⟨hlog, hopen⟩ := h
  unfold Balanced
  rw [beginBehind_append, List.mem_append]
  by_cases hclosed : .closesocket ∈ log
  · -- what happens in the slot afterwards concerns another connection
    exact ⟨⟨hlog, fun hno => absurd hclosed hno⟩, fun hno => absurd (Or.inl hclosed) hno⟩
  · obtain ⟨c, rfl, hc, hbal⟩ := hopen hclosed
    have hw := clientWork_work hc x.inp
    have hbegin := hw.beginBehind hbal
    by_cases hneg : (clientWork ctx x.inp c).result < 0
    · rw [slotStep_deleted hneg, beginBehind_append]
      refine ⟨⟨hlog, fun _ => ⟨hbegin, fun _ => ?_⟩⟩, fun hno => absurd (Or.inr ?_) hno⟩
      · exact Or.inr ⟨fun _ he => (nomatch he), Or.inl rfl⟩
      · simp
    · rw [slotStep_kept hneg]
      refine ⟨⟨hlog, fun _ => hbegin⟩, fun _ => ⟨_, rfl, hw.inv hc, ?_⟩⟩
      rw [summary_append, Summary.append_def, List.length_append, ← Nat.add_assoc]
      exact hw.balance hbal

/-- A call in a slot, and the end of the connection when it fails. -/
theorem slotWork_cases (ctx : Context) (inp : Input) (c : Client N) :
    ∃ closing, (slotWork ctx inp (some c)).2 = (clientWork ctx inp c).events ++ closing ∧
      (∀ e ∈ closing, e.headersLen = none) ∧
      (((slotWork ctx inp (some c)).1 = none ∧ .closesocket ∈ closing) ∨
        (slotWork ctx inp (some c)).1 = some (clientWork ctx inp c).client ∧ closing = []) := by
  by_cases hneg : (clientWork ctx inp c).result < 0
  · rw [slotWork_deleted hneg]
    refine ⟨_, rfl, ?_, Or.inl ⟨rfl, List.mem_cons_of_mem _ (List.mem_singleton_self _)⟩⟩
    rw [List.forall_mem_cons, List.forall_mem_singleton]
    exact ⟨rfl, rfl⟩
  · rw [slotWork_kept hneg]
    exact ⟨[], (List.append_nil _).symm, List.forall_mem_nil _, Or.inr ⟨rfl, rfl⟩⟩

/-- The step in which a header block is found that is a request. -/
theorem slotStep_request {s : Option (Client N)} (hs : SlotInv ctx s) {x : SlotInput}
    {pre rest : List Event} {block : Bytes} {rxLen : Nat} {req : Request}
    (hlog : (slotStep ctx x s).2 = pre ++ .headers block rxLen :: rest)
    (hreq : requestOf block = some req) (hlen : req.length ≠ none) :
    ∃ tail o closing, rxLen = block.length + tail.length ∧ rxLen ≤ N.rxBuf ∧
      Start ctx x.inp req tail o ∧ rest = .start req.cmdType req.url :: o.events ++ closing ∧
      (∀ e ∈ closing, e.headersLen = none) ∧
      (((slotStep ctx x s).1 = none ∧ .closesocket ∈ closing) ∨
        (slotStep ctx x s).1 = some o.client ∧ closing = []) := by
  have haccept : ∀ e ∈ (slotAccept x.accept s).2, e.headersLen = none := by
    unfold slotAccept
    split
    · rw [List.forall_mem_cons, List.forall_mem_singleton]
      exact ⟨rfl, rfl⟩
    · exact List.forall_mem_nil _
  have hnot : ∀ {log : List Event}, (∀ e ∈ log, e.headersLen = none) →
      .headers block rxLen ∉ log := fun hall hmem => nomatch hall _ hmem
  have hinv := slotAccept_inv (a := x.accept) hs
  have hmem : .headers block rxLen ∈ (slotStep ctx x s).2 := by
    rw [hlog]
    exact List.mem_append_right _ (List.mem_cons_self ..)
  unfold slotStep at hlog hmem ⊢
  generalize (slotAccept x.accept s).2 = before at haccept hlog hmem
  cases hstate : (slotAccept x.accept s).1 with
  | none =>
    rw [hstate, slotWork, List.append_nil] at hmem
    exact absurd hmem (hnot haccept)
  | some c =>
    rw [hstate] at hlog hmem
    obtain ⟨closing, hevents, hclosing, hend⟩ := slotWork_cases ctx x.inp c
    simp only [hevents] at hlog hmem
    rcases (clientWork_work (hinv c hstate) x.inp).block_cases with
      hnone | ⟨acc, data, b, tail, evs, ha, hroom, hsplit, hwork, hevs, hkind⟩
    · refine absurd hmem (hnot ?_)
      simp only [List.forall_mem_append]
      exact ⟨haccept, hnone, hclosing⟩
    · -- the call has a single block, so the two ways to split the log at one agree
      have hlog' : (before ++ [.recv (N.rxBuf - acc.length) (.data data)])
          ++ .headers b (acc ++ data).length :: (evs ++ closing)
            = pre ++ .headers block rxLen :: rest := by
        rw [← hlog, hwork]
        simp only [List.append_assoc, List.cons_append, List.nil_append]
      obtain ⟨-, hblock, hrest⟩ := (List.append_cons_inj_of_notMem
        (hnot (by
          rw [List.forall_mem_append, List.forall_mem_singleton]
          exact ⟨haccept, rfl⟩))
        (hnot (by
          rw [List.forall_mem_append]
          exact ⟨hevs, hclosing⟩))).mp hlog'
      obtain ⟨rfl, rfl⟩ := Event.headers.inj hblock
      rcases hkind with hbad | ⟨req', o', hreq', hstart, rfl, -, hclient⟩
      · exact absurd (hbad req hreq).2 hlen
      · obtain rfl := Option.some.inj (hreq'.symm.trans hreq)
        rw [hclient] at hend
        refine ⟨tail, o', closing, ?_, ?_, hstart, hrest.symm, hclosing, hend⟩
        · rw [hsplit, List.length_append]
        · have := ha.room
          rw [List.length_append]
          omega

end

/-! ## When it goes wrong -/

section

variable {ctx : Context} {inp : Input} {o : Out N}

/-- A POST leaves the client waiting for a request or for the rest of the body. -/
theorem Start.post_phase {req : Request} {tail : Bytes} (hs : Start ctx inp req tail o)
    (hpost : req.cmdType = .post) :
    Awaiting o.client [] ∨ ∃ h n off, Receiving ctx o.client h n off := by
  cases hs with
  | ignored _ hno _ => exact absurd hpost hno
  | getReply hget _ _ | getError hget _ _ | getFile hget _ _ _ | getNotFound hget _ _ =>
    exact absurd (hget.symm.trans hpost) (by decide)
  | postNotFound _ _ => exact Or.inl (awaiting_clear _)
  | postBody _ _ _ _ hc => exact Or.inr ⟨_, _, _, hc⟩
  | postReply _ _ _ _ => exact Or.inl (awaiting_clear _)

/-- **When the client owes what is missing of the body.** -/
theorem Start.owed_iff {req : Request} {tail : Bytes} {n : Nat} (hs : Start ctx inp req tail o)
    (hpost : req.cmdType = .post) (hlen : req.length = some (u32 n))
    (htail : tail.length < 2 ^ 31) :
    n ≤ tail.length + o.client.owed ↔
      n < 2 ^ 32 ∧ (ctx.findHandler .post req.url ≠ none ∨ n ≤ tail.length) := by
  have hmod : u32 n ≤ n := Nat.mod_le _ _
  cases hs with
  | ignored _ hno _ => exact absurd hpost hno
  | getReply hget _ _ | getError hget _ _ | getFile hget _ _ _ | getNotFound hget _ _ =>
    exact absurd (hget.symm.trans hpost) (by decide)
  | @postNotFound d _ hh =>
    rw [(awaiting_clear d).owed, hh]
    simp only [ne_eq, not_true_eq_false, false_or]
    omega
  | @postBody c h m _ hlen' hh hlt hc =>
    -- the client owes what is missing of the length modulo `2 ^ 32`
    obtain rfl := Option.some.inj (hlen'.symm.trans hlen)
    rw [hc.owed, hh]
    simp only [ne_eq, reduceCtorEq, not_false_eq_true, true_or, and_true]
    constructor
    · intro hle
      have := hc.lt
      omega
    · intro h32
      rw [u32_of_lt h32] at hlt ⊢
      omega
  | @postReply c d h m _ hlen' hh hle =>
    obtain rfl := Option.some.inj (hlen'.symm.trans hlen)
    rw [(awaiting_clear d).owed, hh]
    simp only [ne_eq, reduceCtorEq, not_false_eq_true, true_or, and_true]
    constructor
    · intro _
      omega
    · intro h32
      rw [u32_of_lt h32] at hle
      omega

/-- A run that leads a client to where it awaits a request, with `k` bytes received. -/
def Drains (ctx : Context) (c : Client N) (k : Nat) : Prop :=
  ∃ ys d log, run (slotStep ctx) ys (some c) = (some d, log) ∧ Awaiting d [] ∧
    (summary log).received.length = k ∧ .closesocket ∉ log

theorem Event.ne_closesocket {e : Event} (h : e.isResponse = true) : e ≠ .closesocket := by
  rintro rfl
  cases h

/-- The whole body is there, and the reply is empty. -/
theorem drains_reply {c : Client N} {h : HttpHandler} {n : Nat} (hv : Receiving ctx c h n n) :
    Drains ctx c 0 := by
  have hall : u32Sub c.contentLength c.fileOffset = 0 := by
    rw [hv.length, hv.offset, u32Sub_of_le (Nat.le_refl _) hv.lt, Nat.sub_self]
  have hwork : clientWork ctx Input.idle c = _ :=
    (clientWork_receiving rfl hv).trans (cmdPostNext_reply hv.handler hall)
  have hreply : callReply Input.idle h (some N.txBuf) none = ⟨0, []⟩ := by
    unfold callReply
    split <;> rfl
  have hresult : ¬ (clientWork ctx Input.idle c).result < 0 := by
    rw [hwork, replyResult, hreply, (sendReply_eq _ _ _ _).2]
    decide
  refine ⟨[⟨none, Input.idle⟩], (clientWork ctx Input.idle c).client,
    (clientWork ctx Input.idle c).events, ?_, ?_, ?_, ?_⟩
  · rw [run, run_nil, List.append_nil]
    exact slotStep_kept hresult
  · rw [hwork]
    exact awaiting_clear _
  · rw [hwork, summary_append, replyEvents_summary]
    rfl
  · rw [hwork, List.mem_append, List.mem_singleton]
    rintro (hmem | hmem)
    · exact Event.ne_closesocket (replyEvents_isResponse _ _ _ _ _ _ hmem) rfl
    · cases hmem

/-- A single byte of the body. -/
theorem slotStep_byte {c : Client N} {h : HttpHandler} {n off : Nat}
    (hv : Receiving ctx c h n off) (hlt : off < n) :
    ∃ x d, slotStep ctx x (some c)
        = (some d, [.recv (min (n - off) N.rxBuf) (.data [0]), chunkEvent h [0]]) ∧
      Receiving ctx d h n (off + 1) := by
  have hpos := N.rxBuf_pos
  have hrecv : { Input.idle with recv := .data [0] }.recvUpTo (min (n - off) N.rxBuf)
      = .data [0] := by
    show Recv.data ([0].take _) = _
    rw [List.take_of_length_le]
    rw [List.length_singleton]
    omega
  have hw := clientWork_work (Or.inr (Or.inr ⟨h, n, off, hv⟩)) { Input.idle with recv := .data [0] }
  generalize hout : clientWork ctx { Input.idle with recv := .data [0] } c = o at hw
  cases hw with
  | disconnected hno => cases hno
  | idle _ ha _ | accumulate _ ha _ _ _ _ | overflow _ ha _ _ _ _ | rejected _ ha _ _ _ _ _
  | request _ ha _ _ _ _ _ _ => exact absurd (hv.command.symm.trans ha.command) (by decide)
  | sendFile _ hs => exact absurd (hv.command.symm.trans hs.command) (by decide)
  | bodyNone _ hv' _ hr =>
    obtain ⟨-, rfl, rfl⟩ := hv.unique hv'
    rw [hrecv] at hr
    exact absurd hr (by decide)
  | @bodyChunk d h' n' off' data _ hv' hr _ _ hd =>
    obtain ⟨rfl, rfl, rfl⟩ := hv.unique hv'
    obtain rfl := Recv.data.inj (hrecv.symm.trans hr)
    refine ⟨⟨none, { Input.idle with recv := .data [0] }⟩, d, ?_, hd⟩
    rw [slotStep_kept (by rw [hout]; exact Int.not_lt.mpr (Int.natCast_nonneg _)), hout]
  | bodyReply _ hv' =>
    obtain ⟨-, rfl, hall⟩ := hv.unique hv'
    omega

theorem drains_body {h : HttpHandler} {n : Nat} : ∀ (k off : Nat) {c : Client N},
    Receiving ctx c h n off → off + k = n → Drains ctx c k
  | 0, off, c, hv, hn => by
    rw [Nat.add_zero] at hn
    subst hn
    exact drains_reply hv
  | k + 1, off, c, hv, hn => by
    obtain ⟨x, d, hstep, hd⟩ := slotStep_byte hv (by omega)
    obtain ⟨ys, d', log, hrun, ha, hlen, hopen⟩ := drains_body k (off + 1) hd (by omega)
    refine ⟨x :: ys, d', (slotStep ctx x (some c)).2 ++ log, ?_, ha, ?_, ?_⟩
    · rw [run, hstep, hrun]
    · rw [hstep, summary_append, bodyChunk_summary, Summary.append_def, List.length_append, hlen]
      exact Nat.add_comm 1 k
    · simp only [hstep, List.mem_append, List.mem_cons, List.not_mem_nil, or_false, not_or,
        reduceCtorEq, not_false_eq_true, true_and]
      exact ⟨(Event.ne_closesocket (callEvent_isResponse h none (some [0]))).symm, hopen⟩

theorem Start.drains {req : Request} {tail : Bytes} (hs : Start ctx inp req tail o)
    (hpost : req.cmdType = .post) : Drains ctx o.client o.client.owed := by
  rcases hs.post_phase hpost with ha | ⟨h, n, off, hv⟩
  · rw [ha.owed]
    exact ⟨[], o.client, [], rfl, ha, rfl, List.not_mem_nil⟩
  · have hle := hv.le
    rw [hv.owed]
    exact drains_body (n - off) off hv (by omega)

/-- A block that is received in one piece is found. -/
theorem slotStep_block (ctx : Context) {d : Client N} (ha : Awaiting d []) {block : Bytes}
    (hb : IsBlock block) (hne : block ≠ []) (hfits : block.length ≤ N.rxBuf) :
    ∃ x evs, (slotStep ctx x (some d)).2
      = .recv N.rxBuf (.data block) :: .headers block block.length :: evs := by
  have hrecv : { Input.idle with recv := .data block }.recvUpTo (N.rxBuf - ([] : Bytes).length)
      = .data block := by
    show Recv.data (block.take N.rxBuf) = _
    rw [List.take_of_length_le hfits]
  obtain ⟨d', hd, hwork⟩ := clientWork_receive ctx rfl ha hrecv hne
  rw [List.nil_append, ← List.append_nil block] at hd
  rw [clientWorkReceived_block _ hd hb, List.append_nil] at hwork
  obtain ⟨closing, hevents, -⟩ := slotWork_cases ctx { Input.idle with recv := .data block } d
  rw [hwork] at hevents
  exact ⟨⟨none, { Input.idle with recv := .data block }⟩, _, hevents⟩

/-- No bytes of a body are left over once the client awaits a request. -/
theorem Drains.beginBehind {c : Client N} {k B r : Nat} (hd : Drains ctx c k)
    (hall : ∀ ys, BeginBehind B r (run (slotStep ctx) ys (some c)).2) : B ≤ r + k := by
  obtain ⟨ys, d, log, hrun, ha, hlen, hopen⟩ := hd
  -- the next thing received is an empty line, which begins right behind what was drained
  have hmss := N.mss_ge
  have hfits : 4 ≤ N.rxBuf := show 4 ≤ 2 * N.mss by omega
  have hb : IsBlock [13, 10, 13, 10] := by decide
  obtain ⟨x, evs, hprobe⟩ := slotStep_block ctx ha hb (List.cons_ne_nil _ _) hfits
  have h := hall (ys ++ [x])
  rw [run_concat, hrun, beginBehind_append, hprobe] at h
  rcases h.2 hopen with hno | ⟨-, hno | ⟨hle, -⟩⟩
  · cases hno
  · cases hno
  · have := hle 4 rfl
    rw [hlen] at this
    simp only [Event.summary, Recv.bytes, List.length_cons, List.length_nil] at this
    omega

/-- **Where the requests behind a POST begin.** A connection that its answer closes is read no
further. On one that stays open, no continuation of the run finds a header block that begins
inside the declared body if and only if the length is a 32 bit number and a handler takes the
body, unless all of it came along with the header block and was dropped. -/
theorem body_never_request_iff (N : NetConfig) (ctx : Context) (xs : List SlotInput) (x : SlotInput)
    {pre rest : List Event} {block : Bytes} {rxLen n : Nat} {req : Request}
    (hlog : (slotStep ctx x (slotRun N ctx xs).1).2 = pre ++ .headers block rxLen :: rest)
    (hreq : requestOf block = some req) (hpost : req.cmdType = .post)
    (hlen : req.declared = some n) :
    let s := (slotStep ctx x (slotRun N ctx xs).1).1
    let behind := ∀ ys, BeginBehind (block.length + n) rxLen (rest ++ (run (slotStep ctx) ys s).2)
    (s = none → behind) ∧
      (s ≠ none → (behind ↔
        n < 2 ^ 32 ∧ (ctx.findHandler .post req.url ≠ none ∨ block.length + n ≤ rxLen))) := by
  have hlen' : req.length = some (u32 n) := by
    rw [requestOf_length hreq, hlen, Option.map_some]
  have hinv : SlotInv ctx (slotRun N ctx xs).1 := slotRun_inv xs
  obtain ⟨tail, o, closing, rfl, hroom, hstart, rfl, hclosing, hend⟩ :=
    slotStep_request hinv hlog hreq (by rw [hlen']; exact Option.some_ne_none _)
  have hnone : ∀ e ∈ (.start req.cmdType req.url :: o.events ++ closing : List Event),
      e.headersLen = none := by
    rw [List.forall_mem_append, List.forall_mem_cons]
    exact ⟨⟨rfl, hstart.headersLen⟩, hclosing⟩
  have hbound := N.rxBuf_lt
  dsimp only
  rcases hend with ⟨hs, hclosed⟩ | ⟨hs, rfl⟩
  · refine ⟨fun _ ys => ?_, fun hno => absurd hs hno⟩
    rw [beginBehind_append]
    exact ⟨beginBehind_of_none hnone,
      fun hno => absurd (List.mem_append_right _ hclosed) hno⟩
  · refine ⟨fun hno => absurd (hs.symm.trans hno) (Option.some_ne_none _), fun _ => ?_⟩
    rw [List.append_nil] at hnone
    rw [hs, List.append_nil]
    have hrecvd : (summary (.start req.cmdType req.url :: o.events)).received = [] := by
      rw [summary_cons, Summary.append_def, received_response hstart.isResponse]
      rfl
    have hopen : .closesocket ∉ (.start req.cmdType req.url :: o.events : List Event) := by
      rintro (_ | ⟨_, hmem⟩)
      exact Event.ne_closesocket (hstart.isResponse _ hmem) rfl
    rw [Nat.add_le_add_iff_left, ← hstart.owed_iff hpost hlen' (by omega)]
    constructor
    · -- when all that is owed has been received, the next request may begin
      intro hall
      have hle := (hstart.drains hpost).beginBehind fun ys =>
        ((beginBehind_append _).mp (hall ys)).2 hopen
      rw [hrecvd, List.length_nil] at hle
      omega
    · intro howed ys
      have hbal : Balanced ctx (block.length + n) (block.length + tail.length) (some o.client)
          (.start req.cmdType req.url :: o.events) := by
        refine ⟨beginBehind_of_none hnone, fun _ => ⟨_, rfl, hstart.inv, ?_⟩⟩
        rw [hrecvd, hstart.rxLen, List.length_nil]
        omega
      exact (run_inv_from (slotStep ctx) (P := Balanced ctx _ _)
        (fun x _ _ (_ : True) h => h.step x) hbal ys fun _ _ => trivial).1

end

/-- A handler is registered, and the three bytes of the body are still to come. -/
theorem body_never_request_iff_handler :
    let url := CString.ofBytes (ascii "/u")
    let ctx : Context := ⟨⟨true, [⟨url, .post, some 1, 0⟩]⟩, ⟨true, []⟩, 1⟩
    let block := ascii "POST /u HTTP/1.1\r\nContent-Length: 3\r\n\r\n"
    let x : SlotInput := ⟨some 7, { Input.idle with recv := .data block }⟩
    let s := (slotStep ctx x (slotRun NetConfig.default ctx []).1).1
    ∀ ys, BeginBehind (block.length + 3) block.length
      ([.start .post url, .fdSet [.read]] ++ (run (slotStep ctx) ys s).2) := by
  intro url ctx block x s
  have hlog : (slotStep ctx x (slotRun NetConfig.default ctx []).1).2
      = [.accept 7, .fdSet [.read, .except], .recv 2920 (.data block)]
        ++ .headers block block.length :: [.start .post url, .fdSet [.read]] := by decide +kernel
  have hreq : requestOf block = some ⟨.post, url, some 3, some 3⟩ := by decide +kernel
  refine ((body_never_request_iff NetConfig.default ctx [] x hlog hreq rfl rfl).2 ?_).mpr ?_
  · rw [← Option.isSome_iff_ne_none]
    decide +kernel
  · exact ⟨by decide, Or.inl (by decide +kernel)⟩

/-- No handler is registered, and the body is dispatched as a GET request. -/
theorem body_dispatched :
    let get := ascii "GET /a HTTP/1.1\r\n\r\n"
    let post := ascii "POST /x HTTP/1.1\r\nContent-Length: 19\r\n\r\n"
    let recv (data : Bytes) : WorkInput := ⟨none, fun _ => { Input.idle with recv := .data data }⟩
    let s := server NetConfig.default ⟨⟨true, []⟩, ⟨true, []⟩, 1⟩
      [⟨some 7, fun _ => Input.idle⟩, recv post, recv get]
    get.length = 19 ∧
      requestOf post = some ⟨.post, CString.ofBytes (ascii "/x"), some 19, some 19⟩ ∧
      (summary (slotLog 0 s.2)).received = post ++ get ∧
      (summary (slotLog 0 s.2)).dispatched
        = [(.post, CString.ofBytes (ascii "/x")), (.get, CString.ofBytes (ascii "/a"))] ∧
      .closesocket ∉ slotLog 0 s.2 :=
  ⟨by decide +kernel, by decide +kernel, by decide +kernel, by decide +kernel, by decide +kernel⟩

end UniNet.Http
