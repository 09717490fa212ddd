import UniNet.Http.Work

/-!
# What `FreeRTOS_select` wakes the server for

The bits of a client's socket in the socket set are switched at ten places. They are read off
the log of its slot (`interestOf`): a new socket has none, `FreeRTOS_FD_SET` sets exactly the
given ones and `FreeRTOS_FD_CLR` clears exactly the given ones.

A client that waits for bytes needs `eSELECT_READ`. Two calls take it away from a client that
goes on waiting: the final reply to a POST, and the answer to a header that does not fit. The
answers to a GET, to a file and to a path without a handler leave it alone.

* `Work.write` — a call leaves `eSELECT_WRITE` set exactly while there is a file to send
* `Work.read` — those two calls clear `eSELECT_READ` and no other does
* `select_interest` — the bits in every state of a run
-/

namespace UniNet.Http

open Infra

variable {N : NetConfig}

/-! ## The bits of a socket -/

/-- The bits of one socket in the socket set. -/
abbrev Interest := SelectBit → Bool

namespace Interest

def none : Interest := fun _ => false

def record (w : Interest) : Event → Interest
  | .fdSet bits => fun b => w b || decide (b ∈ bits)
  | .fdClr bits => fun b => w b && !decide (b ∈ bits)
  -- a new socket
  | .accept _ => none
  | _ => w

/-- The bits behind some events. -/
def after (w : Interest) (events : List Event) : Interest := events.foldl record w

@[simp] theorem after_nil (w : Interest) : w.after [] = w := rfl

@[simp] theorem after_cons (w : Interest) (e : Event) (events : List Event) :
    w.after (e :: events) = (w.record e).after events := rfl

@[simp] theorem after_append (w : Interest) (l m : List Event) :
    w.after (l ++ m) = (w.after l).after m :=
  List.foldl_append

end Interest

/-- The bits of the socket that a slot was given last. -/
def interestOf (log : List Event) : Interest := Interest.none.after log

/-- The events that change bits. -/
def Event.isInterest : Event → Bool
  | .fdSet _ | .fdClr _ | .accept _ => true
  | _ => false

theorem Interest.after_other (w : Interest) {events : List Event}
    (h : ∀ e ∈ events, e.isInterest = false) : w.after events = w := by
  induction events with
  | nil => rfl
  | cons e events ih =>
    rw [List.forall_mem_cons] at h
    have he : w.record e = w := by
      cases e <;> first | rfl | simp [Event.isInterest] at h
    rw [after_cons, he]
    exact ih h.2

/-! ## What a client needs -/

/-- The client waits for input: for a request, or for the rest of a body. -/
def Client.Waiting (c : Client N) : Prop :=
  c.commandType = .unknown ∨ (c.commandType = .post ∧ c.fileOffset < c.contentLength)

/-- The client has a file transfer to go on with. -/
def Client.Unfinished (c : Client N) : Prop :=
  c.commandType = .get ∧ ∃ f, c.file = some f ∧ c.fileOffset < f.size

theorem Awaiting.not_unfinished {c : Client N} {acc : Bytes} (ha : Awaiting c acc) :
    ¬ c.Unfinished := fun h => by
  simpa [ha.command] using h.1

theorem Receiving.not_unfinished {ctx : Context} {c : Client N} {h : HttpHandler} {n off : Nat}
    (hv : Receiving ctx c h n off) : ¬ c.Unfinished := fun h => by
  simpa [hv.command] using h.1

/-- What has been received of the next request, with what a call receives. -/
def Client.gathered (inp : Input) (c : Client N) : Bytes :=
  c.bufRx.bytes.take c.rxLen ++ (inp.recvUpTo (N.rxBuf - c.rxLen)).bytes

/-- A POST for a registered handler, with all of its body behind the header block. -/
def wholePost (ctx : Context) (block rest : Bytes) : Bool :=
  match requestOf block with
  | some req =>
    req.cmdType == .post && (ctx.findHandler .post req.url).isSome
      && req.length.any (fun n => decide (n ≤ rest.length))
  | none => false

/--
The calls that end a POST, and those that find a header which fills the buffer and is not
complete. They are the ones that clear `eSELECT_READ`.
-/
def disarms (ctx : Context) (inp : Input) (c : Client N) : Bool :=
  inp.connected &&
    match c.commandType with
    | .unknown =>
      decide (0 < (inp.recvUpTo (N.rxBuf - c.rxLen)).result) &&
        match hdrEnd (c.gathered inp) (c.gathered inp).length with
        | none => (c.gathered inp).length == N.rxBuf
        | some e => wholePost ctx ((c.gathered inp).take e) ((c.gathered inp).drop e)
    | .post => c.fileOffset == c.contentLength
    | _ => false

section

variable {ctx : Context} {inp : Input} {c : Client N} {acc data : Bytes}

/-- What the call has then is what was received before and now. -/
theorem Awaiting.gathered_eq (ha : Awaiting c acc)
    (hr : inp.recvUpTo (N.rxBuf - acc.length) = .data data) : c.gathered inp = acc ++ data := by
  rw [Client.gathered, ha.rxLen, ha.received, hr]
  rfl

theorem Awaiting.disarms_eq (hcon : inp.connected = true) (ha : Awaiting c acc)
    (hr : inp.recvUpTo (N.rxBuf - acc.length) = .data data) (hne : data ≠ []) :
    disarms ctx inp c =
      match hdrEnd (acc ++ data) (acc ++ data).length with
      | none => (acc ++ data).length == N.rxBuf
      | some e => wholePost ctx ((acc ++ data).take e) ((acc ++ data).drop e) := by
  have hpos : 0 < (data.length : Int) :=
    Int.natCast_pos.mpr (List.length_pos_iff_ne_nil.mpr hne)
  unfold disarms
  simp only [hcon, ha.command, ha.gathered_eq hr, ha.rxLen, hr, Recv.result, decide_eq_true hpos,
    Bool.true_and]

theorem Awaiting.disarms_block {block rest : Bytes} (hcon : inp.connected = true)
    (ha : Awaiting c acc) (hr : inp.recvUpTo (N.rxBuf - acc.length) = .data data)
    (hne : data ≠ []) (hsplit : acc ++ data = block ++ rest) (hb : IsBlock block) :
    disarms ctx inp c = wholePost ctx block rest := by
  rw [ha.disarms_eq hcon hr hne, hsplit, hdrEnd_append hb]
  simp only [List.take_left, List.drop_left]

theorem Receiving.disarms_iff {h : HttpHandler} {n off : Nat} (hcon : inp.connected = true)
    (hv : Receiving ctx c h n off) : disarms ctx inp c = true ↔ off = n := by
  unfold disarms
  simp only [hcon, hv.command, hv.offset, hv.length, Bool.true_and, beq_iff_eq]

end

/-! ## A call of `client_work` -/

@[simp] theorem Interest.record_recv (w : Interest) (len : Nat) (r : Recv) :
    w.record (.recv len r) = w := rfl

@[simp] theorem Interest.record_chunkEvent (w : Interest) (h : HttpHandler) (data : Bytes) :
    w.record (chunkEvent h data) = w := by
  unfold chunkEvent callEvent
  split <;> rfl

/-- The header and the loop of `cmd_get_sendfile` leave the bits alone. -/
theorem sendfile_isInterest (inp : Input) (c : Client N) (f : HttpFile) (url : Option CString) :
    (∀ e ∈ (sendfileEnter inp c f url).events, e.isInterest = false) ∧
      ∀ e ∈ (sendfileAfter inp c f url (f.size + 1)).events, e.isInterest = false := by
  have henter : ∀ e ∈ (sendfileEnter inp c f url).events, e.isInterest = false := by
    unfold sendfileEnter sendfileHeader
    dsimp only
    split
    · simp
    · simp [sendHeader, Event.isInterest]
  refine ⟨henter, ?_⟩
  refine sendfileLoop_inv (P := fun s => ∀ e ∈ s.events, e.isInterest = false)
    (fun s hs => ?_) _ _ henter
  unfold sendfileRound
  split
  · simp only [List.forall_mem_append]
    exact ⟨hs, by simp [Event.isInterest]⟩
  · simp only [List.forall_mem_append]
    exact ⟨hs, by simp [Event.isInterest]⟩

/-- **`cmd_get_sendfile` switches `eSELECT_WRITE` as the transfer needs it.** -/
theorem cmdGetSendfile_interest (inp : Input) {c : Client N} {f : HttpFile}
    (url : Option CString) (hc : Selected c f) (w : Interest) :
    (w.after (cmdGetSendfile inp c f url).events .read = w .read) ∧
      (w.after (cmdGetSendfile inp c f url).events .write = true ↔
        (cmdGetSendfile inp c f url).client.Unfinished) := by
  obtain ⟨henter, hafter⟩ := sendfile_isInterest inp c f url
  rw [cmdGetSendfile_eq]
  generalize hs : (if 0 ≤ (sendfileHeader inp c f url).result then
    sendfileAfter inp c f url (f.size + 1) else sendfileEnter inp c f url) = s
  have hloop : Serving s.client f ∧ ∀ e ∈ s.events, e.isInterest = false := by
    rw [← hs]
    split
    · exact ⟨(sendfileAfter_serving inp url hc _).1, hafter⟩
    · exact ⟨(sendfileHeader_serving inp url hc).1, henter⟩
  unfold sendfileFinish
  split
  · refine ⟨by simp [w.after_other hloop.2, Interest.record], ?_⟩
    simp [w.after_other hloop.2, Interest.record, (awaiting_clear s.client).not_unfinished]
  · next hlt =>
    have hunf : s.client.Unfinished :=
      ⟨hloop.1.command, f, hloop.1.file, by omega⟩
    refine ⟨by simp [w.after_other hloop.2, Interest.record], ?_⟩
    simp [w.after_other hloop.2, Interest.record, hunf]

section

variable {ctx : Context} {inp : Input} {c : Client N} {o : Out N} {w : Interest}

theorem Start.write {req : Request} {rest : Bytes} (h : Start ctx inp req rest o)
    (hw : w .write = false) : w.after o.events .write = true ↔ o.client.Unfinished := by
  cases h with
  | ignored _ _ hc => simp [hw, hc.not_unfinished]
  | getReply _ _ _ => simp [Interest.record, (awaiting_clear _).not_unfinished]
  | getError _ _ _ => simp [Interest.record, (awaiting_clear _).not_unfinished]
  | getFile _ _ _ hc => exact (cmdGetSendfile_interest inp _ (selected_of_getFile hc) w).2
  | getNotFound _ _ _ | postNotFound _ _ =>
    simp [errorEvent, Interest.record, hw, (awaiting_clear _).not_unfinished]
  | postBody _ _ _ _ hc =>
    rw [Interest.after_append,
      w.after_other (forall_mem_chunkEvents (·.isInterest = false) rfl fun _ => rfl)]
    simp [Interest.record, hw, hc.not_unfinished]
  | postReply _ _ _ _ => simp [Interest.record, (awaiting_clear _).not_unfinished]

/-- **Only the reply to a whole POST clears `eSELECT_READ`.** -/
theorem Start.read {req : Request} {block rest : Bytes} (h : Start ctx inp req rest o)
    (hreq : requestOf block = some req) :
    (wholePost ctx block rest = true →
        o.client.commandType = .unknown ∧ w.after o.events .read = false) ∧
      (wholePost ctx block rest = false → w .read = true → w.after o.events .read = true) := by
  cases h with
  | ignored _ hpost _ => simp [wholePost, hreq, hpost]
  | getReply hget _ _ =>
    rw [Interest.after_append,
      w.after_other (forall_mem_replyEvents (·.isInterest = false) rfl (fun _ => rfl)
        (fun _ => rfl) (fun _ _ _ => rfl) fun _ _ => rfl)]
    simp [wholePost, hreq, hget, Interest.record]
  | getError hget _ _ | getNotFound hget _ _ =>
    simp [wholePost, hreq, hget, errorEvent, Interest.record]
  | getFile hget _ _ hc =>
    simp [wholePost, hreq, hget, (cmdGetSendfile_interest inp _ (selected_of_getFile hc) w).1]
  | postNotFound hpost hh => simp [wholePost, hreq, hh, errorEvent, Interest.record]
  | postBody _ hlen _ hlt _ => simp [wholePost, hreq, hlen, hlt, Interest.record]
  | postReply hpost hlen hh hle =>
    simp [wholePost, hreq, hpost, hlen, hh, hle, Interest.record, Client.clear]

/-- **`eSELECT_WRITE` is set exactly while there is a file to send.** -/
theorem Work.write (h : Work ctx inp c o)
    (hw : w .write = true ↔ c.Unfinished) :
    w.after o.events .write = true ↔ o.client.Unfinished := by
  have hoff : ∀ {acc}, Awaiting c acc → w .write = false := by
    intro acc ha
    simpa [ha.not_unfinished] using hw
  cases h with
  | disconnected _ => exact hw
  | idle _ _ _ => exact hw
  | accumulate _ ha _ _ _ ha' => simp [Interest.record, hoff ha, ha'.not_unfinished]
  | overflow _ _ _ _ _ _ | rejected _ _ _ _ _ _ _ =>
    simp [errorEvent, Interest.record, (awaiting_clear _).not_unfinished]
  | request _ ha _ _ _ _ _ hs => exact hs.write (hoff ha)
  | sendFile _ hs => exact (cmdGetSendfile_interest inp _ hs.serving.selected w).2
  | bodyNone _ _ _ _ => exact hw
  | bodyChunk _ hv _ _ _ hv' =>
    have hbit : w .write = false := by simpa [hv.not_unfinished] using hw
    simp [hbit, hv'.not_unfinished]
  | bodyReply _ _ => simp [Interest.record, (awaiting_clear _).not_unfinished]

/-- **The two kinds of calls that leave a client without `eSELECT_READ`, and no other does.** -/
theorem Work.read (h : Work ctx inp c o) (hkept : 0 ≤ o.result) :
    (disarms ctx inp c = true →
        o.client.commandType = .unknown ∧ w.after o.events .read = false) ∧
      (disarms ctx inp c = false → w .read = true → w.after o.events .read = true) := by
  cases h with
  | disconnected _ => simp at hkept
  | idle hcon ha hr =>
    have hno : disarms ctx inp c = false := by
      unfold disarms
      simp only [hcon, ha.command, ha.rxLen, decide_eq_false (Int.not_lt.mpr hr)]
      rfl
    simp [hno, Interest.record]
  | accumulate hcon ha hr hne hno ha' =>
    have hroom := ha'.room
    have hdis : disarms ctx inp c = false := by
      rw [ha.disarms_eq hcon hr hne, hno, beq_eq_false_iff_ne]
      omega
    simp [hdis, Interest.record]
  | overflow hcon ha hr hne hno hfull =>
    have hdis : disarms ctx inp c = true := by
      rw [ha.disarms_eq hcon hr hne, hno, beq_iff_eq]
      exact hfull
    simp [hdis, errorEvent, Interest.record, Client.clear]
  | rejected _ _ _ _ _ _ _ => simp at hkept
  | request hcon ha hr hne hsplit hb hreq hs =>
    rw [ha.disarms_block hcon hr hne hsplit hb]
    exact hs.read hreq
  | sendFile hcon hs =>
    have hdis : disarms ctx inp c = false := by
      unfold disarms
      simp [hs.command]
    simp [hdis, (cmdGetSendfile_interest inp _ hs.serving.selected w).1]
  | bodyNone hcon hv hlt _ =>
    have hdis := (hv.disarms_iff hcon).not.mpr (Nat.ne_of_lt hlt)
    simp [hdis, Interest.record]
  | bodyChunk hcon hv hr hne hle hv' =>
    have hpos := List.length_pos_iff_ne_nil.mpr hne
    have hdis := (hv.disarms_iff hcon).not.mpr (by omega)
    simp [hdis]
  | bodyReply hcon hv =>
    simp [(hv.disarms_iff hcon).mpr rfl, Interest.record, Client.clear]

end

/-! ## The slots -/

section

variable {ctx : Context} {clients : List (Option (Client N))} {log : List ServerEvent}

/-- `R` holds of every client and the bits of its socket. -/
def EachClient (R : Client N → Interest → Prop) (clients : List (Option (Client N)))
    (log : List ServerEvent) : Prop :=
  ∀ i c, clients[i]? = some (some c) → R c (interestOf (slotLog i log))

theorem workAccept_each {R : Client N → Interest → Prop} (w : WorkInput)
    (hnew : ∀ socket, R (Client.new N socket) (Interest.none.after [.fdSet [.read, .except]]))
    (h : EachClient R clients log) :
    EachClient R (workAccept w clients).1 (log ++ (workAccept w clients).2) := by
  intro i c hc
  have hi : i < clients.length := by
    rw [← workAccept_length w clients]
    exact (List.getElem?_eq_some_iff.mp hc).1
  obtain ⟨s, hs⟩ : ∃ s, clients[i]? = some s := ⟨_, List.getElem?_eq_getElem hi⟩
  obtain ⟨a, hstate, hlog⟩ := workAccept_slot w hs
  rw [hc, Option.some.injEq] at hstate
  rw [slotLog_append, hlog]
  cases s with
  | some d =>
    have hkeep : slotAccept a (some d) = (some d, []) := rfl
    rw [hkeep] at hstate ⊢
    rw [List.append_nil]
    exact h i c (hs.trans (congrArg some hstate.symm))
  | none =>
    cases a with
    | none => cases hstate
    | some socket =>
      rw [Option.some.inj hstate, interestOf, Interest.after_append]
      exact hnew socket

/-- A client that is there after an iteration has had its call of `client_work` in it. -/
theorem work_kept (w : WorkInput) (log : List ServerEvent) {i : Nat} {c' : Client N}
    (hc : (work ctx w clients).1[i]? = some (some c')) :
    ∃ c, (workAccept w clients).1[i]? = some (some c) ∧
      0 ≤ (clientWork ctx (w.client i) c).result ∧
      c' = (clientWork ctx (w.client i) c).client ∧
      interestOf (slotLog i (log ++ (work ctx w clients).2))
        = (interestOf (slotLog i (log ++ (workAccept w clients).2))).after
            (clientWork ctx (w.client i) c).events := by
  rw [work, workSlots_getElem?, Nat.zero_add, Option.map_eq_some_iff] at hc
  obtain ⟨s, hs, hkept⟩ := hc
  have hlog := slotLog_workSlots ctx w.client _ 0 i hs
  rw [Nat.zero_add] at hlog
  cases s with
  | none => cases hkept
  | some c =>
    by_cases hneg : (clientWork ctx (w.client i) c).result < 0
    · rw [slotWork_deleted hneg] at hkept
      cases hkept
    · rw [slotWork_kept hneg] at hkept hlog
      refine ⟨c, hs, Int.not_lt.mp hneg, (Option.some.inj hkept).symm, ?_⟩
      rw [work, ← List.append_assoc, slotLog_append, hlog]
      exact Interest.after_append ..

/-- What an iteration does to the clients it keeps. -/
theorem work_each {R : Client N → Interest → Prop} (w : WorkInput)
    (hnew : ∀ socket, R (Client.new N socket) (Interest.none.after [.fdSet [.read, .except]]))
    (hwork : ∀ i c v, (workAccept w clients).1[i]? = some (some c) → R c v →
      0 ≤ (clientWork ctx (w.client i) c).result →
      R (clientWork ctx (w.client i) c).client (v.after (clientWork ctx (w.client i) c).events))
    (h : EachClient R clients log) :
    EachClient R (work ctx w clients).1 (log ++ (work ctx w clients).2) := by
  intro i c' hc'
  obtain ⟨c, hc, hkept, rfl, hbits⟩ := work_kept w log hc'
  rw [hbits]
  exact hwork i c _ hc (workAccept_each w hnew h i c hc) hkept

/-! ## Every reachable state -/

/-- The bits of a socket are what its client needs. -/
structure Interested (c : Client N) (v : Interest) : Prop where
  read : c.Waiting → v .read = true
  write : v .write = true ↔ c.Unfinished

/-- No call of the iteration ends a POST, and none finds a header that fills the buffer. -/
def Calm (ctx : Context) (w : WorkInput) (clients : List (Option (Client N))) : Prop :=
  ∀ i c, (workAccept w clients).1[i]? = some (some c) → disarms ctx (w.client i) c = false

/-- A run of such iterations. -/
def CalmRun (N : NetConfig) (ctx : Context) (ws : List WorkInput) : Prop :=
  Along (work ctx) (Calm ctx) ws (List.replicate ctx.maxClients (none : Option (Client N)))

theorem new_not_unfinished (socket : Nat) : ¬ (Client.new N socket).Unfinished :=
  (awaiting_new N socket).not_unfinished

/-- `eSELECT_WRITE` is right in every state. -/
theorem server_write (ws : List WorkInput) :
    EachClient (fun c v => ClientInv ctx c ∧ (v .write = true ↔ c.Unfinished))
      (server N ctx ws).1 (server N ctx ws).2 := by
  refine run_inv (work ctx) (P := EachClient _) ?_ ?_ ws
  · intro w clients log h
    refine work_each w (fun socket => ⟨Or.inl ⟨[], awaiting_new N socket⟩, ?_⟩) ?_ h
    · simp [Interest.record, Interest.none, new_not_unfinished]
    · rintro i c v - ⟨hinv, hw⟩ -
      have hstep := clientWork_work hinv (w.client i)
      exact ⟨hstep.inv hinv, hstep.write hw⟩
  · intro i c hc
    simp [List.getElem?_replicate] at hc

theorem server_read {ws : List WorkInput} (hcalm : CalmRun N ctx ws) :
    EachClient (fun c v => ClientInv ctx c ∧ v .read = true)
      (server N ctx ws).1 (server N ctx ws).2 := by
  refine run_inv_along (work ctx) (P := EachClient _) ?_ ?_ ws hcalm
  · intro w clients log hw h
    refine work_each w (fun socket => ⟨Or.inl ⟨[], awaiting_new N socket⟩, ?_⟩) ?_ h
    · simp [Interest.record]
    · rintro i c v hc ⟨hinv, hread⟩ hkept
      have hwork := clientWork_work hinv (w.client i)
      exact ⟨hwork.inv hinv, (hwork.read hkept).2 (hw i c hc) hread⟩
  · intro i c hc
    simp [List.getElem?_replicate] at hc

/--
**The bits match what the clients need** in every run without a call that ends a POST or finds
a header which fills the buffer. Such a call, when it keeps its client, leaves one that waits
without `eSELECT_READ`. `eSELECT_WRITE` is right in any run.
-/
theorem select_interest (N : NetConfig) (ctx : Context) (ws : List WorkInput) :
    (CalmRun N ctx ws → EachClient Interested (server N ctx ws).1 (server N ctx ws).2) ∧
      (∀ w i c c', (workAccept w (server N ctx ws).1).1[i]? = some (some c) →
        disarms ctx (w.client i) c = true →
        (server N ctx (ws ++ [w])).1[i]? = some (some c') →
        ¬ Interested c' (interestOf (slotLog i (server N ctx (ws ++ [w])).2))) ∧
      EachClient (fun c v => v .write = true ↔ c.Unfinished)
        (server N ctx ws).1 (server N ctx ws).2 := by
  refine ⟨?_, ?_, fun i c hc => (server_write ws i c hc).2⟩
  · intro hcalm i c hc
    exact ⟨fun _ => (server_read hcalm i c hc).2, (server_write ws i c hc).2⟩
  · intro w i c c' hc hdis hc' h
    have hstep : server N ctx (ws ++ [w]) = ((work ctx w (server N ctx ws).1).1,
        (server N ctx ws).2 ++ (work ctx w (server N ctx ws).1).2) := run_concat ..
    rw [hstep] at hc' h
    obtain ⟨d, hd, hkept, rfl, hbits⟩ := work_kept w (server N ctx ws).2 hc'
    obtain rfl : d = c := by simpa [hc] using hd.symm
    have hinv : EachClient (fun c _ => ClientInv ctx c) (workAccept w (server N ctx ws).1).1
        ((server N ctx ws).2 ++ (workAccept w (server N ctx ws).1).2) :=
      workAccept_each w (fun socket => Or.inl ⟨[], awaiting_new N socket⟩)
        fun i c hc => (server_write ws i c hc).1
    obtain ⟨hcmd, hoff⟩ := ((clientWork_work (hinv i d hd) (w.client i)).read hkept).1 hdis
    rw [hbits] at h
    have hon := h.read (Or.inl hcmd)
    rw [hoff] at hon
    cases hon

/-- A client that has been sent nothing of its file yet needs `eSELECT_WRITE`. -/
theorem select_interest_get :
    let file : HttpFile := ⟨CString.ofBytes (ascii "/f"), ascii "text", by decide⟩
    let ctx : Context := ⟨⟨true, []⟩, ⟨true, [file]⟩, 1⟩
    let w : WorkInput :=
      ⟨some 7, fun _ => { Input.idle with recv := .data (ascii "GET /f HTTP/1.1\r\n\r\n") }⟩
    let s := server NetConfig.default ctx [w]
    interestOf (slotLog 0 s.2) .write = true ∧ EachClient Interested s.1 s.2 := by
  intro file ctx w s
  refine ⟨by decide +kernel, (select_interest NetConfig.default ctx [w]).1 ⟨?_, trivial⟩⟩
  intro i c hc
  cases i with
  | zero =>
    obtain rfl : Client.new NetConfig.default 7 = c := Option.some.inj (Option.some.inj hc)
    decide +kernel
  | succ i => cases hc

/-- A POST without a body is answered, and its client waits without `eSELECT_READ`. -/
theorem select_interest_post :
    let ctx : Context :=
      ⟨⟨true, [⟨CString.ofBytes (ascii "/u"), .post, some 1, 0⟩]⟩, ⟨true, []⟩, 1⟩
    let w : WorkInput := ⟨some 7, fun _ => { Input.idle with
      recv := .data (ascii "POST /u HTTP/1.1\r\nContent-Length: 0\r\n\r\n") }⟩
    let s := server NetConfig.default ctx [w]
    (∃ c, s.1[0]? = some (some c) ∧ c.Waiting) ∧ interestOf (slotLog 0 s.2) .read = false ∧
      ¬ EachClient Interested s.1 s.2 := by
  intro ctx w s
  have hc : ∃ c, s.1[0]? = some (some c) ∧ c.commandType = .unknown := by
    have hcmd : (s.1[0]?.bind id).map Client.commandType = some .unknown := by decide +kernel
    obtain ⟨c, hc, hcmd⟩ := Option.map_eq_some_iff.mp hcmd
    obtain ⟨o, ho, rfl⟩ := Option.bind_eq_some_iff.mp hc
    exact ⟨c, ho, hcmd⟩
  have hoff : interestOf (slotLog 0 s.2) .read = false := by decide +kernel
  obtain ⟨c, hc, hcmd⟩ := hc
  refine ⟨⟨c, hc, Or.inl hcmd⟩, hoff, fun h => ?_⟩
  have hon := (h 0 c hc).read (Or.inl hcmd)
  rw [hoff] at hon
  cases hon

end

end UniNet.Http
