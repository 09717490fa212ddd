import UniNet.Http.Exchange

/-!
# Connections that are kept open

Every response announces `Connection: keep-alive`, so a peer may send one request after the
other. The messages of such a stream are served one at a time, each as in `Message`. A receive
that runs past the end of a message takes the beginning of the next one with it, and that part
is lost. As long as no receive does, all messages are dispatched in order.

* `keepAlive_server` — the announcement, for every response of every run
* `keep_alive_dispatch` — the order of the dispatched requests
-/

namespace UniNet.Http

open Infra

variable {N : NetConfig} {ctx : Context}

/-! ## The announcement -/

/-- A header, if it is one, keeps the connection open. -/
def Event.KeepsAlive : Event → Prop
  | .sendHeader _ _ header _ => ascii "Connection: keep-alive\r\n" <:+: header
  | _ => True

theorem Event.keepsAlive_of_isHeader {e : Event} (h : e.isHeader = false) : e.KeepsAlive := by
  cases e <;> trivial

theorem errorEvent_keepsAlive (inp : Input) (status : Status) :
    (errorEvent N inp status).KeepsAlive :=
  keepAlive_line N status fitsType_none (by decide)

theorem sendReply_keepsAlive {inp : Input} {d : Client N} {reply : HandlerReply} {type : Bytes}
    (htype : FitsType (some type)) : ∀ e ∈ (sendReply inp d reply type).events, e.KeepsAlive := by
  intro e he
  have hlen : announced inp reply < 2 ^ 32 :=
    Nat.lt_of_le_of_lt (Nat.min_le_left _ _) (u32OfInt_lt _)
  cases e with
  | sendHeader status len header r =>
    have hheader := (mem_sendReply.mp he).2.2.1
    rw [hheader]
    exact keepAlive_line N .ok htype hlen
  | _ => trivial

theorem Answer.keepsAlive {inp : Input} {result : Int} {evs : List Event}
    (h : Answer N inp result evs) : ∀ e ∈ evs, e.KeepsAlive := by
  cases h with
  | reply _ htype | null htype =>
    rw [List.forall_mem_cons, List.forall_mem_append, List.forall_mem_singleton]
    exact ⟨trivial, sendReply_keepsAlive htype, trivial⟩
  | error hpost =>
    rw [List.forall_mem_cons]
    refine ⟨errorEvent_keepsAlive inp _, fun e he => ?_⟩
    obtain ⟨_, rfl⟩ := hpost e he
    trivial
  | @file d f url hsel hsent =>
    intro e he
    cases e with
    | sendHeader status len header r =>
      have hheader := (mem_cmdGetSendfile hsel hsent he).1
      rw [hheader]
      exact keepAlive_line N .ok (contentType_length (some url)) f.size_lt
    | _ => trivial

theorem Work.keepsAlive {inp : Input} {c : Client N} {o : Out N} (h : Work ctx inp c o) :
    ∀ e ∈ o.events, e.KeepsAlive := by
  intro e he
  by_cases hheader : e.isHeader = true
  · rcases h.answer with ⟨-, hbad⟩ | ⟨pre, evs, hevents, hpre, hans⟩
    · rw [hbad e he hheader]
      exact errorEvent_keepsAlive inp _
    · rw [hevents, List.mem_append] at he
      rcases he with he | he
      · rw [Event.isHeader_of_isPrelude (hpre e he)] at hheader
        cases hheader
      · exact hans.keepsAlive e he
  · exact Event.keepsAlive_of_isHeader (by simpa using hheader)

/-- **Every response of the server announces that the connection is kept open.** -/
theorem keepAlive_server (ws : List WorkInput) {i : Nat} (hi : i < ctx.maxClients) :
    ∀ e ∈ slotLog i (server N ctx ws).2, e.KeepsAlive := by
  refine server_forall (fun e he => Event.keepsAlive_of_isHeader ?_) (fun hw => hw.keepsAlive) ws hi
  cases e <;> first | rfl | cases he

/-! ## Streams of messages -/

/-- Messages one behind the other. -/
def stream (ms : List (Message N)) : Bytes := ms.flatMap Message.bytes

/-- There is a target: for GET a handler or a file, for POST a handler with a function. -/
def Message.Registered (ctx : Context) (q : Message N) : Prop :=
  (q.request.cmdType = .get ∧
      (ctx.findHandler .get q.request.url ≠ none ∨ ctx.findFile q.request.url ≠ none)) ∨
    (q.request.cmdType = .post ∧
      ∃ h, ctx.findHandler .post q.request.url = some h ∧ h.function ≠ none)

theorem Message.Registered.taken {q : Message N} (h : q.Registered ctx) : q.Taken ctx := by
  intro hpost
  rcases h with ⟨hget, -⟩ | ⟨-, h, hh, -⟩
  · exact absurd (hget.symm.trans hpost) (by decide)
  · rw [hh]
    exact Option.some_ne_none h

/--
A call that takes `pending` to `pending'` does not receive bytes of two messages: the end of
each message had been reached before the call, or has not been passed after it.
-/
def Segmented (ms : List (Message N)) (pending pending' : Bytes) : Prop :=
  ∀ i, (stream (ms.drop i)).length ≤ pending'.length ∨
    pending.length ≤ (stream (ms.drop i)).length

/-- Some messages of the stream have been served, one is in progress, the others follow. -/
def Underway (ctx : Context) (ms : List (Message N)) (s : Conn N) (σ : Summary) : Prop :=
  ∃ served q todo s' τ, ms = served ++ q :: todo ∧ s = Conn.before s' (stream todo) ∧
    Progress ctx q s' τ ∧ σ.dispatched = served.map Message.key ++ τ.dispatched

/-- All messages of the stream have been served. -/
def AllServed (ms : List (Message N)) (s : Conn N) (σ : Summary) : Prop :=
  Awaiting s.client [] ∧ s.pending = [] ∧ σ.dispatched = ms.map Message.key

section

variable {ms todo : List (Message N)} {q : Message N} {s : Conn N} {σ : Summary}

theorem connStep_received (hc : ClientInv ctx s.client) (x : Offer) :
    (summary (connStep ctx x s).2).received.length ≤ s.pending.length := by
  rcases (clientWork_work hc (x.input s.pending)).received with h | ⟨len, h⟩
  · show (summary (clientWork ctx (x.input s.pending) s.client).events).received.length ≤ _
    rw [h]
    exact Nat.zero_le _
  · exact (Offer.received_le h).length_le

/-- A client that has been through with a message goes on with the next one. -/
theorem underway_next (served : List (Message N)) (ha : Awaiting s.client [])
    (hnil : s.pending = []) (hms : ms = served ++ todo)
    (hσ : σ.dispatched = served.map Message.key) :
    Underway ctx ms (s.before (stream todo)) σ ∨ AllServed ms (s.before (stream todo)) σ := by
  cases todo with
  | nil =>
    rw [List.append_nil] at hms
    subst hms
    refine Or.inr ⟨ha, ?_, hσ⟩
    rw [Conn.before, hnil]
    rfl
  | cons q todo =>
    refine Or.inl ⟨served, q, todo, { s with pending := q.bytes }, Summary.none, hms, ?_,
      .start ha rfl q.block_pos, ?_⟩
    · rw [Conn.before, Conn.before, hnil, stream, List.flatMap_cons]
      rfl
    · rw [hσ]
      exact (List.append_nil _).symm

theorem Complete.dispatched (h : Complete ctx q s σ) : σ.dispatched = [q.key] := by
  cases h with
  | ignored _ _ _ _ hσ => exact hσ.1
  | got _ _ _ _ hσ => exact hσ.1
  | notFound _ _ _ hσ => exact hσ.1
  | posted _ _ _ _ _ _ hσ => exact hσ.1

theorem Progress.dispatched (h : Progress ctx q s σ) : σ.dispatched <+: [q.key] := by
  cases h with
  | waiting _ _ _ hσ => rw [hσ.1]; exact List.nil_prefix
  | sending _ _ _ hσ => rw [hσ.1]
  | receiving _ _ _ _ _ hσ => rw [hσ.1]

/-- A receive that does not pass the end of the message leaves what follows alone. -/
theorem received_le_of_segmented {x : Offer} {served : List (Message N)}
    (hp : Progress ctx q s σ) (hms : ms = served ++ q :: todo)
    (hseg : Segmented ms (s.before (stream todo)).pending
      (connStep ctx x (s.before (stream todo))).1.pending) :
    (summary (connStep ctx x (s.before (stream todo))).2).received.length ≤ s.pending.length := by
  by_cases hnil : s.pending = []
  · rw [hp.received_nil hnil x]
    exact Nat.zero_le _
  · have hpos := List.length_pos_iff_ne_nil.mpr hnil
    have hle := connStep_received (s := s.before (stream todo)) hp.inv x
    have hdrop : ms.drop (served.length + 1) = todo := by
      rw [hms, List.drop_length_add_append]
      rfl
    -- the place in the stream where `q` ends
    have hend := hseg (served.length + 1)
    have hafter : (connStep ctx x (s.before (stream todo))).1.pending.length
        = (s.pending ++ stream todo).length
          - (summary (connStep ctx x (s.before (stream todo))).2).received.length :=
      List.length_drop
    have hbefore : (s.before (stream todo)).pending.length
        = s.pending.length + (stream todo).length := List.length_append
    rw [hdrop, hafter, hbefore, List.length_append] at hend
    omega

/-- **A call that receives bytes of one message only keeps the order.** -/
theorem Underway.step (htaken : ∀ q ∈ ms, q.Taken ctx) (h : Underway ctx ms s σ) (x : Offer)
    (hseg : Segmented ms s.pending (connStep ctx x s).1.pending) :
    Underway ctx ms (connStep ctx x s).1 (σ ++ summary (connStep ctx x s).2) ∨
      AllServed ms (connStep ctx x s).1 (σ ++ summary (connStep ctx x s).2) := by
  obtain ⟨served, q, todo, s', τ, hms, rfl, hp, hσ⟩ := h
  have hle := received_le_of_segmented hp hms hseg
  obtain ⟨s'', hs, hreached⟩ := hp.step x (stream todo)
  -- nothing behind the message was received, so nothing is lost with it
  rw [Nat.sub_eq_zero_of_le hle, List.drop_zero] at hs
  rw [hs]
  have hdispatched : (σ ++ summary (connStep ctx x (s'.before (stream todo))).2).dispatched
      = served.map Message.key
        ++ (τ ++ summary (connStep ctx x (s'.before (stream todo))).2).dispatched := by
    simp only [Summary.append_def, hσ, List.append_assoc]
  rcases hreached with ⟨hp', -⟩ | hc
  · exact Or.inl ⟨served, q, todo, s'', _, hms, rfl, hp', hdispatched⟩
  · have hq : q ∈ ms := by
      rw [hms]
      exact List.mem_append_right _ (List.mem_cons_self ..)
    refine underway_next (served ++ [q]) hc.awaiting (hc.pending_eq_nil (htaken q hq))
      (by rw [hms, List.append_cons]) ?_
    rw [hdispatched, hc.dispatched, List.map_append]
    rfl

theorem Underway.dispatched (h : Underway ctx ms s σ) : σ.dispatched <+: ms.map Message.key := by
  obtain ⟨served, q, todo, s', τ, rfl, rfl, hp, hσ⟩ := h
  rw [hσ, List.map_append, List.map_cons]
  refine (List.prefix_append_right_inj _).mpr (hp.dispatched.trans ?_)
  exact List.prefix_append [q.key] (todo.map Message.key)

theorem Underway.not_starved (h : Underway ctx ms s σ) : ¬ Starved s := by
  obtain ⟨served, q, todo, s', τ, rfl, rfl, hp, hσ⟩ := h
  exact hp.not_starved _

theorem AllServed.stay (h : AllServed ms s σ) (x : Offer) :
    AllServed ms (connStep ctx x s).1 (σ ++ summary (connStep ctx x s).2) := by
  obtain ⟨ha, hnil, hσ⟩ := h
  obtain ⟨hs, hnone⟩ := connStep_awaiting ctx ha hnil x
  rw [hs, hnone, Summary.append_none]
  exact ⟨ha, hnil, hσ⟩

end

/--
**Requests on a connection that is kept open.**

A cleared client is sent any number of requests for registered targets, one behind the other.
If no call receives bytes of two of them then, whatever the segmentation is otherwise, the
requests dispatched are at every time the first ones of those sent, in order, and in the end
all of them, as long as the stack hands over bytes and has space again and again.

Every response of the server, in any run, announces that the connection is kept open.
-/
theorem keep_alive_dispatch (ctx : Context) (ms : List (Message N))
    (hreg : ∀ q ∈ ms, q.Registered ctx) (c : Client N) (hc : c.Cleared) (sched : Nat → Offer) :
    let run := after (connStep ctx) sched ⟨c, stream ms, 0⟩
    ((∀ n, Segmented ms (run n).1.pending (run (n + 1)).1.pending) →
        (∀ m, (summary (run m).2).dispatched <+: ms.map Message.key) ∧
          ((∀ r n, ∃ m, n ≤ m ∧ (sched m).Brings r) →
            ∃ m₀, ∀ m, m₀ ≤ m → (summary (run m).2).dispatched = ms.map Message.key)) ∧
      ∀ (ws : List WorkInput) (i : Nat), i < ctx.maxClients →
        ∀ e ∈ slotLog i (server N ctx ws).2, e.KeepsAlive := by
  intro run
  refine ⟨fun hseg => ?_, fun ws i hi => keepAlive_server ws hi⟩
  have htaken : ∀ q ∈ ms, q.Taken ctx := fun q hq => (hreg q hq).taken
  have hreached : ∀ m, Underway ctx ms (run m).1 (summary (run m).2) ∨
      AllServed ms (run m).1 (summary (run m).2) := by
    intro m
    induction m with
    | zero => exact underway_next (s := ⟨c, [], 0⟩) [] hc.awaiting rfl rfl rfl
    | succ m ih =>
      have hnext := hseg m
      simp only [run, after_succ, summary_append] at hnext ⊢
      rcases ih with h | h
      · exact h.step htaken _ hnext
      · exact Or.inr (h.stay _)
  constructor
  · intro m
    rcases hreached m with h | h
    · exact h.dispatched
    · rw [h.2.2]
  · intro hfair
    obtain ⟨n, hstarved⟩ := eventually_starved (s := ⟨c, stream ms, 0⟩)
      (Or.inl ⟨[], hc.awaiting⟩) sched fun n => hfair _ n
    have hall := (hreached n).resolve_left fun h => h.not_starved hstarved
    refine ⟨n, fun m hm => ?_⟩
    refine (after_inv_from (connStep ctx) (P := fun s log => AllServed ms s (summary log)) sched
      (fun k s log hk => ?_) hall m hm).2.2
    rw [summary_append]
    exact hk.stay _

/-- Bytes received one at a time never belong to two messages. -/
theorem steady_segmented (ms : List (Message N)) {s : Conn N} (hc : ClientInv ctx s.client)
    (n : Nat) : Segmented ms s.pending (connStep ctx (steady n) s).1.pending := by
  have hone : (summary (connStep ctx (steady n) s).2).received.length ≤ 1 := by
    rcases (clientWork_work hc ((steady n).input s.pending)).received with h | ⟨len, h⟩
    · show (summary (clientWork ctx _ s.client).events).received.length ≤ 1
      rw [h]
      exact Nat.zero_le 1
    · rw [Offer.recvUpTo, Recv.data.injEq] at h
      show (summary (clientWork ctx _ s.client).events).received.length ≤ 1
      rw [← h, List.length_take]
      exact Nat.le_trans (Nat.min_le_left _ _) (Nat.min_le_right _ _)
  have hafter : (connStep ctx (steady n) s).1.pending.length
      = s.pending.length - (summary (connStep ctx (steady n) s).2).received.length :=
    List.length_drop
  intro i
  omega

/-- The same request twice, one byte at a time: it is dispatched twice. -/
theorem keep_alive_dispatch_twice :
    let url := CString.ofBytes (ascii "/a")
    let ctx : Context := ⟨⟨true, [⟨url, .get, some 1, 0⟩]⟩, ⟨true, []⟩, 1⟩
    let q : Message NetConfig.default :=
      { block := ascii "GET /a HTTP/1.1\r\n\r\n"
        body := []
        request := ⟨.get, url, none, none⟩
        isBlock := by decide +kernel
        fits := by decide +kernel
        parsed := by decide +kernel
        length := fun h => nomatch h
        noBody := fun _ => rfl }
    let run := after (connStep ctx) steady ⟨Client.new NetConfig.default 7, stream [q, q], 0⟩
    ∃ m₀, ∀ m, m₀ ≤ m → (summary (run m).2).dispatched = [(.get, url), (.get, url)] := by
  intro url ctx q run
  have hreg : ∀ p ∈ [q, q], p.Registered ctx := by
    have hq : q.Registered ctx := Or.inl ⟨rfl, Or.inl (by decide +kernel)⟩
    simp only [List.mem_cons, List.not_mem_nil, or_false, or_self, forall_eq]
    exact hq
  refine ((keep_alive_dispatch ctx [q, q] hreg (Client.new NetConfig.default 7) rfl steady).1
    fun n => ?_).2 steady_fair
  rw [after_succ]
  exact steady_segmented _ (after_connStep_inv (Or.inl ⟨[], awaiting_new _ 7⟩) steady n) n

/-- Two requests in one receive: the second one is never dispatched. -/
theorem second_request_lost :
    let url := CString.ofBytes (ascii "/a")
    let ctx : Context := ⟨⟨true, [⟨url, .get, some 1, 0⟩]⟩, ⟨true, []⟩, 1⟩
    let get := ascii "GET /a HTTP/1.1\r\n\r\n"
    let run := after (connStep ctx) (fun _ => ⟨1000, Input.idle⟩)
      ⟨Client.new NetConfig.default 7, get ++ get, 0⟩
    ∀ m, 1 ≤ m → (summary (run m).2).dispatched = [(.get, url)] := by
  intro url ctx get run m hm
  refine (after_inv_from (connStep ctx) (n := 1) (P := fun s log =>
    Awaiting s.client [] ∧ s.pending = [] ∧ (summary log).dispatched = [(.get, url)])
    (fun _ => ⟨1000, Input.idle⟩) (fun k s log hk => ?_) ?_ m hm).2.2
  · obtain ⟨ha, hnil, hone⟩ := hk
    obtain ⟨hs, hnone⟩ := connStep_awaiting ctx ha hnil ⟨1000, Input.idle⟩
    rw [hs, summary_append, hnone, Summary.append_none]
    exact ⟨ha, hnil, hone⟩
  · exact ⟨⟨⟨by decide +kernel, by decide +kernel, by decide +kernel, by decide +kernel,
      by decide +kernel, by decide +kernel, by decide +kernel, rfl⟩, by decide⟩,
      by decide +kernel, by decide +kernel⟩

end UniNet.Http
