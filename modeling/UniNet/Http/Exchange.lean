import UniNet.Http.Message

/-!
# One request and its answer

A connection on which a single request is sent, in any segmentation and with any answers of
the stack and of the handlers.

* `post_body_exact` — an upload reaches its handler byte for byte, and then the handler is
  asked for its reply
* `answered_once_iff` — which requests get exactly one answer
-/

namespace UniNet.Http

open Infra

variable {N : NetConfig} {ctx : Context} {q : Message N} {s : Conn N} {σ : Summary}

/-! ## Runs on a single message -/

theorem Conn.before_nil (s : Conn N) : s.before [] = s := by
  unfold Conn.before
  rw [List.append_nil]

/-- The step lemma when nothing follows the message. -/
theorem Progress.step_alone (hp : Progress ctx q s σ) (x : Offer) :
    Reached ctx q (connStep ctx x s).1 (σ ++ summary (connStep ctx x s).2) := by
  have hstep := hp.step x []
  simp only [Conn.before_nil, List.drop_nil] at hstep
  obtain ⟨_, rfl, hreached⟩ := hstep
  exact hreached

theorem Complete.awaiting (h : Complete ctx q s σ) : Awaiting s.client [] := by
  cases h with
  | ignored _ _ ha _ _ => exact ha
  | got _ hc _ _ _ => exact hc.awaiting
  | notFound _ _ hc _ => exact hc.awaiting
  | posted _ _ hc _ _ _ _ => exact hc.awaiting

/-- What is over stays over when there is nothing more to receive. -/
theorem Complete.stay (h : Complete ctx q s σ) (hp : s.pending = []) (x : Offer) :
    Complete ctx q (connStep ctx x s).1 (σ ++ summary (connStep ctx x s).2) ∧
      (connStep ctx x s).1.pending = [] := by
  obtain ⟨hs, hσ⟩ := connStep_awaiting ctx h.awaiting hp x
  rw [hs, hσ, Summary.append_none]
  refine ⟨?_, hp⟩
  cases h with
  | ignored hget hpost ha hrest hσ => exact .ignored hget hpost ha hrest hσ
  | got hget hc hrest hnull hσ => exact .got hget hc hrest hnull hσ
  | notFound hpost hh hc hσ => exact .notFound hpost hh hc hσ
  | posted hpost hh hc hrest hne hbody hσ => exact .posted hpost hh hc hrest hne hbody hσ

/-- Somebody takes the body. -/
def Message.Taken (ctx : Context) (q : Message N) : Prop :=
  q.request.cmdType = .post → ctx.findHandler .post q.request.url ≠ none

theorem Complete.pending_eq_nil (h : Complete ctx q s σ) (ht : q.Taken ctx) : s.pending = [] := by
  cases h with
  | ignored _ _ _ hrest _ => exact hrest
  | got _ _ hrest _ _ => exact hrest
  | notFound hpost hh _ _ => exact absurd hh (ht hpost)
  | posted _ _ _ hrest _ _ _ => exact hrest

/-- **A message whose body is taken, along any schedule.** -/
theorem Message.run (hp : Progress ctx q s Summary.none) (hr : 0 ≤ s.result) (ht : q.Taken ctx)
    (sched : Nat → Offer) (m : Nat) :
    Reached ctx q (after (connStep ctx) sched s m).1
      (summary (after (connStep ctx) sched s m).2) := by
  refine after_inv (connStep ctx) (P := fun s log => Reached ctx q s (summary log)) sched
    (fun n s log h => ?_) (Or.inl ⟨hp, fun _ => hr⟩) m
  rw [summary_append]
  rcases h with ⟨hprog, -⟩ | hcomp
  · exact hprog.step_alone _
  · exact Or.inr (hcomp.stay (hcomp.pending_eq_nil ht) _).1

/-- A client in the middle of a message has something left to do or to receive. -/
theorem Progress.not_starved (hp : Progress ctx q s σ) (more : Bytes) :
    ¬ Starved (s.before more) := by
  rintro ⟨hnil, hstate⟩
  obtain ⟨hnil, -⟩ := List.append_eq_nil_iff.mp hnil
  simp only [Conn.before] at hstate
  cases hp with
  | waiting _ hsplit hlt _ =>
    have := congrArg List.length hsplit
    rw [hnil, List.append_nil, Message.bytes, List.length_append] at this
    omega
  | sending _ hs _ _ =>
    rw [hs.command] at hstate
    rcases hstate with hcmd | ⟨hcmd, -⟩
    · cases hcmd
    · cases hcmd
  | receiving _ _ hv _ hbody _ =>
    rw [hnil, List.append_nil] at hbody
    rw [hv.command, hv.offset, hv.length, hbody] at hstate
    rcases hstate with hcmd | ⟨-, hlt⟩
    · cases hcmd
    · omega

/-! ## Uploads -/

/-- The handler `h`, whose function is `f`, has been called with pieces of the body so far. -/
def Uploading (h : HttpHandler) (f : Nat) (body : Bytes) (s : Conn N) (log : List Event) : Prop :=
  0 ≤ s.result ∧ ∃ chunks : List Bytes, [] ∉ chunks ∧ chunks.flatten <+: body ∧
    (summary log).calls = chunks.map fun data => .call ⟨f, h.userdata, none, some data⟩

/-- It has been called with the whole body and then asked for its reply, and the client is
cleared. -/
def Uploaded (h : HttpHandler) (f : Nat) (body : Bytes) (s : Conn N) (log : List Event) : Prop :=
  s.client.Cleared ∧ s.pending = [] ∧ ∃ chunks : List Bytes, [] ∉ chunks ∧ chunks.flatten = body ∧
    (summary log).calls = (chunks.map fun data => .call ⟨f, h.userdata, none, some data⟩)
      ++ [.call ⟨f, h.userdata, some N.txBuf, none⟩]

section

variable {h : HttpHandler} {f : Nat}

theorem callEvent_of_function (hf : h.function = some f) (bufOut : Option Nat)
    (bufIn : Option Bytes) : callEvent h bufOut bufIn = .call ⟨f, h.userdata, bufOut, bufIn⟩ := by
  unfold callEvent
  rw [hf]

theorem chunkEvent_of_function (hf : h.function = some f) :
    chunkEvent h = fun data => .call ⟨f, h.userdata, none, some data⟩ :=
  funext fun data => callEvent_of_function hf none (some data)

variable (hpost : q.request.cmdType = .post) (hh : ctx.findHandler .post q.request.url = some h)
  (hf : h.function = some f)

include hpost hh hf

theorem Progress.uploading {log : List Event} (hp : Progress ctx q s (summary log))
    (hr : (summary log).answers = 0 → 0 ≤ s.result) :
    s.client.commandType ≠ .get ∧ Uploading h f q.body s log := by
  cases hp with
  | waiting ha _ _ hσ =>
    exact ⟨by rw [ha.command]; decide, hr hσ.2.1, [], List.not_mem_nil, List.nil_prefix, hσ.2.2⟩
  | sending hget _ _ _ => exact absurd (hget.symm.trans hpost) (by decide)
  | receiving _ hh' hv hne hbody hσ =>
    obtain rfl := Option.some.inj (hh.symm.trans hh')
    refine ⟨by rw [hv.command]; decide, hr hσ.2.1, _, hne, ⟨_, hbody⟩, ?_⟩
    rw [← chunkEvent_of_function hf]
    exact hσ.2.2

theorem Complete.uploaded {log : List Event} (hc : Complete ctx q s (summary log)) :
    Uploaded h f q.body s log := by
  cases hc with
  | ignored _ hno _ _ _ => exact absurd hpost hno
  | got hget _ _ _ _ => exact absurd (hget.symm.trans hpost) (by decide)
  | notFound _ hnone _ _ => exact absurd (hh.symm.trans hnone) (by simp)
  | posted _ hh' hcl hrest hne hbody hσ =>
    obtain rfl := Option.some.inj (hh.symm.trans hh')
    refine ⟨hcl, hrest, _, hne, hbody, ?_⟩
    rw [← chunkEvent_of_function hf, ← callEvent_of_function hf]
    exact hσ.2.2

end

/-- A message in front of a client that has nothing of it yet. -/
theorem Progress.start {acc : Bytes} (ha : Awaiting s.client acc)
    (hsplit : acc ++ s.pending = q.bytes) (hlt : acc.length < q.block.length) :
    Progress ctx q s Summary.none :=
  .waiting ha hsplit hlt ⟨rfl, rfl, rfl⟩

theorem Message.block_pos (q : Message N) : 0 < q.block.length := by
  have := (hdrEnd_eq_some.mp q.isBlock).1
  omega

/--
**Uploads are exact, however they are segmented.**

A POST for a handler is sent to a cleared client, with its whole body and nothing behind it.
After any number of calls of `client_work`, the handler has been called with non-empty pieces
that together are a beginning of the body, and the client was not given up. In the end, as long
as the stack hands over something again and again, the pieces are the body, one call for the
reply has followed, the client is cleared, and so it stays.
-/
theorem post_body_exact (ctx : Context) (q : Message N) (hpost : q.request.cmdType = .post)
    (h : HttpHandler) (hh : ctx.findHandler .post q.request.url = some h) (f : Nat)
    (hf : h.function = some f) (c : Client N) (hc : c.Cleared) (sched : Nat → Offer) :
    let run := after (connStep ctx) sched ⟨c, q.bytes, 0⟩
    (∀ m, Uploading h f q.body (run m).1 (run m).2 ∨ Uploaded h f q.body (run m).1 (run m).2) ∧
      ((∀ n, ∃ m, n ≤ m ∧ 0 < (sched m).offer) →
        ∃ m₀, ∀ m, m₀ ≤ m → Uploaded h f q.body (run m).1 (run m).2) := by
  intro run
  have htaken : q.Taken ctx := fun _ => by rw [hh]; exact Option.some_ne_none h
  have hstart : Progress ctx q ⟨c, q.bytes, 0⟩ Summary.none :=
    .start hc.awaiting rfl q.block_pos
  have hreached := Message.run hstart (Int.le_refl 0) htaken sched
  constructor
  · intro m
    rcases hreached m with ⟨hp, hr⟩ | hcomp
    · exact Or.inl (hp.uploading hpost hh hf hr).2
    · exact Or.inr (hcomp.uploaded hpost hh hf)
  · intro hfair
    -- no file is ever sent, so all the client needs is input
    have hneeds : ∀ n, (run n).1.needs = .input := by
      intro n
      refine if_neg ?_
      rcases hreached n with ⟨hp, hr⟩ | hcomp
      · exact (hp.uploading hpost hh hf hr).1
      · rw [hcomp.awaiting.command]
        decide
    obtain ⟨n, hstarved⟩ := eventually_starved hstart.inv sched fun n => by
      rw [show (after (connStep ctx) sched ⟨c, q.bytes, 0⟩ n).1.needs = .input from hneeds n]
      exact hfair n
    -- with nothing left to receive, an upload under way would still have its reply to send
    have hcomp := (hreached n).resolve_left fun hp => hp.1.not_starved [] <| by
      rw [Conn.before_nil]
      exact hstarved
    refine ⟨n, fun m hm => ?_⟩
    refine (after_inv_from (connStep ctx) (P := fun s log => Complete ctx q s (summary log)) sched
      (fun k s log hk => ?_) hcomp m hm).uploaded hpost hh hf
    rw [summary_append]
    exact (hk.stay (hk.pending_eq_nil htaken) _).1

/-- Three bytes, received one at a time with the whole request. -/
theorem post_body_exact_byte_by_byte :
    let url := CString.ofBytes (ascii "/u")
    let h : HttpHandler := ⟨url, .post, some 1, 0⟩
    let ctx : Context := ⟨⟨true, [h]⟩, ⟨true, []⟩, 1⟩
    let q : Message NetConfig.default :=
      { block := ascii "POST /u HTTP/1.1\r\nContent-Length: 3\r\n\r\n"
        body := ascii "abc"
        request := ⟨.post, url, some 3, some 3⟩
        isBlock := by decide +kernel
        fits := by decide +kernel
        parsed := by decide +kernel
        length := fun _ => by decide +kernel
        noBody := fun h => absurd rfl h }
    let run := after (connStep ctx) steady ⟨Client.new NetConfig.default 7, q.bytes, 0⟩
    ∃ m₀, ∀ m, m₀ ≤ m → Uploaded h 1 (ascii "abc") (run m).1 (run m).2 := by
  intro url h ctx q
  exact (post_body_exact ctx q rfl h (by decide +kernel) 1 rfl (Client.new NetConfig.default 7) rfl
    steady).2 (steady_fair .input)

/-! ## Answers -/

/-- A request was dispatched, and the client awaits the next one or is to be deleted. -/
def Over (s : Conn N) (log : List Event) : Prop :=
  (summary log).dispatched ≠ [] ∧ (s.client.commandType = .unknown ∨ s.result < 0)

/-- One header was sent, and no null pointer was called on the way to it. -/
def AnsweredOnce (log : List Event) : Prop :=
  (summary log).answers = 1 ∧ .nullCall ∉ (summary log).calls

/-- The requests that are answered once: GET, and POST unless its handler has no function. -/
def Message.Answerable (ctx : Context) (q : Message N) : Prop :=
  q.request.cmdType = .get ∨ (q.request.cmdType = .post ∧
    ∀ h, ctx.findHandler .post q.request.url = some h → h.function ≠ none)

theorem Complete.over {log : List Event} (h : Complete ctx q s (summary log)) : Over s log := by
  refine ⟨?_, Or.inl h.awaiting.command⟩
  cases h with
  | ignored _ _ _ _ hσ => rw [hσ.1]; exact List.cons_ne_nil _ _
  | got _ _ _ _ hσ => rw [hσ.1]; exact List.cons_ne_nil _ _
  | notFound _ _ _ hσ => rw [hσ.1]; exact List.cons_ne_nil _ _
  | posted _ _ _ _ _ _ hσ => rw [hσ.1]; exact List.cons_ne_nil _ _

theorem nullCall_not_mem_calls {h : HttpHandler} (hf : h.function ≠ none) (chunks : List Bytes) :
    .nullCall ∉ chunks.map (chunkEvent h) ++ [callEvent h (some N.txBuf) none] := by
  obtain ⟨f, hf⟩ := Option.ne_none_iff_exists'.mp hf
  rw [chunkEvent_of_function hf, callEvent_of_function hf]
  simp

/-- **The moment a request is over, it has been answered once or it is of the other kind.** -/
theorem Reached.answered_iff {log : List Event} (h : Reached ctx q s (summary log))
    (hover : Over s log) : AnsweredOnce log ↔ q.Answerable ctx := by
  rcases h with ⟨hp, hr⟩ | hc
  · cases hp with
    | waiting _ _ _ hσ => exact absurd hσ.1 hover.1
    | sending hget _ _ hσ =>
      refine ⟨fun _ => Or.inl hget, fun _ => ⟨hσ.2.1, ?_⟩⟩
      rw [hσ.2.2]
      exact List.not_mem_nil
    | receiving _ _ hv _ _ hσ =>
      -- an upload under way neither awaits a request nor was it given up
      rcases hover.2 with hcmd | hneg
      · exact absurd (hv.command.symm.trans hcmd) (by decide)
      · exact absurd (hr hσ.2.1) (by omega)
  · cases hc with
    | ignored hget hpost _ _ hσ =>
      constructor
      · intro hone
        exact absurd (hone.1.symm.trans hσ.2.1) (by decide)
      · intro hans
        exact absurd hans fun hans => hans.elim hget fun h => hpost h.1
    | got hget _ _ hnull hσ =>
      refine ⟨fun _ => Or.inl hget, fun _ => ⟨hσ.2.1, ?_⟩⟩
      rw [hσ.2.2]
      exact hnull
    | notFound hpost hh _ hσ =>
      refine ⟨fun _ => Or.inr ⟨hpost, fun h hh' => ?_⟩, fun _ => ⟨hσ.2.1, ?_⟩⟩
      · exact absurd (hh.symm.trans hh') (by simp)
      · rw [hσ.2.2]
        exact List.not_mem_nil
    | @posted h chunks hpost hh _ _ _ _ hσ =>
      refine ⟨fun hone => Or.inr ⟨hpost, fun h' hh' hf => hone.2 ?_⟩, fun hans => ⟨hσ.2.1, ?_⟩⟩
      · obtain rfl := Option.some.inj (hh.symm.trans hh')
        rw [hσ.2.2, List.mem_append, List.mem_singleton, callEvent, hf]
        exact Or.inr rfl
      · rw [hσ.2.2]
        refine nullCall_not_mem_calls (hans.elim (fun hget => ?_) fun hp => hp.2 h hh) chunks
        exact absurd (hget.symm.trans hpost) (by decide)

section

variable (hp : Progress ctx q s Summary.none) (hr : 0 ≤ s.result) (more : Bytes)
  (sched : Nat → Offer)

include hp hr

/-- **A message along any schedule**, until it is over for the first time. -/
theorem Message.run_until :
    let run := after (connStep ctx) sched (s.before more)
    ∀ m, (∀ j, j < m → ¬ Over (run j).1 (run j).2) →
      ∃ s' more', (run m).1 = s'.before more' ∧ Reached ctx q s' (summary (run m).2) := by
  intro run m
  induction m with
  | zero => exact fun _ => ⟨s, more, rfl, Or.inl ⟨hp, fun _ => hr⟩⟩
  | succ m ih =>
    intro hnot
    obtain ⟨s', more', hs, hreached⟩ := ih fun j hj => hnot j (by omega)
    rcases hreached with ⟨hp', -⟩ | hc
    · obtain ⟨s'', hs', hreached'⟩ := hp'.step (sched m) more'
      rw [← hs] at hs' hreached'
      refine ⟨s'', _, (congrArg Prod.fst (after_succ _ _ _ _)).trans hs', ?_⟩
      rw [show (run (m + 1)).2 = _ from congrArg Prod.snd (after_succ _ _ _ _), summary_append]
      exact hreached'
    · refine absurd ?_ (hnot m (by omega))
      rw [hs]
      exact hc.over

theorem Message.eventually_over (hfair : ∀ r n, ∃ m, n ≤ m ∧ (sched m).Brings r) :
    let run := after (connStep ctx) sched (s.before more)
    ∃ m, Over (run m).1 (run m).2 := by
  intro run
  by_contra hnever
  rw [not_exists] at hnever
  obtain ⟨n, hstarved⟩ := eventually_starved (s := s.before more) hp.inv sched fun n => hfair _ n
  obtain ⟨s', more', hs, ⟨hp', -⟩ | hc⟩ :=
    Message.run_until hp hr more sched n fun j _ => hnever j
  · rw [hs] at hstarved
    exact hp'.not_starved more' hstarved
  · have hover : Over (s'.before more') (run n).2 := hc.over
    rw [← hs] at hover
    exact hnever n hover

theorem Message.answered_iff :
    let run := after (connStep ctx) sched (s.before more)
    ∀ m, Over (run m).1 (run m).2 → (∀ j, j < m → ¬ Over (run j).1 (run j).2) →
      (AnsweredOnce (run m).2 ↔ q.Answerable ctx) := by
  intro run m hover hfirst
  obtain ⟨s', more', hs, hreached⟩ := Message.run_until hp hr more sched m hfirst
  rw [hs] at hover
  exact hreached.answered_iff hover

end

/--
**Which requests are answered exactly once.**

A client awaits a request of which it has received the beginning, or nothing. The rest of it,
with the full body, and anything else behind it, is still to come. Whatever the schedule, when
the client awaits a request again or is deleted then it has sent one header, and that moment
comes if the stack hands over bytes and has space again and again: exactly for GET, and for
POST unless it is for a handler without a function.
-/
theorem answered_once_iff (ctx : Context) (q : Message N) (c : Client N)
    (acc pending more : Bytes) (ha : Awaiting c acc) (hsplit : acc ++ pending = q.bytes ++ more)
    (hlt : acc.length < q.block.length) :
    (∀ sched : Nat → Offer, let run := after (connStep ctx) sched ⟨c, pending, 0⟩
      (∀ m, Over (run m).1 (run m).2 → (∀ j, j < m → ¬ Over (run j).1 (run j).2) →
          AnsweredOnce (run m).2) ∧
        ((∀ r n, ∃ m, n ≤ m ∧ (sched m).Brings r) → ∃ m, Over (run m).1 (run m).2)) ↔
      q.Answerable ctx := by
  obtain ⟨rest, hrest, rfl⟩ : ∃ rest, acc ++ rest = q.bytes ∧ pending = rest ++ more := by
    rcases List.append_eq_append_iff.mp hsplit with ⟨rest, hrest, hpending⟩ | ⟨_, hacc, -⟩
    · exact ⟨rest, hrest.symm, hpending⟩
    · have := congrArg List.length hacc
      rw [Message.bytes, List.length_append, List.length_append] at this
      omega
  have hstart : Progress ctx q ⟨c, rest, 0⟩ Summary.none := .start ha hrest hlt
  have hiff := Message.answered_iff hstart (Int.le_refl 0) more
  constructor
  · -- one run that comes to its end decides about the request
    intro h
    have hover := Message.eventually_over hstart (Int.le_refl 0) more steady steady_fair
    classical
    have hfirst := Nat.find_spec hover
    have hbefore := fun j (hj : j < Nat.find hover) => Nat.find_min hover hj
    exact (hiff steady _ hfirst hbefore).mp ((h steady).1 _ hfirst hbefore)
  · intro hans sched
    exact ⟨fun m hm hfirst => (hiff sched m hm hfirst).mpr hans,
      Message.eventually_over hstart (Int.le_refl 0) more sched⟩

/-- A GET for a page that does not exist is over at some time. -/
theorem answered_once_iff_get :
    let ctx : Context := ⟨⟨true, []⟩, ⟨true, []⟩, 1⟩
    let q : Message NetConfig.default :=
      { block := ascii "GET / HTTP/1.1\r\n\r\n"
        body := []
        request := ⟨.get, CString.ofBytes (ascii "/"), none, none⟩
        isBlock := by decide +kernel
        fits := by decide +kernel
        parsed := by decide +kernel
        length := fun h => nomatch h
        noBody := fun _ => rfl }
    let run := after (connStep ctx) steady ⟨Client.new NetConfig.default 7, q.bytes, 0⟩
    ∃ m, Over (run m).1 (run m).2 := by
  intro ctx q
  have hall := (answered_once_iff ctx q (Client.new NetConfig.default 7) [] q.bytes []
    (awaiting_new _ 7) (List.append_nil _).symm q.block_pos).mpr (Or.inl rfl)
  exact (hall steady).2 steady_fair

/-- A HEAD request is dispatched and never answered, and the client is kept. -/
theorem head_not_answered :
    let inp := { Input.idle with recv := .data (ascii "HEAD / HTTP/1.1\r\n\r\n") }
    let s := server NetConfig.default ⟨⟨true, []⟩, ⟨true, []⟩, 1⟩
      [⟨some 7, fun _ => Input.idle⟩, ⟨none, fun _ => inp⟩]
    (summary (slotLog 0 s.2)).dispatched = [(.head, CString.ofBytes (ascii "/"))] ∧
      (summary (slotLog 0 s.2)).answers = 0 ∧
      s.1.map (Option.map Client.commandType) = [some .unknown] :=
  ⟨by decide +kernel, by decide +kernel, by decide +kernel⟩

end UniNet.Http
