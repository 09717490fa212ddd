import Mathlib.Data.Prod.Lex
import UniNet.Http.Framing

/-!
# A connection

A client at the end of a byte stream. Its peer has sent `pending`, and every call of
`client_work` receives some of it: how much is up to the stack. Everything else in the input
of a call is arbitrary, so a schedule of calls stands for a segmentation of the stream together
with all answers of the stack and of the handlers.

* `Summary` — what the results about connections look at in a log
* `connStep_advances` — a call gets on with the work or leaves the connection as it is
* `eventually_starved` — in the end everything is received and the client waits for more
-/

namespace UniNet.Http

open Infra

variable {N : NetConfig}

/-! ## What a log comes down to -/

/-- The bytes received, the requests dispatched, the number of headers sent, and the calls. -/
structure Summary where
  received : Bytes
  dispatched : List (CommandType × CString)
  answers : Nat
  calls : List Event
  deriving DecidableEq

instance : Append Summary where
  append s t :=
    { received := s.received ++ t.received
      dispatched := s.dispatched ++ t.dispatched
      answers := s.answers + t.answers
      calls := s.calls ++ t.calls }

theorem Summary.append_def (s t : Summary) : s ++ t =
    ⟨s.received ++ t.received, s.dispatched ++ t.dispatched, s.answers + t.answers,
      s.calls ++ t.calls⟩ := rfl

/-- Nothing of interest. -/
def Summary.none : Summary := ⟨[], [], 0, []⟩

def Event.summary : Event → Summary
  | .recv _ r => { Summary.none with received := r.bytes }
  | .start cmdType url => { Summary.none with dispatched := [(cmdType, url)] }
  | .sendHeader .. => { Summary.none with answers := 1 }
  | .call k => { Summary.none with calls := [.call k] }
  | .nullCall => { Summary.none with calls := [.nullCall] }
  | _ => Summary.none

def summary : List Event → Summary
  | [] => Summary.none
  | e :: log => e.summary ++ summary log

@[simp] theorem Summary.none_append (s : Summary) : Summary.none ++ s = s := by
  rw [append_def]
  simp [Summary.none]

@[simp] theorem Summary.append_none (s : Summary) : s ++ Summary.none = s := by
  rw [append_def]
  simp [Summary.none]

theorem Summary.append_assoc (s t u : Summary) : s ++ t ++ u = s ++ (t ++ u) := by
  simp only [append_def, List.append_assoc, Nat.add_assoc]

@[simp] theorem summary_nil : summary [] = Summary.none := rfl

@[simp] theorem summary_cons (e : Event) (log : List Event) :
    summary (e :: log) = e.summary ++ summary log := rfl

@[simp] theorem summary_append (l m : List Event) : summary (l ++ m) = summary l ++ summary m := by
  induction l with
  | nil => rw [List.nil_append, summary_nil, Summary.none_append]
  | cons e l ih => rw [List.cons_append, summary_cons, ih, summary_cons, Summary.append_assoc]

/-- Events that only pass on response data. -/
theorem summary_transfer : ∀ {log : List Event}, (∀ e ∈ log, e.isTransfer = true) →
    summary log = Summary.none
  | [], _ => rfl
  | e :: log, h => by
    rw [List.forall_mem_cons] at h
    have he : e.summary = Summary.none := by
      have := h.1
      cases e <;> first | rfl | cases this
    rw [summary_cons, he, summary_transfer h.2, Summary.none_append]

theorem callEvent_summary (h : HttpHandler) (bufOut : Option Nat) (bufIn : Option Bytes) :
    (callEvent h bufOut bufIn).summary
      = { Summary.none with calls := [callEvent h bufOut bufIn] } :=
  callEvent_cases (fun e => e.summary = { Summary.none with calls := [e] }) rfl fun _ => rfl

theorem chunkEvents_summary (h : HttpHandler) (data : Bytes) :
    summary (chunkEvents h data) = { Summary.none with calls := chunkEvents h data } := by
  unfold chunkEvents
  split
  · rfl
  · rw [chunkEvent, summary_cons, callEvent_summary]
    rfl

/-- A receive that goes straight to the handler. -/
theorem bodyChunk_summary (h : HttpHandler) (len : Nat) (data : Bytes) :
    summary [.recv len (.data data), chunkEvent h data]
      = { Summary.none with received := data, calls := [chunkEvent h data] } := by
  rw [summary_cons, summary_cons, chunkEvent, callEvent_summary, Summary.append_def,
    Summary.append_def]
  simp [Event.summary, Summary.none, Recv.bytes]

theorem sendReply_summary (inp : Input) (c : Client N) (reply : HandlerReply) (type : Bytes) :
    summary (sendReply inp c reply type).events = { Summary.none with answers := 1 } := by
  rw [(sendReply_eq inp c reply type).1]
  split <;> rfl

theorem replyEvents_summary (inp : Input) (c : Client N) (h : HttpHandler) (bufIn : Option Bytes)
    (type : Bytes) :
    summary (replyEvents inp c h bufIn type)
      = { Summary.none with answers := 1, calls := [callEvent h (some N.txBuf) bufIn] } := by
  rw [replyEvents, summary_cons, callEvent_summary, sendReply_summary]
  rfl

/-- The first call for a file sends the header. -/
theorem sendfile_summary {inp : Input} {c : Client N} {f : HttpFile} {url : CString}
    (hc : Selected c f) (hsent : c.headerSent = false) :
    summary (cmdGetSendfile inp c f (some url)).events = { Summary.none with answers := 1 } := by
  obtain ⟨tail, htail, hall⟩ := cmdGetSendfile_events inp (some url) hc
  rw [htail, (sendfileHeader_eq inp f (some url) hsent).1, summary_append, summary_transfer hall]
  rfl

/-- The calls after it do not. -/
theorem sendfile_next_summary {inp : Input} {c : Client N} {f : HttpFile} {off : Nat}
    (hs : Sending c f off) :
    summary (cmdGetSendfile inp c f none).events = Summary.none := by
  obtain ⟨tail, htail, hall⟩ := cmdGetSendfile_events inp none hs.serving.selected
  rw [htail, sendfileHeader, if_pos hs.header, summary_append, summary_transfer hall]
  rfl

/-- Serving a request receives nothing. -/
theorem received_response : ∀ {log : List Event}, (∀ e ∈ log, e.isResponse = true) →
    (summary log).received = []
  | [], _ => rfl
  | e :: log, h => by
    rw [List.forall_mem_cons] at h
    have he : e.summary.received = [] := by
      have := h.1
      cases e <;> first | rfl | cases this
    rw [summary_cons, Summary.append_def]
    simp only [he, received_response h.2, List.append_nil]

/-! ## The system -/

/-- A client, what its peer has sent and was not received yet, and the result of the last call. -/
structure Conn (N : NetConfig) where
  client : Client N
  pending : Bytes
  result : Int

/-- What a call gets: at most `offer` of the pending bytes, and whatever `env` answers. -/
structure Offer where
  offer : Nat
  env : Input

/-- The socket stays connected, and a receive returns bytes of the stream. -/
def Offer.input (x : Offer) (pending : Bytes) : Input :=
  { x.env with connected := true, recv := .data (pending.take x.offer) }

/-- One call of `client_work`. -/
def connStep (ctx : Context) (x : Offer) (s : Conn N) : Conn N × List Event :=
  let o := clientWork ctx (x.input s.pending) s.client
  ({ client := o.client
     pending := s.pending.drop (summary o.events).received.length
     result := o.result }, o.events)

theorem Offer.recvUpTo (x : Offer) (pending : Bytes) (len : Nat) :
    (x.input pending).recvUpTo len = .data (pending.take (min len x.offer)) := by
  show Recv.data ((pending.take x.offer).take len) = _
  rw [List.take_take]

theorem Offer.received_le {x : Offer} {pending data : Bytes} {len : Nat}
    (h : (x.input pending).recvUpTo len = .data data) : data <+: pending := by
  rw [Offer.recvUpTo, Recv.data.injEq] at h
  rw [← h]
  exact List.take_prefix _ _

/-- A receive that returns nothing: there is nothing, or nothing is offered. -/
theorem Offer.recvUpTo_nonpos {x : Offer} {pending : Bytes} {len : Nat}
    (h : ((x.input pending).recvUpTo len).result ≤ 0) (hlen : 0 < len) :
    (x.input pending).recvUpTo len = .data [] ∧ (0 < x.offer → pending = []) := by
  rw [Offer.recvUpTo] at h ⊢
  simp only [Recv.result, List.length_take] at h
  refine ⟨?_, fun hoffer => List.length_eq_zero_iff.mp (by omega)⟩
  rw [List.length_eq_zero_iff.mp (show (pending.take (min len x.offer)).length = 0 by
    rw [List.length_take]; omega)]

/-! ## Getting on -/

/-- What a client has still to do with the request that it is serving. -/
def Client.busy (c : Client N) : Nat :=
  match c.commandType with
  | .get => c.contentLength - c.fileOffset
  | .post => 1
  | _ => 0

theorem Client.busy_clear (c : Client N) : c.clear.busy = 0 := rfl

theorem Sending.busy {c : Client N} {f : HttpFile} {off : Nat} (h : Sending c f off) :
    c.busy = f.size - off := by
  unfold Client.busy
  rw [h.command, h.length, h.offset]

theorem Serving.busy {c : Client N} {f : HttpFile} (h : Serving c f) :
    c.busy = f.size - c.fileOffset := by
  unfold Client.busy
  rw [h.command, h.length]

/-- **A call for a file sends something unless there is no space.** -/
theorem cmdGetSendfile_advances (inp : Input) {c : Client N} {f : HttpFile} {off : Nat}
    (hs : Sending c f off) :
    ((cmdGetSendfile inp c f none).client = c ∧ u32OfInt (inp.txSpace 0) = 0) ∨
      (cmdGetSendfile inp c f none).client.busy < c.busy := by
  have hrest := hs.rest
  have hoff := hs.offset
  have hheader : sendfileHeader inp c f none = ⟨0, c, []⟩ := if_pos hs.header
  rw [cmdGetSendfile_eq, hheader, if_pos (Int.le_refl 0)]
  have henter : (sendfileEnter inp c f none).client = c := by rw [sendfileEnter, hheader]
  have hle : (sendfileEnter inp c f none).client.fileOffset ≤ f.size := by
    rw [henter]
    omega
  unfold sendfileAfter
  rw [sendfileLoop]
  rcases sendfileRound_cases inp hle with ⟨hcount, h⟩ | ⟨k, b, hpos, -, hle', h⟩
  · -- something of the file is left, so it is the space that is missing
    have hspace : u32OfInt (inp.txSpace 0) = 0 := by
      unfold SendLoop.count at hcount
      rw [henter, hoff, u32Sub_of_le (by omega) (show f.size < 2 ^ 32 from f.size_lt)] at hcount
      have := N.txBuf_ge
      have hidx : (sendfileEnter inp c f none).idx = 0 := rfl
      rw [hidx] at hcount
      omega
    rw [h]
    refine Or.inl ⟨?_, hspace⟩
    simp only [Bool.false_eq_true, if_false, henter, sendfileFinish, hoff,
      if_neg (show ¬ f.size ≤ off by omega)]
  · right
    have hserv := (sendfileHeader_serving inp none hs.serving.selected).1
    -- behind the first round the offset only grows
    have hround : ∀ s : SendLoop N, (Serving s.client f ∧ off + k ≤ s.client.fileOffset) →
        Serving (sendfileRound inp f s).1.client f ∧
          off + k ≤ (sendfileRound inp f s).1.client.fileOffset := by
      rintro s ⟨hserv, hge⟩
      refine ⟨(sendfileRound_serving inp hserv).1, ?_⟩
      rcases sendfileRound_cases inp hserv.le with ⟨-, hr⟩ | ⟨_, _, _, -, -, hr⟩
      · rw [hr]
        exact hge
      · rw [hr]
        exact Nat.le_trans hge (Nat.le_add_right _ _)
    have hfirst : Serving (sendfileRound inp f (sendfileEnter inp c f none)).1.client f ∧
        off + k ≤ (sendfileRound inp f (sendfileEnter inp c f none)).1.client.fileOffset := by
      refine ⟨(sendfileRound_serving inp hserv).1, ?_⟩
      rw [h]
      simp only [henter, hoff]
      omega
    rw [hs.busy]
    generalize hloop : (if (sendfileRound inp f (sendfileEnter inp c f none)).2 = true then
      sendfileLoop inp f f.size (sendfileRound inp f (sendfileEnter inp c f none)).1
      else ((sendfileRound inp f (sendfileEnter inp c f none)).1, true)) = s
    have hlast : Serving s.1.client f ∧ off + k ≤ s.1.client.fileOffset := by
      rw [← hloop]
      split
      · exact sendfileLoop_inv (P := fun s => Serving s.client f ∧ off + k ≤ s.client.fileOffset)
          hround _ _ hfirst
      · exact hfirst
    rcases sendfileFinish_client f s.1 with ⟨-, hfin⟩ | ⟨-, hfin⟩
    · rw [hfin, Client.busy_clear]
      omega
    · rw [hfin, hlast.1.busy]
      omega

/-- What is left to do: bytes to receive come first, since they can bring new work. -/
def Conn.left (s : Conn N) : Nat ×ₗ Nat := toLex (s.pending.length, s.client.busy)

/-- What a client can wait for. -/
inductive Resource where
  | input
  | space

def Conn.needs (s : Conn N) : Resource :=
  if s.client.commandType = .get then .space else .input

/-- A call that brings it. The code takes the free space as an unsigned number. -/
def Offer.Brings (x : Offer) : Resource → Prop
  | .input => 0 < x.offer
  | .space => 0 < u32OfInt (x.env.txSpace 0)

/-- A schedule that brings everything in every step. -/
def steady : Nat → Offer := fun _ => ⟨1, { Input.idle with txSpace := fun _ => 1 }⟩

theorem steady_fair (r : Resource) (n : Nat) : ∃ m, n ≤ m ∧ (steady m).Brings r := by
  refine ⟨n, Nat.le_refl n, ?_⟩
  cases r <;> exact Nat.one_pos

/-- Everything is received, and the client waits for more. -/
def Starved (s : Conn N) : Prop :=
  s.pending = [] ∧ (s.client.commandType = .unknown ∨
    (s.client.commandType = .post ∧ s.client.fileOffset < s.client.contentLength))

section

variable {ctx : Context} {s : Conn N} {x : Offer}

/-- Bytes were received. -/
theorem left_lt_of_received {c : Client N} {r : Int} {data : Bytes} (hne : data ≠ [])
    (hdata : data <+: s.pending) : Conn.left ⟨c, s.pending.drop data.length, r⟩ < s.left := by
  have hpos := List.length_pos_iff_ne_nil.mpr hne
  have hle := hdata.length_le
  refine Prod.Lex.toLex_lt_toLex.mpr (Or.inl ?_)
  rw [List.length_drop]
  omega

/-- Nothing was received, but the request got on. -/
theorem left_lt_of_busy {c : Client N} (r : Int) (h : c.busy < s.client.busy) :
    Conn.left ⟨c, s.pending.drop 0, r⟩ < s.left :=
  Prod.Lex.toLex_lt_toLex.mpr (Or.inr ⟨rfl, h⟩)

theorem Recv.bytes_of_nonpos {r : Recv} (h : r.result ≤ 0) : r.bytes = [] := by
  cases r with
  | error _ => rfl
  | data bytes => exact List.length_eq_zero_iff.mp (Nat.le_zero.mp (Int.ofNat_le.mp h))

/-- What a call receives comes from one receive. -/
theorem Work.received {inp : Input} {c : Client N} {o : Out N} (h : Work ctx inp c o) :
    (summary o.events).received = [] ∨
      ∃ len, inp.recvUpTo len = .data (summary o.events).received := by
  cases h with
  | disconnected _ => exact Or.inl rfl
  | idle _ _ hr | bodyNone _ _ _ hr =>
    left
    show (Recv.bytes _) ++ [] = []
    rw [Recv.bytes_of_nonpos hr, List.append_nil]
  | accumulate _ _ hr _ _ _ | overflow _ _ hr _ _ _ | rejected _ _ hr _ _ _ _ =>
    refine Or.inr ⟨_, hr.trans (congrArg Recv.data ?_)⟩
    simp [errorEvent, Event.summary, Summary.append_def, Summary.none, Recv.bytes]
  | request _ _ hr _ _ _ _ hs =>
    refine Or.inr ⟨_, hr.trans (congrArg Recv.data ?_)⟩
    simp [Event.summary, Summary.append_def, Summary.none, Recv.bytes,
      received_response hs.isResponse]
  | sendFile _ hs => exact Or.inl (by rw [sendfile_next_summary hs]; rfl)
  | bodyChunk _ _ hr _ _ _ => exact Or.inr ⟨_, by rw [bodyChunk_summary]; exact hr⟩
  | bodyReply _ _ =>
    left
    rw [summary_append, replyEvents_summary]
    rfl

/-- **A call gets on with the work or leaves the connection as it is.** The latter only when
it does not bring what the client needs, or when there is nothing left to receive. -/
theorem connStep_advances (hc : ClientInv ctx s.client) (x : Offer) :
    ((connStep ctx x s).1.client = s.client ∧ (connStep ctx x s).1.pending = s.pending ∧
        (x.Brings s.needs → Starved s)) ∨
      (connStep ctx x s).1.left < s.left := by
  have hw := clientWork_work hc (x.input s.pending)
  unfold connStep
  generalize clientWork ctx (x.input s.pending) s.client = o at hw ⊢
  cases hw with
  | disconnected hcon => cases hcon
  | idle _ ha hr =>
    have hroom := ha.room
    obtain ⟨hnil, hno⟩ := Offer.recvUpTo_nonpos hr (by omega)
    rw [hnil]
    refine Or.inl ⟨rfl, rfl, fun hbrings => ⟨hno ?_, Or.inl ha.command⟩⟩
    rwa [Conn.needs, ha.command] at hbrings
  | accumulate _ _ hr hne _ _ | overflow _ _ hr hne _ _ | rejected _ _ hr hne _ _ _ =>
    right
    simp only [summary_cons, errorEvent, Event.summary, Summary.append_def, Summary.none,
      Recv.bytes, List.append_nil, summary_nil]
    exact left_lt_of_received hne (Offer.received_le hr)
  | request _ _ hr hne _ _ _ hs =>
    right
    simp only [summary_cons, Event.summary, Summary.append_def, Summary.none, Recv.bytes,
      List.append_nil, List.nil_append, received_response hs.isResponse]
    exact left_lt_of_received hne (Offer.received_le hr)
  | sendFile _ hs =>
    simp only [sendfile_next_summary hs]
    rcases cmdGetSendfile_advances (x.input s.pending) hs with ⟨hsame, hspace⟩ | hlt
    · refine Or.inl ⟨hsame, rfl, fun hbrings => ?_⟩
      rw [Conn.needs, if_pos hs.command] at hbrings
      exact absurd hspace (Nat.pos_iff_ne_zero.mp hbrings)
    · exact Or.inr (left_lt_of_busy (cmdGetSendfile (x.input s.pending) s.client _ none).result hlt)
  | bodyNone _ hv hlt hr =>
    have hpos := N.rxBuf_pos
    obtain ⟨hnil, hno⟩ := Offer.recvUpTo_nonpos hr (by omega)
    rw [hnil]
    refine Or.inl ⟨rfl, rfl, fun hbrings => ⟨hno ?_, Or.inr ⟨hv.command, ?_⟩⟩⟩
    · rwa [Conn.needs, hv.command] at hbrings
    · rwa [hv.offset, hv.length]
  | bodyChunk _ _ hr hne _ _ =>
    right
    simp only [bodyChunk_summary]
    exact left_lt_of_received hne (Offer.received_le hr)
  | bodyReply _ hv =>
    -- nothing is received here, but the request is done with
    right
    simp only [summary_append, replyEvents_summary, summary_cons, Event.summary, summary_nil,
      Summary.none]
    refine left_lt_of_busy _ ?_
    rw [Client.busy_clear, Client.busy, hv.command]
    exact Nat.one_pos

theorem connStep_inv (hc : ClientInv ctx s.client) (x : Offer) :
    ClientInv ctx (connStep ctx x s).1.client :=
  (clientWork_work hc _).inv hc

theorem after_connStep_inv (hc : ClientInv ctx s.client) (sched : Nat → Offer) (n : Nat) :
    ClientInv ctx (after (connStep ctx) sched s n).1.client :=
  after_inv (connStep ctx) (P := fun s _ => ClientInv ctx s.client) sched
    (fun _ _ _ h => connStep_inv h _) hc n

/-- **In the end everything is received.** It is enough that what the client needs comes at
some time, whenever it needs it. -/
theorem eventually_starved (hc : ClientInv ctx s.client) (sched : Nat → Offer)
    (hfair : ∀ n, ∃ m, n ≤ m ∧ (sched m).Brings (after (connStep ctx) sched s n).1.needs) :
    ∃ n, Starved (after (connStep ctx) sched s n).1 := by
  have hinv := after_connStep_inv hc sched
  refine eventually_of_fair (fun n => (after (connStep ctx) sched s n).1.left)
    (fun n => (after (connStep ctx) sched s n).1.needs) (fun r m => (sched m).Brings r) ?_ ?_ hfair
  · intro n _
    rw [after_succ]
    rcases connStep_advances (hinv n) (sched n) with ⟨hclient, hpending, -⟩ | hlt
    · simp only [Conn.left, Conn.needs, hclient, hpending]
      exact Or.inr ⟨trivial, trivial⟩
    · exact Or.inl hlt
  · -- a step that brings what is needed is not the one that stands still
    intro n hgoal hbrings
    rw [after_succ]
    rcases connStep_advances (hinv n) (sched n) with ⟨-, -, hstarved⟩ | hlt
    · exact absurd (hstarved hbrings) hgoal
    · exact hlt

/-- Without anything to receive, a client that awaits a request goes on awaiting it. -/
theorem connStep_awaiting (ctx : Context) {acc : Bytes} (ha : Awaiting s.client acc)
    (hp : s.pending = []) (x : Offer) :
    (connStep ctx x s).1 = { s with result := 0 } ∧
      summary (connStep ctx x s).2 = Summary.none := by
  have hrecv : (x.input s.pending).recvUpTo (N.rxBuf - acc.length) = .data [] := by
    rw [Offer.recvUpTo, hp, List.take_nil]
  have hwork : clientWork ctx (x.input s.pending) s.client = _ :=
    clientWork_idle rfl ha (by rw [hrecv]; exact Int.le_refl 0)
  unfold connStep
  rw [hwork, hrecv]
  exact ⟨rfl, rfl⟩

end

end UniNet.Http
