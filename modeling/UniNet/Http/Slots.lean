import UniNet.Http.Work
import UniNet.Infra.History
import Mathlib.Data.List.Perm.Basic

/-!
# Slots and sockets

A client in a slot owns the socket it was accepted with. `client_new` puts it into the first
free slot and does nothing when there is none, and `client_delete` closes its socket from
inside the loop over the slots. So the table neither loses a socket nor closes one twice, as
long as the stack never has more connections than there are slots.

`FreeRTOS_closesocket` is logged for a slot. Which socket that is, and which sockets are open,
is read off the log (`bookOf`), without a look at the table.

* `clientWork_plain` — a call of `client_work` keeps the socket and closes nothing
* `Owned` — the table holds exactly the open sockets
* `slots_own_sockets` — so it is after every run
-/

namespace UniNet.Http

open Infra

variable {N : NetConfig}

/-! ## A call of `client_work` -/

/-- The events that begin and end a connection. -/
def Event.isSocket : Event → Bool
  | .accept _ | .closesocket => true
  | _ => false

/-- The client keeps its socket, and nothing is accepted or closed. -/
structure Out.Plain (o : Out N) (socket : Nat) : Prop where
  socket : o.client.socket = socket
  events : ∀ e ∈ o.events, e.isSocket = false

namespace Out.Plain

variable {o : Out N} {socket : Nat} {c : Client N} {result : Int}

theorem of_socket (h : o.Plain socket) {n : Nat} (hn : socket = n) : o.Plain n := hn ▸ h

/-- Only the client is different, and not its socket. -/
theorem same (h : o.Plain socket) (hc : c.socket = o.client.socket) :
    Out.Plain ⟨result, c, o.events⟩ socket :=
  ⟨hc.trans h.socket, h.events⟩

theorem cons (h : o.Plain socket) (hc : c.socket = o.client.socket) {e : Event}
    (he : e.isSocket = false) : Out.Plain ⟨result, c, e :: o.events⟩ socket := by
  refine ⟨hc.trans h.socket, ?_⟩
  rw [List.forall_mem_cons]
  exact ⟨he, h.events⟩

theorem concat (h : o.Plain socket) (hc : c.socket = o.client.socket) {e : Event}
    (he : e.isSocket = false) : Out.Plain ⟨result, c, o.events ++ [e]⟩ socket := by
  refine ⟨hc.trans h.socket, ?_⟩
  rw [List.forall_mem_append, List.forall_mem_singleton]
  exact ⟨h.events, he⟩

end Out.Plain

theorem plain_sendHeader (inp : Input) (c : Client N) (status : Status) :
    (sendHeader inp c status).Plain c.socket := by
  refine ⟨?_, by simp [sendHeader, Event.isSocket]⟩
  by_cases h : status = .ok <;> simp [sendHeader, h]

theorem sendfileLoop_plain (inp : Input) (file : HttpFile) : ∀ (k : Nat) {s : SendLoop N},
    (∀ e ∈ s.events, e.isSocket = false) →
    (sendfileLoop inp file k s).1.client.socket = s.client.socket ∧
      ∀ e ∈ (sendfileLoop inp file k s).1.events, e.isSocket = false
  | 0, _, hs => ⟨rfl, hs⟩
  | k + 1, s, hs => by
    have hround : (sendfileRound inp file s).1.client.socket = s.client.socket ∧
        ∀ e ∈ (sendfileRound inp file s).1.events, e.isSocket = false := by
      unfold sendfileRound
      split
      · refine ⟨rfl, ?_⟩
        rw [List.forall_mem_append]
        exact ⟨hs, by simp [Event.isSocket]⟩
      · refine ⟨rfl, ?_⟩
        rw [List.forall_mem_append]
        exact ⟨hs, by simp [Event.isSocket]⟩
    unfold sendfileLoop
    split
    · obtain ⟨hsock, hevents⟩ := sendfileLoop_plain inp file k hround.2
      exact ⟨hsock.trans hround.1, hevents⟩
    · exact hround

theorem plain_cmdGetSendfile (inp : Input) (c : Client N) (file : HttpFile)
    (url : Option CString) : (cmdGetSendfile inp c file url).Plain c.socket := by
  have hheader : (sendfileHeader inp c file url).Plain c.socket := by
    unfold sendfileHeader
    split
    · exact ⟨rfl, by simp⟩
    · exact plain_sendHeader inp _ .ok
  have hfinish : ∀ s : SendLoop N, s.client.socket = c.socket →
      (∀ e ∈ s.events, e.isSocket = false) → (sendfileFinish file s).Plain c.socket := by
    intro s hsock hs
    have hloop : Out.Plain ⟨s.result, s.client, s.events⟩ c.socket := ⟨hsock, hs⟩
    unfold sendfileFinish
    split
    · exact hloop.concat (by rfl) (by rfl)
    · exact hloop.concat (by rfl) (by rfl)
  unfold cmdGetSendfile
  dsimp only
  split
  · obtain ⟨hsock, hs⟩ := sendfileLoop_plain inp file (file.size + 1)
      (s := ⟨_, (sendfileHeader inp c file url).result, 0, _⟩) hheader.events
    exact hfinish _ (hsock.trans hheader.socket) hs
  · exact hfinish _ hheader.socket hheader.events

theorem plain_sendReply (inp : Input) (c : Client N) (reply : HandlerReply) (type : Bytes) :
    (sendReply inp c reply type).Plain c.socket := by
  unfold sendReply
  dsimp only
  split <;> exact ⟨by simp [sendHeader], by simp [sendHeader, Event.isSocket]⟩

theorem plain_cmdGetSendresponse (inp : Input) (c : Client N) (handler : HttpHandler)
    (url : CString) : (cmdGetSendresponse inp c handler url).Plain c.socket := by
  unfold cmdGetSendresponse
  dsimp only
  split
  · refine Out.Plain.concat ?_ (by rfl) rfl
    exact (plain_sendReply inp c _ _).cons rfl rfl
  · exact Out.Plain.concat (plain_sendHeader inp c _) (by rfl) rfl

theorem selectHandler_socket (ctx : Context) (c : Client N) (command : CommandType)
    (url : CString) : (selectHandler ctx c command url).socket = c.socket := by
  unfold selectHandler
  split <;> rfl

theorem selectFile_socket (ctx : Context) (c : Client N) (url : CString) :
    (selectFile ctx c url).socket = c.socket := by
  unfold selectFile
  split <;> rfl

theorem plain_cmdGetStart (ctx : Context) (inp : Input) (c : Client N) (url : CString) :
    (cmdGetStart ctx inp c url).Plain c.socket := by
  have hsel := selectHandler_socket ctx { c with commandType := .get } .get url
  unfold cmdGetStart
  dsimp only
  split
  · exact (plain_cmdGetSendresponse inp _ _ url).of_socket hsel
  · have hfile := (selectFile_socket ctx _ url).trans hsel
    split
    · exact (plain_cmdGetSendfile inp _ _ (some url)).of_socket hfile
    · refine Out.Plain.of_socket ?_ hfile
      exact (plain_sendHeader inp _ .notfound).same (by rfl)

theorem plain_cmdPostNext (inp : Input) (c : Client N) : (cmdPostNext inp c).Plain c.socket := by
  unfold cmdPostNext
  split
  · exact ⟨rfl, by simp⟩
  · dsimp only
    split
    · split
      · refine ⟨rfl, ?_⟩
        rw [List.forall_mem_cons, List.forall_mem_singleton]
        exact ⟨rfl, callEvent_cases (·.isSocket = false) rfl fun _ => rfl⟩
      · exact ⟨rfl, by simp [Event.isSocket]⟩
    · refine ⟨(plain_sendReply inp c _ _).socket, ?_⟩
      rw [List.forall_mem_append, List.forall_mem_cons, List.forall_mem_singleton]
      exact ⟨⟨callEvent_cases (·.isSocket = false) rfl fun _ => rfl,
        (plain_sendReply inp c _ _).events⟩, rfl⟩

theorem plain_cmdPostStartHandler (inp : Input) (c : Client N) (h : HttpHandler) (data : Bytes) :
    (cmdPostStartHandler inp c h data).Plain c.socket := by
  have hcalled : ∀ chunk : Nat,
      ∀ e ∈ if 0 < chunk then [chunkEvent h (data.take chunk)] else [], e.isSocket = false := by
    intro chunk
    split
    · rw [List.forall_mem_singleton]
      exact callEvent_cases (·.isSocket = false) rfl fun _ => rfl
    · simp
  unfold cmdPostStartHandler
  dsimp only
  generalize (if c.fileOffset ≤ c.contentLength then
    min (u32Sub c.contentLength c.fileOffset) data.length else 0) = chunk
  split
  · refine ⟨(plain_cmdPostNext inp _).socket, ?_⟩
    rw [List.forall_mem_append]
    exact ⟨hcalled _, (plain_cmdPostNext inp _).events⟩
  · refine ⟨rfl, ?_⟩
    rw [List.forall_mem_append, List.forall_mem_singleton]
    exact ⟨hcalled _, rfl⟩

theorem plain_cmdPostStart (ctx : Context) (inp : Input) (c : Client N) (url : CString)
    (data : Bytes) : (cmdPostStart ctx inp c url data).Plain c.socket := by
  have hsel := selectHandler_socket ctx { c with commandType := .post } .post url
  unfold cmdPostStart
  dsimp only
  split
  · exact (plain_cmdPostStartHandler inp _ _ data).of_socket hsel
  · refine Out.Plain.of_socket ?_ hsel
    exact (plain_sendHeader inp _ .notfound).same (by rfl)

theorem plain_badRequest (inp : Input) (c : Client N) (result : Int) :
    (badRequest inp c result).Plain c.socket :=
  Out.Plain.concat (plain_sendHeader inp c .badrequest) (by rfl) rfl

theorem plain_startRequest (ctx : Context) (inp : Input) (c : Client N) (cmdType : CommandType)
    (url : CString) (data : Bytes) :
    (startRequest ctx inp c cmdType url data).Plain c.socket := by
  have hstart : (cmdProcessStart ctx inp c cmdType url data).Plain c.socket := by
    unfold cmdProcessStart
    split
    · exact plain_cmdGetStart ctx inp c url
    · exact plain_cmdPostStart ctx inp c url data
    · exact ⟨rfl, by simp⟩
  exact hstart.cons (by rfl) (by rfl)

theorem plain_clientWorkHeaders (ctx : Context) (inp : Input) (c : Client N) (e : Nat) :
    (clientWorkHeaders ctx inp c e).Plain c.socket := by
  unfold clientWorkHeaders
  dsimp only
  split
  · exact plain_badRequest inp _ (-1)
  · split
    · exact plain_badRequest inp _ (-1)
    · split
      · split
        · exact plain_badRequest inp _ (-1)
        · exact plain_startRequest ctx inp _ _ _ _
      · exact plain_startRequest ctx inp _ _ _ _

/-- **A call of `client_work` keeps the socket and closes nothing.** -/
theorem clientWork_plain (ctx : Context) (inp : Input) (c : Client N) :
    (clientWork ctx inp c).Plain c.socket := by
  have hreceived : ∀ (c : Client N) (result : Int),
      (clientWorkReceived ctx inp c result).Plain c.socket := by
    intro c result
    unfold clientWorkReceived
    split
    · split
      · exact plain_badRequest inp c result
      · exact ⟨rfl, by simp⟩
    · exact (plain_clientWorkHeaders ctx inp c _).cons rfl rfl
  unfold clientWork
  split
  · exact ⟨rfl, by simp⟩
  · split
    · dsimp only
      split
      · exact (hreceived _ _).cons rfl rfl
      · exact ⟨rfl, by simp [Event.isSocket]⟩
    · unfold cmdProcessNext cmdGetNext
      split
      · split
        · exact plain_cmdGetSendfile inp c _ none
        · exact ⟨rfl, by simp⟩
      · exact plain_cmdPostNext inp c
      · exact ⟨rfl, by simp⟩

/-! ## Open sockets -/

/-- What the log says: the socket that each slot was given last, and the open sockets. -/
structure Book where
  owner : Nat → Option Nat
  opened : List Nat

def Book.record (b : Book) : ServerEvent → Book
  | .slot i (.accept n) =>
    { owner := Function.update b.owner i (some n), opened := n :: b.opened }
  -- a slot closes the socket that it was given last
  | .slot i .closesocket => { b with opened := (b.owner i).elim b.opened b.opened.erase }
  | .slot _ _ => b
  | .leaked n => { b with opened := n :: b.opened }

def bookOf (log : List ServerEvent) : Book := log.foldl Book.record ⟨fun _ => none, []⟩

theorem bookOf_append (log es : List ServerEvent) :
    bookOf (log ++ es) = es.foldl Book.record (bookOf log) :=
  List.foldl_append

theorem bookOf_other (log : List ServerEvent) (i : Nat) {es : List Event}
    (h : ∀ e ∈ es, e.isSocket = false) : bookOf (log ++ es.map (.slot i)) = bookOf log := by
  rw [bookOf_append]
  induction es with
  | nil => rfl
  | cons e es ih =>
    rw [List.forall_mem_cons] at h
    have he : (bookOf log).record (.slot i e) = bookOf log := by
      cases e <;> first | rfl | simp [Event.isSocket] at h
    rw [List.map_cons, List.foldl_cons, he]
    exact ih h.2

/-- The socket that `FreeRTOS_accept` returned. -/
def ServerEvent.accepted : ServerEvent → Option Nat
  | .slot _ (.accept n) | .leaked n => some n
  | _ => none

/-- The slot that closes its socket. -/
def ServerEvent.closing : ServerEvent → Option Nat
  | .slot i .closesocket => some i
  | _ => none

/--
What the stack sees to: a socket that is accepted is a new one, and with it there are at most
`max_clients` open ones.
-/
def Admitted (ctx : Context) (log : List ServerEvent) (e : ServerEvent) : Prop :=
  ∀ n ∈ e.accepted, (bookOf log).opened.length < ctx.maxClients ∧ n ∉ (bookOf log).opened

instance (ctx : Context) (log : List ServerEvent) (e : ServerEvent) :
    Decidable (Admitted ctx log e) :=
  inferInstanceAs (Decidable (∀ n ∈ e.accepted, _))

/-- A slot closes a socket that is open. -/
def ClosesOpen (log : List ServerEvent) (e : ServerEvent) : Prop :=
  ∀ i ∈ e.closing, ∃ n ∈ (bookOf log).opened, (bookOf log).owner i = some n

/-! ## The table -/

/-- The sockets of the clients in the slots. -/
def heldSockets (clients : List (Option (Client N))) : List Nat :=
  clients.filterMap (Option.map Client.socket)

/-- **The table holds exactly the open sockets.** -/
structure Owned (clients : List (Option (Client N))) (log : List ServerEvent) : Prop where
  held : (heldSockets clients).Perm (bookOf log).opened
  nodup : (heldSockets clients).Nodup
  owner : ∀ i c, clients[i]? = some (some c) → (bookOf log).owner i = some c.socket
  stored : ∀ n, .leaked n ∉ log
  closes : Throughout ClosesOpen log

theorem heldSockets_split (pre post : List (Option (Client N))) (s : Option (Client N)) :
    heldSockets (pre ++ s :: post)
      = heldSockets pre ++ (s.map Client.socket).toList ++ heldSockets post := by
  unfold heldSockets
  cases s <;> simp

theorem freeSlot_split {clients : List (Option (Client N))} {i : Nat}
    (h : freeSlot clients = some i) :
    ∃ pre post, clients = pre ++ none :: post ∧ pre.length = i := by
  obtain ⟨hlt, hnone, -⟩ := List.findIdx?_eq_some_iff_getElem.mp h
  rw [Option.isNone_iff_eq_none] at hnone
  refine ⟨clients.take i, clients.drop (i + 1), ?_, List.length_take_of_le hlt.le⟩
  rw [← hnone, ← List.drop_eq_getElem_cons hlt, List.take_append_drop]

/-- A table without a free slot holds as many sockets as it has slots. -/
theorem length_heldSockets {clients : List (Option (Client N))} (h : freeSlot clients = none) :
    (heldSockets clients).length = clients.length := by
  have hall : ∀ s ∈ clients, ∃ c, s = some c := by
    intro s hs
    have hsome := List.findIdx?_eq_none_iff.mp h s hs
    exact Option.isSome_iff_exists.mp (by simpa using hsome)
  clear h
  induction clients with
  | nil => rfl
  | cons s clients ih =>
    rw [List.forall_mem_cons] at hall
    obtain ⟨⟨c, rfl⟩, hall⟩ := hall
    simpa [heldSockets] using ih hall

theorem getElem?_middle_ne {α : Type*} (pre post : List α) (s s' : α) {i : Nat}
    (h : i ≠ pre.length) : (pre ++ s :: post)[i]? = (pre ++ s' :: post)[i]? := by
  rcases Nat.lt_or_gt_of_ne h with h | h
  · rw [List.getElem?_append_left h, List.getElem?_append_left h]
  · obtain ⟨k, rfl⟩ := Nat.exists_eq_add_of_lt h
    simp [List.getElem?_append_right, Nat.add_assoc]

namespace Owned

theorem start (n : Nat) : Owned (List.replicate n (none : Option (Client N))) [] := by
  have hnone : heldSockets (List.replicate n (none : Option (Client N))) = [] := by
    simp [heldSockets]
  constructor
  · rw [hnone]
    rfl
  · rw [hnone]
    exact List.nodup_nil
  · intro i c hc
    simp [List.getElem?_replicate] at hc
  · simp
  · exact throughout_nil

variable {pre post : List (Option (Client N))} {log : List ServerEvent}

/-- Nothing happens to a socket, and the client in the slot keeps its own. -/
theorem other {s s' : Option (Client N)} (h : Owned (pre ++ s :: post) log)
    (hs : s'.map Client.socket = s.map Client.socket) {es : List Event}
    (hes : ∀ e ∈ es, e.isSocket = false) :
    Owned (pre ++ s' :: post) (log ++ es.map (.slot pre.length)) := by
  have hheld : heldSockets (pre ++ s' :: post) = heldSockets (pre ++ s :: post) := by
    rw [heldSockets_split, heldSockets_split, hs]
  constructor
  · rw [hheld, bookOf_other log _ hes]
    exact h.held
  · rw [hheld]
    exact h.nodup
  · intro i d hd
    rw [bookOf_other log _ hes]
    by_cases hi : i = pre.length
    · subst hi
      obtain rfl : s' = some d := by simpa using hd
      obtain ⟨c, rfl, hsock⟩ := Option.map_eq_some_iff.mp hs.symm
      rw [← hsock]
      exact h.owner _ c (by simp)
    · rw [getElem?_middle_ne pre post s' s hi] at hd
      exact h.owner i d hd
  · simpa using h.stored
  · rw [throughout_append]
    · exact h.closes
    · intro before e he
      obtain ⟨e', he', rfl⟩ := List.mem_map.mp he
      have hplain := hes e' he'
      cases e' <;> simp [ClosesOpen, ServerEvent.closing, Event.isSocket] at hplain ⊢

theorem accept (h : Owned (pre ++ none :: post) log) {n : Nat}
    (hn : n ∉ (bookOf log).opened) :
    Owned (pre ++ some (Client.new N n) :: post) (log ++ [.slot pre.length (.accept n)]) := by
  have hbook : bookOf (log ++ [.slot pre.length (.accept n)])
      = ⟨Function.update (bookOf log).owner pre.length (some n), n :: (bookOf log).opened⟩ :=
    bookOf_append log _
  have hheld : (heldSockets (pre ++ some (Client.new N n) :: post)).Perm
      (n :: heldSockets (pre ++ none :: post)) := by
    rw [heldSockets_split, heldSockets_split]
    simp [Client.new]
  constructor
  · rw [hbook]
    exact hheld.trans (h.held.cons n)
  · rw [hheld.nodup_iff, List.nodup_cons, h.held.mem_iff]
    exact ⟨hn, h.nodup⟩
  · intro i d hd
    rw [hbook]
    by_cases hi : i = pre.length
    · subst hi
      obtain rfl : Client.new N n = d := by simpa using hd
      simp [Client.new]
    · rw [getElem?_middle_ne pre post _ none hi] at hd
      simpa [Function.update_of_ne hi] using h.owner i d hd
  · simpa using h.stored
  · rw [throughout_concat]
    exact ⟨h.closes, by simp [ClosesOpen, ServerEvent.closing]⟩

theorem close {c : Client N} (h : Owned (pre ++ some c :: post) log) :
    Owned (pre ++ none :: post) (log ++ [.slot pre.length .closesocket]) := by
  have howner : (bookOf log).owner pre.length = some c.socket := h.owner _ c (by simp)
  have hbook : bookOf (log ++ [.slot pre.length .closesocket])
      = ⟨(bookOf log).owner, (bookOf log).opened.erase c.socket⟩ := by
    rw [bookOf_append, List.foldl_cons, List.foldl_nil, Book.record, howner]
    rfl
  have hheld : (heldSockets (pre ++ some c :: post)).Perm
      (c.socket :: heldSockets (pre ++ none :: post)) := by
    rw [heldSockets_split, heldSockets_split]
    simp
  constructor
  · rw [hbook]
    have herase := (hheld.symm.trans h.held).erase c.socket
    rwa [List.erase_cons_head] at herase
  · exact (List.nodup_cons.mp (hheld.nodup_iff.mp h.nodup)).2
  · intro i d hd
    rw [hbook]
    by_cases hi : i = pre.length
    · subst hi
      simp at hd
    · rw [getElem?_middle_ne pre post none (some c) hi] at hd
      exact h.owner i d hd
  · simpa using h.stored
  · rw [throughout_concat]
    refine ⟨h.closes, ?_⟩
    rintro i ⟨⟩
    refine ⟨c.socket, h.held.mem_iff.mp ?_, howner⟩
    exact hheld.mem_iff.mpr (List.mem_cons_self ..)

end Owned

section

variable {ctx : Context}

theorem slotWork_owned (ctx : Context) (inp : Input) {pre post : List (Option (Client N))}
    {s : Option (Client N)} {log : List ServerEvent} (h : Owned (pre ++ s :: post) log) :
    Owned (pre ++ (slotWork ctx inp s).1 :: post)
      (log ++ (slotWork ctx inp s).2.map (.slot pre.length)) := by
  cases s with
  | none => exact h.other rfl (List.forall_mem_nil _)
  | some c =>
    obtain ⟨hsock, hevents⟩ := clientWork_plain ctx inp c
    by_cases hneg : (clientWork ctx inp c).result < 0
    · have hclr : Owned (pre ++ some c :: post) (log ++ ((clientWork ctx inp c).events
          ++ [Event.fdClr [.read, .write, .except, .intr]]).map (.slot pre.length)) := by
        refine h.other rfl ?_
        rw [List.forall_mem_append]
        exact ⟨hevents, by simp [Event.isSocket]⟩
      rw [slotWork_deleted hneg]
      simpa using hclr.close
    · rw [slotWork_kept hneg]
      exact h.other (by simp [hsock]) hevents

/-- The loop over the slots: those in `pre` have had their turn. -/
theorem workSlots_owned (inp : Nat → Input) : ∀ (rest pre : List (Option (Client N)))
    {log : List ServerEvent}, Owned (pre ++ rest) log →
    Owned (pre ++ (workSlots ctx inp pre.length rest).1)
      (log ++ (workSlots ctx inp pre.length rest).2)
  | [], pre, log, h => by simpa [workSlots] using h
  | s :: rest, pre, log, h => by
    have hslot := slotWork_owned ctx (inp pre.length) h
    have hrest := workSlots_owned inp rest (pre ++ [(slotWork ctx (inp pre.length) s).1])
      (by simpa using hslot)
    simpa [workSlots] using hrest

theorem workAccept_owned (w : WorkInput) {clients : List (Option (Client N))}
    {log : List ServerEvent} (hlen : clients.length = ctx.maxClients) (h : Owned clients log)
    (hadm : Throughout (Admitted ctx) (log ++ (workAccept w clients).2)) :
    Owned (workAccept w clients).1 (log ++ (workAccept w clients).2) := by
  unfold workAccept at hadm ⊢
  cases hacc : w.accept with
  | none => simpa using h
  | some n =>
    simp only [hacc, clientNew] at hadm ⊢
    cases hfree : freeSlot clients with
    | none =>
      -- a full table has all the sockets there can be
      simp only [hfree, throughout_concat] at hadm
      have hlt := (hadm.2 n rfl).1
      rw [← h.held.length_eq, length_heldSockets hfree, hlen] at hlt
      omega
    | some i =>
      obtain ⟨pre, post, rfl, rfl⟩ := freeSlot_split hfree
      simp only [hfree] at hadm ⊢
      have hset : Owned (pre ++ some (Client.new N n) :: post)
          (log ++ [.slot pre.length (.accept n)]
            ++ [Event.fdSet [.read, .except]].map (.slot pre.length)) :=
        (h.accept (hadm.allowed n rfl).2).other rfl (by simp [Event.isSocket])
      simpa using hset

/-- An iteration keeps the books, if the stack keeps to its limit. -/
theorem work_owned (w : WorkInput) {clients : List (Option (Client N))}
    {log : List ServerEvent} (hlen : clients.length = ctx.maxClients) (h : Owned clients log)
    (hadm : Throughout (Admitted ctx) (log ++ (work ctx w clients).2)) :
    Owned (work ctx w clients).1 (log ++ (work ctx w clients).2) := by
  unfold work at hadm ⊢
  rw [← List.append_assoc] at hadm ⊢
  have haccept := workAccept_owned w hlen h (hadm.of_begin (List.prefix_append ..))
  exact workSlots_owned w.client _ [] haccept

theorem closing_mem_slotWork {inp : Input} {s : Option (Client N)} :
    .closesocket ∈ (slotWork ctx inp s).2 ↔
      ∃ c, s = some c ∧ (clientWork ctx inp c).result < 0 := by
  cases s with
  | none => simp [slotWork]
  | some c =>
    have hnot : .closesocket ∉ (clientWork ctx inp c).events := fun hmem => by
      simpa [Event.isSocket] using (clientWork_plain ctx inp c).events _ hmem
    by_cases hneg : (clientWork ctx inp c).result < 0
    · simp [slotWork_deleted hneg, hneg]
    · simp [slotWork_kept hneg, hneg, hnot]

theorem closing_mem_workSlots (inp : Nat → Input) :
    ∀ (clients : List (Option (Client N))) (k i : Nat),
    .slot i .closesocket ∈ (workSlots ctx inp k clients).2 ↔
      ∃ j c, i = k + j ∧ clients[j]? = some (some c) ∧ (clientWork ctx (inp i) c).result < 0
  | [], k, i => by simp [workSlots]
  | s :: clients, k, i => by
    have ih := closing_mem_workSlots inp clients (k + 1) i
    rw [workSlots, List.mem_append, List.mem_map]
    constructor
    · rintro (⟨e, he, ⟨⟩⟩ | hrest)
      · obtain ⟨c, rfl, hneg⟩ := closing_mem_slotWork.mp he
        exact ⟨0, c, rfl, rfl, hneg⟩
      · obtain ⟨j, c, hi, hc, hneg⟩ := ih.mp hrest
        exact ⟨j + 1, c, by omega, hc, hneg⟩
    · rintro ⟨j, c, hi, hc, hneg⟩
      cases j with
      | zero =>
        obtain rfl : i = k := hi
        obtain rfl : s = some c := by simpa using hc
        exact Or.inl ⟨_, closing_mem_slotWork.mpr ⟨c, rfl, hneg⟩, rfl⟩
      | succ j => exact Or.inr (ih.mpr ⟨j, c, by omega, hc, hneg⟩)

/-- **A socket is closed in an iteration exactly if `client_work` has failed for it.** -/
theorem closing_mem_work (w : WorkInput) (clients : List (Option (Client N))) (i : Nat) :
    .slot i .closesocket ∈ (work ctx w clients).2 ↔
      ∃ c, (workAccept w clients).1[i]? = some (some c) ∧
        (clientWork ctx (w.client i) c).result < 0 := by
  have haccept : .slot i .closesocket ∉ (workAccept w clients).2 := by
    unfold workAccept clientNew
    split
    · split <;> simp
    · simp
  rw [work, List.mem_append, closing_mem_workSlots]
  simp [haccept]

/--
**The slots own exactly the accepted sockets**, in every run in which the stack never has more
than `max_clients` open sockets: every open socket is held by one slot, none is without a slot,
a slot closes its own socket and only while that is open, and it does so exactly if its
`client_work` has returned a negative value.
-/
theorem slots_own_sockets (N : NetConfig) (ctx : Context) (ws : List WorkInput)
    (hadm : Throughout (Admitted ctx) (server N ctx ws).2) :
    Owned (server N ctx ws).1 (server N ctx ws).2 ∧
      ∀ before w, before ++ [w] <+: ws → ∀ i,
        .slot i .closesocket ∈ (work ctx w (server N ctx before).1).2 ↔
          ∃ c, (workAccept w (server N ctx before).1).1[i]? = some (some c) ∧
            (clientWork ctx (w.client i) c).result < 0 := by
  refine ⟨?_, fun before w _ i => closing_mem_work w _ i⟩
  have hrun := run_inv (work (N := N) ctx) (P := fun clients log =>
    clients.length = ctx.maxClients ∧ (Throughout (Admitted ctx) log → Owned clients log))
    ?_ (s := List.replicate ctx.maxClients none) ?_ ws
  · exact hrun.2 hadm
  · rintro w clients log ⟨hlen, h⟩
    exact ⟨(work_length w clients).trans hlen, fun hadm =>
      work_owned w hlen (h (hadm.of_begin (List.prefix_append ..))) hadm⟩
  · exact ⟨List.length_replicate, fun _ => .start ctx.maxClients⟩

theorem slots_own_sockets_reused :
    let ctx : Context := ⟨⟨true, []⟩, ⟨true, []⟩, 2⟩
    let accept (socket : Nat) : WorkInput := ⟨some socket, fun _ => Input.idle⟩
    let hangUp : WorkInput := ⟨none, fun i => { Input.idle with connected := i ≠ 0 }⟩
    let s := server NetConfig.default ctx [accept 7, accept 8, hangUp, accept 9]
    heldSockets s.1 = [9, 8] ∧ Owned s.1 s.2 := by
  intro ctx accept hangUp s
  have hadm : Throughout (Admitted ctx) s.2 := by decide +kernel
  exact ⟨by decide +kernel, (slots_own_sockets NetConfig.default ctx _ hadm).1⟩

end

end UniNet.Http
