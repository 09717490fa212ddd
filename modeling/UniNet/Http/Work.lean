import UniNet.Http.Sendfile

/-!
# The work loop

`_uni_net_http_server_work` accepts a new client and then lets every slot do one call of
`client_work`. A run of the server is a list of such iterations with any answers of the stack
and of the handlers, and its log says for every event in which slot it happened.

The slots do not share anything but the handlers. `run_slot` takes a run of the server apart
into one run per slot, so everything that is proved about a slot holds in the server.

* `Work.inv` — a call of `client_work` keeps `ClientInv`
* `client_state_invariant` — every client in a slot satisfies it, in every reachable state
-/

namespace UniNet.Http

open Infra

variable {N : NetConfig}

/-! ## The source -/

/-- One slot in the loop of `work`: `client_work`, and `client_delete` on a negative result. -/
def slotWork (ctx : Context) (inp : Input) : Option (Client N) → Option (Client N) × List Event
  | none => (none, [])
  | some c =>
    if (clientWork ctx inp c).result < 0 then
      (none, (clientWork ctx inp c).events
        ++ [.fdClr [.read, .write, .except, .intr], .closesocket])
    else (some (clientWork ctx inp c).client, (clientWork ctx inp c).events)

/-- An event of the server: in a slot, or a new client for which there is none. -/
inductive ServerEvent where
  | slot (idx : Nat) (e : Event)
  | leaked (socket : Nat)
  deriving DecidableEq

/-- The slot that `client_new` puts a client into. -/
def freeSlot (clients : List (Option (Client N))) : Option Nat :=
  clients.findIdx? Option.isNone

/-- `_uni_net_http_server_client_new`. -/
def clientNew (clients : List (Option (Client N))) (socket : Nat) :
    List (Option (Client N)) × List ServerEvent :=
  match freeSlot clients with
  | some i =>
    (clients.set i (some (Client.new N socket)),
      [.slot i (.accept socket), .slot i (.fdSet [.read, .except])])
  -- no slot is free: the client is neither stored nor deleted
  | none => (clients, [.leaked socket])

/--
What happens during one iteration: the socket that `FreeRTOS_accept` returned, `none` when
there was no event or no socket, and what the slots get to see.
-/
structure WorkInput where
  accept : Option Nat
  client : Nat → Input

/-- The first half of `work`. -/
def workAccept (w : WorkInput) (clients : List (Option (Client N))) :
    List (Option (Client N)) × List ServerEvent :=
  match w.accept with
  | some socket => clientNew clients socket
  | none => (clients, [])

/-- The loop over the slots, from slot `idx` on. -/
def workSlots (ctx : Context) (inp : Nat → Input) :
    Nat → List (Option (Client N)) → List (Option (Client N)) × List ServerEvent
  | _, [] => ([], [])
  | idx, s :: rest =>
    ((slotWork ctx (inp idx) s).1 :: (workSlots ctx inp (idx + 1) rest).1,
      (slotWork ctx (inp idx) s).2.map (.slot idx) ++ (workSlots ctx inp (idx + 1) rest).2)

/-- `_uni_net_http_server_work`. -/
def work (ctx : Context) (w : WorkInput) (clients : List (Option (Client N))) :
    List (Option (Client N)) × List ServerEvent :=
  ((workSlots ctx w.client 0 (workAccept w clients).1).1,
    (workAccept w clients).2 ++ (workSlots ctx w.client 0 (workAccept w clients).1).2)

/-- The server from `_uni_net_http_server_init` on. -/
def server (N : NetConfig) (ctx : Context) (ws : List WorkInput) :
    List (Option (Client N)) × List ServerEvent :=
  run (work ctx) ws (List.replicate ctx.maxClients none)

/-! ## A call keeps the invariant -/

/-- The events that serving a request is made of. -/
def Event.isResponse : Event → Bool
  | .sendHeader .. | .txSpace _ | .send .. | .call _ | .nullCall | .fdSet _ | .fdClr _ => true
  | _ => false

theorem Event.isResponse_of_isTransfer {e : Event} (h : e.isTransfer = true) :
    e.isResponse = true := by
  cases e <;> first | rfl | cases h

theorem callEvent_isResponse (h : HttpHandler) (bufOut : Option Nat) (bufIn : Option Bytes) :
    (callEvent h bufOut bufIn).isResponse = true :=
  callEvent_cases (·.isResponse = true) rfl fun _ => rfl

theorem replyEvents_isResponse (inp : Input) (c : Client N) (h : HttpHandler)
    (bufIn : Option Bytes) (type : Bytes) :
    ∀ e ∈ replyEvents inp c h bufIn type, e.isResponse = true :=
  forall_mem_replyEvents (·.isResponse = true) rfl (fun _ => rfl) (fun _ => rfl)
    (fun _ _ _ => rfl) fun _ _ => rfl

section

variable {ctx : Context} {inp : Input} {c : Client N} {o : Out N}

theorem selected_of_getFile {f : HttpFile}
    (hc : c.commandType = .get ∧ c.file = some f ∧ c.handler = none ∧ c.fileOffset = 0 ∧
      c.headerSent = false) : Selected c f := by
  obtain ⟨hcmd, hfile, hhandler, hoff, hsent⟩ := hc
  exact ⟨hcmd, hfile, hhandler, fun h => by simp [hsent] at h, by omega⟩

theorem Start.isResponse {req : Request} {rest : Bytes} (h : Start ctx inp req rest o) :
    ∀ e ∈ o.events, e.isResponse = true := by
  cases h with
  | ignored _ _ _ => simp
  | getReply _ _ _ =>
    rw [List.forall_mem_append, List.forall_mem_singleton]
    exact ⟨replyEvents_isResponse _ _ _ _ _, rfl⟩
  | getError _ _ _ => simp [errorEvent, Event.isResponse]
  | getFile _ _ _ hc =>
    obtain ⟨tail, htail, hall⟩ := cmdGetSendfile_events inp (some req.url) (selected_of_getFile hc)
    simp only [htail, List.forall_mem_append]
    refine ⟨?_, fun e he => Event.isResponse_of_isTransfer (hall e he)⟩
    unfold sendfileHeader
    rw [if_neg (by rw [hc.2.2.2.2]; decide), sendHeader]
    simp [Event.isResponse]
  | getNotFound _ _ _ => simp [errorEvent, Event.isResponse]
  | postNotFound _ _ => simp [errorEvent, Event.isResponse]
  | postBody _ _ _ _ _ =>
    rw [List.forall_mem_append, List.forall_mem_singleton]
    exact ⟨forall_mem_chunkEvents (·.isResponse = true) rfl fun _ => rfl, rfl⟩
  | postReply _ _ _ _ =>
    simp only [List.forall_mem_append, List.forall_mem_singleton]
    exact ⟨forall_mem_chunkEvents (·.isResponse = true) rfl fun _ => rfl,
      replyEvents_isResponse _ _ _ _ _, rfl⟩

/-- The file transfer has ended or goes on, once `rx_len` is reset. -/
theorem cmdGetSendfile_phase {f : HttpFile} (url : Option CString) (hc : Selected c f) :
    Client.Cleared { (cmdGetSendfile inp c f url).client with rxLen := 0 } ∨
      ∃ off, Sending { (cmdGetSendfile inp c f url).client with rxLen := 0 } f off := by
  rcases cmdGetSendfile_client inp url hc with ⟨d, h⟩ | ⟨hs, hlt, -⟩
  · rw [h]
    exact Or.inl rfl
  · exact Or.inr ⟨_, hs.command, hs.file, hs.handler, hs.header, hs.length, rfl, hlt, rfl⟩

theorem cmdGetSendfile_next_phase (inp : Input) {f : HttpFile} {off : Nat} (hs : Sending c f off) :
    (cmdGetSendfile inp c f none).client.Cleared ∨
      ∃ off', Sending (cmdGetSendfile inp c f none).client f off' := by
  rcases cmdGetSendfile_client inp none hs.serving.selected with ⟨d, h⟩ | ⟨hs', hlt, hlen⟩
  · rw [h]
    exact Or.inl rfl
  · exact Or.inr ⟨_, hs'.command, hs'.file, hs'.handler, hs'.header, hs'.length, rfl, hlt,
      hlen.trans hs.rxLen⟩

theorem Start.inv {req : Request} {rest : Bytes} (h : Start ctx inp req rest o) :
    ClientInv ctx o.client := by
  cases h with
  | ignored _ _ hc => exact Or.inl ⟨[], hc⟩
  | getReply _ _ _ => exact Or.inl ⟨[], awaiting_clear _⟩
  | getError _ _ _ => exact Or.inl ⟨[], awaiting_clear _⟩
  | getFile _ _ _ hc =>
    rcases cmdGetSendfile_phase (some req.url) (selected_of_getFile hc) with h | ⟨off, hs⟩
    · exact Or.inl ⟨[], h.awaiting⟩
    · exact Or.inr (Or.inl ⟨_, off, hs⟩)
  | getNotFound _ _ _ => exact Or.inl ⟨[], awaiting_clear _⟩
  | postNotFound _ _ => exact Or.inl ⟨[], awaiting_clear _⟩
  | postBody _ _ _ _ hc => exact Or.inr (Or.inr ⟨_, _, _, hc⟩)
  | postReply _ _ _ _ => exact Or.inl ⟨[], awaiting_clear _⟩

/-- **A call of `client_work` keeps the invariant**, whatever it returns. -/
theorem Work.inv (h : Work ctx inp c o) (hc : ClientInv ctx c) : ClientInv ctx o.client := by
  cases h with
  | disconnected _ => exact hc
  | idle _ _ _ => exact hc
  | accumulate _ _ _ _ _ ha' => exact Or.inl ⟨_, ha'⟩
  | overflow _ _ _ _ _ _ => exact Or.inl ⟨[], awaiting_clear _⟩
  | rejected _ _ _ _ _ _ _ => exact Or.inl ⟨[], awaiting_clear _⟩
  | request _ _ _ _ _ _ _ hs => exact hs.inv
  | sendFile _ hs =>
    rcases cmdGetSendfile_next_phase inp hs with h | ⟨off, hs'⟩
    · exact Or.inl ⟨[], h.awaiting⟩
    · exact Or.inr (Or.inl ⟨_, off, hs'⟩)
  | bodyNone _ _ _ _ => exact hc
  | bodyChunk _ _ _ _ _ hv' => exact Or.inr (Or.inr ⟨_, _, _, hv'⟩)
  | bodyReply _ _ => exact Or.inl ⟨[], awaiting_clear _⟩

end

/-! ## The server is its slots -/

/-- What a slot gets to see of an iteration. -/
structure SlotInput where
  accept : Option Nat
  inp : Input

/-- The part of `client_new` that concerns a slot, when the new client is for this one. -/
def slotAccept (accept : Option Nat) (s : Option (Client N)) : Option (Client N) × List Event :=
  match s, accept with
  | none, some socket =>
    (some (Client.new N socket), [.accept socket, .fdSet [.read, .except]])
  | s, _ => (s, [])

/-- One iteration, seen from a slot. -/
def slotStep (ctx : Context) (x : SlotInput) (s : Option (Client N)) :
    Option (Client N) × List Event :=
  ((slotWork ctx x.inp (slotAccept x.accept s).1).1,
    (slotAccept x.accept s).2 ++ (slotWork ctx x.inp (slotAccept x.accept s).1).2)

/-- A slot from the start of the server on. -/
def slotRun (N : NetConfig) (ctx : Context) (xs : List SlotInput) :
    Option (Client N) × List Event :=
  run (slotStep ctx) xs none

def ServerEvent.inSlot (i : Nat) : ServerEvent → Option Event
  | .slot j e => if j = i then some e else none
  | .leaked _ => none

/-- The events in slot `i`. -/
def slotLog (i : Nat) (log : List ServerEvent) : List Event := log.filterMap (·.inSlot i)

theorem slotLog_append (i : Nat) (l m : List ServerEvent) :
    slotLog i (l ++ m) = slotLog i l ++ slotLog i m :=
  List.filterMap_append

theorem slotLog_slot (i j : Nat) (events : List Event) :
    slotLog i (events.map (.slot j)) = if j = i then events else [] := by
  unfold slotLog
  rw [List.filterMap_map]
  split
  · next h =>
    have hsome : (fun e : ServerEvent => e.inSlot i) ∘ ServerEvent.slot j = some :=
      funext fun _ => if_pos h
    rw [hsome, List.filterMap_some]
  · next h =>
    have hnone : (fun e : ServerEvent => e.inSlot i) ∘ ServerEvent.slot j = fun _ => none :=
      funext fun _ => if_neg h
    rw [hnone, List.filterMap_none]

section

variable (ctx : Context) (inp : Nat → Input)

theorem workSlots_getElem? : ∀ (cl : List (Option (Client N))) (k i : Nat),
    (workSlots ctx inp k cl).1[i]? = cl[i]?.map fun s => (slotWork ctx (inp (k + i)) s).1
  | [], _, _ => rfl
  | s :: cl, k, 0 => rfl
  | s :: cl, k, i + 1 => by
    rw [workSlots, List.getElem?_cons_succ, List.getElem?_cons_succ,
      workSlots_getElem? cl (k + 1) i,
      Nat.add_right_comm, Nat.add_assoc]

theorem slotLog_workSlots_lt : ∀ (cl : List (Option (Client N))) (k i : Nat), i < k →
    slotLog i (workSlots ctx inp k cl).2 = []
  | [], _, _, _ => rfl
  | s :: cl, k, i, hi => by
    rw [workSlots, slotLog_append, slotLog_slot, if_neg (by omega),
      slotLog_workSlots_lt cl (k + 1) i (by omega), List.append_nil]

theorem slotLog_workSlots : ∀ (cl : List (Option (Client N))) (k i : Nat) {s},
    cl[i]? = some s → slotLog (k + i) (workSlots ctx inp k cl).2 = (slotWork ctx (inp (k + i)) s).2
  | [], _, _, _, hs => nomatch hs
  | _ :: cl, k, 0, s, hs => by
    rw [← Option.some.inj hs, Nat.add_zero, workSlots, slotLog_append, slotLog_slot, if_pos rfl,
      slotLog_workSlots_lt ctx inp cl (k + 1) _ (by omega), List.append_nil]
  | _ :: cl, k, i + 1, s, hs => by
    rw [workSlots, slotLog_append, slotLog_slot, if_neg (by omega), List.nil_append,
      show k + (i + 1) = k + 1 + i by omega]
    exact slotLog_workSlots cl (k + 1) i hs

/-- `client_new` touches one slot, and that one was empty. -/
theorem workAccept_slot (w : WorkInput) {cl : List (Option (Client N))} {i : Nat}
    {s : Option (Client N)} (hs : cl[i]? = some s) :
    ∃ a, (workAccept w cl).1[i]? = some (slotAccept a s).1 ∧
      slotLog i (workAccept w cl).2 = (slotAccept a s).2 := by
  have hkeep : ∀ s : Option (Client N), slotAccept none s = (s, []) := by
    rintro (_ | c) <;> rfl
  unfold workAccept
  cases w.accept with
  | none => exact ⟨none, by rw [hkeep]; exact hs, by rw [hkeep]; rfl⟩
  | some socket =>
    simp only [clientNew]
    cases hfree : freeSlot cl with
    | none => exact ⟨none, by rw [hkeep]; exact hs, by rw [hkeep]; rfl⟩
    | some j =>
      by_cases hj : j = i
      · -- the slot that was found is empty
        subst hj
        obtain ⟨hlt, hnone, -⟩ := List.findIdx?_eq_some_iff_getElem.mp hfree
        rw [List.getElem?_eq_getElem hlt, Option.some.injEq] at hs
        rw [hs, Option.isNone_iff_eq_none] at hnone
        subst hnone
        refine ⟨some socket, ?_, ?_⟩
        · rw [List.getElem?_set_self hlt]
          rfl
        · exact (slotLog_slot j j [.accept socket, .fdSet [.read, .except]]).trans (if_pos rfl)
      · refine ⟨none, ?_, ?_⟩
        · rw [hkeep, List.getElem?_set_ne hj]
          exact hs
        · rw [hkeep]
          exact (slotLog_slot i j [.accept socket, .fdSet [.read, .except]]).trans (if_neg hj)

/-- **An iteration of the server is one step in each slot.** -/
theorem work_slot (w : WorkInput) {cl : List (Option (Client N))} {i : Nat}
    {s : Option (Client N)} (hs : cl[i]? = some s) :
    ∃ a, (work ctx w cl).1[i]? = some (slotStep ctx ⟨a, w.client i⟩ s).1 ∧
      slotLog i (work ctx w cl).2 = (slotStep ctx ⟨a, w.client i⟩ s).2 := by
  obtain ⟨a, hstate, hlog⟩ := workAccept_slot w hs
  have hslots := slotLog_workSlots ctx w.client _ 0 i hstate
  rw [Nat.zero_add] at hslots
  refine ⟨a, ?_, ?_⟩
  · rw [work, workSlots_getElem?, hstate, Nat.zero_add]
    rfl
  · rw [work, slotLog_append, hlog, hslots]
    rfl

/-- **A run of the server is one run in each slot.** -/
theorem run_slot (ws : List WorkInput) : ∀ {cl : List (Option (Client N))} {i : Nat}
    {s : Option (Client N)}, cl[i]? = some s →
    ∃ xs : List SlotInput, xs.map SlotInput.inp = ws.map (fun w => w.client i) ∧
      (run (work ctx) ws cl).1[i]? = some (run (slotStep ctx) xs s).1 ∧
      slotLog i (run (work ctx) ws cl).2 = (run (slotStep ctx) xs s).2 := by
  induction ws with
  | nil => intro cl i s hs; exact ⟨[], rfl, hs, rfl⟩
  | cons w ws ih =>
    intro cl i s hs
    obtain ⟨a, hstate, hlog⟩ := work_slot ctx w hs
    obtain ⟨xs, hinp, hstate', hlog'⟩ := ih hstate
    refine ⟨⟨a, w.client i⟩ :: xs, ?_, hstate', ?_⟩
    · rw [List.map_cons, List.map_cons, hinp]
    · rw [run, slotLog_append, hlog, hlog']
      rfl

end

/-! ## Every reachable state -/

section

variable {ctx : Context}

theorem slotWork_deleted {inp : Input} {c : Client N} (h : (clientWork ctx inp c).result < 0) :
    slotWork ctx inp (some c)
      = (none, (clientWork ctx inp c).events
          ++ [.fdClr [.read, .write, .except, .intr], .closesocket]) :=
  if_pos h

theorem slotWork_kept {inp : Input} {c : Client N} (h : ¬ (clientWork ctx inp c).result < 0) :
    slotWork ctx inp (some c)
      = (some (clientWork ctx inp c).client, (clientWork ctx inp c).events) :=
  if_neg h

theorem Work.recv_pos {inp : Input} {c : Client N} {o : Out N} (h : Work ctx inp c o) {len : Nat}
    {r : Recv} (hr : .recv len r ∈ o.events) : 0 < len := by
  cases h with
  | disconnected _ => cases hr
  | idle _ ha _ | accumulate _ ha _ _ _ _ | overflow _ ha _ _ _ _ | rejected _ ha _ _ _ _ _ =>
    have hroom := ha.room
    simp only [List.mem_cons, Event.recv.injEq, List.not_mem_nil, or_false, errorEvent,
      reduceCtorEq] at hr
    omega
  | request _ ha _ _ _ _ _ hs =>
    have hroom := ha.room
    simp only [List.mem_cons, Event.recv.injEq, reduceCtorEq, false_or] at hr
    rcases hr with hr | hr
    · omega
    · cases hs.isResponse _ hr
  | sendFile _ hs =>
    obtain ⟨tail, htail, hall⟩ := cmdGetSendfile_events inp none hs.serving.selected
    rw [htail, sendfileHeader, if_pos hs.header, List.nil_append] at hr
    cases hall _ hr
  | bodyNone _ _ hlt _ =>
    have := N.rxBuf_pos
    simp only [List.mem_cons, Event.recv.injEq, List.not_mem_nil, or_false] at hr
    omega
  | bodyChunk _ hv hdata hne hle _ =>
    have := N.rxBuf_pos
    have := List.length_pos_iff_ne_nil.mpr hne
    simp only [List.mem_cons, Event.recv.injEq, List.not_mem_nil, or_false] at hr
    rcases hr with hr | hr
    · omega
    · rw [chunkEvent, callEvent] at hr
      split at hr <;> cases hr
  | bodyReply _ _ =>
    rw [List.mem_append, List.mem_singleton] at hr
    rcases hr with hr | hr
    · cases replyEvents_isResponse _ _ _ _ _ _ hr
    · cases hr

/-- The invariant of a slot. -/
def SlotInv (ctx : Context) (s : Option (Client N)) : Prop := ∀ c, s = some c → ClientInv ctx c

theorem slotWork_inv {inp : Input} {s : Option (Client N)} (h : SlotInv ctx s) :
    SlotInv ctx (slotWork ctx inp s).1 := by
  cases s with
  | none => exact h
  | some c =>
    by_cases hneg : (clientWork ctx inp c).result < 0
    · rw [slotWork_deleted hneg]
      exact fun _ hc => (nomatch hc)
    · rw [slotWork_kept hneg]
      intro d hd
      rw [← Option.some.inj hd]
      exact (clientWork_work (h c rfl) inp).inv (h c rfl)

theorem slotAccept_inv {a : Option Nat} {s : Option (Client N)} (h : SlotInv ctx s) :
    SlotInv ctx (slotAccept a s).1 := by
  unfold slotAccept
  split
  · intro c hc
    rw [← Option.some.inj hc]
    exact Or.inl ⟨[], awaiting_new N _⟩
  · exact h

theorem slotStep_inv (x : SlotInput) {s : Option (Client N)} (h : SlotInv ctx s) :
    SlotInv ctx (slotStep ctx x s).1 :=
  slotWork_inv (slotAccept_inv h)

theorem slotRun_inv (xs : List SlotInput) : SlotInv ctx (slotRun N ctx xs).1 :=
  run_inv (slotStep ctx) (P := fun s _ => SlotInv ctx s) (fun x _ _ h => slotStep_inv x h)
    (by rintro _ ⟨⟩) xs

/-- The events around the calls of `client_work`. -/
def Event.isSlot : Event → Bool
  | .accept _ | .closesocket | .fdSet _ | .fdClr _ => true
  | _ => false

/-- What holds of every event of a call holds of every event in a slot. -/
theorem slotStep_forall {P : Event → Prop} (hslot : ∀ e : Event, e.isSlot = true → P e)
    (hwork : ∀ {inp : Input} {c : Client N} {o : Out N}, Work ctx inp c o → ∀ e ∈ o.events, P e)
    (x : SlotInput) {s : Option (Client N)} (h : SlotInv ctx s) :
    ∀ e ∈ (slotStep ctx x s).2, P e := by
  have haccept : ∀ e ∈ (slotAccept x.accept s).2, P e := by
    unfold slotAccept
    split
    · rw [List.forall_mem_cons, List.forall_mem_singleton]
      exact ⟨hslot _ rfl, hslot _ rfl⟩
    · exact List.forall_mem_nil _
  have hinv : SlotInv ctx (slotAccept x.accept s).1 := slotAccept_inv h
  unfold slotStep
  rw [List.forall_mem_append]
  refine ⟨haccept, ?_⟩
  cases hs : (slotAccept x.accept s).1 with
  | none => exact List.forall_mem_nil _
  | some c =>
    have hall := hwork (clientWork_work (hinv c hs) x.inp)
    by_cases hneg : (clientWork ctx x.inp c).result < 0
    · rw [slotWork_deleted hneg, List.forall_mem_append, List.forall_mem_cons,
        List.forall_mem_singleton]
      exact ⟨hall, hslot _ rfl, hslot _ rfl⟩
    · rw [slotWork_kept hneg]
      exact hall

theorem slotRun_forall {P : Event → Prop} (hslot : ∀ e : Event, e.isSlot = true → P e)
    (hwork : ∀ {inp : Input} {c : Client N} {o : Out N}, Work ctx inp c o → ∀ e ∈ o.events, P e)
    (xs : List SlotInput) : ∀ e ∈ (slotRun N ctx xs).2, P e := by
  refine (run_inv (slotStep ctx) (P := fun s log => SlotInv ctx s ∧ ∀ e ∈ log, P e)
    (fun x s log h => ⟨slotStep_inv x h.1, ?_⟩) ⟨by rintro _ ⟨⟩, by rintro _ ⟨⟩⟩ xs).2
  rw [List.forall_mem_append]
  exact ⟨h.2, slotStep_forall hslot hwork x h.1⟩

theorem workSlots_length (inp : Nat → Input) : ∀ (cl : List (Option (Client N))) (k : Nat),
    (workSlots ctx inp k cl).1.length = cl.length
  | [], _ => rfl
  | s :: cl, k => by rw [workSlots, List.length_cons, workSlots_length inp cl, List.length_cons]

theorem workAccept_length (w : WorkInput) (cl : List (Option (Client N))) :
    (workAccept w cl).1.length = cl.length := by
  unfold workAccept clientNew
  split
  · split
    · exact List.length_set
    · rfl
  · rfl

theorem work_length (w : WorkInput) (cl : List (Option (Client N))) :
    (work ctx w cl).1.length = cl.length := by
  rw [work, workSlots_length, workAccept_length]

theorem server_length (N : NetConfig) (ctx : Context) (ws : List WorkInput) :
    (server N ctx ws).1.length = ctx.maxClients :=
  run_inv (work ctx) (P := fun cl _ => cl.length = ctx.maxClients)
    (fun w cl _ h => (work_length w cl).trans h) List.length_replicate ws

/-- Every slot of a running server was empty at first and then ran on its own. -/
theorem server_slot (ws : List WorkInput) {i : Nat} {s : Option (Client N)}
    (hs : (server N ctx ws).1[i]? = some s) :
    ∃ xs : List SlotInput, s = (slotRun N ctx xs).1 ∧
      slotLog i (server N ctx ws).2 = (slotRun N ctx xs).2 := by
  have hi : i < ctx.maxClients := by
    rw [← server_length N ctx ws]
    exact (List.getElem?_eq_some_iff.mp hs).1
  obtain ⟨xs, -, hstate, hlog⟩ := run_slot ctx ws (List.getElem?_replicate_of_lt hi)
  exact ⟨xs, Option.some.inj (hs.symm.trans hstate), hlog⟩

theorem server_inv (ws : List WorkInput) {i : Nat} {c : Client N}
    (hs : (server N ctx ws).1[i]? = some (some c)) : ClientInv ctx c := by
  obtain ⟨xs, hstate, -⟩ := server_slot ws hs
  exact slotRun_inv xs c hstate.symm

/-- What holds of every event of a call holds of every event in the server. -/
theorem server_forall {P : Event → Prop} (hslot : ∀ e : Event, e.isSlot = true → P e)
    (hwork : ∀ {inp : Input} {c : Client N} {o : Out N}, Work ctx inp c o → ∀ e ∈ o.events, P e)
    (ws : List WorkInput) {i : Nat} (hi : i < ctx.maxClients) :
    ∀ e ∈ slotLog i (server N ctx ws).2, P e := by
  rw [← server_length N ctx ws] at hi
  obtain ⟨xs, -, hlog⟩ := server_slot ws (List.getElem?_eq_getElem hi)
  rw [hlog]
  exact slotRun_forall hslot hwork xs

end

/-- The three things a client in a slot can be doing. -/
inductive Phase where
  | awaiting
  | sending
  | receiving

/-- The phases in terms of the fields of a client. -/
def InPhase (ctx : Context) (c : Client N) : Phase → Prop
  | .awaiting => ∃ acc, Awaiting c acc
  | .sending => ∃ f off, Sending c f off
  | .receiving => ∃ h n off, Receiving ctx c h n off

/-- The command tells the phases apart. -/
theorem existsUnique_phase {ctx : Context} {c : Client N} (h : ClientInv ctx c) :
    ∃! p, InPhase ctx c p := by
  have hcmd : ∀ p, InPhase ctx c p → c.commandType =
      match p with | .awaiting => .unknown | .sending => .get | .receiving => .post := by
    rintro (_ | _ | _) hp
    · obtain ⟨_, ha⟩ := hp
      exact ha.command
    · obtain ⟨_, _, hs⟩ := hp
      exact hs.command
    · obtain ⟨_, _, _, hv⟩ := hp
      exact hv.command
  have hex : ∃ p, InPhase ctx c p := by
    rcases h with h | h | h
    · exact ⟨.awaiting, h⟩
    · exact ⟨.sending, h⟩
    · exact ⟨.receiving, h⟩
  obtain ⟨p, hp⟩ := hex
  refine ⟨p, hp, fun q hq => ?_⟩
  have heq := (hcmd q hq).symm.trans (hcmd p hp)
  cases p <;> cases q <;> first | rfl | cases heq

/-- No subtraction that the code makes on a client in a slot underflows. -/
theorem ClientInv.no_underflow {ctx : Context} {c : Client N} (h : ClientInv ctx c) :
    c.rxLen < N.rxBuf ∧ c.fileOffset ≤ c.contentLength ∧ c.contentLength < 2 ^ 32 ∧
      ∀ f, c.file = some f → Selected c f := by
  have hpos := N.rxBuf_pos
  rcases h with ⟨acc, ha⟩ | ⟨f, off, hs⟩ | ⟨g, n, off, hv⟩
  · rw [ha.rxLen, ha.offset, ha.length, ha.file]
    exact ⟨ha.room, Nat.le_refl _, by decide, fun _ hf => (nomatch hf)⟩
  · have hrest := hs.rest
    rw [hs.rxLen, hs.offset, hs.length]
    refine ⟨hpos, by omega, f.size_lt, fun g hg => ?_⟩
    rw [hs.file, Option.some.injEq] at hg
    exact hg ▸ hs.serving.selected
  · rw [hv.rxLen, hv.offset, hv.length, hv.file]
    exact ⟨hpos, hv.le, hv.lt, fun _ hf => (nomatch hf)⟩

/--
**The client state invariant.** In every reachable state every client in a slot is in exactly
one phase. The lengths the code computes from it are the true differences, also at every point
of the file loop, and no receive was ever issued with length 0.
-/
theorem client_state_invariant (N : NetConfig) (ctx : Context) (ws : List WorkInput) :
    (∀ (i : Nat) (c : Client N), (server N ctx ws).1[i]? = some (some c) →
      (∃! p, InPhase ctx c p) ∧
        u32Sub N.rxBuf c.rxLen + c.rxLen = N.rxBuf ∧
        u32Sub c.contentLength c.fileOffset + c.fileOffset = c.contentLength ∧
        ∀ f, c.file = some f → u32Sub f.size c.fileOffset + c.fileOffset = f.size ∧
          ∀ inp k, u32Sub f.size (sendfileAfter inp c f none k).client.fileOffset
            + (sendfileAfter inp c f none k).client.fileOffset = f.size) ∧
      ∀ (i len : Nat) (r : Recv), i < ctx.maxClients →
        .recv len r ∈ slotLog i (server N ctx ws).2 → 0 < len := by
  constructor
  · intro i c hs
    have hinv := server_inv ws hs
    obtain ⟨hrx, hoff, hlen, hfile⟩ := hinv.no_underflow
    have hmax := N.rxBuf_lt
    refine ⟨existsUnique_phase hinv, ?_, ?_, fun f hf => ?_⟩
    · rw [u32Sub_of_le (by omega) (by omega)]
      omega
    · rw [u32Sub_of_le hoff hlen]
      omega
    · have hsel := hfile f hf
      have hsize : f.size < 2 ^ 32 := f.size_lt
      refine ⟨?_, fun inp k => ?_⟩
      · rw [u32Sub_of_le hsel.le hsize]
        exact Nat.sub_add_cancel hsel.le
      · have hle := (sendfileAfter_serving inp none hsel k).1.le
        rw [u32Sub_of_le hle hsize]
        exact Nat.sub_add_cancel hle
  · intro i len r hi hr
    refine server_forall (P := fun e => ∀ len r, e = .recv len r → 0 < len) ?_ ?_ ws hi _ hr
      len r rfl
    · rintro e he len r rfl
      cases he
    · rintro inp c o hw e he len r rfl
      exact hw.recv_pos he

end UniNet.Http
