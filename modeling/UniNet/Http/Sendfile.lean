import Mathlib.Data.List.Chain
import UniNet.Infra.Run
import UniNet.Http.Step

/-!
# Sending a file

`cmd_get_sendfile` sends as much of a file as the stack has room for, remembers the offset and
is called again later. The loop is looked at round by round: `sendfileRound_cases` says what a
round does, and everything about a call follows by going through its rounds.

* `sendfileLoop_ends` — the loop ends by itself, whatever the stack answers
* `cmdGetSendfile_client` — afterwards the client is cleared or still sending
* `sendfile_exact` — the bytes queued over any number of calls are the file up to the offset
-/

namespace UniNet.Http

open Infra

variable {N : NetConfig}

/-! ## Rounds -/

/-- A client that has `f` selected and has sent the header for it. -/
structure Serving (c : Client N) (f : HttpFile) : Prop where
  command : c.commandType = .get
  file : c.file = some f
  handler : c.handler = none
  header : c.headerSent = true
  length : c.contentLength = f.size
  le : c.fileOffset ≤ f.size

theorem Sending.serving {c : Client N} {f : HttpFile} {off : Nat} (h : Sending c f off) :
    Serving c f where
  command := h.command
  file := h.file
  handler := h.handler
  header := h.header
  length := h.length
  le := by
    have := h.rest
    have := h.offset
    omega

section

variable {inp : Input} {f : HttpFile} {s : SendLoop N}

/-- **What a round does**: nothing when there is nothing to send or no room, otherwise the
next `k` bytes of the file go out. -/
theorem sendfileRound_cases (inp : Input) (hoff : s.client.fileOffset ≤ f.size) :
    (s.count inp f = 0 ∧ sendfileRound inp f s
        = ({ s with idx := s.idx + 1, events := s.events ++ [.txSpace (inp.txSpace s.idx)] },
            false)) ∨
      ∃ k b, 0 < k ∧ k ≤ u32OfInt (inp.txSpace s.idx) ∧ s.client.fileOffset + k ≤ f.size ∧
        sendfileRound inp f s
          = ({ client := { s.client with bufTx := b, fileOffset := s.client.fileOffset + k }
               result := inp.send (s.idx + 1)
               idx := s.idx + 1
               events := s.events ++ [.txSpace (inp.txSpace s.idx),
                 .send ((f.data.drop s.client.fileOffset).take k) (inp.send (s.idx + 1))] },
              decide (0 ≤ inp.send (s.idx + 1))) := by
  unfold sendfileRound
  have hsize : f.size < 2 ^ 32 := f.size_lt
  have hcount : s.count inp f
      = min (u32OfInt (inp.txSpace s.idx)) (min (f.size - s.client.fileOffset) N.txBuf) := by
    unfold SendLoop.count
    rw [u32Sub_of_le hoff hsize]
  generalize s.count inp f = k at hcount
  by_cases hk : 0 < k
  · rw [if_pos hk]
    refine Or.inr ⟨k, s.client.bufTx.write 0 ((f.data.drop s.client.fileOffset).take k), hk,
      by omega, by omega, ?_⟩
    have hlen : ((f.data.drop s.client.fileOffset).take k).length = k := by
      have : f.size = f.data.length := rfl
      rw [List.length_take, List.length_drop]
      omega
    -- what goes out is what was just copied to `buf_tx`
    have hslice := s.client.bufTx.slice_write (hlen.trans_le (show k ≤ N.txBuf by omega))
    rw [hlen] at hslice
    simp only [hslice, u32_of_lt (show s.client.fileOffset + k < 2 ^ 32 by omega)]
  · exact Or.inl ⟨by omega, by rw [if_neg hk]⟩

/-- What every round keeps holds after any number of them. -/
theorem sendfileLoop_inv {P : SendLoop N → Prop}
    (hround : ∀ s, P s → P (sendfileRound inp f s).1) :
    ∀ (k : Nat) (s : SendLoop N), P s → P (sendfileLoop inp f k s).1
  | 0, _, hs => hs
  | k + 1, s, hs => by
    rw [sendfileLoop]
    split
    · exact sendfileLoop_inv hround k _ (hround s hs)
    · exact hround s hs

theorem sendfileRound_serving (inp : Input) (hs : Serving s.client f) :
    Serving (sendfileRound inp f s).1.client f ∧
      (sendfileRound inp f s).1.client.rxLen = s.client.rxLen := by
  rcases sendfileRound_cases inp hs.le with ⟨-, h⟩ | ⟨k, b, -, -, hle, h⟩
  · rw [h]
    exact ⟨hs, rfl⟩
  · rw [h]
    exact ⟨⟨hs.command, hs.file, hs.handler, hs.header, hs.length, hle⟩, rfl⟩

/-- **The `do` loop terminates.** A round that is followed by another one has moved the offset,
so more rounds than bytes are left are never needed. -/
theorem sendfileLoop_ends : ∀ (k : Nat) (s : SendLoop N), s.client.fileOffset ≤ f.size →
    f.size - s.client.fileOffset < k → (sendfileLoop inp f k s).2 = true
  | 0, _, _, hk => by omega
  | k + 1, s, hoff, hk => by
    rw [sendfileLoop]
    rcases sendfileRound_cases inp hoff with ⟨-, h⟩ | ⟨m, b, hpos, -, hle, h⟩
    · rw [h]
      rfl
    · rw [h]
      split
      · exact sendfileLoop_ends k _ hle (by simp only []; omega)
      · rfl

end

/-! ## A call -/

/-- A client that has `f` selected, before or after the header. -/
structure Selected (c : Client N) (f : HttpFile) : Prop where
  command : c.commandType = .get
  file : c.file = some f
  handler : c.handler = none
  length : c.headerSent = true → c.contentLength = f.size
  le : c.fileOffset ≤ f.size

theorem Serving.selected {c : Client N} {f : HttpFile} (h : Serving c f) : Selected c f :=
  ⟨h.command, h.file, h.handler, fun _ => h.length, h.le⟩

/-- The loop variables in front of the first round. -/
def sendfileEnter (inp : Input) (c : Client N) (f : HttpFile) (url : Option CString) :
    SendLoop N where
  client := (sendfileHeader inp c f url).client
  result := (sendfileHeader inp c f url).result
  idx := 0
  events := (sendfileHeader inp c f url).events

/-- The loop variables when the loop has been through its first `k` rounds. -/
def sendfileAfter (inp : Input) (c : Client N) (f : HttpFile) (url : Option CString) (k : Nat) :
    SendLoop N :=
  (sendfileLoop inp f k (sendfileEnter inp c f url)).1

theorem cmdGetSendfile_eq (inp : Input) (c : Client N) (f : HttpFile) (url : Option CString) :
    cmdGetSendfile inp c f url
      = sendfileFinish f
          (if 0 ≤ (sendfileHeader inp c f url).result then sendfileAfter inp c f url (f.size + 1)
            else sendfileEnter inp c f url) := by
  unfold cmdGetSendfile
  by_cases h : 0 ≤ (sendfileHeader inp c f url).result
  · simp only [if_pos h]
    rfl
  · simp only [if_neg h]
    rfl

section

variable {inp : Input} {c : Client N} {f : HttpFile} {url : Option CString}

theorem sendfileHeader_serving (inp : Input) (url : Option CString) (hc : Selected c f) :
    Serving (sendfileHeader inp c f url).client f ∧
      (sendfileHeader inp c f url).client.fileOffset = c.fileOffset ∧
      (sendfileHeader inp c f url).client.rxLen = c.rxLen := by
  unfold sendfileHeader
  split
  · next hsent => exact ⟨⟨hc.command, hc.file, hc.handler, hsent, hc.length hsent, hc.le⟩, rfl, rfl⟩
  · exact ⟨⟨hc.command, hc.file, hc.handler, rfl, rfl, hc.le⟩, rfl, rfl⟩

theorem sendfileAfter_serving (inp : Input) (url : Option CString) (hc : Selected c f) (k : Nat) :
    Serving (sendfileAfter inp c f url k).client f ∧
      (sendfileAfter inp c f url k).client.rxLen = c.rxLen := by
  obtain ⟨hs, -, hrx⟩ := sendfileHeader_serving inp url hc
  refine sendfileLoop_inv (P := fun s => Serving s.client f ∧ s.client.rxLen = c.rxLen)
    (fun s hs => ?_) k _ ⟨hs, hrx⟩
  obtain ⟨hserv, hlen⟩ := sendfileRound_serving inp hs.1
  exact ⟨hserv, hlen.trans hs.2⟩

theorem sendfileFinish_result (f : HttpFile) (s : SendLoop N) :
    (sendfileFinish f s).result = s.result := by
  unfold sendfileFinish
  split <;> rfl

theorem sendfileFinish_client (f : HttpFile) (s : SendLoop N) :
    (f.size ≤ s.client.fileOffset ∧ (sendfileFinish f s).client = s.client.clear) ∨
      (s.client.fileOffset < f.size ∧ (sendfileFinish f s).client = s.client) := by
  unfold sendfileFinish
  split
  · next h => exact Or.inl ⟨h, rfl⟩
  · next h => exact Or.inr ⟨by omega, rfl⟩

/-- **Afterwards the client is cleared, or it is still sending.** -/
theorem cmdGetSendfile_client (inp : Input) (url : Option CString) (hc : Selected c f) :
    (∃ d : Client N, (cmdGetSendfile inp c f url).client = d.clear) ∨
      (Serving (cmdGetSendfile inp c f url).client f ∧
        (cmdGetSendfile inp c f url).client.fileOffset < f.size ∧
        (cmdGetSendfile inp c f url).client.rxLen = c.rxLen) := by
  rw [cmdGetSendfile_eq]
  generalize hs : (if 0 ≤ (sendfileHeader inp c f url).result then
    sendfileAfter inp c f url (f.size + 1) else sendfileEnter inp c f url) = s
  have hserv : Serving s.client f ∧ s.client.rxLen = c.rxLen := by
    rw [← hs]
    split
    · exact sendfileAfter_serving inp url hc _
    · exact ⟨(sendfileHeader_serving inp url hc).1, (sendfileHeader_serving inp url hc).2.2⟩
  rcases sendfileFinish_client f s with ⟨-, h⟩ | ⟨hlt, h⟩
  · exact Or.inl ⟨_, h⟩
  · rw [h]
    exact Or.inr ⟨hserv.1, hlt, hserv.2⟩

end

/-! ## What has been queued -/

/-- The response data that the stack has taken over with an event. -/
def Event.queued : Event → Bytes
  | .send data result => data.take result.toNat
  | _ => []

/-- The response data behind the headers, as far as the stack has taken it over. -/
def queued (log : List Event) : Bytes := log.flatMap Event.queued

theorem queued_append (l m : List Event) : queued (l ++ m) = queued l ++ queued m :=
  List.flatMap_append

/-- A send that fits into the space that was just reported queues all of its bytes. -/
def SpaceKept (a b : Event) : Prop :=
  match a, b with
  | .txSpace space, .send data result => data.length ≤ u32OfInt space → result = data.length
  | _, _ => True

instance (a b : Event) : Decidable (SpaceKept a b) := by
  unfold SpaceKept
  split <;> infer_instance

section

variable {inp : Input} {c : Client N} {f : HttpFile} {url : Option CString} {log : List Event}

/-- A round keeps the queued bytes in step with the offset. -/
theorem sendfileRound_queued {s : SendLoop N} (hs : Serving s.client f)
    (hq : (log ++ s.events).IsChain SpaceKept →
      queued (log ++ s.events) = f.data.take s.client.fileOffset)
    (hlaw : (log ++ (sendfileRound inp f s).1.events).IsChain SpaceKept) :
    queued (log ++ (sendfileRound inp f s).1.events)
      = f.data.take (sendfileRound inp f s).1.client.fileOffset := by
  rcases sendfileRound_cases inp hs.le with ⟨-, h⟩ | ⟨k, b, -, hspace, hle, h⟩
  · simp only [h, ← List.append_assoc] at hlaw ⊢
    rw [queued_append, hq hlaw.left_of_append]
    exact List.append_nil _
  · simp only [h, ← List.append_assoc] at hlaw ⊢
    have hlen : ((f.data.drop s.client.fileOffset).take k).length = k := by
      have : f.size = f.data.length := rfl
      rw [List.length_take, List.length_drop]
      omega
    have hkept : SpaceKept (.txSpace (inp.txSpace s.idx))
        (.send ((f.data.drop s.client.fileOffset).take k) (inp.send (s.idx + 1))) :=
      (List.isChain_cons_cons.mp hlaw.right_of_append).1
    have hall := hkept (by omega)
    rw [hlen] at hall
    rw [queued_append, hq hlaw.left_of_append, List.take_add]
    congr 1
    simp only [queued, List.flatMap_cons, List.flatMap_nil, Event.queued, hall, Int.toNat_natCast,
      List.append_nil, List.nil_append, List.take_take, Nat.min_self]

theorem sendfileHeader_queued : queued (sendfileHeader inp c f url).events = [] := by
  unfold sendfileHeader
  split <;> rfl

/-- **At every point of the loop the queued bytes are the file up to the offset.** -/
theorem sendfileAfter_queued (hc : Selected c f) (hq : queued log = f.data.take c.fileOffset)
    (k : Nat) (hlaw : (log ++ (sendfileAfter inp c f url k).events).IsChain SpaceKept) :
    queued (log ++ (sendfileAfter inp c f url k).events)
      = f.data.take (sendfileAfter inp c f url k).client.fileOffset := by
  obtain ⟨hs, hoff, -⟩ := sendfileHeader_serving inp url hc
  refine (sendfileLoop_inv (P := fun s => Serving s.client f ∧
    ((log ++ s.events).IsChain SpaceKept →
      queued (log ++ s.events) = f.data.take s.client.fileOffset))
    (fun s hs => ⟨(sendfileRound_serving inp hs.1).1, sendfileRound_queued hs.1 hs.2⟩) k _
    ⟨hs, fun _ => ?_⟩).2 hlaw
  show queued (log ++ (sendfileHeader inp c f url).events) = _
  rw [queued_append, sendfileHeader_queued, List.append_nil, hq]
  exact congrArg (fun n => f.data.take n) hoff.symm

/-- What the code does once the header is out: nothing but moving data. -/
def Event.isTransfer : Event → Bool
  | .txSpace _ | .send _ _ | .fdSet _ | .fdClr _ => true
  | _ => false

theorem sendfileRound_events (inp : Input) {s : SendLoop N} (hs : Serving s.client f) :
    ∃ new, (sendfileRound inp f s).1.events = s.events ++ new ∧
      ∀ e ∈ new, e.isTransfer = true := by
  rcases sendfileRound_cases inp hs.le with ⟨-, h⟩ | ⟨m, b, -, -, -, h⟩
  · rw [h]
    exact ⟨_, rfl, by rw [List.forall_mem_singleton]; rfl⟩
  · rw [h]
    exact ⟨_, rfl, by rw [List.forall_mem_cons, List.forall_mem_singleton]; exact ⟨rfl, rfl⟩⟩

theorem sendfileAfter_events (inp : Input) (url : Option CString) (hc : Selected c f) (k : Nat) :
    ∃ tail, (sendfileAfter inp c f url k).events = (sendfileHeader inp c f url).events ++ tail ∧
      ∀ e ∈ tail, e.isTransfer = true := by
  obtain ⟨hs, -, -⟩ := sendfileHeader_serving inp url hc
  refine (sendfileLoop_inv (P := fun s => Serving s.client f ∧
    ∃ tail, s.events = (sendfileHeader inp c f url).events ++ tail ∧
      ∀ e ∈ tail, e.isTransfer = true)
    (fun s hs => ⟨(sendfileRound_serving inp hs.1).1, ?_⟩) k _
    ⟨hs, [], (List.append_nil _).symm, by simp⟩).2
  obtain ⟨hserv, tail, htail, hall⟩ := hs
  obtain ⟨new, hnew, hn⟩ := sendfileRound_events inp hserv
  refine ⟨tail ++ new, by rw [hnew, htail, List.append_assoc], ?_⟩
  rw [List.forall_mem_append]
  exact ⟨hall, hn⟩

/-- The first thing the loop does is to ask for the space. -/
theorem sendfileAfter_asks (inp : Input) (url : Option CString) (hc : Selected c f) (k : Nat) :
    ∃ rest, (sendfileAfter inp c f url (k + 1)).events
      = (sendfileHeader inp c f url).events ++ .txSpace (inp.txSpace 0) :: rest := by
  obtain ⟨hs, -, -⟩ := sendfileHeader_serving inp url hc
  have hround : ∃ rest, (sendfileRound inp f (sendfileEnter inp c f url)).1.events
      = (sendfileHeader inp c f url).events ++ .txSpace (inp.txSpace 0) :: rest := by
    rcases sendfileRound_cases inp (s := sendfileEnter inp c f url) hs.le with
      ⟨-, h⟩ | ⟨m, b, -, -, -, h⟩
    · rw [h]
      exact ⟨_, rfl⟩
    · rw [h]
      exact ⟨_, rfl⟩
  have hserv := (sendfileRound_serving inp (s := sendfileEnter inp c f url) hs).1
  rw [sendfileAfter, sendfileLoop]
  split
  · refine (sendfileLoop_inv (P := fun s => Serving s.client f ∧ ∃ rest, s.events
      = (sendfileHeader inp c f url).events ++ .txSpace (inp.txSpace 0) :: rest)
      (fun s hs => ⟨(sendfileRound_serving inp hs.1).1, ?_⟩) k _ ⟨hserv, hround⟩).2
    obtain ⟨hserv, rest, hrest⟩ := hs
    obtain ⟨new, hnew, -⟩ := sendfileRound_events inp hserv
    exact ⟨rest ++ new, by rw [hnew, hrest, List.append_assoc, List.cons_append]⟩
  · exact hround

theorem sendfileFinish_events (f : HttpFile) (s : SendLoop N) :
    ∃ e, (sendfileFinish f s).events = s.events ++ [e] ∧ e.isTransfer = true ∧ e.queued = [] := by
  unfold sendfileFinish
  split
  · exact ⟨_, rfl, rfl, rfl⟩
  · exact ⟨_, rfl, rfl, rfl⟩

/-- **A call sends the header at most once, in front of everything else.** -/
theorem cmdGetSendfile_events (inp : Input) (url : Option CString) (hc : Selected c f) :
    ∃ tail, (cmdGetSendfile inp c f url).events = (sendfileHeader inp c f url).events ++ tail ∧
      ∀ e ∈ tail, e.isTransfer = true := by
  rw [cmdGetSendfile_eq]
  split
  · obtain ⟨e, he, htr, -⟩ := sendfileFinish_events f (sendfileAfter inp c f url (f.size + 1))
    obtain ⟨tail, htail, hall⟩ := sendfileAfter_events inp url hc (f.size + 1)
    refine ⟨tail ++ [e], by rw [he, htail, List.append_assoc], ?_⟩
    rw [List.forall_mem_append, List.forall_mem_singleton]
    exact ⟨hall, htr⟩
  · obtain ⟨e, he, htr, -⟩ := sendfileFinish_events f (sendfileEnter inp c f url)
    exact ⟨[e], he, by rw [List.forall_mem_singleton]; exact htr⟩

end

/-! ## The whole transfer -/

/-- A call of `cmd_get_next` as a step of a run. -/
def getNext (inp : Input) (c : Client N) : Client N × List Event :=
  ((cmdGetNext inp c).client, (cmdGetNext inp c).events)

/--
A transfer of `f` between two calls. Either all of it has been queued and the client is
cleared, or the client will send on from the offset.
-/
structure Transfer (f : HttpFile) (c : Client N) (log : List Event) : Prop where
  /-- the header was sent once, in front of everything else -/
  header : ∃ hdr r tail, log = .sendHeader .ok f.size hdr r :: tail ∧
    ∀ e ∈ tail, e.isTransfer = true
  progress : log.IsChain SpaceKept →
    (c.Cleared ∧ queued log = f.data) ∨
      (Serving c f ∧ c.fileOffset < f.size ∧ queued log = f.data.take c.fileOffset)
  client : c.Cleared ∨ (Serving c f ∧ c.fileOffset < f.size)

/-- A call from a client with `f` selected, at any point of its loop. -/
def LoopExact (f : HttpFile) (c : Client N) (url : Option CString) (log : List Event) : Prop :=
  ∀ inp : Input, (sendfileLoop inp f (f.size + 1) (sendfileEnter inp c f url)).2 = true ∧
    ∀ k, (sendfileAfter inp c f url k).client.fileOffset ≤ f.size ∧
      ((log ++ (sendfileAfter inp c f url k).events).IsChain SpaceKept →
        queued (log ++ (sendfileAfter inp c f url k).events)
          = f.data.take (sendfileAfter inp c f url k).client.fileOffset)

section

variable {c : Client N} {f : HttpFile} {log : List Event}

theorem Client.Cleared.file_eq (h : c.Cleared) : c.file = none := by
  rw [← show c.clear = c from h]
  rfl

theorem Serving.not_cleared (h : Serving c f) : ¬ c.Cleared := by
  intro hc
  have := h.file
  rw [hc.file_eq] at this
  cases this

theorem loopExact (url : Option CString) (hc : Selected c f)
    (hq : log.IsChain SpaceKept → queued log = f.data.take c.fileOffset) :
    LoopExact f c url log := by
  intro inp
  obtain ⟨hs, -, -⟩ := sendfileHeader_serving inp url hc
  refine ⟨sendfileLoop_ends _ _ hs.le (by omega), fun k => ?_⟩
  refine ⟨(sendfileAfter_serving inp url hc k).1.le, fun hlaw => ?_⟩
  exact sendfileAfter_queued hc (hq hlaw.left_of_append) k hlaw

/-- A call whose header goes out takes the transfer to its next stop. -/
theorem cmdGetSendfile_progress (inp : Input) (url : Option CString) (hc : Selected c f)
    (hok : 0 ≤ (sendfileHeader inp c f url).result)
    (hq : log.IsChain SpaceKept → queued log = f.data.take c.fileOffset)
    (hlaw : (log ++ (cmdGetSendfile inp c f url).events).IsChain SpaceKept) :
    ((cmdGetSendfile inp c f url).client.Cleared ∧
        queued (log ++ (cmdGetSendfile inp c f url).events) = f.data) ∨
      (Serving (cmdGetSendfile inp c f url).client f ∧
        (cmdGetSendfile inp c f url).client.fileOffset < f.size ∧
        queued (log ++ (cmdGetSendfile inp c f url).events)
          = f.data.take (cmdGetSendfile inp c f url).client.fileOffset) := by
  rw [cmdGetSendfile_eq, if_pos hok] at hlaw ⊢
  obtain ⟨e, he, -, hnone⟩ := sendfileFinish_events f (sendfileAfter inp c f url (f.size + 1))
  rw [he, ← List.append_assoc] at hlaw ⊢
  have hqueued := sendfileAfter_queued hc (hq hlaw.left_of_append.left_of_append) _
    hlaw.left_of_append
  rw [queued_append, hqueued, show queued [e] = [] by simp [queued, hnone], List.append_nil]
  rcases sendfileFinish_client f (sendfileAfter inp c f url (f.size + 1)) with ⟨hle, h⟩ | ⟨hlt, h⟩
  · rw [h]
    exact Or.inl ⟨Client.cleared_clear _, List.take_of_length_le hle⟩
  · rw [h]
    exact Or.inr ⟨(sendfileAfter_serving inp url hc _).1, hlt, rfl⟩

theorem cmdGetSendfile_settled (inp : Input) (url : Option CString) (hc : Selected c f) :
    (cmdGetSendfile inp c f url).client.Cleared ∨
      (Serving (cmdGetSendfile inp c f url).client f ∧
        (cmdGetSendfile inp c f url).client.fileOffset < f.size) := by
  rcases cmdGetSendfile_client inp url hc with ⟨d, h⟩ | ⟨hs, hlt, -⟩
  · rw [h]
    exact Or.inl (Client.cleared_clear d)
  · exact Or.inr ⟨hs, hlt⟩

/-- `cmd_get_next` takes a transfer to its next stop, and leaves a finished one alone. -/
theorem Transfer.getNext (h : Transfer f c log) (inp : Input) :
    Transfer f (getNext inp c).1 (log ++ (getNext inp c).2) := by
  unfold Http.getNext cmdGetNext
  rcases h.client with hcl | ⟨hs, hlt⟩
  · simp only [hcl.file_eq, List.append_nil]
    exact h
  · simp only [hs.file]
    obtain ⟨hdr, r, tail, hlog, htail⟩ := h.header
    obtain ⟨new, hnew, hall⟩ := cmdGetSendfile_events inp none hs.selected
    -- the header is out, and the call goes straight to the loop
    have hnone : sendfileHeader inp c f none = ⟨0, c, []⟩ := by
      unfold sendfileHeader
      rw [if_pos hs.header]
    rw [hnone, List.nil_append] at hnew
    refine ⟨⟨hdr, r, tail ++ new, by rw [hnew, hlog, List.cons_append], ?_⟩, fun hlaw => ?_,
      cmdGetSendfile_settled inp none hs.selected⟩
    · rw [List.forall_mem_append]
      exact ⟨htail, hall⟩
    · refine cmdGetSendfile_progress inp none hs.selected (by rw [hnone]) (fun hl => ?_) hlaw
      rcases h.progress hl with ⟨hcl, -⟩ | ⟨-, -, hq⟩
      · exact absurd hcl hs.not_cleared
      · exact hq

/-- The first call, from `cmd_get_start`. -/
theorem transfer_start {ctx : Context} {url : CString} (inp : Input)
    (hhandler : c.handler = none) (hoff : c.fileOffset = 0) (hsent : c.headerSent = false)
    (hh : ctx.findHandler .get url = none) (hf : ctx.findFile url = some f)
    (hok : 0 ≤ inp.send 0) :
    Transfer f (cmdGetStart ctx inp c url).client (cmdGetStart ctx inp c url).events := by
  have hsel : Selected { c with commandType := .get, file := some f } f :=
    ⟨rfl, rfl, hhandler, fun h => absurd h (by simp only [hsent]; decide),
      by simp only [hoff]; omega⟩
  rw [cmdGetStart_file hh hhandler hf]
  have hhdr : ∃ hdr, (sendfileHeader inp { c with commandType := .get, file := some f } f
      (some url)).events = [.sendHeader .ok f.size hdr (inp.send 0)] ∧
      (sendfileHeader inp { c with commandType := .get, file := some f } f (some url)).result
        = inp.send 0 := by
    unfold sendfileHeader
    rw [if_neg (by simp only [hsent]; decide)]
    exact ⟨_, rfl, rfl⟩
  obtain ⟨hdr, hevents, hresult⟩ := hhdr
  obtain ⟨tail, htail, hall⟩ := cmdGetSendfile_events inp (some url) hsel
  rw [hevents] at htail
  refine ⟨⟨hdr, _, tail, htail, hall⟩, fun hlaw => ?_, cmdGetSendfile_settled inp _ hsel⟩
  have hnil : ([] : List Event).IsChain SpaceKept →
      queued [] = f.data.take { c with commandType := .get, file := some f }.fileOffset := by
    intro _
    simp only [hoff]
    rfl
  exact cmdGetSendfile_progress inp (some url) hsel (by rw [hresult]; exact hok) hnil hlaw

end

/--
**A file is transmitted exactly, whatever the transmit space.**

`inp` is what the stack answers during the call that starts the transfer, `inps` what it
answers during the later calls. Between two calls the header has been sent once and first, and
the bytes queued are the file up to the offset, or all of it, and exactly then the client is
cleared. The same holds at every point inside the loop of a call, and each loop ends.
-/
theorem sendfile_exact (ctx : Context) (c : Client N) (url : CString) (f : HttpFile)
    (hhandler : c.handler = none) (hoff : c.fileOffset = 0) (hsent : c.headerSent = false)
    (hh : ctx.findHandler .get url = none) (hf : ctx.findFile url = some f)
    (inp : Input) (hok : 0 ≤ inp.send 0) (inps : List Input) :
    let o := cmdGetStart ctx inp c url
    let d := (run getNext inps o.client).1
    let log := o.events ++ (run getNext inps o.client).2
    Transfer f d log ∧
      (log.IsChain SpaceKept → (d.Cleared ↔ (queued log).length = f.size)) ∧
      LoopExact f { c with commandType := .get, file := some f } (some url) [] ∧
      (¬ d.Cleared → LoopExact f d none log) := by
  intro o d log
  have htransfer : Transfer f d log :=
    run_inv_from getNext (fun i c log (_ : True) h => h.getNext i)
      (transfer_start inp hhandler hoff hsent hh hf hok) inps fun _ _ => trivial
  refine ⟨htransfer, fun hlaw => ?_, ?_, fun hcl => ?_⟩
  · rcases htransfer.progress hlaw with ⟨hcl, hq⟩ | ⟨hs, hlt, hq⟩
    · exact ⟨fun _ => congrArg List.length hq, fun _ => hcl⟩
    · have hlen : (queued log).length = d.fileOffset := by
        have : f.size = f.data.length := rfl
        rw [hq, List.length_take]
        omega
      exact ⟨fun hcl => absurd hcl hs.not_cleared, fun h => by omega⟩
  · refine loopExact _ ⟨rfl, rfl, hhandler, fun h => ?_, ?_⟩ fun _ => ?_
    · simp only [hsent] at h
      cases h
    · simp only [hoff]
      omega
    · simp only [hoff]
      rfl
  · rcases htransfer.client with h | ⟨hs, -⟩
    · exact absurd h hcl
    · refine loopExact _ hs.selected fun hlaw => ?_
      rcases htransfer.progress hlaw with ⟨h, -⟩ | ⟨-, -, hq⟩
      · exact absurd h hcl
      · exact hq

/-- A file of three bytes that goes out in two calls, two bytes first. -/
theorem sendfile_exact_in_two_calls :
    let f : HttpFile := ⟨CString.ofBytes (ascii "/a"), [1, 2, 3], by decide⟩
    let ctx : Context := ⟨⟨true, []⟩, ⟨true, [f]⟩, 1⟩
    let inp := { Input.idle with
      txSpace := fun k => if k = 0 then 2 else 0
      send := fun k => if k = 0 then 200 else 2 }
    let inp' := { Input.idle with txSpace := fun _ => 9, send := fun _ => 1 }
    let o := cmdGetStart ctx inp (Client.new NetConfig.default 0) (CString.ofBytes (ascii "/a"))
    let log := o.events ++ (run getNext [inp'] o.client).2
    log.IsChain SpaceKept ∧ queued log = [1, 2, 3] ∧
      Transfer f (run getNext [inp'] o.client).1 log :=
  ⟨by decide, by decide, (sendfile_exact _ _ _ _ rfl rfl rfl rfl rfl _ (by decide) [_]).1⟩

end UniNet.Http
