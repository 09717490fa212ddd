import UniNet.Ftp.Sockets
import UniNet.Ftp.Stream
import UniNet.Tcp.Receive

/-!
# What the worker receives from the stack

`Shows` says what the worker can count on when it reads a data connection in place. Here the
stack is the modelled one: a `Host` has a `TcpSocket` for each socket of the session, bytes arrive
at any time, and every receive and every release of the log is the call of `Tcp` on that socket.

The pointer of `FreeRTOS_recv` is used twice, and bytes may arrive in between. They leave the front
of the stream in place, so the release is not refused and takes the bytes that were shown (`Lent`).
A socket must not be read in both ways for that. It is not, because a socket was made either for
the one or for the other connection (`session_separate`).

* `Delivers.step` — what one call, or one segment, keeps
* `session_receives` — every task gets the bytes that arrived, in order, and nothing is lost
-/

namespace UniNet.Ftp

open Infra
open Tcp (TcpSocket TcpState Memory)

/-! ## The host -/

/-- The sockets of the stack, and the two variables of the worker that a later call depends on. -/
structure Host where
  sock : Option Socket → TcpSocket
  /-- `byte_count` of `work_cmd` -/
  byteCount : Nat
  /-- where `buf` of `work_data` points -/
  buf : Nat

def Host.set (h : Host) (sock : Option Socket) (s : TcpSocket) : Host :=
  { h with sock := Function.update h.sock sock s }

@[simp] theorem Host.sock_set (h : Host) (sock sock' : Option Socket) (s : TcpSocket) :
    (h.set sock s).sock sock' = if sock' = sock then s else h.sock sock' :=
  Function.update_apply ..

@[simp] theorem Host.buf_set (h : Host) (sock : Option Socket) (s : TcpSocket) :
    (h.set sock s).buf = h.buf := rfl

inductive HostAct where
  /-- the next bytes of a connection arrive -/
  | arrive (sock : Option Socket) (mem : Memory) (data : Bytes)
  /-- the state of a connection changes -/
  | change (sock : Option Socket) (state : TcpState) (mallocError : Bool)
  /-- the worker goes on; a wait may be interrupted by a signal -/
  | call (intr : Bool) (e : Event)

inductive HostEvent where
  /-- so much of what arrived was stored -/
  | arrived (sock : Option Socket) (bytes : Bytes)
  | call (e : Event)
  /-- what `FreeRTOS_ReleaseTCPPayloadBuffer` returned -/
  | released (pass : Bool)
  deriving DecidableEq

/-- What the call leaves behind. `mss` is `ipconfigTCP_MSS`. -/
def hostStep (mss : Nat) : HostAct → Host → Host × List HostEvent
  | .arrive sock mem data, h =>
    let r := (h.sock sock).addRxdata mem 0 (some data) data.length
    (h.set sock r.1, [.arrived sock (data.take r.2.toNat)])
  | .change sock state mallocError, h =>
    (h.set sock { h.sock sock with state := state, mallocError := mallocError }, [])
  | .call intr e, h =>
    match e with
    | .recvcount _ count => ({ h with byteCount := count }, [.call e])
    | .recv sock _ =>
      (h.set sock ((h.sock sock).recv intr ⟨false, false⟩ true h.byteCount).1, [.call e])
    | .recvData sock _ =>
      -- `buf` was NULL before
      ({ h with buf := ((h.sock sock).recv intr ⟨true, false⟩ true mss).2.ptr.getD 0 }, [.call e])
    | .release sock data =>
      let r := (h.sock sock).releaseTCPPayloadBuffer h.buf data.length
      (h.set sock r.1, [.call e, .released r.2])
    | _ => (h, [.call e])

/-- The log tells what the stack answers. -/
def Answered (mss : Nat) : HostAct → Host → Prop
  | .call intr e, h =>
    match e with
    | .recvcount sock count => count = (h.sock sock).rxSize
    | .recv sock bytes => bytes = ((h.sock sock).recv intr ⟨false, false⟩ true h.byteCount).2.bytes
    | .recvData sock data => data = (h.sock sock).shown intr mss
    | _ => True
  | _, _ => True

instance (mss : Nat) : (a : HostAct) → (h : Host) → Decidable (Answered mss a h)
  | .call intr e, h => by
    unfold Answered
    dsimp only
    split <;> infer_instance
  | .arrive _ _ _, _ => isTrue trivial
  | .change _ _ _, _ => isTrue trivial

/-- The calls of the worker. -/
def callsOf (trace : List HostEvent) : List Event :=
  trace.filterMap fun
    | .call e => some e
    | _ => none

/-- What was stored for a socket. -/
def arrivedOn (sock : Option Socket) (trace : List HostEvent) : Bytes :=
  trace.flatMap fun
    | .arrived sock' bytes => if sock' = sock then bytes else []
    | _ => []

@[simp] theorem callsOf_append (l m : List HostEvent) :
    callsOf (l ++ m) = callsOf l ++ callsOf m :=
  List.filterMap_append

@[simp] theorem arrivedOn_append (sock : Option Socket) (l m : List HostEvent) :
    arrivedOn sock (l ++ m) = arrivedOn sock l ++ arrivedOn sock m :=
  List.flatMap_append

/-- What was taken out of the streams: copied, or given back. -/
def Event.consumed (on : Option Socket → Bool) : Event → Bytes
  | .recv sock bytes => if on sock then bytes else []
  | e => e.givenBack on

def consumedFrom (on : Option Socket → Bool) (log : List Event) : Bytes :=
  log.flatMap (Event.consumed on)

@[simp] theorem consumedFrom_append (on : Option Socket → Bool) (log more : List Event) :
    consumedFrom on (log ++ more) = consumedFrom on log ++ consumedFrom on more :=
  List.flatMap_append

/-- No socket is read in both ways. -/
def Separate (log : List Event) : Prop :=
  ∀ sock bytes data, .recv sock bytes ∈ log → .recvData sock data ∉ log

theorem Separate.of_begin {log log' : List Event} (h : Separate log') (hp : log <+: log') :
    Separate log :=
  fun sock bytes data hrecv hdata => h sock bytes data (hp.subset hrecv) (hp.subset hdata)

/-- Where nothing was copied, what was taken was given back. -/
theorem consumedFrom_eq {sock : Option Socket} {log : List Event}
    (h : ∀ bytes, .recv sock bytes ∉ log) :
    consumedFrom (only sock) log = takenFrom (only sock) log := by
  unfold consumedFrom takenFrom
  refine List.flatMap_congr fun e he => ?_
  cases e with
  | recv sock' bytes =>
    have hne : sock' ≠ sock := fun hs => h bytes (hs ▸ he)
    simp [Event.consumed, Event.givenBack, only, hne]
  | _ => rfl

/-- A slice that is held was received. -/
theorem held_received {log : List Event} {slice : Slice} (h : held log = some slice) :
    .recvData slice.sock slice.data ∈ log := by
  induction log using List.reverseRecOn generalizing slice with
  | nil => cases h
  | append_singleton log e ih =>
    rw [held_concat] at h
    rw [List.mem_append]
    cases e with
    | recvData sock data =>
      by_cases hdata : data = []
      · simp [heldNext, hdata] at h
      · obtain rfl : (⟨sock, data, false⟩ : Slice) = slice := by simpa [heldNext, hdata] using h
        exact Or.inr (List.mem_singleton.mpr rfl)
    | callback call =>
      cases call with
      | recv data =>
        obtain ⟨slice', hs, rfl⟩ := Option.map_eq_some_iff.mp h
        have hmem := ih hs
        exact Or.inl hmem
      | _ => exact Or.inl (ih h)
    | release _ _ => cases h
    | _ => exact Or.inl (ih h)

/-! ## One step -/

/-- The bytes lie in front of the stream of a valid socket, where the pointer shows them. -/
structure Lent (s : TcpSocket) (buf : Nat) (data : Bytes) : Prop where
  valid : s.valid = true
  pos : data ≠ []
  front : ∃ st q, s.rxStream = some st ∧ Tcp.Carries (some st) q ∧ st.buf.getPtr.1 = buf ∧
    data.length ≤ st.buf.getPtr.2 ∧ data <+: q

/-- What the worker has received, is shown and will find, compared with what has arrived. -/
structure Delivers (h : Host) (trace : List HostEvent) : Prop where
  size : ∀ sock, (h.sock sock).rxStreamSize < 2 ^ 30
  queue : ∀ sock, ∃ q, Tcp.Carries (h.sock sock).rxStream q ∧
    arrivedOn sock trace = consumedFrom (only sock) (callsOf trace) ++ q
  lent : ∀ slice, held (callsOf trace) = some slice → Lent (h.sock slice.sock) h.buf slice.data
  shows : ∀ stream, (∀ sock, arrivedOn sock trace <+: stream sock) →
    Throughout (Shows stream) (callsOf trace)
  passed : ∀ pass, .released pass ∈ trace → pass = true

/-- More arrives, and what is shown stays where it is. -/
theorem Lent.arrive {s : TcpSocket} {buf : Nat} {data : Bytes} (h : Lent s buf data) (mem : Memory)
    (hsize : s.rxStreamSize < 2 ^ 30) (d : Bytes) :
    Lent (s.addRxdata mem 0 (some d) d.length).1 buf data := by
  obtain ⟨hv, hne, st, q, hst, hq, hptr, hlen, hpre⟩ := h
  rw [← hst] at hq
  obtain ⟨hmore, -, hvalid⟩ := TcpSocket.addRxdata_taken mem hq hsize d
  obtain ⟨st', hst', hptr', hlen'⟩ := TcpSocket.addRxdata_front mem hq hsize hst d
  rw [hst'] at hmore
  exact ⟨hvalid.trans hv, hne, st', _, hst', hmore, hptr'.trans hptr, hlen.trans hlen',
    hpre.trans (List.prefix_append ..)⟩

/-- **What was lent is given back**: the release passes and takes these bytes. -/
theorem Lent.release {s : TcpSocket} {buf : Nat} {data q : Bytes} (h : Lent s buf data)
    (hq : Tcp.Carries s.rxStream q) :
    ∃ s' q', s.releaseTCPPayloadBuffer buf data.length = (s', true) ∧ q = data ++ q' ∧
      Tcp.Carries s'.rxStream q' ∧ s'.rxStreamSize = s.rxStreamSize := by
  obtain ⟨hv, hne, st, q₁, hst, hq₁, hptr, hlen, rest, hrest⟩ := h
  obtain rfl : q₁ = q := by
    rw [hst] at hq
    exact hq₁.2.unique hq.2
  obtain ⟨-, hcarries, hsame⟩ := TcpSocket.recv_copy hq hv false data.length
  refine ⟨(s.recv false ⟨false, false⟩ true data.length).1, rest, ?_, hrest.symm, ?_, by
    rw [hsame]⟩
  · rw [← hptr, TcpSocket.release_eq hq hv hst (List.length_pos_iff.mpr hne) hlen false]
  · rw [← hrest, List.drop_left] at hcarries
    exact hcarries

namespace Delivers

variable {mss : Nat} {h : Host} {trace : List HostEvent}

/-- A segment arrives. -/
theorem arrive (hd : Delivers h trace) (sock : Option Socket) (mem : Memory) (data : Bytes) :
    Delivers (hostStep mss (.arrive sock mem data) h).1
      (trace ++ (hostStep mss (.arrive sock mem data) h).2) := by
  simp only [hostStep]
  have hcalls : ∀ bytes, callsOf (trace ++ [.arrived sock bytes]) = callsOf trace := by
    simp [callsOf]
  refine ⟨fun sock' => ?_, fun sock' => ?_, fun slice hslice => ?_, fun stream hs => ?_, ?_⟩
  · obtain ⟨q, hq, -⟩ := hd.queue sock
    obtain ⟨-, hsize, -⟩ := TcpSocket.addRxdata_taken mem hq (hd.size sock) data
    rw [Host.sock_set]
    split
    · rw [hsize]
      exact hd.size sock
    · exact hd.size sock'
  · obtain ⟨q, hq, hall⟩ := hd.queue sock'
    rw [Host.sock_set, hcalls, arrivedOn_append, hall]
    by_cases hs : sock' = sock
    · subst hs
      obtain ⟨hmore, -⟩ := TcpSocket.addRxdata_taken mem hq (hd.size sock') data
      rw [if_pos rfl]
      exact ⟨_, hmore, by simp [arrivedOn]⟩
    · rw [if_neg hs]
      exact ⟨q, hq, by simp [arrivedOn, Ne.symm hs]⟩
  · rw [hcalls] at hslice
    rw [Host.sock_set, Host.buf_set]
    split
    · next hs =>
      rw [← hs]
      exact (hd.lent slice hslice).arrive mem (hd.size _) data
    · exact hd.lent slice hslice
  · rw [hcalls]
    refine hd.shows stream fun sock' => ?_
    have harrived := hs sock'
    rw [arrivedOn_append] at harrived
    exact (List.prefix_append ..).trans harrived
  · simpa using hd.passed

/-- The state of a connection says nothing about its streams. -/
theorem change (hd : Delivers h trace) (sock : Option Socket) (state : TcpState)
    (mallocError : Bool) :
    Delivers (hostStep mss (.change sock state mallocError) h).1
      (trace ++ (hostStep mss (.change sock state mallocError) h).2) := by
  simp only [hostStep, List.append_nil]
  have hsame : ∀ {P : TcpSocket → Prop} (sock' : Option Socket), P (h.sock sock') →
      (∀ s : TcpSocket, P s → P { s with state := state, mallocError := mallocError }) →
      P ((h.set sock { h.sock sock with state := state, mallocError := mallocError }).sock
        sock') := by
    intro P sock' hp hkeep
    rw [Host.sock_set]
    split
    · next hs => exact hkeep _ (hs ▸ hp)
    · exact hp
  refine ⟨fun sock' => ?_, fun sock' => ?_, fun slice hslice => ?_, hd.shows, hd.passed⟩
  · exact hsame (P := fun s => s.rxStreamSize < 2 ^ 30) sock' (hd.size sock') fun _ hp => hp
  · exact hsame (P := fun s => ∃ q, Tcp.Carries s.rxStream q ∧
      arrivedOn sock' trace = consumedFrom (only sock') (callsOf trace) ++ q) sock'
      (hd.queue sock') fun _ hp => hp
  · exact hsame (P := fun s => Lent s h.buf slice.data) slice.sock (hd.lent slice hslice)
      fun _ hp => ⟨hp.valid, hp.pos, hp.front⟩

/-- A call that leaves the streams alone. -/
theorem quiet (hd : Delivers h trace) {e : Event} (count : Nat)
    (hconsumed : ∀ on, e.consumed on = [])
    (hheld : ∀ slice, heldNext (held (callsOf trace)) e = some slice →
      ∃ seen, held (callsOf trace) = some ⟨slice.sock, slice.data, seen⟩)
    (hshows : ∀ stream log, Shows stream log e) :
    Delivers { h with byteCount := count } (trace ++ [.call e]) := by
  have hcalls : callsOf (trace ++ [.call e]) = callsOf trace ++ [e] := by simp [callsOf]
  have harrived : ∀ sock, arrivedOn sock (trace ++ [.call e]) = arrivedOn sock trace := by
    simp [arrivedOn]
  refine ⟨hd.size, fun sock => ?_, fun slice hslice => ?_, fun stream hs => ?_, ?_⟩
  · obtain ⟨q, hq, hall⟩ := hd.queue sock
    refine ⟨q, hq, ?_⟩
    rw [harrived, hcalls, consumedFrom_append, hall]
    simp [consumedFrom, hconsumed]
  · rw [hcalls, held_concat] at hslice
    obtain ⟨seen, hbefore⟩ := hheld slice hslice
    have hlent := hd.lent _ hbefore
    exact hlent
  · rw [hcalls, throughout_concat]
    exact ⟨hd.shows stream fun sock => harrived sock ▸ hs sock, hshows stream _⟩
  · simpa using hd.passed

/-- Bytes are copied out of a stream that is not read in place. -/
theorem recv (hd : Delivers h trace) (intr : Bool) {sock : Option Socket} {bytes : Bytes}
    (hans : bytes = ((h.sock sock).recv intr ⟨false, false⟩ true h.byteCount).2.bytes)
    (hsep : Separate (callsOf trace ++ [.recv sock bytes])) :
    Delivers (hostStep mss (.call intr (.recv sock bytes)) h).1
      (trace ++ (hostStep mss (.call intr (.recv sock bytes)) h).2) := by
  simp only [hostStep]
  have hcalls : callsOf (trace ++ [.call (.recv sock bytes)])
      = callsOf trace ++ [.recv sock bytes] := by simp [callsOf]
  have harrived : ∀ sock', arrivedOn sock' (trace ++ [.call (.recv sock bytes)])
      = arrivedOn sock' trace := by simp [arrivedOn]
  obtain ⟨q, hq, hall⟩ := hd.queue sock
  obtain ⟨k, hbytes, hrest, hsame⟩ := TcpSocket.recv_part hq intr h.byteCount
  refine ⟨fun sock' => ?_, fun sock' => ?_, fun slice hslice => ?_, fun stream hs => ?_, ?_⟩
  · rw [Host.sock_set]
    split
    · rw [hsame]
      exact hd.size sock
    · exact hd.size sock'
  · rw [Host.sock_set, harrived, hcalls, consumedFrom_append]
    by_cases hs : sock' = sock
    · subst hs
      rw [if_pos rfl]
      refine ⟨q.drop k, hrest, ?_⟩
      rw [hall, hans, hbytes]
      simp [consumedFrom, Event.consumed, only]
    · rw [if_neg hs]
      obtain ⟨q', hq', hall'⟩ := hd.queue sock'
      exact ⟨q', hq', by simp [hall', consumedFrom, Event.consumed, only, Ne.symm hs]⟩
  · rw [hcalls, held_concat] at hslice
    have hne : slice.sock ≠ sock := by
      rintro rfl
      exact hsep _ bytes slice.data (by simp) (List.mem_append_left _ (held_received hslice))
    rw [Host.sock_set, if_neg hne]
    exact hd.lent slice hslice
  · rw [hcalls, throughout_concat]
    exact ⟨hd.shows stream fun sock' => harrived sock' ▸ hs sock', trivial⟩
  · simpa using hd.passed

/-- Bytes are shown. -/
theorem recvData (hd : Delivers h trace) (intr : Bool) {sock : Option Socket} {data : Bytes}
    (hans : data = (h.sock sock).shown intr mss) (hfree : held (callsOf trace) = none)
    (hsep : Separate (callsOf trace ++ [.recvData sock data])) :
    Delivers (hostStep mss (.call intr (.recvData sock data)) h).1
      (trace ++ (hostStep mss (.call intr (.recvData sock data)) h).2) := by
  simp only [hostStep]
  have hcalls : callsOf (trace ++ [.call (.recvData sock data)])
      = callsOf trace ++ [.recvData sock data] := by simp [callsOf]
  have harrived : ∀ sock', arrivedOn sock' (trace ++ [.call (.recvData sock data)])
      = arrivedOn sock' trace := by simp [arrivedOn]
  obtain ⟨q, hq, hall⟩ := hd.queue sock
  have hshown := TcpSocket.shown_spec hq intr mss
  rw [← hans] at hshown
  refine ⟨hd.size, fun sock' => ?_, fun slice hslice => ?_, fun stream hs => ?_, ?_⟩
  · obtain ⟨q', hq', hall'⟩ := hd.queue sock'
    refine ⟨q', hq', ?_⟩
    rw [harrived, hcalls, consumedFrom_append, hall']
    simp [consumedFrom, Event.consumed, Event.givenBack]
  · rw [hcalls, held_concat, hfree] at hslice
    by_cases hne : data = []
    · simp [heldNext, hne] at hslice
    obtain rfl : (⟨sock, data, false⟩ : Slice) = slice := by simpa [heldNext, hne] using hslice
    rcases hshown with hnil | ⟨hv, st, hst, hptr, htake, hle⟩
    · exact absurd hnil hne
    · refine ⟨hv, hne, st, q, hst, hst ▸ hq, ?_, ?_, htake ▸ List.take_prefix ..⟩
      · show _ = Option.getD _ 0
        rw [hptr, Option.getD_some]
      · show data.length ≤ _
        rw [htake]
        exact List.length_take_le ..
  · rw [hcalls, throughout_concat]
    refine ⟨hd.shows stream fun sock' => harrived sock' ▸ hs sock', ?_⟩
    have hno : ∀ bytes, .recv sock bytes ∉ callsOf trace := fun bytes hmem =>
      hsep sock bytes data (List.mem_append_left _ hmem) (by simp)
    obtain ⟨later, hlater⟩ := hs sock
    rw [harrived, hall, consumedFrom_eq hno] at hlater
    show data <+: (stream sock).drop (takenFrom (only sock) (callsOf trace)).length
    rw [← hlater, List.append_assoc, List.drop_left]
    rcases hshown with hnil | ⟨-, st, -, -, htake, -⟩
    · rw [hnil]
      exact List.nil_prefix
    · rw [htake]
      exact (List.take_prefix ..).trans (List.prefix_append ..)
  · simpa using hd.passed

/-- **Bytes are given back**, as they were shown. -/
theorem release (hd : Delivers h trace) (intr : Bool) {sock : Option Socket} {data : Bytes}
    {seen : Bool} (hheld : held (callsOf trace) = some ⟨sock, data, seen⟩) :
    Delivers (hostStep mss (.call intr (.release sock data)) h).1
      (trace ++ (hostStep mss (.call intr (.release sock data)) h).2) := by
  obtain ⟨q, hq, hall⟩ := hd.queue sock
  obtain ⟨s', q', hrel, rfl, hrest, hsize⟩ := (hd.lent _ hheld).release hq
  simp only [hostStep]
  rw [hrel]
  have hcalls : callsOf (trace ++ [.call (.release sock data), .released true])
      = callsOf trace ++ [.release sock data] := by simp [callsOf]
  have harrived : ∀ sock', arrivedOn sock' (trace ++ [.call (.release sock data), .released true])
      = arrivedOn sock' trace := by simp [arrivedOn]
  refine ⟨fun sock' => ?_, fun sock' => ?_, fun slice hslice => ?_, fun stream hs => ?_, ?_⟩
  · rw [Host.sock_set]
    split
    · rw [hsize]
      exact hd.size sock
    · exact hd.size sock'
  · rw [Host.sock_set, harrived, hcalls, consumedFrom_append]
    by_cases hs : sock' = sock
    · subst hs
      rw [if_pos rfl]
      refine ⟨q', hrest, ?_⟩
      rw [hall]
      simp [consumedFrom, Event.consumed, Event.givenBack, only]
    · rw [if_neg hs]
      obtain ⟨q'', hq'', hall'⟩ := hd.queue sock'
      exact ⟨q'', hq'', by
        simp [hall', consumedFrom, Event.consumed, Event.givenBack, only, Ne.symm hs]⟩
  · rw [hcalls, held_concat] at hslice
    cases hslice
  · rw [hcalls, throughout_concat]
    exact ⟨hd.shows stream fun sock' => harrived sock' ▸ hs sock', trivial⟩
  · intro pass hmem
    rcases List.mem_append.mp hmem with hmem | hmem
    · exact hd.passed pass hmem
    · simpa using hmem

/--
**One step**, of the stack or of a worker that keeps its slices and reads no socket in both ways.
-/
theorem step {hasCallback : Bool} (hd : Delivers h trace) {a : HostAct} (hans : Answered mss a h)
    (hkept : Throughout (Kept hasCallback) (callsOf (trace ++ (hostStep mss a h).2)))
    (hsep : Separate (callsOf (trace ++ (hostStep mss a h).2))) :
    Delivers (hostStep mss a h).1 (trace ++ (hostStep mss a h).2) := by
  rcases a with ⟨sock, mem, data⟩ | ⟨sock, state, mallocError⟩ | ⟨intr, e⟩
  · exact hd.arrive sock mem data
  · exact hd.change sock state mallocError
  have hcalls : callsOf (trace ++ (hostStep mss (.call intr e) h).2) = callsOf trace ++ [e] := by
    cases e <;> simp [hostStep, callsOf]
  rw [hcalls, throughout_concat] at hkept
  rw [hcalls] at hsep
  cases e with
  | recv sock bytes => exact hd.recv intr hans hsep
  | recvData sock data => exact hd.recvData intr hans hkept.2 hsep
  | release sock data => exact hd.release intr hkept.2
  | recvcount sock count =>
    exact hd.quiet count (fun _ => rfl) (fun _ hs => ⟨_, hs⟩) fun _ _ => trivial
  | callback call =>
    cases call with
    | recv data =>
      refine hd.quiet h.byteCount (fun _ => rfl) (fun slice hs => ?_) fun _ _ => trivial
      obtain ⟨slice', hbefore, rfl⟩ := Option.map_eq_some_iff.mp hs
      exact ⟨slice'.seen, hbefore⟩
    | _ => exact hd.quiet h.byteCount (fun _ => rfl) (fun _ hs => ⟨_, hs⟩) fun _ _ => trivial
  | _ => exact hd.quiet h.byteCount (fun _ => rfl) (fun _ hs => ⟨_, hs⟩) fun _ _ => trivial

end Delivers

/-! ## Two connections, two sockets -/

/-- Every socket is used for what it was made for. -/
structure Apart (s : Session) : Prop where
  books : Books s
  made : ∀ role n, s.client.socket role = some (.valid n) → .socket role (some (.valid n)) ∈ s.log
  copied : ∀ sock bytes, .recv sock bytes ∈ s.log →
    ∃ n, sock = some (.valid n) ∧ .socket .cmd sock ∈ s.log
  shown : ∀ n data, .recvData (some (.valid n)) data ∈ s.log →
    .socket .data (some (.valid n)) ∈ s.log

/-- The socket of a role stays, or was just made for it, or is none. -/
theorem SocketStep.made {s s' : Session} (h : SocketStep s s') (role : Role) :
    s'.client.socket role = s.client.socket role ∨ s'.client.socket role = none ∨
      .socket role (s'.client.socket role) ∈ s'.log := by
  have hmade : ∀ inp role', (createSocket inp role' s).client.socket role = s.client.socket role ∨
      .socket role ((createSocket inp role' s).client.socket role)
        ∈ (createSocket inp role' s).log := by
    intro inp role'
    cases role <;> cases role' <;> simp [createSocket, Client.socket, Client.setSocket]
  cases h with
  | keep h =>
    cases role with
    | cmd => exact Or.inl h.cmd
    | data => exact Or.inl h.data
  | createSet inp =>
    obtain ⟨set, hc⟩ := createSet_client inp s
    rw [hc]
    cases role <;> exact Or.inl rfl
  | createCmd inp _ _ _ => exact (hmade inp .cmd).imp_right Or.inr
  | createData inp _ _ => exact (hmade inp .data).imp_right Or.inr
  | close role' =>
    cases role' with
    | cmd =>
      rw [closeCmd_client]
      cases role <;> simp [Client.socket]
    | data =>
      rw [closeData_client]
      cases role <;> simp [Client.socket]
  | deleteSet _ _ _ =>
    rw [deleteSet_client]
    cases role <;> exact Or.inl rfl

/-- What is read in a step is read from the sockets that the client has. -/
theorem SocketStep.reads {s s' : Session} (h : SocketStep s s') {e : Event} (he : e ∈ s'.log) :
    e ∈ s.log ∨ e.isResource = true ∨
      Uses s.client.socketCmd s.client.socketData s.client.socketSet e := by
  have hsame : ∀ {log es : List Event}, log = s.log ++ es → (∀ e ∈ es, e.isResource = true) →
      e ∈ log → e ∈ s.log ∨ e.isResource = true ∨
        Uses s.client.socketCmd s.client.socketData s.client.socketSet e := by
    rintro log es rfl hes hmem
    exact (List.mem_append.mp hmem).imp_right fun hmem => Or.inl (hes e hmem)
  cases h with
  | keep h =>
    obtain ⟨-, -, -, es, hl, hes⟩ := h
    rw [hl] at he
    exact (List.mem_append.mp he).imp_right fun hmem => Or.inr (hes e hmem).2
  | createSet inp =>
    unfold Ftp.createSet at he
    split at he
    · exact hsame rfl (by simp [Event.isResource]) he
    · exact Or.inl he
  | createCmd inp _ _ _ => exact hsame rfl (by simp [Event.isResource]) he
  | createData inp _ _ => exact hsame rfl (by simp [Event.isResource]) he
  | close role =>
    unfold closeSocket at he
    split at he
    · exact hsame rfl (by simp [Event.isResource]) he
    · exact Or.inl he
  | deleteSet _ _ _ =>
    unfold Ftp.deleteSet at he
    split at he
    · exact hsame rfl (by simp [Event.isResource]) he
    · exact Or.inl he

theorem Apart.step {s s' : Session} (h : Apart s) (hstep : SocketStep s s') : Apart s' := by
  have hsub := hstep.log_grows.subset
  refine ⟨h.books.step hstep, fun role n hn => ?_, fun sock bytes hmem => ?_,
    fun n data hmem => ?_⟩
  · rcases hstep.made role with hsame | hnone | hmade
    · exact hsub (h.made role n (hsame ▸ hn))
    · rw [hnone] at hn
      cases hn
    · rwa [hn] at hmade
  · rcases hstep.reads hmem with hbefore | hres | ⟨hcmd, hne, hinv⟩
    · obtain ⟨n, hn, hmade⟩ := h.copied sock bytes hbefore
      exact ⟨n, hn, hsub hmade⟩
    · cases hres
    · match sock, hne, hinv with
      | some (.valid n), _, _ => exact ⟨n, rfl, hsub (h.made .cmd n hcmd.symm)⟩
      | some .invalid, _, hinv => exact absurd rfl hinv
      | none, hne, _ => exact absurd rfl hne
  · rcases hstep.reads hmem with hbefore | hres | ⟨hdata, -⟩
    · exact hsub (h.shown n data hbefore)
    · cases hres
    · exact hsub (h.made .data n hdata.symm)

/-- **No socket of a session is read in both ways.** -/
theorem session_separate (config : Config) (hasCallback : Bool) (task : Task)
    (inputs : List Input) : Separate (session config hasCallback task inputs).log := by
  have happart : Apart (session config hasCallback task inputs) := by
    refine session_socket_inv (fun hstep h => h.step hstep) ?_ inputs
    refine ⟨books_start config hasCallback task, fun role n hn => ?_, ?_, ?_⟩
    · cases role <;> cases hn
    · simp [sessionStart_log]
    · simp [sessionStart_log]
  intro sock bytes data hrecv hdata
  obtain ⟨n, rfl, hcmd⟩ := happart.copied sock bytes hrecv
  -- a socket has the time it was made at as its name, and was made for one of the two
  cases happart.books.timed.unique hcmd (happart.shown n data hdata) rfl rfl

/-! ## Sessions over the stack -/

/--
**A session receives what arrives.** Bytes arrive on any socket at any time, in between two calls
of the worker or while the application has a slice. When the stack answers the receives of the
session out of its streams, then for every socket what was taken from the stream and what is still
in it is all that has arrived; every task that is under way had the bytes from where it began,
without a gap or a repetition, and its callbacks got them; no release is refused; and no socket is
read both by copying and in place.
-/
theorem session_receives (config : Config) (hasCallback : Bool) (task : Task)
    (inputs : List Input) (mss : Nat) (host : Host)
    (hnew : ∀ sock, (host.sock sock).rxStream = none ∧ (host.sock sock).rxStreamSize < 2 ^ 30)
    (acts : List HostAct) (hans : Along (hostStep mss) (Answered mss) acts host)
    (hlog : callsOf (run (hostStep mss) acts host).2
      = (session config hasCallback task inputs).log) :
    let s := session config hasCallback task inputs
    let trace := (run (hostStep mss) acts host).2
    (∀ sock, ∃ q, q.length = ((run (hostStep mss) acts host).1.sock sock).rxSize ∧
        arrivedOn sock trace = consumedFrom (only sock) s.log ++ q) ∧
      (∀ pre type es, s.log = pre ++ .setType type :: es → type.isTransfer → SameTask es →
        InOrder hasCallback (fun sock => arrivedOn sock trace) pre es s.client.task.progress) ∧
      (∀ pass, .released pass ∈ trace → pass = true) ∧ Separate s.log := by
  intro s trace
  have hstreamed : Streamed hasCallback s :=
    streamed_of_moves (session_moves config hasCallback task inputs)
  have hseparate : Separate s.log := session_separate config hasCallback task inputs
  have hdelivers : Delivers (run (hostStep mss) acts host).1 trace := by
    have hinv := run_inv_along (hostStep mss) (P := fun h trace =>
      Throughout (Kept hasCallback) (callsOf trace) → Separate (callsOf trace) →
        Delivers h trace) ?_ ?_ acts hans
    · exact hinv (hlog ▸ hstreamed.kept) (hlog ▸ hseparate)
    · intro a h trace ha hd hkept hsep
      have hbegin : callsOf trace <+: callsOf (trace ++ (hostStep mss a h).2) := by
        rw [callsOf_append]
        exact List.prefix_append ..
      exact (hd (hkept.of_begin hbegin) (hsep.of_begin hbegin)).step ha hkept hsep
    · intro _ _
      refine ⟨fun sock => (hnew sock).2, fun sock => ⟨[], ?_, rfl⟩, ?_, ?_, ?_⟩
      · rw [(hnew sock).1]
        rfl
      · simp [callsOf, held]
      · exact fun _ _ => throughout_nil
      · simp
  refine ⟨fun sock => ?_, fun pre type es hsplit htype hsame => ?_, hdelivers.passed,
    hseparate⟩
  · obtain ⟨q, hq, hall⟩ := hdelivers.queue sock
    rw [hlog] at hall
    exact ⟨q, (TcpSocket.rxSize_eq hq).symm, hall⟩
  · have hshows := hdelivers.shows (fun sock => arrivedOn sock trace) fun _ => List.prefix_rfl
    rw [hlog] at hshows
    exact hstreamed.inOrder hshows hsplit htype hsame

/-- The bytes that are copied next. -/
def nextCopied : List Event → Bytes
  | [] => []
  | .recv _ bytes :: _ => bytes
  | _ :: log => nextCopied log

/-- A run in which the bytes of every receive arrive right before they are asked for. -/
def playback : List Event → List HostAct
  | [] => []
  | .recvcount sock count :: log =>
    .arrive sock (some fun _ => 0) (nextCopied log) :: .call false (.recvcount sock count)
      :: playback log
  | .recvData sock data :: log =>
    .arrive sock (some fun _ => 0) data :: .call false (.recvData sock data) :: playback log
  | e :: log => .call false e :: playback log

/-- Sockets with streams of 32 bytes. -/
def Host.small : Host :=
  ⟨fun _ => .connected 32, 0, 0⟩

/-- A listing in two slices, over streams that are shorter than what is said. -/
theorem session_receives_listing :
    let log := (session .plain true .zero Input.sliced).log
    Along (hostStep 1460) (Answered 1460) (playback log) Host.small ∧
      callsOf (run (hostStep 1460) (playback log) Host.small).2 = log ∧
      .released true ∈ (run (hostStep 1460) (playback log) Host.small).2 ∧
      (∀ pass, .released pass ∈ (run (hostStep 1460) (playback log) Host.small).2 → pass = true) ∧
      Separate log := by
  intro log
  have hans : Along (hostStep 1460) (Answered 1460) (playback log) Host.small := by
    decide +kernel
  have hlog : callsOf (run (hostStep 1460) (playback log) Host.small).2 = log := by
    decide +kernel
  have h := session_receives .plain true .zero Input.sliced 1460 Host.small
    (fun _ => ⟨rfl, show 32 < 2 ^ 30 by decide⟩) (playback log) hans hlog
  exact ⟨hans, hlog, by decide +kernel, h.2.2⟩

end UniNet.Ftp
