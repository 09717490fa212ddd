import UniNet.Tcp.Socket

/-!
# The receiving side of a socket

The application gets the bytes of a connection in one of two ways. `FreeRTOS_recv` copies them,
or it points at them with `FREERTOS_ZERO_COPY` and `FreeRTOS_ReleaseTCPPayloadBuffer` gives them
back. The second way shows no more than what lies in one piece in front of the end of the ring,
whatever the length is that was asked for.

* `inPlace_agrees` — reading in place is receiving that many bytes
* `rx_in_order` — what is received is what has arrived, in order, copied or in place
-/

namespace UniNet.Tcp

open Infra

namespace TcpSocket

variable {s : TcpSocket} {q : Bytes}

theorem rxSize_eq (h : Carries s.rxStream q) : s.rxSize = q.length := by
  unfold rxSize
  split
  · next st hst =>
    rw [hst] at h
    exact h.2.getSize_eq
  · next hst =>
    rw [hst] at h
    rw [show q = [] from h, List.length_nil]

theorem recvWait_empty (h : Carries s.rxStream []) (intr : Bool) : (s.recvWait intr).1 ≤ 0 := by
  have hsize : s.rxSize = 0 := rxSize_eq h
  simp only [recvWait, hsize, ne_eq, not_true_eq_false, if_false]
  split
  · split <;> decide
  · exact le_refl 0

theorem recvWait_some (h : Carries s.rxStream q) (hne : q ≠ []) (intr : Bool) :
    s.recvWait intr = ((q.length : Int), false) := by
  have hpos := List.length_pos_iff.mpr hne
  have hsize : s.rxSize ≠ 0 := by
    rw [rxSize_eq h]
    omega
  rw [recvWait, if_pos hsize, rxSize_eq h]

/-- Nothing is received from an empty stream. -/
theorem recv_empty (h : Carries s.rxStream []) (intr : Bool) (flags : RecvFlags) (wanted : Bool)
    (len : Nat) : ∃ code ≤ 0, s.recv intr flags wanted len = (s, .code code) := by
  have hwait := recvWait_empty h intr
  unfold recv
  split
  · exact ⟨-einval, by decide, rfl⟩
  split
  · exact ⟨-einval, by decide, rfl⟩
  by_cases hintr : (s.recvWait intr).2 = true
  · simp only [if_pos hintr]
    exact ⟨-eintr, by decide, rfl⟩
  · simp only [if_neg hintr, if_neg (not_lt.mpr hwait)]
    exact ⟨_, hwait, rfl⟩

/-- What is there is received at once. -/
theorem recv_some (h : Carries s.rxStream q) (hne : q ≠ []) (hv : s.valid = true) (intr : Bool)
    {flags : RecvFlags} {wanted : Bool} (hw : (flags.zeroCopy && !wanted) = false) (len : Nat) :
    s.recv intr flags wanted len = s.recvData flags wanted len := by
  have hpos : (0 : Int) < q.length := Int.natCast_pos.mpr (List.length_pos_iff.mpr hne)
  simp only [recv, hv, hw, recvWait_some h hne, Bool.true_eq_false, Bool.false_eq_true, if_false,
    if_pos hpos]

theorem recvData_copy {st : Stream} (hst : s.rxStream = some st) (wanted : Bool) (len : Nat) :
    s.recvData ⟨false, false⟩ wanted len
      = ({ s with rxStream := some ⟨st.length, (st.buf.get 0 wanted len false).1⟩ },
          ⟨(st.buf.get 0 wanted len false).2.2, (st.buf.get 0 wanted len false).2.1, none⟩) := by
  simp [recvData, hst]

theorem recvData_zeroCopy {st : Stream} (hst : s.rxStream = some st) (len : Nat) :
    s.recvData ⟨true, false⟩ true len
      = (s, ⟨st.buf.getPtr.2, [], some st.buf.getPtr.1⟩) := by
  simp [recvData, hst]

/-- The bytes that a pointer into the incoming stream shows. -/
def look (s : TcpSocket) (ptr count : Nat) : Bytes :=
  match s.rxStream with
  | some st => st.buf.array.slice ptr count
  | none => []

/--
Reading in place as `work_data` of the FTP client does it: `FreeRTOS_recv` with
`FREERTOS_ZERO_COPY`, a look at the bytes, and `FreeRTOS_ReleaseTCPPayloadBuffer`. The last part
says whether that returned `pdPASS`.
-/
def inPlace (intr : Bool) (len : Nat) (s : TcpSocket) : TcpSocket × Bytes × Bool :=
  let r := s.recv intr ⟨true, false⟩ true len
  match r.2.ptr with
  | some ptr =>
    if 0 < r.2.count then
      let rel := r.1.releaseTCPPayloadBuffer ptr r.2.count.toNat
      (rel.1, r.1.look ptr r.2.count.toNat, rel.2)
    else (r.1, [], true)
  | none => (r.1, [], true)

/-- How much is read in place at a time. -/
def piece (s : TcpSocket) : Nat :=
  match s.rxStream with
  | some st => st.buf.getPtr.2
  | none => 0

/-- What the pointer is given for: nothing is received, and the stream stays as it is. -/
theorem recv_zeroCopy {st : Stream} (h : Carries s.rxStream q) (hne : q ≠ []) (hv : s.valid = true)
    (hst : s.rxStream = some st) (intr : Bool) (len : Nat) :
    s.recv intr ⟨true, false⟩ true len = (s, ⟨st.buf.getPtr.2, [], some st.buf.getPtr.1⟩) := by
  rw [recv_some h hne hv intr rfl, recvData_zeroCopy hst]

/--
**A part of what was pointed at is given back by receiving it.** It need not be all of it: more
may have come since.
-/
theorem release_eq {st : Stream} {k : Nat} (h : Carries s.rxStream q) (hv : s.valid = true)
    (hst : s.rxStream = some st) (hk : 0 < k) (hle : k ≤ st.buf.getPtr.2) (intr : Bool) :
    s.releaseTCPPayloadBuffer st.buf.getPtr.1 k
      = ((s.recv intr ⟨false, false⟩ true k).1, true) := by
  have hq := h
  rw [hst] at hq
  have hlen := hle.trans hq.2.getPtr.2.1
  have hne : q ≠ [] := List.length_pos_iff.mp (hk.trans_le hlen)
  have hcount : (st.buf.get 0 false k false).2.2 = k := by
    have hc := hq.2.getCount_eq 0 k
    rw [Nat.sub_zero, Nat.min_eq_right hlen] at hc
    simp [StreamBuffer.get, hc, Nat.ne_of_gt hk]
  have hrest : (st.buf.get 0 false k false).1 = (st.buf.get 0 true k false).1 := by
    by_cases hc : st.buf.getCount 0 k = 0 <;> simp [StreamBuffer.get, hc]
  unfold releaseTCPPayloadBuffer
  simp only [hst, hle, and_self, if_true]
  rw [recv_some h hne hv false rfl, recv_some h hne hv intr rfl, recvData_copy hst,
    recvData_copy hst, hcount, hrest]
  simp

/--
**Reading in place is receiving that many bytes**: the same bytes, and the same socket
afterwards. The release is never refused.
-/
theorem inPlace_agrees (h : Carries s.rxStream q) (hv : s.valid = true) (intr : Bool) (len : Nat) :
    s.inPlace intr len
      = ((s.recv intr ⟨false, false⟩ true s.piece).1,
          (s.recv intr ⟨false, false⟩ true s.piece).2.bytes, true) := by
  by_cases hne : q = []
  · rw [hne] at h
    obtain ⟨code, -, hzero⟩ := recv_empty h intr ⟨true, false⟩ true len
    obtain ⟨code', -, hcopy⟩ := recv_empty h intr ⟨false, false⟩ true s.piece
    unfold inPlace
    rw [hzero, hcopy]
    rfl
  · cases hst : s.rxStream with
    | none =>
      rw [hst] at h
      exact absurd h hne
    | some st =>
      have hq := h
      rw [hst] at hq
      obtain ⟨hslice, hle, hpos⟩ := hq.2.getPtr
      have hpos := hpos hne
      have hpiece : s.piece = st.buf.getPtr.2 := by rw [piece, hst]
      have hbytes : (s.recv intr ⟨false, false⟩ true st.buf.getPtr.2).2.bytes
          = q.take st.buf.getPtr.2 := by
        rw [recv_some h hne hv intr rfl, recvData_copy hst, hq.2.get_bytes, List.drop_zero]
      unfold inPlace
      rw [recv_zeroCopy h hne hv hst, hpiece]
      simp only [Int.toNat_natCast, Int.natCast_pos.mpr hpos, if_true,
        release_eq h hv hst hpos (le_refl _) intr, look, hst, hslice, hbytes]

/-- Receiving takes the front part of what is there. -/
theorem recv_copy (h : Carries s.rxStream q) (hv : s.valid = true) (intr : Bool) (len : Nat) :
    (s.recv intr ⟨false, false⟩ true len).2.bytes = q.take len ∧
      Carries (s.recv intr ⟨false, false⟩ true len).1.rxStream (q.drop len) ∧
      (s.recv intr ⟨false, false⟩ true len).1
        = { s with rxStream := (s.recv intr ⟨false, false⟩ true len).1.rxStream } := by
  by_cases hne : q = []
  · rw [hne] at h ⊢
    obtain ⟨code, -, hrecv⟩ := recv_empty h intr ⟨false, false⟩ true len
    rw [hrecv, List.take_nil, List.drop_nil]
    exact ⟨rfl, h, rfl⟩
  · rw [recv_some h hne hv intr rfl]
    cases hst : s.rxStream with
    | none =>
      rw [hst] at h
      exact absurd h hne
    | some st =>
      rw [hst] at h
      rw [recvData_copy hst, h.2.get_bytes, List.drop_zero]
      exact ⟨rfl, ⟨h.1, h.2.get_rest h.1 true len⟩, rfl⟩

/-- A socket that is not valid gives nothing. -/
theorem recv_invalid (hv : s.valid = false) (intr : Bool) (flags : RecvFlags) (wanted : Bool)
    (len : Nat) : s.recv intr flags wanted len = (s, .code (-einval)) := by
  rw [recv, if_pos hv]

/-- **Whatever the socket is, receiving takes a front part** of what is there. -/
theorem recv_part (h : Carries s.rxStream q) (intr : Bool) (len : Nat) :
    ∃ k, (s.recv intr ⟨false, false⟩ true len).2.bytes = q.take k ∧
      Carries (s.recv intr ⟨false, false⟩ true len).1.rxStream (q.drop k) ∧
      (s.recv intr ⟨false, false⟩ true len).1
        = { s with rxStream := (s.recv intr ⟨false, false⟩ true len).1.rxStream } := by
  by_cases hv : s.valid = true
  · exact ⟨len, recv_copy h hv intr len⟩
  · rw [recv_invalid (Bool.eq_false_of_not_eq_true hv)]
    exact ⟨0, rfl, by rwa [List.drop_zero], rfl⟩

/-- What a receive without copying shows. -/
def shown (intr : Bool) (len : Nat) (s : TcpSocket) : Bytes :=
  match (s.recv intr ⟨true, false⟩ true len).2.ptr with
  | some ptr => s.look ptr (s.recv intr ⟨true, false⟩ true len).2.count.toNat
  | none => []

/-- **What is shown is the front part of what is there**, at the pointer that is returned. -/
theorem shown_spec (h : Carries s.rxStream q) (intr : Bool) (len : Nat) :
    s.shown intr len = [] ∨ s.valid = true ∧ ∃ st, s.rxStream = some st ∧
      (s.recv intr ⟨true, false⟩ true len).2.ptr = some st.buf.getPtr.1 ∧
      s.shown intr len = q.take st.buf.getPtr.2 ∧ st.buf.getPtr.2 ≤ q.length := by
  by_cases hne : q = []
  · rw [hne] at h
    obtain ⟨code, -, hrecv⟩ := recv_empty h intr ⟨true, false⟩ true len
    exact Or.inl (by rw [shown, hrecv]; rfl)
  by_cases hv : s.valid = true
  · cases hst : s.rxStream with
    | none =>
      rw [hst] at h
      exact absurd h hne
    | some st =>
      have hq := h
      rw [hst] at hq
      obtain ⟨hslice, hle, -⟩ := hq.2.getPtr
      have hrecv := recv_zeroCopy h hne hv hst intr len
      refine Or.inr ⟨hv, st, rfl, by rw [hrecv], ?_, hle⟩
      simp only [shown, hrecv, look, hst, Int.toNat_natCast, hslice]
  · rw [shown, recv_invalid (Bool.eq_false_of_not_eq_true hv)]
    exact Or.inl rfl

/-- What the IP task adds is appended, as far as it fits. -/
theorem addRxdata_taken (mem : Memory) (h : Carries s.rxStream q) (hsize : s.rxStreamSize < 2 ^ 30)
    (d : Bytes) :
    Carries (s.addRxdata mem 0 (some d) d.length).1.rxStream
        (q ++ d.take (s.addRxdata mem 0 (some d) d.length).2.toNat) ∧
      (s.addRxdata mem 0 (some d) d.length).1.rxStreamSize = s.rxStreamSize ∧
      (s.addRxdata mem 0 (some d) d.length).1.valid = s.valid := by
  -- the stream is there when the bytes are added, if there is memory for it
  obtain ⟨s', hs', hcarries, hsame, hvalid⟩ : ∃ s', (if s.rxStream.isNone then s.createRx mem
      else s) = s' ∧ Carries s'.rxStream q ∧ s'.rxStreamSize = s.rxStreamSize ∧
        s'.valid = s.valid := by
    refine ⟨_, rfl, ?_⟩
    cases hst : s.rxStream with
    | some st =>
      rw [hst] at h
      rw [if_neg (by simp), hst]
      exact ⟨h, rfl, rfl⟩
    | none =>
      rw [hst] at h
      rw [if_pos (by simp), show q = [] from h]
      cases mem with
      | none => exact ⟨by rw [createRx, outOfMemory, hst]; rfl, rfl, rfl⟩
      | some content => exact ⟨carries_newStream hsize content, rfl, rfl⟩
  unfold addRxdata
  simp only [hs']
  cases hst : s'.rxStream with
  | some st =>
    rw [hst] at hcarries
    obtain ⟨hcount, hrest⟩ := hcarries.2.add hcarries.1 (le_refl d.length)
    refine ⟨⟨hcarries.1, ?_⟩, hsame, hvalid⟩
    show Holds _ (q ++ d.take ((st.buf.add 0 (some d) d.length).2 : Int).toNat)
    rw [hcount, Int.toNat_natCast]
    exact hrest
  | none =>
    refine ⟨?_, hsame, hvalid⟩
    rw [hst] at hcarries
    rw [show q = [] from hcarries, hst, show ((-1 : Int).toNat) = 0 from rfl, List.take_zero]
    rfl

/-- **What arrives leaves alone what a pointer shows**: the front of the stream stays in place. -/
theorem addRxdata_front {st : Stream} (mem : Memory) (h : Carries s.rxStream q)
    (hsize : s.rxStreamSize < 2 ^ 30) (hst : s.rxStream = some st) (d : Bytes) :
    ∃ st', (s.addRxdata mem 0 (some d) d.length).1.rxStream = some st' ∧
      st'.buf.getPtr.1 = st.buf.getPtr.1 ∧ st.buf.getPtr.2 ≤ st'.buf.getPtr.2 := by
  obtain ⟨hmore, -, -⟩ := addRxdata_taken mem h hsize d
  have hadd : (s.addRxdata mem 0 (some d) d.length).1.rxStream
      = some ⟨st.length, (st.buf.add 0 (some d) d.length).1⟩ := by
    simp [addRxdata, hst]
  rw [hadd] at hmore ⊢
  rw [hst] at h
  have htail : (st.buf.add 0 (some d) d.length).1.tail = st.buf.tail := by
    unfold StreamBuffer.add
    by_cases hc : st.buf.addCount 0 d.length = 0 <;> simp [hc, StreamBuffer.advanceHead]
  refine ⟨_, rfl, htail, ?_⟩
  unfold StreamBuffer.getPtr
  rw [htail, hmore.2.getSize_eq, h.2.getSize_eq, List.length_append]
  show min q.length _ ≤ min _ (st.length - st.buf.tail)
  omega

end TcpSocket

/-! ## The receiving side over whole runs -/

/-- What happens at the receiving side of a socket. -/
inductive RxAct where
  /-- the next bytes of the connection arrive -/
  | arrive (mem : Memory) (data : Bytes)
  | recv (intr : Bool) (len : Nat)
  | inPlace (intr : Bool) (len : Nat)
  /-- the state of the connection changes -/
  | change (state : TcpState) (mallocError : Bool)

inductive RxEvent where
  /-- so much of what arrived was stored -/
  | arrived (bytes : Bytes)
  | received (bytes : Bytes)
  /-- what `FreeRTOS_ReleaseTCPPayloadBuffer` returned -/
  | released (pass : Bool)
  deriving DecidableEq

def rxStep : RxAct → TcpSocket → TcpSocket × List RxEvent
  | .arrive mem data, s =>
    ((s.addRxdata mem 0 (some data) data.length).1,
      [.arrived (data.take (s.addRxdata mem 0 (some data) data.length).2.toNat)])
  | .recv intr len, s =>
    ((s.recv intr ⟨false, false⟩ true len).1,
      [.received (s.recv intr ⟨false, false⟩ true len).2.bytes])
  | .inPlace intr len, s =>
    ((s.inPlace intr len).1,
      [.received (s.inPlace intr len).2.1, .released (s.inPlace intr len).2.2])
  | .change state mallocError, s => ({ s with state := state, mallocError := mallocError }, [])

/-- Everything that was stored. -/
def arrived (log : List RxEvent) : Bytes :=
  log.flatMap fun
    | .arrived bytes => bytes
    | _ => []

/-- Everything that was received. -/
def received (log : List RxEvent) : Bytes :=
  log.flatMap fun
    | .received bytes => bytes
    | _ => []

theorem arrived_append (l m : List RxEvent) : arrived (l ++ m) = arrived l ++ arrived m :=
  List.flatMap_append

theorem received_append (l m : List RxEvent) : received (l ++ m) = received l ++ received m :=
  List.flatMap_append

/-- What has arrived and was not received is in the stream. -/
structure Stored (s : TcpSocket) (log : List RxEvent) : Prop where
  valid : s.valid = true
  size : s.rxStreamSize < 2 ^ 30
  queue : ∃ q, Carries s.rxStream q ∧ arrived log = received log ++ q
  passed : ∀ pass, .released pass ∈ log → pass = true

theorem Stored.step {s : TcpSocket} {log : List RxEvent} (h : Stored s log) (a : RxAct) :
    Stored (rxStep a s).1 (log ++ (rxStep a s).2) := by
  obtain ⟨hv, hsize, ⟨q, hq, hlog⟩, hpass⟩ := h
  have hcopy : ∀ intr len, ∃ q', Carries (s.recv intr ⟨false, false⟩ true len).1.rxStream q' ∧
      q = (s.recv intr ⟨false, false⟩ true len).2.bytes ++ q' := by
    intro intr len
    obtain ⟨hbytes, hrest, -⟩ := TcpSocket.recv_copy hq hv intr len
    exact ⟨_, hrest, by rw [hbytes, List.take_append_drop]⟩
  have hsame : ∀ intr len, (s.recv intr ⟨false, false⟩ true len).1.valid = true ∧
      (s.recv intr ⟨false, false⟩ true len).1.rxStreamSize < 2 ^ 30 := by
    intro intr len
    obtain ⟨-, -, heq⟩ := TcpSocket.recv_copy hq hv intr len
    rw [heq]
    exact ⟨hv, hsize⟩
  cases a with
  | arrive mem data =>
    obtain ⟨hcarries, hsize', hv'⟩ := TcpSocket.addRxdata_taken mem hq hsize data
    refine ⟨hv'.trans hv, hsize'.trans_lt hsize, ⟨_, hcarries, ?_⟩, ?_⟩
    · simp only [rxStep, arrived_append, received_append, hlog]
      simp [arrived, received]
    · simpa [rxStep] using hpass
  | recv intr len =>
    obtain ⟨q', hq', rfl⟩ := hcopy intr len
    refine ⟨(hsame intr len).1, (hsame intr len).2, ⟨q', hq', ?_⟩, ?_⟩
    · simp only [rxStep, arrived_append, received_append, hlog]
      simp [arrived, received]
    · simpa [rxStep] using hpass
  | inPlace intr len =>
    have hagrees := TcpSocket.inPlace_agrees hq hv intr len
    obtain ⟨q', hq', rfl⟩ := hcopy intr s.piece
    simp only [rxStep, hagrees]
    refine ⟨(hsame intr s.piece).1, (hsame intr s.piece).2, ⟨q', hq', ?_⟩, ?_⟩
    · simp only [arrived_append, received_append, hlog]
      simp [arrived, received]
    · intro pass hmem
      rcases List.mem_append.mp hmem with hmem | hmem
      · exact hpass pass hmem
      · simpa using hmem
  | change state mallocError =>
    simp only [rxStep, List.append_nil]
    exact ⟨hv, hsize, ⟨q, hq, hlog⟩, hpass⟩

/--
**What is received is what has arrived, in order, copied or in place.**

Whatever arrived, was received in either way and happened to the connection, nothing is lost or
repeated, every release passes, and wherever the run has got to, reading in place gives the same
bytes and leaves the same socket as receiving that many bytes would. There is something to read
unless everything was received.
-/
theorem rx_in_order (s : TcpSocket) (hnew : s.rxStream = none) (hv : s.valid = true)
    (hsize : s.rxStreamSize < 2 ^ 30) (acts : List RxAct) :
    (∃ q, q.length = (run rxStep acts s).1.rxSize ∧
        arrived (run rxStep acts s).2 = received (run rxStep acts s).2 ++ q) ∧
      (∀ pass, .released pass ∈ (run rxStep acts s).2 → pass = true) ∧
      ∀ intr len, (run rxStep acts s).1.inPlace intr len
          = (((run rxStep acts s).1.recv intr ⟨false, false⟩ true (run rxStep acts s).1.piece).1,
            ((run rxStep acts s).1.recv intr ⟨false, false⟩ true
              (run rxStep acts s).1.piece).2.bytes, true) ∧
        (0 < (run rxStep acts s).1.rxSize → 0 < (run rxStep acts s).1.piece) := by
  have hinv : Stored (run rxStep acts s).1 (run rxStep acts s).2 :=
    run_inv (P := Stored) rxStep (fun a s log h => h.step a)
      ⟨hv, hsize, ⟨[], by rw [hnew]; rfl, rfl⟩, by simp⟩ acts
  obtain ⟨hv', -, ⟨q, hq, hlog⟩, hpass⟩ := hinv
  refine ⟨⟨q, (TcpSocket.rxSize_eq hq).symm, hlog⟩, hpass, fun intr len => ?_⟩
  refine ⟨TcpSocket.inPlace_agrees hq hv' intr len, fun hpos => ?_⟩
  rw [TcpSocket.rxSize_eq hq] at hpos
  have hne : q ≠ [] := List.length_pos_iff.mp hpos
  unfold TcpSocket.piece
  split
  · next st hst =>
    rw [hst] at hq
    exact hq.2.getPtr.2.2 hne
  · next hst =>
    rw [hst] at hq
    exact absurd hq hne

/-- Bytes are received around the end of the ring, copied and in place. -/
def receiveAround : List RxAct :=
  [.arrive (some fun _ => 0) (ascii "abcde"), .recv false 3, .arrive none (ascii "fghij"),
    .inPlace false 9, .change .closeWait false]

theorem rx_in_order_around :
    received (run rxStep receiveAround (.connected 4)).2 = ascii "abcdefgh" ∧
      ∃ q, q.length = 2 ∧ arrived (run rxStep receiveAround (.connected 4)).2
        = received (run rxStep receiveAround (.connected 4)).2 ++ q := by
  have h := (rx_in_order (.connected 4) rfl rfl (by decide) receiveAround).1
  have hsize : (run rxStep receiveAround (.connected 4)).1.rxSize = 2 := by decide +kernel
  rw [hsize] at h
  exact ⟨by decide +kernel, h⟩

end UniNet.Tcp
