import UniNet.Http.Framing
import UniNet.Tcp.Socket

/-!
# Responses on their way out

The results about responses assume laws about the answers of the stack: `SpaceKept`, that a send
takes over what fits into the space that was just reported, and `Follows`, that it takes over
exactly what is free. Here the answers are those of `FreeRTOS_send` and `FreeRTOS_tx_space` on
the outgoing stream buffer, and the laws are theorems about it. The server sets the block time of
a send to zero, so none of its sends waits. The IP task may confirm bytes between any two calls.

* `OnSocket.carried` — what was confirmed and what waits are the bytes that were sent, in order
* `Ready.follows` — while nothing is confirmed a call of `client_work` sees the law `Follows`
* `reply_cut_at_space` — a handler's reply is cut where the outgoing stream is full
* `file_arrives` — a file goes through the socket as it is, behind its header
-/

namespace UniNet.Http

open Infra Tcp

variable {N : NetConfig}

/-! ## The bytes of a log -/

/-- What the stack has taken over with an event, be it header or body. -/
def Event.wire : Event → Bytes
  | .sendHeader _ _ header result => header.take result.toNat
  | .send data result => data.take result.toNat
  | _ => []

/-- Everything that was sent on a connection. -/
def wired (log : List Event) : Bytes := log.flatMap Event.wire

theorem wired_append (l m : List Event) : wired (l ++ m) = wired l ++ wired m :=
  List.flatMap_append

theorem wired_cons (e : Event) (log : List Event) : wired (e :: log) = e.wire ++ wired log :=
  List.flatMap_cons

/-- Behind the header there is nothing but response data. -/
theorem wired_transfer {log : List Event} (h : ∀ e ∈ log, e.isTransfer = true) :
    wired log = queued log := by
  refine List.flatMap_congr fun e he => ?_
  have := h e he
  cases e <;> first | rfl | cases this

theorem wired_silent {log : List Event} (h : ∀ e ∈ log, e.isSilent = true) : wired log = [] := by
  refine List.flatMap_eq_nil_iff.mpr fun e he => ?_
  have := h e he
  cases e <;> first | rfl | cases this

/-! ## Connected sockets -/

/-- An open socket with its outgoing stream, in which `q` waits. -/
structure Ready (s : TcpSocket) (q : Bytes) : Prop where
  isOpen : s.Open
  stream : s.txStream.isSome = true
  carries : Carries s.txStream q
  size : s.txStreamSize < 2 ^ 30

section

variable {s : TcpSocket} {q : Bytes}

theorem Ready.confirm (h : Ready s q) (count : Nat) :
    Ready (s.confirm count) (q.drop count) := by
  have hsame := TcpSocket.sameStream_confirm s count
  exact ⟨TcpSocket.open_confirm h.isOpen count, hsame.stream h.stream,
    TcpSocket.carries_confirm h.carries count, hsame.size.trans_lt h.size⟩

theorem Ready.send (h : Ready s q) (mem : Memory) (d : Bytes) :
    Ready (s.send mem [] d).socket (q ++ d.take (s.send mem [] d).result.toNat) := by
  have hmem : s.txStream.isSome = true ∨ mem.isSome = true := Or.inl h.stream
  obtain ⟨hopen, hsome, -⟩ := TcpSocket.send_open h.isOpen hmem h.carries h.size d
  obtain ⟨-, -, -, hsame⟩ := TcpSocket.send_taken mem [] h.carries h.size d
  exact ⟨hopen, hsome (Or.inl h.stream), TcpSocket.send_now mem h.carries h.size d,
    hsame.size.trans_lt h.size⟩

theorem Ready.txFree_lt (h : Ready s q) : s.txFree < 2 ^ 31 := by
  obtain ⟨st, hst⟩ := Option.isSome_iff_exists.mp h.stream
  have hc := h.carries
  rw [hst] at hc
  have hspace := hc.2.getSpace_eq
  have := hc.1
  rw [TcpSocket.txFree, hst]
  simp only
  omega

/-- Once the stream exists the space that is reported is the space that there is. -/
theorem Ready.txSpace_eq (h : Ready s q) : s.txSpace = s.txFree := by
  obtain ⟨st, hst⟩ := Option.isSome_iff_exists.mp h.stream
  rw [TcpSocket.txSpace, TcpSocket.txFree, hst]

/-- What was taken over is no longer free. -/
theorem Ready.txFree_send (h : Ready s q) (mem : Memory) {d : Bytes} (hd : d.length < 2 ^ 31) :
    SendOutcome d.length s.txFree (s.send mem [] d).result ∧
      (s.send mem [] d).socket.txFree = s.txFree - (s.send mem [] d).result.toNat := by
  have hmem : s.txStream.isSome = true ∨ mem.isSome = true := Or.inl h.stream
  have hresult := (TcpSocket.send_open h.isOpen hmem h.carries h.size d).2.2 hd
  have hcarries := TcpSocket.send_now mem h.carries h.size d
  obtain ⟨-, -, -, hsame⟩ := TcpSocket.send_taken mem [] h.carries h.size d
  have houtcome : SendOutcome d.length s.txFree (s.send mem [] d).result := by
    have hnil : d = [] ↔ d.length = 0 := List.length_eq_zero_iff.symm
    have hneg : -enospc < 0 := by decide
    rw [hresult]
    refine ⟨fun h0 => if_pos (hnil.mpr h0), fun hpos h0 => ?_, fun hpos hfree => ?_⟩
    · rw [if_neg (fun h => by have := hnil.mp h; omega), if_pos h0]
      exact hneg
    · rw [if_neg (fun h => by have := hnil.mp h; omega), if_neg (by omega)]
  refine ⟨houtcome, ?_⟩
  have hle : (s.send mem [] d).result.toNat ≤ d.length := by
    rcases Nat.eq_zero_or_pos d.length with h0 | hpos
    · have := houtcome.of_empty h0
      omega
    · rcases Nat.eq_zero_or_pos s.txFree with hf | hf
      · have := houtcome.of_full hpos hf
        omega
      · have := houtcome.of_space hpos hf
        omega
  rw [TcpSocket.txFree_eq hcarries, TcpSocket.txFree_eq h.carries, hsame.capacity,
    List.length_append,
    List.length_take, Nat.min_eq_left hle, Nat.sub_sub]

end

/-! ## Logs on a socket -/

/-- The event reports what the stack answers. -/
def Event.AnsweredBy (mem : Memory) (s : TcpSocket) : Event → Prop
  | .txSpace space => space = s.txSpace
  | .sendHeader _ _ header result => result = (s.send mem [] header).result
  | .send data result => result = (s.send mem [] data).result
  | _ => True

instance (mem : Memory) (s : TcpSocket) : (e : Event) → Decidable (e.AnsweredBy mem s)
  | .txSpace space => inferInstanceAs (Decidable (space = s.txSpace))
  | .sendHeader _ _ header result =>
    inferInstanceAs (Decidable (result = (s.send mem [] header).result))
  | .send data result => inferInstanceAs (Decidable (result = (s.send mem [] data).result))
  | .recv .. | .headers .. | .start .. | .call _ | .nullCall | .fdSet _ | .fdClr _ | .accept _
  | .closesocket => inferInstanceAs (Decidable True)

/-- The socket behind an event. -/
def Event.afterwards (mem : Memory) (s : TcpSocket) : Event → TcpSocket
  | .sendHeader _ _ header _ => (s.send mem [] header).socket
  | .send data _ => (s.send mem [] data).socket
  | _ => s

/--
The log of a client on a socket that the IP task works on at the same time. `OnSocket s log out
s'` takes the socket from `s` to `s'`, and `out` is what the peer has confirmed by then.
-/
inductive OnSocket : TcpSocket → List Event → Bytes → TcpSocket → Prop
  | done (s : TcpSocket) : OnSocket s [] [] s
  | confirm {s s' : TcpSocket} {log : List Event} {out : Bytes} (count : Nat)
      (h : OnSocket (s.confirm count) log out s') : OnSocket s log (s.queued count ++ out) s'
  | event {s s' : TcpSocket} {e : Event} {log : List Event} {out : Bytes} (mem : Memory)
      (he : e.AnsweredBy mem s) (h : OnSocket (e.afterwards mem s) log out s') :
      OnSocket s (e :: log) out s'

section

variable {s s' : TcpSocket} {q out : Bytes} {log : List Event}

theorem Event.carried {e : Event} {mem : Memory} (he : e.AnsweredBy mem s)
    (hq : Carries s.txStream q) (hsize : s.txStreamSize < 2 ^ 30) :
    Carries (e.afterwards mem s).txStream (q ++ e.wire) ∧
      (e.afterwards mem s).txStreamSize = s.txStreamSize := by
  cases e with
  | sendHeader status len header result =>
    rw [Event.wire, show result = (s.send mem [] header).result from he]
    obtain ⟨-, -, -, hsame⟩ := TcpSocket.send_taken mem [] hq hsize header
    exact ⟨TcpSocket.send_now mem hq hsize header, hsame.size⟩
  | send data result =>
    rw [Event.wire, show result = (s.send mem [] data).result from he]
    obtain ⟨-, -, -, hsame⟩ := TcpSocket.send_taken mem [] hq hsize data
    exact ⟨TcpSocket.send_now mem hq hsize data, hsame.size⟩
  | _ => exact ⟨(List.append_nil q).symm ▸ hq, rfl⟩

/-- **What was confirmed and what waits are the bytes that were sent, in order.** -/
theorem OnSocket.carried (h : OnSocket s log out s') (hq : Carries s.txStream q)
    (hsize : s.txStreamSize < 2 ^ 30) :
    ∃ q', Carries s'.txStream q' ∧ q ++ wired log = out ++ q' := by
  induction h generalizing q with
  | done s => exact ⟨q, hq, List.append_nil q⟩
  | @confirm s s' log out count h ih =>
    have hsame := (TcpSocket.sameStream_confirm s count).size
    obtain ⟨q', hq', heq⟩ := ih (TcpSocket.carries_confirm hq count) (hsame.trans_lt hsize)
    refine ⟨q', hq', ?_⟩
    rw [TcpSocket.queued_eq hq, List.append_assoc, ← heq, ← List.append_assoc,
      List.take_append_drop]
  | @event s s' e log out mem he h ih =>
    obtain ⟨hcarries, hsame⟩ := Event.carried he hq hsize
    obtain ⟨q', hq', heq⟩ := ih hcarries (hsame.trans_lt hsize)
    refine ⟨q', hq', ?_⟩
    rw [wired_cons, ← List.append_assoc]
    exact heq

theorem Ready.afterwards {e : Event} {mem : Memory} (h : Ready s q) (he : e.AnsweredBy mem s) :
    Ready (e.afterwards mem s) (q ++ e.wire) := by
  cases e with
  | sendHeader status len header result =>
    rw [Event.wire, show result = (s.send mem [] header).result from he]
    exact h.send mem header
  | send data result =>
    rw [Event.wire, show result = (s.send mem [] data).result from he]
    exact h.send mem data
  | _ => exact (List.append_nil q).symm ▸ h

/-- The space that an event has reported is still there. -/
def Event.Promised (s : TcpSocket) : Event → Prop
  | .txSpace space => u32OfInt space ≤ s.txFree
  | _ => True

/-- **A connected socket keeps what it promises**, whatever is confirmed in between. -/
theorem OnSocket.spaceKept (h : OnSocket s log out s') (hr : Ready s q) {e : Event}
    (hp : e.Promised s) : (e :: log).IsChain SpaceKept := by
  induction h generalizing q e with
  | done s => exact List.isChain_singleton e
  | @confirm s s' log out count h ih =>
    have hmore := TcpSocket.txFree_confirm hr.carries count
    refine ih (hr.confirm count) ?_
    cases e with
    | txSpace space => exact Nat.le_trans hp hmore
    | _ => trivial
  | @event s s' e' log out mem he h ih =>
    refine List.isChain_cons_cons.mpr ⟨?_, ih (hr.afterwards he) ?_⟩
    · unfold SpaceKept
      split
      · next space data result =>
        intro hle
        rw [show result = (s.send mem [] data).result from he]
        have hlt := hr.txFree_lt
        have hpr : u32OfInt space ≤ s.txFree := hp
        exact TcpSocket.send_fits [] hr.isOpen (Or.inl hr.stream) hr.carries hr.size (by omega)
          (by omega)
      · trivial
    · cases e' with
      | txSpace space =>
        have hspace : space = s.txSpace := he
        have hlt := hr.txFree_lt
        rw [hr.txSpace_eq] at hspace
        show u32OfInt space ≤ s.txFree
        rw [hspace, u32OfInt_natCast (by omega)]
      | _ => trivial

end

/-! ## Between two confirmations -/

/-- The events report what the stack answers, one after the other and with nothing in between. -/
def Undisturbed (mem : Memory) : TcpSocket → List Event → Prop
  | _, [] => True
  | s, e :: log => e.AnsweredBy mem s ∧ Undisturbed mem (e.afterwards mem s) log

instance decidableUndisturbed (mem : Memory) :
    (s : TcpSocket) → (log : List Event) → Decidable (Undisturbed mem s log)
  | _, [] => inferInstanceAs (Decidable True)
  | s, e :: log =>
    have := decidableUndisturbed mem (e.afterwards mem s) log
    inferInstanceAs (Decidable (e.AnsweredBy mem s ∧ Undisturbed mem (e.afterwards mem s) log))

/-- The socket behind a log. -/
def replayed (mem : Memory) (s : TcpSocket) (log : List Event) : TcpSocket :=
  log.foldl (fun s e => e.afterwards mem s) s

/-- The data of a send are not longer than `BaseType_t` can say. -/
def Event.Short : Event → Prop
  | .sendHeader _ _ header _ => header.length < 2 ^ 31
  | .send data _ => data.length < 2 ^ 31
  | _ => True

section

variable {mem : Memory} {s : TcpSocket} {q : Bytes} {log : List Event}

theorem Ready.replayed (hr : Ready s q) (h : Undisturbed mem s log) :
    Ready (replayed mem s log) (q ++ wired log) := by
  induction log generalizing s q with
  | nil => exact (List.append_nil q).symm ▸ hr
  | cons e log ih =>
    rw [wired_cons, ← List.append_assoc]
    exact ih (hr.afterwards h.1) h.2

/-- What the stack answers to an event is what its free space allows. -/
theorem Ready.allowed {e : Event} (hr : Ready s q) (he : e.AnsweredBy mem s) (hs : e.Short) :
    e.Allowed s.txFree ∧ (e.afterwards mem s).txFree = s.txFree - e.taken := by
  cases e with
  | txSpace space => exact ⟨(show space = s.txSpace from he).trans hr.txSpace_eq, rfl⟩
  | sendHeader status len header result =>
    have hresult : result = (s.send mem [] header).result := he
    rw [Event.Allowed, Event.taken, hresult]
    exact hr.txFree_send mem hs
  | send data result =>
    have hresult : result = (s.send mem [] data).result := he
    rw [Event.Allowed, Event.taken, hresult]
    exact hr.txFree_send mem hs
  | _ => exact ⟨trivial, rfl⟩

/-- **A connected socket follows the law of the free space.** -/
theorem Ready.follows (hr : Ready s q) (h : Undisturbed mem s log) (hs : ∀ e ∈ log, e.Short) :
    Follows s.txFree log := by
  induction log generalizing s q with
  | nil => trivial
  | cons e log ih =>
    rw [List.forall_mem_cons] at hs
    obtain ⟨hallowed, hfree⟩ := hr.allowed h.1 hs.1
    refine ⟨hallowed, ?_⟩
    rw [← hfree]
    exact ih (hr.afterwards h.1) h.2 hs.2

end

/-! ### Every send is short -/

section

variable {inp : Input} {c : Client N}

theorem Event.short_of_isSilent {e : Event} (h : e.isSilent = true) : e.Short := by
  cases e <;> trivial

theorem headerBytes_short (status : Status) {type : Option Bytes} (ht : FitsType type) {n : Nat}
    (hn : n < 2 ^ 32) : (headerBytes N status type n).length < 2 ^ 31 := by
  have := (headerBytes_length N status ht hn).2
  omega

theorem sendReply_short {reply : HandlerReply} {type : Bytes} (ht : FitsType (some type)) :
    ∀ e ∈ (sendReply inp c reply type).events, e.Short := by
  have hlen : announced inp reply < 2 ^ 32 :=
    Nat.lt_of_le_of_lt (Nat.min_le_left _ _) (u32OfInt_lt _)
  have htx := N.txBuf_lt
  rw [(sendReply_eq inp c reply type).1, List.forall_mem_append, List.forall_mem_cons,
    List.forall_mem_singleton]
  refine ⟨⟨trivial, headerBytes_short .ok ht hlen⟩, ?_⟩
  split
  · rw [List.forall_mem_singleton]
    show ((c.bufTx.write 0 reply.out).slice 0 (announced inp reply)).length < 2 ^ 31
    rw [Buf.length_slice]
    omega
  · exact List.forall_mem_nil _

end

/-! ## The reply of a handler -/

section

variable {inp : Input} {c : Client N} {reply : HandlerReply} {type : Bytes}

theorem slice_write_take {n : Nat} (b : Buf n) {data : Bytes} {k : Nat} (hk : k ≤ data.length)
    (hn : k ≤ n) : (b.write 0 data).slice 0 k = data.take k := by
  rw [Buf.slice, List.drop_zero, Buf.write]
  simp only [List.take_zero, List.nil_append, List.take_take, Nat.min_eq_left hn]
  rw [List.take_append_of_le_length hk]

/-- **A reply goes out as far as there is space**: header and body together are cut off where
the space ends. -/
theorem wired_sendReply {t : Nat} (ht : t < 2 ^ 31) (htype : FitsType (some type))
    (hsize : reply.size ≤ N.txBuf) (hout : reply.size ≤ reply.out.length)
    (hlaw : Follows t (sendReply inp c reply type).events) :
    wired (sendReply inp c reply type).events
      = (headerBytes N .ok (some type) (min t reply.size) ++ reply.out.take reply.size).take t := by
  obtain ⟨ha, hheader, hbody⟩ := sendReply_follows ht hlaw
  have htx := N.txBuf_lt
  have hi32 : i32 reply.size = reply.size := i32_of_lt (by omega)
  rw [hi32, u32OfInt_natCast (by omega)] at ha
  obtain ⟨hpos, -⟩ := headerBytes_length N .ok htype (show announced inp reply < 2 ^ 32 by omega)
  rw [ha] at hheader hpos hbody
  rw [(sendReply_eq inp c reply type).1, ha]
  rw [slice_write_take _ (by omega) (by omega)]
  generalize headerBytes N .ok (some type) (min t reply.size) = header at hheader hpos ⊢
  by_cases ht0 : t = 0
  · have hneg := hheader.of_full hpos ht0
    rw [if_neg (by omega), ht0]
    simp [wired, Event.wire, Int.toNat_of_nonpos (Int.le_of_lt hneg)]
  · have h0 := hheader.of_space hpos (by omega)
    have hb := hbody (by omega) (by omega)
    have hr0 : (inp.send 0).toNat = min header.length t := by omega
    rw [if_pos (by omega)]
    simp only [wired, List.cons_append, List.nil_append, List.flatMap_cons, List.flatMap_nil,
      Event.wire, List.append_nil, List.nil_append, hr0, List.take_take]
    by_cases hroom : t ≤ header.length
    · -- the header takes all the space
      have hr1 : (inp.send 1).toNat = 0 := by
        rcases Nat.eq_zero_or_pos (min (min t reply.size) N.txBuf) with hz | hp
        · have := hb.of_empty hz
          omega
        · have := hb.of_full hp (by omega)
          omega
      rw [hr1, Nat.zero_min, List.take_zero, List.append_nil, Nat.min_eq_right hroom,
        List.take_append_of_le_length hroom]
    · have hr1 : min (inp.send 1).toNat (min t reply.size)
          = min (t - header.length) reply.size := by
        rcases Nat.eq_zero_or_pos (min (min t reply.size) N.txBuf) with hz | hp
        · have := hb.of_empty hz
          omega
        · have := hb.of_space hp (by omega)
          omega
      have hle : header.length ≤ t := by omega
      rw [hr1, Nat.min_eq_left hle, List.take_append, List.take_of_length_le (Nat.le_refl _),
        List.take_of_length_le hle, List.take_take]

end

/--
**A reply is cut off where the outgoing stream is full.**

A call of `client_work` asks a handler for its reply on a connected socket, and nothing is
confirmed during the call. Then header and body are appended to what waits in the stream, as far
as there is space: the peer gets `txFree` bytes of the response and no more, although the
announced length is the smaller one of the size of the reply and the space.
-/
theorem reply_cut_at_space (ctx : Context) (c : Client N) (hc : ClientInv ctx c) (inp : Input)
    (k : HandlerCall) (mem : Memory) (s : TcpSocket) (q : Bytes) (hr : Ready s q)
    (hk : k ∈ asked (clientWork ctx inp c).events)
    (hsize : (inp.handler k).size ≤ N.txBuf)
    (hout : (inp.handler k).size ≤ (inp.handler k).out.length)
    (hon : Undisturbed mem s (clientWork ctx inp c).events) :
    ∃ type, Ready (replayed mem s (clientWork ctx inp c).events)
      (q ++ (headerBytes N .ok (some type) (min s.txFree (inp.handler k).size)
        ++ (inp.handler k).out.take (inp.handler k).size).take s.txFree) := by
  rcases (clientWork_work hc inp).answer with ⟨hnone, -⟩ | ⟨pre, evs, hevents, hpre, hans⟩
  · rw [hnone] at hk
    cases hk
  · have hready := hr.replayed hon
    rw [hevents] at hk hon hready ⊢
    rw [asked_append, asked_eq_nil fun e he => Event.asked_of_isPrelude (hpre e he),
      List.nil_append] at hk
    obtain ⟨d, type, bits, htype, -, rfl⟩ := hans.of_asked hk
    have hlaw : Follows s.txFree _ := hr.follows hon (by
      simp only [List.forall_mem_append, List.forall_mem_cons]
      exact ⟨fun e he => Event.short_of_isSilent (Event.isSilent_of_isPrelude (hpre e he)),
        trivial, sendReply_short htype, trivial, List.forall_mem_nil _⟩)
    refine ⟨type, ?_⟩
    rw [wired_append, wired_silent fun e he => Event.isSilent_of_isPrelude (hpre e he),
      List.nil_append, wired_cons, wired_append] at hready
    rw [← wired_sendReply hr.txFree_lt htype hsize hout (follows_reply hpre hlaw)]
    simpa [Event.wire, wired] using hready

/-- A reply of 20 bytes and 195 bytes of space, of which the header takes all but 13. The peer is
told of 20 bytes, and gets 13. -/
theorem reply_cut_at_space_short :
    let url := CString.ofBytes (ascii "/a")
    let ctx : Context := ⟨⟨true, [⟨url, .post, some 1, 0⟩]⟩, ⟨true, []⟩, 1⟩
    let k : HandlerCall := ⟨1, 0, some NetConfig.default.txBuf, none⟩
    let inp := { Input.idle with
      recv := .data (ascii "POST /a HTTP/1.1\r\nContent-Length: 0\r\n\r\n")
      txSpace := fun _ => 195
      send := fun k => if k = 0 then 182 else 13
      handler := fun _ => ⟨20, List.replicate 20 65⟩ }
    let mem : Memory := some fun _ => 0
    let s : TcpSocket := ⟨true, .established, false, false, none,
      some (newStream 192 fun _ => 0), 192, 192⟩
    let o := clientWork ctx inp (Client.new NetConfig.default 7)
    s.txFree = 195 ∧
      (∃ type, Ready (replayed mem s o.events)
        ([] ++ (headerBytes NetConfig.default .ok (some type) (min s.txFree (inp.handler k).size)
          ++ (inp.handler k).out.take (inp.handler k).size).take s.txFree)) ∧
      (replayed mem s o.events).queued 1000
        = headerBytes NetConfig.default .ok (some (ascii "text/plain")) 20
          ++ List.replicate 13 65 := by
  intro url ctx k inp mem s o
  have hready : Ready s [] :=
    ⟨⟨rfl, rfl, rfl, rfl⟩, rfl, carries_newStream (by decide) _, by decide⟩
  exact ⟨by decide +kernel, reply_cut_at_space ctx (Client.new NetConfig.default 7)
    (Or.inl ⟨[], awaiting_new NetConfig.default 7⟩) inp k mem s [] hready (by decide +kernel)
    (by decide +kernel) (by decide +kernel) (by decide +kernel), by decide +kernel⟩

/-! ## A file -/

section

variable {s s' : TcpSocket} {q out : Bytes} {log : List Event} {e : Event}

/-- What is confirmed in front of the first event leaves at least as much space for it. -/
theorem OnSocket.first (h : OnSocket s (e :: log) out s') (ho : s.Open)
    (hq : Carries s.txStream q) (hsize : s.txStreamSize < 2 ^ 30) :
    ∃ s₁ q₁ out₁ mem, s₁.Open ∧ Carries s₁.txStream q₁ ∧ s₁.txStreamSize < 2 ^ 30 ∧
      s.txFree ≤ s₁.txFree ∧ e.AnsweredBy mem s₁ ∧
      OnSocket (e.afterwards mem s₁) log out₁ s' := by
  generalize hl : e :: log = l at h
  induction h generalizing q with
  | done s => cases hl
  | @confirm s s' l out count h ih =>
    have hmore := TcpSocket.txFree_confirm hq count
    obtain ⟨s₁, q₁, out₁, mem, ho₁, hq₁, hsize₁, hfree, he, hrest⟩ :=
      ih (TcpSocket.open_confirm ho count) (TcpSocket.carries_confirm hq count)
        ((TcpSocket.sameStream_confirm s count).size.trans_lt hsize) hl
    exact ⟨s₁, q₁, out₁, mem, ho₁, hq₁, hsize₁, Nat.le_trans hmore hfree, he, hrest⟩
  | @event s s' e' l out mem he h ih =>
    rw [List.cons.injEq] at hl
    obtain ⟨rfl, rfl⟩ := hl
    exact ⟨s, q, out, mem, ho, hq, hsize, Nat.le_refl _, he, h⟩

/-- A send that was not refused had a stream to go to. -/
theorem send_had_stream {mem : Memory} {d : Bytes} (ho : s.Open) (hne : d ≠ [])
    (h : 0 ≤ (s.send mem [] d).result) : s.txStream.isSome = true ∨ mem.isSome = true := by
  by_contra hno
  rw [not_or] at hno
  have hst : s.txStream = none := by simpa using hno.1
  have hmem : mem = none := by simpa using hno.2
  have hcheck : (s.sendCheck mem d.length).2 = -enomem := by
    simp [TcpSocket.sendCheck, ho.valid, ho.mallocError, ho.state, ho.finSent, TcpState.isOver,
      hne, hst, hmem]
  have hneg : -enomem < 0 := by decide
  have hsend : (s.send mem [] d).result = -enomem := by
    unfold TcpSocket.send
    simp only [hcheck, if_neg (show ¬ 0 < -enomem by omega)]
  omega

/-- A transfer on a socket: the law that `Transfer` asks for holds, and what it has queued is
behind the header. -/
theorem Transfer.onSocket {f : HttpFile} {c : Client N} {hdr : Bytes} {r : Int}
    {tail : List Event} (ht : Transfer f c (.sendHeader .ok f.size hdr r :: tail))
    (hon : OnSocket s (.sendHeader .ok f.size hdr r :: tail) out s') (ho : s.Open)
    (hq : Carries s.txStream q) (hsize : s.txStreamSize < 2 ^ 30) (hne : hdr ≠ []) (hr : 0 ≤ r)
    (hshort : hdr.length < 2 ^ 31) :
    (∃ sent, (c.Cleared ∧ sent = f.size ∨ ¬ c.Cleared ∧ sent = c.fileOffset ∧ sent < f.size) ∧
      q ++ hdr.take r.toNat ++ f.data.take sent = out ++ s'.queued s'.txSize) ∧
      (hdr.length ≤ s.txFree → r = hdr.length) := by
  obtain ⟨s₁, q₁, out₁, mem, ho₁, hq₁, hsize₁, hfree, he, hrest⟩ := hon.first ho hq hsize
  have hresult : r = (s₁.send mem [] hdr).result := he
  have hstream : s₁.txStream.isSome = true ∨ mem.isSome = true :=
    send_had_stream ho₁ hne (by omega)
  -- behind the header the stream exists, and the socket keeps its promises
  have hready : Ready (s₁.send mem [] hdr).socket
      (q₁ ++ hdr.take (s₁.send mem [] hdr).result.toNat) := by
    obtain ⟨hopen, hsome, -⟩ := TcpSocket.send_open ho₁ hstream hq₁ hsize₁ hdr
    obtain ⟨-, -, -, hsame⟩ := TcpSocket.send_taken mem [] hq₁ hsize₁ hdr
    exact ⟨hopen, hsome (Or.inr hne), TcpSocket.send_now mem hq₁ hsize₁ hdr,
      hsame.size.trans_lt hsize₁⟩
  have hlaw : (.sendHeader .ok f.size hdr r :: tail).IsChain SpaceKept :=
    OnSocket.spaceKept hrest hready trivial
  obtain ⟨hdr', r', tail', hlog, htail⟩ := ht.header
  simp only [List.cons.injEq] at hlog
  obtain ⟨-, rfl⟩ := hlog
  obtain ⟨q', hq', hbytes⟩ := hon.carried hq hsize
  rw [wired_cons, wired_transfer htail, ← List.append_assoc] at hbytes
  rw [TcpSocket.queued_eq hq', TcpSocket.txSize_eq hq', List.take_length, ← hbytes]
  refine ⟨?_, fun hfits => ?_⟩
  · rcases ht.progress hlaw with ⟨hcl, hqueued⟩ | ⟨hserv, hlt, hqueued⟩
    · refine ⟨f.size, Or.inl ⟨hcl, rfl⟩, ?_⟩
      rw [HttpFile.size, List.take_length, ← hqueued]
      rfl
    · refine ⟨c.fileOffset, Or.inr ⟨hserv.not_cleared, rfl, hlt⟩, ?_⟩
      rw [← hqueued]
      rfl
  · rw [hresult]
    exact TcpSocket.send_fits [] ho₁ hstream hq₁ hsize₁ hshort (Nat.le_trans hfits hfree)

end

/-- The first event of a call for a file is its header. -/
theorem cmdGetStart_header {ctx : Context} {c : Client N} {url : CString} {f : HttpFile}
    (inp : Input) (hhandler : c.handler = none) (hoff : c.fileOffset = 0)
    (hsent : c.headerSent = false) (hh : ctx.findHandler .get url = none)
    (hf : ctx.findFile url = some f) :
    ∃ tail, (cmdGetStart ctx inp c url).events = .sendHeader .ok f.size
      (headerBytes N .ok (some (contentType (some url))) f.size) (inp.send 0) :: tail := by
  have hsel : Selected { c with commandType := .get, file := some f } f :=
    ⟨rfl, rfl, hhandler, fun h => absurd h (by simp only [hsent]; decide),
      by simp only [hoff]; omega⟩
  rw [cmdGetStart_file hh hhandler hf]
  obtain ⟨tail, htail, -⟩ := cmdGetSendfile_events inp (some url) hsel
  rw [(sendfileHeader_eq (c := { c with commandType := .get, file := some f }) inp f (some url)
    hsent).1] at htail
  exact ⟨tail, htail⟩

/--
**A file arrives as it is.**

A GET for a file starts a transfer on an open socket, in whose outgoing stream `q` still waits,
and `cmd_get_next` is called any number of times. The stack answers as `FreeRTOS_send` and
`FreeRTOS_tx_space` do, and the IP task confirms bytes at any time. If the header was not refused
then what the peer has confirmed, and what waits, is `q`, the header as far as it was taken over,
and the file up to the offset: nothing is lost, repeated or out of order, and all of it is there
exactly when the client is cleared. The header is taken over as a whole if there was space for it.
-/
theorem file_arrives (ctx : Context) (c : Client N) (url : CString) (f : HttpFile)
    (hhandler : c.handler = none) (hoff : c.fileOffset = 0) (hsent : c.headerSent = false)
    (hh : ctx.findHandler .get url = none) (hf : ctx.findFile url = some f)
    (inp : Input) (hok : 0 ≤ inp.send 0) (inps : List Input)
    (s : TcpSocket) (q : Bytes) (ho : s.Open) (hq : Carries s.txStream q)
    (hsize : s.txStreamSize < 2 ^ 30) :
    let o := cmdGetStart ctx inp c url
    let d := (run getNext inps o.client).1
    let log := o.events ++ (run getNext inps o.client).2
    let header := headerBytes N .ok (some (contentType (some url))) f.size
    ∀ out s', OnSocket s log out s' →
      (∃ sent, (d.Cleared ∧ sent = f.size ∨ ¬ d.Cleared ∧ sent = d.fileOffset ∧ sent < f.size) ∧
        q ++ header.take (inp.send 0).toNat ++ f.data.take sent
          = out ++ s'.queued s'.txSize) ∧
        (header.length ≤ s.txFree → inp.send 0 = header.length) := by
  intro o d log header out s' hon
  have htransfer : Transfer f d log :=
    run_inv_from getNext (fun i c log (_ : True) h => h.getNext i)
      (transfer_start inp hhandler hoff hsent hh hf hok) inps fun _ _ => trivial
  obtain ⟨tail, htail⟩ := cmdGetStart_header inp hhandler hoff hsent hh hf
  have hlog : log = .sendHeader .ok f.size header (inp.send 0)
      :: (tail ++ (run getNext inps o.client).2) := by
    show (cmdGetStart ctx inp c url).events ++ _ = _
    rw [htail]
    rfl
  have htype : FitsType (some (contentType (some url))) := contentType_length (some url)
  obtain ⟨hpos, hmax⟩ := headerBytes_length N .ok htype f.size_lt
  rw [hlog] at htransfer hon
  exact htransfer.onSocket hon ho hq hsize (List.length_pos_iff.mp hpos) hok
    (Nat.lt_of_le_of_lt hmax (by decide))

/-- A file of three bytes, and a peer that confirms the first half of the header meanwhile. -/
theorem file_arrives_three_bytes :
    let url := CString.ofBytes (ascii "/a")
    let f : HttpFile := ⟨url, [1, 2, 3], by decide⟩
    let ctx : Context := ⟨⟨true, []⟩, ⟨true, [f]⟩, 1⟩
    let inp := { Input.idle with
      txSpace := fun k => if k = 0 then 23 else 120
      send := fun k => if k = 0 then 180 else 3 }
    let s : TcpSocket := ⟨true, .established, false, false, none, none, 200, 200⟩
    let o := cmdGetStart ctx inp (Client.new NetConfig.default 0) url
    let header := headerBytes NetConfig.default .ok (some (contentType (some url))) f.size
    ∃ s', OnSocket s (o.events ++ (run getNext [] o.client).2) (header.take 100) s' ∧
      ∃ sent, [] ++ header.take (inp.send 0).toNat ++ f.data.take sent
          = header.take 100 ++ s'.queued s'.txSize := by
  intro url f ctx inp s o header
  let mem : Memory := some fun _ => 0
  have hevents : o.events ++ (run getNext [] o.client).2 = [.sendHeader .ok 3 header 180,
      .txSpace 23, .send [1, 2, 3] 3, .txSpace 120, .fdClr [.write]] := by decide +kernel
  let s₁ := (s.send mem [] header).socket
  let s₂ := (s₁.send mem [] [1, 2, 3]).socket
  have hout : s₂.queued 100 ++ [] = header.take 100 := by decide +kernel
  have hon : OnSocket s (o.events ++ (run getNext [] o.client).2) (header.take 100)
      (s₂.confirm 100) := by
    rw [hevents, ← hout]
    exact .event mem (show (180 : Int) = (s.send mem [] header).result by decide +kernel)
      (.event mem (show (23 : Int) = s₁.txSpace by decide +kernel)
        (.event mem (show (3 : Int) = (s₁.send mem [] [1, 2, 3]).result by decide +kernel)
          (.confirm 100 (.event mem (show (120 : Int) = (s₂.confirm 100).txSpace by decide +kernel)
            (.event mem trivial (.done _))))))
  have hh : ctx.findHandler .get url = none := rfl
  have hf : ctx.findFile url = some f := by decide +kernel
  obtain ⟨sent, -, hbytes⟩ := (file_arrives ctx (Client.new NetConfig.default 0) url f rfl rfl rfl
    hh
    hf inp (by decide) [] s [] ⟨rfl, rfl, rfl, rfl⟩ rfl (by decide) _ _ hon).1
  exact ⟨_, hon, sent, hbytes⟩

end UniNet.Http
