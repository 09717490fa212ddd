import UniNet.Udp.Client
import UniNet.Udp.Lifecycle

/-!
# What the send functions return

`uni_net_udp_client_sendto` and `uni_net_udp_server_sendto` pass a buffer on to `FreeRTOS_sendto`
and map what it returns: the length is a success, 0 a timeout, and less than 0 an error. The
stack returns 0 for a payload that is too long as well, and for a socket that is not valid, and
the caller is told to try again.

* `castLen_of_lt` — the cast of the length on the way leaves alone what fits a packet
* `sendDatagram_fits`, `sendDatagram_long`, `sendDatagram_closed` — what becomes of a send
* `sendto_means_iff` — the results mean what they say for payloads that fit, and for no other
-/

namespace UniNet.Udp

open Infra

/-! ## The source -/

/-- What the stack knows of the socket of a server that is initialised: it was bound then. -/
def SocketHandle.socket : SocketHandle → Option Socket
  | .valid _ => some ⟨.udp, true⟩
  | _ => none

/-- `uni_net_udp_server_sendto`, once it has the mutex or does not need it. -/
def serverSendto (w mtu : Nat) (a : SendAnswer) (ctx : ServerContext) (buf : Option Bytes)
    (remote : Option Endpoint) : Sent :=
  match buf, remote with
  | some data, some remote =>
    if data = [] ∨ ctx.initialized = false then ⟨-einval, ctx.socket.socket, []⟩
    else sendDatagram w mtu a ctx.socket.socket ⟨data, remote.sockaddr⟩
  | _, _ => ⟨-einval, ctx.socket.socket, []⟩

/-- The call gets past the mutex: it is free, or the call is made by the task. -/
def Server.admits (s : Server) (fromTask : Bool) : Bool :=
  (fromTask && s.task.isSome) || !s.taken

/-! ## The cast -/

/-- **A length that fits a packet survives the cast.** -/
theorem castLen_of_lt {w len : Nat} (hw : 32 ≤ w) (h : len < 2 ^ 31) : castLen w len = len := by
  have hpow : (2 : Int) ^ 32 ≤ 2 ^ w := by
    exact_mod_cast Nat.pow_le_pow_right (by omega) hw
  unfold castLen
  rw [i32_of_lt h, Int.emod_eq_of_lt (by omega) (by omega)]
  rfl

/-- With a `size_t` of 32 bits every length does. -/
theorem castLen_32 {len : Nat} (h : len < 2 ^ 32) : castLen 32 len = len := by
  unfold castLen i32
  rw [show (2 : Int) ^ 32 = ((2 ^ 32 : Nat) : Int) by norm_cast, Int.bmod_emod]
  omega

/-! ## What becomes of a send -/

/-- The datagram goes to the IP task, and its length is returned. -/
def Sent.Succeeds (o : Sent) (d : Datagram) : Prop :=
  o.result = d.data.length ∧ o.datagrams = [d]

section

variable {w mtu : Nat} {a : SendAnswer} {socket : Option Socket} {d : Datagram}

/-- A socket that is valid for a send. -/
def IsUdp (socket : Option Socket) : Prop := ∃ s, socket = some s ∧ s.protocol = .udp

theorem makeSureSocketIsBound_udp (h : IsUdp socket) :
    (makeSureSocketIsBound a socket).1 = (socket.any Socket.bound || a.bind) := by
  obtain ⟨s, rfl, hudp⟩ := h
  unfold makeSureSocketIsBound validSocket
  simp only [Bool.false_and, if_false, hudp, Option.any_some, Bool.false_eq_true, beq_self_eq_true,
    if_true]
  by_cases hbound : s.bound = true
  · simp [hbound]
  · by_cases hbind : a.bind = true <;> simp [hbound, hbind]

theorem sendResult_zero (len : Nat) : sendResult len 0 = 0 := by
  unfold sendResult mapTimeoutToWouldblock ewouldblock etimedout
  simp

theorem sendResult_length (len : Nat) : sendResult len len = len := by
  have hmap : mapTimeoutToWouldblock len = len := mapTimeout_length len
  unfold sendResult
  rw [hmap]
  simp

/-- **A payload that fits** is sent, or 0 is returned and it may be the next time. -/
theorem sendDatagram_fits (hw : 32 ≤ w) (hmtu : mtu < 2 ^ 31) (hfam : d.dest.family = .inet)
    (hsocket : IsUdp socket) (hfit : d.data.length ≤ mtu - ipv4UdpHeaders) :
    if (socket.any Socket.bound || a.bind) && a.buffer && a.event then
      (sendDatagram w mtu a socket d).Succeeds d
    else (sendDatagram w mtu a socket d).result = 0 ∧
      (sendDatagram w mtu a socket d).datagrams = [] := by
  have hcast : castLen w d.data.length = d.data.length := castLen_of_lt hw (by omega)
  have hmax : maxPayload mtu d.dest.family = some (mtu - ipv4UdpHeaders) := by rw [hfam]; rfl
  unfold sendDatagram freertosSendto Sent.Succeeds
  simp only [hcast, hmax, if_pos hfit, List.take_length, makeSureSocketIsBound_udp hsocket,
    sendtoActualSend, Bool.and_assoc]
  cases (socket.any Socket.bound || a.bind) with
  | false => simp [sendResult_zero]
  | true =>
    rw [Bool.true_and]
    cases a.buffer && a.event with
    | false => simp [sendResult_zero]
    | true => simp [sendResult_length]

/-- A length that does not fit is refused by the stack, with 0. -/
theorem sendDatagram_refused (hfam : d.dest.family = .inet)
    (hlong : mtu - ipv4UdpHeaders < castLen w d.data.length) :
    (sendDatagram w mtu a socket d).result = 0 ∧
      (sendDatagram w mtu a socket d).datagrams = [] := by
  have hmax : maxPayload mtu d.dest.family = some (mtu - ipv4UdpHeaders) := by rw [hfam]; rfl
  unfold sendDatagram freertosSendto
  simp only [hmax, if_neg (Nat.not_le_of_lt hlong)]
  exact ⟨sendResult_zero _, trivial⟩

/-- **A payload that does not fit** is never sent, and 0 is returned when the stack is busy. -/
theorem sendDatagram_long (hfam : d.dest.family = .inet)
    (hlong : mtu - ipv4UdpHeaders < d.data.length) :
    ¬ (sendDatagram w mtu a socket d).Succeeds d ∧
      (sendDatagram w mtu ⟨false, false, false⟩ socket d).result = 0 := by
  by_cases hcast : mtu - ipv4UdpHeaders < castLen w d.data.length
  · refine ⟨?_, (sendDatagram_refused hfam hcast).1⟩
    rintro ⟨-, hsent⟩
    rw [(sendDatagram_refused hfam hcast).2] at hsent
    simp at hsent
  · have hmax : maxPayload mtu d.dest.family = some (mtu - ipv4UdpHeaders) := by rw [hfam]; rfl
    have hle := Nat.le_of_not_lt hcast
    unfold sendDatagram freertosSendto sendtoActualSend
    generalize castLen w d.data.length = n at hle
    simp only [hmax, if_pos hle]
    constructor
    · -- what is sent is shorter than the payload
      have hcut : (⟨d.data.take n, d.dest⟩ : Datagram) ≠ d := by
        intro hall
        have hlen := congrArg (fun d : Datagram => d.data.length) hall
        dsimp only at hlen
        rw [List.length_take] at hlen
        omega
      rintro ⟨-, hsent⟩
      dsimp only at hsent
      split at hsent
      · split at hsent
        · exact hcut (List.cons.inj hsent).1
        · simp at hsent
      · simp at hsent
    · simp only [Bool.and_self, Bool.false_eq_true, if_false, ite_self]
      exact sendResult_zero _

/-- **Nothing is sent through a socket that is not valid**, and 0 is returned. -/
theorem sendDatagram_closed (hfam : d.dest.family = .inet) :
    (sendDatagram w mtu a none d).result = 0 ∧ (sendDatagram w mtu a none d).datagrams = [] := by
  have hmax : maxPayload mtu d.dest.family = some (mtu - ipv4UdpHeaders) := by rw [hfam]; rfl
  unfold sendDatagram freertosSendto makeSureSocketIsBound validSocket
  simp only [hmax, Bool.false_eq_true, if_false]
  split <;> exact ⟨sendResult_zero _, rfl⟩

end

/-! ## What the results mean -/

/-- **What the results of a send function are documented to mean,** whatever the stack answers. -/
structure SendMeans (send : SendAnswer → Sent) (d : Datagram) : Prop where
  /-- the length is returned if the datagram goes to the IP task, and only then -/
  sent : ∀ a, (send a).result = d.data.length ↔ (send a).datagrams = [d]
  /-- 0 is returned only if it may go there later -/
  busy : ∀ a, (send a).result = 0 → ∃ a', (send a').Succeeds d
  /-- less than 0 is returned if it never will -/
  never : (∀ a, ¬ (send a).Succeeds d) → ∀ a, (send a).result < 0

section

variable {w mtu : Nat} {socket : Option Socket} {d : Datagram}

theorem sendDatagram_means (hw : 32 ≤ w) (hmtu : mtu < 2 ^ 31) (hfam : d.dest.family = .inet)
    (hne : d.data ≠ []) (hsocket : IsUdp socket) (hfit : d.data.length ≤ mtu - ipv4UdpHeaders) :
    SendMeans (fun a => sendDatagram w mtu a socket d) d := by
  have hfits := fun a => sendDatagram_fits (a := a) hw hmtu hfam hsocket hfit
  have hlater : (sendDatagram w mtu ⟨true, true, true⟩ socket d).Succeeds d := by
    have hsends := hfits ⟨true, true, true⟩
    rw [Bool.or_true] at hsends
    exact hsends
  refine ⟨?_, fun a _ => ⟨_, hlater⟩, fun hnever => absurd hlater (hnever _)⟩
  intro a
  have ha := hfits a
  split at ha
  · exact ⟨fun _ => ha.2, fun _ => ha.1⟩
  · have hpos : d.data.length ≠ 0 := fun h => hne (List.eq_nil_of_length_eq_zero h)
    rw [ha.1, ha.2]
    exact ⟨fun h => absurd h.symm (by omega), fun h => absurd h (by simp)⟩

/-- A socket of the UDP modules is invalid or for UDP, and it has to be the latter. -/
theorem sendDatagram_means_iff (hw : 32 ≤ w) (hmtu : mtu < 2 ^ 31) (hfam : d.dest.family = .inet)
    (hne : d.data ≠ []) (hsocket : socket = none ∨ IsUdp socket) :
    SendMeans (fun a => sendDatagram w mtu a socket d) d ↔
      IsUdp socket ∧ d.data.length ≤ mtu - ipv4UdpHeaders := by
  constructor
  · intro h
    constructor
    · rcases hsocket with rfl | hudp
      · obtain ⟨a, -, hsent⟩ := h.busy ⟨true, true, true⟩ (sendDatagram_closed hfam).1
        rw [(sendDatagram_closed hfam).2] at hsent
        simp at hsent
      · exact hudp
    · by_contra hlong
      have hno : ∀ a, ¬ (sendDatagram w mtu a socket d).Succeeds d ∧
          (sendDatagram w mtu ⟨false, false, false⟩ socket d).result = 0 :=
        fun a => sendDatagram_long hfam (Nat.lt_of_not_le hlong)
      obtain ⟨a, ha⟩ := h.busy ⟨false, false, false⟩ (hno ⟨false, false, false⟩).2
      exact (hno a).1 ha
  · rintro ⟨hudp, hfit⟩
    exact sendDatagram_means hw hmtu hfam hne hudp hfit

end

/-! ## The socket of a server that is being stopped -/

/-- The caller has the mutex while it closes the socket. -/
def Server.Guarded (s : Server) : Prop :=
  s.caller = .closeSocket ∨ s.caller = .invalidateSocket → s.ctx.lock.isSome = true →
    s.taken = true

section

variable {s : Server}

theorem Server.guarded_of_ne (hclose : s.caller ≠ .closeSocket)
    (hinvalidate : s.caller ≠ .invalidateSocket) : s.Guarded :=
  fun h => absurd h (not_or.mpr ⟨hclose, hinvalidate⟩)

theorem stopStep_guarded (h : s.Guarded) : (stopStep s s.caller).1.Guarded := by
  cases hpc : s.caller with
  | outside => exact h
  | lockAgain =>
    simp only [stopStep]
    cases hlock : s.ctx.lock with
    | none =>
      intro _ hsome
      simp only [Server.call, hlock] at hsome
      exact Bool.noConfusion hsome
    | some m =>
      dsimp only
      split
      · exact h
      · exact fun _ _ => rfl
  | closeSocket =>
    simp only [stopStep]
    split
    · exact fun _ => h (Or.inl hpc)
    · exact Server.guarded_of_ne StopPc.noConfusion StopPc.noConfusion
  | lockTake | waitTask =>
    simp only [stopStep]
    split
    · exact h
    · exact Server.guarded_of_ne StopPc.noConfusion StopPc.noConfusion
  | lockCheck | lockGive | giveAgain | deleteMutex =>
    simp only [stopStep]
    split <;> exact Server.guarded_of_ne StopPc.noConfusion StopPc.noConfusion
  | request | setOption | invalidateSocket | clear =>
    exact Server.guarded_of_ne StopPc.noConfusion StopPc.noConfusion

theorem serverStep_guarded (b : ServerBuild) (act : ServerAct) (hwf : s.Wf) (h : s.Guarded) :
    (serverStep b act s).1.Guarded := by
  cases act with
  | start cfg created =>
    simp only [serverStep]
    split
    · next hfree =>
      have hcaller : (startStep cfg created s).1.caller = .outside := hfree.1
      refine Server.guarded_of_ne ?_ ?_ <;> rw [hcaller] <;> exact StopPc.noConfusion
    · exact h
  | stop =>
    simp only [serverStep]
    split
    · exact Server.guarded_of_ne StopPc.noConfusion StopPc.noConfusion
    · exact h
  | caller => exact stopStep_guarded h
  | task a =>
    simp only [serverStep]
    split
    · next pc hpc =>
      -- the caller closes the socket when the task is gone
      have hbusy := hwf.busy hpc
      refine Server.guarded_of_ne ?_ ?_ <;> rw [(taskStep_keeps b a s pc).2.2] <;>
        rintro hcaller <;> rw [hcaller] at hbusy <;> exact Bool.noConfusion hbusy
    · exact h

theorem server_guarded (b : ServerBuild) (acts : List ServerAct) :
    (run (serverStep b) acts .init).1.Guarded := by
  have hboth := run_inv (serverStep b) (P := fun s _ => s.Wf ∧ s.Guarded)
    (fun act _ _ h => ⟨serverStep_wf b act h.1, serverStep_guarded b act h.1 h.2⟩)
    ⟨init_wf, Server.guarded_of_ne StopPc.noConfusion StopPc.noConfusion⟩ acts
  exact hboth.2

/-- **A call that gets past the mutex finds the socket open** until the caller has closed it, and
no socket from then on. -/
theorem socket_iff {log : List ServerEvent} (hwf : s.Wf) (h : Holds s log) (hguarded : s.Guarded)
    {fromTask : Bool} (hadmits : s.admits fromTask = true) (hinit : s.ctx.initialized = true) :
    s.ctx.socket.isValid = true ↔ s.caller.closes = false := by
  constructor
  · intro hvalid
    by_contra hcloses
    rw [Bool.not_eq_false] at hcloses
    have htask : s.task = none := by
      apply hwf.alone
      cases hpc : s.caller <;> rw [hpc] at hcloses <;>
        first | rfl | exact Bool.noConfusion hcloses
    cases hpc : s.caller with
    | invalidateSocket =>
      -- the mutex is taken here
      have hstage := List.mem_singleton.mp (h.caller_stage htask hpc)
      have htaken := hguarded (Or.inr hpc) (stage_eq.mp hstage).2.1
      rw [Server.admits, htask, htaken, Option.isSome_none, Bool.and_false] at hadmits
      exact Bool.noConfusion hadmits
    | giveAgain | deleteMutex | clear =>
      rcases List.mem_cons.mp (h.caller_stage htask hpc) with hbare | hclosing
      · exact Bool.noConfusion (hvalid.symm.trans (stage_eq.mp hbare).1)
      · exact Bool.noConfusion
          (hvalid.symm.trans (stage_eq.mp (List.mem_singleton.mp hclosing)).1)
    | _ => rw [hpc] at hcloses; exact Bool.noConfusion hcloses
  · intro hcloses
    obtain ⟨n, -, hn, -⟩ := h.open_of_initialized hwf hinit hcloses
    rw [hn]
    rfl

end

/-! ## The send functions -/

theorem SocketHandle.socket_udp (socket : SocketHandle) :
    (socket.socket = none ∨ IsUdp socket.socket) ∧
      (IsUdp socket.socket ↔ socket.isValid = true) := by
  cases socket with
  | valid n =>
    have hudp : IsUdp (SocketHandle.valid n).socket := ⟨_, rfl, rfl⟩
    exact ⟨Or.inr hudp, fun _ => rfl, fun _ => hudp⟩
  | null | invalid =>
    refine ⟨Or.inl rfl, ?_, fun h => Bool.noConfusion h⟩
    rintro ⟨s, hs, -⟩
    exact absurd hs.symm (Option.some_ne_none s)

/--
**The results of the send functions mean what they are documented to mean** for a payload that
fits a packet, as long as `uni_net_udp_server_stop` has not closed the socket of a server. For a
longer payload, or on a server whose socket is closed, they do not: 0 is returned and the datagram
can never be sent.
-/
theorem sendto_means_iff {w mtu : Nat} (hw : 32 ≤ w) (hmtu : mtu < 2 ^ 31) {data : Bytes}
    (hne : data ≠ []) (remote : Endpoint) :
    (∀ ops : List ClientOp, (client w mtu ops).1.initialized = true →
      (SendMeans (fun a => clientSendto w mtu a (client w mtu ops).1 (some data) (some remote))
          ⟨data, remote.sockaddr⟩ ↔
        data.length ≤ mtu - ipv4UdpHeaders)) ∧
    ∀ (b : ServerBuild) (acts : List ServerAct) (fromTask : Bool),
      let s := (run (serverStep b) acts .init).1
      s.ctx.initialized = true → s.admits fromTask = true →
      (SendMeans (fun a => serverSendto w mtu a s.ctx (some data) (some remote))
          ⟨data, remote.sockaddr⟩ ↔
        s.caller.closes = false ∧ data.length ≤ mtu - ipv4UdpHeaders) := by
  constructor
  · intro ops hinit
    have hudp : IsUdp (client w mtu ops).1.socket := (client_ok w mtu ops).udp hinit
    have hcall : ∀ a, clientSendto w mtu a (client w mtu ops).1 (some data) (some remote)
        = sendDatagram w mtu a (client w mtu ops).1.socket ⟨data, remote.sockaddr⟩ := by
      intro a
      unfold clientSendto
      dsimp only
      rw [if_neg (by simp [hne, hinit])]
    rw [funext hcall, sendDatagram_means_iff hw hmtu rfl hne (Or.inr hudp), and_iff_right hudp]
  · intro b acts fromTask s hinit hadmits
    have hcall : ∀ a, serverSendto w mtu a s.ctx (some data) (some remote)
        = sendDatagram w mtu a s.ctx.socket.socket ⟨data, remote.sockaddr⟩ := by
      intro a
      unfold serverSendto
      dsimp only
      rw [if_neg (by simp [hne, hinit])]
    obtain ⟨hsocket, hvalid⟩ := s.ctx.socket.socket_udp
    have hopen := socket_iff (server_wf b acts) (server_holds b acts) (server_guarded b acts)
      hadmits hinit
    rw [funext hcall, sendDatagram_means_iff hw hmtu rfl hne hsocket, hvalid, hopen]

/-- A client that was just initialised, on a network with an MTU of 1500. -/
theorem sendto_means_fresh :
    SendMeans (fun a => clientSendto 32 1500 a (client 32 1500 [.init ⟨true, true, true⟩ none]).1
      (some (List.replicate 1472 0)) (some ⟨0x0100007f, 7⟩))
      ⟨List.replicate 1472 0, Endpoint.sockaddr ⟨0x0100007f, 7⟩⟩ :=
  ((sendto_means_iff (Nat.le_refl 32) (by omega) (List.cons_ne_nil 0 (List.replicate 1471 0))
    ⟨0x0100007f, 7⟩).1 [.init ⟨true, true, true⟩ none] rfl).mpr
    (by rw [List.length_cons, List.length_replicate]; exact Nat.le_refl _)

/-- With one more byte the call returns 0 each time, and never sends anything. -/
theorem sendto_not_means :
    let send := fun a => clientSendto 32 1500 a
      (client 32 1500 [.init ⟨true, true, true⟩ none]).1 (some (List.replicate 1473 0))
      (some ⟨0x0100007f, 7⟩)
    (∀ a, (send a).result = 0 ∧ (send a).datagrams = []) ∧
      ¬ SendMeans send ⟨List.replicate 1473 0, Endpoint.sockaddr ⟨0x0100007f, 7⟩⟩ := by
  intro send
  have hrefused : ∀ a, (send a).result = 0 ∧ (send a).datagrams = [] := by
    intro a
    have hcast : castLen 32 (List.replicate 1473 (0 : UInt8)).length = 1473 := by
      rw [List.length_replicate]
      exact castLen_32 (by omega)
    have hlong : 1500 - ipv4UdpHeaders < castLen 32 (List.replicate 1473 (0 : UInt8)).length := by
      rw [hcast]
      exact Nat.lt_succ_self 1472
    exact sendDatagram_refused rfl hlong
  refine ⟨hrefused, fun h => ?_⟩
  obtain ⟨a, -, hsent⟩ := h.busy ⟨true, true, true⟩ (hrefused _).1
  rw [(hrefused a).2] at hsent
  exact List.cons_ne_nil _ _ hsent.symm

end UniNet.Udp
