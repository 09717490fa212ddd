import UniNet.Udp.Stack
import UniNet.Infra.Run

/-!
# The UDP client

`uni_net_udp_client.c`. A client has one socket, made by `init`, and may have a default remote.

`connect` asks the stack to connect the socket, and stores the remote only when the stack agrees.
The stack connects TCP sockets and the socket of a client is a UDP socket, so no client ever
gets a default remote and `send` never gets past its first check.

* `client_ok` — the socket of an initialised client is a UDP socket, and no client is connected
* `connected_mode_never` — so `connect` fails on all of them, and `send` behind it
-/

namespace UniNet.Udp

open Infra

/-! ## The source -/

/-- `uni_net_udp_client_config_t`. -/
structure ClientConfig where
  rxTimeoutMs : Nat
  txTimeoutMs : Nat
  deriving DecidableEq

/-- `UNI_NET_UDP_DEFAULT_RX_TIMEOUT_MS` and `UNI_NET_UDP_DEFAULT_TX_TIMEOUT_MS`. -/
def ClientConfig.default : ClientConfig := ⟨1000, 1000⟩

/-- `uni_net_udp_client_context_t`; `stack_connected` is neither read nor written. -/
structure ClientContext where
  config : ClientConfig
  initialized : Bool
  socket : Option Socket
  connected : Bool
  defaultRemote : Sockaddr
  lock : Bool
  deriving DecidableEq

/-- What `memset` leaves. -/
def ClientContext.zero : ClientContext := ⟨⟨0, 0⟩, false, none, false, .zero, false⟩

/-- Which of the calls that `init` makes succeed. -/
structure ClientInitAnswer where
  mutex : Bool
  socket : Bool
  timeouts : Bool

/-- `uni_net_udp_client_init`. -/
def clientInit (a : ClientInitAnswer) (cfg : Option ClientConfig) : Bool × ClientContext :=
  let ctx := { ClientContext.zero with config := cfg.getD .default, lock := a.mutex }
  if a.mutex then
    if a.socket && a.timeouts then
      (true, { ctx with socket := some ⟨.udp, false⟩, initialized := true })
    else (false, .zero)
  else (false, ctx)

/-- `uni_net_udp_client_deinit`. -/
def clientDeinit (_ : ClientContext) : Bool × ClientContext := (true, .zero)

/-- `uni_net_udp_client_connect`. A null pointer is `none`. -/
def clientConnect (a : ConnectAnswer) (ctx : ClientContext) (remote : Option Endpoint) :
    Bool × ClientContext :=
  match remote with
  | none => (false, ctx)
  | some remote =>
    if ctx.initialized = false then (false, ctx)
    else if freertosConnect a ctx.socket = 0 then
      (true, { ctx with connected := true, defaultRemote := remote.sockaddr })
    else (false, ctx)

/-- `uni_net_udp_client_send`. -/
def clientSend (tcp : Int) (ctx : ClientContext) (buf : Option Bytes) : Sent :=
  match buf with
  | none => ⟨-einval, ctx.socket, []⟩
  | some data =>
    if data = [] ∨ ctx.initialized = false then ⟨-einval, ctx.socket, []⟩
    else if ctx.connected = false then ⟨-enotconn, ctx.socket, []⟩
    else
      let sent := freertosSend tcp ctx.socket
      { sent with result := sendResult data.length sent.result }

/-- `uni_net_udp_client_sendto`. -/
def clientSendto (w mtu : Nat) (a : SendAnswer) (ctx : ClientContext) (buf : Option Bytes)
    (remote : Option Endpoint) : Sent :=
  match buf, remote with
  | some data, some remote =>
    if data = [] ∨ ctx.initialized = false then ⟨-einval, ctx.socket, []⟩
    else sendDatagram w mtu a ctx.socket ⟨data, remote.sockaddr⟩
  | _, _ => ⟨-einval, ctx.socket, []⟩

/-- `uni_net_udp_client_set_timeouts`, with whether the two options are accepted. -/
def clientSetTimeouts (accepted : Bool) (ctx : ClientContext) (config : ClientConfig) :
    Bool × ClientContext :=
  if ctx.initialized = false then (false, ctx)
  else if accepted then (true, { ctx with config := config })
  else (false, ctx)

/-! ## Runs -/

/-- A call of the interface, with what the stack answers to it. -/
inductive ClientOp where
  | init (a : ClientInitAnswer) (cfg : Option ClientConfig)
  | deinit
  | connect (a : ConnectAnswer) (remote : Option Endpoint)
  | send (tcp : Int) (buf : Option Bytes)
  | sendto (a : SendAnswer) (buf : Option Bytes) (remote : Option Endpoint)
  | setTimeouts (accepted : Bool) (config : ClientConfig)

/-- What a call does to the context, and the datagrams it sends. -/
def clientStep (w mtu : Nat) (op : ClientOp) (ctx : ClientContext) :
    ClientContext × List Datagram :=
  match op with
  | .init a cfg => ((clientInit a cfg).2, [])
  | .deinit => ((clientDeinit ctx).2, [])
  | .connect a remote => ((clientConnect a ctx remote).2, [])
  | .send tcp buf =>
    ({ ctx with socket := (clientSend tcp ctx buf).socket }, (clientSend tcp ctx buf).datagrams)
  | .sendto a buf remote =>
    ({ ctx with socket := (clientSendto w mtu a ctx buf remote).socket },
      (clientSendto w mtu a ctx buf remote).datagrams)
  | .setTimeouts accepted config => ((clientSetTimeouts accepted ctx config).2, [])

/-- A context that is used for any calls. -/
def client (w mtu : Nat) (ops : List ClientOp) : ClientContext × List Datagram :=
  run (clientStep w mtu) ops .zero

/-! ## No client is ever connected -/

/-- **The invariant of a client.** -/
structure ClientOk (ctx : ClientContext) : Prop where
  unconnected : ctx.connected = false
  udp : ctx.initialized = true → ∃ s, ctx.socket = some s ∧ s.protocol = .udp

theorem clientOk_zero : ClientOk .zero := ⟨rfl, fun h => by cases h⟩

/-- `connect` fails and changes nothing, whatever the stack answers. -/
theorem clientConnect_ok {ctx : ClientContext} (h : ClientOk ctx) (a : ConnectAnswer)
    (remote : Option Endpoint) : clientConnect a ctx remote = (false, ctx) := by
  unfold clientConnect
  cases remote with
  | none => rfl
  | some remote =>
    by_cases hinit : ctx.initialized = false
    · simp only [if_pos hinit]
    · obtain ⟨s, hs, hudp⟩ := h.udp (by simpa using hinit)
      have hno : ¬ freertosConnect a ctx.socket = 0 := by
        rw [hs, freertosConnect_udp a hudp]
        decide
      simp only [if_neg hinit, if_neg hno]

theorem clientSend_ok {ctx : ClientContext} (h : ClientOk ctx) (tcp : Int) (buf : Option Bytes) :
    (clientSend tcp ctx buf).socket = ctx.socket ∧ (clientSend tcp ctx buf).datagrams = [] := by
  unfold clientSend
  cases buf with
  | none => exact ⟨rfl, rfl⟩
  | some data =>
    dsimp only
    split
    · exact ⟨rfl, rfl⟩
    · rw [if_pos h.unconnected]
      exact ⟨rfl, rfl⟩

theorem clientSendto_udp (w mtu : Nat) (a : SendAnswer) {ctx : ClientContext}
    (buf : Option Bytes) (remote : Option Endpoint)
    (h : ∃ s, ctx.socket = some s ∧ s.protocol = .udp) :
    ∃ s, (clientSendto w mtu a ctx buf remote).socket = some s ∧ s.protocol = .udp := by
  unfold clientSendto
  split
  · split
    · exact h
    · obtain ⟨s, hs, hudp⟩ := h
      rw [hs]
      exact sendDatagram_udp w mtu a _ hudp
  · exact h

/-- Every call of the interface keeps the invariant. -/
theorem clientStep_ok (w mtu : Nat) (op : ClientOp) {ctx : ClientContext} (h : ClientOk ctx) :
    ClientOk (clientStep w mtu op ctx).1 := by
  cases op with
  | init a cfg =>
    unfold clientStep clientInit
    dsimp only
    split
    · split
      · exact ⟨rfl, fun _ => ⟨_, rfl, rfl⟩⟩
      · exact clientOk_zero
    · exact ⟨rfl, fun h => by cases h⟩
  | deinit => exact clientOk_zero
  | connect a remote =>
    rw [clientStep, clientConnect_ok h]
    exact h
  | send tcp buf =>
    rw [clientStep, (clientSend_ok h tcp buf).1]
    exact h
  | sendto a buf remote =>
    exact ⟨h.unconnected, fun hinit => clientSendto_udp w mtu a buf remote (h.udp hinit)⟩
  | setTimeouts accepted config =>
    unfold clientStep clientSetTimeouts
    dsimp only
    split
    · exact h
    · split
      · exact ⟨h.unconnected, h.udp⟩
      · exact h

/-- **Whatever calls are made, the client stays unconnected.** -/
theorem client_ok (w mtu : Nat) (ops : List ClientOp) : ClientOk (client w mtu ops).1 :=
  run_inv (clientStep w mtu) (P := fun ctx _ => ClientOk ctx)
    (fun op _ _ h => clientStep_ok w mtu op h) clientOk_zero ops

/-! ## Connected mode -/

/--
What connected mode promises: `connect` stores the remote, and a `send` behind it does what
`sendto` would have done.
-/
def ConnectedAgrees (w mtu : Nat) (ctx : ClientContext) (remote : Endpoint) (data : Bytes)
    (ca : ConnectAnswer) (tcp : Int) (sa : SendAnswer) : Prop :=
  (clientConnect ca ctx (some remote)).1 = true ∧
    (clientConnect ca ctx (some remote)).2.defaultRemote = remote.sockaddr ∧
    let sent := clientSend tcp (clientConnect ca ctx (some remote)).2 (some data)
    let sent' := clientSendto w mtu sa ctx (some data) (some remote)
    sent.result = sent'.result ∧ sent.datagrams = sent'.datagrams

/--
**Connected mode never works.** For every initialised client, every remote and every payload,
and whatever the stack answers, `connect` fails without storing anything and a `send` behind it
fails with `ENOTCONN` and sends nothing.
-/
theorem connected_mode_never (w mtu : Nat) (ops : List ClientOp)
    (hinit : (client w mtu ops).1.initialized = true) (remote : Endpoint) (data : Bytes)
    (hne : data ≠ []) (ca : ConnectAnswer) (tcp : Int) (sa : SendAnswer) :
    ¬ ConnectedAgrees w mtu (client w mtu ops).1 remote data ca tcp sa ∧
      clientConnect ca (client w mtu ops).1 (some remote) = (false, (client w mtu ops).1) ∧
      (clientSend tcp (client w mtu ops).1 (some data)).result = -enotconn ∧
      (clientSend tcp (client w mtu ops).1 (some data)).datagrams = [] := by
  have hok := client_ok w mtu ops
  have hconnect := clientConnect_ok hok ca (some remote)
  refine ⟨?_, hconnect, ?_, (clientSend_ok hok tcp (some data)).2⟩
  · intro h
    have htrue := h.1
    rw [hconnect] at htrue
    cases htrue
  · unfold clientSend
    dsimp only
    rw [if_neg (by simp [hne, hinit]), if_pos hok.unconnected]

/-- A client behind `init`. -/
theorem connected_mode_never_fresh :
    let ops : List ClientOp := [.init ⟨true, true, true⟩ none]
    (clientSend 3 (client 32 1500 ops).1 (some [1, 2, 3])).result = -enotconn := by
  intro ops
  exact (connected_mode_never 32 1500 ops rfl ⟨1, 2⟩ [1, 2, 3] (by decide)
    ⟨0, 0, 0, true, 0⟩ 3 ⟨true, true, true⟩).2.2.1

/-- The datagram that `sendto` sends is refused by `connect` and `send`. -/
theorem connected_mode_refused :
    let ctx := (clientInit ⟨true, true, true⟩ none).2
    let remote : Endpoint := ⟨1, 2⟩
    let ca : ConnectAnswer := ⟨0, 0, 0, true, 0⟩
    let sa : SendAnswer := ⟨true, true, true⟩
    clientSendto 32 1500 sa ctx (some [1, 2, 3]) (some remote)
        = ⟨3, some ⟨.udp, true⟩, [⟨[1, 2, 3], remote.sockaddr⟩]⟩ ∧
      clientConnect ca ctx (some remote) = (false, ctx) ∧
      clientSend 3 ctx (some [1, 2, 3]) = ⟨-enotconn, ctx.socket, []⟩ ∧
      ¬ ConnectedAgrees 32 1500 ctx remote [1, 2, 3] ca 3 sa := by
  refine ⟨by decide, by decide, by decide, fun h => ?_⟩
  exact absurd h.1 (by decide)

end UniNet.Udp
