import UniNet.Errno
import UniNet.Infra.Bytes
import UniNet.Infra.Word

/-!
# The sockets below the UDP modules

What `FreeRTOS_Sockets.c` checks before it connects a socket or sends through one. The checks
look at the protocol of a socket and at whether it is bound. What lies behind them, the TCP
machine and the IP task, comes in as answers.

`FreeRTOS_connect` and `FreeRTOS_send` are for TCP sockets only and `FreeRTOS_sendto` is for UDP
sockets only.
-/

namespace UniNet.Udp

open Infra

/-! ## Addresses and sockets -/

/-- `uni_net_udp_endpoint_t`, in network byte order. -/
structure Endpoint where
  addr : UInt32
  port : UInt16
  deriving DecidableEq

inductive Family where
  | unspec
  | inet
  | inet6
  deriving DecidableEq

/-- The members of `struct freertos_sockaddr` that are used. -/
structure Sockaddr where
  family : Family
  port : UInt16
  addr : UInt32
  deriving DecidableEq

/-- `{ 0 }`. -/
def Sockaddr.zero : Sockaddr := ⟨.unspec, 0, 0⟩

/-- The address that the UDP modules fill in for an endpoint. -/
def Endpoint.sockaddr (ep : Endpoint) : Sockaddr := ⟨.inet, ep.port, ep.addr⟩

inductive Protocol where
  | tcp
  | udp
  deriving DecidableEq

/-- The part of `FreeRTOS_Socket_t` that the checks look at. -/
structure Socket where
  protocol : Protocol
  bound : Bool
  deriving DecidableEq

/-- A payload on its way to the IP task. -/
structure Datagram where
  data : Bytes
  dest : Sockaddr
  deriving DecidableEq

/-! ## The checks -/

/-- `prvValidSocket`; a null or an invalid handle is `none`. -/
def validSocket (socket : Option Socket) (protocol : Protocol) (isBound : Bool) : Bool :=
  match socket with
  | none => false
  | some s => if isBound && !s.bound then false else s.protocol == protocol

/-- The answers of the TCP machine while a socket connects. -/
structure ConnectAnswer where
  /-- `FreeRTOS_issocketconnected` -/
  connected : Int
  /-- `FreeRTOS_bind` -/
  bind : Int
  /-- `bMayConnect` -/
  mayConnect : Int
  /-- whether the IP task takes the event -/
  event : Bool
  /-- what the wait for the connection ends with -/
  wait : Int

/-- `prvTCPConnectStart`. -/
def tcpConnectStart (a : ConnectAnswer) (socket : Option Socket) : Int :=
  if validSocket socket .tcp false = false then -ebadf
  else if 0 < a.connected then -eisconn
  else
    let result := if socket.any Socket.bound then 0 else a.bind
    if result = 0 then
      if a.mayConnect = 0 then
        if a.event then 0 else -ecanceled
      else a.mayConnect
    else result

/-- `FreeRTOS_connect`. -/
def freertosConnect (a : ConnectAnswer) (socket : Option Socket) : Int :=
  if tcpConnectStart a socket = 0 then a.wait else tcpConnectStart a socket

/-- The answers of the stack to `FreeRTOS_sendto`. -/
structure SendAnswer where
  /-- whether an unbound socket gets a port -/
  bind : Bool
  /-- whether there is a network buffer in time -/
  buffer : Bool
  /-- whether the IP task takes the packet in time -/
  event : Bool

/-- `ipSIZE_OF_IPv4_HEADER + ipSIZE_OF_UDP_HEADER`. -/
def ipv4UdpHeaders : Nat := 28

/-- `ipSIZE_OF_IPv6_HEADER + ipSIZE_OF_UDP_HEADER`. -/
def ipv6UdpHeaders : Nat := 48

/-- `uxMaxPayloadLength`, for a family that there is one for. -/
def maxPayload (mtu : Nat) : Family → Option Nat
  | .inet => some (mtu - ipv4UdpHeaders)
  | .inet6 => some (mtu - ipv6UdpHeaders)
  | .unspec => none

/-- `prvMakeSureSocketIsBound`, with the socket afterwards. -/
def makeSureSocketIsBound (a : SendAnswer) (socket : Option Socket) : Bool × Option Socket :=
  if validSocket socket .udp false then
    if socket.any Socket.bound then (true, socket)
    else if a.bind then (true, socket.map fun s => { s with bound := true })
    else (false, socket)
  else (false, socket)

/-- What a call that may send leaves: its result, the socket, and what went to the IP task. -/
structure Sent where
  result : Int
  socket : Option Socket
  datagrams : List Datagram
  deriving DecidableEq

/--
`FreeRTOS_send`, with what it returns once `prvTCPSendCheck` has found a TCP socket. There is no
datagram in either case.
-/
def freertosSend (tcp : Int) (socket : Option Socket) : Sent :=
  ⟨if validSocket socket .tcp true = false then -einval else tcp, socket, []⟩

/-- `prvSendTo_ActualSend` and `prvSendUDPPacket`, without the zero copy flag. -/
def sendtoActualSend (a : SendAnswer) (socket : Option Socket) (data : Bytes) (dest : Sockaddr) :
    Sent :=
  if a.buffer && a.event then ⟨data.length, socket, [⟨data, dest⟩]⟩ else ⟨0, socket, []⟩

/-- `FreeRTOS_sendto` with the first `len` bytes of a buffer, and a network of the given MTU. -/
def freertosSendto (mtu : Nat) (a : SendAnswer) (socket : Option Socket) (buf : Bytes) (len : Nat)
    (dest : Sockaddr) : Sent :=
  match maxPayload mtu dest.family with
  | none => ⟨-einval, socket, []⟩
  | some limit =>
    if len ≤ limit then
      if (makeSureSocketIsBound a socket).1 then
        sendtoActualSend a (makeSureSocketIsBound a socket).2 (buf.take len) dest
      else ⟨0, (makeSureSocketIsBound a socket).2, []⟩
    -- too long a payload is not an error
    else ⟨0, socket, []⟩

/-! ## Results -/

/-- `_map_timeout_to_wouldblock`, where 0 is `UNI_NET_UDP_RET_TIMEOUT`. -/
def mapTimeoutToWouldblock (rv : Int) : Int :=
  if rv = -ewouldblock ∨ rv = -etimedout then 0 else rv

/-- A result that is a length is not taken for an error. -/
theorem mapTimeout_length (n : Nat) : mapTimeoutToWouldblock n = n := by
  unfold mapTimeoutToWouldblock ewouldblock etimedout
  split <;> omega

theorem mapTimeout_error (errno : Nat) : mapTimeoutToWouldblock (-errno) ≤ 0 := by
  unfold mapTimeoutToWouldblock
  split <;> omega

/-- What the send functions of the client and of the server return for `rv`. -/
def sendResult (len : Nat) (rv : Int) : Int :=
  if 0 < mapTimeoutToWouldblock rv ∧ mapTimeoutToWouldblock rv ≠ len then -einval
  else mapTimeoutToWouldblock rv

/-- `(size_t)(int32_t)len`, with a `size_t` of `w` bits. -/
def castLen (w len : Nat) : Nat := (i32 len % 2 ^ w).toNat

/-- The call that both `sendto` functions make, and what they return for it. -/
def sendDatagram (w mtu : Nat) (a : SendAnswer) (socket : Option Socket) (d : Datagram) : Sent :=
  let sent := freertosSendto mtu a socket d.data (castLen w d.data.length) d.dest
  { sent with result := sendResult d.data.length sent.result }

/-! ## What a UDP socket can do -/

section

variable {s : Socket}

theorem validSocket_udp (h : s.protocol = .udp) (isBound : Bool) :
    validSocket (some s) .tcp isBound = false := by
  unfold validSocket
  dsimp only
  split
  · rfl
  · rw [h]
    rfl

/-- **A UDP socket is never connected.** -/
theorem freertosConnect_udp (a : ConnectAnswer) (h : s.protocol = .udp) :
    freertosConnect a (some s) = -ebadf := by
  have hstart : tcpConnectStart a (some s) = -ebadf := by
    rw [tcpConnectStart, if_pos (validSocket_udp h false)]
  rw [freertosConnect, hstart]
  rfl

/-- Sending keeps the protocol of the socket. -/
theorem freertosSendto_udp (mtu : Nat) (a : SendAnswer) (buf : Bytes) (len : Nat)
    (dest : Sockaddr) (h : s.protocol = .udp) :
    ∃ s', (freertosSendto mtu a (some s) buf len dest).socket = some s' ∧ s'.protocol = .udp := by
  have hbound : ∃ s', (makeSureSocketIsBound a (some s)).2 = some s' ∧ s'.protocol = .udp := by
    unfold makeSureSocketIsBound
    split
    · split
      · exact ⟨s, rfl, h⟩
      · split
        · exact ⟨_, rfl, h⟩
        · exact ⟨s, rfl, h⟩
    · exact ⟨s, rfl, h⟩
  unfold freertosSendto
  split
  · exact ⟨s, rfl, h⟩
  · split
    · split
      · unfold sendtoActualSend
        split <;> exact hbound
      · exact hbound
    · exact ⟨s, rfl, h⟩

theorem sendDatagram_udp (w mtu : Nat) (a : SendAnswer) (d : Datagram) (h : s.protocol = .udp) :
    ∃ s', (sendDatagram w mtu a (some s) d).socket = some s' ∧ s'.protocol = .udp := by
  unfold sendDatagram
  exact freertosSendto_udp mtu a d.data (castLen w d.data.length) d.dest h

end

end UniNet.Udp
