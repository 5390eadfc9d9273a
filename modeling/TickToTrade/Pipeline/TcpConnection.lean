import TickToTrade.Net.ProtocolCodec

/-!
The sending half of `net/tcp_socket.hpp` and the connection of `tcp_connection.hpp`. What the kernel
answers is an input, and so are the readings of the clock. Times are `uint64_t`.
-/

namespace TickToTrade.Pipeline
open List

inductive Errno where
  | eintr
  | eagain
  | epipe
  | econnreset
  | other (code : Nat)
  deriving DecidableEq

inductive SendAnswer where
  | accept (bytes : Nat)
  | fail (errno : Errno)
  deriving DecidableEq

def SendAnswer.takes : SendAnswer → Bool
  | .accept bytes => bytes ≠ 0
  | .fail _ => false

inductive SendStatus where
  | kOk
  | kWouldBlock
  | kPeerClosed
  | kError
  deriving DecidableEq

structure SendResult where
  status : SendStatus
  bytesSent : Nat
  errNo : Option Errno
  deriving DecidableEq

def ssizeMax : Nat := 2 ^ 63 - 1

/-- The result and the bytes that the kernel has taken. The call is repeated while it is interrupted; it takes at most
what it is offered. -/
def sendNonblocking : List SendAnswer → List UInt8 → Exec (SendResult × List UInt8)
  | [], _ => none
  | .fail .eintr :: answers, buf => sendNonblocking answers buf
  | .fail .eagain :: _, _ => some (⟨.kWouldBlock, 0, none⟩, [])
  | .fail .epipe :: _, _ => some (⟨.kPeerClosed, 0, some .epipe⟩, [])
  | .fail .econnreset :: _, _ => some (⟨.kPeerClosed, 0, some .econnreset⟩, [])
  | .fail (.other code) :: _, _ => some (⟨.kError, 0, some (.other code)⟩, [])
  | .accept bytes :: _, buf =>
    let sent := min bytes (min buf.length ssizeMax)
    if sent = 0 then some (⟨.kError, 0, none⟩, []) else some (⟨.kOk, sent, none⟩, buf.take sent)

inductive TcpState where
  | kConnected
  | kDisconnected
  | kConnecting
  deriving DecidableEq

def kHeartbeatIntervalNs : Nat := 1000000000

def kHeartbeatTimeoutNs : Nat := 3000000000

def kReconnectBaseDelayNs : Nat := 1000000000

def kReconnectMaxDelayNs : Nat := 10000000000

def kMaxReconnectAttempts : Nat := 10

def kConnectTimeoutNs : Nat := 3000000000

/-- The descriptor of a pending connect is left out: it is open exactly in `kConnecting`. -/
structure ConnectionState where
  state : TcpState := .kConnected
  lastHbSent : Nat := 0
  lastHbRecv : Nat := 0
  nextReconnectAt : Nat := 0
  reconnectDelay : Nat := kReconnectBaseDelayNs
  reconnectAttempts : Nat := 0
  connectDeadline : Nat := 0
  heartbeatsSent : Nat := 0
  heartbeatsRecv : Nat := 0
  reconnectCount : Nat := 0
  sendWouldBlock : Nat := 0
  sendFailures : Nat := 0
  deriving DecidableEq

namespace ConnectionState

def scheduleReconnect (conn : ConnectionState) (now : Nat) : ConnectionState :=
  { conn with
    reconnectAttempts := (conn.reconnectAttempts + 1) % 2 ^ 32
    nextReconnectAt := (now + conn.reconnectDelay) % 2 ^ 64
    reconnectDelay := min (conn.reconnectDelay * 2 % 2 ^ 64) kReconnectMaxDelayNs }

/-- `disconnect_and_reconnect` of a connection that is up. -/
def disconnect (conn : ConnectionState) (now : Nat) : ConnectionState :=
  { conn with
    state := .kDisconnected
    nextReconnectAt := (now + kReconnectBaseDelayNs) % 2 ^ 64
    reconnectDelay := kReconnectBaseDelayNs
    reconnectAttempts := 0 }

/-- `finalize_tcp_connect` when the socket options could be set. -/
def finalizeTcpConnect (conn : ConnectionState) (now : Nat) : ConnectionState :=
  { conn with
    lastHbSent := now
    lastHbRecv := now
    state := .kConnected
    reconnectDelay := kReconnectBaseDelayNs
    reconnectAttempts := 0
    reconnectCount := (conn.reconnectCount + 1) % 2 ^ 32 }

end ConnectionState

/-- Whether the connection is still usable; the number of bytes sent is not looked at. -/
def checkSendResult (result : SendResult) (conn : ConnectionState) : Bool × ConnectionState :=
  match result.status with
  | .kOk => (true, conn)
  | .kWouldBlock => (true, { conn with sendWouldBlock := (conn.sendWouldBlock + 1) % 2 ^ 32 })
  | .kPeerClosed | .kError => (false, { conn with sendFailures := (conn.sendFailures + 1) % 2 ^ 32 })

theorem sendNonblocking_takes {answers : List SendAnswer} {buf taken : List UInt8} {result : SendResult}
    (sent : sendNonblocking answers buf = some (result, taken)) :
    taken <+: buf ∧ (taken ≠ [] → ∃ answer ∈ answers, answer.takes = true) := by
  induction answers with
  | nil => cases sent
  | cons answer answers ih =>
    rcases answer with bytes | (_ | _ | _ | _ | _)
    · dsimp only [sendNonblocking] at sent
      split at sent
      · cases sent
        exact ⟨List.nil_prefix, fun some => absurd rfl some⟩
      · rename_i positive
        cases sent
        exact ⟨List.take_prefix _ _, fun _ => ⟨_, mem_cons_self, decide_eq_true (by omega)⟩⟩
    · obtain ⟨front, takes⟩ := ih sent
      refine ⟨front, fun some => ?_⟩
      obtain ⟨answer, member, took⟩ := takes some
      exact ⟨answer, mem_cons_of_mem _ member, took⟩
    all_goals
      cases sent
      exact ⟨List.nil_prefix, fun some => absurd rfl some⟩

end TickToTrade.Pipeline
