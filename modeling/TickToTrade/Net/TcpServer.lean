import TickToTrade.Basic
import TickToTrade.Lib.BigEndian
import TickToTrade.Lib.Deframing
import TickToTrade.Lib.Transition
import TickToTrade.Net.ConnRegistry

/-!
`TcpServer` of `net/tcp_server.hpp`, as a machine that runs from one interaction with the kernel or the
handler to the next. `control` is the place in the code where it is awaited.
-/

namespace TickToTrade.Net
open BigEndian Function

/-- The `Framer` concept; `encode` writes to `space` bytes and returns how many it wrote. -/
structure TcpFramer where
  decode : List UInt8 → Deframing.Found (List UInt8)
  encode : (space : Nat) → (payload : List UInt8) → Nat
  advances : Deframing.Advances decode
  fits : ∀ space payload, encode space payload ≤ space

def kLengthPrefixSize : Nat := 4

def kDefaultMaxFrameSize : Nat := 64 * 1024

def decodeLengthPrefixFrame (buf : List UInt8) (maxFrameSize : Nat) : Deframing.Found (List UInt8) :=
  if buf.length < kLengthPrefixSize then .incomplete
  else
    let totalLen := loadAt 4 0 buf
    if totalLen < kLengthPrefixSize ∨ maxFrameSize < totalLen then .corrupt
    else if buf.length < totalLen then .incomplete
    else .frame totalLen ((buf.drop kLengthPrefixSize).take (totalLen - kLengthPrefixSize))

def encodeLengthPrefixFrame (space : Nat) (payload : List UInt8) (maxFrameSize : Nat) : Option Nat :=
  let frameSize := kLengthPrefixSize + payload.length
  if maxFrameSize < frameSize then none
  else if space < frameSize then none
  else some frameSize

theorem decodeLengthPrefixFrame_advances (maxFrameSize : Nat) :
    Deframing.Advances fun buf => decodeLengthPrefixFrame buf maxFrameSize := by
  intro buf size content found
  simp only [decodeLengthPrefixFrame] at found
  split at found
  · cases found
  split at found
  · cases found
  split at found
  · cases found
  · cases found
    simp only [kLengthPrefixSize] at *
    omega

theorem encodeLengthPrefixFrame_fits (space : Nat) (payload : List UInt8) (maxFrameSize : Nat) :
    (encodeLengthPrefixFrame space payload maxFrameSize).getD 0 ≤ space := by
  simp only [encodeLengthPrefixFrame]
  split
  · exact Nat.zero_le _
  split
  · exact Nat.zero_le _
  · rw [Option.getD_some]
    omega

def lengthPrefixFramer : TcpFramer where
  decode buf := decodeLengthPrefixFrame buf kDefaultMaxFrameSize
  encode space payload := (encodeLengthPrefixFrame space payload kDefaultMaxFrameSize).getD 0
  advances := decodeLengthPrefixFrame_advances kDefaultMaxFrameSize
  fits space payload := encodeLengthPrefixFrame_fits space payload kDefaultMaxFrameSize

structure TcpServerParams where
  kMaxConns : Nat
  kRxBufSize : Nat
  kTxBufSize : Nat
  framer : TcpFramer
  conns : 0 < kMaxConns ∧ kMaxConns < 2 ^ 31
  rx : 0 < kRxBufSize
  tx : 0 < kTxBufSize

/-- `rx` is the filled part of `rx_buf`; `bound` says that the buffers have been set. -/
structure ConnSlot where
  fd : Int := -1
  generation : Nat := 0
  rx : List UInt8 := []
  txSize : Nat := 0
  txSent : Nat := 0
  peerRdClosed : Bool := false
  bound : Bool := false

def ConnSlot.txPending (s : ConnSlot) : Nat := (s.txSize + 2 ^ 32 - s.txSent) % 2 ^ 32

def ConnSlot.rxSpace (s : ConnSlot) (p : TcpServerParams) : Nat :=
    (p.kRxBufSize % 2 ^ 32 + 2 ^ 32 - s.rx.length) % 2 ^ 32

structure EpollFlags where
  epollin : Bool := false
  epollrdhup : Bool := false
  epollhup : Bool := false
  epollerr : Bool := false
  epollout : Bool := false
  deriving DecidableEq

def kListenerSentinel : Nat := 2 ^ 64 - 1

def kFrameError : Nat := 2 ^ 32 - 1

/-- `data.u64` of the events of a connection. -/
def encodeU64 (c : Conn) : Nat := c.generation * 2 ^ 32 + c.fd

namespace TcpServer

inductive Control where
  /-- Between two events. -/
  | idle
  /-- `handle_accept`, before `accept4`, in `on_connect`, before `epoll_ctl`, or in `on_disconnect` after that has
  failed. -/
  | accepting
  | connecting (fd : Nat)
  | registering (fd : Nat)
  | dropping (fd : Nat)
  /-- `handle_read_et` of the slot, before `recv`. -/
  | reading (idx : Nat) (flags : EpollFlags)
  /-- `process_frames`, before `decode` or in `on_data`; `last` tells its second call from the one that makes space. -/
  | framing (idx : Nat) (flags : EpollFlags) (last : Bool) (consumed : Nat)
  | serving (idx : Nat) (flags : EpollFlags) (last : Bool) (consumed size : Nat)
  /-- `handle_write_et`. -/
  | writing (idx : Nat)
  /-- `close_connection` called by the event loop, in `on_disconnect`. -/
  | closing (fd : Int)
  deriving DecidableEq

def Control.Calling : Control → Prop
  | .connecting _ | .dropping _ | .serving _ _ _ _ _ | .closing _ => True
  | _ => False

instance (c : Control) : Decidable c.Calling := by
  cases c <;> unfold Control.Calling <;> infer_instance

end TcpServer

open TcpServer in
structure TcpServer where
  slots : Nat → ConnSlot := fun _ => {}
  control : Control := .idle
  /-- The connections whose `on_disconnect` runs because a callback has called `close`, the innermost first. -/
  nested : List Nat := []
  /-- The callbacks so far. An `on_connect` is listed when it returns. -/
  log : List Callback := []
  conns : List Conn := []
  owner : Nat → Nat := fun _ => 0

namespace TcpServer

inductive AcceptResult where
  | accepted (fd : Nat)
  | transient
  | failed

inductive RecvResult where
  | kOk (bytes : List UInt8)
  | kWouldBlock
  | kPeerClosed
  | kError

inductive SendResult where
  | kOk (bytes : Nat)
  | kWouldBlock
  /-- `kPeerClosed` or `kError`. -/
  | failed

inductive Move where
  | event (u64 : Nat) (flags : EpollFlags)
  | accept (result : AcceptResult)
  | epollAdd (ok : Bool)
  | recv (result : RecvResult)
  | rawSend (result : SendResult)
  /-- The loops go on without a system call. -/
  | advance
  /-- A callback calls `send` or `close`. -/
  | send (id : Nat) (payload : List UInt8)
  | close (id : Nat)
  /-- A callback returns. -/
  | onConnect (accepted : Bool)
  | onData (reply : List UInt8)
  | onDisconnect

variable (p : TcpServerParams)

def setSlot (s : TcpServer) (idx : Nat) (f : ConnSlot → ConnSlot) : TcpServer :=
  { s with slots := update s.slots idx (f (s.slots idx)) }

def allocSlot (s : TcpServer) (fd : Nat) : TcpServer :=
  { s.setSlot fd fun slot =>
      { slot with fd := fd, rx := [], txSize := 0, txSent := 0, peerRdClosed := false, bound := true } with
    conns := s.conns ++ [⟨fd, (s.slots fd).generation⟩]
    owner := update s.owner fd s.conns.length }

/-- `slots_[-1]` is outside of the array. -/
def releaseSlot (s : TcpServer) : (fd : Int) → Exec TcpServer
  | .ofNat fd => some (s.setSlot fd fun slot => { slot with fd := -1, generation := (slot.generation + 1) % 2 ^ 32 })
  | .negSucc _ => none

def callOnDisconnect (s : TcpServer) (fd : Int) : TcpServer := { s with log := s.log ++ [.onDisconnect fd] }

/-- `close_connection`, up to its callback. -/
def closeConnection (s : TcpServer) (fd : Int) : TcpServer := { s.callOnDisconnect fd with control := .closing fd }

/-- The event is for the connection that has the slot now. -/
def Handles (s : TcpServer) (u64 : Nat) : Prop :=
  u64 % 2 ^ 32 < p.kMaxConns ∧ (s.slots (u64 % 2 ^ 32)).fd ≠ -1 ∧ (s.slots (u64 % 2 ^ 32)).generation = u64 / 2 ^ 32
  deriving Decidable

/-- The end of `dispatch_event`; `enable_epollout` and `disable_epollout` keep the registered data. -/
def finishEvent (s : TcpServer) (idx : Nat) : TcpServer :=
  let slot := s.slots idx
  if slot.fd ≠ -1 ∧ slot.peerRdClosed = true ∧ slot.txPending = 0 then s.closeConnection slot.fd
  else { s with control := .idle }

def afterRead (s : TcpServer) (idx : Nat) (flags : EpollFlags) : TcpServer :=
  let s := if flags.epollrdhup then s.setSlot idx fun slot => { slot with peerRdClosed := true } else s
  if flags.epollhup || flags.epollerr then s.closeConnection (s.slots idx).fd
  else if flags.epollout then { s with control := .writing idx }
  else s.finishEvent idx

def afterWrite (s : TcpServer) (idx : Nat) : TcpServer :=
  let slot := s.slots idx
  if slot.txPending = 0 ∧ slot.peerRdClosed = true then s.closeConnection slot.fd else s.finishEvent idx

/-- `compact_rx_buf` after `process_frames`, and what its two callers do next. -/
def afterFrames (s : TcpServer) (idx : Nat) (flags : EpollFlags) (last : Bool) (consumed : Nat) : TcpServer :=
  if consumed = kFrameError then s.closeConnection (s.slots idx).fd
  else
    let s := s.setSlot idx fun slot => { slot with rx := slot.rx.drop consumed }
    if last then
      if (s.slots idx).fd = -1 then { s with control := .idle } else s.afterRead idx flags
    else if (s.slots idx).rxSpace p = 0 then s.closeConnection (s.slots idx).fd
    else { s with control := .reading idx flags }

/-- The reply is put in the transmit buffer; `none` stands for `kFrameError`. -/
def queueReply (slot : ConnSlot) (reply : List UInt8) : Option ConnSlot :=
  if reply.length = 0 then some slot
  else if p.kTxBufSize < reply.length then none
  else
    let encoded := p.framer.encode (p.kTxBufSize - slot.txSize) reply
    if encoded = 0 then none else some { slot with txSize := (slot.txSize + encoded) % 2 ^ 32 }

def stepEvent (s : TcpServer) (u64 : Nat) (flags : EpollFlags) : Exec TcpServer :=
  match s.control with
  | .idle =>
    if u64 = kListenerSentinel then some { s with control := .accepting }
    else if s.Handles p u64 then
      if flags.epollin then some { s with control := .reading (u64 % 2 ^ 32) flags }
      else some (s.afterRead (u64 % 2 ^ 32) flags)
    else some s
  | _ => none

/-- The kernel does not return an fd that is open. -/
def stepAccept (s : TcpServer) (result : AcceptResult) : Exec TcpServer :=
  match s.control, result with
  | .accepting, .accepted fd =>
    if p.kMaxConns ≤ fd then some s
    else if (s.slots fd).fd = -1 then some { s.allocSlot fd with control := .connecting fd }
    else none
  | .accepting, .transient => some s
  | .accepting, .failed => some { s with control := .idle }
  | _, _ => none

def stepEpollAdd (s : TcpServer) (ok : Bool) : Exec TcpServer :=
  match s.control with
  | .registering fd =>
    if ok then some { s with control := .accepting }
    else some { s.callOnDisconnect fd with control := .dropping fd }
  | _ => none

/-- `recv` fills at most the free space, and fails on a slot that was closed. -/
def stepRecv (s : TcpServer) (result : RecvResult) : Exec TcpServer :=
  match s.control with
  | .reading idx flags =>
    let slot := s.slots idx
    if slot.rxSpace p = 0 then none
    else
      match result with
      | .kError => some (s.closeConnection slot.fd)
      | .kOk bytes =>
        if slot.fd ≠ -1 ∧ 0 < bytes.length ∧ bytes.length ≤ slot.rxSpace p then
          some (s.setSlot idx fun slot => { slot with rx := slot.rx ++ bytes })
        else none
      | .kWouldBlock => if slot.fd ≠ -1 then some { s with control := .framing idx flags true 0 } else none
      | .kPeerClosed =>
        if slot.fd ≠ -1 then
          some { s.setSlot idx fun slot =>
            { slot with peerRdClosed := true } with control := .framing idx flags true 0 }
        else none
  | _ => none

def stepRawSend (s : TcpServer) (result : SendResult) : Exec TcpServer :=
  match s.control with
  | .writing idx =>
    let slot := s.slots idx
    if slot.txPending = 0 then none
    else
      match result with
      | .kOk bytes =>
        if 0 < bytes ∧ bytes ≤ slot.txPending then
          some (s.setSlot idx fun slot => { slot with txSent := (slot.txSent + bytes) % 2 ^ 32 })
        else none
      | .kWouldBlock => some (s.afterWrite idx)
      | .failed => some (s.closeConnection slot.fd)
  | _ => none

def stepAdvance (s : TcpServer) : Exec TcpServer :=
  match s.control with
  | .reading idx flags =>
    if (s.slots idx).rxSpace p = 0 then some { s with control := .framing idx flags false 0 } else none
  | .framing idx flags last consumed =>
    match p.framer.decode ((s.slots idx).rx.drop consumed) with
    | .corrupt => some (s.closeConnection (s.slots idx).fd)
    | .incomplete => some (s.afterFrames p idx flags last consumed)
    | .frame size payload =>
      some { s with
        log := s.log ++ [.onData (s.slots idx).fd payload]
        control := .serving idx flags last consumed size }
  | .writing idx =>
    if (s.slots idx).txPending = 0 then
      some ((s.setSlot idx fun slot => { slot with txSize := 0, txSent := 0 }).afterWrite idx)
    else none
  | _ => none

def stepSend (s : TcpServer) (id : Nat) (payload : List UInt8) : Exec TcpServer :=
  if s.control.Calling ∧ id < p.kMaxConns ∧ (s.slots id).bound = true then
    let slot := s.slots id
    some (s.setSlot id fun _ =>
      { slot with txSize := (slot.txSize + p.framer.encode (p.kTxBufSize - slot.txSize) payload) % 2 ^ 32 })
  else none

def stepClose (s : TcpServer) (id : Nat) : Exec TcpServer :=
  if s.control.Calling ∧ id < p.kMaxConns then
    if (s.slots id).fd = id then some { s.callOnDisconnect id with nested := id :: s.nested } else some s
  else none

def returnOnConnect (s : TcpServer) (accepted : Bool) : Exec TcpServer :=
  match s.nested, s.control with
  | [], .connecting fd =>
    let log := s.log ++ [Callback.onConnect fd accepted]
    if accepted then some { s with log, control := .registering fd }
    else do
      let s ← s.releaseSlot fd
      return { s with log, control := .accepting }
  | _, _ => none

def returnOnData (s : TcpServer) (reply : List UInt8) : Exec TcpServer :=
  match s.nested, s.control with
  | [], .serving idx flags last consumed size =>
    match queueReply p (s.slots idx) reply with
    | none => some (s.closeConnection (s.slots idx).fd)
    | some slot => some { s.setSlot idx fun _ => slot with control := .framing idx flags last (consumed + size) }
  | _, _ => none

/-- `release_slot` and `::close` after the callback. -/
def returnOnDisconnect (s : TcpServer) : Exec TcpServer :=
  match s.nested, s.control with
  | id :: rest, _ => do
    let s ← s.releaseSlot id
    return { s with nested := rest }
  | [], .dropping fd => do
    let s ← s.releaseSlot fd
    return { s with control := .accepting }
  | [], .closing fd => do
    let s ← s.releaseSlot fd
    return { s with control := .idle }
  | _, _ => none

def step (s : TcpServer) : Move → Exec TcpServer
  | .event u64 flags => s.stepEvent p u64 flags
  | .accept result => s.stepAccept p result
  | .epollAdd ok => s.stepEpollAdd ok
  | .recv result => s.stepRecv p result
  | .rawSend result => s.stepRawSend result
  | .advance => s.stepAdvance p
  | .send id payload => s.stepSend p id payload
  | .close id => s.stepClose p id
  | .onConnect accepted => s.returnOnConnect accepted
  | .onData reply => s.returnOnData p reply
  | .onDisconnect => s.returnOnDisconnect

def run : List Move → TcpServer → Exec TcpServer := Transition.run (step p)

end TcpServer

end TickToTrade.Net
