import TickToTrade.Pipeline.TcpConnection
import TickToTrade.EndToEnd.OrderFlow
import TickToTrade.Lib.Framing

/-!
The loop of `strategy_thread.hpp` with the order path of `order_send_handler.hpp`. A stage of the loop
is one step, and so is each cancel of a batch.
-/

namespace TickToTrade.Pipeline
open EndToEnd Exchange Oms

inductive ConnectOutcome where
  | noSocket
  | connected (optionsSet : Bool)
  | inProgress
  | failed
  deriving DecidableEq

/-- `line` has the frames that were sent on the current connection with what the kernel took of them, and `closed` those
of earlier connections; only the statements use them. -/
structure StrategyThread where
  om : OrderManager
  conn : ConnectionState := {}
  txSize : Nat
  scratchSize : Nat
  stopFlag : Bool := false
  batch : List CancelOrder := []
  line : Framing.Line UInt8 := []
  closed : List (Framing.Line UInt8) := []

/-- `clock` is what `disconnect_and_reconnect` reads if it is called. -/
inductive StrategyOp where
  | killSwitch (now : Int)
  | cancel (clock : Int) (answers : List SendAnswer)
  | drained
  | heartbeat (now clock : Int) (answers : List SendAnswer)
  | connectTimeout (now : Int)
  | reconnect (now : Int) (outcome : ConnectOutcome)
  | timeouts (nowNs : Int)
  | signal (signal : Signal) (now sendTs clock : Int) (answers : List SendAnswer)
  | connectEvent (now : Int) (succeeded : Bool)
  | response (msg : ExchangeMessage)
  | heartbeatAck (now : Int)
  | lost (clock : Int)

def StrategyOp.answers : StrategyOp → List SendAnswer
  | .cancel _ answers | .heartbeat _ _ answers | .signal _ _ _ _ answers => answers
  | _ => []

namespace StrategyThread

/-- `now - since` in `uint64_t`. -/
def elapsed (now : Int) (since : Nat) : Nat := (toUInt64 now + 2 ^ 64 - since) % 2 ^ 64

def disconnectAndReconnect (t : StrategyThread) (clock : Int) : StrategyThread :=
  if t.conn.state ≠ .kConnected then t
  else { t with conn := t.conn.disconnect (toUInt64 clock), line := [], closed := t.closed ++ [t.line] }

/-- `send_nonblocking` and `check_send_result`. -/
def sendFrame (t : StrategyThread) (answers : List SendAnswer) (frame : List UInt8) : Exec (Bool × StrategyThread) := do
  let (result, taken) ← sendNonblocking answers frame
  let (ok, conn) := checkSendResult result t.conn
  return (ok, { t with conn, line := t.line ++ [{ frame, taken }] })

/-- The five places that send: nothing happens if the payload or the frame has no room in its buffer. -/
def sendMessage (t : StrategyThread) (answers : List SendAnswer) (msgType : MsgType) (payload : Option (List UInt8)) :
    Exec (Bool × StrategyThread) :=
  match payload.bind (packTcpMessage t.txSize msgType) with
  | none => some (true, t)
  | some frame => t.sendFrame answers frame

def heartbeatIfDue (t : StrategyThread) (now clock : Int) (answers : List SendAnswer) : Exec StrategyThread :=
  if elapsed now t.conn.lastHbSent < kHeartbeatIntervalNs then some t
  else do
    let (ok, t) ← t.sendMessage answers .kHeartbeat (some [])
    let t := if ok then t else t.disconnectAndReconnect clock
    return { t with conn := { t.conn with
      lastHbSent := toUInt64 now, heartbeatsSent := (t.conn.heartbeatsSent + 1) % 2 ^ 32 } }

variable (cfg : Config)

/-- `OrderSendHandler::on_signal`: a modify of the resting order if there is one, else a new order. -/
def onSignal (t : StrategyThread) (signal : Signal) (now sendTs : Int) (answers : List SendAnswer) :
    Exec (Bool × StrategyThread) := do
  let (changes, modify, om) ← t.om.checkModify cfg signal sendTs blankModify
  let t := { t with om }
  if changes then t.sendMessage answers .kModifyOrder (serializeModifyOrder t.scratchSize modify)
  else
    let (generated, order, om) ← t.om.onSignal cfg signal now sendTs blankOrder
    let t := { t with om }
    if generated then t.sendMessage answers .kNewOrder (serializeNewOrder t.scratchSize order) else return (true, t)

def tryReconnect (t : StrategyThread) (now : Int) (outcome : ConnectOutcome) : StrategyThread :=
  if kMaxReconnectAttempts ≤ t.conn.reconnectAttempts then { t with stopFlag := true }
  else
    match outcome with
    | .connected true => { t with conn := t.conn.finalizeTcpConnect (toUInt64 now) }
    | .inProgress => { t with conn := { t.conn with
        state := .kConnecting, connectDeadline := (toUInt64 now + kConnectTimeoutNs) % 2 ^ 64 } }
    | .connected false | .noSocket | .failed => { t with conn := t.conn.scheduleReconnect (toUInt64 now) }

/-- The cancels of a batch are sent before the loop goes on, and a stopped loop does nothing. -/
def idle (t : StrategyThread) : Bool := t.batch = [] && !t.stopFlag

def step (t : StrategyThread) : StrategyOp → Exec StrategyThread
  | .killSwitch now =>
    if t.idle ∧ t.om.killSwitchState = .kNormal ∧ t.conn.state = .kConnected then do
      let (batch, om) ← t.om.triggerKillSwitch cfg now
      return { t with om, batch }
    else some t
  | .cancel clock answers =>
    match t.batch with
    | [] => some t
    | cancel :: batch => do
      let (ok, t) ← { t with batch }.sendMessage answers .kCancelOrder (serializeCancelOrder t.scratchSize cancel)
      return if ok then t else { t.disconnectAndReconnect clock with batch := [] }
  | .drained => some (if t.idle ∧ t.om.killSwitchState = .kComplete then { t with stopFlag := true } else t)
  | .heartbeat now clock answers =>
    if t.idle ∧ t.conn.state = .kConnected then do
      let t ← t.heartbeatIfDue now clock answers
      return if kHeartbeatTimeoutNs ≤ elapsed now t.conn.lastHbRecv then t.disconnectAndReconnect clock else t
    else some t
  | .connectTimeout now =>
    some (if t.idle ∧ t.conn.state = .kConnecting ∧ t.conn.connectDeadline ≤ now then
      { t with conn := { t.conn with state := .kDisconnected }.scheduleReconnect (toUInt64 now) } else t)
  | .reconnect now outcome =>
    some (if t.idle ∧ t.conn.state = .kDisconnected ∧
      t.conn.nextReconnectAt ≤ now then t.tryReconnect now outcome else t)
  | .timeouts nowNs =>
    if t.idle ∧ t.conn.state = .kConnected then do
      let (batch, om) ← t.om.advanceTimeouts cfg nowNs
      return { t with om, batch }
    else some t
  | .signal signal now sendTs clock answers =>
    if t.idle ∧ t.conn.state = .kConnected then do
      let (ok, t) ← t.onSignal cfg signal now sendTs answers
      return if ok then t else t.disconnectAndReconnect clock
    else some t
  | .connectEvent now succeeded =>
    some (if t.idle ∧ t.conn.state = .kConnecting then
      { t with conn :=
        if succeeded then t.conn.finalizeTcpConnect (toUInt64 now)
        else { t.conn with state := .kDisconnected }.scheduleReconnect (toUInt64 now) }
      else t)
  | .response msg =>
    if t.idle ∧ t.conn.state = .kConnected then do
      let (_, om) ← t.om.apply cfg (onTcpMessage msg)
      return { t with om }
    else some t
  | .heartbeatAck now =>
    some (if t.idle ∧ t.conn.state = .kConnected then
      { t with conn := { t.conn with
        lastHbRecv := toUInt64 now, heartbeatsRecv := (t.conn.heartbeatsRecv + 1) % 2 ^ 32 } }
      else t)
  | .lost clock => some (if t.idle then t.disconnectAndReconnect clock else t)

def run : List StrategyOp → StrategyThread → Exec StrategyThread := Transition.run (step cfg)

abbrev Along (P : StrategyThread → StrategyOp → Prop) : List StrategyOp → StrategyThread → Prop :=
  Transition.Along (step cfg) P

end StrategyThread

end TickToTrade.Pipeline
