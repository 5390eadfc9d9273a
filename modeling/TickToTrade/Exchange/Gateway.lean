import TickToTrade.Exchange.Engine
import TickToTrade.Exchange.Runs
import TickToTrade.Lib.Transition

/-!
The gateway process of `simulated_exchange/exchange_gateway_main.cpp` and its composition with the
engine process. A process claims a slot, serves one client and releases the slot; the queues stay.
-/

namespace TickToTrade.Exchange
open Sys Function

/-- A frame of a client. The header of an `ignored` frame is bad or of another protocol version; a `malformed` frame
has an unknown type or a bad payload. -/
inductive ClientMessage where
  | newOrder (order : NewOrder)
  | cancelOrder (cancel : CancelOrder)
  | modifyOrder (modify : ModifyOrder)
  | heartbeat
  | malformed
  | ignored
  deriving DecidableEq

inductive ExchangeMessage where
  | orderAck (ack : OrderAck)
  | orderReject (reject : OrderReject)
  | fillReport (fill : FillReport)
  | cancelAck (ack : CancelAck)
  | cancelReject (reject : CancelReject)
  | modifyAck (ack : ModifyAck)
  | modifyReject (reject : ModifyReject)
  deriving DecidableEq

def serializeOneEvent (event : ExchangeEvent) : Option ExchangeMessage :=
  match event.type with
  | .kOrderAccepted => some (.orderAck ⟨event.clientOrderId, event.exchangeOrderId, event.sendTs⟩)
  | .kOrderRejected => some (.orderReject ⟨event.clientOrderId, event.reason, event.sendTs⟩)
  | .kFill => some (.fillReport
      ⟨event.clientOrderId, event.exchangeOrderId, event.price, event.qty, event.remainingQty, event.sendTs⟩)
  | .kCancelAck => some (.cancelAck ⟨event.clientOrderId, event.sendTs⟩)
  | .kCancelRejected => some (.cancelReject ⟨event.clientOrderId, event.reason, event.sendTs⟩)
  | .kModifyAck => some (.modifyAck ⟨event.clientOrderId, event.exchangeOrderId, event.sendTs⟩)
  | .kModifyRejected => some (.modifyReject ⟨event.clientOrderId, event.reason, event.sendTs⟩)
  | .kBBOUpdate | .kSessionAssigned => none

def parseFrameToRequest (msg : ClientMessage) (sessionId : UInt16) (requestSeq gatewayId : Nat) : Option OrderRequest :=
  match msg with
  | .newOrder order => some {
      type := .kNewOrder, gatewayId, sessionId, requestSeq, clientOrderId := order.clientOrderId
      symbolId := order.symbolId, side := order.side, price := order.price, qty := order.qty, sendTs := order.sendTs }
  | .cancelOrder cancel => some {
      type := .kCancelOrder, gatewayId, sessionId, requestSeq, clientOrderId := cancel.clientOrderId
      symbolId := cancel.symbolId, sendTs := cancel.sendTs }
  | .modifyOrder modify => some {
      type := .kModifyOrder, gatewayId, sessionId, requestSeq, clientOrderId := modify.clientOrderId
      symbolId := modify.symbolId, newPrice := modify.newPrice, newQty := modify.newQty, sendTs := modify.sendTs }
  | .heartbeat | .malformed | .ignored => none

/-- The answer to a request for which the engine's queue has no room. -/
def throttleReject (curSession : UInt16) (req : OrderRequest) : ExchangeEvent where
  type :=
    match req.type with
    | .kCancelOrder => .kCancelRejected
    | .kModifyOrder => .kModifyRejected
    | _ => .kOrderRejected
  sessionId := curSession
  clientOrderId := req.clientOrderId
  sendTs := req.sendTs
  reason := .kThrottled

/-- What the recv thread leaves to the send thread; a reject is kept as the event that was serialized. -/
inductive PendingSend where
  | heartbeatAck
  | reject (event : ExchangeEvent)
  deriving DecidableEq

abbrev SendQueue := FixedSPSCQueue PendingSend 128

/-- A request in shared memory, with the process that pushed it. Only the statements use the process. -/
structure PushedRequest extends OrderRequest where
  process : Nat
  deriving DecidableEq

abbrev PushedQueue := FixedSPSCQueue PushedRequest kExchangeQueueCapacity

/-- Where the recv thread stands, with the locals that it needs there. -/
inductive RecvState where
  | accepting
  | accepted (clientFd : Nat)
  | connecting (clientFd : Nat)
  | receiving
  | parsing (curSession : UInt16)
  | leaving
  | disconnecting (finalSession : UInt16)
  | closing
  | finished
  deriving DecidableEq

inductive SendState where
  | polling
  | responding (fd : Option Nat)
  | draining
  | finished
  deriving DecidableEq

/-- What the client and the kernel do to the recv thread. Running out of buffer space counts as `closed`. -/
inductive RecvInput where
  | accept (fd : Nat)
  | data
  | closed
  | message (msg : ClientMessage)
  | incomplete
  | broken
  deriving DecidableEq

/-- `written` keeps the events whose serialization was handed to the client's socket. -/
structure GatewayProcess where
  gatewayId : Nat
  recv : RecvState := .accepting
  send : SendState := .polling
  stop : Bool := false
  session : UInt16 := 0
  clientFdShared : Option Nat := none
  sendQueue : SendQueue := {}
  nextSeq : Nat := 1
  written : List ExchangeEvent := []
  exited : Bool := false

namespace GatewayProcess

structure Received where
  process : GatewayProcess
  queue : PushedQueue
  failed : Nat := 0

def bumpSeq (g : GatewayProcess) : GatewayProcess := { g with nextSeq := (g.nextSeq + 1) % 2 ^ 32 }

/-- A push onto the local queue ends the connection if it fails. -/
def pushSend (g : GatewayProcess) (queue : PushedQueue) (failed : Nat) (pending : PendingSend) : Received :=
  let (pushed, sendQueue) := g.sendQueue.tryPush pending
  if pushed then ⟨{ g with sendQueue }, queue, failed⟩ else ⟨{ g with recv := .leaving }, queue, failed + 1⟩

def handleMessage (g : GatewayProcess) (pid : Nat) (queue : PushedQueue) (curSession : UInt16) (msg : ClientMessage) :
    Received :=
  match msg with
  | .ignored => ⟨g, queue, 0⟩
  | .heartbeat => g.pushSend queue 0 .heartbeatAck
  | msg =>
    if curSession = 0 then ⟨g, queue, 0⟩
    else
      match parseFrameToRequest msg curSession g.nextSeq g.gatewayId with
      | none => ⟨g.bumpSeq, queue, 0⟩
      | some req =>
        let (pushed, queue) := queue.tryPush { req with process := pid }
        if pushed then ⟨g.bumpSeq, queue, 0⟩ else g.bumpSeq.pushSend queue 1 (.reject (throttleReject curSession req))

def connectRequest (g : GatewayProcess) (pid clientFd : Nat) : PushedRequest where
  type := .kClientConnect
  gatewayId := g.gatewayId
  requestSeq := g.nextSeq
  clientOrderId := clientFd
  process := pid

def disconnectRequest (g : GatewayProcess) (pid : Nat) (finalSession : UInt16) : PushedRequest where
  type := .kClientDisconnect
  gatewayId := g.gatewayId
  sessionId := finalSession
  requestSeq := g.nextSeq
  process := pid

/-- One step of `recv_thread_main`. An input that does not fit the place in the code changes nothing. -/
def recvStep (g : GatewayProcess) (pid : Nat) (queue : PushedQueue) (input : RecvInput) : Received :=
  match g.recv with
  | .accepting =>
    if g.stop then ⟨{ g with recv := .finished }, queue, 0⟩
    else
      match input with
      | .accept fd => ⟨{ g with recv := .accepted fd }, queue, 0⟩
      | _ => ⟨g, queue, 0⟩
  | .accepted fd => ⟨{ g with clientFdShared := some fd, recv := .connecting fd }, queue, 0⟩
  | .connecting fd =>
    let (pushed, queue) := queue.tryPush (g.connectRequest pid fd)
    if pushed then ⟨{ g.bumpSeq with recv := .receiving }, queue, 0⟩
    else ⟨{ g.bumpSeq with stop := true, recv := .finished }, queue, 1⟩
  | .receiving =>
    if g.stop then ⟨{ g with recv := .leaving }, queue, 0⟩
    else
      match input with
      | .closed => ⟨{ g with recv := .leaving }, queue, 0⟩
      | .data => ⟨{ g with recv := .parsing g.session }, queue, 0⟩
      | _ => ⟨g, queue, 0⟩
  | .parsing curSession =>
    if g.stop then ⟨{ g with recv := .receiving }, queue, 0⟩
    else
      match input with
      | .incomplete => ⟨{ g with recv := .receiving }, queue, 0⟩
      | .broken => ⟨{ g with recv := .leaving }, queue, 0⟩
      | .message msg => g.handleMessage pid queue curSession msg
      | _ => ⟨g, queue, 0⟩
  | .leaving => ⟨{ g with recv := .disconnecting g.session }, queue, 0⟩
  | .disconnecting finalSession =>
    if finalSession = 0 then ⟨{ g with recv := .closing }, queue, 0⟩
    else
      let (pushed, queue) := queue.tryPush (g.disconnectRequest pid finalSession)
      ⟨{ g.bumpSeq with recv := .closing }, queue, if pushed then 0 else 1⟩
  | .closing => ⟨{ g with recv := .finished, stop := true }, queue, 0⟩
  | .finished => ⟨g, queue, 0⟩

def writeEvent (g : GatewayProcess) (event : ExchangeEvent) (sent : Bool) (next : SendState) : GatewayProcess :=
  let g := { g with written := g.written ++ [event] }
  if sent then g else { g with clientFdShared := none, stop := true, send := next }

def respondEvent (g : GatewayProcess) (fd : Option Nat) (event : QueuedEvent) (sent : Bool) : GatewayProcess :=
  if event.type = .kSessionAssigned then { g with session := event.sessionId }
  else if serializeOneEvent event.toExchangeEvent = none ∨ fd = none then g
  else g.writeEvent event.toExchangeEvent sent .draining

/-- One step of `send_thread_main`; `sent` is the answer of `send_full`. -/
def sendStep (g : GatewayProcess) (queue : EventQueue) (sent : Bool) : GatewayProcess × EventQueue :=
  match g.send with
  | .polling =>
    (if g.stop then { g with send := .finished } else { g with send := .responding g.clientFdShared }, queue)
  | .responding fd =>
    match queue.tryPop with
    | none => ({ g with send := .draining }, queue)
    | some (event, queue) => (g.respondEvent fd event sent, queue)
  | .draining =>
    match g.sendQueue.tryPop with
    | none => ({ g with send := .polling }, queue)
    | some (pending, sendQueue) =>
      let g := { g with sendQueue }
      match pending, g.clientFdShared with
      | _, none => (g, queue)
      | .reject event, some _ => (g.writeEvent event sent .polling, queue)
      | .heartbeatAck, some _ =>
        (if sent then g else { g with clientFdShared := none, stop := true, send := .polling }, queue)
  | .finished => (g, queue)

end GatewayProcess

/-! ### Engine and gateways together -/

def OrderRequest.op (req : OrderRequest) : Op :=
  match req.type with
  | .kClientConnect => .connect
  | .kClientDisconnect => .disconnect req.sessionId
  | .kNewOrder => .submit req.sessionId req.newOrder
  | .kCancelOrder => .cancel req.sessionId req.cancelOrder
  | .kModifyOrder => .modify req.sessionId req.modifyOrder

/-- Processes are numbered as they claim their slots, and `tenant` is the last one of a slot. For the statements the
state also keeps the session that the engine assigned to a process and the last process that it assigned a
session to, and for each order in a book the request that put it there. -/
structure Deployment (maxSymbols : Nat) where
  engine : Engine maxSymbols
  requestQueues : Nat → PushedQueue := fun _ => {}
  claimed : Nat → Bool := fun _ => false
  started : Nat := 0
  processes : Nat → GatewayProcess := fun _ => { gatewayId := 0 }
  tenant : Nat → Option Nat := fun _ => none
  assigned : Nat → Option UInt16 := fun _ => none
  holder : UInt16 → Option Nat := fun _ => none
  sender : Nat → Option PushedRequest := fun _ => none
  failedPushes : Nat := 0

inductive DeploymentOp where
  | claim (gw : Nat)
  | signal (pid : Nat)
  | recv (pid : Nat) (input : RecvInput)
  | send (pid : Nat) (sent : Bool)
  | release (pid : Nat)
  | poll (gw : Nat)
  | popMarketData

namespace Deployment

variable {maxSymbols : Nat}

/-- The session that the engine assigned with this request, unless it was rolled back. -/
def granted (engine engine' : Engine maxSymbols) (req : OrderRequest) : Option UInt16 :=
  if req.type = .kClientConnect ∧ engine'.drops = engine.drops then engine.core.onClientConnect.map Prod.fst else none

def served (d : Deployment maxSymbols) (gw : Nat) (req : PushedRequest) (queue : PushedQueue)
    (engine : Engine maxSymbols) : Deployment maxSymbols :=
  let grant := granted d.engine engine req.toOrderRequest
  { d with
    engine
    requestQueues := update d.requestQueues gw queue
    assigned := grant.elim d.assigned fun sessionId => update d.assigned req.process (some sessionId)
    holder := grant.elim d.holder fun sessionId => update d.holder sessionId (some req.process)
    sender := fun x =>
      if engine.core.inBooks x && !d.engine.core.inBooks x then req.op.request.map fun _ => req else d.sender x }

def received (d : Deployment maxSymbols) (pid : Nat) (out : GatewayProcess.Received) : Deployment maxSymbols :=
  { d with
    processes := update d.processes pid out.process
    requestQueues := update d.requestQueues (d.processes pid).gatewayId out.queue
    failedPushes := d.failedPushes + out.failed }

def sent (d : Deployment maxSymbols) (pid : Nat) (out : GatewayProcess × EventQueue) : Deployment maxSymbols :=
  { d with
    processes := update d.processes pid out.1
    engine := { d.engine with
      responseQueues := update d.engine.responseQueues (d.processes pid).gatewayId out.2 } }

/-- A new process takes the slot. -/
abbrev claiming (d : Deployment maxSymbols) (gw : Nat) : Deployment maxSymbols :=
  { d with
      claimed := update d.claimed gw true
      started := d.started + 1
      processes := update d.processes d.started { gatewayId := gw }
      tenant := update d.tenant gw (some d.started) }

variable (numGateways : Nat)

def step (d : Deployment maxSymbols) : DeploymentOp → Exec (Deployment maxSymbols)
  | .claim gw =>
    if numGateways ≤ gw ∨ d.claimed gw then some d else some (d.claiming gw)
  | .signal pid =>
    if pid < d.started then
      some { d with processes := update d.processes pid { d.processes pid with stop := true } }
    else some d
  | .recv pid input =>
    let g := d.processes pid
    if pid < d.started then some (d.received pid (g.recvStep pid (d.requestQueues g.gatewayId) input)) else some d
  | .send pid sent =>
    let g := d.processes pid
    if pid < d.started then some (d.sent pid (g.sendStep (d.engine.responseQueues g.gatewayId) sent)) else some d
  | .release pid =>
    let g := d.processes pid
    if pid < d.started ∧ g.recv = .finished ∧ g.send = .finished ∧ g.exited = false then
      some { d with
        claimed := update d.claimed g.gatewayId false
        processes := update d.processes pid { g with exited := true } }
    else some d
  | .poll gw =>
    if numGateways ≤ gw then some d
    else
      match (d.requestQueues gw).tryPop with
      | none => some d
      | some (req, queue) => do
        let engine ← d.engine.processRequest numGateways req.toOrderRequest
        return d.served gw req queue engine
  | .popMarketData =>
    match d.engine.mdEventQueue.tryPop with
    | none => some d
    | some (_, mdEventQueue) => some { d with engine := { d.engine with mdEventQueue } }

def run : List DeploymentOp → Deployment maxSymbols → Exec (Deployment maxSymbols) := Transition.run (step numGateways)

abbrev Along (P : Deployment maxSymbols → DeploymentOp → Prop) : List DeploymentOp → Deployment maxSymbols → Prop :=
  Transition.Along (step numGateways) P

end Deployment

end TickToTrade.Exchange
