import TickToTrade.Exchange.Gateway
import TickToTrade.Exchange.FinalReports
import TickToTrade.Oms.TrackedOrders

/-!
One order manager and the exchange. Frames go up in order to the gateway, which queues the requests or
answers that it is busy; responses and these answers come down in one stream.
-/

namespace TickToTrade.EndToEnd
open Algo Ds Exchange Oms Sys

def clientMessage : Request → ClientMessage
  | .newOrder order => .newOrder order
  | .modifyOrder modify => .modifyOrder modify
  | .cancelOrder cancel => .cancelOrder cancel

def onTcpMessage : ExchangeMessage → Oms.Op
  | .orderAck ack => .orderAck ack
  | .orderReject reject => .orderReject reject
  | .fillReport fill => .fill fill
  | .cancelAck ack => .cancelAck ack
  | .cancelReject reject => .cancelReject reject
  | .modifyAck ack => .modifyAck ack
  | .modifyReject reject => .modifyReject reject

def sessionOf : Exchange.Op → Option UInt16
  | .connect => none
  | .disconnect sessionId => some sessionId
  | .submit sessionId _ => some sessionId
  | .cancel sessionId _ => some sessionId
  | .modify sessionId _ => some sessionId

/-- `owner` is kept for the statements: the session and client order id of the request that put an order into a book. -/
structure OrderFlow (maxSymbols : Nat) where
  om : OrderManager
  sessionId : UInt16
  core : ExchangeCore maxSymbols
  owner : Nat → Option (UInt16 × Nat) := fun _ => none
  uplink : List Request := []
  gateway : GatewayProcess
  requestQueue : PushedQueue := {}
  responses : List ExchangeEvent := []
  downlink : List ExchangeMessage := []

inductive FlowOp where
  | signal (signal : Signal) (now sendTs : Int)
  | modify (signal : Signal) (sendTs : Int)
  | advanceTimeouts (nowNs : Int)
  | triggerKillSwitch (now : Int)
  | frame
  | request
  | other (op : Exchange.Op)
  | response
  | pending
  | receive

namespace OrderFlow

variable {maxSymbols : Nat}

def connectedGateway (sessionId : UInt16) : GatewayProcess where
  gatewayId := 0
  recv := .parsing sessionId
  session := sessionId
  sendQueue := { head_le := Sys.FixedSPSCQueue.fresh_le }

def Connected (f : OrderFlow maxSymbols) : Prop := f.gateway.recv = .parsing f.sessionId
  deriving Decidable

def call (cfg : Config) (f : OrderFlow maxSymbols) (op : Oms.Op) : Exec (OrderFlow maxSymbols) := do
  let (sent, om) ← f.om.apply cfg op
  return { f with om, uplink := f.uplink ++ sent }

def serve (f : OrderFlow maxSymbols) (op : Exchange.Op) : Exec (OrderFlow maxSymbols) := do
  let core ← f.core.apply op
  let owner := fun x => if core.inBooks x && !f.core.inBooks x then op.request else f.owner x
  let (events, core) := core.drainEvents
  return { f with core, owner, responses := f.responses ++ events.filter (·.sessionId = f.sessionId) }

def received (f : OrderFlow maxSymbols) (out : GatewayProcess.Received) : OrderFlow maxSymbols :=
  { f with gateway := out.process, requestQueue := out.queue }

variable (cfg : Config)

def step (f : OrderFlow maxSymbols) : FlowOp → Exec (OrderFlow maxSymbols)
  | .signal signal now sendTs => f.call cfg (.signal signal now sendTs)
  | .modify signal sendTs => f.call cfg (.modify signal sendTs)
  | .advanceTimeouts nowNs => f.call cfg (.advanceTimeouts nowNs)
  | .triggerKillSwitch now => f.call cfg (.triggerKillSwitch now)
  | .frame =>
    match f.uplink with
    | [] => some f
    | msg :: uplink =>
      if f.Connected then
        some ({ f with uplink }.received (f.gateway.handleMessage 0 f.requestQueue f.sessionId (clientMessage msg)))
      else some f
  | .request =>
    match f.requestQueue.tryPop with
    | none => some f
    | some (req, requestQueue) => { f with requestQueue }.serve req.op
  | .other op => if sessionOf op = some f.sessionId then some f else f.serve op
  | .response =>
    match f.responses with
    | [] => some f
    | event :: responses => some { f with responses, downlink := f.downlink ++ (serializeOneEvent event).toList }
  | .pending =>
    match f.gateway.sendQueue.tryPop with
    | none => some f
    | some (pending, sendQueue) =>
      let f := { f with gateway := { f.gateway with sendQueue } }
      match pending with
      | .heartbeatAck => some f
      | .reject event => some { f with downlink := f.downlink ++ (serializeOneEvent event).toList }
  | .receive =>
    match f.downlink with
    | [] => some f
    | msg :: downlink => { f with downlink }.call cfg (onTcpMessage msg)

def run : List FlowOp → OrderFlow maxSymbols → Exec (OrderFlow maxSymbols) := Transition.run (step cfg)

abbrev Along (P : OrderFlow maxSymbols → FlowOp → Prop) : List FlowOp → OrderFlow maxSymbols → Prop :=
  Transition.Along (step cfg) P

def Quiet (f : OrderFlow maxSymbols) : Prop :=
  f.uplink = [] ∧ f.requestQueue.items = [] ∧ f.gateway.sendQueue.items = [] ∧ f.responses = [] ∧ f.downlink = []
  deriving Decidable

/-- Every order of the session in a book is tracked. -/
def NoOrphans (f : OrderFlow maxSymbols) : Prop :=
  ∀ x clientOrderId, f.core.inBooks x = true → f.owner x = some (f.sessionId, clientOrderId) →
    (f.om.outstanding.content clientOrderId).isSome = true

end OrderFlow

end TickToTrade.EndToEnd
