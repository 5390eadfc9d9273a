import TickToTrade.Exchange.Core
import TickToTrade.Sys.FixedSpscQueue

/-!
The engine process of `simulated_exchange/exchange_engine_main.cpp`. A push that fails is logged and the
event is lost; `drops` counts these lines of the log.
-/

namespace TickToTrade.Exchange
open Sys Function

def kExchangeQueueCapacity : Nat := 4096

inductive OrderRequestType where
  | kNewOrder
  | kCancelOrder
  | kModifyOrder
  | kClientConnect
  | kClientDisconnect
  deriving DecidableEq

structure OrderRequest where
  type : OrderRequestType
  gatewayId : Nat := 0
  sessionId : UInt16 := 0
  requestSeq : Nat := 0
  clientOrderId : Nat := 0
  symbolId : Nat := 0
  side : Side := .kBid
  price : Int := 0
  qty : Nat := 0
  newPrice : Int := 0
  newQty : Nat := 0
  sendTs : Int := 0
  deriving DecidableEq

namespace OrderRequest

def newOrder (req : OrderRequest) : NewOrder where
  clientOrderId := req.clientOrderId
  symbolId := req.symbolId
  side := req.side
  price := req.price
  qty := req.qty
  sendTs := req.sendTs

def cancelOrder (req : OrderRequest) : CancelOrder where
  clientOrderId := req.clientOrderId
  symbolId := req.symbolId
  sendTs := req.sendTs

def modifyOrder (req : OrderRequest) : ModifyOrder where
  clientOrderId := req.clientOrderId
  symbolId := req.symbolId
  newPrice := req.newPrice
  newQty := req.newQty
  sendTs := req.sendTs

end OrderRequest

/-- An event in shared memory, with the number of the request that it answers. -/
structure QueuedEvent extends ExchangeEvent where
  requestSeq : Nat := 0
  deriving DecidableEq

def ExchangeEvent.stamp (event : ExchangeEvent) (requestSeq : Nat) : QueuedEvent := { event with requestSeq }

abbrev EventQueue := FixedSPSCQueue QueuedEvent kExchangeQueueCapacity

structure Engine (maxSymbols : Nat) where
  core : ExchangeCore maxSymbols
  sessionToGateway : UInt16 → Nat := fun _ => 0
  responseQueues : Nat → EventQueue := fun _ => {}
  mdEventQueue : EventQueue := {}
  drops : Nat := 0

namespace Engine

variable {maxSymbols : Nat}

def respond (engine : Engine maxSymbols) (gw : Nat) (event : QueuedEvent) : Engine maxSymbols :=
  let (pushed, queue) := (engine.responseQueues gw).tryPush event
  { engine with
    responseQueues := update engine.responseQueues gw queue
    drops := if pushed then engine.drops else engine.drops + 1 }

def publish (engine : Engine maxSymbols) (event : QueuedEvent) : Engine maxSymbols :=
  let (pushed, mdEventQueue) := engine.mdEventQueue.tryPush event
  { engine with mdEventQueue, drops := if pushed then engine.drops else engine.drops + 1 }

def dispatch (engine : Engine maxSymbols) (event : QueuedEvent) : Engine maxSymbols :=
  match event.type with
  | .kFill => (engine.respond (engine.sessionToGateway event.sessionId) event).publish event
  | .kBBOUpdate => engine.publish event
  | _ => engine.respond (engine.sessionToGateway event.sessionId) event

def drainAndDispatch (engine : Engine maxSymbols) (requestSeq : Nat) : Engine maxSymbols :=
  let (events, core) := engine.core.drainEvents
  (events.map (·.stamp requestSeq)).foldl dispatch { engine with core }

/-- The answer to a connect echoes `client_order_id`. -/
def sessionAssigned (req : OrderRequest) (sessionId : UInt16) : QueuedEvent where
  type := .kSessionAssigned
  sessionId := sessionId
  requestSeq := req.requestSeq
  clientOrderId := req.clientOrderId

def processRequest (numGateways : Nat) (engine : Engine maxSymbols) (req : OrderRequest) :
    Exec (Engine maxSymbols) := do
  if numGateways ≤ req.gatewayId then return engine
  match req.type with
  | .kClientConnect =>
    let (sessionId, core) ← engine.core.onClientConnect
    let sessionToGateway := update engine.sessionToGateway sessionId req.gatewayId
    let (pushed, queue) := (engine.responseQueues req.gatewayId).tryPush (sessionAssigned req sessionId)
    if pushed then
      return { engine with
        core, sessionToGateway, responseQueues := update engine.responseQueues req.gatewayId queue }
    else
      -- The gateway never learns of the session, so it is rolled back.
      let core ← core.onClientDisconnect sessionId
      return { engine with
        core, sessionToGateway := update sessionToGateway sessionId 0, drops := engine.drops + 1 }
  | .kClientDisconnect =>
    let core ← engine.core.onClientDisconnect req.sessionId
    return { engine with core }
  | .kNewOrder =>
    let core ← engine.core.submitOrder req.sessionId req.newOrder
    return { engine with core }.drainAndDispatch req.requestSeq
  | .kCancelOrder =>
    let core ← engine.core.cancelOrder req.sessionId req.cancelOrder
    return { engine with core }.drainAndDispatch req.requestSeq
  | .kModifyOrder =>
    let core ← engine.core.modifyOrder req.sessionId req.modifyOrder
    return { engine with core }.drainAndDispatch req.requestSeq

end Engine

end TickToTrade.Exchange
