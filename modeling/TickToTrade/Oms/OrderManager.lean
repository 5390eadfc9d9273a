import TickToTrade.Protocol
import TickToTrade.Ds.HashMap
import TickToTrade.Ds.TimingWheel

/-!
The order manager of `tick_to_trade/order_manager.hpp` with its state in `StrategyCtx`. An index outside
the per-symbol arrays and a write past the end of `timeout_ids` are faults.
-/

namespace TickToTrade.Oms
open Ds Function

structure Signal where
  side : Side
  price : Int
  qty : Nat
  symbolId : Nat
  deriving DecidableEq

structure OrderInfo where
  side : Side
  price : Int
  qty : Nat
  symbolId : Nat
  sendTs : Int
  timerHandle : Nat
  deriving DecidableEq

structure ActiveOrder where
  clientOrderId : Nat := 0
  price : Int := 0
  qty : Nat := 0
  resting : Bool := false
  deriving DecidableEq

inductive KillSwitchState where
  | kNormal
  | kCancelling
  | kDraining
  | kComplete
  deriving DecidableEq

inductive Stat where
  | acksReceived
  | rejectsReceived
  | fillsReceived
  | totalFillQty
  | modifiesSent
  | modifiesAcked
  | modifiesRejected
  | riskRejectsOutstanding
  | riskRejectsPerSymbol
  | riskRejectsPosition
  | riskRejectsSize
  | riskRejectsNotional
  | riskRejectsRate
  | riskRejectsKillswitch
  | timeoutsFired
  deriving DecidableEq

/-- The dimensions of `StrategyCtx` and the arguments of the constructor, each in the range of its type. -/
structure Config where
  maxSymbols : Nat
  maxOutstanding : Nat
  maxOutstandingPerSymbol : Nat
  timeoutWheelSize : Nat
  timeoutMaxTimers : Nat
  maxPosition : Int := 100
  maxOrderSize : Nat := 1000
  maxNotional : Int := 50000000
  maxOrdersPerWindow : Nat := 100
  rateWindowNs : Int := 1000000000
  orderTimeoutNs : Int := 5000000000
  outstanding_lt : maxOutstanding < 2 ^ 32 := by decide
  position_lt : maxPosition < 2 ^ 63 := by decide
  notional_ge : -2 ^ 63 ≤ maxNotional := by decide
  notional_lt : maxNotional < 2 ^ 63 := by decide

namespace Config

def kTickIntervalNs : Int := 1000000

def refillIntervalNs (cfg : Config) : Int :=
  if 0 < cfg.maxOrdersPerWindow then cfg.rateWindowNs.tdiv cfg.maxOrdersPerWindow else cfg.rateWindowNs

/-- `order_timeout_ns_ / kTickIntervalNs` as a `uint64_t`. -/
def delayTicks (cfg : Config) : Nat := (cfg.orderTimeoutNs.tdiv kTickIntervalNs % 2 ^ 64).toNat

def orderCtxMapCapacity (cfg : Config) : Exec Nat := HashMap.roundUpCapacity (cfg.maxOutstanding * 4)

def symbolIndex (cfg : Config) (symbolId : Nat) : Option Nat :=
  if symbolId = 0 ∨ cfg.maxSymbols < symbolId then none else some (symbolId - 1)

end Config

structure OrderManager where
  nextOrderId : Nat := 1
  outstandingCount : Nat := 0
  lastRefillTs : Int := 0
  tokens : Nat
  killSwitchState : KillSwitchState := .kNormal
  pendingCancelCount : Nat := 0
  outstanding : HashMap Nat OrderInfo
  timeoutWheel : TimingWheel Unit
  lastAdvanceNs : Int := 0
  netPosition : Nat → Int := fun _ => 0
  outstandingPerSymbol : Nat → Nat := fun _ => 0
  activeOrders : Nat → Side → ActiveOrder := fun _ _ => {}
  stats : Stat → Nat := fun _ => 0

namespace OrderManager

variable (cfg : Config)

def create : Exec OrderManager := do
  let mapCapacity ← cfg.orderCtxMapCapacity
  let outstanding ← HashMap.create mapCapacity
  let timeoutWheel ← TimingWheel.create cfg.timeoutWheelSize cfg.timeoutMaxTimers
  return { tokens := cfg.maxOrdersPerWindow, outstanding, timeoutWheel }

def count (om : OrderManager) (stat : Stat) (n : Nat) : OrderManager :=
  { om with stats := update om.stats stat ((om.stats stat + n) % 2 ^ 64) }

def setActive (om : OrderManager) (symIdx : Nat) (side : Side) (active : ActiveOrder) : OrderManager :=
  { om with activeOrders := update om.activeOrders symIdx (update (om.activeOrders symIdx) side active) }

/-- Whether a modify was generated, the message and the new state. -/
def checkModify (om : OrderManager) (signal : Signal) (sendTs : Int) (out : ModifyOrder) :
    Exec (Bool × ModifyOrder × OrderManager) := do
  if om.killSwitchState ≠ .kNormal then return (false, out, om)
  let symIdx ← cfg.symbolIndex signal.symbolId
  let active := om.activeOrders symIdx signal.side
  if !active.resting then return (false, out, om)
  if active.price = signal.price then return (false, out, om)
  let out := {
    clientOrderId := active.clientOrderId, symbolId := signal.symbolId, newPrice := signal.price, newQty := signal.qty
    sendTs }
  let om := om.setActive symIdx signal.side { active with price := signal.price, qty := signal.qty }
  return (true, out, om.count .modifiesSent 1)

/-! ### New orders -/

/-- `price * qty` in `int64_t`. -/
def notional (signal : Signal) : Int := toInt64 (signal.price * signal.qty)

def refill (om : OrderManager) (now : Int) : Exec OrderManager :=
  let elapsed := toInt64 (now - om.lastRefillTs)
  if elapsed < cfg.refillIntervalNs then some om
  else if cfg.refillIntervalNs = 0 then none
  else
    let newTokens : Nat := Int.toNat (elapsed.tdiv cfg.refillIntervalNs % 2 ^ 32)
    some { om with
      tokens := min ((om.tokens + newTokens) % 2 ^ 32) cfg.maxOrdersPerWindow
      lastRefillTs := toInt64 (om.lastRefillTs + (newTokens : Int) * cfg.refillIntervalNs) }

def projectedPosition (om : OrderManager) (symIdx : Nat) (signal : Signal) : Int :=
  if signal.side = .kBid then toInt64 (om.netPosition symIdx + signal.qty)
  else toInt64 (om.netPosition symIdx - signal.qty)

def absPosition (position : Int) : Int := if position < 0 then toInt64 (-position) else position

def placeOrder (om : OrderManager) (symIdx : Nat) (signal : Signal) (sendTs : Int) :
    Exec (Bool × NewOrder × OrderManager) := do
  let id := om.nextOrderId
  let om := { om with nextOrderId := (id + 1) % 2 ^ 64 }
  let out := {
    clientOrderId := id, symbolId := signal.symbolId, side := signal.side, price := signal.price,
      qty := signal.qty, sendTs }
  let (timerHandle, timeoutWheel) ← om.timeoutWheel.schedule () id cfg.delayTicks
  let om := { om with timeoutWheel }
  let info := {
    side := signal.side, price := signal.price, qty := signal.qty, symbolId := signal.symbolId, sendTs, timerHandle }
  let (inserted, outstanding) ← om.outstanding.insert id info
  let om := { om with outstanding }
  if !inserted then
    let (_, timeoutWheel) ← om.timeoutWheel.cancel timerHandle
    return (false, out, { om with timeoutWheel })
  let om := { om with
    outstandingCount := (om.outstandingCount + 1) % 2 ^ 32
    outstandingPerSymbol :=
      update om.outstandingPerSymbol symIdx ((om.outstandingPerSymbol symIdx + 1) % 2 ^ 32) }
  let om := om.setActive symIdx signal.side ⟨id, signal.price, signal.qty, true⟩
  return (true, out, { om with tokens := om.tokens - 1 })

/-- Whether an order was generated, the message and the new state; `now` is read for the token bucket. -/
def onSignal (om : OrderManager) (signal : Signal) (now sendTs : Int) (out : NewOrder) :
    Exec (Bool × NewOrder × OrderManager) := do
  let refuse (om : OrderManager) (stat : Stat) : Exec (Bool × NewOrder × OrderManager) :=
    some (false, out, om.count stat 1)
  if om.killSwitchState ≠ .kNormal then return ← refuse om .riskRejectsKillswitch
  if cfg.maxOutstanding ≤ om.outstandingCount then return ← refuse om .riskRejectsOutstanding
  let symIdx ← cfg.symbolIndex signal.symbolId
  if cfg.maxOutstandingPerSymbol ≤ om.outstandingPerSymbol symIdx then return ← refuse om .riskRejectsPerSymbol
  if cfg.maxOrderSize < signal.qty then return ← refuse om .riskRejectsSize
  if cfg.maxNotional < notional signal then return ← refuse om .riskRejectsNotional
  let om ← om.refill cfg now
  if om.tokens = 0 then return ← refuse om .riskRejectsRate
  if cfg.maxPosition < absPosition (om.projectedPosition symIdx signal) then return ← refuse om .riskRejectsPosition
  om.placeOrder cfg symIdx signal sendTs

/-! ### Exchange responses -/

def clearActiveIfMatch (om : OrderManager) (symbolId : Nat) (side : Side) (clientOrderId : Nat) : OrderManager :=
  match cfg.symbolIndex symbolId with
  | none => om
  | some symIdx =>
    let active := om.activeOrders symIdx side
    if active.resting && active.clientOrderId = clientOrderId then om.setActive symIdx side
      { active with resting := false }
    else om

def releaseSymbol (om : OrderManager) (symbolId : Nat) : Exec OrderManager := do
  let symIdx ← cfg.symbolIndex symbolId
  return { om with
    outstandingPerSymbol := update om.outstandingPerSymbol symIdx (decrement32 (om.outstandingPerSymbol symIdx)) }

def eraseOutstanding (om : OrderManager) (id : Nat) : Exec OrderManager := do
  let (_, outstanding) ← om.outstanding.erase id
  return { om with outstanding, outstandingCount := if 0 < om.outstandingCount then om.outstandingCount - 1 else 0 }

def maybeCompactOutstanding (om : OrderManager) : OrderManager :=
  if om.outstandingCount = 0 ∧ om.outstanding.needsRebuild then { om with outstanding := om.outstanding.clear } else om

def untrack (om : OrderManager) (id : Nat) (info : OrderInfo) : Exec OrderManager := do
  let (_, timeoutWheel) ← om.timeoutWheel.cancel info.timerHandle
  let om := { om with timeoutWheel }.clearActiveIfMatch cfg info.symbolId info.side id
  om.releaseSymbol cfg info.symbolId

/-- Drop an order, tracked or not: the common part of `on_order_reject`, `on_fill` and `on_cancel_ack`. -/
def dropOrder (om : OrderManager) (id : Nat) (info : Option OrderInfo) : Exec OrderManager := do
  let om ← match info with
    | none => pure om
    | some info => om.untrack cfg id info
  let om ← om.eraseOutstanding id
  return om.maybeCompactOutstanding

def checkDrainComplete (om : OrderManager) : OrderManager :=
  if om.killSwitchState = .kDraining then
    let pendingCancelCount := if 0 < om.pendingCancelCount then om.pendingCancelCount - 1 else 0
    { om with
      pendingCancelCount
      killSwitchState := if pendingCancelCount = 0 then .kComplete else om.killSwitchState }
  else om

def onOrderAck (om : OrderManager) (_ack : OrderAck) : OrderManager := om.count .acksReceived 1

def onOrderReject (om : OrderManager) (reject : OrderReject) : Exec OrderManager := do
  let info ← om.outstanding.find reject.clientOrderId
  let om ← om.dropOrder cfg reject.clientOrderId info
  return om.count .rejectsReceived 1

/-- The position update of a fill; the order is looked up because a fill names no symbol. -/
def bookFill (om : OrderManager) (info : Option OrderInfo) (fillQty : Nat) : OrderManager :=
  match info with
  | none => om
  | some info =>
    match cfg.symbolIndex info.symbolId with
    | none => om
    | some symIdx =>
      let position := om.netPosition symIdx
      let position := if info.side = .kBid then toInt64 (position + fillQty) else toInt64 (position - fillQty)
      { om with netPosition := update om.netPosition symIdx position }

def onFill (om : OrderManager) (fill : FillReport) : Exec OrderManager := do
  let info ← om.outstanding.find fill.clientOrderId
  let om := om.bookFill cfg info fill.fillQty
  let om ← if fill.remainingQty = 0 then om.dropOrder cfg fill.clientOrderId info else pure om
  return (om.count .fillsReceived 1).count .totalFillQty fill.fillQty

def onModifyAck (om : OrderManager) (_ack : ModifyAck) : OrderManager := om.count .modifiesAcked 1

def onModifyReject (om : OrderManager) (reject : ModifyReject) : Exec OrderManager := do
  let om ← match ← om.outstanding.find reject.clientOrderId with
    | none => pure om
    | some info => pure (om.clearActiveIfMatch cfg info.symbolId info.side reject.clientOrderId)
  return om.count .modifiesRejected 1

def onCancelAck (om : OrderManager) (ack : CancelAck) : Exec OrderManager := do
  let info ← om.outstanding.find ack.clientOrderId
  let om ← om.dropOrder cfg ack.clientOrderId info
  return om.checkDrainComplete

/-- The only handler that leaves an unknown order alone. -/
def onCancelReject (om : OrderManager) (reject : CancelReject) : Exec OrderManager := do
  let om ← match ← om.outstanding.find reject.clientOrderId with
    | none => pure om
    | some info => om.dropOrder cfg reject.clientOrderId (some info)
  return om.checkDrainComplete

/-! ### Timeouts and the kill switch -/

def onOrderTimeout (_cb : Unit) (coid : Nat) : TimingWheel Unit × List Nat → Exec (TimingWheel Unit × List Nat)
  | (wheel, ids) => if cfg.maxOutstanding ≤ ids.length then none else some (wheel, ids ++ [coid])

def tickTimes : Nat → TimingWheel Unit × List Nat → Exec (TimingWheel Unit × List Nat) :=
  TimingWheel.tickMany (onOrderTimeout cfg)

/-- The loop over the collected ids; it appends to the batch of cancels. -/
def expireOrders (nowNs : Int) :
    List Nat → OrderManager → List CancelOrder → Exec (List CancelOrder × OrderManager)
  | [], om, batch => some (batch, om)
  | coid :: rest, om, batch => do
    match ← om.outstanding.find coid with
    | none => expireOrders nowNs rest om batch
    | some info =>
      let batch := if batch.length < cfg.maxOutstanding then batch ++ [⟨coid, info.symbolId, nowNs⟩] else batch
      let om := om.clearActiveIfMatch cfg info.symbolId info.side coid
      let om ← om.releaseSymbol cfg info.symbolId
      let om ← om.eraseOutstanding coid
      expireOrders nowNs rest (om.count .timeoutsFired 1) batch

def advanceTimeouts (om : OrderManager) (nowNs : Int) : Exec (List CancelOrder × OrderManager) := do
  if om.killSwitchState ≠ .kNormal then return ([], om)
  let elapsedNs := toInt64 (nowNs - om.lastAdvanceNs)
  if elapsedNs < Config.kTickIntervalNs then return ([], om)
  let elapsedTicks := (elapsedNs.tdiv Config.kTickIntervalNs % 2 ^ 32).toNat
  let (timeoutWheel, ids) ← tickTimes cfg elapsedTicks (om.timeoutWheel, [])
  let om := { om with
    timeoutWheel, lastAdvanceNs := toInt64 (om.lastAdvanceNs + elapsedTicks * Config.kTickIntervalNs) }
  let (batch, om) ← expireOrders cfg nowNs ids om []
  return (batch, om.maybeCompactOutstanding)

def triggerKillSwitch (om : OrderManager) (now : Int) : Exec (List CancelOrder × OrderManager) := do
  if om.killSwitchState ≠ .kNormal then return ([], om)
  let batch := (om.outstanding.entries.take cfg.maxOutstanding).map fun (id, info) => ⟨id, info.symbolId, now⟩
  let timeoutWheel ← om.timeoutWheel.reset
  return (batch, { om with
    timeoutWheel, pendingCancelCount := batch.length
    killSwitchState := if batch.length = 0 then .kComplete else .kDraining })

end OrderManager

end TickToTrade.Oms
