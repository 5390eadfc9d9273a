import TickToTrade.Protocol
import TickToTrade.Algo.MatchingEngine

/-!
The exchange of `simulated_exchange/exchange_core.hpp`. A call that would overflow the event buffer
aborts.
-/

namespace TickToTrade.Exchange
open Algo Ds Function

inductive EventType where
  | kOrderAccepted
  | kOrderRejected
  | kFill
  | kCancelAck
  | kCancelRejected
  | kModifyAck
  | kModifyRejected
  | kBBOUpdate
  | kSessionAssigned
  deriving DecidableEq

/-- `request_seq` is written by the event loop around the core, never here. -/
structure ExchangeEvent where
  type : EventType
  sessionId : UInt16 := 0
  clientOrderId : Nat := 0
  exchangeOrderId : Nat := 0
  symbolId : Nat := 0
  side : Side := .kBid
  price : Int := 0
  qty : Nat := 0
  remainingQty : Nat := 0
  sendTs : Int := 0
  reason : RejectReason := .kUnknown
  deriving DecidableEq

def unboundBook : OrderBook where
  orderSlots := fun _ => {}
  levelSlots := fun _ => {}
  orderFree := IndexFreeStack.unbound
  levelFree := IndexFreeStack.unbound
  ladders := fun _ => []
  orderMap := HashMap.unbound
  levelMap := fun _ => HashMap.unbound

structure SymbolSlot where
  engine : MatchingEngine 64 := { book := unboundBook }
  active : Bool := false

structure IdEntry where
  exchangeId : Nat
  side : Side
  symbolId : Nat
  deriving DecidableEq

structure ReverseIdEntry where
  sessionId : UInt16
  clientOrderId : Nat
  symbolId : Nat
  sendTs : Int
  deriving DecidableEq

def kMaxEvents : Nat := 512

def kMaxSeenOrders : Nat := 16384

def kMaxIdMappings : Nat := 1024

def kMaxClientOrderId : Nat := 2 ^ 48 - 1

structure ExchangeCore (maxSymbols : Nat) where
  symbols : Nat → SymbolSlot := fun _ => {}
  nextExchangeId : Nat := 1
  events : List ExchangeEvent := []
  nextSessionId : UInt16 := 1
  activeSessions : UInt16 → Bool := fun _ => false
  seenOrders : FixedHashMap Nat Bool kMaxSeenOrders := FixedHashMap.empty
  idMap : FixedHashMap Nat IdEntry kMaxIdMappings := FixedHashMap.empty
  reverseIdMap : FixedHashMap Nat ReverseIdEntry kMaxIdMappings := FixedHashMap.empty

def makeCompositeKey (sessionId : UInt16) (clientOrderId : Nat) : Nat :=
  sessionId.toNat <<< 48 ||| clientOrderId &&& kMaxClientOrderId

def extractSessionId (compositeKey : Nat) : UInt16 := UInt16.ofNat (compositeKey >>> 48 &&& 0xFFFF)

namespace ExchangeCore

variable {maxSymbols : Nat}

def setEngine (core : ExchangeCore maxSymbols) (idx : Nat) (engine : MatchingEngine 64) : ExchangeCore maxSymbols :=
  { core with symbols := update core.symbols idx { core.symbols idx with engine } }

def registerSymbol (core : ExchangeCore maxSymbols) (symbolId : Nat) (params : Params) :
    Exec (ExchangeCore maxSymbols) := do
  if symbolId = 0 ∨ maxSymbols < symbolId then none
  else
    let engine ← MatchingEngine.create 64 params
    return { core with symbols := update core.symbols (symbolId - 1) { engine, active := true } }

/-! ### Sessions -/

/-- One round of the search for an unused session id; the fuel is `65535 - attempts`. -/
def findSession : (fuel : Nat) → ExchangeCore maxSymbols → Exec (UInt16 × ExchangeCore maxSymbols)
  | 0, _ => none
  | fuel + 1, core =>
    let id := if core.nextSessionId = 0 then 1 else core.nextSessionId
    let core := { core with nextSessionId := id + 1 }
    if core.activeSessions id then findSession fuel core
    else some (id, { core with activeSessions := update core.activeSessions id true })

def onClientConnect (core : ExchangeCore maxSymbols) : Exec (UInt16 × ExchangeCore maxSymbols) := findSession 65535 core

def cancelSession (sessionId : UInt16) :
    List (Nat × IdEntry) → ExchangeCore maxSymbols → Exec (List Nat × ExchangeCore maxSymbols)
  | [], core => some ([], core)
  | (key, entry) :: rest, core => do
    if extractSessionId key = sessionId then
      let idx := entry.symbolId - 1
      let (_, engine) ← (core.symbols idx).engine.cancelOrder entry.exchangeId
      let (keys, core) ← cancelSession sessionId rest (core.setEngine idx engine)
      return (key :: keys, core)
    else cancelSession sessionId rest core

def eraseMappings : List Nat → ExchangeCore maxSymbols → Exec (ExchangeCore maxSymbols)
  | [], core => some core
  | key :: rest, core => do
    let fwd ← (← core.idMap.find key)
    let (_, reverseIdMap) ← core.reverseIdMap.erase fwd.exchangeId
    let (_, idMap) ← core.idMap.erase key
    eraseMappings rest { core with idMap, reverseIdMap }

def eraseSeen : List Nat → ExchangeCore maxSymbols → Exec (ExchangeCore maxSymbols)
  | [], core => some core
  | key :: rest, core => do
    let (_, seenOrders) ← core.seenOrders.erase key
    eraseSeen rest { core with seenOrders }

def onClientDisconnect (core : ExchangeCore maxSymbols) (sessionId : UInt16) : Exec (ExchangeCore maxSymbols) := do
  if sessionId = 0 then return core
  let core := { core with activeSessions := update core.activeSessions sessionId false }
  let (keys, core) ← cancelSession sessionId core.idMap.entries core
  let core ← eraseMappings keys core
  let seen := (core.seenOrders.entries.map Prod.fst).filter fun key => extractSessionId key = sessionId
  eraseSeen seen core

/-! ### Events -/

def emit (core : ExchangeCore maxSymbols) (event : ExchangeEvent) : Exec (ExchangeCore maxSymbols) :=
  if kMaxEvents ≤ core.events.length then none else some { core with events := core.events ++ [event] }

def symbolIndex (core : ExchangeCore maxSymbols) (symbolId : Nat) : Option Nat :=
  if symbolId = 0 ∨ maxSymbols < symbolId then none
  else if (core.symbols (symbolId - 1)).active then some (symbolId - 1) else none

/-- Report a fill to the owner of the resting order, and forget the order if it is used up. -/
def emitMakerFill (core : ExchangeCore maxSymbols) (idx : Nat) (fill : Fill) (takerSide : Side) :
    Exec (ExchangeCore maxSymbols) := do
  match ← core.reverseIdMap.find fill.makerId with
  | none => return core
  | some maker =>
    let book := (core.symbols idx).engine.book
    let makerRemaining ← book.orderQty fill.makerId
    let core ← core.emit {
      type := .kFill, sessionId := maker.sessionId, clientOrderId := maker.clientOrderId
      exchangeOrderId := fill.makerId, symbolId := maker.symbolId, side := takerSide.opposite, price := fill.price
      qty := fill.qty, remainingQty := makerRemaining, sendTs := maker.sendTs }
    if ← book.hasOrder fill.makerId then return core
    else
      let (_, idMap) ← core.idMap.erase (makeCompositeKey maker.sessionId maker.clientOrderId)
      let (_, reverseIdMap) ← core.reverseIdMap.erase fill.makerId
      return { core with idMap, reverseIdMap }

def emitBest (core : ExchangeCore maxSymbols) (idx symbolId : Nat) (side : Side) : Exec (ExchangeCore maxSymbols) :=
  let book := (core.symbols idx).engine.book
  match book.ladders side with
  | [] => some core
  | best :: _ => core.emit {
      type := .kBBOUpdate, symbolId, side, price := (book.levelSlots best).price,
        qty := (book.levelSlots best).totalQty }

def emitBbo (core : ExchangeCore maxSymbols) (idx symbolId : Nat) : Exec (ExchangeCore maxSymbols) := do
  let core ← core.emitBest idx symbolId .kBid
  core.emitBest idx symbolId .kAsk

/-- The incoming order as its fills are reported: the locals of `submit_order` and of `modify_order`. -/
structure Taker where
  sessionId : UInt16
  clientOrderId : Nat
  exchangeId : Nat
  symbolId : Nat
  side : Side
  sendTs : Int

/-- The loop over the fills that `submit_order` and `modify_order` share. -/
def emitFills (taker : Taker) (idx : Nat) :
    (remaining : Nat) → List Fill → ExchangeCore maxSymbols → Exec (ExchangeCore maxSymbols)
  | _, [], core => some core
  | remaining, fill :: fills, core => do
    let core ← core.emit {
      type := .kFill, sessionId := taker.sessionId, clientOrderId := taker.clientOrderId
      exchangeOrderId := taker.exchangeId, symbolId := taker.symbolId, side := taker.side, price := fill.price
      qty := fill.qty, remainingQty := remaining - fill.qty, sendTs := taker.sendTs }
    let core ← core.emitMakerFill idx fill taker.side
    let core ← core.emitBbo idx taker.symbolId
    emitFills taker idx (remaining - fill.qty) fills core

/-! ### Order operations -/

def insertMappings (core : ExchangeCore maxSymbols) (key : Nat) (entry : IdEntry) (reverse : ReverseIdEntry) :
    Exec (ExchangeCore maxSymbols) := do
  let (_, idMap) ← core.idMap.insert key entry
  let (_, reverseIdMap) ← core.reverseIdMap.insert entry.exchangeId reverse
  return { core with idMap, reverseIdMap }

def removeMappings (core : ExchangeCore maxSymbols) (key exchangeId : Nat) : Exec (ExchangeCore maxSymbols) := do
  let (_, reverseIdMap) ← core.reverseIdMap.erase exchangeId
  let (_, idMap) ← core.idMap.erase key
  return { core with idMap, reverseIdMap }

/-- `next_exchange_id_++` on a `uint64_t`. -/
def takeExchangeId (core : ExchangeCore maxSymbols) : Nat × ExchangeCore maxSymbols :=
  (core.nextExchangeId, { core with nextExchangeId := (core.nextExchangeId + 1) % 2 ^ 64 })

/-- `submit_order`, with the call of the symbol's engine for the new exchange id. -/
def submitWith (core : ExchangeCore maxSymbols) (sessionId : UInt16) (order : NewOrder)
    (submit : MatchingEngine 64 → Nat → Exec (MatchResult × MatchingEngine 64)) : Exec (ExchangeCore maxSymbols) := do
  let rejected (symbolId : Nat) (reason : RejectReason) : ExchangeEvent := {
    type := .kOrderRejected, sessionId, clientOrderId := order.clientOrderId, symbolId, sendTs := order.sendTs, reason }
  if kMaxClientOrderId < order.clientOrderId then return ← core.emit (rejected 0 .kInvalidOrderId)
  match core.symbolIndex order.symbolId with
  | none => core.emit (rejected order.symbolId .kUnknownSymbol)
  | some idx =>
    let key := makeCompositeKey sessionId order.clientOrderId
    if (← core.seenOrders.find key).isSome then return ← core.emit (rejected order.symbolId .kDuplicateOrderId)
    let (inserted, seenOrders) ← core.seenOrders.insert key true
    let core := { core with seenOrders }
    if !inserted then return ← core.emit (rejected order.symbolId .kBookFull)
    let (exchangeId, core) := core.takeExchangeId
    let (result, engine) ← submit (core.symbols idx).engine exchangeId
    let core := core.setEngine idx engine
    if !result.rested && result.fills.isEmpty then return ← core.emit (rejected order.symbolId .kBookFull)
    let core ← core.emit {
      type := .kOrderAccepted, sessionId, clientOrderId := order.clientOrderId, exchangeOrderId := exchangeId
      symbolId := order.symbolId, sendTs := order.sendTs }
    let core ← emitFills ⟨sessionId, order.clientOrderId, exchangeId, order.symbolId, order.side, order.sendTs⟩ idx
      order.qty result.fills core
    if result.rested then
      core.insertMappings key ⟨exchangeId, order.side, order.symbolId⟩
        ⟨sessionId, order.clientOrderId, order.symbolId, order.sendTs⟩
    else return core

def submitOrder (core : ExchangeCore maxSymbols) (sessionId : UInt16) (order : NewOrder) :
    Exec (ExchangeCore maxSymbols) :=
  core.submitWith sessionId order fun engine id => engine.submitOrder id order.side order.price order.qty

def cancelOrder (core : ExchangeCore maxSymbols) (sessionId : UInt16) (cancel : CancelOrder) :
    Exec (ExchangeCore maxSymbols) := do
  let rejected (reason : RejectReason) : ExchangeEvent := {
    type := .kCancelRejected, sessionId, clientOrderId := cancel.clientOrderId, sendTs := cancel.sendTs, reason }
  if kMaxClientOrderId < cancel.clientOrderId then return ← core.emit (rejected .kInvalidOrderId)
  match core.symbolIndex cancel.symbolId with
  | none => core.emit (rejected .kUnknownSymbol)
  | some idx =>
    let key := makeCompositeKey sessionId cancel.clientOrderId
    match ← core.idMap.find key with
    | none => core.emit (rejected .kOrderNotFound)
    | some entry =>
      let (cancelled, engine) ← (core.symbols idx).engine.cancelOrder entry.exchangeId
      let core := core.setEngine idx engine
      if !cancelled then return ← core.emit (rejected .kOrderNotFound)
      let core ← core.removeMappings key entry.exchangeId
      core.emit { type := .kCancelAck, sessionId, clientOrderId := cancel.clientOrderId, sendTs := cancel.sendTs }

def modifyOrder (core : ExchangeCore maxSymbols) (sessionId : UInt16) (modify : ModifyOrder) :
    Exec (ExchangeCore maxSymbols) := do
  let rejected (reason : RejectReason) : ExchangeEvent := {
    type := .kModifyRejected, sessionId, clientOrderId := modify.clientOrderId, sendTs := modify.sendTs, reason }
  if kMaxClientOrderId < modify.clientOrderId then return ← core.emit (rejected .kInvalidOrderId)
  match core.symbolIndex modify.symbolId with
  | none => core.emit (rejected .kUnknownSymbol)
  | some idx =>
    let key := makeCompositeKey sessionId modify.clientOrderId
    match ← core.idMap.find key with
    | none => core.emit (rejected .kOrderNotFound)
    | some entry =>
      let (newExchangeId, core) := core.takeExchangeId
      let (result, engine) ← (core.symbols idx).engine.modifyOrder entry.exchangeId entry.side modify.newPrice
        modify.newQty newExchangeId
      let core := core.setEngine idx engine
      if !result.success then return ← core.emit (rejected .kOrderNotFound)
      let core ← core.removeMappings key entry.exchangeId
      let core ← if result.rested then
          core.insertMappings key ⟨newExchangeId, entry.side, entry.symbolId⟩
            ⟨sessionId, modify.clientOrderId, entry.symbolId, modify.sendTs⟩
        else pure core
      let core ← core.emit {
        type := .kModifyAck, sessionId, clientOrderId := modify.clientOrderId, exchangeOrderId := newExchangeId
        symbolId := modify.symbolId, sendTs := modify.sendTs }
      emitFills ⟨sessionId, modify.clientOrderId, newExchangeId, modify.symbolId, entry.side, modify.sendTs⟩ idx
        modify.newQty result.fills core

def drainEvents (core : ExchangeCore maxSymbols) : List ExchangeEvent × ExchangeCore maxSymbols :=
  (core.events, { core with events := [] })

end ExchangeCore

end TickToTrade.Exchange
