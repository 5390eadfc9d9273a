import TickToTrade.Ds.HashMap
import TickToTrade.Ds.IndexFreeStack

/-!
The limit order book of `algo/order_book.hpp`. A pointer into a pool is the index of its slot, and an
intrusive list is the list of the slots it links, front first.
-/

namespace TickToTrade.Algo
open Ds Function

structure Order where
  orderId : Nat := 0
  price : Int := 0
  qty : Nat := 0
  side : Side := .kBid
  level : Option Nat := none
  deriving DecidableEq

structure PriceLevel where
  price : Int := 0
  totalQty : Nat := 0
  side : Side := .kBid
  orders : List Nat := []
  deriving DecidableEq

/-- `OrderBook::Params` with its defaults. -/
structure Params where
  maxOrders : Nat := 65536
  maxLevels : Nat := 4096
  orderMapCap : Nat := 131072
  levelMapCap : Nat := 8192

structure OrderBook where
  orderSlots : Nat → Order
  levelSlots : Nat → PriceLevel
  orderFree : IndexFreeStack
  levelFree : IndexFreeStack
  ladders : Side → List Nat
  orderMap : HashMap Nat Nat
  levelMap : Side → HashMap Int Nat

/-- `total_qty += qty` on a `uint32_t`. -/
def addQty (total qty : Nat) : Nat := (total + qty) % 2 ^ 32

def subQty (total qty : Nat) : Nat := (total + 2 ^ 32 - qty) % 2 ^ 32

namespace OrderBook

def bids (b : OrderBook) : List Nat := b.ladders .kBid

def asks (b : OrderBook) : List Nat := b.ladders .kAsk

/-- `bind` on a buffer of `required_buffer_size(params)` bytes. -/
def bind (params : Params) : Option OrderBook := do
  guard (params.maxOrders ≠ 0 ∧ params.maxLevels ≠ 0)
  guard (isPowerOfTwo (params.orderMapCap % 2 ^ 32) ∧ 4 ≤ params.orderMapCap)
  guard (isPowerOfTwo (params.levelMapCap % 2 ^ 32) ∧ 4 ≤ params.levelMapCap)
  guard (params.maxOrders ≤ params.orderMapCap)
  guard (params.maxLevels ≤ params.levelMapCap)
  let orderFree ← IndexFreeStack.create params.maxOrders
  let levelFree ← IndexFreeStack.create params.maxLevels
  let orderMap ← HashMap.create params.orderMapCap
  let bidMap ← HashMap.create params.levelMapCap
  let askMap ← HashMap.create params.levelMapCap
  pure {
    orderSlots := fun _ => {}
    levelSlots := fun _ => {}
    orderFree, levelFree, orderMap
    ladders := fun _ => []
    levelMap := fun | .kBid => bidMap | .kAsk => askMap }

/-! ### Pools -/

def setOrder (b : OrderBook) (order : Nat) (o : Order) : OrderBook :=
  { b with orderSlots := update b.orderSlots order o }

def setLevel (b : OrderBook) (level : Nat) (l : PriceLevel) : OrderBook :=
  { b with levelSlots := update b.levelSlots level l }

def setLadder (b : OrderBook) (side : Side) (levels : List Nat) : OrderBook :=
  { b with ladders := update b.ladders side levels }

def setLevelMap (b : OrderBook) (side : Side) (map : HashMap Int Nat) : OrderBook :=
  { b with levelMap := update b.levelMap side map }

def allocOrder (b : OrderBook) : Option (Nat × OrderBook) := do
  let (idx, free) ← b.orderFree.pop
  pure (idx, { b with orderFree := free })

def freeOrder (b : OrderBook) (order : Nat) : Exec OrderBook := do
  let b := b.setOrder order { b.orderSlots order with level := none }
  let free ← b.orderFree.push order
  pure { b with orderFree := free }

def allocLevel (b : OrderBook) : Option (Nat × OrderBook) := do
  let (idx, free) ← b.levelFree.pop
  pure (idx, { b with levelFree := free })

def freeLevel (b : OrderBook) (level : Nat) : Exec OrderBook := do
  let free ← b.levelFree.push level
  pure { b with levelFree := free }

/-! ### Levels -/

/-- Walk from the front and stop before the first level that `level` comes before. -/
def insertSorted (b : OrderBook) (side : Side) (level : Nat) : List Nat → List Nat
  | [] => [level]
  | it :: rest =>
    if Better side (b.levelSlots level).price (b.levelSlots it).price then level :: it :: rest
    else it :: insertSorted b side level rest

def insertLevelSorted (b : OrderBook) (side : Side) (level : Nat) : OrderBook :=
  b.setLadder side (b.insertSorted side level (b.ladders side))

def findOrCreateLevel (b : OrderBook) (side : Side) (price : Int) :
    Exec (Option Nat × OrderBook) := do
  match ← (b.levelMap side).find price with
  | some level => pure (some level, b)
  | none =>
    match b.allocLevel with
    | none => pure (none, b)
    | some (level, b) =>
      let b := b.setLevel level { b.levelSlots level with price, totalQty := 0, side }
      let (inserted, map) ← (b.levelMap side).insert price level
      let b := b.setLevelMap side map
      if inserted then pure (some level, b.insertLevelSorted side level)
      else
        let b ← b.freeLevel level
        pure (none, b)

def removeLevel (b : OrderBook) (level : Nat) : Exec OrderBook := do
  let side := (b.levelSlots level).side
  let b := b.setLadder side ((b.ladders side).erase level)
  let (_, map) ← (b.levelMap side).erase (b.levelSlots level).price
  (b.setLevelMap side map).freeLevel level

/-- `order->level = level; level->orders.push_back(*order); level->total_qty += qty`. -/
def linkOrder (b : OrderBook) (level order : Nat) (qty : Nat) : OrderBook :=
  let b := b.setOrder order { b.orderSlots order with level := some level }
  b.setLevel level { b.levelSlots level with
    orders := (b.levelSlots level).orders ++ [order]
    totalQty := addQty (b.levelSlots level).totalQty qty }

/-- `level->orders.erase(*order); level->total_qty -= order->qty`. -/
def unlinkOrder (b : OrderBook) (level order : Nat) : OrderBook :=
  b.setLevel level { b.levelSlots level with
    orders := (b.levelSlots level).orders.erase order
    totalQty := subQty (b.levelSlots level).totalQty (b.orderSlots order).qty }

/-- `order->qty = qty; level->total_qty -= delta`. -/
def setQty (b : OrderBook) (level order : Nat) (qty delta : Nat) : OrderBook :=
  let b := b.setOrder order { b.orderSlots order with qty }
  b.setLevel level { b.levelSlots level with totalQty := subQty (b.levelSlots level).totalQty delta }

def eraseOrderId (b : OrderBook) (id : Nat) : Exec OrderBook := do
  let (_, map) ← b.orderMap.erase id
  pure { b with orderMap := map }

/-! ### Modifiers -/

/-- The second half of `add_order`, once the order has its slot and is mapped. -/
def linkAtLevel (b : OrderBook) (id : Nat) (side : Side) (price : Int) (qty : Nat) (order : Nat) :
    Exec (Bool × OrderBook) := do
  let (found, b) ← b.findOrCreateLevel side price
  match found with
  | none =>
    let b ← b.eraseOrderId id
    return (false, ← b.freeOrder order)
  | some level => return (true, b.linkOrder level order qty)

def addOrder (b : OrderBook) (id : Nat) (side : Side) (price : Int) (qty : Nat) :
    Exec (Bool × OrderBook) := do
  if qty = 0 then return (false, b)
  if (← b.orderMap.find id).isSome then return (false, b)
  match b.allocOrder with
  | none => return (false, b)
  | some (order, b) =>
    let b := b.setOrder order { b.orderSlots order with orderId := id, price, qty, side }
    let (inserted, map) ← b.orderMap.insert id order
    let b := { b with orderMap := map }
    if inserted then b.linkAtLevel id side price qty order
    else return (false, ← b.freeOrder order)

/-- The tail shared by `cancel_order` and the inline cancellation of `modify_order`. -/
def cancelFound (b : OrderBook) (id : Nat) (order : Nat) : Exec OrderBook := do
  let level ← (b.orderSlots order).level
  let b := b.unlinkOrder level order
  let b ← if (b.levelSlots level).orders.isEmpty then b.removeLevel level else pure b
  let b ← b.eraseOrderId id
  b.freeOrder order

def cancelOrder (b : OrderBook) (id : Nat) : Exec (Bool × OrderBook) := do
  match ← b.orderMap.find id with
  | none => pure (false, b)
  | some order =>
    let b ← b.cancelFound id order
    pure (true, b)

def modifyOrder (b : OrderBook) (id : Nat) (newQty : Nat) : Exec (Bool × OrderBook) := do
  match ← b.orderMap.find id with
  | none => pure (false, b)
  | some order =>
    if (b.orderSlots order).qty ≤ newQty then pure (false, b)
    else if newQty = 0 then
      let b ← b.cancelFound id order
      pure (true, b)
    else
      let level ← (b.orderSlots order).level
      let delta := (b.orderSlots order).qty - newQty
      pure (true, b.setQty level order newQty delta)

/-- The answer says whether the order's level went with it. -/
def removeFilledOrder (b : OrderBook) (order : Nat) : Exec (Bool × OrderBook) := do
  let level ← (b.orderSlots order).level
  let b := b.unlinkOrder level order
  let b ← b.eraseOrderId (b.orderSlots order).orderId
  let b ← b.freeOrder order
  if (b.levelSlots level).orders.isEmpty then
    let b ← b.removeLevel level
    pure (true, b)
  else pure (false, b)

def restOrder (b : OrderBook) (id : Nat) (side : Side) (price : Int) (qty : Nat) :
    Exec (Bool × OrderBook) :=
  b.addOrder id side price qty

def clearOrders (level : Nat) : List Nat → OrderBook → Exec OrderBook
  | [], b => pure b
  | order :: rest, b => do
    let b := b.setLevel level { b.levelSlots level with orders := rest }
    let b ← b.freeOrder order
    clearOrders level rest b

def clearLadder (side : Side) : List Nat → OrderBook → Exec OrderBook
  | [], b => pure b
  | level :: rest, b => do
    let b := b.setLadder side rest
    let b ← clearOrders level (b.levelSlots level).orders b
    let b ← b.freeLevel level
    clearLadder side rest b

def clearSide (b : OrderBook) (side : Side) : Exec OrderBook := do
  let b ← clearLadder side (b.ladders side) b
  pure (b.setLevelMap side (b.levelMap side).clear)

def clear (b : OrderBook) : Exec OrderBook := do
  let b ← b.clearSide .kBid
  let b ← b.clearSide .kAsk
  pure { b with orderMap := b.orderMap.clear }

/-! ### Queries -/

def bestPrice (b : OrderBook) (side : Side) : Option Int :=
  (b.ladders side).head?.map fun level => (b.levelSlots level).price

def bestBid (b : OrderBook) : Option Int := b.bestPrice .kBid

def bestAsk (b : OrderBook) : Option Int := b.bestPrice .kAsk

def volumeAtLevel (b : OrderBook) (side : Side) (price : Int) : Exec Nat := do
  match ← (b.levelMap side).find price with
  | none => pure 0
  | some level => pure (b.levelSlots level).totalQty

def hasOrder (b : OrderBook) (id : Nat) : Exec Bool := do
  return (← b.orderMap.find id).isSome

def orderQty (b : OrderBook) (id : Nat) : Exec Nat := do
  match ← b.orderMap.find id with
  | none => pure 0
  | some order => pure (b.orderSlots order).qty

end OrderBook

end TickToTrade.Algo
