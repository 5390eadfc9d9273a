import TickToTrade.Algo.OrderBook

/-!
The matching engine of `algo/matching_engine.hpp`. The two nested loops run on fuel; running out of it
is `none`, as a loop that does not end would be.
-/

namespace TickToTrade.Algo

structure Fill where
  makerId : Nat
  takerId : Nat
  price : Int
  qty : Nat
  deriving DecidableEq

structure MatchResult where
  fills : List Fill
  remainingQty : Nat
  rested : Bool
  deriving DecidableEq

structure ModifyResult where
  fills : List Fill
  remainingQty : Nat
  rested : Bool
  success : Bool
  deriving DecidableEq

/-- The locals of `submit_order` that its loops write; `fill_count_` is the number of fills. -/
structure Matching where
  book : OrderBook
  remaining : Nat
  fills : List Fill

namespace Matching

def fillOrder (id : Nat) (execPrice : Int) (level order : Nat) (m : Matching) : Exec (Bool × Matching) := do
  let resting := m.book.orderSlots order
  let fillQty := min m.remaining resting.qty
  let fills := m.fills ++ [{ makerId := resting.orderId, takerId := id, price := execPrice, qty := fillQty }]
  let remaining := m.remaining - fillQty
  let book := m.book.setQty level order (resting.qty - fillQty) fillQty
  if (book.orderSlots order).qty = 0 then
    let (destroyed, book) ← book.removeFilledOrder order
    return (destroyed, { book, remaining, fills })
  else return (false, { book, remaining, fills })

def matchLevel (maxFills id : Nat) (execPrice : Int) (level : Nat) : (fuel : Nat) → Matching → Exec Matching
  | 0, _ => none
  | fuel + 1, m =>
    if 0 < m.remaining ∧ m.fills.length < maxFills then
      match (m.book.levelSlots level).orders with
      | [] => some m
      | order :: _ => do
        let (destroyed, m) ← m.fillOrder id execPrice level order
        if destroyed then some m else matchLevel maxFills id execPrice level fuel m
    else some m

def matchLoop (maxFills id : Nat) (side : Side) (price : Int) : (fuel : Nat) → Matching → Exec Matching
  | 0, _ => none
  | fuel + 1, m =>
    if 0 < m.remaining ∧ m.fills.length < maxFills then
      match m.book.ladders side.opposite with
      | [] => some m
      | best :: _ =>
        let execPrice := (m.book.levelSlots best).price
        if Crosses side price execPrice then do
          let m ← matchLevel maxFills id execPrice best (maxFills + 1) m
          matchLoop maxFills id side price fuel m
        else some m
    else some m

end Matching

structure MatchingEngine (maxFills : Nat) where
  book : OrderBook

namespace MatchingEngine

variable {maxFills : Nat}

def create (maxFills : Nat) (params : Params) : Option (MatchingEngine maxFills) := do
  let book ← OrderBook.bind params
  return { book }

def cross (e : MatchingEngine maxFills) (id : Nat) (side : Side) (price : Int) (qty : Nat) : Exec Matching :=
  Matching.matchLoop maxFills id side price (maxFills + 1) { book := e.book, remaining := qty, fills := [] }

def submitOrder (e : MatchingEngine maxFills) (id : Nat) (side : Side) (price : Int) (qty : Nat) :
    Exec (MatchResult × MatchingEngine maxFills) := do
  if qty = 0 then return ({ fills := [], remainingQty := 0, rested := false }, e)
  if ← e.book.hasOrder id then return ({ fills := [], remainingQty := qty, rested := false }, e)
  let m ← e.cross id side price qty
  -- Resting while the opposite best still crosses would leave a crossed book.
  let stillCrosses := (m.book.bestPrice side.opposite).any fun best => Crosses side price best
  if 0 < m.remaining ∧ ¬ stillCrosses then
    let (rested, book) ← m.book.restOrder id side price m.remaining
    return ({ fills := m.fills, remainingQty := m.remaining, rested }, { book })
  else return ({ fills := m.fills, remainingQty := m.remaining, rested := false }, { book := m.book })

def cancelOrder (e : MatchingEngine maxFills) (id : Nat) : Exec (Bool × MatchingEngine maxFills) := do
  let (cancelled, book) ← e.book.cancelOrder id
  return (cancelled, { book })

def modifyOrder (e : MatchingEngine maxFills) (oldId : Nat) (side : Side) (newPrice : Int) (newQty newId : Nat) :
    Exec (ModifyResult × MatchingEngine maxFills) := do
  let (cancelled, e) ← e.cancelOrder oldId
  if cancelled then
    let (result, e) ← e.submitOrder newId side newPrice newQty
    return ({ fills := result.fills, remainingQty := result.remainingQty, rested := result.rested, success := true }, e)
  else return ({ fills := [], remainingQty := 0, rested := false, success := false }, e)

end MatchingEngine

end TickToTrade.Algo
