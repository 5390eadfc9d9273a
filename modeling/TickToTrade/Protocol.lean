import TickToTrade.Basic

/-!
The order entry messages of `shared/protocol.hpp`, without their wire layout.
-/

namespace TickToTrade

inductive RejectReason where
  | kUnknown
  | kDuplicateOrderId
  | kBookFull
  | kInvalidPrice
  | kInvalidQty
  | kOrderNotFound
  | kInvalidOrderId
  | kUnknownSymbol
  | kThrottled
  deriving DecidableEq

structure NewOrder where
  clientOrderId : Nat
  symbolId : Nat
  side : Side
  price : Int
  qty : Nat
  sendTs : Int := 0
  deriving DecidableEq

structure CancelOrder where
  clientOrderId : Nat
  symbolId : Nat
  sendTs : Int := 0
  deriving DecidableEq

structure ModifyOrder where
  clientOrderId : Nat
  symbolId : Nat
  newPrice : Int
  newQty : Nat
  sendTs : Int := 0
  deriving DecidableEq

structure OrderAck where
  clientOrderId : Nat
  exchangeOrderId : Nat := 0
  sendTs : Int := 0
  deriving DecidableEq

structure OrderReject where
  clientOrderId : Nat
  reason : RejectReason := .kUnknown
  sendTs : Int := 0
  deriving DecidableEq

structure FillReport where
  clientOrderId : Nat
  exchangeOrderId : Nat := 0
  fillPrice : Int := 0
  fillQty : Nat
  remainingQty : Nat
  sendTs : Int := 0
  deriving DecidableEq

structure CancelAck where
  clientOrderId : Nat
  sendTs : Int := 0
  deriving DecidableEq

structure CancelReject where
  clientOrderId : Nat
  reason : RejectReason := .kUnknown
  sendTs : Int := 0
  deriving DecidableEq

structure ModifyAck where
  clientOrderId : Nat
  newExchangeOrderId : Nat := 0
  sendTs : Int := 0
  deriving DecidableEq

structure ModifyReject where
  clientOrderId : Nat
  reason : RejectReason := .kUnknown
  sendTs : Int := 0
  deriving DecidableEq

end TickToTrade
