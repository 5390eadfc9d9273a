import TickToTrade.Net.MessageCodec
import TickToTrade.Protocol

/-!
The payloads of `shared/protocol_codec.hpp`. A deserializer casts an enumeration from its byte and does
not look at it, so what it reads keeps the byte.
-/

namespace TickToTrade
open BigEndian Net

def kProtocolVersion : Nat := 2

inductive MsgType where
  | kMarketDataUpdate
  | kNewOrder
  | kCancelOrder
  | kOrderAck
  | kOrderReject
  | kFillReport
  | kCancelAck
  | kCancelReject
  | kModifyOrder
  | kModifyAck
  | kModifyReject
  | kHeartbeat
  | kHeartbeatAck
  deriving DecidableEq

def MsgType.toNat : MsgType → Nat
  | .kMarketDataUpdate => 1
  | .kNewOrder => 2
  | .kCancelOrder => 3
  | .kOrderAck => 4
  | .kOrderReject => 5
  | .kFillReport => 6
  | .kCancelAck => 7
  | .kCancelReject => 8
  | .kModifyOrder => 9
  | .kModifyAck => 10
  | .kModifyReject => 11
  | .kHeartbeat => 12
  | .kHeartbeatAck => 13

def kNewOrderWireSize : Nat := 33

def kCancelOrderWireSize : Nat := 20

def kModifyOrderWireSize : Nat := 32

/-- The `uint64_t` with the bits of an `int64_t`. -/
def toUInt64 (x : Int) : Nat := (x % 2 ^ 64).toNat

def Side.toByte : Side → UInt8
  | .kBid => 0
  | .kAsk => 1

/-- A `NewOrder` with the byte of its side. -/
structure WireNewOrder where
  clientOrderId : Nat
  symbolId : Nat
  side : UInt8
  price : Int
  qty : Nat
  sendTs : Int
  deriving DecidableEq

/-- What `serialize_new_order` writes for any byte of the side. -/
def WireNewOrder.serialize (size : Nat) (order : WireNewOrder) : Option (List UInt8) :=
  if size < kNewOrderWireSize then none
  else some (store 8 order.clientOrderId ++ store 4 order.symbolId ++ [order.side] ++ store 8 (toUInt64 order.price) ++
    store 4 order.qty ++ store 8 (toUInt64 order.sendTs))

def NewOrder.wire (order : NewOrder) : WireNewOrder where
  clientOrderId := order.clientOrderId
  symbolId := order.symbolId
  side := order.side.toByte
  price := order.price
  qty := order.qty
  sendTs := order.sendTs

def serializeNewOrder (size : Nat) (order : NewOrder) : Option (List UInt8) := order.wire.serialize size

def serializeCancelOrder (size : Nat) (cancel : CancelOrder) : Option (List UInt8) :=
  if size < kCancelOrderWireSize then none
  else some (store 8 cancel.clientOrderId ++ store 4 cancel.symbolId ++ store 8 (toUInt64 cancel.sendTs))

def serializeModifyOrder (size : Nat) (modify : ModifyOrder) : Option (List UInt8) :=
  if size < kModifyOrderWireSize then none
  else some (store 8 modify.clientOrderId ++ store 4 modify.symbolId ++ store 8 (toUInt64 modify.newPrice) ++
    store 4 modify.newQty ++ store 8 (toUInt64 modify.sendTs))

/-! ### Requests as the gateway reads them -/

/-- A deserializer: one check of the size, then loads at fixed offsets. -/
def deserialize {α : Type} (wireSize : Nat) (read : List UInt8 → α) (buf : List UInt8) : Option α :=
  if buf.length < wireSize then none else some (read buf)

def deserializeNewOrder : List UInt8 → Option WireNewOrder :=
  deserialize kNewOrderWireSize fun p => {
    clientOrderId := loadAt 8 0 p
    symbolId := loadAt 4 8 p
    side := byteAt 12 p
    price := toInt64 (loadAt 8 13 p)
    qty := loadAt 4 21 p
    sendTs := toInt64 (loadAt 8 25 p) }

def deserializeCancelOrder : List UInt8 → Option CancelOrder :=
  deserialize kCancelOrderWireSize fun p => {
    clientOrderId := loadAt 8 0 p
    symbolId := loadAt 4 8 p
    sendTs := toInt64 (loadAt 8 12 p) }

def deserializeModifyOrder : List UInt8 → Option ModifyOrder :=
  deserialize kModifyOrderWireSize fun p => {
    clientOrderId := loadAt 8 0 p
    symbolId := loadAt 4 8 p
    newPrice := toInt64 (loadAt 8 12 p)
    newQty := loadAt 4 20 p
    sendTs := toInt64 (loadAt 8 24 p) }

/-! ### Responses -/

def kOrderAckWireSize : Nat := 24

def kOrderRejectWireSize : Nat := 17

def kFillReportWireSize : Nat := 40

def kCancelAckWireSize : Nat := 16

def kCancelRejectWireSize : Nat := 17

def kModifyAckWireSize : Nat := 24

def kModifyRejectWireSize : Nat := 17

def RejectReason.toByte : RejectReason → UInt8
  | .kUnknown => 0
  | .kDuplicateOrderId => 1
  | .kBookFull => 2
  | .kInvalidPrice => 3
  | .kInvalidQty => 4
  | .kOrderNotFound => 5
  | .kInvalidOrderId => 6
  | .kUnknownSymbol => 7
  | .kThrottled => 8

/-- A serializer: one check of the size, then stores at fixed offsets of a cleared buffer. -/
def serialize (wireSize : Nat) (stores : List (Nat × List UInt8)) (size : Nat) : Option (List UInt8) :=
  if size < wireSize then none else some ((storeAll (List.replicate size 0) stores).take wireSize)

def serializeOrderAck (size : Nat) (ack : OrderAck) : Option (List UInt8) :=
  serialize kOrderAckWireSize
    [(0, store 8 ack.clientOrderId), (8, store 8 ack.exchangeOrderId), (16, store 8 (toUInt64 ack.sendTs))] size

def deserializeOrderAck : List UInt8 → Option OrderAck :=
  deserialize kOrderAckWireSize fun p => {
    clientOrderId := loadAt 8 0 p
    exchangeOrderId := loadAt 8 8 p
    sendTs := toInt64 (loadAt 8 16 p) }

def serializeFillReport (size : Nat) (fill : FillReport) : Option (List UInt8) :=
  serialize kFillReportWireSize
    [(0, store 8 fill.clientOrderId), (8, store 8 fill.exchangeOrderId), (16, store 8 (toUInt64 fill.fillPrice)),
      (24, store 4 fill.fillQty), (28, store 4 fill.remainingQty), (32, store 8 (toUInt64 fill.sendTs))] size

def deserializeFillReport : List UInt8 → Option FillReport :=
  deserialize kFillReportWireSize fun p => {
    clientOrderId := loadAt 8 0 p
    exchangeOrderId := loadAt 8 8 p
    fillPrice := toInt64 (loadAt 8 16 p)
    fillQty := loadAt 4 24 p
    remainingQty := loadAt 4 28 p
    sendTs := toInt64 (loadAt 8 32 p) }

def serializeCancelAck (size : Nat) (ack : CancelAck) : Option (List UInt8) :=
  serialize kCancelAckWireSize [(0, store 8 ack.clientOrderId), (8, store 8 (toUInt64 ack.sendTs))] size

def deserializeCancelAck : List UInt8 → Option CancelAck :=
  deserialize kCancelAckWireSize fun p => { clientOrderId := loadAt 8 0 p, sendTs := toInt64 (loadAt 8 8 p) }

def serializeModifyAck (size : Nat) (ack : ModifyAck) : Option (List UInt8) :=
  serialize kModifyAckWireSize
    [(0, store 8 ack.clientOrderId), (8, store 8 ack.newExchangeOrderId), (16, store 8 (toUInt64 ack.sendTs))] size

def deserializeModifyAck : List UInt8 → Option ModifyAck :=
  deserialize kModifyAckWireSize fun p => {
    clientOrderId := loadAt 8 0 p
    newExchangeOrderId := loadAt 8 8 p
    sendTs := toInt64 (loadAt 8 16 p) }

/-- A rejection with the byte of its reason. -/
structure WireReject where
  clientOrderId : Nat
  reason : UInt8
  sendTs : Int
  deriving DecidableEq

/-- The layout that the three rejections share. -/
def rejectStores (clientOrderId : Nat) (reason : RejectReason) (sendTs : Int) : List (Nat × List UInt8) :=
  [(0, store 8 clientOrderId), (8, [reason.toByte]), (9, store 8 (toUInt64 sendTs))]

def loadReject (p : List UInt8) : WireReject where
  clientOrderId := loadAt 8 0 p
  reason := byteAt 8 p
  sendTs := toInt64 (loadAt 8 9 p)

def serializeOrderReject (size : Nat) (reject : OrderReject) : Option (List UInt8) :=
  serialize kOrderRejectWireSize (rejectStores reject.clientOrderId reject.reason reject.sendTs) size

def deserializeOrderReject : List UInt8 → Option WireReject := deserialize kOrderRejectWireSize loadReject

def serializeCancelReject (size : Nat) (reject : CancelReject) : Option (List UInt8) :=
  serialize kCancelRejectWireSize (rejectStores reject.clientOrderId reject.reason reject.sendTs) size

def deserializeCancelReject : List UInt8 → Option WireReject := deserialize kCancelRejectWireSize loadReject

def serializeModifyReject (size : Nat) (reject : ModifyReject) : Option (List UInt8) :=
  serialize kModifyRejectWireSize (rejectStores reject.clientOrderId reject.reason reject.sendTs) size

def deserializeModifyReject : List UInt8 → Option WireReject := deserialize kModifyRejectWireSize loadReject

/-! ### Market data -/

def kMarketDataWireSize : Nat := 34

/-- The type and the side are bytes, as the datagram has them. -/
structure MarketDataUpdate where
  seqNum : Nat
  symbolId : Nat
  mdMsgType : UInt8
  side : UInt8
  price : Int
  qty : Nat
  exchangeTs : Int
  deriving DecidableEq

def serializeMarketData (size : Nat) (md : MarketDataUpdate) : Option (List UInt8) :=
  serialize kMarketDataWireSize
    [(0, store 8 md.seqNum), (8, store 4 md.symbolId), (12, [md.mdMsgType]), (13, [md.side]),
      (14, store 8 (toUInt64 md.price)), (22, store 4 md.qty), (26, store 8 (toUInt64 md.exchangeTs))] size

/-- One datagram is one message: here the size has to be exact. -/
def deserializeMarketData (buf : List UInt8) : Option MarketDataUpdate :=
  if buf.length ≠ kMarketDataWireSize then none
  else some {
    seqNum := loadAt 8 0 buf
    symbolId := loadAt 4 8 buf
    mdMsgType := byteAt 12 buf
    side := byteAt 13 buf
    price := toInt64 (loadAt 8 14 buf)
    qty := loadAt 4 22 buf
    exchangeTs := toInt64 (loadAt 8 26 buf) }

def verifyProtocolVersion (headerVersion : Nat) : Bool := headerVersion = kProtocolVersion

def packTcpMessage (outSize : Nat) (msgType : MsgType) (payload : List UInt8) : Option (List UInt8) :=
  packMessage outSize kProtocolVersion msgType.toNat 0 payload

end TickToTrade
