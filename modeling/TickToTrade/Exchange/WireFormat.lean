import TickToTrade.Exchange.Gateway
import TickToTrade.Net.RoundTrip

/-!
The bytes behind the gateway's frames (`serialize_one_event` and `parse_frame_to_request`). The side of
a request is the byte that stands in the payload.
-/

namespace TickToTrade.Exchange
open Net

/-! ### Requests -/

structure WireRequest where
  type : OrderRequestType
  gatewayId : Nat := 0
  sessionId : UInt16 := 0
  requestSeq : Nat := 0
  clientOrderId : Nat := 0
  symbolId : Nat := 0
  side : UInt8 := 0
  price : Int := 0
  qty : Nat := 0
  newPrice : Int := 0
  newQty : Nat := 0
  sendTs : Int := 0
  deriving DecidableEq

namespace WireRequest

variable (sessionId : UInt16) (requestSeq gatewayId : Nat)

def ofNewOrder (order : WireNewOrder) : WireRequest := {
  type := .kNewOrder, gatewayId, sessionId, requestSeq, clientOrderId := order.clientOrderId
  symbolId := order.symbolId, side := order.side, price := order.price, qty := order.qty, sendTs := order.sendTs }

def ofCancelOrder (cancel : CancelOrder) : WireRequest := {
  type := .kCancelOrder, gatewayId, sessionId, requestSeq, clientOrderId := cancel.clientOrderId
  symbolId := cancel.symbolId, sendTs := cancel.sendTs }

def ofModifyOrder (modify : ModifyOrder) : WireRequest := {
  type := .kModifyOrder, gatewayId, sessionId, requestSeq, clientOrderId := modify.clientOrderId
  symbolId := modify.symbolId, newPrice := modify.newPrice, newQty := modify.newQty, sendTs := modify.sendTs }

def parseFrameToRequest (frame : List UInt8) : Option WireRequest := do
  let msg ← unpackMessage frame
  if verifyProtocolVersion msg.header.version then
    if msg.header.msgType = MsgType.kNewOrder.toNat then
      let order ← deserializeNewOrder msg.payload
      return ofNewOrder sessionId requestSeq gatewayId order
    else if msg.header.msgType = MsgType.kCancelOrder.toNat then
      let cancel ← deserializeCancelOrder msg.payload
      return ofCancelOrder sessionId requestSeq gatewayId cancel
    else if msg.header.msgType = MsgType.kModifyOrder.toNat then
      let modify ← deserializeModifyOrder msg.payload
      return ofModifyOrder sessionId requestSeq gatewayId modify
    else none
  else none

end WireRequest

variable {sessionId : UInt16} {requestSeq gatewayId outSize payloadSize : Nat}

def kEventPayloadSize : Nat := 256

def ExchangeMessage.msgType : ExchangeMessage → MsgType
  | .orderAck _ => .kOrderAck
  | .orderReject _ => .kOrderReject
  | .fillReport _ => .kFillReport
  | .cancelAck _ => .kCancelAck
  | .cancelReject _ => .kCancelReject
  | .modifyAck _ => .kModifyAck
  | .modifyReject _ => .kModifyReject

def ExchangeMessage.payload (size : Nat) : ExchangeMessage → Option (List UInt8)
  | .orderAck ack => serializeOrderAck size ack
  | .orderReject reject => serializeOrderReject size reject
  | .fillReport fill => serializeFillReport size fill
  | .cancelAck ack => serializeCancelAck size ack
  | .cancelReject reject => serializeCancelReject size reject
  | .modifyAck ack => serializeModifyAck size ack
  | .modifyReject reject => serializeModifyReject size reject

/-- A serializer that returned zero leaves an empty payload, which is packed all the same. -/
def ExchangeMessage.frame (bufSize : Nat) (msg : ExchangeMessage) : Option (List UInt8) :=
  packTcpMessage bufSize msg.msgType ((msg.payload kEventPayloadSize).getD [])

structure ExchangeEvent.Fits (event : ExchangeEvent) : Prop where
  clientOrderId : event.clientOrderId < 2 ^ 64
  exchangeOrderId : event.exchangeOrderId < 2 ^ 64
  price : FitsInt64 event.price
  qty : event.qty < 2 ^ 32
  remainingQty : event.remainingQty < 2 ^ 32
  sendTs : FitsInt64 event.sendTs

/-- The message for the client is of the event's type and has the fields that the event carries. -/
def Carries (event : ExchangeEvent) (msgType : Nat) (payload : List UInt8) : Prop :=
  match event.type with
  | .kOrderAccepted => msgType = MsgType.kOrderAck.toNat ∧
      deserializeOrderAck payload = some ⟨event.clientOrderId, event.exchangeOrderId, event.sendTs⟩
  | .kOrderRejected => msgType = MsgType.kOrderReject.toNat ∧
      deserializeOrderReject payload = some ⟨event.clientOrderId, event.reason.toByte, event.sendTs⟩
  | .kFill => msgType = MsgType.kFillReport.toNat ∧ deserializeFillReport payload =
      some ⟨event.clientOrderId, event.exchangeOrderId, event.price, event.qty, event.remainingQty, event.sendTs⟩
  | .kCancelAck => msgType = MsgType.kCancelAck.toNat ∧
      deserializeCancelAck payload = some ⟨event.clientOrderId, event.sendTs⟩
  | .kCancelRejected => msgType = MsgType.kCancelReject.toNat ∧
      deserializeCancelReject payload = some ⟨event.clientOrderId, event.reason.toByte, event.sendTs⟩
  | .kModifyAck => msgType = MsgType.kModifyAck.toNat ∧
      deserializeModifyAck payload = some ⟨event.clientOrderId, event.exchangeOrderId, event.sendTs⟩
  | .kModifyRejected => msgType = MsgType.kModifyReject.toNat ∧
      deserializeModifyReject payload = some ⟨event.clientOrderId, event.reason.toByte, event.sendTs⟩
  | .kBBOUpdate | .kSessionAssigned => False

theorem ExchangeEvent.Fits.carried {event : ExchangeEvent} (fits : event.Fits) (market : event.type ≠ .kBBOUpdate)
    (session : event.type ≠ .kSessionAssigned) :
    ∃ msg payload, serializeOneEvent event = some msg ∧ msg.payload kEventPayloadSize = some payload ∧
      payload.length ≤ kFillReportWireSize ∧ Carries event msg.msgType.toNat payload := by
  have client := fits.clientOrderId
  have exchange := fits.exchangeOrderId
  have stamp := fits.sendTs
  have rejected : ReadBack
      (serialize 17 (rejectStores event.clientOrderId event.reason event.sendTs) kEventPayloadSize) 17 _ _ :=
    readBack_reject client stamp (by decide)
  unfold serializeOneEvent Carries
  cases typed : event.type with
  | kOrderAccepted =>
    obtain ⟨payload, wrote, sized, value⟩ :=
      readBack_orderAck client exchange stamp (show _ ≤ kEventPayloadSize by decide)
    exact ⟨_, payload, rfl, wrote, sized ▸ by decide, rfl, value⟩
  | kOrderRejected =>
    obtain ⟨payload, wrote, sized, value⟩ := rejected
    exact ⟨.orderReject _, payload, rfl, wrote, sized ▸ by decide, rfl, value⟩
  | kFill =>
    obtain ⟨payload, wrote, sized, value⟩ :=
      readBack_fillReport client exchange fits.price fits.qty fits.remainingQty stamp
        (show _ ≤ kEventPayloadSize by decide)
    exact ⟨_, payload, rfl, wrote, Nat.le_of_eq sized, rfl, value⟩
  | kCancelAck =>
    obtain ⟨payload, wrote, sized, value⟩ := readBack_cancelAck client stamp (show _ ≤ kEventPayloadSize by decide)
    exact ⟨_, payload, rfl, wrote, sized ▸ by decide, rfl, value⟩
  | kCancelRejected =>
    obtain ⟨payload, wrote, sized, value⟩ := rejected
    exact ⟨.cancelReject _, payload, rfl, wrote, sized ▸ by decide, rfl, value⟩
  | kModifyAck =>
    obtain ⟨payload, wrote, sized, value⟩ :=
      readBack_modifyAck client exchange stamp (show _ ≤ kEventPayloadSize by decide)
    exact ⟨_, payload, rfl, wrote, sized ▸ by decide, rfl, value⟩
  | kModifyRejected =>
    obtain ⟨payload, wrote, sized, value⟩ := rejected
    exact ⟨.modifyReject _, payload, rfl, wrote, sized ▸ by decide, rfl, value⟩
  | kBBOUpdate => exact absurd typed market
  | kSessionAssigned => exact absurd typed session

end TickToTrade.Exchange
