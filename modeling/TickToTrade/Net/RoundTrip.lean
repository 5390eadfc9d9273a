import TickToTrade.Net.ProtocolCodec

/-!
What one side of a connection serializes, the other side reads back. The fields of a message are
machine words, so each layout is read back for every value its words can have.
-/

namespace TickToTrade
open BigEndian Net List

def FitsInt64 (x : Int) : Prop := -2 ^ 63 ≤ x ∧ x < 2 ^ 63
  deriving Decidable

theorem toUInt64_lt (x : Int) : toUInt64 x < 2 ^ 64 := by
  unfold toUInt64
  omega

theorem toInt64_toUInt64 {x : Int} (fits : FitsInt64 x) : toInt64 (toUInt64 x) = x := by
  obtain ⟨low, high⟩ := fits
  unfold toInt64 toUInt64
  omega

@[simp] theorem toInt64_stored {x : Int} (fits : FitsInt64 x) :
    toInt64 ((toUInt64 x : Int) % 18446744073709551616) = x := by
  have word := toUInt64_lt x
  rw [Int.emod_eq_of_lt (by omega) (by omega), toInt64_toUInt64 fits]

theorem word64 {x : Nat} (fits : x < 2 ^ 64) : x % 18446744073709551616 = x := Nat.mod_eq_of_lt fits

theorem word32 {x : Nat} (fits : x < 2 ^ 32) : x % 4294967296 = x := Nat.mod_eq_of_lt fits

/-- A payload of `wireSize` bytes was written and `value` is read from it. -/
def ReadBack {α : Type} (written : Option (List UInt8)) (wireSize : Nat) (read : List UInt8 → Option α)
    (value : α) : Prop :=
  ∃ payload, written = some payload ∧ payload.length = wireSize ∧ read payload = some value

variable {wireSize : Nat}

theorem serialize_adjacent {size : Nat} {stores : List (Nat × List UInt8)} (room : wireSize ≤ size)
    (adjacent : Adjacent 0 stores) (sized : (stores.map Prod.snd).flatten.length = wireSize) :
    serialize wireSize stores size = some (stores.map Prod.snd).flatten := by
  have inside : 0 + (stores.map Prod.snd).flatten.length ≤ (replicate size (0 : UInt8)).length := by
    rw [length_replicate]
    omega
  rw [serialize, if_neg (by omega), storeAll_adjacent adjacent inside, take_zero, nil_append,
    take_left' sized]

theorem deserialize_of_le {α : Type} {read : List UInt8 → α} {buf : List UInt8}
    (whole : wireSize ≤ buf.length) : deserialize wireSize read buf = some (read buf) :=
  if_neg (Nat.not_lt.mpr whole)

/-- Adjacent stores of the right total size are read back if the loads find what was stored. -/
theorem ReadBack.of_stores {α : Type} {size : Nat} {stores : List (Nat × List UInt8)}
    {read : List UInt8 → α} {value : α}
    (room : wireSize ≤ size) (adjacent : Adjacent 0 stores) (sized : (stores.map Prod.snd).flatten.length = wireSize)
    (same : read (stores.map Prod.snd).flatten = value) :
    ReadBack (serialize wireSize stores size) wireSize (deserialize wireSize read) value := by
  refine ⟨_, serialize_adjacent room adjacent sized, sized, ?_⟩
  rw [deserialize_of_le (Nat.le_of_eq sized.symm), same]

variable {size : Nat}

/-! ### Requests -/

structure WireNewOrder.Fits (order : WireNewOrder) : Prop where
  clientOrderId : order.clientOrderId < 2 ^ 64
  symbolId : order.symbolId < 2 ^ 32
  price : FitsInt64 order.price
  qty : order.qty < 2 ^ 32
  sendTs : FitsInt64 order.sendTs

structure CancelOrder.Fits (cancel : CancelOrder) : Prop where
  clientOrderId : cancel.clientOrderId < 2 ^ 64
  symbolId : cancel.symbolId < 2 ^ 32
  sendTs : FitsInt64 cancel.sendTs

structure ModifyOrder.Fits (modify : ModifyOrder) : Prop where
  clientOrderId : modify.clientOrderId < 2 ^ 64
  symbolId : modify.symbolId < 2 ^ 32
  newPrice : FitsInt64 modify.newPrice
  newQty : modify.newQty < 2 ^ 32
  sendTs : FitsInt64 modify.sendTs

section Responses

variable {clientOrderId exchangeOrderId qty remainingQty : Nat} {price sendTs : Int} {reason : RejectReason}

section

variable (client : clientOrderId < 2 ^ 64)
include client

theorem readBack_orderAck (exchange : exchangeOrderId < 2 ^ 64) (stamp : FitsInt64 sendTs)
    (room : kOrderAckWireSize ≤ size) :
    ReadBack (serializeOrderAck size ⟨clientOrderId, exchangeOrderId, sendTs⟩) kOrderAckWireSize deserializeOrderAck
      ⟨clientOrderId, exchangeOrderId, sendTs⟩ :=
  .of_stores room (by simp [Adjacent]) (by simp [kOrderAckWireSize])
    (by simp [stamp, word64 client, word64 exchange])

theorem readBack_modifyAck (exchange : exchangeOrderId < 2 ^ 64) (stamp : FitsInt64 sendTs)
    (room : kModifyAckWireSize ≤ size) :
    ReadBack (serializeModifyAck size ⟨clientOrderId, exchangeOrderId, sendTs⟩) kModifyAckWireSize deserializeModifyAck
      ⟨clientOrderId, exchangeOrderId, sendTs⟩ :=
  .of_stores room (by simp [Adjacent]) (by simp [kModifyAckWireSize])
    (by simp [stamp, word64 client, word64 exchange])

theorem readBack_cancelAck (stamp : FitsInt64 sendTs) (room : kCancelAckWireSize ≤ size) :
    ReadBack (serializeCancelAck size ⟨clientOrderId, sendTs⟩) kCancelAckWireSize deserializeCancelAck
      ⟨clientOrderId, sendTs⟩ :=
  .of_stores room (by simp [Adjacent]) (by simp [kCancelAckWireSize]) (by simp [stamp, word64 client])

theorem readBack_fillReport (exchange : exchangeOrderId < 2 ^ 64) (priced : FitsInt64 price)
    (filled : qty < 2 ^ 32) (left : remainingQty < 2 ^ 32) (stamp : FitsInt64 sendTs)
    (room : kFillReportWireSize ≤ size) :
    ReadBack (serializeFillReport size ⟨clientOrderId, exchangeOrderId, price, qty, remainingQty, sendTs⟩)
      kFillReportWireSize deserializeFillReport
      ⟨clientOrderId, exchangeOrderId, price, qty, remainingQty, sendTs⟩ := by
  refine .of_stores room (by simp [Adjacent]) (by simp [kFillReportWireSize]) ?_
  have ids := And.intro (word64 client) (word64 exchange)
  have quantities := And.intro (word32 filled) (word32 left)
  simp [priced, stamp, ids, quantities]

theorem readBack_reject (stamp : FitsInt64 sendTs) (room : 17 ≤ size) :
    ReadBack (serialize 17 (rejectStores clientOrderId reason sendTs) size) 17 (deserialize 17 loadReject)
      ⟨clientOrderId, reason.toByte, sendTs⟩ :=
  .of_stores room (by simp [rejectStores, Adjacent]) (by simp [rejectStores])
    (by simp [rejectStores, loadReject, stamp, word64 client])

end

end Responses

/-! ### Frames -/

theorem packTcpMessage_unpack {outSize : Nat} {msgType : MsgType} {payload frame : List UInt8}
    (packed : packTcpMessage outSize msgType payload = some frame) (rest : List UInt8) :
    unpackMessage (frame ++ rest) =
      some ⟨⟨kMessageMagic, kProtocolVersion, msgType.toNat, payload.length, 0⟩, payload⟩ :=
  unpackMessage_packMessage packed (by decide) (by cases msgType <;> decide) (by decide) rest

theorem ReadBack.framed {α : Type} {outSize : Nat} {written : Option (List UInt8)} {read : List UInt8 → Option α}
    {value : α} (back : ReadBack written wireSize read value) (small : wireSize ≤ kMaxPayloadSize)
    (room : kMessageHeaderSize + wireSize ≤ outSize) (msgType : MsgType) :
    ∃ payload frame, written = some payload ∧ packTcpMessage outSize msgType payload = some frame ∧
      read payload = some value ∧
      unpackMessage frame = some ⟨⟨kMessageMagic, kProtocolVersion, msgType.toNat, payload.length, 0⟩, payload⟩ := by
  obtain ⟨payload, wrote, sized, value⟩ := back
  obtain ⟨frame, packed⟩ : ∃ frame, packTcpMessage outSize msgType payload = some frame :=
    packMessage_some (by omega) (by omega)
  have whole := packTcpMessage_unpack packed []
  rw [append_nil] at whole
  exact ⟨payload, frame, wrote, packed, value, whole⟩

end TickToTrade
