import TickToTrade.Exchange.RecvLoop
import TickToTrade.Exchange.Routing

/-!
The side of a new order from the bytes of a client to the index of `level_map_`. No layer checks it, and
an access of `level_map_` beyond its two entries is a fault.
-/

namespace TickToTrade
open List Option

/-- `side == Side::kBid`, for any byte. -/
def Side.ofByte (byte : UInt8) : Side := if byte = 0 then .kBid else .kAsk

/-- `level_map_[side_index(side)]`. -/
def sideIndex (byte : UInt8) : Exec Side :=
  if byte = 0 then some .kBid else if byte = 1 then some .kAsk else none

def ValidSide (byte : UInt8) : Prop := byte = 0 ∨ byte = 1
  deriving Decidable

@[simp] theorem Side.ofByte_toByte (side : Side) : Side.ofByte side.toByte = side := by cases side <;> rfl

@[simp] theorem sideIndex_toByte (side : Side) : sideIndex side.toByte = some side := by cases side <;> rfl

theorem ValidSide.toByte {byte : UInt8} (valid : ValidSide byte) : (Side.ofByte byte).toByte = byte := by
  rcases valid with rfl | rfl <;> rfl

namespace Algo

def OrderBook.addOrderByte (b : OrderBook) (id : Nat) (side : UInt8) (price : Int) (qty : Nat) :
    Exec (Bool × OrderBook) := do
  if qty = 0 then return (false, b)
  if (← b.orderMap.find id).isSome then return (false, b)
  match b.allocOrder with
  | none => return (false, b)
  | some (order, b) =>
    let b := b.setOrder order { b.orderSlots order with orderId := id, price, qty, side := .ofByte side }
    let (inserted, map) ← b.orderMap.insert id order
    let b := { b with orderMap := map }
    if inserted then
      let side ← sideIndex side
      b.linkAtLevel id side price qty order
    else return (false, ← b.freeOrder order)

variable {maxFills : Nat}

def MatchingEngine.submitOrderByte (e : MatchingEngine maxFills) (id : Nat) (side : UInt8) (price : Int) (qty : Nat) :
    Exec (MatchResult × MatchingEngine maxFills) := do
  if qty = 0 then return ({ fills := [], remainingQty := 0, rested := false }, e)
  if ← e.book.hasOrder id then return ({ fills := [], remainingQty := qty, rested := false }, e)
  let m ← e.cross id (.ofByte side) price qty
  let stillCrosses := (m.book.bestPrice (Side.ofByte side).opposite).any fun best => Crosses (.ofByte side) price best
  if 0 < m.remaining ∧ ¬ stillCrosses then
    let (rested, book) ← m.book.addOrderByte id side price m.remaining
    return ({ fills := m.fills, remainingQty := m.remaining, rested }, { book })
  else return ({ fills := m.fills, remainingQty := m.remaining, rested := false }, { book := m.book })

variable {b b' : OrderBook} {e e' : MatchingEngine maxFills} {id qty : Nat} {price : Int} {byte : UInt8}

theorem OrderBook.addOrderByte_toByte (side : Side) : b.addOrderByte id side.toByte price qty =
    b.addOrder id side price qty := by
  cases side <;> rfl

theorem MatchingEngine.submitOrderByte_toByte (side : Side) :
    e.submitOrderByte id side.toByte price qty = e.submitOrder id side price qty := by
  simp [MatchingEngine.submitOrderByte, MatchingEngine.submitOrder, OrderBook.addOrderByte_toByte, OrderBook.restOrder]

end Algo

namespace Exchange
open Algo Deframing Net

def WireNewOrder.typed (order : WireNewOrder) : NewOrder where
  clientOrderId := order.clientOrderId
  symbolId := order.symbolId
  side := .ofByte order.side
  price := order.price
  qty := order.qty
  sendTs := order.sendTs

def ExchangeCore.submitOrderByte {maxSymbols : Nat} (core : ExchangeCore maxSymbols) (sessionId : UInt16)
    (order : WireNewOrder) : Exec (ExchangeCore maxSymbols) :=
  core.submitWith sessionId (WireNewOrder.typed order) fun engine id =>
    engine.submitOrderByte id order.side order.price order.qty

theorem ExchangeCore.submitOrderByte_wire {maxSymbols : Nat} (core : ExchangeCore maxSymbols) (sessionId : UInt16)
    (order : NewOrder) : core.submitOrderByte sessionId order.wire = core.submitOrder sessionId order := by
  simp [submitOrderByte, submitOrder, WireNewOrder.typed, NewOrder.wire, MatchingEngine.submitOrderByte_toByte]

theorem ExchangeCore.submitOrderByte_valid {maxSymbols : Nat} (core : ExchangeCore maxSymbols) (sessionId : UInt16)
    {order : WireNewOrder} (valid : ValidSide order.side) :
    core.submitOrderByte sessionId order = core.submitOrder sessionId (WireNewOrder.typed order) := by
  have same : (WireNewOrder.typed order).wire = order := by
    simp only [WireNewOrder.typed, NewOrder.wire, valid.toByte]
  rw [← core.submitOrderByte_wire, same]

/-! ### From the stream to the exchange -/

def isHeartbeat (frame : List UInt8) : Bool :=
    (unpackMessage frame).any fun msg => msg.header.msgType = MsgType.kHeartbeat.toNat

/-- The requests that the gateway pushes for the frames it takes; a frame that comes before the session is discarded. -/
def forwarded (gatewayId : Nat) : (nextSeq : Nat) → List (UInt16 × List UInt8) → List WireRequest
  | _, [] => []
  | nextSeq, (curSession, frame) :: rest =>
    if isHeartbeat frame ∨ curSession = 0 then forwarded gatewayId nextSeq rest
    else (WireRequest.parseFrameToRequest curSession nextSeq gatewayId frame).toList ++ forwarded gatewayId
    ((nextSeq + 1) % 2 ^ 32) rest

def WireRequest.newOrder (req : WireRequest) : WireNewOrder where
  clientOrderId := req.clientOrderId
  symbolId := req.symbolId
  side := req.side
  price := req.price
  qty := req.qty
  sendTs := req.sendTs

/-- If the frame is a new order, byte 12 of its payload is a side. -/
def SideOk (frame : List UInt8) : Prop :=
  ∀ msg ∈ unpackMessage frame, msg.header.msgType = MsgType.kNewOrder.toNat →
    ValidSide (BigEndian.byteAt 12 msg.payload)
  deriving Decidable

variable {curSession : UInt16} {nextSeq gatewayId : Nat} {frame : List UInt8} {req : WireRequest}

theorem parse_side (ok : SideOk frame)
    (parsed : WireRequest.parseFrameToRequest curSession nextSeq gatewayId frame = some req)
    (typed : req.type = .kNewOrder) : ValidSide req.side := by
  unfold WireRequest.parseFrameToRequest at parsed
  obtain ⟨msg, unpacked, parsed⟩ := bind_eq_some_iff.mp parsed
  split at parsed
  case isFalse => cases parsed
  split at parsed
  case isTrue newOrder =>
    obtain ⟨order, read, made⟩ := bind_eq_some_iff.mp parsed
    cases made
    have side : order.side = BigEndian.byteAt 12 msg.payload := by
      unfold deserializeNewOrder deserialize at read
      split at read
      · cases read
      · cases read
        rfl
    exact show ValidSide order.side from side ▸ ok msg unpacked newOrder
  case isFalse =>
    -- cancels and modifies have another type
    split at parsed
    · obtain ⟨cancel, -, made⟩ := bind_eq_some_iff.mp parsed
      cases made
      cases typed
    split at parsed
    · obtain ⟨modify, -, made⟩ := bind_eq_some_iff.mp parsed
      cases made
      cases typed
    · cases parsed

theorem forwarded_side {handed : List (UInt16 × List UInt8)} (ok : ∀ entry ∈ handed, entry.1 ≠ 0 → SideOk entry.2)
    (pushed : req ∈ forwarded gatewayId nextSeq handed) (typed : req.type = .kNewOrder) : ValidSide req.side := by
  induction handed generalizing nextSeq with
  | nil => cases pushed
  | cons entry rest ih =>
    obtain ⟨curSession, frame⟩ := entry
    have later := fun entry member => ok entry (mem_cons_of_mem _ member)
    unfold forwarded at pushed
    split at pushed
    · exact ih later pushed
    case isFalse kept =>
      rcases mem_append.mp pushed with now | after
      · exact parse_side (ok _ mem_cons_self (not_or.mp kept).2) (mem_toList.mp now) typed
      · exact ih later after

def RecvLoop.frames (loop : RecvLoop) (answer : RecvAnswer × UInt16) : List (List UInt8) :=
  let buf := loop.rxBuf ++ answer.1.bytes
  match scan peekFrame buf (buf.length + 1) 0 with
  | none => []
  | some parsed => parsed.contents.filterMap id

/-- The new orders that a round takes for a session have a side. -/
def RecvLoop.SidesOk (loop : RecvLoop) (answer : RecvAnswer × UInt16) : Prop :=
  loop.connected = true → answer.2 ≠ 0 → ∀ frame ∈ loop.frames answer, SideOk frame
  deriving Decidable

theorem RecvLoop.parse_sides {loop loop' : RecvLoop} {answer : RecvAnswer × UInt16}
    (before : ∀ entry ∈ loop.handed, entry.1 ≠ 0 → SideOk entry.2)
    (sides : answer.2 ≠ 0 → ∀ frame ∈ loop.frames answer, SideOk frame)
    (parsed : RecvLoop.parse { loop with rxBuf := loop.rxBuf ++ answer.1.bytes } answer.2 = some loop') :
    ∀ entry ∈ loop'.handed, entry.1 ≠ 0 → SideOk entry.2 := by
  obtain ⟨found, scanned, made⟩ := bind_eq_some_iff.mp parsed
  cases made
  intro entry member assigned
  rcases mem_append.mp member with old | new
  · exact before entry old assigned
  · obtain ⟨frame, inside, rfl⟩ := List.mem_map.mp new
    refine sides assigned frame ?_
    rw [RecvLoop.frames]
    simp only [scanned]
    exact inside

theorem RecvLoop.step_sides {loop loop' : RecvLoop} {answer : RecvAnswer × UInt16}
    (before : ∀ entry ∈ loop.handed, entry.1 ≠ 0 → SideOk entry.2) (sides : loop.SidesOk answer)
    (stepped : loop.step answer = some loop') : ∀ entry ∈ loop'.handed, entry.1 ≠ 0 → SideOk entry.2 := by
  have same : { loop with rxBuf := loop.rxBuf ++ [] } = loop := by rw [append_nil]
  unfold RecvLoop.step at stepped
  split at stepped
  · cases stepped
    exact before
  rename_i up
  have taken := sides (eq_true_of_ne_false up)
  split at stepped
  · cases stepped
    exact before
  obtain ⟨received, session⟩ := answer
  cases received with
  | data bytes => exact RecvLoop.parse_sides before taken stepped
  | wouldBlock | interrupted => exact RecvLoop.parse_sides before taken (same.symm ▸ stepped)
  | closed | failed =>
    cases stepped
    exact before

/-- If the new orders taken for a session have a side in the byte for it, only such orders reach the exchange, which
submits them as the typed model does: `level_map_` is indexed by a side. -/
theorem run_forwards_sides {answers : List (RecvAnswer × UInt16)} {loop : RecvLoop}
    (sides : Transition.Along RecvLoop.step RecvLoop.SidesOk answers {}) (ran : RecvLoop.run answers {} = some loop)
    (gatewayId nextSeq : Nat) :
    ∀ req ∈ forwarded gatewayId nextSeq loop.handed, req.type = .kNewOrder →
      ValidSide req.side ∧ ∀ {maxSymbols : Nat} (core : ExchangeCore maxSymbols),
        core.submitOrderByte req.sessionId req.newOrder =
        core.submitOrder req.sessionId (WireNewOrder.typed req.newOrder) := by
  have ok : ∀ entry ∈ loop.handed, entry.1 ≠ 0 → SideOk entry.2 :=
    Transition.run_invariant (fun before sides stepped => RecvLoop.step_sides before sides stepped)
      (by intro entry member; cases member) sides ran
  intro req pushed typed
  have valid := forwarded_side ok pushed typed
  exact ⟨valid, fun core => core.submitOrderByte_valid req.sessionId valid⟩

def newOrderFrame (side : UInt8) : List UInt8 :=
  ((WireNewOrder.serialize 33 ⟨1, 1, side, 100, 5, 0⟩).bind (packTcpMessage 49 .kNewOrder)).getD []

/-- A buy arrives in two pieces and is pushed. -/
theorem run_forwards_sides_buy :
    ∃ loop, RecvLoop.run [(.data ((newOrderFrame 0).take 20), 1), (.data ((newOrderFrame 0).drop 20), 1)]
    {} = some loop ∧ ∃ req ∈ forwarded 0 2 loop.handed, req.type = .kNewOrder ∧ ValidSide req.side := by
  obtain ⟨loop, ran, req, pushed, typed⟩ : ∃ loop, RecvLoop.run [(.data ((newOrderFrame 0).take 20), 1),
      (.data ((newOrderFrame 0).drop 20), 1)] {} = some loop ∧
      ∃ req ∈ forwarded 0 2 loop.handed, req.type = .kNewOrder := by decide +kernel
  exact ⟨loop, ran, req, pushed, typed, (run_forwards_sides (by decide +kernel) ran 0 2 req pushed typed).1⟩

/-- A byte of 2 is pushed to the engine, and there the access of `level_map_` is out of range; the same order with a
side of 1 rests. -/
theorem run_forwards_no_side :
    ∃ loop core, RecvLoop.run [(.data (newOrderFrame 2), 1)] {} = some loop ∧
    tinyCore.onClientConnect = some (1, core) ∧
      ∃ req ∈ forwarded 0 2 loop.handed, req.type = .kNewOrder ∧ ¬ ValidSide req.side ∧
        core.submitOrderByte req.sessionId req.newOrder = none ∧
        (core.submitOrderByte req.sessionId { req.newOrder with side := 1 }).isSome := by
  obtain ⟨loop, ran, ⟨session, core⟩, connected, rfl, faults⟩ :
      ∃ loop, RecvLoop.run [(.data (newOrderFrame 2), 1)] {} = some loop ∧
      ∃ connected, tinyCore.onClientConnect = some connected ∧ connected.1 = 1 ∧
      ∃ req ∈ forwarded 0 2 loop.handed, req.type = .kNewOrder ∧ ¬ ValidSide req.side ∧
        connected.2.submitOrderByte req.sessionId req.newOrder = none ∧
        (connected.2.submitOrderByte req.sessionId { req.newOrder with side := 1 }).isSome := by decide +kernel
  exact ⟨loop, core, ran, connected, faults⟩

end Exchange

end TickToTrade
