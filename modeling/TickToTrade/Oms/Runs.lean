import TickToTrade.Oms.OrderManager
import TickToTrade.Lib.Transition

/-!
Runs of an order manager: its calls in any order, each with the messages it asks to be sent, newest
first.
-/

namespace TickToTrade.Oms
open Option

inductive Op where
  | signal (signal : Signal) (now sendTs : Int)
  | modify (signal : Signal) (sendTs : Int)
  | orderAck (ack : OrderAck)
  | orderReject (reject : OrderReject)
  | fill (fill : FillReport)
  | cancelAck (ack : CancelAck)
  | cancelReject (reject : CancelReject)
  | modifyAck (ack : ModifyAck)
  | modifyReject (reject : ModifyReject)
  | advanceTimeouts (nowNs : Int)
  | triggerKillSwitch (now : Int)
  deriving DecidableEq

inductive Request where
  | newOrder (order : NewOrder)
  | modifyOrder (modify : ModifyOrder)
  | cancelOrder (cancel : CancelOrder)
  deriving DecidableEq

def blankOrder : NewOrder := ⟨0, 0, .kBid, 0, 0, 0⟩

def blankModify : ModifyOrder := ⟨0, 0, 0, 0, 0⟩

namespace OrderManager

variable (cfg : Config)

def apply (om : OrderManager) : Op → Exec (List Request × OrderManager)
  | .signal signal now sendTs => do
    let (generated, out, om) ← om.onSignal cfg signal now sendTs blankOrder
    return (if generated then [.newOrder out] else [], om)
  | .modify signal sendTs => do
    let (generated, out, om) ← om.checkModify cfg signal sendTs blankModify
    return (if generated then [.modifyOrder out] else [], om)
  | .orderAck ack => some ([], om.onOrderAck ack)
  | .orderReject reject => (om.onOrderReject cfg reject).map ([], ·)
  | .fill fill => (om.onFill cfg fill).map ([], ·)
  | .cancelAck ack => (om.onCancelAck cfg ack).map ([], ·)
  | .cancelReject reject => (om.onCancelReject cfg reject).map ([], ·)
  | .modifyAck ack => some ([], om.onModifyAck ack)
  | .modifyReject reject => (om.onModifyReject cfg reject).map ([], ·)
  | .advanceTimeouts nowNs => do
    let (batch, om) ← om.advanceTimeouts cfg nowNs
    return (batch.map .cancelOrder, om)
  | .triggerKillSwitch now => do
    let (batch, om) ← om.triggerKillSwitch cfg now
    return (batch.map .cancelOrder, om)

end OrderManager

structure Event where
  op : Op
  sent : List Request
  deriving DecidableEq

structure Logged where
  om : OrderManager
  log : List Event := []

namespace Logged

variable (cfg : Config)

def step (a : Logged) (op : Op) : Exec Logged := do
  let (sent, om) ← a.om.apply cfg op
  return { om, log := ⟨op, sent⟩ :: a.log }

def run : List Op → Logged → Exec Logged := Transition.run (step cfg)

/-- Every call of the run meets `P` in the state in which it is made. -/
abbrev Along (P : Logged → Op → Prop) : List Op → Logged → Prop := Transition.Along (step cfg) P

variable {cfg} {a a' : Logged} {op : Op}

theorem step_eq_some : a.step cfg op = some a' ↔
    ∃ sent om, a.om.apply cfg op = some (sent, om) ∧ a' = { om, log := ⟨op, sent⟩ :: a.log } := by
  unfold step
  simp only [bind_eq_bind, bind_eq_some_iff, Prod.exists, Option.pure_def, some.injEq]
  constructor
  · intro ⟨sent, om, applied, same⟩
    exact ⟨sent, om, applied, same.symm⟩
  · intro ⟨sent, om, applied, same⟩
    exact ⟨sent, om, applied, same.symm⟩

end Logged

def smallConfig : Config where
  maxSymbols := 1
  maxOutstanding := 2
  maxOutstandingPerSymbol := 2
  timeoutWheelSize := 8
  timeoutMaxTimers := 4
  orderTimeoutNs := 2000000

def smallManager : OrderManager := (OrderManager.create smallConfig).get (by decide)

theorem create_smallManager : OrderManager.create smallConfig = some smallManager := (some_get _).symm

def buy (qty : Nat) : Signal := { side := .kBid, price := 100, qty, symbolId := 1 }

def Event.issued (e : Event) (id : Nat) : Option NewOrder :=
  e.sent.findSome? fun
    | .newOrder order => if order.clientOrderId = id then some order else none
    | _ => none

def orderOf : List Event → Nat → Option NewOrder
  | [], _ => none
  | e :: earlier, id => (e.issued id).or (orderOf earlier id)

end TickToTrade.Oms
