import TickToTrade.Oms.Effects

/-!
The net position against the fills of a run. A fill for an order that is no longer tracked is lost.
-/

namespace TickToTrade.Oms
open Ds Probing OrderManager Option Function
open Logged (Along run)

variable {cfg : Config} {om om₁ om' : OrderManager} {a a' : Logged} {ops : List Op} {op : Op}
  {sent : List Request} {id : Nat}

/-! ### The tracked orders after a call -/

theorem shrinks_of_compacted (compacted : Compacted om om') : Shrinks om om' := by
  rcases compacted.outstanding with same | ⟨_, cleared⟩
  · exact shrinks_of_eq same
  · exact shrinks_of_cleared cleared

theorem shrinks_of_settled (settled : Settled cfg om om' id) : Shrinks om om' := by
  obtain ⟨_, om₁, ⟨info, _, closed⟩ | ⟨_, missed⟩, compacted⟩ := settled
  · exact (shrinks_of_erased closed.erased).trans (shrinks_of_compacted compacted)
  · exact (shrinks_of_eq missed.outstanding).trans (shrinks_of_compacted compacted)

theorem shrinks_of_closes (closes : Closes cfg om om') : Shrinks om om' := by
  induction closes with
  | refl => exact shrinks_of_eq rfl
  | tail _ closed ih =>
    obtain ⟨id, info, closed⟩ := closed
    exact ih.trans (shrinks_of_erased closed.erased)

theorem shrinks_of_drain (same : om' = om.checkDrainComplete) : Shrinks om om' := by
  rw [same]
  exact shrinks_of_eq (checkDrainComplete_tracking om).1.outstanding

/-- A call sends one new order and tracks it, or it sends none and tracks no new one. -/
theorem OrderManager.Effect.entries (effect : Effect cfg om om' op sent) :
    (∃ signal now sendTs out, op = .signal signal now sendTs ∧ sent = [.newOrder out] ∧
      Placed cfg om om' signal now out) ∨
    ((∀ out, .newOrder out ∉ sent) ∧ Shrinks om om') := by
  cases effect with
  | placed placed => exact .inl ⟨_, _, _, _, rfl, rfl, placed⟩
  | refused kept | unmodified kept | modified kept | acked kept | modifyAcked kept | modifyRejected kept =>
    exact .inr ⟨by simp, shrinks_of_eq kept.tracking.outstanding⟩
  | rejected settled => exact .inr ⟨by simp, shrinks_of_settled settled⟩
  | filled booked _ kept =>
    exact .inr ⟨by simp, (shrinks_of_eq booked.tracking.outstanding).trans (shrinks_of_eq kept.tracking.outstanding)⟩
  | completed booked _ settled =>
    exact .inr ⟨by simp, (shrinks_of_eq booked.tracking.outstanding).trans (shrinks_of_settled settled)⟩
  | cancelled settled same => exact .inr ⟨by simp, (shrinks_of_settled settled).trans (shrinks_of_drain same)⟩
  | cancelUnknown same => exact .inr ⟨by simp, shrinks_of_drain same⟩
  | cancelRejected _ settled same => exact .inr ⟨by simp, (shrinks_of_settled settled).trans (shrinks_of_drain same)⟩
  | expired kept closes compacted =>
    exact .inr ⟨by simp, ((shrinks_of_eq kept.tracking.outstanding).trans (shrinks_of_closes closes)).trans
      (shrinks_of_compacted compacted)⟩
  | killed _ killed => exact .inr ⟨by simp, shrinks_of_eq killed.tracking.outstanding⟩
  | killedAgain _ same => exact .inr ⟨by simp, shrinks_of_eq (by rw [same])⟩

/-! ### The position after a call -/

theorem netPosition_of_settled (settled : Settled cfg om om' id) : om'.netPosition = om.netPosition := by
  obtain ⟨_, om₁, ⟨info, _, closed⟩ | ⟨_, missed⟩, compacted⟩ := settled
  · exact compacted.apart.netPosition.trans closed.apart.netPosition
  · exact compacted.apart.netPosition.trans missed.apart.netPosition

theorem netPosition_of_closes (closes : Closes cfg om om') : om'.netPosition = om.netPosition := by
  induction closes with
  | refl => rfl
  | tail _ closed ih =>
    obtain ⟨id, info, closed⟩ := closed
    exact closed.apart.netPosition.trans ih

theorem netPosition_of_drain (same : om' = om.checkDrainComplete) : om'.netPosition = om.netPosition := by
  rw [same]
  exact (checkDrainComplete_tracking om).2.1

theorem OrderManager.Effect.netPosition (effect : Effect cfg om om' op sent) :
    (∃ fill om₁, op = .fill fill ∧ Booked cfg om om₁ fill ∧ om'.netPosition = om₁.netPosition) ∨
    ((∀ fill, op ≠ .fill fill) ∧ om'.netPosition = om.netPosition) := by
  cases effect with
  | filled booked _ kept => exact .inl ⟨_, _, rfl, booked, kept.apart.netPosition⟩
  | completed booked _ settled => exact .inl ⟨_, _, rfl, booked, netPosition_of_settled settled⟩
  | placed placed => exact .inr ⟨by simp, placed.apart.netPosition⟩
  | refused kept | unmodified kept | modified kept | acked kept | modifyAcked kept | modifyRejected kept =>
    exact .inr ⟨by simp, kept.apart.netPosition⟩
  | rejected settled => exact .inr ⟨by simp, netPosition_of_settled settled⟩
  | cancelled settled same => exact .inr ⟨by simp, (netPosition_of_drain same).trans (netPosition_of_settled settled)⟩
  | cancelUnknown same => exact .inr ⟨by simp, netPosition_of_drain same⟩
  | cancelRejected _ settled same =>
    exact .inr ⟨by simp, (netPosition_of_drain same).trans (netPosition_of_settled settled)⟩
  | expired kept closes compacted =>
    exact .inr ⟨by simp, (compacted.apart.netPosition.trans
      (netPosition_of_closes closes)).trans kept.apart.netPosition⟩
  | killed _ killed => exact .inr ⟨by simp, killed.netPosition⟩
  | killedAgain _ same => exact .inr ⟨by simp, by rw [same]⟩

/-! ### The fills of a run -/

def signedQty (side : Side) (qty : Nat) : Int := if side = .kBid then qty else -qty

def fillDelta (earlier : List Event) (symbolId : Nat) : Op → Int
  | .fill report =>
    match orderOf earlier report.clientOrderId with
    | some order => if order.symbolId = symbolId then signedQty order.side report.fillQty else 0
    | none => 0
  | _ => 0

/-- The sum of the fills of a symbol's orders, as the exchange reported them. -/
def filledQty : List Event → Nat → Int
  | [], _ => 0
  | e :: earlier, symbolId => filledQty earlier symbolId + fillDelta earlier symbolId e.op

def FillsBooked (cfg : Config) (a : Logged) : Prop :=
  ∀ symIdx < cfg.maxSymbols, a.om.netPosition symIdx = filledQty a.log (symIdx + 1)

def Op.report : Op → Option FillReport
  | .fill report => some report
  | _ => none

/-- A fill names a tracked order, and the position after it is an `int64_t`. -/
def FillTracked (om : OrderManager) (op : Op) : Prop :=
  ∀ report ∈ op.report, (om.outstanding.content report.clientOrderId).isSome = true ∧
    ∀ info ∈ om.outstanding.content report.clientOrderId,
      -2 ^ 63 ≤ om.netPosition (info.symbolId - 1) + signedQty info.side report.fillQty ∧
      om.netPosition (info.symbolId - 1) + signedQty info.side report.fillQty < 2 ^ 63
  deriving Decidable

def Recorded (a : Logged) : Prop :=
  ∀ entry ∈ a.om.outstanding.entries, ∃ order, orderOf a.log entry.1 = some order ∧
    order.symbolId = entry.2.symbolId ∧ order.side = entry.2.side

theorem Event.issued_none {e : Event} (quiet : ∀ out, .newOrder out ∉ e.sent) (id : Nat) : e.issued id = none := by
  unfold Event.issued
  rw [List.findSome?_eq_none_iff]
  intro request member
  cases request with
  | newOrder order => exact absurd member (quiet order)
  | modifyOrder modify => rfl
  | cancelOrder cancel => rfl

variable {log : List Event}

theorem orderOf_quiet (quiet : ∀ out, .newOrder out ∉ sent) (id : Nat) :
    orderOf (⟨op, sent⟩ :: log) id = orderOf log id := by
  rw [orderOf, Event.issued_none quiet, none_or]

theorem orderOf_sent {out : NewOrder} :
    orderOf (⟨op, [.newOrder out]⟩ :: log) id = if out.clientOrderId = id then some out else orderOf log id := by
  by_cases same : out.clientOrderId = id <;> simp [orderOf, Event.issued, same]

theorem Recorded.step (recorded : Recorded a) (ok : a.om.Ok cfg) (effect : Effect cfg a.om om' op sent) :
    Recorded { om := om', log := ⟨op, sent⟩ :: a.log } := by
  intro entry member
  rcases effect.entries with ⟨signal, now, sendTs, out, rfl, rfl, placed⟩ | ⟨quiet, shrinks⟩
  · obtain ⟨info, symbol, side, inserted⟩ := placed.inserted
    rw [orderOf_sent]
    rcases List.mem_cons.mp (inserted.entries_perm.mem_iff.mp member) with rfl | old
    · refine ⟨out, if_pos rfl, ?_, ?_⟩
      · rw [placed.order]
        exact symbol.symm
      · rw [placed.order]
        exact side.symm
    · -- The id of a new order was not tracked, so this entry is of another one.
      have other : out.clientOrderId ≠ entry.1 := by
        intro same
        have present := ok.map.content_eq_some.mpr old
        rw [← same, placed.absent] at present
        cases present
      rw [if_neg other]
      exact recorded entry old
  · rw [orderOf_quiet quiet]
    exact recorded entry (shrinks member)

/-- What the position needs: the map is in order, and its entries and the positions agree with the log. -/
structure PositionInv (cfg : Config) (a : Logged) : Prop where
  ok : a.om.Ok cfg
  recorded : Recorded a
  booked : FillsBooked cfg a

theorem fillDelta_other (other : ∀ fill, op ≠ .fill fill) (symbolId : Nat) :
    fillDelta log symbolId op = 0 := by
  cases op with
  | fill report => exact absurd rfl (other report)
  | _ => rfl

theorem toInt64_signed {position : Int} {info : OrderInfo} {qty : Nat}
    (low : -2 ^ 63 ≤ position + signedQty info.side qty) (high : position + signedQty info.side qty < 2 ^ 63) :
    (if info.side = .kBid then toInt64 (position + qty) else toInt64 (position - qty)) =
      position + signedQty info.side qty := by
  unfold signedQty at low high ⊢
  split at low <;> rename_i side
  · simp only [if_pos side] at high ⊢
    exact toInt64_of_fits low high
  · simp only [if_neg side] at high ⊢
    exact toInt64_of_fits low high

/-- A fill of a tracked order moves the position of the order's symbol by the signed quantity. -/
theorem booked_delta {report : FillReport} (ok : a.om.Ok cfg) (recorded : Recorded a)
    (tracked : FillTracked a.om (.fill report)) (booked : Booked cfg a.om om' report) (symIdx : Nat) :
    om'.netPosition symIdx = a.om.netPosition symIdx + fillDelta a.log (symIdx + 1) (.fill report) := by
  obtain ⟨some, fits⟩ := tracked report (mem_some_self _)
  obtain ⟨info, present⟩ := isSome_iff_exists.mp some
  obtain ⟨low, high⟩ := fits info present
  obtain ⟨order, sent, symbol, side⟩ := recorded _ (ok.map.content_eq_some.mp present)
  have known := symbolIndex_eq_some (ok.indexed _ info present)
  rw [booked.known info present, toInt64_signed low high]
  simp only [fillDelta, sent, symbol, side]
  by_cases here : symIdx = info.symbolId - 1
  · have mine : info.symbolId = symIdx + 1 := by omega
    rw [if_pos mine, ← here, update_self]
  · have other : info.symbolId ≠ symIdx + 1 := by omega
    rw [if_neg other, update_of_ne here, Int.add_zero]

theorem PositionInv.step (inv : PositionInv cfg a) (tracked : FillTracked a.om op)
    (stepped : a.step cfg op = some a') : PositionInv cfg a' := by
  obtain ⟨sent, om', applied, rfl⟩ := Logged.step_eq_some.mp stepped
  obtain ⟨ok, effect⟩ := apply_effect inv.ok applied
  refine ⟨ok, inv.recorded.step inv.ok effect, fun symIdx bound => ?_⟩
  simp only [filledQty, ← inv.booked symIdx bound]
  rcases effect.netPosition with ⟨report, om₁, rfl, booked, same⟩ | ⟨other, same⟩
  · rw [same, booked_delta inv.ok inv.recorded tracked booked symIdx]
  · rw [same, fillDelta_other other, Int.add_zero]

theorem create_positionInv (created : create cfg = some om) : PositionInv cfg { om } := by
  obtain ⟨ok, empty, fields⟩ := create_ok created
  refine ⟨ok, ?_, ?_⟩
  · intro entry member
    simp [empty] at member
  · intro symIdx _
    rw [fields]
    rfl

/-- In every run whose fills name tracked orders, the positions are the sums of the fills. -/
theorem run_fillsBooked (created : create cfg = some om)
    (tracked : Along cfg (fun a op => FillTracked a.om op) ops { om })
    (ran : run cfg ops { om } = some a) : FillsBooked cfg a :=
  (Transition.run_invariant PositionInv.step (create_positionInv created) tracked ran).booked

def partFillOps : List Op :=
  [.signal (buy 5) 0 0, .fill { clientOrderId := 1, fillQty := 3, remainingQty := 2 },
    .cancelAck { clientOrderId := 1 }]

theorem run_fillsBooked_part : ∃ a, create smallConfig = some smallManager ∧
    Along smallConfig (fun a op => FillTracked a.om op) partFillOps { om := smallManager } ∧
    run smallConfig partFillOps { om := smallManager } = some a ∧ FillsBooked smallConfig a := by
  have tracked : Along smallConfig (fun a op => FillTracked a.om op) partFillOps { om := smallManager } := by
    decide +kernel
  have returns : (run smallConfig partFillOps { om := smallManager }).isSome = true := by decide +kernel
  obtain ⟨a, ran⟩ := isSome_iff_exists.mp returns
  exact ⟨a, create_smallManager, tracked, ran, run_fillsBooked create_smallManager tracked ran⟩

/-- Order 1 times out, and its fill arrives before the cancel is answered. -/
def lostFillOps : List Op :=
  [.signal (buy 5) 0 0, .advanceTimeouts 3000000, .fill { clientOrderId := 1, fillQty := 5, remainingQty := 0 }]

/-- The fill of the order that timed out is not booked. -/
theorem run_not_fillsBooked : ∃ a, create smallConfig = some smallManager ∧
    run smallConfig lostFillOps { om := smallManager } = some a ∧ a.om.netPosition 0 = 0 ∧
    filledQty a.log 1 = 5 ∧ ¬ FillsBooked smallConfig a := by
  obtain ⟨a, ran, position, filled⟩ : ∃ a, run smallConfig lostFillOps { om := smallManager } = some a ∧
      a.om.netPosition 0 = 0 ∧ filledQty a.log 1 = 5 := by decide +kernel
  refine ⟨a, create_smallManager, ran, position, filled, fun booked => ?_⟩
  have same : a.om.netPosition 0 = filledQty a.log 1 := booked 0 (by decide)
  omega

end TickToTrade.Oms
