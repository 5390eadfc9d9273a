import TickToTrade.Oms.Effects

/-!
The limits on one order. `on_signal` checks the size and the notional, the latter with a product in
`int64_t`; `check_modify` checks neither.
-/

namespace TickToTrade.Oms
open Ds Probing OrderManager

variable {cfg : Config} {om om' : OrderManager} {a a' : Logged} {ops : List Op} {op : Op} {sent : List Request}

/-- The limits on the size and on the product of price and quantity as a mathematical number. -/
def Limited (cfg : Config) (price : Int) (qty : Nat) : Prop :=
  qty ≤ cfg.maxOrderSize ∧ price * qty ≤ cfg.maxNotional
  deriving Decidable

def WithinLimits (cfg : Config) : Request → Prop
  | .newOrder order => Limited cfg order.price order.qty
  | .modifyOrder modify => Limited cfg modify.newPrice modify.newQty
  | .cancelOrder _ => True

/-- The product of the signal is not too large for `int64_t`, and a signal for a modify passes the checks of
`on_signal` on the size and, if its product does not wrap, on the notional. -/
def Checked (cfg : Config) : Op → Prop
  | .signal signal _ _ => signal.price * signal.qty < 2 ^ 63
  | .modify signal _ => signal.price * signal.qty < 2 ^ 63 ∧ signal.qty ≤ cfg.maxOrderSize ∧
    (-2 ^ 63 ≤ signal.price * signal.qty → notional signal ≤ cfg.maxNotional)
  | _ => True

theorem notional_iff {signal : Signal} : signal.price * signal.qty ≤ cfg.maxNotional ↔
    signal.price * signal.qty < 2 ^ 63 ∧ (-2 ^ 63 ≤ signal.price * signal.qty → notional signal ≤ cfg.maxNotional) := by
  have low := cfg.notional_ge
  have high := cfg.notional_lt
  constructor
  · intro limited
    refine ⟨by omega, fun fits => ?_⟩
    unfold notional
    rwa [toInt64_of_fits fits (by omega)]
  · intro ⟨small, checked⟩
    by_cases fits : -2 ^ 63 ≤ signal.price * signal.qty
    · have wrapped := checked fits
      unfold notional at wrapped
      rwa [toInt64_of_fits fits small] at wrapped
    · omega

/-- One call: what it sends is within the limits exactly if its signal meets the condition. -/
theorem OrderManager.Effect.limits (effect : Effect cfg om om' op sent) :
    ∀ request ∈ sent, (WithinLimits cfg request ↔ Checked cfg op) := by
  intro request member
  cases effect with
  | placed placed =>
    cases List.mem_singleton.mp member
    rw [placed.order]
    simp only [WithinLimits, Limited, Checked, notional_iff]
    constructor
    · intro limited
      exact limited.2.1
    · intro small
      exact ⟨placed.size, small, fun _ => placed.notional⟩
  | modified _ _ _ price qty =>
    cases List.mem_singleton.mp member
    simp only [WithinLimits, Limited, Checked, price, qty, notional_iff]
    constructor
    · intro ⟨size, small, checked⟩
      exact ⟨small, size, checked⟩
    · intro ⟨small, size, checked⟩
      exact ⟨size, small, checked⟩
  | expired | killed =>
    obtain ⟨cancel, _, rfl⟩ := List.mem_map.mp member
    exact Iff.rfl
  | refused | unmodified | acked | modifyAcked | modifyRejected | rejected | filled | completed | cancelled
  | cancelUnknown
  | cancelRejected | killedAgain => cases member

structure LimitsInv (cfg : Config) (a : Logged) : Prop where
  ok : a.om.Ok cfg
  limits : ∀ e ∈ a.log, ∀ request ∈ e.sent, (WithinLimits cfg request ↔ Checked cfg e.op)

theorem LimitsInv.step (inv : LimitsInv cfg a) (stepped : a.step cfg op = some a') : LimitsInv cfg a' := by
  obtain ⟨sent, om', applied, rfl⟩ := Logged.step_eq_some.mp stepped
  obtain ⟨ok, effect⟩ := apply_effect inv.ok applied
  refine ⟨ok, fun e member => ?_⟩
  rcases List.mem_cons.mp member with rfl | earlier
  · exact effect.limits
  · exact inv.limits e earlier

/-- In every run, an order or a modify that is sent is within the limits exactly if its signal meets the
condition. -/
theorem run_limits (created : create cfg = some om) (ran : Logged.run cfg ops { om } = some a) :
    ∀ e ∈ a.log, ∀ request ∈ e.sent, (WithinLimits cfg request ↔ Checked cfg e.op) := by
  have start : LimitsInv cfg { om } := ⟨(create_ok created).1, by simp⟩
  exact (Transition.run_keeps (LimitsInv cfg) LimitsInv.step start ran).limits

/-- A buy of 5 and a modify to 6 at another price are sent, both within the limits. -/
theorem run_limits_reprice : ∃ a order modify, create smallConfig = some smallManager ∧
    Logged.run smallConfig [.signal (buy 5) 0 0, .modify { buy 6 with price := 101 } 0]
      { om := smallManager } = some a ∧
    a.log.flatMap Event.sent = [.modifyOrder modify, .newOrder order] ∧ modify.newQty = 6 ∧
    ∀ e ∈ a.log, ∀ request ∈ e.sent, (WithinLimits smallConfig request ↔ Checked smallConfig e.op) := by
  obtain ⟨a, ran, messages⟩ : ∃ a, Logged.run smallConfig [.signal (buy 5) 0 0, .modify { buy 6 with price := 101 } 0]
      { om := smallManager } = some a ∧ a.log.flatMap Event.sent =
        [.modifyOrder ⟨1, 1, 101, 6, 0⟩, .newOrder ⟨1, 1, .kBid, 100, 5, 0⟩] := by decide +kernel
  exact ⟨a, _, _, create_smallManager, ran, messages, rfl, run_limits create_smallManager ran⟩

/-- An order whose product wraps to 0, and a modify to a quantity above the limit of 1000. -/
def oversizeOps : List Op :=
  [.signal { buy 4 with price := 2 ^ 62 } 0 0, .modify (buy 1001) 0]

/-- Neither message that is sent is within the limits. -/
theorem run_not_limited : ∃ a order modify, create smallConfig = some smallManager ∧
    Logged.run smallConfig oversizeOps { om := smallManager } = some a ∧
    a.log.flatMap Event.sent = [.modifyOrder modify, .newOrder order] ∧
    ¬ WithinLimits smallConfig (.newOrder order) ∧ ¬ WithinLimits smallConfig (.modifyOrder modify) := by
  obtain ⟨a, ran, messages⟩ : ∃ a, Logged.run smallConfig oversizeOps { om := smallManager } = some a ∧
      a.log.flatMap Event.sent = [.modifyOrder ⟨1, 1, 100, 1001, 0⟩, .newOrder ⟨1, 1, .kBid, 2 ^ 62, 4, 0⟩] := by
    decide +kernel
  refine ⟨a, _, _, create_smallManager, ran, messages, ?_, ?_⟩
  · show ¬ Limited smallConfig (2 ^ 62) 4
    decide
  · show ¬ Limited smallConfig 100 1001
    decide

end TickToTrade.Oms
