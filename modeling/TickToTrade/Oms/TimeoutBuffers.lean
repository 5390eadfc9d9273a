import TickToTrade.Oms.OrderTimers

/-!
The room that `advance_timeouts` has for the orders it collects. `timeout_ids_` and `cancel_buf` are
sized by `max_outstanding`, the map and the wheel are not.
-/

namespace TickToTrade.Oms
open Ds Probing OrderManager List Option
open TimingWheel (recording)
open Logged (Along run)

variable {cfg : Config} {om : OrderManager} {ops : List Op} {a : Logged}

/-- The ids that the ticks of `advance_timeouts` hand to `on_order_timeout`, however many there are. -/
def OrderManager.timedOut (om : OrderManager) (nowNs : Int) : Exec (List Nat) :=
  (TimingWheel.tickMany (recording fun ids coid => some (ids ++ [coid])) (om.elapsedTicks nowNs)
    (om.timeoutWheel, [])).map Prod.snd

/-- The orders that time out fit into the buffers, and each of them is in the batch of cancels. -/
structure CapacitySafe (cfg : Config) (om : OrderManager) : Prop where
  entries : om.outstanding.entries.length ≤ cfg.maxOutstanding
  armed : om.killSwitchState = .kNormal → ∀ id info, om.outstanding.content id = some info →
    ∃ left, om.timeoutWheel.Alarm info.timerHandle id left
  own : om.killSwitchState = .kNormal → ∀ id info id' info', om.outstanding.content id = some info →
    om.outstanding.content id' = some info' → info.timerHandle = info'.timerHandle → id = id'
  advances : ∀ nowNs, (om.advanceTimeouts cfg nowNs).isSome = true
  collects : om.killSwitchState = .kNormal → ∀ nowNs, Config.kTickIntervalNs ≤ toInt64 (nowNs - om.lastAdvanceNs) →
    ∃ ids batch om', om.timedOut nowNs = some ids ∧ ids.length ≤ cfg.maxOutstanding ∧
      om.advanceTimeouts cfg nowNs = some (batch, om') ∧ ∀ id ∈ ids, ∃ cancel ∈ batch, cancel.clientOrderId = id

theorem foldlM_append_some (ids coids : List Nat) :
    coids.foldlM (fun ids coid => some (ids ++ [coid])) ids = some (ids ++ coids) := by
  induction coids generalizing ids with
  | nil => simp
  | cons coid rest ih =>
    rw [foldlM_cons, bind_eq_bind, bind_some, ih, append_assoc, singleton_append]

/-- A due call collects the orders of the timers that ring, and cancels them. -/
theorem Timed.collects (timed : Timed cfg om) (normal : om.killSwitchState = .kNormal) {nowNs : Int}
    (due : Config.kTickIntervalNs ≤ toInt64 (nowNs - om.lastAdvanceNs)) :
    ∃ ids batch om', om.timedOut nowNs = some ids ∧ ids.length ≤ cfg.maxOutstanding ∧
      om.advanceTimeouts cfg nowNs = some (batch, om') ∧ ∀ id ∈ ids, ∃ cancel ∈ batch, cancel.clientOrderId = id := by
  obtain ⟨wheel, rings, -, -, few, ticks, ran⟩ := timed.rings normal (om.elapsedTicks nowNs)
  obtain ⟨batch, om₁, om', returns, advanced⟩ := advanceTimeouts_returns timed.tallied.ok normal due ticks
  refine ⟨rings.map Prod.snd, batch, om', ?_, by simpa using few, returns, fun id member => ?_⟩
  · rw [OrderManager.timedOut, ran, foldlM_append_some]
    rfl
  · exact ((timed.expire advanced).2.batch id).mpr member

theorem Timed.capacitySafe (timed : Timed cfg om) : CapacitySafe cfg om where
  entries := timed.tallied.entries ▸ timed.tallied.small
  armed := timed.armed
  own normal id info id' info' := timed.own normal
  collects normal nowNs := timed.collects normal
  advances nowNs := by
    by_cases idle : om.killSwitchState ≠ .kNormal ∨ toInt64 (nowNs - om.lastAdvanceNs) < Config.kTickIntervalNs
    · rw [advanceTimeouts_idle idle]
      rfl
    · obtain ⟨normal, due⟩ := not_or.mp idle
      obtain ⟨-, batch, om', -, -, returns, -⟩ := timed.collects (not_ne_iff.mp normal) (Int.not_lt.mp due)
      rw [returns]
      rfl

/-- The buffers suffice in every run whose responses end tracked orders only. -/
theorem run_capacitySafe (enough : cfg.maxOutstanding ≤ cfg.timeoutMaxTimers) (created : create cfg = some om)
    (tracked : Along cfg (fun a op => EndsTracked a.om op) ops { om }) (ran : run cfg ops { om } = some a) :
    CapacitySafe cfg a.om := by
  have start : Timed cfg ({ om } : Logged).om := create_timed created
  exact (Transition.run_invariant (Timed.step enough) start tracked ran).capacitySafe

/-- Order 1 times out, and orders 2 and 3 are left with their timers. -/
def armedOps : List Op := [.signal (buy 5) 0 0, .advanceTimeouts 3000000, .signal (buy 5) 0 0, .signal (buy 5) 0 0]

theorem run_capacitySafe_armed : ∃ a, smallConfig.maxOutstanding ≤ smallConfig.timeoutMaxTimers ∧
    create smallConfig = some smallManager ∧
    Along smallConfig (fun a op => EndsTracked a.om op) armedOps { om := smallManager } ∧
    run smallConfig armedOps { om := smallManager } = some a ∧ a.om.timedOut 6000000 = some [3, 2] ∧
    CapacitySafe smallConfig a.om := by
  have enough : smallConfig.maxOutstanding ≤ smallConfig.timeoutMaxTimers := by decide
  have tracked : Along smallConfig (fun a op => EndsTracked a.om op) armedOps { om := smallManager } := by
    decide +kernel
  obtain ⟨a, ran, due⟩ : ∃ a, run smallConfig armedOps { om := smallManager } = some a ∧
      a.om.timedOut 6000000 = some [3, 2] := by decide +kernel
  exact ⟨a, enough, create_smallManager, tracked, ran, due, run_capacitySafe enough create_smallManager tracked ran⟩

def looseConfig : Config := { smallConfig with maxOutstandingPerSymbol := 4 }

def looseManager : OrderManager := (create looseConfig).get (by decide)

/-- Order 1 times out and is acknowledged late, while orders 2 and 3 wait: there is room for order 4. -/
def overfullOps : List Op :=
  [.signal (buy 5) 0 0, .advanceTimeouts 3000000, .signal (buy 5) 0 0, .signal (buy 5) 0 0,
    .cancelAck { clientOrderId := 1 }, .signal (buy 5) 0 0]

/-- Three orders are tracked where two are allowed, and their timeouts run past the end of `timeout_ids_`. -/
theorem run_not_capacitySafe : ∃ om a, create looseConfig = some om ∧
    looseConfig.maxOutstanding ≤ looseConfig.timeoutMaxTimers ∧
    run looseConfig overfullOps { om } = some a ∧ a.om.outstanding.entries.length = 3 ∧
    a.om.advanceTimeouts looseConfig 9000000 = none ∧ ¬ CapacitySafe looseConfig a.om := by
  obtain ⟨a, ran, three, faults⟩ : ∃ a, run looseConfig overfullOps { om := looseManager } = some a ∧
      a.om.outstanding.entries.length = 3 ∧ a.om.advanceTimeouts looseConfig 9000000 = none := by decide +kernel
  refine ⟨looseManager, a, (some_get _).symm, by decide, ran, three, faults, fun safe => ?_⟩
  have most := safe.entries
  rw [three] at most
  exact absurd most (by decide)

end TickToTrade.Oms
