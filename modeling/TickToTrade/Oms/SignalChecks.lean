import TickToTrade.Oms.Effects

/-! What `on_signal` decides and what it leaves alone when it refuses. -/

namespace TickToTrade.Oms
open Ds Probing OrderManager Option

variable {cfg : Config} {om om₁ om' : OrderManager} {a : Logged} {ops : List Op} {signal : Signal} {now sendTs : Int}
  {out : NewOrder}
variable {symIdx : Nat}

/-- Nothing but the reject counters and the token bucket changed. -/
def Untouched (om om' : OrderManager) : Prop :=
  om' = { om with tokens := om'.tokens, lastRefillTs := om'.lastRefillTs, stats := om'.stats }

/-- The call returns, it accepts exactly the signals that pass, and a refusal leaves no trace. -/
def Decides (cfg : Config) (om : OrderManager) (signal : Signal) (now sendTs : Int) (out : NewOrder) : Prop :=
  ∃ generated out' om', om.onSignal cfg signal now sendTs out = some (generated, out', om') ∧
    (generated = true ↔ Passes cfg om signal now) ∧ (generated = false → out' = out ∧ Untouched om om')

/-- The steps behind the checks go through: the refill does not divide by zero, the timeout fits the wheel,
and the map takes the next id. -/
@[mk_iff]
structure Ready (cfg : Config) (om : OrderManager) (signal : Signal) (now : Int) : Prop where
  refill : EarlyChecks cfg om signal → RefillDue cfg om now → cfg.refillIntervalNs ≠ 0
  place : Passes cfg om signal now → 0 < cfg.delayTicks ∧ cfg.delayTicks < om.timeoutWheel.wheelSize ∧
    om.outstanding.accepts DefaultHash.hash om.nextOrderId = true

instance : Decidable (Ready cfg om signal now) := decidable_of_iff _ (ready_iff ..).symm

theorem Untouched.counted (untouched : Untouched om om₁) (stat : Stat) (n : Nat) : Untouched om (om₁.count stat n) := by
  unfold Untouched at untouched ⊢
  rw [untouched]
  rfl

/-! ### The refill -/

theorem refill_fault (due : RefillDue cfg om now) (zero : cfg.refillIntervalNs = 0) : om.refill cfg now = none := by
  unfold RefillDue at due
  unfold refill
  rw [if_neg (Int.not_lt.mpr due), if_pos zero]

theorem refill_done (ready : RefillDue cfg om now → cfg.refillIntervalNs ≠ 0) :
    ∃ om₁, om.refill cfg now = some om₁ ∧ om₁.tokens = refilledTokens cfg om now ∧ Untouched om om₁ := by
  have returns : ∃ om₁, om.refill cfg now = some om₁ := by
    unfold refill
    dsimp only
    split
    · exact ⟨_, rfl⟩
    · rename_i due
      rw [if_neg (ready (Int.not_lt.mp due))]
      exact ⟨_, rfl⟩
  obtain ⟨om₁, refilled⟩ := returns
  refine ⟨om₁, refilled, refill_tokens refilled, ?_⟩
  obtain ⟨tokens, lastRefillTs, rfl⟩ := refill_frame refilled
  rfl

/-! ### Placing the order -/

theorem schedule_fault {wheel : TimingWheel Unit} {id delay : Nat} (bad : ¬ (0 < delay ∧ delay < wheel.wheelSize)) :
    wheel.schedule () id delay = none := by
  have outside : delay = 0 ∨ wheel.wheelSize ≤ delay := by omega
  simp [TimingWheel.schedule, outside]

theorem schedule_done {wheel : TimingWheel Unit} {delay : Nat} (id : Nat) (good : 0 < delay ∧ delay < wheel.wheelSize) :
    ∃ handle wheel', wheel.schedule () id delay = some (handle, wheel') := by
  have inside : ¬ (delay = 0 ∨ wheel.wheelSize ≤ delay) := by omega
  unfold TimingWheel.schedule
  rw [if_neg inside]
  split
  · exact ⟨_, _, rfl⟩
  · exact ⟨_, _, rfl⟩

theorem placeOrder_fault (bad : ¬ (0 < cfg.delayTicks ∧ cfg.delayTicks < om.timeoutWheel.wheelSize)) :
    om.placeOrder cfg symIdx signal sendTs = none := by
  unfold placeOrder
  simp [schedule_fault bad]

theorem placeOrder_done (ok : om.Ok cfg) (good : 0 < cfg.delayTicks ∧ cfg.delayTicks < om.timeoutWheel.wheelSize) :
    ∃ out om', om.placeOrder cfg symIdx signal sendTs =
      some (om.outstanding.accepts DefaultHash.hash om.nextOrderId, out, om') := by
  obtain ⟨handle, wheel, scheduled⟩ := schedule_done om.nextOrderId good
  have wheelOk := ok.wheel.schedule scheduled
  obtain ⟨_, cancelledWheel, cancelled, _⟩ := wheelOk.cancel handle
  obtain ⟨table, inserted⟩ := ok.map.insert_accepts om.nextOrderId
    ⟨signal.side, signal.price, signal.qty, signal.symbolId, sendTs, handle⟩
  unfold placeOrder
  simp only [scheduled, bind_eq_bind, bind_some, HashMap.Ok.insert_eq ok.map, inserted]
  cases om.outstanding.accepts DefaultHash.hash om.nextOrderId with
  | false =>
    simp only [Bool.not_false, if_true, cancelled, bind_some, Option.pure_def]
    exact ⟨_, _, rfl⟩
  | true => exact ⟨_, _, rfl⟩

/-! ### The call -/

theorem onSignal_early (known : cfg.symbolIndex signal.symbolId = some symIdx) (failed : ¬ EarlyChecks cfg om signal)
    (now sendTs : Int) (out : NewOrder) :
    ∃ om', om.onSignal cfg signal now sendTs out = some (false, out, om') ∧ Untouched om om' := by
  obtain rfl := symbolIndex_pred known
  have refused : ∀ stat, Untouched om (om.count stat 1) := fun stat => rfl
  unfold onSignal
  simp only [known, bind_eq_bind, bind_some]
  split
  · exact ⟨_, rfl, refused _⟩
  rename_i normal
  split
  · exact ⟨_, rfl, refused _⟩
  rename_i room
  split
  · exact ⟨_, rfl, refused _⟩
  rename_i symbolRoom
  split
  · exact ⟨_, rfl, refused _⟩
  rename_i size
  split
  · exact ⟨_, rfl, refused _⟩
  rename_i notional
  exact absurd ⟨by simpa using normal, by omega, by omega, by omega, by omega⟩ failed

theorem onSignal_late (known : cfg.symbolIndex signal.symbolId = some symIdx) (early : EarlyChecks cfg om signal)
    (now sendTs : Int) (out : NewOrder) :
    om.onSignal cfg signal now sendTs out = (om.refill cfg now).bind fun om₁ =>
      if om₁.tokens = 0 then some (false, out, om₁.count .riskRejectsRate 1)
      else if cfg.maxPosition < absPosition (om₁.projectedPosition symIdx signal) then
        some (false, out, om₁.count .riskRejectsPosition 1)
      else om₁.placeOrder cfg symIdx signal sendTs := by
  obtain ⟨normal, room, symbolRoom, size, notional⟩ := early
  obtain rfl := symbolIndex_pred known
  unfold onSignal
  simp only [known, bind_eq_bind, bind_some, normal, Nat.not_le.mpr room, Nat.not_le.mpr symbolRoom,
    Nat.not_lt.mpr size, Int.not_lt.mpr notional, ne_eq, not_true_eq_false, if_false]

theorem decides_of_refusal (fails : ¬ Passes cfg om signal now) (untouched : Untouched om om')
    (refused : om.onSignal cfg signal now sendTs out = some (false, out, om')) : Decides cfg om signal now sendTs out :=
  ⟨false, out, om', refused, by simp [fails], fun _ => ⟨rfl, untouched⟩⟩

theorem Untouched.ok (untouched : Untouched om om₁) (ok : om.Ok cfg) : om₁.Ok cfg := by
  unfold Untouched at untouched
  rw [untouched]
  exact { ok with }

theorem Untouched.place (untouched : Untouched om om₁) : om₁.outstanding = om.outstanding ∧
    om₁.nextOrderId = om.nextOrderId ∧ om₁.timeoutWheel = om.timeoutWheel ∧ om₁.netPosition = om.netPosition := by
  unfold Untouched at untouched
  rw [untouched]
  exact ⟨rfl, rfl, rfl, rfl⟩

/-- The call of a signal that passes every check is decided by the wheel and the map. -/
theorem decides_of_passes (ok : om₁.Ok cfg) (untouched : Untouched om om₁) (passes : Passes cfg om signal now)
    (placed : om.onSignal cfg signal now sendTs out = om₁.placeOrder cfg symIdx signal sendTs) :
    Decides cfg om signal now sendTs out ↔ 0 < cfg.delayTicks ∧ cfg.delayTicks < om.timeoutWheel.wheelSize ∧
      om.outstanding.accepts DefaultHash.hash om.nextOrderId = true := by
  obtain ⟨map, next, wheel, _⟩ := untouched.place
  by_cases good : 0 < cfg.delayTicks ∧ cfg.delayTicks < om₁.timeoutWheel.wheelSize
  · obtain ⟨out', om', done⟩ := placeOrder_done ok good
    rw [map, next] at done
    rw [wheel] at good
    have returned := placed.trans done
    constructor
    · intro ⟨generated, _, _, answer, decided, _⟩
      refine ⟨good.1, good.2, ?_⟩
      rw [answer] at returned
      rw [← (Prod.mk.inj (some.inj returned)).1]
      exact decided.mpr passes
    · intro ⟨_, _, accepts⟩
      rw [accepts] at returned
      exact ⟨true, out', om', returned, by simp [passes], by simp⟩
  · have fault := placed.trans (placeOrder_fault good)
    rw [wheel] at good
    constructor
    · intro ⟨_, _, _, returned, _⟩
      rw [fault] at returned
      cases returned
    · intro ⟨positive, small, _⟩
      exact absurd ⟨positive, small⟩ good

theorem onSignal_decides_iff (ok : om.Ok cfg) (known : cfg.symbolIndex signal.symbolId = some symIdx) :
    Decides cfg om signal now sendTs out ↔ Ready cfg om signal now := by
  by_cases early : EarlyChecks cfg om signal
  swap
  · obtain ⟨om', refused, untouched⟩ := onSignal_early known early now sendTs out
    have fails : ¬ Passes cfg om signal now := fun passes => early passes.toEarlyChecks
    have ready : Ready cfg om signal now := ⟨fun checks => absurd checks early, fun passes => absurd passes fails⟩
    exact iff_of_true (decides_of_refusal fails untouched refused) ready
  have late := onSignal_late known early now sendTs out
  by_cases divides : RefillDue cfg om now → cfg.refillIntervalNs ≠ 0
  swap
  · obtain ⟨due, zero⟩ : RefillDue cfg om now ∧ cfg.refillIntervalNs = 0 := by simpa using divides
    rw [refill_fault due zero, bind_none] at late
    refine iff_of_false (fun ⟨_, _, _, returned, _⟩ => ?_) fun ready => divides (ready.refill early)
    rw [late] at returned
    cases returned
  obtain ⟨om₁, refilled, tokens, untouched⟩ := refill_done divides
  rw [refilled, bind_some] at late
  -- What is left is the token check, the position check and the order itself.
  by_cases passes : Passes cfg om signal now
  · have token : ¬ om₁.tokens = 0 := Nat.ne_of_gt (tokens ▸ passes.token)
    have position : ¬ cfg.maxPosition < absPosition (om₁.projectedPosition symIdx signal) := by
      rw [projectedPosition, untouched.place.2.2.2, symbolIndex_pred known]
      exact Int.not_lt.mpr passes.position
    rw [if_neg token, if_neg position] at late
    rw [decides_of_passes (untouched.ok ok) untouched passes late]
    constructor
    · intro places
      exact ⟨fun _ => divides, fun _ => places⟩
    · intro ready
      exact ready.place passes
  · have ready : Ready cfg om signal now := ⟨fun _ => divides, fun fine => absurd fine passes⟩
    refine iff_of_true ?_ ready
    by_cases token : om₁.tokens = 0
    · rw [if_pos token] at late
      exact decides_of_refusal passes (untouched.counted _ _) late
    by_cases position : cfg.maxPosition < absPosition (om₁.projectedPosition symIdx signal)
    · rw [if_neg token, if_pos position] at late
      exact decides_of_refusal passes (untouched.counted _ _) late
    · refine absurd ⟨early, ?_, ?_⟩ passes
      · rw [← tokens]
        exact Nat.pos_of_ne_zero token
      · rw [projectedPosition, untouched.place.2.2.2, symbolIndex_pred known] at position
        exact Int.not_lt.mp position

/-- One order is always outstanding, and the one before it is rejected. -/
def churnOps : Nat → List Op
  | 0 => [.signal (buy 1) 0 0]
  | n + 1 => churnOps n ++ [.signal (buy 1) 0 0, .orderReject { clientOrderId := n + 1 }]

/-- In every reachable state, a call for a symbol of the manager decides by the seven checks and is atomic
exactly if the steps behind the checks go through. -/
theorem run_decides_iff {symIdx : Nat} (created : create cfg = some om) (ran : Logged.run cfg ops { om } = some a)
    (known : cfg.symbolIndex signal.symbolId = some symIdx) :
    Decides cfg a.om signal now sendTs out ↔ Ready cfg a.om signal now :=
  onSignal_decides_iff (run_ok created ran) known

/-- After three rounds the map has three tombstones and still takes order 5. -/
theorem run_decides_iff_churned : ∃ a, create smallConfig = some smallManager ∧
    Logged.run smallConfig (churnOps 3) { om := smallManager } = some a ∧ a.om.outstanding.tombstones = 3 ∧
    smallConfig.symbolIndex (buy 1).symbolId = some 0 ∧ Ready smallConfig a.om (buy 1) 0 ∧
    Decides smallConfig a.om (buy 1) 0 0 blankOrder := by
  obtain ⟨a, ran, tombstones, ready⟩ : ∃ a, Logged.run smallConfig (churnOps 3) { om := smallManager } = some a ∧
      a.om.outstanding.tombstones = 3 ∧ Ready smallConfig a.om (buy 1) 0 := by decide +kernel
  exact ⟨a, create_smallManager, ran, tombstones, rfl, ready, (run_decides_iff create_smallManager ran rfl).mpr ready⟩

/-- After 17 rounds one order is outstanding, a signal passes all checks, and the tombstones in the map of
eight slots make it refuse order 19. -/
theorem run_not_decides : ∃ a, create smallConfig = some smallManager ∧
    Logged.run smallConfig (churnOps 17) { om := smallManager } = some a ∧ a.om.outstandingCount = 1 ∧
    a.om.nextOrderId = 19 ∧ ¬ Decides smallConfig a.om (buy 1) 0 0 blankOrder := by
  obtain ⟨a, ran, count, next, passes, ⟨_, out', om'⟩, returned, rfl⟩ :
      ∃ a, Logged.run smallConfig (churnOps 17) { om := smallManager } = some a ∧ a.om.outstandingCount = 1 ∧
      a.om.nextOrderId = 19 ∧ Passes smallConfig a.om (buy 1) 0 ∧
      ∃ result, a.om.onSignal smallConfig (buy 1) 0 0 blankOrder = some result ∧ result.1 = false := by decide +kernel
  refine ⟨a, create_smallManager, ran, count, next, ?_⟩
  rintro ⟨generated', _, _, again, decided, _⟩
  obtain ⟨rfl, _⟩ := Prod.mk.inj (mem_unique returned again)
  exact Bool.false_ne_true (decided.mpr passes)

end TickToTrade.Oms
