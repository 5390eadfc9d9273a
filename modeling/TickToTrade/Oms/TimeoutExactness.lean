import TickToTrade.Oms.OrderTimers

/-!
When an order times out: the ticks left on a timer and the time since the wheel was advanced add up to
the timeout of the order.
-/

namespace TickToTrade.Oms
open Ds Probing OrderManager List Function
open Config (kTickIntervalNs)
open Logged (Along run step_eq_some)

variable {cfg : Config} {om om' : OrderManager} {id : Nat} {op : Op} {sent : List Request} {nowNs : Int}

/-- The timeout is a whole number of milliseconds inside the wheel, and the wheel has a timer for every order. -/
structure Config.TimesOutAfter (cfg : Config) (ms : Nat) : Prop where
  positive : 1 ≤ ms
  inside : ms < cfg.timeoutWheelSize
  timeout : cfg.orderTimeoutNs = ms * kTickIntervalNs
  timers : cfg.maxOutstanding ≤ cfg.timeoutMaxTimers

/-- The clock is not behind its start, and the wheel is not so late that the number of ticks wraps. -/
def InStep (om : OrderManager) : Op → Prop
  | .advanceTimeouts nowNs => 0 ≤ nowNs ∧ nowNs < 2 ^ 63 ∧ nowNs - om.lastAdvanceNs < 2 ^ 32 * kTickIntervalNs
  | _ => True

structure Timely (om : OrderManager) (op : Op) : Prop where
  normal : om.killSwitchState = .kNormal
  ends : EndsTracked om op
  inStep : InStep om op

instance : Decidable (InStep om op) := by
  cases op <;> unfold InStep <;> infer_instance

instance : Decidable (Timely om op) :=
  decidable_of_iff (om.killSwitchState = .kNormal ∧ EndsTracked om op ∧ InStep om op)
    ⟨fun ⟨normal, ends, inStep⟩ => ⟨normal, ends, inStep⟩, fun ⟨normal, ends, inStep⟩ => ⟨normal, ends, inStep⟩⟩

structure Clock (cfg : Config) (om : OrderManager) : Prop where
  timed : Timed cfg om
  started : 0 ≤ om.lastAdvanceNs
  fits : om.lastAdvanceNs < 2 ^ 63

section

variable (clock : Clock cfg om) (inStep : InStep om (.advanceTimeouts nowNs))
include clock inStep

theorem Clock.elapsed : toInt64 (nowNs - om.lastAdvanceNs) = nowNs - om.lastAdvanceNs := by
  obtain ⟨nonneg, fits, -⟩ := inStep
  have started := clock.started
  have bound := clock.fits
  exact toInt64_of_fits (by omega) (by omega)

theorem Clock.ticks (later : om.lastAdvanceNs ≤ nowNs) :
    (om.elapsedTicks nowNs : Int) = (nowNs - om.lastAdvanceNs) / kTickIntervalNs := by
  have near := inStep.2.2
  unfold OrderManager.elapsedTicks
  rw [clock.elapsed inStep, Int.tdiv_eq_ediv_of_nonneg (by omega)]
  unfold kTickIntervalNs at near ⊢
  omega

/-- The wheel is advanced past its last time, and not past the time of the call. -/
theorem Clock.reached
    (due : kTickIntervalNs ≤ toInt64 (nowNs - om.lastAdvanceNs)) :
    toInt64 (om.lastAdvanceNs + om.elapsedTicks nowNs * kTickIntervalNs) =
      om.lastAdvanceNs + (nowNs - om.lastAdvanceNs) / kTickIntervalNs * kTickIntervalNs := by
  have started := clock.started
  have fits := inStep.2.1
  rw [clock.elapsed inStep] at due
  have later : om.lastAdvanceNs ≤ nowNs := by
    unfold kTickIntervalNs at due
    omega
  rw [clock.ticks inStep later]
  unfold kTickIntervalNs at due ⊢
  exact toInt64_of_fits (by omega) (by omega)

end

theorem Clock.step {a a' : Logged} (timers : cfg.maxOutstanding ≤ cfg.timeoutMaxTimers) (clock : Clock cfg a.om)
    (timely : Timely a.om op) (stepped : a.step cfg op = some a') : Clock cfg a'.om := by
  have timed := clock.timed.step timers timely.ends stepped
  obtain ⟨sent, om', applied, rfl⟩ := Logged.step_eq_some.mp stepped
  have same : om'.lastAdvanceNs = a.om.lastAdvanceNs → Clock cfg om' :=
    fun last => ⟨timed, last ▸ clock.started, last ▸ clock.fits⟩
  obtain ⟨-, step⟩ := clock.timed.apply timers timely.ends applied
  cases step with
  | kept _ _ last => exact same last
  | entered _ _ _ last => exact same last
  | dropped _ _ _ _ last => exact same last
  | early unchanged => exact same (by rw [unchanged])
  | @expired nowNs _ _ expiry =>
    have last := expiry.last.trans (clock.reached timely.inStep expiry.due)
    have started := clock.started
    have fits := timely.inStep.2.1
    have due := expiry.due
    rw [clock.elapsed timely.inStep] at due
    unfold kTickIntervalNs at last due
    exact ⟨timed, by dsimp only; omega, by dsimp only; omega⟩
  | killed _ last => exact same last

/-! ### One order -/

/-- Neither a response nor a call of `advance_timeouts` has ended the wait of the order that was sent at `start`. -/
def StillDue (ms : Nat) (start : Int) (id : Nat) (log : List Event) : Prop :=
  ∀ e ∈ log, e.op.drops ≠ some id ∧ ∀ nowNs, e.op = .advanceTimeouts nowNs → (nowNs - start) / kTickIntervalNs < ms

/-- The order is tracked, and its timer rings when the timeout has passed since `start`. -/
def Waits (om : OrderManager) (ms : Nat) (start : Int) (id : Nat) : Prop :=
  ∃ info left, om.outstanding.content id = some info ∧ om.timeoutWheel.Alarm info.timerHandle id left ∧
    om.lastAdvanceNs + left * kTickIntervalNs = start + ms * kTickIntervalNs

/-- While the order is due it waits under its id; afterwards it is gone, and its id may name another order. -/
inductive Followed (ms : Nat) (start : Int) (id : Nat) (a : Logged) : Prop
  | waiting (due : StillDue ms start id a.log) (fresh : ∀ e ∈ a.log, e.issued id = none)
    (waits : Waits a.om ms start id)
  | gone (past : ¬ StillDue ms start id a.log)
    (absent : a.om.outstanding.content id = none ∨ ∃ e ∈ a.log, e.issued id ≠ none)

variable {ms : Nat} {start : Int} {a a' : Logged} {log : List Event}

theorem stillDue_cons {e : Event} : StillDue ms start id (e :: log) ↔ (e.op.drops ≠ some id ∧
    ∀ nowNs, e.op = .advanceTimeouts nowNs → (nowNs - start) / kTickIntervalNs < ms) ∧ StillDue ms start id log :=
  forall_mem_cons

theorem issued_eq_none (others : ∀ out, .newOrder out ∈ sent → out.clientOrderId ≠ id) :
    (⟨op, sent⟩ : Event).issued id = none := by
  refine findSome?_eq_none_iff.mpr fun request member => ?_
  cases request with
  | newOrder out => exact if_neg (others out member)
  | modifyOrder | cancelOrder => rfl

theorem gone_step {om : OrderManager} (past : ¬ StillDue ms start id log)
    (absent : om.outstanding.content id = none ∨ ∃ e ∈ log, e.issued id ≠ none) (step : TimerStep cfg om om' op sent)
    (normal : om'.killSwitchState = .kNormal) : Followed ms start id { om := om', log := ⟨op, sent⟩ :: log } := by
  refine .gone (fun due => past (stillDue_cons.mp due).2) ?_
  rcases absent with absent | ⟨e, member, reissued⟩
  · cases step with
    | kept content => exact .inl (by rw [content, absent])
    | @entered _ _ _ out _ _ content =>
      by_cases same : out.clientOrderId = id
      · exact .inr ⟨_, mem_cons_self, by simp [Event.issued, same]⟩
      · exact .inl (by rw [content, update_of_ne (Ne.symm same), absent])
    | @dropped _ other _ _ _ content =>
      left
      rw [content]
      by_cases same : id = other
      · rw [same, update_self]
      · rw [update_of_ne same, absent]
    | early unchanged => exact .inl (by rw [unchanged, absent])
    | @expired _ _ ids expiry =>
      left
      by_cases fired : id ∈ ids
      · exact expiry.gone id fired
      · rw [expiry.kept id fired, absent]
    | killed killed => exact absurd normal killed
  · exact .inr ⟨e, mem_cons_of_mem _ member, reissued⟩

/-- The timer rings within the ticks of a call exactly if the timeout has passed by then. -/
theorem Clock.rings_iff (clock : Clock cfg om) (inStep : InStep om (.advanceTimeouts nowNs))
    (later : om.lastAdvanceNs ≤ nowNs) {left : Nat}
    (waits : om.lastAdvanceNs + left * kTickIntervalNs = start + ms * kTickIntervalNs) :
    left ≤ om.elapsedTicks nowNs ↔ (ms : Int) ≤ (nowNs - start) / kTickIntervalNs := by
  have ticks := clock.ticks inStep later
  unfold kTickIntervalNs at ticks waits ⊢
  omega

theorem Clock.early (clock : Clock cfg om) (inStep : InStep om (.advanceTimeouts nowNs))
    (early : toInt64 (nowNs - om.lastAdvanceNs) < kTickIntervalNs) {left : Nat} (positive : 0 < left)
    (waits : om.lastAdvanceNs + left * kTickIntervalNs = start + ms * kTickIntervalNs) :
    (nowNs - start) / kTickIntervalNs < ms := by
  rw [clock.elapsed inStep] at early
  unfold kTickIntervalNs at early waits ⊢
  omega

theorem waiting_step {om : OrderManager} (clock : Clock cfg om) (due : StillDue ms start id log)
    (fresh : ∀ e ∈ log, e.issued id = none)
    (waits : Waits om ms start id) (timely : Timely om op) (step : TimerStep cfg om om' op sent)
    (normal : om'.killSwitchState = .kNormal) : Followed ms start id { om := om', log := ⟨op, sent⟩ :: log } := by
  obtain ⟨info, left, found, alarm, ends⟩ := waits
  have stays : op.drops ≠ some id → (∀ nowNs, op = .advanceTimeouts nowNs → (nowNs - start) / kTickIntervalNs < ms) →
      (∀ out, .newOrder out ∈ sent → out.clientOrderId ≠ id) → Waits om' ms start id →
      Followed ms start id { om := om', log := ⟨op, sent⟩ :: log } := by
    intro kept before others waits
    refine .waiting (stillDue_cons.mpr ⟨⟨kept, before⟩, due⟩)
      (forall_mem_cons.mpr ⟨issued_eq_none others, fresh⟩) waits
  cases step with
  | kept content alarms last unknown orders other =>
    refine stays (fun dropped => ?_) (fun nowNs same => absurd same (other nowNs))
      (fun out member => absurd member (orders out))
      ⟨info, left, content ▸ found, (alarms _ _ _).mpr alarm, last ▸ ends⟩
    exact nomatch found.symm.trans (unknown id dropped)
  | @entered _ _ _ out _ absent content alarms last =>
    have other : id ≠ out.clientOrderId := by
      rintro rfl
      exact nomatch found.symm.trans absent
    refine stays nofun nofun (fun out' member => ?_) ⟨info, left, ?_, (alarms _ _ _).mpr (.inl alarm), last ▸ ends⟩
    · obtain rfl := Request.newOrder.inj (mem_singleton.mp member)
      exact other.symm
    · rwa [content, update_of_ne other]
  | @dropped op gone info' drops there content alarms last =>
    by_cases same : gone = id
    · subst same
      refine .gone (fun due => (stillDue_cons.mp due).1.1 drops) (.inl ?_)
      rw [content, update_self]
    · refine stays (fun dropped => same (Option.mem_unique drops dropped)) ?_ (by simp)
        ⟨info, left, ?_, (alarms _ _ _).mpr ⟨alarm, fun handle => ?_⟩, last ▸ ends⟩
      · rintro nowNs rfl
        cases drops
      · rwa [content, update_of_ne (Ne.symm same)]
      · exact same (clock.timed.own timely.normal found there handle).symm
  | @early nowNs unchanged idle =>
    subst unchanged
    refine stays nofun (fun t same => ?_) (by simp) ⟨info, left, found, alarm, ends⟩
    obtain rfl := Op.advanceTimeouts.inj same
    have positive := (TimingWheel.Alarm.bounds clock.timed.clocked alarm).1
    exact clock.early timely.inStep (idle.resolve_left (not_not.mpr timely.normal)) positive ends
  | @expired nowNs batch ids expiry =>
    have later : om.lastAdvanceNs ≤ nowNs := by
      have due := expiry.due
      rw [clock.elapsed timely.inStep] at due
      unfold kTickIntervalNs at due
      omega
    have rings := clock.rings_iff timely.inStep later ends
    have fired := clock.timed.not_fired timely.normal expiry alarm
    by_cases member : id ∈ ids
    · refine .gone (fun due => ?_) (.inl (expiry.gone id member))
      have before := (stillDue_cons.mp due).1.2 nowNs rfl
      have most : left ≤ om.elapsedTicks nowNs := Nat.not_lt.mp fun more => fired.mpr more member
      exact absurd (rings.mp most) (Int.not_le.mpr before)
    · have more := fired.mp member
      refine stays nofun (fun t same => ?_)
        (by simp) ⟨info, left - om.elapsedTicks nowNs, ?_, (expiry.alarms _ _ _).mpr ⟨?_, by omega⟩, ?_⟩
      · obtain rfl := Op.advanceTimeouts.inj same
        exact Int.not_le.mp fun most => absurd (rings.mpr most) (Nat.not_le.mpr more)
      · rwa [expiry.kept id member]
      · rwa [Nat.sub_add_cancel (Nat.le_of_lt more)]
      · have last := expiry.last.trans (clock.reached timely.inStep expiry.due)
        rw [← clock.ticks timely.inStep later] at last
        rw [last, ← ends]
        unfold kTickIntervalNs
        omega
  | killed killed => exact absurd normal killed

/-- What is known of an order in every state after it was sent. -/
structure FollowsOrder (cfg : Config) (ms : Nat) (start : Int) (id : Nat) (a : Logged) : Prop where
  clock : Clock cfg a.om
  followed : a.om.killSwitchState = .kNormal → Followed ms start id a

theorem FollowsOrder.step (timers : cfg.maxOutstanding ≤ cfg.timeoutMaxTimers)
    (follows : FollowsOrder cfg ms start id a)
    (timely : Timely a.om op) (stepped : a.step cfg op = some a') : FollowsOrder cfg ms start id a' := by
  refine ⟨follows.clock.step timers timely stepped, fun normal => ?_⟩
  obtain ⟨sent, om', applied, rfl⟩ := Logged.step_eq_some.mp stepped
  obtain ⟨-, step⟩ := follows.clock.timed.apply timers timely.ends applied
  cases follows.followed timely.normal with
  | waiting due fresh waits => exact waiting_step follows.clock due fresh waits timely step normal
  | gone past absent => exact gone_step past absent step normal

theorem Config.TimesOutAfter.delayTicks (after : cfg.TimesOutAfter ms) (size : cfg.timeoutWheelSize ∣ 2 ^ 64) :
    cfg.delayTicks = ms := by
  have bound := Nat.le_of_dvd (by decide) size
  have inside := after.inside
  unfold Config.delayTicks
  rw [after.timeout, Int.mul_tdiv_cancel _ (by decide)]
  omega

/-- The order of an accepted signal waits from the time at which the wheel stands. -/
theorem Clock.follow (clock : Clock cfg om) (after : cfg.TimesOutAfter ms) {signal : Signal} {now sendTs : Int}
    {out out' : NewOrder} (accepted : om.onSignal cfg signal now sendTs out = some (true, out', om')) :
    FollowsOrder cfg ms om.lastAdvanceNs out'.clientOrderId { om := om' } := by
  have ended := onSignal_cases accepted
  obtain ⟨frame, step⟩ := clock.timed.placed after.timers ended
  have tallied := clock.timed.tallied.enter (ended.placed clock.timed.tallied.ok)
  have timed := clock.timed.next frame step tallied
  have delay := after.delayTicks (clock.timed.wheelSize ▸ clock.timed.clocked.size)
  cases step with
  | kept _ _ _ _ orders => exact absurd mem_cons_self (orders out')
  | @entered _ _ _ _ info absent content alarms last =>
    refine ⟨⟨timed, last ▸ clock.started, last ▸ clock.fits⟩, fun _ => .waiting nofun nofun ⟨info, ms, ?_, ?_, ?_⟩⟩
    · rw [content, update_self]
    · exact (alarms _ _ _).mpr (.inr ⟨rfl, rfl, delay.symm⟩)
    · rw [last]

/-- The batch of the next call names the order exactly if the order is still due and its timeout has passed. -/
theorem FollowsOrder.advance (follows : FollowsOrder cfg ms start id a)
    (timely : Timely a.om (.advanceTimeouts nowNs)) : ∃ batch om', a.om.advanceTimeouts cfg nowNs = some (batch, om') ∧
      (((∃ cancel ∈ batch, cancel.clientOrderId = id) ∧ ∀ e ∈ a.log, e.issued id = none) ↔
        StillDue ms start id a.log ∧ (ms : Int) ≤ (nowNs - start) / kTickIntervalNs) := by
  have clock := follows.clock
  by_cases early : toInt64 (nowNs - a.om.lastAdvanceNs) < kTickIntervalNs
  · refine ⟨[], a.om, advanceTimeouts_idle (.inr early), iff_of_false (by simp) ?_⟩
    rintro ⟨due, most⟩
    cases follows.followed timely.normal with
    | waiting _ _ waits =>
      obtain ⟨info, left, -, alarm, ends⟩ := waits
      have positive := (TimingWheel.Alarm.bounds clock.timed.clocked alarm).1
      exact absurd most (Int.not_le.mpr (clock.early timely.inStep early positive ends))
    | gone past => exact past due
  · have reached := Int.not_lt.mp early
    have later : a.om.lastAdvanceNs ≤ nowNs := by
      rw [clock.elapsed timely.inStep] at reached
      unfold kTickIntervalNs at reached
      omega
    obtain ⟨batch, ids, om', returns, expiry⟩ := clock.timed.advance timely.normal reached
    refine ⟨batch, om', returns, ?_⟩
    rw [expiry.batch]
    cases follows.followed timely.normal with
    | waiting due fresh waits =>
      obtain ⟨info, left, -, alarm, ends⟩ := waits
      have fired := clock.timed.not_fired timely.normal expiry alarm
      rw [← clock.rings_iff timely.inStep later ends, ← Nat.not_lt, ← fired, not_not]
      exact ⟨fun ⟨member, _⟩ => ⟨due, member⟩, fun ⟨_, member⟩ => ⟨member, fresh⟩⟩
    | gone past absent =>
      refine iff_of_false ?_ fun ⟨due, _⟩ => past due
      rintro ⟨member, fresh⟩
      rcases absent with absent | ⟨e, listed, reissued⟩
      · obtain ⟨h, left, -, alarm⟩ := (expiry.fired id).mp member
        obtain ⟨info, found, -⟩ := clock.timed.tracked timely.normal h id left alarm
        exact nomatch absent.symm.trans found
      · exact reissued (fresh e listed)

theorem create_clock (created : create cfg = some om) : Clock cfg om := by
  have timed := create_timed created
  rw [(create_ok created).2.2] at timed ⊢
  exact ⟨timed, Int.le_refl 0, (by decide : (0 : Int) < 2 ^ 63)⟩

/-- An order is cancelled for lateness by the first call at which its timeout has passed, and by no other. -/
theorem advanceTimeouts_exact {sentAt : Logged} {before ops : List Op} {signal : Signal} {now sendTs : Int}
    {out out' : NewOrder} (after : cfg.TimesOutAfter ms) (created : create cfg = some om)
    (timelyBefore : Along cfg (fun a op => Timely a.om op) before { om })
    (ranBefore : run cfg before { om } = some sentAt)
    (accepted : sentAt.om.onSignal cfg signal now sendTs out = some (true, out', om'))
    (timely : Along cfg (fun a op => Timely a.om op) ops { om := om' }) (ran : run cfg ops { om := om' } = some a)
    (timelyNow : Timely a.om (.advanceTimeouts nowNs)) :
    ∃ batch om'', a.om.advanceTimeouts cfg nowNs = some (batch, om'') ∧
      (((∃ cancel ∈ batch, cancel.clientOrderId = out'.clientOrderId) ∧
        ∀ e ∈ a.log, e.issued out'.clientOrderId = none) ↔
        StillDue ms sentAt.om.lastAdvanceNs out'.clientOrderId a.log ∧
          (ms : Int) ≤ (nowNs - sentAt.om.lastAdvanceNs) / kTickIntervalNs) := by
  have start : Clock cfg ({ om } : Logged).om := create_clock created
  have clock := Transition.run_invariant (Clock.step after.timers) start timelyBefore ranBefore
  have follows := Transition.run_invariant (FollowsOrder.step after.timers) (clock.follow after accepted) timely ran
  exact follows.advance timelyNow

/-- The wheel stands at one millisecond when the order is sent, and half a millisecond is carried over. -/
theorem advanceTimeouts_exact_small : ∃ sentAt out om' a batch om'',
    run smallConfig [.advanceTimeouts 1500000] { om := smallManager } = some sentAt ∧
    sentAt.om.onSignal smallConfig (buy 5) 0 0 blankOrder = some (true, out, om') ∧
    run smallConfig [.advanceTimeouts 2900000] { om := om' } = some a ∧
    a.om.advanceTimeouts smallConfig 3000000 = some (batch, om'') ∧
    (((∃ cancel ∈ batch, cancel.clientOrderId = out.clientOrderId) ∧ ∀ e ∈ a.log, e.issued out.clientOrderId = none) ↔
      StillDue 2 sentAt.om.lastAdvanceNs out.clientOrderId a.log ∧
        ((2 : Nat) : Int) ≤ (3000000 - sentAt.om.lastAdvanceNs) / kTickIntervalNs) := by
  have after : smallConfig.TimesOutAfter 2 := ⟨by decide, by decide, by decide, by decide⟩
  obtain ⟨sentAt, ranBefore, ⟨_, out, om'⟩, accepted, rfl, timely, a, ran, now⟩ :
      ∃ sentAt, run smallConfig [.advanceTimeouts 1500000] { om := smallManager } = some sentAt ∧
      ∃ accepted, sentAt.om.onSignal smallConfig (buy 5) 0 0 blankOrder = some accepted ∧ accepted.1 = true ∧
      Along smallConfig (fun a op => Timely a.om op) [.advanceTimeouts 2900000] { om := accepted.2.2 } ∧
      ∃ a, run smallConfig [.advanceTimeouts 2900000] { om := accepted.2.2 } = some a ∧
        Timely a.om (.advanceTimeouts 3000000) := by decide +kernel
  have timelyBefore : Along smallConfig (fun a op => Timely a.om op) [.advanceTimeouts 1500000]
      { om := smallManager } := by decide +kernel
  obtain ⟨batch, om'', returns, exact⟩ :=
    advanceTimeouts_exact after create_smallManager timelyBefore ranBefore accepted timely ran now
  exact ⟨sentAt, out, om', a, batch, om'', ranBefore, accepted, ran, returns, exact⟩

end TickToTrade.Oms
