import TickToTrade.Oms.TrackedOrders
import TickToTrade.Ds.TimerAlarms

/-!
The timers of the tracked orders. While the kill switch is normal the alarms of the wheel are exactly
the timers of the orders in `outstanding_`.
-/

namespace TickToTrade.Oms
open Ds Probing OrderManager List Option Function
open TimingWheel (Clocked SameSize Ticked Rings recording)

variable {cfg : Config} {om om₁ om' : OrderManager} {id : Nat} {op : Op} {sent : List Request}
variable {ids : List Nat} {nowNs : Int} {batch : List CancelOrder}

/-- Every tracked order has an alarm of its own, and every alarm is of a tracked order. -/
structure Timed (cfg : Config) (om : OrderManager) : Prop where
  tallied : Tallied cfg om
  clocked : om.timeoutWheel.Clocked
  wheelSize : om.timeoutWheel.wheelSize = cfg.timeoutWheelSize
  maxTimers : om.timeoutWheel.maxTimers = cfg.timeoutMaxTimers
  armed : om.killSwitchState = .kNormal → ∀ id info, om.outstanding.content id = some info →
    ∃ left, om.timeoutWheel.Alarm info.timerHandle id left
  tracked : om.killSwitchState = .kNormal → ∀ h id left, om.timeoutWheel.Alarm h id left →
    ∃ info, om.outstanding.content id = some info ∧ info.timerHandle = h

theorem Timed.few (timed : Timed cfg om) (normal : om.killSwitchState = .kNormal) {handles : List Nat}
    (nodup : handles.Nodup) (alarms : ∀ h ∈ handles, ∃ id left, om.timeoutWheel.Alarm h id left) :
    handles.length ≤ om.outstanding.entries.length := by
  have subset : handles ⊆ om.outstanding.entries.map fun entry => entry.2.timerHandle := by
    intro h member
    obtain ⟨id, left, alarm⟩ := alarms h member
    obtain ⟨info, found, rfl⟩ := timed.tracked normal h id left alarm
    exact List.mem_map.mpr ⟨(id, info), timed.tallied.ok.map.content_eq_some.mp found, rfl⟩
  simpa using (Nodup.subperm nodup subset).length_le

/-! ### What a call does to the orders and the alarms -/

structure TimerFrame (om om' : OrderManager) : Prop where
  clocked : om'.timeoutWheel.Clocked
  size : om.timeoutWheel.SameSize om'.timeoutWheel
  normal : om'.killSwitchState = .kNormal → om.killSwitchState = .kNormal

/-- The orders of the fired timers are closed and cancelled, and the other alarms come nearer. -/
structure Expiry (om om' : OrderManager) (nowNs : Int) (batch : List CancelOrder) (ids : List Nat) : Prop where
  due : Config.kTickIntervalNs ≤ toInt64 (nowNs - om.lastAdvanceNs)
  last : om'.lastAdvanceNs = toInt64 (om.lastAdvanceNs + om.elapsedTicks nowNs * Config.kTickIntervalNs)
  fired : ∀ id, id ∈ ids ↔ ∃ h left, left ≤ om.elapsedTicks nowNs ∧ om.timeoutWheel.Alarm h id left
  gone : ∀ id ∈ ids, om'.outstanding.content id = none
  kept : ∀ id, id ∉ ids → om'.outstanding.content id = om.outstanding.content id
  alarms : ∀ h id left, om'.timeoutWheel.Alarm h id left ↔
    om.timeoutWheel.Alarm h id (left + om.elapsedTicks nowNs) ∧ 0 < left
  batch : ∀ id, (∃ cancel ∈ batch, cancel.clientOrderId = id) ↔ id ∈ ids

inductive TimerStep (cfg : Config) (om om' : OrderManager) : Op → List Request → Prop
  | kept {op : Op} {sent : List Request} (content : om'.outstanding.content = om.outstanding.content)
    (alarms : ∀ h id left, om'.timeoutWheel.Alarm h id left ↔ om.timeoutWheel.Alarm h id left)
    (last : om'.lastAdvanceNs = om.lastAdvanceNs) (unknown : ∀ id ∈ op.drops, om.outstanding.content id = none)
    (orders : ∀ out, .newOrder out ∉ sent) (other : ∀ nowNs, op ≠ .advanceTimeouts nowNs) : TimerStep cfg om om' op sent
  | entered {signal : Signal} {now sendTs : Int} {out : NewOrder} {info : OrderInfo}
    (absent : om.outstanding.content out.clientOrderId = none)
    (content : om'.outstanding.content = update om.outstanding.content out.clientOrderId (some info))
    (alarms : ∀ h id left, om'.timeoutWheel.Alarm h id left ↔
      om.timeoutWheel.Alarm h id left ∨ (h = info.timerHandle ∧ id = out.clientOrderId ∧ left = cfg.delayTicks))
    (last : om'.lastAdvanceNs = om.lastAdvanceNs) : TimerStep cfg om om' (.signal signal now sendTs) [.newOrder out]
  | dropped {op : Op} {id : Nat} {info : OrderInfo} (drops : op.drops = some id)
    (found : om.outstanding.content id = some info)
    (content : om'.outstanding.content = update om.outstanding.content id none)
    (alarms : ∀ h id left, om'.timeoutWheel.Alarm h id left ↔ om.timeoutWheel.Alarm h id left ∧ h ≠ info.timerHandle)
    (last : om'.lastAdvanceNs = om.lastAdvanceNs) : TimerStep cfg om om' op []
  | early {nowNs : Int} (same : om' = om)
    (idle : om.killSwitchState ≠ .kNormal ∨ toInt64 (nowNs - om.lastAdvanceNs) < Config.kTickIntervalNs) :
    TimerStep cfg om om' (.advanceTimeouts nowNs) []
  | expired {nowNs : Int} {batch : List CancelOrder} {ids : List Nat} (expiry : Expiry om om' nowNs batch ids) :
    TimerStep cfg om om' (.advanceTimeouts nowNs) (batch.map .cancelOrder)
  | killed {now : Int} {sent : List Request} (killed : om'.killSwitchState ≠ .kNormal)
    (last : om'.lastAdvanceNs = om.lastAdvanceNs) : TimerStep cfg om om' (.triggerKillSwitch now) sent

/-! ### Responses -/

structure SameTimers (om om' : OrderManager) : Prop where
  outstanding : om'.outstanding = om.outstanding
  timeoutWheel : om'.timeoutWheel = om.timeoutWheel
  lastAdvanceNs : om'.lastAdvanceNs = om.lastAdvanceNs
  normal : om'.killSwitchState = .kNormal → om.killSwitchState = .kNormal

theorem SameTimers.step (same : SameTimers om om') (clocked : om.timeoutWheel.Clocked)
    (unknown : ∀ id ∈ op.drops, om.outstanding.content id = none) (orders : ∀ out, .newOrder out ∉ sent)
    (other : ∀ nowNs, op ≠ .advanceTimeouts nowNs) : TimerFrame om om' ∧ TimerStep cfg om om' op sent := by
  obtain ⟨map, wheel, last, normal⟩ := same
  refine ⟨⟨wheel ▸ clocked, wheel ▸ ⟨rfl, rfl⟩, normal⟩, .kept (by rw [map])
    (fun h c r => by rw [wheel]) last unknown orders other⟩

theorem checkDrainComplete_timers (om : OrderManager) : SameTimers om om.checkDrainComplete := by
  unfold checkDrainComplete
  split
  · refine ⟨rfl, rfl, rfl, fun normal => ?_⟩
    rcases ite_eq_iff.mp normal with ⟨-, complete⟩ | ⟨-, same⟩
    · cases complete
    · exact same
  · exact ⟨rfl, rfl, rfl, id⟩

theorem dropOrder_wheel {info : Option OrderInfo} (done : om.dropOrder cfg id info = some om') :
    om'.lastAdvanceNs = om.lastAdvanceNs ∧ (info = none → om'.timeoutWheel = om.timeoutWheel) ∧
      ∀ i, info = some i → ∃ found, om.timeoutWheel.cancel i.timerHandle = some (found, om'.timeoutWheel) := by
  have erase : ∀ {om₁ : OrderManager}, (do return (← om₁.eraseOutstanding id).maybeCompactOutstanding) = some om' →
      om'.lastAdvanceNs = om₁.lastAdvanceNs ∧ om'.timeoutWheel = om₁.timeoutWheel := by
    intro om₁ done
    obtain ⟨om₂, erased, done⟩ := bind_eq_some_iff.mp done
    cases done
    obtain ⟨⟨_, outstanding⟩, _, erased⟩ := bind_eq_some_iff.mp erased
    obtain ⟨outstanding', same⟩ := maybeCompactOutstanding_frame om₂
    rw [same, ← some.inj erased]
    exact ⟨rfl, rfl⟩
  unfold dropOrder at done
  cases info with
  | none =>
    obtain ⟨last, wheel⟩ := erase done
    exact ⟨last, fun _ => wheel, nofun⟩
  | some info =>
    obtain ⟨om₁, untracked, done⟩ := bind_eq_some_iff.mp done
    obtain ⟨⟨found, wheel⟩, cancelled, untracked⟩ := bind_eq_some_iff.mp untracked
    obtain ⟨symIdx, _, untracked⟩ := bind_eq_some_iff.mp untracked
    cases untracked
    obtain ⟨activeOrders, cleared⟩ :=
      clearActiveIfMatch_eq cfg { om with timeoutWheel := wheel } info.symbolId info.side id
    obtain ⟨last, same⟩ := erase done
    rw [cleared] at last same
    refine ⟨last, nofun, fun i equal => ⟨found, ?_⟩⟩
    rw [same, ← some.inj equal]
    exact cancelled

theorem Tallied.compact_content (tallied : Tallied cfg om) (compacted : Compacted om om') :
    om'.outstanding.content = om.outstanding.content := by
  rcases compacted.outstanding with same | ⟨empty, cleared⟩
  · rw [same]
  · have none : om.outstanding.entries = [] := eq_nil_of_length_eq_zero (tallied.entries ▸ empty)
    funext id
    rw [cleared, clear_content]
    by_contra found
    obtain ⟨info, found⟩ := ne_none_iff_exists'.mp (Ne.symm found)
    have member := tallied.ok.map.content_eq_some.mp found
    rw [none] at member
    cases member

theorem Tallied.settled_content (tallied : Tallied cfg om) (settled : Settled cfg om om' id)
    (tracked : (om.outstanding.content id).isSome = true ∨ om.outstandingCount = 0) :
    om'.outstanding.content = update om.outstanding.content id none := by
  obtain ⟨ok, om₁, ⟨info, _, closed⟩ | ⟨unknown, missed⟩, compacted⟩ := settled
  · rw [(tallied.close closed).compact_content compacted, closed.erased.content_eq tallied.ok.map]
  · have nothing : om.outstandingCount = 0 := by
      rcases tracked with known | nothing
      · simp [unknown] at known
      · exact nothing
    have same : Tracking om om₁ := by
      refine { missed with outstandingCount := ?_ }
      rw [missed.outstandingCount]
      omega
    rw [(tallied.of_tracking missed.ok same).compact_content compacted, missed.outstanding, ← unknown, update_eq_self]

theorem Timed.drop (timed : Timed cfg om) {netPosition : Nat → Int} (drops : op.drops = some id)
    (tracked : (om.outstanding.content id).isSome = true ∨ om.outstandingCount = 0)
    (done : ({ om with netPosition } : OrderManager).dropOrder cfg id (om.outstanding.content id) = some om₁)
    (same : SameTimers om₁ om') : TimerFrame om om' ∧ TimerStep cfg om om' op [] := by
  have tallied : Tallied cfg { om with netPosition } :=
    timed.tallied.of_tracking (timed.tallied.ok.of_position netPosition) ⟨rfl, rfl, rfl⟩
  obtain ⟨_, done', settled⟩ := dropOrder_spec tallied.ok id
  obtain rfl := mem_unique done done'
  have content : om'.outstanding.content = update om.outstanding.content id none := by
    rw [same.outstanding]
    exact tallied.settled_content settled tracked
  obtain ⟨last, unknown, known⟩ := dropOrder_wheel done
  have last := same.lastAdvanceNs.trans last
  have normal : om'.killSwitchState = .kNormal → om.killSwitchState = .kNormal := by
    intro normal
    obtain ⟨_, om₂, ⟨info, _, closed⟩ | ⟨_, missed⟩, compacted⟩ := settled
    · exact (closed.apart.trans compacted.apart).killSwitchState ▸ same.normal normal
    · exact (missed.apart.trans compacted.apart).killSwitchState ▸ same.normal normal
  have other : ∀ nowNs, op ≠ .advanceTimeouts nowNs := by
    rintro nowNs rfl
    cases drops
  cases found : om.outstanding.content id with
  | none =>
    have wheel : om'.timeoutWheel = om.timeoutWheel := same.timeoutWheel.trans (unknown found)
    rw [← found, update_eq_self] at content
    refine ⟨⟨wheel ▸ timed.clocked, wheel ▸ ⟨rfl, rfl⟩, normal⟩,
      .kept content (fun h c r => by rw [wheel]) last (fun other same => ?_) (fun _ member => (nomatch member)) other⟩
    rw [drops] at same
    exact some.inj same ▸ found
  | some info =>
    obtain ⟨_, cancelled⟩ := known info found
    rw [← same.timeoutWheel] at cancelled
    obtain ⟨clocked, size, alarms⟩ := timed.clocked.cancel cancelled
    exact ⟨⟨clocked, size, normal⟩, .dropped drops found content alarms last⟩

/-! ### Signals -/

section

variable (timed : Timed cfg om) (enough : cfg.maxOutstanding ≤ cfg.timeoutMaxTimers)
include timed enough

theorem Timed.schedule
    (normal : om.killSwitchState = .kNormal) (room : om.outstandingCount < cfg.maxOutstanding) {id timerHandle : Nat}
    {wheel : TimingWheel Unit} (scheduled : om.timeoutWheel.schedule () id cfg.delayTicks = some (timerHandle, wheel)) :
    wheel.Clocked ∧ om.timeoutWheel.SameSize wheel ∧ (∀ c r, ¬ om.timeoutWheel.Alarm timerHandle c r) ∧
      ∀ h c r, wheel.Alarm h c r ↔ om.timeoutWheel.Alarm h c r ∨ (h = timerHandle ∧ c = id ∧ r = cfg.delayTicks) := by
  obtain ⟨⟨positive, inside⟩, -⟩ := TimingWheel.schedule_cases scheduled
  have few := timed.few normal timed.clocked.handles_nodup fun h member => timed.clocked.mem_handles.mp member
  have entries := timed.tallied.entries
  obtain ⟨idx, freeList, popped⟩ := timed.clocked.room (by rw [timed.maxTimers]; omega)
  rw [TimingWheel.schedule_eq popped positive inside] at scheduled
  cases scheduled
  exact ⟨timed.clocked.arm popped positive inside () id, ⟨rfl, rfl⟩, fun c r => timed.clocked.handle_fresh popped,
    timed.clocked.arm_alarm popped inside () id⟩

theorem Timed.refused {signal : Signal} {now sendTs : Int} {out : NewOrder}
    (ended : Signalled cfg om signal now sendTs false out om') :
    TimerFrame om om' ∧ TimerStep cfg om om' (.signal signal now sendTs) [] := by
  have kept := ended.kept timed.tallied.ok
  have content : om'.outstanding.content = om.outstanding.content := by rw [kept.tracking.outstanding]
  have still : ∀ {wheel : TimingWheel Unit}, wheel.Clocked → om.timeoutWheel.SameSize wheel →
      (∀ h c r, wheel.Alarm h c r ↔ om.timeoutWheel.Alarm h c r) → om'.timeoutWheel = wheel →
        om'.lastAdvanceNs = om.lastAdvanceNs →
      TimerFrame om om' ∧ TimerStep cfg om om' (.signal signal now sendTs) [] := by
    rintro wheel clocked size alarms rfl last
    exact ⟨⟨clocked, size, fun normal => kept.apart.killSwitchState ▸ normal⟩,
      .kept content alarms last (fun _ dropped => by cases dropped) (fun _ member => by cases member) fun _ same =>
        by cases same⟩
  cases ended with
  | early stat => exact still timed.clocked ⟨rfl, rfl⟩ (fun _ _ _ => Iff.rfl) rfl rfl
  | late stat refilled =>
    obtain ⟨tokens, lastRefillTs, rfl⟩ := refill_frame refilled
    exact still timed.clocked ⟨rfl, rfl⟩ (fun _ _ _ => Iff.rfl) rfl rfl
  | passed known passes refilled placed =>
    obtain ⟨tokens, lastRefillTs, rfl⟩ := refill_frame refilled
    obtain ⟨-, timerHandle, wheel, outstanding, scheduled, -, ⟨-, found, wheel', cancelled, rfl⟩ | ⟨taken, -⟩⟩ :=
      placeOrder_cases placed
    · obtain ⟨clocked, size, fresh, alarms⟩ := timed.schedule enough passes.normal passes.room scheduled
      obtain ⟨clocked', size', left⟩ := clocked.cancel cancelled
      refine still clocked' (size.trans size') (fun h c r => ?_) rfl rfl
      -- The timer that was just made is cancelled again.
      rw [left, alarms]
      constructor
      · rintro ⟨old | ⟨rfl, -, -⟩, other⟩
        · exact old
        · exact absurd rfl other
      · intro old
        refine ⟨.inl old, ?_⟩
        rintro rfl
        exact fresh c r old
    · cases taken

theorem Timed.placed {signal : Signal} {now sendTs : Int} {out : NewOrder}
    (ended : Signalled cfg om signal now sendTs true out om') :
    TimerFrame om om' ∧ TimerStep cfg om om' (.signal signal now sendTs) [.newOrder out] := by
  have state := (ended.placed timed.tallied.ok).apart.killSwitchState
  cases ended with
  | passed known passes refilled done =>
    obtain ⟨tokens, lastRefillTs, rfl⟩ := refill_frame refilled
    obtain ⟨rfl, timerHandle, wheel, outstanding, scheduled, stored, ⟨refused, -⟩ | ⟨-, rfl⟩⟩ := placeOrder_cases done
    · cases refused
    obtain ⟨clocked, size, -, alarms⟩ := timed.schedule enough passes.normal passes.room scheduled
    obtain ⟨absent, inserted⟩ := inserted_of_insert timed.tallied.ok.map stored
    exact ⟨⟨clocked, size, fun normal => state ▸ normal⟩,
      .entered absent (inserted.content_eq timed.tallied.ok.map) alarms rfl⟩

end

/-! ### Timeouts -/

def collect (cfg : Config) (ids : List Nat) (coid : Nat) : Exec (List Nat) :=
  if cfg.maxOutstanding ≤ ids.length then none else some (ids ++ [coid])

theorem collect_all {coids : List Nat} (few : ids.length + coids.length ≤ cfg.maxOutstanding) :
    coids.foldlM (collect cfg) ids = some (ids ++ coids) := by
  induction coids generalizing ids with
  | nil => simp
  | cons coid rest ih =>
    rw [length_cons] at few
    have room : ¬ cfg.maxOutstanding ≤ ids.length := by omega
    have first : collect cfg ids coid = some (ids ++ [coid]) := if_neg room
    rw [foldlM_cons, first, bind_eq_bind, bind_some, ih (by simp; omega), append_assoc,
      singleton_append]

theorem onOrderTimeout_eq : onOrderTimeout cfg = recording (collect cfg) := by
  funext cb coid ⟨wheel, ids⟩
  unfold onOrderTimeout recording collect
  dsimp only
  split <;> rfl

theorem tickTimes_eq (n : Nat) (s : TimingWheel Unit × List Nat) :
    tickTimes cfg n s = TimingWheel.tickMany (recording (collect cfg)) n s := by
  rw [tickTimes, onOrderTimeout_eq]

/-- The timers that ring belong to tracked orders, so there are no more of them than `timeout_ids_` has room for. -/
theorem Timed.rings (timed : Timed cfg om) (normal : om.killSwitchState = .kNormal) (n : Nat) :
    ∃ wheel rings, Ticked om.timeoutWheel n wheel ∧ Rings om.timeoutWheel n rings ∧ rings.length ≤ cfg.maxOutstanding ∧
      tickTimes cfg n (om.timeoutWheel, []) = some (wheel, rings.map Prod.snd) ∧
      ∀ {σ : Type} (note : σ → Nat → Exec σ) (s : σ), TimingWheel.tickMany (recording note) n (om.timeoutWheel, s) =
        ((rings.map Prod.snd).foldlM note s).map fun s' => (wheel, s') := by
  obtain ⟨wheel, rings, ticked, due, ran⟩ := timed.clocked.tickMany n
  have few : (rings.map Prod.fst).length ≤ om.outstanding.entries.length := by
    refine timed.few normal due.nodup fun h member => ?_
    obtain ⟨⟨_, c⟩, listed, rfl⟩ := List.mem_map.mp member
    obtain ⟨r, -, alarm⟩ := (due.mem _ _).mp listed
    exact ⟨c, r, alarm⟩
  have small := timed.tallied.small
  rw [timed.tallied.entries] at small
  rw [length_map] at few
  have fits := Nat.le_trans few small
  refine ⟨wheel, rings, ticked, due, fits, ?_, ran⟩
  rw [tickTimes_eq, ran, collect_all (by simpa using fits)]
  rfl

theorem expireOrders_timers {batch' : List CancelOrder}
    (done : expireOrders cfg nowNs ids om batch = some (batch', om')) :
    om'.timeoutWheel = om.timeoutWheel ∧ om'.lastAdvanceNs = om.lastAdvanceNs ∧
    om'.killSwitchState = om.killSwitchState := by
  induction ids generalizing om batch with
  | nil =>
    cases done
    exact ⟨rfl, rfl, rfl⟩
  | cons coid rest ih =>
    unfold expireOrders at done
    obtain ⟨found, -, done⟩ := bind_eq_some_iff.mp done
    cases found with
    | none => exact ih done
    | some info =>
      obtain ⟨activeOrders, cleared⟩ := clearActiveIfMatch_eq cfg om info.symbolId info.side coid
      simp only [cleared] at done
      obtain ⟨om₁, released, done⟩ := bind_eq_some_iff.mp done
      obtain ⟨om₂, erased, done⟩ := bind_eq_some_iff.mp done
      obtain ⟨symIdx, -, released⟩ := bind_eq_some_iff.mp released
      cases released
      obtain ⟨⟨_, outstanding⟩, -, erased⟩ := bind_eq_some_iff.mp erased
      cases erased
      have frame := ih done
      exact frame

theorem maybeCompactOutstanding_map (ok : om.outstanding.Ok) : om.maybeCompactOutstanding.outstanding.Ok := by
  unfold maybeCompactOutstanding
  split
  · exact ok.clear
  · exact ok

theorem maybeCompactOutstanding_content (om : OrderManager) (id : Nat) :
    om.maybeCompactOutstanding.outstanding.content id = om.outstanding.content id ∨
      om.maybeCompactOutstanding.outstanding.content id = none := by
  unfold maybeCompactOutstanding
  split
  · exact .inr (clear_content om id)
  · exact .inl rfl

section

variable (timed : Timed cfg om)
include timed

theorem Timed.expire {wheel : TimingWheel Unit} (advanced : Advanced cfg om om' nowNs batch wheel ids om₁) :
    TimerFrame om om' ∧ Expiry om om' nowNs batch ids := by
  obtain ⟨wheel', rings, ticked, due, -, ran, -⟩ := timed.rings advanced.normal (om.elapsedTicks nowNs)
  obtain ⟨rfl, rfl⟩ := Prod.mk.inj (mem_unique advanced.ticks ran)
  have spares : om.SparesAll := Or.inl (Nat.le_of_eq (timed.tallied.ok.map.size_eq.trans timed.tallied.entries.symm))
  obtain ⟨sheds, expired⟩ := advanced.sheds timed.tallied.ok spares
  obtain ⟨sameWheel, last, state⟩ := expireOrders_timers advanced.expired
  obtain ⟨outstanding, compacted⟩ := maybeCompactOutstanding_frame om₁
  have wheel_eq : om'.timeoutWheel = wheel := by
    rw [advanced.compacted, compacted]
    exact sameWheel
  have state_eq : om'.killSwitchState = om.killSwitchState := by
    rw [advanced.compacted, compacted]
    exact state
  have fired : ∀ id, id ∈ rings.map Prod.snd ↔ ∃ h left, left ≤ om.elapsedTicks nowNs ∧
      om.timeoutWheel.Alarm h id left := by
    intro id
    rw [List.mem_map]
    constructor
    · rintro ⟨⟨h, _⟩, member, rfl⟩
      obtain ⟨left, most, alarm⟩ := (due.mem _ _).mp member
      exact ⟨h, left, most, alarm⟩
    · rintro ⟨h, left, most, alarm⟩
      exact ⟨(h, id), (due.mem h id).mpr ⟨left, most, alarm⟩, rfl⟩
  refine ⟨⟨wheel_eq ▸ ticked.clocked, wheel_eq ▸ ticked.size, fun normal => state_eq ▸ normal⟩, advanced.due, ?_, fired,
    fun id member => ?_, fun id outside => ?_, ?_, fun id => ⟨?_, fun member => ?_⟩⟩
  · rw [advanced.compacted, compacted]
    exact last
  · rw [advanced.compacted]
    rcases maybeCompactOutstanding_content om₁ id with same | gone
    · exact same.trans (expired.gone id member)
    · exact gone
  · have map : om'.outstanding.Ok := advanced.compacted ▸ maybeCompactOutstanding_map expired.map
    exact ext fun info =>
      ⟨sheds.old.content timed.tallied.ok.map map, fun found => sheds.kept id info found outside⟩
  · rw [wheel_eq]
    exact ticked.alarm
  · rintro ⟨cancel, member, rfl⟩
    exact (expired.listed cancel member).resolve_left (by simp)
  · obtain ⟨h, left, -, alarm⟩ := (fired id).mp member
    obtain ⟨info, found, -⟩ := timed.tracked advanced.normal h id left alarm
    exact expired.cancelled id info member found

theorem Timed.advance (normal : om.killSwitchState = .kNormal)
    (due : Config.kTickIntervalNs ≤ toInt64 (nowNs - om.lastAdvanceNs)) :
    ∃ batch ids om', om.advanceTimeouts cfg nowNs = some (batch, om') ∧ Expiry om om' nowNs batch ids := by
  obtain ⟨wheel, rings, -, -, -, ticks, -⟩ := timed.rings normal (om.elapsedTicks nowNs)
  obtain ⟨batch, om₁, om', returns, advanced⟩ := advanceTimeouts_returns timed.tallied.ok normal due ticks
  exact ⟨batch, _, om', returns, (timed.expire advanced).2⟩

/-! ### One call -/

theorem Timed.apply (enough : cfg.maxOutstanding ≤ cfg.timeoutMaxTimers) (ends : EndsTracked om op)
    (applied : om.apply cfg op = some (sent, om')) : TimerFrame om om' ∧ TimerStep cfg om om' op sent := by
  have still : SameTimers om om' → (∀ id ∈ op.drops, om.outstanding.content id = none) → (∀ out, .newOrder out ∉ sent) →
      (∀ nowNs, op ≠ .advanceTimeouts nowNs) → TimerFrame om om' ∧ TimerStep cfg om om' op sent :=
    fun same => same.step timed.clocked
  cases apply_cases timed.tallied.ok applied with
  | refused ended => exact timed.refused enough ended
  | placed ended => exact timed.placed enough ended
  | unmodified | modified | acked | modifyAcked | modifyUnknown =>
    exact still ⟨rfl, rfl, rfl, id⟩ (by rintro _ ⟨⟩) (by simp) (by rintro _ ⟨⟩)
  | @modifyRejected reject info found =>
    obtain ⟨activeOrders, cleared⟩ := clearActiveIfMatch_eq cfg om info.symbolId info.side reject.clientOrderId
    rw [cleared] at still ⊢
    exact still ⟨rfl, rfl, rfl, id⟩ (by rintro _ ⟨⟩) (by simp) (by rintro _ ⟨⟩)
  | filled more =>
    refine still ⟨rfl, rfl, rfl, id⟩ (fun id dropped => ?_) (by simp) (by rintro _ ⟨⟩)
    simp [Op.drops, Op.ends, more] at dropped
  | rejected dropped => exact timed.drop rfl (ends _ rfl) dropped ⟨rfl, rfl, rfl, id⟩
  | completed last dropped => exact timed.drop (if_pos last) (ends _ (if_pos last)) dropped ⟨rfl, rfl, rfl, id⟩
  | cancelled dropped => exact timed.drop rfl (ends _ rfl) dropped (checkDrainComplete_timers _)
  | cancelUnknown unknown =>
    refine still (checkDrainComplete_timers om) (fun id dropped => ?_) (by simp) (by rintro _ ⟨⟩)
    exact some.inj dropped ▸ unknown
  | cancelRejected known dropped =>
    exact timed.drop rfl (.inl (isSome_iff_ne_none.mpr known)) dropped (checkDrainComplete_timers _)
  | early idle => exact ⟨⟨timed.clocked, ⟨rfl, rfl⟩, id⟩, .early rfl idle⟩
  | expired advanced =>
    obtain ⟨frame, expiry⟩ := timed.expire advanced
    exact ⟨frame, .expired expiry⟩
  | killed normal reset =>
    obtain ⟨clocked, size, -⟩ := timed.clocked.reset reset
    have off : ∀ {p : Prop} [Decidable p], (if p then KillSwitchState.kComplete else .kDraining) ≠ .kNormal := by
      intro p _ normal
      rcases ite_eq_iff.mp normal with ⟨-, same⟩ | ⟨-, same⟩ <;> cases same
    exact ⟨⟨clocked, size, fun normal => absurd normal off⟩, .killed off rfl⟩
  | killedAgain killed => exact ⟨⟨timed.clocked, ⟨rfl, rfl⟩, id⟩, .killed killed rfl⟩

theorem Timed.own (normal : om.killSwitchState = .kNormal) {id' : Nat} {info info' : OrderInfo}
    (one : om.outstanding.content id = some info) (other : om.outstanding.content id' = some info')
    (same : info.timerHandle = info'.timerHandle) : id = id' := by
  obtain ⟨left, alarm⟩ := timed.armed normal id info one
  obtain ⟨left', alarm'⟩ := timed.armed normal id' info' other
  exact (TimingWheel.Alarm.unique timed.clocked alarm (same ▸ alarm')).1

/-- The timer of a tracked order that has not fired has more ticks left than have passed. -/
theorem Timed.not_fired (normal : om.killSwitchState = .kNormal) (expiry : Expiry om om' nowNs batch ids)
    {h left : Nat} (alarm : om.timeoutWheel.Alarm h id left) :
    id ∉ ids ↔ om.elapsedTicks nowNs < left := by
  rw [expiry.fired, ← Nat.not_le, not_iff_not]
  constructor
  · rintro ⟨h', left', most, alarm'⟩
    obtain ⟨info, found, handle⟩ := timed.tracked normal h id left alarm
    obtain ⟨info', found', handle'⟩ := timed.tracked normal h' id left' alarm'
    obtain rfl := mem_unique found found'
    obtain rfl : h = h' := handle.symm.trans handle'
    rwa [(TimingWheel.Alarm.unique timed.clocked alarm alarm').2]
  · exact fun most => ⟨h, left, most, alarm⟩

theorem Timed.next (frame : TimerFrame om om') (step : TimerStep cfg om om' op sent) (tallied : Tallied cfg om') :
    Timed cfg om' := by
  refine ⟨tallied, frame.clocked, frame.size.wheelSize.trans timed.wheelSize,
    frame.size.maxTimers.trans timed.maxTimers, fun normal id info found => ?_, fun normal h id left alarm => ?_⟩
  · have before := frame.normal normal
    cases step with
    | kept content alarms =>
      obtain ⟨left, alarm⟩ := timed.armed before id info (content ▸ found)
      exact ⟨left, (alarms _ _ _).mpr alarm⟩
    | @entered _ _ _ out _ absent content alarms =>
      rw [content] at found
      by_cases new : id = out.clientOrderId
      · rw [new, update_self] at found
        cases found
        exact ⟨_, (alarms _ _ _).mpr (.inr ⟨rfl, new, rfl⟩)⟩
      · rw [update_of_ne new] at found
        obtain ⟨left, alarm⟩ := timed.armed before id info found
        exact ⟨left, (alarms _ _ _).mpr (.inl alarm)⟩
    | @dropped _ gone _ _ there content alarms =>
      rw [content] at found
      have other : id ≠ gone := by
        rintro rfl
        simp at found
      rw [update_of_ne other] at found
      obtain ⟨left, alarm⟩ := timed.armed before id info found
      exact ⟨left, (alarms _ _ _).mpr ⟨alarm, fun same => other (timed.own before found there same)⟩⟩
    | early same =>
      rw [same] at found ⊢
      exact timed.armed before id info found
    | @expired nowNs batch ids expiry =>
      have outside : id ∉ ids := fun member => by cases found.symm.trans (expiry.gone id member)
      obtain ⟨left, alarm⟩ := timed.armed before id info (expiry.kept id outside ▸ found)
      have later := (timed.not_fired before expiry alarm).mp outside
      refine ⟨left - om.elapsedTicks nowNs, (expiry.alarms _ _ _).mpr ⟨?_, by omega⟩⟩
      rwa [Nat.sub_add_cancel (by omega)]
    | killed killed => exact absurd normal killed
  · have before := frame.normal normal
    cases step with
    | kept content alarms => exact content ▸ timed.tracked before h id left ((alarms _ _ _).mp alarm)
    | @entered _ _ _ out info absent content alarms =>
      rw [content]
      rcases (alarms _ _ _).mp alarm with old | ⟨rfl, rfl, rfl⟩
      · obtain ⟨info', found, handle⟩ := timed.tracked before h id left old
        have other : id ≠ out.clientOrderId := by
          rintro rfl
          cases absent.symm.trans found
        exact ⟨info', by rwa [update_of_ne other], handle⟩
      · exact ⟨info, update_self _ _ _, rfl⟩
    | @dropped _ gone info _ there content alarms =>
      obtain ⟨old, different⟩ := (alarms _ _ _).mp alarm
      obtain ⟨info', found, rfl⟩ := timed.tracked before h id left old
      have other : id ≠ gone := by
        rintro rfl
        exact different (by rw [mem_unique found there])
      exact ⟨info', by rwa [content, update_of_ne other], rfl⟩
    | early same =>
      rw [same] at alarm ⊢
      exact timed.tracked before h id left alarm
    | @expired nowNs batch ids expiry =>
      obtain ⟨old, positive⟩ := (expiry.alarms _ _ _).mp alarm
      have outside : id ∉ ids := (timed.not_fired before expiry old).mpr (by omega)
      rw [expiry.kept id outside]
      exact timed.tracked before h id _ old
    | killed killed => exact absurd normal killed

end

theorem Timed.step {a a' : Logged} (enough : cfg.maxOutstanding ≤ cfg.timeoutMaxTimers) (timed : Timed cfg a.om)
    (ends : EndsTracked a.om op) (stepped : a.step cfg op = some a') : Timed cfg a'.om := by
  have tallied := timed.tallied.step ends stepped
  obtain ⟨sent, om', applied, rfl⟩ := Logged.step_eq_some.mp stepped
  obtain ⟨frame, step⟩ := timed.apply enough ends applied
  exact timed.next frame step tallied

theorem create_timed (created : create cfg = some om) : Timed cfg om := by
  have tallied := create_tallied created
  have empty := (create_ok created).2.1
  obtain ⟨mapCapacity, -, made⟩ := bind_eq_some_iff.mp created
  obtain ⟨outstanding, -, made⟩ := bind_eq_some_iff.mp made
  obtain ⟨wheel, wheelMade, made⟩ := bind_eq_some_iff.mp made
  cases made
  obtain ⟨clocked, size, timers, none⟩ := TimingWheel.create_clocked wheelMade
  refine ⟨tallied, clocked, size, timers, fun _ id info found => ?_, fun _ h id left alarm =>
    absurd alarm (none h id left)⟩
  have member := tallied.ok.map.content_eq_some.mp found
  rw [empty] at member
  cases member

end TickToTrade.Oms
