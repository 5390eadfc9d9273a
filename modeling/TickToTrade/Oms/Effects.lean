import TickToTrade.Oms.CallCases

/-! What each call of the order manager does to the orders it tracks. -/

namespace TickToTrade.Oms
open Ds Probing Option Function

variable {cfg : Config} {om om₁ om' : OrderManager} {id : Nat} {info : OrderInfo} {sent : List Request}
variable {out : NewOrder} {now sendTs : Int}

namespace OrderManager

structure Apart (om om' : OrderManager) : Prop where
  netPosition : om'.netPosition = om.netPosition
  killSwitchState : om'.killSwitchState = om.killSwitchState
  pendingCancelCount : om'.pendingCancelCount = om.pendingCancelCount

structure Tracking (om om' : OrderManager) : Prop where
  outstanding : om'.outstanding = om.outstanding
  outstandingCount : om'.outstandingCount = om.outstandingCount
  outstandingPerSymbol : om'.outstandingPerSymbol = om.outstandingPerSymbol

structure Kept (cfg : Config) (om om' : OrderManager) : Prop where
  ok : om'.Ok cfg
  tracking : Tracking om om'
  apart : Apart om om'

/-- A tracked order is taken off the books of the manager. -/
structure Closed (cfg : Config) (om om' : OrderManager) (id : Nat) (info : OrderInfo) : Prop where
  ok : om'.Ok cfg
  apart : Apart om om'
  erased : Table.Erased DefaultHash.hash om.outstanding om'.outstanding id info
  outstandingCount : om'.outstandingCount = om.outstandingCount - 1
  outstandingPerSymbol : om'.outstandingPerSymbol = update om.outstandingPerSymbol (info.symbolId - 1)
    (decrement32 (om.outstandingPerSymbol (info.symbolId - 1)))

/-- An unknown order is counted as gone. -/
structure Missed (cfg : Config) (om om' : OrderManager) : Prop where
  ok : om'.Ok cfg
  apart : Apart om om'
  outstanding : om'.outstanding = om.outstanding
  outstandingCount : om'.outstandingCount = om.outstandingCount - 1
  outstandingPerSymbol : om'.outstandingPerSymbol = om.outstandingPerSymbol

structure Compacted (om om' : OrderManager) : Prop where
  apart : Apart om om'
  outstandingCount : om'.outstandingCount = om.outstandingCount
  outstandingPerSymbol : om'.outstandingPerSymbol = om.outstandingPerSymbol
  outstanding : om'.outstanding = om.outstanding ∨ om.outstandingCount = 0 ∧ om'.outstanding = om.outstanding.clear

/-- The order of a response is dropped, whether it is tracked or not. -/
def Settled (cfg : Config) (om om' : OrderManager) (id : Nat) : Prop :=
  om'.Ok cfg ∧ ∃ om₁, ((∃ info, om.outstanding.content id = some info ∧ Closed cfg om om₁ id info) ∨
    (om.outstanding.content id = none ∧ Missed cfg om om₁)) ∧ Compacted om₁ om'

theorem Apart.refl : Apart om om := ⟨rfl, rfl, rfl⟩

theorem Apart.trans (first : Apart om om₁) (second : Apart om₁ om') : Apart om om' :=
  ⟨second.netPosition.trans first.netPosition, second.killSwitchState.trans first.killSwitchState,
    second.pendingCancelCount.trans first.pendingCancelCount⟩

theorem Tracking.ok (same : Tracking om om') (wheel : om'.timeoutWheel.Ok) (ok : om.Ok cfg) : om'.Ok cfg := by
  refine ⟨?_, wheel, ?_⟩ <;> rw [same.outstanding]
  · exact ok.map
  · exact ok.indexed

theorem clear_content (om : OrderManager) (id : Nat) : om.outstanding.clear.content id = none := by
  rw [Table.clear_eq_fresh]
  exact Table.fresh_content _ _ _

/-- No order enters the tracking. -/
def Shrinks (om om' : OrderManager) : Prop := om'.outstanding.entries ⊆ om.outstanding.entries

theorem Shrinks.trans (first : Shrinks om om₁) (second : Shrinks om₁ om') : Shrinks om om' :=
  List.Subset.trans second first

theorem shrinks_of_eq (same : om'.outstanding = om.outstanding) : Shrinks om om' := by
  rw [Shrinks, same]
  exact List.Subset.refl _

theorem shrinks_of_cleared (cleared : om'.outstanding = om.outstanding.clear) : Shrinks om om' := by
  rw [Shrinks, cleared]
  simp [Table.clear, Table.entries]

theorem shrinks_of_erased (erased : Table.Erased DefaultHash.hash om.outstanding om'.outstanding id info) :
    Shrinks om om' :=
  fun _ member => erased.entries_perm.mem_iff.mpr (List.mem_cons_of_mem _ member)

theorem Shrinks.content (shrinks : Shrinks om om') (ok : om.outstanding.Ok) (ok' : om'.outstanding.Ok)
    (found : om'.outstanding.content id = some info) : om.outstanding.content id = some info :=
  ok.content_eq_some.mpr (shrinks (ok'.content_eq_some.mp found))

theorem Ok.of_position (ok : om.Ok cfg) (netPosition : Nat → Int) : ({ om with netPosition } : OrderManager).Ok cfg :=
  { ok with }

/-! ### Closing an order -/

theorem clearActiveIfMatch_eq (cfg : Config) (om : OrderManager) (symbolId : Nat) (side : Side) (id : Nat) :
    ∃ activeOrders, om.clearActiveIfMatch cfg symbolId side id = { om with activeOrders } := by
  unfold clearActiveIfMatch
  split
  · exact ⟨om.activeOrders, rfl⟩
  · dsimp only
    split
    · exact ⟨_, rfl⟩
    · exact ⟨om.activeOrders, rfl⟩

theorem Ok.close (ok : om.Ok cfg) (found : om.outstanding.content id = some info) :
    ∃ om₁ om₂, om.releaseSymbol cfg info.symbolId = some om₁ ∧ om₁.eraseOutstanding id = some om₂ ∧
      Closed cfg om om₂ id info := by
  obtain ⟨outstanding, result, erased⟩ := ok.map.erase_of_content found
  have gone : HashMap.erase om.outstanding id = some (true, outstanding) := (HashMap.Ok.erase_eq ok.map id).trans result
  refine ⟨{ om with
      outstandingPerSymbol := update om.outstandingPerSymbol (info.symbolId - 1)
        (decrement32 (om.outstandingPerSymbol (info.symbolId - 1))) },
    { om with
      outstanding
      outstandingCount := if 0 < om.outstandingCount then om.outstandingCount - 1 else 0
      outstandingPerSymbol := update om.outstandingPerSymbol (info.symbolId - 1)
        (decrement32 (om.outstandingPerSymbol (info.symbolId - 1))) }, ?_, ?_, ?_⟩
  · simp [releaseSymbol, ok.indexed id info found]
  · simp [eraseOutstanding, gone]
  · refine ⟨⟨erased.wellFormed, ok.wheel, ?_⟩, ⟨rfl, rfl, rfl⟩, erased, ?_, rfl⟩
    · intro id' info' present
      rw [erased.content_eq ok.map] at present
      by_cases same : id' = id
      · subst same
        simp at present
      · rw [update_of_ne same] at present
        exact ok.indexed id' info' present
    · dsimp only
      split <;> omega

theorem Closed.of_tracking (closed : Closed cfg om₁ om' id info) (same : Tracking om om₁) (apart : Apart om om₁) :
    Closed cfg om om' id info where
  ok := closed.ok
  apart := apart.trans closed.apart
  erased := same.outstanding ▸ closed.erased
  outstandingCount := same.outstandingCount ▸ closed.outstandingCount
  outstandingPerSymbol := same.outstandingPerSymbol ▸ closed.outstandingPerSymbol

theorem maybeCompactOutstanding_frame (om : OrderManager) : ∃ outstanding, om.maybeCompactOutstanding =
    { om with outstanding } := by
  unfold maybeCompactOutstanding
  split
  · exact ⟨_, rfl⟩
  · exact ⟨om.outstanding, rfl⟩

theorem maybeCompactOutstanding_spec (ok : om.Ok cfg) :
    om.maybeCompactOutstanding.Ok cfg ∧ Compacted om om.maybeCompactOutstanding := by
  unfold maybeCompactOutstanding
  split
  · rename_i empty
    refine ⟨⟨ok.map.clear, ok.wheel, ?_⟩, ⟨rfl, rfl, rfl⟩, rfl, rfl, .inr ⟨empty.1, rfl⟩⟩
    intro id info present
    rw [clear_content] at present
    cases present
  · exact ⟨ok, Apart.refl, rfl, rfl, .inl rfl⟩

theorem dropOrder_spec (ok : om.Ok cfg) (id : Nat) :
    ∃ om', om.dropOrder cfg id (om.outstanding.content id) = some om' ∧ Settled cfg om om' id := by
  unfold dropOrder
  cases found : om.outstanding.content id with
  | none =>
    have kept : om.eraseOutstanding id = some { om with
        outstandingCount := if 0 < om.outstandingCount then om.outstandingCount - 1 else 0 } := by
      rcases ok.map.erase_cases id with ⟨_, result⟩ | ⟨info, _, present, _⟩
      · simp [eraseOutstanding, HashMap.Ok.erase_eq ok.map, result]
      · rw [found] at present
        cases present
    simp only [kept, Option.pure_def, bind_eq_bind, bind_some]
    have missed : Missed cfg om { om with
        outstandingCount := if 0 < om.outstandingCount then om.outstandingCount - 1 else 0 } := by
      refine ⟨{ ok with }, ⟨rfl, rfl, rfl⟩, rfl, ?_, rfl⟩
      dsimp only
      split <;> omega
    obtain ⟨ok', compacted⟩ := maybeCompactOutstanding_spec missed.ok
    exact ⟨_, rfl, ok', _, .inr ⟨found, missed⟩, compacted⟩
  | some info =>
    obtain ⟨_, wheel, cancelled, wheelOk⟩ := ok.wheel.cancel info.timerHandle
    obtain ⟨activeOrders, cleared⟩ :=
      clearActiveIfMatch_eq cfg { om with timeoutWheel := wheel } info.symbolId info.side id
    have ok₁ : ({ om with timeoutWheel := wheel, activeOrders } : OrderManager).Ok cfg := ⟨ok.map, wheelOk, ok.indexed⟩
    obtain ⟨om₁, om₂, released, erased, closed⟩ := ok₁.close found
    simp only [untrack, cancelled, cleared, released, erased, Option.pure_def, bind_eq_bind, bind_some]
    obtain ⟨ok', compacted⟩ := maybeCompactOutstanding_spec closed.ok
    exact ⟨_, rfl, ok', om₂, .inl ⟨info, found, closed.of_tracking ⟨rfl, rfl, rfl⟩ ⟨rfl, rfl, rfl⟩⟩, compacted⟩

theorem dropOrder_settled (ok : om.Ok cfg) (dropped : om.dropOrder cfg id (om.outstanding.content id) = some om') :
    Settled cfg om om' id := by
  obtain ⟨om₁, dropped', settled⟩ := dropOrder_spec ok id
  obtain rfl := mem_unique dropped dropped'
  exact settled

/-! ### The responses -/

theorem Settled.counted (settled : Settled cfg om om' id) (stat : Stat) (n : Nat) :
    Settled cfg om (om'.count stat n) id := by
  obtain ⟨ok, om₁, dropped, compacted⟩ := settled
  obtain ⟨⟨position, state, pending⟩, count, perSymbol, map⟩ := compacted
  exact ⟨{ ok with }, om₁, dropped, ⟨position, state, pending⟩, count, perSymbol, map⟩

structure Booked (cfg : Config) (om om' : OrderManager) (fill : FillReport) : Prop where
  ok : om'.Ok cfg
  tracking : Tracking om om'
  killSwitchState : om'.killSwitchState = om.killSwitchState
  pendingCancelCount : om'.pendingCancelCount = om.pendingCancelCount
  unknown : om.outstanding.content fill.clientOrderId = none → om'.netPosition = om.netPosition
  known : ∀ info, om.outstanding.content fill.clientOrderId = some info →
    om'.netPosition = update om.netPosition (info.symbolId - 1)
      (if info.side = .kBid then toInt64 (om.netPosition (info.symbolId - 1) + fill.fillQty)
      else toInt64 (om.netPosition (info.symbolId - 1) - fill.fillQty))

theorem bookFill_spec (ok : om.Ok cfg) (fill : FillReport) :
    Booked cfg om (om.bookFill cfg (om.outstanding.content fill.clientOrderId) fill.fillQty) fill := by
  cases found : om.outstanding.content fill.clientOrderId with
  | none =>
    refine ⟨ok, ⟨rfl, rfl, rfl⟩, rfl, rfl, fun _ => rfl, ?_⟩
    intro info known
    rw [found] at known
    cases known
  | some info =>
    simp only [bookFill, ok.indexed _ info found]
    refine ⟨{ ok with }, ⟨rfl, rfl, rfl⟩, rfl, rfl, ?_, ?_⟩
    · intro unknown
      rw [found] at unknown
      cases unknown
    · intro info' known
      obtain rfl := mem_unique found known
      rfl

theorem checkDrainComplete_tracking (om : OrderManager) :
    Tracking om om.checkDrainComplete ∧ om.checkDrainComplete.netPosition = om.netPosition ∧
      om.checkDrainComplete.timeoutWheel = om.timeoutWheel := by
  unfold checkDrainComplete
  split <;> exact ⟨⟨rfl, rfl, rfl⟩, rfl, rfl⟩

/-! ### Signals -/

structure Entered (cfg : Config) (om om' : OrderManager) (signal : Signal) (out : NewOrder) : Prop where
  ok : om'.Ok cfg
  apart : Apart om om'
  order : out = { out with symbolId := signal.symbolId, side := signal.side, price := signal.price, qty := signal.qty }
  absent : om.outstanding.content out.clientOrderId = none
  inserted : ∃ info, info.symbolId = signal.symbolId ∧ info.side = signal.side ∧
    Table.Inserted DefaultHash.hash om.outstanding om'.outstanding out.clientOrderId info
  outstandingCount : om'.outstandingCount = (om.outstandingCount + 1) % 2 ^ 32
  outstandingPerSymbol : om'.outstandingPerSymbol = update om.outstandingPerSymbol (signal.symbolId - 1)
    ((om.outstandingPerSymbol (signal.symbolId - 1) + 1) % 2 ^ 32)

structure Placed (cfg : Config) (om om' : OrderManager) (signal : Signal) (now : Int) (out : NewOrder) : Prop
    extends Entered cfg om om' signal out, Passes cfg om signal now where
  symbol : cfg.symbolIndex signal.symbolId = some (signal.symbolId - 1)

variable {signal : Signal}

theorem Entered.of_kept (entered : Entered cfg om₁ om' signal out) (kept : Kept cfg om om₁) :
    Entered cfg om om' signal out where
  ok := entered.ok
  apart := kept.apart.trans entered.apart
  order := entered.order
  absent := kept.tracking.outstanding ▸ entered.absent
  inserted := kept.tracking.outstanding ▸ entered.inserted
  outstandingCount := kept.tracking.outstandingCount ▸ entered.outstandingCount
  outstandingPerSymbol := kept.tracking.outstandingPerSymbol ▸ entered.outstandingPerSymbol

theorem Kept.trans (first : Kept cfg om om₁) (second : Kept cfg om₁ om') : Kept cfg om om' where
  ok := second.ok
  tracking := ⟨second.tracking.outstanding.trans first.tracking.outstanding,
    second.tracking.outstandingCount.trans first.tracking.outstandingCount,
    second.tracking.outstandingPerSymbol.trans first.tracking.outstandingPerSymbol⟩
  apart := first.apart.trans second.apart

theorem Ok.kept (ok : om.Ok cfg) : Kept cfg om om := ⟨ok, ⟨rfl, rfl, rfl⟩, Apart.refl⟩

theorem Kept.activated (kept : Kept cfg om om') (activeOrders : Nat → Side → ActiveOrder) :
    Kept cfg om ({ om' with activeOrders } : OrderManager) :=
  kept.trans ⟨{ kept.ok with }, ⟨rfl, rfl, rfl⟩, ⟨rfl, rfl, rfl⟩⟩

theorem Kept.counted (kept : Kept cfg om om') (stat : Stat) (n : Nat) : Kept cfg om (om'.count stat n) :=
  kept.trans ⟨{ kept.ok with }, ⟨rfl, rfl, rfl⟩, ⟨rfl, rfl, rfl⟩⟩

theorem refill_spec (ok : om.Ok cfg) (refilled : om.refill cfg now = some om') :
    Kept cfg om om' := by
  obtain ⟨tokens, lastRefillTs, rfl⟩ := refill_frame refilled
  exact ⟨{ ok with }, ⟨rfl, rfl, rfl⟩, ⟨rfl, rfl, rfl⟩⟩

theorem same_of_insert {m m' : HashMap Nat OrderInfo} (ok : m.Ok) (stored : m.insert id info = some (false, m')) :
    m' = m := by
  rw [HashMap.Ok.insert_eq ok] at stored
  rcases ok.insert_cases id info with ⟨_, _, kept⟩ | ⟨_, _, _, kept⟩ | ⟨_, _, _, added, _⟩
  · exact (Prod.mk.inj (mem_unique stored kept)).2
  · exact (Prod.mk.inj (mem_unique stored kept)).2
  · cases (Prod.mk.inj (mem_unique stored added)).1

theorem inserted_of_insert {m m' : HashMap Nat OrderInfo} (ok : m.Ok) (stored : m.insert id info = some (true, m')) :
    m.content id = none ∧ Table.Inserted DefaultHash.hash m m' id info := by
  rw [HashMap.Ok.insert_eq ok] at stored
  rcases ok.insert_cases id info with ⟨_, _, kept⟩ | ⟨_, _, _, kept⟩ | ⟨absent, _, _, added, grown⟩
  · cases (Prod.mk.inj (mem_unique stored kept)).1
  · cases (Prod.mk.inj (mem_unique stored kept)).1
  · obtain rfl := (Prod.mk.inj (mem_unique stored added)).2
    exact ⟨absent, grown⟩

theorem placeOrder_spec {generated : Bool} (ok : om.Ok cfg)
    (known : cfg.symbolIndex signal.symbolId = some (signal.symbolId - 1))
    (placed : om.placeOrder cfg (signal.symbolId - 1) signal sendTs = some (generated, out, om')) :
    (generated = false ∧ Kept cfg om om') ∨ (generated = true ∧ Entered cfg om om' signal out) := by
  obtain ⟨rfl, timerHandle, wheel, outstanding, scheduled, result, ending⟩ := placeOrder_cases placed
  have wheelOk := ok.wheel.schedule scheduled
  obtain ⟨rfl, found, wheel', cancelled, rfl⟩ | ⟨rfl, rfl⟩ := ending
  · obtain ⟨_, _, cancelled', cancelledOk⟩ := wheelOk.cancel timerHandle
    obtain ⟨_, rfl⟩ := Prod.mk.inj (mem_unique cancelled cancelled')
    obtain rfl := same_of_insert ok.map result
    exact .inl ⟨rfl, ⟨ok.map, cancelledOk, ok.indexed⟩, ⟨rfl, rfl, rfl⟩, ⟨rfl, rfl, rfl⟩⟩
  · obtain ⟨absent, grown⟩ := inserted_of_insert ok.map result
    refine .inr ⟨rfl, ⟨grown.wellFormed, wheelOk, ?_⟩, ⟨rfl, rfl, rfl⟩, rfl, absent, ⟨_, rfl, rfl, grown⟩, rfl, rfl⟩
    intro id info present
    simp only [withOrder, unplaced, grown.content_eq ok.map] at present
    by_cases same : id = om.nextOrderId
    · subst same
      rw [update_self] at present
      cases present
      exact known
    · rw [update_of_ne same] at present
      exact ok.indexed id info present

theorem Signalled.kept (ok : om.Ok cfg) (ended : Signalled cfg om signal now sendTs false out om') :
    Kept cfg om om' := by
  cases ended with
  | early stat => exact ok.kept.counted stat 1
  | late stat refilled => exact (refill_spec ok refilled).counted stat 1
  | passed known passes refilled placed =>
    have kept := refill_spec ok refilled
    rcases placeOrder_spec kept.ok known placed with ⟨-, kept'⟩ | ⟨taken, -⟩
    · exact kept.trans kept'
    · cases taken

theorem Signalled.placed (ok : om.Ok cfg) (ended : Signalled cfg om signal now sendTs true out om') :
    Placed cfg om om' signal now out := by
  cases ended with
  | passed known passes refilled placed =>
    have kept := refill_spec ok refilled
    rcases placeOrder_spec kept.ok known placed with ⟨refused, -⟩ | ⟨-, entered⟩
    · cases refused
    · exact ⟨entered.of_kept kept, passes, known⟩

theorem onSignal_spec {out' : NewOrder} {generated : Bool} (ok : om.Ok cfg)
    (done : om.onSignal cfg signal now sendTs out = some (generated, out', om')) :
    (generated = false ∧ Kept cfg om om') ∨ (generated = true ∧ Placed cfg om om' signal now out') := by
  have ended := onSignal_cases done
  cases generated with
  | false => exact .inl ⟨rfl, ended.kept ok⟩
  | true => exact .inr ⟨rfl, ended.placed ok⟩

/-! ### Timeouts and the kill switch -/

theorem tickTimes_ok {n : Nat} {wheel wheel' : TimingWheel Unit} {ids ids' : List Nat} (ok : wheel.Ok)
    (ticked : tickTimes cfg n (wheel, ids) = some (wheel', ids')) : wheel'.Ok := by
  have quiet : ∀ cb ctx (w : TimingWheel Unit) (s : List Nat) w' s',
      onOrderTimeout cfg cb ctx (w, s) = some (w', s') → w' = w := by
    intro cb ctx w s w' s' called
    simp only [onOrderTimeout] at called
    split at called
    · cases called
    · exact (Prod.mk.inj (some.inj called)).1.symm
  induction n generalizing wheel ids with
  | zero =>
    cases ticked
    exact ok
  | succ n ih =>
    obtain ⟨⟨wheel₁, ids₁⟩, first, rest⟩ := bind_eq_some_iff.mp ticked
    exact ih (ok.tick quiet first) rest

theorem Closed.counted (closed : Closed cfg om om' id info) (stat : Stat) (n : Nat) :
    Closed cfg om (om'.count stat n) id info :=
  { closed with ok := { closed.ok with }, apart := closed.apart.trans ⟨rfl, rfl, rfl⟩ }

def Closes (cfg : Config) : OrderManager → OrderManager → Prop :=
  Relation.ReflTransGen fun om om' => ∃ id info, Closed cfg om om' id info

theorem expireOrders_spec (ok : om.Ok cfg) (nowNs : Int) (ids : List Nat) (batch : List CancelOrder) :
    ∃ batch' om', expireOrders cfg nowNs ids om batch = some (batch', om') ∧ om'.Ok cfg ∧ Closes cfg om om' := by
  induction ids generalizing om batch with
  | nil => exact ⟨batch, om, rfl, ok, .refl⟩
  | cons coid rest ih =>
    cases found : om.outstanding.content coid with
    | none =>
      obtain ⟨batch', om', done, kept⟩ := ih ok batch
      exact ⟨batch', om', by simp [expireOrders, ok.find, found, done], kept⟩
    | some info =>
      obtain ⟨activeOrders, cleared⟩ := clearActiveIfMatch_eq cfg om info.symbolId info.side coid
      have ok₁ : ({ om with activeOrders } : OrderManager).Ok cfg := { ok with }
      obtain ⟨om₁, om₂, released, erased, closed⟩ := ok₁.close found
      have closed₁ : Closed cfg om om₂ coid info := closed.of_tracking ⟨rfl, rfl, rfl⟩ ⟨rfl, rfl, rfl⟩
      have closed' := closed₁.counted .timeoutsFired 1
      obtain ⟨batch', om', done, ok', closes⟩ := ih closed'.ok
        (if batch.length < cfg.maxOutstanding then batch ++ [⟨coid, info.symbolId, nowNs⟩] else batch)
      exact ⟨batch', om', by simp [expireOrders, ok.find, found, cleared, released, erased, done], ok',
        .head ⟨coid, info, closed'⟩ closes⟩

theorem advanceTimeouts_idle {nowNs : Int}
    (idle : om.killSwitchState ≠ .kNormal ∨ toInt64 (nowNs - om.lastAdvanceNs) < Config.kTickIntervalNs) :
    om.advanceTimeouts cfg nowNs = some ([], om) := by
  unfold advanceTimeouts
  by_cases killed : om.killSwitchState ≠ .kNormal
  · rw [if_pos killed]
    rfl
  · rw [if_neg killed]
    dsimp only
    rw [if_pos (idle.resolve_left killed)]
    rfl

theorem advanceTimeouts_returns {nowNs : Int} {wheel : TimingWheel Unit} {ids : List Nat} (ok : om.Ok cfg)
    (normal : om.killSwitchState = .kNormal) (due : Config.kTickIntervalNs ≤ toInt64 (nowNs - om.lastAdvanceNs))
    (ticks : tickTimes cfg (om.elapsedTicks nowNs) (om.timeoutWheel, []) = some (wheel, ids)) :
    ∃ batch om₁ om', om.advanceTimeouts cfg nowNs = some (batch, om') ∧
    Advanced cfg om om' nowNs batch wheel ids om₁ := by
  have ok₁ : (om.ticked nowNs wheel).Ok cfg := ⟨ok.map, tickTimes_ok ok.wheel ticks, ok.indexed⟩
  obtain ⟨batch, om₁, expired, -⟩ := expireOrders_spec ok₁ nowNs ids []
  refine ⟨batch, om₁, om₁.maybeCompactOutstanding, ?_, normal, due, ticks, expired, rfl⟩
  unfold elapsedTicks at ticks
  unfold ticked elapsedTicks at expired
  unfold advanceTimeouts
  rw [if_neg (by simp [normal])]
  dsimp only
  rw [if_neg (Int.not_lt.mpr due), ticks]
  dsimp only [bind_eq_bind, bind_some]
  rw [expired]
  rfl

/-- The kill switch was thrown and waits for the answers to the batch. -/
structure Killed (cfg : Config) (om om' : OrderManager) (batch : List CancelOrder) : Prop where
  ok : om'.Ok cfg
  tracking : Tracking om om'
  netPosition : om'.netPosition = om.netPosition
  pendingCancelCount : om'.pendingCancelCount = batch.length
  killSwitchState : om'.killSwitchState = if batch.length = 0 then .kComplete else .kDraining

theorem triggerKillSwitch_spec (ok : om.Ok cfg) (normal : om.killSwitchState = .kNormal) (now : Int) :
    ∃ om', om.triggerKillSwitch cfg now = some (cancelBatch cfg om now, om') ∧
    Killed cfg om om' (cancelBatch cfg om now) := by
  obtain ⟨wheel, reset, wheelOk⟩ := ok.wheel.reset
  unfold triggerKillSwitch
  simp only [normal, ne_eq, not_true_eq_false, if_false, reset, bind_eq_bind, bind_some, Option.pure_def]
  exact ⟨_, rfl, ⟨ok.map, wheelOk, ok.indexed⟩, ⟨rfl, rfl, rfl⟩, rfl, rfl, rfl⟩

theorem create_ok (created : create cfg = some om) : om.Ok cfg ∧ om.outstanding.entries = [] ∧
    om = { tokens := om.tokens, outstanding := om.outstanding, timeoutWheel := om.timeoutWheel } := by
  obtain ⟨mapCapacity, _, created⟩ := bind_eq_some_iff.mp created
  obtain ⟨outstanding, map, created⟩ := bind_eq_some_iff.mp created
  obtain ⟨wheel, made, created⟩ := bind_eq_some_iff.mp created
  cases created
  obtain ⟨mapOk, rfl⟩ := HashMap.create_ok map
  refine ⟨⟨mapOk, TimingWheel.create_ok made, ?_⟩, by simp [Table.fresh, Table.entries], rfl⟩
  intro id info present
  rw [Table.fresh_content] at present
  cases present

/-! ### One call -/

/-- Everything that a call can do, with the messages it sends. -/
inductive Effect (cfg : Config) (om om' : OrderManager) : Op → List Request → Prop
  | refused {signal : Signal} {now sendTs : Int} : Kept cfg om om' → Effect cfg om om' (.signal signal now sendTs) []
  | placed {signal : Signal} {now sendTs : Int} {out : NewOrder} : Placed cfg om om' signal now out →
    Effect cfg om om' (.signal signal now sendTs) [.newOrder out]
  | unmodified {signal : Signal} {sendTs : Int} : Kept cfg om om' → Effect cfg om om' (.modify signal sendTs) []
  | modified {signal : Signal} {sendTs : Int} {out : ModifyOrder} : Kept cfg om om' → Reprices om signal →
    out.clientOrderId = (om.slot signal).clientOrderId → out.newPrice = signal.price →
    out.newQty = signal.qty → Effect cfg om om' (.modify signal sendTs) [.modifyOrder out]
  | acked {ack : OrderAck} : Kept cfg om om' → Effect cfg om om' (.orderAck ack) []
  | modifyAcked {ack : ModifyAck} : Kept cfg om om' → Effect cfg om om' (.modifyAck ack) []
  | modifyRejected {reject : ModifyReject} : Kept cfg om om' → Effect cfg om om' (.modifyReject reject) []
  | rejected {reject : OrderReject} : Settled cfg om om' reject.clientOrderId →
    Effect cfg om om' (.orderReject reject) []
  | filled {om₁ : OrderManager} {fill : FillReport} : Booked cfg om om₁ fill → fill.remainingQty ≠ 0 →
    Kept cfg om₁ om' → Effect cfg om om' (.fill fill) []
  | completed {om₁ : OrderManager} {fill : FillReport} : Booked cfg om om₁ fill → fill.remainingQty = 0 →
    Settled cfg om₁ om' fill.clientOrderId → Effect cfg om om' (.fill fill) []
  | cancelled {om₁ : OrderManager} {ack : CancelAck} : Settled cfg om om₁ ack.clientOrderId →
    om' = om₁.checkDrainComplete → Effect cfg om om' (.cancelAck ack) []
  | cancelUnknown {reject : CancelReject} : om' = om.checkDrainComplete → Effect cfg om om' (.cancelReject reject) []
  | cancelRejected {om₁ : OrderManager} {reject : CancelReject} : om.outstanding.content reject.clientOrderId ≠ none →
    Settled cfg om om₁ reject.clientOrderId → om' = om₁.checkDrainComplete → Effect cfg om om' (.cancelReject reject) []
  | expired {om₁ om₂ : OrderManager} {nowNs : Int} {batch : List CancelOrder} : Kept cfg om om₁ → Closes cfg om₁ om₂ →
    Compacted om₂ om' → Effect cfg om om' (.advanceTimeouts nowNs) (batch.map .cancelOrder)
  | killed {now : Int} : om.killSwitchState = .kNormal → Killed cfg om om' (cancelBatch cfg om now) →
    Effect cfg om om' (.triggerKillSwitch now) ((cancelBatch cfg om now).map .cancelOrder)
  | killedAgain {now : Int} : om.killSwitchState ≠ .kNormal → om' = om → Effect cfg om om' (.triggerKillSwitch now) []

theorem checkDrainComplete_ok (ok : om.Ok cfg) : om.checkDrainComplete.Ok cfg := by
  obtain ⟨tracking, _, wheel⟩ := checkDrainComplete_tracking om
  exact tracking.ok (wheel ▸ ok.wheel) ok

theorem Applied.effect {op : Op} (ok : om.Ok cfg) (applied : Applied cfg om op sent om') : om'.Ok cfg ∧
    Effect cfg om om' op sent := by
  cases applied with
  | refused ended =>
    have kept := ended.kept ok
    exact ⟨kept.ok, .refused kept⟩
  | placed ended =>
    have placed := ended.placed ok
    exact ⟨placed.ok, .placed placed⟩
  | unmodified => exact ⟨ok, .unmodified ok.kept⟩
  | @modified signal _ _ reprices order =>
    have kept := (ok.kept.activated (om.repriced signal).activeOrders).counted .modifiesSent 1
    subst order
    exact ⟨kept.ok, .modified kept reprices rfl rfl rfl⟩
  | acked =>
    have kept := ok.kept.counted .acksReceived 1
    exact ⟨kept.ok, .acked kept⟩
  | modifyAcked =>
    have kept := ok.kept.counted .modifiesAcked 1
    exact ⟨kept.ok, .modifyAcked kept⟩
  | modifyUnknown =>
    have kept := ok.kept.counted .modifiesRejected 1
    exact ⟨kept.ok, .modifyRejected kept⟩
  | @modifyRejected reject info found =>
    obtain ⟨activeOrders, cleared⟩ := clearActiveIfMatch_eq cfg om info.symbolId info.side reject.clientOrderId
    have kept := (ok.kept.activated activeOrders).counted .modifiesRejected 1
    rw [cleared]
    exact ⟨kept.ok, .modifyRejected kept⟩
  | rejected dropped =>
    have settled := (dropOrder_settled ok dropped).counted .rejectsReceived 1
    exact ⟨settled.1, .rejected settled⟩
  | @filled fill _ more booked =>
    have booked := booked ▸ bookFill_spec ok fill
    have kept := (booked.ok.kept.counted .fillsReceived 1).counted .totalFillQty fill.fillQty
    exact ⟨kept.ok, .filled booked more kept⟩
  | @completed fill _ _ last dropped booked =>
    have booked := booked ▸ bookFill_spec ok fill
    have settled := ((dropOrder_settled booked.ok dropped).counted .fillsReceived 1).counted .totalFillQty fill.fillQty
    exact ⟨settled.1, .completed booked last settled⟩
  | cancelled dropped =>
    have settled := dropOrder_settled ok dropped
    exact ⟨checkDrainComplete_ok settled.1, .cancelled settled rfl⟩
  | cancelUnknown => exact ⟨checkDrainComplete_ok ok, .cancelUnknown rfl⟩
  | cancelRejected known dropped =>
    have settled := dropOrder_settled ok dropped
    exact ⟨checkDrainComplete_ok settled.1, .cancelRejected known settled rfl⟩
  | @early nowNs _ =>
    have quiet : Compacted om om := ⟨Apart.refl, rfl, rfl, .inl rfl⟩
    have effect : Effect cfg om om (.advanceTimeouts nowNs) (List.map .cancelOrder []) := .expired ok.kept .refl quiet
    exact ⟨ok, effect⟩
  | @expired nowNs _ wheel ids _ _ advanced =>
    have kept : Kept cfg om (om.ticked nowNs wheel) :=
      ⟨⟨ok.map, tickTimes_ok ok.wheel advanced.ticks, ok.indexed⟩, ⟨rfl, rfl, rfl⟩, ⟨rfl, rfl, rfl⟩⟩
    obtain ⟨_, _, done, ok₂, closes⟩ := expireOrders_spec kept.ok nowNs ids []
    obtain ⟨_, rfl⟩ := Prod.mk.inj (mem_unique advanced.expired done)
    obtain ⟨ok', compacted⟩ := maybeCompactOutstanding_spec ok₂
    rw [← advanced.compacted] at ok' compacted
    exact ⟨ok', .expired kept closes compacted⟩
  | @killed now wheel normal reset =>
    obtain ⟨_, reset', wheelOk⟩ := ok.wheel.reset
    obtain rfl := mem_unique reset reset'
    have ok' : Ok cfg { om with
        timeoutWheel := wheel, pendingCancelCount := (cancelBatch cfg om now).length
        killSwitchState := if (cancelBatch cfg om now).length = 0 then .kComplete else .kDraining } :=
          ⟨ok.map, wheelOk, ok.indexed⟩
    exact ⟨ok', .killed normal ⟨ok', ⟨rfl, rfl, rfl⟩, rfl, rfl, rfl⟩⟩
  | killedAgain killed => exact ⟨ok, .killedAgain killed rfl⟩

theorem apply_effect {op : Op} (ok : om.Ok cfg) (applied : om.apply cfg op = some (sent, om')) :
    om'.Ok cfg ∧ Effect cfg om om' op sent :=
  (apply_cases ok applied).effect ok

theorem run_ok {ops : List Op} {a : Logged} (created : create cfg = some om)
    (ran : Logged.run cfg ops { om } = some a) : a.om.Ok cfg := by
  refine Transition.run_keeps (fun a => a.om.Ok cfg) ?_ (create_ok created).1 ran
  intro a op a' ok stepped
  obtain ⟨sent, om', applied, rfl⟩ := Logged.step_eq_some.mp stepped
  exact (apply_effect ok applied).1

end OrderManager

end TickToTrade.Oms
