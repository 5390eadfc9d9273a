import TickToTrade.Oms.Runs

/-! Every way in which a call of the order manager ends, with the state it leaves. -/

namespace TickToTrade.Oms.OrderManager
open Ds Probing Option

variable {cfg : Config} {om om' : OrderManager}
variable {symIdx : Nat} {now sendTs : Int} {generated : Bool}

/-- The map and the wheel are in order, and every tracked order has a symbol of this manager. -/
structure Ok (cfg : Config) (om : OrderManager) : Prop where
  map : om.outstanding.Ok
  wheel : om.timeoutWheel.Ok
  indexed : ∀ id info, om.outstanding.content id = some info → cfg.symbolIndex info.symbolId = some (info.symbolId - 1)

theorem Ok.find (ok : om.Ok cfg) (id : Nat) : om.outstanding.find id = some (om.outstanding.content id) :=
  HashMap.Ok.find_eq ok.map id

theorem symbolIndex_eq_some {symbolId : Nat} (known : cfg.symbolIndex symbolId = some symIdx) :
    symbolId = symIdx + 1 ∧ symIdx < cfg.maxSymbols := by
  unfold Config.symbolIndex at known
  split at known
  · cases known
  · have same := some.inj known
    omega

theorem symbolIndex_pred {symbolId : Nat} (known : cfg.symbolIndex symbolId = some symIdx) : symIdx = symbolId - 1 := by
  have both := symbolIndex_eq_some known
  omega

/-! ### Signals -/

theorem refill_frame (refilled : om.refill cfg now = some om') :
    ∃ tokens lastRefillTs, om' = { om with tokens, lastRefillTs } := by
  unfold refill at refilled
  dsimp only at refilled
  split at refilled
  · exact ⟨om.tokens, om.lastRefillTs, (some.inj refilled).symm⟩
  split at refilled
  · cases refilled
  · exact ⟨_, _, (some.inj refilled).symm⟩

def RefillDue (cfg : Config) (om : OrderManager) (now : Int) : Prop :=
  cfg.refillIntervalNs ≤ toInt64 (now - om.lastRefillTs)
  deriving Decidable

def refilledTokens (cfg : Config) (om : OrderManager) (now : Int) : Nat :=
  if RefillDue cfg om now then
    let newTokens := Int.toNat ((toInt64 (now - om.lastRefillTs)).tdiv cfg.refillIntervalNs % 2 ^ 32)
    min ((om.tokens + newTokens) % 2 ^ 32) cfg.maxOrdersPerWindow
  else om.tokens

theorem refill_tokens (refilled : om.refill cfg now = some om') : om'.tokens = refilledTokens cfg om now := by
  unfold refill at refilled
  dsimp only at refilled
  split at refilled
  · rename_i early
    cases refilled
    exact (if_neg (Int.not_le.mpr early)).symm
  rename_i due
  split at refilled
  · cases refilled
  · cases refilled
    exact (if_pos (Int.not_lt.mp due)).symm

/-- The checks before the rate check: kill switch, both limits on outstanding orders, size and notional. -/
@[mk_iff]
structure EarlyChecks (cfg : Config) (om : OrderManager) (signal : Signal) : Prop where
  normal : om.killSwitchState = .kNormal
  room : om.outstandingCount < cfg.maxOutstanding
  symbolRoom : om.outstandingPerSymbol (signal.symbolId - 1) < cfg.maxOutstandingPerSymbol
  size : signal.qty ≤ cfg.maxOrderSize
  notional : notional signal ≤ cfg.maxNotional

@[mk_iff]
structure Passes (cfg : Config) (om : OrderManager) (signal : Signal) (now : Int) : Prop extends
    EarlyChecks cfg om signal where
  token : 0 < refilledTokens cfg om now
  position : absPosition (om.projectedPosition (signal.symbolId - 1) signal) ≤ cfg.maxPosition

instance (signal : Signal) : Decidable (EarlyChecks cfg om signal) := decidable_of_iff _ (earlyChecks_iff ..).symm

instance (signal : Signal) : Decidable (Passes cfg om signal now) := decidable_of_iff _ (passes_iff ..).symm

def unplaced (om : OrderManager) (timeoutWheel : TimingWheel Unit) (outstanding : HashMap Nat OrderInfo) :
    OrderManager :=
  { om with nextOrderId := (om.nextOrderId + 1) % 2 ^ 64, timeoutWheel, outstanding }

def withOrder (om : OrderManager) (symIdx : Nat) (signal : Signal) (timeoutWheel : TimingWheel Unit)
    (outstanding : HashMap Nat OrderInfo) : OrderManager :=
  { om.unplaced timeoutWheel outstanding with
    outstandingCount := (om.outstandingCount + 1) % 2 ^ 32
    outstandingPerSymbol :=
      Function.update om.outstandingPerSymbol symIdx ((om.outstandingPerSymbol symIdx + 1) % 2 ^ 32)
    tokens := om.tokens - 1
    activeOrders := (om.setActive symIdx signal.side ⟨om.nextOrderId, signal.price, signal.qty, true⟩).activeOrders }

def orderInfo (signal : Signal) (sendTs : Int) (timerHandle : Nat) : OrderInfo :=
  { side := signal.side, price := signal.price, qty := signal.qty, symbolId := signal.symbolId, sendTs, timerHandle }

variable {signal : Signal}

/-- `placeOrder`: a timer, an entry in the map, and the timer is cancelled if the map is full. -/
theorem placeOrder_cases {out : NewOrder}
    (placed : om.placeOrder cfg symIdx signal sendTs = some (generated, out, om')) :
    out = ⟨om.nextOrderId, signal.symbolId, signal.side, signal.price, signal.qty, sendTs⟩ ∧
    ∃ timerHandle wheel outstanding, om.timeoutWheel.schedule () om.nextOrderId cfg.delayTicks =
    some (timerHandle, wheel) ∧
      om.outstanding.insert om.nextOrderId (orderInfo signal sendTs timerHandle) = some (generated, outstanding) ∧
      ((generated = false ∧ ∃ found wheel', wheel.cancel timerHandle = some (found, wheel') ∧
        om' = om.unplaced wheel' outstanding) ∨
        (generated = true ∧ om' = om.withOrder symIdx signal wheel outstanding)) := by
  obtain ⟨⟨timerHandle, wheel⟩, scheduled, placed⟩ := bind_eq_some_iff.mp placed
  obtain ⟨⟨inserted, outstanding⟩, result, placed⟩ := bind_eq_some_iff.mp placed
  cases inserted with
  | false =>
    obtain ⟨⟨found, wheel'⟩, cancelled, placed⟩ := bind_eq_some_iff.mp placed
    simp only [pure_def, some.injEq, Prod.mk.injEq] at placed
    obtain ⟨rfl, rfl, rfl⟩ := placed
    exact ⟨rfl, timerHandle, wheel, outstanding, scheduled, result, .inl ⟨rfl, found, wheel', cancelled, rfl⟩⟩
  | true =>
    simp only [Bool.not_true, Bool.false_eq_true, if_false, pure_def, some.injEq, Prod.mk.injEq] at placed
    obtain ⟨rfl, rfl, rfl⟩ := placed
    exact ⟨rfl, timerHandle, wheel, outstanding, scheduled, result, .inr ⟨rfl, rfl⟩⟩

/-- The ways in which `on_signal` ends, with its answer. -/
inductive Signalled (cfg : Config) (om : OrderManager) (signal : Signal) (now sendTs : Int) :
    Bool → NewOrder → OrderManager → Prop
  | early {out : NewOrder} (stat : Stat) : Signalled cfg om signal now sendTs false out (om.count stat 1)
  | late {out : NewOrder} {om₁ : OrderManager} (stat : Stat) (refilled : om.refill cfg now = some om₁) :
    Signalled cfg om signal now sendTs false out (om₁.count stat 1)
  | passed {generated : Bool} {out : NewOrder} {om₁ om' : OrderManager}
    (known : cfg.symbolIndex signal.symbolId = some (signal.symbolId - 1)) (passes : Passes cfg om signal now)
    (refilled : om.refill cfg now = some om₁)
    (placed : om₁.placeOrder cfg (signal.symbolId - 1) signal sendTs = some (generated, out, om')) :
    Signalled cfg om signal now sendTs generated out om'

theorem onSignal_cases {out out' : NewOrder}
    (done : om.onSignal cfg signal now sendTs out = some (generated, out', om')) :
    Signalled cfg om signal now sendTs generated out' om' := by
  unfold onSignal at done
  simp only [bind_eq_bind] at done
  split at done
  · cases done
    exact .early _
  rename_i normal
  split at done
  · cases done
    exact .early _
  rename_i room
  obtain ⟨symIdx, known, done⟩ := bind_eq_some_iff.mp done
  obtain rfl := symbolIndex_pred known
  split at done
  · cases done
    exact .early _
  rename_i symbolRoom
  split at done
  · cases done
    exact .early _
  rename_i size
  split at done
  · cases done
    exact .early _
  rename_i notional
  obtain ⟨om₁, refilled, done⟩ := bind_eq_some_iff.mp done
  split at done
  · cases done
    exact .late _ refilled
  rename_i token
  split at done
  · cases done
    exact .late _ refilled
  rename_i position
  have before : om₁.projectedPosition (signal.symbolId - 1) signal =
      om.projectedPosition (signal.symbolId - 1) signal := by
    obtain ⟨tokens, lastRefillTs, rfl⟩ := refill_frame refilled
    rfl
  rw [before] at position
  rw [refill_tokens refilled] at token
  exact .passed known ⟨⟨by simpa using normal, by omega, by omega, by omega, by omega⟩, Nat.pos_of_ne_zero token,
    Int.not_lt.mp position⟩ refilled done

/-- The slot that a signal speaks of. -/
def slot (om : OrderManager) (signal : Signal) : ActiveOrder := om.activeOrders (signal.symbolId - 1) signal.side

/-- The slot of a signal rests at another price. -/
@[mk_iff]
structure Reprices (om : OrderManager) (signal : Signal) : Prop where
  normal : om.killSwitchState = .kNormal
  resting : (om.slot signal).resting = true
  price : (om.slot signal).price ≠ signal.price

instance (signal : Signal) : Decidable (Reprices om signal) := decidable_of_iff _ (reprices_iff ..).symm

def repriced (om : OrderManager) (signal : Signal) : OrderManager :=
  om.setActive (signal.symbolId - 1) signal.side { om.slot signal with price := signal.price, qty := signal.qty }

/-- A modify is sent for a slot that rests, and leaves the slot with its order. -/
theorem checkModify_cases {out out' : ModifyOrder}
    (done : om.checkModify cfg signal sendTs out = some (generated, out', om')) :
    (generated = false ∧ om' = om) ∨ (generated = true ∧ Reprices om signal ∧
      cfg.symbolIndex signal.symbolId = some (signal.symbolId - 1) ∧
      out' = ⟨(om.slot signal).clientOrderId, signal.symbolId, signal.price, signal.qty, sendTs⟩ ∧
      om' = (om.repriced signal).count .modifiesSent 1) := by
  have refused : some (false, out, om) = some (generated, out', om') → generated = false ∧ om' = om := by
    intro same
    simp only [some.injEq, Prod.mk.injEq] at same
    exact ⟨same.1.symm, same.2.2.symm⟩
  unfold checkModify at done
  simp only [bind_eq_bind, pure_def] at done
  split at done
  · exact .inl (refused done)
  rename_i normal
  obtain ⟨symIdx, known, done⟩ := bind_eq_some_iff.mp done
  obtain rfl := symbolIndex_pred known
  split at done
  · exact .inl (refused done)
  rename_i resting
  split at done
  · exact .inl (refused done)
  rename_i price
  simp only [some.injEq, Prod.mk.injEq] at done
  obtain ⟨rfl, rfl, rfl⟩ := done
  exact .inr ⟨rfl, ⟨by simpa using normal, by simpa [slot] using resting, price⟩, known, rfl, rfl⟩

/-! ### Responses, timeouts and the kill switch -/

theorem bookFill_frame (cfg : Config) (om : OrderManager) (info : Option OrderInfo) (fillQty : Nat) :
    ∃ netPosition, om.bookFill cfg info fillQty = { om with netPosition } := by
  unfold bookFill
  cases info with
  | none => exact ⟨om.netPosition, rfl⟩
  | some info =>
    dsimp only
    split
    · exact ⟨om.netPosition, rfl⟩
    · exact ⟨_, rfl⟩

def elapsedTicks (om : OrderManager) (nowNs : Int) : Nat :=
  ((toInt64 (nowNs - om.lastAdvanceNs)).tdiv Config.kTickIntervalNs % 2 ^ 32).toNat

def ticked (om : OrderManager) (nowNs : Int) (timeoutWheel : TimingWheel Unit) : OrderManager :=
  { om with timeoutWheel, lastAdvanceNs := toInt64 (om.lastAdvanceNs + om.elapsedTicks nowNs * Config.kTickIntervalNs) }

/-- A call of `advance_timeouts` that gets as far as the wheel. -/
structure Advanced (cfg : Config) (om om' : OrderManager) (nowNs : Int) (batch : List CancelOrder)
    (wheel : TimingWheel Unit) (ids : List Nat) (om₁ : OrderManager) : Prop where
  normal : om.killSwitchState = .kNormal
  due : Config.kTickIntervalNs ≤ toInt64 (nowNs - om.lastAdvanceNs)
  ticks : tickTimes cfg (om.elapsedTicks nowNs) (om.timeoutWheel, []) = some (wheel, ids)
  expired : expireOrders cfg nowNs ids (om.ticked nowNs wheel) [] = some (batch, om₁)
  compacted : om' = om₁.maybeCompactOutstanding

theorem advanceTimeouts_cases {nowNs : Int} {batch : List CancelOrder}
    (advanced : om.advanceTimeouts cfg nowNs = some (batch, om')) : (batch = [] ∧ om' = om ∧
      (om.killSwitchState ≠ .kNormal ∨ toInt64 (nowNs - om.lastAdvanceNs) < Config.kTickIntervalNs)) ∨
    ∃ wheel ids om₁, Advanced cfg om om' nowNs batch wheel ids om₁ := by
  unfold advanceTimeouts at advanced
  simp only [bind_eq_bind, pure_def] at advanced
  split at advanced
  case isTrue killed =>
    cases advanced
    exact .inl ⟨rfl, rfl, .inl killed⟩
  case isFalse normal =>
    split at advanced
    case isTrue early =>
      cases advanced
      exact .inl ⟨rfl, rfl, .inr early⟩
    case isFalse due =>
      obtain ⟨⟨wheel, ids⟩, ticks, advanced⟩ := bind_eq_some_iff.mp advanced
      obtain ⟨⟨batch₁, om₁⟩, expired, advanced⟩ := bind_eq_some_iff.mp advanced
      cases advanced
      exact .inr ⟨wheel, ids, om₁, by simpa using normal, Int.not_lt.mp due, ticks, expired, rfl⟩

def cancelBatch (cfg : Config) (om : OrderManager) (now : Int) : List CancelOrder :=
  (om.outstanding.entries.take cfg.maxOutstanding).map fun entry => ⟨entry.1, entry.2.symbolId, now⟩

/-! ### One call -/

inductive Applied (cfg : Config) (om : OrderManager) : Op → List Request → OrderManager → Prop
  | refused {signal : Signal} {now sendTs : Int} {out : NewOrder} {om' : OrderManager}
    (ended : Signalled cfg om signal now sendTs false out om') : Applied cfg om (.signal signal now sendTs) [] om'
  | placed {signal : Signal} {now sendTs : Int} {out : NewOrder} {om' : OrderManager}
    (ended : Signalled cfg om signal now sendTs true out om') : Applied cfg om (.signal signal now sendTs)
    [.newOrder out] om'
  | unmodified {signal : Signal} {sendTs : Int} : Applied cfg om (.modify signal sendTs) [] om
  | modified {signal : Signal} {sendTs : Int} {out : ModifyOrder} (reprices : Reprices om signal)
    (order : out = ⟨(om.slot signal).clientOrderId, signal.symbolId, signal.price, signal.qty, sendTs⟩) :
    Applied cfg om (.modify signal sendTs) [.modifyOrder out] ((om.repriced signal).count .modifiesSent 1)
  | acked {ack : OrderAck} : Applied cfg om (.orderAck ack) [] (om.count .acksReceived 1)
  | modifyAcked {ack : ModifyAck} : Applied cfg om (.modifyAck ack) [] (om.count .modifiesAcked 1)
  | modifyUnknown {reject : ModifyReject} : Applied cfg om (.modifyReject reject) [] (om.count .modifiesRejected 1)
  | modifyRejected {reject : ModifyReject} {info : OrderInfo}
    (found : om.outstanding.content reject.clientOrderId = some info) : Applied cfg om (.modifyReject reject) []
      ((om.clearActiveIfMatch cfg info.symbolId info.side reject.clientOrderId).count .modifiesRejected 1)
  | rejected {reject : OrderReject} {om₁ : OrderManager}
    (dropped : om.dropOrder cfg reject.clientOrderId (om.outstanding.content reject.clientOrderId) = some om₁) :
    Applied cfg om (.orderReject reject) [] (om₁.count .rejectsReceived 1)
  | filled {fill : FillReport} {netPosition : Nat → Int} (more : fill.remainingQty ≠ 0)
    (booked : om.bookFill cfg (om.outstanding.content fill.clientOrderId) fill.fillQty = { om with netPosition }) :
    Applied cfg om (.fill fill) []
    ((({ om with netPosition } : OrderManager).count .fillsReceived 1).count .totalFillQty fill.fillQty)
  | completed {fill : FillReport} {netPosition : Nat → Int} {om₁ : OrderManager} (last : fill.remainingQty = 0)
    (dropped : ({ om with netPosition } : OrderManager).dropOrder cfg fill.clientOrderId
      (om.outstanding.content fill.clientOrderId) = some om₁)
    (booked : om.bookFill cfg (om.outstanding.content fill.clientOrderId) fill.fillQty = { om with netPosition }) :
    Applied cfg om (.fill fill) [] ((om₁.count .fillsReceived 1).count .totalFillQty fill.fillQty)
  | cancelled {ack : CancelAck} {om₁ : OrderManager}
    (dropped : om.dropOrder cfg ack.clientOrderId (om.outstanding.content ack.clientOrderId) = some om₁) :
    Applied cfg om (.cancelAck ack) [] om₁.checkDrainComplete
  | cancelUnknown {reject : CancelReject} (unknown : om.outstanding.content reject.clientOrderId = none) :
    Applied cfg om (.cancelReject reject) [] om.checkDrainComplete
  | cancelRejected {reject : CancelReject} {om₁ : OrderManager}
    (known : om.outstanding.content reject.clientOrderId ≠ none)
    (dropped : om.dropOrder cfg reject.clientOrderId (om.outstanding.content reject.clientOrderId) = some om₁) :
    Applied cfg om (.cancelReject reject) [] om₁.checkDrainComplete
  | early {nowNs : Int}
    (idle : om.killSwitchState ≠ .kNormal ∨ toInt64 (nowNs - om.lastAdvanceNs) < Config.kTickIntervalNs) :
    Applied cfg om (.advanceTimeouts nowNs) [] om
  | expired {nowNs : Int} {batch : List CancelOrder} {wheel : TimingWheel Unit} {ids : List Nat}
    {om₁ om' : OrderManager} (advanced : Advanced cfg om om' nowNs batch wheel ids om₁) :
    Applied cfg om (.advanceTimeouts nowNs) (batch.map .cancelOrder) om'
  | killed {now : Int} {timeoutWheel : TimingWheel Unit} (normal : om.killSwitchState = .kNormal)
    (reset : om.timeoutWheel.reset = some timeoutWheel) :
    Applied cfg om (.triggerKillSwitch now) ((cancelBatch cfg om now).map .cancelOrder) { om with
      timeoutWheel, pendingCancelCount := (cancelBatch cfg om now).length
      killSwitchState := if (cancelBatch cfg om now).length = 0 then .kComplete else .kDraining }
  | killedAgain {now : Int} (killed : om.killSwitchState ≠ .kNormal) : Applied cfg om (.triggerKillSwitch now) [] om

theorem onCancelReject_cases (ok : om.Ok cfg) {reject : CancelReject} (done : om.onCancelReject cfg reject = some om') :
    Applied cfg om (.cancelReject reject) [] om' := by
  simp only [onCancelReject, ok.find, bind_eq_bind, bind_some] at done
  cases found : om.outstanding.content reject.clientOrderId with
  | none =>
    rw [found] at done
    cases done
    exact .cancelUnknown found
  | some info =>
    rw [found] at done
    obtain ⟨om₁, dropped, done⟩ := bind_eq_some_iff.mp done
    cases done
    exact .cancelRejected (by simp [found]) (found ▸ dropped)

theorem onModifyReject_cases (ok : om.Ok cfg) {reject : ModifyReject} (done : om.onModifyReject cfg reject = some om') :
    Applied cfg om (.modifyReject reject) [] om' := by
  simp only [onModifyReject, ok.find, bind_eq_bind, bind_some] at done
  cases found : om.outstanding.content reject.clientOrderId with
  | none =>
    rw [found] at done
    cases done
    exact .modifyUnknown
  | some info =>
    rw [found] at done
    cases done
    exact .modifyRejected found

theorem onFill_cases (ok : om.Ok cfg) {fill : FillReport} (done : om.onFill cfg fill = some om') :
    Applied cfg om (.fill fill) [] om' := by
  simp only [onFill, ok.find, bind_eq_bind, bind_some] at done
  obtain ⟨netPosition, booked⟩ := bookFill_frame cfg om (om.outstanding.content fill.clientOrderId) fill.fillQty
  simp only [booked] at done
  split at done
  case isTrue last =>
    obtain ⟨om₁, dropped, done⟩ := bind_eq_some_iff.mp done
    cases done
    exact .completed last dropped booked
  case isFalse more =>
    cases done
    exact .filled more booked

theorem triggerKillSwitch_cases {batch : List CancelOrder} (done : om.triggerKillSwitch cfg now = some (batch, om')) :
    Applied cfg om (.triggerKillSwitch now) (batch.map .cancelOrder) om' := by
  unfold triggerKillSwitch at done
  split at done
  case isTrue killed =>
    cases done
    exact .killedAgain killed
  case isFalse normal =>
    obtain ⟨timeoutWheel, reset, done⟩ := bind_eq_some_iff.mp done
    cases done
    exact .killed (by simpa using normal) reset

theorem apply_cases {op : Op} {sent : List Request} (ok : om.Ok cfg) (applied : om.apply cfg op = some (sent, om')) :
    Applied cfg om op sent om' := by
  cases op with
  | signal signal now sendTs =>
    obtain ⟨⟨generated, out, om₁⟩, done, applied⟩ := bind_eq_some_iff.mp applied
    cases applied
    have ended := onSignal_cases done
    cases generated with
    | false => exact .refused ended
    | true => exact .placed ended
  | modify signal sendTs =>
    obtain ⟨⟨generated, out, om₁⟩, done, applied⟩ := bind_eq_some_iff.mp applied
    cases applied
    obtain ⟨rfl, rfl⟩ | ⟨rfl, reprices, -, order, rfl⟩ := checkModify_cases done
    · exact .unmodified
    · exact .modified reprices order
  | orderAck ack =>
    cases applied
    exact .acked
  | modifyAck ack =>
    cases applied
    exact .modifyAcked
  | orderReject reject =>
    obtain ⟨om₁, done, same⟩ := map_eq_some_iff.mp applied
    cases same
    simp only [onOrderReject, ok.find, bind_eq_bind, bind_some] at done
    obtain ⟨om₂, dropped, done⟩ := bind_eq_some_iff.mp done
    cases done
    exact .rejected dropped
  | fill fill =>
    obtain ⟨om₁, done, same⟩ := map_eq_some_iff.mp applied
    cases same
    exact onFill_cases ok done
  | cancelAck ack =>
    obtain ⟨om₁, done, same⟩ := map_eq_some_iff.mp applied
    cases same
    simp only [onCancelAck, ok.find, bind_eq_bind, bind_some] at done
    obtain ⟨om₂, dropped, done⟩ := bind_eq_some_iff.mp done
    cases done
    exact .cancelled dropped
  | cancelReject reject =>
    obtain ⟨om₁, done, same⟩ := map_eq_some_iff.mp applied
    cases same
    exact onCancelReject_cases ok done
  | modifyReject reject =>
    obtain ⟨om₁, done, same⟩ := map_eq_some_iff.mp applied
    cases same
    exact onModifyReject_cases ok done
  | advanceTimeouts nowNs =>
    obtain ⟨⟨batch, om₁⟩, done, applied⟩ := bind_eq_some_iff.mp applied
    cases applied
    obtain ⟨rfl, rfl, idle⟩ | ⟨wheel, ids, om₂, advanced⟩ := advanceTimeouts_cases done
    · exact .early idle
    · exact .expired advanced
  | triggerKillSwitch now =>
    obtain ⟨⟨batch, om₁⟩, done, applied⟩ := bind_eq_some_iff.mp applied
    cases applied
    exact triggerKillSwitch_cases done

end TickToTrade.Oms.OrderManager
