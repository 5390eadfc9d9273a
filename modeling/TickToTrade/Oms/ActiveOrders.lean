import TickToTrade.Oms.TrackedOrders

/-!
The resting orders of `active_orders`, one slot for a symbol and a side, against the orders in
`outstanding_`.
-/

namespace TickToTrade.Oms
open Ds Probing Option Function
open Logged (Along run)

namespace OrderManager

variable {cfg : Config} {om om₁ om' : OrderManager} {id : Nat} {Gone : Nat → Prop}

def Tracks (om : OrderManager) (id symbolId : Nat) (side : Side) : Prop :=
  ∃ info, om.outstanding.content id = some info ∧ info.symbolId = symbolId ∧ info.side = side

/-- The slot of a symbol index and a side refers to an order of that symbol and side. -/
def SlotsTracked (cfg : Config) (om : OrderManager) : Prop :=
  ∀ symIdx < cfg.maxSymbols, ∀ side, (om.activeOrders symIdx side).resting = true →
    om.Tracks (om.activeOrders symIdx side).clientOrderId (symIdx + 1) side

structure ActiveTracked (cfg : Config) (om : OrderManager) : Prop where
  slots : SlotsTracked cfg om
  modifies : ∀ signal sendTs out out' om', om.checkModify cfg signal sendTs out = some (true, out', om') →
    om.Tracks out'.clientOrderId signal.symbolId signal.side

/-- No order comes to rest, and a slot that names an order that is `Gone` rests no longer. -/
structure Retires (om om' : OrderManager) (Gone : Nat → Prop) : Prop where
  old : ∀ symIdx side, (om'.activeOrders symIdx side).resting = true → (om.activeOrders symIdx side).resting = true ∧
    (om'.activeOrders symIdx side).clientOrderId = (om.activeOrders symIdx side).clientOrderId
  gone : ∀ id info, Gone id → om.outstanding.content id = some info →
    (om'.activeOrders (info.symbolId - 1) info.side).resting = true →
    (om'.activeOrders (info.symbolId - 1) info.side).clientOrderId ≠ id

theorem retires_same (same : om'.activeOrders = om.activeOrders)
    (stays : ∀ id, Gone id → om.outstanding.content id = none) : Retires om om' Gone := by
  refine ⟨fun symIdx side resting => ?_, fun id info gone found => ?_⟩
  · rw [same] at resting ⊢
    exact ⟨resting, rfl⟩
  · exact nomatch (stays id gone).symm.trans found

theorem Retires.trans (first : Retires om om₁ Gone) (second : Retires om₁ om' fun _ => False) :
    Retires om om' Gone := by
  refine ⟨fun symIdx side resting => ?_, fun id info gone found resting => ?_⟩
  · obtain ⟨before, id₁⟩ := second.old symIdx side resting
    obtain ⟨start, id₀⟩ := first.old symIdx side before
    exact ⟨start, id₁.trans id₀⟩
  · obtain ⟨before, id₁⟩ := second.old _ _ resting
    rw [id₁]
    exact first.gone id info gone found before

/-- A slot whose order stays tracked goes on, and a slot whose order goes is cleared. -/
theorem SlotsTracked.retire (slots : SlotsTracked cfg om) (sheds : Sheds om om' Gone) (retires : Retires om om' Gone) :
    SlotsTracked cfg om' := by
  intro symIdx bound side resting
  obtain ⟨before, same⟩ := retires.old symIdx side resting
  obtain ⟨info, found, symbol, rfl⟩ := slots symIdx bound side before
  rw [← same] at found
  refine ⟨info, sheds.kept _ info found fun gone => ?_, symbol, rfl⟩
  have here : info.symbolId - 1 = symIdx := by omega
  refine retires.gone _ info gone found ?_ ?_
  · rwa [here]
  · rw [here]

/-! ### Responses -/

theorem setActive_of_ne {symIdx i : Nat} {side s : Side} (om : OrderManager) (active : ActiveOrder)
    (other : ¬ (i = symIdx ∧ s = side)) : (om.setActive symIdx side active).activeOrders i s = om.activeOrders i s := by
  unfold setActive
  dsimp only
  by_cases index : i = symIdx
  · subst index
    rw [update_self, update_of_ne fun same => other ⟨rfl, same⟩]
  · rw [update_of_ne index]

theorem setActive_self {symIdx : Nat} {side : Side} (om : OrderManager) (active : ActiveOrder) :
    (om.setActive symIdx side active).activeOrders symIdx side = active := by
  simp [setActive]

theorem clearActiveIfMatch_retires {info : OrderInfo} (known : cfg.symbolIndex info.symbolId = some (info.symbolId - 1))
    (found : om.outstanding.content id = some info) :
    Retires om (om.clearActiveIfMatch cfg info.symbolId info.side id) (· = id) := by
  unfold clearActiveIfMatch
  simp only [known]
  split
  case isTrue here =>
    refine ⟨fun symIdx side resting => ?_, ?_⟩
    · by_cases slot : symIdx = info.symbolId - 1 ∧ side = info.side
      · obtain ⟨rfl, rfl⟩ := slot
        rw [setActive_self] at resting
        cases resting
      · rw [setActive_of_ne om _ slot] at resting ⊢
        exact ⟨resting, rfl⟩
    · rintro _ info' rfl present resting
      obtain rfl := mem_unique found present
      rw [setActive_self] at resting
      cases resting
  case isFalse other =>
    refine ⟨fun symIdx side resting => ⟨resting, rfl⟩, ?_⟩
    rintro _ info' rfl present resting same
    obtain rfl := mem_unique found present
    simp [resting, same] at other

theorem releaseSymbol_active {symbolId : Nat} (done : om.releaseSymbol cfg symbolId = some om') :
    om'.activeOrders = om.activeOrders := by
  obtain ⟨symIdx, _, done⟩ := bind_eq_some_iff.mp done
  cases done
  rfl

theorem eraseOutstanding_active (done : om.eraseOutstanding id = some om') : om'.activeOrders = om.activeOrders := by
  obtain ⟨⟨_, outstanding⟩, _, done⟩ := bind_eq_some_iff.mp done
  cases done
  rfl

theorem maybeCompactOutstanding_active (om : OrderManager) : om.maybeCompactOutstanding.activeOrders =
    om.activeOrders := by
  obtain ⟨outstanding, same⟩ := maybeCompactOutstanding_frame om
  rw [same]

theorem checkDrainComplete_active (om : OrderManager) : om.checkDrainComplete.activeOrders = om.activeOrders := by
  unfold checkDrainComplete
  split <;> rfl

theorem Retires.of_active (retires : Retires om om₁ Gone) (same : om'.activeOrders = om₁.activeOrders) :
    Retires om om' Gone :=
  retires.trans (retires_same same fun _ gone => nomatch gone)

theorem dropOrder_retires (ok : om.Ok cfg) (done : om.dropOrder cfg id (om.outstanding.content id) = some om') :
    Retires om om' (· = id) := by
  have erase : ∀ {om₁ : OrderManager}, (do return (← om₁.eraseOutstanding id).maybeCompactOutstanding) = some om' →
      om'.activeOrders = om₁.activeOrders := by
    intro om₁ done
    obtain ⟨om₂, erased, done⟩ := bind_eq_some_iff.mp done
    cases done
    exact (maybeCompactOutstanding_active om₂).trans (eraseOutstanding_active erased)
  unfold dropOrder at done
  cases found : om.outstanding.content id with
  | none =>
    rw [found] at done
    exact retires_same (erase done) fun other same => same ▸ found
  | some info =>
    rw [found] at done
    obtain ⟨om₁, untracked, done⟩ := bind_eq_some_iff.mp done
    obtain ⟨⟨_, wheel⟩, _, untracked⟩ := bind_eq_some_iff.mp untracked
    have found₁ : ({ om with timeoutWheel := wheel } : OrderManager).outstanding.content id = some info := found
    have cleared := clearActiveIfMatch_retires (ok.indexed id info found) found₁
    have whole := cleared.of_active ((erase done).trans (releaseSymbol_active untracked))
    exact { whole with }

/-! ### Timeouts -/

theorem expireOrders_retires {nowNs : Int} {ids : List Nat} {batch batch' : List CancelOrder} (ok : om.Ok cfg)
    (done : expireOrders cfg nowNs ids om batch = some (batch', om')) : Retires om om' (· ∈ ids) := by
  induction ids generalizing om batch with
  | nil =>
    cases done
    exact retires_same rfl fun _ member => by cases member
  | cons coid rest ih =>
    unfold expireOrders at done
    simp only [ok.find, bind_eq_bind, bind_some] at done
    cases found : om.outstanding.content coid with
    | none =>
      rw [found] at done
      obtain ⟨old, gone⟩ := ih ok done
      refine ⟨old, fun id info member present => ?_⟩
      rcases List.mem_cons.mp member with rfl | later
      · cases found.symm.trans present
      · exact gone id info later present
    | some info =>
      rw [found] at done
      dsimp only at done
      have cleared := clearActiveIfMatch_retires (ok.indexed coid info found) found
      obtain ⟨activeOrders, same⟩ := clearActiveIfMatch_eq cfg om info.symbolId info.side coid
      rw [same] at done cleared
      have ok₁ : ({ om with activeOrders } : OrderManager).Ok cfg := { ok with }
      obtain ⟨om₁, om₂, released, erased, closed⟩ := ok₁.close found
      simp only [released, erased, bind_some] at done
      have still : (om₂.count .timeoutsFired 1).activeOrders = activeOrders :=
        (eraseOutstanding_active erased).trans (releaseSymbol_active released)
      have first : Retires om (om₂.count .timeoutsFired 1) (· = coid) := cleared.of_active still
      obtain ⟨old, gone⟩ := ih (closed.counted .timeoutsFired 1).ok done
      have whole := first.trans ⟨old, fun _ _ gone => by cases gone⟩
      refine ⟨whole.old, fun id info' member present => ?_⟩
      -- The first id is cleared by its own turn, the others are still tracked when their turn comes.
      by_cases here : id = coid
      · exact whole.gone id info' here present
      · refine gone id info' ((List.mem_cons.mp member).resolve_left here) ?_
        have content := closed.erased.content_eq ok.map
        rw [show (om₂.count .timeoutsFired 1).outstanding = om₂.outstanding from rfl, content,
          update_of_ne here]
        exact present

theorem Advanced.retires {nowNs : Int} {batch : List CancelOrder} {wheel : TimingWheel Unit} {ids : List Nat}
    (ok : om.Ok cfg) (advanced : Advanced cfg om om' nowNs batch wheel ids om₁) : Retires om om' (· ∈ ids) := by
  have retires := expireOrders_retires (advanced.ok ok) advanced.expired
  rw [advanced.compacted]
  have whole : Retires om om₁ (· ∈ ids) := { retires with }
  exact whole.of_active (maybeCompactOutstanding_active om₁)

/-! ### New orders and modifies -/

/-- The slot of a new order names it, and the other slots are as before. -/
structure Rests (om om' : OrderManager) (signal : Signal) (out : NewOrder) : Prop where
  slot : (om'.activeOrders (signal.symbolId - 1) signal.side).clientOrderId = out.clientOrderId
  others : ∀ symIdx side, ¬ (symIdx = signal.symbolId - 1 ∧ side = signal.side) →
    om'.activeOrders symIdx side = om.activeOrders symIdx side

variable {signal : Signal}

theorem Signalled.active {now sendTs : Int} {out : NewOrder}
    (ended : Signalled cfg om signal now sendTs false out om') : om'.activeOrders = om.activeOrders := by
  cases ended with
  | early stat => rfl
  | late stat refilled =>
    obtain ⟨tokens, lastRefillTs, rfl⟩ := refill_frame refilled
    rfl
  | passed known passes refilled placed =>
    obtain ⟨tokens, lastRefillTs, rfl⟩ := refill_frame refilled
    obtain ⟨-, _, _, _, -, -, ⟨-, _, _, -, rfl⟩ | ⟨taken, -⟩⟩ := placeOrder_cases placed
    · rfl
    · cases taken

theorem Signalled.rests {now sendTs : Int} {out : NewOrder} (ended : Signalled cfg om signal now sendTs true out om') :
    Rests om om' signal out := by
  cases ended with
  | passed known passes refilled placed =>
    obtain ⟨tokens, lastRefillTs, rfl⟩ := refill_frame refilled
    obtain ⟨rfl, _, _, _, -, -, ⟨refused, -⟩ | ⟨-, rfl⟩⟩ := placeOrder_cases placed
    · cases refused
    · refine ⟨?_, fun symIdx side other => setActive_of_ne _ _ other⟩
      unfold withOrder
      rw [setActive_self]

/-- A new order takes the slot of its symbol and side; the orders of the other slots stay tracked. -/
theorem SlotsTracked.place {now : Int} {out : NewOrder} (slots : SlotsTracked cfg om) (ok : om.Ok cfg)
    (placed : Placed cfg om om' signal now out) (rests : Rests om om' signal out) : SlotsTracked cfg om' := by
  obtain ⟨info, symbol, side, inserted⟩ := placed.inserted
  have content := inserted.content_eq ok.map
  have known := symbolIndex_eq_some placed.symbol
  intro symIdx bound s resting
  by_cases slot : symIdx = signal.symbolId - 1 ∧ s = signal.side
  · obtain ⟨rfl, rfl⟩ := slot
    rw [rests.slot]
    refine ⟨info, ?_, by omega, side⟩
    rw [content, update_self]
  · rw [rests.others symIdx s slot] at resting ⊢
    obtain ⟨old, found, which⟩ := slots symIdx bound s resting
    refine ⟨old, ?_, which⟩
    rw [content, update_of_ne]
    · exact found
    · intro same
      rw [same, placed.absent] at found
      cases found

theorem modified_retires (resting : (om.slot signal).resting = true) :
    Retires om (om.repriced signal) fun _ => False := by
  unfold repriced
  refine ⟨fun symIdx side still => ?_, fun _ _ gone => nomatch gone⟩
  by_cases slot : symIdx = signal.symbolId - 1 ∧ side = signal.side
  · obtain ⟨rfl, rfl⟩ := slot
    refine ⟨resting, ?_⟩
    rw [setActive_self]
    rfl
  · rw [setActive_of_ne om _ slot] at still ⊢
    exact ⟨still, rfl⟩

/-! ### Runs -/

/-- A call that spares the orders it does not close keeps every slot tracked. -/
theorem SlotsTracked.apply {op : Op} {sent : List Request} (slots : SlotsTracked cfg om) (ok : om.Ok cfg)
    (spares : om.SparesOthers op) (applied : om.apply cfg op = some (sent, om')) : SlotsTracked cfg om' := by
  have same : ∀ {om' : OrderManager}, om'.activeOrders = om.activeOrders → om'.outstanding = om.outstanding →
      SlotsTracked cfg om' := by
    intro om' active map
    unfold SlotsTracked Tracks
    rwa [active, map]
  cases apply_cases ok applied with
  | refused ended => exact same ended.active (ended.kept ok).tracking.outstanding
  | placed ended => exact slots.place ok (ended.placed ok) ended.rests
  | unmodified | acked | modifyAcked | modifyUnknown | filled | early | killed | killedAgain => exact same rfl rfl
  | modified reprices => exact slots.retire (sheds_same rfl rfl) ((modified_retires reprices.resting).of_active rfl)
  | modifyRejected found =>
    have cleared := clearActiveIfMatch_retires (ok.indexed _ _ found) found
    exact slots.retire ((clearActiveIfMatch_sheds om _ _ _).counted _ _) (show Retires om _ fun _ => False from
      ⟨cleared.old, fun _ _ gone => gone.elim⟩)
  | rejected dropped =>
    exact slots.retire ((dropOrder_sheds ok (spares _ rfl) dropped).counted _ _)
      ((dropOrder_retires ok dropped).of_active rfl)
  | @completed fill netPosition om₁ last dropped =>
    have ok₁ := ok.of_position netPosition
    have sheds := dropOrder_sheds ok₁ (spares _ (if_pos last)) dropped
    have retires := dropOrder_retires ok₁ dropped
    exact slots.retire { sheds with } { retires with }
  | cancelled dropped =>
    exact slots.retire ((dropOrder_sheds ok (spares _ rfl) dropped).trans (checkDrainComplete_sheds _))
      ((dropOrder_retires ok dropped).of_active (checkDrainComplete_active _))
  | cancelUnknown => exact same (checkDrainComplete_active om) (checkDrainComplete_tracking om).1.outstanding
  | cancelRejected known dropped =>
    exact slots.retire ((dropOrder_sheds ok (spares _ rfl) dropped).trans (checkDrainComplete_sheds _))
      ((dropOrder_retires ok dropped).of_active (checkDrainComplete_active _))
  | expired advanced => exact slots.retire (advanced.sheds ok spares).1 (advanced.retires ok)

theorem SlotsTracked.active (slots : SlotsTracked cfg om) : ActiveTracked cfg om := by
  refine ⟨slots, fun signal sendTs out out' om' done => ?_⟩
  obtain ⟨refused, _⟩ | ⟨_, reprices, known, rfl, _⟩ := checkModify_cases done
  · cases refused
  · have index := symbolIndex_eq_some known
    obtain ⟨info, found, symbol, side⟩ := slots _ index.2 _ reprices.resting
    exact ⟨info, found, symbol.trans index.1.symm, side⟩

end OrderManager

open OrderManager

variable {cfg : Config} {om : OrderManager} {a : Logged} {ops : List Op}

/-- What a run keeps for the active orders. -/
structure Slotted (cfg : Config) (om : OrderManager) : Prop where
  ok : om.Ok cfg
  slots : SlotsTracked cfg om

theorem Slotted.step {a' : Logged} {op : Op} (slotted : Slotted cfg a.om) (spares : a.om.SparesOthers op)
    (stepped : a.step cfg op = some a') : Slotted cfg a'.om := by
  obtain ⟨sent, om', applied, rfl⟩ := Logged.step_eq_some.mp stepped
  exact ⟨(apply_effect slotted.ok applied).1, slotted.slots.apply slotted.ok spares applied⟩

/-- In a run that never clears the map under an order it does not close, every resting slot refers to an order that is
tracked for its symbol and side, and so does every modify. -/
theorem run_activeTracked (created : create cfg = some om)
    (spares : Along cfg (fun a op => a.om.SparesOthers op) ops { om })
    (ran : run cfg ops { om } = some a) : ActiveTracked cfg a.om := by
  obtain ⟨ok, _, fields⟩ := create_ok created
  have start : Slotted cfg ({ om } : Logged).om := by
    refine ⟨ok, fun symIdx _ side resting => ?_⟩
    rw [fields] at resting
    cases resting
  exact (Transition.run_invariant Slotted.step start spares ran).slots.active

/-- Order 1 is rejected and order 3 follows order 2, which then times out. -/
def twoRestingOps : List Op := [
  .signal (buy 5) 0 0, .orderReject { clientOrderId := 1 }, .signal (buy 5) 0 0, .advanceTimeouts 1000000,
  .signal (buy 5) 0 0, .advanceTimeouts 2000000]

theorem run_activeTracked_twoResting : ∃ a, create smallConfig = some smallManager ∧
    Along smallConfig (fun a op => a.om.SparesOthers op) twoRestingOps { om := smallManager } ∧
    run smallConfig twoRestingOps { om := smallManager } = some a ∧
    (a.om.activeOrders 0 .kBid).resting = true ∧ ActiveTracked smallConfig a.om := by
  have spares : Along smallConfig (fun a op => a.om.SparesOthers op) twoRestingOps { om := smallManager } := by
    decide +kernel
  obtain ⟨a, ran, resting⟩ : ∃ a, run smallConfig twoRestingOps { om := smallManager } = some a ∧
      (a.om.activeOrders 0 .kBid).resting = true := by decide +kernel
  exact ⟨a, create_smallManager, spares, ran, resting, run_activeTracked create_smallManager spares ran⟩

/-- The acknowledgement of the cancel of order 2 comes after its timeout: the count falls to zero, and the map is
cleared while order 3 rests. -/
def clearedOps : List Op := twoRestingOps ++ [.cancelAck { clientOrderId := 2 }]

theorem run_not_activeTracked : ∃ a out om', create smallConfig = some smallManager ∧
    run smallConfig clearedOps { om := smallManager } = some a ∧
    (a.om.activeOrders 0 .kBid).resting = true ∧ (a.om.activeOrders 0 .kBid).clientOrderId = 3 ∧
    a.om.checkModify smallConfig { buy 5 with price := 101 } 0 blankModify = some (true, out, om') ∧
      out.clientOrderId = 3 ∧
    a.om.outstanding.content 3 = none ∧ ¬ ActiveTracked smallConfig a.om := by
  obtain ⟨a, ran, resting, named, unknown, ⟨_, out, om'⟩, modified, rfl, target⟩ :
      ∃ a, run smallConfig clearedOps { om := smallManager } = some a ∧
      (a.om.activeOrders 0 .kBid).resting = true ∧ (a.om.activeOrders 0 .kBid).clientOrderId = 3 ∧
      a.om.outstanding.content 3 = none ∧
      ∃ r, a.om.checkModify smallConfig { buy 5 with price := 101 } 0 blankModify = some r ∧ r.1 = true ∧
        r.2.1.clientOrderId = 3 := by decide +kernel
  refine ⟨a, out, om', create_smallManager, ran, resting, named, modified, target, unknown, fun active => ?_⟩
  obtain ⟨info, found, _⟩ := active.slots 0 (by decide) .kBid resting
  rw [named, unknown] at found
  cases found

end TickToTrade.Oms
