import TickToTrade.Oms.Position
import TickToTrade.Lib.ListSums

/-!
The position limit against the quantity that the exchange may still fill. `on_signal` projects one order
on the filled position.
-/

namespace TickToTrade.Oms
open Ds Probing OrderManager ListSums Option Function
open Logged (Along run)

variable {cfg : Config} {om om' : OrderManager} {a a' : Logged} {ops : List Op} {op : Op}
  {sent : List Request} {id : Nat} {log : List Event}
variable {sendTs : Int} {out : ModifyOrder} {side : Side}

/-! ### What the exchange may fill -/

/-- An order at the exchange: what is left of it, and the quantities of the modifies not yet answered. -/
structure Live where
  qty : Nat := 0
  asked : List Nat := []

def Live.exposure (live : Live) : Nat := live.qty + live.asked.sum

def Live.replace : Live → Live
  | ⟨qty, []⟩ => ⟨qty, []⟩
  | ⟨_, next :: rest⟩ => ⟨next, rest⟩

def Event.asks (e : Event) (id : Nat) : List Nat :=
  e.sent.filterMap fun
    | .modifyOrder modify => if modify.clientOrderId = id then some modify.newQty else none
    | _ => none

def Event.live (e : Event) (id : Nat) (live : Live) : Live :=
  match e.op with
  | .signal .. =>
    match e.issued id with
    | some order => { qty := order.qty }
    | none => live
  | .modify .. => { live with asked := live.asked ++ e.asks id }
  | .fill report => if report.clientOrderId = id then { live with qty := live.qty - report.fillQty } else live
  | .modifyAck ack => if ack.clientOrderId = id then live.replace else live
  | .modifyReject reject => if reject.clientOrderId = id then { live with asked := live.asked.tail } else live
  | _ => live

def liveOf : List Event → Nat → Live
  | [], _ => {}
  | e :: earlier, id => e.live id (liveOf earlier id)

/-- The exchange fills an outstanding order, for no more than is left of it. -/
def FillAllowed (a : Logged) (op : Op) : Prop :=
  ∀ report ∈ op.report, (a.om.outstanding.content report.clientOrderId).isSome = true ∧
    report.fillQty ≤ (liveOf a.log report.clientOrderId).qty
  deriving Decidable

theorem replace_exposure (live : Live) : live.replace.exposure ≤ live.exposure := by
  obtain ⟨qty, asked⟩ := live
  cases asked with
  | nil => exact Nat.le_refl _
  | cons next rest =>
    simp only [Live.replace, Live.exposure, List.sum_cons]
    omega

theorem Event.asks_none {e : Event} (quiet : ∀ out, .modifyOrder out ∉ e.sent) (id : Nat) : e.asks id = [] := by
  unfold Event.asks
  rw [List.filterMap_eq_nil_iff]
  intro request member
  cases request with
  | newOrder order => rfl
  | modifyOrder modify => exact absurd member (quiet modify)
  | cancelOrder cancel => rfl

theorem exposure_quiet (unsent : ∀ out, .newOrder out ∉ sent) (unmodified : ∀ out, .modifyOrder out ∉ sent) (id : Nat) :
    (liveOf (⟨op, sent⟩ :: log) id).exposure ≤ (liveOf log id).exposure := by
  have issued : Event.issued ⟨op, sent⟩ id = none := Event.issued_none unsent id
  have asks : Event.asks ⟨op, sent⟩ id = [] := Event.asks_none unmodified id
  rw [liveOf]
  generalize liveOf log id = live
  cases op with
  | signal signal now sendTs => simp [Event.live, issued]
  | modify signal sendTs => simp [Event.live, asks]
  | fill report =>
    simp only [Event.live]
    split <;> simp only [Live.exposure]
    · omega
    · exact Nat.le_refl _
  | modifyAck ack =>
    simp only [Event.live]
    split
    · exact replace_exposure live
    · exact Nat.le_refl _
  | modifyReject reject =>
    obtain ⟨qty, asked⟩ := live
    simp only [Event.live]
    split
    · cases asked with
      | nil => exact Nat.le_refl _
      | cons next rest =>
        simp only [Live.exposure, List.tail_cons, List.sum_cons]
        omega
    · exact Nat.le_refl _
  | orderAck | orderReject | cancelAck | cancelReject | advanceTimeouts | triggerKillSwitch => exact Nat.le_refl _

variable {report : FillReport}

theorem exposure_fill (allowed : report.fillQty ≤ (liveOf log report.clientOrderId).qty) :
    (liveOf (⟨.fill report, sent⟩ :: log) report.clientOrderId).exposure + report.fillQty ≤
      (liveOf log report.clientOrderId).exposure := by
  simp only [liveOf, Event.live, if_true, Live.exposure]
  omega

variable {signal : Signal}

theorem exposure_placed {now : Int} {out : NewOrder} :
    (liveOf (⟨.signal signal now sendTs, [.newOrder out]⟩ :: log) id).exposure =
      if out.clientOrderId = id then out.qty else (liveOf log id).exposure := by
  by_cases same : out.clientOrderId = id <;> simp [liveOf, Event.live, Event.issued, same, Live.exposure]

theorem exposure_modified :
    (liveOf (⟨.modify signal sendTs, [.modifyOrder out]⟩ :: log) id).exposure =
      (liveOf log id).exposure + if out.clientOrderId = id then out.newQty else 0 := by
  by_cases same : out.clientOrderId = id <;> simp [liveOf, Event.live, Event.asks, same, Live.exposure, Nat.add_assoc]

/-! ### The open quantity of a side -/

/-- What an entry adds to the open quantity of a symbol and side. -/
def openOf (log : List Event) (symbolId : Nat) (side : Side) (entry : Nat × OrderInfo) : Nat :=
  if entry.2.symbolId = symbolId ∧ entry.2.side = side then (liveOf log entry.1).exposure else 0

def openQty (a : Logged) (symbolId : Nat) (side : Side) : Nat :=
  (a.om.outstanding.entries.map (openOf a.log symbolId side)).sum

/-- The position as a bid side sees it, or as an ask side does. -/
def facing (side : Side) (position : Int) : Int := if side = .kBid then position else -position

/-- The position stays within the limit if everything open on the side and `qty` more fills. -/
def Holds (cfg : Config) (a : Logged) (symbolId : Nat) (side : Side) (qty : Nat) : Prop :=
  facing side (a.om.netPosition (symbolId - 1)) + openQty a symbolId side + qty ≤ cfg.maxPosition
  deriving Decidable

/-- A signal that may open more leaves the open orders of its side within the position limit. -/
def OpensWithin (cfg : Config) (a : Logged) : Op → Prop
  | .signal signal now _ => Passes cfg a.om signal now → Holds cfg a signal.symbolId signal.side signal.qty
  | .modify signal _ => Reprices a.om signal →
    ∀ info ∈ a.om.outstanding.content (a.om.slot signal).clientOrderId,
      Holds cfg a info.symbolId info.side signal.qty
  | _ => True

instance : (op : Op) → Decidable (OpensWithin cfg a op)
  | .signal signal now _ => inferInstanceAs (Decidable (Passes cfg a.om signal now → _))
  | .modify signal _ => inferInstanceAs (Decidable (Reprices a.om signal → ∀ info ∈ _, _))
  | .orderAck _ | .orderReject _ | .fill _ | .cancelAck _ | .cancelReject _ | .modifyAck _ | .modifyReject _
  | .advanceTimeouts _ | .triggerKillSwitch _ => inferInstanceAs (Decidable True)

/-- Everything open on either side fits within the position limit. -/
structure Bounded (cfg : Config) (a : Logged) : Prop where
  ok : a.om.Ok cfg
  within : ∀ symIdx < cfg.maxSymbols, ∀ side,
    facing side (a.om.netPosition symIdx) + openQty a (symIdx + 1) side ≤ cfg.maxPosition

theorem OrderManager.Ok.entries_nodup (ok : om.Ok cfg) : om.outstanding.entries.Nodup :=
  List.Nodup.of_map Prod.fst ok.map.keys_nodup

variable {symbolId : Nat}

theorem openQty_quiet (ok : om'.Ok cfg) (shrinks : Shrinks a.om om')
    (quiet : ∀ id, (liveOf (⟨op, sent⟩ :: a.log) id).exposure ≤ (liveOf a.log id).exposure) :
    openQty { om := om', log := ⟨op, sent⟩ :: a.log } symbolId side ≤ openQty a symbolId side := by
  refine sum_map_le_of_subset ok.entries_nodup shrinks fun entry _ => ?_
  unfold openOf
  split
  · exact quiet entry.1
  · exact Nat.le_refl _

theorem openQty_filled {info : OrderInfo} (ok : om'.Ok cfg) (okBefore : a.om.Ok cfg)
    (shrinks : Shrinks a.om om') (present : a.om.outstanding.content report.clientOrderId = some info)
    (allowed : report.fillQty ≤ (liveOf a.log report.clientOrderId).qty) :
    openQty { om := om', log := ⟨.fill report, []⟩ :: a.log } info.symbolId info.side + report.fillQty ≤
      openQty a info.symbolId info.side := by
  have less : ∀ entry, openOf (⟨.fill report, []⟩ :: a.log) info.symbolId info.side entry ≤
      openOf a.log info.symbolId info.side entry := by
    intro entry
    unfold openOf
    split
    · exact exposure_quiet (by simp) (by simp) entry.1
    · exact Nat.le_refl _
  have here : openOf (⟨.fill report, []⟩ :: a.log) info.symbolId info.side (report.clientOrderId, info) +
      report.fillQty ≤ openOf a.log info.symbolId info.side (report.clientOrderId, info) := by
    simp only [openOf, and_self, if_true]
    exact exposure_fill allowed
  have member := okBefore.map.content_eq_some.mp present
  calc openQty { om := om', log := ⟨.fill report, []⟩ :: a.log } info.symbolId info.side + report.fillQty
      ≤ (a.om.outstanding.entries.map (openOf (⟨.fill report, []⟩ :: a.log) info.symbolId info.side)).sum +
        report.fillQty :=
        Nat.add_le_add_right (sum_map_le_of_subset ok.entries_nodup shrinks fun _ _ => Nat.le_refl _) _
    _ ≤ openQty a info.symbolId info.side := sum_map_drop member here fun entry _ => less entry

theorem openQty_placed {now : Int} {out : NewOrder} (ok : a.om.Ok cfg)
    (placed : Placed cfg a.om om' signal now out) :
    openQty { om := om', log := ⟨.signal signal now sendTs, [.newOrder out]⟩ :: a.log } symbolId side =
      openQty a symbolId side + if signal.symbolId = symbolId ∧ signal.side = side then signal.qty else 0 := by
  obtain ⟨info, symbol, sameSide, inserted⟩ := placed.inserted
  have qty : out.qty = signal.qty := by rw [placed.order]
  have others : a.om.outstanding.entries.map
      (openOf (⟨.signal signal now sendTs, [.newOrder out]⟩ :: a.log) symbolId side) =
      a.om.outstanding.entries.map (openOf a.log symbolId side) := by
    refine List.map_congr_left fun entry member => ?_
    have other : out.clientOrderId ≠ entry.1 := by
      intro same
      have present := ok.map.content_eq_some.mpr member
      rw [← same, placed.absent] at present
      cases present
    simp only [openOf, exposure_placed, if_neg other]
  have perm := (inserted.entries_perm.map
    (openOf (⟨.signal signal now sendTs, [.newOrder out]⟩ :: a.log) symbolId side)).sum_eq
  rw [List.map_cons, List.sum_cons, others] at perm
  unfold openQty
  rw [perm, Nat.add_comm]
  simp only [openOf, exposure_placed, symbol, sameSide, qty, if_true]

theorem openQty_modified (ok : a.om.Ok cfg) (same : om'.outstanding = a.om.outstanding) :
    openQty { om := om', log := ⟨.modify signal sendTs, [.modifyOrder out]⟩ :: a.log } symbolId side ≤
      openQty a symbolId side +
        ((a.om.outstanding.content out.clientOrderId).elim 0 fun info =>
          if info.symbolId = symbolId ∧ info.side = side then out.newQty else 0) := by
  have still : ∀ entry ∈ a.om.outstanding.entries, entry.1 ≠ out.clientOrderId →
      openOf (⟨.modify signal sendTs, [.modifyOrder out]⟩ :: a.log) symbolId side entry ≤
        openOf a.log symbolId side entry := by
    intro entry _ other
    simp [openOf, exposure_modified, other.symm]
  unfold openQty
  rw [same]
  cases found : a.om.outstanding.content out.clientOrderId with
  | none =>
    refine List.sum_le_sum fun entry member => still entry member ?_
    intro sameId
    have present := ok.map.content_eq_some.mpr member
    rw [sameId, found] at present
    cases present
  | some info =>
    refine sum_map_rise (x := (out.clientOrderId, info)) ok.entries_nodup ?_ fun entry member other => ?_
    · simp only [openOf, exposure_modified, if_true, elim_some]
      split <;> omega
    · refine still entry member fun sameId => other ?_
      have present := ok.map.content_eq_some.mpr member
      rw [sameId, found] at present
      exact Prod.ext sameId (some.inj present).symm

/-! ### The calls -/

theorem OrderManager.Effect.modifies (effect : Effect cfg om om' op sent) :
    (∃ signal sendTs out, op = .modify signal sendTs ∧ sent = [.modifyOrder out] ∧ Kept cfg om om' ∧
      Reprices om signal ∧ out.clientOrderId = (om.slot signal).clientOrderId ∧ out.newQty = signal.qty) ∨
    ∀ out, .modifyOrder out ∉ sent := by
  cases effect with
  | modified kept reprices id _ qty => exact .inl ⟨_, _, _, rfl, rfl, kept, reprices, id, qty⟩
  | refused | placed | unmodified | acked | modifyAcked | modifyRejected | rejected | filled | completed | cancelled
  | cancelUnknown | cancelRejected | expired | killed | killedAgain => exact .inr (by simp)

theorem facing_same (side : Side) (position : Int) (qty : Nat) :
    facing side (position + signedQty side qty) = facing side position + qty := by
  cases side <;> simp only [facing, signedQty, reduceCtorEq, if_true, if_false]
  omega

theorem facing_other {other : Side} (apart : other ≠ side) (position : Int) (qty : Nat) :
    facing other (position + signedQty side qty) = facing other position - qty := by
  cases side <;> cases other <;> simp only [facing, signedQty, reduceCtorEq, if_true, if_false]
  · exact absurd rfl apart
  · omega
  · omega
  · exact absurd rfl apart

theorem signed_fits {position limit : Int} {qty : Nat} (small : limit < 2 ^ 63)
    (near : ∀ side, facing side position ≤ limit) (into : facing side position + qty ≤ limit) :
    -2 ^ 63 ≤ position + signedQty side qty ∧ position + signedQty side qty < 2 ^ 63 := by
  have bid := near .kBid
  have ask := near .kAsk
  cases side <;> simp only [facing, signedQty, reduceCtorEq, if_true, if_false] at * <;> omega

/-- A fill moves the position of its symbol towards the limit by no more than it closes. -/
theorem Bounded.fill {om₁ : OrderManager} (bounded : Bounded cfg a) (allowed : FillAllowed a (.fill report))
    (ok : om'.Ok cfg) (shrinks : Shrinks a.om om') (booked : Booked cfg a.om om₁ report)
    (same : om'.netPosition = om₁.netPosition) : Bounded cfg { om := om', log := ⟨.fill report, []⟩ :: a.log } := by
  obtain ⟨tracked, few⟩ := allowed report (mem_some_self _)
  obtain ⟨info, present⟩ := isSome_iff_exists.mp tracked
  have known := symbolIndex_eq_some (bounded.ok.indexed _ info present)
  have index : info.symbolId - 1 + 1 = info.symbolId := by omega
  have mine := bounded.within (info.symbolId - 1) known.2
  rw [index] at mine
  have quiet : ∀ symbolId side, openQty { om := om', log := ⟨.fill report, []⟩ :: a.log } symbolId side ≤
      openQty a symbolId side := fun _ _ => openQty_quiet ok shrinks (exposure_quiet (by simp) (by simp))
  have closes := openQty_filled ok bounded.ok shrinks present few
  have near : ∀ side, facing side (a.om.netPosition (info.symbolId - 1)) ≤ cfg.maxPosition := by
    intro side
    have within := mine side
    omega
  have into : facing info.side (a.om.netPosition (info.symbolId - 1)) + report.fillQty ≤ cfg.maxPosition := by
    have within := mine info.side
    omega
  obtain ⟨low, high⟩ := signed_fits cfg.position_lt near into
  refine ⟨ok, fun symIdx bound side => ?_⟩
  have less := quiet (symIdx + 1) side
  have before := bounded.within symIdx bound side
  rw [same, booked.known info present, toInt64_signed low high]
  by_cases here : symIdx = info.symbolId - 1
  · subst here
    rw [update_self]
    rw [index] at less before ⊢
    by_cases way : side = info.side
    · subst way
      rw [facing_same]
      omega
    · rw [facing_other way]
      omega
  · rw [update_of_ne here]
    omega

theorem Bounded.step (bounded : Bounded cfg a) (allowed : FillAllowed a op ∧ OpensWithin cfg a op)
    (stepped : a.step cfg op = some a') : Bounded cfg a' := by
  obtain ⟨sent, om', applied, rfl⟩ := Logged.step_eq_some.mp stepped
  obtain ⟨ok, effect⟩ := apply_effect bounded.ok applied
  rcases effect.netPosition with ⟨report, om₁, rfl, booked, same⟩ | ⟨_, same⟩
  · rcases effect.entries with ⟨_, _, _, _, impossible, _⟩ | ⟨_, shrinks⟩
    · cases impossible
    · obtain rfl : sent = [] := by cases effect <;> rfl
      exact bounded.fill allowed.1 ok shrinks booked same
  refine ⟨ok, fun symIdx bound side => ?_⟩
  have before := bounded.within symIdx bound side
  have within := allowed.2
  rw [same]
  rcases effect.entries with ⟨signal, now, sendTs, out, rfl, rfl, placed⟩ | ⟨unsent, shrinks⟩
  · have holds : Holds cfg a signal.symbolId signal.side signal.qty :=
      within placed.toPasses
    rw [openQty_placed bounded.ok placed]
    split
    · rename_i mine
      obtain ⟨symbol, rfl⟩ := mine
      unfold Holds at holds
      rw [symbol, Nat.add_sub_cancel] at holds
      omega
    · omega
  rcases effect.modifies with ⟨signal, sendTs, out, rfl, rfl, kept, reprices, active, qty⟩ | unmodified
  · have more : openQty { om := om', log := ⟨.modify signal sendTs, [.modifyOrder out]⟩ :: a.log }
        (symIdx + 1) side ≤ _ :=
      openQty_modified bounded.ok kept.tracking.outstanding
    cases found : a.om.outstanding.content out.clientOrderId with
    | none =>
      rw [found, elim_none] at more
      omega
    | some info =>
      have holds : Holds cfg a info.symbolId info.side signal.qty :=
        within reprices info (active ▸ found)
      rw [found, elim_some] at more
      split at more
      · rename_i mine
        obtain ⟨symbol, rfl⟩ := mine
        unfold Holds at holds
        rw [symbol, Nat.add_sub_cancel] at holds
        omega
      · omega
  · have less : openQty { om := om', log := ⟨op, sent⟩ :: a.log } (symIdx + 1) side ≤ openQty a (symIdx + 1) side :=
      openQty_quiet ok shrinks (exposure_quiet unsent unmodified)
    omega

theorem create_bounded (created : create cfg = some om) (positive : 0 ≤ cfg.maxPosition) : Bounded cfg { om } := by
  obtain ⟨ok, empty, fields⟩ := create_ok created
  refine ⟨ok, fun symIdx _ side => ?_⟩
  have none : openQty { om } (symIdx + 1) side = 0 := by simp [openQty, empty]
  have flat : facing side (om.netPosition symIdx) = 0 := by
    rw [fields]
    simp [facing]
  dsimp only
  rw [none, flat]
  omega

theorem Bounded.limit (bounded : Bounded cfg a) {symIdx : Nat} (bound : symIdx < cfg.maxSymbols) :
    |a.om.netPosition symIdx| ≤ cfg.maxPosition := by
  have bid := bounded.within symIdx bound .kBid
  have ask := bounded.within symIdx bound .kAsk
  simp only [facing, reduceCtorEq, if_true, if_false] at bid ask
  rw [abs_le]
  omega

/-- Every position stays within the limit in a run of a lawful exchange in which the open orders of a side
always fit below the limit together. -/
theorem run_position_bounded (created : create cfg = some om) (positive : 0 ≤ cfg.maxPosition)
    (within : Along cfg (fun a op => FillAllowed a op ∧ OpensWithin cfg a op) ops { om })
    (ran : run cfg ops { om } = some a) :
    ∀ symIdx < cfg.maxSymbols, |a.om.netPosition symIdx| ≤ cfg.maxPosition :=
  fun _ bound => (Transition.run_invariant Bounded.step (create_bounded created positive) within ran).limit bound

/-- An order of 60, a part of it that fills, a reprice of 30 and its fill. -/
def repriceOps : List Op :=
  [.signal (buy 60) 0 0, .fill { clientOrderId := 1, fillQty := 40, remainingQty := 20 },
    .modify { buy 30 with price := 101 } 0, .modifyAck { clientOrderId := 1 },
    .fill { clientOrderId := 1, fillQty := 30, remainingQty := 0 }]

theorem run_position_bounded_reprice : ∃ a, create smallConfig = some smallManager ∧
    Along smallConfig (fun a op => FillAllowed a op ∧ OpensWithin smallConfig a op) repriceOps { om := smallManager } ∧
    run smallConfig repriceOps { om := smallManager } = some a ∧
    ∀ symIdx < smallConfig.maxSymbols, |a.om.netPosition symIdx| ≤ smallConfig.maxPosition := by
  have within : Along smallConfig (fun a op => FillAllowed a op ∧ OpensWithin smallConfig a op) repriceOps
      { om := smallManager } := by decide +kernel
  have returns : (run smallConfig repriceOps { om := smallManager }).isSome = true := by decide +kernel
  obtain ⟨a, ran⟩ := isSome_iff_exists.mp returns
  exact ⟨a, create_smallManager, within, ran, run_position_bounded create_smallManager (by decide) within ran⟩

/-- Two orders of 60 at one price, which is no reprice, and both of them fill. -/
def twoOrdersOps : List Op :=
  [.modify (buy 60) 0, .signal (buy 60) 0 0, .modify (buy 60) 0, .signal (buy 60) 0 0,
    .fill { clientOrderId := 1, fillQty := 60, remainingQty := 0 },
      .fill { clientOrderId := 2, fillQty := 60, remainingQty := 0 }]

/-- The position limit of 100 is checked for each order alone. -/
theorem run_position_unbounded : ∃ a, create smallConfig = some smallManager ∧ smallConfig.maxPosition = 100 ∧
    Along smallConfig FillAllowed twoOrdersOps { om := smallManager } ∧
    run smallConfig twoOrdersOps { om := smallManager } = some a ∧ a.om.netPosition 0 = 120 := by
  have allowed : Along smallConfig FillAllowed twoOrdersOps { om := smallManager } := by decide +kernel
  obtain ⟨a, ran, reached⟩ : ∃ a, run smallConfig twoOrdersOps { om := smallManager } = some a ∧
      a.om.netPosition 0 = 120 := by decide +kernel
  exact ⟨a, create_smallManager, rfl, allowed, ran, reached⟩

end TickToTrade.Oms
