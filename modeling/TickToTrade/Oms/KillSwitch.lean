import TickToTrade.Oms.Effects

/-! The kill switch protocol. It counts the responses to cancels, whichever cancel they answer. -/

namespace TickToTrade.Oms
open Ds Probing OrderManager List
open Logged (Along run step_eq_some)

variable {cfg : Config} {om om₁ om' : OrderManager} {a a' : Logged} {op : Op} {sent : List Request} {id : Nat}

def Op.triggers : Op → Bool
  | .triggerKillSwitch _ => true
  | _ => false

def Op.answers : Op → Option Nat
  | .cancelAck ack => some ack.clientOrderId
  | .cancelReject reject => some reject.clientOrderId
  | _ => none

def answered (log : List Event) : List Nat := log.filterMap fun e => e.op.answers

/-- While the drain lasts, a response to a cancel names an order of the batch that had no response yet. -/
def AnswersOnce (ids : List Nat) (a : Logged) (op : Op) : Prop :=
  a.om.killSwitchState = .kDraining → ∀ id ∈ op.answers, id ∈ ids ∧ id ∉ answered a.log
  deriving Decidable

def CancelsOnly (sent : List Request) : Prop := ∀ request ∈ sent, ∃ cancel, request = .cancelOrder cancel

/-! ### The state of the kill switch -/

theorem apart_of_settled (settled : Settled cfg om om' id) : Apart om om' := by
  obtain ⟨_, om₁, ⟨info, _, closed⟩ | ⟨_, missed⟩, compacted⟩ := settled
  · exact closed.apart.trans compacted.apart
  · exact missed.apart.trans compacted.apart

theorem apart_of_closes (closes : Closes cfg om om') : Apart om om' := by
  induction closes with
  | refl => exact Apart.refl
  | tail _ closed ih =>
    obtain ⟨id, info, closed⟩ := closed
    exact ih.trans closed.apart

def Unswitched (om om' : OrderManager) : Prop :=
  om'.killSwitchState = om.killSwitchState ∧ om'.pendingCancelCount = om.pendingCancelCount

theorem OrderManager.Apart.unswitched (apart : Apart om om') : Unswitched om om' :=
  ⟨apart.killSwitchState, apart.pendingCancelCount⟩

theorem Unswitched.trans (first : Unswitched om om₁) (second : Unswitched om₁ om') : Unswitched om om' :=
  ⟨second.1.trans first.1, second.2.trans first.2⟩

theorem OrderManager.Effect.switch (effect : Effect cfg om om' op sent) :
    (op.triggers = true ∧ ((om.killSwitchState = .kNormal ∧ om'.killSwitchState ≠ .kNormal) ∨ om' = om)) ∨
    (op.triggers = false ∧ op.answers = none ∧ Unswitched om om') ∨
    (op.triggers = false ∧ ∃ id om₁, op.answers = some id ∧ Unswitched om om₁ ∧ om' = om₁.checkDrainComplete) := by
  cases effect with
  | killed normal killed =>
    refine .inl ⟨rfl, .inl ⟨normal, ?_⟩⟩
    rw [killed.killSwitchState]
    split <;> simp
  | killedAgain _ same => exact .inl ⟨rfl, .inr same⟩
  | cancelled settled same =>
    exact .inr (.inr ⟨rfl, _, _, rfl, (apart_of_settled settled).unswitched, same⟩)
  | cancelUnknown same => exact .inr (.inr ⟨rfl, _, om, rfl, ⟨rfl, rfl⟩, same⟩)
  | cancelRejected _ settled same =>
    exact .inr (.inr ⟨rfl, _, _, rfl, (apart_of_settled settled).unswitched, same⟩)
  | placed placed => exact .inr (.inl ⟨rfl, rfl, placed.apart.unswitched⟩)
  | refused kept | unmodified kept | modified kept | acked kept | modifyAcked kept | modifyRejected kept =>
    exact .inr (.inl ⟨rfl, rfl, kept.apart.unswitched⟩)
  | rejected settled => exact .inr (.inl ⟨rfl, rfl, (apart_of_settled settled).unswitched⟩)
  | filled booked _ kept =>
    have first : Unswitched om _ := ⟨booked.killSwitchState, booked.pendingCancelCount⟩
    exact .inr (.inl ⟨rfl, rfl, first.trans kept.apart.unswitched⟩)
  | completed booked _ settled =>
    have first : Unswitched om _ := ⟨booked.killSwitchState, booked.pendingCancelCount⟩
    exact .inr (.inl ⟨rfl, rfl, first.trans (apart_of_settled settled).unswitched⟩)
  | expired kept closes compacted =>
    exact .inr (.inl ⟨rfl, rfl, ((kept.apart.trans (apart_of_closes closes)).trans compacted.apart).unswitched⟩)

theorem checkDrainComplete_draining (draining : om.killSwitchState = .kDraining) :
    om.checkDrainComplete.pendingCancelCount = om.pendingCancelCount - 1 ∧
    om.checkDrainComplete.killSwitchState = if om.pendingCancelCount - 1 = 0 then .kComplete else .kDraining := by
  have pending : (if 0 < om.pendingCancelCount then om.pendingCancelCount - 1 else 0) = om.pendingCancelCount - 1 := by
    split <;> omega
  unfold checkDrainComplete
  rw [if_pos draining, pending, draining]
  exact ⟨rfl, rfl⟩

theorem checkDrainComplete_idle (idle : om.killSwitchState ≠ .kDraining) : om.checkDrainComplete = om := if_neg idle

theorem checkDrainComplete_normal (om : OrderManager) :
    om.checkDrainComplete.killSwitchState = .kNormal ↔ om.killSwitchState = .kNormal := by
  by_cases draining : om.killSwitchState = .kDraining
  · rw [(checkDrainComplete_draining draining).2, draining]
    split <;> simp
  · rw [checkDrainComplete_idle draining]

theorem normal_iff (effect : Effect cfg om om' op sent) (untriggered : op.triggers = false) :
    om'.killSwitchState = .kNormal ↔ om.killSwitchState = .kNormal := by
  rcases effect.switch with ⟨triggers, _⟩ | ⟨_, _, same⟩ | ⟨_, _, om₁, _, same, rfl⟩
  · rw [untriggered] at triggers
    cases triggers
  · rw [same.1]
  · rw [checkDrainComplete_normal, same.1]

theorem thrown_step (effect : Effect cfg om om' op sent) (thrown : om.killSwitchState ≠ .kNormal) :
    om'.killSwitchState ≠ .kNormal ∧ CancelsOnly sent := by
  constructor
  · by_cases triggers : op.triggers = true
    · rcases effect.switch with ⟨_, ⟨normal, _⟩ | rfl⟩ | ⟨not, _⟩ | ⟨not, _⟩
      · exact absurd normal thrown
      · exact thrown
      · rw [triggers] at not
        cases not
      · rw [triggers] at not
        cases not
    · rw [ne_eq, normal_iff effect (by simpa using triggers)]
      exact thrown
  · intro request member
    cases effect with
    | placed placed => exact absurd placed.normal thrown
    | modified _ reprices => exact absurd reprices.normal thrown
    | expired | killed =>
      obtain ⟨cancel, _, rfl⟩ := mem_map.mp member
      exact ⟨cancel, rfl⟩
    | refused | unmodified | acked | modifyAcked | modifyRejected | rejected | filled | completed | cancelled
    | cancelUnknown | cancelRejected | killedAgain => cases member

structure Armed (cfg : Config) (a : Logged) : Prop where
  ok : a.om.Ok cfg
  normal : a.om.killSwitchState = .kNormal

theorem Armed.step (armed : Armed cfg a) (untriggered : op.triggers = false) (stepped : a.step cfg op = some a') :
    Armed cfg a' := by
  obtain ⟨sent, om', applied, rfl⟩ := Logged.step_eq_some.mp stepped
  obtain ⟨ok, effect⟩ := apply_effect armed.ok applied
  exact ⟨ok, (normal_iff effect untriggered).mpr armed.normal⟩

theorem run_armed {ops : List Op} (created : create cfg = some om) (first : ∀ op ∈ ops, op.triggers = false)
    (ran : run cfg ops { om } = some a) : Armed cfg a := by
  obtain ⟨ok, _, fields⟩ := create_ok created
  have start : Armed cfg { om } := by
    refine ⟨ok, ?_⟩
    dsimp only
    rw [fields]
  have along : Along cfg (fun _ op => op.triggers = false) ops { om } :=
    Transition.along_of_forall fun _ op member => first op member
  exact Transition.run_invariant Armed.step start along ran

/-! ### After the trigger -/

/-- The switch is thrown, and since then only cancels were sent. -/
structure Thrown (cfg : Config) (a : Logged) : Prop where
  ok : a.om.Ok cfg
  thrown : a.om.killSwitchState ≠ .kNormal
  silent : ∀ e ∈ a.log, CancelsOnly e.sent

theorem Thrown.step (thrown : Thrown cfg a) (stepped : a.step cfg op = some a') : Thrown cfg a' := by
  obtain ⟨sent, om', applied, rfl⟩ := Logged.step_eq_some.mp stepped
  obtain ⟨ok, effect⟩ := apply_effect thrown.ok applied
  obtain ⟨still, cancels⟩ := thrown_step effect thrown.thrown
  refine ⟨ok, still, fun e member => ?_⟩
  rcases mem_cons.mp member with rfl | earlier
  · exact cancels
  · exact thrown.silent e earlier

/-- While the drain lasts, the count of pending cancels is the number of the batch's ids without a response. -/
structure Draining (ids : List Nat) (a : Logged) : Prop where
  state : a.om.killSwitchState = .kDraining
  once : (answered a.log).Nodup
  own : answered a.log ⊆ ids
  count : a.om.pendingCancelCount + (answered a.log).length = ids.length

structure Drains (cfg : Config) (ids : List Nat) (a : Logged) : Prop extends Thrown cfg a where
  pending : Draining ids a ∨ a.om.killSwitchState = .kComplete ∧ ids ⊆ answered a.log

theorem answered_cons (log : List Event) : answered (⟨op, sent⟩ :: log) = op.answers.toList ++ answered log := by
  unfold answered
  cases answers : op.answers <;> simp [answers]

/-- The answers that complete the count are all the answers there can be. -/
theorem all_answered {ids : List Nat} (once : (answered a.log).Nodup) (own : answered a.log ⊆ ids)
    (enough : ids.length ≤ (answered a.log).length) : ids ⊆ answered a.log :=
  ((subperm_of_subset once own).perm_of_length_le enough).symm.subset

theorem Drains.step {ids : List Nat} (drains : Drains cfg ids a) (answersOnce : AnswersOnce ids a op)
    (stepped : a.step cfg op = some a') : Drains cfg ids a' := by
  refine ⟨drains.toThrown.step stepped, ?_⟩
  obtain ⟨sent, om', applied, rfl⟩ := Logged.step_eq_some.mp stepped
  obtain ⟨_, effect⟩ := apply_effect drains.ok applied
  have unanswered : op.answers = none → Unswitched a.om om' →
      Draining ids { om := om', log := ⟨op, sent⟩ :: a.log } ∨
        om'.killSwitchState = .kComplete ∧ ids ⊆ answered (⟨op, sent⟩ :: a.log) := by
    rintro none ⟨state, pending⟩
    have log : answered (⟨op, sent⟩ :: a.log) = answered a.log := by rw [answered_cons, none]; rfl
    refine drains.pending.imp (fun draining => ?_) fun complete => ?_
    · exact ⟨state.trans draining.state, log ▸ draining.once, log ▸ draining.own,
        by rw [log, pending]; exact draining.count⟩
    · rw [log, state]
      exact complete
  rcases effect.switch with ⟨triggers, ⟨normal, _⟩ | rfl⟩ | ⟨_, none, same⟩ | ⟨_, id, om₁, answers, same, rfl⟩
  · exact absurd normal drains.thrown
  · refine unanswered ?_ ⟨rfl, rfl⟩
    cases op with
    | triggerKillSwitch now => rfl
    | _ => cases triggers
  · exact unanswered none same
  · have log : answered (⟨op, sent⟩ :: a.log) = id :: answered a.log := by rw [answered_cons, answers]; rfl
    dsimp only
    rcases drains.pending with ⟨state, once, own, count⟩ | ⟨complete, all⟩
    · obtain ⟨member, fresh⟩ := answersOnce state id answers
      have once' : (answered (⟨op, sent⟩ :: a.log)).Nodup := log ▸ nodup_cons.mpr ⟨fresh, once⟩
      have own' : answered (⟨op, sent⟩ :: a.log) ⊆ ids := log ▸ cons_subset.mpr ⟨member, own⟩
      obtain ⟨pending, state'⟩ := checkDrainComplete_draining (same.1.trans state)
      -- A new answer leaves less than the whole batch answered before it, so the count is positive.
      have length : (answered (⟨op, sent⟩ :: a.log)).length = (answered a.log).length + 1 := by
        rw [log, length_cons]
      have room := (subperm_of_subset once' own').length_le
      rw [same.2] at pending state'
      by_cases last : a.om.pendingCancelCount - 1 = 0
      · rw [if_pos last] at state'
        have every : ids ⊆ answered ({ om := om₁, log := ⟨op, sent⟩ :: a.log } : Logged).log :=
          all_answered once' own' (by dsimp only; omega)
        exact .inr ⟨state', every⟩
      · rw [if_neg last] at state'
        exact .inl ⟨state', once', own', by dsimp only; omega⟩
    · have idle : om₁.killSwitchState ≠ .kDraining := by simp [same.1, complete]
      rw [checkDrainComplete_idle idle, same.1, log]
      exact .inr ⟨complete, subset_cons_of_subset id all⟩

theorem Drains.all_answered {ids : List Nat} (drains : Drains cfg ids a)
    (complete : a.om.killSwitchState = .kComplete) : ids ⊆ answered a.log := by
  rcases drains.pending with draining | ⟨_, all⟩
  · rw [draining.state] at complete
    cases complete
  · exact all

/-! ### The protocol -/

theorem cancelBatch_ids (fits : om.outstanding.entries.length ≤ cfg.maxOutstanding) (now : Int) :
    (cancelBatch cfg om now).map CancelOrder.clientOrderId = om.outstanding.entries.map Prod.fst := by
  unfold cancelBatch
  rw [take_of_length_le fits, map_map]
  rfl

/-- What the first trigger promises, with `cancels` as its batch and `om` as the state after it. -/
structure Switched (cfg : Config) (cancels : List CancelOrder) (om : OrderManager) : Prop where
  /-- No order and no modify is sent any more, and the state never returns. -/
  thrown : ∀ after b, run cfg after { om } = some b →
    b.om.killSwitchState ≠ .kNormal ∧ ∀ e ∈ b.log, CancelsOnly e.sent
  /-- The drain is complete only after a response to each cancel of the batch. -/
  drained : ∀ after b, Along cfg (AnswersOnce (cancels.map CancelOrder.clientOrderId)) after { om } →
    run cfg after { om } = some b → b.om.killSwitchState = .kComplete →
    ∀ cancel ∈ cancels, cancel.clientOrderId ∈ answered b.log

/-- The first trigger of a run cancels every tracked order once, and the rest of the run keeps the protocol. -/
theorem run_killSwitch {before : List Op} (created : create cfg = some om) (ran : run cfg before { om } = some a)
    (first : ∀ op ∈ before, op.triggers = false) (fits : a.om.outstanding.entries.length ≤ cfg.maxOutstanding)
    (now : Int) : ∃ cancels om₁, a.om.triggerKillSwitch cfg now = some (cancels, om₁) ∧
      cancels.map CancelOrder.clientOrderId = a.om.outstanding.entries.map Prod.fst ∧
      (cancels.map CancelOrder.clientOrderId).Nodup ∧ Switched cfg cancels om₁ := by
  obtain ⟨ok, normal⟩ := run_armed created first ran
  obtain ⟨om₁, triggered, killed⟩ := triggerKillSwitch_spec ok normal now
  have ids := cancelBatch_ids fits now
  have state := killed.killSwitchState
  have start : Thrown cfg { om := om₁ } := by
    refine ⟨killed.ok, ?_, by simp⟩
    dsimp only
    rw [state]
    split <;> simp
  refine ⟨_, om₁, triggered, ids, ids ▸ ok.map.keys_nodup, ?_, ?_⟩
  · intro after b ran
    have reached := Transition.run_keeps (Thrown cfg) Thrown.step start ran
    exact ⟨reached.thrown, reached.silent⟩
  · intro after b once ran complete cancel member
    have drains : Drains cfg ((cancelBatch cfg a.om now).map CancelOrder.clientOrderId) { om := om₁ } := by
      refine ⟨start, ?_⟩
      by_cases empty : (cancelBatch cfg a.om now).length = 0
      · rw [if_pos empty] at state
        exact .inr ⟨state, by simp [eq_nil_of_length_eq_zero empty]⟩
      · rw [if_neg empty] at state
        exact .inl ⟨state, by simp [answered], by simp [answered], by simp [answered, killed.pendingCancelCount]⟩
    exact (Transition.run_invariant Drains.step drains once ran).all_answered complete (mem_map_of_mem member)

/-- Two responses, one of them a reject, complete the drain of two orders; a late duplicate does no harm. -/
def drainOps : List Op :=
  [.cancelAck { clientOrderId := 2 }, .cancelReject { clientOrderId := 1 }, .cancelAck { clientOrderId := 2 }]

theorem run_killSwitch_two : ∃ a cancels om₁ b, create smallConfig = some smallManager ∧
    run smallConfig [.signal (buy 5) 0 0, .signal (buy 5) 0 0] { om := smallManager } = some a ∧
    a.om.triggerKillSwitch smallConfig 0 = some (cancels, om₁) ∧
    Along smallConfig (AnswersOnce (cancels.map CancelOrder.clientOrderId)) drainOps { om := om₁ } ∧
    run smallConfig drainOps { om := om₁ } = some b ∧ b.om.killSwitchState = .kComplete ∧
    (∀ cancel ∈ cancels, cancel.clientOrderId ∈ answered b.log) ∧ Switched smallConfig cancels om₁ := by
  obtain ⟨a, ran, fits, ⟨cancels, om₁⟩, triggered, once, b, after, complete⟩ :
      ∃ a, run smallConfig [.signal (buy 5) 0 0, .signal (buy 5) 0 0] { om := smallManager } = some a ∧
      a.om.outstanding.entries.length ≤ smallConfig.maxOutstanding ∧
      ∃ s, a.om.triggerKillSwitch smallConfig 0 = some s ∧
      Along smallConfig (AnswersOnce (s.1.map CancelOrder.clientOrderId)) drainOps { om := s.2 } ∧
      ∃ b, run smallConfig drainOps { om := s.2 } = some b ∧ b.om.killSwitchState = .kComplete := by decide +kernel
  obtain ⟨cancels', om₁', triggered', _, _, protocol⟩ := run_killSwitch create_smallManager ran (by decide) fits 0
  obtain ⟨rfl, rfl⟩ := Prod.mk.inj (Option.mem_unique triggered triggered')
  exact ⟨a, cancels, om₁, b, create_smallManager, ran, triggered, once, after, complete,
    protocol.drained drainOps b once after complete, protocol⟩

/-- Order 1 times out and its cancel is answered after the trigger, which cancels order 2. -/
def lateCancelOps : List Op := [.signal (buy 5) 0 0, .advanceTimeouts 3000000, .signal (buy 5) 0 0]

/-- The answer for order 1 completes the drain of a batch that holds order 2 only. -/
theorem run_drained_early : ∃ a cancels om₁ b, create smallConfig = some smallManager ∧
    run smallConfig lateCancelOps { om := smallManager } = some a ∧
    a.om.triggerKillSwitch smallConfig 3000000 = some (cancels, om₁) ∧
    run smallConfig [.cancelAck { clientOrderId := 1 }] { om := om₁ } = some b ∧
    cancels.map CancelOrder.clientOrderId = [2] ∧ b.om.killSwitchState = .kComplete ∧ answered b.log = [1] := by
  obtain ⟨a, ran, ⟨cancels, om₁⟩, triggered, b, after, ids, complete, answers⟩ :
      ∃ a, run smallConfig lateCancelOps { om := smallManager } = some a ∧
      ∃ s, a.om.triggerKillSwitch smallConfig 3000000 = some s ∧
      ∃ b, run smallConfig [.cancelAck { clientOrderId := 1 }] { om := s.2 } = some b ∧
        s.1.map CancelOrder.clientOrderId = [2] ∧ b.om.killSwitchState = .kComplete ∧ answered b.log = [1] := by
    decide +kernel
  exact ⟨a, cancels, om₁, b, create_smallManager, ran, triggered, after, ids, complete, answers⟩

end TickToTrade.Oms
