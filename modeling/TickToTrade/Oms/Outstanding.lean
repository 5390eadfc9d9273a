import TickToTrade.Oms.Effects

/-!
The three counts of outstanding orders: `outstanding_count_`, the counts per symbol and the entries of
the map.
-/

namespace TickToTrade.Oms
open Ds Probing OrderManager List Option Function
open Logged (Along run)

variable {cfg : Config} {om om' : OrderManager} {a : Logged} {ops : List Op} {id : Nat} {info : OrderInfo}

def trackedFor (om : OrderManager) (symIdx : Nat) : Nat :=
  om.outstanding.entries.countP fun entry => entry.2.symbolId = symIdx + 1

structure Counted (cfg : Config) (om : OrderManager) : Prop where
  entries : om.outstandingCount = om.outstanding.entries.length
  sum : om.outstandingCount = ((range cfg.maxSymbols).map om.outstandingPerSymbol).sum
  perSymbol : ∀ symIdx < cfg.maxSymbols, om.outstandingPerSymbol symIdx = trackedFor om symIdx

/-- The id whose order a response ends. A cancel reject is left out: its handler looks first. -/
def Op.ends : Op → Option Nat
  | .orderReject reject => some reject.clientOrderId
  | .fill report => if report.remainingQty = 0 then some report.clientOrderId else none
  | .cancelAck ack => some ack.clientOrderId
  | _ => none

/-- A response that ends an order names a tracked one, or nothing is counted. -/
def EndsTracked (om : OrderManager) (op : Op) : Prop :=
  ∀ id ∈ op.ends, (om.outstanding.content id).isSome = true ∨ om.outstandingCount = 0
  deriving Decidable

/-! ### The counts of the entries -/

theorem sum_range_indicator {n s : Nat} (low : 0 < s) (high : s ≤ n) :
    ((range n).map fun i => if s = i + 1 then 1 else 0).sum = 1 := by
  induction n with
  | zero => omega
  | succ n ih =>
    rw [range_succ, map_append, sum_append, map_singleton, sum_singleton]
    by_cases last : s = n + 1
    · have none : (range n).map (fun i => if s = i + 1 then 1 else 0) = (range n).map fun _ => 0 := by
        refine map_congr_left fun i member => if_neg ?_
        have lower := mem_range.mp member
        omega
      rw [none, if_pos last]
      simp
    · rw [ih (by omega), if_neg last]

theorem sum_countP_symbol {n : Nat} {entries : List (Nat × OrderInfo)}
    (indexed : ∀ entry ∈ entries, 0 < entry.2.symbolId ∧ entry.2.symbolId ≤ n) :
    ((range n).map fun i => entries.countP fun entry => entry.2.symbolId = i + 1).sum = entries.length := by
  induction entries with
  | nil => simp
  | cons entry entries ih =>
    obtain ⟨low, high⟩ := indexed entry mem_cons_self
    have rest := ih fun entry member => indexed entry (mem_cons_of_mem _ member)
    have one := sum_range_indicator low high
    simp only [countP_cons, decide_eq_true_eq, sum_map_add, length_cons]
    omega

structure Tallied (cfg : Config) (om : OrderManager) : Prop where
  ok : om.Ok cfg
  small : om.outstandingCount ≤ cfg.maxOutstanding
  entries : om.outstandingCount = om.outstanding.entries.length
  perSymbol : ∀ symIdx < cfg.maxSymbols, om.outstandingPerSymbol symIdx = trackedFor om symIdx

section

variable (tallied : Tallied cfg om)
include tallied

theorem Tallied.counted : Counted cfg om := by
  refine { tallied with sum := ?_ }
  have each : (range cfg.maxSymbols).map om.outstandingPerSymbol =
      (range cfg.maxSymbols).map fun i => om.outstanding.entries.countP fun entry => entry.2.symbolId = i + 1 :=
    map_congr_left fun i member => tallied.perSymbol i (mem_range.mp member)
  rw [each, sum_countP_symbol, tallied.entries]
  intro entry member
  have present := tallied.ok.map.content_eq_some.mpr member
  have known := symbolIndex_eq_some (tallied.ok.indexed _ _ present)
  omega

theorem Tallied.of_tracking (ok : om'.Ok cfg) (same : Tracking om om') : Tallied cfg om' := by
  refine ⟨ok, ?_, ?_, ?_⟩
  · rw [same.outstandingCount]
    exact tallied.small
  · rw [same.outstandingCount, same.outstanding]
    exact tallied.entries
  · unfold trackedFor
    rw [same.outstanding, same.outstandingPerSymbol]
    exact tallied.perSymbol

theorem Tallied.close (closed : Closed cfg om om' id info) : Tallied cfg om' := by
  have perm := closed.erased.entries_perm
  have length := perm.length_eq
  have entries := tallied.entries
  have small := tallied.small
  have word := cfg.outstanding_lt
  rw [length_cons] at length
  have present : om.outstanding.content id = some info :=
    tallied.ok.map.content_eq_some.mpr (perm.mem_iff.mpr mem_cons_self)
  have known := symbolIndex_eq_some (tallied.ok.indexed id info present)
  refine ⟨closed.ok, ?_, ?_, fun symIdx bound => ?_⟩
  · rw [closed.outstandingCount]
    omega
  · rw [closed.outstandingCount]
    omega
  · have before := tallied.perSymbol symIdx bound
    have count := perm.countP_eq fun entry => decide (entry.2.symbolId = symIdx + 1)
    have most := om.outstanding.entries.countP_le_length (p := fun entry => decide (entry.2.symbolId = symIdx + 1))
    rw [closed.outstandingPerSymbol]
    unfold trackedFor at before ⊢
    rw [countP_cons] at count
    by_cases here : symIdx = info.symbolId - 1
    · subst here
      have mine : info.symbolId = info.symbolId - 1 + 1 := by omega
      simp only [← mine, decide_true, if_true] at count before most ⊢
      rw [update_self, before, decrement32_of_pos (by omega) (by omega)]
      omega
    · have other : ¬ info.symbolId = symIdx + 1 := by omega
      simp only [other, decide_false, Bool.false_eq_true, if_false] at count
      rw [update_of_ne here]
      omega

theorem Tallied.closes (closes : Closes cfg om om') : Tallied cfg om' := by
  induction closes with
  | refl => exact tallied
  | tail _ closed ih =>
    obtain ⟨id, info, closed⟩ := closed
    exact ih.close closed

theorem Tallied.compact (ok : om'.Ok cfg) (compacted : Compacted om om') : Tallied cfg om' := by
  rcases compacted.outstanding with same | ⟨empty, cleared⟩
  · exact tallied.of_tracking ok { compacted with outstanding := same }
  · -- Only an empty map is cleared, since the count is the number of entries.
    have none : om.outstanding.entries = [] := eq_nil_of_length_eq_zero (tallied.entries ▸ empty)
    have still : om'.outstanding.entries = om.outstanding.entries := by
      rw [cleared, none]
      simp [Table.clear, Table.entries]
    refine ⟨ok, ?_, ?_, ?_⟩
    · rw [compacted.outstandingCount]
      exact tallied.small
    · rw [compacted.outstandingCount, still]
      exact tallied.entries
    · unfold trackedFor
      rw [compacted.outstandingPerSymbol, still]
      exact tallied.perSymbol

theorem Tallied.settle (settled : Settled cfg om om' id)
    (tracked : (om.outstanding.content id).isSome = true ∨ om.outstandingCount = 0) : Tallied cfg om' := by
  obtain ⟨ok, om₁, ⟨info, _, closed⟩ | ⟨unknown, missed⟩, compacted⟩ := settled
  · exact (tallied.close closed).compact ok compacted
  · have nothing : om.outstandingCount = 0 := by
      rcases tracked with known | nothing
      · simp [unknown] at known
      · exact nothing
    have same : Tracking om om₁ := by
      refine { missed with outstandingCount := ?_ }
      rw [missed.outstandingCount]
      omega
    exact (tallied.of_tracking missed.ok same).compact ok compacted

theorem Tallied.enter {signal : Signal} {now : Int} {out : NewOrder} (placed : Placed cfg om om' signal now out) :
    Tallied cfg om' := by
  obtain ⟨info, symbol, _, inserted⟩ := placed.inserted
  have perm := inserted.entries_perm
  have length := perm.length_eq
  have entries := tallied.entries
  have room := placed.room
  have word := cfg.outstanding_lt
  rw [length_cons] at length
  have known := symbolIndex_eq_some placed.symbol
  have increment : (om.outstandingCount + 1) % 2 ^ 32 = om.outstandingCount + 1 := Nat.mod_eq_of_lt (by omega)
  refine ⟨placed.ok, ?_, ?_, fun symIdx bound => ?_⟩
  · rw [placed.outstandingCount, increment]
    omega
  · rw [placed.outstandingCount, increment]
    omega
  · have before := tallied.perSymbol symIdx bound
    have count := perm.countP_eq fun entry => decide (entry.2.symbolId = symIdx + 1)
    have most := om.outstanding.entries.countP_le_length (p := fun entry => decide (entry.2.symbolId = symIdx + 1))
    rw [placed.outstandingPerSymbol]
    unfold trackedFor at before ⊢
    rw [countP_cons, symbol] at count
    by_cases here : symIdx = signal.symbolId - 1
    · subst here
      have mine : signal.symbolId = signal.symbolId - 1 + 1 := by omega
      simp only [← mine, decide_true, if_true] at count before most ⊢
      rw [update_self, before, Nat.mod_eq_of_lt (by omega)]
      omega
    · have other : ¬ signal.symbolId = symIdx + 1 := by omega
      simp only [other, decide_false, Bool.false_eq_true, if_false] at count
      rw [update_of_ne here]
      omega

/-! ### The calls -/

theorem Tallied.drain : Tallied cfg om.checkDrainComplete :=
  tallied.of_tracking (checkDrainComplete_ok tallied.ok) (checkDrainComplete_tracking om).1

end

theorem Tallied.step {a' : Logged} {op : Op} (tallied : Tallied cfg a.om) (tracked : EndsTracked a.om op)
    (stepped : a.step cfg op = some a') : Tallied cfg a'.om := by
  obtain ⟨sent, om', applied, rfl⟩ := Logged.step_eq_some.mp stepped
  obtain ⟨ok, effect⟩ := apply_effect tallied.ok applied
  cases effect with
  | placed placed => exact tallied.enter placed
  | refused kept | unmodified kept | modified kept | acked kept | modifyAcked kept | modifyRejected kept =>
    exact tallied.of_tracking ok kept.tracking
  | rejected settled => exact tallied.settle settled (tracked _ (mem_some_self _))
  | filled booked _ kept => exact (tallied.of_tracking booked.ok booked.tracking).of_tracking ok kept.tracking
  | completed booked complete settled =>
    refine (tallied.of_tracking booked.ok booked.tracking).settle settled ?_
    rw [booked.tracking.outstanding, booked.tracking.outstandingCount]
    exact tracked _ (by simp [Op.ends, complete])
  | cancelled settled same =>
    rw [same]
    exact (tallied.settle settled (tracked _ (mem_some_self _))).drain
  | cancelUnknown same =>
    rw [same]
    exact tallied.drain
  | cancelRejected known settled same =>
    rw [same]
    exact (tallied.settle settled (.inl (isSome_iff_ne_none.mpr known))).drain
  | expired kept closes compacted =>
    exact ((tallied.of_tracking kept.ok kept.tracking).closes closes).compact ok compacted
  | killed _ killed => exact tallied.of_tracking ok killed.tracking
  | killedAgain _ same =>
    rw [same]
    exact tallied

theorem create_tallied (created : create cfg = some om) : Tallied cfg om := by
  obtain ⟨ok, empty, fields⟩ := create_ok created
  have count : om.outstandingCount = 0 := by rw [fields]
  refine ⟨ok, by omega, by simp [count, empty], fun symIdx _ => ?_⟩
  rw [fields]
  simp [trackedFor, empty]

/-- The counts agree in every run whose responses end tracked orders only. -/
theorem run_counted (created : create cfg = some om) (tracked : Along cfg (fun a op => EndsTracked a.om op) ops { om })
    (ran : run cfg ops { om } = some a) : Counted cfg a.om := by
  have start : Tallied cfg ({ om } : Logged).om := create_tallied created
  exact (Transition.run_invariant Tallied.step start tracked ran).counted

def filledOps : List Op := [.signal (buy 5) 0 0, .fill { clientOrderId := 1, fillQty := 5, remainingQty := 0 }]

theorem run_counted_filled : ∃ a, create smallConfig = some smallManager ∧
    Along smallConfig (fun a op => EndsTracked a.om op) filledOps { om := smallManager } ∧
    run smallConfig filledOps { om := smallManager } = some a ∧ Counted smallConfig a.om := by
  have tracked : Along smallConfig (fun a op => EndsTracked a.om op) filledOps { om := smallManager } := by
    decide +kernel
  have returns : (run smallConfig filledOps { om := smallManager }).isSome = true := by decide +kernel
  obtain ⟨a, ran⟩ := isSome_iff_exists.mp returns
  exact ⟨a, create_smallManager, tracked, ran, run_counted create_smallManager tracked ran⟩

/-- Order 1 times out, order 2 is sent, and then the cancel of order 1 is acknowledged. -/
def lateAckOps : List Op :=
  [.signal (buy 5) 0 0, .advanceTimeouts 3000000, .signal (buy 5) 0 0, .cancelAck { clientOrderId := 1 }]

/-- The late acknowledgement counts order 2 as gone. -/
theorem run_not_counted : ∃ a, create smallConfig = some smallManager ∧
    run smallConfig lateAckOps { om := smallManager } = some a ∧ a.om.outstandingCount = 0 ∧
    a.om.outstanding.entries.length = 1 ∧ ¬ Counted smallConfig a.om := by
  obtain ⟨a, ran, count, length⟩ : ∃ a, run smallConfig lateAckOps { om := smallManager } = some a ∧
      a.om.outstandingCount = 0 ∧ a.om.outstanding.entries.length = 1 := by decide +kernel
  refine ⟨a, create_smallManager, ran, count, length, fun counted => ?_⟩
  have same := counted.entries
  omega

end TickToTrade.Oms
