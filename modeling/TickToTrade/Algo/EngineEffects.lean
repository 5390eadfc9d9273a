import TickToTrade.Algo.MatchRefinement

/-! What the calls of the engine do to the set of resting orders, order by order. -/

namespace TickToTrade.Algo
open List Option
open MatchingEngine (cancelOrder_spec modifyOrder submitOrder_cases submitOrder_spec)

namespace PriceTime

variable {side : Side} {price : Int} {remaining : Nat} {entries : List (Int × Resting)}

theorem walk_makers_initial (side : Side) (price : Int) (remaining : Nat) (entries : List (Int × Resting)) :
    (walk side price remaining entries).map Execution.makerId <+: entries.map fun entry => entry.2.id := by
  induction entries generalizing remaining with
  | nil => simp [walk]
  | cons entry rest ih =>
    obtain ⟨p, r⟩ := entry
    unfold walk
    split
    · simp
    · simpa using ih _

theorem walk_fill_pos (positive : ∀ entry ∈ entries, 0 < entry.2.qty) {fill : Execution}
    (member : fill ∈ walk side price remaining entries) : 0 < fill.qty := by
  induction entries generalizing remaining with
  | nil => simp [walk] at member
  | cons entry rest ih =>
    obtain ⟨p, r⟩ := entry
    have first := positive (p, r) mem_cons_self
    unfold walk at member
    split at member
    · cases member
    · rename_i goes
      rcases mem_cons.mp member with same | later
      · rw [same]
        show 0 < min remaining r.qty
        simp only at first
        omega
      · exact ih (fun entry member => positive entry (mem_cons_of_mem _ member)) later

theorem takenFrom_eq_zero {fills : List Execution} {id : Nat} (absent : id ∉ fills.map Execution.makerId) :
    takenFrom fills id = 0 := by
  have none : fills.filter (fun fill => fill.makerId = id) = [] := by
    apply filter_eq_nil_iff.mpr
    intro fill member same
    exact absent (List.mem_map.mpr ⟨fill, member, by simpa using same⟩)
  simp [takenFrom, none, filledQty]

theorem reduce_eq_some {fills : List Execution} {x q : Nat} {r : Resting} :
    reduce fills ⟨x, q⟩ = some r ↔ r.id = x ∧ r.qty = q - takenFrom fills x ∧ 0 < r.qty := by
  obtain ⟨y, k⟩ := r
  unfold reduce
  by_cases gone : q - takenFrom fills x = 0
  · simp only [gone, if_true, reduceCtorEq, false_iff]
    omega
  · simp only [gone, if_false, some.injEq, Resting.mk.injEq]
    omega

theorem isLive_iff {book : Side → List Level} {id : Nat} :
    isLive book id = true ↔ ∃ s p q, (p, (⟨id, q⟩ : Resting)) ∈ makers (book s) := by
  unfold isLive
  rw [List.any_eq_true]
  simp only [mem_append, Prod.exists, decide_eq_true_eq]
  constructor
  · intro ⟨p, ⟨x, q⟩, member, same⟩
    subst same
    exact member.elim (fun bid => ⟨_, p, q, bid⟩) (fun ask => ⟨_, p, q, ask⟩)
  · intro ⟨s, p, q, member⟩
    refine ⟨p, ⟨id, q⟩, ?_, rfl⟩
    cases s
    · exact .inl member
    · exact .inr member

theorem walk_eq_nil_iff {levels : List Level} (left : 0 < remaining) (filled : ∀ level ∈ levels, level.orders ≠ []) :
    walk side price remaining (makers levels) = [] ↔ bestCrosses side price levels = false := by
  cases levels with
  | nil => simp [makers, walk, bestCrosses]
  | cons first rest =>
    cases queue : first.orders with
    | nil => exact absurd queue (filled first mem_cons_self)
    | cons order orders =>
      rw [makers_cons, queue, map_cons, cons_append]
      by_cases crosses : Crosses side price first.price
      · rw [walk_front left crosses]
        simp [bestCrosses, crosses]
      · simp [walk, bestCrosses, crosses]

end PriceTime

open PriceTime

variable {maxFills : Nat} {params : Params} {b b' : OrderBook} {e e' : MatchingEngine maxFills} {side : Side}
  {price : Int} {id qty : Nat} {result : MatchResult}

def OrderBook.Rests (b : OrderBook) (s : Side) (p : Int) (x q : Nat) : Prop :=
    (p, (⟨x, q⟩ : Resting)) ∈ makers (b.levels s)

def MatchResult.taken (result : MatchResult) (x : Nat) : Nat := takenFrom (result.fills.map Fill.execution) x

structure Submitted (maxFills : Nat) (b b' : OrderBook) (id : Nat) (side : Side) (price : Int) (qty : Nat)
    (result : MatchResult) : Prop where
  others : ∀ s p x k, x ≠ id ∨ result.rested = false →
    (b'.Rests s p x k ↔ ∃ q, b.Rests s p x q ∧ k = q - result.taken x ∧ 0 < k)
  own : (∀ s p k, ¬ b.Rests s p id k) →
    ∀ s p k, b'.Rests s p id k ↔ result.rested = true ∧ s = side ∧ p = price ∧ k = result.remainingQty
  makers : ∀ fill ∈ result.fills, ∃ p q, b.Rests side.opposite p fill.makerId q
  distinct : (result.fills.map Fill.makerId).Nodup
  filled : ∀ fill ∈ result.fills, 0 < fill.qty
  few : result.fills.length ≤ maxFills
  total : result.remainingQty + filledQty (result.fills.map Fill.execution) = qty
  unfilled : result.rested = true →
    (walk side price qty (PriceTime.makers (b.levels side.opposite))).length ≤ maxFills ∧
    filledQty (walk side price qty (PriceTime.makers (b.levels side.opposite))) < qty

section

variable (sound : OrderBook.Sound params b)
include sound

theorem OrderBook.Sound.rests_pos {s : Side} {p : Int} {x q : Nat} (rests : b.Rests s p x q) : 0 < q :=
  sound.positive s p _ rests

theorem OrderBook.Sound.rests_unique {s s' : Side} {p p' : Int} {x q q' : Nat}
    (rests : b.Rests s p x q) (rests' : b.Rests s' p' x q') : s' = s ∧ p' = p ∧ q' = q := by
  obtain ⟨side, price, same⟩ := sound.linked.maker_unique rests rests' rfl
  exact ⟨side, price, (Resting.mk.inj same).2⟩

theorem submitted_unchanged (same : b'.levels = b.levels) (id qty : Nat) (side : Side)
    (price : Int) : Submitted maxFills b b' id side price qty ⟨[], qty, false⟩ where
  others := by
    intro s p x k _
    have nothing : MatchResult.taken ⟨[], qty, false⟩ x = 0 := rfl
    rw [nothing, OrderBook.Rests, same]
    constructor
    · intro rests
      exact ⟨k, rests, rfl, sound.rests_pos rests⟩
    · intro ⟨q, rests, equal, _⟩
      rw [equal]
      exact rests
  own := by
    intro fresh s p k
    have absent := fresh s p k
    rw [OrderBook.Rests, ← same] at absent
    simp [OrderBook.Rests, absent]
  makers := by simp
  distinct := nodup_nil
  filled := by simp
  few := Nat.zero_le _
  total := by simp [filledQty]
  unfilled := by simp

end

section Matched

variable (sound : OrderBook.Sound params b)
  (fills : result.fills.map Fill.execution = (walk side price qty (makers (b.levels side.opposite))).take maxFills)
include sound fills

omit sound in
theorem makerIds_initial : result.fills.map Fill.makerId <+: (makers (b.levels side.opposite)).map fun entry =>
    entry.2.id := by
  have ids : result.fills.map Fill.makerId =
      ((walk side price qty (makers (b.levels side.opposite))).map Execution.makerId).take maxFills := by
    rw [← map_take, ← fills, List.map_map]
    rfl
  rw [ids]
  exact (List.take_prefix _ _).trans (walk_makers_initial side price qty _)

omit sound in
theorem maker_rests {fill : Fill} (member : fill ∈ result.fills) : ∃ p q, b.Rests side.opposite p fill.makerId q := by
  have listed := (makerIds_initial fills).subset (List.mem_map.mpr ⟨fill, member, rfl⟩)
  obtain ⟨⟨p, ⟨x, q⟩⟩, resting, same⟩ := List.mem_map.mp listed
  subst same
  exact ⟨p, q, resting⟩

theorem makerIds_distinct : (result.fills.map Fill.makerId).Nodup := by
  have ids := pairwise_map.mpr (sound.linked.ids_distinct side.opposite)
  exact Nodup.sublist (makerIds_initial fills).sublist ids

theorem fill_pos {fill : Fill} (member : fill ∈ result.fills) : 0 < fill.qty := by
  have listed : fill.execution ∈ walk side price qty (makers (b.levels side.opposite)) := by
    apply mem_of_mem_take (i := maxFills)
    rw [← fills]
    exact List.mem_map.mpr ⟨fill, member, rfl⟩
  exact walk_fill_pos (fun entry resting => sound.positive side.opposite entry.1 entry.2 resting) listed

theorem not_taken_own {p : Int} {x q : Nat} (rests : b.Rests side p x q) : result.taken x = 0 := by
  apply takenFrom_eq_zero
  intro listed
  rw [List.map_map] at listed
  obtain ⟨fill, member, same⟩ := List.mem_map.mp listed
  obtain ⟨p', q', opposite⟩ := maker_rests fills member
  have equal : fill.makerId = x := same
  rw [equal] at opposite
  exact Side.opposite_ne side (sound.rests_unique rests opposite).1

end Matched

theorem submitted_of_levels (sound : OrderBook.Sound params b)
    (fills : result.fills.map Fill.execution = (walk side price qty (makers (b.levels side.opposite))).take maxFills)
    (total : result.remainingQty + filledQty (result.fills.map Fill.execution) = qty)
    (unfilled : result.rested = true → (walk side price qty (makers (b.levels side.opposite))).length ≤ maxFills ∧
      filledQty (walk side price qty (makers (b.levels side.opposite))) < qty)
    (opposite : b'.levels side.opposite = remove (result.fills.map Fill.execution) (b.levels side.opposite))
    (own : b'.levels side = if result.rested then place side price ⟨id, result.remainingQty⟩ (b.levels side)
      else b.levels side) : Submitted maxFills b b' id side price qty result where
  others := by
    intro s p x k other
    rcases Side.eq_or_opposite side s with rfl | rfl
    · have old : b'.Rests s p x k ↔ b.Rests s p x k := by
        unfold OrderBook.Rests
        rw [own]
        split
        · rename_i rested
          rw [mem_makers_place]
          simp [other.resolve_right (by simp [rested])]
        · exact Iff.rfl
      rw [old]
      constructor
      · intro rests
        exact ⟨k, rests, by rw [not_taken_own sound fills rests, Nat.sub_zero], sound.rests_pos rests⟩
      · intro ⟨q, rests, same, _⟩
        rw [same, not_taken_own sound fills rests, Nat.sub_zero]
        exact rests
    · unfold OrderBook.Rests
      rw [opposite, remove, mem_makers_adjust]
      constructor
      · intro ⟨⟨y, q⟩, resting, reduced⟩
        obtain ⟨same, amount, positive⟩ := reduce_eq_some.mp reduced
        subst same
        exact ⟨q, resting, amount, positive⟩
      · intro ⟨q, resting, amount, positive⟩
        exact ⟨⟨x, q⟩, resting, reduce_eq_some.mpr ⟨rfl, amount, positive⟩⟩
  own := by
    intro fresh s p k
    rcases Side.eq_or_opposite side s with rfl | rfl
    · have absent : (p, (⟨id, k⟩ : Resting)) ∉ makers (b.levels s) := fresh s p k
      unfold OrderBook.Rests
      rw [own]
      split
      · rename_i rested
        simp [mem_makers_place, rested, absent]
      · rename_i rested
        simp [rested, absent]
    · have absent : ¬ b'.Rests side.opposite p id k := by
        unfold OrderBook.Rests
        rw [opposite, remove, mem_makers_adjust]
        intro ⟨⟨y, q⟩, resting, reduced⟩
        obtain ⟨same, _⟩ := reduce_eq_some.mp reduced
        subst same
        exact fresh _ _ _ resting
      simp [absent]
  makers := fun fill member => maker_rests fills member
  distinct := makerIds_distinct sound fills
  filled := fun fill member => fill_pos sound fills member
  few := by
    have length := congrArg length fills
    rw [length_map, length_take] at length
    omega
  total := total
  unfilled := unfilled

section

variable (sound : OrderBook.Sound params e.book)
include sound

theorem submitOrder_effect (id : Nat) (side : Side) (price : Int) (qty : Nat) :
    ∃ result e', e.submitOrder id side price qty = some (result, e') ∧ OrderBook.Sound params e'.book ∧
      Submitted maxFills e.book e'.book id side price qty result := by
  obtain ⟨_, result, e', _, done, sound', _⟩ := submitOrder_spec sound id side price qty
  refine ⟨result, e', done, sound', ?_⟩
  rcases submitOrder_cases sound done with ⟨_, fills, remaining, rested, levels⟩ | ⟨m, goes⟩
  · -- Refused before matching: zero quantity or a live id.
    have same : result = ⟨[], qty, false⟩ := by
      cases result
      simp_all
    subst same
    exact submitted_unchanged sound levels id qty side price
  · have total := goes.running.progress.remaining_eq
    have walked := goes.running.progress.walk_eq
    refine submitted_of_levels sound goes.fills ?_ ?_ goes.opposite goes.own
    · rw [goes.remaining, ← goes.filled, total]
    · intro rested
      simp only [goes.rested, Bool.and_eq_true, decide_eq_true_eq, Bool.not_eq_true'] at rested
      have finished := (walk_eq_nil_iff rested.1.1 (goes.running.sound.linked.levels_filled _)).mpr rested.1.2
      rw [finished, append_nil] at walked
      have few := congrArg length (goes.filled.trans goes.fills)
      rw [← walked] at few ⊢
      rw [length_take] at few
      omega

/-- An order whose walk fits the fill buffer and whose remainder the book can take rests. -/
theorem submitOrder_rests (fresh : isLive e.book.levels id = false)
    (done : e.submitOrder id side price qty = some (result, e'))
    (short : (walk side price qty (makers (e.book.levels side.opposite))).length ≤ maxFills)
    (unfilled : filledQty (walk side price qty (makers (e.book.levels side.opposite))) < qty)
    (room : e.book.canAdd id side price = true) : result.rested = true := by
  rcases submitOrder_cases sound done with ⟨refused, _⟩ | ⟨m, goes⟩
  · rw [fresh, or_iff_left Bool.false_ne_true] at refused
    omega
  have running := goes.running
  have taken := goes.filled.trans goes.fills
  rw [take_of_length_le short] at taken
  have total := running.progress.remaining_eq
  rw [taken] at total
  have finished : walk side price m.remaining (makers (m.book.levels side.opposite)) = [] := by
    have whole := running.progress.walk_eq
    rw [taken] at whole
    exact append_right_eq_self.mp whole
  have apart : bestCrosses side price (m.book.levels side.opposite) = false :=
    (walk_eq_nil_iff (by omega) (running.sound.linked.levels_filled _)).mp finished
  have accepted : (m.book.addOrder id side price m.remaining).any Prod.fst = true := by
    rcases running.sound.linked.addOrder id side price m.remaining with ⟨_, _, b', added, _⟩ | ⟨refused, _⟩
    · rw [added]
      rfl
    · exact absurd ⟨by omega, running.room id price room⟩ refused
  rw [goes.rested, apart, accepted]
  simp
  omega

section

variable (done : e.submitOrder id side price qty = some (result, e'))
include done

theorem submitOrder_idle (rested : result.rested = false) (fills : result.fills = []) :
    e'.book.levels = e.book.levels := by
  rcases submitOrder_cases sound done with ⟨_, _, _, _, levels⟩ | ⟨m, goes⟩
  · exact levels
  · funext s
    rcases Side.eq_or_opposite side s with rfl | rfl
    · simp [goes.own, rested]
    · rw [goes.opposite, fills]
      exact remove_nil (sound.positive side.opposite) (sound.linked.levels_filled side.opposite)

theorem submitOrder_trades (trades : result.fills ≠ []) :
    isLive e.book.levels id = false ∧ walk side price qty (makers (e.book.levels side.opposite)) ≠ [] := by
  rcases submitOrder_cases sound done with ⟨_, none, _⟩ | ⟨m, goes⟩
  · exact absurd none trades
  · refine ⟨goes.unused, ?_⟩
    intro none
    have fills := goes.fills
    rw [none, take_nil] at fills
    exact trades (map_eq_nil_iff.mp fills)

end

/-- Nothing is dropped if the walk fits the fill buffer and the book can take a remainder. -/
theorem submitOrder_complete (unused : isLive e.book.levels id = false)
    (done : e.submitOrder id side price qty = some (result, e'))
    (short : (walk side price qty (makers (e.book.levels side.opposite))).length ≤ maxFills)
    (room : filledQty (walk side price qty (makers (e.book.levels side.opposite))) < qty →
      e.book.canAdd id side price = true) (left : 0 < result.remainingQty) : result.rested = true := by
  have unfilled : filledQty (walk side price qty (makers (e.book.levels side.opposite))) < qty := by
    rcases submitOrder_cases sound done with ⟨refused, _, remaining, _⟩ | ⟨m, goes⟩
    · rw [unused, or_iff_left Bool.false_ne_true] at refused
      omega
    · have total := goes.running.progress.remaining_eq
      rw [goes.filled, goes.fills, take_of_length_le short, ← goes.remaining] at total
      omega
  exact submitOrder_rests sound unused done short unfilled (room unfilled)

theorem cancelOrder_effect (id : Nat) :
    ∃ cancelled e', e.cancelOrder id = some (cancelled, e') ∧ OrderBook.Sound params e'.book ∧
      (cancelled = true ↔ ∃ s p q, e.book.Rests s p id q) ∧
      (∀ s p x q, e'.book.Rests s p x q ↔ e.book.Rests s p x q ∧ x ≠ id) ∧
      ∀ s, (∀ p q, ¬ e.book.Rests s p id q) → e'.book.levels s = e.book.levels s := by
  rcases cancelOrder_spec sound id with ⟨refused, absent⟩ | ⟨e', done, sound', live, levels, _⟩
  · have nowhere : ¬ ∃ s p q, e.book.Rests s p id q := by
      intro resting
      rw [isLive_iff.mpr resting] at absent
      cases absent
    refine ⟨false, e, refused, sound, by simpa using nowhere, ?_, fun _ _ => rfl⟩
    intro s p x q
    constructor
    · intro rests
      refine ⟨rests, ?_⟩
      intro same
      subst same
      exact nowhere ⟨s, p, q, rests⟩
    · exact And.left
  · refine ⟨true, e', done, sound', ⟨fun _ => isLive_iff.mp live, fun _ => rfl⟩, ?_, ?_⟩
    · intro s p x q
      unfold OrderBook.Rests
      rw [levels, mem_makers_adjust]
      constructor
      · intro ⟨old, resting, kept⟩
        unfold amend at kept
        split at kept
        · cases kept
        · rename_i other
          cases kept
          exact ⟨resting, other⟩
      · intro ⟨resting, other⟩
        exact ⟨⟨x, q⟩, resting, by simp [amend, other]⟩
    · intro s absent
      rw [levels]
      apply adjust_eq_self (sound.linked.levels_filled s)
      intro p r resting
      unfold amend
      rw [if_neg]
      intro same
      subst same
      exact absent p r.qty resting

theorem modifyOrder_effect (oldId : Nat) (side : Side) (price : Int)
    (qty newId : Nat) :
    ∃ result e', e.modifyOrder oldId side price qty newId = some (result, e') ∧ OrderBook.Sound params e'.book ∧
      ((result.success = false ∧ (∀ s p q, ¬ e.book.Rests s p oldId q) ∧ e' = e) ∨
      (result.success = true ∧ (∃ s p q, e.book.Rests s p oldId q) ∧
        ∃ e₁ : MatchingEngine maxFills, e.cancelOrder oldId = some (true, e₁) ∧ OrderBook.Sound params e₁.book ∧
          (∀ s p x q, e₁.book.Rests s p x q ↔ e.book.Rests s p x q ∧ x ≠ oldId) ∧
          (∀ s, (∀ p q, ¬ e.book.Rests s p oldId q) → e₁.book.levels s = e.book.levels s) ∧
          e₁.submitOrder newId side price qty = some (⟨result.fills, result.remainingQty, result.rested⟩, e') ∧
          Submitted maxFills e₁.book e'.book newId side price qty
            ⟨result.fills, result.remainingQty, result.rested⟩)) := by
  obtain ⟨cancelled, e₁, done, sound₁, found, rests, levels⟩ := cancelOrder_effect sound oldId
  unfold modifyOrder
  simp only [done, bind_eq_bind, bind_some, Option.pure_def]
  cases cancelled with
  | false =>
    have nowhere : ∀ s p q, ¬ e.book.Rests s p oldId q := by
      intro s p q resting
      exact absurd (found.mpr ⟨s, p, q, resting⟩) (by simp)
    have same : e₁ = e := by
      rcases cancelOrder_spec sound oldId with ⟨refused, _⟩ | ⟨e'', accepted, _⟩
      · rw [done] at refused
        exact (Prod.mk.inj (some.inj refused)).2
      · rw [done] at accepted
        cases accepted
    subst same
    exact ⟨_, e₁, rfl, sound₁, .inl ⟨rfl, nowhere, rfl⟩⟩
  | true =>
    obtain ⟨result, e', resubmitted, sound', submitted⟩ := submitOrder_effect sound₁ newId side price qty
    rw [resubmitted]
    exact ⟨_, e', rfl, sound', .inr ⟨rfl, found.mp rfl, e₁, rfl, sound₁, rests, levels, resubmitted, submitted⟩⟩

end

theorem hasOrder_effect (sound : OrderBook.Sound params b) (x : Nat) :
    ∃ answer, b.hasOrder x = some answer ∧ (answer = true ↔ ∃ s p q, b.Rests s p x q) :=
  ⟨_, sound.linked.hasOrder_eq x, isLive_iff⟩

theorem orderQty_effect (sound : OrderBook.Sound params b) (x : Nat) :
    ∃ k, b.orderQty x = some k ∧ (∀ s p q, b.Rests s p x q → k = q) ∧ ((∀ s p q, ¬ b.Rests s p x q) → k = 0) := by
  have linked := sound.linked
  unfold OrderBook.orderQty
  rcases linked.find_cases x with ⟨found, absent⟩ | ⟨o, l, found, queued, shown⟩
  · refine ⟨0, by rw [found]; rfl, ?_, fun _ => rfl⟩
    intro s p q rests
    obtain ⟨l, onLadder, o, queued, _, same⟩ := OrderBook.mem_makers_levels.mp rests
    have mapped := (linked.orderMap_iff x o).mpr ⟨.inl ⟨l, queued⟩, congrArg Resting.id same⟩
    rw [absent] at mapped
    cases mapped
  · have here : b.Rests (b.levelSide l) (b.levelPrice l) x (b.orderSlots o).qty :=
      OrderBook.mem_makers_levels.mpr ⟨l, linked.on_ladder l o queued, o, queued, rfl, by rw [OrderBook.resting, shown]⟩
    refine ⟨(b.orderSlots o).qty, by rw [found]; rfl, ?_, fun nowhere => absurd here (nowhere _ _ _)⟩
    intro s p q rests
    exact (sound.rests_unique rests here).2.2

end TickToTrade.Algo
