import TickToTrade.Algo.BookInvariant
import TickToTrade.Algo.MatchingEngine

/-!
The matching loops perform the greedy walk of price-time priority, execution by execution.
-/

namespace TickToTrade.Algo
open Ds Probing PriceTime List Option

variable {b b' : OrderBook} {l o : Nat} {s side : Side} {price : Int} {id qty maxFills : Nat} {params : Params}

namespace OrderBook

theorem Linked.levels_filled (linked : Linked none none b) (s : Side) : ∀ level ∈ b.levels s, level.orders ≠ [] := by
  intro level member
  obtain ⟨l, onLadder, same⟩ := List.mem_map.mp member
  subst same
  simpa [OrderBook.level] using linked.queue_ne_nil s l onLadder (by simp)

theorem makers_levels (b : OrderBook) (s : Side) : makers (b.levels s) =
    (b.ladders s).flatMap fun l => (b.queue l).map fun o => (b.levelPrice l, b.resting o) := by
  simp only [makers, levels, flatMap_map, level, List.map_map]
  rfl

theorem Linked.ids_distinct (linked : Linked none none b) (s : Side) :
    (makers (b.levels s)).Pairwise fun x y => x.2.id ≠ y.2.id := by
  have inUse : ((b.ladders s).flatMap b.queue).Nodup := by
    refine nodup_flatMap.mpr ⟨fun l _ => linked.queue_nodup l, ?_⟩
    apply (linked.ladder_nodup s).imp
    intro l l' different o queued queued'
    exact different (linked.queue_unique queued' queued)
  have same : (makers (b.levels s)).map (fun entry => entry.2.id) =
      ((b.ladders s).flatMap b.queue).map fun o => (b.orderSlots o).orderId := by
    rw [makers_levels, map_flatMap, map_flatMap]
    simp only [List.map_map]
    rfl
  have ids : ((makers (b.levels s)).map fun entry => entry.2.id).Nodup := by
    rw [same]
    apply pairwise_map.mpr
    apply inUse.imp_of_mem
    intro o o' member member' different equal
    obtain ⟨l, _, queued⟩ := mem_flatMap.mp member
    obtain ⟨l', _, queued'⟩ := mem_flatMap.mp member'
    exact different (linked.id_unique (.inl ⟨l', queued'⟩) (.inl ⟨l, queued⟩) equal)
  exact pairwise_map.mp ids

theorem Linked.maker_unique (linked : Linked none none b) {s s' : Side} {p p' : Int} {r r' : Resting}
    (member : (p, r) ∈ makers (b.levels s)) (member' : (p', r') ∈ makers (b.levels s')) (same : r'.id = r.id) :
    s' = s ∧ p' = p ∧ r' = r := by
  obtain ⟨l, onLadder, o, queued, shown, rfl⟩ := mem_makers_levels.mp member
  obtain ⟨l', onLadder', o', queued', shown', rfl⟩ := mem_makers_levels.mp member'
  have order := linked.id_unique (.inl ⟨l, queued⟩) (.inl ⟨l', queued'⟩) same
  subst order
  have level := linked.queue_unique queued queued'
  subst level
  exact ⟨(linked.side_eq _ _ onLadder').symm.trans (linked.side_eq _ _ onLadder), shown'.symm.trans shown, rfl⟩

theorem Linked.adjust_other (linked : Linked none none b) (member : o ∈ b.queue l)
    (onLadder : l ∈ b.ladders s) (k : Nat) :
    adjust (amend (b.orderSlots o).orderId k) (b.levels s.opposite) = b.levels s.opposite := by
  apply adjust_eq_self (linked.levels_filled _)
  intro p r resting
  have here : (b.levelPrice l, b.resting o) ∈ makers (b.levels s) :=
    mem_makers_levels.mpr ⟨l, onLadder, o, member, rfl, rfl⟩
  unfold amend
  rw [if_neg]
  intro same
  obtain ⟨side, _⟩ := linked.maker_unique here resting same
  exact Side.opposite_ne s side

/-- Where an order would have been accepted, it still is after another one is removed. -/
theorem Dropped.canAdd (dropped : Dropped b b' l o) (id : Nat) (side : Side) (price : Int)
    (room : b.canAdd id side price = true) : b'.canAdd id side price = true := by
  simp only [OrderBook.canAdd, Bool.and_eq_true, Bool.not_eq_true', isEmpty_eq_false_iff] at room ⊢
  exact ⟨⟨dropped.orderFree, dropped.accepts id room.1.2⟩, dropped.levelRoom side price room.2⟩

end OrderBook

def Fill.execution (fill : Fill) : Execution := ⟨fill.makerId, fill.price, fill.qty⟩

namespace Matching

/-- What holds whenever a loop tests its condition; `initial` is the book before the first execution. -/
structure Running (params : Params) (initial : OrderBook) (maxFills id : Nat) (side : Side) (price : Int) (qty : Nat)
    (m : Matching) : Prop where
  sound : OrderBook.Sound params m.book
  progress : Progress side price qty (initial.levels side.opposite) (m.fills.map Fill.execution) m.remaining
    (m.book.levels side.opposite)
  own : m.book.levels side = initial.levels side
  taker : ∀ fill ∈ m.fills, fill.takerId = id
  fits : m.fills.length ≤ maxFills
  room : ∀ id price, initial.canAdd id side price = true → m.book.canAdd id side price = true

variable {initial : OrderBook} {m m' : Matching} {best : Nat} {rest queue : List Nat}

theorem Running.start (sound : OrderBook.Sound params b) :
    Running params b maxFills id side price qty { book := b, remaining := qty, fills := [] } where
  sound := sound
  progress := Progress.start (sound.positive _) (sound.linked.levels_filled _)
  own := rfl
  taker := by simp
  fits := Nat.zero_le _
  room := fun _ _ room => room

/-- The book after one execution against order `o`, with its level still at the front unless it is gone. -/
structure Filled (params : Params) (b b' : OrderBook) (side : Side) (l o k : Nat) (destroyed : Bool) : Prop where
  sound : OrderBook.Sound params b'
  levels : ∀ s, b'.levels s = adjust (amend (b.orderSlots o).orderId k) (b.levels s)
  room : ∀ id price, b.canAdd id side price = true → b'.canAdd id side price = true
  ladder : destroyed = false → b'.ladders side.opposite = b.ladders side.opposite
  levelPrice : b'.levelPrice = b.levelPrice

theorem filled_of_setQty (sound : OrderBook.Sound params b) (queued : o ∈ b.queue l) {k : Nat} (left : k ≠ 0)
    (delta : Nat) : Filled params b (b.setQty l o k delta) side l o k false where
  sound := sound.setQty queued left delta
  levels := sound.linked.setQty_levels queued left delta
  room := fun _ _ room => room
  ladder := fun _ => rfl
  levelPrice := OrderBook.setQty_levelPrice b l o k delta

theorem filled_of_removed (sound : OrderBook.Sound params b) (queued : o ∈ b.queue l)
    (onLadder : l ∈ b.ladders side.opposite) (dropped : OrderBook.Dropped b b' l o) :
    Filled params b b' side l o 0 ((b.queue l).erase o).isEmpty where
  sound := sound.dropped queued dropped
  levels := dropped.levels sound.linked queued
  room := fun id price => dropped.canAdd id side price
  ladder := by
    intro kept
    rw [dropped.ladders, dropped.queue]
    apply filter_eq_self.mpr
    intro x member
    by_cases same : x = l
    · subst same
      simpa using kept
    · simpa [same] using sound.linked.queue_ne_nil _ x member (by simp)
  levelPrice := dropped.levelPrice

theorem fillOrder_spec (sound : OrderBook.Sound params m.book) (queued : o ∈ m.book.queue l)
    (onLadder : l ∈ m.book.ladders side.opposite) (id : Nat) (execPrice : Int) :
    ∃ destroyed b', m.fillOrder id execPrice l o = some (destroyed, {
        book := b'
        remaining := m.remaining - min m.remaining (m.book.orderSlots o).qty
        fills := m.fills ++ [⟨(m.book.orderSlots o).orderId, id, execPrice,
          min m.remaining (m.book.orderSlots o).qty⟩] }) ∧
      Filled params m.book b' side l o ((m.book.orderSlots o).qty - min m.remaining (m.book.orderSlots o).qty)
        destroyed := by
  unfold fillOrder
  by_cases used : (m.book.orderSlots o).qty - min m.remaining (m.book.orderSlots o).qty = 0
  · have written := sound.linked.setQty l o 0 (min m.remaining (m.book.orderSlots o).qty)
    obtain ⟨b', removed, dropped⟩ := written.removeFilledOrder (l := l) (o := o)
      (by rw [OrderBook.setQty_queue]; exact queued)
    rw [OrderBook.setQty_queue] at removed
    refine ⟨_, b', ?_, used ▸ filled_of_removed sound queued onLadder dropped.of_setQty⟩
    simp [used, OrderBook.setQty_order, removed]
  · refine ⟨false, _, ?_, filled_of_setQty sound queued used (min m.remaining (m.book.orderSlots o).qty)⟩
    simp [used, OrderBook.setQty_order]

theorem Running.fillOrder (running : Running params initial maxFills id side price qty m)
    (front : m.book.ladders side.opposite = best :: rest) (first : m.book.queue best = o :: queue)
    (left : 0 < m.remaining) (fits : m.fills.length < maxFills)
    (crosses : Crosses side price (m.book.levelPrice best)) :
    ∃ destroyed m', m.fillOrder id (m.book.levelPrice best) best o = some (destroyed, m') ∧
      Running params initial maxFills id side price qty m' ∧ m'.fills.length = m.fills.length + 1 ∧
      (destroyed = false → m'.book.ladders side.opposite = best :: rest) ∧
      m'.book.levelPrice best = m.book.levelPrice best := by
  have linked := running.sound.linked
  have onLadder : best ∈ m.book.ladders side.opposite := by
    rw [front]
    exact mem_cons_self
  have queued : o ∈ m.book.queue best := by
    rw [first]
    exact mem_cons_self
  obtain ⟨destroyed, b', done, filled⟩ := fillOrder_spec running.sound queued onLadder id (m.book.levelPrice best)
  refine ⟨destroyed, _, done, ?_,
    by simp, fun kept => (filled.ladder kept).trans front, congrFun filled.levelPrice best⟩
  have head : makers (m.book.levels side.opposite) = (m.book.levelPrice best, m.book.resting o) ::
      ((queue.map fun y => (m.book.levelPrice best, m.book.resting y)) ++
        rest.flatMap fun l => (m.book.queue l).map fun y => (m.book.levelPrice l, m.book.resting y)) := by
    rw [OrderBook.makers_levels, front, flatMap_cons, first]
    rfl
  exact {
    sound := filled.sound
    progress := by
      have step := running.progress.step head (linked.ids_distinct _) left crosses
      rw [map_append]
      simp only [filled.levels]
      exact step
    own := by
      have other := linked.adjust_other queued onLadder
        ((m.book.orderSlots o).qty - min m.remaining (m.book.orderSlots o).qty)
      rw [Side.opposite_opposite] at other
      rw [filled.levels, other, running.own]
    taker := by
      intro fill member
      rcases mem_append.mp member with old | new
      · exact running.taker fill old
      · rw [mem_singleton.mp new]
    fits := by
      rw [length_append]
      exact fits
    room := fun id price room => filled.room id price (running.room id price room) }

section

variable (fuel : Nat) (running : Running params initial maxFills id side price qty m)
include fuel running

theorem Running.matchLevel
    (front : m.book.ladders side.opposite = best :: rest) (crosses : Crosses side price (m.book.levelPrice best))
    (enough : maxFills < fuel + m.fills.length) :
    ∃ m', matchLevel maxFills id (m.book.levelPrice best) best fuel m = some m' ∧
      Running params initial maxFills id side price qty m' ∧ m.fills.length ≤ m'.fills.length ∧
      (0 < m.remaining → m.fills.length < maxFills → m.fills.length < m'.fills.length) := by
  induction fuel generalizing m with
  | zero =>
    have fits := running.fits
    omega
  | succ fuel ih =>
    unfold Matching.matchLevel
    split
    · rename_i guard
      have onLadder : best ∈ m.book.ladders side.opposite := by
        rw [front]
        exact mem_cons_self
      cases first : m.book.queue best with
      | nil => exact absurd first (running.sound.linked.queue_ne_nil _ best onLadder (by simp))
      | cons o queue =>
        obtain ⟨destroyed, m', done, running', longer, kept, samePrice⟩ :=
          running.fillOrder front first guard.1 guard.2 crosses
        have read : (m.book.levelSlots best).orders = o :: queue := first
        simp only [read, done, bind_eq_bind, bind_some]
        cases destroyed with
        | true => exact ⟨m', rfl, running', by omega, fun _ _ => by omega⟩
        | false =>
          obtain ⟨m'', rest, running'', further, _⟩ :=
            ih running' (kept rfl) (by rw [samePrice]; exact crosses) (by omega)
          rw [samePrice] at rest
          exact ⟨m'', rest, running'', by omega, fun _ _ => by omega⟩
    · rename_i stop
      exact ⟨m, rfl, running, Nat.le_refl _, fun left fits => absurd ⟨left, fits⟩ stop⟩

/-- The outer loop ends where the walk has nothing left or the fill buffer is full. -/
theorem Running.matchLoop
    (enough : maxFills < fuel + m.fills.length) :
    ∃ m', matchLoop maxFills id side price fuel m = some m' ∧ Running params initial maxFills id side price qty m' ∧
      (m'.fills.length = maxFills ∨ walk side price m'.remaining (makers (m'.book.levels side.opposite)) = []) := by
  induction fuel generalizing m with
  | zero =>
    have fits := running.fits
    omega
  | succ fuel ih =>
    have fits := running.fits
    unfold Matching.matchLoop
    split
    · rename_i guard
      cases front : m.book.ladders side.opposite with
      | nil =>
        refine ⟨m, rfl, running, .inr ?_⟩
        rw [OrderBook.makers_levels, front]
        rfl
      | cons best rest =>
        simp only
        split
        · rename_i crosses
          obtain ⟨m', matched, running', _, longer⟩ :=
            running.matchLevel (maxFills + 1) front crosses (by omega)
          have grown := longer guard.1 guard.2
          obtain ⟨m'', done, running'', stopped⟩ := ih running' (by omega)
          refine ⟨m'', ?_, running'', stopped⟩
          have step : Matching.matchLevel maxFills id (m.book.levelSlots best).price best (maxFills + 1) m =
            some m' := matched
          rw [step]
          exact done
        · rename_i crosses
          refine ⟨m, rfl, running, .inr ?_⟩
          have onLadder : best ∈ m.book.ladders side.opposite := by
            rw [front]
            exact mem_cons_self
          cases first : m.book.queue best with
          | nil => exact absurd first (running.sound.linked.queue_ne_nil _ best onLadder (by simp))
          | cons o queue =>
            rw [OrderBook.makers_levels, front, flatMap_cons, first, map_cons, cons_append, walk, if_pos]
            exact .inr crosses
    · rename_i stop
      refine ⟨m, rfl, running, ?_⟩
      by_cases left : 0 < m.remaining
      · left
        have full : ¬ m.fills.length < maxFills := fun short => stop ⟨left, short⟩
        omega
      · right
        rw [Nat.eq_zero_of_not_pos left, walk_zero]

end

end Matching

theorem OrderBook.Linked.hasOrder_eq (linked : OrderBook.Linked none none b) (id : Nat) :
    b.hasOrder id = some (isLive b.levels id) := by
  unfold OrderBook.hasOrder
  simp only [linked.orderMap_ok.find_eq, bind_eq_bind, bind_some, Option.pure_def, some.injEq]
  rw [Bool.eq_iff_iff, isLive, List.any_eq_true, isSome_iff_exists]
  simp only [mem_append, Prod.exists, decide_eq_true_eq]
  constructor
  · rintro ⟨o, found⟩
    obtain ⟨⟨l, queued⟩ | impossible, shown⟩ := (linked.orderMap_iff id o).mp found
    · refine ⟨b.levelPrice l, b.resting o, ?_, shown⟩
      have resting := OrderBook.mem_makers_levels.mpr ⟨l, linked.on_ladder l o queued, o, queued, rfl, rfl⟩
      cases side : b.levelSide l
      · exact .inl (side ▸ resting)
      · exact .inr (side ▸ resting)
    · cases impossible
  · rintro ⟨p, r, resting, shown⟩
    have onSide : ∃ s, (p, r) ∈ makers (b.levels s) := resting.elim (fun bid => ⟨_, bid⟩) (fun ask => ⟨_, ask⟩)
    obtain ⟨s, member⟩ := onSide
    obtain ⟨l, _, o, queued, _, rfl⟩ := OrderBook.mem_makers_levels.mp member
    exact ⟨o, (linked.orderMap_iff id o).mpr ⟨.inl ⟨l, queued⟩, shown⟩⟩

theorem OrderBook.bestPrice_any (b : OrderBook) (s side : Side) (price : Int) :
    ((b.bestPrice s).any fun best => Crosses side price best) = bestCrosses side price (b.levels s) := by
  unfold OrderBook.bestPrice bestCrosses OrderBook.levels
  cases b.ladders s <;> rfl

def MatchResult.outcome (result : MatchResult) (book : OrderBook) : Outcome :=
  ⟨result.fills.map Fill.execution, result.remainingQty, result.rested, book.levels⟩

namespace MatchingEngine

variable {e e' : MatchingEngine maxFills}

theorem cross_spec (sound : OrderBook.Sound params e.book) (id : Nat) (side : Side) (price : Int) (qty : Nat) :
    ∃ m, e.cross id side price qty = some m ∧ Matching.Running params e.book maxFills id side price qty m ∧
      m.fills.map Fill.execution = (walk side price qty (makers (e.book.levels side.opposite))).take maxFills := by
  have begun : Matching.Running params e.book maxFills id side price qty ⟨e.book, qty, []⟩ := .start sound
  obtain ⟨m, done, running, stopped⟩ := begun.matchLoop (maxFills + 1) (by simp)
  refine ⟨m, done, running, running.progress.take_eq ?_ ?_⟩
  · rw [length_map]
    exact running.fits
  · rw [length_map]
    exact stopped

theorem levels_eq_ite {own opposite : List Level} (same : b.levels side = own)
    (other : b.levels side.opposite = opposite) : b.levels = fun s => if s = side then own else opposite := by
  funext s
  rcases Side.eq_or_opposite side s with rfl | rfl
  · rw [if_pos rfl, same]
  · rw [if_neg (Side.opposite_ne side), other]

/-- The step of the simulation: an incoming order changes the book as the reference does. -/
theorem submitOrder_spec (sound : OrderBook.Sound params e.book) (id : Nat) (side : Side) (price : Int) (qty : Nat) :
    ∃ m result e', e.cross id side price qty = some m ∧ e.submitOrder id side price qty = some (result, e') ∧
      OrderBook.Sound params e'.book ∧ (∀ fill ∈ result.fills, fill.takerId = id) ∧
      result.outcome e'.book = PriceTime.submit maxFills ((m.book.addOrder id side price m.remaining).any Prod.fst)
        e.book.levels id side price qty := by
  obtain ⟨m, crossed, running, fills⟩ := cross_spec sound id side price qty
  unfold submitOrder PriceTime.submit
  by_cases zero : qty = 0
  · refine ⟨m, ⟨[], 0, false⟩, e, crossed, by simp [zero], sound, by simp, ?_⟩
    simp [zero, MatchResult.outcome]
  simp only [zero, if_false, sound.linked.hasOrder_eq, bind_eq_bind, bind_some, Option.pure_def, false_or]
  by_cases live : isLive e.book.levels id = true
  · refine ⟨m, ⟨[], qty, false⟩, e, crossed, by simp [live], sound, by simp, ?_⟩
    simp [live, MatchResult.outcome]
  have remaining : m.remaining = qty - filledQty (m.fills.map Fill.execution) := by
    have total := running.progress.remaining_eq
    omega
  have opposite := running.progress.current_eq
  have own := running.own
  simp only [live, Bool.false_eq_true, if_false, crossed, bind_some, OrderBook.bestPrice_any, ← fills, ← remaining,
    ← opposite, OrderBook.restOrder]
  by_cases rests : 0 < m.remaining ∧ bestCrosses side price (m.book.levels side.opposite) = false
  · have guard : 0 < m.remaining ∧ ¬ bestCrosses side price (m.book.levels side.opposite) = true := by simpa using rests
    simp only [if_pos guard]
    rcases running.sound.linked.addOrder id side price m.remaining with
      ⟨some_qty, _, b', added, placed⟩ | ⟨_, b', refused, same⟩
    · refine ⟨m, ⟨m.fills, m.remaining, true⟩, ⟨b'⟩, rfl, by simp [added], running.sound.placed some_qty placed,
        running.taker, ?_⟩
      have levels := levels_eq_ite (placed.levels.trans (congrArg _ own)) placed.other
      simp [MatchResult.outcome, rests, added, levels]
    · refine ⟨m, ⟨m.fills, m.remaining, false⟩, ⟨b'⟩, rfl,
        by simp [refused], running.sound.same same, running.taker, ?_⟩
      have levels := levels_eq_ite ((same.levels side).trans own) (same.levels side.opposite)
      simp [MatchResult.outcome, refused, levels]
  · have guard : ¬ (0 < m.remaining ∧ ¬ bestCrosses side price (m.book.levels side.opposite) = true) := by
      simpa using rests
    simp only [if_neg guard]
    refine ⟨m, ⟨m.fills, m.remaining, false⟩, ⟨m.book⟩, rfl, rfl, running.sound, running.taker, ?_⟩
    have levels := levels_eq_ite own rfl
    have stays : (decide (0 < m.remaining) && !bestCrosses side price (m.book.levels side.opposite)) = false := by
      simpa using rests
    simp only [MatchResult.outcome, stays, Bool.false_and, Bool.false_eq_true, if_false]
    rw [← levels]

/-- What a submit does once it has crossed the book with the matching `m`. -/
structure Crossed (params : Params) (e e' : MatchingEngine maxFills) (id : Nat) (side : Side) (price : Int) (qty : Nat)
    (result : MatchResult) (m : Matching) : Prop where
  unused : isLive e.book.levels id = false
  crossed : e.cross id side price qty = some m
  running : Matching.Running params e.book maxFills id side price qty m
  filled : m.fills.map Fill.execution = result.fills.map Fill.execution
  fills : result.fills.map Fill.execution = (walk side price qty (makers (e.book.levels side.opposite))).take maxFills
  remaining : result.remainingQty = m.remaining
  rested : result.rested = (decide (0 < m.remaining) && !bestCrosses side price (m.book.levels side.opposite) &&
    (m.book.addOrder id side price m.remaining).any Prod.fst)
  own : e'.book.levels side = if result.rested then place side price ⟨id, result.remainingQty⟩ (e.book.levels side)
    else e.book.levels side
  opposite : e'.book.levels side.opposite = remove (result.fills.map Fill.execution) (e.book.levels side.opposite)

theorem submitOrder_cases {id qty : Nat} {side : Side} {price : Int} {result : MatchResult}
    (sound : OrderBook.Sound params e.book) (done : e.submitOrder id side price qty = some (result, e')) :
    ((qty = 0 ∨ isLive e.book.levels id = true) ∧ result.fills = [] ∧ result.remainingQty = qty ∧
      result.rested = false ∧
      e'.book.levels = e.book.levels) ∨ ∃ m, Crossed params e e' id side price qty result m := by
  obtain ⟨m, result', e'', crossed, done', _, _, outcome⟩ := submitOrder_spec sound id side price qty
  rw [done] at done'
  cases done'
  unfold PriceTime.submit at outcome
  split at outcome
  · rename_i stopped
    simp only [MatchResult.outcome, Outcome.mk.injEq, map_eq_nil_iff] at outcome
    exact .inl ⟨stopped, outcome⟩
  · rename_i goes
    rw [not_or, Bool.not_eq_true] at goes
    obtain ⟨m', crossed', running, taken⟩ := cross_spec sound id side price qty
    rw [crossed] at crossed'
    cases crossed'
    have total := running.progress.remaining_eq
    have remaining : m.remaining = qty - filledQty (m.fills.map Fill.execution) := by omega
    simp only [MatchResult.outcome, Outcome.mk.injEq, ← taken, ← running.progress.current_eq, ← remaining] at outcome
    obtain ⟨fills, left, rested, levels⟩ := outcome
    refine .inr ⟨m, goes.2, crossed, running, fills.symm, fills.trans taken, left, rested, ?_, ?_⟩
    · rw [levels, ← rested, ← left]
      simp
    · rw [levels, fills, ← running.progress.current_eq]
      simp

theorem cancelOrder_spec (sound : OrderBook.Sound params e.book) (id : Nat) :
    (e.cancelOrder id = some (false, e) ∧ isLive e.book.levels id = false) ∨
    ∃ e', e.cancelOrder id = some (true, e') ∧ OrderBook.Sound params e'.book ∧ isLive e.book.levels id = true ∧
      (∀ s, e'.book.levels s = adjust (amend id 0) (e.book.levels s)) ∧
      ∀ id side price, e.book.canAdd id side price = true → e'.book.canAdd id side price = true := by
  have known := sound.linked.hasOrder_eq id
  unfold OrderBook.hasOrder at known
  unfold cancelOrder
  rcases sound.linked.cancelOrder id with ⟨refused, absent⟩ | ⟨o, l, b', queued, shown, cancelled, dropped⟩
  · left
    rw [refused]
    simp only [sound.linked.orderMap_ok.find_eq, absent] at known
    exact ⟨rfl, (some.inj known).symm⟩
  · right
    refine ⟨⟨b'⟩, by rw [cancelled]; rfl, sound.dropped queued dropped.toDropped, ?_, ?_, dropped.canAdd⟩
    · have found := (sound.linked.orderMap_iff id o).mpr ⟨.inl ⟨l, queued⟩, shown⟩
      simp only [sound.linked.orderMap_ok.find_eq, found] at known
      exact (some.inj known).symm
    · intro s
      rw [dropped.levels sound.linked queued, shown]

/-! ### Every sequence of calls -/

inductive Op where
  | submitOrder (id : Nat) (side : Side) (price : Int) (qty : Nat)
  | cancelOrder (id : Nat)
  | modifyOrder (oldId : Nat) (side : Side) (newPrice : Int) (newQty newId : Nat)

def Op.brings : Op → Nat
  | .submitOrder _ _ _ qty => qty
  | .cancelOrder _ => 0
  | .modifyOrder _ _ _ newQty _ => newQty

def apply (e : MatchingEngine maxFills) : Op → Exec (MatchingEngine maxFills)
  | .submitOrder id side price qty => (e.submitOrder id side price qty).map Prod.snd
  | .cancelOrder id => (e.cancelOrder id).map Prod.snd
  | .modifyOrder oldId side newPrice newQty newId => (e.modifyOrder oldId side newPrice newQty newId).map Prod.snd

def run : MatchingEngine maxFills → List Op → Exec (MatchingEngine maxFills)
  | e, [] => some e
  | e, op :: ops => (e.apply op).bind fun e => e.run ops

/-- A property of sound engines that submitting and cancelling keep holds after every call of a run. -/
theorem run_invariant {P : MatchingEngine maxFills → Prop} {Q : Nat → Prop}
    (submits : ∀ e id side price qty result e', OrderBook.Sound params e.book → P e → Q qty →
      e.submitOrder id side price qty = some (result, e') → P e')
    (cancels : ∀ e id cancelled e', OrderBook.Sound params e.book → P e →
      e.cancelOrder id = some (cancelled, e') → P e')
    (sound : OrderBook.Sound params e.book) (holds : P e) {ops : List Op} (sizes : ∀ op ∈ ops, Q op.brings) :
    ∃ e', e.run ops = some e' ∧ OrderBook.Sound params e'.book ∧ P e' := by
  induction ops generalizing e with
  | nil => exact ⟨e, rfl, sound, holds⟩
  | cons op ops ih =>
    have size := sizes op mem_cons_self
    have step : ∃ e', e.apply op = some e' ∧ OrderBook.Sound params e'.book ∧ P e' := by
      cases op with
      | submitOrder id side price qty =>
        obtain ⟨_, result, e', _, done, sound', _⟩ := submitOrder_spec sound id side price qty
        exact ⟨e', by simp [apply, done], sound', submits e id side price qty result e' sound holds size done⟩
      | cancelOrder id =>
        rcases cancelOrder_spec sound id with ⟨done, _⟩ | ⟨e', done, sound', _⟩
        · exact ⟨e, by simp [apply, done], sound, holds⟩
        · exact ⟨e', by simp [apply, done], sound', cancels e id true e' sound holds done⟩
      | modifyOrder oldId side newPrice newQty newId =>
        rcases cancelOrder_spec sound oldId with ⟨done, _⟩ | ⟨e₁, done, sound₁, _⟩
        · exact ⟨e, by simp [apply, modifyOrder, done], sound, holds⟩
        · obtain ⟨_, result, e', _, resubmitted, sound', _⟩ := submitOrder_spec sound₁ newId side newPrice newQty
          refine ⟨e', by simp [apply, modifyOrder, done, resubmitted], sound', ?_⟩
          exact submits e₁ newId side newPrice newQty result e' sound₁ (cancels e oldId true e₁ sound holds done)
            size resubmitted
    obtain ⟨e₁, applied, sound₁, holds₁⟩ := step
    obtain ⟨e', rest, final⟩ := ih sound₁ holds₁ fun op member => sizes op (mem_cons_of_mem _ member)
    exact ⟨e', by simp [run, applied, rest], final⟩

section

variable (created : create maxFills params = some e)
include created

theorem create_book : OrderBook.bind params = some e.book := by
  unfold create at created
  cases bound : OrderBook.bind params with
  | none => simp [bound] at created
  | some book =>
    simp only [bound, bind_eq_bind, bind_some, Option.pure_def, some.injEq] at created
    subst created
    rfl

theorem create_sound : OrderBook.Sound params e.book :=
  OrderBook.bind_sound (create_book created)

theorem run_sound {ops : List Op} (ran : e.run ops = some e') : OrderBook.Sound params e'.book := by
  obtain ⟨final, done, sound, _⟩ := run_invariant (P := fun _ => True) (Q := fun _ => True)
    (fun _ _ _ _ _ _ _ _ _ _ _ => trivial) (fun _ _ _ _ _ _ _ => trivial)
      (create_sound created) trivial (fun op (_ : op ∈ ops) => trivial)
  rw [ran] at done
  cases done
  exact sound

end

/-- After any sequence of calls, submitting an order does what price-time priority says: the same fills, the same
remainder, the same resting decision and the same book. -/
theorem submitOrder_refines {ops : List Op} (created : create maxFills params = some e) (ran : e.run ops = some e')
    (id : Nat) (side : Side) (price : Int) (qty : Nat) :
    ∃ m result e'', e'.cross id side price qty = some m ∧ e'.submitOrder id side price qty = some (result, e'') ∧
      (∀ fill ∈ result.fills, fill.takerId = id) ∧
      result.outcome e''.book = PriceTime.submit maxFills ((m.book.addOrder id side price m.remaining).any Prod.fst)
        e'.book.levels id side price qty := by
  obtain ⟨m, result, e'', crossed, done, _, taker, outcome⟩ :=
    submitOrder_spec (run_sound created ran) id side price qty
  exact ⟨m, result, e'', crossed, done, taker, outcome⟩

/-- A buy that sweeps one ask and stops at a fill buffer of one execution. -/
theorem submitOrder_refines_small : ∃ (e e' : MatchingEngine 1) (m : Matching) (result : MatchResult)
    (e'' : MatchingEngine 1),
    create 1 ⟨4, 4, 8, 8⟩ = some e ∧ e.run [.submitOrder 1 .kAsk 100 5, .submitOrder 2 .kAsk 101 4] = some e' ∧
    e'.submitOrder 3 .kBid 101 12 = some (result, e'') ∧
    result.outcome e''.book = PriceTime.submit 1 ((m.book.addOrder 3 .kBid 101 m.remaining).any Prod.fst)
      e'.book.levels 3 .kBid 101 12 := by
  obtain ⟨e, created, runs⟩ : ∃ e, create 1 ⟨4, 4, 8, 8⟩ = some e ∧
      (e.run [.submitOrder 1 .kAsk 100 5, .submitOrder 2 .kAsk 101 4]).isSome = true := by decide
  obtain ⟨e', ran⟩ := isSome_iff_exists.mp runs
  obtain ⟨m, result, e'', _, done, _, outcome⟩ := submitOrder_refines created ran 3 .kBid 101 12
  exact ⟨e, e', m, result, e'', created, ran, done, outcome⟩

end MatchingEngine

end TickToTrade.Algo
