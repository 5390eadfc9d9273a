import TickToTrade.Algo.LevelTotals
import TickToTrade.Algo.Uncrossed

/-!
The best price of a side and the quantity at it, fill by fill. What the engine shows after a call is the
book that all its fills left.
-/

namespace TickToTrade.Algo
open Ds Probing PriceTime List Option

/-! ### Best quotes on the abstract book -/

namespace PriceTime

variable {levels : List Level} {side : Side} {price p : Int} {order : Resting} {fills : List Execution} {qty : Nat}

def bestQuote (levels : List Level) : Option (Int × Nat) := levels.head?.map fun level => (level.price, level.volume)

def afterFills (book : Side → List Level) (side : Side) (fills : List Execution) (s : Side) : List Level :=
  if s = side then book s else remove fills (book s)

theorem Sorted.prices_distinct (sorted : Sorted side levels) : levels.Pairwise fun x y => x.price ≠ y.price := by
  apply sorted.imp
  intro x y better same
  rw [same] at better
  exact better_irrefl side _ better

theorem bestQuote_eq_some (sorted : Sorted side levels) (quoted : bestQuote levels = some (p, qty)) :
    volumeAt levels p = qty := by
  cases levels with
  | nil => cases quoted
  | cons first rest =>
    cases quoted
    exact volumeAt_eq sorted.prices_distinct mem_cons_self

theorem bestQuote_of_makers (sorted : Sorted side levels) (filled : ∀ level ∈ levels, level.orders ≠ []) {r : Resting}
    {rest : List (Int × Resting)} (front : makers levels = (p, r) :: rest) :
    bestQuote levels = some (p, volumeAt levels p) := by
  cases levels with
  | nil => cases front
  | cons first others =>
    cases queue : first.orders with
    | nil => exact absurd queue (filled first mem_cons_self)
    | cons order orders =>
      rw [makers_cons, queue] at front
      obtain ⟨same, _⟩ := cons.inj front
      cases same
      rw [volumeAt_eq sorted.prices_distinct mem_cons_self]
      rfl

/-- What executions leave at a price, counted along the orders as they were. -/
theorem volumeAt_remove (fills : List Execution) (levels : List Level) (p : Int) : volumeAt (remove fills levels) p =
    (((makers levels).filter fun entry => entry.1 = p).map fun entry =>
      entry.2.qty - takenFrom fills entry.2.id).sum := by
  unfold volumeAt
  rw [remove, makers_adjust]
  induction makers levels with
  | nil => rfl
  | cons entry rest ih =>
    obtain ⟨p', r⟩ := entry
    by_cases gone : r.qty - takenFrom fills r.id = 0
    · have dropped : reduce fills r = none := if_pos gone
      by_cases here : p' = p
      · simp [dropped, gone, here, ih]
      · simp [dropped, here, ih]
    · have kept : reduce fills r = some { r with qty := r.qty - takenFrom fills r.id } := if_neg gone
      by_cases here : p' = p
      · simp [kept, here, ih]
      · simp [kept, here, ih]

theorem Sorted.adjust (sorted : Sorted side levels) (f : Resting → Option Resting) : Sorted side (adjust f levels) := by
  refine List.Pairwise.filterMap _ ?_ sorted
  intro x y better x' kept y' kept'
  have price : ∀ {z z'}, adjustLevel f z = some z' → z'.price = z.price := by
    intro z z' kept
    unfold adjustLevel at kept
    simp only at kept
    split at kept
    · cases kept
    · rw [← some.inj kept]
  rw [price kept, price kept']
  exact better

theorem adjust_filled (f : Resting → Option Resting) (levels : List Level) :
    ∀ level ∈ adjust f levels, level.orders ≠ [] := by
  intro level member
  obtain ⟨old, _, kept⟩ := mem_filterMap.mp member
  unfold adjustLevel at kept
  simp only at kept
  split at kept
  · cases kept
  · rename_i filled
    rw [← some.inj kept]
    exact filled

theorem takenFrom_cons (fill : Execution) (fills : List Execution) (id : Nat) :
    takenFrom (fill :: fills) id = (if fill.makerId = id then fill.qty else 0) + takenFrom fills id := by
  by_cases same : fill.makerId = id
  · simp [takenFrom, filledQty, same]
  · simp [takenFrom, filledQty, same]

def wrapped (quote : Int × Nat) : Int × Nat := (quote.1, quote.2 % 2 ^ 32)

/-- The maker of a second fill was at the front after the first one, with more than it has now. -/
theorem bestQuote_after_two {p₁ p₂ : Int} {r₁ r₂ : Resting} {rest : List (Int × Resting)} {first second : Execution}
    (sorted : Sorted side levels) (positive : Positive levels) (apart : r₁.id ≠ r₂.id)
    (front : makers levels = (p₁, r₁) :: (p₂, r₂) :: rest) (maker₁ : first.makerId = r₁.id) (used : first.qty = r₁.qty)
    (maker₂ : second.makerId = r₂.id) (traded : 0 < second.qty) (more : List Execution) :
    (bestQuote (remove (first :: second :: more) levels)).map wrapped ≠ bestQuote (remove [first] levels) := by
  intro same
  have listed : (p₂, r₂) ∈ makers levels := by simp [front]
  have some_qty := positive p₂ r₂ listed
  have gone : reduce [first] r₁ = none := by simp [reduce, takenFrom_cons, maker₁, used]
  have untouched : reduce [first] r₂ = some r₂ := by
    simp [reduce, takenFrom, maker₁, apart, filledQty]
    omega
  have next : makers (remove [first] levels) = (p₂, r₂) :: rest.filterMap fun entry =>
    (reduce [first] entry.2).map (Prod.mk entry.1) := by
    rw [remove, makers_adjust, front]
    simp [gone, untouched]
  have ordered : ∀ fills, Sorted side (remove fills levels) := fun fills => sorted.adjust (reduce fills)
  rw [bestQuote_of_makers (ordered [first]) (adjust_filled _ _) next] at same
  obtain ⟨⟨p, v⟩, quoted, shown⟩ := map_eq_some_iff.mp same
  obtain ⟨rfl, total⟩ := Prod.mk.inj shown
  have total : v % 2 ^ 32 = volumeAt (remove [first] levels) p := total
  have left := bestQuote_eq_some (ordered _) quoted
  have less : volumeAt (remove (first :: second :: more) levels) p < volumeAt (remove [first] levels) p := by
    rw [volumeAt_remove, volumeAt_remove]
    apply sum_lt_sum
    · intro entry _
      have nothing : takenFrom [] entry.2.id = 0 := rfl
      simp only [takenFrom_cons first, nothing]
      omega
    · refine ⟨(p, r₂), mem_filter.mpr ⟨listed, by simp⟩, ?_⟩
      have nothing : takenFrom [] r₂.id = 0 := rfl
      simp only [takenFrom_cons first, takenFrom_cons second, maker₁, maker₂, if_neg apart, if_true, nothing]
      omega
  have bounded : v % 2 ^ 32 ≤ v := Nat.mod_le _ _
  omega

theorem place_best (better : ∀ level ∈ levels, Better side price level.price) :
    place side price order levels = ⟨price, [order]⟩ :: levels := by
  cases levels with
  | nil => rfl
  | cons level rest =>
    have front := better level mem_cons_self
    have other : level.price ≠ price := by
      intro same
      rw [same] at front
      exact better_irrefl side _ front
    rw [place, if_neg other, if_pos front]

theorem bestQuote_placed (better : ∀ level ∈ levels, Better side price level.price) :
    (bestQuote (place side price order levels)).map wrapped ≠ bestQuote levels := by
  rw [place_best better]
  cases levels with
  | nil => simp [bestQuote]
  | cons level rest =>
    have front := better level mem_cons_self
    intro same
    have equal : price = level.price := (Prod.mk.inj (some.inj same)).1
    rw [equal] at front
    exact better_irrefl side _ front

theorem walk_two {entries : List (Int × Resting)} {first second : Execution} {more : List Execution}
    (positive : ∀ entry ∈ entries, 0 < entry.2.qty) (walked : walk side price qty entries = first :: second :: more) :
    ∃ p₁ r₁ p₂ r₂ rest, entries = (p₁, r₁) :: (p₂, r₂) :: rest ∧ first.makerId = r₁.id ∧ first.qty = r₁.qty ∧
      second.makerId = r₂.id ∧ 0 < second.qty := by
  have traded : 0 < second.qty := walk_fill_pos positive (by rw [walked]; simp)
  cases entries with
  | nil => cases walked
  | cons entry rest =>
    obtain ⟨p₁, r₁⟩ := entry
    unfold walk at walked
    split at walked
    · cases walked
    obtain ⟨rfl, further⟩ := cons.inj walked
    cases rest with
    | nil => cases further
    | cons entry' rest =>
      obtain ⟨p₂, r₂⟩ := entry'
      rw [walk] at further
      split at further
      · cases further
      rename_i goes
      obtain ⟨rfl, _⟩ := cons.inj further
      refine ⟨p₁, r₁, p₂, r₂, rest, rfl, rfl, ?_, rfl, traded⟩
      rw [not_or] at goes
      show min qty r₁.qty = r₁.qty
      omega

theorem walk_one {entries : List (Int × Resting)} {fill : Execution} (walked : walk side price qty entries = [fill]) :
    ∃ r rest, entries = (fill.price, r) :: rest ∧ Crosses side price fill.price ∧ fill.makerId = r.id ∧
    fill.qty = min qty r.qty := by
  cases entries with
  | nil => cases walked
  | cons entry rest =>
    obtain ⟨p, r⟩ := entry
    unfold walk at walked
    split at walked
    · cases walked
    rename_i goes
    obtain ⟨rfl, _⟩ := cons.inj walked
    rw [not_or, not_not] at goes
    exact ⟨r, rest, rfl, goes.2, rfl, rfl⟩

end PriceTime

/-! ### Room for a remainder -/

namespace OrderBook

variable {b b' c : OrderBook} {l o id : Nat}

theorem Released.canAdd (first : Released b b' l o) (second : Released b c l o) (id : Nat) (side : Side) (price : Int) :
    b'.canAdd id side price = c.canAdd id side price := by
  have orderMap : b'.orderMap = c.orderMap := (Prod.mk.inj (mem_unique first.orderMap second.orderMap)).2
  have orderFree : b'.orderFree = c.orderFree := mem_unique first.orderFree second.orderFree
  have levels : b'.levelMap = c.levelMap ∧ b'.levelFree = c.levelFree := by
    by_cases emptied : (b.queue l).erase o = []
    · obtain ⟨map, removed, levelMap, levelFree⟩ := first.emptied emptied
      obtain ⟨map', removed', levelMap', levelFree'⟩ := second.emptied emptied
      have same : map = map' := (Prod.mk.inj (mem_unique removed removed')).2
      rw [levelMap, levelMap', same]
      exact ⟨rfl, mem_unique levelFree levelFree'⟩
    · rw [(first.kept emptied).1, (first.kept emptied).2, (second.kept emptied).1, (second.kept emptied).2]
      exact ⟨rfl, rfl⟩
  simp only [OrderBook.canAdd, levelRoom, orderMap, orderFree, levels.1, levels.2]

theorem Released.of_setQty {qty delta : Nat} (released : Released (b.setQty l o qty delta) b' l o) :
    Released b b' l o where
  orderMap := by
    have erased := released.orderMap
    have shown : ((b.setQty l o qty delta).orderSlots o).orderId = (b.orderSlots o).orderId := by simp [setQty_order]
    rw [shown] at erased
    exact erased
  orderFree := released.orderFree
  kept := by
    have kept := released.kept
    rw [setQty_queue] at kept
    exact kept
  emptied := by
    have emptied := released.emptied
    rw [setQty_queue, setQty_levelSide, setQty_levelPrice] at emptied
    exact emptied

def roomWithout (b : OrderBook) (makerId id : Nat) (side : Side) (price : Int) (qty : Nat) : Bool :=
  ((b.cancelOrder makerId).bind fun found => found.2.addOrder id side price qty).any Prod.fst

theorem Linked.addOrder_any (linked : Linked none none b) (id : Nat) (side : Side) (price : Int) (qty : Nat) :
    (b.addOrder id side price qty).any Prod.fst = (decide (qty ≠ 0) && b.canAdd id side price) := by
  rcases linked.addOrder id side price qty with ⟨some_qty, room, b', added, _⟩ | ⟨refused, b', kept, _⟩
  · simp [added, some_qty, room]
  · rw [kept, any_some, eq_comm, Bool.eq_false_iff]
    simpa using refused

def quoted (b : OrderBook) (s : Side) : Option (Int × Nat) :=
  (b.ladders s).head?.map fun l => ((b.levelSlots l).price, (b.levelSlots l).totalQty)

theorem Tallied.quoted_eq (tallied : b.Tallied) (s : Side) : b.quoted s = (bestQuote (b.levels s)).map wrapped := by
  unfold quoted bestQuote levels
  cases b.ladders s with
  | nil => rfl
  | cons l rest =>
    show some (b.levelPrice l, (b.levelSlots l).totalQty) = some (b.levelPrice l, (b.level l).volume % 2 ^ 32)
    rw [tallied.total l, level_volume]

end OrderBook

namespace Matching

variable {params : Params} {initial : OrderBook} {maxFills id qty : Nat} {side : Side} {price : Int} {m m' : Matching}

section

variable (linked : OrderBook.Linked none none m.book)
  (nothing : walk side price m.remaining (makers (m.book.levels side.opposite)) = [])
include linked nothing

theorem matchLoop_stop {fuel : Nat} (some_fuel : 0 < fuel) : matchLoop maxFills id side price fuel m = some m := by
  obtain ⟨fuel, rfl⟩ := Nat.exists_eq_add_of_lt some_fuel
  unfold matchLoop
  split
  · rename_i guard
    have apart := (walk_eq_nil_iff guard.1 (linked.levels_filled _)).mp nothing
    cases front : m.book.ladders side.opposite with
    | nil => rfl
    | cons best rest =>
      simp only [bestCrosses, OrderBook.levels, front, map_cons, head?_cons, any_some,
        decide_eq_false_iff_not] at apart
      have apart : ¬ Crosses side price (m.book.levelSlots best).price := apart
      simp only
      rw [if_neg apart]
  · rfl

theorem matchLevel_stop {best : Nat} {rest : List Nat}
    (front : m.book.ladders side.opposite = best :: rest) (crosses : Crosses side price (m.book.levelPrice best))
    (execPrice : Int) {fuel : Nat} (some_fuel : 0 < fuel) : matchLevel maxFills id execPrice best fuel m = some m := by
  obtain ⟨fuel, rfl⟩ := Nat.exists_eq_add_of_lt some_fuel
  unfold matchLevel
  rw [if_neg]
  intro guard
  have apart := (walk_eq_nil_iff guard.1 (linked.levels_filled _)).mp nothing
  simp only [bestCrosses, OrderBook.levels, front, map_cons, head?_cons, any_some,
    decide_eq_false_iff_not] at apart
  exact apart crosses

end

end Matching

namespace MatchingEngine

variable {params : Params} {maxFills id qty : Nat} {e e' : MatchingEngine maxFills} {side : Side} {price : Int}
  {m : Matching} {fill : Execution} {result : MatchResult}

section

variable (sound : OrderBook.Sound params e.book) (fits : 0 < maxFills)
  (walked : walk side price qty (makers (e.book.levels side.opposite)) = [fill]) (over_maker : fill.qty < qty)
    (crossed : e.cross id side price qty = some m)
include sound fits walked over_maker crossed

/-- An order that uses up one resting order and meets no other leaves the pools and maps without it. -/
theorem cross_once : ∃ l o, o ∈ e.book.queue l ∧ (e.book.orderSlots o).orderId = fill.makerId ∧
    OrderBook.Released e.book m.book l o := by
  have linked := sound.linked
  obtain ⟨r, others, entries, crosses, maker, amount⟩ := walk_one walked
  rw [OrderBook.makers_levels] at entries
  cases front : e.book.ladders side.opposite with
  | nil => simp [front] at entries
  | cons best rest =>
    have onLadder : best ∈ e.book.ladders side.opposite := by
      rw [front]
      exact mem_cons_self
    cases first : e.book.queue best with
    | nil => exact absurd first (linked.queue_ne_nil _ best onLadder (by simp))
    | cons o queue =>
      have queued : o ∈ e.book.queue best := by
        rw [first]
        exact mem_cons_self
      rw [front, flatMap_cons, first, map_cons, cons_append] at entries
      obtain ⟨same, _⟩ := cons.inj entries
      obtain ⟨atPrice, rfl⟩ := Prod.mk.inj same
      have amount : fill.qty = min qty (e.book.orderSlots o).qty := amount
      have begun : Matching.Running params e.book maxFills id side price qty ⟨e.book, qty, []⟩ := .start sound
      obtain ⟨destroyed, m₁, filled, running, one, kept, samePrice⟩ :=
        begun.fillOrder front first (by show 0 < qty; omega) fits (by rw [atPrice]; exact crosses)
      -- The one fill is the whole walk, so both loops stop behind it.
      have nothing : walk side price m₁.remaining (makers (m₁.book.levels side.opposite)) = [] := by
        have whole := congrArg length running.progress.walk_eq
        rw [walked, length_append, length_map, one] at whole
        simpa using whole
      have level : Matching.matchLevel maxFills id (e.book.levelPrice best) best (maxFills + 1) ⟨e.book, qty, []⟩ =
          some m₁ := by
        have read : (e.book.levelSlots best).orders = o :: queue := first
        unfold Matching.matchLevel
        rw [if_pos ⟨by show 0 < qty; omega, fits⟩]
        simp only [read, filled, bind_eq_bind, bind_some]
        cases destroyed with
        | true => rfl
        | false =>
          exact Matching.matchLevel_stop running.sound.linked nothing (kept rfl)
            (by rw [samePrice, atPrice]; exact crosses) _ fits
      have ended : e.cross id side price qty = some m₁ := by
        have atPrice : (e.book.levelSlots best).price = fill.price := atPrice
        have level : Matching.matchLevel maxFills id (e.book.levelSlots best).price best (maxFills + 1)
            ⟨e.book, qty, []⟩ = some m₁ :=
          level
        rw [atPrice] at level
        unfold MatchingEngine.cross Matching.matchLoop
        rw [if_pos ⟨by show 0 < qty; omega, fits⟩]
        simp only [front, atPrice, crosses, if_true, level, bind_eq_bind, bind_some]
        exact Matching.matchLoop_stop running.sound.linked nothing fits
      obtain rfl := mem_unique crossed ended
      refine ⟨best, o, queued, maker.symm, ?_⟩
      unfold Matching.fillOrder at filled
      have used : (e.book.orderSlots o).qty - min qty (e.book.orderSlots o).qty = 0 := by omega
      simp only [used, OrderBook.setQty_order, if_true] at filled
      obtain ⟨⟨destroyed', book⟩, removed, filled⟩ := bind_eq_some_iff.mp filled
      cases filled
      have member : o ∈ (e.book.setQty best o 0 (min qty (e.book.orderSlots o).qty)).queue best := by
        rw [OrderBook.setQty_queue]
        exact queued
      obtain ⟨_, again, gone⟩ := (linked.setQty best o 0 _).removeFilledOrder member
      cases removed.symm.trans again
      exact gone.released.of_setQty

theorem roomWithout_eq (linked : OrderBook.Linked none none m.book) (left : Nat) :
    e.book.roomWithout fill.makerId id side price left = (m.book.addOrder id side price left).any Prod.fst := by
  obtain ⟨l, o, queued, shown, released⟩ := cross_once sound fits walked over_maker crossed
  obtain ⟨c, cancelled, removed⟩ := sound.linked.cancelFound queued
  have found : e.book.cancelOrder fill.makerId = some (true, c) := by
    have mapped := (sound.linked.orderMap_iff fill.makerId o).mpr ⟨.inl ⟨l, queued⟩, shown⟩
    unfold OrderBook.cancelOrder
    rw [sound.linked.orderMap_ok.find_eq, mapped, ← shown]
    simp [cancelled]
  unfold OrderBook.roomWithout
  rw [found, bind_some, removed.linked.addOrder_any, linked.addOrder_any, removed.released.canAdd released]

end

/-- The order trades with no resting order, or with one: then nothing of it is put into the book and the
quantities at the best prices are words. -/
def OneFillAtMost (b : OrderBook) (id : Nat) (side : Side) (price : Int) (qty : Nat) : Prop :=
  isLive b.levels id = true ∨ walk side price qty (makers (b.levels side.opposite)) = [] ∨
    ∃ fill, walk side price qty (makers (b.levels side.opposite)) = [fill] ∧
      (fill.qty = qty ∨ b.roomWithout fill.makerId id side price (qty - fill.qty) = false) ∧
      ∀ s p v, bestQuote (afterFills b.levels side [fill] s) = some (p, v) → v < 2 ^ 32

theorem map_wrapped_eq {quote : Option (Int × Nat)} : quote.map wrapped = quote ↔ ∀ p v, quote = some (p, v) →
    v < 2 ^ 32 := by
  cases quote with
  | none => simp
  | some quote =>
    obtain ⟨p, v⟩ := quote
    simp only [map_some, wrapped, some.injEq, Prod.mk.injEq, true_and, and_imp,
      Nat.mod_eq_iff_lt (Nat.two_pow_pos 32).ne']
    constructor
    · intro small _ _ _ same
      exact same ▸ small
    · intro small
      exact small p v rfl rfl

theorem better_of_uncrossed {book : Side → List Level} {q : Int} {r : Resting} (uncrossed : Uncrossed book)
    (filled : ∀ level ∈ book side, level.orders ≠ []) (resting : (q, r) ∈ makers (book side.opposite))
    (crosses : Crosses side price q) : ∀ level ∈ book side, Better side price level.price := by
  intro level member
  obtain ⟨order, orders, queue⟩ := exists_cons_of_ne_nil (filled level member)
  have listed : (level.price, order) ∈ makers (book side) := mem_makers.mpr ⟨level, member, rfl, by simp [queue]⟩
  have apart := uncrossed side level.price order q r listed resting
  cases side <;> simp only [Crosses, Better] at * <;> omega

/-- Behind one fill the rest of the order is put into the book if there is one and the book has room. -/
theorem rested_once (sound : OrderBook.Sound params e.book) (fits : 1 < maxFills)
    (unused : isLive e.book.levels id = false)
    (walked : walk side price qty (makers (e.book.levels side.opposite)) = [fill])
    (done : e.submitOrder id side price qty = some (result, e')) : result.rested = true ↔
      fill.qty < qty ∧ e.book.roomWithout fill.makerId id side price (qty - fill.qty) = true := by
  rcases submitOrder_cases sound done with ⟨refused, _⟩ | ⟨m, goes⟩
  · rw [unused, or_iff_left Bool.false_ne_true] at refused
    rw [refused, walk_zero] at walked
    cases walked
  have running := goes.running
  have taken : m.fills.map Fill.execution = [fill] := by
    rw [goes.filled, goes.fills, walked, take_of_length_le (by simp; omega)]
  have total := running.progress.remaining_eq
  have further := running.progress.walk_eq
  rw [taken] at total further
  rw [show filledQty [fill] = fill.qty by simp [filledQty]] at total
  rw [goes.rested, Bool.and_eq_true, Bool.and_eq_true, decide_eq_true_eq, Bool.not_eq_true']
  by_cases more : fill.qty < qty
  · have nothing : walk side price m.remaining (makers (m.book.levels side.opposite)) = [] := by
      rw [walked] at further
      simpa using further
    have apart := (walk_eq_nil_iff (by omega) (running.sound.linked.levels_filled _)).mp nothing
    have left : qty - fill.qty = m.remaining := by omega
    rw [left, roomWithout_eq sound (by omega) walked more goes.crossed running.sound.linked]
    constructor
    · rintro ⟨_, accepted⟩
      exact ⟨more, accepted⟩
    · rintro ⟨_, accepted⟩
      exact ⟨⟨by omega, apart⟩, accepted⟩
  · constructor
    · rintro ⟨⟨left, _⟩, _⟩
      omega
    · rintro ⟨impossible, _⟩
      exact absurd impossible more

section Traded

variable (sound : OrderBook.Sound params e.book) (tallied : e'.book.Tallied) (fits : 1 < maxFills)
  (unused : isLive e.book.levels id = false)
  (fills : result.fills.map Fill.execution = (walk side price qty (makers (e.book.levels side.opposite))).take maxFills)
  (opposite : e'.book.levels side.opposite = remove (result.fills.map Fill.execution) (e.book.levels side.opposite))
include sound tallied fits unused fills opposite

/-- After two fills the quote of the other side has changed since the first. -/
theorem quotes_twice {first second : Execution} {more : List Execution}
    (walked : walk side price qty (makers (e.book.levels side.opposite)) = first :: second :: more) :
    ¬ (∀ i, i < result.fills.length → ∀ s, e'.book.quoted s =
      bestQuote (afterFills e.book.levels side ((result.fills.map Fill.execution).take (i + 1)) s)) ∧
    ¬ OneFillAtMost e.book id side price qty := by
  have positive : ∀ entry ∈ makers (e.book.levels side.opposite), 0 < entry.2.qty := fun entry member =>
    sound.positive side.opposite entry.1 entry.2 member
  obtain ⟨p₁, r₁, p₂, r₂, rest, front, maker₁, used, maker₂, traded⟩ := walk_two positive walked
  have apart : r₁.id ≠ r₂.id := by
    have distinct := sound.linked.ids_distinct side.opposite
    rw [front] at distinct
    exact (pairwise_cons.mp distinct).1 (p₂, r₂) mem_cons_self
  obtain ⟨k, rfl⟩ : ∃ k, maxFills = k + 2 := ⟨maxFills - 2, by omega⟩
  rw [walked, take_succ_cons, take_succ_cons] at fills
  have length := congrArg length fills
  rw [length_map] at length
  refine ⟨?_, ?_⟩
  · intro same
    have here := same 0 (by rw [length]; simp) side.opposite
    rw [tallied.quoted_eq, opposite, fills] at here
    simp only [afterFills, Side.opposite_ne, if_false, take_succ_cons, take_zero] at here
    exact bestQuote_after_two (sound.linked.levels_sorted _)
      (sound.positive _) apart front maker₁ used maker₂ traded _ here
  · intro single
    rcases single with live | none | ⟨fill, alone, _⟩
    · rw [unused] at live
      cases live
    · rw [walked] at none
      cases none
    · rw [walked] at alone
      cases alone

theorem quotes_once (uncrossed : Uncrossed e.book.levels)
    (own : e'.book.levels side = if result.rested then place side price ⟨id, result.remainingQty⟩ (e.book.levels side)
      else e.book.levels side) (walked : walk side price qty (makers (e.book.levels side.opposite)) = [fill])
    (done : e.submitOrder id side price qty = some (result, e')) :
    (∀ i, i < result.fills.length → ∀ s, e'.book.quoted s =
      bestQuote (afterFills e.book.levels side ((result.fills.map Fill.execution).take (i + 1)) s)) ↔
    OneFillAtMost e.book id side price qty := by
  obtain ⟨r, others, entries, crosses, maker, amount⟩ := walk_one walked
  rw [walked, take_of_length_le (by simp; omega)] at fills
  have length := congrArg length fills
  rw [length_map] at length
  rw [fills] at opposite
  have quotes : (∀ i, i < result.fills.length → ∀ s, e'.book.quoted s =
      bestQuote (afterFills e.book.levels side ((result.fills.map Fill.execution).take (i + 1)) s)) ↔
      ∀ s, (bestQuote (e'.book.levels s)).map wrapped = bestQuote (afterFills e.book.levels side [fill] s) := by
    rw [length, fills]
    simp only [length_singleton, Nat.lt_one_iff, forall_eq, take_succ_cons, take_zero, tallied.quoted_eq]
  have single : OneFillAtMost e.book id side price qty ↔
      (fill.qty = qty ∨ e.book.roomWithout fill.makerId id side price (qty - fill.qty) = false) ∧
        ∀ s p v, bestQuote (afterFills e.book.levels side [fill] s) = some (p, v) → v < 2 ^ 32 := by
    simp [OneFillAtMost, walked, unused]
  have restedIff := rested_once sound fits unused walked done
  rw [quotes, single]
  cases stored : result.rested with
  | true =>
    -- The remainder is the best order of its side.
    rw [stored, if_pos rfl] at own
    obtain ⟨more, room⟩ := restedIff.mp stored
    have resting : (fill.price, r) ∈ makers (e.book.levels side.opposite) := by simp [entries]
    have better := better_of_uncrossed uncrossed (sound.linked.levels_filled side) resting crosses
    constructor
    · intro same
      have here := same side
      rw [own] at here
      simp only [afterFills, if_true] at here
      exact absurd here (bestQuote_placed better)
    · intro ⟨left, _⟩
      rcases left with whole | full
      · omega
      · rw [room] at full
        cases full
  | false =>
    rw [stored, if_neg Bool.false_ne_true] at own
    have after : ∀ s, e'.book.levels s = afterFills e.book.levels side [fill] s := by
      intro s
      rcases Side.eq_or_opposite side s with rfl | rfl
      · simp [afterFills, own]
      · simp [afterFills, opposite, Side.opposite_ne]
    have left : fill.qty = qty ∨ e.book.roomWithout fill.makerId id side price (qty - fill.qty) = false := by
      by_cases whole : fill.qty = qty
      · exact .inl whole
      · right
        rw [Bool.eq_false_iff]
        intro room
        rw [restedIff.mpr ⟨by omega, room⟩] at stored
        cases stored
    simp only [after, map_wrapped_eq, left, true_and]

end Traded

/-- The quotes after a call are those after its first fill, its second and so on just if there is at most one. -/
theorem submitOrder_quotes (sound : OrderBook.Sound params e.book) (uncrossed : Uncrossed e.book.levels)
    (tallied : e'.book.Tallied) (fits : 1 < maxFills) (done : e.submitOrder id side price qty = some (result, e')) :
    (∀ i, i < result.fills.length → ∀ s, e'.book.quoted s =
      bestQuote (afterFills e.book.levels side ((result.fills.map Fill.execution).take (i + 1)) s)) ↔
    OneFillAtMost e.book id side price qty := by
  have vacuous : result.fills = [] → ∀ i, i < result.fills.length → ∀ s, e'.book.quoted s =
      bestQuote (afterFills e.book.levels side ((result.fills.map Fill.execution).take (i + 1)) s) := by
    intro none i bound
    rw [none] at bound
    cases bound
  rcases submitOrder_cases sound done with ⟨zero | live, fills, _⟩ | ⟨m, goes⟩
  · exact iff_of_true (vacuous fills) (.inr (.inl (by rw [zero, walk_zero])))
  · exact iff_of_true (vacuous fills) (.inl live)
  have fills := goes.fills
  cases walked : walk side price qty (makers (e.book.levels side.opposite)) with
  | nil =>
    rw [walked, take_nil, map_eq_nil_iff] at fills
    exact iff_of_true (vacuous fills) (.inr (.inl walked))
  | cons first later =>
    cases later with
    | nil => exact quotes_once sound tallied fits goes.unused fills goes.opposite uncrossed goes.own walked done
    | cons second more =>
      obtain ⟨different, several⟩ := quotes_twice sound tallied fits goes.unused fills goes.opposite walked
      exact iff_of_false different several

end MatchingEngine

end TickToTrade.Algo
