import TickToTrade.Algo.EngineEffects

/-!
Room for a number of orders at one price. An order that crosses nothing takes one place and rests.
-/

namespace TickToTrade.Algo
open Ds Probing PriceTime Option

variable {n id qty maxFills : Nat} {side : Side} {price : Int} {params : Params} {b b' : OrderBook}

/-- There is room for `n` more orders at `price`. -/
structure OrderBook.Spare (n : Nat) (b : OrderBook) (side : Side) (price : Int) : Prop where
  orders : n ≤ b.orderFree.indices.length
  load : b.orderMap.size + b.orderMap.tombstones + n ≤ b.orderMap.maxLoad
  level : b.levelRoom side price = true

namespace OrderBook

theorem Spare.canAdd (linked : Linked none none b) (spare : Spare (n + 1) b side price)
    (absent : b.orderMap.content id = none) : b.canAdd id side price = true := by
  have orders := spare.orders
  have load := spare.load
  have slot : b.orderFree.indices ≠ [] := by
    intro empty
    rw [empty, List.length_nil] at orders
    omega
  have accepted := linked.orderMap_ok.accepts_of_room absent (by omega) 0
  simp [OrderBook.canAdd, slot, accepted, spare.level]

theorem Placed.spare (linked : Linked none none b) (placed : Placed b b' id side price qty)
    (spare : Spare (n + 1) b side price) : Spare n b' side price := by
  obtain ⟨o, inserted⟩ := placed.mapped
  have size := inserted.size_eq linked.orderMap_ok
  have tombstones := inserted.tombstones_le
  have limit := inserted.maxLoad_eq
  have taken := placed.orderFree
  have orders := spare.orders
  have load := spare.load
  exact ⟨by omega, by omega, placed.levelRoom⟩

/-- A fresh book has room for as many orders as its slots and its order map may hold. -/
theorem bind_spare (bound : bind params = some b) (few : n ≤ params.maxOrders) (fits : n ≤ params.orderMapCap * 7 / 10)
    (side : Side) (price : Int) : Spare n b side price := by
  simp only [bind, bind_eq_bind, bind_eq_some_iff, Option.pure_def] at bound
  obtain ⟨_, some_slots, _, _, _, levelCap, _, _, _, _, orderFree, orders, levelFree, levels, orderMap, ordered,
    bidMap, bids, askMap, asks, same⟩ := bound
  cases same
  obtain ⟨_, orderFresh⟩ := HashMap.create_ok ordered
  obtain ⟨bidOk, bidFresh⟩ := HashMap.create_ok bids
  obtain ⟨askOk, askFresh⟩ := HashMap.create_ok asks
  have slots := (guard_eq_some' _).mp some_slots
  have levelCap := ((guard_eq_some' _).mp levelCap).2
  have someLevels : levelFree.indices ≠ [] := by
    rw [IndexFreeStack.indices_of_create levels]
    simpa using slots.2
  have wide : 0 < params.levelMapCap * 7 / 10 := by omega
  refine ⟨?_, ?_, ?_⟩
  · rw [IndexFreeStack.indices_of_create orders, List.length_range]
    exact few
  · rw [orderFresh]
    simpa [Table.fresh] using fits
  · have accepts : ∀ {m : HashMap Int Nat}, m.Ok → m = Table.fresh params.levelMapCap (params.levelMapCap * 7 / 10) →
        m.accepts DefaultHash.hash price = true := by
      intro m ok fresh
      apply Table.WellFormed.accepts_of_room ok _ _ 0
      · rw [fresh]
        exact Table.fresh_content _ _ _
      · rw [fresh]
        simpa [Table.fresh] using wide
    cases side
    · simp [levelRoom, someLevels, accepts bidOk bidFresh]
    · simp [levelRoom, someLevels, accepts askOk askFresh]

end OrderBook

namespace MatchingEngine

variable {e e' : MatchingEngine maxFills}

/-- An order that crosses nothing takes one of the free places and trades nothing. -/
theorem submitOrder_quiet (sound : OrderBook.Sound params e.book) (left : 0 < qty)
    (unused : isLive e.book.levels id = false) (apart : bestCrosses side price (e.book.levels side.opposite) = false)
    (spare : OrderBook.Spare (n + 1) e.book side price) :
    ∃ e', e.submitOrder id side price qty = some (⟨[], qty, true⟩, e') ∧ OrderBook.Sound params e'.book ∧
      OrderBook.Spare n e'.book side price ∧ e'.book.levels side = place side price ⟨id, qty⟩ (e.book.levels side) ∧
      e'.book.levels side.opposite = e.book.levels side.opposite := by
  have unmapped : e.book.orderMap.content id = none := by
    have known := sound.linked.hasOrder_eq id
    rw [unused, OrderBook.hasOrder, sound.linked.orderMap_ok.find_eq] at known
    simpa using known
  -- Neither loop runs, so the order meets the book as it was.
  have crossed : e.cross id side price qty = some ⟨e.book, qty, []⟩ := by
    unfold cross Matching.matchLoop
    rw [bestCrosses, OrderBook.levels] at apart
    split
    · cases front : e.book.ladders side.opposite with
      | nil => rfl
      | cons best rest =>
        rw [front] at apart
        have far : ¬ Crosses side price (e.book.level best).price := by simpa using apart
        rw [show (e.book.level best).price = (e.book.levelSlots best).price from rfl] at far
        simp [far]
    · rfl
  rcases sound.linked.addOrder id side price qty with ⟨_, _, b', added, placed⟩ | ⟨refused, _⟩
  · refine ⟨⟨b'⟩, ?_, sound.placed (by omega) placed, placed.spare sound.linked spare, placed.levels, placed.other⟩
    unfold submitOrder
    rw [← OrderBook.bestPrice_any] at apart
    simp [sound.linked.hasOrder_eq, unused, crossed, apart, OrderBook.restOrder, added, left, Nat.ne_of_gt left]
  · exact absurd ⟨by omega, spare.canAdd sound.linked unmapped⟩ refused

end MatchingEngine

end TickToTrade.Algo
