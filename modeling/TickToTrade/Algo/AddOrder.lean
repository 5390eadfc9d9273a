import TickToTrade.Algo.BookRest

/-!
`add_order`: a refused order leaves the book as price-time priority sees it unchanged, an accepted one
is at the tail of its queue.
-/

namespace TickToTrade.Algo.OrderBook
open Ds Probing List Option Function
open DefaultHash (hash)

variable {b b' : OrderBook} {pending : Option Nat} {l o : Nat} {s : Side}

/-- A refused order leaves traces in free slots and in tombstones only. -/
structure Same (b b' : OrderBook) : Prop where
  ladders : b'.ladders = b.ladders
  queue : b'.queue = b.queue
  level : ∀ l, b.OnLadder l → b'.levelSlots l = b.levelSlots l
  order : ∀ o, b.Queued o → b'.orderSlots o = b.orderSlots o
  orderMap_ok : b'.orderMap.Ok
  orderMap : b'.orderMap.content = b.orderMap.content
  levelMap : b'.levelMap = b.levelMap
  orders_tracked : b'.orderFree.Tracks (b.Live none)
  levels_tracked : b'.levelFree.Tracks b.OnLadder
  orderCapacity : b'.orderFree.capacity = b.orderFree.capacity
  levelCapacity : b'.levelFree.capacity = b.levelFree.capacity

theorem Linked.same_refl (linked : Linked none none b) : Same b b :=
  ⟨rfl, rfl, fun _ _ => rfl, fun _ _ => rfl, linked.orderMap_ok, rfl, rfl, linked.orders_tracked,
    linked.levels_tracked, rfl, rfl⟩

theorem Same.linked (same : Same b b') (linked : Linked none none b) : Linked none none b' := by
  have prices : ∀ s l, l ∈ b.ladders s → b'.levelPrice l = b.levelPrice l := fun s l onLadder =>
    congrArg PriceLevel.price (same.level l ⟨s, onLadder⟩)
  have sides : ∀ s l, l ∈ b.ladders s → b'.levelSide l = b.levelSide l := fun s l onLadder =>
    congrArg PriceLevel.side (same.level l ⟨s, onLadder⟩)
  have live : b'.Live none = b.Live none := by
    funext o
    simp only [Live, Queued, same.queue]
  exact {
    sorted := by
      intro s
      rw [same.ladders]
      apply (linked.sorted s).imp_of_mem
      intro x y onLadder onLadder' better
      rw [prices s x onLadder, prices s y onLadder']
      exact better
    side_eq := by
      intro s l onLadder
      rw [same.ladders] at onLadder
      rw [sides s l onLadder]
      exact linked.side_eq s l onLadder
    queue_ne_nil := by rw [same.ladders, same.queue]; exact linked.queue_ne_nil
    on_ladder := by
      intro l o queued
      rw [same.queue] at queued
      have old := linked.on_ladder l o queued
      rw [sides _ l old, same.ladders]
      exact old
    queue_nodup := by rw [same.queue]; exact linked.queue_nodup
    back := by
      intro l o queued
      rw [same.queue] at queued
      have old := linked.on_ladder l o queued
      rw [same.order o ⟨l, queued⟩, prices _ l old, sides _ l old]
      exact linked.back l o queued
    unqueued := by simp
    orderMap_ok := same.orderMap_ok
    orderMap_iff := by
      intro id o
      rw [same.orderMap, live, linked.orderMap_iff]
      constructor
      · rintro ⟨used, shown⟩
        exact ⟨used, by rwa [same.order o (used.resolve_right (by simp))]⟩
      · rintro ⟨used, shown⟩
        exact ⟨used, by rwa [same.order o (used.resolve_right (by simp))] at shown⟩
    levelMap_ok := by rw [same.levelMap]; exact linked.levelMap_ok
    levelMap_iff := by
      intro s p l
      rw [same.levelMap, same.ladders, linked.levelMap_iff]
      constructor
      · rintro ⟨onLadder, shown⟩
        exact ⟨onLadder, (prices s l onLadder).trans shown⟩
      · rintro ⟨onLadder, shown⟩
        exact ⟨onLadder, (prices s l onLadder).symm.trans shown⟩
    orders_tracked := by rw [live]; exact same.orders_tracked
    levels_tracked := same.levels_tracked.congr fun l => by simp only [OnLadder, same.ladders] }

theorem Same.levels (same : Same b b') (s : Side) : b'.levels s = b.levels s := by
  unfold OrderBook.levels
  rw [same.ladders]
  apply map_congr_left
  intro l onLadder
  unfold OrderBook.level
  rw [same.queue, levelPrice, same.level l ⟨s, onLadder⟩]
  congr 1
  apply map_congr_left
  intro o queued
  rw [resting, same.order o ⟨l, queued⟩, resting]

/-- The order rests at the tail of the queue of its price. -/
structure Placed (b b' : OrderBook) (id : Nat) (side : Side) (price : Int) (qty : Nat) : Prop where
  linked : Linked none none b'
  levels : b'.levels side = PriceTime.place side price ⟨id, qty⟩ (b.levels side)
  other : b'.levels side.opposite = b.levels side.opposite
  orderCapacity : b'.orderFree.capacity = b.orderFree.capacity
  levelCapacity : b'.levelFree.capacity = b.levelFree.capacity
  mapped : ∃ o, Table.Inserted hash b.orderMap b'.orderMap id o
  orderFree : b.orderFree.indices.length = b'.orderFree.indices.length + 1
  levelRoom : b'.levelRoom side price = true

def canAdd (b : OrderBook) (id : Nat) (side : Side) (price : Int) : Bool :=
  !b.orderFree.indices.isEmpty && b.orderMap.accepts hash id && b.levelRoom side price

section Add

variable {id : Nat} {side : Side} {price : Int} {qty : Nat} {slot : Order} {free levelFree : IndexFreeStack}
  {map : HashMap Nat Nat} {slots : Nat → PriceLevel}

theorem same_refused (slot : Order) (unused : ¬ b.Live none o) (tracked : free.Tracks (b.Live none))
    (capacity : free.capacity = b.orderFree.capacity) (ok : map.Ok) (content : map.content = b.orderMap.content)
    (queues : ∀ x, (slots x).orders = b.queue x) (kept : ∀ x, b.OnLadder x → slots x = b.levelSlots x)
    (levels : levelFree.Tracks b.OnLadder) (levelCapacity : levelFree.capacity = b.levelFree.capacity) :
    Same b { b with
      orderSlots := update b.orderSlots o slot, orderFree := free, orderMap := map
      levelSlots := slots, levelFree := levelFree } := by
  refine ⟨rfl, funext queues, kept, ?_, ok, content, rfl, tracked, levels, capacity, levelCapacity⟩
  intro y queued
  apply update_of_ne
  intro same
  subst same
  exact unused (.inl queued)

def holding (b : OrderBook) (o : Nat) (slot : Order) (free : IndexFreeStack) (map : HashMap Nat Nat) : OrderBook :=
  { b with orderSlots := update b.orderSlots o slot, orderFree := free, orderMap := map }

theorem holding_level (unused : ¬ b.Live none o) (x : Nat) : (b.holding o slot free map).level x = b.level x := by
  show (⟨_, (b.queue x).map (b.holding o slot free map).resting⟩ : PriceTime.Level) = ⟨_, (b.queue x).map b.resting⟩
  congr 1
  apply map_congr_left
  intro y queued
  have other : y ≠ o := by
    intro same
    subst same
    exact unused (.inl ⟨x, queued⟩)
  simp [resting, holding, other]

theorem Opened.linkOrder_level (opened : Opened (some o) b b' side price l) (x : Nat) (qty : Nat) :
    (b'.linkOrder l o qty).level x = ⟨b'.levelPrice x,
      (b'.level x).orders ++ if x = l then [b'.resting o] else []⟩ := by
  have away := opened.linked.unqueued o rfl
  have slots : ∀ y, (b'.linkOrder l o qty).resting y = b'.resting y := by
    intro y
    by_cases same : y = o
    · subst same
      simp [resting, linkOrder, setOrder, setLevel]
    · simp [resting, linkOrder, setOrder, setLevel, same]
  simp only [level, linkOrder_levelPrice, linkOrder_queue]
  by_cases same : x = l
  · subst same
    simp [map_congr_left (fun y _ => slots y)]
  · simp [same, map_congr_left (fun y _ => slots y)]

theorem Linked.linkAtLevel_opened {c : OrderBook} (held : c = b.holding o slot free map) (unused : ¬ b.Live none o)
    (shape : slot.price = price ∧ slot.side = side)
    (content : slot.orderId = id ∧ slot.qty = qty) (capacity : free.capacity = b.orderFree.capacity)
    (inserted : Table.Inserted hash b.orderMap map id o) (stack : b.orderFree.indices = o :: free.indices)
    (opened : Opened (some o) c b' side price l) : Placed b (b'.linkOrder l o qty) id side price qty := by
  have frame := opened.frame
  have same : b'.orderSlots o = slot := by
    rw [frame, held]
    exact update_self _ _ _
  have before : ∀ s, c.levels s = b.levels s := by
    intro s
    rw [held]
    exact map_congr_left fun x _ => holding_level unused x
  have resting : b'.resting o = ⟨id, qty⟩ := by
    rw [OrderBook.resting, same, content.1, content.2]
  have linked : Linked none none (b'.linkOrder l o qty) := by
    apply opened.linked.linkOrder opened.member
    · rw [same, shape.1, opened.price_eq]
    · rw [same, shape.2]
  refine ⟨linked, ?_, ?_, ?_, ?_, ⟨o, ?_⟩, ?_, ?_⟩
  · rw [← before side]
    apply opened.placed
    · intro x other
      rw [opened.linkOrder_level, if_neg other, append_nil]
      rfl
    · rw [opened.linkOrder_level, if_pos rfl, resting, opened.price_eq]
  · rw [← before, ← opened.other side.opposite (Side.opposite_ne side)]
    apply map_congr_left
    intro x onLadder
    have other : x ≠ l := by
      intro equal
      subst equal
      exact opened.linked.not_on_opposite opened.member onLadder
    rw [opened.linkOrder_level, if_neg other, append_nil]
    rfl
  · show b'.orderFree.capacity = _
    rw [frame, held]
    exact capacity
  · show b'.levelFree.capacity = _
    rw [opened.levelCapacity, held]
    rfl
  · show Table.Inserted hash b.orderMap b'.orderMap id o
    rw [frame, held]
    exact inserted
  · show _ = b'.orderFree.indices.length + 1
    rw [frame, held, stack]
    rfl
  · have found := (linked.levelMap_iff side price l).mpr ⟨opened.member, by rw [linkOrder_levelPrice, opened.price_eq]⟩
    simp [OrderBook.levelRoom, found]

theorem releaseOrder_refused {free' : IndexFreeStack} (slot : Order) (unused : ¬ b.Live none o) (ok : b.orderMap.Ok)
    (absent : b.orderMap.content id = none) (inserted : Table.Inserted hash b.orderMap map id o)
    (pushed : free.push o = some free') (tracked : free'.Tracks (b.Live none))
    (capacity : free'.capacity = b.orderFree.capacity)
    (queues : ∀ x, (slots x).orders = b.queue x) (kept : ∀ x, b.OnLadder x → slots x = b.levelSlots x)
    (levels : levelFree.Tracks b.OnLadder) (levelCapacity : levelFree.capacity = b.levelFree.capacity) :
    ∃ b', OrderBook.releaseOrder { b.holding o slot free map with levelSlots := slots, levelFree := levelFree } id o =
      some b' ∧ Same b b' := by
  have content := inserted.content_eq ok
  have present : map.content id = some o := by rw [content, update_self]
  obtain ⟨map', erased, gone⟩ := inserted.wellFormed.erase_of_content present
  have content' : map'.content = b.orderMap.content := by
    rw [gone.content_eq inserted.wellFormed, content, update_idem, ← absent, update_eq_self]
  refine ⟨_, ?_, same_refused { slot with level := none } unused tracked capacity gone.wellFormed content'
    queues kept levels levelCapacity⟩
  have mapOk : HashMap.Ok map := inserted.wellFormed
  simp [OrderBook.releaseOrder, eraseOrderId, freeOrder, setOrder, holding, mapOk.erase_eq, erased, pushed]

theorem linkAtLevel_of_refused (id qty o : Nat) (found : b.findOrCreateLevel side price = some (none, b')) :
    b.linkAtLevel id side price qty o = (b'.releaseOrder id o).map fun b => (false, b) := by
  simp [OrderBook.linkAtLevel, found, OrderBook.releaseOrder, map_eq_bind, bind_assoc]

theorem Linked.addOrder (linked : Linked none none b) (id : Nat) (side : Side) (price : Int) (qty : Nat) :
    (qty ≠ 0 ∧ b.canAdd id side price = true ∧
      ∃ b', b.addOrder id side price qty = some (true, b') ∧ Placed b b' id side price qty) ∨
    (¬ (qty ≠ 0 ∧ b.canAdd id side price = true) ∧
      ∃ b', b.addOrder id side price qty = some (false, b') ∧ Same b b') := by
  unfold OrderBook.addOrder canAdd
  simp only [linked.orderMap_ok.find_eq, bind_eq_bind, bind_some, Option.pure_def]
  by_cases zero : qty = 0
  · exact .inr ⟨by simp [zero], b, by simp [zero], linked.same_refl⟩
  rw [if_neg zero]
  cases popped : b.orderFree.pop with
  | none =>
    have empty := IndexFreeStack.pop_eq_none.mp popped
    refine .inr ⟨by simp [empty], b, ?_, linked.same_refl⟩
    simp [allocOrder, popped]
  | some taken =>
    obtain ⟨o, free⟩ := taken
    obtain ⟨_, unused, capacity, _⟩ := linked.orders_tracked.pop popped
    have stack := IndexFreeStack.indices_of_pop popped
    rcases linked.orderMap_ok.insert_cases id o with
      ⟨⟨w, present⟩, refused, _⟩ | ⟨absent, refused, _, result⟩ | ⟨absent, accepted, map, result, inserted⟩
    · refine .inr ⟨by simp [refused], b, ?_, linked.same_refl⟩
      simp [present]
    · obtain ⟨free', pushed, capacity', tracked'⟩ := linked.orders_tracked.pop_push popped
      have same := same_refused { b.orderSlots o with orderId := id, price, qty, side, level := none }
        unused tracked' capacity' linked.orderMap_ok rfl (fun _ => rfl) (fun _ _ => rfl) linked.levels_tracked rfl
      refine .inr ⟨by simp [refused], _, ?_, same⟩
      simp [absent, allocOrder, popped, setOrder, linked.orderMap_ok.insert_eq, result, freeOrder, pushed]
    · have taken := linked.takeOrder { b.orderSlots o with orderId := id, price, qty, side } popped inserted
        absent
      obtain ⟨free', pushed, capacity', tracked'⟩ := linked.orders_tracked.pop_push popped
      rcases taken.findOrCreateLevel side price with
        ⟨room, l, b', found, opened⟩ | ⟨room, slots, levelFree, found, queues, kept, tracked, levelCapacity⟩
      · refine .inl ⟨zero, ?_, _, ?_, Linked.linkAtLevel_opened rfl unused ⟨rfl, rfl⟩ ⟨rfl, rfl⟩ capacity
          inserted stack opened⟩
        · have same : b.levelRoom side price = true := room
          simp [stack, accepted, same]
        · simp [absent, allocOrder, popped, setOrder, linked.orderMap_ok.insert_eq, result,
            OrderBook.linkAtLevel, found]
      · obtain ⟨b', released, same⟩ := releaseOrder_refused
          { b.orderSlots o with orderId := id, price, qty, side } unused linked.orderMap_ok absent
          inserted pushed tracked' capacity' queues kept tracked levelCapacity
        refine .inr ⟨?_, b', ?_, same⟩
        · have same : b.levelRoom side price = false := room
          simp [same]
        · have rolledBack := (linkAtLevel_of_refused id qty o found).trans
            (congrArg (Option.map fun b => (false, b)) released)
          simp only [map_some] at rolledBack
          simp [absent, allocOrder, popped, setOrder, linked.orderMap_ok.insert_eq, result, rolledBack]

end Add

end TickToTrade.Algo.OrderBook
