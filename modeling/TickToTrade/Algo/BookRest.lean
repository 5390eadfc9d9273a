import TickToTrade.Algo.BookLinks

/-! The steps `add_order` is made of, with the two rollbacks. -/

namespace TickToTrade.Algo.OrderBook
open Ds Probing List Option Function
open PriceTime (Level Resting place)

variable {b b' : OrderBook} {hole pending : Option Nat} {l o : Nat} {s : Side}

theorem Linked.weaken (linked : Linked none pending b) (hole : Option Nat) : Linked hole pending b :=
  { linked with queue_ne_nil := fun s l member _ => linked.queue_ne_nil s l member (by simp) }

/-! ### Order slots -/

theorem Linked.takeOrder {free : IndexFreeStack} {map : HashMap Nat Nat}
    (linked : Linked hole none b) (slot : Order) (popped : b.orderFree.pop = some (o, free))
    (inserted : Table.Inserted DefaultHash.hash b.orderMap map slot.orderId o)
    (absent : b.orderMap.content slot.orderId = none) : Linked hole (some o) { b with
      orderSlots := update b.orderSlots o slot, orderFree := free, orderMap := map } := by
  obtain ⟨_, unused, _, tracked⟩ := linked.orders_tracked.pop popped
  have other : ∀ y, b.Queued y → y ≠ o := by
    intro y queued same
    subst same
    exact unused (.inl queued)
  exact { linked with
    back := by
      intro x y queued
      have kept := linked.back x y queued
      rw [← update_of_ne (other y ⟨x, queued⟩) slot b.orderSlots] at kept
      exact kept
    unqueued := by
      intro y same queued
      exact other y queued (some.inj same).symm
    orderMap_ok := inserted.wellFormed
    orderMap_iff := by
      intro id y
      show map.content id = some y ↔ (b.Queued y ∨ some o = some y) ∧ (update b.orderSlots o slot y).orderId = id
      rw [inserted.content_eq linked.orderMap_ok]
      by_cases same : y = o
      · subst same
        by_cases hit : id = slot.orderId
        · simp [hit]
        · have unmapped : b.orderMap.content id ≠ some y := by
            intro mapped
            exact unused ((linked.orderMap_iff id y).mp mapped).1
          simp [update_of_ne hit, unmapped, Ne.symm hit]
      · have old := linked.orderMap_iff id y
        simp only [Live, reduceCtorEq, or_false] at old
        simp only [some.injEq, Ne.symm same, or_false, update_of_ne same]
        by_cases hit : id = slot.orderId
        · subst hit
          rw [absent] at old
          simpa [Ne.symm same] using old
        · rw [update_of_ne hit]
          exact old
    orders_tracked := tracked.congr fun y => by
      simp only [Live, reduceCtorEq, or_false, some.injEq, eq_comm]
      exact Iff.rfl }

/-! ### Levels -/

theorem insertSorted_cons (level it : Nat) (rest : List Nat) : b.insertSorted s level (it :: rest) =
    if Better s (b.levelPrice level) (b.levelPrice it) then level :: it :: rest
    else it :: b.insertSorted s level rest := rfl

variable {ladder : List Nat}

theorem mem_insertSorted {level x : Nat} :
    x ∈ b.insertSorted s level ladder ↔ x = level ∨ x ∈ ladder := by
  induction ladder with
  | nil => simp [insertSorted]
  | cons it rest ih =>
    unfold insertSorted
    split
    · simp
    · simp only [mem_cons, ih]
      tauto

theorem insertSorted_sorted {level : Nat}
    (sorted : ladder.Pairwise fun x y => Better s (b.levelPrice x) (b.levelPrice y))
    (fresh : ∀ x ∈ ladder, b.levelPrice x ≠ b.levelPrice level) :
    (b.insertSorted s level ladder).Pairwise fun x y => Better s (b.levelPrice x) (b.levelPrice y) := by
  induction ladder with
  | nil => simp [insertSorted]
  | cons it rest ih =>
    obtain ⟨first, tail⟩ := pairwise_cons.mp sorted
    unfold insertSorted
    split
    · rename_i before
      refine pairwise_cons.mpr ⟨?_, sorted⟩
      intro x member
      rcases mem_cons.mp member with same | later
      · rw [same]
        exact before
      · exact better_trans before (first x later)
    · rename_i notBefore
      refine pairwise_cons.mpr ⟨?_, ih tail fun x member => fresh x (mem_cons_of_mem it member)⟩
      intro x member
      rcases mem_insertSorted.mp member with same | later
      · rw [same]
        exact better_total (Ne.symm (fresh it mem_cons_self)) notBefore
      · exact first x later

theorem Linked.queue_off_ladder (linked : Linked hole pending b) (unused : ¬ b.OnLadder l) : b.queue l = [] := by
  apply eq_nil_iff_forall_not_mem.mpr
  intro o queued
  exact unused ⟨_, linked.on_ladder l o queued⟩

/-- The level of `price` is on the ladder, possibly just opened; nothing else changed. -/
structure Opened (pending : Option Nat) (b b' : OrderBook) (side : Side) (price : Int) (l : Nat) : Prop where
  linked : Linked (some l) pending b'
  frame : b' = { b with
    levelSlots := b'.levelSlots, levelFree := b'.levelFree, ladders := b'.ladders, levelMap := b'.levelMap }
  member : l ∈ b'.ladders side
  price_eq : b'.levelPrice l = price
  levelCapacity : b'.levelFree.capacity = b.levelFree.capacity
  placed : ∀ (level' : Nat → Level) (order : Resting),
    (∀ x, x ≠ l → level' x = b'.level x) → level' l = ⟨price, (b'.level l).orders ++ [order]⟩ →
    (b'.ladders side).map level' = place side price order (b.levels side)
  other : ∀ s, s ≠ side → b'.levels s = b.levels s

theorem map_place_found {side : Side} (level : Nat → Level) {level' : Nat → Level}
    {order : Resting} (sorted : ladder.Pairwise fun x y => Better side (level x).price (level y).price)
    (member : l ∈ ladder) (kept : ∀ x, x ≠ l → level' x = level x)
    (grown : level' l = ⟨(level l).price, (level l).orders ++ [order]⟩) :
    ladder.map level' = place side (level l).price order (ladder.map level) := by
  induction ladder with
  | nil => cases member
  | cons x rest ih =>
    obtain ⟨first, tail⟩ := pairwise_cons.mp sorted
    simp only [map_cons, place]
    by_cases here : x = l
    · subst here
      have untouched : rest.map level' = rest.map level := by
        apply map_congr_left
        intro y later
        apply kept
        intro same
        subst same
        exact better_irrefl _ _ (first _ later)
      simp [grown, untouched]
    · have later : l ∈ rest := (mem_cons.mp member).resolve_left (Ne.symm here)
      have before := first l later
      have differs : (level x).price ≠ (level l).price := by
        intro same
        rw [same] at before
        exact better_irrefl _ _ before
      have notBefore : ¬ Better side (level l).price (level x).price := fun behind =>
        better_irrefl _ _ (better_trans before behind)
      rw [if_neg differs, if_neg notBefore, ih tail later, kept x here]

theorem map_place_opened (side : Side) (level level' : Nat → Level) (order : Resting)
    (ladder : List Nat) (prices : ∀ x, (level x).price = b.levelPrice x)
    (fresh : ∀ x ∈ ladder, b.levelPrice x ≠ b.levelPrice l) (kept : ∀ x ∈ ladder, level' x = level x)
    (opened : level' l = ⟨b.levelPrice l, [order]⟩) :
    (b.insertSorted side l ladder).map level' =
      place side (b.levelPrice l) order (ladder.map level) := by
  induction ladder with
  | nil => simp [insertSorted, place, opened]
  | cons x rest ih =>
    have tail := ih (fun y member => fresh y (mem_cons_of_mem x member))
      (fun y member => kept y (mem_cons_of_mem x member))
    have untouched : rest.map level' = rest.map level :=
      map_congr_left fun y member => kept y (mem_cons_of_mem x member)
    simp only [map_cons, place, prices]
    rw [if_neg (fresh x mem_cons_self), insertSorted_cons]
    by_cases before : Better side (b.levelPrice l) (b.levelPrice x)
    · simp [before, opened, untouched, kept x mem_cons_self]
    · simp [before, tail, kept x mem_cons_self]

def openLevel (b : OrderBook) (side : Side) (price : Int) (l : Nat) (free : IndexFreeStack)
    (map : HashMap Int Nat) : OrderBook :=
  let b := { b with levelFree := free }
  let b := b.setLevel l { b.levelSlots l with price, totalQty := 0, side }
  (b.setLevelMap side map).insertLevelSorted side l

section OpenLevel

variable {side : Side} {price : Int} {free : IndexFreeStack} {map : HashMap Int Nat}

theorem openLevel_slots {x : Nat} (other : x ≠ l) :
    (b.openLevel side price l free map).levelSlots x = b.levelSlots x :=
  update_of_ne other _ _

theorem openLevel_slot :
    (b.openLevel side price l free map).levelSlots l = { b.levelSlots l with price, totalQty := 0, side } :=
  update_self _ _ _

theorem openLevel_queue : (b.openLevel side price l free map).queue = b.queue := by
  funext x
  unfold queue
  by_cases same : x = l
  · rw [same, openLevel_slot]
  · rw [openLevel_slots same]

theorem insertSorted_congr (same : b'.levelSlots = b.levelSlots) (ladder : List Nat) :
    b'.insertSorted side l ladder = b.insertSorted side l ladder := by
  induction ladder with
  | nil => rfl
  | cons x rest ih => simp [insertSorted, same, ih]

theorem openLevel_ladders (s : Side) : (b.openLevel side price l free map).ladders s =
    if s = side then (b.openLevel side price l free map).insertSorted side l (b.ladders side) else b.ladders s := by
  by_cases same : s = side
  · subst same
    rw [if_pos rfl]
    refine (update_self _ _ _).trans ?_
    apply insertSorted_congr
    rfl
  · rw [if_neg same]
    exact update_of_ne same _ _

theorem openLevel_levelMap (s : Side) : (b.openLevel side price l free map).levelMap s =
    if s = side then map else b.levelMap s := by
  by_cases same : s = side
  · subst same
    rw [if_pos rfl]
    exact update_self _ _ _
  · rw [if_neg same]
    exact update_of_ne same _ _

section

variable (linked : Linked none pending b) (popped : b.levelFree.pop = some (l, free))
  (inserted : Table.Inserted DefaultHash.hash (b.levelMap side) map price l)
    (absent : (b.levelMap side).content price = none)
include linked popped inserted absent

theorem Linked.openLevel : Linked (some l) pending (b.openLevel side price l free map) := by
  obtain ⟨_, unused, _, tracked⟩ := linked.levels_tracked.pop popped
  have slots : ∀ s x, x ∈ b.ladders s → (b.openLevel side price l free map).levelSlots x = b.levelSlots x := by
    intro s x onLadder
    apply openLevel_slots
    intro same
    subst same
    exact unused ⟨s, onLadder⟩
  have members : ∀ s x, x ∈ (b.openLevel side price l free map).ladders s ↔
      (s = side ∧ x = l) ∨ x ∈ b.ladders s := by
    intro s x
    rw [openLevel_ladders]
    by_cases same : s = side
    · subst same
      simp [mem_insertSorted]
    · simp [same]
  have fresh : ∀ x ∈ b.ladders side, b.levelPrice x ≠ price := by
    intro x onLadder same
    have mapped := (linked.levelMap_iff side price x).mpr ⟨onLadder, same⟩
    rw [absent] at mapped
    cases mapped
  exact {
    sorted := by
      intro s
      have old : (b.ladders s).Pairwise fun x y => Better s ((b.openLevel side price l free map).levelPrice x)
          ((b.openLevel side price l free map).levelPrice y) := by
        apply (linked.sorted s).imp_of_mem
        intro x y onLadder onLadder' better
        unfold levelPrice at better ⊢
        rw [slots s x onLadder, slots s y onLadder']
        exact better
      rw [openLevel_ladders]
      split
      · rename_i same
        subst same
        apply insertSorted_sorted old
        intro x onLadder
        have other := fresh x onLadder
        unfold levelPrice at other ⊢
        rw [slots s x onLadder, openLevel_slot]
        exact other
      · exact old
    side_eq := by
      intro s x onLadder
      unfold levelSide
      rcases (members s x).mp onLadder with ⟨rfl, rfl⟩ | old
      · rw [openLevel_slot]
      · rw [slots s x old]
        exact linked.side_eq s x old
    queue_ne_nil := by
      intro s x onLadder other
      rw [openLevel_queue]
      rcases (members s x).mp onLadder with ⟨_, same⟩ | old
      · exact absurd (congrArg some same.symm) other
      · exact linked.queue_ne_nil s x old (by simp)
    on_ladder := by
      intro x y queued
      rw [openLevel_queue] at queued
      have old := linked.on_ladder x y queued
      unfold levelSide
      rw [slots _ x old]
      exact (members _ x).mpr (.inr old)
    queue_nodup := by rw [openLevel_queue]; exact linked.queue_nodup
    back := by
      intro x y queued
      rw [openLevel_queue] at queued
      have kept := linked.back x y queued
      unfold levelPrice levelSide at kept ⊢
      rw [slots _ x (linked.on_ladder x y queued)]
      exact kept
    unqueued := by
      intro y same
      simp only [Queued, openLevel_queue]
      exact linked.unqueued y same
    orderMap_ok := linked.orderMap_ok
    orderMap_iff := by
      simp only [Live, Queued, openLevel_queue]
      exact linked.orderMap_iff
    levelMap_ok := by
      intro s
      rw [openLevel_levelMap]
      split
      · exact inserted.wellFormed
      · exact linked.levelMap_ok s
    levelMap_iff := by
      intro s p x
      have old := linked.levelMap_iff s p x
      rw [openLevel_levelMap, members]
      by_cases here : x = l
      · subst here
        have off : x ∉ b.ladders s := fun onLadder => unused ⟨s, onLadder⟩
        have newPrice : (b.openLevel side price x free map).levelPrice x = price := by
          rw [levelPrice, openLevel_slot]
        rw [newPrice]
        by_cases same : s = side
        · subst same
          rw [if_pos rfl, inserted.content_eq (linked.levelMap_ok s)]
          by_cases hit : p = price
          · simp [hit]
          · simp [update_of_ne hit, old, off, Ne.symm hit]
        · simp [same, old, off]
      · have samePrice : x ∈ b.ladders s → (b.openLevel side price l free map).levelPrice x = b.levelPrice x := by
          intro onLadder
          rw [levelPrice, slots s x onLadder]
          rfl
        have target : (x ∈ b.ladders s ∧ (b.openLevel side price l free map).levelPrice x = p) ↔
            (b.levelMap s).content p = some x := by
          rw [old]
          constructor
          · rintro ⟨onLadder, shown⟩
            exact ⟨onLadder, (samePrice onLadder).symm.trans shown⟩
          · rintro ⟨onLadder, shown⟩
            exact ⟨onLadder, (samePrice onLadder).trans shown⟩
        simp only [here, and_false, false_or]
        rw [target]
        split
        · rename_i same
          subst same
          rw [inserted.content_eq (linked.levelMap_ok s)]
          by_cases hit : p = price
          · subst hit
            simp [absent, Ne.symm here]
          · rw [update_of_ne hit]
        · exact Iff.rfl
    orders_tracked := by
      have same : (b.openLevel side price l free map).Live pending = b.Live pending := by
        funext y
        simp only [Live, Queued, openLevel_queue]
      rw [same]
      exact linked.orders_tracked
    levels_tracked := tracked.congr fun x => by
      simp only [OnLadder, members]
      constructor
      · rintro ⟨s, onLadder⟩
        rcases onLadder with ⟨_, same⟩ | old
        · exact .inr same
        · exact .inl ⟨s, old⟩
      · intro used
        rcases used with ⟨s, old⟩ | same
        · exact ⟨s, .inr old⟩
        · exact ⟨side, .inl ⟨rfl, same⟩⟩ }

theorem Linked.opened : Opened pending b (b.openLevel side price l free map) side price l := by
  obtain ⟨_, unused, capacity, _⟩ := linked.levels_tracked.pop popped
  have newPrice : (b.openLevel side price l free map).levelPrice l = price := by rw [levelPrice, openLevel_slot]
  have kept : ∀ s, ∀ x ∈ b.ladders s, (b.openLevel side price l free map).level x = b.level x := by
    intro s x onLadder
    have other : x ≠ l := by
      intro same
      subst same
      exact unused ⟨s, onLadder⟩
    simp only [level, levelPrice, openLevel_queue, openLevel_slots other]
    rfl
  refine ⟨linked.openLevel popped inserted absent, rfl, ?_, newPrice, capacity, ?_, ?_⟩
  · rw [openLevel_ladders, if_pos rfl, mem_insertSorted]
    exact .inl rfl
  · intro level' order others here
    have empty : ((b.openLevel side price l free map).level l).orders = [] := by
      simp only [level, openLevel_queue, linked.queue_off_ladder unused, map_nil]
    rw [openLevel_ladders, if_pos rfl]
    have placed := map_place_opened (b := b.openLevel side price l free map) (l := l) side
      (b.openLevel side price l free map).level level' order (b.ladders side) (fun x => rfl) ?_ ?_
      (by rw [here, empty, newPrice]; rfl)
    · rw [placed, newPrice, levels, map_congr_left (kept side)]
    · intro x onLadder same
      rw [newPrice] at same
      have shown := congrArg PriceTime.Level.price (kept side x onLadder)
      have mapped := (linked.levelMap_iff side price x).mpr ⟨onLadder, shown.symm.trans same⟩
      rw [absent] at mapped
      cases mapped
    · intro x onLadder
      apply others
      intro same
      subst same
      exact unused ⟨side, onLadder⟩
  · intro s other
    unfold levels
    rw [openLevel_ladders, if_neg other]
    exact map_congr_left (kept s)

end

end OpenLevel

theorem Linked.weaken_opened (linked : Linked none pending b) (member : l ∈ b.ladders s) :
    Opened pending b b s (b.levelPrice l) l := by
  refine ⟨linked.weaken _, rfl, member, rfl, rfl, ?_, fun _ _ => rfl⟩
  intro level' order others here
  exact map_place_found b.level (linked.sorted s) member others here

theorem Linked.findOrCreateLevel (linked : Linked none pending b) (side : Side) (price : Int) :
    (b.levelRoom side price = true ∧ ∃ l b', b.findOrCreateLevel side price = some (some l, b') ∧
      Opened pending b b' side price l) ∨
    (b.levelRoom side price = false ∧ ∃ slots free, b.findOrCreateLevel side price =
        some (none, { b with levelSlots := slots, levelFree := free }) ∧
      (∀ x, (slots x).orders = b.queue x) ∧ (∀ x, b.OnLadder x → slots x = b.levelSlots x) ∧
      free.Tracks b.OnLadder ∧ free.capacity = b.levelFree.capacity) := by
  unfold OrderBook.findOrCreateLevel levelRoom
  simp only [(linked.levelMap_ok side).find_eq, bind_eq_bind, bind_some]
  cases found : (b.levelMap side).content price with
  | some l =>
    obtain ⟨member, shown⟩ := (linked.levelMap_iff side price l).mp found
    subst shown
    exact .inl ⟨rfl, l, b, rfl, linked.weaken_opened member⟩
  | none =>
    cases popped : b.levelFree.pop with
    | none =>
      have empty := IndexFreeStack.pop_eq_none.mp popped
      refine .inr ⟨by simp [empty], b.levelSlots, b.levelFree, ?_, fun _ => rfl, fun _ _ => rfl,
        linked.levels_tracked, rfl⟩
      simp [allocLevel, popped]
    | some taken =>
      obtain ⟨l, free⟩ := taken
      obtain ⟨_, unused, _⟩ := linked.levels_tracked.pop popped
      have stack := IndexFreeStack.indices_of_pop popped
      rcases (linked.levelMap_ok side).insert_cases price l with
        ⟨⟨w, present⟩, _⟩ | ⟨_, refused, _, result⟩ | ⟨_, accepted, map, result, inserted⟩
      · rw [found] at present
        cases present
      · obtain ⟨free', pushed, capacity', tracked'⟩ := linked.levels_tracked.pop_push popped
        refine .inr ⟨by simp [refused], update b.levelSlots l { b.levelSlots l with
          price, totalQty := 0, side }, free', ?_, ?_, ?_, tracked', capacity'⟩
        · simp [allocLevel, popped, setLevel, (linked.levelMap_ok side).insert_eq, result, setLevelMap,
            freeLevel, pushed]
        · intro x
          by_cases same : x = l
          · subst same
            simp [queue]
          · simp [queue, same]
        · intro x onLadder
          apply update_of_ne
          intro same
          subst same
          exact unused onLadder
      · refine .inl ⟨by simp [stack, accepted], l, _, ?_, linked.opened popped inserted found⟩
        simp [allocLevel, popped, setLevel, (linked.levelMap_ok side).insert_eq, result]
        rfl

/-! ### Linking an order at the tail of its level -/

theorem linkOrder_queue (b : OrderBook) (l o : Nat) (qty : Nat) :
    (b.linkOrder l o qty).queue = update b.queue l (b.queue l ++ [o]) := setLevel_queue ..

theorem linkOrder_levelPrice (b : OrderBook) (l o : Nat) (qty : Nat) :
    (b.linkOrder l o qty).levelPrice = b.levelPrice := setLevel_levelPrice rfl

theorem linkOrder_levelSide (b : OrderBook) (l o : Nat) (qty : Nat) : (b.linkOrder l o qty).levelSide = b.levelSide :=
    setLevel_levelSide rfl

theorem mem_linked {x y : Nat} {qty : Nat} :
    y ∈ (b.linkOrder l o qty).queue x ↔ y ∈ b.queue x ∨ x = l ∧ y = o := by
  rw [linkOrder_queue]
  by_cases same : x = l
  · subst same
    simp
  · simp [same]

theorem live_linked {qty : Nat} (y : Nat) : (b.linkOrder l o qty).Live none y ↔ b.Live (some o) y := by
  simp only [Live, Queued, mem_linked, reduceCtorEq, or_false, some.injEq]
  constructor
  · rintro ⟨x, queued⟩
    rcases queued with old | ⟨_, same⟩
    · exact .inl ⟨x, old⟩
    · exact .inr same.symm
  · intro live
    rcases live with ⟨x, old⟩ | same
    · exact ⟨x, .inl old⟩
    · exact ⟨l, .inr ⟨rfl, same.symm⟩⟩

theorem Linked.linkOrder (linked : Linked (some l) (some o) b) (member : l ∈ b.ladders s) (qty : Nat)
    (price : (b.orderSlots o).price = b.levelPrice l) (side : (b.orderSlots o).side = s) :
    Linked none none (b.linkOrder l o qty) := by
  have away := linked.unqueued o rfl
  have slots : ∀ y, y ≠ o → (b.linkOrder l o qty).orderSlots y = b.orderSlots y := fun y other =>
    update_of_ne other _ _
  have slot : (b.linkOrder l o qty).orderSlots o = { b.orderSlots o with level := some l } :=
    update_self _ _ _
  exact {
    sorted := by rw [linkOrder_levelPrice]; exact linked.sorted
    side_eq := by rw [linkOrder_levelSide]; exact linked.side_eq
    queue_ne_nil := by
      intro s x onLadder _
      rw [linkOrder_queue]
      by_cases same : x = l
      · subst same
        simp
      · rw [update_of_ne same]
        exact linked.queue_ne_nil s x onLadder (by simpa using Ne.symm same)
    on_ladder := by
      intro x y queued
      rw [linkOrder_levelSide]
      rcases mem_linked.mp queued with old | ⟨same, _⟩
      · exact linked.on_ladder x y old
      · rw [same, linked.side_eq s l member]
        exact member
    queue_nodup := by
      intro x
      rw [linkOrder_queue]
      by_cases same : x = l
      · subst same
        rw [update_self, nodup_append]
        refine ⟨linked.queue_nodup x, nodup_singleton o, ?_⟩
        intro y queued z last
        rw [mem_singleton.mp last]
        intro same
        subst same
        exact away ⟨x, queued⟩
      · rw [update_of_ne same]
        exact linked.queue_nodup x
    back := by
      intro x y queued
      rw [linkOrder_levelPrice, linkOrder_levelSide]
      rcases mem_linked.mp queued with old | ⟨rfl, rfl⟩
      · rw [slots y fun same => away ⟨x, same ▸ old⟩]
        exact linked.back x y old
      · rw [slot]
        exact ⟨rfl, price, side.trans (linked.side_eq s x member).symm⟩
    unqueued := by simp
    orderMap_ok := linked.orderMap_ok
    orderMap_iff := by
      intro id y
      rw [live_linked]
      have old := linked.orderMap_iff id y
      by_cases same : y = o
      · subst same
        rw [slot]
        exact old
      · rw [slots y same]
        exact old
    levelMap_ok := linked.levelMap_ok
    levelMap_iff := by rw [linkOrder_levelPrice]; exact linked.levelMap_iff
    orders_tracked := linked.orders_tracked.congr live_linked
    levels_tracked := linked.levels_tracked }

end TickToTrade.Algo.OrderBook
