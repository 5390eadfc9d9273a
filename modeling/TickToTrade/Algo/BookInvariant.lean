import TickToTrade.Algo.AddOrder

/-!
The remaining operations of the book, and its invariant over every sequence of operations.
-/

namespace TickToTrade.Algo.OrderBook
open Ds Probing List Function

variable {b b' : OrderBook} {l o : Nat} {s : Side} {id : Nat}

/-! ### Changing a quantity in place -/

theorem setQty_queue (b : OrderBook) (l o : Nat) (qty delta : Nat) : (b.setQty l o qty delta).queue = b.queue :=
  (setLevel_queue ..).trans (update_eq_self l b.queue)

theorem setQty_levelPrice (b : OrderBook) (l o : Nat) (qty delta : Nat) :
    (b.setQty l o qty delta).levelPrice = b.levelPrice := setLevel_levelPrice rfl

theorem setQty_levelSide (b : OrderBook) (l o : Nat) (qty delta : Nat) :
    (b.setQty l o qty delta).levelSide = b.levelSide := setLevel_levelSide rfl

theorem setQty_order (b : OrderBook) (l o : Nat) (qty delta : Nat) (y : Nat) :
    (b.setQty l o qty delta).orderSlots y =
    { b.orderSlots y with qty := if y = o then qty else (b.orderSlots y).qty } := by
  by_cases same : y = o
  · subst same
    simp [setQty, setLevel, setOrder]
  · simp [setQty, setLevel, setOrder, same]

theorem Linked.setQty (linked : Linked none none b) (l o : Nat) (qty delta : Nat) :
    Linked none none (b.setQty l o qty delta) := by
  have live : (b.setQty l o qty delta).Live none = b.Live none := by
    funext y
    simp only [Live, Queued, setQty_queue]
  exact {
    sorted := by rw [setQty_levelPrice]; exact linked.sorted
    side_eq := by rw [setQty_levelSide]; exact linked.side_eq
    queue_ne_nil := by rw [setQty_queue]; exact linked.queue_ne_nil
    on_ladder := by rw [setQty_queue, setQty_levelSide]; exact linked.on_ladder
    queue_nodup := by rw [setQty_queue]; exact linked.queue_nodup
    back := by
      intro x y queued
      rw [setQty_queue] at queued
      rw [setQty_order, setQty_levelPrice, setQty_levelSide]
      exact linked.back x y queued
    unqueued := by simp
    orderMap_ok := linked.orderMap_ok
    orderMap_iff := by
      intro id y
      rw [live, setQty_order]
      exact linked.orderMap_iff id y
    levelMap_ok := linked.levelMap_ok
    levelMap_iff := by rw [setQty_levelPrice]; exact linked.levelMap_iff
    orders_tracked := by rw [live]; exact linked.orders_tracked
    levels_tracked := linked.levels_tracked }

variable {qty : Nat}

theorem Linked.setQty_levels (linked : Linked none none b) (member : o ∈ b.queue l) (positive : qty ≠ 0)
    (delta : Nat) (s : Side) :
    (b.setQty l o qty delta).levels s = PriceTime.adjust (PriceTime.amend (b.orderSlots o).orderId qty)
    (b.levels s) := by
  apply levels_adjust
  · rw [setQty_queue]
    symm
    apply filter_eq_self.mpr
    intro x onLadder
    simpa using linked.queue_ne_nil s x onLadder (by simp)
  · intro x _
    rw [setQty_levelPrice]
  · intro x _
    rw [filterMap_amend_erase linked member, setQty_queue, ← filterMap_eq_map]
    apply filterMap_congr
    intro y _
    by_cases same : y = o
    · simp [same, positive, resting, setQty_order]
    · simp [same, resting, setQty_order]

/-- An order written down to nothing and then removed is gone as if it had been cancelled. -/
theorem Dropped.of_setQty {delta : Nat} (dropped : Dropped (b.setQty l o qty delta) b' l o) : Dropped b b' l o :=
  { dropped with
    queue := by rw [← setQty_queue b l o qty delta]; exact dropped.queue
    levelPrice := by rw [← setQty_levelPrice b l o qty delta]; exact dropped.levelPrice
    orders := by
      intro y other
      rw [dropped.orders y other, setQty_order, if_neg other] }

/-! ### Cancelling and modifying -/

theorem Linked.find_cases (linked : Linked none none b) (id : Nat) :
    (b.orderMap.find id = some none ∧ b.orderMap.content id = none) ∨
    ∃ o l, b.orderMap.find id = some (some o) ∧ o ∈ b.queue l ∧ (b.orderSlots o).orderId = id := by
  rw [linked.orderMap_ok.find_eq]
  cases found : b.orderMap.content id with
  | none => exact .inl ⟨rfl, rfl⟩
  | some o =>
    obtain ⟨live, shown⟩ := (linked.orderMap_iff id o).mp found
    rcases live with ⟨l, queued⟩ | impossible
    · exact .inr ⟨o, l, rfl, queued, shown⟩
    · cases impossible

theorem Linked.cancelOrder (linked : Linked none none b) (id : Nat) :
    (b.cancelOrder id = some (false, b) ∧ b.orderMap.content id = none) ∨
    ∃ o l b', o ∈ b.queue l ∧ (b.orderSlots o).orderId = id ∧ b.cancelOrder id = some (true, b') ∧
    Removed b b' l o := by
  unfold OrderBook.cancelOrder
  rcases linked.find_cases id with ⟨found, absent⟩ | ⟨o, l, found, queued, shown⟩
  · left
    simp [found, absent]
  · obtain ⟨b', cancelled, dropped⟩ := linked.cancelFound queued
    rw [shown] at cancelled
    refine .inr ⟨o, l, b', queued, shown, ?_, dropped⟩
    simp [found, cancelled]

theorem Linked.modifyOrder (linked : Linked none none b) (id : Nat) (newQty : Nat) :
    b.modifyOrder id newQty = some (false, b) ∨
    ∃ o l b', o ∈ b.queue l ∧ (b.orderSlots o).orderId = id ∧ newQty < (b.orderSlots o).qty ∧
      b.modifyOrder id newQty = some (true, b') ∧
      (newQty = 0 ∧ Dropped b b' l o ∨ newQty ≠ 0 ∧ b' = b.setQty l o newQty ((b.orderSlots o).qty - newQty)) := by
  unfold OrderBook.modifyOrder
  rcases linked.find_cases id with ⟨found, absent⟩ | ⟨o, l, found, queued, shown⟩
  · left
    simp [found]
  · by_cases grows : (b.orderSlots o).qty ≤ newQty
    · left
      simp [found, grows]
    · right
      by_cases zero : newQty = 0
      · obtain ⟨b', cancelled, dropped⟩ := linked.cancelFound queued
        rw [shown] at cancelled
        subst zero
        refine ⟨o, l, b', queued, shown, by omega, ?_, .inl ⟨rfl, dropped.toDropped⟩⟩
        simp [found, cancelled]
        omega
      · refine ⟨o, l, _, queued, shown, by omega, ?_, .inr ⟨zero, rfl⟩⟩
        simp [found, grows, zero, (linked.back l o queued).1]

/-! ### Clearing -/

theorem push_cons {pool : IndexFreeStack} {x : Nat} {rest : List Nat} {Rest : Nat → Prop}
    (tracked : pool.Tracks fun y => y ∈ x :: rest ∨ Rest y) (fresh : x ∉ rest) (apart : ¬ Rest x) :
    ∃ free, pool.push x = some free ∧ free.capacity = pool.capacity ∧ free.Tracks fun y => y ∈ rest ∨ Rest y := by
  obtain ⟨free, pushed, capacity, tracked⟩ := tracked.push (.inl mem_cons_self)
  refine ⟨free, pushed, capacity, tracked.congr fun y => ?_⟩
  constructor
  · intro used
    rcases used with member | other
    · exact ⟨.inl (mem_cons_of_mem x member), ne_of_mem_of_not_mem member fresh⟩
    · refine ⟨.inr other, ?_⟩
      rintro rfl
      exact apart other
  · intro ⟨used, different⟩
    exact used.imp_left fun member => (mem_cons.mp member).resolve_left different

theorem clearOrders_spec (level : Nat) (orders : List Nat) (Rest : Nat → Prop) (read : b.queue level = orders)
    (tracked : b.orderFree.Tracks fun o => o ∈ orders ∨ Rest o) (nodup : orders.Nodup)
    (apart : ∀ o ∈ orders, ¬ Rest o) :
    ∃ slots levelSlots free, clearOrders level orders b = some { b with
        orderSlots := slots, levelSlots := levelSlots, orderFree := free } ∧ free.Tracks Rest ∧
      free.capacity = b.orderFree.capacity ∧ (fun l => (levelSlots l).orders) = update b.queue level [] := by
  induction orders generalizing b with
  | nil =>
    refine ⟨b.orderSlots, b.levelSlots, b.orderFree, rfl, tracked.congr (by simp), rfl, ?_⟩
    rw [← read, update_eq_self]
    rfl
  | cons order rest ih =>
    obtain ⟨fresh, nodup⟩ := nodup_cons.mp nodup
    obtain ⟨free, pushed, capacity, left⟩ := push_cons tracked fresh (apart order mem_cons_self)
    have queues : ∀ slots stack, OrderBook.queue { b with
        orderSlots := slots
        levelSlots := update b.levelSlots level { b.levelSlots level with orders := rest }
        orderFree := stack } = update b.queue level rest := fun _ _ => setLevel_queue b level _
    obtain ⟨slots, levelSlots, free', cleared, tracked', capacity', emptied⟩ := ih (b := { b with
        orderSlots := update b.orderSlots order { b.orderSlots order with level := none }
        levelSlots := update b.levelSlots level { b.levelSlots level with orders := rest }
        orderFree := free }) (by rw [queues, update_self]) left nodup
      (fun o member => apart o (mem_cons_of_mem order member))
    refine ⟨slots, levelSlots, free', ?_, tracked', capacity'.trans capacity, ?_⟩
    · simp [clearOrders, setLevel, freeOrder, setOrder, pushed, cleared]
    · rw [emptied, queues, update_idem]

theorem clearLadder_spec (side : Side) {ladder : List Nat} {RestOrders RestLevels : Nat → Prop}
    (read : b.ladders side = ladder)
    (orders : b.orderFree.Tracks fun o => (∃ l ∈ ladder, o ∈ b.queue l) ∨ RestOrders o)
    (levels : b.levelFree.Tracks fun l => l ∈ ladder ∨ RestLevels l) (nodup : ladder.Nodup)
    (queues : ∀ l ∈ ladder, (b.queue l).Nodup)
    (apart : ∀ l ∈ ladder, ∀ o ∈ b.queue l, ¬ RestOrders o ∧ ∀ l' ∈ ladder, o ∈ b.queue l' → l' = l)
    (apart' : ∀ l ∈ ladder, ¬ RestLevels l) :
    ∃ slots levelSlots orderFree levelFree, clearLadder side ladder b = some { b with
        orderSlots := slots, levelSlots := levelSlots, orderFree := orderFree, levelFree := levelFree
        ladders := update b.ladders side [] } ∧
      orderFree.Tracks RestOrders ∧ levelFree.Tracks RestLevels ∧
      orderFree.capacity = b.orderFree.capacity ∧ levelFree.capacity = b.levelFree.capacity ∧
      ∀ l, (levelSlots l).orders = if l ∈ ladder then [] else b.queue l := by
  induction ladder generalizing b with
  | nil =>
    refine ⟨b.orderSlots, b.levelSlots, b.orderFree, b.levelFree, ?_, orders.congr (by simp),
      levels.congr (by simp), rfl, rfl, fun l => by simp [queue]⟩
    have same : update b.ladders side [] = b.ladders := by rw [← read, update_eq_self]
    rw [same]
    rfl
  | cons level rest ih =>
    obtain ⟨fresh, nodup⟩ := nodup_cons.mp nodup
    have atLevel := apart level mem_cons_self
    obtain ⟨slots, levelSlots, orderFree, cleared, orders', capacity, emptied⟩ :=
      clearOrders_spec (b := b.setLadder side rest) level (b.queue level)
        (fun o => (∃ l ∈ rest, o ∈ b.queue l) ∨ RestOrders o) rfl
        (orders.congr fun o => by simp only [mem_cons, exists_eq_or_imp, or_assoc])
        (queues level mem_cons_self) (by
          intro o queued again
          rcases again with ⟨l, member, queued'⟩ | other
          · have same := (atLevel o queued).2 l (mem_cons_of_mem level member) queued'
            subst same
            exact fresh member
          · exact (atLevel o queued).1 other)
    have queueOf : ∀ l, (levelSlots l).orders = if l = level then [] else b.queue l := by
      intro l
      have shown : (levelSlots l).orders = update b.queue level [] l := congrFun emptied l
      rw [shown, update_apply]
    have kept : ∀ l ∈ rest, (levelSlots l).orders = b.queue l := by
      intro l member
      rw [queueOf, if_neg]
      intro same
      subst same
      exact fresh member
    obtain ⟨levelFree, pushed, levelCapacity, levels'⟩ := push_cons levels fresh (apart' level mem_cons_self)
    have keptOrders : ∀ o, (∃ l ∈ rest, o ∈ (levelSlots l).orders) ↔ ∃ l ∈ rest, o ∈ b.queue l := fun o =>
      exists_congr fun l => and_congr_right fun member => by rw [kept l member]
    obtain ⟨slots', levelSlots', orderFree', levelFree', rest', orders'', levels'', capacity',
        levelCapacity', queues'⟩ :=
      ih (b := { b.setLadder side rest with
          orderSlots := slots, levelSlots := levelSlots, orderFree := orderFree, levelFree := levelFree })
        (update_self _ _ _) (orders'.congr fun o => or_congr_left (keptOrders o)) levels' nodup
        (by
          intro l member
          have old := queues l (mem_cons_of_mem level member)
          rw [← kept l member] at old
          exact old)
        (by
          intro l member o queued
          obtain ⟨free, unique⟩ := apart l (mem_cons_of_mem level member) o (kept l member ▸ queued)
          refine ⟨free, fun l' member' queued' => ?_⟩
          exact unique l' (mem_cons_of_mem level member') (kept l' member' ▸ queued'))
        (fun l member => apart' l (mem_cons_of_mem level member))
    refine ⟨slots', levelSlots', orderFree', levelFree', ?_, orders'', levels'', capacity'.trans capacity,
      levelCapacity'.trans levelCapacity, ?_⟩
    · have read' : ((b.setLadder side rest).levelSlots level).orders = b.queue level := rfl
      simp only [clearLadder, read', cleared, freeLevel, Option.bind_eq_bind, Option.bind_some, Option.pure_def]
      rw [show (b.setLadder side rest).levelFree.push level = some levelFree from pushed]
      simp only [Option.bind_some, rest']
      simp [setLadder]
    · intro l
      rw [queues']
      by_cases member : l ∈ rest
      · simp [member]
      · have shown := queueOf l
        simp only [member, if_false, mem_cons, or_false]
        exact shown

theorem Linked.of_empty (ladders : ∀ s, b.ladders s = []) (queues : ∀ l, b.queue l = [])
    (orderMap_ok : b.orderMap.Ok) (orderMap : ∀ id, b.orderMap.content id = none)
    (levelMap_ok : ∀ s, (b.levelMap s).Ok) (levelMap : ∀ s p, (b.levelMap s).content p = none)
    (orders : b.orderFree.Tracks fun _ => False) (levels : b.levelFree.Tracks fun _ => False) : Linked none none b where
  sorted := by simp [ladders]
  side_eq := by simp [ladders]
  queue_ne_nil := by simp [ladders]
  on_ladder := by simp [queues]
  queue_nodup := by simp [queues]
  back := by simp [queues]
  unqueued := by simp
  orderMap_ok := orderMap_ok
  orderMap_iff := by simp [orderMap, Live, Queued, queues]
  levelMap_ok := levelMap_ok
  levelMap_iff := by simp [levelMap, ladders]
  orders_tracked := orders.congr (by simp [Live, Queued, queues])
  levels_tracked := levels.congr (by simp [OnLadder, ladders])

/-- One side of `clear`, told by what the pools still have to track afterwards. -/
theorem clearSide_spec (side : Side) (RestOrders RestLevels : Nat → Prop)
    (orders : b.orderFree.Tracks fun o => (∃ l ∈ b.ladders side, o ∈ b.queue l) ∨ RestOrders o)
    (levels : b.levelFree.Tracks fun l => l ∈ b.ladders side ∨ RestLevels l) (nodup : (b.ladders side).Nodup)
    (queues : ∀ l, (b.queue l).Nodup)
    (apart : ∀ l ∈ b.ladders side, ∀ o ∈ b.queue l, ¬ RestOrders o ∧ ∀ l' ∈ b.ladders side, o ∈ b.queue l' → l' = l)
    (apart' : ∀ l ∈ b.ladders side, ¬ RestLevels l) :
    ∃ b', b.clearSide side = some b' ∧ b'.orderFree.Tracks RestOrders ∧ b'.levelFree.Tracks RestLevels ∧
      b'.orderFree.capacity = b.orderFree.capacity ∧ b'.levelFree.capacity = b.levelFree.capacity ∧
      (∀ l, b'.queue l = if l ∈ b.ladders side then [] else b.queue l) ∧
      b'.ladders = update b.ladders side [] ∧
      b'.levelMap = update b.levelMap side (b.levelMap side).clear ∧ b'.orderMap = b.orderMap := by
  obtain ⟨slots, levelSlots, orderFree, levelFree, cleared, orders', levels', capacity, levelCapacity, emptied⟩ :=
    clearLadder_spec side rfl orders levels nodup (fun l _ => queues l) apart apart'
  have done : b.clearSide side = some { b with
      orderSlots := slots, levelSlots := levelSlots, orderFree := orderFree, levelFree := levelFree
      ladders := update b.ladders side []
      levelMap := update b.levelMap side (b.levelMap side).clear } := by
    simp [clearSide, cleared, setLevelMap]
  exact ⟨_, done, orders', levels', capacity, levelCapacity, emptied, rfl, rfl, rfl⟩

theorem Linked.clear (linked : Linked none none b) :
    ∃ b', b.clear = some b' ∧ Linked none none b' ∧ (∀ s, b'.levels s = []) ∧
      b'.orderFree.capacity = b.orderFree.capacity ∧ b'.levelFree.capacity = b.levelFree.capacity := by
  have onSide : ∀ l o, o ∈ b.queue l → l ∈ b.ladders .kBid ∨ l ∈ b.ladders .kAsk := by
    intro l o queued
    have member := linked.on_ladder l o queued
    cases side : b.levelSide l
    · exact .inl (side ▸ member)
    · exact .inr (side ▸ member)
  have bidOnly : ∀ l ∈ b.ladders .kBid, l ∉ b.ladders .kAsk := fun l member => linked.not_on_opposite member
  -- The bids are cleared while the asks are still tracked.
  obtain ⟨b₁, first, orders₁, levels₁, capacity₁, levelCapacity₁, queue₁, ladders₁, levelMap₁, orderMap₁⟩ :=
    clearSide_spec (b := b) .kBid (fun o => ∃ l ∈ b.ladders .kAsk, o ∈ b.queue l) (fun l => l ∈ b.ladders .kAsk)
      (linked.orders_tracked.congr (by
        intro o
        simp only [Live, Queued, reduceCtorEq, or_false]
        constructor
        · intro used
          rcases used with ⟨l, _, queued⟩ | ⟨l, _, queued⟩
          · exact ⟨l, queued⟩
          · exact ⟨l, queued⟩
        · rintro ⟨l, queued⟩
          exact (onSide l o queued).imp (fun member => ⟨l, member, queued⟩) (fun member => ⟨l, member, queued⟩)))
      (linked.levels_tracked.congr (by
        intro l
        simp only [OnLadder]
        constructor
        · intro used
          exact used.elim (fun member => ⟨_, member⟩) (fun member => ⟨_, member⟩)
        · rintro ⟨s, member⟩
          cases s
          · exact .inl member
          · exact .inr member))
      (linked.ladder_nodup _) linked.queue_nodup
      (by
        intro l member o queued
        refine ⟨?_, fun l' _ queued' => linked.queue_unique queued queued'⟩
        rintro ⟨l', member', queued'⟩
        have same := linked.queue_unique queued queued'
        subst same
        exact bidOnly _ member member')
      bidOnly
  have asks₁ : b₁.ladders .kAsk = b.ladders .kAsk := by rw [ladders₁]; rfl
  have keptQueue : ∀ l ∈ b.ladders .kAsk, b₁.queue l = b.queue l := by
    intro l member
    rw [queue₁, if_neg fun bid => bidOnly l bid member]
  obtain ⟨b₂, second, orders₂, levels₂, capacity₂, levelCapacity₂, queue₂, ladders₂, levelMap₂, orderMap₂⟩ :=
    clearSide_spec (b := b₁) .kAsk (fun _ => False) (fun _ => False)
      (orders₁.congr (by
        intro o
        rw [asks₁, or_false]
        exact exists_congr fun l => and_congr_right fun member => by rw [keptQueue l member]))
      (levels₁.congr (by simp [asks₁])) (asks₁ ▸ linked.ladder_nodup _)
      (by
        intro l
        rw [queue₁]
        split
        · exact nodup_nil
        · exact linked.queue_nodup l)
      (by
        intro l member o queued
        rw [asks₁] at member ⊢
        refine ⟨not_false, fun l' member' queued' => ?_⟩
        rw [keptQueue l member] at queued
        rw [keptQueue l' member'] at queued'
        exact linked.queue_unique queued queued')
      (fun _ _ => not_false)
  have noLadder : ∀ s, b₂.ladders s = [] := by
    intro s
    rw [ladders₂, ladders₁]
    cases s <;> rfl
  have noQueue : ∀ l, b₂.queue l = [] := by
    intro l
    rw [queue₂, asks₁]
    split
    · rfl
    · rename_i notAsk
      rw [queue₁]
      split
      · rfl
      · rename_i notBid
        apply eq_nil_iff_forall_not_mem.mpr
        intro o queued
        exact (onSide l o queued).elim notBid notAsk
  have maps : ∀ s, b₂.levelMap s = (b.levelMap s).clear := by
    intro s
    rw [levelMap₂, levelMap₁]
    cases s <;> rfl
  refine ⟨{ b₂ with orderMap := b₂.orderMap.clear }, ?_, ?_, ?_, capacity₂.trans capacity₁,
    levelCapacity₂.trans levelCapacity₁⟩
  · simp [OrderBook.clear, first, second]
  · refine Linked.of_empty (b := { b₂ with orderMap := b₂.orderMap.clear }) noLadder noQueue ?_ ?_ ?_ ?_ orders₂ levels₂
    · show HashMap.Ok (Table.clear b₂.orderMap)
      rw [orderMap₂, orderMap₁]
      exact linked.orderMap_ok.clear
    · exact Table.fresh_content _ _
    · intro s
      show HashMap.Ok (b₂.levelMap s)
      rw [maps]
      exact (linked.levelMap_ok s).clear
    · intro s p
      show Table.content (b₂.levelMap s) p = none
      rw [maps]
      exact Table.fresh_content _ _ _
  · intro s
    show (b₂.ladders s).map _ = []
    rw [noLadder]
    rfl

/-! ### Every sequence of operations -/

theorem bind_linked {params : Params} (bound : bind params = some b) :
    Linked none none b ∧ (∀ s, b.levels s = []) ∧ b.orderFree.capacity = params.maxOrders ∧
      b.levelFree.capacity = params.maxLevels := by
  simp only [bind, Option.bind_eq_bind, Option.bind_eq_some_iff, Option.pure_def] at bound
  obtain ⟨_, _, _, _, _, _, _, _, _, _, orderFree, orders, levelFree, levels, orderMap, created, bidMap, bids,
    askMap, asks, same⟩ := bound
  cases same
  obtain ⟨orderOk, orderFresh⟩ := HashMap.create_ok created
  obtain ⟨bidOk, bidFresh⟩ := HashMap.create_ok bids
  obtain ⟨askOk, askFresh⟩ := HashMap.create_ok asks
  obtain ⟨ordersTracked, orderCapacity⟩ := IndexFreeStack.create_tracks orders
  obtain ⟨levelsTracked, levelCapacity⟩ := IndexFreeStack.create_tracks levels
  refine ⟨?_, fun _ => rfl, orderCapacity, levelCapacity⟩
  refine Linked.of_empty (fun _ => rfl) (fun _ => rfl) orderOk ?_ ?_ ?_ ordersTracked levelsTracked
  · rw [orderFresh]
    exact Table.fresh_content _ _
  · intro s
    cases s
    · exact bidOk
    · exact askOk
  · intro s p
    cases s
    · show bidMap.content p = none
      rw [bidFresh]
      exact Table.fresh_content _ _ _
    · show askMap.content p = none
      rw [askFresh]
      exact Table.fresh_content _ _ _

/-- A book between two operations. -/
structure Sound (params : Params) (b : OrderBook) : Prop where
  linked : Linked none none b
  positive : ∀ s, PriceTime.Positive (b.levels s)
  orderCapacity : b.orderFree.capacity = params.maxOrders
  levelCapacity : b.levelFree.capacity = params.maxLevels

variable {params : Params}

theorem bind_sound (bound : bind params = some b) : Sound params b := by
  obtain ⟨linked, levels, orderCapacity, levelCapacity⟩ := bind_linked bound
  refine ⟨linked, ?_, orderCapacity, levelCapacity⟩
  intro s p r member
  rw [levels] at member
  cases member

section

variable (sound : Sound params b)
include sound

theorem Sound.same (same : Same b b') : Sound params b' where
  linked := same.linked sound.linked
  positive := by
    intro s
    rw [same.levels]
    exact sound.positive s
  orderCapacity := same.orderCapacity.trans sound.orderCapacity
  levelCapacity := same.levelCapacity.trans sound.levelCapacity

theorem Sound.placed {side : Side} {price : Int} (some_qty : qty ≠ 0)
    (placed : Placed b b' id side price qty) : Sound params b' where
  linked := placed.linked
  positive := by
    intro s
    rcases Side.eq_or_opposite side s with rfl | rfl
    · rw [placed.levels]
      exact (sound.positive _).place (Nat.pos_of_ne_zero some_qty)
    · rw [placed.other]
      exact sound.positive _
  orderCapacity := placed.orderCapacity.trans sound.orderCapacity
  levelCapacity := placed.levelCapacity.trans sound.levelCapacity

theorem Sound.dropped (member : o ∈ b.queue l) (dropped : Dropped b b' l o) : Sound params b' where
  linked := dropped.linked
  positive := by
    intro s
    rw [dropped.levels sound.linked member]
    exact (sound.positive s).amend _ 0
  orderCapacity := dropped.orderCapacity.trans sound.orderCapacity
  levelCapacity := dropped.levelCapacity.trans sound.levelCapacity

theorem Sound.setQty (member : o ∈ b.queue l) (some_qty : qty ≠ 0) (delta : Nat) :
    Sound params (b.setQty l o qty delta) where
  linked := sound.linked.setQty l o qty delta
  positive := by
    intro s
    rw [sound.linked.setQty_levels member some_qty]
    exact (sound.positive s).amend _ qty
  orderCapacity := sound.orderCapacity
  levelCapacity := sound.levelCapacity

end

inductive Op where
  | addOrder (id : Nat) (side : Side) (price : Int) (qty : Nat)
  | cancelOrder (id : Nat)
  | modifyOrder (id newQty : Nat)
  | removeFilledOrder (order : Nat)
  | clear

def apply (b : OrderBook) : Op → Exec OrderBook
  | .addOrder id side price qty => (b.addOrder id side price qty).map Prod.snd
  | .cancelOrder id => (b.cancelOrder id).map Prod.snd
  | .modifyOrder id newQty => (b.modifyOrder id newQty).map Prod.snd
  | .removeFilledOrder order => (b.removeFilledOrder order).map Prod.snd
  | .clear => b.clear

/-- `remove_filled_order` takes a reference to an order of the book. -/
def Allowed (b : OrderBook) : Op → Prop
  | .removeFilledOrder order => b.Queued order
  | _ => True

theorem Sound.apply (sound : Sound params b) {op : Op} (allowed : b.Allowed op) :
    ∃ b', b.apply op = some b' ∧ Sound params b' := by
  have linked := sound.linked
  cases op with
  | addOrder id side price qty =>
    rcases linked.addOrder id side price qty with ⟨some_qty, _, b', added, placed⟩ | ⟨_, b', refused, same⟩
    · exact ⟨b', by simp [OrderBook.apply, added], sound.placed some_qty placed⟩
    · exact ⟨b', by simp [OrderBook.apply, refused], sound.same same⟩
  | cancelOrder id =>
    rcases linked.cancelOrder id with ⟨refused, _⟩ | ⟨o, l, b', queued, _, cancelled, dropped⟩
    · exact ⟨b, by simp [OrderBook.apply, refused], sound⟩
    · exact ⟨b', by simp [OrderBook.apply, cancelled], sound.dropped queued dropped.toDropped⟩
  | modifyOrder id newQty =>
    rcases linked.modifyOrder id newQty with refused | ⟨o, l, b', queued, _, _, modified, change⟩
    · exact ⟨b, by simp [OrderBook.apply, refused], sound⟩
    · refine ⟨b', by simp [OrderBook.apply, modified], ?_⟩
      rcases change with ⟨_, dropped⟩ | ⟨some_qty, rfl⟩
      · exact sound.dropped queued dropped
      · exact sound.setQty queued some_qty _
  | removeFilledOrder order =>
    obtain ⟨l, queued⟩ := allowed
    obtain ⟨b', removed, dropped⟩ := linked.removeFilledOrder queued
    exact ⟨b', by simp [OrderBook.apply, removed], sound.dropped queued dropped.toDropped⟩
  | clear =>
    obtain ⟨b', cleared, linked', empty, orderCapacity, levelCapacity⟩ := linked.clear
    refine ⟨b', cleared, linked', ?_, orderCapacity.trans sound.orderCapacity, levelCapacity.trans sound.levelCapacity⟩
    intro s p r member
    rw [empty] at member
    cases member

def run : OrderBook → List Op → Exec OrderBook
  | b, [] => some b
  | b, op :: ops => (b.apply op).bind fun b => b.run ops

def AllowedRun : OrderBook → List Op → Prop
  | _, [] => True
  | b, op :: ops => b.Allowed op ∧ ∀ b', b.apply op = some b' → b'.AllowedRun ops

theorem Sound.run (sound : Sound params b) {ops : List Op} (allowed : b.AllowedRun ops) :
    ∃ b', b.run ops = some b' ∧ Sound params b' := by
  induction ops generalizing b with
  | nil => exact ⟨b, rfl, sound⟩
  | cons op ops ih =>
    obtain ⟨b', applied, sound'⟩ := sound.apply allowed.1
    obtain ⟨b'', rest, final⟩ := ih sound' (allowed.2 b' applied)
    exact ⟨b'', by simp [OrderBook.run, applied, rest], final⟩

/-! ### What the invariant says about the data -/

theorem mem_makers_levels {p : Int} {r : PriceTime.Resting} : (p, r) ∈ PriceTime.makers (b.levels s) ↔
    ∃ l ∈ b.ladders s, ∃ o ∈ b.queue l, b.levelPrice l = p ∧ b.resting o = r := by
  simp only [PriceTime.mem_makers, levels, mem_map]
  constructor
  · rintro ⟨level, ⟨l, member, same⟩, shown, resting⟩
    subst same
    obtain ⟨o, queued, same⟩ := mem_map.mp resting
    exact ⟨l, member, o, queued, shown, same⟩
  · rintro ⟨l, member, o, queued, shown, same⟩
    exact ⟨_, ⟨l, member, rfl⟩, shown, mem_map.mpr ⟨o, queued, same⟩⟩

def ordersInUse (b : OrderBook) : List Nat := (b.bids ++ b.asks).flatMap b.queue

def levelsInUse (b : OrderBook) : List Nat := b.bids ++ b.asks

theorem Linked.levelsInUse_nodup (linked : Linked none none b) : b.levelsInUse.Nodup := by
  refine nodup_append.mpr ⟨linked.ladder_nodup _, linked.ladder_nodup _, ?_⟩
  intro l bid l' ask same
  subst same
  exact linked.not_on_opposite (s := .kBid) bid ask

theorem mem_levelsInUse : l ∈ b.levelsInUse ↔ b.OnLadder l := by
  simp only [levelsInUse, mem_append, OnLadder]
  constructor
  · intro member
    exact member.elim (fun bid => ⟨_, bid⟩) (fun ask => ⟨_, ask⟩)
  · rintro ⟨s, member⟩
    cases s
    · exact .inl member
    · exact .inr member

theorem Linked.mem_ordersInUse (linked : Linked none none b) : o ∈ b.ordersInUse ↔ b.Live none o := by
  simp only [ordersInUse, mem_flatMap, Live, Queued, reduceCtorEq, or_false]
  constructor
  · rintro ⟨l, _, queued⟩
    exact ⟨l, queued⟩
  · rintro ⟨l, queued⟩
    exact ⟨l, mem_levelsInUse.mpr ⟨_, linked.on_ladder l o queued⟩, queued⟩

theorem Linked.ordersInUse_nodup (linked : Linked none none b) : b.ordersInUse.Nodup := by
  refine nodup_flatMap.mpr ⟨fun l _ => linked.queue_nodup l, ?_⟩
  apply linked.levelsInUse_nodup.imp
  intro l l' different o queued queued'
  exact different (linked.queue_unique queued' queued)

structure Consistent (params : Params) (b : OrderBook) : Prop where
  bids_descending : (b.bids.map b.levelPrice).Pairwise (· > ·)
  asks_ascending : (b.asks.map b.levelPrice).Pairwise (· < ·)
  ladder_side : ∀ s, ∀ l ∈ b.ladders s, b.levelSide l = s
  no_empty_level : ∀ l ∈ b.levelsInUse, b.queue l ≠ []
  level_map : ∀ s p l, (b.levelMap s).find p = some (some l) ↔ l ∈ b.ladders s ∧ b.levelPrice l = p
  order_map : ∀ id o, b.orderMap.find id = some (some o) ↔ o ∈ b.ordersInUse ∧ (b.orderSlots o).orderId = id
  queued : ∀ l ∈ b.levelsInUse, ∀ o ∈ b.queue l, (b.orderSlots o).level = some l ∧
    (b.orderSlots o).price = b.levelPrice l ∧ (b.orderSlots o).side = b.levelSide l ∧ 0 < (b.orderSlots o).qty
  order_slots : (b.orderFree.indices ++ b.ordersInUse).Perm (range params.maxOrders)
  level_slots : (b.levelFree.indices ++ b.levelsInUse).Perm (range params.maxLevels)

theorem Sound.consistent (sound : Sound params b) : Consistent params b where
  bids_descending := pairwise_map.mpr (sound.linked.sorted .kBid)
  asks_ascending := pairwise_map.mpr (sound.linked.sorted .kAsk)
  ladder_side := sound.linked.side_eq
  no_empty_level := by
    intro l member
    obtain ⟨s, onLadder⟩ := mem_levelsInUse.mp member
    exact sound.linked.queue_ne_nil s l onLadder (by simp)
  level_map := by
    intro s p l
    rw [(sound.linked.levelMap_ok s).find_eq, Option.some.injEq]
    exact sound.linked.levelMap_iff s p l
  order_map := by
    intro id o
    rw [sound.linked.orderMap_ok.find_eq, Option.some.injEq, sound.linked.mem_ordersInUse]
    exact sound.linked.orderMap_iff id o
  queued := by
    intro l member o queued
    obtain ⟨level, price, side⟩ := sound.linked.back l o queued
    refine ⟨level, price, side, ?_⟩
    exact sound.positive _ _ _ (mem_makers_levels.mpr ⟨l, sound.linked.on_ladder l o queued, o, queued, rfl, rfl⟩)
  order_slots := by
    rw [← sound.orderCapacity]
    exact sound.linked.orders_tracked.perm sound.linked.ordersInUse_nodup fun _ => sound.linked.mem_ordersInUse
  level_slots := by
    rw [← sound.levelCapacity]
    exact sound.linked.levels_tracked.perm sound.linked.levelsInUse_nodup fun _ => mem_levelsInUse

/-- No operation aborts, and after any of them the ladders, queues, maps and pools agree. -/
theorem run_consistent {ops : List Op} (bound : bind params = some b) (allowed : b.AllowedRun ops) :
    ∃ b', b.run ops = some b' ∧ b'.Consistent params := by
  obtain ⟨b', done, sound⟩ := (bind_sound bound).run allowed
  exact ⟨b', done, sound.consistent⟩

/-- A sequence with each operation, ending in a full fill of the order in slot 0. -/
theorem run_consistent_small : ∃ b b', bind ⟨2, 2, 4, 4⟩ = some b ∧
    b.run [.addOrder 7 .kBid 100 5, .removeFilledOrder 0, .addOrder 8 .kAsk 101 5, .modifyOrder 8 3, .cancelOrder 8,
      .clear] = some b' ∧ b'.Consistent ⟨2, 2, 4, 4⟩ := by
  obtain ⟨b, bound, b₁, added, queued⟩ : ∃ b, bind ⟨2, 2, 4, 4⟩ = some b ∧
      ∃ b₁, b.apply (.addOrder 7 .kBid 100 5) = some b₁ ∧ 0 ∈ b₁.queue 0 := by decide
  have allowed : b.AllowedRun [.addOrder 7 .kBid 100 5, .removeFilledOrder 0, .addOrder 8 .kAsk 101 5,
      .modifyOrder 8 3, .cancelOrder 8, .clear] := by
    refine ⟨trivial, fun b₂ added' => ⟨⟨0, ?_⟩, fun _ _ => ⟨trivial, fun _ _ => ⟨trivial, fun _ _ => ⟨trivial,
      fun _ _ => ⟨trivial, fun _ _ => trivial⟩⟩⟩⟩⟩⟩
    rw [Option.mem_unique added' added]
    exact queued
  obtain ⟨b', done, consistent⟩ := run_consistent bound allowed
  exact ⟨b, b', bound, done, consistent⟩

end TickToTrade.Algo.OrderBook
