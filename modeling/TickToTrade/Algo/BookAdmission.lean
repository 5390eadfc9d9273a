import TickToTrade.Algo.BookInvariant

/-!
When `add_order` succeeds. The pools count what is in use, but the maps count their tombstones as well,
so a map may refuse a key while the pools have a slot for it.
-/

namespace TickToTrade.Algo.OrderBook
open Ds Probing List Option

variable {params : Params} {b b' : OrderBook} {id qty : Nat} {side : Side} {price : Int}

def HasLevel (b : OrderBook) (side : Side) (price : Int) : Prop := ∃ l ∈ b.ladders side, b.levelPrice l = price
  deriving Decidable

def PoolsAdmit (params : Params) (b : OrderBook) (id : Nat) (side : Side) (price : Int) (qty : Nat) : Prop :=
  0 < qty ∧ (∀ o ∈ b.ordersInUse, (b.orderSlots o).orderId ≠ id) ∧ b.ordersInUse.length < params.maxOrders ∧
    (b.HasLevel side price ∨ b.levelsInUse.length < params.maxLevels)

/-- The maps take the id, and the price where its level has to be opened. -/
def MapsAdmit (b : OrderBook) (id : Nat) (side : Side) (price : Int) : Prop :=
  b.orderMap.Spare DefaultHash.hash id ∧ (b.HasLevel side price ∨ (b.levelMap side).Spare DefaultHash.hash price)
  deriving Decidable

/-! ### The branch marked unreachable -/

def refusesLevel (b : OrderBook) (side : Side) (price : Int) : Exec Bool := do
  match ← (b.levelMap side).find price with
  | some _ => return false
  | none =>
    match b.levelFree.pop with
    | none => return false
    | some (level, _) =>
      let (inserted, _) ← (b.levelMap side).insert price level
      return !inserted

def addRefusesLevel (b : OrderBook) (id : Nat) (side : Side) (price : Int) (qty : Nat) : Exec Bool := do
  if qty = 0 then return false
  if (← b.orderMap.find id).isSome then return false
  match b.allocOrder with
  | none => return false
  | some (order, b) =>
    let (inserted, map) ← b.orderMap.insert id order
    let b := { b with orderMap := map }
    if inserted then b.refusesLevel side price else return false

/-! ### What the code looks at, in terms of the orders and levels in use -/

theorem Linked.absent_iff (linked : Linked none none b) :
    b.orderMap.content id = none ↔ ∀ o ∈ b.ordersInUse, (b.orderSlots o).orderId ≠ id := by
  rw [eq_none_iff_forall_ne_some]
  refine forall_congr' fun o => ?_
  rw [ne_eq, linked.orderMap_iff, linked.mem_ordersInUse, not_and]

theorem Linked.hasLevel_iff (linked : Linked none none b) :
    ((b.levelMap side).content price).isSome = true ↔ b.HasLevel side price := by
  rw [isSome_iff_exists]
  refine exists_congr fun l => ?_
  rw [linked.levelMap_iff]

section

variable (sound : Sound params b)
include sound

theorem Sound.freeOrders_iff : b.orderFree.indices ≠ [] ↔ b.ordersInUse.length < params.maxOrders := by
  have counted := sound.consistent.order_slots.length_eq
  rw [length_append, length_range] at counted
  rw [← length_pos_iff]
  omega

theorem Sound.freeLevels_iff : b.levelFree.indices ≠ [] ↔ b.levelsInUse.length < params.maxLevels := by
  have counted := sound.consistent.level_slots.length_eq
  rw [length_append, length_range] at counted
  rw [← length_pos_iff]
  omega

theorem Sound.levelRoom_iff :
    b.levelRoom side price = true ↔ b.HasLevel side price ∨
      b.levelsInUse.length < params.maxLevels ∧ (b.levelMap side).Spare DefaultHash.hash price := by
  have linked := sound.linked
  rw [levelRoom, Bool.or_eq_true, linked.hasLevel_iff, Bool.and_eq_true, Bool.not_eq_true',
    isEmpty_eq_false_iff, sound.freeLevels_iff]
  by_cases there : b.HasLevel side price
  · simp [there]
  · have absent : (b.levelMap side).content price = none := by
      rwa [← linked.hasLevel_iff, not_isSome_iff_eq_none] at there
    simp only [there, false_or]
    exact and_congr_right fun _ => (linked.levelMap_ok side).accepts_iff_spare absent

theorem Sound.canAdd_iff : qty ≠ 0 ∧ b.canAdd id side price = true ↔ b.PoolsAdmit params id side price qty ∧
    b.MapsAdmit id side price := by
  have linked := sound.linked
  rw [canAdd, Bool.and_eq_true, Bool.and_eq_true, Bool.not_eq_true', isEmpty_eq_false_iff, sound.freeOrders_iff,
    sound.levelRoom_iff, PoolsAdmit, MapsAdmit, ← linked.absent_iff, ← Nat.pos_iff_ne_zero]
  constructor
  · intro ⟨some_qty, ⟨slot, accepted⟩, level⟩
    have absent := linked.orderMap_ok.content_of_accepts accepted 0
    exact ⟨⟨some_qty, absent, slot, level.imp_right And.left⟩,
      (linked.orderMap_ok.accepts_iff_spare absent).mp accepted, level.imp_right And.right⟩
  · intro ⟨⟨some_qty, absent, slot, level⟩, spare, levelSpare⟩
    refine ⟨some_qty, ⟨slot, (linked.orderMap_ok.accepts_iff_spare absent).mpr spare⟩, ?_⟩
    rcases level with there | level
    · exact .inl there
    · exact levelSpare.imp_right fun spare => ⟨level, spare⟩

theorem Sound.addOrder_iff :
    (∃ b', b.addOrder id side price qty = some (true, b')) ↔
      b.PoolsAdmit params id side price qty ∧ b.MapsAdmit id side price := by
  rw [← sound.canAdd_iff]
  rcases sound.linked.addOrder id side price qty with ⟨some_qty, room, b', added, _⟩ | ⟨refused, b', added, _⟩
  · simp [some_qty, room, added]
  · simp [refused, added]

theorem Sound.refusesLevel
    (room : ¬ b.HasLevel side price → b.levelsInUse.length < params.maxLevels →
      (b.levelMap side).Spare DefaultHash.hash price) : b.refusesLevel side price = some false := by
  have ok := sound.linked.levelMap_ok side
  unfold OrderBook.refusesLevel
  simp only [ok.find_eq, bind_eq_bind, bind_some, Option.pure_def]
  cases found : (b.levelMap side).content price with
  | some l => rfl
  | none =>
    cases popped : b.levelFree.pop with
    | none => rfl
    | some taken =>
      obtain ⟨level, free⟩ := taken
      have slot : b.levelFree.indices ≠ [] := by
        rw [IndexFreeStack.indices_of_pop popped]
        exact cons_ne_nil _ _
      have missing : ¬ b.HasLevel side price := by
        rw [← sound.linked.hasLevel_iff, found]
        exact Bool.false_ne_true
      have accepted := (ok.accepts_iff_spare found).mpr (room missing (sound.freeLevels_iff.mp slot))
      obtain ⟨map, inserted⟩ := ok.insert_accepts price level
      rw [accepted] at inserted
      simp [ok.insert_eq, inserted]

/-- Only a level map that refuses a price for which there is a slot leads to the branch. -/
theorem Sound.addRefusesLevel
    (maps : b.PoolsAdmit params id side price qty → b.MapsAdmit id side price) :
    b.addRefusesLevel id side price qty = some false := by
  have linked := sound.linked
  unfold OrderBook.addRefusesLevel
  simp only [linked.orderMap_ok.find_eq, bind_eq_bind, bind_some, Option.pure_def]
  split
  · rfl
  rename_i some_qty
  split
  · rfl
  rename_i absent
  rw [not_isSome_iff_eq_none] at absent
  cases popped : b.orderFree.pop with
  | none => simp [allocOrder, popped]
  | some taken =>
    obtain ⟨order, free⟩ := taken
    have slot : b.orderFree.indices ≠ [] := by
      rw [IndexFreeStack.indices_of_pop popped]
      exact cons_ne_nil _ _
    have level : b.refusesLevel side price = some false := by
      refine sound.refusesLevel fun missing levelSlot => ?_
      have pools : b.PoolsAdmit params id side price qty :=
        ⟨by omega, linked.absent_iff.mp absent, sound.freeOrders_iff.mp slot, .inr levelSlot⟩
      exact (maps pools).2.resolve_left missing
    obtain ⟨map, result⟩ := linked.orderMap_ok.insert_accepts id order
    simp only [allocOrder, popped, bind_eq_bind, bind_some, Option.pure_def,
      linked.orderMap_ok.insert_eq, result]
    split
    · exact level
    · rfl

end

/-- In every reachable state, an order is admitted exactly when the pools have room for it, and the
branch marked unreachable is not taken, if and only if the maps have room for it too whenever the pools
have. -/
theorem run_addOrder_iff {ops : List Op} (bound : bind params = some b) (allowed : b.AllowedRun ops)
    (ran : b.run ops = some b') (id : Nat) (side : Side) (price : Int) (qty : Nat) :
    (((∃ b'', b'.addOrder id side price qty = some (true, b'')) ↔ b'.PoolsAdmit params id side price qty) ∧
      b'.addRefusesLevel id side price qty = some false) ↔
    (b'.PoolsAdmit params id side price qty → b'.MapsAdmit id side price) := by
  obtain ⟨_, done, sound⟩ := (bind_sound bound).run allowed
  obtain rfl := mem_unique done ran
  rw [sound.addOrder_iff]
  constructor
  · intro ⟨same, _⟩ pools
    exact (same.mpr pools).2
  · intro maps
    exact ⟨⟨And.left, fun pools => ⟨pools, maps pools⟩⟩, sound.addRefusesLevel maps⟩

/-- Two slots of each kind and maps of twice the size, as the defaults have it. -/
def twiceParams : Params := ⟨2, 2, 4, 4⟩

/-- After one order the maps have room for a second at another price. -/
theorem run_addOrder_iff_second :
    ∃ b b', bind twiceParams = some b ∧ b.run [.addOrder 1 .kBid 101 5] = some b' ∧
      b'.addRefusesLevel 2 .kBid 99 5 = some false ∧
      ((∃ b'', b'.addOrder 2 .kBid 99 5 = some (true, b'')) ↔ b'.PoolsAdmit twiceParams 2 .kBid 99 5) := by
  obtain ⟨b, bound, b', ran, maps⟩ : ∃ b, bind twiceParams = some b ∧
      ∃ b', b.run [.addOrder 1 .kBid 101 5] = some b' ∧ b'.MapsAdmit 2 .kBid 99 := by decide +kernel
  have allowed : b.AllowedRun [.addOrder 1 .kBid 101 5] := ⟨trivial, fun _ _ => trivial⟩
  have both := (run_addOrder_iff bound allowed ran 2 .kBid 99 5).mpr fun _ => maps
  exact ⟨b, b', bound, ran, both.2, both.1⟩

/-- Two bids are added and cancelled at two prices. The book is empty and its pools are full, and a bid
at a third price is refused in the branch marked unreachable: the map counts two tombstones. -/
theorem addOrder_refused_by_tombstones :
    ¬ ∀ (params : Params) (b b' : OrderBook) (ops : List Op), 2 * params.maxOrders ≤ params.orderMapCap →
      2 * params.maxLevels ≤ params.levelMapCap → bind params = some b → b.AllowedRun ops → b.run ops = some b' →
      ∀ id side price qty,
        ((∃ b'', b'.addOrder id side price qty = some (true, b'')) ↔ b'.PoolsAdmit params id side price qty) ∧
          b'.addRefusesLevel id side price qty = some false := by
  intro claimed
  obtain ⟨b, bound, b', ran, taken⟩ : ∃ b, bind twiceParams = some b ∧
      ∃ b', b.run [.addOrder 1 .kBid 101 5, .cancelOrder 1, .addOrder 1 .kBid 99 5, .cancelOrder 1] = some b' ∧
        b'.addRefusesLevel 1 .kBid 100 5 = some true := by decide +kernel
  have allowed : b.AllowedRun [.addOrder 1 .kBid 101 5, .cancelOrder 1, .addOrder 1 .kBid 99 5, .cancelOrder 1] :=
    ⟨trivial, fun _ _ => ⟨trivial, fun _ _ => ⟨trivial, fun _ _ => ⟨trivial, fun _ _ => trivial⟩⟩⟩⟩
  have never := (claimed twiceParams b b' _ (by decide) (by decide) bound allowed ran 1 .kBid 100 5).2
  rw [taken] at never
  cases never

end TickToTrade.Algo.OrderBook
