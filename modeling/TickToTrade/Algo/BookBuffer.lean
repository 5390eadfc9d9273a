import TickToTrade.Algo.OrderBook
import TickToTrade.Sys.Arena

/-! How `OrderBook::bind` divides its buffer. A debug build has a tracker in each free stack. -/

namespace TickToTrade.Ds
open Sys

/-- `alignof(std::uint32_t)`. -/
def kIndexAlign : Nat := 4

def IndexFreeStack.requiredBufferSize (debug : Bool) (capacity : Nat) : Nat :=
    capacity * 4 + if debug then capacity else 0

def IndexFreeStack.createIn (debug : Bool) (buf bytes capacity : Nat) : Option IndexFreeStack :=
  if buf ≠ 0 ∧ buf % kIndexAlign = 0 ∧ requiredBufferSize debug capacity ≤ bytes then create capacity else none

/-- `sizeof(Slot)` for a key and a value of eight bytes. -/
def HashMap.kSlotSize : Nat := 24

/-- `alignof(Slot)` for keys and values of words. -/
def HashMap.kSlotAlign : Nat := 8

def HashMap.createIn {K V : Type} (slotSize buf bytes capacity : Nat) : Option (HashMap K V) :=
  if buf ≠ 0 ∧ buf % kSlotAlign = 0 ∧ capacity * slotSize % 2 ^ 64 ≤ bytes then create capacity else none

end TickToTrade.Ds

namespace TickToTrade.Algo
open Ds Sys List

def Params.Valid (params : Params) : Prop :=
  (params.maxOrders ≠ 0 ∧ params.maxLevels ≠ 0) ∧
  (isPowerOfTwo (params.orderMapCap % 2 ^ 32) = true ∧ 4 ≤ params.orderMapCap) ∧
  (isPowerOfTwo (params.levelMapCap % 2 ^ 32) = true ∧ 4 ≤ params.levelMapCap) ∧
  params.maxOrders ≤ params.orderMapCap ∧ params.maxLevels ≤ params.levelMapCap
  deriving Decidable

namespace OrderBook

/-- `sizeof(Order)` and `sizeof(PriceLevel)`; both are aligned for a pointer. -/
def kOrderSize : Nat := 48

def kLevelSize : Nat := 56

/-- `alignof(std::max_align_t)`. -/
def kMaxAlign : Nat := 16

def requiredBufferSize (debug : Bool) (params : Params) : Nat :=
  (params.maxOrders * kOrderSize + params.maxLevels * kLevelSize + IndexFreeStack.requiredBufferSize debug
    params.maxOrders +
    IndexFreeStack.requiredBufferSize debug params.maxLevels + params.orderMapCap * HashMap.kSlotSize +
    params.levelMapCap * HashMap.kSlotSize + params.levelMapCap * HashMap.kSlotSize + 6 * (kMaxAlign - 1)) % 2 ^ 64

structure Layout where
  orderSlots : Nat
  levelSlots : Nat
  orderFree : Nat
  levelFree : Nat
  orderMap : Nat
  bidMap : Nat
  askMap : Nat

def Layout.regions (layout : Layout) (debug : Bool) (params : Params) : List Region := [
  ⟨layout.orderSlots, params.maxOrders * kOrderSize, kPointerAlign⟩,
  ⟨layout.levelSlots, params.maxLevels * kLevelSize, kPointerAlign⟩,
  ⟨layout.orderFree, IndexFreeStack.requiredBufferSize debug params.maxOrders, kIndexAlign⟩,
  ⟨layout.levelFree, IndexFreeStack.requiredBufferSize debug params.maxLevels, kIndexAlign⟩,
  ⟨layout.orderMap, params.orderMapCap * HashMap.kSlotSize, HashMap.kSlotAlign⟩,
  ⟨layout.bidMap, params.levelMapCap * HashMap.kSlotSize, HashMap.kSlotAlign⟩,
  ⟨layout.askMap, params.levelMapCap * HashMap.kSlotSize, HashMap.kSlotAlign⟩]

/-- `bind` of a book without a buffer. -/
def bindIn (debug : Bool) (buf bytes : Nat) (params : Params) : Option (OrderBook × Layout) := do
  guard params.Valid
  guard (buf ≠ 0 ∧ requiredBufferSize debug params ≤ bytes)
  let arena := Arena.ofBuffer buf bytes
  let (orderSlots, arena) := arena.allocArray params.maxOrders kOrderSize kPointerAlign
  let orderSlots ← orderSlots
  let (levelSlots, arena) := arena.allocArray params.maxLevels kLevelSize kPointerAlign
  let levelSlots ← levelSlots
  let ofsSize := IndexFreeStack.requiredBufferSize debug params.maxOrders
  let (ofsBuf, arena) := arena.alloc ofsSize kIndexAlign
  let ofsBuf ← ofsBuf
  let orderFree ← IndexFreeStack.createIn debug ofsBuf ofsSize params.maxOrders
  let lfsSize := IndexFreeStack.requiredBufferSize debug params.maxLevels
  let (lfsBuf, arena) := arena.alloc lfsSize kIndexAlign
  let lfsBuf ← lfsBuf
  let levelFree ← IndexFreeStack.createIn debug lfsBuf lfsSize params.maxLevels
  let omSize := params.orderMapCap * HashMap.kSlotSize % 2 ^ 64
  let (omBuf, arena) := arena.alloc omSize HashMap.kSlotAlign
  let omBuf ← omBuf
  let orderMap ← HashMap.createIn HashMap.kSlotSize omBuf omSize params.orderMapCap
  let lmSize := params.levelMapCap * HashMap.kSlotSize % 2 ^ 64
  let (bidBuf, arena) := arena.alloc lmSize HashMap.kSlotAlign
  let bidBuf ← bidBuf
  let bidMap ← HashMap.createIn HashMap.kSlotSize bidBuf lmSize params.levelMapCap
  let (askBuf, _) := arena.alloc lmSize HashMap.kSlotAlign
  let askBuf ← askBuf
  let askMap ← HashMap.createIn HashMap.kSlotSize askBuf lmSize params.levelMapCap
  return ({
    orderSlots := fun _ => {}
    levelSlots := fun _ => {}
    orderFree, levelFree, orderMap
    ladders := fun _ => []
    levelMap := Function.update (fun _ => bidMap) .kAsk askMap }, {
    orderSlots, levelSlots, orderFree := ofsBuf, levelFree := lfsBuf, orderMap := omBuf, bidMap := bidBuf
    askMap := askBuf })

theorem createIn_stack (debug : Bool) {buf : Nat} (capacity : Nat) (nonnull : buf ≠ 0) (aligned : 8 ∣ buf) :
    IndexFreeStack.createIn debug buf (IndexFreeStack.requiredBufferSize debug capacity) capacity =
    IndexFreeStack.create capacity := by
  unfold IndexFreeStack.createIn kIndexAlign
  exact if_pos ⟨nonnull, by omega, Nat.le_refl _⟩

theorem createIn_map {K V : Type} {buf : Nat} (slotSize capacity : Nat) (nonnull : buf ≠ 0) (aligned : 8 ∣ buf) :
    HashMap.createIn slotSize buf (capacity * slotSize) capacity = HashMap.create (K := K) (V := V) capacity := by
  unfold HashMap.createIn HashMap.kSlotAlign
  exact if_pos ⟨nonnull, by omega, Nat.mod_le _ _⟩

theorem exists_stack {capacity : Nat} (positive : capacity ≠ 0) (small : capacity < 2 ^ 32) :
    ∃ s, IndexFreeStack.create capacity = some s := by
  have valid : IndexFreeStack.isValidCapacity capacity = true := by
    simp only [IndexFreeStack.isValidCapacity, Bool.and_eq_true, decide_eq_true_eq]
    omega
  exact ⟨_, if_pos valid⟩

theorem exists_map (K V : Type) {capacity : Nat} (small : capacity < 2 ^ 32)
    (power : isPowerOfTwo (capacity % 2 ^ 32) = true ∧ 4 ≤ capacity) : ∃ m :
    HashMap K V, HashMap.create capacity = some m := by
  have valid : HashMap.isValidCapacity capacity = true := by
    simp only [HashMap.isValidCapacity, Bool.and_eq_true, decide_eq_true_eq]
    exact ⟨⟨power.2, power.1⟩, by omega⟩
  exact ⟨_, if_pos valid⟩

def requests (debug : Bool) (params : Params) : List (Nat × Nat) := [
  (params.maxOrders * kOrderSize, kPointerAlign), (params.maxLevels * kLevelSize, kPointerAlign),
  (IndexFreeStack.requiredBufferSize debug params.maxOrders, kIndexAlign),
  (IndexFreeStack.requiredBufferSize debug params.maxLevels, kIndexAlign),
  (params.orderMapCap * HashMap.kSlotSize, HashMap.kSlotAlign),
    (params.levelMapCap * HashMap.kSlotSize, HashMap.kSlotAlign),
  (params.levelMapCap * HashMap.kSlotSize, HashMap.kSlotAlign)]

def Small (params : Params) : Prop :=
  params.maxOrders < 2 ^ 32 ∧ params.maxLevels < 2 ^ 32 ∧ params.orderMapCap < 2 ^ 32 ∧ params.levelMapCap < 2 ^ 32

theorem room_ofBuffer {debug : Bool} {params : Params} {buf bytes : Nat} (small : Small params)
    (inside : buf + bytes < 2 ^ 64)
    (enough : requiredBufferSize debug params ≤ bytes) : (Arena.ofBuffer buf bytes).Room (requests debug params) := by
  obtain ⟨orders, levels, orderCap, levelCap⟩ := small
  refine ⟨inside, ?_⟩
  cases debug <;>
  · simp only [requiredBufferSize, IndexFreeStack.requiredBufferSize, kOrderSize, kLevelSize, HashMap.kSlotSize,
      kMaxAlign, if_true, if_false, Bool.false_eq_true] at enough
    rw [Nat.mod_eq_of_lt (by omega)] at enough
    simp only [requests, Arena.ofBuffer, IndexFreeStack.requiredBufferSize, kOrderSize, kLevelSize, HashMap.kSlotSize,
      HashMap.kSlotAlign, kIndexAlign, kPointerAlign, map_cons, map_nil, sum_cons, sum_nil,
        if_true, if_false,
      Bool.false_eq_true]
    omega

/-- Binding to a buffer of the required size succeeds, and the regions are apart, inside the buffer and aligned. -/
theorem bindIn_carves (debug : Bool) {params : Params} {buf bytes : Nat} (small : Small params) (valid : params.Valid)
    (nonnull : buf ≠ 0) (inside : buf + bytes < 2 ^ 64) (enough : requiredBufferSize debug params ≤ bytes) :
    ∃ b layout, bindIn debug buf bytes params = some (b, layout) ∧ bind params = some b ∧
      (layout.regions debug params).Pairwise Region.Disjoint ∧
      ∀ r ∈ layout.regions debug params, buf ≤ r.addr ∧ r.addr + r.size ≤ buf + bytes ∧ r.align ∣ r.addr := by
  have room := room_ofBuffer small inside enough
  obtain ⟨orders, levels, orderCap, levelCap⟩ := small
  obtain ⟨some_slots, orderPower, levelPower, ordersFit, levelsFit⟩ := id valid
  have power : max kPointerAlign kPointerAlign = 2 ^ 3 := rfl
  have power' : max kIndexAlign kPointerAlign = 2 ^ 3 := rfl
  have bound : 3 < 64 := by omega
  have mod₁ : params.maxOrders * kOrderSize % 2 ^ 64 = params.maxOrders * kOrderSize :=
    Nat.mod_eq_of_lt (by unfold kOrderSize; omega)
  have mod₂ : params.maxLevels * kLevelSize % 2 ^ 64 = params.maxLevels * kLevelSize :=
    Nat.mod_eq_of_lt (by unfold kLevelSize; omega)
  have mod₅ : params.orderMapCap * HashMap.kSlotSize % 2 ^ 64 = params.orderMapCap * HashMap.kSlotSize :=
    Nat.mod_eq_of_lt (by unfold HashMap.kSlotSize; omega)
  have mod₆ : params.levelMapCap * HashMap.kSlotSize % 2 ^ 64 = params.levelMapCap * HashMap.kSlotSize :=
    Nat.mod_eq_of_lt (by unfold HashMap.kSlotSize; omega)
  -- Each region begins behind the one before it.
  obtain ⟨p₁, got₁, after₁, aligned₁, -, room⟩ := room.alloc power bound
  obtain ⟨p₂, got₂, after₂, aligned₂, -, room⟩ := room.alloc power bound
  obtain ⟨p₃, got₃, after₃, aligned₃, -, room⟩ := room.alloc power' bound
  obtain ⟨p₄, got₄, after₄, aligned₄, -, room⟩ := room.alloc power' bound
  obtain ⟨p₅, got₅, after₅, aligned₅, -, room⟩ := room.alloc power bound
  obtain ⟨p₆, got₆, after₆, aligned₆, -, room⟩ := room.alloc power bound
  obtain ⟨p₇, got₇, after₇, aligned₇, end₇, -⟩ := room.alloc power bound
  dsimp only [Arena.ofBuffer] at after₁ after₂ after₃ after₄ after₅ after₆ after₇ end₇
  have made₃ := createIn_stack debug params.maxOrders (show p₃ ≠ 0 by omega) aligned₃
  have made₄ := createIn_stack debug params.maxLevels (show p₄ ≠ 0 by omega) aligned₄
  have made₅ := createIn_map (K := Nat) (V := Nat) HashMap.kSlotSize params.orderMapCap (show p₅ ≠ 0 by omega) aligned₅
  have made₆ := createIn_map (K := Int) (V := Nat) HashMap.kSlotSize params.levelMapCap (show p₆ ≠ 0 by omega) aligned₆
  have made₇ := createIn_map (K := Int) (V := Nat) HashMap.kSlotSize params.levelMapCap (show p₇ ≠ 0 by omega) aligned₇
  obtain ⟨orderFree, orderFree_eq⟩ := exists_stack some_slots.1 orders
  obtain ⟨levelFree, levelFree_eq⟩ := exists_stack some_slots.2 levels
  obtain ⟨orderMap, orderMap_eq⟩ := exists_map Nat Nat orderCap orderPower
  obtain ⟨levelMap, levelMap_eq⟩ := exists_map Int Nat levelCap levelPower
  refine ⟨?book, ⟨p₁, p₂, p₃, p₄, p₅, p₆, p₇⟩, ?carved, ?bound, ?apart, ?within⟩
  case carved =>
    simp only [bindIn, guard, valid, nonnull, enough, ne_eq, not_false_eq_true, and_self, if_true, Arena.allocArray,
      mod₁, mod₂, mod₅, mod₆,
      got₁, got₂, got₃, got₄, got₅, got₆, got₇, made₃, made₄, made₅, made₆, made₇, orderFree_eq, levelFree_eq,
        orderMap_eq, levelMap_eq,
      Option.bind_eq_bind, Option.bind_some, Option.pure_def]
    rfl
  case bound =>
    simp only [bind, guard, some_slots, orderPower, levelPower, ordersFit, levelsFit, orderFree_eq, levelFree_eq,
      orderMap_eq, levelMap_eq,
      ne_eq, not_false_eq_true, and_self, if_true, Option.bind_eq_bind, Option.bind_some, Option.pure_def]
    congr 2
    funext side
    cases side <;> rfl
  case apart =>
    simp only [Layout.regions, pairwise_cons, mem_cons, not_mem_nil, or_false, forall_eq_or_imp,
      forall_eq, IsEmpty.forall_iff, implies_true, List.Pairwise.nil, and_true, Region.Disjoint]
    omega
  case within =>
    simp only [Layout.regions, mem_cons, not_mem_nil, or_false, forall_eq_or_imp, forall_eq, kPointerAlign,
      kIndexAlign, HashMap.kSlotAlign]
    omega

theorem bindIn_carves_misaligned :
    ∃ b layout, bindIn true 3 606 ⟨2, 2, 4, 4⟩ = some (b, layout) ∧ bind ⟨2, 2, 4, 4⟩ = some b ∧
      (layout.regions true ⟨2, 2, 4, 4⟩).Pairwise Region.Disjoint ∧
      ∀ r ∈ layout.regions true ⟨2, 2, 4, 4⟩, 3 ≤ r.addr ∧ r.addr + r.size ≤ 3 + 606 ∧ r.align ∣ r.addr :=
  bindIn_carves true ⟨by decide, by decide, by decide, by decide⟩ (by decide) (by decide) (by decide) (by decide)

end OrderBook

end TickToTrade.Algo
