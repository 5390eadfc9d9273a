import TickToTrade.Algo.BookRoom
import TickToTrade.Exchange.Runs

/-!
Runs in which one session stacks orders of one unit at one price: none of them trades, so every map
only grows and the book ends with a single long queue.
-/

namespace TickToTrade.Exchange
open Algo Ds Probing PriceTime ExchangeCore List Option Function

variable {maxSymbols : Nat} {core core' : ExchangeCore maxSymbols} {sessionId : UInt16} {side : Side} {price : Int}
  {bound k : Nat}

def unitOrder (side : Side) (price : Int) (id : Nat) : NewOrder :=
  { clientOrderId := id, symbolId := 1, side, price, qty := 1 }

def stackOps (sessionId : UInt16) (side : Side) (price : Int) (k : Nat) : List Op :=
  (range k).map fun j => .submit sessionId (unitOrder side price (j + 1))

theorem stackOps_succ : stackOps sessionId side price (k + 1) =
    stackOps sessionId side price k ++ [.submit sessionId (unitOrder side price (k + 1))] := by
  simp [stackOps, range_succ]

def stack (price : Int) : Nat → List Level
  | 0 => []
  | k + 1 => [⟨price, (range (k + 1)).map fun j => ⟨j + 1, 1⟩⟩]

theorem mem_makers_stack {p : Int} {r : Resting} : (p, r) ∈ makers (stack price k) ↔ p = price ∧
    ∃ j < k, r = ⟨j + 1, 1⟩ := by
  cases k with
  | zero => simp [stack, makers]
  | succ k =>
    simp only [stack, makers, flatMap_cons, flatMap_nil, append_nil, List.map_map, List.mem_map,
      mem_range, comp_apply, Prod.mk.injEq]
    constructor
    · rintro ⟨j, lower, shown, same⟩
      exact ⟨shown.symm, j, lower, same.symm⟩
    · rintro ⟨shown, j, lower, same⟩
      exact ⟨j, lower, shown.symm, same.symm⟩

theorem place_stack (side : Side) : place side price ⟨k + 1, 1⟩ (stack price k) = stack price (k + 1) := by
  cases k with
  | zero => rfl
  | succ k => simp [stack, place, range_succ]

structure Stacked (sessionId : UInt16) (side : Side) (price : Int) (bound k : Nat)
    (core : ExchangeCore maxSymbols) : Prop where
  registered : 0 < maxSymbols ∧ (core.symbols 0).active = true
  drained : core.events = []
  connected : core.activeSessions sessionId = true
  sound : ∃ params, OrderBook.Sound params (core.bookOf 0)
  own : (core.bookOf 0).levels side = stack price k
  opposite : (core.bookOf 0).levels side.opposite = []
  spare : OrderBook.Spare (bound - k) (core.bookOf 0) side price
  next : core.nextExchangeId = k + 1
  seen : Table.Growing DefaultHash.hash (makeCompositeKey sessionId) bound k core.seenOrders
  seenLoad : core.seenOrders.maxLoad = 11468
  ids : Table.Growing DefaultHash.hash (makeCompositeKey sessionId) bound k core.idMap
  idLoad : core.idMap.maxLoad = 716
  reverses : Table.Growing DefaultHash.hash id bound k core.reverseIdMap
  reverseLoad : core.reverseIdMap.maxLoad = 716

section

variable (stacked : Stacked sessionId side price bound k core)
include stacked

theorem Stacked.unused : isLive (core.bookOf 0).levels (k + 1) = false := by
  rw [Bool.eq_false_iff]
  intro live
  obtain ⟨s, p, q, member⟩ := isLive_iff.mp live
  rcases Side.eq_or_opposite side s with rfl | rfl
  · rw [stacked.own] at member
    obtain ⟨_, j, lower, same⟩ := mem_makers_stack.mp member
    have equal := congrArg Resting.id same
    simp only at equal
    omega
  · rw [stacked.opposite] at member
    cases member

theorem Stacked.engine (below : k < bound) :
    ∃ params engine, (core.symbols 0).engine.submitOrder (k + 1) side price 1 = some (⟨[], 1, true⟩, engine) ∧
      OrderBook.Sound params engine.book ∧ OrderBook.Spare (bound - (k + 1)) engine.book side price ∧
      engine.book.levels side = stack price (k + 1) ∧ engine.book.levels side.opposite = [] := by
  obtain ⟨params, sound⟩ := stacked.sound
  have apart : bestCrosses side price ((core.bookOf 0).levels side.opposite) = false := by
    rw [stacked.opposite]
    rfl
  have spare := stacked.spare
  rw [show bound - k = bound - (k + 1) + 1 by omega] at spare
  obtain ⟨engine, done, sound', spare', own, opposite⟩ :=
    MatchingEngine.submitOrder_quiet sound Nat.one_pos stacked.unused apart spare
  refine ⟨params, engine, done, sound', spare', ?_, opposite.trans stacked.opposite⟩
  rw [own, show (core.symbols 0).engine.book.levels side = stack price k from stacked.own, place_stack]

theorem Stacked.submit (below : k < bound) (few : bound ≤ 11468) :
    ∃ core', core.submitOrder sessionId (unitOrder side price (k + 1)) = some core' ∧
      Stacked sessionId side price bound (k + 1) core'.drainEvents.2 := by
  have bounded : ∀ c, c ≤ bound → c ≤ kMaxClientOrderId := by
    intro c upTo
    unfold kMaxClientOrderId
    omega
  have distinct : ∀ c, k + 1 < c → c ≤ bound → makeCompositeKey sessionId c ≠ makeCompositeKey sessionId (k + 1) := by
    intro c later upTo same
    have equal := (makeCompositeKey_inj (bounded c upTo) (bounded (k + 1) below) same).2
    omega
  have others : ∀ c, k + 1 < c → c ≤ bound → id c ≠ id (k + 1) := by
    intro c later _ same
    simp only [id_eq] at same
    omega
  obtain ⟨seenFlag, seen, seenInserted, seen', seenLimit, seenTaken⟩ := stacked.seen.insert distinct below true
  have seenRoom := seenTaken (by rw [stacked.seenLoad]; omega)
  subst seenRoom
  obtain ⟨idFlag, idMap, idInserted, ids', idLimit, _⟩ := stacked.ids.insert distinct below ⟨k + 1, side, 1⟩
  obtain ⟨reverseFlag, reverseIdMap, reverseInserted, reverses', reverseLimit, _⟩ :=
    stacked.reverses.insert others below ⟨sessionId, k + 1, 1, 0⟩
  obtain ⟨params, engine, done, sound', spare', own, opposite⟩ := stacked.engine below
  have unseen := stacked.seen.new (k + 1) (by omega) below
  have known : core.symbolIndex 1 = some 0 := by
    have positive : ¬ maxSymbols < 1 := by
      have := stacked.registered.1
      omega
    simp [symbolIndex, stacked.registered.2, positive]
  have small : ¬ kMaxClientOrderId < k + 1 := by
    have := bounded (k + 1) below
    omega
  have slots : ∀ i, ((core.setEngine 0 engine).symbols i).active = (core.symbols i).active := by
    intro i
    by_cases here : i = 0
    · subst here
      simp [setEngine]
    · simp [setEngine, here]
  refine ⟨{ core.setEngine 0 engine with
    seenOrders := seen, nextExchangeId := (k + 1 + 1) % 2 ^ 64, idMap, reverseIdMap
    events := [acceptedEvent sessionId (unitOrder side price (k + 1)) (k + 1)] }, ?_, ?_⟩
  · unfold submitOrder submitWith
    have reverseInserted' : Table.insert DefaultHash.hash core.reverseIdMap (k + 1) ⟨sessionId, k + 1, 1, 0⟩ =
      some (reverseFlag, reverseIdMap) := reverseInserted
    simp [unitOrder, small, known, FixedHashMap.find, stacked.seen.wellFormed.find_eq, unseen, FixedHashMap.insert,
      seenInserted, takeExchangeId, stacked.next, done, emit, setEngine, stacked.drained, kMaxEvents, emitFills,
      insertMappings, idInserted, reverseInserted', acceptedEvent]
  · exact {
      registered := ⟨stacked.registered.1, (slots 0).trans stacked.registered.2⟩
      drained := rfl
      connected := stacked.connected
      sound := ⟨params, by simpa [drainEvents, bookOf, setEngine] using sound'⟩
      own := by simpa [drainEvents, bookOf, setEngine] using own
      opposite := by simpa [drainEvents, bookOf, setEngine] using opposite
      spare := by simpa [drainEvents, bookOf, setEngine] using spare'
      next := by
        show (k + 1 + 1) % 2 ^ 64 = k + 1 + 1
        omega
      seen := seen'
      seenLoad := seenLimit.trans stacked.seenLoad
      ids := ids'
      idLoad := idLimit.trans stacked.idLoad
      reverses := reverses'
      reverseLoad := reverseLimit.trans stacked.reverseLoad }

end

/-! ### The start of a run -/

theorem registerAll_default : ∃ core : ExchangeCore 1, registerAll [(1, {})] {} = some core := by
  obtain ⟨b, bound⟩ : ∃ b, OrderBook.bind {} = some b := isSome_iff_exists.mp (by decide)
  simp [registerAll, registerSymbol, MatchingEngine.create, bound]

theorem stacked_start {core : ExchangeCore 1} (registered : registerAll [(1, {})] {} = some core) (few : bound ≤ 65536)
    (side : Side) (price : Int) :
    ∃ core', core.onClientConnect = some (1, core') ∧ Stacked 1 side price bound 0 core' := by
  obtain ⟨b, book⟩ : ∃ b, OrderBook.bind {} = some b := isSome_iff_exists.mp (by decide)
  simp only [registerAll, registerSymbol, MatchingEngine.create, book, bind_eq_bind, bind_some,
    Option.pure_def] at registered
  rw [if_neg (by decide), bind_some, some.injEq] at registered
  subst registered
  have empty := (OrderBook.bind_linked book).2.1
  refine ⟨{
    symbols := update (fun _ => {}) 0 { engine := ⟨b⟩, active := true }
    nextSessionId := 2
    activeSessions := update (fun _ => false) 1 true }, ?_, ?_⟩
  · show findSession (65534 + 1) _ = _
    unfold findSession
    dsimp only
    rw [if_neg (by decide), if_neg (by decide)]
    rfl
  · exact {
      registered := ⟨by decide, by simp⟩
      drained := rfl
      connected := by simp
      sound := ⟨{}, by simpa [bookOf] using OrderBook.bind_sound book⟩
      own := by simpa [bookOf, stack] using empty side
      opposite := by simpa [bookOf] using empty side.opposite
      spare := by simpa [bookOf] using OrderBook.bind_spare book few (by simp; omega) side price
      next := rfl
      seen := ⟨Table.fresh_wellFormed (p := 14) (by decide), Nat.le_refl _, fun _ _ _ => Table.fresh_content _ _ _⟩
      seenLoad := rfl
      ids := ⟨Table.fresh_wellFormed (p := 10) (by decide), Nat.le_refl _, fun _ _ _ => Table.fresh_content _ _ _⟩
      idLoad := rfl
      reverses := ⟨Table.fresh_wellFormed (p := 10) (by decide), Nat.le_refl _, fun _ _ _ => Table.fresh_content _ _ _⟩
      reverseLoad := rfl }

variable {a : Audited maxSymbols}

theorem step_eq {op : Op} (applied : a.core.apply op = some core') :
    ∃ a', a.step op = some a' ∧ a'.core = core'.drainEvents.2 ∧
      a'.view = core'.events.foldl (hear op.qty) (forget op a.view) := by
  unfold Audited.step
  simp only [applied, bind_eq_bind, bind_some, Option.pure_def]
  exact ⟨_, rfl, rfl, rfl⟩

theorem Stacked.run (stacked : Stacked sessionId side price bound 0 a.core) (few : bound ≤ 11468)
    (upTo : k ≤ bound) : ∃ a', a.run (stackOps sessionId side price k) = some a' ∧
      Stacked sessionId side price bound k a'.core := by
  induction k with
  | zero => exact ⟨a, rfl, stacked⟩
  | succ k ih =>
    obtain ⟨a₁, ran, stacked₁⟩ := ih (by omega)
    obtain ⟨core', submitted, stacked'⟩ := stacked₁.submit upTo few
    have applied : a₁.core.apply (.submit sessionId (unitOrder side price (k + 1))) = some core' := submitted
    obtain ⟨a', stepped, same, _⟩ := step_eq applied
    refine ⟨a', ?_, same ▸ stacked'⟩
    rw [stackOps_succ]
    exact Transition.run_append ran (Transition.run_cons stepped rfl)

theorem Stacked.drain (stacked : Stacked sessionId side price bound k core) :
    Stacked sessionId side price bound k core.drainEvents.2 :=
  { stacked with drained := rfl }

theorem run_stacked (side : Side) (price : Int) (few : bound ≤ 11468) (upTo : k ≤ bound) :
    ∃ (core : ExchangeCore 1) (a₁ a : Audited 1), registerAll [(1, {})] {} = some core ∧
      ({ core } : Audited 1).step .connect = some a₁ ∧ Stacked 1 side price bound 0 a₁.core ∧
      Audited.run (.connect :: stackOps 1 side price k) { core } = some a ∧ Stacked 1 side price bound k a.core := by
  obtain ⟨core, registered⟩ := registerAll_default
  obtain ⟨core₁, connected, stacked⟩ := stacked_start registered (show bound ≤ 65536 by omega) side price
  have applied : ({ core } : Audited 1).core.apply .connect = some core₁ := by simp [ExchangeCore.apply, connected]
  obtain ⟨a₁, stepped, same, _⟩ := step_eq applied
  have stacked₁ : Stacked 1 side price bound 0 a₁.core := by
    rw [same]
    exact stacked.drain
  obtain ⟨a, ran, stacked'⟩ := stacked₁.run few upTo
  exact ⟨core, a₁, a, registered, stepped, stacked₁, Transition.run_cons stepped ran, stacked'⟩

end TickToTrade.Exchange
