import TickToTrade.Basic

/-!
Price-time priority on an abstract book: a side is a list of price levels in the order of the ladder,
and a level is a queue of resting orders, oldest first.
-/

namespace TickToTrade.Algo.PriceTime
open List Option

structure Resting where
  id : Nat
  qty : Nat
  deriving DecidableEq

structure Level where
  price : Int
  orders : List Resting
  deriving DecidableEq

structure Execution where
  makerId : Nat
  price : Int
  qty : Nat
  deriving DecidableEq

/-- Append an order at the tail of the queue of its price, opening the level if there is none. -/
def place (side : Side) (price : Int) (order : Resting) : List Level → List Level
  | [] => [⟨price, [order]⟩]
  | level :: rest =>
    if level.price = price then ⟨price, level.orders ++ [order]⟩ :: rest
    else if Better side price level.price then ⟨price, [order]⟩ :: level :: rest
    else level :: place side price order rest

/-- Change or drop the orders of one level; a level left without orders goes. -/
def adjustLevel (f : Resting → Option Resting) (level : Level) : Option Level :=
  let left := level.orders.filterMap f
  if left = [] then none else some { level with orders := left }

def adjust (f : Resting → Option Resting) (levels : List Level) : List Level :=
  levels.filterMap (adjustLevel f)

def amend (id : Nat) (qty : Nat) (order : Resting) : Option Resting :=
  if order.id = id then if qty = 0 then none else some { order with qty } else some order

def makers (levels : List Level) : List (Int × Resting) :=
  levels.flatMap fun level => level.orders.map fun order => (level.price, order)

/-- The executions of an incoming order that nothing but its price and quantity limits. -/
def walk (side : Side) (price : Int) : Nat → List (Int × Resting) → List Execution
  | _, [] => []
  | remaining, (makerPrice, maker) :: rest =>
    if remaining = 0 ∨ ¬ Crosses side price makerPrice then []
    else
      let qty := min remaining maker.qty
      ⟨maker.id, makerPrice, qty⟩ :: walk side price (remaining - qty) rest

def filledQty (fills : List Execution) : Nat := (fills.map Execution.qty).sum

def takenFrom (fills : List Execution) (id : Nat) : Nat :=
  filledQty (fills.filter fun fill => fill.makerId = id)

def reduce (fills : List Execution) (order : Resting) : Option Resting :=
  let left := order.qty - takenFrom fills order.id
  if left = 0 then none else some { order with qty := left }

/-- A side with the executed quantities removed, and with them the orders and levels left empty. -/
def remove (fills : List Execution) (levels : List Level) : List Level := adjust (reduce fills) levels

def isLive (book : Side → List Level) (id : Nat) : Bool :=
  (makers (book .kBid) ++ makers (book .kAsk)).any fun entry => entry.2.id = id

def bestCrosses (side : Side) (price : Int) (opposite : List Level) : Bool :=
  opposite.head?.any fun level => Crosses side price level.price

structure Outcome where
  fills : List Execution
  remaining : Nat
  rested : Bool
  book : Side → List Level

/-- The reference for an incoming limit order: `accepts` is the answer of the book's storage to a remainder. -/
def submit (maxFills : Nat) (accepts : Bool) (book : Side → List Level) (id : Nat) (side : Side) (price : Int)
    (qty : Nat) : Outcome :=
  if qty = 0 ∨ isLive book id then { fills := [], remaining := qty, rested := false, book }
  else
    let fills := (walk side price qty (makers (book side.opposite))).take maxFills
    let remaining := qty - filledQty fills
    let opposite := remove fills (book side.opposite)
    let rested := decide (0 < remaining) && !bestCrosses side price opposite && accepts
    let own := if rested then place side price ⟨id, remaining⟩ (book side) else book side
    { fills, remaining, rested, book := fun s => if s = side then own else opposite }

/-! ### The orders of a changed side -/

variable {levels : List Level} {side : Side} {price p : Int} {order r : Resting}

theorem mem_makers : (p, r) ∈ makers levels ↔ ∃ level ∈ levels, level.price = p ∧ r ∈ level.orders := by
  simp only [makers, mem_flatMap, List.mem_map, Prod.mk.injEq]
  constructor
  · intro ⟨level, member, _, queued, shown, same⟩
    exact ⟨level, member, shown, same ▸ queued⟩
  · intro ⟨level, member, shown, queued⟩
    exact ⟨level, member, r, queued, shown, rfl⟩

theorem makers_cons (level : Level) (rest : List Level) :
    makers (level :: rest) = (level.orders.map fun order => (level.price, order)) ++ makers rest := by
  simp [makers]

theorem mem_makers_cons {level : Level} {rest : List Level} :
    (p, r) ∈ makers (level :: rest) ↔ (level.price = p ∧ r ∈ level.orders) ∨ (p, r) ∈ makers rest := by
  simp only [mem_makers, mem_cons, or_and_right, exists_or, exists_eq_left]

theorem mem_makers_place : (p, r) ∈ makers (place side price order levels) ↔
    (p = price ∧ r = order) ∨ (p, r) ∈ makers levels := by
  induction levels with
  | nil => simp [place, mem_makers, eq_comm]
  | cons level rest ih =>
    unfold place
    split
    · rename_i same
      subst same
      simp only [mem_makers_cons, mem_append, mem_singleton]
      rw [eq_comm (a := p)]
      tauto
    · split
      · simp only [mem_makers_cons, mem_singleton, eq_comm (a := p)]
      · simp only [mem_makers_cons, ih]
        tauto

variable {f : Resting → Option Resting}

theorem mem_makers_adjust :
    (p, r) ∈ makers (adjust f levels) ↔ ∃ old, (p, old) ∈ makers levels ∧ f old = some r := by
  induction levels with
  | nil => simp [adjust, makers]
  | cons level rest ih =>
    have kept : (∃ old ∈ level.orders, f old = some r) ↔ r ∈ level.orders.filterMap f := by
      simp [mem_filterMap]
    simp only [mem_makers_cons, or_and_right, exists_or, ← ih, and_assoc, exists_and_left, kept]
    unfold adjust
    rw [filterMap_cons]
    by_cases empty : level.orders.filterMap f = []
    · simp [adjustLevel, empty]
    · simp only [adjustLevel, empty, if_false, mem_makers_cons]

theorem makers_adjust (f : Resting → Option Resting) (levels : List Level) :
    makers (adjust f levels) = (makers levels).filterMap fun entry => (f entry.2).map (Prod.mk entry.1) := by
  induction levels with
  | nil => rfl
  | cons level rest ih =>
    have front : (level.orders.map fun order => (level.price, order)).filterMap
        (fun entry => (f entry.2).map (Prod.mk entry.1)) = (level.orders.filterMap f).map (Prod.mk level.price) := by
      rw [filterMap_map, map_filterMap]
      rfl
    unfold adjust at ih ⊢
    rw [makers_cons, filterMap_append, front, filterMap_cons, ← ih]
    by_cases empty : level.orders.filterMap f = []
    · simp [adjustLevel, empty]
    · simp [adjustLevel, empty, makers_cons]

theorem adjust_adjust (f g : Resting → Option Resting) (levels : List Level) :
    adjust g (adjust f levels) = adjust (fun order => (f order).bind g) levels := by
  unfold adjust
  rw [filterMap_filterMap]
  apply filterMap_congr
  intro level _
  have orders : level.orders.filterMap (fun order => (f order).bind g) = (level.orders.filterMap f).filterMap g := by
    rw [filterMap_filterMap]
  simp only [adjustLevel, orders]
  by_cases empty : level.orders.filterMap f = []
  · simp [empty]
  · simp [empty, adjustLevel]

theorem adjust_congr {g : Resting → Option Resting} (same : ∀ p r, (p, r) ∈ makers levels → f r = g r) :
    adjust f levels = adjust g levels := by
  unfold adjust
  apply filterMap_congr
  intro level member
  have orders : level.orders.filterMap f = level.orders.filterMap g :=
    filterMap_congr fun order queued => same level.price order (mem_makers.mpr ⟨level, member, rfl, queued⟩)
  simp only [adjustLevel, orders]

theorem adjust_eq_self (filled : ∀ level ∈ levels, level.orders ≠ [])
    (same : ∀ p r, (p, r) ∈ makers levels → f r = some r) : adjust f levels = levels := by
  have kept : adjust f levels = adjust some levels := adjust_congr same
  rw [kept]
  unfold adjust
  conv => rhs; rw [← filterMap_some (l := levels)]
  apply filterMap_congr
  intro level member
  simp [adjustLevel, filled level member]

def Positive (levels : List Level) : Prop := ∀ p r, (p, r) ∈ makers levels → 0 < r.qty

theorem Positive.place (positive : Positive levels) (some_qty : 0 < order.qty) :
    Positive (place side price order levels) := by
  intro p r member
  rcases mem_makers_place.mp member with ⟨_, same⟩ | old
  · rw [same]
    exact some_qty
  · exact positive p r old

theorem Positive.amend (positive : Positive levels) (id qty : Nat) : Positive (adjust (amend id qty) levels) := by
  intro p r member
  obtain ⟨old, before, shown⟩ := mem_makers_adjust.mp member
  unfold PriceTime.amend at shown
  split at shown
  · split at shown
    · cases shown
    · obtain rfl := some.inj shown
      exact Nat.pos_of_ne_zero ‹_›
  · obtain rfl := some.inj shown
    exact positive p old before

/-! ### The greedy walk, one execution at a time -/

variable {fills : List Execution} {remaining qty : Nat} {current : List Level}

theorem walk_zero (entries : List (Int × Resting)) : walk side price 0 entries = [] := by
  cases entries <;> simp [walk]

theorem walk_front {tail : List (Int × Resting)} (left : 0 < remaining) (crosses : Crosses side price p) :
    walk side price remaining ((p, r) :: tail) =
      ⟨r.id, p, min remaining r.qty⟩ :: walk side price (remaining - min remaining r.qty) tail := by
  have positive : ¬ (remaining = 0 ∨ ¬ Crosses side price p) := by
    intro stop
    exact stop.elim (by omega) (fun not => not crosses)
  rw [walk, if_neg positive]

theorem filledQty_append (fills fills' : List Execution) :
    filledQty (fills ++ fills') = filledQty fills + filledQty fills' := by
  simp [filledQty]

theorem takenFrom_append (fills : List Execution) (fill : Execution) (id : Nat) :
    takenFrom (fills ++ [fill]) id = takenFrom fills id + if fill.makerId = id then fill.qty else 0 := by
  by_cases same : fill.makerId = id
  · simp [takenFrom, filledQty, same]
  · simp [takenFrom, filledQty, same]

theorem remove_nil (positive : Positive levels) (filled : ∀ level ∈ levels, level.orders ≠ []) :
    remove [] levels = levels := by
  apply adjust_eq_self filled
  intro p r member
  have some_qty := positive p r member
  simp only [reduce, takenFrom, filledQty, filter_nil, map_nil, sum_nil, Nat.sub_zero]
  rw [if_neg (by omega)]

theorem remove_append {fill : Execution} (left : Nat)
    (known : ∀ p r, (p, r) ∈ makers (remove fills levels) → r.id = fill.makerId → r.qty = left + fill.qty) :
    remove (fills ++ [fill]) levels = adjust (amend fill.makerId left) (remove fills levels) := by
  unfold remove
  rw [adjust_adjust]
  apply adjust_congr
  intro p r member
  by_cases gone : r.qty - takenFrom fills r.id = 0
  · have nothing : r.qty - takenFrom (fills ++ [fill]) r.id = 0 := by
      rw [takenFrom_append]
      omega
    simp [reduce, gone, nothing]
  · have kept : reduce fills r = some ⟨r.id, r.qty - takenFrom fills r.id⟩ := by simp [reduce, gone]
    rw [kept, bind_some]
    by_cases same : r.id = fill.makerId
    · have here := known p _ (mem_makers_adjust.mpr ⟨r, member, kept⟩) same
      simp only at here
      have rest : r.qty - takenFrom (fills ++ [fill]) r.id = left := by
        rw [takenFrom_append, if_pos same.symm]
        omega
      simp [reduce, amend, same] at rest ⊢
      simp [rest]
    · have rest : takenFrom (fills ++ [fill]) r.id = takenFrom fills r.id := by
        rw [takenFrom_append, if_neg (Ne.symm same), Nat.add_zero]
      simp [reduce, amend, same, rest, gone]

/-- The executions so far and the walk that is left make up the whole walk. -/
structure Progress (side : Side) (price : Int) (qty : Nat) (levels : List Level) (fills : List Execution)
    (remaining : Nat) (current : List Level) : Prop where
  walk_eq : fills ++ walk side price remaining (makers current) = walk side price qty (makers levels)
  remaining_eq : remaining + filledQty fills = qty
  current_eq : current = remove fills levels

theorem Progress.start (positive : Positive levels) (filled : ∀ level ∈ levels, level.orders ≠ []) :
    Progress side price qty levels [] qty levels :=
  ⟨rfl, by simp [filledQty], (remove_nil positive filled).symm⟩

theorem Progress.step {tail : List (Int × Resting)} (progress : Progress side price qty levels fills remaining current)
    (front : makers current = (p, r) :: tail) (ids : (makers current).Pairwise fun x y => x.2.id ≠ y.2.id)
    (left : 0 < remaining) (crosses : Crosses side price p) :
    Progress side price qty levels (fills ++ [⟨r.id, p, min remaining r.qty⟩]) (remaining - min remaining r.qty)
      (adjust (amend r.id (r.qty - min remaining r.qty)) current) := by
  rw [front] at ids
  obtain ⟨others, _⟩ := pairwise_cons.mp ids
  have untouched : ∀ k, tail.filterMap (fun entry => (amend r.id k entry.2).map (Prod.mk entry.1)) = tail := by
    intro k
    conv => rhs; rw [← filterMap_some (l := tail)]
    apply filterMap_congr
    intro entry member
    simp [amend, Ne.symm (others entry member)]
  refine ⟨?_, ?_, ?_⟩
  · have before := progress.walk_eq
    rw [front, walk_front left crosses] at before
    rw [← before, append_assoc, singleton_append, makers_adjust, front, filterMap_cons]
    simp only [untouched]
    -- A maker that is not used up ends the walk, so its new quantity is never read.
    by_cases used : r.qty ≤ remaining
    · simp [amend, Nat.min_eq_right used]
    · rw [Nat.min_eq_left (by omega), Nat.sub_self, walk_zero, walk_zero]
  · have before := progress.remaining_eq
    rw [filledQty_append]
    simp only [filledQty, map_cons, map_nil, sum_cons, sum_nil] at before ⊢
    omega
  · rw [remove_append (r.qty - min remaining r.qty)]
    · rw [progress.current_eq]
    · intro p' r' member same
      rw [← progress.current_eq, front] at member
      rcases mem_cons.mp member with here | later
      · obtain ⟨_, rfl⟩ := Prod.mk.inj here
        show r'.qty = r'.qty - min remaining r'.qty + min remaining r'.qty
        omega
      · exact absurd same.symm (others _ later)

/-- When the walk has nothing left, or the fill buffer is full, the fills are what the buffer can hold. -/
theorem Progress.take_eq {maxFills : Nat} (progress : Progress side price qty levels fills remaining current)
    (fits : fills.length ≤ maxFills)
    (stopped : fills.length = maxFills ∨ walk side price remaining (makers current) = []) :
    fills = (walk side price qty (makers levels)).take maxFills := by
  rw [← progress.walk_eq]
  rcases stopped with full | done
  · rw [← full, take_left]
  · rw [done, append_nil, take_of_length_le fits]

end TickToTrade.Algo.PriceTime
