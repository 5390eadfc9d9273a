import TickToTrade.Algo.OrderBook
import TickToTrade.Algo.PriceTime

/-!
The shape of the book's linked structure. `Linked` has two exemptions inside an operation: a level whose
queue is still empty, and an order slot that is queued nowhere.
-/

namespace TickToTrade.Algo.OrderBook
open Ds Probing List Option Function
open PriceTime (Level Resting adjust amend)
open DefaultHash (hash)

def queue (b : OrderBook) (l : Nat) : List Nat := (b.levelSlots l).orders

def levelPrice (b : OrderBook) (l : Nat) : Int := (b.levelSlots l).price

def levelSide (b : OrderBook) (l : Nat) : Side := (b.levelSlots l).side

def Queued (b : OrderBook) (o : Nat) : Prop := ∃ l, o ∈ b.queue l

def OnLadder (b : OrderBook) (l : Nat) : Prop := ∃ s, l ∈ b.ladders s

/-- An order slot in use: queued, or held by the running operation. -/
def Live (b : OrderBook) (pending : Option Nat) (o : Nat) : Prop := b.Queued o ∨ pending = some o

def resting (b : OrderBook) (o : Nat) : Resting := ⟨(b.orderSlots o).orderId, (b.orderSlots o).qty⟩

def level (b : OrderBook) (l : Nat) : Level := ⟨b.levelPrice l, (b.queue l).map b.resting⟩

def levels (b : OrderBook) (s : Side) : List Level := (b.ladders s).map b.level

def levelRoom (b : OrderBook) (side : Side) (price : Int) : Bool :=
  ((b.levelMap side).content price).isSome ||
    (!b.levelFree.indices.isEmpty && (b.levelMap side).accepts hash price)

structure Linked (hole pending : Option Nat) (b : OrderBook) : Prop where
  sorted : ∀ s, (b.ladders s).Pairwise fun l l' => Better s (b.levelPrice l) (b.levelPrice l')
  side_eq : ∀ s l, l ∈ b.ladders s → b.levelSide l = s
  queue_ne_nil : ∀ s l, l ∈ b.ladders s → hole ≠ some l → b.queue l ≠ []
  on_ladder : ∀ l o, o ∈ b.queue l → l ∈ b.ladders (b.levelSide l)
  queue_nodup : ∀ l, (b.queue l).Nodup
  back : ∀ l o, o ∈ b.queue l → (b.orderSlots o).level = some l ∧
    (b.orderSlots o).price = b.levelPrice l ∧ (b.orderSlots o).side = b.levelSide l
  unqueued : ∀ o, pending = some o → ¬ b.Queued o
  orderMap_ok : b.orderMap.Ok
  orderMap_iff : ∀ id o, b.orderMap.content id = some o ↔ b.Live pending o ∧ (b.orderSlots o).orderId = id
  levelMap_ok : ∀ s, (b.levelMap s).Ok
  levelMap_iff : ∀ s p l, (b.levelMap s).content p = some l ↔ l ∈ b.ladders s ∧ b.levelPrice l = p
  orders_tracked : b.orderFree.Tracks (b.Live pending)
  levels_tracked : b.levelFree.Tracks b.OnLadder

variable {b b' : OrderBook} {hole pending : Option Nat} {l o : Nat} {s : Side}

section

variable (linked : Linked hole pending b)
include linked

theorem Linked.ladder_nodup (s : Side) : (b.ladders s).Nodup := by
  apply (linked.sorted s).imp
  intro l l' better same
  subst same
  exact better_irrefl s _ better

theorem Linked.not_on_opposite (member : l ∈ b.ladders s) : l ∉ b.ladders s.opposite := by
  intro other
  have same := (linked.side_eq _ l other).symm.trans (linked.side_eq s l member)
  exact Side.opposite_ne s same

theorem Linked.queue_unique {l' : Nat} (member : o ∈ b.queue l) (member' : o ∈ b.queue l') : l' = l := by
  have first := (linked.back l o member).1
  have second := (linked.back l' o member').1
  exact mem_unique second first

theorem Linked.id_unique {o' : Nat} (live : b.Live pending o)
    (live' : b.Live pending o') (same : (b.orderSlots o').orderId = (b.orderSlots o).orderId) : o' = o := by
  have first := (linked.orderMap_iff _ o).mpr ⟨live, rfl⟩
  have second := (linked.orderMap_iff _ o').mpr ⟨live', same⟩
  exact mem_unique second first

end

theorem levels_adjust {f : Resting → Option Resting}
    (ladder : b'.ladders s = (b.ladders s).filter fun x => b'.queue x ≠ [])
    (price : ∀ x ∈ b.ladders s, b'.levelPrice x = b.levelPrice x)
    (orders : ∀ x ∈ b.ladders s, (b'.queue x).map b'.resting = ((b.queue x).map b.resting).filterMap f) :
    b'.levels s = adjust f (b.levels s) := by
  unfold levels adjust
  rw [ladder, filterMap_map, ← filterMap_eq_map, filterMap_filter]
  apply filterMap_congr
  intro x onLadder
  simp only [comp_apply, PriceTime.adjustLevel, level, ← orders x onLadder, price x onLadder]
  by_cases empty : b'.queue x = []
  · simp [empty]
  · simp [empty]

/-! ### Taking an order out of its queue -/

theorem setLevel_queue (b : OrderBook) (l : Nat) (slot : PriceLevel) :
    (b.setLevel l slot).queue = update b.queue l slot.orders :=
  comp_update PriceLevel.orders b.levelSlots l slot

theorem setLevel_levelPrice {slot : PriceLevel} (same : slot.price = b.levelPrice l) :
    (b.setLevel l slot).levelPrice = b.levelPrice :=
  (comp_update PriceLevel.price b.levelSlots l slot).trans (same ▸ update_eq_self l b.levelPrice)

theorem setLevel_levelSide {slot : PriceLevel} (same : slot.side = b.levelSide l) :
    (b.setLevel l slot).levelSide = b.levelSide :=
  (comp_update PriceLevel.side b.levelSlots l slot).trans (same ▸ update_eq_self l b.levelSide)

theorem unlinkOrder_queue (b : OrderBook) (l o : Nat) :
    (b.unlinkOrder l o).queue = update b.queue l ((b.queue l).erase o) := setLevel_queue ..

theorem unlinkOrder_levelPrice (b : OrderBook) (l o : Nat) : (b.unlinkOrder l o).levelPrice = b.levelPrice :=
    setLevel_levelPrice rfl

theorem unlinkOrder_levelSide (b : OrderBook) (l o : Nat) : (b.unlinkOrder l o).levelSide = b.levelSide :=
    setLevel_levelSide rfl

theorem Linked.mem_unlinked (linked : Linked hole pending b) (member : o ∈ b.queue l) {x y : Nat} :
    y ∈ (b.unlinkOrder l o).queue x ↔ y ∈ b.queue x ∧ y ≠ o := by
  rw [unlinkOrder_queue]
  by_cases same : x = l
  · subst same
    rw [update_self, (linked.queue_nodup x).mem_erase_iff, and_comm]
  · rw [update_of_ne same]
    constructor
    · intro queued
      refine ⟨queued, ?_⟩
      rintro rfl
      exact same (linked.queue_unique member queued)
    · exact And.left

theorem Linked.queued_unlinked (linked : Linked hole pending b) (member : o ∈ b.queue l) (y : Nat) :
    (b.unlinkOrder l o).Queued y ↔ b.Queued y ∧ y ≠ o := by
  constructor
  · intro ⟨x, queued⟩
    obtain ⟨old, other⟩ := (linked.mem_unlinked member).mp queued
    exact ⟨⟨x, old⟩, other⟩
  · intro ⟨⟨x, old⟩, other⟩
    exact ⟨x, (linked.mem_unlinked member).mpr ⟨old, other⟩⟩

theorem Linked.live_unlinked (linked : Linked hole none b) (member : o ∈ b.queue l) (y : Nat) :
    (b.unlinkOrder l o).Live (some o) y ↔ b.Live none y := by
  simp only [Live, linked.queued_unlinked member, some.injEq, reduceCtorEq, or_false]
  by_cases same : o = y
  · subst same
    simp only [or_true, true_iff]
    exact ⟨l, member⟩
  · simp only [same, or_false, and_iff_left_iff_imp]
    exact fun _ => Ne.symm same

theorem Linked.unlinkOrder (linked : Linked none none b) (member : o ∈ b.queue l) :
    Linked (some l) (some o) (b.unlinkOrder l o) where
  sorted := by rw [unlinkOrder_levelPrice]; exact linked.sorted
  side_eq := by rw [unlinkOrder_levelSide]; exact linked.side_eq
  queue_ne_nil := by
    intro s x onLadder other
    have different : x ≠ l := fun same => other (same ▸ rfl)
    rw [unlinkOrder_queue, update_of_ne different]
    exact linked.queue_ne_nil s x onLadder (by simp)
  on_ladder := by
    intro x y queued
    rw [unlinkOrder_levelSide]
    exact linked.on_ladder x y ((linked.mem_unlinked member).mp queued).1
  queue_nodup := by
    intro x
    rw [unlinkOrder_queue]
    by_cases same : x = l
    · subst same
      rw [update_self]
      exact (linked.queue_nodup x).erase o
    · rw [update_of_ne same]
      exact linked.queue_nodup x
  back := by
    intro x y queued
    rw [unlinkOrder_levelPrice, unlinkOrder_levelSide]
    exact linked.back x y ((linked.mem_unlinked member).mp queued).1
  unqueued := by
    intro y same queued
    cases same
    exact ((linked.queued_unlinked member _).mp queued).2 rfl
  orderMap_ok := linked.orderMap_ok
  orderMap_iff := by
    intro id y
    rw [linked.live_unlinked member]
    exact linked.orderMap_iff id y
  levelMap_ok := linked.levelMap_ok
  levelMap_iff := by rw [unlinkOrder_levelPrice]; exact linked.levelMap_iff
  orders_tracked := linked.orders_tracked.congr (linked.live_unlinked member)
  levels_tracked := linked.levels_tracked

/-! ### Removing an empty level -/

theorem removeLevel_ladders (b : OrderBook) (linked : Linked hole pending b) (member : l ∈ b.ladders s) (s' : Side) :
    update b.ladders s ((b.ladders s).erase l) s' = (b.ladders s').erase l := by
  by_cases same : s' = s
  · subst same
    rw [update_self]
  · rw [update_of_ne same, erase_of_not_mem]
    rcases Side.eq_or_opposite s s' with equal | equal
    · exact absurd equal same
    · rw [equal]
      exact linked.not_on_opposite member

theorem Linked.removeLevel (linked : Linked (some l) pending b) (member : l ∈ b.ladders s)
    (empty : b.queue l = []) : ∃ map free, b.removeLevel l = some { b with
        ladders := fun s' => (b.ladders s').erase l
        levelMap := update b.levelMap s map
        levelFree := free } ∧ (b.levelMap s).erase (b.levelPrice l) = some (true, map) ∧
          b.levelFree.push l = some free ∧
      free.capacity = b.levelFree.capacity ∧
      (∀ s' p, b.levelRoom s' p = true →
        levelRoom { b with levelMap := update b.levelMap s map, levelFree := free } s' p = true) ∧
      Linked none pending { b with
        ladders := fun s' => (b.ladders s').erase l
        levelMap := update b.levelMap s map
        levelFree := free } := by
  have side := linked.side_eq s l member
  have found : (b.levelMap s).content (b.levelPrice l) = some l := (linked.levelMap_iff s _ l).mpr ⟨member, rfl⟩
  obtain ⟨map, erased, gone⟩ := (linked.levelMap_ok s).erase_of_content found
  have mapContent := gone.content_eq (linked.levelMap_ok s)
  obtain ⟨free, pushed, capacity, tracked⟩ := linked.levels_tracked.push ⟨s, member⟩
  have mem : ∀ s' x, x ∈ (b.ladders s').erase l ↔ x ∈ b.ladders s' ∧ x ≠ l := by
    intro s' x
    rw [(linked.ladder_nodup s').mem_erase_iff, and_comm]
  have freed : free.indices ≠ [] := by
    have bound := linked.levels_tracked.used_lt l ⟨s, member⟩
    rw [← capacity] at bound
    exact ne_nil_of_mem ((tracked.mem_iff l).mpr ⟨bound, fun used => used.2 rfl⟩)
  refine ⟨map, free, ?_, ((linked.levelMap_ok s).erase_eq _).trans erased, pushed, capacity, ?_, ?_⟩
  · have ladders : update b.ladders s ((b.ladders s).erase l) = fun s' => (b.ladders s').erase l :=
      funext (removeLevel_ladders b linked member)
    simp only [levelSide] at side
    simp only [levelPrice] at erased
    simp [OrderBook.removeLevel, side, setLadder, setLevelMap, freeLevel, (linked.levelMap_ok s).erase_eq, erased,
      pushed, ladders]
  · intro s' p room
    simp only [levelRoom, Bool.or_eq_true, Bool.and_eq_true, Bool.not_eq_true', isEmpty_eq_false_iff] at room ⊢
    by_cases same : s' = s
    · subst same
      rw [update_self, mapContent]
      by_cases hit : p = b.levelPrice l
      · exact .inr ⟨freed, hit ▸ gone.accepts_self⟩
      · rw [update_of_ne hit]
        exact room.imp_right fun both => ⟨freed, gone.accepts_other p both.2⟩
    · rw [update_of_ne same]
      exact room.imp_right fun both => ⟨freed, both.2⟩
  · exact { linked with
      sorted := fun s' => (linked.sorted s').sublist erase_sublist
      side_eq := fun s' x onLadder => linked.side_eq s' x ((mem s' x).mp onLadder).1
      queue_ne_nil := by
        intro s' x onLadder _
        obtain ⟨old, other⟩ := (mem s' x).mp onLadder
        exact linked.queue_ne_nil s' x old (by simpa using Ne.symm other)
      on_ladder := by
        intro x y queued
        refine (mem _ x).mpr ⟨linked.on_ladder x y queued, ?_⟩
        intro same
        subst same
        change y ∈ b.queue x at queued
        rw [empty] at queued
        cases queued
      levelMap_ok := by
        intro s'
        by_cases same : s' = s
        · subst same
          simpa using gone.wellFormed
        · simpa [update_of_ne same] using linked.levelMap_ok s'
      levelMap_iff := by
        intro s' p x
        show (update b.levelMap s map s').content p = some x ↔ x ∈ (b.ladders s').erase l ∧ b.levelPrice x = p
        rw [mem]
        have old := linked.levelMap_iff s' p x
        by_cases same : s' = s
        · subst same
          rw [update_self, mapContent]
          by_cases hit : p = b.levelPrice l
          · subst hit
            rw [update_self]
            constructor
            · intro impossible
              cases impossible
            · rintro ⟨⟨onLadder, other⟩, price⟩
              have again := (linked.levelMap_iff s' _ x).mpr ⟨onLadder, price⟩
              exact absurd (mem_unique again found) other
          · rw [update_of_ne hit, old]
            constructor
            · rintro ⟨onLadder, price⟩
              refine ⟨⟨onLadder, ?_⟩, price⟩
              intro same
              subst same
              exact hit price.symm
            · rintro ⟨⟨onLadder, _⟩, price⟩
              exact ⟨onLadder, price⟩
        · rw [update_of_ne same, old]
          constructor
          · rintro ⟨onLadder, price⟩
            refine ⟨⟨onLadder, ?_⟩, price⟩
            intro equal
            subst equal
            exact same ((linked.side_eq s' x onLadder).symm.trans (linked.side_eq s x member))
          · rintro ⟨⟨onLadder, _⟩, price⟩
            exact ⟨onLadder, price⟩
      levels_tracked := tracked.congr fun x => by
        simp only [OnLadder, mem]
        constructor
        · rintro ⟨s', onLadder, other⟩
          exact ⟨⟨s', onLadder⟩, other⟩
        · rintro ⟨⟨s', onLadder⟩, other⟩
          exact ⟨s', onLadder, other⟩ }

/-! ### Releasing an order slot -/

def releaseOrder (b : OrderBook) (id : Nat) (o : Nat) : Exec OrderBook := do
  let b ← b.eraseOrderId id
  b.freeOrder o

theorem Linked.releaseOrder (linked : Linked hole (some o) b) :
    ∃ map free, b.releaseOrder (b.orderSlots o).orderId o = some { b with
        orderSlots := update b.orderSlots o { b.orderSlots o with level := none }
        orderMap := map
        orderFree := free } ∧ b.orderMap.erase (b.orderSlots o).orderId = some (true, map) ∧
          b.orderFree.push o = some free ∧
      free.capacity = b.orderFree.capacity ∧ Table.Erased hash b.orderMap map (b.orderSlots o).orderId o ∧
      Linked hole none { b with
        orderSlots := update b.orderSlots o { b.orderSlots o with level := none }
        orderMap := map
        orderFree := free } := by
  have found := (linked.orderMap_iff _ o).mpr ⟨.inr rfl, rfl⟩
  obtain ⟨map, erased, gone⟩ := linked.orderMap_ok.erase_of_content found
  obtain ⟨free, pushed, capacity, tracked⟩ := linked.orders_tracked.push (.inr rfl)
  have away := linked.unqueued o rfl
  refine ⟨map, free, ?_, (linked.orderMap_ok.erase_eq _).trans erased, pushed, capacity, gone, ?_⟩
  · simp [OrderBook.releaseOrder, eraseOrderId, freeOrder, setOrder, linked.orderMap_ok.erase_eq, erased, pushed]
  · have other : ∀ x y, y ∈ b.queue x → y ≠ o := by
      intro x y queued same
      subst same
      exact away ⟨x, queued⟩
    exact { linked with
      back := by
        intro x y queued
        have kept := linked.back x y queued
        rw [← update_of_ne (other x y queued) { b.orderSlots o with level := none } b.orderSlots] at kept
        exact kept
      unqueued := by simp
      orderMap_ok := gone.wellFormed
      orderMap_iff := by
        intro id y
        show map.content id = some y ↔ (b.Queued y ∨ none = some y) ∧ _
        rw [gone.content_eq linked.orderMap_ok]
        by_cases same : y = o
        · subst same
          have absent : update b.orderMap.content (b.orderSlots y).orderId none id ≠ some y := by
            intro still
            by_cases hit : id = (b.orderSlots y).orderId
            · rw [hit, update_self] at still
              cases still
            · rw [update_of_ne hit, linked.orderMap_iff] at still
              exact hit still.2.symm
          simp [absent, away]
        · have old := linked.orderMap_iff id y
          simp only [Live, some.injEq, Ne.symm same, or_false] at old
          by_cases hit : id = (b.orderSlots o).orderId
          · have taken : b.orderMap.content id ≠ some y := by
              rw [hit, found]
              simpa using Ne.symm same
            simp only [hit, update_self, reduceCtorEq, or_false, false_iff]
            rw [← hit]
            intro both
            refine taken (old.mpr ⟨both.1, ?_⟩)
            simpa [update_of_ne same] using both.2
          · rw [update_of_ne hit, old]
            simp [update_of_ne same]
      orders_tracked := tracked.congr fun y => by
        show b.Queued y ∨ none = some y ↔ (b.Queued y ∨ some o = some y) ∧ y ≠ o
        constructor
        · intro live
          rcases live with ⟨x, queued⟩ | impossible
          · exact ⟨.inl ⟨x, queued⟩, other x y queued⟩
          · cases impossible
        · rintro ⟨live, different⟩
          rcases live with queued | same
          · exact .inl queued
          · exact absurd (some.inj same).symm different }

/-! ### Removing an order -/

theorem Linked.close (linked : Linked (some l) pending b) (filled : b.queue l ≠ []) : Linked none pending b :=
  { linked with
    queue_ne_nil := by
      intro s x member _
      by_cases same : x = l
      · subst same
        exact filled
      · exact linked.queue_ne_nil s x member (by simpa using Ne.symm same) }

/-- Order `o` left the queue of level `l`, and the level its ladder if that emptied it. -/
structure Dropped (b b' : OrderBook) (l o : Nat) : Prop where
  linked : Linked none none b'
  ladders : ∀ s, b'.ladders s = (b.ladders s).filter fun x => b'.queue x ≠ []
  queue : b'.queue = update b.queue l ((b.queue l).erase o)
  levelPrice : b'.levelPrice = b.levelPrice
  orders : ∀ y, y ≠ o → b'.orderSlots y = b.orderSlots y
  orderCapacity : b'.orderFree.capacity = b.orderFree.capacity
  levelCapacity : b'.levelFree.capacity = b.levelFree.capacity
  orderFree : b'.orderFree.indices ≠ []
  accepts : ∀ id, b.orderMap.accepts hash id = true → b'.orderMap.accepts hash id = true
  levelRoom : ∀ s p, b.levelRoom s p = true → b'.levelRoom s p = true

/-- What the removal does to the pools and maps. -/
structure Released (b b' : OrderBook) (l o : Nat) : Prop where
  orderMap : b.orderMap.erase (b.orderSlots o).orderId = some (true, b'.orderMap)
  orderFree : b.orderFree.push o = some b'.orderFree
  kept : (b.queue l).erase o ≠ [] → b'.levelMap = b.levelMap ∧ b'.levelFree = b.levelFree
  emptied : (b.queue l).erase o = [] → ∃ map, (b.levelMap (b.levelSide l)).erase (b.levelPrice l) = some (true, map) ∧
    b'.levelMap = update b.levelMap (b.levelSide l) map ∧ b.levelFree.push l = some b'.levelFree

structure SlotsKept (b b' : OrderBook) : Prop where
  levels : b'.levelSlots = b.levelSlots
  orders : ∀ o, (b'.orderSlots o).qty = (b.orderSlots o).qty

structure Removed (b b' : OrderBook) (l o : Nat) : Prop extends Dropped b b' l o where
  slots : SlotsKept (b.unlinkOrder l o) b'
  released : Released b b' l o

theorem Linked.removed (linked : Linked none none b) (member : o ∈ b.queue l) (finished : Linked none none b')
    (slots : b'.levelSlots = (b.unlinkOrder l o).levelSlots)
    (orders : b'.orderSlots = update b.orderSlots o { b.orderSlots o with level := none })
    (ladders : ∀ s, b'.ladders s = if (b.queue l).erase o = [] then (b.ladders s).erase l else b.ladders s)
    (released : Released b b' l o) (orderCapacity : b'.orderFree.capacity = b.orderFree.capacity)
    (levelCapacity : b'.levelFree.capacity = b.levelFree.capacity)
    (accepts : ∀ id, b.orderMap.accepts hash id = true → b'.orderMap.accepts hash id = true)
    (levelRoom : ∀ s p, b.levelRoom s p = true → b'.levelRoom s p = true) : Removed b b' l o := by
  have queue : b'.queue = (b.unlinkOrder l o).queue := congrArg (fun slots x => (slots x).orders) slots
  have levelPrice : b'.levelPrice = (b.unlinkOrder l o).levelPrice := congrArg (fun slots x => (slots x).price) slots
  have gone : ¬ b'.Live none o := by
    intro live
    rcases live with ⟨x, queued⟩ | impossible
    · rw [queue] at queued
      exact ((linked.mem_unlinked member).mp queued).2 rfl
    · cases impossible
  rw [unlinkOrder_queue] at queue
  rw [unlinkOrder_levelPrice] at levelPrice
  refine ⟨⟨finished, ?_, queue, levelPrice, ?_, orderCapacity, levelCapacity, ?_, accepts, levelRoom⟩,
    ⟨slots, ?_⟩, released⟩
  · intro s
    rw [ladders, queue]
    split
    · rename_i emptied
      rw [(linked.ladder_nodup s).erase_eq_filter]
      apply filter_congr
      intro x onLadder
      by_cases same : x = l
      · subst same
        simp [emptied]
      · simp [same, linked.queue_ne_nil s x onLadder]
    · rename_i left
      symm
      apply filter_eq_self.mpr
      intro x onLadder
      by_cases same : x = l
      · subst same
        simpa using left
      · simpa [same] using linked.queue_ne_nil s x onLadder
  · intro y different
    rw [orders, update_of_ne different]
  · have bound := linked.orders_tracked.used_lt o (.inl ⟨l, member⟩)
    rw [← orderCapacity] at bound
    exact ne_nil_of_mem ((finished.orders_tracked.mem_iff o).mpr ⟨bound, gone⟩)
  · intro y
    rw [orders]
    by_cases same : y = o
    · subst same
      rw [update_self]
      rfl
    · rw [update_of_ne same]
      rfl

theorem unlinkOrder_queue_self (b : OrderBook) (l o : Nat) :
    (b.unlinkOrder l o).queue l = (b.queue l).erase o := by
  rw [unlinkOrder_queue, update_self]

section

variable (linked : Linked none none b) (member : o ∈ b.queue l)
include linked member

theorem Linked.cancelFound : ∃ b', b.cancelFound (b.orderSlots o).orderId o = some b' ∧ Removed b b' l o := by
  have unlinked := linked.unlinkOrder member
  have onLadder := linked.on_ladder l o member
  have here := unlinkOrder_queue_self b l o
  unfold OrderBook.cancelFound
  simp only [(linked.back l o member).1, bind_eq_bind, bind_some, Option.pure_def]
  by_cases emptied : (b.queue l).erase o = []
  · obtain ⟨levelMap, levelFree, removed, levelErased, levelPushed, levelCapacity, room, without⟩ :=
      unlinked.removeLevel (s := b.levelSide l) onLadder (here.trans emptied)
    obtain ⟨orderMap, orderFree, released, orderErased, pushed, orderCapacity, erased, finished⟩ := without.releaseOrder
    have isEmpty : ((b.unlinkOrder l o).levelSlots l).orders.isEmpty = true := by
      simpa [queue] using here.trans emptied
    simp only [isEmpty, if_true, removed, bind_some]
    refine ⟨_, released,
      linked.removed member finished rfl rfl ?_ ⟨orderErased, pushed, fun filled => absurd emptied filled,
      fun _ => ⟨_, unlinkOrder_levelPrice b l o ▸ levelErased, rfl, levelPushed⟩⟩ orderCapacity levelCapacity
        erased.accepts_other room⟩
    intro s
    rw [if_pos emptied]
    rfl
  · obtain ⟨orderMap, orderFree, released, orderErased, pushed, orderCapacity, erased, finished⟩ :=
      unlinked.releaseOrder
    have filled : (b.unlinkOrder l o).queue l ≠ [] := by rwa [here]
    have isEmpty : ((b.unlinkOrder l o).levelSlots l).orders.isEmpty = false := by
      simpa [queue] using filled
    simp only [isEmpty, Bool.false_eq_true, if_false]
    refine ⟨_, released,
      linked.removed member (finished.close filled) rfl rfl ?_ ⟨orderErased, pushed, fun _ => ⟨rfl, rfl⟩,
      fun isEmpty => absurd isEmpty emptied⟩ orderCapacity rfl erased.accepts_other fun _ _ => id⟩
    intro s
    rw [if_neg emptied]
    rfl

theorem Linked.removeFilledOrder : ∃ b', b.removeFilledOrder o = some (((b.queue l).erase o).isEmpty, b') ∧
    Removed b b' l o := by
  have unlinked := linked.unlinkOrder member
  have onLadder := linked.on_ladder l o member
  have here := unlinkOrder_queue_self b l o
  obtain ⟨orderMap, orderFree, released, orderErased, pushed, orderCapacity, erased, finished⟩ := unlinked.releaseOrder
  have opened : b.removeFilledOrder o = ((b.unlinkOrder l o).releaseOrder (b.orderSlots o).orderId o).bind fun b =>
      if (b.levelSlots l).orders.isEmpty then (b.removeLevel l).bind fun b => some (true, b) else some (false, b) := by
    unfold OrderBook.removeFilledOrder OrderBook.releaseOrder
    simp only [(linked.back l o member).1, bind_eq_bind, bind_some, Option.pure_def, bind_assoc]
    rfl
  rw [opened, show (b.orderSlots o).orderId = ((b.unlinkOrder l o).orderSlots o).orderId from rfl, released]
  simp only [bind_some]
  by_cases emptied : (b.queue l).erase o = []
  · obtain ⟨levelMap, levelFree, removed, levelErased, levelPushed, levelCapacity, room, without⟩ :=
      finished.removeLevel (s := b.levelSide l) onLadder (here.trans emptied)
    have isEmpty : ((b.unlinkOrder l o).levelSlots l).orders.isEmpty = true := by
      simpa [queue] using here.trans emptied
    simp only [isEmpty, if_true, removed, bind_some, emptied, isEmpty_nil]
    refine ⟨_, rfl, linked.removed member without rfl rfl ?_ ⟨orderErased, pushed, fun filled => absurd emptied filled,
      fun _ => ⟨_, unlinkOrder_levelPrice b l o ▸ levelErased, rfl, levelPushed⟩⟩ orderCapacity levelCapacity
        erased.accepts_other room⟩
    intro s
    rw [if_pos emptied]
    rfl
  · have filled : (b.unlinkOrder l o).queue l ≠ [] := by rwa [here]
    have isEmpty : ((b.unlinkOrder l o).levelSlots l).orders.isEmpty = false := by
      simpa [queue] using filled
    have left : ((b.queue l).erase o).isEmpty = false := by simpa using emptied
    simp only [isEmpty, Bool.false_eq_true, if_false, left]
    refine ⟨_, rfl, linked.removed member (finished.close filled) rfl rfl ?_ ⟨orderErased, pushed, fun _ => ⟨rfl, rfl⟩,
      fun isEmpty => absurd isEmpty emptied⟩ orderCapacity rfl erased.accepts_other fun _ _ => id⟩
    intro s
    rw [if_neg emptied]
    rfl

theorem filterMap_amend_erase (x : Nat) (qty : Nat) :
    ((b.queue x).map b.resting).filterMap (amend (b.orderSlots o).orderId qty) =
      (b.queue x).filterMap fun y => if y = o then if qty = 0 then none else
        some ⟨(b.orderSlots o).orderId, qty⟩ else some (b.resting y) := by
  rw [filterMap_map]
  apply filterMap_congr
  intro y queued
  simp only [comp_apply, amend, resting]
  by_cases same : y = o
  · subst same
    simp
  · have different : (b.orderSlots y).orderId ≠ (b.orderSlots o).orderId := by
      intro equal
      exact same (linked.id_unique (.inl ⟨l, member⟩) (.inl ⟨x, queued⟩) equal)
    simp [same, different]

end

theorem Dropped.levels (dropped : Dropped b b' l o) (linked : Linked none none b) (member : o ∈ b.queue l) (s : Side) :
    b'.levels s = adjust (amend (b.orderSlots o).orderId 0) (b.levels s) := by
  apply levels_adjust (dropped.ladders s)
  · intro x _
    rw [dropped.levelPrice]
  · intro x _
    have queues : b'.queue x = (b.queue x).erase o := by
      rw [dropped.queue]
      by_cases same : x = l
      · subst same
        rw [update_self]
      · rw [update_of_ne same, erase_of_not_mem]
        intro queued
        exact same (linked.queue_unique member queued)
    rw [filterMap_amend_erase linked member, queues, (linked.queue_nodup x).erase_eq_filter, ← filterMap_eq_map,
      filterMap_filter]
    apply filterMap_congr
    intro y _
    by_cases same : y = o
    · simp [same]
    · simp [same, resting, dropped.orders y same]

end TickToTrade.Algo.OrderBook
