import TickToTrade.Algo.EngineEffects
import TickToTrade.Lib.ListSums

/-!
The running total of a price level: in every reachable state the sum of the queued quantities modulo `2
^ 32`.
-/

namespace TickToTrade.Algo
open Ds Probing PriceTime List Option Function

/-! ### Totals on the abstract book -/

namespace PriceTime

def Level.volume (level : Level) : Nat := (level.orders.map Resting.qty).sum

def volumeAt (levels : List Level) (price : Int) : Nat :=
  (((makers levels).filter fun entry => entry.1 = price).map fun entry => entry.2.qty).sum

theorem volumeAt_cons (level : Level) (rest : List Level) (price : Int) :
    volumeAt (level :: rest) price = (if level.price = price then level.volume else 0) + volumeAt rest price := by
  unfold volumeAt Level.volume
  rw [makers_cons, filter_append, map_append, sum_append]
  congr 1
  by_cases here : level.price = price
  · simp [here, List.filter_map, comp_def]
  · simp [here, List.filter_map, comp_def]

theorem volumeAt_eq_zero {levels : List Level} {price : Int} (none : ∀ level ∈ levels, level.price ≠ price) :
    volumeAt levels price = 0 := by
  induction levels with
  | nil => rfl
  | cons level rest ih =>
    rw [volumeAt_cons, if_neg (none level mem_cons_self), ih fun level member =>
      none level (mem_cons_of_mem _ member)]

/-- Prices differ along a side, so the orders at a price are those of one level. -/
theorem volumeAt_eq {levels : List Level} (distinct : levels.Pairwise fun x y => x.price ≠ y.price) {level : Level}
    (member : level ∈ levels) : volumeAt levels level.price = level.volume := by
  induction levels with
  | nil => cases member
  | cons first rest ih =>
    obtain ⟨apart, distinct⟩ := pairwise_cons.mp distinct
    rw [volumeAt_cons]
    rcases mem_cons.mp member with rfl | later
    · rw [if_pos rfl, volumeAt_eq_zero fun level member => Ne.symm (apart level member), Nat.add_zero]
    · rw [if_neg (apart level later), ih distinct later, Nat.zero_add]

end PriceTime

variable {destroyed : Bool}

namespace OrderBook

variable {params : Params} {b b' : OrderBook} {l o id qty : Nat} {side : Side} {price : Int}

def queuedQty (b : OrderBook) (l : Nat) : Nat := ((b.queue l).map fun o => (b.orderSlots o).qty).sum

structure Tallied (b : OrderBook) : Prop where
  word : ∀ l, ∀ o ∈ b.queue l, (b.orderSlots o).qty < 2 ^ 32
  total : ∀ l, (b.levelSlots l).totalQty = b.queuedQty l % 2 ^ 32

theorem queuedQty_congr (queue : b'.queue l = b.queue l)
    (orders : ∀ o ∈ b.queue l, (b'.orderSlots o).qty = (b.orderSlots o).qty) : b'.queuedQty l = b.queuedQty l := by
  unfold queuedQty
  rw [queue, map_congr_left orders]

/-! ### The three updates of a total -/

theorem addQty_mod (sum qty : Nat) : addQty (sum % 2 ^ 32) qty = (sum + qty) % 2 ^ 32 := by
  unfold addQty
  omega

theorem subQty_mod {sum : Nat} (word : qty < 2 ^ 32) (le : qty ≤ sum) :
    subQty (sum % 2 ^ 32) qty = (sum - qty) % 2 ^ 32 := by
  unfold subQty
  omega

/-- One level is written, with the total that its queue now has. -/
theorem Tallied.relevel {slot : PriceLevel} (tallied : b.Tallied)
    (slots : b'.levelSlots = update b.levelSlots l slot)
    (word : ∀ x, ∀ o ∈ b'.queue x, (b'.orderSlots o).qty < 2 ^ 32) (here : slot.totalQty = b'.queuedQty l % 2 ^ 32)
    (others : ∀ x, x ≠ l → b'.queuedQty x = b.queuedQty x) : b'.Tallied := by
  refine ⟨word, fun x => ?_⟩
  rw [slots]
  by_cases same : x = l
  · subst same
    rw [update_self, here]
  · rw [update_of_ne same, others x same, tallied.total]

theorem Tallied.linkOrder (tallied : b.Tallied) (held : (b.orderSlots o).qty = qty) (word : qty < 2 ^ 32) :
    (b.linkOrder l o qty).Tallied := by
  have orders : ∀ y, ((b.linkOrder l o qty).orderSlots y).qty = (b.orderSlots y).qty := by
    intro y
    by_cases same : y = o
    · subst same
      simp [OrderBook.linkOrder, setOrder, setLevel]
    · simp [OrderBook.linkOrder, setOrder, setLevel, same]
  have sums : ∀ x, (b.linkOrder l o qty).queuedQty x = b.queuedQty x + if x = l then qty else 0 := by
    intro x
    simp only [queuedQty, orders, linkOrder_queue]
    by_cases here : x = l
    · subst here
      simp [held]
    · simp [here]
  refine tallied.relevel rfl ?_ ?_ ?_
  · intro x y queued
    rw [orders]
    rcases mem_linked.mp queued with old | ⟨_, rfl⟩
    · exact tallied.word x y old
    · exact held ▸ word
  · rw [sums, if_pos rfl, ← addQty_mod, ← tallied.total l]
    rfl
  · intro x other
    rw [sums, if_neg other, Nat.add_zero]

theorem qty_le_queuedQty (member : o ∈ b.queue l) : (b.orderSlots o).qty ≤ b.queuedQty l :=
  single_le_sum (fun _ _ => Nat.zero_le _) _ (List.mem_map_of_mem member)

theorem Tallied.unlinkOrder (tallied : b.Tallied) (member : o ∈ b.queue l) : (b.unlinkOrder l o).Tallied := by
  have orders : (b.unlinkOrder l o).orderSlots = b.orderSlots := rfl
  have sums : b.queuedQty l = (b.orderSlots o).qty + (b.unlinkOrder l o).queuedQty l := by
    simp only [queuedQty, orders, unlinkOrder_queue, update_self]
    rw [((perm_cons_erase member).map _).sum_eq, map_cons, sum_cons]
  refine tallied.relevel rfl ?_ ?_ ?_
  · intro x y queued
    rw [unlinkOrder_queue] at queued
    by_cases here : x = l
    · subst here
      rw [update_self] at queued
      exact tallied.word x y (mem_of_mem_erase queued)
    · rw [update_of_ne here] at queued
      exact tallied.word x y queued
  · have left : (b.unlinkOrder l o).queuedQty l = b.queuedQty l - (b.orderSlots o).qty := by omega
    rw [left, ← subQty_mod (tallied.word l o member) (qty_le_queuedQty member), ← tallied.total l]
  · exact fun x other => queuedQty_congr (by rw [unlinkOrder_queue, update_of_ne other]) fun _ _ => rfl

theorem Tallied.setQty (tallied : b.Tallied) (linked : Linked none none b) (member : o ∈ b.queue l)
    (le : qty ≤ (b.orderSlots o).qty) : (b.setQty l o ((b.orderSlots o).qty - qty) qty).Tallied := by
  have bound := tallied.word l o member
  have orders : ∀ y, ((b.setQty l o ((b.orderSlots o).qty - qty) qty).orderSlots y).qty =
      if y = o then (b.orderSlots o).qty - qty else (b.orderSlots y).qty := by
    intro y
    rw [setQty_order]
  refine tallied.relevel rfl ?_ ?_ ?_
  · intro x y queued
    rw [setQty_queue] at queued
    rw [orders]
    split
    · omega
    · exact tallied.word x y queued
  · have sums : b.queuedQty l = qty + (b.setQty l o ((b.orderSlots o).qty - qty) qty).queuedQty l := by
      simp only [queuedQty, setQty_queue, orders]
      have others : ((b.queue l).erase o).map
        (fun y => if y = o then (b.orderSlots o).qty - qty else (b.orderSlots y).qty) =
          ((b.queue l).erase o).map fun y => (b.orderSlots y).qty := by
        apply map_congr_left
        intro y rest
        rw [if_neg ((linked.queue_nodup l).mem_erase_iff.mp rest).1]
      have split := perm_cons_erase member
      rw [(split.map _).sum_eq, (split.map fun y => if y = o then _ else _).sum_eq, map_cons,
        map_cons, others, sum_cons, sum_cons, if_pos rfl]
      omega
    have left : (b.setQty l o ((b.orderSlots o).qty - qty) qty).queuedQty l = b.queuedQty l - qty := by omega
    rw [left, ← subQty_mod (by omega) (by omega), ← tallied.total l]
    rfl
  · intro x here
    refine queuedQty_congr (by rw [setQty_queue]) fun y queued => ?_
    have other : y ≠ o := fun same => here (linked.queue_unique (same ▸ queued) member).symm
    rw [orders, if_neg other]

/-! ### Operations that leave the totals -/

theorem SlotsKept.trans {b'' : OrderBook} (first : SlotsKept b b') (second : SlotsKept b' b'') : SlotsKept b b'' :=
  ⟨second.levels.trans first.levels, fun o => (second.orders o).trans (first.orders o)⟩

theorem Tallied.kept (tallied : b.Tallied) (kept : SlotsKept b b') : b'.Tallied := by
  have queue : b'.queue = b.queue := by
    funext l
    rw [OrderBook.queue, OrderBook.queue, kept.levels]
  refine ⟨?_, ?_⟩
  · intro l o queued
    rw [kept.orders]
    exact tallied.word l o (queue ▸ queued)
  · intro l
    rw [kept.levels, tallied.total, queuedQty_congr (by rw [queue]) fun o _ => kept.orders o]

theorem freeOrder_kept (done : b.freeOrder o = some b') : SlotsKept b b' := by
  obtain ⟨_, _, done⟩ := bind_eq_some_iff.mp done
  cases done
  refine ⟨rfl, fun y => ?_⟩
  by_cases same : y = o
  · subst same
    simp [setOrder]
  · simp [setOrder, same]

theorem eraseOrderId_kept (done : b.eraseOrderId id = some b') : SlotsKept b b' := by
  obtain ⟨_, _, done⟩ := bind_eq_some_iff.mp done
  cases done
  exact ⟨rfl, fun _ => rfl⟩

section

variable (tallied : b.Tallied)
include tallied

theorem Tallied.cancelOrder {cancelled : Bool} (linked : Linked none none b)
    (done : b.cancelOrder id = some (cancelled, b')) : b'.Tallied := by
  rcases linked.cancelOrder id with ⟨refused, _⟩ | ⟨o, l, b₁, queued, _, found, removed⟩
  · cases done.symm.trans refused
    exact tallied
  · cases done.symm.trans found
    exact (tallied.unlinkOrder queued).kept removed.slots

theorem Tallied.removeFilledOrder (linked : Linked none none b)
    (member : o ∈ b.queue l) (done : b.removeFilledOrder o = some (destroyed, b')) : b'.Tallied := by
  obtain ⟨b₁, found, removed⟩ := linked.removeFilledOrder member
  cases done.symm.trans found
  exact (tallied.unlinkOrder member).kept removed.slots

/-! ### Adding an order -/

theorem Tallied.setOrder (unqueued : ¬ b.Queued o) (slot : Order) : (b.setOrder o slot).Tallied := by
  have others : ∀ l, ∀ y ∈ b.queue l, (b.setOrder o slot).orderSlots y = b.orderSlots y := by
    intro l y queued
    have other : y ≠ o := fun same => unqueued ⟨l, same ▸ queued⟩
    exact update_of_ne other _ _
  refine ⟨?_, ?_⟩
  · intro l y queued
    rw [others l y queued]
    exact tallied.word l y queued
  · intro l
    have same : (b.setOrder o slot).queuedQty l = b.queuedQty l :=
      queuedQty_congr rfl fun y queued => by rw [others l y queued]
    rw [same, ← tallied.total l]
    rfl

theorem Tallied.resetLevel (empty : b.queue l = []) (price : Int) (side : Side) :
    (b.setLevel l { b.levelSlots l with price, totalQty := 0, side }).Tallied := by
  have queue : (b.setLevel l { b.levelSlots l with price, totalQty := 0, side }).queue = b.queue :=
    (setLevel_queue ..).trans (update_eq_self l b.queue)
  refine tallied.relevel rfl ?_ ?_ ?_
  · exact fun x y queued => tallied.word x y (queue ▸ queued)
  · simp [queuedQty, queue, empty]
  · exact fun x _ => queuedQty_congr (by rw [queue]) fun _ _ => rfl

theorem Tallied.findOrCreateLevel {found : Option Nat} {pending : Option Nat}
    (linked : Linked none pending b) (done : b.findOrCreateLevel side price = some (found, b')) :
    b'.Tallied ∧ b'.orderSlots = b.orderSlots := by
  obtain ⟨looked, _, done⟩ := bind_eq_some_iff.mp done
  cases looked with
  | some level =>
    cases done
    exact ⟨tallied, rfl⟩
  | none =>
    cases popped : b.levelFree.pop with
    | none =>
      simp only [allocLevel, popped] at done
      cases done
      exact ⟨tallied, rfl⟩
    | some taken =>
      obtain ⟨level, free⟩ := taken
      obtain ⟨_, unused, _⟩ := linked.levels_tracked.pop popped
      have reset := tallied.resetLevel (linked.queue_off_ladder unused) price side
      simp only [allocLevel, popped] at done
      obtain ⟨⟨inserted, map⟩, _, done⟩ := bind_eq_some_iff.mp done
      dsimp only at done
      split at done
      · cases done
        exact ⟨{ reset with }, rfl⟩
      · obtain ⟨b₁, freed, done⟩ := bind_eq_some_iff.mp done
        cases done
        obtain ⟨_, _, freed⟩ := bind_eq_some_iff.mp freed
        cases freed
        exact ⟨{ reset with }, rfl⟩

theorem Tallied.addOrder {added : Bool} (linked : Linked none none b) (word : qty < 2 ^ 32)
    (done : b.addOrder id side price qty = some (added, b')) : b'.Tallied := by
  unfold OrderBook.addOrder at done
  split at done
  · cases done
    exact tallied
  simp only [linked.orderMap_ok.find_eq, bind_eq_bind, bind_some] at done
  split at done
  · cases done
    exact tallied
  rename_i absent
  rw [not_isSome_iff_eq_none] at absent
  cases popped : b.orderFree.pop with
  | none =>
    simp only [allocOrder, popped] at done
    cases done
    exact tallied
  | some taken =>
    obtain ⟨o, free⟩ := taken
    obtain ⟨_, unused, _⟩ := linked.orders_tracked.pop popped
    simp only [allocOrder, popped] at done
    obtain ⟨⟨inserted, map⟩, insertion, done⟩ := bind_eq_some_iff.mp done
    have insertion : b.orderMap.insert id o = some (inserted, map) := insertion
    have written := tallied.setOrder (fun queued => unused (.inl queued))
      { b.orderSlots o with orderId := id, price, qty, side }
    dsimp only at done
    split at done
    · rename_i isInserted
      subst isInserted
      obtain ⟨⟨found, b₁⟩, opened, done⟩ := bind_eq_some_iff.mp done
      have grown : Table.Inserted DefaultHash.hash b.orderMap map id o := by
        rcases linked.orderMap_ok.insert_cases id o with
          ⟨⟨_, present⟩, _⟩ | ⟨_, _, _, full⟩ | ⟨_, _, map', again, grown⟩
        · rw [absent] at present
          cases present
        · rw [HashMap.Ok.insert_eq linked.orderMap_ok, full] at insertion
          cases insertion
        · rw [HashMap.Ok.insert_eq linked.orderMap_ok, again] at insertion
          cases insertion
          exact grown
      have taken := linked.takeOrder { b.orderSlots o with orderId := id, price, qty, side } popped grown absent
      have held : (b.holding o { b.orderSlots o with orderId := id, price, qty, side } free map).Tallied :=
        { written with }
      have opened : (b.holding o { b.orderSlots o with orderId := id, price, qty, side } free map).findOrCreateLevel
        side price = some (found, b₁) := opened
      obtain ⟨tallied₁, slots⟩ := held.findOrCreateLevel taken opened
      cases found with
      | none =>
        obtain ⟨b₂, erased, done⟩ := bind_eq_some_iff.mp done
        obtain ⟨b₃, freed, done⟩ := bind_eq_some_iff.mp done
        cases done
        exact tallied₁.kept ((eraseOrderId_kept erased).trans (freeOrder_kept freed))
      | some level =>
        cases done
        refine tallied₁.linkOrder ?_ word
        rw [slots]
        simp [holding]
    · obtain ⟨b₁, freed, done⟩ := bind_eq_some_iff.mp done
      cases done
      have kept := freeOrder_kept freed
      exact Tallied.kept { written with } { kept with }

end

theorem level_volume (b : OrderBook) (l : Nat) : (b.level l).volume = b.queuedQty l := by
  simp [Level.volume, OrderBook.level, queuedQty, resting, comp_def]

theorem Tallied.volumeAtLevel (tallied : b.Tallied) (linked : Linked none none b) (side : Side) (price : Int) :
    b.volumeAtLevel side price = some (volumeAt (b.levels side) price % 2 ^ 32) := by
  unfold OrderBook.volumeAtLevel
  rw [(linked.levelMap_ok side).find_eq]
  cases found : (b.levelMap side).content price with
  | none =>
    have nowhere : volumeAt (b.levels side) price = 0 := by
      apply volumeAt_eq_zero
      intro level member same
      obtain ⟨l, onLadder, rfl⟩ := List.mem_map.mp member
      rw [(linked.levelMap_iff side price l).mpr ⟨onLadder, same⟩] at found
      cases found
    rw [nowhere]
    rfl
  | some l =>
    obtain ⟨onLadder, rfl⟩ := (linked.levelMap_iff side price l).mp found
    have distinct : (b.levels side).Pairwise fun x y => x.price ≠ y.price := by
      rw [levels, pairwise_map]
      apply (linked.sorted side).imp
      intro x y better same
      have equal : b.levelPrice x = b.levelPrice y := same
      exact better_irrefl side _ (equal ▸ better)
    have here : volumeAt (b.levels side) (b.levelPrice l) = (b.level l).volume :=
      volumeAt_eq distinct (List.mem_map_of_mem onLadder)
    rw [here, level_volume, ← tallied.total l]
    rfl

end OrderBook

/-! ### The matching loops -/

namespace Matching

variable {params : Params} {maxFills id fuel best : Nat} {side : Side} {price : Int} {m m' : Matching}

theorem fillOrder_tallied {l o : Nat} (tallied : m.book.Tallied) (linked : OrderBook.Linked none none m.book)
    (queued : o ∈ m.book.queue l) (done : m.fillOrder id price l o = some (destroyed, m')) : m'.book.Tallied := by
  have written := tallied.setQty linked queued (Nat.min_le_right m.remaining (m.book.orderSlots o).qty)
  unfold fillOrder at done
  dsimp only at done
  split at done
  · obtain ⟨⟨gone, b'⟩, removed, done⟩ := bind_eq_some_iff.mp done
    cases done
    have still : o ∈ (m.book.setQty l o ((m.book.orderSlots o).qty - min m.remaining (m.book.orderSlots o).qty)
        (min m.remaining (m.book.orderSlots o).qty)).queue l := by
      rw [OrderBook.setQty_queue]
      exact queued
    exact written.removeFilledOrder (linked.setQty ..) still removed
  · cases done
    exact written

section

variable (sound : OrderBook.Sound params m.book)
include sound

/-- One execution keeps the book sound and the level, unless it went, on its ladder. -/
theorem fillOrder_sound {l o : Nat} (queued : o ∈ m.book.queue l)
    (onLadder : l ∈ m.book.ladders side.opposite) (done : m.fillOrder id price l o = some (destroyed, m')) :
    OrderBook.Sound params m'.book ∧ (destroyed = false → l ∈ m'.book.ladders side.opposite) := by
  obtain ⟨_, b', again, filled⟩ := fillOrder_spec sound queued onLadder id price
  obtain ⟨rfl, rfl⟩ := Prod.mk.inj (mem_unique done again)
  refine ⟨filled.sound, fun stays => ?_⟩
  rw [filled.ladder stays]
  exact onLadder

theorem matchLevel_tallied (tallied : m.book.Tallied)
    (onLadder : best ∈ m.book.ladders side.opposite) (done : matchLevel maxFills id price best fuel m = some m') :
    OrderBook.Sound params m'.book ∧ m'.book.Tallied := by
  induction fuel generalizing m with
  | zero => cases done
  | succ fuel ih =>
    unfold matchLevel at done
    split at done
    · cases queue : (m.book.levelSlots best).orders with
      | nil =>
        rw [queue] at done
        cases done
        exact ⟨sound, tallied⟩
      | cons order rest =>
        rw [queue] at done
        obtain ⟨⟨destroyed, m₁⟩, filled, done⟩ := bind_eq_some_iff.mp done
        have queued : order ∈ m.book.queue best := by simp [OrderBook.queue, queue]
        obtain ⟨sound₁, stays⟩ := fillOrder_sound sound queued onLadder filled
        have tallied₁ := fillOrder_tallied tallied sound.linked queued filled
        cases destroyed with
        | true =>
          cases done
          exact ⟨sound₁, tallied₁⟩
        | false => exact ih sound₁ tallied₁ (stays rfl) done
    · cases done
      exact ⟨sound, tallied⟩

theorem matchLoop_tallied (tallied : m.book.Tallied)
    (done : matchLoop maxFills id side price fuel m = some m') : OrderBook.Sound params m'.book ∧ m'.book.Tallied := by
  induction fuel generalizing m with
  | zero => cases done
  | succ fuel ih =>
    unfold matchLoop at done
    split at done
    · cases ladder : m.book.ladders side.opposite with
      | nil =>
        rw [ladder] at done
        cases done
        exact ⟨sound, tallied⟩
      | cons best rest =>
        rw [ladder] at done
        dsimp only at done
        split at done
        · obtain ⟨m₁, matched, done⟩ := bind_eq_some_iff.mp done
          obtain ⟨sound₁, tallied₁⟩ :=
            matchLevel_tallied sound tallied (by rw [ladder]; exact mem_cons_self) matched
          exact ih sound₁ tallied₁ done
        · cases done
          exact ⟨sound, tallied⟩
    · cases done
      exact ⟨sound, tallied⟩

end

end Matching

namespace MatchingEngine

variable {params : Params} {maxFills id qty : Nat} {side : Side} {price : Int} {e e' : MatchingEngine maxFills}

theorem submitOrder_tallied {result : MatchResult} (sound : OrderBook.Sound params e.book) (tallied : e.book.Tallied)
    (word : qty < 2 ^ 32) (done : e.submitOrder id side price qty = some (result, e')) : e'.book.Tallied := by
  unfold submitOrder at done
  split at done
  · cases done
    exact tallied
  obtain ⟨known, _, done⟩ := bind_eq_some_iff.mp done
  split at done
  · cases done
    exact tallied
  obtain ⟨m, crossed, done⟩ := bind_eq_some_iff.mp done
  obtain ⟨sound₁, tallied₁⟩ := Matching.matchLoop_tallied sound tallied crossed
  obtain ⟨m', crossed', running, _⟩ := cross_spec sound id side price qty
  obtain rfl := mem_unique crossed crossed'
  have left := running.progress.remaining_eq
  dsimp only at done
  split at done
  · obtain ⟨⟨rested, b'⟩, added, done⟩ := bind_eq_some_iff.mp done
    cases done
    exact tallied₁.addOrder sound₁.linked (by omega) added
  · cases done
    exact tallied₁

theorem cancelOrder_tallied {cancelled : Bool} (sound : OrderBook.Sound params e.book) (tallied : e.book.Tallied)
    (done : e.cancelOrder id = some (cancelled, e')) : e'.book.Tallied := by
  obtain ⟨⟨_, b'⟩, removed, done⟩ := bind_eq_some_iff.mp done
  cases done
  exact tallied.cancelOrder sound.linked removed

theorem create_tallied (created : create maxFills params = some e) : e.book.Tallied := by
  have bound := create_book created
  simp only [OrderBook.bind, bind_eq_bind, bind_eq_some_iff, Option.pure_def] at bound
  obtain ⟨_, _, _, _, _, _, _, _, _, _, orderFree, _, levelFree, _, orderMap, _, bidMap, _, askMap, _, same⟩ := bound
  obtain same := some.inj same
  rw [← same]
  exact ⟨fun _ _ queued => (not_mem_nil queued).elim, fun _ => rfl⟩

/-- After every sequence of calls a level's volume is the sum of what rests there, modulo the word. -/
theorem run_tallied {ops : List Op} (created : create maxFills params = some e) (words : ∀ op ∈ ops, op.brings < 2 ^ 32)
    (ran : e.run ops = some e') : OrderBook.Sound params e'.book ∧ e'.book.Tallied := by
  obtain ⟨final, done, sound, tallied⟩ := run_invariant (P := fun e => e.book.Tallied) (Q := fun qty => qty < 2 ^ 32)
    (fun _ _ _ _ _ _ _ sound tallied word done => submitOrder_tallied sound tallied word done)
    (fun _ _ _ _ sound tallied done => cancelOrder_tallied sound tallied done) (create_sound created)
    (create_tallied created) words
  obtain rfl := mem_unique ran done
  exact ⟨sound, tallied⟩

end MatchingEngine

end TickToTrade.Algo
