import TickToTrade.Algo.MatchRefinement

/-!
The engine never leaves a crossed book: a remainder is rested only below every resting ask or above
every resting bid.
-/

namespace TickToTrade.Algo
open PriceTime List Option

namespace PriceTime

variable {book : Side → List Level} {side : Side} {price : Int} {levels : List Level}

/-- No resting order would trade with one of the other side. -/
def Uncrossed (book : Side → List Level) : Prop :=
  ∀ side p r p' r', (p, r) ∈ makers (book side) → (p', r') ∈ makers (book side.opposite) → ¬ Crosses side p p'

def Sorted (side : Side) (levels : List Level) : Prop := levels.Pairwise fun x y => Better side x.price y.price

theorem crosses_symm {p q : Int} : Crosses side.opposite p q ↔ Crosses side q p := by
  cases side <;> exact Iff.rfl

theorem Uncrossed.mono (uncrossed : Uncrossed book) {book' : Side → List Level}
    (prices : ∀ s p r, (p, r) ∈ makers (book' s) → ∃ old, (p, old) ∈ makers (book s)) : Uncrossed book' := by
  intro side p r p' r' member member'
  obtain ⟨old, before⟩ := prices side p r member
  obtain ⟨old', before'⟩ := prices side.opposite p' r' member'
  exact uncrossed side p old p' old' before before'

theorem mem_of_adjust {f : Resting → Option Resting} {p : Int} {r : Resting}
    (member : (p, r) ∈ makers (adjust f levels)) : ∃ old, (p, old) ∈ makers levels := by
  obtain ⟨old, before, _⟩ := mem_makers_adjust.mp member
  exact ⟨old, before⟩

theorem not_crosses_of_best (sorted : Sorted side.opposite levels) (best : bestCrosses side price levels = false)
    {p : Int} {r : Resting} (member : (p, r) ∈ makers levels) : ¬ Crosses side price p := by
  obtain ⟨level, onSide, shown, _⟩ := mem_makers.mp member
  subst shown
  cases levels with
  | nil => cases onSide
  | cons first rest =>
    have front : ¬ Crosses side price first.price := by simpa [bestCrosses] using best
    rcases mem_cons.mp onSide with same | later
    · rw [same]
      exact front
    · rw [not_crosses_iff] at front ⊢
      exact better_trans front ((pairwise_cons.mp sorted).1 level later)

theorem Uncrossed.place {book' : Side → List Level} {order : Resting} (uncrossed : Uncrossed book) (side : Side)
    (price : Int) (sorted : Sorted side.opposite (book side.opposite))
    (best : bestCrosses side price (book side.opposite) = false)
    (own : book' side = place side price order (book side)) (other : book' side.opposite = book side.opposite) :
    Uncrossed book' := by
  have kept : ∀ p r p' r', (p, r) ∈ makers (book' side) → (p', r') ∈ makers (book' side.opposite) →
      ¬ Crosses side p p' := by
    intro p r p' r' member member'
    rw [own] at member
    rw [other] at member'
    rcases mem_makers_place.mp member with ⟨shown, _⟩ | old
    · rw [shown]
      exact not_crosses_of_best sorted best member'
    · exact uncrossed side p r p' r' old member'
  intro s p r p' r' member member'
  rcases Side.eq_or_opposite side s with rfl | rfl
  · exact kept p r p' r' member member'
  · rw [Side.opposite_opposite] at member'
    rw [crosses_symm]
    exact kept p' r' p r member' member

end PriceTime

theorem OrderBook.Linked.levels_sorted {b : OrderBook} (linked : OrderBook.Linked none none b) (s : Side) :
    Sorted s (b.levels s) :=
  pairwise_map.mpr (linked.sorted s)

theorem OrderBook.Linked.best_maker {b : OrderBook} {s : Side} {p : Int} (linked : OrderBook.Linked none none b)
    (best : b.bestPrice s = some p) : ∃ r, (p, r) ∈ makers (b.levels s) := by
  unfold OrderBook.bestPrice at best
  cases front : b.ladders s with
  | nil => simp [front] at best
  | cons l rest =>
    have onLadder : l ∈ b.ladders s := by
      rw [front]
      exact mem_cons_self
    simp only [front, head?_cons, map_some, some.injEq] at best
    cases first : b.queue l with
    | nil => exact absurd first (linked.queue_ne_nil s l onLadder (by simp))
    | cons o queue =>
      refine ⟨b.resting o, OrderBook.mem_makers_levels.mpr ⟨l, onLadder, o, ?_, best, rfl⟩⟩
      rw [first]
      exact mem_cons_self

namespace MatchingEngine

variable {maxFills : Nat} {params : Params} {e e' : MatchingEngine maxFills}

theorem submitOrder_uncrossed {id qty : Nat} {side : Side} {price : Int} {result : MatchResult}
    (sound : OrderBook.Sound params e.book) (uncrossed : Uncrossed e.book.levels)
    (done : e.submitOrder id side price qty = some (result, e')) : Uncrossed e'.book.levels := by
  rcases submitOrder_cases sound done with ⟨_, _, _, _, levels⟩ | ⟨m, goes⟩
  · rw [levels]
    exact uncrossed
  · -- First only the opposite side shrinks, then the remainder may be placed.
    have current := goes.running.progress.current_eq
    have matched : Uncrossed m.book.levels := by
      apply uncrossed.mono
      intro s p r member
      rcases Side.eq_or_opposite side s with rfl | rfl
      · rw [goes.running.own] at member
        exact ⟨r, member⟩
      · rw [current] at member
        exact mem_of_adjust member
    have own := goes.own
    rw [← goes.running.own] at own
    have opposite := goes.opposite
    rw [← goes.filled, ← current] at opposite
    cases rested : result.rested with
    | true =>
      rw [rested, if_pos rfl] at own
      simp only [goes.rested, Bool.and_eq_true, Bool.not_eq_true'] at rested
      exact matched.place side price (goes.running.sound.linked.levels_sorted side.opposite) rested.1.2 own opposite
    | false =>
      rw [rested, if_neg Bool.false_ne_true] at own
      rw [levels_eq_ite own opposite, ← levels_eq_ite rfl rfl]
      exact matched

theorem cancelOrder_uncrossed {id : Nat} {cancelled : Bool} (sound : OrderBook.Sound params e.book)
    (uncrossed : Uncrossed e.book.levels) (done : e.cancelOrder id = some (cancelled, e')) :
    Uncrossed e'.book.levels := by
  rcases cancelOrder_spec sound id with ⟨refused, _⟩ | ⟨e'', accepted, _, _, levels, _⟩
  · rw [done] at refused
    cases refused
    exact uncrossed
  · rw [done] at accepted
    cases accepted
    apply uncrossed.mono
    intro s p r member
    rw [levels] at member
    exact mem_of_adjust member

theorem create_uncrossed (created : create maxFills params = some e) : Uncrossed e.book.levels := by
  intro side p r p' r' member
  rw [(OrderBook.bind_linked (create_book created)).2.1] at member
  cases member

/-- Whatever calls came before, the best bid is below the best ask. -/
theorem run_uncrossed (created : create maxFills params = some e) (ops : List Op) :
    ∃ e', e.run ops = some e' ∧
      ∀ bid ask, e'.book.bestBid = some bid → e'.book.bestAsk = some ask → bid < ask := by
  obtain ⟨e', ran, sound, uncrossed⟩ := run_invariant (P := fun e => Uncrossed e.book.levels)
    (Q := fun _ => True) (fun _ _ _ _ _ _ _ sound holds _ done => submitOrder_uncrossed sound holds done)
    (fun _ _ _ _ sound holds done => cancelOrder_uncrossed sound holds done) (create_sound created)
      (create_uncrossed created)
    (fun op (_ : op ∈ ops) => trivial)
  refine ⟨e', ran, ?_⟩
  intro bid ask bestBid bestAsk
  obtain ⟨r, bids⟩ := sound.linked.best_maker bestBid
  obtain ⟨r', asks⟩ := sound.linked.best_maker bestAsk
  have apart := uncrossed .kBid bid r ask r' bids asks
  simp only [Crosses] at apart
  omega

/-- A buy of 12 against two asks with room for one fill: its remainder is not rested. -/
theorem run_uncrossed_small : ∃ (e e' : MatchingEngine 1), create 1 ⟨4, 4, 8, 8⟩ = some e ∧
    e.run [.submitOrder 1 .kAsk 100 5, .submitOrder 2 .kAsk 101 4, .submitOrder 3 .kBid 101 12,
      .modifyOrder 2 .kBid 99 3 4] = some e' ∧
    ∀ bid ask, e'.book.bestBid = some bid → e'.book.bestAsk = some ask → bid < ask := by
  obtain ⟨e, created⟩ : ∃ e, create 1 ⟨4, 4, 8, 8⟩ = some e := isSome_iff_exists.mp (by decide)
  obtain ⟨e', ran, apart⟩ := run_uncrossed created [.submitOrder 1 .kAsk 100 5, .submitOrder 2 .kAsk 101 4,
    .submitOrder 3 .kBid 101 12, .modifyOrder 2 .kBid 99 3 4]
  exact ⟨e, e', created, ran, apart⟩

end MatchingEngine

end TickToTrade.Algo
