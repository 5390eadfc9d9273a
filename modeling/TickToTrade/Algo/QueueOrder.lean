import TickToTrade.Algo.EngineEffects

/-!
The orders that an operation leaves alone. A side is read as the list of its orders in the order in
which they trade.
-/

namespace TickToTrade.Algo.PriceTime
open List Option

variable {levels : List Level} {side : Side} {price : Int} {order : Resting} {keep : Nat → Bool}

def kept (keep : Nat → Bool) (levels : List Level) : List (Int × Resting) :=
  (makers levels).filter fun entry => keep entry.2.id

theorem kept_cons (keep : Nat → Bool) (level : Level) (rest : List Level) :
    kept keep (level :: rest) =
      (level.orders.map fun order => (level.price, order)).filter (fun entry => keep entry.2.id) ++ kept keep rest := by
  rw [kept, makers_cons, filter_append, kept]

theorem kept_place (off : keep order.id = false) : kept keep (place side price order levels) = kept keep levels := by
  induction levels with
  | nil => simp [place, kept, makers, off]
  | cons level rest ih =>
    unfold place
    split
    · rename_i same
      subst same
      simp [kept_cons, off]
    · split
      · rw [kept_cons]
        simp [off]
      · rw [kept_cons, kept_cons, ih]

theorem kept_adjust {f : Resting → Option Resting}
    (same : ∀ p r, (p, r) ∈ makers levels → keep r.id = true → f r = some r)
    (named : ∀ r r', f r = some r' → r'.id = r.id) : kept keep (adjust f levels) = kept keep levels := by
  rw [kept, makers_adjust, kept]
  revert same
  induction makers levels with
  | nil => exact fun _ => rfl
  | cons entry rest ih =>
    intro same
    obtain ⟨p, r⟩ := entry
    have later := ih fun p r member => same p r (mem_cons_of_mem _ member)
    rw [filterMap_cons]
    by_cases on : keep r.id = true
    · simp [same p r mem_cons_self on, on, later]
    · cases changed : f r with
      | none => simp [on, later]
      | some r' => simp [named r r' changed, on, later]

theorem kept_amend {id : Nat} (off : keep id = false) (levels : List Level) :
    kept keep (adjust (amend id 0) levels) = kept keep levels := by
  apply kept_adjust
  · intro p r _ on
    have other : r.id ≠ id := by
      intro same
      rw [same, off] at on
      cases on
    simp [amend, other]
  · intro r r' changed
    unfold amend at changed
    split at changed
    · cases changed
    · rw [some.inj changed]

theorem kept_remove {fills : List Execution} (off : ∀ fill ∈ fills, keep fill.makerId = false)
    (positive : Positive levels) : kept keep (remove fills levels) = kept keep levels := by
  apply kept_adjust
  · intro p r member on
    have untouched : takenFrom fills r.id = 0 := by
      apply takenFrom_eq_zero
      intro listed
      obtain ⟨fill, member', same⟩ := List.mem_map.mp listed
      rw [← same, off fill member'] at on
      cases on
    exact reduce_eq_some.mpr ⟨rfl, by rw [untouched, Nat.sub_zero], positive p r member⟩
  · intro r r' changed
    exact (reduce_eq_some.mp (show reduce fills r = some ⟨r'.id, r'.qty⟩ from changed)).1

end TickToTrade.Algo.PriceTime

namespace TickToTrade.Algo
open PriceTime List Option

variable {maxFills id qty : Nat} {side : Side} {price : Int} {params : Params} {e e' : MatchingEngine maxFills}
  {keep : Nat → Bool}

section

variable (sound : OrderBook.Sound params e.book)
include sound

theorem cancelOrder_kept {cancelled : Bool}
    (done : e.cancelOrder id = some (cancelled, e')) (off : keep id = false) (s : Side) :
    kept keep (e'.book.levels s) = kept keep (e.book.levels s) := by
  rcases MatchingEngine.cancelOrder_spec sound id with ⟨refused, _⟩ | ⟨e'', accepted, _, _, levels, _⟩
  · obtain ⟨_, rfl⟩ := Prod.mk.inj (mem_unique refused done)
    rfl
  · obtain ⟨_, rfl⟩ := Prod.mk.inj (mem_unique accepted done)
    rw [levels, kept_amend off]

theorem submitOrder_kept {result : MatchResult}
    (done : e.submitOrder id side price qty = some (result, e'))
    (new : isLive e.book.levels id = false → keep id = false)
    (unfilled : ∀ fill ∈ result.fills, keep fill.makerId = false) (s : Side) :
    kept keep (e'.book.levels s) = kept keep (e.book.levels s) := by
  rcases MatchingEngine.submitOrder_cases sound done with ⟨_, _, _, _, levels⟩ | ⟨m, goes⟩
  · rw [levels]
  · rcases Side.eq_or_opposite side s with rfl | rfl
    · rw [goes.own]
      split
      · exact kept_place (new goes.unused)
      · rfl
    · rw [goes.opposite]
      refine kept_remove ?_ (sound.positive _)
      intro fill member
      obtain ⟨fill', member', rfl⟩ := List.mem_map.mp member
      exact unfilled fill' member'

theorem modifyOrder_kept {oldId newId : Nat} {result : ModifyResult}
    (done : e.modifyOrder oldId side price qty newId = some (result, e')) (old : keep oldId = false)
    (new : isLive e.book.levels newId = false → keep newId = false)
    (unfilled : ∀ fill ∈ result.fills, keep fill.makerId = false) (s : Side) :
    kept keep (e'.book.levels s) = kept keep (e.book.levels s) := by
  obtain ⟨_, _, again, _, outcome⟩ := modifyOrder_effect sound oldId side price qty newId
  obtain ⟨rfl, rfl⟩ := Prod.mk.inj (mem_unique again done)
  rcases outcome with ⟨_, _, rfl⟩ | ⟨_, _, e₁, cancelled, sound₁, rests, _, resubmitted, _⟩
  · rfl
  · rw [submitOrder_kept sound₁ resubmitted ?_ unfilled, cancelOrder_kept sound cancelled old]
    intro unused
    by_cases same : newId = oldId
    · rw [same]
      exact old
    · apply new
      rw [Bool.eq_false_iff] at unused ⊢
      intro live
      obtain ⟨s, p, q, resting⟩ := isLive_iff.mp live
      exact unused (isLive_iff.mpr ⟨s, p, q, (rests s p newId q).mpr ⟨resting, same⟩⟩)

end

end TickToTrade.Algo
