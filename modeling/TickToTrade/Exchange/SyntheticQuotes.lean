import TickToTrade.Exchange.TradeReports

/-!
The synthetic quotes of `simulated_exchange/market_data_publisher.hpp`. The numbers that `rng_` returns
are arguments of the call that draws them.
-/

namespace TickToTrade.Exchange
open Function

def kTickSize : Int := 100

def kHalfSpread : Int := 500

def kDefaultRefPrice : Int := 1000000

structure QuoteSnapshot where
  bidPrice : Int
  bidQty : Nat
  askPrice : Int
  askQty : Nat
  deriving DecidableEq

structure QuoteWalk where
  refPrice : Int := kDefaultRefPrice
  midPrice : Int := kDefaultRefPrice

structure Draws where
  walk : Nat
  bidQty : Nat
  askQty : Nat

namespace QuoteWalk

def generateQuotes (q : QuoteWalk) (rng : Draws) : QuoteSnapshot × QuoteWalk :=
  let jitter : Int := toInt64 ((rng.walk % 7 : Nat) - 3)
  let midPrice := toInt64 (q.midPrice + toInt64 (jitter * kTickSize))
  let drift := (toInt64 (q.refPrice - midPrice)).tdiv 10
  let midPrice := toInt64 (midPrice + drift)
  ({ bidPrice := toInt64 (midPrice - kHalfSpread), bidQty := (100 + rng.bidQty % 901) % 2 ^ 32
     askPrice := toInt64 (midPrice + kHalfSpread), askQty := (100 + rng.askQty % 901) % 2 ^ 32 },
    { q with midPrice })

structure Near (q : QuoteWalk) : Prop where
  reference : q.refPrice = kDefaultRefPrice
  low : kDefaultRefPrice - 2700 ≤ q.midPrice
  high : q.midPrice ≤ kDefaultRefPrice + 2700

/-- A step of at most three ticks followed by a tenth of the way back. Division truncates towards zero, so that
from a distance of 3000 it leads to 2700 on both sides. -/
theorem pulled_back {x : Int} (low : -3000 ≤ x) (high : x ≤ 3000) : -2700 ≤ x + (-x).tdiv 10 ∧
    x + (-x).tdiv 10 ≤ 2700 := by
  rcases Int.le_total 0 x with positive | negative
  · rw [Int.neg_tdiv, Int.tdiv_eq_ediv_of_nonneg positive]
    omega
  · rw [Int.tdiv_eq_ediv_of_nonneg (by omega)]
    omega

/-- No sum of a call near the reference price wraps: `x` is the distance after the random step. -/
theorem Near.generateQuotes_eq {q : QuoteWalk} (near : q.Near) (rng : Draws) :
    ∃ x : Int, -3000 ≤ x ∧ x ≤ 3000 ∧ q.generateQuotes rng =
      ({ bidPrice := kDefaultRefPrice + (x + (-x).tdiv 10) - kHalfSpread, bidQty := 100 + rng.bidQty % 901
         askPrice := kDefaultRefPrice + (x + (-x).tdiv 10) + kHalfSpread, askQty := 100 + rng.askQty % 901 },
        { q with midPrice := kDefaultRefPrice + (x + (-x).tdiv 10) }) := by
  obtain ⟨reference, low, high⟩ := near
  have draw := Nat.mod_lt rng.walk (by decide : 0 < 7)
  have bid := Nat.mod_lt rng.bidQty (by decide : 0 < 901)
  have ask := Nat.mod_lt rng.askQty (by decide : 0 < 901)
  have jitter : toInt64 ((rng.walk % 7 : Nat) - 3) = (rng.walk % 7 : Nat) - 3 := toInt64_of_fits (by omega) (by omega)
  unfold kDefaultRefPrice at *
  obtain ⟨x, distance⟩ : ∃ x : Int, q.midPrice + ((rng.walk % 7 : Nat) - 3) * kTickSize = 1000000 + x :=
    ⟨q.midPrice + ((rng.walk % 7 : Nat) - 3) * kTickSize - 1000000, by omega⟩
  have step : toInt64 (((rng.walk % 7 : Nat) - 3) * kTickSize) = ((rng.walk % 7 : Nat) - 3) * kTickSize :=
    toInt64_of_fits (by unfold kTickSize; omega) (by unfold kTickSize; omega)
  have far : -3000 ≤ x ∧ x ≤ 3000 := by
    unfold kTickSize at distance
    omega
  obtain ⟨least, most⟩ := pulled_back far.1 far.2
  have moved : toInt64 (1000000 + x) = 1000000 + x := toInt64_of_fits (by omega) (by omega)
  have back : toInt64 (1000000 - (1000000 + x)) = -x := (toInt64_of_fits (by omega) (by omega)).trans (by omega)
  have mid : toInt64 (1000000 + x + (-x).tdiv 10) = 1000000 + (x + (-x).tdiv 10) :=
    (toInt64_of_fits (by omega) (by omega)).trans (Int.add_assoc _ _ _)
  have below : toInt64 (1000000 + (x + (-x).tdiv 10) - kHalfSpread) = 1000000 + (x + (-x).tdiv 10) - kHalfSpread :=
    toInt64_of_fits (by unfold kHalfSpread; omega) (by unfold kHalfSpread; omega)
  have above : toInt64 (1000000 + (x + (-x).tdiv 10) + kHalfSpread) = 1000000 + (x + (-x).tdiv 10) + kHalfSpread :=
    toInt64_of_fits (by unfold kHalfSpread; omega) (by unfold kHalfSpread; omega)
  have bidFits : (100 + rng.bidQty % 901) % 2 ^ 32 = 100 + rng.bidQty % 901 := Nat.mod_eq_of_lt (by omega)
  have askFits : (100 + rng.askQty % 901) % 2 ^ 32 = 100 + rng.askQty % 901 := Nat.mod_eq_of_lt (by omega)
  refine ⟨x, far.1, far.2, ?_⟩
  simp only [QuoteWalk.generateQuotes, reference, jitter, step, distance, moved, back, mid, below, above,
    bidFits, askFits]

theorem Near.generateQuotes {q : QuoteWalk} (near : q.Near) (rng : Draws) : (q.generateQuotes rng).2.Near := by
  obtain ⟨x, low, high, drawn⟩ := near.generateQuotes_eq rng
  obtain ⟨least, most⟩ := pulled_back low high
  rw [drawn]
  exact ⟨near.reference, by dsimp only; omega, by dsimp only; omega⟩

end QuoteWalk

structure QuoteSnapshot.Sound (quotes : QuoteSnapshot) : Prop where
  positive : 0 < quotes.bidPrice
  spread : quotes.askPrice - quotes.bidPrice = 1000
  bidQty : 100 ≤ quotes.bidQty ∧ quotes.bidQty ≤ 1000
  askQty : 100 ≤ quotes.askQty ∧ quotes.askQty ≤ 1000

theorem QuoteWalk.Near.sound {q : QuoteWalk} (near : q.Near) (rng : Draws) : (q.generateQuotes rng).1.Sound := by
  obtain ⟨x, low, high, drawn⟩ := near.generateQuotes_eq rng
  obtain ⟨least, most⟩ := pulled_back low high
  have bid := Nat.mod_lt rng.bidQty (by decide : 0 < 901)
  have ask := Nat.mod_lt rng.askQty (by decide : 0 < 901)
  rw [drawn]
  unfold kDefaultRefPrice kHalfSpread
  exact ⟨by dsimp only; omega, by dsimp only; omega, by dsimp only; omega, by dsimp only; omega⟩

/-! ### The publishers of all symbols -/

/-- Each publisher has prices of its own; the sequence and the datagrams are shared. -/
structure Publishers where
  wire : MarketDataPublisher := {}
  quotes : Nat → QuoteWalk := fun _ => {}

inductive Publish where
  | tick (symbolId : Nat) (rng : Draws) (now : Int)
  | trade (symbolId : Nat) (aggressorSide : Side) (price : Int) (qty : Nat) (ts : Int)
  | update (symbolId : Nat) (side : Side) (price : Int) (qty : Nat) (ts : Int)

namespace Publishers

def publishTick (p : Publishers) (symbolId : Nat) (rng : Draws) (now : Int) : Publishers :=
  let (quotes, walk) := (p.quotes symbolId).generateQuotes rng
  { wire := p.wire.publishTick symbolId quotes.bidPrice quotes.bidQty quotes.askPrice quotes.askQty now
    quotes := update p.quotes symbolId walk }

def step (p : Publishers) : Publish → Publishers
  | .tick symbolId rng now => p.publishTick symbolId rng now
  | .trade symbolId aggressorSide price qty ts =>
    { p with wire := p.wire.publishTrade symbolId aggressorSide price qty ts }
  | .update symbolId side price qty ts => { p with wire := p.wire.publishUpdate symbolId side price qty ts }

def run (calls : List Publish) : Publishers := calls.foldl step {}

theorem near_step {p : Publishers} (near : ∀ symbolId, (p.quotes symbolId).Near) (call : Publish) (symbolId : Nat) :
    ((p.step call).quotes symbolId).Near := by
  cases call with
  | tick mine rng now =>
    by_cases here : symbolId = mine
    · subst here
      simp only [step, publishTick, update_self]
      exact (near symbolId).generateQuotes rng
    · simp only [step, publishTick, update_of_ne here]
      exact near symbolId
  | trade | update => exact near symbolId

theorem near_run (calls : List Publish) (symbolId : Nat) : ((run calls).quotes symbolId).Near := by
  have fresh : ({} : QuoteWalk).Near := ⟨rfl, by decide, by decide⟩
  have start : ∀ symbolId, (({} : Publishers).quotes symbolId).Near := fun _ => fresh
  unfold run
  generalize ({} : Publishers) = p at *
  induction calls generalizing p with
  | nil => exact start symbolId
  | cons call rest ih => exact ih (p.step call) (near_step start call)

/-- After any calls a tick leaves the mid price within 2700 of the reference, and the two updates it sends carry sound
quotes. -/
theorem publishTick_sound (calls : List Publish) (symbolId : Nat) (rng : Draws) (now : Int) :
    kDefaultRefPrice - 2700 ≤ (((run calls).publishTick symbolId rng now).quotes symbolId).midPrice ∧
    (((run calls).publishTick symbolId rng now).quotes symbolId).midPrice ≤ kDefaultRefPrice + 2700 ∧
    ∃ quotes : QuoteSnapshot, quotes.Sound ∧
      ((run calls).publishTick symbolId rng now).wire.sent = (run calls).wire.sent ++
        [⟨(run calls).wire.sharedSeq, symbolId, .kBBOUpdate, .kBid, quotes.bidPrice, quotes.bidQty, now⟩,
          ⟨((run calls).wire.sharedSeq + 1) % 2 ^ 64, symbolId, .kBBOUpdate, .kAsk, quotes.askPrice,
            quotes.askQty, now⟩] := by
  have near := near_run calls symbolId
  have after := near.generateQuotes rng
  refine ⟨?_, ?_, _, near.sound rng, ?_⟩
  · simpa only [publishTick, update_self] using after.low
  · simpa only [publishTick, update_self] using after.high
  · exact List.append_assoc _ _ _

end Publishers

end TickToTrade.Exchange
