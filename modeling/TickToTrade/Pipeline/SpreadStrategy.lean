import TickToTrade.Net.RoundTrip
import TickToTrade.Oms.OrderManager

/-!
The spread strategy of `tick_to_trade/spread_strategy.hpp`. A history of market data is a list of
updates with the newest first, and so are the signals of a run.
-/

namespace TickToTrade.Pipeline
open List Option
open Oms (Signal)

def kBboUpdate : UInt8 := 0

structure SymbolBbo where
  bestBid : Int := 0
  bestAsk : Int := 0
  hasBid : Bool := false
  hasAsk : Bool := false
  buyNext : Bool := true

structure SpreadStrategy where
  spreadThreshold : Int
  defaultQty : Nat
  bbo : Nat → SymbolBbo := fun _ => {}
  signalsGenerated : Nat := 0

/-- Every side but `kBid` is an ask. -/
def SymbolBbo.record (bbo : SymbolBbo) (update : MarketDataUpdate) : SymbolBbo :=
  if update.side = Side.kBid.toByte then { bbo with bestBid := update.price, hasBid := true }
  else { bbo with bestAsk := update.price, hasAsk := true }

namespace SpreadStrategy

def onMarketData (nSymbols : Nat) (s : SpreadStrategy) (update : MarketDataUpdate) : Option Signal × SpreadStrategy :=
  if update.mdMsgType ≠ kBboUpdate then (none, s)
  else if update.symbolId = 0 ∨ nSymbols < update.symbolId then (none, s)
  else
    let idx := update.symbolId - 1
    let bbo := (s.bbo idx).record update
    let s := { s with bbo := Function.update s.bbo idx bbo }
    if !bbo.hasBid || !bbo.hasAsk then (none, s)
    else if bbo.bestAsk ≤ bbo.bestBid then (none, s)
    else
      let spread := toInt64 (bbo.bestAsk - bbo.bestBid)
      if s.spreadThreshold < spread then
        let side := if bbo.buyNext then Side.kBid else .kAsk
        let price := if side = .kBid then bbo.bestAsk else bbo.bestBid
        (some { side, price, qty := s.defaultQty, symbolId := update.symbolId },
          { s with
            bbo := Function.update s.bbo idx { bbo with buyNext := !bbo.buyNext }
            signalsGenerated := (s.signalsGenerated + 1) % 2 ^ 64 })
      else (none, s)

end SpreadStrategy

structure Quotes (nSymbols : Nat) (update : MarketDataUpdate) : Prop where
  bbo : update.mdMsgType = kBboUpdate
  positive : 0 < update.symbolId
  bound : update.symbolId ≤ nSymbols

/-! ### One update -/

namespace SymbolBbo

/-- Both sides are known and the spread that the strategy computes is wide enough. -/
def Fires (bbo : SymbolBbo) (threshold : Int) : Prop :=
  bbo.hasBid = true ∧ bbo.hasAsk = true ∧ bbo.bestBid < bbo.bestAsk ∧ threshold < toInt64 (bbo.bestAsk - bbo.bestBid)
  deriving Decidable

def nextSide (bbo : SymbolBbo) : Side := if bbo.buyNext then .kBid else .kAsk

def signal (bbo : SymbolBbo) (qty symbolId : Nat) : Signal where
  side := bbo.nextSide
  price := if bbo.nextSide = .kBid then bbo.bestAsk else bbo.bestBid
  qty
  symbolId

end SymbolBbo

namespace SpreadStrategy

variable {n : Nat} {s : SpreadStrategy} {update : MarketDataUpdate}

theorem onMarketData_ignored (ignored : ¬ Quotes n update) : s.onMarketData n update = (none, s) := by
  unfold onMarketData
  by_cases bbo : update.mdMsgType ≠ kBboUpdate
  · rw [if_pos bbo]
  · have outside : update.symbolId = 0 ∨ n < update.symbolId := by
      by_contra inside
      exact ignored ⟨not_ne_iff.mp bbo, by omega, by omega⟩
    rw [if_neg bbo, if_pos outside]

theorem onMarketData_quotes (quotes : Quotes n update) :
    s.onMarketData n update =
      let bbo := (s.bbo (update.symbolId - 1)).record update
      if bbo.Fires s.spreadThreshold then
        (some (bbo.signal s.defaultQty update.symbolId),
          { s with
            bbo := Function.update s.bbo (update.symbolId - 1) { bbo with buyNext := !bbo.buyNext }
            signalsGenerated := (s.signalsGenerated + 1) % 2 ^ 64 })
      else (none, { s with bbo := Function.update s.bbo (update.symbolId - 1) bbo }) := by
  obtain ⟨bbo, positive, bound⟩ := quotes
  unfold onMarketData
  rw [if_neg (not_not.mpr bbo), if_neg (by omega)]
  dsimp only
  generalize (s.bbo (update.symbolId - 1)).record update = bbo
  by_cases seen : bbo.hasBid = true ∧ bbo.hasAsk = true
  · rw [if_neg (by simp [seen])]
    by_cases crossed : bbo.bestAsk ≤ bbo.bestBid
    · rw [if_pos crossed, if_neg fun fires => absurd fires.2.2.1 (Int.not_lt.mpr crossed)]
    · rw [if_neg crossed]
      by_cases wide : s.spreadThreshold < toInt64 (bbo.bestAsk - bbo.bestBid)
      · have fires : bbo.Fires s.spreadThreshold := ⟨seen.1, seen.2, Int.not_le.mp crossed, wide⟩
        rw [if_pos wide, if_pos fires, Function.update_idem]
        rfl
      · rw [if_neg wide, if_neg fun fires => wide fires.2.2.2]
  · rw [if_pos (by simpa [imp_iff_not_or] using seen), if_neg fun fires => seen ⟨fires.1, fires.2.1⟩]

end SpreadStrategy

/-! ### A history of updates -/

def latest (side : Side) (symbolId : Nat) (history : List MarketDataUpdate) : Option Int :=
  (history.find? fun u => u.mdMsgType = kBboUpdate ∧ u.symbolId = symbolId ∧
    (u.side = Side.kBid.toByte ↔ side = .kBid)).map (·.price)

structure Trading where
  strategy : SpreadStrategy
  signals : List Signal := []

namespace Trading

def step (nSymbols : Nat) (t : Trading) (update : MarketDataUpdate) : Trading :=
  let (out, strategy) := t.strategy.onMarketData nSymbols update
  { strategy, signals := out.toList ++ t.signals }

def signalsOf (t : Trading) (symbolId : Nat) : List Signal := t.signals.filter fun signal => signal.symbolId = symbolId

end Trading

section History

variable (nSymbols : Nat) (threshold : Int) (qty : Nat)

def after : List MarketDataUpdate → Trading
  | [] => { strategy := { spreadThreshold := threshold, defaultQty := qty } }
  | u :: earlier => (after earlier).step nSymbols u

def answer (earlier : List MarketDataUpdate) (u : MarketDataUpdate) : Option Signal :=
  ((after nSymbols threshold qty earlier).strategy.onMarketData nSymbols u).1

/-- Both sides of the symbol have been seen, and the latest ask exceeds the latest bid by more than the threshold. -/
def Wide (symbolId : Nat) (history : List MarketDataUpdate) : Prop :=
  ∃ bid ask, latest .kBid symbolId history = some bid ∧ latest .kAsk symbolId history = some ask ∧
    0 < ask - bid ∧ threshold < ask - bid

/-- The first signal buys and each one turns the side. -/
def Alternates : List Signal → Prop
  | [] => True
  | signal :: earlier => signal.side = (if earlier.length % 2 = 0 then .kBid else .kAsk) ∧ Alternates earlier

structure Trades (history : List MarketDataUpdate) : Prop where
  exact : ∀ u earlier, u :: earlier <:+ history → Quotes nSymbols u →
    ((answer nSymbols threshold qty earlier u).isSome = true ↔ Wide threshold u.symbolId (u :: earlier))
  alternates : ∀ symbolId, Alternates ((after nSymbols threshold qty history).signalsOf symbolId)
  priced : ∀ u earlier signal, u :: earlier <:+ history → answer nSymbols threshold qty earlier u = some signal →
    signal.symbolId = u.symbolId ∧ latest signal.side.opposite u.symbolId (u :: earlier) = some signal.price
  independent : ∀ symbolId, (after nSymbols threshold qty history).signalsOf symbolId =
    (after nSymbols threshold qty (history.filter fun u => u.symbolId = symbolId)).signalsOf symbolId

/-- The latest prices of an updated symbol are less than `2 ^ 63` apart. -/
def SpreadFits (history : List MarketDataUpdate) : Prop :=
  ∀ u earlier bid ask, u :: earlier <:+ history → Quotes nSymbols u →
    latest .kBid u.symbolId (u :: earlier) = some bid →
    latest .kAsk u.symbolId (u :: earlier) = some ask → ask - bid < 2 ^ 63

end History

/-! ### What the strategy knows of a symbol -/

variable {n : Nat} {threshold : Int} {qty symbolId : Nat} {u : MarketDataUpdate}
  {history earlier : List MarketDataUpdate}

theorem latest_cons (side : Side) :
    latest side symbolId (u :: earlier) =
      if u.mdMsgType = kBboUpdate ∧ u.symbolId = symbolId ∧ (u.side = Side.kBid.toByte ↔ side = .kBid) then some u.price
      else latest side symbolId earlier := by
  unfold latest
  rw [find?_cons]
  split <;> simp_all

/-- The state of a symbol holds its latest prices, and the side that its next signal has. -/
structure Mirrors (t : Trading) (symbolId : Nat) (history : List MarketDataUpdate) : Prop where
  bid : latest .kBid symbolId history =
    if (t.strategy.bbo (symbolId - 1)).hasBid then some (t.strategy.bbo (symbolId - 1)).bestBid else none
  ask : latest .kAsk symbolId history =
    if (t.strategy.bbo (symbolId - 1)).hasAsk then some (t.strategy.bbo (symbolId - 1)).bestAsk else none
  turn : (t.strategy.bbo (symbolId - 1)).buyNext = decide ((t.signalsOf symbolId).length % 2 = 0)

theorem signalsOf_cons (t : Trading) (out : Option Signal) (strategy : SpreadStrategy) (symbolId : Nat) :
    ({ strategy, signals := out.toList ++ t.signals } : Trading).signalsOf symbolId =
      (out.toList.filter fun signal => signal.symbolId = symbolId) ++ t.signalsOf symbolId := filter_append ..

variable {t : Trading}

/-- An update of another symbol, or of none, leaves the state and the signals of a symbol alone. -/
theorem step_other (other : Quotes n u → u.symbolId ≠ symbolId) :
    (t.step n u).signalsOf symbolId = t.signalsOf symbolId ∧
      (0 < symbolId → (t.step n u).strategy.bbo (symbolId - 1) = t.strategy.bbo (symbolId - 1)) := by
  unfold Trading.step
  by_cases quotes : Quotes n u
  · have apart := other quotes
    have positive := quotes.positive
    rw [SpreadStrategy.onMarketData_quotes quotes]
    dsimp only
    split
    · refine ⟨?_, fun known => Function.update_of_ne (by omega) _ _⟩
      rw [signalsOf_cons]
      simp [SymbolBbo.signal, apart]
    · exact ⟨rfl, fun known => Function.update_of_ne (by omega) _ _⟩
  · rw [SpreadStrategy.onMarketData_ignored quotes]
    exact ⟨rfl, fun _ => rfl⟩

theorem step_settings (t : Trading) : (t.step n u).strategy.spreadThreshold = t.strategy.spreadThreshold ∧
    (t.step n u).strategy.defaultQty = t.strategy.defaultQty := by
  unfold Trading.step
  by_cases quotes : Quotes n u
  · rw [SpreadStrategy.onMarketData_quotes quotes]
    dsimp only
    split <;> exact ⟨rfl, rfl⟩
  · rw [SpreadStrategy.onMarketData_ignored quotes]
    exact ⟨rfl, rfl⟩

theorem after_settings (n : Nat) (threshold : Int) (qty : Nat) (history : List MarketDataUpdate) :
    (after n threshold qty history).strategy.spreadThreshold = threshold ∧
    (after n threshold qty history).strategy.defaultQty = qty := by
  induction history with
  | nil => exact ⟨rfl, rfl⟩
  | cons u earlier ih =>
    obtain ⟨sameThreshold, sameQty⟩ := step_settings (n := n) (u := u) (after n threshold qty earlier)
    exact ⟨sameThreshold.trans ih.1, sameQty.trans ih.2⟩

structure Recorded (bbo : SymbolBbo) (symbolId : Nat) (history : List MarketDataUpdate) : Prop where
  bid : latest .kBid symbolId history = if bbo.hasBid then some bbo.bestBid else none
  ask : latest .kAsk symbolId history = if bbo.hasAsk then some bbo.bestAsk else none

theorem Mirrors.record (mirrors : Mirrors t u.symbolId earlier) (quotes : Quotes n u) :
    Recorded ((t.strategy.bbo (u.symbolId - 1)).record u) u.symbolId (u :: earlier) := by
  have bid := mirrors.bid
  have ask := mirrors.ask
  unfold SymbolBbo.record
  constructor
  · rw [latest_cons]
    by_cases isBid : u.side = Side.kBid.toByte <;> simp [quotes.bbo, isBid, bid]
  · rw [latest_cons]
    by_cases isBid : u.side = Side.kBid.toByte <;> simp [quotes.bbo, isBid, ask]

theorem record_buyNext (bbo : SymbolBbo) (u : MarketDataUpdate) : (bbo.record u).buyNext = bbo.buyNext := by
  unfold SymbolBbo.record
  split <;> rfl

variable {bbo : SymbolBbo}

theorem step_mine (quotes : Quotes n u) (recorded : (t.strategy.bbo (u.symbolId - 1)).record u = bbo) :
    (bbo.Fires t.strategy.spreadThreshold ∧
      (t.step n u).signalsOf u.symbolId = bbo.signal t.strategy.defaultQty u.symbolId :: t.signalsOf u.symbolId ∧
      (t.step n u).strategy.bbo (u.symbolId - 1) = { bbo with buyNext := !bbo.buyNext }) ∨
    (¬ bbo.Fires t.strategy.spreadThreshold ∧ (t.step n u).signalsOf u.symbolId = t.signalsOf u.symbolId ∧
      (t.step n u).strategy.bbo (u.symbolId - 1) = bbo) := by
  unfold Trading.step
  rw [SpreadStrategy.onMarketData_quotes quotes, recorded]
  dsimp only
  split
  case isTrue fires =>
    refine .inl ⟨fires, ?_, Function.update_self _ _ _⟩
    rw [signalsOf_cons]
    simp [SymbolBbo.signal]
  case isFalse waits => exact .inr ⟨waits, rfl, Function.update_self _ _ _⟩

theorem Mirrors.step (mirrors : Mirrors t symbolId earlier) (positive : 0 < symbolId) (bound : symbolId ≤ n) :
    Mirrors (t.step n u) symbolId (u :: earlier) := by
  by_cases mine : Quotes n u ∧ u.symbolId = symbolId
  · obtain ⟨quotes, rfl⟩ := mine
    have recorded := mirrors.record quotes
    have turn := (record_buyNext (t.strategy.bbo (u.symbolId - 1)) u).trans mirrors.turn
    generalize same : (t.strategy.bbo (u.symbolId - 1)).record u = bbo at recorded turn
    rcases step_mine quotes same with ⟨-, signals, state⟩ | ⟨-, signals, state⟩
    · refine ⟨?_, ?_, ?_⟩ <;> rw [state]
      · exact recorded.bid
      · exact recorded.ask
      · dsimp only
        rw [turn, signals, length_cons, ← decide_not, decide_eq_decide]
        omega
    · refine ⟨?_, ?_, ?_⟩ <;> rw [state]
      · exact recorded.bid
      · exact recorded.ask
      · rw [turn, signals]
  · have other : Quotes n u → u.symbolId ≠ symbolId := fun quotes same => mine ⟨quotes, same⟩
    have unquoted : ∀ side : Side,
        ¬ (u.mdMsgType = kBboUpdate ∧ u.symbolId = symbolId ∧ (u.side = Side.kBid.toByte ↔ side = .kBid)) := by
      rintro side ⟨bbo, same, -⟩
      exact mine ⟨⟨bbo, same ▸ positive, same ▸ bound⟩, same⟩
    obtain ⟨signals, state⟩ := step_other (t := t) other
    refine ⟨?_, ?_, ?_⟩
    · rw [latest_cons, if_neg (unquoted _), state positive]
      exact mirrors.bid
    · rw [latest_cons, if_neg (unquoted _), state positive]
      exact mirrors.ask
    · rw [state positive, signals]
      exact mirrors.turn

theorem after_mirrors (positive : 0 < symbolId) (bound : symbolId ≤ n) (history : List MarketDataUpdate) :
    Mirrors (after n threshold qty history) symbolId history := by
  induction history with
  | nil => exact ⟨rfl, rfl, rfl⟩
  | cons u earlier ih => exact ih.step positive bound

/-! ### The signals -/

theorem after_alternates (history : List MarketDataUpdate) (symbolId : Nat) :
    Alternates ((after n threshold qty history).signalsOf symbolId) := by
  induction history with
  | nil => trivial
  | cons u earlier ih =>
    rw [after]
    by_cases mine : Quotes n u ∧ u.symbolId = symbolId
    · obtain ⟨quotes, rfl⟩ := mine
      have mirrors : Mirrors (after n threshold qty earlier) u.symbolId earlier :=
        after_mirrors quotes.positive quotes.bound earlier
      rcases step_mine quotes rfl with ⟨-, signals, -⟩ | ⟨-, signals, -⟩ <;> rw [signals]
      · refine ⟨?_, ih⟩
        simp only [SymbolBbo.signal, SymbolBbo.nextSide, record_buyNext, mirrors.turn, decide_eq_true_eq]
      · exact ih
    · rw [(step_other fun quotes same => mine ⟨quotes, same⟩).1]
      exact ih

theorem after_independent (history : List MarketDataUpdate) (symbolId : Nat) :
    (after n threshold qty history).signalsOf symbolId =
        (after n threshold qty (history.filter fun u => u.symbolId = symbolId)).signalsOf symbolId ∧
      (0 < symbolId → (after n threshold qty history).strategy.bbo (symbolId - 1) =
        (after n threshold qty (history.filter fun u => u.symbolId = symbolId)).strategy.bbo (symbolId - 1)) := by
  induction history with
  | nil => exact ⟨rfl, fun _ => rfl⟩
  | cons u earlier ih =>
    obtain ⟨signals, state⟩ := ih
    by_cases here : u.symbolId = symbolId
    · rw [filter_cons_of_pos (by simpa using here), after, after]
      by_cases quotes : Quotes n u
      · subst here
        have recorded := congrArg (·.record u) (state quotes.positive)
        rcases step_mine quotes rfl with ⟨fires, signals₁, state₁⟩ | ⟨waits, signals₁, state₁⟩ <;>
          rcases step_mine quotes recorded.symm with ⟨fires', signals₂, state₂⟩ | ⟨waits', signals₂, state₂⟩
        · rw [signals₁, signals₂, state₁, state₂, signals, (after_settings n threshold qty _).2,
            (after_settings n threshold qty _).2]
          exact ⟨rfl, fun _ => rfl⟩
        · rw [(after_settings n threshold qty _).1] at fires waits'
          exact absurd fires waits'
        · rw [(after_settings n threshold qty _).1] at fires' waits
          exact absurd fires' waits
        · rw [signals₁, signals₂, state₁, state₂, signals]
          exact ⟨rfl, fun _ => rfl⟩
      · have other : Quotes n u → u.symbolId ≠ symbolId := fun yes => absurd yes quotes
        obtain ⟨signals₁, state₁⟩ := step_other (t := after n threshold qty earlier) other
        obtain ⟨signals₂, state₂⟩ :=
          step_other (t := after n threshold qty (earlier.filter fun u => u.symbolId = symbolId)) other
        exact ⟨signals₁.trans (signals.trans signals₂.symm),
          fun known => (state₁ known).trans ((state known).trans (state₂ known).symm)⟩
    · rw [filter_cons_of_neg (by simpa using here), after]
      obtain ⟨signals₁, state₁⟩ := step_other (t := after n threshold qty earlier) fun _ => here
      exact ⟨signals₁.trans signals, fun known => (state₁ known).trans (state known)⟩

theorem answer_quotes (quotes : Quotes n u) (earlier : List MarketDataUpdate) :
    answer n threshold qty earlier u =
      let bbo := ((after n threshold qty earlier).strategy.bbo (u.symbolId - 1)).record u
      if bbo.Fires threshold then some (bbo.signal qty u.symbolId) else none := by
  obtain ⟨sameThreshold, sameQty⟩ := after_settings n threshold qty earlier
  unfold answer
  rw [SpreadStrategy.onMarketData_quotes quotes, sameThreshold, sameQty]
  dsimp only
  split <;> rfl

theorem fires_iff (recorded : Recorded bbo symbolId history)
    (fits : ∀ bid ask, latest .kBid symbolId history = some bid → latest .kAsk symbolId history = some ask →
      ask - bid < 2 ^ 63) :
    bbo.Fires threshold ↔ Wide threshold symbolId history := by
  obtain ⟨bid, ask⟩ := recorded
  unfold SymbolBbo.Fires Wide
  rw [bid, ask] at fits ⊢
  by_cases seen : bbo.hasBid = true ∧ bbo.hasAsk = true
  · obtain ⟨hasBid, hasAsk⟩ := seen
    simp only [hasBid, hasAsk, if_true, some.injEq, true_and] at fits ⊢
    have small := fits _ _ rfl rfl
    constructor
    · rintro ⟨positive, wide⟩
      rw [toInt64_of_fits (by omega) small] at wide
      exact ⟨_, _, rfl, rfl, by omega, wide⟩
    · rintro ⟨_, _, rfl, rfl, positive, wide⟩
      rw [toInt64_of_fits (by omega) small]
      exact ⟨by omega, wide⟩
  · refine iff_of_false (fun fires => seen ⟨fires.1, fires.2.1⟩) ?_
    rintro ⟨b, a, knownBid, knownAsk, -⟩
    refine seen ⟨?_, ?_⟩ <;> by_contra unseen
    · simp [unseen] at knownBid
    · simp [unseen] at knownAsk

theorem not_fires {bid ask : Int} (recorded : Recorded bbo symbolId history) (nonneg : 0 ≤ threshold)
    (knownBid : latest .kBid symbolId history = some bid) (knownAsk : latest .kAsk symbolId history = some ask)
    (bidFits : FitsInt64 bid) (askFits : FitsInt64 ask) (large : 2 ^ 63 ≤ ask - bid) : ¬ bbo.Fires threshold := by
  rintro ⟨hasBid, hasAsk, -, wide⟩
  have sameBid := recorded.bid
  have sameAsk := recorded.ask
  rw [knownBid, if_pos hasBid] at sameBid
  rw [knownAsk, if_pos hasAsk] at sameAsk
  cases sameBid
  cases sameAsk
  unfold FitsInt64 at bidFits askFits
  unfold toInt64 at wide
  omega

theorem latest_fits {side : Side} {price : Int} (fits : ∀ u ∈ history, FitsInt64 u.price)
    (found : latest side symbolId history = some price) : FitsInt64 price := by
  obtain ⟨u, member, rfl⟩ := map_eq_some_iff.mp found
  exact fits u (mem_of_find?_eq_some member)

theorem after_priced {signal : Signal} (answered : answer n threshold qty earlier u = some signal) :
    signal.symbolId = u.symbolId ∧ latest signal.side.opposite u.symbolId (u :: earlier) = some signal.price := by
  by_cases quotes : Quotes n u
  · have mirrors : Mirrors (after n threshold qty earlier) u.symbolId earlier :=
      after_mirrors quotes.positive quotes.bound earlier
    have recorded := mirrors.record quotes
    rw [answer_quotes quotes] at answered
    dsimp only at answered
    generalize ((after n threshold qty earlier).strategy.bbo (u.symbolId - 1)).record u = bbo at recorded answered
    split at answered
    case isTrue fires =>
      cases answered
      refine ⟨rfl, ?_⟩
      unfold SymbolBbo.signal
      cases bbo.nextSide with
      | kBid => exact recorded.ask.trans (if_pos fires.2.1)
      | kAsk => exact recorded.bid.trans (if_pos fires.1)
    case isFalse => cases answered
  · unfold answer at answered
    rw [SpreadStrategy.onMarketData_ignored quotes] at answered
    cases answered

/-- The strategy trades as described on exactly the histories in which no spread of an updated symbol reaches `2 ^ 63`.
-/
theorem trades_iff_spreadFits (nonneg : 0 ≤ threshold) (small : threshold < 2 ^ 63)
    (prices : ∀ u ∈ history, FitsInt64 u.price) : Trades n threshold qty history ↔ SpreadFits n history := by
  have recorded : ∀ {u earlier}, Quotes n u →
      Recorded (((after n threshold qty earlier).strategy.bbo (u.symbolId - 1)).record u) u.symbolId (u :: earlier) :=
    fun quotes => (after_mirrors quotes.positive quotes.bound _).record quotes
  constructor
  · intro trades u earlier bid ask suffix quotes knownBid knownAsk
    by_contra large
    have large := Int.not_lt.mp large
    have fits : ∀ v ∈ u :: earlier, FitsInt64 v.price := fun v member => prices v (suffix.subset member)
    have silent := not_fires (recorded quotes) nonneg knownBid knownAsk (latest_fits fits knownBid)
      (latest_fits fits knownAsk) large
    have answered := (trades.exact u earlier suffix quotes).mpr ⟨bid, ask, knownBid, knownAsk, by omega, by omega⟩
    rw [answer_quotes quotes] at answered
    dsimp only at answered
    rw [if_neg silent] at answered
    cases answered
  · intro fits
    refine ⟨fun u earlier suffix quotes => ?_, after_alternates history, fun u earlier signal _ => after_priced,
      fun symbolId => (after_independent history symbolId).1⟩
    rw [answer_quotes quotes, ← fires_iff (recorded quotes) fun bid ask => fits u earlier bid ask suffix quotes]
    dsimp only
    split
    case isTrue fires => simpa using fires
    case isFalse silent => simpa using silent

def narrowQuotes : List MarketDataUpdate := [⟨2, 1, kBboUpdate, 1, 120, 1, 0⟩, ⟨1, 1, kBboUpdate, 0, 100, 1, 0⟩]

theorem trades_iff_spreadFits_narrow : (∀ u ∈ narrowQuotes, FitsInt64 u.price) ∧
    (Trades 1 5 10 narrowQuotes ↔ SpreadFits 1 narrowQuotes) :=
  ⟨by decide, trades_iff_spreadFits (by decide) (by decide) (by decide)⟩

def widestQuotes : List MarketDataUpdate :=
    [⟨2, 1, kBboUpdate, 1, 2 ^ 63 - 1, 1, 0⟩, ⟨1, 1, kBboUpdate, 0, -2 ^ 63, 1, 0⟩]

/-- The widest spread of all gives no signal. -/
theorem widest_not_trades : (∀ u ∈ widestQuotes, FitsInt64 u.price) ∧ Wide 0 1 widestQuotes ∧
    (after 1 0 10 widestQuotes).signals = [] ∧ ¬ Trades 1 0 10 widestQuotes := by
  have wide : Wide 0 1 widestQuotes := ⟨-2 ^ 63, 2 ^ 63 - 1, by decide, by decide, by decide, by decide⟩
  refine ⟨by decide, wide, by decide, fun trades => ?_⟩
  have answered := (trades.exact _ _ (suffix_refl widestQuotes) ⟨rfl, by decide, by decide⟩).mpr wide
  exact absurd answered (by decide)

end TickToTrade.Pipeline
