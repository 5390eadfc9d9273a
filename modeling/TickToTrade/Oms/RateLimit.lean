import TickToTrade.Oms.Effects
import TickToTrade.Lib.TokenBucket

/-!
The rate of new orders. The manager's bucket counts in machine words; it never grants more than a token
bucket over unbounded time.
-/

namespace TickToTrade.Oms
open OrderManager List Option

variable {cfg : Config} {om om₁ om' : OrderManager} {sent : List Request} {now t₁ t₂ clock : Int}
variable {sendTs : Int} {b : TokenBucket} {lag : Nat} {a a' : Logged}

def Op.reading : Op → Option Int
  | .signal _ now _ => some now
  | _ => none

/-- The call of `on_signal` returned true and read the clock in `[t₁, t₂]`. -/
def Event.generates (t₁ t₂ : Int) (e : Event) : Bool :=
  match e.op, e.sent with
  | .signal _ now _, .newOrder _ :: _ => t₁ ≤ now ∧ now ≤ t₂
  | _, _ => false

structure SameBucket (om om' : OrderManager) : Prop where
  tokens : om'.tokens = om.tokens
  refillTs : om'.lastRefillTs = om.lastRefillTs

theorem SameBucket.refl : SameBucket om om := ⟨rfl, rfl⟩

theorem SameBucket.trans (first : SameBucket om om₁) (second : SameBucket om₁ om') : SameBucket om om' :=
  ⟨second.tokens.trans first.tokens, second.refillTs.trans first.refillTs⟩

/-! ### The calls that do not touch the bucket -/

theorem clearActiveIfMatch_bucket (cfg : Config) (om : OrderManager) (symbolId : Nat) (side : Side) (id : Nat) :
    SameBucket om (om.clearActiveIfMatch cfg symbolId side id) := by
  obtain ⟨activeOrders, cleared⟩ := clearActiveIfMatch_eq cfg om symbolId side id
  rw [cleared]
  exact ⟨rfl, rfl⟩

theorem releaseSymbol_bucket {symbolId : Nat} (done : om.releaseSymbol cfg symbolId = some om') :
    SameBucket om om' := by
  obtain ⟨_, _, same⟩ := bind_eq_some_iff.mp done
  cases same
  exact ⟨rfl, rfl⟩

theorem eraseOutstanding_bucket {id : Nat} (done : om.eraseOutstanding id = some om') : SameBucket om om' := by
  obtain ⟨_, _, same⟩ := bind_eq_some_iff.mp done
  cases same
  exact ⟨rfl, rfl⟩

theorem maybeCompactOutstanding_bucket (om : OrderManager) : SameBucket om om.maybeCompactOutstanding := by
  obtain ⟨outstanding, compacted⟩ := maybeCompactOutstanding_frame om
  rw [compacted]
  exact ⟨rfl, rfl⟩

theorem checkDrainComplete_bucket (om : OrderManager) : SameBucket om om.checkDrainComplete := by
  unfold checkDrainComplete
  split
  · exact ⟨rfl, rfl⟩
  · exact .refl

theorem untrack_bucket {id : Nat} {info : OrderInfo} (done : om.untrack cfg id info = some om') :
    SameBucket om om' := by
  obtain ⟨⟨_, wheel⟩, _, released⟩ := bind_eq_some_iff.mp done
  have cleared := (clearActiveIfMatch_bucket cfg { om with timeoutWheel := wheel } info.symbolId info.side id).trans
    (releaseSymbol_bucket released)
  exact { cleared with }

theorem dropOrder_bucket {id : Nat} {info : Option OrderInfo} (done : om.dropOrder cfg id info = some om') :
    SameBucket om om' := by
  have dropped : ∀ {om₁}, (om₁.eraseOutstanding id).bind (fun om => some om.maybeCompactOutstanding) = some om' →
      SameBucket om₁ om' := by
    intro om₁ done
    obtain ⟨om₂, erased, same⟩ := bind_eq_some_iff.mp done
    cases same
    exact (eraseOutstanding_bucket erased).trans (maybeCompactOutstanding_bucket om₂)
  cases info with
  | none => exact dropped done
  | some info =>
    obtain ⟨om₁, untracked, done⟩ := bind_eq_some_iff.mp done
    exact (untrack_bucket untracked).trans (dropped done)

theorem expireOrders_bucket {nowNs : Int} {ids : List Nat} {batch batch' : List CancelOrder}
    (done : expireOrders cfg nowNs ids om batch = some (batch', om')) : SameBucket om om' := by
  induction ids generalizing om batch with
  | nil =>
    cases done
    exact .refl
  | cons id ids ih =>
    obtain ⟨info, _, done⟩ := bind_eq_some_iff.mp done
    cases info with
    | none => exact ih done
    | some info =>
      obtain ⟨om₁, released, done⟩ := bind_eq_some_iff.mp done
      obtain ⟨om₂, erased, done⟩ := bind_eq_some_iff.mp done
      have closed := (clearActiveIfMatch_bucket cfg om info.symbolId info.side id).trans
        ((releaseSymbol_bucket released).trans (eraseOutstanding_bucket erased))
      have counted : SameBucket om₂ (om₂.count .timeoutsFired 1) := ⟨rfl, rfl⟩
      exact closed.trans (counted.trans (ih done))

theorem apply_bucket {op : Op} (ok : om.Ok cfg) (other : op.reading = none)
    (applied : om.apply cfg op = some (sent, om')) : SameBucket om om' := by
  cases apply_cases ok applied with
  | refused => cases other
  | placed => cases other
  | unmodified => exact .refl
  | modified => exact ⟨rfl, rfl⟩
  | acked => exact ⟨rfl, rfl⟩
  | modifyAcked => exact ⟨rfl, rfl⟩
  | modifyUnknown => exact ⟨rfl, rfl⟩
  | @modifyRejected reject info found =>
    have cleared := clearActiveIfMatch_bucket cfg om info.symbolId info.side reject.clientOrderId
    exact { cleared with }
  | rejected dropped => exact (dropOrder_bucket dropped).trans ⟨rfl, rfl⟩
  | filled => exact ⟨rfl, rfl⟩
  | completed last dropped booked =>
    have closed := dropOrder_bucket dropped
    exact { closed with }
  | @cancelled _ om₁ dropped => exact (dropOrder_bucket dropped).trans (checkDrainComplete_bucket om₁)
  | cancelUnknown => exact checkDrainComplete_bucket om
  | @cancelRejected _ om₁ known dropped => exact (dropOrder_bucket dropped).trans (checkDrainComplete_bucket om₁)
  | early => exact .refl
  | @expired _ _ _ _ om₁ _ advanced =>
    rw [advanced.compacted]
    have closed := (expireOrders_bucket advanced.expired).trans (maybeCompactOutstanding_bucket om₁)
    exact { closed with }
  | killed => exact ⟨rfl, rfl⟩
  | killedAgain => exact .refl

/-! ### The manager's bucket against an ideal one -/

/-- The manager grants no more than the ideal bucket `b`. Its refill time lags behind by `lag` rounds of the
32-bit number of new tokens. -/
structure Follows (cfg : Config) (clock : Int) (om : OrderManager) (b : TokenBucket) (lag : Nat) : Prop where
  tokens : om.tokens ≤ b.tokens
  started : 0 ≤ om.lastRefillTs
  past : om.lastRefillTs = 0 ∨ om.lastRefillTs ≤ clock
  behind : b.granted = om.lastRefillTs + (lag * 2 ^ 32 : Nat) * cfg.refillIntervalNs
  lagging : lag = 0 ∨ b.granted ≤ clock

/-- `elapsed / refill_interval_ns_` before it is cut to 32 bits. -/
def intervals (cfg : Config) (om : OrderManager) (now : Int) : Nat :=
  ((now - om.lastRefillTs) / cfg.refillIntervalNs).toNat

theorem newTokens_le (positive : 0 < cfg.refillIntervalNs) (past : om.lastRefillTs ≤ now) :
    (intervals cfg om now % 2 ^ 32 : Nat) * cfg.refillIntervalNs ≤ now - om.lastRefillTs := by
  have whole : (intervals cfg om now : Int) = (now - om.lastRefillTs) / cfg.refillIntervalNs :=
    Int.toNat_of_nonneg (Int.ediv_nonneg (by omega) positive.le)
  have fewer : ((intervals cfg om now % 2 ^ 32 : Nat) : Int) ≤ (now - om.lastRefillTs) / cfg.refillIntervalNs :=
    whole ▸ Int.ofNat_le.mpr (Nat.mod_le _ _)
  exact (Int.mul_le_mul_of_nonneg_right fewer positive.le).trans (Int.ediv_mul_le _ positive.ne')

theorem intervals_eq_zero (short : now - om.lastRefillTs < cfg.refillIntervalNs) (positive : 0 < cfg.refillIntervalNs) :
    intervals cfg om now = 0 := by
  have : (now - om.lastRefillTs) / cfg.refillIntervalNs < 1 := Int.ediv_lt_of_lt_mul positive (by omega)
  unfold intervals
  omega

/-- No computation of the refill overflows but the number of new tokens and the sum of the tokens. -/
theorem refill_grants (positive : 0 < cfg.refillIntervalNs) (within : om.tokens ≤ cfg.maxOrdersPerWindow)
    (started : 0 ≤ om.lastRefillTs) (past : om.lastRefillTs = 0 ∨ om.lastRefillTs ≤ now) (low : -2 ^ 63 ≤ now)
    (high : now < 2 ^ 63) (refilled : om.refill cfg now = some om') :
    om'.tokens ≤ min (om.tokens + intervals cfg om now % 2 ^ 32) cfg.maxOrdersPerWindow ∧
      om'.lastRefillTs = om.lastRefillTs + (intervals cfg om now % 2 ^ 32 : Nat) * cfg.refillIntervalNs := by
  have elapsed : toInt64 (now - om.lastRefillTs) = now - om.lastRefillTs := toInt64_of_fits (by omega) (by omega)
  unfold refill at refilled
  rw [elapsed] at refilled
  dsimp only at refilled
  split at refilled
  · rename_i short
    cases refilled
    rw [intervals_eq_zero short positive]
    simp [within]
  rename_i long
  rw [if_neg positive.ne'] at refilled
  cases refilled
  have newTokens : Int.toNat ((now - om.lastRefillTs).tdiv cfg.refillIntervalNs % 2 ^ 32) =
      intervals cfg om now % 2 ^ 32 := by
    have nonneg : 0 ≤ (now - om.lastRefillTs) / cfg.refillIntervalNs := Int.ediv_nonneg (by omega) positive.le
    rw [Int.tdiv_eq_ediv_of_nonneg (by omega)]
    unfold intervals
    omega
  have fits := newTokens_le positive (past.elim (fun zero => by omega) id)
  have nonneg : 0 ≤ ((intervals cfg om now % 2 ^ 32 : Nat) : Int) * cfg.refillIntervalNs :=
    Int.mul_nonneg (Int.natCast_nonneg _) positive.le
  simp only [newTokens]
  refine ⟨?_, toInt64_of_fits (by omega) (by omega)⟩
  have := Nat.mod_le (om.tokens + intervals cfg om now % 2 ^ 32) (2 ^ 32)
  omega

section

variable (follows : Follows cfg clock om b lag)
include follows

/-- The manager sees the intervals of the ideal bucket and the rounds it is behind. -/
theorem Follows.intervals_eq (positive : 0 < cfg.refillIntervalNs) (later : clock ≤ now) :
    intervals cfg om now = b.due cfg.refillIntervalNs now + lag * 2 ^ 32 := by
  have split : (now - om.lastRefillTs) / cfg.refillIntervalNs =
      (now - b.granted) / cfg.refillIntervalNs + (lag * 2 ^ 32 : Nat) := by
    rw [← Int.add_mul_ediv_right _ _ positive.ne', follows.behind]
    ring_nf
  unfold intervals TokenBucket.due
  rw [split]
  rcases follows.lagging with caught | behind
  · simp [caught]
  · have := Int.ediv_nonneg (Int.sub_nonneg.mpr (behind.trans later)) positive.le
    omega

theorem Follows.refill (positive : 0 < cfg.refillIntervalNs)
    (within : b.tokens ≤ cfg.maxOrdersPerWindow) (later : clock ≤ now) (low : -2 ^ 63 ≤ now) (high : now < 2 ^ 63)
    (refilled : om.refill cfg now = some om') :
    ∃ lag', Follows cfg now om' (b.refill cfg.maxOrdersPerWindow cfg.refillIntervalNs now) lag' := by
  have past : om.lastRefillTs = 0 ∨ om.lastRefillTs ≤ now := follows.past.imp_right fun past => past.trans later
  obtain ⟨tokens, refillTs⟩ :=
    refill_grants positive (follows.tokens.trans within) follows.started past low high refilled
  have seen := follows.intervals_eq positive later
  have fewer : intervals cfg om now % 2 ^ 32 ≤ b.due cfg.refillIntervalNs now := by omega
  refine ⟨intervals cfg om now / 2 ^ 32, ?_, ?_, ?_, ?_, ?_⟩
  · have := follows.tokens
    simp only [TokenBucket.refill]
    omega
  · rw [refillTs]
    exact Int.add_nonneg follows.started (Int.mul_nonneg (Int.natCast_nonneg _) positive.le)
  · by_cases reached : om.lastRefillTs ≤ now
    · rw [refillTs]
      exact .inr (Int.add_le_of_le_sub_left (newTokens_le positive reached))
    · have nothing : intervals cfg om now = 0 := intervals_eq_zero (by omega) positive
      rw [nothing] at refillTs
      exact .inl (by simpa [refillTs] using past.resolve_right reached)
  · have total : (b.due cfg.refillIntervalNs now : Int) + (lag * 2 ^ 32 : Nat) =
        (intervals cfg om now % 2 ^ 32 : Nat) + (intervals cfg om now / 2 ^ 32 * 2 ^ 32 : Nat) := by
      omega
    simp only [TokenBucket.refill]
    rw [refillTs, follows.behind, add_assoc, add_assoc, ← add_mul, ← add_mul,
      add_comm ((lag * 2 ^ 32 : Nat) : Int), total]
  · by_cases reached : b.granted ≤ now
    · exact .inr (TokenBucket.due_le positive reached)
    · have caught := follows.lagging.resolve_right fun behind => reached (behind.trans later)
      rw [seen, caught, TokenBucket.due_eq_zero positive (Int.not_le.mp reached)]
      exact .inl rfl

theorem Follows.same (same : SameBucket om om') : Follows cfg clock om' b lag := by
  obtain ⟨tokens, refillTs⟩ := same
  obtain ⟨le, started, past, behind, lagging⟩ := follows
  exact ⟨tokens ▸ le, refillTs ▸ started, refillTs ▸ past, refillTs ▸ behind, lagging⟩

theorem Follows.later (later : clock ≤ now) : Follows cfg now om b lag :=
  { follows with
    past := follows.past.imp_right fun past => past.trans later
    lagging := follows.lagging.imp_right fun past => past.trans later }

end

/-! ### Runs -/

theorem onSignal_bucket {signal : Signal} {out out' : NewOrder} {generated : Bool}
    (done : om.onSignal cfg signal now sendTs out = some (generated, out', om')) :
    generated = false ∧ SameBucket om om' ∨
      ∃ om₁, om.refill cfg now = some om₁ ∧ (generated = false ∧ SameBucket om₁ om' ∨
        generated = true ∧ 0 < om₁.tokens ∧ SameBucket { om₁ with tokens := om₁.tokens - 1 } om') := by
  cases onSignal_cases done with
  | early stat => exact .inl ⟨rfl, rfl, rfl⟩
  | late stat refilled => exact .inr ⟨_, refilled, .inl ⟨rfl, rfl, rfl⟩⟩
  | passed known passes refilled placed =>
    refine .inr ⟨_, refilled, ?_⟩
    obtain ⟨-, _, _, _, -, -, ⟨rfl, _, _, -, rfl⟩ | ⟨rfl, rfl⟩⟩ := placeOrder_cases placed
    · exact .inl ⟨rfl, rfl, rfl⟩
    · exact .inr ⟨rfl, refill_tokens refilled ▸ passes.token, rfl, rfl⟩

/-- The state after readings up to `clock`, against an ideal bucket that was asked for the same tokens. -/
def Paced (cfg : Config) (t₁ t₂ clock : Int) (a : Logged) : Prop :=
  a.om.Ok cfg ∧ ∃ b lag, Follows cfg clock a.om b lag ∧
    b.Metered cfg.maxOrdersPerWindow cfg.refillIntervalNs t₁ t₂ clock (a.log.countP (·.generates t₁ t₂))

section

variable (paced : Paced cfg t₁ t₂ clock a)
include paced

theorem Paced.other {op : Op} (other : op.reading = none) (stepped : a.step cfg op = some a') :
    Paced cfg t₁ t₂ clock a' := by
  obtain ⟨sent, om', applied, rfl⟩ := Logged.step_eq_some.mp stepped
  obtain ⟨ok, b, lag, follows, metered⟩ := paced
  have silent : Event.generates t₁ t₂ ⟨op, sent⟩ = false := by
    cases op <;> first | rfl | cases other
  refine ⟨(apply_effect ok applied).1, b, lag, follows.same (apply_bucket ok other applied), ?_⟩
  simpa [silent] using metered

theorem Paced.signal {signal : Signal} (positive : 0 < cfg.refillIntervalNs)
    (later : clock ≤ now) (low : -2 ^ 63 ≤ now) (high : now < 2 ^ 63)
    (stepped : a.step cfg (.signal signal now sendTs) = some a') : Paced cfg t₁ t₂ now a' := by
  obtain ⟨sent, om', applied, rfl⟩ := Logged.step_eq_some.mp stepped
  obtain ⟨ok, b, lag, follows, metered⟩ := paced
  refine ⟨(apply_effect ok applied).1, ?_⟩
  obtain ⟨⟨generated, out, _⟩, returned, same⟩ := bind_eq_some_iff.mp applied
  cases same
  obtain ⟨rfl, kept⟩ | ⟨om₁, refilled, spent⟩ := onSignal_bucket returned
  · exact ⟨b, lag, (follows.later later).same kept, metered.idle later⟩
  obtain ⟨lag', follows'⟩ := follows.refill positive metered.within later low high refilled
  have metered' := metered.refill positive later
  obtain ⟨rfl, kept⟩ | ⟨rfl, token, kept⟩ := spent
  · exact ⟨_, lag', follows'.same kept, metered'⟩
  have taken : Follows cfg now { om₁ with tokens := om₁.tokens - 1 }
      (b.refill cfg.maxOrdersPerWindow cfg.refillIntervalNs now).take lag' :=
    { follows' with tokens := Nat.sub_le_sub_right follows'.tokens 1 }
  refine ⟨_, lag', taken.same kept, ?_⟩
  by_cases inside : t₁ ≤ now ∧ now ≤ t₂
  · have counted := metered'.take_inside positive (TokenBucket.refill_recent positive) (token.trans_le follows'.tokens)
      inside.1 inside.2
    simpa [Event.generates, inside] using counted
  · simpa [Event.generates, inside] using metered'.take_outside

theorem Paced.run {ops : List Op} (positive : 0 < cfg.refillIntervalNs)
    (words : ∀ now ∈ ops.filterMap Op.reading, -2 ^ 63 ≤ now ∧ now < 2 ^ 63)
    (steady : (clock :: ops.filterMap Op.reading).Pairwise (· ≤ ·)) (ran : Logged.run cfg ops a = some a') :
    ∃ clock', Paced cfg t₁ t₂ clock' a' := by
  induction ops generalizing a clock with
  | nil =>
    cases ran
    exact ⟨clock, paced⟩
  | cons op ops ih =>
    obtain ⟨a₁, stepped, onward⟩ := bind_eq_some_iff.mp ran
    by_cases other : op.reading = none
    · rw [filterMap_cons_none other] at words steady
      exact ih (paced.other other stepped) words steady onward
    · obtain ⟨signal, now, sendTs, rfl⟩ : ∃ signal now sendTs, op = .signal signal now sendTs := by
        cases op <;> first | exact absurd rfl other | exact ⟨_, _, _, rfl⟩
      have reading : (Op.signal signal now sendTs).reading = some now := rfl
      rw [filterMap_cons_some reading] at words steady
      obtain ⟨low, high⟩ := words now mem_cons_self
      obtain ⟨first, rest⟩ := pairwise_cons.mp steady
      exact ih (paced.signal positive (first now mem_cons_self) low high stepped)
        (fun now member => words now (mem_cons_of_mem _ member)) rest onward

end

/-- In a run whose readings of the clock never decrease, a window sees at most a full bucket and one token
more than it has whole intervals. -/
theorem run_rate {ops : List Op} {a : Logged} (created : create cfg = some om) (positive : 1 ≤ cfg.refillIntervalNs)
    (words : ∀ now ∈ ops.filterMap Op.reading, -2 ^ 63 ≤ now ∧ now < 2 ^ 63)
    (steady : (ops.filterMap Op.reading).Pairwise (· ≤ ·)) (ran : Logged.run cfg ops { om } = some a)
    (window : t₁ ≤ t₂) :
    (a.log.countP (·.generates t₁ t₂) : Int) ≤ cfg.maxOrdersPerWindow + (t₂ - t₁) / cfg.refillIntervalNs + 1 := by
  have ok := (create_ok created).1
  obtain ⟨mapCapacity, _, created⟩ := bind_eq_some_iff.mp created
  obtain ⟨outstanding, _, created⟩ := bind_eq_some_iff.mp created
  obtain ⟨timeoutWheel, _, created⟩ := bind_eq_some_iff.mp created
  cases created
  have start : Paced cfg t₁ t₂ (-2 ^ 63) { om := { tokens := cfg.maxOrdersPerWindow, outstanding, timeoutWheel } } :=
    ⟨ok, ⟨cfg.maxOrdersPerWindow, 0⟩, 0, ⟨le_rfl, le_rfl, .inl rfl, by simp, .inl rfl⟩,
      TokenBucket.Metered.start _ _ le_rfl positive window⟩
  have first : ((-2 ^ 63) :: ops.filterMap Op.reading).Pairwise (· ≤ ·) :=
    pairwise_cons.mpr ⟨fun now member => (words now member).1, steady⟩
  obtain ⟨_, _, _, _, _, metered⟩ := start.run positive words first ran
  exact metered.bound

theorem run_rate_burst : create smallConfig = some smallManager ∧ 1 ≤ smallConfig.refillIntervalNs ∧
    ∃ a, Logged.run smallConfig [.signal (buy 1) 7 7, .signal (buy 1) 9 9] { om := smallManager } = some a ∧
      (a.log.countP (·.generates 0 10) : Int) ≤ smallConfig.maxOrdersPerWindow +
        (10 - 0) / smallConfig.refillIntervalNs + 1 := by
  obtain ⟨a, ran⟩ := isSome_iff_exists.mp (by decide +kernel :
    (Logged.run smallConfig [.signal (buy 1) 7 7, .signal (buy 1) 9 9] { om := smallManager }).isSome = true)
  have readings : [Op.signal (buy 1) 7 7, Op.signal (buy 1) 9 9].filterMap Op.reading = [7, 9] := rfl
  exact ⟨create_smallManager, by decide, a, ran,
    run_rate create_smallManager (by decide) (by rw [readings]; decide) (by rw [readings]; decide) ran (by decide)⟩

end TickToTrade.Oms
