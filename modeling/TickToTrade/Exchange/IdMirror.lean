import TickToTrade.Exchange.IdMaps

/-!
The id maps as a mirror of the books. A call takes orders out of both, or exchanges one incoming order.
-/

namespace TickToTrade.Exchange.ExchangeCore
open Algo Ds Probing PairedMaps

variable {maxSymbols : Nat} {core core' : ExchangeCore maxSymbols} {owner owner' : Nat → Option (UInt16 × Nat)}
  {i idx x q : Nat} {s : Side} {p : Int}

def Rests (core : ExchangeCore maxSymbols) (i : Nat) (s : Side) (p : Int) (x q : Nat) : Prop :=
  (i < maxSymbols ∧ (core.symbols i).active = true) ∧ (core.bookOf i).Rests s p x q

structure Healthy (core : ExchangeCore maxSymbols) : Prop where
  maps : MapsOk core
  paired : IdsPaired core
  books : ∀ i, i < maxSymbols → (core.symbols i).active = true → ∃ params, OrderBook.Sound params (core.bookOf i)

theorem Healthy.book (healthy : Healthy core) (rests : core.Rests i s p x q) :
    ∃ params, OrderBook.Sound params (core.bookOf i) :=
  healthy.books i rests.1.1 rests.1.2

/-- `owner` is the session and the client order id of the request that put an order into its book. -/
structure Mirror (owner : Nat → Option (UInt16 × Nat)) (core : ExchangeCore maxSymbols) : Prop where
  mapped : ∀ i s p x q, core.Rests i s p x q → ∃ entry reverse, core.reverseIdMap.content x = some reverse ∧
    core.idMap.content (keyOf reverse) = some entry ∧ entry.exchangeId = x ∧ entry.symbolId = i + 1 ∧ entry.side = s
  resting : ∀ key entry, core.idMap.content key = some entry →
    ∃ p q, core.Rests (entry.symbolId - 1) entry.side p entry.exchangeId q
  owned : ∀ x reverse, core.reverseIdMap.content x = some reverse →
    owner x = some (reverse.sessionId, reverse.clientOrderId)

section

variable (mirror : Mirror owner core)
include mirror

theorem Mirror.unique {i' q' : Nat} {s' : Side} {p' : Int} (rests : core.Rests i s p x q)
    (rests' : core.Rests i' s' p' x q') : i' = i ∧ s' = s := by
  obtain ⟨entry, reverse, found, mapped, _, symbol, side⟩ := mirror.mapped _ _ _ _ _ rests
  obtain ⟨entry', reverse', found', mapped', _, symbol', side'⟩ := mirror.mapped _ _ _ _ _ rests'
  rw [found] at found'
  cases found'
  rw [mapped] at mapped'
  cases mapped'
  exact ⟨by omega, side'.symm.trans side⟩

theorem Mirror.rests_of_reverse (paired : IdsPaired core) {reverse : ReverseIdEntry}
    (found : core.reverseIdMap.content x = some reverse) : ∃ i s p q, core.Rests i s p x q := by
  obtain ⟨entry, mapped, same, _⟩ := paired.back x reverse found
  obtain ⟨p, q, rests⟩ := mirror.resting _ _ mapped
  rw [same] at rests
  exact ⟨_, _, p, q, rests⟩

theorem Mirror.locate (paired : IdsPaired core) {key : Nat} {entry : IdEntry}
    (found : core.idMap.content key = some entry) (rests : core.Rests i s p entry.exchangeId q) :
    entry.symbolId = i + 1 ∧ entry.side = s := by
  obtain ⟨entry', reverse, _, mapped, same, data⟩ := mirror.mapped _ _ _ _ _ rests
  have keys := paired.key_unique found mapped same
  rw [keys, found] at mapped
  cases mapped
  exact data

/-- Orders left the books and the maps, and nothing else happened to either. -/
structure Withdrawn (core core' : ExchangeCore maxSymbols) (client : List ExchangeEvent)
    (Gone : Nat → Prop) : Prop where
  healthy : Healthy core'
  rests : ∀ i s p x q, core'.Rests i s p x q ↔ core.Rests i s p x q ∧ ¬ Gone x
  restricts : Restricts IdEntry.exchangeId core.idMap.content core.reverseIdMap.content core'.idMap.content
    core'.reverseIdMap.content Gone
  events : core'.events.filter isClient = client

theorem Mirror.after_withdrawal {client : List ExchangeEvent} {Gone : Nat → Prop}
    (withdrawn : Withdrawn core core' client Gone) (same : ∀ x, (∃ i s p q, core.Rests i s p x q) → owner' x = owner x)
    (paired : IdsPaired core) : Mirror owner' core' where
  mapped := by
    intro i s p x q rests
    obtain ⟨old, kept⟩ := (withdrawn.rests i s p x q).mp rests
    obtain ⟨entry, reverse, found, mapped, id, data⟩ := mirror.mapped i s p x q old
    refine ⟨entry, reverse, (withdrawn.restricts.rev_iff _ _).mpr ⟨found, kept⟩, ?_, id, data⟩
    exact (withdrawn.restricts.fwd_iff _ _).mpr ⟨mapped, id ▸ kept⟩
  resting := by
    intro key entry mapped
    obtain ⟨old, kept⟩ := (withdrawn.restricts.fwd_iff _ _).mp mapped
    obtain ⟨p, q, rests⟩ := mirror.resting key entry old
    exact ⟨p, q, (withdrawn.rests _ _ _ _ _).mpr ⟨rests, kept⟩⟩
  owned := by
    intro x reverse found
    obtain ⟨old, _⟩ := (withdrawn.restricts.rev_iff _ _).mp found
    rw [same x (mirror.rests_of_reverse paired old)]
    exact mirror.owned x reverse old

/-! ### An incoming order -/

end

def UsedUp (result : MatchResult) (b : OrderBook) (x : Nat) : Prop := x ∈ result.fills.map Fill.makerId ∧ Absent b x

theorem rests_after_submit {params : Params} {maxFills id qty : Nat} {b b' : OrderBook} {side : Side} {price : Int}
    {result : MatchResult} (sound : OrderBook.Sound params b)
    (submitted : Submitted maxFills b b' id side price qty result)
    (fresh : result.rested = true → ∀ s p q, ¬ b.Rests s p id q) (s : Side) (x : Nat) :
    (∃ p q, b'.Rests s p x q) ↔
      ((∃ p q, b.Rests s p x q) ∧ ¬ UsedUp result b' x) ∨ (result.rested = true ∧ s = side ∧ x = id) := by
  by_cases new : result.rested = true ∧ x = id
  · obtain ⟨rested, same⟩ := new
    subst same
    have own := submitted.own (fresh rested)
    have before : ¬ ∃ p q, b.Rests s p x q := fun ⟨p, q, rests⟩ => fresh rested s p q rests
    simp [own, before, rested]
  · have kept : x ≠ id ∨ result.rested = false := by
      by_cases rested : result.rested = true
      · exact .inl fun same => new ⟨rested, same⟩
      · exact .inr (by simpa using rested)
    have notNew : ¬ (result.rested = true ∧ s = side ∧ x = id) := fun ⟨rested, _, same⟩ => new ⟨rested, same⟩
    rw [or_iff_left notNew]
    constructor
    · intro ⟨p, k, rests⟩
      obtain ⟨q, old, _⟩ := (submitted.others s p x k kept).mp rests
      exact ⟨⟨p, q, old⟩, fun ⟨_, absent⟩ => absent s p k rests⟩
    · intro ⟨⟨p, q, old⟩, stays⟩
      by_cases hit : x ∈ result.fills.map Fill.makerId
      · -- A maker that is not used up rests where it did.
        have present : ∃ s' p' k', b'.Rests s' p' x k' := by
          by_contra none
          exact stays ⟨hit, fun s' p' k' rests => none ⟨s', p', k', rests⟩⟩
        obtain ⟨s', p', k', rests⟩ := present
        obtain ⟨q', old', _⟩ := (submitted.others s' p' x k' kept).mp rests
        obtain ⟨rfl, rfl, _⟩ := sound.rests_unique old old'
        exact ⟨_, k', rests⟩
      · have untouched : result.taken x = 0 := by
          apply PriceTime.takenFrom_eq_zero
          rw [List.map_map]
          exact hit
        exact ⟨p, q, (submitted.others s p x q kept).mpr ⟨q, old, by omega, sound.rests_pos old⟩⟩

def Taker.entry (taker : Taker) : IdEntry := ⟨taker.exchangeId, taker.side, taker.symbolId⟩

def Taker.reverse (taker : Taker) : ReverseIdEntry :=
  ⟨taker.sessionId, taker.clientOrderId, taker.symbolId, taker.sendTs⟩

/-- An incoming order met the book `b`, which is the one of slot `idx` without the orders in `Old`. -/
structure Exchanged (core core' : ExchangeCore maxSymbols) (idx : Nat) (taker : Taker) (price : Int) (qty : Nat)
    (Old : Nat → Prop) (b : OrderBook) (result : MatchResult) (ack : ExchangeEvent) : Prop where
  healthy : Healthy core'
  sessions : core'.activeSessions = core.activeSessions
  registered : idx < maxSymbols ∧ (core.symbols idx).active = true
  symbol : taker.symbolId = idx + 1
  active : ∀ i, (core'.symbols i).active = (core.symbols i).active
  others : ∀ i, i ≠ idx → core'.bookOf i = core.bookOf i
  sound : ∃ params, OrderBook.Sound params b
  before : ∀ s p x q, b.Rests s p x q ↔ (core.bookOf idx).Rests s p x q ∧ ¬ Old x
  away : ∀ i s p x q, core.Rests i s p x q → Old x → i = idx
  submitted : Submitted 64 b (core'.bookOf idx) taker.exchangeId taker.side price qty result
  fresh : result.rested = true → core.reverseIdMap.content taker.exchangeId = none
  revised : Revised IdEntry.exchangeId core.idMap.content core.reverseIdMap.content core'.idMap.content
    core'.reverseIdMap.content (fun x => Old x ∨ UsedUp result (core'.bookOf idx) x) (result.rested = true)
    (keyOf taker.reverse) taker.entry taker.reverse
  events : core'.events.filter isClient =
    ack :: fillEvents taker core.reverseIdMap.content (leftIn (core'.bookOf idx)) qty result.fills

section Exchanged

variable {taker : Taker} {price : Int} {qty : Nat} {Old : Nat → Prop} {b : OrderBook} {result : MatchResult}
  {ack : ExchangeEvent} (mirror : Mirror owner core)
  (exchanged : Exchanged core core' idx taker price qty Old b result ack)
include mirror exchanged

omit mirror in
theorem Exchanged.maker_rests (member : x ∈ result.fills.map Fill.makerId) :
    ∃ s p q, core.Rests idx s p x q := by
  obtain ⟨fill, listed, rfl⟩ := List.mem_map.mp member
  obtain ⟨p, q, rests⟩ := exchanged.submitted.makers fill listed
  exact ⟨_, p, q, exchanged.registered, ((exchanged.before _ _ _ _).mp rests).1⟩

theorem Exchanged.fresh_rests (rested : result.rested = true) : ¬ core.Rests i s p taker.exchangeId q := by
  intro rests
  obtain ⟨_, _, found, _⟩ := mirror.mapped _ _ _ _ _ rests
  rw [exchanged.fresh rested] at found
  cases found

theorem Exchanged.rests_iff (i : Nat) (s : Side) (x : Nat) : (∃ p q, core'.Rests i s p x q) ↔
    ((∃ p q, core.Rests i s p x q) ∧ ¬ (Old x ∨ UsedUp result (core'.bookOf idx) x)) ∨
      (result.rested = true ∧ i = idx ∧ s = taker.side ∧ x = taker.exchangeId) := by
  obtain ⟨params, sound⟩ := exchanged.sound
  by_cases here : i = idx
  · subst here
    have after := rests_after_submit sound exchanged.submitted
      (fun rested s p q rests =>
        exchanged.fresh_rests mirror rested ⟨exchanged.registered, ((exchanged.before _ _ _ _).mp rests).1⟩) s x
    have now : (∃ p q, core'.Rests i s p x q) ↔ ∃ p q, (core'.bookOf i).Rests s p x q := by
      simp only [Rests, exchanged.active, exchanged.registered.1, exchanged.registered.2, and_self, true_and]
    have then' : (∃ p q, core.Rests i s p x q) ↔ ∃ p q, (core.bookOf i).Rests s p x q := by
      simp only [Rests, exchanged.registered.1, exchanged.registered.2, and_self, true_and]
    rw [now, after, then']
    simp only [exchanged.before]
    constructor
    · intro either
      rcases either with ⟨⟨p, q, old, kept⟩, unused⟩ | ⟨rested, side, same⟩
      · exact .inl ⟨⟨p, q, old⟩, fun gone => gone.elim kept unused⟩
      · exact .inr ⟨rested, trivial, side, same⟩
    · intro either
      rcases either with ⟨⟨p, q, old⟩, kept⟩ | ⟨rested, _, side, same⟩
      · exact .inl ⟨⟨p, q, old, fun gone => kept (.inl gone)⟩, fun used => kept (.inr used)⟩
      · exact .inr ⟨rested, side, same⟩
  · have same : ∀ p q, core'.Rests i s p x q ↔ core.Rests i s p x q := by
      intro p q
      rw [Rests, Rests, exchanged.active, exchanged.others i here]
    simp only [same, here, false_and, and_false, or_false]
    constructor
    · intro ⟨p, q, rests⟩
      refine ⟨⟨p, q, rests⟩, ?_⟩
      intro gone
      rcases gone with old | ⟨hit, _⟩
      · exact here (exchanged.away i s p x q rests old)
      · obtain ⟨_, _, _, atIdx⟩ := exchanged.maker_rests hit
        exact here (mirror.unique atIdx rests).1
    · exact And.left

theorem Mirror.after_exchange (paired : IdsPaired core)
    (same : ∀ x, (∃ i s p q, core.Rests i s p x q) → (∃ i s p q, core'.Rests i s p x q) → owner' x = owner x)
    (new : result.rested = true → owner' taker.exchangeId = some (taker.sessionId, taker.clientOrderId)) :
    Mirror owner' core' where
  mapped := by
    intro i s p x q rests
    rcases (exchanged.rests_iff mirror i s x).mp ⟨p, q, rests⟩ with
      ⟨⟨p', q', old⟩, kept⟩ | ⟨rested, rfl, rfl, rfl⟩
    · obtain ⟨entry, reverse, found, mapped, id, data⟩ := mirror.mapped i s p' x q' old
      refine ⟨entry, reverse, (exchanged.revised.rev_iff _ _).mpr (.inl ⟨found, kept⟩), ?_, id, data⟩
      exact (exchanged.revised.fwd_iff _ _).mpr (.inl ⟨mapped, id ▸ kept⟩)
    · refine ⟨taker.entry, taker.reverse, ?_, ?_, rfl, exchanged.symbol, rfl⟩
      · exact (exchanged.revised.rev_iff _ _).mpr (.inr ⟨rested, rfl, rfl⟩)
      · exact (exchanged.revised.fwd_iff _ _).mpr (.inr ⟨rested, rfl, rfl⟩)
  resting := by
    intro key entry mapped
    rcases (exchanged.revised.fwd_iff _ _).mp mapped with ⟨old, kept⟩ | ⟨rested, _, rfl⟩
    · obtain ⟨p, q, rests⟩ := mirror.resting key entry old
      exact (exchanged.rests_iff mirror _ _ _).mpr (.inl ⟨⟨p, q, rests⟩, kept⟩)
    · apply (exchanged.rests_iff mirror _ _ _).mpr
      refine .inr ⟨rested, ?_, rfl, rfl⟩
      show taker.symbolId - 1 = idx
      rw [exchanged.symbol]
      rfl
  owned := by
    intro x reverse found
    rcases (exchanged.revised.rev_iff _ _).mp found with ⟨old, kept⟩ | ⟨rested, rfl, rfl⟩
    · obtain ⟨i, s, p, q, rests⟩ := mirror.rests_of_reverse paired old
      obtain ⟨p', q', rests'⟩ := (exchanged.rests_iff mirror i s x).mpr (.inl ⟨⟨p, q, rests⟩, kept⟩)
      rw [same x ⟨i, s, p, q, rests⟩ ⟨i, s, p', q', rests'⟩]
      exact mirror.owned x reverse old
    · exact new rested

end Exchanged

end TickToTrade.Exchange.ExchangeCore
