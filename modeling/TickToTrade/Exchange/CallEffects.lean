import TickToTrade.Exchange.CallReports

/-!
What the calls of the exchange do to the books, the id maps and the clients, for a drained event
buffer and maps that have room for the order.
-/

namespace TickToTrade.Exchange.ExchangeCore
open Algo Ds Probing PairedMaps List Option
open DefaultHash (hash)

variable {maxSymbols : Nat} {core core' core₁ : ExchangeCore maxSymbols} {owner : Nat → Option (UInt16 × Nat)}
  {idx : Nat} {params : Params} {sessionId : UInt16}
variable {b : OrderBook} {Gone : Nat → Prop}

theorem Healthy.usable (healthy : Healthy core) : Usable core := ⟨healthy.maps, healthy.books⟩

theorem Usable.healthy (usable : Usable core) (paired : IdsPaired core) : Healthy core :=
    ⟨usable.maps, paired, usable.books⟩

section

variable (ran : Ran core core₁ idx b)
include ran

theorem Ran.paired (paired : IdsPaired core) : IdsPaired core₁ := by
  rw [IdsPaired, ran.idMap, ran.reverseIdMap]
  exact paired

theorem Ran.rests (here : ∀ s p x q, b.Rests s p x q ↔ (core.bookOf idx).Rests s p x q ∧ ¬ Gone x)
    (away : ∀ i s p x q, core.Rests i s p x q → Gone x → i = idx) (i : Nat) (s : Side) (p : Int) (x q : Nat) :
    core₁.Rests i s p x q ↔ core.Rests i s p x q ∧ ¬ Gone x := by
  unfold Rests
  rw [ran.registered]
  by_cases same : i = idx
  · subst same
    rw [ran.here, here, and_assoc (c := ¬ Gone x)]
  · rw [ran.others i same]
    constructor
    · intro rests
      exact ⟨rests, fun gone => same (away i s p x q rests gone)⟩
    · exact And.left

/-! ### Refusals and withdrawals -/

theorem Ran.withdrawn {events : List ExchangeEvent} (healthy : Healthy core)
    (drained : core.events = []) (noted : Noted core₁ core' events Gone)
    (rests : ∀ i s p x q, core₁.Rests i s p x q ↔ core.Rests i s p x q ∧ ¬ Gone x) :
    Withdrawn core core' (events.filter isClient) Gone where
  healthy := (noted.usable ran.usable).healthy (noted.paired (ran.paired healthy.paired))
  rests := by
    intro i s p x q
    rw [← rests, Rests, Rests, noted.book, noted.symbols]
  restricts := by
    have restricts := noted.restricts (ran.paired healthy.paired)
    rw [ran.idMap, ran.reverseIdMap] at restricts
    exact restricts
  events := by rw [noted.events, ran.events, drained, nil_append]

/-- The report of a refused request names its sender and its id. -/
def Refuses (type : EventType) (sessionId : UInt16) (clientOrderId : Nat) (event : ExchangeEvent) : Prop :=
  event.type = type ∧ event.sessionId = sessionId ∧ event.clientOrderId = clientOrderId

theorem Ran.refuses {type : EventType} {clientOrderId : Nat} {event : ExchangeEvent}
    (healthy : Healthy core) (drained : core.events = []) (same : b.levels = (core.bookOf idx).levels)
    (told : core₁.emit event = some core') (refuses : Refuses type sessionId clientOrderId event)
    (addressed : type ≠ .kBBOUpdate) :
    ∃ event, Refuses type sessionId clientOrderId event ∧ Withdrawn core core' [event] fun _ => False := by
  have kept : ∀ s p x q, b.Rests s p x q ↔ (core.bookOf idx).Rests s p x q ∧ ¬ False := by simp [OrderBook.Rests, same]
  have withdrawn := ran.withdrawn healthy drained (emit_noted ran.usable.maps told)
    (ran.rests kept fun _ _ _ _ _ _ => False.elim)
  have alone : [event].filter isClient = [event] := by simp [isClient, refuses.1, addressed]
  exact ⟨event, refuses, alone ▸ withdrawn⟩

end

theorem cancelOrder_effect (healthy : Healthy core) (mirror : Mirror owner core) (drained : core.events = [])
    {cancel : CancelOrder} (done : core.cancelOrder sessionId cancel = some core') :
    (∃ event, Refuses .kCancelRejected sessionId cancel.clientOrderId event ∧
      Withdrawn core core' [event] fun _ => False) ∨ ∃ entry, cancel.clientOrderId ≤ kMaxClientOrderId ∧
        core.idMap.content (makeCompositeKey sessionId cancel.clientOrderId) = some entry ∧
        Withdrawn core core' [cancelAckEvent sessionId cancel] fun x => x = entry.exchangeId := by
  have usable := healthy.usable
  cases cancelOrder_cases done with
  | refused reason told => exact .inl ((usable.ran 0).refuses healthy drained rfl told ⟨rfl, rfl, rfl⟩ (by decide))
  | missing idx entry engine bound known found called told =>
    obtain ⟨params, sound⟩ := usable.book known
    exact .inl ((usable.ran_cancel sound called).refuses healthy drained (cancelOrder_missing sound called) told
      ⟨rfl, rfl, rfl⟩ (by decide))
  | cancelled idx entry engine core₁ bound known found called removed told =>
    obtain ⟨params, sound⟩ := usable.book known
    obtain ⟨_, _, again, _, answer, rests, _⟩ := Algo.cancelOrder_effect sound entry.exchangeId
    obtain ⟨rfl, rfl⟩ := Prod.mk.inj (mem_unique called again)
    obtain ⟨s₀, p₀, q₀, resting⟩ := answer.mp rfl
    have away : ∀ i s p x q, core.Rests i s p x q → x = entry.exchangeId → i = idx := by
      intro i s p x q old same
      subst same
      exact (mirror.unique ⟨(symbolIndex_eq_some known).2, resting⟩ old).1
    have ran := usable.ran_cancel sound called
    have content := usable.maps.id.find_some found
    obtain ⟨noted, _⟩ := removeMappings_noted ran.usable.maps content removed
    have whole := (noted.trans (emit_noted noted.maps told)).congr fun x =>
      (iff_of_eq (or_false (x = entry.exchangeId))).symm
    exact .inr ⟨entry, bound, content, ran.withdrawn healthy drained whole (ran.rests rests away)⟩

/-! ### Incoming orders -/

/-- The fill buffer holds the executions of an order, and they leave a part of it. -/
def Unfilled (b : OrderBook) (side : Side) (price : Int) (qty : Nat) : Prop :=
  (PriceTime.walk side price qty (PriceTime.makers (b.levels side.opposite))).length ≤ 64 ∧
    PriceTime.filledQty (PriceTime.walk side price qty (PriceTime.makers (b.levels side.opposite))) < qty
  deriving Decidable

def SubmitRoom (core : ExchangeCore maxSymbols) (sessionId : UInt16) (order : NewOrder) : Prop :=
  ∀ idx, core.symbolIndex order.symbolId = some idx → order.clientOrderId ≤ kMaxClientOrderId →
    core.seenOrders.accepts hash (makeCompositeKey sessionId order.clientOrderId) = true →
    Unfilled (core.bookOf idx) order.side order.price order.qty →
    core.idMap.accepts hash (makeCompositeKey sessionId order.clientOrderId) = true ∧
      core.reverseIdMap.accepts hash core.nextExchangeId = true

def ModifyRoom (core : ExchangeCore maxSymbols) (sessionId : UInt16) (modify : ModifyOrder) : Prop :=
  ∀ idx entry, core.symbolIndex modify.symbolId = some idx → modify.clientOrderId ≤ kMaxClientOrderId →
    core.idMap.content (makeCompositeKey sessionId modify.clientOrderId) = some entry →
    Unfilled (core.bookOf idx) entry.side modify.newPrice modify.newQty →
    core.reverseIdMap.accepts hash core.nextExchangeId = true

theorem restMappings_revised {fwd : Nat → Option IdEntry} {rev : Nat → Option ReverseIdEntry} {taker : Taker}
    {rested : Bool} (maps : MapsOk core) (paired : IdsPaired core)
    (restricts : Restricts IdEntry.exchangeId fwd rev core.idMap.content core.reverseIdMap.content Gone)
    (bound : taker.clientOrderId ≤ kMaxClientOrderId)
    (room : rested = true → core.idMap.accepts hash (keyOf taker.reverse) = true ∧
      core.reverseIdMap.accepts hash taker.exchangeId = true) (done : core.restMappings rested taker = some core') :
    IdsPaired core' ∧ Revised IdEntry.exchangeId fwd rev core'.idMap.content core'.reverseIdMap.content Gone
    (rested = true) (keyOf taker.reverse) taker.entry taker.reverse := by
  cases rested with
  | false =>
    cases done
    exact ⟨paired, restricts.revised (by simp) _ _ _⟩
  | true =>
    obtain ⟨⟨_, idMap⟩, inserted, done⟩ := bind_eq_some_iff.mp done
    obtain ⟨⟨_, reverseIdMap⟩, inserted', done⟩ := bind_eq_some_iff.mp done
    cases done
    obtain ⟨newKey, content⟩ := maps.id.insert_accepted (room rfl).1 inserted
    obtain ⟨newId, content'⟩ := maps.reverse.insert_accepted (room rfl).2 inserted'
    have newId : core.reverseIdMap.content taker.entry.exchangeId = none := newId
    have content' : reverseIdMap.content =
      Function.update core.reverseIdMap.content taker.entry.exchangeId (some taker.reverse) := content'
    have agree : Agree taker.entry taker.reverse := ⟨rfl, bound⟩
    have both := Paired.insert paired newKey newId rfl agree
    have revised := restricts.insert newKey newId (rfl : true = true) taker.reverse
    rw [← content, ← content'] at both revised
    exact ⟨both, revised⟩

theorem Ran.exchanged {taker : Taker} {price : Int} {qty : Nat} {Old : Nat → Prop} {b' : OrderBook}
    {result : MatchResult}
    {ack : ExchangeEvent} (ran : Ran core core₁ idx b') (sessions : core'.activeSessions = core₁.activeSessions)
    (symbols : core'.symbols = core₁.symbols) (healthy : Healthy core')
    (registered : idx < maxSymbols ∧ (core.symbols idx).active = true) (symbol : taker.symbolId = idx + 1)
    (sound : OrderBook.Sound params b) (before : ∀ s p x q, b.Rests s p x q ↔ (core.bookOf idx).Rests s p x q ∧ ¬ Old x)
    (away : ∀ i s p x q, core.Rests i s p x q → Old x → i = idx)
    (submitted : Submitted 64 b b' taker.exchangeId taker.side price qty result)
    (fresh : result.rested = true → core.reverseIdMap.content taker.exchangeId = none)
    (revised : Revised IdEntry.exchangeId core.idMap.content core.reverseIdMap.content core'.idMap.content
      core'.reverseIdMap.content (fun x => Old x ∨ UsedUp result b' x) (result.rested = true)
      (keyOf taker.reverse) taker.entry taker.reverse) (events : core'.events.filter isClient =
      ack :: fillEvents taker core.reverseIdMap.content (leftIn b') qty result.fills) :
    Exchanged core core' idx taker price qty Old b result ack := by
  have books : ∀ i, core'.bookOf i = core₁.bookOf i := by
    intro i
    rw [bookOf, symbols, bookOf]
  have here := (books idx).trans ran.here
  refine ⟨healthy, sessions.trans ran.sessions, registered, symbol, ?_, ?_, ⟨params, sound⟩, before, away,
    here ▸ submitted, fresh, here ▸ revised, here ▸ events⟩
  · intro i
    rw [symbols, ran.registered]
  · intro i other
    rw [books, ran.others i other]

theorem submitOrder_effect (healthy : Healthy core) (drained : core.events = []) {order : NewOrder}
    (room : SubmitRoom core sessionId order) (done : core.submitOrder sessionId order = some core') :
    (∃ event, Refuses .kOrderRejected sessionId order.clientOrderId event ∧
      Withdrawn core core' [event] fun _ => False) ∨
      ∃ idx result engine, core.symbolIndex order.symbolId = some idx ∧ order.clientOrderId ≤ kMaxClientOrderId ∧
        core.seenOrders.accepts hash (makeCompositeKey sessionId order.clientOrderId) = true ∧
        (core.symbols idx).engine.submitOrder core.nextExchangeId order.side order.price order.qty =
        some (result, engine) ∧ (result.rested = true ∨ result.fills ≠ []) ∧
        Exchanged core core' idx (submitTaker sessionId order core.nextExchangeId) order.price order.qty
          (fun _ => False) (core.bookOf idx) result (acceptedEvent sessionId order core.nextExchangeId) := by
  have usable := healthy.usable
  cases submitOrder_cases usable.maps.seen done with
  | refused symbolId reason stopped _ told =>
    exact .inl ((usable.ran 0).refuses healthy drained rfl told ⟨rfl, rfl, rfl⟩ (by decide))
  | idle idx seen result engine bound known absent accepts inserted called rested fills told =>
    -- The engine took nothing: a zero quantity, or a book that is full at this price.
    obtain ⟨params, sound⟩ := usable.book known
    exact .inl ((usable.ran_submit sound inserted.wellFormed called).refuses healthy drained
      (submitOrder_idle sound called rested fills) told ⟨rfl, rfl, rfl⟩ (by decide))
  | accepted idx seen result engine core₂ core₃ bound known absent accepts inserted called busy told reported mapped =>
    obtain ⟨symbol, registered⟩ := symbolIndex_eq_some known
    obtain ⟨params, sound⟩ := usable.book known
    obtain ⟨sound', submitted⟩ := submitOrder_submits sound called
    have ran := usable.ran_submit sound inserted.wellFormed called
    have noted := report_noted ran.usable.maps (ran.here ▸ sound') submitted.distinct told reported
    let taker := submitTaker sessionId order core.nextExchangeId
    have room₁ : result.rested = true → core.idMap.accepts hash (keyOf taker.reverse) = true ∧
        core.reverseIdMap.accepts hash taker.exchangeId = true :=
      fun rested => room idx known bound accepts (submitted.unfilled rested)
    have restricts := noted.restricts (ran.paired healthy.paired)
    rw [ran.idMap, ran.reverseIdMap, ran.here] at restricts
    have gone := restricts.congr fun x => iff_of_eq (false_or (UsedUp result engine.book x))
    obtain ⟨paired, revised⟩ := restMappings_revised noted.maps (noted.paired (ran.paired healthy.paired)) gone bound
      (fun rested => ⟨noted.idAccepts _ (ran.idMap ▸ (room₁ rested).1),
        noted.reverseAccepts _ (ran.reverseIdMap ▸ (room₁ rested).2)⟩) mapped
    have mapped := restMappings_mapped noted.maps mapped
    refine .inr ⟨idx, result, engine, known, bound, accepts, called, busy,
      ran.exchanged (by rw [mapped.frame, noted.frame]) (by rw [mapped.frame, noted.symbols])
        ((mapped.usable (noted.usable ran.usable)).healthy paired) registered symbol sound
      (by simp) (fun _ _ _ _ _ _ => False.elim) submitted ?_ revised ?_⟩
    · intro rested
      exact healthy.maps.reverse.content_of_accepts (room₁ rested).2 taker.reverse
    · have events : core'.events = core₃.events := by rw [mapped.frame]
      rw [events, noted.events, ran.events, drained, nil_append, filter_cons_of_pos rfl,
        fillGroups_client, ran.here, ran.reverseIdMap]

theorem modifyOrder_effect (healthy : Healthy core) (mirror : Mirror owner core) (drained : core.events = [])
    {modify : ModifyOrder} (room : ModifyRoom core sessionId modify)
    (done : core.modifyOrder sessionId modify = some core') :
    (∃ event, Refuses .kModifyRejected sessionId modify.clientOrderId event ∧
      Withdrawn core core' [event] fun _ => False) ∨
      ∃ idx entry result, ∃ e₁ engine : MatchingEngine 64, modify.clientOrderId ≤ kMaxClientOrderId ∧
        core.symbolIndex modify.symbolId = some idx ∧
        core.idMap.content (makeCompositeKey sessionId modify.clientOrderId) = some entry ∧
        (core.symbols idx).engine.cancelOrder entry.exchangeId = some (true, e₁) ∧
        e₁.submitOrder core.nextExchangeId entry.side modify.newPrice modify.newQty = some (result, engine) ∧
        Exchanged core core' idx (modifyTaker sessionId modify entry.side core.nextExchangeId) modify.newPrice
        modify.newQty
          (fun x => x = entry.exchangeId) e₁.book result (modifyAckEvent sessionId modify core.nextExchangeId) := by
  have usable := healthy.usable
  cases modifyOrder_cases done with
  | refused reason stopped told =>
    exact .inl ((usable.ran 0).refuses healthy drained rfl told ⟨rfl, rfl, rfl⟩ (by decide))
  | missing idx entry result engine bound known found called failed told =>
    obtain ⟨params, sound⟩ := usable.book known
    exact .inl ((usable.ran_modify sound called).refuses healthy drained (modifyOrder_missing sound called failed) told
      ⟨rfl, rfl, rfl⟩ (by decide))
  | modified idx entry result engine core₂ core₃ core₄ bound known found called success removed mapped told reported =>
    obtain ⟨symbol, registered⟩ := symbolIndex_eq_some known
    obtain ⟨params, sound⟩ := usable.book known
    obtain ⟨_, _, again, sound', outcome⟩ :=
      Algo.modifyOrder_effect sound entry.exchangeId entry.side modify.newPrice modify.newQty core.nextExchangeId
    obtain ⟨rfl, rfl⟩ := Prod.mk.inj (mem_unique called again)
    rcases outcome with ⟨failed, _⟩ | ⟨_, ⟨s₀, p₀, q₀, resting⟩, e₁, cancelled, sound₁, rests, levels,
      resubmitted, submitted⟩
    · rw [success] at failed
      cases failed
    have content := usable.maps.id.find_some found
    obtain ⟨located, side⟩ := mirror.locate healthy.paired content ⟨registered, resting⟩
    have away : ∀ i s p x q, core.Rests i s p x q → x = entry.exchangeId → i = idx := by
      intro i s p x q old same
      subst same
      have there := (mirror.locate healthy.paired content old).1
      omega
    have opposite : e₁.book.levels entry.side.opposite = (core.bookOf idx).levels entry.side.opposite := by
      apply levels
      intro p q there
      have one := (sound.rests_unique resting there).1
      rw [← side] at one
      exact Side.opposite_ne _ one
    let taker := modifyTaker sessionId modify entry.side core.nextExchangeId
    have room₁ : result.rested = true → core.reverseIdMap.accepts hash taker.exchangeId = true := by
      intro rested
      have left := submitted.unfilled rested
      rw [opposite] at left
      exact room idx entry known bound content left
    have ran := usable.ran_modify sound called
    obtain ⟨dropped, reusable⟩ := removeMappings_noted ran.usable.maps content removed
    have reusable : core₂.idMap.accepts hash (keyOf taker.reverse) = true := reusable
    have paired₂ := dropped.paired (ran.paired healthy.paired)
    have restricts := dropped.restricts (ran.paired healthy.paired)
    rw [ran.idMap, ran.reverseIdMap] at restricts
    rw [located, ← symbol] at mapped
    have mapped : core₂.restMappings result.rested taker = some core₃ := mapped
    obtain ⟨paired₃, revised⟩ := restMappings_revised dropped.maps paired₂ restricts bound
      (fun rested => ⟨reusable, dropped.reverseAccepts _ (ran.reverseIdMap ▸ room₁ rested)⟩) mapped
    have mapped := restMappings_mapped dropped.maps mapped
    have here : core₃.bookOf idx = engine.book := by rw [bookOf, mapped.frame, dropped.symbols, ← ran.here, bookOf]
    have noted := report_noted mapped.maps (here ▸ sound') submitted.distinct told reported
    obtain ⟨_, makers⟩ := modifyOrder_makers sound called
    have kept : ∀ fill ∈ result.fills, core₃.reverseIdMap.content fill.makerId =
        core.reverseIdMap.content fill.makerId := by
      intro fill member
      obtain ⟨old, new⟩ := makers fill member
      rw [mapped.others _ new, dropped.kept old, ran.reverseIdMap]
    have unused : result.rested = true → ¬ (core.nextExchangeId ∈ result.fills.map Fill.makerId ∧
        Absent (core₃.bookOf idx) core.nextExchangeId) := by
      rintro _ ⟨hit, _⟩
      obtain ⟨fill, member, same⟩ := List.mem_map.mp hit
      exact (makers fill member).2 same
    have whole := revised.restricts (noted.restricts paired₃) unused
    rw [here] at whole
    refine .inr ⟨idx, entry, _, e₁, engine, bound, known, content, cancelled, resubmitted,
      ran.exchanged (by rw [noted.frame, mapped.frame, dropped.frame])
        (by rw [noted.symbols, mapped.frame, dropped.symbols])
        ((noted.usable (mapped.usable (dropped.usable ran.usable))).healthy (noted.paired paired₃)) registered symbol
          sound₁ rests away
        submitted ?_ whole ?_⟩
    · intro rested
      exact healthy.maps.reverse.content_of_accepts (room₁ rested) taker.reverse
    · have events : core₃.events = [] := by rw [mapped.frame, dropped.events, append_nil, ran.events, drained]
      rw [noted.events, events, nil_append, filter_cons_of_pos rfl, fillGroups_congr kept,
        fillGroups_client, here]

end TickToTrade.Exchange.ExchangeCore
