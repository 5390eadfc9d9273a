import TickToTrade.Algo.BestQuote
import TickToTrade.Exchange.Responses

/-!
The best bid and ask that `emit_bbo` reports after every fill, read off the book when all the fills have
been made.
-/

namespace TickToTrade.Exchange
open Algo Ds Probing PriceTime Option

variable {sessionId : UInt16} {e' : MatchingEngine 64}

namespace ExchangeCore

variable {maxSymbols : Nat} {core core' : ExchangeCore maxSymbols} {taker : Taker} {fill : Fill} {fills : List Fill}
  {symbolId : Nat}

/-! ### Quotes as events -/

def quoteEvent (symbolId : Nat) (side : Side) (quote : Int × Nat) : ExchangeEvent where
  type := .kBBOUpdate
  symbolId := symbolId
  side := side
  price := quote.1
  qty := quote.2

def quoteEvents (symbolId : Nat) (quotes : Side → Option (Int × Nat)) : List ExchangeEvent :=
  (quotes .kBid).toList.map (quoteEvent symbolId .kBid) ++ (quotes .kAsk).toList.map (quoteEvent symbolId .kAsk)

theorem bestEvents_eq (book : OrderBook) (symbolId : Nat) (side : Side) :
    bestEvents book symbolId side = (book.quoted side).toList.map (quoteEvent symbolId side) := by
  unfold bestEvents OrderBook.quoted
  cases book.ladders side <;> rfl

theorem bboEvents_eq (book : OrderBook) (symbolId : Nat) :
    bboEvents book symbolId = quoteEvents symbolId book.quoted := by
  rw [bboEvents, bestEvents_eq, bestEvents_eq, quoteEvents]

variable {event : ExchangeEvent}

theorem mem_quoteEvents {quotes : Side → Option (Int × Nat)} (member : event ∈ quoteEvents symbolId quotes) :
    quotes event.side = some (event.price, event.qty) ∧ event.symbolId = symbolId := by
  rcases List.mem_append.mp member with bid | ask
  · obtain ⟨quote, found, rfl⟩ := List.mem_map.mp bid
    exact ⟨mem_toList.mp found, rfl⟩
  · obtain ⟨quote, found, rfl⟩ := List.mem_map.mp ask
    exact ⟨mem_toList.mp found, rfl⟩

theorem quoteEvents_eq_iff {quotes quotes' : Side → Option (Int × Nat)} :
    quoteEvents symbolId quotes = quoteEvents symbolId quotes' ↔ ∀ s, quotes s = quotes' s := by
  have filtered : ∀ (quotes : Side → Option (Int × Nat)) s,
      ((quoteEvents symbolId quotes).filter fun event => event.side = s) =
        (quotes s).toList.map (quoteEvent symbolId s) := by
    intro quotes s
    unfold quoteEvents
    cases s <;> cases quotes .kBid <;> cases quotes .kAsk <;> simp [quoteEvent]
  constructor
  · intro same s
    have here := filtered quotes s
    rw [same, filtered quotes' s] at here
    cases first : quotes s <;> cases second : quotes' s <;> simp_all [quoteEvent, Prod.ext_iff]
  · intro same
    rw [funext same]

/-! ### The groups of a call -/

def isBbo (event : ExchangeEvent) : Bool := event.type = .kBBOUpdate

theorem filter_fillGroup (makerOf : Nat → Option ReverseIdEntry) (book : OrderBook) (left : Nat) :
    (fillGroup taker makerOf book left fill).filter isBbo = bboEvents book taker.symbolId := by
  have kept : (bboEvents book taker.symbolId).filter isBbo = bboEvents book taker.symbolId := by
    apply List.filter_eq_self.mpr
    intro event member
    simp [isBbo, mem_bboEvents member]
  have made : (((makerOf fill.makerId).toList.map fun maker =>
    makerEvent maker fill taker.side (leftIn book fill.makerId)).filter isBbo) = [] := by
    cases makerOf fill.makerId <;> simp [isBbo, makerEvent]
  rw [fillGroup, List.filter_cons_of_neg (by simp [isBbo, takerEvent]), List.filter_append, kept, made, List.nil_append]

theorem mem_fillGroups {makerOf : Nat → Option ReverseIdEntry} {book : OrderBook} {remaining : Nat}
    {group : List ExchangeEvent} (member : group ∈ fillGroups taker makerOf book remaining fills) :
    ∃ fill ∈ fills, ∃ left, group = fillGroup taker makerOf book left fill := by
  induction fills generalizing remaining with
  | nil => cases member
  | cons fill fills ih =>
    rcases List.mem_cons.mp member with rfl | later
    · exact ⟨fill, List.mem_cons_self, _, rfl⟩
    · obtain ⟨fill', listed, shape⟩ := ih later
      exact ⟨fill', List.mem_cons_of_mem _ listed, shape⟩

def Quoted (core : ExchangeCore maxSymbols) (event : ExchangeEvent) : Prop :=
  ∃ idx, event.symbolId = idx + 1 ∧ idx < maxSymbols ∧ (core.symbols idx).active = true ∧
    (core.bookOf idx).quoted event.side = some (event.price, event.qty)

theorem Responded.quote {accepted rejected : EventType} {qty : Nat} {ack : ExchangeEvent}
    (responded : Responded core core' accepted rejected taker qty fills ack)
    (distinct : accepted ≠ .kBBOUpdate ∧ rejected ≠ .kBBOUpdate)
    (known : fills ≠ [] → core.symbolIndex taker.symbolId ≠ none)
    (member : event ∈ core'.events.drop core.events.length) (quote : event.type = .kBBOUpdate) :
    Quoted core' event := by
  rw [responded.events, List.drop_left, List.mem_cons] at member
  rcases member with rfl | later
  · rcases responded.responds.answers.type with same | same
    · exact absurd (same.symm.trans quote) distinct.1
    · exact absurd (same.symm.trans quote) distinct.2
  · obtain ⟨group, listed, within⟩ := List.mem_flatten.mp later
    obtain ⟨fill, made, left, rfl⟩ := mem_fillGroups listed
    have published := List.mem_filter.mpr ⟨within, (by simp [isBbo, quote] : isBbo event = true)⟩
    rw [filter_fillGroup, bboEvents_eq] at published
    obtain ⟨shown, symbol⟩ := mem_quoteEvents published
    obtain ⟨idx, index⟩ := ne_none_iff_exists'.mp (known (List.ne_nil_of_mem made))
    obtain ⟨slot, bound, active⟩ := symbolIndex_eq_some index
    have here : event.symbolId = idx + 1 := symbol.trans slot
    rw [slot, Nat.add_sub_cancel] at shown
    exact ⟨idx, here, bound, (responded.registered idx).trans active, shown⟩

theorem submitFills_known {order : NewOrder} (traded : core.submitFills sessionId order ≠ []) :
    core.symbolIndex order.symbolId ≠ none := fun unknown => traded (submitFills_of_stopped (.inr (.inl unknown)))

theorem modifyFills_known {modify : ModifyOrder} (maps : MapsOk core)
    (traded : core.modifyFills sessionId modify ≠ []) : core.symbolIndex modify.symbolId ≠ none := fun unknown =>
  traded (modifyFills_of_stopped maps (.inr (.inl unknown)))

theorem apply_quote {op : Op} (usable : Usable core) (applied : core.apply op = some core')
    (member : event ∈ core'.events.drop core.events.length) (quote : event.type = .kBBOUpdate) :
    Quoted core' event := by
  have silent : core'.events ≠ core.events := by
    intro same
    rw [same, List.drop_length] at member
    cases member
  cases op with
  | connect =>
    obtain ⟨⟨_, _⟩, connected, rfl⟩ := map_eq_some_iff.mp applied
    exact absurd (onClientConnect_quiet usable connected).events silent
  | disconnect sessionId => exact absurd (onClientDisconnect_quiet usable applied).events silent
  | submit sessionId order =>
    obtain ⟨ack, responded⟩ := submitOrder_responded usable applied
    exact responded.quote (by decide) submitFills_known member quote
  | cancel sessionId cancel =>
    obtain ⟨ack, responded⟩ := cancelOrder_responded usable applied
    exact responded.quote (by decide) (fun traded => absurd rfl traded) member quote
  | modify sessionId modify =>
    obtain ⟨ack, responded⟩ := modifyOrder_responded usable applied
    exact responded.quote (by decide) (modifyFills_known usable.maps) member quote

def InOrder (e : MatchingEngine 64) : Prop := e.book.Tallied ∧ Uncrossed e.book.levels

theorem inOrder_lasting : Lasting InOrder where
  create := fun created => ⟨MatchingEngine.create_tallied created, MatchingEngine.create_uncrossed created⟩
  submit := fun sound inOrder word done =>
    ⟨MatchingEngine.submitOrder_tallied sound inOrder.1 word done,
      MatchingEngine.submitOrder_uncrossed sound inOrder.2 done⟩
  cancel := fun sound inOrder done =>
    ⟨MatchingEngine.cancelOrder_tallied sound inOrder.1 done, MatchingEngine.cancelOrder_uncrossed sound inOrder.2 done⟩

/-! ### Quantities -/

theorem mod_eq_iff (sum : Nat) : sum % 2 ^ 32 = sum ↔ sum < 2 ^ 32 := by omega

/-- The volume of a level is the sum of what rests there, and so is the quantity of a quote, as long as the
sum is a word. -/
theorem volume_exact (maxFills maxSymbols : Nat) :
    (∀ {params : Params} {e e' : MatchingEngine maxFills} {ops : List MatchingEngine.Op},
      MatchingEngine.create maxFills params = some e → (∀ op ∈ ops, op.brings < 2 ^ 32) → e.run ops = some e' →
      ∀ side price, e'.book.volumeAtLevel side price = some (volumeAt (e'.book.levels side) price) ↔
        volumeAt (e'.book.levels side) price < 2 ^ 32) ∧
    ∀ {core core' : ExchangeCore maxSymbols} {calls : List Call} {op : Op} {event : ExchangeEvent},
      serveAll calls {} = some core → (∀ call ∈ calls, call.qty < 2 ^ 32) → op.qty < 2 ^ 32 →
      core.apply op = some core' → event ∈ core'.events.drop core.events.length → event.type = .kBBOUpdate →
      ∃ idx level, event.symbolId = idx + 1 ∧ ((core'.bookOf idx).levels event.side).head? = some level ∧
        event.price = level.price ∧ (event.qty = level.volume ↔ level.volume < 2 ^ 32) := by
  refine ⟨?_, ?_⟩
  · intro params e e' ops created words ran side price
    obtain ⟨sound, tallied⟩ := MatchingEngine.run_tallied created words ran
    rw [tallied.volumeAtLevel sound.linked, some.injEq, mod_eq_iff]
  · intro core core' calls op event served words word applied member quote
    have usable := serveAll_usable served
    have engines := (serveAll_engines inOrder_lasting words served).apply inOrder_lasting usable word applied
    obtain ⟨idx, symbol, bound, active, shown⟩ := apply_quote usable applied member quote
    have tallied : (core'.bookOf idx).Tallied := (engines idx bound active).1
    rw [tallied.quoted_eq] at shown
    obtain ⟨⟨p, v⟩, best, same⟩ := map_eq_some_iff.mp shown
    obtain ⟨level, front, shape⟩ := map_eq_some_iff.mp best
    obtain ⟨price, volume⟩ := Prod.mk.inj shape
    obtain ⟨atPrice, quantity⟩ := Prod.mk.inj same
    have quantity : v % 2 ^ 32 = event.qty := quantity
    refine ⟨idx, level, symbol, front, atPrice.symm.trans price.symm, ?_⟩
    rw [← quantity, volume, mod_eq_iff]

/-- Two offers at one price, five and seven. -/
theorem volume_exact_twelve : ∃ e e' : MatchingEngine 64, MatchingEngine.create 64 tinyParams = some e ∧
    e.run [.submitOrder 1 .kAsk 100 5, .submitOrder 2 .kAsk 100 7] = some e' ∧
    e'.book.volumeAtLevel .kAsk 100 = some (volumeAt (e'.book.levels .kAsk) 100) := by
  obtain ⟨e, created, e', ran, small⟩ : ∃ e, MatchingEngine.create 64 tinyParams = some e ∧
      ∃ e', e.run [.submitOrder 1 .kAsk 100 5, .submitOrder 2 .kAsk 100 7] = some e' ∧
        volumeAt (e'.book.levels .kAsk) 100 < 2 ^ 32 := by decide +kernel
  have words : ∀ op ∈ [MatchingEngine.Op.submitOrder 1 .kAsk 100 5, .submitOrder 2 .kAsk 100 7],
    op.brings < 2 ^ 32 := by decide
  exact ⟨e, e', created, ran, ((volume_exact 64 1).1 created words ran .kAsk 100).mpr small⟩

/-- Two offers at one price whose quantities sum to `2 ^ 32`: the level shows nothing. -/
theorem volume_wraps : ∃ e e' : MatchingEngine 64, MatchingEngine.create 64 tinyParams = some e ∧
    (∀ op ∈ [MatchingEngine.Op.submitOrder 1 .kAsk 100 (2 ^ 32 - 1), .submitOrder 2 .kAsk 100 1], op.brings < 2 ^ 32) ∧
    e.run [.submitOrder 1 .kAsk 100 (2 ^ 32 - 1), .submitOrder 2 .kAsk 100 1] = some e' ∧
    e'.book.volumeAtLevel .kAsk 100 ≠ some (volumeAt (e'.book.levels .kAsk) 100) := by
  obtain ⟨e, created, e', ran, different⟩ : ∃ e, MatchingEngine.create 64 tinyParams = some e ∧
      ∃ e', e.run [.submitOrder 1 .kAsk 100 (2 ^ 32 - 1), .submitOrder 2 .kAsk 100 1] = some e' ∧
        e'.book.volumeAtLevel .kAsk 100 ≠ some (volumeAt (e'.book.levels .kAsk) 100) := by decide +kernel
  exact ⟨e, e', created, by decide, ran, different⟩

/-! ### Fill by fill -/

/-- The events from each fill of order `takerId` up to its next one. -/
def groupsOf (takerId : Nat) : List ExchangeEvent → List (List ExchangeEvent)
  | [] => []
  | event :: rest =>
    if event.type = .kFill ∧ event.exchangeOrderId = takerId then
      (event :: rest.takeWhile fun later => ¬ (later.type = .kFill ∧ later.exchangeOrderId = takerId)) ::
      groupsOf takerId rest
    else groupsOf takerId rest

/-- An order on its way to a book; the engine of a modified one no longer has the order it replaces. -/
structure Incoming where
  engine : MatchingEngine 64
  id : Nat
  symbolId : Nat
  side : Side
  price : Int
  qty : Nat

def Incoming.executions (incoming : Incoming) : List Execution :=
  (incoming.engine.submitOrder incoming.id incoming.side incoming.price incoming.qty).elim [] fun found =>
    found.1.fills.map Fill.execution

def incoming (core : ExchangeCore maxSymbols) : Op → Option Incoming
  | .submit sessionId order =>
    if kMaxClientOrderId < order.clientOrderId then none
    else
      (core.symbolIndex order.symbolId).bind fun idx =>
        if core.seenOrders.accepts DefaultHash.hash (makeCompositeKey sessionId order.clientOrderId) then
          some ⟨(core.symbols idx).engine, core.nextExchangeId, order.symbolId, order.side, order.price, order.qty⟩
        else none
  | .modify sessionId modify =>
    if kMaxClientOrderId < modify.clientOrderId then none
    else
      (core.symbolIndex modify.symbolId).bind fun idx =>
        (core.idMap.content (makeCompositeKey sessionId modify.clientOrderId)).bind fun entry =>
          match (core.symbols idx).engine.cancelOrder entry.exchangeId with
          | some (true, engine) =>
            some ⟨engine, core.nextExchangeId, modify.symbolId, entry.side, modify.newPrice, modify.newQty⟩
          | _ => none
  | _ => none

/-- The quotes that follow a fill are those of the book after this fill and the ones before it. -/
def QuotesPerFill (incoming : Incoming) (events : List ExchangeEvent) : Prop :=
  ∀ (i : Nat) (group : List ExchangeEvent), (groupsOf incoming.id events)[i]? = some group →
    group.filter isBbo = quoteEvents incoming.symbolId fun s =>
      bestQuote (afterFills incoming.engine.book.levels incoming.side (incoming.executions.take (i + 1)) s)

theorem groupsOf_skip {takerId : Nat} {before rest : List ExchangeEvent}
    (others : ∀ event ∈ before, ¬ (event.type = .kFill ∧ event.exchangeOrderId = takerId)) :
    groupsOf takerId (before ++ rest) = groupsOf takerId rest := by
  induction before with
  | nil => rfl
  | cons event before ih =>
    rw [List.cons_append, groupsOf, if_neg (others event List.mem_cons_self),
      ih fun event member => others event (List.mem_cons_of_mem _ member)]

/-- The makers of the fills are other orders, so the reports of a fill are read back as they were written. -/
theorem groupsOf_fillGroups (makerOf : Nat → Option ReverseIdEntry) (book : OrderBook) (remaining : Nat)
    (others : ∀ fill ∈ fills, fill.makerId ≠ taker.exchangeId) :
    groupsOf taker.exchangeId (fillGroups taker makerOf book remaining fills).flatten =
    fillGroups taker makerOf book remaining fills := by
  induction fills generalizing remaining with
  | nil => rfl
  | cons fill fills ih =>
    have rest := ih (remaining - fill.qty) fun fill member => others fill (List.mem_cons_of_mem _ member)
    have behind : ∀ event ∈ ((makerOf fill.makerId).toList.map fun maker =>
        makerEvent maker fill taker.side (leftIn book fill.makerId)) ++ bboEvents book taker.symbolId,
        ¬ (event.type = .kFill ∧ event.exchangeOrderId = taker.exchangeId) := by
      intro event member own
      rcases List.mem_append.mp member with made | told
      · obtain ⟨maker, _, rfl⟩ := List.mem_map.mp made
        exact others fill List.mem_cons_self own.2
      · rw [mem_bboEvents told] at own
        cases own.1
    have stops : ((fillGroups taker makerOf book (remaining - fill.qty) fills).flatten.takeWhile fun later =>
        ¬ (later.type = .kFill ∧ later.exchangeOrderId = taker.exchangeId)) = [] := by
      cases fills with
      | nil => rfl
      | cons next fills => simp [fillGroups, fillGroup, takerEvent]
    rw [fillGroups, List.flatten_cons, fillGroup, List.cons_append, groupsOf, if_pos ⟨rfl, rfl⟩,
      groupsOf_skip behind, rest,
      List.takeWhile_append_of_pos fun event member => decide_eq_true (behind event member), stops, List.append_nil]

theorem length_groups (makerOf : Nat → Option ReverseIdEntry) (book : OrderBook) (remaining : Nat) :
    (fillGroups taker makerOf book remaining fills).length = fills.length := by
  induction fills generalizing remaining with
  | nil => rfl
  | cons fill fills ih => rw [fillGroups, List.length_cons, List.length_cons, ih]

theorem filter_group {makerOf : Nat → Option ReverseIdEntry} {book : OrderBook} {remaining i : Nat}
    {group : List ExchangeEvent} (here : (fillGroups taker makerOf book remaining fills)[i]? = some group) :
    i < fills.length ∧ group.filter isBbo = quoteEvents taker.symbolId book.quoted := by
  obtain ⟨bound, _⟩ := List.getElem?_eq_some_iff.mp here
  obtain ⟨fill, _, left, rfl⟩ := mem_fillGroups (List.mem_of_getElem? here)
  rw [length_groups] at bound
  rw [filter_fillGroup, bboEvents_eq]
  exact ⟨bound, rfl⟩

theorem Responded.quotesPerFill {accepted rejected : EventType} {qty : Nat} {ack : ExchangeEvent} {params : Params}
    {inc : Incoming} {result : MatchResult}
    (responded : Responded core core' accepted rejected taker qty result.fills ack)
    (distinct : accepted ≠ .kFill ∧ rejected ≠ .kFill) (symbol : taker.symbolId = inc.symbolId)
    (order : taker.exchangeId = inc.id) (sound : OrderBook.Sound params inc.engine.book) (inOrder : InOrder inc.engine)
    (word : inc.qty < 2 ^ 32) (called : inc.engine.submitOrder inc.id inc.side inc.price inc.qty = some (result, e'))
    (left : result.fills ≠ [] → core'.bookOf (taker.symbolId - 1) = e'.book) :
    (groupsOf inc.id (core'.events.drop core.events.length)).length = inc.executions.length ∧
    (QuotesPerFill inc (core'.events.drop core.events.length) ↔
      MatchingEngine.OneFillAtMost inc.engine.book inc.id inc.side inc.price inc.qty) := by
  have executions : inc.executions = result.fills.map Fill.execution := by rw [Incoming.executions, called]; rfl
  have others : ∀ fill ∈ result.fills, fill.makerId ≠ taker.exchangeId := by
    intro fill member same
    obtain ⟨p, q, resting⟩ := (submitOrder_submits sound called).2.makers fill member
    have unused := (submitOrder_trades sound called (List.ne_nil_of_mem member)).1
    rw [PriceTime.isLive_iff.mpr ⟨_, p, q, order ▸ same ▸ resting⟩] at unused
    cases unused
  have answer : ∀ event ∈ [ack], ¬ (event.type = .kFill ∧ event.exchangeOrderId = taker.exchangeId) := by
    intro event member own
    rw [List.mem_singleton.mp member] at own
    rcases responded.responds.answers.type with same | same
    · exact distinct.1 (same.symm.trans own.1)
    · exact distinct.2 (same.symm.trans own.1)
  have groups : groupsOf inc.id (core'.events.drop core.events.length) =
      fillGroups taker core.reverseIdMap.content (core'.bookOf (taker.symbolId - 1)) qty result.fills := by
    rw [responded.events, List.drop_left, ← order]
    exact (groupsOf_skip answer).trans (groupsOf_fillGroups _ _ qty others)
  have quotes := MatchingEngine.submitOrder_quotes sound inOrder.2
    (MatchingEngine.submitOrder_tallied sound inOrder.1 word called) (by decide) called
  refine ⟨by rw [groups, length_groups, executions, List.length_map], ?_⟩
  rw [← quotes, QuotesPerFill, groups, ← symbol, executions]
  have last : ∀ i, i < result.fills.length → core'.bookOf (taker.symbolId - 1) = e'.book := by
    intro i bound
    apply left
    intro none
    rw [none] at bound
    cases bound
  constructor
  · intro perFill i bound
    have here := List.getElem?_eq_getElem
      (show i < (fillGroups taker core.reverseIdMap.content (core'.bookOf (taker.symbolId - 1)) qty
      result.fills).length by rw [length_groups]; exact bound)
    have shown := perFill i _ here
    rw [(filter_group here).2, last i bound] at shown
    exact quoteEvents_eq_iff.mp shown
  · intro perFill i group here
    obtain ⟨bound, published⟩ := filter_group here
    rw [published, last i bound]
    exact quoteEvents_eq_iff.mpr (perFill i bound)

theorem submitOrder_left {order : NewOrder} {idx : Nat} {result : MatchResult} (usable : Usable core)
    (done : core.submitOrder sessionId order = some core') (known : core.symbolIndex order.symbolId = some idx)
    (called : (core.symbols idx).engine.submitOrder core.nextExchangeId order.side order.price order.qty =
      some (result, e'))
    (traded : core.submitFills sessionId order ≠ []) : core'.bookOf (order.symbolId - 1) = e'.book := by
  obtain ⟨here, _⟩ := symbolIndex_eq_some known
  obtain ⟨params, sound⟩ := usable.book known
  cases submitOrder_cases usable.maps.seen done with
  | refused symbolId reason stopped _ told => exact absurd (submitFills_of_stopped stopped) traded
  | idle idx' seen result' engine bound known' absent accepts inserted called' rested fills told =>
    exact absurd ((submitFills_of_called bound known' accepts called').trans fills) traded
  | accepted idx' seen result' engine core₂ core₃ bound known' absent accepts inserted called' busy told
      reported mapped =>
    obtain rfl := mem_unique known known'
    obtain ⟨rfl, rfl⟩ := Prod.mk.inj (mem_unique called called')
    have ran := usable.ran_submit sound inserted.wellFormed called
    obtain ⟨sound', submitted⟩ := submitOrder_submits sound called
    have noted := report_noted ran.usable.maps (ran.here ▸ sound') submitted.distinct told reported
    rw [here, Nat.add_sub_cancel, bookOf, (restMappings_mapped noted.maps mapped).frame, noted.symbols,
      ← ran.here, bookOf]

theorem modifyOrder_left {modify : ModifyOrder} {idx : Nat} {entry : IdEntry} {result : ModifyResult}
    (usable : Usable core)
    (done : core.modifyOrder sessionId modify = some core') (known : core.symbolIndex modify.symbolId = some idx)
    (found : core.idMap.find (makeCompositeKey sessionId modify.clientOrderId) = some (some entry))
    (called : (core.symbols idx).engine.modifyOrder entry.exchangeId entry.side modify.newPrice modify.newQty
      core.nextExchangeId = some (result, e')) (traded : core.modifyFills sessionId modify ≠ []) :
    core'.bookOf (modify.symbolId - 1) = e'.book := by
  obtain ⟨here, _⟩ := symbolIndex_eq_some known
  obtain ⟨params, sound⟩ := usable.book known
  cases modifyOrder_cases done with
  | refused reason stopped told => exact absurd (modifyFills_of_stopped usable.maps stopped) traded
  | missing idx' entry' result' engine bound known' found' called' failed told =>
    have none := (modifyFills_of_called bound known' (usable.maps.id.find_some found') called').1.trans
      (modifyOrder_failed called' failed)
    exact absurd none traded
  | modified idx' entry' result' engine core₂ core₃ core₄ bound known' found' called' success removed mapped
      told reported =>
    obtain rfl := mem_unique known known'
    obtain rfl := some.inj (mem_unique found found')
    obtain ⟨rfl, rfl⟩ := Prod.mk.inj (mem_unique called called')
    have ran := usable.ran_modify sound called
    obtain ⟨dropped, _⟩ := removeMappings_noted ran.usable.maps (usable.maps.id.find_some found) removed
    have mapped := restMappings_mapped dropped.maps mapped
    have book : core₃.bookOf idx = e'.book := by rw [bookOf, mapped.frame, dropped.symbols, ← ran.here, bookOf]
    have noted := report_noted mapped.maps (book ▸ modifyOrder_sound sound called)
      (modifyOrder_makers sound called).1 told reported
    rw [here, Nat.add_sub_cancel, noted.book, book]

/-- The quotes behind each fill are those of the book after this fill just if no request brings about a second
one, nor a remainder in the book behind the first. -/
theorem serveAll_quotesPerFill {calls : List Call} {op : Op} {inc : Incoming} (served : serveAll calls {} = some core)
    (words : ∀ call ∈ calls, call.qty < 2 ^ 32) (word : op.qty < 2 ^ 32) (applied : core.apply op = some core')
    (reaches : core.incoming op = some inc) :
    (groupsOf inc.id (core'.events.drop core.events.length)).length = inc.executions.length ∧
    (QuotesPerFill inc (core'.events.drop core.events.length) ↔
      MatchingEngine.OneFillAtMost inc.engine.book inc.id inc.side inc.price inc.qty) := by
  have usable := serveAll_usable served
  have engines := serveAll_engines inOrder_lasting words served
  cases op with
  | connect => cases reaches
  | disconnect sessionId => cases reaches
  | cancel sessionId cancel => cases reaches
  | submit sessionId order =>
    simp only [incoming] at reaches
    split at reaches
    · cases reaches
    rename_i small
    obtain ⟨idx, known, reaches⟩ := bind_eq_some_iff.mp reaches
    split at reaches
    · rename_i accepts
      cases reaches
      obtain ⟨_, bound, active⟩ := symbolIndex_eq_some known
      obtain ⟨params, sound⟩ := usable.book known
      obtain ⟨result, e', called, _⟩ :=
        Algo.submitOrder_effect sound core.nextExchangeId order.side order.price order.qty
      obtain ⟨ack, responded⟩ := submitOrder_responded usable applied
      have left := submitOrder_left usable applied known called
      rw [submitFills_of_called (by omega) known accepts called] at responded left
      exact responded.quotesPerFill (by decide) rfl rfl sound (engines idx bound active) word called left
    · cases reaches
  | modify sessionId modify =>
    simp only [incoming] at reaches
    split at reaches
    · cases reaches
    rename_i small
    obtain ⟨idx, known, reaches⟩ := bind_eq_some_iff.mp reaches
    obtain ⟨entry, content, reaches⟩ := bind_eq_some_iff.mp reaches
    split at reaches
    · rename_i e₁ cancelled
      cases reaches
      obtain ⟨_, bound, active⟩ := symbolIndex_eq_some known
      obtain ⟨params, sound⟩ := usable.books idx bound active
      have inOrder := engines idx bound active
      have found : core.idMap.find (makeCompositeKey sessionId modify.clientOrderId) = some (some entry) := by
        rw [FixedHashMap.find, usable.maps.id.find_eq, content]
      have sound₁ := cancelOrder_sound sound cancelled
      obtain ⟨result, e', called, _⟩ :=
        Algo.submitOrder_effect sound₁ core.nextExchangeId entry.side modify.newPrice modify.newQty
      have modified : (core.symbols idx).engine.modifyOrder entry.exchangeId entry.side modify.newPrice modify.newQty
          core.nextExchangeId = some (⟨result.fills, result.remainingQty, result.rested, true⟩, e') := by
        simp [MatchingEngine.modifyOrder, cancelled, called]
      obtain ⟨ack, responded⟩ := modifyOrder_responded usable applied
      obtain ⟨fills, side⟩ := modifyFills_of_called (by omega) known content modified
      have left := modifyOrder_left usable applied known found modified
      rw [fills] at responded left
      exact responded.quotesPerFill (by decide) rfl rfl sound₁ (inOrder_lasting.cancel sound inOrder cancelled)
        word called left
    · cases reaches

/-- A bid that takes the whole offer. -/
theorem serveAll_quotesPerFill_offered : ∃ (core core' : ExchangeCore 1)
    (inc : Incoming), serveAll offered {} = some core ∧ core.apply (.submit 1 ⟨8, 1, .kBid, 100, 5, 0⟩) = some core' ∧
    core.incoming (.submit 1 ⟨8, 1, .kBid, 100, 5, 0⟩) = some inc ∧ inc.executions.length = 1 ∧
    (groupsOf inc.id (core'.events.drop core.events.length)).length = inc.executions.length ∧
    (QuotesPerFill inc (core'.events.drop core.events.length) ↔
      MatchingEngine.OneFillAtMost inc.engine.book inc.id inc.side inc.price inc.qty) := by
  obtain ⟨core, served, core', applied, inc, reaches, once⟩ : ∃ core : ExchangeCore 1, serveAll offered {} = some core ∧
      ∃ core', core.apply (.submit 1 ⟨8, 1, .kBid, 100, 5, 0⟩) = some core' ∧
      ∃ inc, core.incoming (.submit 1 ⟨8, 1, .kBid, 100, 5, 0⟩) = some inc ∧ inc.executions.length = 1 := by
    decide +kernel
  exact ⟨core, core', inc, served, applied, reaches, once,
    serveAll_quotesPerFill served (by decide) (by decide) applied reaches⟩

def ladder : List Call :=
  [.register 1 tinyParams, .request .connect, .request (.submit 1 ⟨7, 1, .kAsk, 100, 5, 0⟩),
    .request (.submit 1 ⟨8, 1, .kAsk, 101, 5, 0⟩), .drain]

/-- A bid that takes both: the quotes behind the first fill no longer show the second offer. -/
theorem quotes_after_all_fills : ∃ (core core' : ExchangeCore 1) (inc : Incoming), serveAll ladder {} = some core ∧
    core.apply (.submit 1 ⟨9, 1, .kBid, 101, 10, 0⟩) = some core' ∧
    core.incoming (.submit 1 ⟨9, 1, .kBid, 101, 10, 0⟩) = some inc ∧
    ¬ QuotesPerFill inc (core'.events.drop core.events.length) := by
  obtain ⟨core, served, core', applied, inc, reaches, group, first, different⟩ :
      ∃ core : ExchangeCore 1, serveAll ladder {} = some core ∧
      ∃ core', core.apply (.submit 1 ⟨9, 1, .kBid, 101, 10, 0⟩) = some core' ∧
      ∃ inc, core.incoming (.submit 1 ⟨9, 1, .kBid, 101, 10, 0⟩) = some inc ∧
      ∃ group, (groupsOf inc.id (core'.events.drop core.events.length))[0]? = some group ∧
        group.filter isBbo ≠ quoteEvents inc.symbolId fun s =>
          bestQuote (afterFills inc.engine.book.levels inc.side (inc.executions.take 1) s) := by
    decide +kernel
  exact ⟨core, core', inc, served, applied, reaches, fun perFill => different (perFill 0 group first)⟩

end ExchangeCore

end TickToTrade.Exchange
