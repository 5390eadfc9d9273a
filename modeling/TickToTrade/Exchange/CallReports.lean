import TickToTrade.Exchange.CallCases

/-!
What a call has reported when it returns, whatever room the id maps had: the answer first, then one
group of events for each fill.
-/

namespace TickToTrade.Exchange.ExchangeCore
open Algo Ds Probing List Option Function
open OrderBook (Sound)

variable {maxSymbols : Nat} {core core' core₁ core₂ : ExchangeCore maxSymbols} {idx : Nat} {sessionId : UInt16}
  {params : Params} {side : Side} {taker : Taker} {fills : List Fill}
variable {maxFills : Nat} {e e' : MatchingEngine maxFills} {price : Int} {result : ModifyResult} {oldId newId : Nat}

/-- The tables and the books are in order; the two id maps need not agree. -/
structure Usable (core : ExchangeCore maxSymbols) : Prop where
  maps : MapsOk core
  books : ∀ i, i < maxSymbols → (core.symbols i).active = true → ∃ params, Sound params (core.bookOf i)

theorem Noted.usable {events : List ExchangeEvent} {Gone : Nat → Prop} (noted : Noted core core' events Gone)
    (usable : Usable core) : Usable core' where
  maps := noted.maps
  books := by
    unfold bookOf
    rw [noted.symbols]
    exact usable.books

/-! ### The engine of one symbol -/

structure Ran (core core₁ : ExchangeCore maxSymbols) (idx : Nat) (b : OrderBook) : Prop where
  usable : Usable core₁
  sessions : core₁.activeSessions = core.activeSessions
  registered : ∀ i, (core₁.symbols i).active = (core.symbols i).active
  events : core₁.events = core.events
  idMap : core₁.idMap = core.idMap
  reverseIdMap : core₁.reverseIdMap = core.reverseIdMap
  here : core₁.bookOf idx = b
  others : ∀ i, i ≠ idx → core₁.bookOf i = core.bookOf i

theorem setEngine_active (core : ExchangeCore maxSymbols) (idx : Nat) (engine : MatchingEngine 64) (i : Nat) :
    ((core.setEngine idx engine).symbols i).active = (core.symbols i).active := by
  by_cases here : i = idx
  · subst here
    simp [setEngine]
  · simp [setEngine, here]

variable {engine : MatchingEngine 64}

theorem Usable.setEngine (usable : Usable core)
    (sound : idx < maxSymbols → (core.symbols idx).active = true → ∃ params, Sound params engine.book) :
    Usable (core.setEngine idx engine) := by
  refine ⟨{ usable.maps with }, ?_⟩
  intro i bound active
  unfold bookOf
  by_cases here : i = idx
  · subst here
    simp only [ExchangeCore.setEngine, update_self] at active ⊢
    exact sound bound active
  · simp only [ExchangeCore.setEngine, update_of_ne here] at active ⊢
    exact usable.books i bound active

theorem setEngine_ran (usable : Usable core) {seen : FixedHashMap Nat Bool kMaxSeenOrders}
    (ok : Table.WellFormed DefaultHash.hash seen) (next idx : Nat)
    (sound : Sound params engine.book) :
    Ran core (({ core with seenOrders := seen, nextExchangeId := next } : ExchangeCore maxSymbols).setEngine idx engine)
      idx engine.book where
  usable := by
    have noted : Usable ({ core with seenOrders := seen, nextExchangeId := next } : ExchangeCore maxSymbols) :=
      ⟨{ usable.maps with seen := ok }, usable.books⟩
    exact noted.setEngine fun _ _ => ⟨params, sound⟩
  sessions := rfl
  registered := setEngine_active _ idx engine
  events := rfl
  idMap := rfl
  reverseIdMap := rfl
  here := by simp [bookOf, setEngine]
  others := by
    intro i other
    simp [bookOf, setEngine, other]

theorem Usable.ran (usable : Usable core) (idx : Nat) : Ran core core idx (core.bookOf idx) :=
  ⟨usable, rfl, fun _ => rfl, rfl, rfl, rfl, rfl, fun _ _ => rfl⟩

theorem Usable.book {symbolId : Nat} (usable : Usable core) (known : core.symbolIndex symbolId = some idx) :
    ∃ params, Sound params (core.bookOf idx) := by
  obtain ⟨_, bound, active⟩ := symbolIndex_eq_some known
  exact usable.books idx bound active

variable {qty : Nat}

section

variable (sound : Sound params e.book)
include sound

theorem submitOrder_submits {id : Nat} {result : MatchResult}
    (called : e.submitOrder id side price qty = some (result, e')) :
    Sound params e'.book ∧ Algo.Submitted maxFills e.book e'.book id side price qty result := by
  obtain ⟨_, _, again, sound', submitted⟩ := Algo.submitOrder_effect sound id side price qty
  obtain ⟨rfl, rfl⟩ := Prod.mk.inj (mem_unique called again)
  exact ⟨sound', submitted⟩

theorem cancelOrder_sound {id : Nat} {cancelled : Bool}
    (called : e.cancelOrder id = some (cancelled, e')) : Sound params e'.book := by
  obtain ⟨_, _, again, sound', _⟩ := Algo.cancelOrder_effect sound id
  obtain ⟨_, rfl⟩ := Prod.mk.inj (mem_unique called again)
  exact sound'

theorem modifyOrder_sound
    (called : e.modifyOrder oldId side price qty newId = some (result, e')) :
    Sound params e'.book := by
  obtain ⟨_, _, again, sound', _⟩ := Algo.modifyOrder_effect sound oldId side price qty newId
  obtain ⟨_, rfl⟩ := Prod.mk.inj (mem_unique called again)
  exact sound'

end

variable {order : NewOrder}

section

variable (usable : Usable core) (sound : Sound params (core.bookOf idx))
include usable sound

theorem Usable.ran_submit {seen : FixedHashMap Nat Bool kMaxSeenOrders}
    {result : MatchResult}
    (ok : Table.WellFormed DefaultHash.hash seen)
    (called : (core.symbols idx).engine.submitOrder core.nextExchangeId order.side order.price order.qty =
      some (result, engine)) : Ran core (core.matched seen idx engine) idx engine.book :=
  setEngine_ran usable ok _ idx (submitOrder_submits sound called).1

theorem Usable.ran_cancel {exchangeId : Nat} {cancelled : Bool}
    (called : (core.symbols idx).engine.cancelOrder exchangeId = some (cancelled, engine)) :
    Ran core (core.setEngine idx engine) idx engine.book :=
  setEngine_ran usable usable.maps.seen core.nextExchangeId idx (cancelOrder_sound sound called)

theorem Usable.ran_modify
    (called : (core.symbols idx).engine.modifyOrder oldId side price qty newId = some (result, engine)) :
    Ran core (core.matched core.seenOrders idx engine) idx engine.book :=
  setEngine_ran usable usable.maps.seen _ idx (modifyOrder_sound sound called)

end

theorem modifyOrder_failed {side : Side} (done : e.modifyOrder oldId side price qty newId = some (result, e'))
    (failed : result.success = false) : result.fills = [] := by
  obtain ⟨⟨cancelled, e₁⟩, _, done⟩ := bind_eq_some_iff.mp done
  cases cancelled with
  | false =>
    cases done
    rfl
  | true =>
    obtain ⟨⟨_, _⟩, _, done⟩ := bind_eq_some_iff.mp done
    cases done
    cases failed

/-- The makers of a modified order are neither the order it replaces nor the new one. -/
theorem modifyOrder_makers {params : Params} {side : Side} (sound : Sound params e.book)
    (called : e.modifyOrder oldId side price qty newId = some (result, e')) :
    (result.fills.map Fill.makerId).Nodup ∧ ∀ fill ∈ result.fills, fill.makerId ≠ oldId ∧ fill.makerId ≠ newId := by
  obtain ⟨_, _, again, _, outcome⟩ := Algo.modifyOrder_effect sound oldId side price qty newId
  obtain ⟨rfl, rfl⟩ := Prod.mk.inj (mem_unique called again)
  rcases outcome with ⟨failed, _⟩ | ⟨_, _, e₁, _, sound₁, rests, _, resubmitted, submitted⟩
  · rw [modifyOrder_failed called failed]
    simp
  refine ⟨submitted.distinct, ?_⟩
  intro fill member
  obtain ⟨p, q, resting⟩ := submitted.makers fill member
  refine ⟨((rests _ _ _ _).mp resting).2, ?_⟩
  intro same
  have unused := (submitOrder_trades sound₁ resubmitted (ne_nil_of_mem member)).1
  rw [PriceTime.isLive_iff.mpr ⟨_, p, q, same ▸ resting⟩] at unused
  cases unused

theorem cancelOrder_missing {id : Nat} (sound : Sound params e.book) (called : e.cancelOrder id = some (false, e')) :
    e'.book.levels = e.book.levels := by
  obtain ⟨_, _, again, _, found, _, levels⟩ := Algo.cancelOrder_effect sound id
  obtain ⟨rfl, rfl⟩ := Prod.mk.inj (mem_unique called again)
  funext s
  apply levels
  intro p q rests
  cases found.mpr ⟨s, p, q, rests⟩

theorem modifyOrder_missing (sound : Sound params e.book)
    (called : e.modifyOrder oldId side price qty newId = some (result, e')) (failed : result.success = false) :
    e'.book.levels = e.book.levels := by
  obtain ⟨_, _, again, _, outcome⟩ := Algo.modifyOrder_effect sound oldId side price qty newId
  obtain ⟨rfl, rfl⟩ := Prod.mk.inj (mem_unique called again)
  rcases outcome with ⟨_, _, same⟩ | ⟨success, _⟩
  · rw [same]
  · rw [failed] at success
    cases success

/-! ### New mappings -/

/-- The maps may have gained an order, each of them or only one. -/
structure Mapped (core core' : ExchangeCore maxSymbols) (exchangeId : Nat) (reverse : ReverseIdEntry) : Prop where
  frame : core' = { core with idMap := core'.idMap, reverseIdMap := core'.reverseIdMap }
  maps : MapsOk core'
  others : ∀ x, x ≠ exchangeId → core'.reverseIdMap.content x = core.reverseIdMap.content x
  owners : ∀ x found, core'.reverseIdMap.content x = some found →
    core.reverseIdMap.content x = some found ∨ found = reverse

theorem restMappings_mapped (maps : MapsOk core) {rested : Bool} {taker : Taker}
    (done : core.restMappings rested taker = some core') : Mapped core core' taker.exchangeId taker.reverse := by
  cases rested with
  | false =>
    cases done
    exact ⟨rfl, maps, fun _ _ => rfl, fun _ _ => .inl⟩
  | true =>
    obtain ⟨⟨_, idMap⟩, inserted, done⟩ := bind_eq_some_iff.mp done
    obtain ⟨⟨_, reverseIdMap⟩, inserted', done⟩ := bind_eq_some_iff.mp done
    cases done
    obtain ⟨ok, _⟩ := maps.id.insert_some inserted
    obtain ⟨ok', others, own⟩ := maps.reverse.insert_some inserted'
    refine ⟨rfl, ⟨maps.seen, ok, ok'⟩, others, ?_⟩
    intro x found present
    by_cases same : x = taker.exchangeId
    · subst same
      rcases own with old | new
      · exact .inl (old ▸ present)
      · exact .inr (mem_unique present new)
    · exact .inl (others x same ▸ present)

theorem Mapped.usable {exchangeId : Nat} {reverse : ReverseIdEntry} (mapped : Mapped core core' exchangeId reverse)
    (usable : Usable core) : Usable core' where
  maps := mapped.maps
  books := by
    unfold bookOf
    rw [mapped.frame]
    exact usable.books

theorem insert_returns {K V : Type} [DecidableEq K] {hash : K → Nat} {t : Table K V} (ok : t.WellFormed hash) (key : K)
    (value : V) : ∃ answer, t.insert hash key value = some answer := by
  rcases ok.insert_cases key value with ⟨_, _, kept⟩ | ⟨_, _, _, kept⟩ | ⟨_, _, _, added, _⟩
  · exact ⟨_, kept⟩
  · exact ⟨_, kept⟩
  · exact ⟨_, added⟩

theorem restMappings_returns (maps : MapsOk core) (rested : Bool) (taker : Taker) :
    ∃ core', core.restMappings rested taker = some core' := by
  cases rested with
  | false => exact ⟨core, rfl⟩
  | true =>
    obtain ⟨_, inserted⟩ := insert_returns maps.id (keyOf taker.reverse) taker.entry
    obtain ⟨_, inserted'⟩ := insert_returns maps.reverse taker.entry.exchangeId taker.reverse
    simp [restMappings, insertMappings, FixedHashMap.insert, inserted, inserted']

/-! ### The answer -/

structure Unharmed (core core' : ExchangeCore maxSymbols) : Prop where
  books : ∀ i, (core'.bookOf i).levels = (core.bookOf i).levels
  idMap : ∀ key, core'.idMap.find key = core.idMap.find key
  reverseIdMap : ∀ id, core'.reverseIdMap.find id = core.reverseIdMap.find id
  sessions : core'.activeSessions = core.activeSessions

theorem Ran.unharmed {b : OrderBook} {event : ExchangeEvent} (ran : Ran core core₁ idx b)
    (same : b.levels = (core.bookOf idx).levels) (told : core₁.emit event = some core') : Unharmed core core' := by
  rw [emit_eq_some told]
  refine ⟨?_, fun key => by rw [← ran.idMap], fun id => by rw [← ran.reverseIdMap], ran.sessions⟩
  intro i
  by_cases here : i = idx
  · subst here
    exact (congrArg OrderBook.levels ran.here).trans same
  · exact congrArg OrderBook.levels (ran.others i here)

/-- One group for each fill. The fills of the groups are taken from `left`, one after the other. -/
inductive FillGroups (sessionId : UInt16) (clientOrderId : Nat) : (left : Nat) → List (List ExchangeEvent) → Prop where
  | done (left : Nat) : FillGroups sessionId clientOrderId left []
  | fill {left : Nat} {taker : ExchangeEvent} {makers bbo : List ExchangeEvent} {groups : List (List ExchangeEvent)}
    (type : taker.type = .kFill) (requester : taker.sessionId = sessionId)
      (request : taker.clientOrderId = clientOrderId)
    (traded : 0 < taker.qty) (remaining : taker.remainingQty + taker.qty = left)
    (oneMaker : makers.length ≤ 1)
    (maker : ∀ event ∈ makers, event.type = .kFill ∧ event.price = taker.price ∧ event.qty = taker.qty ∧
      event.side = taker.side.opposite)
    (twoSides : bbo.length ≤ 2) (published : ∀ event ∈ bbo, event.type = .kBBOUpdate)
    (rest : FillGroups sessionId clientOrderId taker.remainingQty groups) :
    FillGroups sessionId clientOrderId left ((taker :: (makers ++ bbo)) :: groups)

theorem fillGroups_ok (makerOf : Nat → Option ReverseIdEntry) (book : OrderBook) {remaining : Nat}
    (filled : ∀ fill ∈ fills, 0 < fill.qty) (bounded : (fills.map Fill.qty).sum ≤ remaining) :
    FillGroups taker.sessionId taker.clientOrderId remaining (fillGroups taker makerOf book remaining fills) := by
  induction fills generalizing remaining with
  | nil => exact .done remaining
  | cons fill fills ih =>
    rw [map_cons, sum_cons] at bounded
    have later : (fills.map Fill.qty).sum ≤ remaining - fill.qty := by omega
    have rest := ih (fun fill member => filled fill (mem_cons_of_mem _ member)) later
    refine .fill rfl rfl rfl (filled fill mem_cons_self)
      (show remaining - fill.qty + fill.qty = remaining by omega) ?_ ?_
      (length_bboEvents _ _) (fun event member => mem_bboEvents member) rest
    · cases makerOf fill.makerId <;> simp
    · intro event member
      obtain ⟨_, _, rfl⟩ := List.mem_map.mp member
      exact ⟨rfl, rfl, rfl, rfl⟩

theorem FillGroups.types {clientOrderId left : Nat} {groups : List (List ExchangeEvent)}
    (ok : FillGroups sessionId clientOrderId left groups) {event : ExchangeEvent} (member : event ∈ groups.flatten) :
    event.type = .kFill ∨ event.type = .kBBOUpdate := by
  induction ok with
  | done left => cases member
  | fill type _ _ _ _ _ maker _ published _ ih =>
    rw [flatten_cons, mem_append, mem_cons, mem_append] at member
    rcases member with (rfl | made | told) | later
    · exact .inl type
    · exact .inl (maker event made).1
    · exact .inr (published event told)
    · exact ih later

structure Answers (accepted rejected : EventType) (sessionId : UInt16) (clientOrderId : Nat) (sendTs : Int)
    (ack : ExchangeEvent) : Prop where
  type : ack.type = accepted ∨ ack.type = rejected
  sessionId : ack.sessionId = sessionId
  clientOrderId : ack.clientOrderId = clientOrderId
  sendTs : ack.sendTs = sendTs

/-- The events of one request for `qty`: the answer, and the fills unless it is a rejection. -/
structure Responds (accepted rejected : EventType) (sessionId : UInt16) (clientOrderId : Nat) (sendTs : Int) (qty : Nat)
    (ack : ExchangeEvent) (groups : List (List ExchangeEvent)) : Prop where
  answers : Answers accepted rejected sessionId clientOrderId sendTs ack
  alone : ack.type = rejected → groups = []
  fills : FillGroups sessionId clientOrderId qty groups
  short : (ack :: groups.flatten).length ≤ 257

theorem filledQty_executions (fills : List Fill) : PriceTime.filledQty (fills.map Fill.execution) =
    (fills.map Fill.qty).sum := by
  rw [PriceTime.filledQty, List.map_map]
  rfl

theorem responds_submitted {b b' : OrderBook} {id : Nat} {result : MatchResult} {accepted rejected : EventType}
    {sendTs : Int} {ack : ExchangeEvent} (taker : Taker) (submitted : Algo.Submitted 64 b b' id side price qty result)
    (answers : Answers accepted rejected taker.sessionId taker.clientOrderId sendTs ack)
    (positive : ack.type ≠ rejected) (makerOf : Nat → Option ReverseIdEntry) (book : OrderBook) :
    Responds accepted rejected taker.sessionId taker.clientOrderId sendTs qty ack
      (fillGroups taker makerOf book qty result.fills) := by
  have total := submitted.total
  rw [filledQty_executions] at total
  refine ⟨answers, fun same => absurd same positive, fillGroups_ok makerOf book submitted.filled (by omega), ?_⟩
  have length := length_fillGroups taker makerOf book qty result.fills
  have few := submitted.few
  rw [length_cons]
  omega

def submitFills (core : ExchangeCore maxSymbols) (sessionId : UInt16) (order : NewOrder) : List Fill :=
  if kMaxClientOrderId < order.clientOrderId then []
  else
    match core.symbolIndex order.symbolId with
    | none => []
    | some idx =>
      if core.seenOrders.accepts DefaultHash.hash (makeCompositeKey sessionId order.clientOrderId) then
        ((core.symbols idx).engine.submitOrder core.nextExchangeId order.side order.price order.qty).elim []
          fun found =>
          found.1.fills
      else []

theorem submitFills_of_stopped
    (stopped : kMaxClientOrderId < order.clientOrderId ∨ core.symbolIndex order.symbolId = none ∨
      core.seenOrders.accepts DefaultHash.hash (makeCompositeKey sessionId order.clientOrderId) = false) :
    core.submitFills sessionId order = [] := by
  unfold submitFills
  split
  · rfl
  rename_i small
  rcases stopped with large | unknown | refused
  · exact absurd large small
  · rw [unknown]
  · split
    · rfl
    · rw [if_neg (by simp [refused])]

theorem submitFills_of_called {result : MatchResult}
    (bound : order.clientOrderId ≤ kMaxClientOrderId) (known : core.symbolIndex order.symbolId = some idx)
    (accepts : core.seenOrders.accepts DefaultHash.hash (makeCompositeKey sessionId order.clientOrderId) = true)
    (called : (core.symbols idx).engine.submitOrder core.nextExchangeId order.side order.price order.qty =
      some (result, engine)) : core.submitFills sessionId order = result.fills := by
  simp only [submitFills, Nat.not_lt_of_le bound, if_false, known, accepts, if_true, called, elim_some]

def modifyFills (core : ExchangeCore maxSymbols) (sessionId : UInt16) (modify : ModifyOrder) : List Fill :=
  if kMaxClientOrderId < modify.clientOrderId then []
  else
    match core.symbolIndex modify.symbolId, core.idMap.content (makeCompositeKey sessionId modify.clientOrderId) with
    | some idx, some entry =>
      ((core.symbols idx).engine.modifyOrder entry.exchangeId entry.side modify.newPrice modify.newQty
        core.nextExchangeId).elim [] fun found => found.1.fills
    | _, _ => []

def modifySide (core : ExchangeCore maxSymbols) (sessionId : UInt16) (modify : ModifyOrder) : Side :=
  (core.idMap.content (makeCompositeKey sessionId modify.clientOrderId)).elim .kBid IdEntry.side

variable {modify : ModifyOrder}

theorem modifyFills_of_stopped (maps : MapsOk core)
    (stopped : kMaxClientOrderId < modify.clientOrderId ∨ core.symbolIndex modify.symbolId = none ∨
      core.idMap.find (makeCompositeKey sessionId modify.clientOrderId) = some none) :
    core.modifyFills sessionId modify = [] := by
  unfold modifyFills
  split
  · rfl
  rename_i small
  rcases stopped with large | unknown | absent
  · exact absurd large small
  · rw [unknown]
  · rw [FixedHashMap.find, maps.id.find_eq, some.injEq] at absent
    rw [absent]
    cases core.symbolIndex modify.symbolId <;> rfl

theorem modifyFills_of_called {entry : IdEntry}
    (bound : modify.clientOrderId ≤ kMaxClientOrderId) (known : core.symbolIndex modify.symbolId = some idx)
    (found : core.idMap.content (makeCompositeKey sessionId modify.clientOrderId) = some entry)
    (called : (core.symbols idx).engine.modifyOrder entry.exchangeId entry.side modify.newPrice modify.newQty
      core.nextExchangeId = some (result, engine)) :
    core.modifyFills sessionId modify = result.fills ∧ core.modifySide sessionId modify = entry.side := by
  simp [modifyFills, modifySide, Nat.not_lt_of_le bound, known, found, called]

/-- A call has answered and reported these fills from the book it left. -/
structure Responded (core core' : ExchangeCore maxSymbols) (accepted rejected : EventType) (taker : Taker) (qty : Nat)
    (fills : List Fill) (ack : ExchangeEvent) : Prop where
  usable : Usable core'
  sessions : core'.activeSessions = core.activeSessions
  registered : ∀ i, (core'.symbols i).active = (core.symbols i).active
  addressed : isClient ack = true
  events : core'.events = core.events ++
    ack :: (fillGroups taker core.reverseIdMap.content (core'.bookOf (taker.symbolId - 1)) qty fills).flatten
  responds : Responds accepted rejected taker.sessionId taker.clientOrderId taker.sendTs qty ack
    (fillGroups taker core.reverseIdMap.content (core'.bookOf (taker.symbolId - 1)) qty fills)
  unharmed : ack.type = rejected → Unharmed core core'
  owners : ∀ x reverse, core'.reverseIdMap.content x = some reverse →
    core.reverseIdMap.content x = some reverse ∨ reverse.sessionId = taker.sessionId

theorem Responded.client {accepted rejected : EventType} {ack : ExchangeEvent}
    (responded : Responded core core' accepted rejected taker qty fills ack)
    (drained : core.events = []) :
    core'.events.filter isClient = ack :: fillEvents taker core.reverseIdMap.content
      (leftIn (core'.bookOf (taker.symbolId - 1))) qty fills := by
  rw [responded.events, drained, nil_append, filter_cons_of_pos responded.addressed, fillGroups_client]

section Ran

variable {b : OrderBook} {accepted rejected : EventType} {qty : Nat} {ack : ExchangeEvent} (ran : Ran core core₁ idx b)
  (addressed : isClient ack = true)
    (answers : Answers accepted rejected taker.sessionId taker.clientOrderId taker.sendTs ack)
include ran addressed answers

theorem Ran.alone {Gone : Nat → Prop} (noted : Noted core₁ core' [ack] Gone) (noFills : fills = [])
    (unharmed : ack.type = rejected → Unharmed core core') :
    Responded core core' accepted rejected taker qty fills ack where
  usable := noted.usable ran.usable
  sessions := by rw [noted.frame, ← ran.sessions]
  registered := by
    intro i
    rw [noted.symbols, ran.registered]
  addressed := addressed
  events := by
    rw [noted.events, ran.events, noFills]
    rfl
  responds := by
    rw [noFills]
    exact ⟨answers, fun _ => rfl, .done qty, by simp [fillGroups]⟩
  unharmed := unharmed
  owners := by
    intro x reverse found
    rw [← ran.reverseIdMap]
    exact .inl ((noted.reverse x reverse).mp found).1

theorem Ran.refused (same : b.levels = (core.bookOf idx).levels) (told : core₁.emit ack = some core')
    (noFills : fills = []) : Responded core core' accepted rejected taker qty fills ack :=
  ran.alone addressed answers (emit_noted ran.usable.maps told) noFills fun _ => ran.unharmed same told

end Ran

section

variable (usable : Usable core)
include usable

theorem submitOrder_responded (done : core.submitOrder sessionId order = some core') :
    ∃ ack, Responded core core' .kOrderAccepted .kOrderRejected
    (submitTaker sessionId order core.nextExchangeId) order.qty (core.submitFills sessionId order) ack := by
  cases submitOrder_cases usable.maps.seen done with
  | refused symbolId reason stopped _ told =>
    exact ⟨_, (usable.ran 0).refused rfl ⟨.inr rfl, rfl, rfl, rfl⟩ rfl told (submitFills_of_stopped stopped)⟩
  | idle idx seen result engine bound known absent accepts inserted called rested fills told =>
    obtain ⟨params, sound⟩ := usable.book known
    have ran := usable.ran_submit sound inserted.wellFormed called
    exact ⟨_, ran.refused rfl ⟨.inr rfl, rfl, rfl, rfl⟩ (submitOrder_idle sound called rested fills) told
      ((submitFills_of_called bound known accepts called).trans fills)⟩
  | accepted idx seen result engine core₂ core₃ bound known absent accepts inserted called busy told reported mapped =>
    obtain ⟨here, _⟩ := symbolIndex_eq_some known
    obtain ⟨params, sound⟩ := usable.book known
    obtain ⟨sound', submitted⟩ := submitOrder_submits sound called
    have ran := usable.ran_submit sound inserted.wellFormed called
    have noted := report_noted ran.usable.maps (ran.here ▸ sound') submitted.distinct told reported
    have mapped := restMappings_mapped noted.maps mapped
    have book : core'.bookOf (order.symbolId - 1) = engine.book := by
      rw [here, Nat.add_sub_cancel, bookOf, mapped.frame, noted.symbols, ← ran.here, bookOf]
    rw [submitFills_of_called bound known accepts called]
    refine ⟨acceptedEvent sessionId order core.nextExchangeId, mapped.usable (noted.usable ran.usable), ?_, ?_,
      rfl, ?_, ?_, by rintro ⟨⟩, ?_⟩
    · rw [mapped.frame, noted.frame, ← ran.sessions]
    · intro i
      rw [mapped.frame, noted.frame, ← ran.registered]
    · have kept : core'.events = core₃.events := by rw [mapped.frame]
      rw [kept, noted.events, ran.events, ran.here, ran.reverseIdMap, submitTaker, book]
    · refine responds_submitted (submitTaker sessionId order core.nextExchangeId) submitted ?_ (by rintro ⟨⟩) _ _
      exact ⟨.inl rfl, rfl, rfl, rfl⟩
    · intro x reverse found
      rw [← ran.reverseIdMap]
      exact (mapped.owners x reverse found).imp (fun kept => ((noted.reverse x reverse).mp kept).1)
        (congrArg ReverseIdEntry.sessionId)

theorem cancelOrder_responded {cancel : CancelOrder} (done : core.cancelOrder sessionId cancel = some core') :
    ∃ ack, Responded core core' .kCancelAck .kCancelRejected
      ⟨sessionId, cancel.clientOrderId, 0, cancel.symbolId, .kBid, cancel.sendTs⟩ 0 [] ack := by
  cases cancelOrder_cases done with
  | refused reason told => exact ⟨_, (usable.ran 0).refused rfl ⟨.inr rfl, rfl, rfl, rfl⟩ rfl told rfl⟩
  | missing idx entry engine bound known found called told =>
    obtain ⟨params, sound⟩ := usable.book known
    exact ⟨_, (usable.ran_cancel sound called).refused rfl ⟨.inr rfl, rfl, rfl, rfl⟩
      (cancelOrder_missing sound called) told rfl⟩
  | cancelled idx entry engine core₁ bound known found called removed told =>
    obtain ⟨params, sound⟩ := usable.book known
    have ran := usable.ran_cancel sound called
    obtain ⟨noted, _⟩ := removeMappings_noted ran.usable.maps (usable.maps.id.find_some found) removed
    exact ⟨cancelAckEvent sessionId cancel,
      ran.alone rfl ⟨.inl rfl, rfl, rfl, rfl⟩ (noted.trans (emit_noted noted.maps told)) rfl nofun⟩

theorem modifyOrder_responded (done : core.modifyOrder sessionId modify = some core') :
    ∃ ack, Responded core core' .kModifyAck .kModifyRejected
      (modifyTaker sessionId modify (core.modifySide sessionId modify) core.nextExchangeId) modify.newQty
      (core.modifyFills sessionId modify) ack := by
  cases modifyOrder_cases done with
  | refused reason stopped told =>
    exact ⟨_, (usable.ran 0).refused rfl ⟨.inr rfl, rfl, rfl, rfl⟩ rfl told
      (modifyFills_of_stopped usable.maps stopped)⟩
  | missing idx entry result engine bound known found called failed told =>
    obtain ⟨params, sound⟩ := usable.book known
    exact ⟨_, (usable.ran_modify sound called).refused rfl ⟨.inr rfl, rfl, rfl, rfl⟩
      (modifyOrder_missing sound called failed) told
      ((modifyFills_of_called bound known (usable.maps.id.find_some found) called).1.trans
        (modifyOrder_failed called failed))⟩
  | modified idx entry result engine core₂ core₃ core₄ bound known found called success removed mapped told reported =>
    obtain ⟨here, _⟩ := symbolIndex_eq_some known
    obtain ⟨params, sound⟩ := usable.book known
    obtain ⟨_, _, again, sound', outcome⟩ :=
      Algo.modifyOrder_effect sound entry.exchangeId entry.side modify.newPrice modify.newQty core.nextExchangeId
    obtain ⟨rfl, rfl⟩ := Prod.mk.inj (mem_unique called again)
    rcases outcome with ⟨failed, _⟩ | ⟨_, _, _, _, _, _, _, _, submitted⟩
    · rw [success] at failed
      cases failed
    obtain ⟨fills, side⟩ := modifyFills_of_called bound known (usable.maps.id.find_some found) called
    have ran := usable.ran_modify sound called
    obtain ⟨dropped, _⟩ := removeMappings_noted ran.usable.maps (usable.maps.id.find_some found) removed
    have mapped := restMappings_mapped dropped.maps mapped
    have before : core₃.bookOf idx = engine.book := by rw [bookOf, mapped.frame, dropped.symbols, ← ran.here, bookOf]
    have noted := report_noted mapped.maps (before ▸ sound') submitted.distinct told reported
    have book : core'.bookOf (modify.symbolId - 1) = engine.book := by rw [here, Nat.add_sub_cancel, noted.book, before]
    -- No maker of the fills is the old order or the new one.
    have kept : ∀ fill ∈ result.fills, core₃.reverseIdMap.content fill.makerId =
        core.reverseIdMap.content fill.makerId := by
      intro fill member
      obtain ⟨old, new⟩ := (modifyOrder_makers sound called).2 fill member
      rw [mapped.others _ new, dropped.kept old, ran.reverseIdMap]
    have events : core₃.events = core.events := by rw [mapped.frame, dropped.events, append_nil, ran.events]
    rw [fills, side]
    refine ⟨modifyAckEvent sessionId modify core.nextExchangeId,
      noted.usable (mapped.usable (dropped.usable ran.usable)), ?_, ?_, rfl, ?_, ?_, by rintro ⟨⟩, ?_⟩
    · rw [noted.frame, mapped.frame, dropped.frame, ← ran.sessions]
    · intro i
      rw [noted.frame, mapped.frame, dropped.frame, ← ran.registered]
    · rw [noted.events, events, fillGroups_congr kept, before, modifyTaker, book]
    · refine responds_submitted (modifyTaker sessionId modify entry.side core.nextExchangeId) submitted ?_
        (by rintro ⟨⟩) _ _
      exact ⟨.inl rfl, rfl, rfl, rfl⟩
    · intro x reverse found
      rw [← ran.reverseIdMap]
      exact (mapped.owners x reverse ((noted.reverse x reverse).mp found).1).imp
        (fun kept => ((dropped.reverse x reverse).mp kept).1) (congrArg ReverseIdEntry.sessionId)

/-! ### The calls return -/

section

variable (room : core.events.length + 257 ≤ kMaxEvents)
include room

theorem submitOrder_returns (sessionId : UInt16) (order : NewOrder) : ∃ core', core.submitOrder sessionId order =
    some core' := by
  have answers := emit_returns (show core.events.length < kMaxEvents by omega)
  unfold submitOrder submitWith
  dsimp only
  split
  · exact answers _
  split
  · exact answers _
  rename_i idx known
  obtain ⟨params, sound⟩ := usable.book known
  simp only [FixedHashMap.find, usable.maps.seen.find_eq, FixedHashMap.insert]
  rcases usable.maps.seen.insert_cases (makeCompositeKey sessionId order.clientOrderId) true with
    ⟨⟨flag, present⟩, _, _⟩ | ⟨absent, _, _, full⟩ | ⟨absent, _, seen, inserted, grown⟩
  · simp only [present, bind_eq_bind, bind_some, isSome_some, if_true]
    exact answers _
  · simp only [absent, full, bind_eq_bind, bind_some, isSome_none, Bool.false_eq_true, if_false,
      Bool.not_false, if_true]
    exact answers _
  · obtain ⟨result, engine, called, sound', submitted⟩ :=
      Algo.submitOrder_effect sound core.nextExchangeId order.side order.price order.qty
    have ran := usable.ran_submit sound grown.wellFormed called
    simp only [absent, inserted, takeExchangeId, called, bind_eq_bind, bind_some, isSome_none,
      Bool.false_eq_true, if_false, Bool.not_true]
    have room₁ : (core.matched seen idx engine).events.length + 257 ≤ kMaxEvents := by rw [ran.events]; exact room
    split
    · exact emit_returns (show (core.matched seen idx engine).events.length < kMaxEvents by omega) _
    · obtain ⟨core₂, core₃, told, reported⟩ := report_returns (submitTaker sessionId order core.nextExchangeId)
        (acceptedEvent sessionId order core.nextExchangeId) ran.usable.maps (ran.here ▸ sound') submitted.few room₁
        order.qty
      have noted := report_noted ran.usable.maps (ran.here ▸ sound') submitted.distinct told reported
      obtain ⟨core', mapped⟩ :=
        restMappings_returns noted.maps result.rested (submitTaker sessionId order core.nextExchangeId)
      exact ⟨core', bind_eq_some_iff.mpr ⟨core₂, told, bind_eq_some_iff.mpr ⟨core₃, reported, mapped⟩⟩⟩

theorem cancelOrder_returns (sessionId : UInt16) (cancel : CancelOrder) : ∃ core', core.cancelOrder sessionId cancel =
    some core' := by
  have answers := emit_returns (show core.events.length < kMaxEvents by omega)
  unfold cancelOrder
  dsimp only
  split
  · exact answers _
  split
  · exact answers _
  rename_i idx known
  obtain ⟨params, sound⟩ := usable.book known
  rw [FixedHashMap.find, usable.maps.id.find_eq, bind_eq_bind, bind_some]
  split
  · exact answers _
  rename_i entry found
  obtain ⟨cancelled, engine, called, _⟩ := Algo.cancelOrder_effect sound entry.exchangeId
  have ran := usable.ran_cancel sound called
  have room₁ : (core.setEngine idx engine).events.length < kMaxEvents := by rw [ran.events]; omega
  have called : (core.symbols idx).engine.cancelOrder entry.exchangeId = some (cancelled, engine) := called
  simp only [called, bind_eq_bind, bind_some]
  cases cancelled with
  | false => exact emit_returns room₁ _
  | true =>
    obtain ⟨core₁, removed⟩ := removeMappings_returns ran.usable.maps (makeCompositeKey sessionId cancel.clientOrderId)
      entry.exchangeId
    obtain ⟨noted, _⟩ := removeMappings_noted ran.usable.maps found removed
    have room₂ : core₁.events.length < kMaxEvents := by rw [noted.events, append_nil]; exact room₁
    obtain ⟨core', told⟩ := emit_returns room₂ (cancelAckEvent sessionId cancel)
    exact ⟨core', bind_eq_some_iff.mpr ⟨core₁, removed, told⟩⟩

theorem modifyOrder_returns (sessionId : UInt16) (modify : ModifyOrder) : ∃ core', core.modifyOrder sessionId modify =
    some core' := by
  have answers := emit_returns (show core.events.length < kMaxEvents by omega)
  unfold modifyOrder
  dsimp only
  split
  · exact answers _
  split
  · exact answers _
  rename_i idx known
  obtain ⟨params, sound⟩ := usable.book known
  rw [FixedHashMap.find, usable.maps.id.find_eq, bind_eq_bind, bind_some]
  split
  · exact answers _
  rename_i entry found
  obtain ⟨result, engine, called, sound', outcome⟩ := Algo.modifyOrder_effect sound entry.exchangeId entry.side
    modify.newPrice modify.newQty core.nextExchangeId
  have ran := usable.ran_modify sound called
  have room₁ : (core.matched core.seenOrders idx engine).events.length + 257 ≤ kMaxEvents := by
    rw [ran.events]; exact room
  have called : (core.symbols idx).engine.modifyOrder entry.exchangeId entry.side modify.newPrice modify.newQty
    core.nextExchangeId = some (result, engine) := called
  simp only [takeExchangeId, called, bind_eq_bind, bind_some]
  rcases outcome with ⟨failed, _⟩ | ⟨success, _, _, _, _, _, _, _, submitted⟩
  · rw [failed]
    exact emit_returns (show (core.matched core.seenOrders idx engine).events.length < kMaxEvents by omega) _
  · obtain ⟨core₂, removed⟩ := removeMappings_returns ran.usable.maps (makeCompositeKey sessionId modify.clientOrderId)
      entry.exchangeId
    obtain ⟨dropped, _⟩ := removeMappings_noted ran.usable.maps found removed
    obtain ⟨core₃, added⟩ := restMappings_returns dropped.maps result.rested
      ⟨sessionId, modify.clientOrderId, core.nextExchangeId, entry.symbolId, entry.side, modify.sendTs⟩
    have mapped := restMappings_mapped dropped.maps added
    have book : core₃.bookOf idx = engine.book := by rw [bookOf, mapped.frame, dropped.frame, ← ran.here, bookOf]
    have kept : core₃.events = (core.matched core.seenOrders idx engine).events := by
      rw [mapped.frame, dropped.events, append_nil]
    obtain ⟨core₄, core', told, reported⟩ := report_returns
      (modifyTaker sessionId modify entry.side core.nextExchangeId)
        (modifyAckEvent sessionId modify core.nextExchangeId) mapped.maps (book ▸ sound') submitted.few
      (kept ▸ room₁) modify.newQty
    have rest := bind_eq_some_iff.mpr ⟨core₄, told, reported⟩
    refine ⟨core', ?_⟩
    rw [success]
    refine bind_eq_some_iff.mpr ⟨core₂, removed, ?_⟩
    cases rested : result.rested with
    | false =>
      rw [rested] at added
      cases added
      exact rest
    | true =>
      rw [rested] at added
      exact bind_eq_some_iff.mpr ⟨core₃, added, rest⟩

end

end

end TickToTrade.Exchange.ExchangeCore
