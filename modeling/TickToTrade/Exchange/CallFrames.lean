import TickToTrade.Exchange.Runs

/-! What a call leaves alone, whatever room the maps have. -/

namespace TickToTrade.Exchange.ExchangeCore
open Algo Ds Probing List Option

variable {maxSymbols : Nat} {core core' core₁ : ExchangeCore maxSymbols} {idx : Nat} {sessionId : UInt16}
variable {head : ExchangeEvent}

/-! ### Reports -/

/-- Fills and prices were reported and the id maps changed; nothing else did. -/
structure Told (core core' : ExchangeCore maxSymbols) : Prop where
  frame : core' = { core with events := core'.events, idMap := core'.idMap, reverseIdMap := core'.reverseIdMap }
  events : ∃ more, core'.events = core.events ++ more ∧ ∀ event ∈ more, event.type = .kFill ∨ event.type = .kBBOUpdate

theorem Told.refl (core : ExchangeCore maxSymbols) : Told core core := ⟨rfl, [], by simp, by simp⟩

theorem Told.trans (first : Told core core₁) (second : Told core₁ core') : Told core core' := by
  obtain ⟨more, grown, kinds⟩ := first.events
  obtain ⟨more', grown', kinds'⟩ := second.events
  refine ⟨?_, more ++ more', by rw [grown', grown, append_assoc], ?_⟩
  · have frame := second.frame
    rw [first.frame] at frame
    exact frame
  · intro event member
    exact (mem_append.mp member).elim (kinds event) (kinds' event)

theorem emit_told {event : ExchangeEvent} (kind : event.type = .kFill ∨ event.type = .kBBOUpdate)
    (done : core.emit event = some core') : Told core core' := by
  obtain rfl := emit_eq_some done
  refine ⟨rfl, [event], rfl, ?_⟩
  intro other member
  rw [mem_singleton.mp member]
  exact kind

theorem emitBbo_told {symbolId : Nat} (done : core.emitBbo idx symbolId = some core') : Told core core' := by
  rw [emitBbo_eq done]
  exact ⟨rfl, _, rfl, fun event member => .inr (mem_bboEvents member)⟩

theorem emitMakerFill_told {fill : Fill} {side : Side} (done : core.emitMakerFill idx fill side = some core') :
    Told core core' := by
  obtain ⟨found, _, done⟩ := bind_eq_some_iff.mp done
  cases found with
  | none =>
    cases done
    exact .refl core
  | some maker =>
    obtain ⟨left, _, done⟩ := bind_eq_some_iff.mp done
    obtain ⟨core₁, emitted, done⟩ := bind_eq_some_iff.mp done
    obtain ⟨lives, _, done⟩ := bind_eq_some_iff.mp done
    have told := emit_told (.inl rfl) emitted
    cases lives with
    | true =>
      cases done
      exact told
    | false =>
      obtain ⟨_, _, done⟩ := bind_eq_some_iff.mp done
      obtain ⟨_, _, done⟩ := bind_eq_some_iff.mp done
      cases done
      exact told.trans ⟨rfl, [], by simp, by simp⟩

theorem emitFills_told {taker : Taker} {fills : List Fill} {remaining : Nat}
    (done : emitFills taker idx remaining fills core = some core') : Told core core' := by
  induction fills generalizing core remaining with
  | nil =>
    obtain rfl := some.inj done
    exact .refl core
  | cons fill fills ih =>
    obtain ⟨core₁, told, done⟩ := bind_eq_some_iff.mp done
    obtain ⟨core₂, toldMaker, done⟩ := bind_eq_some_iff.mp done
    obtain ⟨core₃, published, done⟩ := bind_eq_some_iff.mp done
    have first := (emit_told (.inl rfl) told).trans (emitMakerFill_told toldMaker)
    exact (first.trans (emitBbo_told published)).trans (ih done)

theorem insertMappings_frame {key : Nat} {entry : IdEntry} {reverse : ReverseIdEntry}
    (done : core.insertMappings key entry reverse = some core') :
    core' = { core with idMap := core'.idMap, reverseIdMap := core'.reverseIdMap } := by
  obtain ⟨_, _, done⟩ := bind_eq_some_iff.mp done
  obtain ⟨_, _, done⟩ := bind_eq_some_iff.mp done
  cases done
  rfl

theorem restMappings_frame {rested : Bool} {taker : Taker} (done : core.restMappings rested taker = some core') :
    core' = { core with idMap := core'.idMap, reverseIdMap := core'.reverseIdMap } := by
  cases rested with
  | true => exact insertMappings_frame done
  | false =>
    cases done
    rfl

theorem removeMappings_frame {key exchangeId : Nat} (done : core.removeMappings key exchangeId = some core') :
    core' = { core with idMap := core'.idMap, reverseIdMap := core'.reverseIdMap } := by
  obtain ⟨_, _, done⟩ := bind_eq_some_iff.mp done
  obtain ⟨_, _, done⟩ := bind_eq_some_iff.mp done
  cases done
  rfl

theorem told_of_frame (frame : core' = { core with idMap := core'.idMap, reverseIdMap := core'.reverseIdMap }) :
    Told core core' := by
  have events : core'.events = core.events := by rw [frame]
  exact ⟨by rw [events]; exact frame, [], by simp [events], by simp⟩

/-! ### Requests -/

/-- The core with the engine of the named symbol after `Call`, or the core as it was. -/
inductive Reached (core : ExchangeCore maxSymbols) (symbolId : Nat)
    (Call : MatchingEngine 64 → MatchingEngine 64 → Prop) : ExchangeCore maxSymbols → Prop where
  | untouched : Reached core symbolId Call core
  | called {idx next : Nat} {engine : MatchingEngine 64} (known : core.symbolIndex symbolId = some idx)
    (call : Call (core.symbols idx).engine engine) :
    Reached core symbolId Call (({ core with nextExchangeId := next } : ExchangeCore maxSymbols).setEngine idx engine)

/-- The call answered with `head` and reports; beside the events only the id maps changed. -/
structure Reported (core core' : ExchangeCore maxSymbols) (head : ExchangeEvent) : Prop where
  frame : core' = { core with events := core'.events, idMap := core'.idMap, reverseIdMap := core'.reverseIdMap }
  events : ∃ more, core'.events = core.events ++ head :: more ∧
    ∀ event ∈ more, event.type = .kFill ∨ event.type = .kBBOUpdate

theorem emit_reported {event : ExchangeEvent} (done : core.emit event = some core') : Reported core core' event := by
  obtain rfl := emit_eq_some done
  exact ⟨rfl, [], rfl, by simp⟩

theorem Reported.told (reported : Reported core core₁ head) (told : Told core₁ core') :
    Reported core core' head := by
  obtain ⟨more, grown, kinds⟩ := reported.events
  obtain ⟨more', grown', kinds'⟩ := told.events
  refine ⟨?_, more ++ more', ?_, ?_⟩
  · have frame := told.frame
    rw [reported.frame] at frame
    exact frame
  · rw [grown', grown, append_assoc, cons_append]
  · intro event member
    exact (mem_append.mp member).elim (kinds event) (kinds' event)

theorem Reported.after (reported : Reported core₁ core' head)
    (frame : core₁ = { core with idMap := core₁.idMap, reverseIdMap := core₁.reverseIdMap }) :
    Reported core core' head := by
  have events : core₁.events = core.events := by rw [frame]
  refine ⟨?_, events ▸ reported.events⟩
  have whole := reported.frame
  rw [frame] at whole
  exact whole

def CancelCall (core : ExchangeCore maxSymbols) (sessionId : UInt16) (cancel : CancelOrder) (e e' : MatchingEngine 64) :
    Prop :=
  ∃ entry cancelled, core.idMap.find (makeCompositeKey sessionId cancel.clientOrderId) = some (some entry) ∧
    cancel.clientOrderId ≤ kMaxClientOrderId ∧ e.cancelOrder entry.exchangeId = some (cancelled, e')

theorem cancelOrder_reported {cancel : CancelOrder} (done : core.cancelOrder sessionId cancel = some core') :
    ∃ head core₁, head.type ≠ .kOrderAccepted ∧ Reached core cancel.symbolId (CancelCall core sessionId cancel) core₁ ∧
      Reported core₁ core' head := by
  cases cancelOrder_cases done with
  | refused reason told => exact ⟨_, core, by simp [cancelRejectedEvent], .untouched, emit_reported told⟩
  | missing idx entry engine bound known found called told =>
    exact ⟨_, _, by simp [cancelRejectedEvent], .called known ⟨entry, false, found, bound, called⟩, emit_reported told⟩
  | cancelled idx entry engine core₁ bound known found called removed told =>
    exact ⟨_, _, by simp [cancelAckEvent], .called known ⟨entry, true, found, bound, called⟩,
      (emit_reported told).after (removeMappings_frame removed)⟩

def ModifyCall (core : ExchangeCore maxSymbols) (sessionId : UInt16) (modify : ModifyOrder) (e e' : MatchingEngine 64) :
    Prop :=
  ∃ entry result, core.idMap.find (makeCompositeKey sessionId modify.clientOrderId) = some (some entry) ∧
    modify.clientOrderId ≤ kMaxClientOrderId ∧
    e.modifyOrder entry.exchangeId entry.side modify.newPrice modify.newQty core.nextExchangeId = some (result, e')

theorem modifyOrder_reported {modify : ModifyOrder} (done : core.modifyOrder sessionId modify = some core') :
    ∃ head core₁, head.type ≠ .kOrderAccepted ∧ Reached core modify.symbolId (ModifyCall core sessionId modify) core₁ ∧
      Reported core₁ core' head := by
  cases modifyOrder_cases done with
  | refused reason _ told => exact ⟨_, core, by simp [modifyRejectedEvent], .untouched, emit_reported told⟩
  | missing idx entry result engine bound known found called failed told =>
    exact ⟨_, _, by simp [modifyRejectedEvent], .called known ⟨entry, result, found, bound, called⟩, emit_reported told⟩
  | modified idx entry result engine core₂ core₃ core₄ bound known found called success removed mapped told reported =>
    have acked := (emit_reported told).told (emitFills_told reported)
    exact ⟨_, _, by simp [modifyAckEvent], .called known ⟨entry, result, found, bound, called⟩,
      (acked.after (restMappings_frame mapped)).after (removeMappings_frame removed)⟩

def SubmitCall (core : ExchangeCore maxSymbols) (order : NewOrder) (e e' : MatchingEngine 64) : Prop :=
  ∃ result, e.submitOrder core.nextExchangeId order.side order.price order.qty = some (result, e')

/-- What a submission did: it was refused before its id was noted, or its id is noted now. -/
inductive Submitted (core core' : ExchangeCore maxSymbols) (sessionId : UInt16) (order : NewOrder) : Prop where
  | refused (head : ExchangeEvent) (reported : Reported core core' head) (type : head.type = .kOrderRejected)
    (duplicate : head.reason = .kDuplicateOrderId → order.clientOrderId ≤ kMaxClientOrderId ∧
      ∃ flag, core.seenOrders.content (makeCompositeKey sessionId order.clientOrderId) = some flag)
  | noted (head : ExchangeEvent) (seen : FixedHashMap Nat Bool kMaxSeenOrders) (core₁ : ExchangeCore maxSymbols)
    (bound : order.clientOrderId ≤ kMaxClientOrderId)
    (absent : core.seenOrders.content (makeCompositeKey sessionId order.clientOrderId) = none)
    (inserted : Table.Inserted DefaultHash.hash core.seenOrders seen
      (makeCompositeKey sessionId order.clientOrderId) true)
    (reached : Reached { core with seenOrders := seen } order.symbolId (SubmitCall core order) core₁)
    (reported : Reported core₁ core' head)
    (sender : head.sessionId = sessionId ∧ head.clientOrderId = order.clientOrderId)
    (unique : head.reason ≠ .kDuplicateOrderId)

theorem submitOrder_submitted {order : NewOrder} (ok : Table.WellFormed DefaultHash.hash core.seenOrders)
    (done : core.submitOrder sessionId order = some core') : Submitted core core' sessionId order := by
  cases submitOrder_cases ok done with
  | refused symbolId reason _ duplicate told => exact .refused _ (emit_reported told) rfl duplicate
  | idle idx seen result engine bound known absent _ inserted called _ _ told =>
    exact .noted _ seen _ bound absent inserted (.called known ⟨result, called⟩) (emit_reported told) ⟨rfl, rfl⟩
      (by simp [orderRejectedEvent])
  | accepted idx seen result engine core₂ core₃ bound known absent _ inserted called _ told reported mapped =>
    exact .noted _ seen _ bound absent inserted (.called known ⟨result, called⟩)
      (((emit_reported told).told (emitFills_told reported)).told (told_of_frame (restMappings_frame mapped)))
        ⟨rfl, rfl⟩
      (by simp [acceptedEvent])

/-- The sessions and the seen ids are as before, and the call answered with `head` and reports. -/
structure Replied (core core' : ExchangeCore maxSymbols) (head : ExchangeEvent) : Prop where
  sessions : core'.activeSessions = core.activeSessions
  seen : core'.seenOrders = core.seenOrders
  events : ∃ more, core'.events = core.events ++ head :: more ∧
    ∀ event ∈ more, event.type = .kFill ∨ event.type = .kBBOUpdate

theorem Reached.replied {symbolId : Nat} {Call : MatchingEngine 64 → MatchingEngine 64 → Prop}
    (reached : Reached core symbolId Call core₁) (reported : Reported core₁ core' head) : Replied core core' head := by
  have same : core₁.activeSessions = core.activeSessions ∧ core₁.seenOrders = core.seenOrders ∧
      core₁.events = core.events := by
    cases reached <;> exact ⟨rfl, rfl, rfl⟩
  exact ⟨by rw [reported.frame, ← same.1], by rw [reported.frame, ← same.2.1], same.2.2 ▸ reported.events⟩

theorem Reported.replied (reported : Reported core core' head) : Replied core core' head :=
  ⟨by rw [reported.frame], by rw [reported.frame], reported.events⟩

end TickToTrade.Exchange.ExchangeCore
