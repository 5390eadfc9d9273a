import TickToTrade.Exchange.IdMirror

/-! The ways through a request, in the order in which the source tries them. -/

namespace TickToTrade.Exchange.ExchangeCore
open Algo Ds Probing Option
open DefaultHash (hash)

variable {maxSymbols : Nat} {core core' : ExchangeCore maxSymbols} {sessionId : UInt16} {idx : Nat}

theorem symbolIndex_eq_some {symbolId : Nat} (found : core.symbolIndex symbolId = some idx) :
    symbolId = idx + 1 ∧ idx < maxSymbols ∧ (core.symbols idx).active = true := by
  unfold symbolIndex at found
  split at found
  · cases found
  · split at found
    · rename_i known active
      cases found
      exact ⟨by omega, by omega, active⟩
    · cases found

def acceptedEvent (sessionId : UInt16) (order : NewOrder) (exchangeId : Nat) : ExchangeEvent where
  type := .kOrderAccepted
  sessionId := sessionId
  clientOrderId := order.clientOrderId
  exchangeOrderId := exchangeId
  symbolId := order.symbolId
  sendTs := order.sendTs

def submitTaker (sessionId : UInt16) (order : NewOrder) (exchangeId : Nat) : Taker :=
  ⟨sessionId, order.clientOrderId, exchangeId, order.symbolId, order.side, order.sendTs⟩

def cancelAckEvent (sessionId : UInt16) (cancel : CancelOrder) : ExchangeEvent where
  type := .kCancelAck
  sessionId := sessionId
  clientOrderId := cancel.clientOrderId
  sendTs := cancel.sendTs

def modifyAckEvent (sessionId : UInt16) (modify : ModifyOrder) (exchangeId : Nat) : ExchangeEvent where
  type := .kModifyAck
  sessionId := sessionId
  clientOrderId := modify.clientOrderId
  exchangeOrderId := exchangeId
  symbolId := modify.symbolId
  sendTs := modify.sendTs

def modifyTaker (sessionId : UInt16) (modify : ModifyOrder) (side : Side) (exchangeId : Nat) : Taker :=
  ⟨sessionId, modify.clientOrderId, exchangeId, modify.symbolId, side, modify.sendTs⟩

def orderRejectedEvent (sessionId : UInt16) (order : NewOrder) (symbolId : Nat) (reason : RejectReason) :
    ExchangeEvent where
  type := .kOrderRejected
  sessionId := sessionId
  clientOrderId := order.clientOrderId
  symbolId := symbolId
  sendTs := order.sendTs
  reason := reason

def cancelRejectedEvent (sessionId : UInt16) (cancel : CancelOrder) (reason : RejectReason) : ExchangeEvent where
  type := .kCancelRejected
  sessionId := sessionId
  clientOrderId := cancel.clientOrderId
  sendTs := cancel.sendTs
  reason := reason

def modifyRejectedEvent (sessionId : UInt16) (modify : ModifyOrder) (reason : RejectReason) : ExchangeEvent where
  type := .kModifyRejected
  sessionId := sessionId
  clientOrderId := modify.clientOrderId
  sendTs := modify.sendTs
  reason := reason

def matched (core : ExchangeCore maxSymbols) (seen : FixedHashMap Nat Bool kMaxSeenOrders) (idx : Nat)
    (engine : MatchingEngine 64) : ExchangeCore maxSymbols :=
  ({ core with seenOrders := seen, nextExchangeId := (core.nextExchangeId + 1) % 2 ^ 64 } :
    ExchangeCore maxSymbols).setEngine idx engine

/-- The tail of `submit_order` and the middle of `modify_order`: an order that rests is mapped. -/
def restMappings (core : ExchangeCore maxSymbols) (rested : Bool) (taker : Taker) : Exec (ExchangeCore maxSymbols) :=
  if rested then core.insertMappings (keyOf taker.reverse) taker.entry taker.reverse else pure core

inductive SubmitCase (core : ExchangeCore maxSymbols) (sessionId : UInt16) (order : NewOrder)
    (core' : ExchangeCore maxSymbols) : Prop where
  | refused (symbolId : Nat) (reason : RejectReason)
    (stopped : kMaxClientOrderId < order.clientOrderId ∨ core.symbolIndex order.symbolId = none ∨
      core.seenOrders.accepts hash (makeCompositeKey sessionId order.clientOrderId) = false)
    (duplicate : reason = .kDuplicateOrderId → order.clientOrderId ≤ kMaxClientOrderId ∧
      ∃ flag, core.seenOrders.content (makeCompositeKey sessionId order.clientOrderId) = some flag)
    (told : core.emit (orderRejectedEvent sessionId order symbolId reason) = some core')
  | idle (idx : Nat) (seen : FixedHashMap Nat Bool kMaxSeenOrders) (result : MatchResult) (engine : MatchingEngine 64)
    (bound : order.clientOrderId ≤ kMaxClientOrderId) (known : core.symbolIndex order.symbolId = some idx)
    (absent : core.seenOrders.content (makeCompositeKey sessionId order.clientOrderId) = none)
    (accepts : core.seenOrders.accepts hash (makeCompositeKey sessionId order.clientOrderId) = true)
    (inserted : Table.Inserted hash core.seenOrders seen (makeCompositeKey sessionId order.clientOrderId) true)
    (called : (core.symbols idx).engine.submitOrder core.nextExchangeId order.side order.price order.qty =
      some (result, engine))
    (rested : result.rested = false) (fills : result.fills = [])
    (told : (core.matched seen idx engine).emit (orderRejectedEvent sessionId order order.symbolId .kBookFull) =
      some core')
  | accepted (idx : Nat) (seen : FixedHashMap Nat Bool kMaxSeenOrders) (result : MatchResult)
      (engine : MatchingEngine 64)
    (core₂ core₃ : ExchangeCore maxSymbols)
    (bound : order.clientOrderId ≤ kMaxClientOrderId) (known : core.symbolIndex order.symbolId = some idx)
    (absent : core.seenOrders.content (makeCompositeKey sessionId order.clientOrderId) = none)
    (accepts : core.seenOrders.accepts hash (makeCompositeKey sessionId order.clientOrderId) = true)
    (inserted : Table.Inserted hash core.seenOrders seen (makeCompositeKey sessionId order.clientOrderId) true)
    (called : (core.symbols idx).engine.submitOrder core.nextExchangeId order.side order.price order.qty =
      some (result, engine))
    (busy : result.rested = true ∨ result.fills ≠ [])
    (told : (core.matched seen idx engine).emit (acceptedEvent sessionId order core.nextExchangeId) = some core₂)
    (reported : emitFills (submitTaker sessionId order core.nextExchangeId) idx order.qty result.fills
      core₂ = some core₃)
    (mapped : core₃.restMappings result.rested (submitTaker sessionId order core.nextExchangeId) = some core')

theorem submitOrder_cases {order : NewOrder} (ok : Table.WellFormed hash core.seenOrders)
    (done : core.submitOrder sessionId order = some core') : SubmitCase core sessionId order core' := by
  unfold submitOrder submitWith at done
  dsimp only at done
  split at done
  · rename_i large
    exact .refused _ _ (.inl large) (by simp) done
  rename_i small
  split at done
  · rename_i unknown
    exact .refused _ _ (.inr (.inl unknown)) (by simp) done
  rename_i idx known
  simp only [FixedHashMap.find, ok.find_eq, FixedHashMap.insert] at done
  rcases ok.insert_cases (makeCompositeKey sessionId order.clientOrderId) true with
    ⟨⟨flag, present⟩, refused, _⟩ | ⟨absent, refused, _, full⟩ | ⟨absent, accepts, seen, inserted, grown⟩
  · simp only [present, bind_eq_bind, bind_some, isSome_some, if_true] at done
    exact .refused _ _ (.inr (.inr refused)) (fun _ => ⟨by omega, flag, present⟩) done
  · simp only [absent, full, bind_eq_bind, bind_some, isSome_none, Bool.false_eq_true, if_false,
      Bool.not_false, if_true] at done
    exact .refused _ _ (.inr (.inr refused)) (by simp) done
  · simp only [absent, inserted, takeExchangeId, bind_eq_bind, bind_some, isSome_none,
      Bool.false_eq_true, if_false, Bool.not_true] at done
    obtain ⟨⟨result, engine⟩, called, done⟩ := bind_eq_some_iff.mp done
    have bound : order.clientOrderId ≤ kMaxClientOrderId := by omega
    split at done
    · rename_i idle
      simp only [Bool.and_eq_true, Bool.not_eq_true', List.isEmpty_iff] at idle
      exact .idle idx seen result engine bound known absent accepts grown called idle.1 idle.2 done
    · rename_i busy
      simp only [Bool.and_eq_true, Bool.not_eq_true', List.isEmpty_iff, not_and_or, Bool.not_eq_false] at busy
      obtain ⟨core₂, told, done⟩ := bind_eq_some_iff.mp done
      obtain ⟨core₃, reported, done⟩ := bind_eq_some_iff.mp done
      exact .accepted idx seen result engine core₂ core₃ bound known absent accepts grown called busy told reported done

inductive CancelCase (core : ExchangeCore maxSymbols) (sessionId : UInt16) (cancel : CancelOrder)
    (core' : ExchangeCore maxSymbols) : Prop where
  | refused (reason : RejectReason)
    (told : core.emit (cancelRejectedEvent sessionId cancel reason) = some core')
  | missing (idx : Nat) (entry : IdEntry) (engine : MatchingEngine 64)
    (bound : cancel.clientOrderId ≤ kMaxClientOrderId) (known : core.symbolIndex cancel.symbolId = some idx)
    (found : core.idMap.find (makeCompositeKey sessionId cancel.clientOrderId) = some (some entry))
    (called : (core.symbols idx).engine.cancelOrder entry.exchangeId = some (false, engine))
    (told : (core.setEngine idx engine).emit (cancelRejectedEvent sessionId cancel .kOrderNotFound) = some core')
  | cancelled (idx : Nat) (entry : IdEntry) (engine : MatchingEngine 64) (core₁ : ExchangeCore maxSymbols)
    (bound : cancel.clientOrderId ≤ kMaxClientOrderId) (known : core.symbolIndex cancel.symbolId = some idx)
    (found : core.idMap.find (makeCompositeKey sessionId cancel.clientOrderId) = some (some entry))
    (called : (core.symbols idx).engine.cancelOrder entry.exchangeId = some (true, engine))
    (removed : (core.setEngine idx engine).removeMappings (makeCompositeKey sessionId cancel.clientOrderId)
      entry.exchangeId = some core₁)
    (told : core₁.emit (cancelAckEvent sessionId cancel) = some core')

theorem cancelOrder_cases {cancel : CancelOrder} (done : core.cancelOrder sessionId cancel = some core') :
    CancelCase core sessionId cancel core' := by
  unfold cancelOrder at done
  dsimp only at done
  split at done
  · exact .refused _ done
  rename_i small
  split at done
  · exact .refused _ done
  rename_i idx known
  obtain ⟨looked, found, done⟩ := bind_eq_some_iff.mp done
  cases looked with
  | none => exact .refused _ done
  | some entry =>
    obtain ⟨⟨cancelled, engine⟩, called, done⟩ := bind_eq_some_iff.mp done
    cases cancelled with
    | false => exact .missing idx entry engine (by omega) known found called done
    | true =>
      obtain ⟨core₁, removed, done⟩ := bind_eq_some_iff.mp done
      exact .cancelled idx entry engine core₁ (by omega) known found called removed done

inductive ModifyCase (core : ExchangeCore maxSymbols) (sessionId : UInt16) (modify : ModifyOrder)
    (core' : ExchangeCore maxSymbols) : Prop where
  | refused (reason : RejectReason)
    (stopped : kMaxClientOrderId < modify.clientOrderId ∨ core.symbolIndex modify.symbolId = none ∨
      core.idMap.find (makeCompositeKey sessionId modify.clientOrderId) = some none)
    (told : core.emit (modifyRejectedEvent sessionId modify reason) = some core')
  | missing (idx : Nat) (entry : IdEntry) (result : ModifyResult) (engine : MatchingEngine 64)
    (bound : modify.clientOrderId ≤ kMaxClientOrderId) (known : core.symbolIndex modify.symbolId = some idx)
    (found : core.idMap.find (makeCompositeKey sessionId modify.clientOrderId) = some (some entry))
    (called : (core.symbols idx).engine.modifyOrder entry.exchangeId entry.side modify.newPrice modify.newQty
      core.nextExchangeId = some (result, engine))
    (failed : result.success = false)
    (told : (core.matched core.seenOrders idx engine).emit
      (modifyRejectedEvent sessionId modify .kOrderNotFound) = some core')
  | modified (idx : Nat) (entry : IdEntry) (result : ModifyResult) (engine : MatchingEngine 64)
    (core₂ core₃ core₄ : ExchangeCore maxSymbols)
    (bound : modify.clientOrderId ≤ kMaxClientOrderId) (known : core.symbolIndex modify.symbolId = some idx)
    (found : core.idMap.find (makeCompositeKey sessionId modify.clientOrderId) = some (some entry))
    (called : (core.symbols idx).engine.modifyOrder entry.exchangeId entry.side modify.newPrice modify.newQty
      core.nextExchangeId = some (result, engine))
    (success : result.success = true)
    (removed : (core.matched core.seenOrders idx engine).removeMappings
      (makeCompositeKey sessionId modify.clientOrderId) entry.exchangeId = some core₂)
    -- The symbol of the new mappings is the one of the old, the symbol of the reports the one of the request.
    (mapped : core₂.restMappings result.rested
      ⟨sessionId, modify.clientOrderId, core.nextExchangeId, entry.symbolId, entry.side, modify.sendTs⟩ = some core₃)
    (told : core₃.emit (modifyAckEvent sessionId modify core.nextExchangeId) = some core₄)
    (reported : emitFills (modifyTaker sessionId modify entry.side core.nextExchangeId) idx modify.newQty
      result.fills core₄ = some core')

theorem modifyOrder_cases {modify : ModifyOrder} (done : core.modifyOrder sessionId modify = some core') :
    ModifyCase core sessionId modify core' := by
  unfold modifyOrder at done
  dsimp only at done
  split at done
  · rename_i large
    exact .refused _ (.inl large) done
  rename_i small
  split at done
  · rename_i unknown
    exact .refused _ (.inr (.inl unknown)) done
  rename_i idx known
  have bound : modify.clientOrderId ≤ kMaxClientOrderId := by omega
  obtain ⟨looked, found, done⟩ := bind_eq_some_iff.mp done
  cases looked with
  | none => exact .refused _ (.inr (.inr found)) done
  | some entry =>
    obtain ⟨⟨result, engine⟩, called, done⟩ := bind_eq_some_iff.mp done
    split at done
    · rename_i failed
      exact .missing idx entry result engine bound known found called (by simpa using failed) done
    · rename_i success
      obtain ⟨core₂, removed, done⟩ := bind_eq_some_iff.mp done
      -- Both branches of the inner `if` go on with the same reports.
      have rest : (core₂.restMappings result.rested
          ⟨sessionId, modify.clientOrderId, core.nextExchangeId, entry.symbolId, entry.side, modify.sendTs⟩).bind
          (fun core₃ => (core₃.emit (modifyAckEvent sessionId modify core.nextExchangeId)).bind
            (emitFills (modifyTaker sessionId modify entry.side core.nextExchangeId) idx modify.newQty result.fills)) =
          some core' := by
        cases rested : result.rested with
        | false =>
          rw [rested] at done
          exact done
        | true =>
          rw [rested] at done
          exact done
      obtain ⟨core₃, mapped, done⟩ := bind_eq_some_iff.mp rest
      obtain ⟨core₄, told, reported⟩ := bind_eq_some_iff.mp done
      exact .modified idx entry result engine core₂ core₃ core₄ bound known found called
        (by simpa using success) removed mapped told reported

end TickToTrade.Exchange.ExchangeCore
