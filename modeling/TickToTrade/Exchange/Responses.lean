import TickToTrade.Exchange.Routing
import TickToTrade.Exchange.ServiceRuns

/-!
The events of one request, all of them and in order, in every state that the exchange reaches.
-/

namespace TickToTrade.Exchange
open Algo Ds Probing List

namespace ExchangeCore

variable {maxSymbols : Nat} {core core' : ExchangeCore maxSymbols} {taker : Taker} {fills : List Fill}

/-- A request that finds the event buffer empty returns, and these are its events: the answer and the groups of the
fills that the book makes of the request. -/
theorem serveAll_responds {calls : List Call} (served : serveAll calls {} = some core) (drained : core.events = []) :
    (∀ sessionId order, ∃ core' ack groups, core.submitOrder sessionId order = some core' ∧
      core'.events = ack :: groups.flatten ∧
      groups = fillGroups (submitTaker sessionId order core.nextExchangeId) core.reverseIdMap.content
        (core'.bookOf (order.symbolId - 1)) order.qty (core.submitFills sessionId order) ∧
      Responds .kOrderAccepted .kOrderRejected sessionId order.clientOrderId order.sendTs order.qty ack groups) ∧
    (∀ sessionId cancel, ∃ core' ack, core.cancelOrder sessionId cancel = some core' ∧ core'.events = [ack] ∧
      Responds .kCancelAck .kCancelRejected sessionId cancel.clientOrderId cancel.sendTs 0 ack []) ∧
    ∀ sessionId modify, ∃ core' ack groups, core.modifyOrder sessionId modify = some core' ∧
      core'.events = ack :: groups.flatten ∧
      groups = fillGroups (modifyTaker sessionId modify (core.modifySide sessionId modify) core.nextExchangeId)
        core.reverseIdMap.content (core'.bookOf (modify.symbolId - 1)) modify.newQty
        (core.modifyFills sessionId modify) ∧
      Responds .kModifyAck .kModifyRejected sessionId modify.clientOrderId modify.sendTs modify.newQty ack groups := by
  have usable := serveAll_usable served
  have room : core.events.length + 257 ≤ kMaxEvents := by rw [drained]; decide
  refine ⟨?_, ?_, ?_⟩
  · intro sessionId order
    obtain ⟨core', done⟩ := submitOrder_returns usable room sessionId order
    obtain ⟨ack, responded⟩ := submitOrder_responded usable done
    exact ⟨core', ack, _, done, by rw [responded.events, drained]; rfl, rfl, responded.responds⟩
  · intro sessionId cancel
    obtain ⟨core', done⟩ := cancelOrder_returns usable room sessionId cancel
    obtain ⟨ack, responded⟩ := cancelOrder_responded usable done
    exact ⟨core', ack, done, by rw [responded.events, drained]; rfl, responded.responds⟩
  · intro sessionId modify
    obtain ⟨core', done⟩ := modifyOrder_returns usable room sessionId modify
    obtain ⟨ack, responded⟩ := modifyOrder_responded usable done
    exact ⟨core', ack, _, done, by rw [responded.events, drained]; rfl, rfl, responded.responds⟩

def offered : List Call :=
  [.register 1 tinyParams, .request .connect, .request (.submit 1 ⟨7, 1, .kAsk, 100, 5, 0⟩), .drain]

theorem serveAll_responds_offered : ∃ core : ExchangeCore 1, serveAll offered {} = some core ∧ core.events = [] ∧
    (core.submitFills 1 ⟨8, 1, .kBid, 100, 2, 3⟩).map Fill.qty = [2] ∧
    ∃ core' ack groups, core.submitOrder 1 ⟨8, 1, .kBid, 100, 2, 3⟩ = some core' ∧
    core'.events = ack :: groups.flatten ∧
      groups = fillGroups (submitTaker 1 ⟨8, 1, .kBid, 100, 2, 3⟩ core.nextExchangeId) core.reverseIdMap.content
        (core'.bookOf 0) 2 (core.submitFills 1 ⟨8, 1, .kBid, 100, 2, 3⟩) ∧
      Responds .kOrderAccepted .kOrderRejected 1 8 3 2 ack groups := by
  obtain ⟨core, served, drained, two⟩ : ∃ core : ExchangeCore 1, serveAll offered {} = some core ∧ core.events = [] ∧
      (core.submitFills 1 ⟨8, 1, .kBid, 100, 2, 3⟩).map Fill.qty = [2] := by decide +kernel
  exact ⟨core, served, drained, two, (serveAll_responds served drained).1 1 ⟨8, 1, .kBid, 100, 2, 3⟩⟩

def isRejection : EventType → Bool
  | .kOrderRejected | .kCancelRejected | .kModifyRejected => true
  | _ => false

theorem Responded.rejection {accepted rejected : EventType} {qty : Nat} {ack event : ExchangeEvent}
    (responded : Responded core core' accepted rejected taker qty fills ack)
    (positive : isRejection accepted = false) (member : event ∈ core'.events.drop core.events.length)
    (rejection : isRejection event.type = true) : Unharmed core core' := by
  rw [responded.events, drop_left, mem_cons] at member
  rcases member with rfl | later
  · refine responded.unharmed (responded.responds.answers.type.resolve_left fun same => ?_)
    rw [same, positive] at rejection
    cases rejection
  · rcases responded.responds.fills.types later with same | same
    · rw [same] at rejection
      cases rejection
    · rw [same] at rejection
      cases rejection

theorem serveAll_rejection {calls : List Call} {op : Op} {event : ExchangeEvent}
    (served : serveAll calls {} = some core)
    (applied : core.apply op = some core') (member : event ∈ core'.events.drop core.events.length)
    (rejection : isRejection event.type = true) : Unharmed core core' := by
  have usable := serveAll_usable served
  have silent : core'.events = core.events → Unharmed core core' := by
    intro same
    rw [same, drop_length] at member
    cases member
  cases op with
  | connect =>
    obtain ⟨⟨_, _⟩, connected, rfl⟩ := Option.map_eq_some_iff.mp applied
    exact silent (onClientConnect_quiet usable connected).events
  | disconnect sessionId => exact silent (onClientDisconnect_quiet usable applied).events
  | submit sessionId order =>
    obtain ⟨ack, responded⟩ := submitOrder_responded usable applied
    exact responded.rejection rfl member rejection
  | cancel sessionId cancel =>
    obtain ⟨ack, responded⟩ := cancelOrder_responded usable applied
    exact responded.rejection rfl member rejection
  | modify sessionId modify =>
    obtain ⟨ack, responded⟩ := modifyOrder_responded usable applied
    exact responded.rejection rfl member rejection

/-- The offer was not made by session 2, which asks for its cancellation. -/
theorem serveAll_rejection_offered : ∃ core core' : ExchangeCore 1, ∃ event, serveAll offered {} = some core ∧
    core.apply (.cancel 2 ⟨7, 1, 0⟩) = some core' ∧ event ∈ core'.events.drop core.events.length ∧
    isRejection event.type = true ∧ Unharmed core core' := by
  obtain ⟨core, served, core', applied, member⟩ : ∃ core : ExchangeCore 1, serveAll offered {} = some core ∧
      ∃ core', core.apply (.cancel 2 ⟨7, 1, 0⟩) = some core' ∧
        cancelRejectedEvent 2 ⟨7, 1, 0⟩ .kOrderNotFound ∈ core'.events.drop core.events.length := by decide +kernel
  exact ⟨core, core', _, served, applied, member, rfl, serveAll_rejection served applied member rfl⟩

end ExchangeCore

end TickToTrade.Exchange
