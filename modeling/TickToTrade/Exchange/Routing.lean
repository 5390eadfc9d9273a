import TickToTrade.Exchange.Engine
import TickToTrade.Exchange.IdMapRuns
import TickToTrade.Lib.Transition

/-!
Routing in the engine process. What it announced tells what belongs into the response queue of a
gateway.
-/

namespace TickToTrade.Exchange
open Algo Ds Probing Sys ExchangeCore List Option Function
open FixedSPSCQueue (appended_nil)

inductive Announcement where
  | assigned (gateway : Nat) (answer : QueuedEvent)
  | emitted (event : QueuedEvent)

/-- The gateway through which a session was last assigned; the newest announcement comes first. -/
def gatewayOf : List Announcement → UInt16 → Option Nat
  | [], _ => none
  | .assigned gateway answer :: earlier, sessionId =>
    if answer.sessionId = sessionId then some gateway else gatewayOf earlier sessionId
  | .emitted _ :: earlier, sessionId => gatewayOf earlier sessionId

/-- What belongs into the response queue of a gateway, oldest first: the answers to its connects and the
events for the sessions that were last assigned through it. -/
def deliveries (gateway : Nat) : List Announcement → List QueuedEvent
  | [] => []
  | .assigned gateway' answer :: earlier => deliveries gateway earlier ++ if gateway' = gateway then [answer] else []
  | .emitted event :: earlier =>
    deliveries gateway earlier ++
      if isClient event.toExchangeEvent ∧ gatewayOf earlier event.sessionId = some gateway then [event] else []

/-- Every event for a client is for a session that was assigned through some gateway. -/
def Attributed : List Announcement → Prop
  | [] => True
  | .assigned _ _ :: earlier => Attributed earlier
  | .emitted event :: earlier =>
    (isClient event.toExchangeEvent = true → (gatewayOf earlier event.sessionId).isSome = true) ∧ Attributed earlier

inductive EngineOp where
  | process (req : OrderRequest)
  | popResponse (gw : Nat)
  | popMarketData

variable {maxSymbols : Nat}

def emittedBy (req : OrderRequest) (called : Exec (ExchangeCore maxSymbols)) : List Announcement :=
  called.elim [] fun core => core.events.map fun event => .emitted (event.stamp req.requestSeq)

def announce (numGateways : Nat) (core : ExchangeCore maxSymbols) (req : OrderRequest) : List Announcement :=
  if numGateways ≤ req.gatewayId then []
  else
    match req.type with
    | .kClientConnect => core.onClientConnect.elim [] fun assigned =>
        [.assigned req.gatewayId (Engine.sessionAssigned req assigned.1)]
    | .kClientDisconnect => []
    | .kNewOrder => emittedBy req (core.submitOrder req.sessionId req.newOrder)
    | .kCancelOrder => emittedBy req (core.cancelOrder req.sessionId req.cancelOrder)
    | .kModifyOrder => emittedBy req (core.modifyOrder req.sessionId req.modifyOrder)

structure Traced (maxSymbols : Nat) where
  engine : Engine maxSymbols
  log : List Announcement := []

namespace Traced

variable (numGateways : Nat)

def step (t : Traced maxSymbols) : EngineOp → Exec (Traced maxSymbols)
  | .process req => do
    let engine ← t.engine.processRequest numGateways req
    return { engine, log := (announce numGateways t.engine.core req).reverse ++ t.log }
  | .popResponse gw =>
    match (t.engine.responseQueues gw).tryPop with
    | none => some t
    | some (_, queue) =>
      let responseQueues := update t.engine.responseQueues gw queue
      some { t with engine := { t.engine with responseQueues } }
  | .popMarketData =>
    match t.engine.mdEventQueue.tryPop with
    | none => some t
    | some (_, mdEventQueue) => some { t with engine := { t.engine with mdEventQueue } }

def run : List EngineOp → Traced maxSymbols → Exec (Traced maxSymbols) := Transition.run (step numGateways)

abbrev Along (P : Traced maxSymbols → EngineOp → Prop) : List EngineOp → Traced maxSymbols → Prop :=
  Transition.Along (step numGateways) P

/-- A request other than a connect carries an active session that was assigned through its own gateway. -/
def OwnSession (t : Traced maxSymbols) : EngineOp → Prop
  | .process req => req.type = .kClientConnect ∨
      t.engine.core.activeSessions req.sessionId = true ∧ gatewayOf t.log req.sessionId = some req.gatewayId
  | _ => True

instance (t : Traced maxSymbols) : DecidablePred t.OwnSession
  | .process _ => inferInstanceAs (Decidable (_ ∨ _))
  | .popResponse _ | .popMarketData => isTrue trivial

end Traced

/-! ### Announcements -/

variable {log : List Announcement} {events : List QueuedEvent} {sessionId : UInt16} {gw : Nat}

theorem gatewayOf_emitted (events : List QueuedEvent) (log : List Announcement) (sessionId : UInt16) :
    gatewayOf ((events.map .emitted).reverse ++ log) sessionId = gatewayOf log sessionId := by
  induction events generalizing log with
  | nil => rfl
  | cons event events ih =>
    rw [map_cons, reverse_cons, append_assoc, ih]
    rfl

theorem deliveries_emitted (gw : Nat) (events : List QueuedEvent) (log : List Announcement) :
    deliveries gw ((events.map .emitted).reverse ++ log) = deliveries gw log ++
      events.filter fun event => isClient event.toExchangeEvent ∧ gatewayOf log event.sessionId = some gw := by
  induction events generalizing log with
  | nil => simp
  | cons event events ih =>
    rw [map_cons, reverse_cons, append_assoc, ih]
    by_cases mine : isClient event.toExchangeEvent ∧ gatewayOf log event.sessionId = some gw
    · simp [deliveries, gatewayOf, mine]
    · simp [deliveries, gatewayOf, mine]

theorem attributed_emitted (attributed : Attributed log)
    (known : ∀ event ∈ events, isClient event.toExchangeEvent = true →
    (gatewayOf log event.sessionId).isSome = true) : Attributed ((events.map .emitted).reverse ++ log) := by
  induction events generalizing log with
  | nil => exact attributed
  | cons event events ih =>
    rw [map_cons, reverse_cons, append_assoc]
    refine ih ⟨known event mem_cons_self, attributed⟩ ?_
    intro later member
    exact known later (mem_cons_of_mem _ member)

/-! ### Pushes -/

namespace Engine

variable {engine engine' : Engine maxSymbols} {event : QueuedEvent}

/-- Everything that a request through a configured gateway can do. -/
inductive Processed (engine : Engine maxSymbols) (req : OrderRequest) : Engine maxSymbols → Prop where
  | connected {sessionId core queue} (type : req.type = .kClientConnect)
      (done : engine.core.onClientConnect = some (sessionId, core))
      (answered : (engine.responseQueues req.gatewayId).Appended queue [sessionAssigned req sessionId]) :
      Processed engine req { engine with
        core
        sessionToGateway := update engine.sessionToGateway sessionId req.gatewayId
        responseQueues := update engine.responseQueues req.gatewayId queue }
  | rolledBack {sessionId core engine'} (type : req.type = .kClientConnect)
      (done : engine.core.onClientConnect = some (sessionId, core))
      (full : (engine.responseQueues req.gatewayId).items.length = kExchangeQueueCapacity)
      (lost : engine'.drops = engine.drops + 1) : Processed engine req engine'
  | disconnected {core} (type : req.type = .kClientDisconnect)
      (done : engine.core.onClientDisconnect req.sessionId = some core) : Processed engine req { engine with core }
  | ordered {core} (called : req.type = .kNewOrder ∧ engine.core.submitOrder req.sessionId req.newOrder = some core ∨
        req.type = .kCancelOrder ∧ engine.core.cancelOrder req.sessionId req.cancelOrder = some core ∨
        req.type = .kModifyOrder ∧ engine.core.modifyOrder req.sessionId req.modifyOrder = some core) :
      Processed engine req (({ engine with core } : Engine maxSymbols).drainAndDispatch req.requestSeq)

theorem processRequest_processed {numGateways : Nat} {req : OrderRequest}
    (done : engine.processRequest numGateways req = some engine') :
    numGateways ≤ req.gatewayId ∧ engine' = engine ∨ ¬ numGateways ≤ req.gatewayId ∧ Processed engine req engine' := by
  unfold processRequest at done
  split at done
  case isTrue unconfigured => exact .inl ⟨unconfigured, (some.inj done).symm⟩
  case isFalse configured =>
    refine .inr ⟨configured, ?_⟩
    split at done
    case h_1 type =>
      obtain ⟨⟨sessionId, core⟩, connected, done⟩ := bind_eq_some_iff.mp done
      rcases (engine.responseQueues req.gatewayId).tryPush_cases (sessionAssigned req sessionId) with
        ⟨full, refused⟩ | ⟨_, taken, answered⟩
      · simp only [refused, Bool.false_eq_true, if_false] at done
        obtain ⟨_, _, done⟩ := bind_eq_some_iff.mp done
        exact .rolledBack type connected full (by cases done; rfl)
      · simp only [taken, if_true] at done
        exact some.inj done ▸ .connected type connected answered
    all_goals
      rename_i type
      obtain ⟨core, called, done⟩ := bind_eq_some_iff.mp done
      cases done
    · exact .disconnected type called
    · exact .ordered (.inl ⟨type, called⟩)
    · exact .ordered (.inr (.inl ⟨type, called⟩))
    · exact .ordered (.inr (.inr ⟨type, called⟩))

/-- Nothing but the queues and the count of lost events changed, and nothing was lost: `responses` went
into the queue of the gateway each is addressed to and `market` went into market data. -/
structure Delivered (engine engine' : Engine maxSymbols) (responses market : List QueuedEvent) : Prop where
  frame : engine' = { engine with
    responseQueues := engine'.responseQueues, mdEventQueue := engine'.mdEventQueue, drops := engine'.drops }
  drops : engine.drops = 0
  responses : ∀ gw, (engine.responseQueues gw).Appended (engine'.responseQueues gw)
    (responses.filter fun event => engine.sessionToGateway event.sessionId = gw)
  market : engine.mdEventQueue.Appended engine'.mdEventQueue market

theorem Delivered.trans {engine₁ : Engine maxSymbols} {responses responses' market market' : List QueuedEvent}
    (first : Delivered engine engine₁ responses market) (second : Delivered engine₁ engine' responses' market') :
    Delivered engine engine' (responses ++ responses') (market ++ market') where
  frame := by
    have frame := second.frame
    rw [first.frame] at frame
    exact frame
  drops := first.drops
  responses := by
    intro gw
    have same : engine₁.sessionToGateway = engine.sessionToGateway := by rw [first.frame]
    have rest := second.responses gw
    rw [same] at rest
    rw [filter_append]
    exact (first.responses gw).trans rest
  market := first.market.trans second.market

theorem respond_delivered (kept : (engine.respond (engine.sessionToGateway event.sessionId) event).drops = 0) :
    Delivered engine (engine.respond (engine.sessionToGateway event.sessionId) event) [event] [] := by
  unfold respond at kept ⊢
  rcases (engine.responseQueues (engine.sessionToGateway event.sessionId)).tryPush_cases event with
    ⟨_, refused⟩ | ⟨_, taken, pushed⟩
  · simp [refused] at kept
  · simp only [taken, if_true] at kept ⊢
    refine ⟨rfl, kept, ?_, appended_nil _⟩
    intro gw
    by_cases here : gw = engine.sessionToGateway event.sessionId
    · subst here
      simpa using pushed
    · simpa [here, Ne.symm here] using appended_nil _

theorem publish_delivered (kept : (engine.publish event).drops = 0) : Delivered engine (engine.publish event) []
    [event] := by
  unfold publish at kept ⊢
  rcases engine.mdEventQueue.tryPush_cases event with ⟨_, refused⟩ | ⟨_, taken, pushed⟩
  · simp [refused] at kept
  · simp only [taken, if_true] at kept ⊢
    exact ⟨rfl, kept, fun _ => appended_nil _, pushed⟩

def isMarketData (event : QueuedEvent) : Bool := event.type = .kFill ∨ event.type = .kBBOUpdate

theorem dispatch_delivered (kept : (engine.dispatch event).drops = 0) : Delivered engine (engine.dispatch event)
    ([event].filter fun event => isClient event.toExchangeEvent) ([event].filter isMarketData) := by
  unfold dispatch at kept ⊢
  split at kept
  · rename_i fill
    have second := publish_delivered kept
    have first := respond_delivered second.drops
    simpa [isClient, isMarketData, fill] using first.trans second
  · rename_i quote
    simpa [isClient, isMarketData, quote] using publish_delivered kept
  · rename_i notFill notQuote
    have client : isClient event.toExchangeEvent = true := decide_eq_true notQuote
    have market : isMarketData event = false := decide_eq_false (not_or.mpr ⟨notFill, notQuote⟩)
    simpa [client, market] using respond_delivered kept

theorem foldl_dispatch_delivered {events : List QueuedEvent} (kept : (events.foldl dispatch engine).drops = 0) :
    Delivered engine (events.foldl dispatch engine) (events.filter fun event => isClient event.toExchangeEvent)
      (events.filter isMarketData) := by
  induction events generalizing engine with
  | nil => exact ⟨rfl, kept, fun _ => appended_nil _, appended_nil _⟩
  | cons event events ih =>
    have rest := ih kept
    have first := dispatch_delivered rest.drops
    have whole := first.trans rest
    rw [← filter_append, ← filter_append] at whole
    exact whole

end Engine

/-! ### Runs -/

variable {numGateways : Nat} {t t' : Traced maxSymbols}

structure Routed (t : Traced maxSymbols) : Prop where
  usable : Usable t.engine.core
  drained : t.engine.core.events = []
  table : ∀ sessionId gw, gatewayOf t.log sessionId = some gw → t.engine.sessionToGateway sessionId = gw
  owners : ∀ x reverse, t.engine.core.reverseIdMap.content x = some reverse →
    (gatewayOf t.log reverse.sessionId).isSome = true
  queues : ∀ gw, (t.engine.responseQueues gw).pushed = deliveries gw t.log
  attributed : Attributed t.log

variable {core : ExchangeCore maxSymbols}

/-- Everybody who hears of a request is its sender or an owner of a resting order. -/
theorem ExchangeCore.Responded.addressees {core' : ExchangeCore maxSymbols} {accepted rejected : EventType}
    {taker : Taker} {qty : Nat} {fills : List Fill} {ack event : ExchangeEvent}
    (responded : Responded core core' accepted rejected taker qty fills ack)
    (drained : core.events = []) (member : event ∈ core'.events) (client : isClient event = true) :
    event.sessionId = taker.sessionId ∨
      ∃ x reverse, core.reverseIdMap.content x = some reverse ∧ reverse.sessionId = event.sessionId := by
  have listed : event ∈ core'.events.filter isClient := mem_filter.mpr ⟨member, client⟩
  rw [responded.client drained, mem_cons] at listed
  rcases listed with rfl | listed
  · exact .inl responded.responds.answers.sessionId
  generalize leftIn _ = leftOf at listed
  clear responded
  induction fills generalizing qty with
  | nil => cases listed
  | cons fill fills ih =>
    simp only [fillEvents, cons_append, mem_cons, mem_append, List.mem_map, mem_toList] at listed
    rcases listed with rfl | ⟨maker, found, rfl⟩ | later
    · exact .inl rfl
    · exact .inr ⟨fill.makerId, maker, found, rfl⟩
    · exact ih later

variable {req : OrderRequest}

theorem Routed.responded {accepted rejected : EventType} {taker : Taker}
    {qty : Nat} {fills : List Fill} {ack : ExchangeEvent} (routed : Routed t)
    (known : (gatewayOf t.log taker.sessionId).isSome = true)
    (responded : Responded t.engine.core core accepted rejected taker qty fills ack)
    (kept : (({ t.engine with core } : Engine maxSymbols).drainAndDispatch req.requestSeq).drops = 0) :
    Routed { engine := ({ t.engine with core } : Engine maxSymbols).drainAndDispatch req.requestSeq,
             log := (emittedBy req (some core)).reverse ++ t.log } := by
  have delivered := Engine.foldl_dispatch_delivered kept
  have emitted : emittedBy req (some core) = (core.events.map (·.stamp req.requestSeq)).map .emitted := by
    simp [emittedBy]
  have addressed : ∀ event ∈ core.events.map (·.stamp req.requestSeq), isClient event.toExchangeEvent = true →
      (gatewayOf t.log event.sessionId).isSome = true := by
    intro event member client
    obtain ⟨raw, listed, rfl⟩ := List.mem_map.mp member
    rcases responded.addressees routed.drained listed client with same | ⟨x, reverse, found, same⟩
    · exact same ▸ known
    · exact same ▸ routed.owners x reverse found
  rw [emitted]
  unfold Engine.drainAndDispatch at kept ⊢
  dsimp only [drainEvents] at delivered kept ⊢
  generalize foldl Engine.dispatch _ _ = engine at delivered kept ⊢
  refine ⟨?_, ?_, ?_, ?_, ?_, attributed_emitted routed.attributed addressed⟩
  · rw [delivered.frame]
    exact ⟨{ responded.usable.maps with }, responded.usable.books⟩
  · rw [delivered.frame]
  · intro sessionId gw found
    rw [gatewayOf_emitted] at found
    rw [delivered.frame]
    exact routed.table sessionId gw found
  · intro x reverse found
    rw [delivered.frame] at found
    rw [gatewayOf_emitted]
    rcases responded.owners x reverse found with old | own
    · exact routed.owners x reverse old
    · exact own ▸ known
  · intro gw
    rw [(delivered.responses gw).pushed, deliveries_emitted, ← routed.queues, List.filter_filter]
    congr 1
    apply filter_congr
    intro event member
    -- The table names the gateway of every session that an event can be for.
    by_cases client : isClient event.toExchangeEvent = true
    · obtain ⟨gateway, owner⟩ := isSome_iff_exists.mp (addressed event member client)
      simp [client, owner, routed.table _ _ owner]
    · simp [client]

theorem Routed.connect {queue : EventQueue} (routed : Routed t)
    (connected : t.engine.core.onClientConnect = some (sessionId, core))
    (pushed : queue.pushed = (t.engine.responseQueues req.gatewayId).pushed ++ [Engine.sessionAssigned req sessionId]) :
    Routed { engine := { t.engine with
               core
               sessionToGateway := update t.engine.sessionToGateway sessionId req.gatewayId
               responseQueues := update t.engine.responseQueues req.gatewayId queue },
             log := .assigned req.gatewayId (Engine.sessionAssigned req sessionId) :: t.log } := by
  have quiet := onClientConnect_quiet routed.usable connected
  refine ⟨quiet.usable, quiet.events.trans routed.drained, ?_, ?_, ?_, routed.attributed⟩
  · intro other gw found
    by_cases here : sessionId = other
    · subst here
      simpa [gatewayOf, Engine.sessionAssigned] using found
    · simp only [gatewayOf, Engine.sessionAssigned, here, if_false] at found
      simpa [Ne.symm here] using routed.table other gw found
  · intro x reverse found
    simp only [gatewayOf]
    split
    · rfl
    · exact routed.owners x reverse (quiet.owners x reverse found)
  · intro gw
    by_cases here : gw = req.gatewayId
    · subst here
      simp [deliveries, pushed, routed.queues]
    · simp [deliveries, here, Ne.symm here, routed.queues]

section

variable (inv : t.engine.drops = 0 → Routed t)
include inv

theorem Routed.order
    (known : gatewayOf t.log req.sessionId = some req.gatewayId)
    (responds : Usable t.engine.core → ∃ accepted rejected taker qty fills ack,
      Responded t.engine.core core accepted rejected taker qty fills ack ∧ taker.sessionId = req.sessionId)
    (kept : (({ t.engine with core } : Engine maxSymbols).drainAndDispatch req.requestSeq).drops = 0) :
    Routed { engine := ({ t.engine with core } : Engine maxSymbols).drainAndDispatch req.requestSeq,
             log := (emittedBy req (some core)).reverse ++ t.log } := by
  have before : t.engine.drops = 0 := (Engine.foldl_dispatch_delivered kept).drops
  have routed := inv before
  obtain ⟨_, _, taker, qty, fills, ack, responded, taken⟩ := responds routed.usable
  have owner : (gatewayOf t.log taker.sessionId).isSome = true := by rw [taken, known]; rfl
  exact routed.responded owner responded kept

theorem Routed.process (own : t.OwnSession (.process req))
    (stepped : t.step numGateways (.process req) = some t') (kept : t'.engine.drops = 0) : Routed t' := by
  obtain ⟨engine, processed, same⟩ := bind_eq_some_iff.mp stepped
  cases same
  -- A connect may carry any session; every other request carries its own.
  have session : req.type ≠ .kClientConnect → gatewayOf t.log req.sessionId = some req.gatewayId := fun other =>
    (own.resolve_left other).2
  rcases Engine.processRequest_processed processed with ⟨unconfigured, rfl⟩ | ⟨configured, effect⟩
  · simp only [announce, if_pos unconfigured]
    exact inv kept
  simp only [announce, if_neg configured]
  cases effect with
  | connected type connected answered =>
    simp only [type, connected, elim_some]
    exact (inv kept).connect connected answered.pushed
  | rolledBack _ _ _ lost =>
    rw [lost] at kept
    cases kept
  | disconnected type ended =>
    have routed := inv kept
    have quiet := onClientDisconnect_quiet routed.usable ended
    simp only [type]
    exact { routed with
      usable := quiet.usable
      drained := quiet.events.trans routed.drained
      owners := fun x reverse found => routed.owners x reverse (quiet.owners x reverse found) }
  | ordered called =>
    rcases called with ⟨type, called⟩ | ⟨type, called⟩ | ⟨type, called⟩
    all_goals
      simp only [type, called]
      refine Routed.order inv (session (by simp [type])) (fun usable => ?_) kept
    · obtain ⟨ack, responded⟩ := submitOrder_responded usable called
      exact ⟨_, _, _, _, _, ack, responded, rfl⟩
    · obtain ⟨ack, responded⟩ := cancelOrder_responded usable called
      exact ⟨_, _, _, _, _, ack, responded, rfl⟩
    · obtain ⟨ack, responded⟩ := modifyOrder_responded usable called
      exact ⟨_, _, _, _, _, ack, responded, rfl⟩

theorem Routed.step {op : EngineOp} (own : t.OwnSession op)
    (stepped : t.step numGateways op = some t') (kept : t'.engine.drops = 0) : Routed t' := by
  cases op with
  | process req => exact Routed.process inv own stepped kept
  | popResponse gw =>
    cases popped : (t.engine.responseQueues gw).tryPop with
    | none =>
      simp only [Traced.step, popped] at stepped
      cases stepped
      exact inv kept
    | some found =>
      simp only [Traced.step, popped] at stepped
      cases stepped
      obtain ⟨_, pushed⟩ := FixedSPSCQueue.tryPop_eq_some popped
      have routed := inv kept
      refine { routed with queues := ?_ }
      intro other
      by_cases here : other = gw
      · subst here
        simpa [pushed] using routed.queues other
      · simpa [here] using routed.queues other
  | popMarketData =>
    cases popped : t.engine.mdEventQueue.tryPop with
    | none =>
      simp only [Traced.step, popped] at stepped
      cases stepped
      exact inv kept
    | some found =>
      simp only [Traced.step, popped] at stepped
      cases stepped
      have routed := inv kept
      exact { routed with }

end

theorem Fresh.usable (fresh : Fresh core) : Usable core :=
  { fresh.healthy with }

/-- In every run in which no push fails, the queue of a gateway was given exactly what belongs to it, and
every event for a client belongs to the gateway of its session. -/
theorem run_routed {symbols : List (Nat × Params)} {core : ExchangeCore maxSymbols} {ops : List EngineOp}
    (registered : registerAll symbols {} = some core)
    (own : Traced.Along numGateways Traced.OwnSession ops { engine := { core } })
    (ran : Traced.run numGateways ops { engine := { core } } = some t) (kept : t.engine.drops = 0) :
    (∀ gw, (t.engine.responseQueues gw).pushed = deliveries gw t.log) ∧ Attributed t.log := by
  have fresh := fresh_initial.registerAll registered
  have start : Routed ({ engine := { core } } : Traced maxSymbols) := by
    refine ⟨fresh.usable, fresh.drained, ?_, ?_, fun _ => rfl, trivial⟩
    · intro sessionId gw found
      cases found
    · intro x reverse found
      cases (fresh.reverseIdMap x).symm.trans found
  have routed := Transition.run_invariant (fun inv own stepped kept => Routed.step inv own stepped kept)
    (fun _ => start) own ran kept
  exact ⟨routed.queues, routed.attributed⟩

def tinyParams : Params := { maxOrders := 4, maxLevels := 4, orderMapCap := 8, levelMapCap := 8 }

def tinyCore : ExchangeCore 1 := (registerAll [(1, tinyParams)] {}).get (by decide)

theorem registerAll_tinyCore : registerAll [(1, tinyParams)] {} = some tinyCore := (some_get _).symm

/-- The first order of a client, for 5 at 100. -/
def firstOrder (gatewayId : Nat) (sessionId : UInt16) (side : Side) : OrderRequest :=
  { type := .kNewOrder, gatewayId, sessionId, clientOrderId := 1, symbolId := 1, side, price := 100, qty := 5 }

/-- A client of gateway 0 offers, and a client of gateway 1 takes the offer. -/
def crossOps : List EngineOp := [
  .process { type := .kClientConnect, gatewayId := 0 }, .process { type := .kClientConnect, gatewayId := 1 },
  .process (firstOrder 0 1 .kAsk), .popResponse 0, .process (firstOrder 1 2 .kBid)]

theorem run_routed_cross : registerAll [(1, tinyParams)] {} = some tinyCore ∧
    Traced.Along 2 Traced.OwnSession crossOps { engine := { core := tinyCore } } ∧
    ∃ t, Traced.run 2 crossOps { engine := { core := tinyCore } } = some t ∧ t.engine.drops = 0 ∧
      (∀ gw, (t.engine.responseQueues gw).pushed = deliveries gw t.log) ∧ Attributed t.log := by
  have own : Traced.Along 2 Traced.OwnSession crossOps { engine := { core := tinyCore } } := by decide +kernel
  obtain ⟨t, ran, kept⟩ : ∃ t, Traced.run 2 crossOps { engine := { core := tinyCore } } = some t ∧
      t.engine.drops = 0 := by decide +kernel
  exact ⟨registerAll_tinyCore, own, t, ran, kept, run_routed registerAll_tinyCore own ran kept⟩

end TickToTrade.Exchange
