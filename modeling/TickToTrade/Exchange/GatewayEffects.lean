import TickToTrade.Exchange.Gateway
import TickToTrade.Exchange.Routing
import TickToTrade.Exchange.CallFrames

/-!
What one step of a gateway's thread or of the engine does to sessions and queues.
-/

namespace TickToTrade.Exchange
open Algo Ds Probing Sys ExchangeCore List Option Function
open FixedSPSCQueue (appended_nil tryPop_eq_some)

variable {cur : UInt16} {req : OrderRequest}

/-! ### The recv thread -/

/-- The engine has not been told of a client. -/
def RecvState.early : RecvState → Bool
  | .accepting | .accepted _ | .connecting _ => true
  | _ => false

/-- The engine has been told of the client and not yet of its end. -/
def RecvState.serving : RecvState → Bool
  | .receiving | .parsing _ | .leaving | .disconnecting _ => true
  | _ => false

/-- Where a step can lead the recv thread, what it gives to the engine and how many pushes fail. -/
inductive RecvOutcome (g : GatewayProcess) (pid : Nat) : RecvState → List PushedRequest → Nat → Prop where
  | stays {next : RecvState} {failed : Nat} (early : next.early = g.recv.early)
      (serving : next.serving = g.recv.serving)
      (parses : ∀ cur, next = .parsing cur → cur = g.session ∨ g.recv = .parsing cur)
      (leaves : ∀ final, next = .disconnecting final → g.recv = .leaving ∧ final = g.session) :
        RecvOutcome g pid next [] failed
  | quits {failed : Nat} (early : g.recv.early = true) : RecvOutcome g pid .finished [] failed
  | connects {fd : Nat} (here : g.recv = .connecting fd) : RecvOutcome g pid .receiving [g.connectRequest pid fd] 0
  | requests {cur : UInt16} {req : OrderRequest} (here : g.recv = .parsing cur) (known : cur ≠ 0)
      (gateway : req.gatewayId = g.gatewayId) (session : req.sessionId = cur)
      (order : req.type ≠ .kClientConnect ∧ req.type ≠ .kClientDisconnect) :
      RecvOutcome g pid (.parsing cur) [{ req with process := pid }] 0
  | disconnects {final : UInt16} (here : g.recv = .disconnecting final) (known : final ≠ 0) :
      RecvOutcome g pid .closing [g.disconnectRequest pid final] 0
  | silent {final : UInt16} {failed : Nat} (here : g.recv = .disconnecting final) (lost : final = 0 ∨ 0 < failed) :
      RecvOutcome g pid .closing [] failed

structure RecvFrame (g g' : GatewayProcess) : Prop where
  gatewayId : g'.gatewayId = g.gatewayId
  send : g'.send = g.send
  session : g'.session = g.session
  written : g'.written = g.written
  exited : g'.exited = g.exited
  rejects : ∀ event, .reject event ∈ g'.sendQueue.items →
    .reject event ∈ g.sendQueue.items ∨ ∃ cur, g.recv = .parsing cur ∧ cur ≠ 0 ∧ event.sessionId = cur

structure RecvEffect (g : GatewayProcess) (pid : Nat) (queue : PushedQueue) (out : GatewayProcess.Received)
    (pushed : List PushedRequest) : Prop where
  frame : RecvFrame g out.process
  queue : queue.Appended out.queue pushed
  outcome : RecvOutcome g pid out.process.recv pushed out.failed

variable {g g' : GatewayProcess} {pid : Nat} {queue queue' : PushedQueue}

theorem parseFrameToRequest_eq_some {msg : ClientMessage} {seq gw : Nat}
    (parsed : parseFrameToRequest msg cur seq gw = some req) : req.gatewayId = gw ∧ req.sessionId = cur ∧
      req.type ≠ .kClientConnect ∧ req.type ≠ .kClientDisconnect := by
  cases msg with
  | newOrder order =>
    cases parsed
    simp
  | cancelOrder cancel =>
    cases parsed
    simp
  | modifyOrder modify =>
    cases parsed
    simp
  | heartbeat => cases parsed
  | malformed => cases parsed
  | ignored => cases parsed

namespace GatewayProcess

theorem recvEffect_moves (next : RecvState) (failed : Nat) (frame : RecvFrame g g') (moved : g'.recv = next)
    (outcome : RecvOutcome g pid next [] failed) : ∃ pushed, RecvEffect g pid queue ⟨g', queue, failed⟩ pushed :=
  ⟨[], frame, appended_nil _, moved ▸ outcome⟩

theorem recvOutcome_rests (here : ∀ final, g.recv ≠ .disconnecting final) (failed : Nat) :
    RecvOutcome g pid g.recv [] failed :=
  .stays rfl rfl (fun _ => .inr) (fun final there => absurd there (here final))

/-- The place, the flags and the sequence number are the recv thread's own. -/
theorem recvFrame_own {recv : RecvState} {stop : Bool} {clientFdShared : Option Nat} {nextSeq : Nat} :
    RecvFrame g { g with recv, stop, clientFdShared, nextSeq } := ⟨rfl, rfl, rfl, rfl, rfl, fun _ => .inl⟩

theorem pushSend_effect {pending : PendingSend} {failed : Nat} (here : g.recv = .parsing cur) (g₁ : GatewayProcess)
    (same : g₁ = g ∨ g₁ = g.bumpSeq) (mine : ∀ event, pending = .reject event → cur ≠ 0 ∧ event.sessionId = cur) :
    ∃ pushed, RecvEffect g pid queue (g₁.pushSend queue failed pending) pushed := by
  have sendQueue : g₁.sendQueue = g.sendQueue := by rcases same with rfl | rfl <;> rfl
  have recv : g₁.recv = g.recv := by rcases same with rfl | rfl <;> rfl
  have frame : RecvFrame g g₁ := by rcases same with rfl | rfl <;> exact recvFrame_own
  unfold pushSend
  rcases g₁.sendQueue.tryPush_cases pending with ⟨_, refused⟩ | ⟨_, taken, appended⟩
  · simp only [refused, Bool.false_eq_true, if_false]
    refine recvEffect_moves .leaving _ ?_ rfl (.stays (by rw [here]; rfl) (by rw [here]; rfl) (by simp) (by simp))
    exact { frame with }
  · simp only [taken, if_true]
    refine recvEffect_moves g.recv _ ?_ recv (recvOutcome_rests (by simp [here]) _)
    refine { frame with rejects := ?_ }
    intro event member
    rw [appended.items, mem_append, mem_singleton, sendQueue] at member
    exact member.imp_right fun same => ⟨cur, here, mine event same.symm⟩

theorem handleMessage_effect (here : g.recv = .parsing cur) (msg : ClientMessage) :
    ∃ pushed, RecvEffect g pid queue (g.handleMessage pid queue cur msg) pushed := by
  have still : ∀ g', RecvFrame g g' → g'.recv = g.recv → ∃ pushed, RecvEffect g pid queue ⟨g', queue, 0⟩ pushed :=
    fun g' frame recv => recvEffect_moves g.recv 0 frame recv (recvOutcome_rests (by simp [here]) 0)
  unfold handleMessage
  split
  · exact still g (recvFrame_own) rfl
  · exact pushSend_effect here g (.inl rfl) (fun _ impossible => by cases impossible)
  split
  · exact still g (recvFrame_own) rfl
  rename_i known
  have frame : RecvFrame g g.bumpSeq := recvFrame_own
  cases parsed : parseFrameToRequest msg cur g.nextSeq g.gatewayId with
  | none => exact still g.bumpSeq frame rfl
  | some req =>
    obtain ⟨gateway, session, order⟩ := parseFrameToRequest_eq_some parsed
    rcases queue.tryPush_cases { req with process := pid } with ⟨_, refused⟩ | ⟨_, taken, appended⟩
    · simp only [refused, Bool.false_eq_true, if_false]
      refine pushSend_effect here g.bumpSeq (.inr rfl) fun event same => ?_
      obtain rfl := PendingSend.reject.inj same
      exact ⟨known, rfl⟩
    · simp only [taken, if_true]
      have recv : g.bumpSeq.recv = .parsing cur := here
      refine ⟨[{ req with process := pid }], frame, appended, ?_⟩
      simp only [recv]
      exact .requests here known gateway session order

theorem recvStep_effect (g : GatewayProcess) (pid : Nat) (queue : PushedQueue) (input : RecvInput) :
    ∃ pushed, RecvEffect g pid queue (g.recvStep pid queue input) pushed := by
  -- In most places the thread only moves on within the same phase.
  have moves : ∀ recv {stop clientFdShared}, recv.early = g.recv.early → recv.serving = g.recv.serving →
      (∀ cur, recv = .parsing cur → cur = g.session ∨ g.recv = .parsing cur) →
      (∀ final, recv = .disconnecting final → g.recv = .leaving ∧ final = g.session) →
      ∃ pushed, RecvEffect g pid queue ⟨{ g with recv, stop, clientFdShared }, queue, 0⟩ pushed :=
    fun next _ _ early serving parses leaves =>
      recvEffect_moves next 0 recvFrame_own rfl (.stays early serving parses leaves)
  have rests : (∀ final, g.recv ≠ .disconnecting final) → ∃ pushed, RecvEffect g pid queue ⟨g, queue, 0⟩ pushed :=
    fun here => recvEffect_moves g.recv 0 (recvFrame_own) rfl (recvOutcome_rests here 0)
  unfold recvStep
  cases here : g.recv with
  | accepting =>
    rw [here] at moves rests
    dsimp only
    split
    · exact ⟨[], recvFrame_own, appended_nil _, .quits (by rw [here]; rfl)⟩
    split
    · exact moves (.accepted _) rfl rfl (by simp) (by simp)
    · exact rests (by simp)
  | accepted fd =>
    rw [here] at moves
    exact moves (.connecting fd) rfl rfl (by simp) (by simp)
  | connecting fd =>
    dsimp only
    rcases queue.tryPush_cases (g.connectRequest pid fd) with ⟨_, refused⟩ | ⟨_, taken, appended⟩
    · simp only [refused, Bool.false_eq_true, if_false]
      exact ⟨[], recvFrame_own, appended_nil _, .quits (by rw [here]; rfl)⟩
    · simp only [taken, if_true]
      exact ⟨_, recvFrame_own, appended, .connects here⟩
  | receiving =>
    rw [here] at moves rests
    dsimp only
    split
    · exact moves .leaving rfl rfl (by simp) (by simp)
    split
    · exact moves .leaving rfl rfl (by simp) (by simp)
    · exact moves (.parsing g.session) rfl rfl
        (fun cur moved => .inl (RecvState.parsing.inj moved).symm) (by simp)
    · exact rests (by simp)
  | parsing cur =>
    rw [here] at moves rests
    dsimp only
    split
    · exact moves .receiving rfl rfl (by simp) (by simp)
    split
    · exact moves .receiving rfl rfl (by simp) (by simp)
    · exact moves .leaving rfl rfl (by simp) (by simp)
    · exact handleMessage_effect here _
    · exact rests (by simp)
  | leaving =>
    rw [here] at moves
    exact moves (.disconnecting g.session) rfl rfl (by simp)
      (fun final moved => ⟨rfl, (RecvState.disconnecting.inj moved).symm⟩)
  | disconnecting final =>
    dsimp only
    split
    · rename_i zero
      exact ⟨[], recvFrame_own, appended_nil _, .silent here (.inl zero)⟩
    rename_i known
    rcases queue.tryPush_cases (g.disconnectRequest pid final) with ⟨_, refused⟩ | ⟨_, taken, appended⟩
    · simp only [refused, Bool.false_eq_true, if_false]
      exact ⟨[], recvFrame_own, appended_nil _, .silent here (.inr Nat.one_pos)⟩
    · simp only [taken, if_true]
      exact ⟨_, recvFrame_own, appended, .disconnects here known⟩
  | closing =>
    rw [here] at moves
    exact moves .finished rfl rfl (by simp) (by simp)
  | finished =>
    rw [here] at rests
    exact rests (by simp)

end GatewayProcess

/-! ### The send thread -/

structure SendEffect (g g' : GatewayProcess) (queue queue' : EventQueue) : Prop where
  gatewayId : g'.gatewayId = g.gatewayId
  recv : g'.recv = g.recv
  exited : g'.exited = g.exited
  written : ∀ event ∈ g'.written, event ∈ g.written ∨ (∃ queued ∈ queue.items, queued.toExchangeEvent = event) ∨
    .reject event ∈ g.sendQueue.items
  rejects : ∀ pending ∈ g'.sendQueue.items, pending ∈ g.sendQueue.items
  session : (queue' = queue ∧ g'.session = g.session) ∨ ∃ event, queue.items = event :: queue'.items ∧
    g'.session = if event.type = .kSessionAssigned then event.sessionId else g.session

namespace GatewayProcess

theorem writeEvent_frame (g : GatewayProcess) (event : ExchangeEvent) (sent : Bool) (next : SendState) :
    (g.writeEvent event sent next).gatewayId = g.gatewayId ∧ (g.writeEvent event sent next).recv = g.recv ∧
      (g.writeEvent event sent next).exited = g.exited ∧ (g.writeEvent event sent next).session = g.session ∧
      (g.writeEvent event sent next).sendQueue = g.sendQueue ∧ (g.writeEvent event sent next).written =
      g.written ++ [event] := by
  cases sent <;> simp [writeEvent]

theorem respondEvent_effect {queue queue' : EventQueue} {event : QueuedEvent}
    (popped : queue.tryPop = some (event, queue'))
    (fd : Option Nat) (sent : Bool) : SendEffect g (g.respondEvent fd event sent) queue queue' := by
  obtain ⟨items, _⟩ := tryPop_eq_some popped
  unfold respondEvent
  split
  · rename_i assigned
    exact ⟨rfl, rfl, rfl, fun _ => .inl, fun _ => id, .inr ⟨event, items, by simp [assigned]⟩⟩
  rename_i other
  split
  · exact ⟨rfl, rfl, rfl, fun _ => .inl, fun _ => id, .inr ⟨event, items, by simp [other]⟩⟩
  obtain ⟨gatewayId, recv, exited, session, sendQueue, written⟩ :=
    g.writeEvent_frame event.toExchangeEvent sent .draining
  refine ⟨gatewayId, recv, exited, ?_, by simp [sendQueue], .inr ⟨event, items, by simp [other, session]⟩⟩
  intro report member
  rw [written, mem_append, mem_singleton] at member
  exact member.imp_right fun same => .inl ⟨event, by simp [items], same.symm⟩

theorem sendStep_effect (g : GatewayProcess) (queue : EventQueue) (sent : Bool) :
    SendEffect g (g.sendStep queue sent).1 queue (g.sendStep queue sent).2 := by
  have same : ∀ g', g'.gatewayId = g.gatewayId → g'.recv = g.recv → g'.exited = g.exited → g'.session = g.session →
      g'.written = g.written → g'.sendQueue = g.sendQueue → SendEffect g g' queue queue :=
    fun g' gatewayId recv exited session written sendQueue =>
      ⟨gatewayId, recv, exited, fun _ member => .inl (written ▸ member), fun _ member => sendQueue ▸ member,
        .inl ⟨rfl, session⟩⟩
  unfold sendStep
  split
  · split
    · exact same _ rfl rfl rfl rfl rfl rfl
    · exact same _ rfl rfl rfl rfl rfl rfl
  · split
    · exact same _ rfl rfl rfl rfl rfl rfl
    · rename_i popped
      exact respondEvent_effect popped _ sent
  · split
    · exact same _ rfl rfl rfl rfl rfl rfl
    rename_i pending sendQueue popped
    obtain ⟨items, _⟩ := tryPop_eq_some popped
    have fewer : ∀ other ∈ sendQueue.items, other ∈ g.sendQueue.items := by
      rw [items]
      exact fun _ => mem_cons_of_mem _
    dsimp only
    split
    · exact ⟨rfl, rfl, rfl, fun _ => .inl, fewer, .inl ⟨rfl, rfl⟩⟩
    · rename_i event fd _
      obtain ⟨gatewayId, recv, exited, session, sendQueue', written⟩ :=
        ({ g with sendQueue } : GatewayProcess).writeEvent_frame event sent .polling
      refine ⟨gatewayId, recv, exited, ?_, by rwa [sendQueue'], .inl ⟨rfl, session⟩⟩
      intro report member
      rw [written, mem_append, mem_singleton] at member
      exact member.imp_right fun same => .inr (by rw [items, same]; exact mem_cons_self)
    · split
      · exact ⟨rfl, rfl, rfl, fun _ => .inl, fewer, .inl ⟨rfl, rfl⟩⟩
      · exact ⟨rfl, rfl, rfl, fun _ => .inl, fewer, .inl ⟨rfl, rfl⟩⟩
  · exact same _ rfl rfl rfl rfl rfl rfl

end GatewayProcess

/-! ### The engine -/

variable {maxSymbols numGateways : Nat} {core core' : ExchangeCore maxSymbols} {sessionId : UInt16}

theorem onClientDisconnect_others {other : UInt16} (ne : other ≠ sessionId)
    (done : core.onClientDisconnect sessionId = some core') :
    core'.activeSessions other = core.activeSessions other := by
  by_cases zero : sessionId = 0
  · unfold onClientDisconnect at done
    rw [if_pos zero] at done
    cases done
    rfl
  · rw [onClientDisconnect_sessions zero done, update_of_ne ne]

namespace Engine

variable {engine engine' : Engine maxSymbols} {event : QueuedEvent}

/-- Events were offered to their gateways; some may have been lost. -/
structure Offered (engine engine' : Engine maxSymbols) (events : List QueuedEvent) : Prop where
  core : engine'.core = engine.core
  sessionToGateway : engine'.sessionToGateway = engine.sessionToGateway
  responses : ∀ gw, ∃ added, (engine.responseQueues gw).Appended (engine'.responseQueues gw) added ∧
    ∀ event ∈ added, event ∈ events ∧ isClient event.toExchangeEvent = true ∧
      engine.sessionToGateway event.sessionId = gw

theorem Offered.trans {engine₁ : Engine maxSymbols} {events events' : List QueuedEvent}
    (first : Offered engine engine₁ events)
    (second : Offered engine₁ engine' events') : Offered engine engine' (events ++ events') where
  core := second.core.trans first.core
  sessionToGateway := second.sessionToGateway.trans first.sessionToGateway
  responses := by
    intro gw
    obtain ⟨added, appended, mine⟩ := first.responses gw
    obtain ⟨added', appended', mine'⟩ := second.responses gw
    refine ⟨added ++ added', appended.trans appended', ?_⟩
    intro event member
    rcases mem_append.mp member with old | new
    · obtain ⟨listed, addressed⟩ := mine event old
      exact ⟨mem_append_left _ listed, addressed⟩
    · obtain ⟨listed, addressed⟩ := mine' event new
      exact ⟨mem_append_right _ listed, first.sessionToGateway ▸ addressed⟩

theorem respond_offered (client : isClient event.toExchangeEvent = true) :
    Offered engine (engine.respond (engine.sessionToGateway event.sessionId) event) [event] where
  core := rfl
  sessionToGateway := rfl
  responses := by
    intro gw
    unfold respond
    by_cases here : gw = engine.sessionToGateway event.sessionId
    · subst here
      rcases (engine.responseQueues (engine.sessionToGateway event.sessionId)).tryPush_cases event with
        ⟨_, refused⟩ | ⟨_, taken, appended⟩
      · exact ⟨[], by simpa [refused] using appended_nil _, by simp⟩
      · exact ⟨[event], by simpa [taken] using appended, by simp [client]⟩
    · exact ⟨[], by simpa [here] using appended_nil _, by simp⟩

theorem publish_offered (engine : Engine maxSymbols) (event : QueuedEvent) : Offered engine (engine.publish event) [] :=
  ⟨rfl, rfl, fun _ => ⟨[], appended_nil _, by simp⟩⟩

theorem dispatch_offered (engine : Engine maxSymbols) (event : QueuedEvent) : Offered engine (engine.dispatch event)
    [event] := by
  unfold dispatch
  split
  · rename_i fill
    exact (respond_offered (by simp [isClient, fill])).trans (publish_offered _ event)
  · obtain ⟨core, sessionToGateway, responses⟩ := publish_offered engine event
    refine ⟨core, sessionToGateway, fun gw => ?_⟩
    obtain ⟨added, appended, mine⟩ := responses gw
    exact ⟨added, appended, fun event member => by simpa using (mine event member).1⟩
  · rename_i notQuote
    exact respond_offered (decide_eq_true notQuote)

theorem foldl_dispatch_offered (events : List QueuedEvent) (engine : Engine maxSymbols) :
    Offered engine (events.foldl dispatch engine) events := by
  induction events generalizing engine with
  | nil => exact ⟨rfl, rfl, fun _ => ⟨[], appended_nil _, by simp⟩⟩
  | cons event events ih => exact (dispatch_offered engine event).trans (ih _)

/-- An order request was processed: events went to its sender and to owners of resting orders. -/
structure OrderServed (engine engine' : Engine maxSymbols) (req : OrderRequest) : Prop where
  applied : ∃ core, engine.core.apply req.op = some core ∧ engine'.core = core.drainEvents.2
  usable : Usable engine'.core
  sessions : engine'.core.activeSessions = engine.core.activeSessions
  sessionToGateway : engine'.sessionToGateway = engine.sessionToGateway
  owners : ∀ x reverse, engine'.core.reverseIdMap.content x = some reverse →
    engine.core.reverseIdMap.content x = some reverse ∨ reverse.sessionId = req.sessionId
  responses : ∀ gw, ∃ added, (engine.responseQueues gw).Appended (engine'.responseQueues gw) added ∧
    ∀ event ∈ added, engine.sessionToGateway event.sessionId = gw ∧ event.type ≠ .kSessionAssigned ∧
      (event.sessionId = req.sessionId ∨
        ∃ x reverse, engine.core.reverseIdMap.content x = some reverse ∧ reverse.sessionId = event.sessionId)

theorem drainAndDispatch_served {core : ExchangeCore maxSymbols} {taker : Taker} {qty : Nat} {fills : List Fill}
    {ack : ExchangeEvent} {accepted rejected : EventType} (drained : engine.core.events = [])
    (applied : engine.core.apply req.op = some core)
    (responded : Responded engine.core core accepted rejected taker qty fills ack)
    (own : taker.sessionId = req.sessionId) (other : accepted ≠ .kSessionAssigned ∧ rejected ≠ .kSessionAssigned) :
    OrderServed engine (({ engine with core } : Engine maxSymbols).drainAndDispatch req.requestSeq) req := by
  have offered := foldl_dispatch_offered (core.events.map (·.stamp req.requestSeq))
    ({ engine with core := core.drainEvents.2 } : Engine maxSymbols)
  have usable : Usable core.drainEvents.2 :=
    ⟨{ responded.usable.maps with }, responded.usable.books⟩
  unfold drainAndDispatch
  dsimp only [drainEvents] at offered usable ⊢
  refine ⟨⟨core, applied, offered.core⟩, ?_, ?_, offered.sessionToGateway, ?_, ?_⟩
  · rw [offered.core]
    exact usable
  · rw [offered.core]
    exact responded.sessions
  · rw [offered.core, ← own]
    exact responded.owners
  · intro gw
    obtain ⟨added, appended, mine⟩ := offered.responses gw
    refine ⟨added, appended, ?_⟩
    intro event member
    obtain ⟨listed, client, routed⟩ := mine event member
    obtain ⟨raw, emitted, rfl⟩ := List.mem_map.mp listed
    have addressee := responded.addressees drained emitted client
    rw [own] at addressee
    refine ⟨routed, ?_, addressee⟩
    have reported : raw ∈ core.events.filter isClient := mem_filter.mpr ⟨emitted, client⟩
    rw [responded.client drained, mem_cons] at reported
    rcases reported with rfl | fill
    · rcases responded.responds.answers.type with type | type
      · exact fun assigned => other.1 (type.symm.trans assigned)
      · exact fun assigned => other.2 (type.symm.trans assigned)
    · exact fun assigned => nomatch (fillEvents_type fill).symm.trans assigned

theorem processRequest_cases (usable : Usable engine.core) (drained : engine.core.events = [])
    (configured : ¬ numGateways ≤ req.gatewayId) (done : engine.processRequest numGateways req = some engine') :
    (req.type = .kClientConnect ∧ ∃ sessionId core, engine.core.onClientConnect = some (sessionId, core) ∧
      ((∃ queue, (engine.responseQueues req.gatewayId).Appended queue [sessionAssigned req sessionId] ∧
        engine' = { engine with
          core
          sessionToGateway := update engine.sessionToGateway sessionId req.gatewayId
          responseQueues := update engine.responseQueues req.gatewayId queue }) ∨
      ((engine.responseQueues req.gatewayId).items.length = kExchangeQueueCapacity ∧
        engine'.drops = engine.drops + 1))) ∨
    (req.type = .kClientDisconnect ∧ ∃ core, engine.core.onClientDisconnect req.sessionId = some core ∧
      engine' = { engine with core }) ∨
    ((req.type ≠ .kClientConnect ∧ req.type ≠ .kClientDisconnect) ∧ OrderServed engine engine' req) := by
  obtain ⟨-, effect⟩ := (processRequest_processed done).resolve_left fun ⟨unconfigured, _⟩ => configured unconfigured
  cases effect with
  | connected type connected answered => exact .inl ⟨type, _, _, connected, .inl ⟨_, answered, rfl⟩⟩
  | rolledBack type connected full lost => exact .inl ⟨type, _, _, connected, .inr ⟨full, lost⟩⟩
  | disconnected type ended => exact .inr (.inl ⟨type, _, ended, rfl⟩)
  | @ordered core called =>
    have applied : engine.core.apply req.op = some core := by
      rcases called with ⟨type, called⟩ | ⟨type, called⟩ | ⟨type, called⟩
      all_goals simpa [OrderRequest.op, type, ExchangeCore.apply] using called
    rcases called with ⟨type, called⟩ | ⟨type, called⟩ | ⟨type, called⟩
    · obtain ⟨ack, responded⟩ := submitOrder_responded usable called
      exact .inr (.inr ⟨by simp [type], drainAndDispatch_served drained applied responded rfl (by simp)⟩)
    · obtain ⟨ack, responded⟩ := cancelOrder_responded usable called
      exact .inr (.inr ⟨by simp [type], drainAndDispatch_served drained applied responded rfl (by simp)⟩)
    · obtain ⟨ack, responded⟩ := modifyOrder_responded usable called
      exact .inr (.inr ⟨by simp [type], drainAndDispatch_served drained applied responded rfl (by simp)⟩)

theorem processRequest_drops (done : engine.processRequest numGateways req = some engine') (kept : engine'.drops = 0) :
    engine.drops = 0 := by
  rcases processRequest_processed done with ⟨-, rfl⟩ | ⟨-, effect⟩
  · exact kept
  cases effect with
  | connected | disconnected => exact kept
  | rolledBack _ _ _ lost => exact absurd (lost.symm.trans kept) (Nat.succ_ne_zero _)
  | ordered => exact (foldl_dispatch_delivered kept).drops

end Engine

theorem granted_of_other {engine engine' : Engine maxSymbols} (other : req.type ≠ .kClientConnect) :
    Deployment.granted engine engine' req = none := by
  simp [Deployment.granted, other]

end TickToTrade.Exchange
