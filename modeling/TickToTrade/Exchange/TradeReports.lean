import TickToTrade.Exchange.Routing

/-!
Trade reporting: the market data process of `simulated_exchange/exchange_md_main.cpp` behind the engine
process.
-/

namespace TickToTrade.Exchange
open Algo Ds Probing Sys ExchangeCore List Option Function

variable {taker : Taker} {fills : List Fill}

inductive MdMsgType where
  | kBBOUpdate
  | kTrade
  deriving DecidableEq

structure MarketDataUpdate where
  seqNum : Nat
  symbolId : Nat
  mdMsgType : MdMsgType
  side : Side
  price : Int
  qty : Nat
  exchangeTs : Int
  deriving DecidableEq

/-- The publishers of all symbols: they share one sequence and one stream of datagrams. -/
structure MarketDataPublisher where
  sharedSeq : Nat := 1
  sent : List MarketDataUpdate := []

namespace MarketDataPublisher

def sendDatagram (pub : MarketDataPublisher) (symbolId : Nat) (msgType : MdMsgType) (side : Side)
    (price : Int) (qty : Nat) (ts : Int) : MarketDataPublisher where
  sharedSeq := (pub.sharedSeq + 1) % 2 ^ 64
  sent := pub.sent ++ [⟨pub.sharedSeq, symbolId, msgType, side, price, qty, ts⟩]

def publishTrade (pub : MarketDataPublisher) (symbolId : Nat) (aggressorSide : Side) (tradePrice : Int) (tradeQty : Nat)
    (ts : Int) : MarketDataPublisher :=
  pub.sendDatagram symbolId .kTrade aggressorSide tradePrice tradeQty ts

def publishUpdate (pub : MarketDataPublisher) (symbolId : Nat) (side : Side) (price : Int) (qty : Nat) (ts : Int) :
    MarketDataPublisher :=
  pub.sendDatagram symbolId .kBBOUpdate side price qty ts

def publishTick (pub : MarketDataPublisher) (symbolId : Nat) (bidPrice : Int) (bidQty : Nat) (askPrice : Int)
    (askQty : Nat) (now : Int) : MarketDataPublisher :=
  (pub.sendDatagram symbolId .kBBOUpdate .kBid bidPrice bidQty now).sendDatagram symbolId .kBBOUpdate .kAsk
    askPrice askQty now

def consume (pub : MarketDataPublisher) (symbolCount : Nat) (event : QueuedEvent) (ts : Int) : MarketDataPublisher :=
  if event.symbolId < 1 ∨ symbolCount < event.symbolId then pub
  else
    match event.type with
    | .kFill => pub.publishTrade event.symbolId event.side event.price event.qty ts
    | .kBBOUpdate => pub.publishUpdate event.symbolId event.side event.price event.qty ts
    | _ => pub

end MarketDataPublisher

structure Trade where
  symbolId : Nat
  aggressorSide : Side
  price : Int
  qty : Nat
  deriving DecidableEq

def MarketDataPublisher.trades (pub : MarketDataPublisher) : List Trade :=
  (pub.sent.filter fun update => update.mdMsgType = .kTrade).map fun update =>
    ⟨update.symbolId, update.side, update.price, update.qty⟩

variable {maxSymbols : Nat}

/-- The fills that the engine makes of a request. -/
def requestFills (numGateways : Nat) (core : ExchangeCore maxSymbols) (req : OrderRequest) : List Fill :=
  if numGateways ≤ req.gatewayId then []
  else
    match req.type with
    | .kNewOrder => core.submitFills req.sessionId req.newOrder
    | .kModifyOrder => core.modifyFills req.sessionId req.modifyOrder
    | _ => []

def requestSide (core : ExchangeCore maxSymbols) (req : OrderRequest) : Side :=
  if req.type = .kModifyOrder then core.modifySide req.sessionId req.modifyOrder else req.side

def tradeOf (symbolId : Nat) (side : Side) (fill : Fill) : Trade := ⟨symbolId, side, fill.price, fill.qty⟩

/-- The market data process has a publisher for the symbol. -/
def serves (symbolCount symbolId : Nat) : Bool := 1 ≤ symbolId && symbolId ≤ symbolCount

inductive MarketOp where
  | process (req : OrderRequest)
  | popResponse (gw : Nat)
  | poll (ts : Int)
  | tick (symbolId : Nat) (bidPrice : Int) (bidQty : Nat) (askPrice : Int) (askQty : Nat) (now : Int)

structure Market (maxSymbols : Nat) where
  engine : Engine maxSymbols
  publisher : MarketDataPublisher := {}
  fills : List Trade := []

namespace Market

variable (numGateways symbolCount : Nat)

def step (m : Market maxSymbols) : MarketOp → Exec (Market maxSymbols)
  | .process req => do
    let engine ← m.engine.processRequest numGateways req
    let fills := (requestFills numGateways m.engine.core req).map (tradeOf req.symbolId (requestSide m.engine.core req))
    return { m with engine, fills := m.fills ++ fills }
  | .popResponse gw =>
    match (m.engine.responseQueues gw).tryPop with
    | none => some m
    | some (_, queue) =>
      let responseQueues := update m.engine.responseQueues gw queue
      some { m with engine := { m.engine with responseQueues } }
  | .poll ts =>
    match m.engine.mdEventQueue.tryPop with
    | none => some m
    | some (event, mdEventQueue) =>
      some { m with engine := { m.engine with mdEventQueue }, publisher := m.publisher.consume symbolCount event ts }
  | .tick symbolId bidPrice bidQty askPrice askQty now =>
    some { m with publisher := m.publisher.publishTick symbolId bidPrice bidQty askPrice askQty now }

def run : List MarketOp → Market maxSymbols → Exec (Market maxSymbols) := Transition.run (step numGateways symbolCount)

abbrev Along (P : Market maxSymbols → MarketOp → Prop) : List MarketOp → Market maxSymbols → Prop :=
  Transition.Along (step numGateways symbolCount) P

/-- Each symbol's trades on the wire are the fills of its engine, in order. -/
def Corresponds (m : Market maxSymbols) : Prop :=
  ∀ symbolId, (m.publisher.trades.filter fun trade => trade.symbolId = symbolId) =
    m.fills.filter fun trade => trade.symbolId = symbolId

/-- The second map has the maker, as an order of a symbol that is published. -/
def makerMapped (core : ExchangeCore maxSymbols) (fill : Fill) : Bool :=
  (core.reverseIdMap.content fill.makerId).any fun maker => serves symbolCount maker.symbolId

/-- No maker of the request's fills is mapped. -/
def ReportsOnce (m : Market maxSymbols) : MarketOp → Prop
  | .process req => ∀ fill ∈ requestFills numGateways m.engine.core req, makerMapped symbolCount m.engine.core
    fill = false
  | _ => True

end Market

/-! ### The events of a request -/

variable {core core' : ExchangeCore maxSymbols} {symbolCount : Nat}

/-- What is published of the events as trades. -/
def tradesIn (symbolCount : Nat) (events : List QueuedEvent) : List Trade :=
  (events.filter fun event => event.type = .kFill && serves symbolCount event.symbolId).map fun event =>
    ⟨event.symbolId, event.side, event.price, event.qty⟩

@[simp] theorem tradesIn_append (events events' : List QueuedEvent) :
    tradesIn symbolCount (events ++ events') = tradesIn symbolCount events ++ tradesIn symbolCount events' := by
  simp [tradesIn]

/-- The trades that the two events of a fill are published as. -/
def reports (symbolCount : Nat) (taker : Taker) (makerOf : Nat → Option ReverseIdEntry) (fill : Fill) : List Trade :=
  tradeOf taker.symbolId taker.side fill ::
    ((makerOf fill.makerId).filter (serves symbolCount ·.symbolId)).toList.map fun maker =>
      tradeOf maker.symbolId taker.side.opposite fill

theorem tradesIn_fillEvents (served : fills ≠ [] → serves symbolCount taker.symbolId = true)
    (makerOf : Nat → Option ReverseIdEntry) (leftOf : Nat → Nat) (qty requestSeq : Nat) :
    tradesIn symbolCount ((fillEvents taker makerOf leftOf qty fills).map (·.stamp requestSeq)) =
      fills.flatMap (reports symbolCount taker makerOf) := by
  induction fills generalizing qty with
  | nil => rfl
  | cons fill fills ih =>
    have served := served (cons_ne_nil _ _)
    rw [fillEvents, map_append, tradesIn_append, ih fun _ => served, flatMap_cons, reports]
    cases makerOf fill.makerId with
    | none => simp [tradesIn, ExchangeEvent.stamp, takerEvent, served, tradeOf]
    | some maker => by_cases mapped : serves symbolCount maker.symbolId = true <;>
        simp [tradesIn, ExchangeEvent.stamp, takerEvent, makerEvent, served, mapped, tradeOf, filter_some]

theorem length_reports (core : ExchangeCore maxSymbols) (fills : List Fill) :
    (fills.flatMap (reports symbolCount taker core.reverseIdMap.content)).length =
      fills.length + fills.countP (Market.makerMapped symbolCount core) := by
  induction fills with
  | nil => rfl
  | cons fill fills ih =>
    rw [flatMap_cons, length_append, ih, countP_cons, Market.makerMapped, reports]
    cases core.reverseIdMap.content fill.makerId with
    | none => simp; omega
    | some maker => by_cases mapped : serves symbolCount maker.symbolId = true <;> simp [mapped,
        filter_some] <;> omega

theorem reports_unmapped (unmapped : fills.countP (Market.makerMapped symbolCount core) = 0) :
    fills.flatMap (reports symbolCount taker core.reverseIdMap.content) =
      fills.map (tradeOf taker.symbolId taker.side) := by
  rw [map_eq_flatMap]
  refine flatMap_congr fun fill member => ?_
  have none := countP_eq_zero.mp unmapped fill member
  rw [Market.makerMapped] at none
  rw [reports]
  cases found : core.reverseIdMap.content fill.makerId with
  | none => rfl
  | some maker => simpa [found, filter_some] using none

theorem tradesIn_market (events : List QueuedEvent) :
    tradesIn symbolCount (events.filter Engine.isMarketData) = tradesIn symbolCount events := by
  unfold tradesIn
  rw [List.filter_filter]
  congr 1
  apply filter_congr
  intro event _
  by_cases fill : event.type = .kFill
  · simp [Engine.isMarketData, fill]
  · simp [fill]

theorem tradesIn_client (events : List ExchangeEvent) (requestSeq : Nat) :
    tradesIn symbolCount ((events.filter isClient).map (·.stamp requestSeq)) =
      tradesIn symbolCount (events.map (·.stamp requestSeq)) := by
  induction events with
  | nil => rfl
  | cons event events ih =>
    by_cases client : isClient event = true
    · rw [filter_cons_of_pos client, map_cons, map_cons, ← singleton_append, tradesIn_append, ih,
        ← tradesIn_append]
      rfl
    · have quote : event.type = .kBBOUpdate := by simpa [isClient] using client
      have silent : tradesIn symbolCount [event.stamp requestSeq] = [] := by simp [tradesIn, ExchangeEvent.stamp, quote]
      rw [filter_cons_of_neg client, ih, map_cons, ← singleton_append, tradesIn_append, silent,
        nil_append]

theorem ExchangeCore.Responded.trades {accepted rejected : EventType} {qty : Nat} {ack : ExchangeEvent}
    (responded : Responded core core' accepted rejected taker qty fills ack) (drained : core.events = [])
    (notFill : accepted ≠ .kFill ∧ rejected ≠ .kFill) (served : fills ≠ [] → serves symbolCount taker.symbolId = true)
    (requestSeq : Nat) : tradesIn symbolCount (core'.events.map (·.stamp requestSeq)) =
      fills.flatMap (reports symbolCount taker core.reverseIdMap.content) := by
  have silent : tradesIn symbolCount [ack.stamp requestSeq] = [] := by
    rcases responded.responds.answers.type with type | type
    · simp [tradesIn, ExchangeEvent.stamp, type, notFill.1]
    · simp [tradesIn, ExchangeEvent.stamp, type, notFill.2]
  rw [← tradesIn_client, responded.client drained, map_cons, ← singleton_append, tradesIn_append, silent,
    nil_append, tradesIn_fillEvents served]

/-! ### The publisher -/

theorem MarketDataPublisher.consume_trades (pub : MarketDataPublisher) (event : QueuedEvent) (ts : Int) :
    (pub.consume symbolCount event ts).trades = pub.trades ++ tradesIn symbolCount [event] := by
  unfold consume
  split
  · rename_i unserved
    have silent : serves symbolCount event.symbolId = false := by
      rw [serves, ← Bool.not_eq_true, Bool.and_eq_true, decide_eq_true_eq, decide_eq_true_eq]
      omega
    simp [tradesIn, silent]
  · rename_i served
    have published : serves symbolCount event.symbolId = true := by
      rw [serves, Bool.and_eq_true, decide_eq_true_eq, decide_eq_true_eq]
      omega
    split
    · rename_i fill
      simp [publishTrade, sendDatagram, trades, tradesIn, fill, published]
    · rename_i quote
      simp [publishUpdate, sendDatagram, trades, tradesIn, quote]
    · rename_i notFill _
      have silent : event.type ≠ .kFill := notFill
      simp [tradesIn, silent]

/-! ### Runs -/

variable {numGateways : Nat} {m m' : Market maxSymbols}

/-- So far `doubled` fills had a maker that was mapped. -/
structure Reported (symbolCount doubled : Nat) (m : Market maxSymbols) : Prop where
  usable : Usable m.engine.core
  drained : m.engine.core.events = []
  served : ∀ i, (m.engine.core.symbols i).active = true → i < symbolCount
  count : m.publisher.trades.length + (tradesIn symbolCount m.engine.mdEventQueue.items).length =
    m.fills.length + doubled
  exact : doubled = 0 → m.publisher.trades ++ tradesIn symbolCount m.engine.mdEventQueue.items = m.fills

variable {doubled : Nat}

theorem Reported.responded {core : ExchangeCore maxSymbols} {accepted rejected : EventType} {qty requestSeq : Nat}
    {ack : ExchangeEvent} (reported : Reported symbolCount doubled m)
    (responded : Responded m.engine.core core accepted rejected taker qty fills ack)
    (notFill : accepted ≠ .kFill ∧ rejected ≠ .kFill)
    (known : m.engine.core.symbolIndex taker.symbolId = none → fills = [])
    (kept : (({ m.engine with core } : Engine maxSymbols).drainAndDispatch requestSeq).drops = 0) :
    Reported symbolCount (doubled + fills.countP (Market.makerMapped symbolCount m.engine.core)) { m with
      engine := ({ m.engine with core } : Engine maxSymbols).drainAndDispatch requestSeq,
      fills := m.fills ++ fills.map (tradeOf taker.symbolId taker.side) } := by
  have served : fills ≠ [] → serves symbolCount taker.symbolId = true := by
    intro some_fills
    obtain ⟨idx, found⟩ := ne_none_iff_exists'.mp fun none => some_fills (known none)
    obtain ⟨here, _, active⟩ := symbolIndex_eq_some found
    have bound := reported.served idx active
    rw [serves, Bool.and_eq_true, decide_eq_true_eq, decide_eq_true_eq]
    omega
  have delivered := Engine.foldl_dispatch_delivered kept
  have trades := responded.trades reported.drained notFill served requestSeq
  unfold Engine.drainAndDispatch at kept ⊢
  dsimp only [drainEvents] at delivered kept ⊢
  generalize foldl Engine.dispatch _ _ = engine at delivered kept ⊢
  have queue : tradesIn symbolCount engine.mdEventQueue.items = tradesIn symbolCount m.engine.mdEventQueue.items ++
      fills.flatMap (reports symbolCount taker m.engine.core.reverseIdMap.content) := by
    rw [delivered.market.items, tradesIn_append, tradesIn_market, trades]
  refine ⟨?_, ?_, ?_, ?_, ?_⟩
  · rw [delivered.frame]
    exact ⟨{ responded.usable.maps with }, responded.usable.books⟩
  · rw [delivered.frame]
  · intro i active
    rw [delivered.frame] at active
    exact reported.served i ((responded.registered i).symm.trans active)
  · have count := reported.count
    rw [queue, length_append, length_reports, length_append, length_map]
    dsimp only
    omega
  · intro none
    have before := reported.exact (by omega)
    rw [queue, reports_unmapped (by omega), ← append_assoc, before]

/-- How many fills of a step have a maker in the second map. -/
def Market.doubles (numGateways symbolCount : Nat) (m : Market maxSymbols) : MarketOp → Nat
  | .process req => (requestFills numGateways m.engine.core req).countP (makerMapped symbolCount m.engine.core)
  | _ => 0

theorem Market.doubles_eq_zero {op : MarketOp} : m.doubles numGateways symbolCount op = 0 ↔
    m.ReportsOnce numGateways symbolCount op := by
  cases op with
  | process req => simp [doubles, ReportsOnce, countP_eq_zero]
  | _ => exact iff_of_true rfl trivial

theorem Reported.process {req : OrderRequest} (inv : m.engine.drops = 0 → Reported symbolCount doubled m)
    (stepped : m.step numGateways symbolCount (.process req) = some m') (kept : m'.engine.drops = 0) :
    Reported symbolCount (doubled + m.doubles numGateways symbolCount (.process req)) m' := by
  obtain ⟨engine, processed, same⟩ := bind_eq_some_iff.mp stepped
  cases same
  dsimp only [Market.doubles]
  have quiet : ∀ {core : ExchangeCore maxSymbols} {engine : Engine maxSymbols}, m.engine.drops = 0 →
      (Usable m.engine.core → Quiet m.engine.core core) → engine.core = core →
        engine.mdEventQueue = m.engine.mdEventQueue →
      Reported symbolCount doubled { m with engine } := by
    intro core engine before effect here queue
    have reported := inv before
    have quiet := effect reported.usable
    subst here
    refine ⟨quiet.usable, quiet.events.trans reported.drained, ?_, ?_, ?_⟩
    · exact fun i active => reported.served i ((quiet.registered i).symm.trans active)
    · exact queue ▸ reported.count
    · exact queue ▸ reported.exact
  rcases Engine.processRequest_processed processed with ⟨unconfigured, rfl⟩ | ⟨configured, effect⟩
  · rw [requestFills, if_pos unconfigured, map_nil, append_nil]
    exact inv kept
  simp only [requestFills, if_neg configured]
  cases effect with
  | connected type connected =>
    simp only [type, map_nil, append_nil]
    exact quiet kept (fun usable => onClientConnect_quiet usable connected) rfl rfl
  | rolledBack _ _ _ lost =>
    rw [lost] at kept
    cases kept
  | disconnected type ended =>
    simp only [type, map_nil, append_nil]
    exact quiet kept (fun usable => onClientDisconnect_quiet usable ended) rfl rfl
  | ordered called =>
    have reported := inv (Engine.foldl_dispatch_delivered kept).drops
    rcases called with ⟨type, submitted⟩ | ⟨type, cancelled⟩ | ⟨type, modified⟩
    · obtain ⟨ack, responded⟩ := submitOrder_responded reported.usable submitted
      simp only [type, requestSide]
      exact reported.responded responded (by simp) (fun none => submitFills_of_stopped (.inr (.inl none))) kept
    · obtain ⟨ack, responded⟩ := cancelOrder_responded reported.usable cancelled
      simpa [type] using reported.responded responded (by simp) (fun _ => rfl) kept
    · obtain ⟨ack, responded⟩ := modifyOrder_responded reported.usable modified
      simp only [type, requestSide]
      exact reported.responded responded (by simp)
        (fun none => modifyFills_of_stopped reported.usable.maps (.inr (.inl none))) kept

theorem MarketDataPublisher.publishTick_trades {pub : MarketDataPublisher} {symbolId bidQty askQty : Nat}
    {bidPrice askPrice now : Int} : (pub.publishTick symbolId bidPrice bidQty askPrice askQty now).trades =
    pub.trades := by
  simp [publishTick, sendDatagram, trades]

theorem Reported.step {op : MarketOp} (inv : m.engine.drops = 0 → Reported symbolCount doubled m)
    (stepped : m.step numGateways symbolCount op = some m') (kept : m'.engine.drops = 0) :
    Reported symbolCount (doubled + m.doubles numGateways symbolCount op) m' := by
  cases op with
  | process req => exact Reported.process inv stepped kept
  | popResponse gw =>
    cases popped : (m.engine.responseQueues gw).tryPop with
    | none =>
      simp only [Market.step, popped] at stepped
      cases stepped
      exact inv kept
    | some found =>
      simp only [Market.step, popped] at stepped
      cases stepped
      have reported := inv kept
      exact { reported with }
  | poll ts =>
    cases popped : m.engine.mdEventQueue.tryPop with
    | none =>
      simp only [Market.step, popped] at stepped
      cases stepped
      exact inv kept
    | some found =>
      obtain ⟨event, queue⟩ := found
      simp only [Market.step, popped] at stepped
      cases stepped
      obtain ⟨items, _⟩ := FixedSPSCQueue.tryPop_eq_some popped
      have reported := inv kept
      have split : tradesIn symbolCount m.engine.mdEventQueue.items =
          tradesIn symbolCount [event] ++ tradesIn symbolCount queue.items := by
        rw [items, ← singleton_append, tradesIn_append]
      have consumed : (m.publisher.consume symbolCount event ts).trades = _ := m.publisher.consume_trades event ts
      refine { reported with count := ?_, exact := fun none => ?_ }
      · have count := reported.count
        rw [split, length_append] at count
        rw [consumed, length_append]
        exact (Nat.add_assoc _ _ _).trans count
      · rw [consumed, append_assoc, ← split]
        exact reported.exact none
  | tick symbolId bidPrice bidQty askPrice askQty now =>
    cases stepped
    have reported := inv kept
    refine { reported with count := ?_, exact := ?_ }
    · rw [MarketDataPublisher.publishTick_trades]
      exact reported.count
    · rw [MarketDataPublisher.publishTick_trades]
      exact reported.exact

/-- The number of doubled fills grows with each step that does not report once. -/
theorem Reported.run {ops : List MarketOp} (inv : m.engine.drops = 0 → Reported symbolCount doubled m)
    (ran : Market.run numGateways symbolCount ops m = some m') (kept : m'.engine.drops = 0) :
    ∃ total, Reported symbolCount total m' ∧ doubled ≤ total ∧
      (total = doubled ↔ Market.Along numGateways symbolCount (Market.ReportsOnce numGateways symbolCount) ops m) := by
  induction ops generalizing m doubled with
  | nil =>
    cases ran
    exact ⟨doubled, inv kept, le_rfl, iff_of_true rfl trivial⟩
  | cons op ops ih =>
    obtain ⟨m₁, stepped, ran⟩ := bind_eq_some_iff.mp ran
    obtain ⟨total, reported, grown, rest⟩ := ih (fun kept => Reported.step inv stepped kept) ran
    refine ⟨total, reported, by omega, ?_⟩
    have along : Market.Along numGateways symbolCount (Market.ReportsOnce numGateways symbolCount) (op :: ops) m ↔
        m.doubles numGateways symbolCount op = 0 ∧
          Market.Along numGateways symbolCount (Market.ReportsOnce numGateways symbolCount) ops m₁ := by
      rw [Market.doubles_eq_zero]
      exact and_congr_right fun _ =>
        ⟨fun all => all m₁ stepped, fun one m₂ again => mem_unique stepped again ▸ one⟩
    rw [along, ← rest]
    omega

theorem registerAll_served {symbols : List (Nat × Params)} {core core' : ExchangeCore maxSymbols}
    (registered : registerAll symbols core = some core') (few : ∀ symbol ∈ symbols, symbol.1 ≤ symbolCount)
    (served : ∀ i, (core.symbols i).active = true → i < symbolCount) :
    ∀ i, (core'.symbols i).active = true → i < symbolCount := by
  induction symbols generalizing core with
  | nil =>
    cases registered
    exact served
  | cons symbol symbols ih =>
    obtain ⟨core₁, first, later⟩ := bind_eq_some_iff.mp registered
    refine ih later (fun other member => few other (mem_cons_of_mem _ member)) ?_
    have bound := few symbol mem_cons_self
    unfold registerSymbol at first
    split at first
    · cases first
    rename_i valid
    obtain ⟨engine, _, first⟩ := bind_eq_some_iff.mp first
    cases first
    intro i active
    by_cases here : i = symbol.1 - 1
    · omega
    · dsimp only at active
      rw [update_of_ne here] at active
      exact served i active

theorem Market.Corresponds.length_eq (corresponds : m.Corresponds) : m.publisher.trades.length = m.fills.length := by
  refine Perm.length_eq (perm_iff_count.mpr fun trade => ?_)
  have same := congrArg (List.count trade) (corresponds trade.symbolId)
  rwa [count_filter (by simp), count_filter (by simp)] at same

/-- When the publisher has emptied the queue and no push failed, the trades of each symbol are its fills exactly if no
fill had a maker in the second map. -/
theorem run_corresponds {symbols : List (Nat × Params)} {core : ExchangeCore maxSymbols} {ops : List MarketOp}
    (registered : registerAll symbols {} = some core) (few : ∀ symbol ∈ symbols, symbol.1 ≤ symbolCount)
    (ran : Market.run numGateways symbolCount ops { engine := { core } } = some m) (kept : m.engine.drops = 0)
    (polled : m.engine.mdEventQueue.items = []) :
    m.Corresponds ↔
      Market.Along numGateways symbolCount (Market.ReportsOnce numGateways symbolCount) ops { engine := { core } } := by
  have fresh := fresh_initial.registerAll registered
  have start : Reported symbolCount 0 ({ engine := { core } } : Market maxSymbols) := by
    refine ⟨fresh.usable, fresh.drained, registerAll_served registered few ?_, rfl, fun _ => rfl⟩
    intro i active
    cases active
  obtain ⟨total, reported, _, once⟩ := Reported.run (fun _ => start) ran kept
  have silent : tradesIn symbolCount m.engine.mdEventQueue.items = [] := by rw [polled]; rfl
  rw [← once]
  constructor
  · intro corresponds
    have count := reported.count
    rw [silent, corresponds.length_eq] at count
    exact Nat.add_left_cancel count.symm
  · intro none symbolId
    have exact := reported.exact none
    rw [silent, append_nil] at exact
    rw [exact]

/-- The client of gateway 1 takes the offer: its fill is published with the side of the taker and again with the
side of the maker. -/
def tradeOps : List MarketOp := [
  .process { type := .kClientConnect, gatewayId := 0 }, .process { type := .kClientConnect, gatewayId := 1 },
  .process (firstOrder 0 1 .kAsk), .process (firstOrder 1 2 .kBid), .poll 10, .poll 10, .poll 10, .poll 10]

theorem run_corresponds_trade : registerAll [(1, tinyParams)] {} = some tinyCore ∧
    (∀ symbol ∈ [(1, tinyParams)], symbol.1 ≤ 1) ∧
    ∃ m, Market.run 2 1 tradeOps { engine := { core := tinyCore } } = some m ∧ m.engine.drops = 0 ∧
      m.engine.mdEventQueue.items = [] ∧ m.fills = [⟨1, .kBid, 100, 5⟩] ∧
      (m.Corresponds ↔ Market.Along 2 1 (Market.ReportsOnce 2 1) tradeOps { engine := { core := tinyCore } }) := by
  have few : ∀ symbol ∈ [(1, tinyParams)], symbol.1 ≤ 1 := by decide
  obtain ⟨m, ran, kept, polled, fills⟩ : ∃ m, Market.run 2 1 tradeOps { engine := { core := tinyCore } } = some m ∧
      m.engine.drops = 0 ∧ m.engine.mdEventQueue.items = [] ∧ m.fills = [⟨1, .kBid, 100, 5⟩] := by decide +kernel
  exact ⟨registerAll_tinyCore, few, m, ran, kept, polled, fills,
    run_corresponds registerAll_tinyCore few ran kept polled⟩

theorem run_not_corresponds : ∃ m, registerAll [(1, tinyParams)] {} = some tinyCore ∧
    Market.run 2 1 tradeOps { engine := { core := tinyCore } } = some m ∧ m.engine.drops = 0 ∧
    m.engine.mdEventQueue.items = [] ∧ m.fills = [⟨1, .kBid, 100, 5⟩] ∧
    m.publisher.trades = [⟨1, .kBid, 100, 5⟩, ⟨1, .kAsk, 100, 5⟩] ∧ ¬ m.Corresponds := by
  obtain ⟨m, ran, kept, polled, fills, trades⟩ : ∃ m, Market.run 2 1 tradeOps { engine := { core := tinyCore } } =
      some m ∧ m.engine.drops = 0 ∧ m.engine.mdEventQueue.items = [] ∧ m.fills = [⟨1, .kBid, 100, 5⟩] ∧
      m.publisher.trades = [⟨1, .kBid, 100, 5⟩, ⟨1, .kAsk, 100, 5⟩] := by decide +kernel
  refine ⟨m, registerAll_tinyCore, ran, kept, polled, fills, trades, ?_⟩
  intro corresponds
  have one := corresponds 1
  rw [fills, trades] at one
  exact absurd one (by decide)

end TickToTrade.Exchange
