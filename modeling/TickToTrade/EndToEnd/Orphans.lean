import TickToTrade.EndToEnd.Agreement

/-!
No order is orphaned while the system is careful: whenever nothing is in flight, the order manager
tracks every order that its session has in a book.
-/

namespace TickToTrade.EndToEnd
open Algo Ds Exchange ExchangeCore Oms OrderManager Sys List Option
open GatewayProcess (Received handleMessage pushSend)
open FixedSPSCQueue (Appended tryPop_eq_some tryPush_cases)

variable {maxSymbols : Nat} {cfg : Config} {s : UInt16}

/-- The answer to a throttled request ends the order of that request, if it ends any. -/
theorem throttleReject_drops {msg : Request} {seq gw id : Nat} {req : OrderRequest} {answer : ExchangeMessage}
    (parsed : parseFrameToRequest (clientMessage msg) s seq gw = some req)
    (serialized : serializeOneEvent (throttleReject s req) = some answer) (drops : id ∈ (onTcpMessage answer).drops) :
    (requestOp s msg).key = some (s, id) := by
  obtain ⟨final, client⟩ := serializeOneEvent_drops serialized drops
  cases msg with
  | newOrder order =>
    cases parsed
    exact congrArg (fun id => some (s, id)) client
  | modifyOrder modify =>
    cases parsed
    cases final
  | cancelOrder cancel =>
    cases parsed
    exact congrArg (fun id => some (s, id)) client

inductive Handled (s : UInt16) (g : GatewayProcess) (queue : PushedQueue) (msg : Request) : Received → Prop
  | passed {out : Received} {req : PushedRequest} (op : req.op = requestOp s msg)
      (pushed : Appended queue out.queue [req]) (recv : out.process.recv = g.recv)
      (sendQueue : out.process.sendQueue = g.sendQueue) : Handled s g queue msg out
  | throttled {out : Received} {event : ExchangeEvent} (full : queue.items.length = kExchangeQueueCapacity)
      (unchanged : out.queue = queue) (recv : out.process.recv = g.recv)
      (answered : Appended g.sendQueue out.process.sendQueue [.reject event])
      (drops : ∀ answer, serializeOneEvent event = some answer → ∀ id ∈ (onTcpMessage answer).drops,
        (requestOp s msg).key = some (s, id)) : Handled s g queue msg out
  | ended {out : Received} (leaving : out.process.recv = .leaving) : Handled s g queue msg out

theorem handleMessage_handled (known : s ≠ 0) (g : GatewayProcess) (queue : PushedQueue) (msg : Request) :
    Handled s g queue msg (g.handleMessage 0 queue s (clientMessage msg)) := by
  have parsed : ∃ req : OrderRequest, parseFrameToRequest (clientMessage msg) s g.nextSeq g.gatewayId = some req ∧
      req.op = requestOp s msg := by
    cases msg <;> exact ⟨_, rfl, rfl⟩
  obtain ⟨req, parsed, op⟩ := parsed
  have handled : g.handleMessage 0 queue s (clientMessage msg) =
      if (queue.tryPush { req with process := 0 }).1 then ⟨g.bumpSeq, (queue.tryPush { req with process := 0 }).2, 0⟩
      else g.bumpSeq.pushSend (queue.tryPush { req with process := 0 }).2 1 (.reject (throttleReject s req)) := by
    unfold handleMessage
    cases msg <;> simp only [clientMessage, if_neg known] at parsed ⊢ <;> rw [parsed]
  rw [handled]
  rcases tryPush_cases queue { req with process := 0 } with ⟨full, refused⟩ | ⟨_, accepted, appended⟩
  · rw [refused, if_neg Bool.false_ne_true]
    unfold pushSend
    rcases tryPush_cases g.bumpSeq.sendQueue (.reject (throttleReject s req)) with
      ⟨_, dropped⟩ | ⟨_, kept, answered⟩
    · simp only [dropped, Bool.false_eq_true, if_false]
      exact .ended rfl
    · simp only [kept, if_true]
      exact .throttled full rfl rfl answered fun answer serialized id drops =>
        throttleReject_drops parsed serialized drops
  · rw [if_pos accepted]
    exact .passed op appended rfl rfl

namespace OrderFlow

variable {f f' : OrderFlow maxSymbols}

def audited (f : OrderFlow maxSymbols) : Audited maxSymbols where
  core := f.core
  owner := f.owner

def upstream (f : OrderFlow maxSymbols) : List Exchange.Op :=
  f.requestQueue.items.map (fun req => req.op) ++ f.uplink.map (requestOp f.sessionId)

def Downstream (f : OrderFlow maxSymbols) (msg : ExchangeMessage) : Prop :=
  (∃ event ∈ f.responses, serializeOneEvent event = some msg) ∨
    (∃ event, .reject event ∈ f.gateway.sendQueue.items ∧ serializeOneEvent event = some msg) ∨ msg ∈ f.downlink

def Agrees (cfg : Config) (f : OrderFlow maxSymbols) : Prop :=
  f.Connected → ∃ symbolOf, Agreed cfg f.sessionId symbolOf f.om f.audited f.upstream f.Downstream

/-- Ids do not run out; no cancel is throttled; a call of the order manager does not clear the map under a tracked
order; the id maps have room. -/
def Careful (f : OrderFlow maxSymbols) : FlowOp → Prop
  | .signal _ _ _ => f.om.nextOrderId + 1 < 2 ^ 64
  | .advanceTimeouts nowNs => f.om.SparesOthers (.advanceTimeouts nowNs)
  | .frame =>
    match f.uplink with
    | .cancelOrder _ :: _ => f.requestQueue.items.length ≠ kExchangeQueueCapacity
    | _ => True
  | .request => ∀ req ∈ f.requestQueue.items.head?, IdRoom f.core req.op
  | .other op => IdRoom f.core op
  | .receive => ∀ msg ∈ f.downlink.head?, f.om.SparesOthers (onTcpMessage msg)
  | .modify _ _ | .triggerKillSwitch _ | .response | .pending => True

instance (f : OrderFlow maxSymbols) : DecidablePred f.Careful
  | .signal _ _ _ => inferInstanceAs (Decidable (_ < _))
  | .advanceTimeouts nowNs => inferInstanceAs (Decidable (f.om.SparesOthers (.advanceTimeouts nowNs)))
  | .frame =>
    match head : f.uplink with
    | .cancelOrder _ :: _ =>
      decidable_of_iff (f.requestQueue.items.length ≠ kExchangeQueueCapacity) (by simp [Careful, head])
    | .newOrder _ :: _ | .modifyOrder _ :: _ | [] => isTrue (by simp [Careful, head])
  | .request => inferInstanceAs (Decidable (∀ req ∈ f.requestQueue.items.head?, IdRoom f.core req.op))
  | .other op => inferInstanceAs (Decidable (IdRoom f.core op))
  | .receive => inferInstanceAs (Decidable (∀ msg ∈ f.downlink.head?, f.om.SparesOthers (onTcpMessage msg)))
  | .modify _ _ | .triggerKillSwitch _ | .response | .pending => isTrue trivial

/-! ### Steps -/

theorem call_eq_some {op : Oms.Op} (called : f.call cfg op = some f') :
    ∃ sent om, f.om.apply cfg op = some (sent, om) ∧ f' = { f with om, uplink := f.uplink ++ sent } := by
  obtain ⟨⟨sent, om⟩, applied, done⟩ := bind_eq_some_iff.mp called
  exact ⟨sent, om, applied, (some.inj done).symm⟩

theorem upstream_send (f : OrderFlow maxSymbols) (om : OrderManager) (sent : List Request) :
    ({ f with om, uplink := f.uplink ++ sent } : OrderFlow maxSymbols).upstream =
    f.upstream ++ sent.map (requestOp f.sessionId) := by
  simp [upstream]

theorem Agrees.call {op : Oms.Op} (agrees : f.Agrees cfg) (plain : ∀ signal now sendTs, op ≠ .signal signal now sendTs)
    (spares : f.om.SparesOthers op)
    (dropped : ∀ id ∈ op.drops, (∀ i, ¬ f.audited.HasOrder (f.sessionId, id) i) ∧ ¬ Submits f.sessionId f.upstream id)
    (called : f.call cfg op = some f') : f'.Agrees cfg := by
  obtain ⟨sent, om, applied, rfl⟩ := call_eq_some called
  intro connected
  obtain ⟨symbolOf, agreed⟩ := agrees connected
  refine ⟨symbolOf, ?_⟩
  rw [upstream_send]
  exact agreed.send (apply_effect agreed.ok applied).1 (apply_sending agreed.ok plain spares applied) dropped

theorem Agrees.signal {signal : Signal} {now sendTs : Int} (agrees : f.Agrees cfg)
    (room : f.om.nextOrderId + 1 < 2 ^ 64)
    (called : f.call cfg (.signal signal now sendTs) = some f') : f'.Agrees cfg := by
  obtain ⟨sent, om, applied, rfl⟩ := call_eq_some called
  intro connected
  obtain ⟨symbolOf, agreed⟩ := agrees connected
  obtain ⟨⟨generated, out, om₁⟩, done, applied⟩ := bind_eq_some_iff.mp applied
  obtain ⟨rfl, rfl⟩ := Prod.mk.inj (some.inj applied)
  have numbered := onSignal_numbered done
  rw [Numbered, Nat.mod_eq_of_lt room] at numbered
  rw [upstream_send]
  rcases onSignal_spec agreed.ok done with ⟨rfl, kept⟩ | ⟨rfl, placed⟩
  · refine ⟨symbolOf, ?_⟩
    have later : f.om.nextOrderId ≤ om₁.nextOrderId := by
      rcases numbered with ⟨_, same⟩ | ⟨next, _⟩ <;> omega
    simp only [Bool.false_eq_true, if_false, append_nil, map_nil]
    exact agreed.skip kept.ok later kept.tracking.outstanding
  · obtain ⟨impossible, _⟩ | ⟨next, id⟩ := numbered
    · cases impossible
    obtain ⟨info, symbol, _, inserted⟩ := placed.inserted
    have content := inserted.content_eq agreed.ok.map
    rw [id rfl] at content
    have symbols : info.symbolId = out.symbolId := by rw [symbol, placed.order]
    exact ⟨_, agreed.order placed.ok (id rfl) next symbols content⟩

theorem serve_agrees {op : Exchange.Op} {up : List Exchange.Op}
    (agrees : f.Connected → ∃ symbolOf, Agreed cfg f.sessionId symbolOf f.om f.audited up f.Downstream)
    (room : IdRoom f.core op) (head : up = op :: f.upstream ∨ (up = f.upstream ∧ sessionOf op ≠ some f.sessionId))
    (served : f.serve op = some f') : f'.Agrees cfg := by
  obtain ⟨core, applied, done⟩ := bind_eq_some_iff.mp served
  cases done
  intro connected
  obtain ⟨symbolOf, agreed⟩ := agrees connected
  have stepped : ∃ a', f.audited.step op = some a' ∧ a'.core = core.drainEvents.2 ∧
      a'.owner = fun x => if core.inBooks x && !f.core.inBooks x then op.request else f.owner x := by
    unfold Audited.step
    rw [show f.audited.core.apply op = some core from applied]
    exact ⟨_, rfl, rfl, rfl⟩
  obtain ⟨a', stepped, sameCore, sameOwner⟩ := stepped
  refine ⟨symbolOf, (agreed.serve room applied stepped head ?_).of_same sameCore.symm sameOwner.symm⟩
  rintro msg (⟨event, member, serialized⟩ | later)
  · rcases mem_append.mp member with old | new
    · exact .inl (.inl ⟨event, old, serialized⟩)
    · obtain ⟨emitted, mine⟩ := mem_filter.mp new
      exact .inr ⟨event, emitted, of_decide_eq_true mine, serialized⟩
  · exact .inl (.inr later)

theorem frame_agreed {msg : Request} {uplink : List Request} {out : Received} {symbolOf : Nat → Nat}
    (agreed : Agreed cfg f.sessionId symbolOf f.om f.audited f.upstream f.Downstream) (first : f.uplink = msg :: uplink)
    (careful : f.Careful .frame) (handled : Handled f.sessionId f.gateway f.requestQueue msg out)
    (stays : out.process.recv ≠ .leaving) :
    Agreed cfg f.sessionId symbolOf f.om f.audited ({ f with uplink }.received out).upstream
      ({ f with uplink }.received out).Downstream := by
  cases handled with
  | passed op pushed recv sendQueue =>
    have same : ({ f with uplink }.received out).upstream = f.upstream := by
      simp [upstream, received, pushed.items, first, op]
    rw [same]
    refine agreed.mono fun msg down => ?_
    simpa [Downstream, received, sendQueue] using down
  | throttled full unchanged recv answered drops =>
    have here : f.upstream = f.requestQueue.items.map (fun req => req.op) ++ requestOp f.sessionId msg ::
        uplink.map (requestOp f.sessionId) := by
      rw [upstream, first, map_cons]
    rw [here] at agreed
    have same : ({ f with uplink }.received out).upstream =
        f.requestQueue.items.map (fun req => req.op) ++ uplink.map (requestOp f.sessionId) := by
      simp [upstream, received, unchanged]
    rw [same]
    refine agreed.throttle ?_ ?_
    · intro cancel isCancel
      cases msg with
      | newOrder order => cases isCancel
      | modifyOrder modify => cases isCancel
      | cancelOrder cancel =>
        simp only [Careful, first] at careful
        exact careful full
    · rintro answer (old | ⟨event, member, serialized⟩ | old)
      · exact .inl (.inl old)
      · have items := answered.items
        change _ ∈ out.process.sendQueue.items at member
        rw [items] at member
        rcases mem_append.mp member with old | new
        · exact .inl (.inr (.inl ⟨event, old, serialized⟩))
        · obtain rfl := PendingSend.reject.inj (mem_singleton.mp new)
          exact .inr (drops answer serialized)
      · exact .inl (.inr (.inr old))
  | ended leaving => exact absurd leaving stays

theorem Agrees.frame (agrees : f.Agrees cfg) (careful : f.Careful .frame) (stepped : f.step cfg .frame = some f') :
    f'.Agrees cfg := by
  dsimp only [OrderFlow.step] at stepped
  split at stepped
  · cases stepped
    exact agrees
  rename_i msg uplink first
  split at stepped
  · rename_i serving
    obtain ⟨symbolOf, agreed⟩ := agrees serving
    cases stepped
    intro connected
    have agreed' := frame_agreed agreed first careful (handleMessage_handled agreed.session _ _ msg) ?_
    · exact ⟨symbolOf, agreed'⟩
    · intro leaving
      exact nomatch leaving.symm.trans connected
  · cases stepped
    exact agrees

theorem Agrees.request (agrees : f.Agrees cfg) (careful : f.Careful .request)
    (stepped : f.step cfg .request = some f') : f'.Agrees cfg := by
  dsimp only [OrderFlow.step] at stepped
  split at stepped
  · cases stepped
    exact agrees
  rename_i req requestQueue popped
  obtain ⟨items, _⟩ := tryPop_eq_some popped
  have room : IdRoom f.core req.op := careful req (by rw [items]; rfl)
  have head : f.upstream = req.op :: ({ f with requestQueue } : OrderFlow maxSymbols).upstream := by
    simp [upstream, items]
  exact serve_agrees (f := { f with requestQueue }) agrees room (.inl head) stepped

theorem Agrees.response (agrees : f.Agrees cfg) (stepped : f.step cfg .response = some f') : f'.Agrees cfg := by
  dsimp only [OrderFlow.step] at stepped
  split at stepped
  · cases stepped
    exact agrees
  rename_i event responses first
  cases stepped
  intro connected
  obtain ⟨symbolOf, agreed⟩ := agrees connected
  refine ⟨symbolOf, agreed.mono ?_⟩
  rintro msg (⟨other, member, serialized⟩ | pending | member)
  · exact .inl ⟨other, first ▸ mem_cons_of_mem _ member, serialized⟩
  · exact .inr (.inl pending)
  · rcases mem_append.mp member with old | new
    · exact .inr (.inr old)
    · exact .inl ⟨event, first ▸ mem_cons_self, mem_toList.mp new⟩

theorem Agrees.pending (agrees : f.Agrees cfg) (stepped : f.step cfg .pending = some f') : f'.Agrees cfg := by
  dsimp only [OrderFlow.step] at stepped
  split at stepped
  · cases stepped
    exact agrees
  rename_i pending sendQueue popped
  obtain ⟨items, _⟩ := tryPop_eq_some popped
  cases pending with
  | heartbeatAck =>
    cases stepped
    intro connected
    obtain ⟨symbolOf, agreed⟩ := agrees connected
    refine ⟨symbolOf, agreed.mono ?_⟩
    rintro msg (old | ⟨event, member, serialized⟩ | old)
    · exact .inl old
    · exact .inr (.inl ⟨event, items ▸ mem_cons_of_mem _ member, serialized⟩)
    · exact .inr (.inr old)
  | reject event =>
    cases stepped
    intro connected
    obtain ⟨symbolOf, agreed⟩ := agrees connected
    refine ⟨symbolOf, agreed.mono ?_⟩
    rintro msg (old | ⟨event, member, serialized⟩ | member)
    · exact .inl old
    · exact .inr (.inl ⟨event, items ▸ mem_cons_of_mem _ member, serialized⟩)
    · rcases mem_append.mp member with old | new
      · exact .inr (.inr old)
      · exact .inr (.inl ⟨event, items ▸ mem_cons_self, mem_toList.mp new⟩)

theorem Agrees.receive (agrees : f.Agrees cfg) (careful : f.Careful .receive)
    (stepped : f.step cfg .receive = some f') : f'.Agrees cfg := by
  dsimp only [OrderFlow.step] at stepped
  split at stepped
  · cases stepped
    exact agrees
  rename_i msg downlink first
  have spares : f.om.SparesOthers (onTcpMessage msg) := careful msg (by rw [first]; rfl)
  obtain ⟨sent, om, applied, rfl⟩ := call_eq_some stepped
  intro connected
  obtain ⟨symbolOf, agreed⟩ := agrees connected
  have taken : Agrees cfg ({ f with downlink } : OrderFlow maxSymbols) := by
    intro _
    refine ⟨symbolOf, agreed.mono ?_⟩
    rintro other (old | old | member)
    · exact .inl old
    · exact .inr (.inl old)
    · exact .inr (.inr (first ▸ mem_cons_of_mem _ member))
  refine taken.call ?_ spares ?_ stepped connected
  · cases msg <;> simp [onTcpMessage]
  · intro id drops
    exact (agreed.final msg (.inr (.inr (first ▸ mem_cons_self))) id drops).2

theorem Agrees.step {op : FlowOp} (agrees : f.Agrees cfg) (careful : f.Careful op) (stepped : f.step cfg op = some f') :
    f'.Agrees cfg := by
  have plainly : ∀ call : Oms.Op, (∀ signal now sendTs, call ≠ .signal signal now sendTs) → call.drops = none →
      f.om.SparesOthers call → f.call cfg call = some f' → f'.Agrees cfg := by
    intro call plain none spares called
    exact agrees.call plain spares (by simp [none]) called
  cases op with
  | signal signal now sendTs => exact agrees.signal careful stepped
  | modify signal sendTs => exact plainly (.modify signal sendTs) (by simp) rfl (fun _ none => by cases none) stepped
  | advanceTimeouts nowNs => exact plainly (.advanceTimeouts nowNs) (by simp) rfl careful stepped
  | triggerKillSwitch now => exact plainly (.triggerKillSwitch now) (by simp) rfl (fun _ none => by cases none) stepped
  | frame => exact agrees.frame careful stepped
  | request => exact agrees.request careful stepped
  | other op =>
    dsimp only [OrderFlow.step] at stepped
    split at stepped
    · cases stepped
      exact agrees
    · rename_i other
      exact serve_agrees agrees careful (.inr ⟨rfl, other⟩) stepped
  | response => exact agrees.response stepped
  | pending => exact agrees.pending stepped
  | receive => exact agrees.receive careful stepped

/-! ### Runs -/

theorem noOrphans_of_agreed {symbolOf : Nat → Nat}
    (agreed : Agreed cfg f.sessionId symbolOf f.om f.audited f.upstream f.Downstream)
    (quiet : f.Quiet) : f.NoOrphans := by
  intro x clientOrderId held owned
  obtain ⟨i, side, p, q, rests⟩ := (inBooks_iff x).mp held
  have nothing : f.upstream = [] := by
    obtain ⟨uplink, items, _⟩ := quiet
    simp [upstream, uplink, items]
  rcases agreed.covered clientOrderId (.inl ⟨i, x, side, p, q, owned, rests⟩) with tracked | ⟨cancel, member, _⟩
  · exact tracked
  · rw [nothing] at member
    cases member

theorem agrees_start {symbols : List (Nat × Params)} {core₀ core : ExchangeCore maxSymbols} {sessionId : UInt16}
    {om : OrderManager}
    (registered : registerAll symbols {} = some core₀) (connected : core₀.onClientConnect = some (sessionId, core))
    (created : create cfg = some om) :
    Agrees cfg ({ om, sessionId, core, gateway := connectedGateway sessionId } : OrderFlow maxSymbols) := by
  intro _
  obtain ⟨ok, untracked, _⟩ := create_ok created
  have fresh := (fresh_initial.registerAll registered).connect connected
  have nothing : ∀ key i, ¬ ({ core } : Audited maxSymbols).HasOrder key i :=
    fun key i ⟨x, side, p, q, _, rests⟩ => fresh.empty i side p x q rests
  refine ⟨fun _ => 0, (findSession_new connected).1, ok, fresh.sound, ?_, fun _ member => (nomatch member),
    fun _ member => (nomatch member), fun _ member => (nomatch member), List.Pairwise.nil,
      fun id i has => absurd has (nothing _ i), ?_, ?_⟩
  · intro id info found
    have member := ok.map.content_eq_some.mp found
    rw [untracked] at member
    cases member
  · rintro id (⟨i, has⟩ | ⟨_, member, _⟩)
    · exact absurd has (nothing _ i)
    · cases member
  · rintro msg (⟨_, member, _⟩ | ⟨_, member, _⟩ | member) <;> cases member

/-- In every careful run: when nothing is in flight and the client was not disconnected, no order is orphaned. -/
theorem run_noOrphans {symbols : List (Nat × Params)} {core₀ core : ExchangeCore maxSymbols} {sessionId : UInt16}
    {om : OrderManager} {ops : List FlowOp} (registered : registerAll symbols {} = some core₀)
    (assigned : core₀.onClientConnect = some (sessionId, core)) (created : create cfg = some om)
    (careful : Along cfg Careful ops { om, sessionId, core, gateway := connectedGateway sessionId })
    (ran : run cfg ops { om, sessionId, core, gateway := connectedGateway sessionId } = some f)
      (connected : f.Connected)
    (quiet : f.Quiet) : f.NoOrphans := by
  obtain ⟨symbolOf, agreed⟩ :=
    Transition.run_invariant Agrees.step (agrees_start registered assigned created) careful ran connected
  exact noOrphans_of_agreed agreed quiet

def tinySession : UInt16 × ExchangeCore 1 := tinyCore.onClientConnect.get (by decide)

theorem onClientConnect_tinySession : tinyCore.onClientConnect = some tinySession := (some_get _).symm

def tinyFlow : OrderFlow 1 where
  om := smallManager
  sessionId := tinySession.1
  core := tinySession.2
  gateway := connectedGateway tinySession.1

def lateOps : List FlowOp :=
  [.signal (buy 5) 0 0, .advanceTimeouts 3000000, .frame, .frame, .request, .request, .response, .response,
    .receive, .receive, .signal (buy 5) 3000000 3000000, .frame, .request, .response, .receive]

theorem run_noOrphans_late : ∃ f, Along smallConfig Careful lateOps tinyFlow ∧
    run smallConfig lateOps tinyFlow = some f ∧ f.Connected ∧ f.Quiet ∧ f.NoOrphans := by
  have careful : Along smallConfig Careful lateOps tinyFlow := by decide +kernel
  obtain ⟨f, ran, connected, quiet⟩ : ∃ f, run smallConfig lateOps tinyFlow = some f ∧ f.Connected ∧ f.Quiet := by
    decide +kernel
  exact ⟨f, careful, ran, connected, quiet,
    run_noOrphans registerAll_tinyCore onClientConnect_tinySession create_smallManager careful ran connected quiet⟩

/-- Orders 1 and 2 time out before anything is answered. The answer to the first cancel brings the count to zero, and
the map is cleared under order 3. -/
def clearedOps : List FlowOp :=
  [.signal (buy 5) 0 0, .advanceTimeouts 1000000, .signal (buy 5) 1000000 1000000, .advanceTimeouts 2000000,
    .signal (buy 5) 2000000 2000000, .advanceTimeouts 3000000] ++
    replicate 5 .frame ++ replicate 5 .request ++ replicate 5 .response ++ replicate 5 .receive

/-- Order 3 rests, nothing is in flight, and the order manager has forgotten it. -/
theorem run_orphan : registerAll [(1, tinyParams)] {} = some tinyCore ∧ tinyCore.onClientConnect = some tinySession ∧
    create smallConfig = some smallManager ∧
    ∃ f, run smallConfig clearedOps tinyFlow = some f ∧ f.Connected ∧ f.Quiet ∧ ¬ f.NoOrphans := by
  obtain ⟨f, ran, connected, quiet, held, owned, session, forgotten⟩ : ∃ f, run smallConfig clearedOps tinyFlow =
      some f ∧ f.Connected ∧ f.Quiet ∧ f.core.inBooks 3 = true ∧ f.owner 3 = some (1, 3) ∧ f.sessionId = 1 ∧
      (f.om.outstanding.content 3).isSome = false := by decide +kernel
  refine ⟨registerAll_tinyCore, onClientConnect_tinySession, create_smallManager, f, ran, connected, quiet,
    fun none => ?_⟩
  have tracked := none 3 3 held (by rw [session]; exact owned)
  rw [forgotten] at tracked
  cases tracked

end OrderFlow

end TickToTrade.EndToEnd
