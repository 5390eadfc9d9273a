import TickToTrade.Exchange.Tenancy

/-!
A client of a gateway hears of its own session and speaks for it alone, provided that every process
finds the slot clean when it claims it.
-/

namespace TickToTrade.Exchange
open Algo Ds Probing Sys ExchangeCore Deployment List Option Function
open Deployment (Along granted run)

variable {maxSymbols numGateways : Nat} {d d' : Deployment maxSymbols}
variable {g g' : GatewayProcess} {assigned : Option UInt16}

namespace Deployment

/-- What a process wrote to its client and asked of the engine is about the session that the engine gave the client. -/
def Confidential (d : Deployment maxSymbols) : Prop :=
  (∀ pid < d.started, ∀ event ∈ (d.processes pid).written, d.assigned pid = some event.sessionId) ∧
  ∀ gw, ∀ req ∈ (d.requestQueues gw).pushed, req.type ≠ .kClientConnect → d.assigned req.process = some req.sessionId

/-- A free slot is claimed with empty queues, and no order that the exchange can still report belongs to a session
routed to it. -/
def CleanClaim (d : Deployment maxSymbols) : DeploymentOp → Prop
  | .claim gw => d.claimed gw = false → (d.requestQueues gw).items = [] ∧ (d.engine.responseQueues gw).items = [] ∧
      ∀ entry ∈ d.engine.core.reverseIdMap.entries, d.engine.sessionToGateway entry.2.sessionId ≠ gw
  | _ => True

instance (d : Deployment maxSymbols) : DecidablePred d.CleanClaim
  | .claim _ => inferInstanceAs (Decidable (_ → _ ∧ _ ∧ _))
  | .signal _ | .recv _ _ | .send _ _ | .release _ | .poll _ | .popMarketData => isTrue trivial

end Deployment

/-! ### One process -/

/-- Everything a process knows of a session is about the one it was assigned. -/
structure Own (g : GatewayProcess) (assigned : Option UInt16) : Prop where
  session : g.session = 0 ∨ assigned = some g.session
  parsing : ∀ cur, g.recv = .parsing cur → cur = 0 ∨ assigned = some cur
  leaving : ∀ final, g.recv = .disconnecting final → final = 0 ∨ assigned = some final
  rejects : ∀ event, .reject event ∈ g.sendQueue.items → assigned = some event.sessionId
  written : ∀ event ∈ g.written, assigned = some event.sessionId

theorem Own.grant (own : Own g none) (sessionId : UInt16) : Own g (some sessionId) where
  session := .inl (own.session.resolve_right (by simp))
  parsing := fun cur here => .inl ((own.parsing cur here).resolve_right (by simp))
  leaving := fun final here => .inl ((own.leaving final here).resolve_right (by simp))
  rejects := fun event member => nomatch own.rejects event member
  written := fun event member => nomatch own.written event member

theorem Own.fresh (gw : Nat) : Own { gatewayId := gw } none where
  session := .inl rfl
  parsing := by simp
  leaving := by simp
  rejects := fun event member => nomatch member
  written := fun event member => nomatch member

variable {pid : Nat}

theorem Own.recv {failed : Nat} {pushed : List PushedRequest} (own : Own g assigned) (frame : RecvFrame g g')
    (outcome : RecvOutcome g pid g'.recv pushed failed) : Own g' assigned where
  session := frame.session ▸ own.session
  parsing := by
    intro cur here
    rcases outcome.parsing here with rfl | before
    · exact own.session
    · exact own.parsing cur before
  leaving := by
    intro final here
    obtain ⟨_, rfl⟩ := outcome.leaving here
    exact own.session
  rejects := by
    intro event member
    rcases frame.rejects event member with old | ⟨cur, here, known, mine⟩
    · exact own.rejects event old
    · exact mine ▸ (own.parsing cur here).resolve_left known
  written := frame.written ▸ own.written

theorem Own.send {queue queue' : EventQueue} (own : Own g assigned) (effect : SendEffect g g' queue queue')
    (mine : ∀ event ∈ queue.items, assigned = some event.sessionId) : Own g' assigned where
  session := by
    rcases effect.session with ⟨_, same⟩ | ⟨event, items, same⟩
    · exact same ▸ own.session
    · rw [same]
      split
      · exact .inr (mine event (by simp [items]))
      · exact own.session
  parsing := fun cur here => own.parsing cur (effect.recv ▸ here)
  leaving := fun final here => own.leaving final (effect.recv ▸ here)
  rejects := fun event member => own.rejects event (effect.rejects _ member)
  written := by
    intro event member
    rcases effect.written event member with old | ⟨queued, there, rfl⟩ | rejected
    · exact own.written event old
    · exact mine queued there
    · exact own.rejects event rejected

/-! ### The deployment -/

/-- The queues of a slot are about its last process. A connect waits alone, and nothing follows a disconnect. -/
structure SlotOk (d : Deployment maxSymbols) (gw : Nat) : Prop where
  requests : ∀ req ∈ (d.requestQueues gw).items, d.tenant gw = some req.process ∧ req.gatewayId = gw
  connects : ∀ req ∈ (d.requestQueues gw).items, req.type = .kClientConnect →
    d.assigned req.process = none ∧ (d.requestQueues gw).items = [req]
  ordered : (d.requestQueues gw).items.Pairwise fun earlier _ => earlier.type ≠ .kClientDisconnect
  ended : ∀ req ∈ (d.requestQueues gw).items, req.type = .kClientDisconnect →
    (d.processes req.process).recv.serving = false
  pushed : ∀ req ∈ (d.requestQueues gw).pushed, req.type ≠ .kClientConnect → d.assigned req.process = some req.sessionId
  routed : ∀ req ∈ (d.requestQueues gw).items, req.type ≠ .kClientConnect →
    d.engine.core.activeSessions req.sessionId = true ∧ d.engine.sessionToGateway req.sessionId = gw
  responses : ∀ event ∈ (d.engine.responseQueues gw).items, ∃ pid, d.tenant gw = some pid ∧
    d.assigned pid = some event.sessionId

structure ProcessOk (d : Deployment maxSymbols) (pid : Nat) : Prop where
  own : Own (d.processes pid) (d.assigned pid)
  early : (d.processes pid).recv.early = true →
    d.assigned pid = none ∧ (d.requestQueues (d.processes pid).gatewayId).items = []
  serving : (d.processes pid).recv.serving = true → ∀ sessionId, d.assigned pid = some sessionId →
    d.engine.core.activeSessions sessionId = true ∧ d.engine.sessionToGateway sessionId = (d.processes pid).gatewayId

structure Confined (d : Deployment maxSymbols) : Prop where
  usable : Usable d.engine.core
  drained : d.engine.core.events = []
  tenancy : Tenancy d
  future : ∀ pid, d.started ≤ pid → d.assigned pid = none
  processes : ∀ pid < d.started, ProcessOk d pid
  slots : ∀ gw, SlotOk d gw
  owners : ∀ x reverse, d.engine.core.reverseIdMap.content x = some reverse →
    ∃ pid, d.tenant (d.engine.sessionToGateway reverse.sessionId) = some pid ∧ d.assigned pid = some reverse.sessionId

/-! ### Steps of the recv thread -/

structure Pushes (d : Deployment maxSymbols) (pid : Nat) (next : RecvState) (req : PushedRequest) : Prop where
  process : req.process = pid
  gateway : req.gatewayId = (d.processes pid).gatewayId
  tenant : d.tenant (d.processes pid).gatewayId = some pid
  content : (req.type = .kClientConnect ∧ d.assigned pid = none ∧
    (d.requestQueues (d.processes pid).gatewayId).items = []) ∨
    (req.type ≠ .kClientConnect ∧ (d.processes pid).recv.serving = true ∧ d.assigned pid = some req.sessionId ∧
      (req.type = .kClientDisconnect → next.serving = false))

theorem ProcessOk.pushes {failed : Nat} {next : RecvState} {pushed : List PushedRequest} (ok : ProcessOk d pid)
    (tenancy : Tenancy d) (known : pid < d.started) (outcome : RecvOutcome (d.processes pid) pid next pushed failed) :
    pushed = [] ∨ ∃ req, pushed = [req] ∧ Pushes d pid next req := by
  rcases outcome.pushed_cases with
    none_pushed | ⟨req, rfl, process, gateway, ⟨connect, early⟩ | ⟨other, serving, nonzero, read, past⟩⟩
  · exact .inl none_pushed
  · exact .inr ⟨req, rfl, process, gateway, (tenancy.acting known (.inl early)).1, .inl ⟨connect, ok.early early⟩⟩
  · have assigned : d.assigned pid = some req.sessionId := by
      rcases read with parsing | leaving
      · exact (ok.own.parsing _ parsing).resolve_left nonzero
      · exact (ok.own.leaving _ leaving).resolve_left nonzero
    exact .inr ⟨req, rfl, process, gateway, (tenancy.acting known (.inr serving)).1,
      .inr ⟨other, serving, assigned, past⟩⟩

variable {gw : Nat} {req : PushedRequest}

section Recv

variable {pid : Nat} {out : GatewayProcess.Received} {pushed : List PushedRequest}

section

variable (effect : d.Receives pid out pushed) (tenancy : Tenancy d) (ok : ProcessOk d pid)
include effect tenancy ok

theorem RecvEffect.ended (slot : SlotOk d gw)
    (member : req ∈ (d.requestQueues gw).items) (disconnect : req.type = .kClientDisconnect) :
    ((d.received pid out).processes req.process).recv.serving = false := by
  have past := slot.ended req member disconnect
  by_cases same : req.process = pid
  · rw [same] at past ⊢
    rw [received_self, Bool.eq_false_iff]
    intro next
    rcases effect.outcome.serving next with before | before
    · rw [before] at past
      cases past
    · have gateway := (tenancy.tenants gw _ (slot.requests req member).1).2
      rw [same] at gateway
      rw [← gateway, (ok.early before).2] at member
      cases member
  · rw [received_other same]
    exact past

theorem SlotOk.push (slot : SlotOk d (d.processes pid).gatewayId)
    (only : pushed = [req]) (pushes : Pushes d pid out.process.recv req) :
    SlotOk (d.received pid out) (d.processes pid).gatewayId := by
  subst only
  have items := effect.queue.items
  -- The older requests of the slot are the pusher's own.
  have older : ∀ old ∈ (d.requestQueues (d.processes pid).gatewayId).items, old.process = pid := fun old member =>
    some.inj ((slot.requests old member).1.symm.trans pushes.tenant)
  refine ⟨?_, ?_, ?_, ?_, ?_, ?_, slot.responses⟩
  · rw [received_queue, items, forall_mem_append, forall_mem_singleton, pushes.process]
    exact ⟨slot.requests, pushes.tenant, pushes.gateway⟩
  · rw [received_queue, items, forall_mem_append, forall_mem_singleton, pushes.process]
    constructor
    · intro old member connect
      obtain ⟨unassigned, _⟩ := slot.connects old member connect
      rw [older old member] at unassigned
      rcases pushes.content with ⟨_, _, empty⟩ | ⟨_, _, assigned, _⟩
      · rw [empty] at member
        cases member
      · exact nomatch assigned.symm.trans unassigned
    · intro connect
      rcases pushes.content with ⟨_, unassigned, empty⟩ | ⟨other, _⟩
      · rw [empty]
        exact ⟨unassigned, rfl⟩
      · exact absurd connect other
  · rw [received_queue, items]
    refine pairwise_append.mpr ⟨slot.ordered, pairwise_singleton _ _, ?_⟩
    intro old member _ _ disconnect
    have past := slot.ended old member disconnect
    rw [older old member] at past
    rcases pushes.content with ⟨_, _, empty⟩ | ⟨_, serving, _⟩
    · rw [empty] at member
      cases member
    · rw [serving] at past
      cases past
  · rw [received_queue, items, forall_mem_append, forall_mem_singleton, pushes.process, received_self]
    refine ⟨fun _ => effect.ended tenancy ok slot, fun disconnect => ?_⟩
    rcases pushes.content with ⟨connect, _⟩ | ⟨_, _, _, past⟩
    · exact nomatch connect.symm.trans disconnect
    · exact past disconnect
  · rw [received_queue, effect.queue.pushed, forall_mem_append, forall_mem_singleton, pushes.process]
    refine ⟨slot.pushed, fun order => ?_⟩
    rcases pushes.content with ⟨connect, _⟩ | ⟨_, _, assigned, _⟩
    · exact absurd connect order
    · exact assigned
  · rw [received_queue, items, forall_mem_append, forall_mem_singleton]
    refine ⟨slot.routed, fun order => ?_⟩
    rcases pushes.content with ⟨connect, _⟩ | ⟨_, serving, assigned, _⟩
    · exact absurd connect order
    · exact ok.serving serving _ assigned

end

theorem SlotOk.untouched (slot : SlotOk d gw)
    (items : ((d.received pid out).requestQueues gw).items = (d.requestQueues gw).items)
    (same : ((d.received pid out).requestQueues gw).pushed = (d.requestQueues gw).pushed)
    (ends : ∀ req ∈ (d.requestQueues gw).items, req.type = .kClientDisconnect →
      ((d.received pid out).processes req.process).recv.serving = false) : SlotOk (d.received pid out) gw where
  requests := by rw [items]; exact slot.requests
  connects := by rw [items]; exact slot.connects
  ordered := by rw [items]; exact slot.ordered
  ended := by rw [items]; exact ends
  pushed := by rw [same]; exact slot.pushed
  routed := by rw [items]; exact slot.routed
  responses := slot.responses

section

variable (effect : d.Receives pid out pushed)
include effect

theorem SlotOk.recv
    (tenancy : Tenancy d) (known : pid < d.started) (ok : ProcessOk d pid) (slot : SlotOk d gw) :
    SlotOk (d.received pid out) gw := by
  have ends : ∀ req ∈ (d.requestQueues gw).items, req.type = .kClientDisconnect →
      ((d.received pid out).processes req.process).recv.serving = false := fun _ => effect.ended tenancy ok slot
  by_cases here : gw = (d.processes pid).gatewayId
  · subst here
    rcases ok.pushes tenancy known effect.outcome with rfl | ⟨req, only, pushes⟩
    · refine slot.untouched ?_ ?_ ends
      · rw [received_queue, effect.queue.items, append_nil]
      · rw [received_queue, effect.queue.pushed, append_nil]
    · exact slot.push effect tenancy ok only pushes
  · exact slot.untouched (by rw [received_elsewhere here]) (by rw [received_elsewhere here]) ends

theorem ProcessOk.recv (ok : ProcessOk d pid) : ProcessOk (d.received pid out) pid := by
  obtain ⟨frame, appended, outcome⟩ := effect
  refine ⟨?_, ?_, ?_⟩
  · rw [received_self]
    exact ok.own.recv frame outcome
  · rw [received_self, frame.gatewayId, received_queue, appended.items]
    intro early
    obtain ⟨before, rfl⟩ := outcome.early early
    rw [append_nil]
    exact ok.early before
  · rw [received_self, frame.gatewayId]
    intro serving sessionId assigned
    rcases outcome.serving serving with before | before
    · exact ok.serving before sessionId assigned
    · exact nomatch (ok.early before).1.symm.trans assigned

theorem ProcessOk.recv_other
    (tenancy : Tenancy d) (known : pid < d.started) (ok : ProcessOk d pid) {other : Nat} (bound : other < d.started)
    (okOther : ProcessOk d other) (ne : other ≠ pid) : ProcessOk (d.received pid out) other := by
  refine ⟨?_, ?_, ?_⟩
  · rw [received_other ne]
    exact okOther.own
  · rw [received_other ne]
    intro early
    obtain ⟨unassigned, empty⟩ := okOther.early early
    refine ⟨unassigned, ?_⟩
    by_cases here : (d.processes other).gatewayId = (d.processes pid).gatewayId
    · rcases ok.pushes tenancy known effect.outcome with rfl | ⟨req, _, pushes⟩
      · rw [here, received_queue, effect.queue.items, append_nil, ← here]
        exact empty
      · have tenant := (tenancy.acting bound (.inl early)).1
        rw [here, pushes.tenant] at tenant
        exact absurd (some.inj tenant).symm ne
    · rw [received_elsewhere here]
      exact empty
  · rw [received_other ne]
    exact okOther.serving

end

theorem Confined.recv (confined : Confined d) (known : pid < d.started)
    (effect : d.Receives pid out pushed) :
    Confined (d.received pid out) := by
  have tenancy := confined.tenancy
  have ok := confined.processes pid known
  refine { confined with tenancy := tenancy.recv effect, processes := ?_, slots := ?_ }
  · intro other bound
    by_cases same : other = pid
    · subst same
      exact ok.recv effect
    · exact ok.recv_other effect tenancy known bound (confined.processes other bound) same
  · exact fun gw => (confined.slots gw).recv effect tenancy known ok

end Recv

/-! ### Steps of the send thread, of signals and of the slots -/

/-- A change of one process that the engine does not see; consumers may take from the engine's queues. -/
theorem Confined.local_step (confined : Confined d) {claimed : Nat → Bool} {responseQueues : Nat → EventQueue}
    {mdEventQueue : EventQueue} (tenancy : Tenancy { d with
      processes := update d.processes pid g, claimed, engine := { d.engine with responseQueues, mdEventQueue } })
    (gatewayId : g.gatewayId = (d.processes pid).gatewayId) (recv : g.recv = (d.processes pid).recv)
    (own : pid < d.started → Own g (d.assigned pid))
    (fewer : ∀ gw, ∀ event ∈ (responseQueues gw).items, event ∈ (d.engine.responseQueues gw).items) :
    Confined { d with
      processes := update d.processes pid g, claimed, engine := { d.engine with responseQueues, mdEventQueue } } := by
  refine { confined with tenancy := tenancy, processes := ?_, slots := ?_ }
  · intro other bound
    have ok := confined.processes other bound
    by_cases here : other = pid
    · subst here
      refine ⟨?_, ?_, ?_⟩
      · simpa using own bound
      · simpa [gatewayId, recv] using ok.early
      · simpa [gatewayId, recv] using ok.serving
    · refine ⟨?_, ?_, ?_⟩
      · simpa [here] using ok.own
      · simpa [here] using ok.early
      · simpa [here] using ok.serving
  · intro gw
    have slot := confined.slots gw
    refine { slot with ended := ?_, responses := fun event member => slot.responses event (fewer gw event member) }
    intro req member disconnect
    have past := slot.ended req member disconnect
    by_cases here : req.process = pid
    · simpa [here, recv] using here ▸ past
    · simpa [here] using past

theorem Confined.send (confined : Confined d) {out : GatewayProcess × EventQueue} (tenancy : Tenancy (d.sent pid out))
    (known : pid < d.started) (active : (d.processes pid).send ≠ .finished)
    (effect : SendEffect (d.processes pid) out.1 (d.engine.responseQueues (d.processes pid).gatewayId) out.2) :
    Confined (d.sent pid out) := by
  have tenant := (confined.tenancy.live pid known (confined.tenancy.sending known active)).1
  have mine : ∀ event ∈ (d.engine.responseQueues (d.processes pid).gatewayId).items, d.assigned pid =
      some event.sessionId := by
    intro event member
    obtain ⟨other, here, assigned⟩ := (confined.slots _).responses event member
    rw [tenant] at here
    exact some.inj here ▸ assigned
  exact confined.local_step tenancy effect.gatewayId effect.recv
    (fun _ => (confined.processes pid known).own.send effect mine) effect.fewer

theorem Confined.claim (confined : Confined d) (free : d.claimed gw = false) (clean : d.CleanClaim (.claim gw)) :
    Confined (d.claiming gw) := by
  obtain ⟨noRequests, noResponses, unrouted⟩ := clean free
  have unassigned := confined.future d.started (Nat.le_refl _)
  refine ⟨confined.usable, confined.drained, confined.tenancy.claim free,
    fun pid later => confined.future pid (Nat.le_of_succ_le later), ?_, ?_, ?_⟩
  · intro pid bound
    rcases Nat.lt_succ_iff_lt_or_eq.mp bound with before | rfl
    · have ok := confined.processes pid before
      refine ⟨?_, ?_, ?_⟩
      · simpa only [claiming_older before] using ok.own
      · simpa only [claiming_older before] using ok.early
      · simpa only [claiming_older before] using ok.serving
    · refine ⟨?_, ?_, ?_⟩
      · simp only [update_self, unassigned]
        exact Own.fresh gw
      · simp [unassigned, noRequests]
      · intro serving
        simp only [update_self] at serving
        cases serving
  · intro slot
    have ok := confined.slots slot
    have ended : ∀ req ∈ (d.requestQueues slot).items, req.type = .kClientDisconnect →
        (update d.processes d.started { gatewayId := gw } req.process).recv.serving = false := by
      intro req member disconnect
      rw [claiming_older (confined.tenancy.tenants slot _ (ok.requests req member).1).1]
      exact ok.ended req member disconnect
    by_cases here : slot = gw
    · subst here
      refine ⟨?_, ?_, ?_, ended, ok.pushed, ?_, ?_⟩
      · simp [noRequests]
      · simp [noRequests]
      · simp [noRequests]
      · simp [noRequests]
      · simp [noResponses]
    · refine ⟨?_, ok.connects, ok.ordered, ended, ok.pushed, ok.routed, ?_⟩
      · simpa [here] using ok.requests
      · simpa [here] using ok.responses
  · intro x reverse found
    obtain ⟨pid, tenant, assigned⟩ := confined.owners x reverse found
    have elsewhere := unrouted (x, reverse) (confined.usable.maps.reverse.content_eq_some.mp found)
    exact ⟨pid, by simpa [elsewhere] using tenant, assigned⟩

/-! ### Steps of the engine -/

section Poll

variable {gw : Nat} {req : PushedRequest} {queue : PushedQueue} {engine : Engine maxSymbols}
  {core : ExchangeCore maxSymbols}

structure Taken (d : Deployment maxSymbols) (gw : Nat) (req : PushedRequest) : Prop where
  tenant : d.tenant gw = some req.process
  gateway : req.gatewayId = gw
  connect : req.type = .kClientConnect → d.assigned req.process = none ∧ (d.requestQueues gw).items = []
  connected : (d.processes req.process).recv.early = false
  assigned : req.type ≠ .kClientConnect → d.assigned req.process = some req.sessionId
  routed : req.type ≠ .kClientConnect → d.engine.sessionToGateway req.sessionId = gw
  disconnect : req.type = .kClientDisconnect →
    (d.requestQueues gw).items = [] ∧ (d.processes req.process).recv.serving = false

section

variable (confined : Confined d)
include confined

theorem Confined.pop (popped : (d.requestQueues gw).tryPop = some (req, queue)) :
    Confined { d with requestQueues := update d.requestQueues gw queue } ∧
      Taken { d with requestQueues := update d.requestQueues gw queue } gw req := by
  obtain ⟨items, same⟩ := FixedSPSCQueue.tryPop_eq_some popped
  have slot := confined.slots gw
  have first : req ∈ (d.requestQueues gw).items := by simp [items]
  have member : req ∈ (d.requestQueues gw).pushed := mem_of_mem_drop first
  constructor
  · refine { confined with tenancy := ?_, processes := ?_, slots := ?_ }
    · exact { confined.tenancy with }
    · intro pid bound
      have ok := confined.processes pid bound
      refine ⟨ok.own, ?_, ok.serving⟩
      intro early
      obtain ⟨unassigned, empty⟩ := ok.early early
      refine ⟨unassigned, ?_⟩
      by_cases here : (d.processes pid).gatewayId = gw
      · rw [here, items] at empty
        cases empty
      · simpa [here] using empty
    · intro other
      have ok := confined.slots other
      have fewer := popped_fewer popped other
      refine ⟨fun later there => ok.requests later (fewer later there), ?_, ?_,
        fun later there => ok.ended later (fewer later there), ?_,
        fun later there => ok.routed later (fewer later there), ok.responses⟩
      all_goals by_cases here : other = gw
      · subst here
        simp only [update_self]
        intro later there connect
        obtain ⟨_, alone⟩ := ok.connects later (by simp [items, there]) connect
        rw [items] at alone
        rw [(cons.inj alone).2] at there
        cases there
      · simpa [here] using ok.connects
      · subst here
        have ordered := ok.ordered
        rw [items] at ordered
        simpa using (pairwise_cons.mp ordered).2
      · simpa [here] using ok.ordered
      · subst here
        simpa [same] using ok.pushed
      · simpa [here] using ok.pushed
  · obtain ⟨tenant, gateway⟩ := slot.requests req first
    refine ⟨tenant, gateway, ?_, ?_, slot.pushed req member, fun other => (slot.routed req first other).2, ?_⟩
    · intro connect
      obtain ⟨unassigned, alone⟩ := slot.connects req first connect
      rw [items] at alone
      exact ⟨unassigned, by simpa using alone⟩
    · rw [Bool.eq_false_iff]
      intro early
      obtain ⟨bound, here⟩ := confined.tenancy.tenants gw _ tenant
      have empty := ((confined.processes _ bound).early early).2
      rw [here, items] at empty
      cases empty
    · intro disconnect
      have ordered := slot.ordered
      rw [items] at ordered
      have last : queue.items = [] := by
        rw [eq_nil_iff_forall_not_mem]
        intro later there
        exact (pairwise_cons.mp ordered).1 later there disconnect
      exact ⟨by simpa using last, slot.ended req first disconnect⟩

section

variable (taken : Taken d gw req)
include taken

theorem Confined.order (other : req.type ≠ .kClientConnect)
    (served : Engine.OrderServed d.engine engine req.toOrderRequest) (holder : UInt16 → Option Nat)
    (sender : Nat → Option PushedRequest) : Confined { d with engine, holder, sender } := by
  have assigned := taken.assigned other
  have route := taken.routed other
  refine ⟨served.usable, ?_, ?_, confined.future, ?_, ?_, ?_⟩
  · obtain ⟨core, _, same⟩ := served.applied
    rw [same]
    rfl
  · exact { confined.tenancy with }
  · intro pid bound
    have ok := confined.processes pid bound
    refine ⟨ok.own, ok.early, ?_⟩
    rw [served.sessions, served.sessionToGateway]
    exact ok.serving
  · intro slot
    have ok := confined.slots slot
    refine { ok with routed := ?_, responses := ?_ }
    · rw [served.sessions, served.sessionToGateway]
      exact ok.routed
    · intro event member
      obtain ⟨added, appended, addressed⟩ := served.responses slot
      rw [appended.items, mem_append] at member
      rcases member with old | new
      · exact ok.responses event old
      · obtain ⟨here, _, own | ⟨x, reverse, found, owner⟩⟩ := addressed event new
        · rw [own, route] at here
          subst here
          exact ⟨req.process, taken.tenant, own ▸ assigned⟩
        · obtain ⟨pid, tenant, assigned⟩ := confined.owners x reverse found
          rw [owner] at tenant assigned
          exact ⟨pid, here ▸ tenant, assigned⟩
  · intro x reverse found
    rw [served.sessionToGateway]
    rcases served.owners x reverse found with old | own
    · exact confined.owners x reverse old
    · rw [own, route]
      exact ⟨req.process, taken.tenant, assigned⟩

theorem Confined.disconnect (type : req.type = .kClientDisconnect)
    (done : d.engine.core.onClientDisconnect req.sessionId = some core) (holder : UInt16 → Option Nat)
    (sender : Nat → Option PushedRequest) : Confined { d with engine := { d.engine with core }, holder, sender } := by
  have quiet := onClientDisconnect_quiet confined.usable done
  have route := taken.routed (by simp [type])
  obtain ⟨empty, past⟩ := taken.disconnect type
  -- A session that is routed elsewhere is not the one that ends.
  have others : ∀ sessionId, d.engine.sessionToGateway sessionId ≠ gw →
      core.activeSessions sessionId = d.engine.core.activeSessions sessionId :=
    fun sessionId elsewhere => onClientDisconnect_others (fun same => elsewhere (same ▸ route)) done
  refine ⟨quiet.usable, quiet.events.trans confined.drained, ?_, confined.future, ?_, ?_, ?_⟩
  · exact { confined.tenancy with }
  · intro pid bound
    have ok := confined.processes pid bound
    refine ⟨ok.own, ok.early, ?_⟩
    intro serving sessionId assigned
    obtain ⟨active, here⟩ := ok.serving serving sessionId assigned
    refine ⟨?_, here⟩
    have elsewhere : (d.processes pid).gatewayId ≠ gw := by
      intro same
      have tenant := (confined.tenancy.acting bound (.inr serving)).1
      rw [same, taken.tenant] at tenant
      rw [some.inj tenant, serving] at past
      cases past
    exact (others sessionId (here ▸ elsewhere)).trans active
  · intro slot
    have ok := confined.slots slot
    refine { ok with routed := ?_ }
    intro later member other
    obtain ⟨active, here⟩ := ok.routed later member other
    refine ⟨(others later.sessionId ?_).trans active, here⟩
    rw [here]
    rintro rfl
    rw [empty] at member
    cases member
  · intro x reverse found
    exact confined.owners x reverse (quiet.owners x reverse found)

/-- A connect finds the response queue of its slot empty, since nothing was reported to the slot before. -/
theorem Confined.no_responses (type : req.type = .kClientConnect) : (d.engine.responseQueues gw).items = [] := by
  rw [eq_nil_iff_forall_not_mem]
  intro event member
  obtain ⟨pid, tenant, assigned⟩ := (confined.slots gw).responses event member
  rw [taken.tenant] at tenant
  cases tenant
  exact nomatch (taken.connect type).1.symm.trans assigned

theorem Confined.connect (type : req.type = .kClientConnect) {sessionId : UInt16}
    {responses : EventQueue} (done : d.engine.core.onClientConnect = some (sessionId, core))
    (answered : (d.engine.responseQueues gw).Appended responses [Engine.sessionAssigned req.toOrderRequest sessionId])
    (holder : UInt16 → Option Nat) (sender : Nat → Option PushedRequest) :
    Confined { d with
      engine := { d.engine with
        core
        sessionToGateway := update d.engine.sessionToGateway sessionId gw
        responseQueues := update d.engine.responseQueues gw responses }
      assigned := update d.assigned req.process (some sessionId)
      holder
      sender } := by
  have quiet := onClientConnect_quiet confined.usable done
  obtain ⟨_, unused, active⟩ := findSession_new done
  obtain ⟨unassigned, empty⟩ := taken.connect type
  obtain ⟨started, gateway⟩ := confined.tenancy.tenants gw _ taken.tenant
  have silent := confined.no_responses taken type
  -- Sessions in use and processes with a session are not touched.
  have inUse : ∀ other, d.engine.core.activeSessions other = true → core.activeSessions other = true ∧
      other ≠ sessionId := by
    intro other before
    have ne : other ≠ sessionId := by
      rintro rfl
      rw [unused] at before
      cases before
    exact ⟨by rw [active, update_of_ne ne, before], ne⟩
  have kept : ∀ pid session, d.assigned pid = some session →
      update d.assigned req.process (some sessionId) pid = some session := by
    intro pid session assigned
    have ne : pid ≠ req.process := by
      rintro rfl
      rw [unassigned] at assigned
      cases assigned
    rw [update_of_ne ne, assigned]
  refine ⟨quiet.usable, quiet.events.trans confined.drained, ?_, ?_, ?_, ?_, ?_⟩
  · exact { confined.tenancy with }
  · intro pid later
    have ne : pid ≠ req.process := Nat.ne_of_gt (Nat.lt_of_lt_of_le started later)
    simpa [ne] using confined.future pid later
  · intro pid bound
    have ok := confined.processes pid bound
    by_cases here : pid = req.process
    · subst here
      have own := ok.own
      rw [unassigned] at own
      refine ⟨?_, ?_, ?_⟩
      · simpa using own.grant sessionId
      · intro early
        exact nomatch taken.connected.symm.trans early
      · simp [active, gateway]
    · refine ⟨?_, ?_, ?_⟩
      · simpa [here] using ok.own
      · simpa [here] using ok.early
      · intro serving session assigned
        simp only [update_of_ne here] at assigned
        obtain ⟨before, route⟩ := ok.serving serving session assigned
        obtain ⟨now, ne⟩ := inUse session before
        exact ⟨now, by simpa [ne] using route⟩
  · intro slot
    have ok := confined.slots slot
    refine ⟨ok.requests, ?_, ok.ordered, ok.ended, ?_, ?_, ?_⟩
    · intro later member connect
      obtain ⟨waiting, alone⟩ := ok.connects later member connect
      refine ⟨?_, alone⟩
      have ne : later.process ≠ req.process := by
        intro same
        obtain ⟨_, here⟩ := confined.tenancy.tenants slot _ (ok.requests later member).1
        rw [same, gateway] at here
        rw [← here, empty] at member
        cases member
      simpa [ne] using waiting
    · intro later member other
      exact kept _ _ (ok.pushed later member other)
    · intro later member other
      obtain ⟨before, route⟩ := ok.routed later member other
      obtain ⟨now, ne⟩ := inUse later.sessionId before
      exact ⟨now, by simpa [ne] using route⟩
    · intro event member
      by_cases here : slot = gw
      · subst here
        simp only [update_self, answered.items, silent, nil_append, mem_singleton] at member
        subst member
        exact ⟨req.process, taken.tenant, by simp [Engine.sessionAssigned]⟩
      · simp only [update_of_ne here] at member
        obtain ⟨pid, tenant, assigned⟩ := ok.responses event member
        exact ⟨pid, tenant, kept pid _ assigned⟩
  · intro x reverse found
    obtain ⟨pid, tenant, assigned⟩ := confined.owners x reverse (quiet.owners x reverse found)
    by_cases here : reverse.sessionId = sessionId
    · exact ⟨req.process, by simpa [here] using taken.tenant, by simp [here]⟩
    · exact ⟨pid, by simpa [here] using tenant, kept pid _ assigned⟩

end

end

end Poll

theorem Confined.poll (confined : Confined d) {queue : PushedQueue} {engine : Engine maxSymbols}
    (configured : ¬ numGateways ≤ gw) (popped : (d.requestQueues gw).tryPop = some (req, queue))
    (processed : d.engine.processRequest numGateways req.toOrderRequest = some engine) :
    Confined (d.served gw req queue engine) := by
  obtain ⟨confined, taken⟩ := confined.pop popped
  rw [← taken.gateway] at configured
  unfold Deployment.served
  rcases Engine.processRequest_cases confined.usable confined.drained configured processed with
    ⟨type, sessionId, core, connected, ⟨responses, answered, rfl⟩ | ⟨full, _⟩⟩ | ⟨type, core, ended,
      rfl⟩ | ⟨⟨type, _⟩, served⟩
  · have grant : granted d.engine { d.engine with
          core
          sessionToGateway := update d.engine.sessionToGateway sessionId req.gatewayId
          responseQueues := update d.engine.responseQueues req.gatewayId responses } req.toOrderRequest =
        some sessionId := by
      simp [granted, type, connected]
    simp only [grant, elim_some]
    rw [taken.gateway] at answered ⊢
    exact confined.connect taken type connected answered _ _
  · rw [taken.gateway, confined.no_responses taken type] at full
    cases full
  · rw [granted_of_other (by simp [type])]
    exact confined.disconnect taken type ended _ _
  · rw [granted_of_other type]
    exact confined.order taken type served _ _

theorem Own.flags (own : Own g assigned) (session : g'.session = g.session) (recv : g'.recv = g.recv)
    (sendQueue : g'.sendQueue = g.sendQueue) (written : g'.written = g.written) : Own g' assigned where
  session := session ▸ own.session
  parsing := recv ▸ own.parsing
  leaving := recv ▸ own.leaving
  rejects := sendQueue ▸ own.rejects
  written := written ▸ own.written

theorem Confined.step {op : DeploymentOp} (confined : Confined d) (clean : d.CleanClaim op)
    (stepped : d.step numGateways op = some d') : Confined d' := by
  have moved := Deployment.step_eq_some stepped
  have tenancy := confined.tenancy.step moved
  cases moved with
  | idle => exact confined
  | claim free => exact confined.claim free clean
  | signal =>
    exact confined.local_step tenancy rfl rfl (fun known => (confined.processes _ known).own.flags rfl rfl rfl rfl)
      fun _ _ => id
  | recv known effect => exact confined.recv known effect
  | send known active effect => exact confined.send tenancy known active effect
  | release =>
    exact confined.local_step tenancy rfl rfl (fun known => (confined.processes _ known).own.flags rfl rfl rfl rfl)
      fun _ _ => id
  | poll configured popped processed => exact confined.poll configured popped processed
  | popMarketData =>
    have same : d.processes = update d.processes 0 (d.processes 0) := (update_eq_self _ _).symm
    rw [same] at tenancy ⊢
    exact confined.local_step tenancy rfl rfl (fun known => (confined.processes 0 known).own) fun _ _ => id

theorem Fresh.confined {core : ExchangeCore maxSymbols} (fresh : Fresh core) :
    Confined ({ engine := { core } } : Deployment maxSymbols) where
  usable := fresh.usable
  drained := fresh.drained
  tenancy := tenancy_initial core
  future := fun _ _ => rfl
  processes := fun pid bound => absurd bound (Nat.not_lt_zero pid)
  slots := fun _ => {
    requests := fun _ member => nomatch member
    connects := fun _ member => nomatch member
    ordered := List.Pairwise.nil
    ended := fun _ member => nomatch member
    pushed := fun _ member => nomatch member
    routed := fun _ member => nomatch member
    responses := fun _ member => nomatch member }
  owners := fun x _ found => nomatch (fresh.reverseIdMap x).symm.trans found

/-- If every process claims a clean slot, clients hear of their own sessions and speak for them alone. -/
theorem run_confidential {symbols : List (Nat × Params)} {core : ExchangeCore maxSymbols} {ops : List DeploymentOp}
    (registered : registerAll symbols {} = some core)
    (clean : Along numGateways Deployment.CleanClaim ops { engine := { core } })
    (ran : run numGateways ops { engine := { core } } = some d) : d.Confidential := by
  have confined := Transition.run_invariant (fun confined clean stepped => Confined.step confined clean stepped)
    (fresh_initial.registerAll registered).confined clean ran
  exact ⟨fun pid bound => (confined.processes pid bound).own.written, fun gw => (confined.slots gw).pushed⟩

def visitOps (pid clientOrderId : Nat) : List DeploymentOp := [
  .claim 0, .recv pid (.accept 5), .recv pid .data, .recv pid .data, .poll 0, .send pid true, .send pid true,
  .recv pid .data, .recv pid (.message (.newOrder ⟨clientOrderId, 1, .kAsk, 100, 5, 0⟩)), .poll 0, .send pid true]

def leaveOps (pid : Nat) : List DeploymentOp := [
  .recv pid .incomplete, .recv pid .closed, .recv pid .data, .recv pid .data, .recv pid .data, .poll 0,
  .send pid true, .send pid true, .send pid true, .release pid]

theorem run_confidential_two : registerAll [(1, tinyParams)] {} = some tinyCore ∧
    Along 1 Deployment.CleanClaim (visitOps 0 7 ++ leaveOps 0 ++ visitOps 1 8) { engine := { core := tinyCore } } ∧
    ∃ d, run 1 (visitOps 0 7 ++ leaveOps 0 ++ visitOps 1 8) { engine := { core := tinyCore } } = some d ∧
      (d.processes 1).written.map (·.clientOrderId) = [8] ∧ d.Confidential := by
  have clean : Along 1 Deployment.CleanClaim (visitOps 0 7 ++ leaveOps 0 ++ visitOps 1 8)
      { engine := { core := tinyCore } } := by decide +kernel
  obtain ⟨d, ran, told⟩ : ∃ d, run 1 (visitOps 0 7 ++ leaveOps 0 ++ visitOps 1 8) { engine := { core := tinyCore } } =
      some d ∧ (d.processes 1).written.map (·.clientOrderId) = [8] := by decide +kernel
  exact ⟨registerAll_tinyCore, clean, d, ran, told, run_confidential registerAll_tinyCore clean ran⟩

/-- The first client offers and leaves before the engine has answered; the answer waits in the response queue and goes
to the next client of the slot. -/
def handoverOps : List DeploymentOp := [
  .claim 0, .recv 0 (.accept 5), .recv 0 .data, .recv 0 .data, .poll 0, .send 0 true, .send 0 true,
  .recv 0 .data, .recv 0 (.message (.newOrder ⟨7, 1, .kAsk, 100, 5, 0⟩)), .recv 0 .incomplete, .recv 0 .closed,
  .recv 0 .data, .recv 0 .data, .recv 0 .data, .send 0 true, .send 0 true, .send 0 true, .release 0, .poll 0,
  .claim 0, .recv 1 (.accept 6), .recv 1 .data, .send 1 true, .send 1 true]

theorem run_not_confidential : ∃ d, registerAll [(1, tinyParams)] {} = some tinyCore ∧
    run 1 handoverOps { engine := { core := tinyCore } } = some d ∧ d.assigned 1 = none ∧
    (d.processes 1).written.map (fun event => (event.type, event.sessionId, event.clientOrderId)) =
      [(.kOrderAccepted, 1, 7)] ∧
    ¬ d.Confidential := by
  obtain ⟨d, ran, started, unassigned, told⟩ : ∃ d, run 1 handoverOps { engine := { core := tinyCore } } = some d ∧
      d.started = 2 ∧ d.assigned 1 = none ∧
      (d.processes 1).written.map (fun event => (event.type, event.sessionId, event.clientOrderId)) =
        [(.kOrderAccepted, 1, 7)] := by decide +kernel
  refine ⟨d, registerAll_tinyCore, ran, unassigned, told, ?_⟩
  intro confidential
  obtain ⟨event, member, _⟩ := List.mem_map.mp (told ▸ mem_cons_self)
  exact nomatch unassigned.symm.trans (confidential.1 1 (by omega) event member)

end TickToTrade.Exchange
