import TickToTrade.Exchange.Tenancy

/-!
What a gateway process leaves behind in the engine: nothing, if its recv thread knows the session when
it says goodbye, and if the id maps have room.
-/

namespace TickToTrade.Exchange
open Algo Ds Probing Sys ExchangeCore List Option Function
open Deployment (Along run)

variable {maxSymbols numGateways : Nat} {d d' : Deployment maxSymbols}
variable {g : GatewayProcess} {claimed : Nat → Bool} {mdEventQueue : EventQueue} {sender : Nat → Option PushedRequest}

namespace Deployment

/-- No active session and no order in a book belongs to the client of the process. -/
def Cleaned (d : Deployment maxSymbols) (pid : Nat) : Prop :=
  (∀ sessionId, d.engine.core.activeSessions sessionId = true → d.holder sessionId ≠ some pid) ∧
  ∀ x, d.engine.core.inBooks x = true → ∀ req ∈ d.sender x, req.process ≠ pid

/-- The process has released its slot, and the engine has taken all its requests out of the queue of the slot. -/
def Over (d : Deployment maxSymbols) (pid : Nat) : Prop :=
  pid < d.started ∧ (d.processes pid).exited = true ∧
    ∀ req ∈ (d.requestQueues (d.processes pid).gatewayId).items, req.process ≠ pid

instance (d : Deployment maxSymbols) : DecidablePred d.Over :=
  fun pid => inferInstanceAs
    (Decidable (pid < d.started ∧ _ ∧ ∀ req ∈ (d.requestQueues (d.processes pid).gatewayId).items, _))

/-- The recv thread knows the session when it reads it for the last time, and a request that the engine takes finds
room in the id maps. -/
def SessionKnown (d : Deployment maxSymbols) : DeploymentOp → Prop
  | .recv pid _ => (d.processes pid).recv = .leaving → (d.processes pid).session ≠ 0
  | .poll gw => ∀ req ∈ (d.requestQueues gw).items.head?, IdRoom d.engine.core req.op
  | _ => True

instance (d : Deployment maxSymbols) : DecidablePred d.SessionKnown
  | .recv _ _ => inferInstanceAs (Decidable (_ → _))
  | .poll gw => inferInstanceAs (Decidable (∀ req ∈ (d.requestQueues gw).items.head?, _))
  | .claim _ | .signal _ | .send _ _ | .release _ | .popMarketData => isTrue trivial

def owner (d : Deployment maxSymbols) (x : Nat) : Option (UInt16 × Nat) :=
  (d.sender x).map fun req => (req.sessionId, req.clientOrderId)

def audited (d : Deployment maxSymbols) : Audited maxSymbols where
  core := d.engine.core
  owner := d.owner

structure Holds (d : Deployment maxSymbols) (pid : Nat) (sessionId : UInt16) : Prop where
  assigned : d.assigned pid = some sessionId
  active : d.engine.core.activeSessions sessionId = true
  holder : d.holder sessionId = some pid

end Deployment

open Deployment

structure ServerOk (d : Deployment maxSymbols) (pid : Nat) : Prop where
  session : (d.processes pid).session ≠ 0 → d.assigned pid = some (d.processes pid).session
  parsing : ∀ cur, (d.processes pid).recv = .parsing cur → cur ≠ 0 → d.assigned pid = some cur
  leaving : ∀ final, (d.processes pid).recv = .disconnecting final → final ≠ 0 ∧ (d.processes pid).session = final
  early : (d.processes pid).recv.early = true → d.assigned pid = none ∧
    ∀ gw, ∀ req ∈ (d.requestQueues gw).items, req.process ≠ pid
  serving : (d.processes pid).recv.serving = true → ∀ sessionId, d.assigned pid = some sessionId → d.Holds pid sessionId

/-- Nothing follows a connect, since its sender waits for the answer, and nothing of a process follows its disconnect.
-/
structure QueueOk (d : Deployment maxSymbols) (gw : Nat) : Prop where
  requests : ∀ req ∈ (d.requestQueues gw).items,
    req.gatewayId = gw ∧ req.process < d.started ∧ (d.processes req.process).gatewayId = gw
  connects : ∀ req ∈ (d.requestQueues gw).items, req.type = .kClientConnect →
    d.assigned req.process = none ∧ (d.processes req.process).recv.serving = true
  ordered : (d.requestQueues gw).items.Pairwise fun earlier later =>
    earlier.type ≠ .kClientConnect ∧ (earlier.type = .kClientDisconnect → later.process ≠ earlier.process)
  ended : ∀ req ∈ (d.requestQueues gw).items, req.type = .kClientDisconnect →
    (d.processes req.process).recv.serving = false
  others : ∀ req ∈ (d.requestQueues gw).items, req.type ≠ .kClientConnect → d.Holds req.process req.sessionId
  answers : ∀ event ∈ (d.engine.responseQueues gw).items, event.type = .kSessionAssigned →
    ∃ pid, d.tenant gw = some pid ∧ (d.processes pid).recv.serving = true ∧ (d.processes pid).session = 0 ∧
      d.assigned pid = some event.sessionId
  single : (d.engine.responseQueues gw).items.Pairwise fun event later =>
    event.type = .kSessionAssigned → later.type ≠ .kSessionAssigned

structure Accounted (d : Deployment maxSymbols) : Prop where
  sound : d.audited.Sound
  tenancy : Tenancy d
  future : ∀ pid, d.started ≤ pid → d.assigned pid = none
  nonzero : ∀ pid sessionId, d.assigned pid = some sessionId → sessionId ≠ 0
  processes : ∀ pid < d.started, ServerOk d pid
  queues : ∀ gw, QueueOk d gw
  resting : ∀ x, d.engine.core.inBooks x = true → ∃ req, d.sender x = some req ∧ d.Holds req.process req.sessionId

/-- Whoever holds an active session still serves its client or has announced the end. -/
def Attended (d : Deployment maxSymbols) : Prop :=
  ∀ sessionId, d.engine.core.activeSessions sessionId = true → ∃ pid < d.started, d.Holds pid sessionId ∧
    ((d.processes pid).recv.serving = true ∨
      ∃ req ∈ (d.requestQueues (d.processes pid).gatewayId).items, req.process = pid ∧ req.type = .kClientDisconnect)

/-- A step that leaves the process and every session alone, and adds no request of the process. -/
theorem ServerOk.congr {pid : Nat} (ok : ServerOk d pid) (process : d'.processes pid = d.processes pid)
    (assigned : d'.assigned = d.assigned) (holds : ∀ sessionId, d.Holds pid sessionId → d'.Holds pid sessionId)
    (fewer : ∀ gw, ∀ req ∈ (d'.requestQueues gw).items,
      req ∈ (d.requestQueues gw).items ∨ req.process ≠ pid) : ServerOk d' pid := by
  refine ⟨?_, ?_, ?_, ?_, ?_⟩
  all_goals rw [process]
  · rw [assigned]
    exact ok.session
  · rw [assigned]
    exact ok.parsing
  · exact ok.leaving
  · intro early
    obtain ⟨unassigned, none_queued⟩ := ok.early early
    exact ⟨assigned ▸ unassigned, fun gw req member => (fewer gw req member).elim (none_queued gw req) id⟩
  · rw [assigned]
    exact fun serving sessionId known => holds sessionId (ok.serving serving sessionId known)

/-! ### Steps of the recv thread -/

section Recv

variable {pid : Nat} {out : GatewayProcess.Received} {pushed : List PushedRequest} {next : RecvState}

theorem ServerOk.keeps_serving (ok : ServerOk d pid) {failed : Nat}
    (outcome : RecvOutcome (d.processes pid) pid next pushed failed) (serving : (d.processes pid).recv.serving = true)
    (waits : (d.processes pid).session = 0) : next.serving = true := by
  have late : (d.processes pid).recv.early ≠ true := by
    intro early
    rw [RecvState.not_serving_of_early early] at serving
    cases serving
  cases outcome with
  | stays _ same => exact same.trans serving
  | quits early => exact absurd early late
  | connects => rfl
  | requests => rfl
  | disconnects here known => exact absurd ((ok.leaving _ here).2.symm.trans waits) known
  | silent here =>
    obtain ⟨known, read⟩ := ok.leaving _ here
    exact absurd (read.symm.trans waits) known

theorem ServerOk.leaves (ok : ServerOk d pid) (outcome : RecvOutcome (d.processes pid) pid next pushed 0)
    (serving : (d.processes pid).recv.serving = true) :
    next.serving = true ∨ ∃ req ∈ pushed, req.process = pid ∧ req.type = .kClientDisconnect := by
  cases outcome with
  | stays _ same => exact .inl (same.trans serving)
  | quits early =>
    rw [RecvState.not_serving_of_early early] at serving
    cases serving
  | connects => exact .inl rfl
  | requests => exact .inl rfl
  | disconnects => exact .inr ⟨_, mem_singleton_self _, rfl, rfl⟩
  | silent here lost => exact absurd (lost.resolve_right (Nat.lt_irrefl 0)) (ok.leaving _ here).1

structure Says (d : Deployment maxSymbols) (pid : Nat) (next : RecvState) (req : PushedRequest) : Prop where
  process : req.process = pid
  gateway : req.gatewayId = (d.processes pid).gatewayId
  tenant : d.tenant (d.processes pid).gatewayId = some pid
  content : (req.type = .kClientConnect ∧ (d.processes pid).recv.early = true ∧ next.serving = true) ∨
    (req.type ≠ .kClientConnect ∧ (d.processes pid).recv.serving = true ∧ d.Holds pid req.sessionId ∧
      (req.type = .kClientDisconnect → next.serving = false))

theorem ServerOk.speaks (ok : ServerOk d pid) (tenancy : Tenancy d) (known : pid < d.started) {failed : Nat}
    (outcome : RecvOutcome (d.processes pid) pid next pushed failed) :
    pushed = [] ∨ ∃ req, pushed = [req] ∧ Says d pid next req := by
  rcases outcome.pushed_cases with
    none_pushed | ⟨req, rfl, process, gateway, ⟨connect, early⟩ | ⟨other, serving, nonzero, read, past⟩⟩
  · exact .inl none_pushed
  · refine .inr ⟨req, rfl, process, gateway, (tenancy.acting known (.inl early)).1, .inl ⟨connect, early, ?_⟩⟩
    cases outcome with
    | connects => rfl
    | requests here =>
      rw [here] at early
      cases early
    | disconnects here =>
      rw [here] at early
      cases early
  · have assigned : d.assigned pid = some req.sessionId := by
      rcases read with parsing | leaving
      · exact ok.parsing _ parsing nonzero
      · obtain ⟨known, read⟩ := ok.leaving _ leaving
        exact read ▸ ok.session (read ▸ known)
    exact .inr ⟨req, rfl, process, gateway, (tenancy.acting known (.inr serving)).1,
      .inr ⟨other, serving, ok.serving serving _ assigned, past⟩⟩

section

variable (effect : d.Receives pid out pushed)
include effect

theorem ServerOk.recv
    (ok : ServerOk d pid) (known : (d.processes pid).recv = .leaving → (d.processes pid).session ≠ 0) :
    ServerOk (d.received pid out) pid := by
  obtain ⟨frame, appended, outcome⟩ := effect
  refine ⟨?_, ?_, ?_, ?_, ?_⟩
  · rw [received_self, frame.session]
    exact ok.session
  · rw [received_self]
    intro cur here nonzero
    rcases outcome.parsing here with rfl | before
    · exact ok.session nonzero
    · exact ok.parsing cur before nonzero
  · rw [received_self, frame.session]
    intro final here
    obtain ⟨before, rfl⟩ := outcome.leaving here
    exact ⟨known before, rfl⟩
  · rw [received_self]
    intro early
    obtain ⟨before, rfl⟩ := outcome.early early
    obtain ⟨unassigned, none_queued⟩ := ok.early before
    refine ⟨unassigned, fun gw req member => ?_⟩
    by_cases here : gw = (d.processes pid).gatewayId
    · subst here
      rw [received_queue, appended.items, append_nil] at member
      exact none_queued _ req member
    · rw [received_elsewhere here] at member
      exact none_queued gw req member
  · rw [received_self]
    intro serving sessionId assigned
    rcases outcome.serving serving with before | before
    · exact { ok.serving before sessionId assigned with }
    · exact nomatch (ok.early before).1.symm.trans assigned

theorem ServerOk.recv_other {other : Nat} (ok : ServerOk d other) (ne : other ≠ pid) :
    ServerOk (d.received pid out) other := by
  refine ok.congr (received_other ne) rfl (fun _ holds => { holds with }) fun gw req member => ?_
  by_cases here : gw = (d.processes pid).gatewayId
  · subst here
    rw [received_queue, effect.queue.items, mem_append] at member
    rcases member with old | new
    · exact .inl old
    · rcases effect.outcome.pushed_cases with none_pushed | ⟨only, rfl, process, _⟩
      · exact absurd none_pushed (ne_nil_of_mem new)
      · cases mem_singleton.mp new
        exact .inr fun same => ne (same.symm.trans process)
  · rw [received_elsewhere here] at member
    exact .inl member

theorem RecvEffect.gateway (other : Nat) : ((d.received pid out).processes other).gatewayId =
    (d.processes other).gatewayId := by
  by_cases same : other = pid
  · subst same
    rw [received_self, effect.frame.gatewayId]
  · rw [received_other same]

theorem RecvEffect.session (other : Nat) : ((d.received pid out).processes other).session =
    (d.processes other).session := by
  by_cases same : other = pid
  · subst same
    rw [received_self, effect.frame.session]
  · rw [received_other same]

theorem RecvEffect.still_serving
    (ok : ServerOk d pid) {other : Nat} (serving : (d.processes other).recv.serving = true)
    (waits : (d.processes other).session = 0) : ((d.received pid out).processes other).recv.serving = true := by
  by_cases same : other = pid
  · subst same
    rw [received_self]
    exact ok.keeps_serving effect.outcome serving waits
  · rw [received_other same]
    exact serving

theorem RecvEffect.still_ended
    (ok : ServerOk d pid) {gw : Nat} (queue : QueueOk d gw) {req : PushedRequest}
    (member : req ∈ (d.requestQueues gw).items) (disconnect : req.type = .kClientDisconnect) :
    ((d.received pid out).processes req.process).recv.serving = false := by
  have past := queue.ended req member disconnect
  by_cases same : req.process = pid
  · rw [same] at past ⊢
    rw [received_self, Bool.eq_false_iff]
    intro next
    rcases effect.outcome.serving next with before | before
    · rw [before] at past
      cases past
    · exact (ok.early before).2 gw req member same
  · rw [received_other same]
    exact past

end

theorem ServerOk.waits (ok : ServerOk d pid) (unassigned : d.assigned pid = none) : (d.processes pid).session = 0 := by
  by_contra known
  exact nomatch unassigned.symm.trans (ok.session known)

section

variable (effect : d.Receives pid out pushed)
include effect

theorem QueueOk.untouched
    (processes : ∀ other < d.started, ServerOk d other) (known : pid < d.started) {gw : Nat} (queue : QueueOk d gw)
    (items : ((d.received pid out).requestQueues gw).items = (d.requestQueues gw).items) :
    QueueOk (d.received pid out) gw where
  requests := by
    rw [items]
    intro req member
    rw [effect.gateway]
    exact queue.requests req member
  connects := by
    rw [items]
    intro req member connect
    obtain ⟨unassigned, serving⟩ := queue.connects req member connect
    have waits := (processes _ (queue.requests req member).2.1).waits unassigned
    exact ⟨unassigned, effect.still_serving (processes pid known) serving waits⟩
  ordered := by
    rw [items]
    exact queue.ordered
  ended := by
    rw [items]
    exact fun req member => effect.still_ended (processes pid known) queue member
  others := by
    rw [items]
    exact fun req member other => { queue.others req member other with }
  answers := by
    intro event member assigned
    obtain ⟨other, tenant, serving, waits, granted⟩ := queue.answers event member assigned
    exact ⟨other, tenant, effect.still_serving (processes pid known) serving waits,
      (effect.session other).trans waits, granted⟩
  single := queue.single

theorem QueueOk.push
    (tenancy : Tenancy d) (processes : ∀ other < d.started, ServerOk d other) (known : pid < d.started)
    (queue : QueueOk d (d.processes pid).gatewayId) {req : PushedRequest} (only : pushed = [req])
    (said : Says d pid out.process.recv req) : QueueOk (d.received pid out) (d.processes pid).gatewayId := by
  subst only
  have items := effect.queue.items
  have ok := processes pid known
  refine ⟨?_, ?_, ?_, ?_, ?_, ?_, queue.single⟩
  · rw [received_queue, items, forall_mem_append, forall_mem_singleton, said.process]
    simp only [effect.gateway]
    exact ⟨queue.requests, said.gateway, known, trivial⟩
  · rw [received_queue, items, forall_mem_append, forall_mem_singleton, said.process, received_self]
    constructor
    · intro old member connect
      obtain ⟨unassigned, serving⟩ := queue.connects old member connect
      have waits := (processes _ (queue.requests old member).2.1).waits unassigned
      exact ⟨unassigned, effect.still_serving ok serving waits⟩
    · intro connect
      rcases said.content with ⟨_, early, next⟩ | ⟨other, _⟩
      · exact ⟨(ok.early early).1, next⟩
      · exact absurd connect other
  · rw [received_queue, items]
    refine pairwise_append.mpr ⟨queue.ordered, pairwise_singleton _ _, ?_⟩
    intro old member new pushing
    cases mem_singleton.mp pushing
    rw [said.process]
    constructor
    · -- The sender of a connect waits in this slot, so it is the pusher, which has a session.
      intro connect
      obtain ⟨unassigned, serving⟩ := queue.connects old member connect
      obtain ⟨_, started, gateway⟩ := queue.requests old member
      have tenant := (tenancy.acting started (.inr serving)).1
      rw [gateway, said.tenant] at tenant
      rw [← some.inj tenant] at unassigned serving
      rcases said.content with ⟨_, early, _⟩ | ⟨_, _, holds, _⟩
      · rw [RecvState.not_serving_of_early early] at serving
        cases serving
      · exact nomatch unassigned.symm.trans holds.assigned
    · rintro disconnect rfl
      have past := queue.ended old member disconnect
      rcases said.content with ⟨_, early, _⟩ | ⟨_, serving, _⟩
      · exact (ok.early early).2 _ old member rfl
      · rw [serving] at past
        cases past
  · rw [received_queue, items, forall_mem_append, forall_mem_singleton, said.process, received_self]
    refine ⟨fun old member => effect.still_ended ok queue member, fun disconnect => ?_⟩
    rcases said.content with ⟨connect, _⟩ | ⟨_, _, _, past⟩
    · exact nomatch connect.symm.trans disconnect
    · exact past disconnect
  · rw [received_queue, items, forall_mem_append, forall_mem_singleton, said.process]
    refine ⟨fun old member other => { queue.others old member other with }, fun other => ?_⟩
    rcases said.content with ⟨connect, _⟩ | ⟨_, _, holds, _⟩
    · exact absurd connect other
    · exact { holds with }
  · intro event member assigned
    obtain ⟨other, tenant, serving, waits, granted⟩ := queue.answers event member assigned
    exact ⟨other, tenant, effect.still_serving ok serving waits, (effect.session other).trans waits, granted⟩

end

theorem Accounted.recv (accounted : Accounted d) (known : pid < d.started)
    (reads : (d.processes pid).recv = .leaving → (d.processes pid).session ≠ 0)
    (effect : d.Receives pid out pushed) :
    Accounted (d.received pid out) := by
  refine ⟨accounted.sound, accounted.tenancy.recv effect, accounted.future, accounted.nonzero, ?_, ?_, ?_⟩
  · intro other bound
    by_cases same : other = pid
    · subst same
      exact (accounted.processes other bound).recv effect reads
    · exact (accounted.processes other bound).recv_other effect same
  · intro gw
    have queue := accounted.queues gw
    by_cases here : gw = (d.processes pid).gatewayId
    · subst here
      rcases (accounted.processes pid known).speaks accounted.tenancy known effect.outcome with rfl | ⟨req, only, said⟩
      · exact queue.untouched effect accounted.processes known
          (by rw [received_queue, effect.queue.items, append_nil])
      · exact queue.push effect accounted.tenancy accounted.processes known only said
    · exact queue.untouched effect accounted.processes known (by rw [received_elsewhere here])
  · intro x resting
    obtain ⟨req, sender, holds⟩ := accounted.resting x resting
    exact ⟨req, sender, { holds with }⟩

theorem Attended.recv (attended : Attended d) (ok : ServerOk d pid) (unfailed : out.failed = 0)
    (effect : d.Receives pid out pushed) :
    Attended (d.received pid out) := by
  intro sessionId active
  obtain ⟨other, bound, ⟨assigned, active, holder⟩, state⟩ := attended sessionId active
  refine ⟨other, bound, ⟨assigned, active, holder⟩, ?_⟩
  rw [effect.gateway]
  have stays : ∀ gw, ∀ req ∈ (d.requestQueues gw).items, req ∈ ((d.received pid out).requestQueues gw).items := by
    intro gw req member
    by_cases here : gw = (d.processes pid).gatewayId
    · subst here
      rw [received_queue, effect.queue.items]
      exact mem_append_left _ member
    · rwa [received_elsewhere here]
  rcases state with serving | ⟨req, member, mine, disconnect⟩
  · by_cases same : other = pid
    · subst same
      rw [received_self]
      rcases ok.leaves (unfailed ▸ effect.outcome) serving with next | ⟨req, member, mine, disconnect⟩
      · exact .inl next
      · refine .inr ⟨req, ?_, mine, disconnect⟩
        rw [received_queue, effect.queue.items]
        exact mem_append_right _ member
    · rw [received_other same]
      exact .inl serving
  · exact .inr ⟨req, stays _ req member, mine, disconnect⟩

end Recv

/-! ### Steps of the send thread, of signals and of the slots -/

variable {pid : Nat}

/-- A change of one process that pushes nothing and stays in its phase; consumers may take from the engine's queues. -/
theorem Accounted.local_step (accounted : Accounted d) {responseQueues : Nat → EventQueue} (tenancy : Tenancy { d with
      processes := update d.processes pid g, claimed, engine := { d.engine with responseQueues, mdEventQueue } })
    (gatewayId : g.gatewayId = (d.processes pid).gatewayId) (recv : g.recv = (d.processes pid).recv)
    (session : pid < d.started → g.session = (d.processes pid).session ∨
      (d.processes pid).session = 0 ∧ d.assigned pid = some g.session)
    (answers : ∀ gw, ∀ event ∈ (responseQueues gw).items, event.type = .kSessionAssigned →
      event ∈ (d.engine.responseQueues gw).items ∧ (d.tenant gw = some pid → g.session = (d.processes pid).session))
    (single : ∀ gw, (responseQueues gw).items.Pairwise fun event later =>
      event.type = .kSessionAssigned → later.type ≠ .kSessionAssigned) :
    Accounted { d with
      processes := update d.processes pid g, claimed, engine := { d.engine with responseQueues, mdEventQueue } } := by
  have others : ∀ other, other ≠ pid → update d.processes pid g other = d.processes other := fun other ne =>
    update_of_ne ne _ _
  have phase : ∀ other, (update d.processes pid g other).recv = (d.processes other).recv := by
    intro other
    by_cases here : other = pid
    · subst here
      rw [update_self, recv]
    · rw [others other here]
  have slot : ∀ other, (update d.processes pid g other).gatewayId = (d.processes other).gatewayId := by
    intro other
    by_cases here : other = pid
    · subst here
      rw [update_self, gatewayId]
    · rw [others other here]
  refine ⟨accounted.sound, tenancy, accounted.future, accounted.nonzero, ?_, ?_, ?_⟩
  · intro other bound
    have ok := accounted.processes other bound
    refine ⟨?_, ?_, ?_, ?_, ?_⟩
    all_goals dsimp only
    · by_cases here : other = pid
      · subst here
        rw [update_self]
        intro known
        rcases session bound with same | ⟨_, assigned⟩
        · exact same ▸ ok.session (same ▸ known)
        · exact assigned
      · rw [others other here]
        exact ok.session
    · rw [phase]
      exact ok.parsing
    · rw [phase]
      intro final here
      obtain ⟨known, read⟩ := ok.leaving final here
      refine ⟨known, ?_⟩
      by_cases mine : other = pid
      · subst mine
        rw [update_self]
        rcases session bound with same | ⟨waits, _⟩
        · exact same.trans read
        · exact absurd (read.symm.trans waits) known
      · rw [others other mine]
        exact read
    · rw [phase]
      exact ok.early
    · rw [phase]
      exact fun serving sessionId assigned => { ok.serving serving sessionId assigned with }
  · intro gw
    have queue := accounted.queues gw
    refine ⟨?_, ?_, queue.ordered, ?_, ?_, ?_, single gw⟩
    all_goals dsimp only
    · intro req member
      rw [slot]
      exact queue.requests req member
    · intro req member
      rw [phase]
      exact queue.connects req member
    · intro req member
      rw [phase]
      exact queue.ended req member
    · exact fun req member other => { queue.others req member other with }
    · intro event member assigned
      obtain ⟨old, same⟩ := answers gw event member assigned
      obtain ⟨other, tenant, serving, waits, granted⟩ := queue.answers event old assigned
      refine ⟨other, tenant, by rwa [phase], ?_, granted⟩
      by_cases here : other = pid
      · subst here
        rw [update_self, same tenant, waits]
      · rw [others other here, waits]
  · intro x resting
    obtain ⟨req, sender, holds⟩ := accounted.resting x resting
    exact ⟨req, sender, { holds with }⟩

theorem Accounted.flags (accounted : Accounted d) (tenancy : Tenancy { d with
      processes := update d.processes pid g, claimed, engine := { d.engine with mdEventQueue } })
    (gatewayId : g.gatewayId = (d.processes pid).gatewayId) (recv : g.recv = (d.processes pid).recv)
    (session : g.session = (d.processes pid).session) :
    Accounted { d with processes := update d.processes pid g, claimed, engine := { d.engine with mdEventQueue } } :=
  accounted.local_step tenancy gatewayId recv (fun _ => .inl session) (fun _ _ member _ => ⟨member, fun _ => session⟩)
    fun gw => (accounted.queues gw).single

theorem Attended.local_step (attended : Attended d) {responseQueues : Nat → EventQueue}
    (gatewayId : g.gatewayId = (d.processes pid).gatewayId) (recv : g.recv = (d.processes pid).recv) :
    Attended { d with
      processes := update d.processes pid g, claimed, engine := { d.engine with responseQueues, mdEventQueue } } := by
  intro sessionId active
  obtain ⟨other, bound, ⟨assigned, active, holder⟩, state⟩ := attended sessionId active
  refine ⟨other, bound, ⟨assigned, active, holder⟩, ?_⟩
  by_cases here : other = pid
  · subst here
    simpa [gatewayId, recv] using state
  · simpa [here] using state

theorem Accounted.send (accounted : Accounted d) {out : GatewayProcess × EventQueue}
    (tenancy : Tenancy (d.sent pid out)) (known : pid < d.started) (active : (d.processes pid).send ≠ .finished)
    (effect : SendEffect (d.processes pid) out.1 (d.engine.responseQueues (d.processes pid).gatewayId) out.2) :
    Accounted (d.sent pid out) := by
  have tenant := (accounted.tenancy.live pid known (accounted.tenancy.sending known active)).1
  have queue := accounted.queues (d.processes pid).gatewayId
  have single := queue.single
  rcases effect.session with ⟨same, session⟩ | ⟨first, items, session⟩
  · refine accounted.local_step tenancy effect.gatewayId effect.recv (fun _ => .inl session) ?_ ?_
    · exact fun gw event member _ => ⟨effect.fewer gw event member, fun _ => session⟩
    · rw [same, update_eq_self]
      exact fun gw => (accounted.queues gw).single
  · rw [items] at single
    obtain ⟨alone, rest⟩ := pairwise_cons.mp single
    have listed : first ∈ (d.engine.responseQueues (d.processes pid).gatewayId).items := by simp [items]
    refine accounted.local_step tenancy effect.gatewayId effect.recv ?_ ?_ ?_
    · intro _
      rw [session]
      split
      · rename_i assigned
        obtain ⟨other, here, _, waits, granted⟩ := queue.answers first listed assigned
        rw [tenant] at here
        cases here
        exact .inr ⟨waits, granted⟩
      · exact .inl rfl
    · intro gw event member assigned
      refine ⟨effect.fewer gw event member, fun mine => ?_⟩
      have here := (accounted.tenancy.tenants gw pid mine).2
      subst here
      rw [update_self] at member
      rw [session, if_neg fun answer => alone event member answer assigned]
    · intro gw
      by_cases here : gw = (d.processes pid).gatewayId
      · subst here
        rw [update_self]
        exact rest
      · rw [update_of_ne here]
        exact (accounted.queues gw).single

theorem Accounted.claim (accounted : Accounted d) {gw : Nat} (free : d.claimed gw = false) :
    Accounted (d.claiming gw) := by
  have unassigned := accounted.future d.started (Nat.le_refl _)
  refine ⟨accounted.sound, accounted.tenancy.claim free,
    fun pid later => accounted.future pid (Nat.le_of_succ_le later), accounted.nonzero, ?_, ?_, ?_⟩
  · intro pid bound
    rcases Nat.lt_succ_iff_lt_or_eq.mp bound with before | rfl
    · exact (accounted.processes pid before).congr (claiming_older before) rfl (fun _ holds => { holds with })
        fun _ _ => .inl
    · refine ⟨?_, ?_, ?_, ?_, ?_⟩
      · simp
      · simp
      · simp
      · intro _
        refine ⟨unassigned, fun slot req member same => ?_⟩
        have bound := ((accounted.queues slot).requests req member).2.1
        omega
      · intro serving
        simp only [update_self] at serving
        cases serving
  · intro slot
    have queue := accounted.queues slot
    have started : ∀ req ∈ (d.requestQueues slot).items,
        update d.processes d.started { gatewayId := gw } req.process = d.processes req.process := fun req member =>
      claiming_older (queue.requests req member).2.1
    refine ⟨?_, ?_, queue.ordered, ?_, ?_, ?_, queue.single⟩
    all_goals dsimp only
    · intro req member
      obtain ⟨gateway, bound, here⟩ := queue.requests req member
      exact ⟨gateway, Nat.lt_succ_of_lt bound, by rw [started req member, here]⟩
    · intro req member
      rw [started req member]
      exact queue.connects req member
    · intro req member
      rw [started req member]
      exact queue.ended req member
    · exact fun req member other => { queue.others req member other with }
    · intro event member assigned
      obtain ⟨other, tenant, serving, waits, granted⟩ := queue.answers event member assigned
      obtain ⟨bound, here⟩ := accounted.tenancy.tenants slot other tenant
      -- A process that still serves has its slot, so this one was not free.
      have busy := (accounted.tenancy.acting bound (.inr serving)).2
      have ne : slot ≠ gw := by
        rintro rfl
        rw [here, free] at busy
        cases busy
      refine ⟨other, by simpa [ne] using tenant, ?_, ?_, granted⟩
      · rw [claiming_older bound]
        exact serving
      · rw [claiming_older bound]
        exact waits
  · intro x resting
    obtain ⟨req, sender, holds⟩ := accounted.resting x resting
    exact ⟨req, sender, { holds with }⟩

theorem Attended.claim (attended : Attended d) (gw : Nat) : Attended (d.claiming gw) := by
  intro sessionId active
  obtain ⟨other, bound, ⟨assigned, active, holder⟩, state⟩ := attended sessionId active
  refine ⟨other, Nat.lt_succ_of_lt bound, ⟨assigned, active, holder⟩, ?_⟩
  simpa [Nat.ne_of_lt bound] using state

/-! ### Steps of the engine -/

section Poll

variable {gw : Nat} {req : PushedRequest} {queue : PushedQueue} {engine : Engine maxSymbols}
  {core : ExchangeCore maxSymbols}

structure First (d : Deployment maxSymbols) (gw : Nat) (req : PushedRequest) : Prop where
  gateway : req.gatewayId = gw
  started : req.process < d.started
  slot : (d.processes req.process).gatewayId = gw
  connect : req.type = .kClientConnect →
    d.assigned req.process = none ∧ (d.processes req.process).recv.serving = true ∧ (d.requestQueues gw).items = []
  other : req.type ≠ .kClientConnect → d.Holds req.process req.sessionId
  disconnect : req.type = .kClientDisconnect → (d.processes req.process).recv.serving = false ∧
    ∀ slot, ∀ later ∈ (d.requestQueues slot).items, later.process ≠ req.process

theorem Accounted.pop (accounted : Accounted d) (popped : (d.requestQueues gw).tryPop = some (req, queue)) :
    Accounted { d with requestQueues := update d.requestQueues gw queue } ∧
      First { d with requestQueues := update d.requestQueues gw queue } gw req := by
  obtain ⟨items, _⟩ := FixedSPSCQueue.tryPop_eq_some popped
  have ok := accounted.queues gw
  have member : req ∈ (d.requestQueues gw).items := by simp [items]
  have ordered := ok.ordered
  rw [items] at ordered
  obtain ⟨follows, ordered⟩ := pairwise_cons.mp ordered
  have fewer := popped_fewer popped
  constructor
  · refine ⟨accounted.sound, { accounted.tenancy with }, accounted.future,
      accounted.nonzero, ?_, ?_, ?_⟩
    · exact fun pid bound =>
        (accounted.processes pid bound).congr rfl rfl (fun _ holds => { holds with }) fun slot later there =>
        .inl (fewer slot later there)
    · intro slot
      have ok := accounted.queues slot
      refine ⟨fun later there => ok.requests later (fewer slot later there),
        fun later there => ok.connects later (fewer slot later there), ?_,
        fun later there => ok.ended later (fewer slot later there), ?_, ok.answers, ok.single⟩
      · by_cases here : slot = gw
        · subst here
          simpa using ordered
        · simpa [here] using ok.ordered
      · exact fun later there other => { ok.others later (fewer slot later there) other with }
    · intro x resting
      obtain ⟨req, sender, holds⟩ := accounted.resting x resting
      exact ⟨req, sender, { holds with }⟩
  · obtain ⟨gateway, started, slot⟩ := ok.requests req member
    refine ⟨gateway, started, slot, ?_, ?_, ?_⟩
    · intro connect
      obtain ⟨unassigned, serving⟩ := ok.connects req member connect
      refine ⟨unassigned, serving, ?_⟩
      dsimp only
      rw [update_self, eq_nil_iff_forall_not_mem]
      exact fun later there => (follows later there).1 connect
    · exact fun other => { ok.others req member other with }
    · intro disconnect
      refine ⟨ok.ended req member disconnect, fun other later there => ?_⟩
      dsimp only at there
      by_cases here : other = gw
      · subst here
        rw [update_self] at there
        exact (follows later there).2 disconnect
      · intro same
        have elsewhere := ((accounted.queues other).requests later (fewer other later there)).2.2
        rw [same, slot] at elsewhere
        exact here elsewhere.symm

theorem sound_after (gw : Nat) (queue : PushedQueue) (sound : d.audited.Sound) (room : IdRoom d.engine.core req.op)
    (applied : d.engine.core.apply req.op = some core) (same : engine.core = core.drainEvents.2) :
    (d.served gw req queue engine).audited.Sound ∧
      ∀ x, engine.core.inBooks x = true →
        (d.engine.core.inBooks x = true ∧ (d.served gw req queue engine).sender x = d.sender x) ∨
        (req.op.request ≠ none ∧ (d.served gw req queue engine).sender x = some req) := by
  have stepped : d.audited.step req.op = some (Audited.mk core.drainEvents.2
      (fun x => if core.inBooks x && !d.engine.core.inBooks x then req.op.request else d.owner x)
      (core.events.foldl (hear req.op.qty) (forget req.op d.audited.view))) := by
    unfold Audited.step
    rw [show d.audited.core.apply req.op = some core from applied]
    rfl
  have after := sound.step room stepped
  have books : ∀ x, engine.core.inBooks x = core.inBooks x := fun x => by
    rw [same]
    rfl
  have requests : req.op.request = none ∨ req.op.request = some (req.sessionId, req.clientOrderId) := by
    unfold OrderRequest.op
    split
    · exact .inl rfl
    · exact .inl rfl
    · exact .inr rfl
    · exact .inl rfl
    · exact .inr rfl
  have owners : (d.served gw req queue engine).owner =
      fun x => if core.inBooks x && !d.engine.core.inBooks x then req.op.request else d.owner x := by
    funext x
    simp only [Deployment.owner, Deployment.served, books]
    split
    · rcases requests with none_put | put
      · simp [none_put]
      · simp [put]
    · rfl
  constructor
  · obtain ⟨healthy, mirror, drained⟩ := after
    rw [← same] at healthy mirror drained
    refine ⟨healthy, ?_, drained⟩
    change Mirror (d.served gw req queue engine).owner engine.core
    rw [owners]
    exact mirror
  · intro x held
    cases before : d.engine.core.inBooks x with
    | true => exact .inl ⟨rfl, by simp [Deployment.served, before]⟩
    | false =>
      refine .inr ?_
      rcases apply_effect sound room applied with ⟨_, _, withdrawn⟩ | ⟨_, _, _, _, _, _, _, _, _, put⟩
      · rw [books] at held
        obtain ⟨i, s, p, q, rests⟩ := (inBooks_iff x).mp held
        have old := (inBooks_iff x).mpr ⟨i, s, p, q, ((withdrawn.rests i s p x q).mp rests).1⟩
        exact nomatch before.symm.trans old
      · simp [Deployment.served, before, held, put]

theorem Accounted.order (accounted : Accounted d) (first : First d gw req) (other : req.type ≠ .kClientConnect)
    (served : Engine.OrderServed d.engine engine req.toOrderRequest)
    (sound : ({ d with engine, sender } : Deployment maxSymbols).audited.Sound)
    (senders : ∀ x, engine.core.inBooks x = true →
      (d.engine.core.inBooks x = true ∧ sender x = d.sender x) ∨ sender x = some req) :
    Accounted { d with engine, sender } := by
  have holds : ∀ pid sessionId, d.Holds pid sessionId →
      ({ d with engine, sender } : Deployment maxSymbols).Holds pid sessionId :=
    fun pid sessionId ⟨assigned, active, holder⟩ => ⟨assigned, by simpa only [served.sessions] using active, holder⟩
  refine ⟨sound, { accounted.tenancy with }, accounted.future,
    accounted.nonzero, ?_, ?_, ?_⟩
  · intro pid bound
    have ok := accounted.processes pid bound
    exact { ok with serving := fun serving sessionId assigned => holds _ _ (ok.serving serving sessionId assigned) }
  · intro slot
    have queue := accounted.queues slot
    obtain ⟨added, appended, addressed⟩ := served.responses slot
    refine { queue with
      others := fun req member type => holds _ _ (queue.others req member type), answers := ?_, single := ?_ }
    · intro event member assigned
      dsimp only at member
      rw [appended.items, mem_append] at member
      rcases member with old | new
      · exact queue.answers event old assigned
      · exact absurd assigned (addressed event new).2.1
    · dsimp only
      rw [appended.items]
      refine pairwise_append.mpr ⟨queue.single, ?_, ?_⟩
      · exact List.Pairwise.imp_of_mem (fun member _ _ assigned => absurd assigned (addressed _ member).2.1)
          (pairwise_of_forall fun _ _ => trivial)
      · exact fun event _ later member _ => (addressed later member).2.1
  · intro x held
    rcases senders x held with ⟨before, same⟩ | own
    · obtain ⟨req, sender, owned⟩ := accounted.resting x before
      exact ⟨req, same.trans sender, holds _ _ owned⟩
    · exact ⟨req, own, holds _ _ (first.other other)⟩

variable {sessionId : UInt16}

theorem Deployment.Holds.disconnect (holds : d.Holds pid sessionId)
    (ending : d.Holds req.process req.sessionId) (other : pid ≠ req.process)
    (done : d.engine.core.onClientDisconnect req.sessionId = some core) (sender : Nat → Option PushedRequest) :
    ({ d with engine := { d.engine with core }, sender } : Deployment maxSymbols).Holds pid sessionId := by
  have ne : sessionId ≠ req.sessionId := by
    rintro rfl
    exact other (mem_unique holds.holder ending.holder)
  exact { holds with active := (onClientDisconnect_others ne done).trans holds.active }

theorem Accounted.disconnect (accounted : Accounted d) (first : First d gw req) (type : req.type = .kClientDisconnect)
    (done : d.engine.core.onClientDisconnect req.sessionId = some core)
    (sound : ({ d with engine := { d.engine with core }, sender } : Deployment maxSymbols).audited.Sound)
    (senders : ∀ x, core.inBooks x = true → d.engine.core.inBooks x = true ∧ sender x = d.sender x) :
    Accounted { d with engine := { d.engine with core }, sender } := by
  have ending := first.other (by simp [type])
  have known := accounted.nonzero _ _ ending.assigned
  obtain ⟨past, unqueued⟩ := first.disconnect type
  refine ⟨sound, { accounted.tenancy with }, accounted.future,
    accounted.nonzero, ?_, ?_, ?_⟩
  · intro pid bound
    have ok := accounted.processes pid bound
    refine { ok with serving := fun serving sessionId assigned =>
      (ok.serving serving sessionId assigned).disconnect ending ?_ done sender }
    rintro rfl
    exact nomatch past.symm.trans serving
  · intro slot
    have queue := accounted.queues slot
    exact { queue with others := fun later member other =>
      (queue.others later member other).disconnect ending (unqueued slot later member) done sender }
  · intro x held
    -- The disconnect takes every order of the session out of the books.
    obtain ⟨healthy, mirror, drained⟩ := accounted.sound
    have withdrawn := onClientDisconnect_effect healthy mirror drained done
    obtain ⟨i, s, p, q, rests⟩ := (inBooks_iff x).mp held
    obtain ⟨before, kept⟩ := (withdrawn.rests i s p x q).mp rests
    have old := (inBooks_iff x).mpr ⟨i, s, p, q, before⟩
    obtain ⟨owner, sent, owned⟩ := accounted.resting x old
    refine ⟨owner, (senders x held).2.trans sent, owned.disconnect ending ?_ done sender⟩
    intro mine
    obtain ⟨_, reverse, found, _⟩ := mirror.mapped i s p x q before
    have read := mirror.owned x reverse found
    change d.owner x = _ at read
    rw [Deployment.owner, sent, map_some, some.injEq, Prod.mk.injEq] at read
    have session : owner.sessionId = req.sessionId := by
      have assigned := owned.assigned
      rw [mine, ending.assigned] at assigned
      exact (some.inj assigned).symm
    exact kept ⟨known, reverse, found, read.1.symm.trans session⟩

theorem Deployment.Holds.connect {session : UInt16} (holds : d.Holds pid session)
    (unassigned : d.assigned req.process = none) (done : d.engine.core.onClientConnect = some (sessionId, core)) :
    update d.assigned req.process (some sessionId) pid = some session ∧ core.activeSessions session = true ∧
      update d.holder sessionId (some req.process) session = some pid := by
  obtain ⟨_, unused, active⟩ := findSession_new done
  obtain ⟨assigned, before, holder⟩ := holds
  have ne : pid ≠ req.process := by
    rintro rfl
    exact nomatch unassigned.symm.trans assigned
  have ne' : session ≠ sessionId := by
    rintro rfl
    exact nomatch unused.symm.trans before
  rw [update_of_ne ne, update_of_ne ne', active, update_of_ne ne']
  exact ⟨assigned, before, holder⟩

theorem Accounted.connect (accounted : Accounted d) (first : First d gw req) (type : req.type = .kClientConnect)
    {responses : EventQueue} (done : d.engine.core.onClientConnect = some (sessionId, core))
    (answered : (d.engine.responseQueues gw).Appended responses [Engine.sessionAssigned req.toOrderRequest sessionId])
    {sessionToGateway : UInt16 → Nat}
    (sound : ({ d with engine := { d.engine with core }, sender } : Deployment maxSymbols).audited.Sound)
    (senders : ∀ x, core.inBooks x = true → d.engine.core.inBooks x = true ∧ sender x = d.sender x) :
    Accounted { d with
      engine := { d.engine with
        core, sessionToGateway, responseQueues := update d.engine.responseQueues gw responses }
      assigned := update d.assigned req.process (some sessionId)
      holder := update d.holder sessionId (some req.process)
      sender } := by
  obtain ⟨nonzero, _, active⟩ := findSession_new done
  obtain ⟨unassigned, serving, empty⟩ := first.connect type
  have tenant := (accounted.tenancy.acting first.started (.inr serving)).1
  rw [first.slot] at tenant
  have waits := (accounted.processes _ first.started).waits unassigned
  have silent : ∀ event ∈ (d.engine.responseQueues gw).items, event.type ≠ .kSessionAssigned := by
    intro event member assigned
    obtain ⟨other, here, _, _, granted⟩ := (accounted.queues gw).answers event member assigned
    rw [tenant] at here
    cases here
    exact nomatch unassigned.symm.trans granted
  refine ⟨sound, { accounted.tenancy with }, ?_, ?_, ?_, ?_, ?_⟩
  · intro pid later
    have ne : pid ≠ req.process := Nat.ne_of_gt (Nat.lt_of_lt_of_le first.started later)
    simpa [ne] using accounted.future pid later
  · intro pid session assigned
    by_cases here : pid = req.process
    · subst here
      simp only [update_self, some.injEq] at assigned
      exact assigned ▸ nonzero
    · simp only [update_of_ne here] at assigned
      exact accounted.nonzero pid session assigned
  · intro pid bound
    have ok := accounted.processes pid bound
    by_cases here : pid = req.process
    · subst here
      refine ⟨fun known => absurd waits known, ?_, ?_, ?_, ?_⟩
      · intro cur parsing known
        exact nomatch unassigned.symm.trans (ok.parsing cur parsing known)
      · exact ok.leaving
      · intro early
        exact nomatch (RecvState.not_serving_of_early early).symm.trans serving
      · intro _ session assigned
        simp only [update_self, some.injEq] at assigned
        subst assigned
        exact ⟨by simp, by simp [active], by simp⟩
    · refine ⟨?_, ?_, ok.leaving, ?_, ?_⟩
      · simpa [here] using ok.session
      · simpa [here] using ok.parsing
      · simpa [here] using ok.early
      · intro serving session assigned
        simp only [update_of_ne here] at assigned
        obtain ⟨assigned, active, holder⟩ := (ok.serving serving session assigned).connect unassigned done
        exact ⟨assigned, active, holder⟩
  · intro slot
    have queue := accounted.queues slot
    refine ⟨queue.requests, ?_, queue.ordered, queue.ended, ?_, ?_, ?_⟩
    · intro later member connect
      obtain ⟨waiting, others⟩ := queue.connects later member connect
      refine ⟨?_, others⟩
      have ne : later.process ≠ req.process := by
        intro same
        have here := (queue.requests later member).2.2
        rw [same, first.slot] at here
        rw [← here, empty] at member
        cases member
      simpa [ne] using waiting
    · intro later member other
      obtain ⟨assigned, active, holder⟩ := (queue.others later member other).connect unassigned done
      exact ⟨assigned, active, holder⟩
    · intro event member assigned
      by_cases here : slot = gw
      · subst here
        simp only [update_self, answered.items, mem_append, mem_singleton] at member
        rcases member with old | rfl
        · exact absurd assigned (silent event old)
        · exact ⟨req.process, tenant, serving, waits, by simp [Engine.sessionAssigned]⟩
      · simp only [update_of_ne here] at member
        obtain ⟨pid, there, served, waiting, granted⟩ := queue.answers event member assigned
        have ne : pid ≠ req.process := by
          rintro rfl
          exact here ((accounted.tenancy.tenants slot _ there).2.symm.trans first.slot)
        exact ⟨pid, there, served, waiting, by simpa [ne] using granted⟩
    · by_cases here : slot = gw
      · subst here
        simp only [update_self, answered.items]
        refine pairwise_append.mpr ⟨queue.single, pairwise_singleton _ _, ?_⟩
        exact fun event member _ _ assigned => absurd assigned (silent event member)
      · simpa [here] using queue.single
  · intro x held
    obtain ⟨before, same⟩ := senders x held
    obtain ⟨owner, sent, owned⟩ := accounted.resting x before
    obtain ⟨assigned, active, holder⟩ := owned.connect unassigned done
    exact ⟨owner, same.trans sent, assigned, active, holder⟩

section

variable (attended : Attended d) (popped : (d.requestQueues gw).tryPop = some (req, queue))
include attended popped

theorem Attended.pop (sessionId : UInt16)
    (active : d.engine.core.activeSessions sessionId = true) :
    (∃ pid < d.started, d.Holds pid sessionId ∧ ((d.processes pid).recv.serving = true ∨
      ∃ later ∈ (update d.requestQueues gw queue (d.processes pid).gatewayId).items,
        later.process = pid ∧ later.type = .kClientDisconnect)) ∨
    (req.type = .kClientDisconnect ∧ d.Holds req.process sessionId) := by
  obtain ⟨items, _⟩ := FixedSPSCQueue.tryPop_eq_some popped
  obtain ⟨pid, bound, holds, serving | ⟨later, member, mine, disconnect⟩⟩ := attended sessionId active
  · exact .inl ⟨pid, bound, holds, .inl serving⟩
  by_cases here : (d.processes pid).gatewayId = gw
  · rw [here, items, mem_cons] at member
    rcases member with rfl | waiting
    · exact .inr ⟨disconnect, mine ▸ holds⟩
    · exact .inl ⟨pid, bound, holds, .inr ⟨later, by rwa [here, update_self], mine, disconnect⟩⟩
  · exact .inl ⟨pid, bound, holds, .inr ⟨later, by rwa [update_of_ne here], mine, disconnect⟩⟩

theorem Attended.order
    (other : req.type ≠ .kClientDisconnect) (served : Engine.OrderServed d.engine engine req.toOrderRequest)
    (sender : Nat → Option PushedRequest) :
    Attended { d with engine, requestQueues := update d.requestQueues gw queue, sender } := by
  intro sessionId active
  have before : d.engine.core.activeSessions sessionId = true := by rwa [← served.sessions]
  rcases attended.pop popped sessionId before with ⟨pid, bound, ⟨assigned, _, holder⟩, state⟩ | ⟨disconnect, _⟩
  · exact ⟨pid, bound, ⟨assigned, active, holder⟩, state⟩
  · exact absurd disconnect other

theorem Attended.disconnect
    (ending : d.Holds req.process req.sessionId) (known : req.sessionId ≠ 0)
    (done : d.engine.core.onClientDisconnect req.sessionId = some core) (sender : Nat → Option PushedRequest) :
    Attended { d with
      engine := { d.engine with core }, requestQueues := update d.requestQueues gw queue, sender } := by
  intro sessionId active
  dsimp only at active
  have ne : sessionId ≠ req.sessionId := by
    rintro rfl
    rw [onClientDisconnect_sessions known done, update_self] at active
    cases active
  have before : d.engine.core.activeSessions sessionId = true := by rwa [← onClientDisconnect_others ne done]
  rcases attended.pop popped sessionId before with ⟨pid, bound, ⟨assigned, _, holder⟩, state⟩ | ⟨_, mine⟩
  · exact ⟨pid, bound, ⟨assigned, active, holder⟩, state⟩
  · exact absurd (mem_unique mine.assigned ending.assigned) ne

theorem Attended.connect
    (type : req.type = .kClientConnect) (started : req.process < d.started) (unassigned : d.assigned req.process = none)
    (serving : (d.processes req.process).recv.serving = true)
    (done : d.engine.core.onClientConnect = some (sessionId, core)) (sessionToGateway : UInt16 → Nat)
    (responseQueues : Nat → EventQueue) (sender : Nat → Option PushedRequest) :
    Attended { d with
      engine := { d.engine with core, sessionToGateway, responseQueues }
      requestQueues := update d.requestQueues gw queue
      assigned := update d.assigned req.process (some sessionId)
      holder := update d.holder sessionId (some req.process)
      sender } := by
  obtain ⟨_, _, opened⟩ := findSession_new done
  intro session active
  by_cases new : session = sessionId
  · subst new
    exact ⟨req.process, started, ⟨by simp, active, by simp⟩, .inl serving⟩
  · have before : d.engine.core.activeSessions session = true := by simpa [opened, new] using active
    rcases attended.pop popped session before with ⟨pid, bound, holds, state⟩ | ⟨disconnect, _⟩
    · obtain ⟨assigned, active, holder⟩ := holds.connect unassigned done
      exact ⟨pid, bound, ⟨assigned, active, holder⟩, state⟩
    · exact nomatch type.symm.trans disconnect

end

theorem senders_kept (gw : Nat) (queue : PushedQueue) (sound : d.audited.Sound) (quiet : req.op.request = none)
    (room : IdRoom d.engine.core req.op) (applied : d.engine.core.apply req.op = some core) (drained : core.events = [])
    (same : engine.core = core) :
    (d.served gw req queue engine).audited.Sound ∧ ∀ x, core.inBooks x = true →
      d.engine.core.inBooks x = true ∧ (d.served gw req queue engine).sender x = d.sender x := by
  have nothing : core.drainEvents.2 = core := by simp [drainEvents, ← drained]
  obtain ⟨after, senders⟩ := sound_after gw queue sound room applied (same.trans nothing.symm)
  refine ⟨after, fun x held => ?_⟩
  rcases senders x (same ▸ held) with old | ⟨put, _⟩
  · exact old
  · exact absurd quiet put

theorem accounted_attended_poll (accounted : Accounted d) (attended : Attended d) (configured : ¬ numGateways ≤ gw)
    (popped : (d.requestQueues gw).tryPop = some (req, queue)) (room : IdRoom d.engine.core req.op)
    (processed : d.engine.processRequest numGateways req.toOrderRequest = some engine) (kept : engine.drops = 0) :
    Accounted (d.served gw req queue engine) ∧ Attended (d.served gw req queue engine) := by
  obtain ⟨accounted', first⟩ := accounted.pop popped
  have sound := accounted.sound
  have usable : Usable d.engine.core := { sound.healthy with }
  rw [← first.gateway] at configured
  rcases Engine.processRequest_cases usable sound.drained configured processed with
    ⟨type, sessionId, core, connected, ⟨responses, answered, same⟩ | ⟨_, lost⟩⟩ | ⟨type, core, ended, same⟩ |
      ⟨⟨other, other'⟩, served⟩
  · have drained := (onClientConnect_quiet usable connected).events.trans sound.drained
    have core_eq : engine.core = core := congrArg Engine.core same
    obtain ⟨after, senders⟩ := senders_kept gw queue sound (by simp [OrderRequest.op, type, Op.request]) room
      (by simp [OrderRequest.op, type, ExchangeCore.apply, connected]) drained core_eq
    have grant : Deployment.granted d.engine engine req.toOrderRequest = some sessionId := by
      simp [Deployment.granted, type, connected, same]
    obtain ⟨unassigned, serving, _⟩ := first.connect type
    unfold Deployment.served at after senders ⊢
    simp only [grant, elim_some] at after senders ⊢
    subst same
    rw [first.gateway] at answered ⊢
    exact ⟨accounted'.connect first type connected answered after senders,
      attended.connect popped type first.started unassigned serving connected _ _ _⟩
  · exact absurd (lost.symm.trans kept) (Nat.succ_ne_zero _)
  · have drained := (onClientDisconnect_quiet usable ended).events.trans sound.drained
    have core_eq : engine.core = core := congrArg Engine.core same
    obtain ⟨after, senders⟩ := senders_kept gw queue sound (by simp [OrderRequest.op, type, Op.request]) room
      (by simp [OrderRequest.op, type, ExchangeCore.apply, ended]) drained core_eq
    have ending := first.other (by simp [type])
    unfold Deployment.served at after senders ⊢
    rw [granted_of_other (by simp [type])] at after senders ⊢
    subst same
    exact ⟨accounted'.disconnect first type ended after senders,
      attended.disconnect popped { ending with } (accounted.nonzero _ _ ending.assigned) ended _⟩
  · obtain ⟨core, applied, same⟩ := served.applied
    obtain ⟨after, senders⟩ := sound_after gw queue sound room applied same
    unfold Deployment.served at after senders ⊢
    rw [granted_of_other other] at after senders ⊢
    exact ⟨accounted'.order first other served after fun x held => (senders x held).imp_right And.right,
      attended.order popped other' served _⟩

end Poll

/-- As long as no push has failed, the engine's sessions and orders have owners that will account for them. -/
def Kept (d : Deployment maxSymbols) : Prop :=
  d.failedPushes = 0 → d.engine.drops = 0 → Accounted d ∧ Attended d

theorem Kept.step {op : DeploymentOp} (inv : Kept d) (known : d.SessionKnown op)
    (stepped : d.step numGateways op = some d') : Kept d' := by
  intro unfailed kept
  have moved := Deployment.step_eq_some stepped
  have tenancy := fun accounted : Accounted d => accounted.tenancy.step moved
  cases moved with
  | idle => exact inv unfailed kept
  | claim free =>
    obtain ⟨accounted, attended⟩ := inv unfailed kept
    exact ⟨accounted.claim free, attended.claim _⟩
  | signal =>
    obtain ⟨accounted, attended⟩ := inv unfailed kept
    exact ⟨accounted.flags (tenancy accounted) rfl rfl rfl, attended.local_step rfl rfl⟩
  | recv started effect =>
    obtain ⟨before, pushed_all⟩ := Nat.add_eq_zero_iff.mp unfailed
    obtain ⟨accounted, attended⟩ := inv before kept
    exact ⟨accounted.recv started known effect, attended.recv (accounted.processes _ started) pushed_all effect⟩
  | send started active effect =>
    obtain ⟨accounted, attended⟩ := inv unfailed kept
    exact ⟨accounted.send (tenancy accounted) started active effect, attended.local_step effect.gatewayId effect.recv⟩
  | release =>
    obtain ⟨accounted, attended⟩ := inv unfailed kept
    exact ⟨accounted.flags (tenancy accounted) rfl rfl rfl, attended.local_step rfl rfl⟩
  | poll configured popped processed =>
    obtain ⟨accounted, attended⟩ := inv unfailed (Engine.processRequest_drops processed kept)
    obtain ⟨items, _⟩ := FixedSPSCQueue.tryPop_eq_some popped
    exact accounted_attended_poll accounted attended configured popped (known _ (by simp [items])) processed kept
  | popMarketData =>
    obtain ⟨accounted, attended⟩ := inv unfailed kept
    have same : d.processes = update d.processes 0 (d.processes 0) := (update_eq_self _ _).symm
    have tenancy := tenancy accounted
    rw [same] at tenancy ⊢
    exact ⟨accounted.flags tenancy rfl rfl rfl, attended.local_step rfl rfl⟩

theorem Fresh.kept {core : ExchangeCore maxSymbols} (fresh : Fresh core)
    (closed : ∀ sessionId, core.activeSessions sessionId = false) :
    Kept ({ engine := { core } } : Deployment maxSymbols) := by
  intro _ _
  constructor
  · exact {
      sound := fresh.sound
      tenancy := tenancy_initial core
      future := fun _ _ => rfl
      nonzero := fun _ _ assigned => nomatch assigned
      processes := fun pid bound => absurd bound (Nat.not_lt_zero pid)
      queues := fun _ => {
        requests := fun _ member => nomatch member
        connects := fun _ member => nomatch member
        ordered := List.Pairwise.nil
        ended := fun _ member => nomatch member
        others := fun _ member => nomatch member
        answers := fun _ member => nomatch member
        single := List.Pairwise.nil }
      resting := fun x held => by
        obtain ⟨i, s, p, q, rests⟩ := (inBooks_iff x).mp held
        exact absurd rests (fresh.empty i s p x q) }
  · intro sessionId active
    exact nomatch (closed sessionId).symm.trans active

theorem Attended.cleaned (attended : Attended d) (accounted : Accounted d) (past : d.Over pid) : d.Cleaned pid := by
  obtain ⟨known, exited, taken⟩ := past
  have inactive : ∀ sessionId, d.engine.core.activeSessions sessionId = true → d.holder sessionId ≠ some pid := by
    intro sessionId active holder
    obtain ⟨other, _, holds, serving | ⟨req, member, mine, _⟩⟩ := attended sessionId active
    · obtain rfl := mem_unique holder holds.holder
      rw [(accounted.tenancy.gone pid known exited).2.1] at serving
      cases serving
    · obtain rfl := mem_unique holder holds.holder
      exact taken req member mine
  refine ⟨inactive, fun x held req sent mine => ?_⟩
  obtain ⟨_, sender, holds⟩ := accounted.resting x held
  obtain rfl := mem_unique sent sender
  exact inactive _ holds.active (mine ▸ holds.holder)

/-- If the recv thread knows the session whenever it takes leave, nothing is left of a client that is gone. -/
theorem run_cleaned {symbols : List (Nat × Params)} {core : ExchangeCore maxSymbols} {ops : List DeploymentOp}
    (registered : registerAll symbols {} = some core)
    (known : Along numGateways Deployment.SessionKnown ops { engine := { core } })
    (ran : run numGateways ops { engine := { core } } = some d) (unfailed : d.failedPushes = 0)
    (kept : d.engine.drops = 0) {pid : Nat} (past : d.Over pid) : d.Cleaned pid := by
  have closed : ∀ sessionId, core.activeSessions sessionId = false := fun sessionId => by
    rw [registerAll_frame registered]
  have inv := Transition.run_invariant (fun inv known stepped => Kept.step inv known stepped)
    ((fresh_initial.registerAll registered).kept closed) known ran
  obtain ⟨accounted, attended⟩ := inv unfailed kept
  exact attended.cleaned accounted past

def stayOps : List DeploymentOp := [
  .claim 0, .recv 0 (.accept 5), .recv 0 .data, .recv 0 .data, .poll 0, .send 0 true, .send 0 true,
  .recv 0 .data, .recv 0 (.message (.newOrder ⟨7, 1, .kAsk, 100, 5, 0⟩)), .poll 0, .send 0 true,
  .recv 0 .incomplete, .recv 0 .closed, .recv 0 .data, .recv 0 .data, .recv 0 .data, .poll 0,
  .send 0 true, .send 0 true, .send 0 true, .release 0]

theorem run_cleaned_stay : registerAll [(1, tinyParams)] {} = some tinyCore ∧
    Along 1 Deployment.SessionKnown stayOps { engine := { core := tinyCore } } ∧
    ∃ d, run 1 stayOps { engine := { core := tinyCore } } = some d ∧ d.failedPushes = 0 ∧ d.engine.drops = 0 ∧
      d.Over 0 ∧ d.Cleaned 0 := by
  have known : Along 1 Deployment.SessionKnown stayOps { engine := { core := tinyCore } } := by decide +kernel
  obtain ⟨d, ran, unfailed, kept, past⟩ : ∃ d, run 1 stayOps { engine := { core := tinyCore } } = some d ∧
      d.failedPushes = 0 ∧ d.engine.drops = 0 ∧ d.Over 0 := by decide +kernel
  exact ⟨registerAll_tinyCore, known, d, ran, unfailed, kept, past,
    run_cleaned registerAll_tinyCore known ran unfailed kept past⟩

/-- The client connects and hangs up before the engine has answered: the process leaves without a word, and the engine
then opens a session that nobody will ever close. -/
def hangUpOps : List DeploymentOp := [
  .claim 0, .recv 0 (.accept 5), .recv 0 .data, .recv 0 .data, .recv 0 .closed, .recv 0 .data, .recv 0 .data,
    .recv 0 .data,
  .send 0 true, .release 0, .poll 0]

theorem run_not_cleaned : ∃ d, registerAll [(1, tinyParams)] {} = some tinyCore ∧
    run 1 hangUpOps { engine := { core := tinyCore } } = some d ∧ d.failedPushes = 0 ∧ d.engine.drops = 0 ∧
    d.Over 0 ∧ ¬ d.Cleaned 0 := by
  obtain ⟨d, ran, unfailed, kept, past, active, holder⟩ : ∃ d, run 1 hangUpOps { engine := { core := tinyCore } } =
      some d ∧ d.failedPushes = 0 ∧ d.engine.drops = 0 ∧ d.Over 0 ∧ d.engine.core.activeSessions 1 = true ∧
      d.holder 1 = some 0 := by decide +kernel
  exact ⟨d, registerAll_tinyCore, ran, unfailed, kept, past, fun cleaned => cleaned.1 1 active holder⟩

end TickToTrade.Exchange
