import TickToTrade.Exchange.GatewayEffects

/-!
The tenants of the gateway slots. A process is the tenant of its slot from the claim to the release.
-/

namespace TickToTrade.Exchange
open Algo Ds Probing Sys ExchangeCore Deployment Option Function
open Deployment (received step)

variable {maxSymbols numGateways : Nat} {d d' : Deployment maxSymbols}
variable {g : GatewayProcess} {failed : Nat} {pushed : List PushedRequest} {gw : Nat}

/-! ### Phases of the recv thread -/

theorem RecvState.not_serving_of_early {state : RecvState} (early : state.early = true) : state.serving = false := by
  cases state <;> first | rfl | cases early

variable {pid : Nat} {next : RecvState}

section

variable (outcome : RecvOutcome g pid next pushed failed)
include outcome

theorem RecvOutcome.early
    (early : next.early = true) : g.recv.early = true ∧ pushed = [] := by
  cases outcome with
  | stays same => exact ⟨same ▸ early, rfl⟩
  | quits => cases early
  | connects => cases early
  | requests => cases early
  | disconnects => cases early
  | silent => cases early

theorem RecvOutcome.serving
    (serving : next.serving = true) :
    g.recv.serving = true ∨ g.recv.early = true := by
  cases outcome with
  | stays _ same => exact .inl (same ▸ serving)
  | quits => cases serving
  | connects here => exact .inr (by rw [here]; rfl)
  | requests here => exact .inl (by rw [here]; rfl)
  | disconnects => cases serving
  | silent => cases serving

theorem RecvOutcome.parsing {cur : UInt16}
    (there : next = .parsing cur) : cur = g.session ∨ g.recv = .parsing cur := by
  subst there
  cases outcome with
  | stays _ _ parses _ => exact parses cur rfl
  | requests before => exact .inr before

theorem RecvOutcome.leaving {final : UInt16}
    (there : next = .disconnecting final) : g.recv = .leaving ∧ final = g.session := by
  subst there
  cases outcome with
  | stays _ _ _ leaves => exact leaves final rfl

/-- A step pushes at most one request: the connect of a new client, or a request for the session that the thread has
read. -/
theorem RecvOutcome.pushed_cases :
    pushed = [] ∨ ∃ req : PushedRequest, pushed = [req] ∧ req.process = pid ∧
      req.gatewayId = g.gatewayId ∧ ((req.type = .kClientConnect ∧ g.recv.early = true) ∨
        (req.type ≠ .kClientConnect ∧ g.recv.serving = true ∧ req.sessionId ≠ 0 ∧
          (g.recv = .parsing req.sessionId ∨ g.recv = .disconnecting req.sessionId) ∧
          (req.type = .kClientDisconnect → next.serving = false))) := by
  cases outcome with
  | stays => exact .inl rfl
  | quits => exact .inl rfl
  | connects here => exact .inr ⟨_, rfl, rfl, rfl, .inl ⟨rfl, by rw [here]; rfl⟩⟩
  | requests here known gateway session order =>
    exact .inr ⟨_, rfl, rfl, gateway, .inr ⟨order.1, by rw [here]; rfl, session ▸ known, .inl (session ▸ here),
      fun disconnect => absurd disconnect order.2⟩⟩
  | disconnects here known =>
    exact .inr ⟨_, rfl, rfl, rfl,
      .inr ⟨by simp [GatewayProcess.disconnectRequest], by rw [here]; rfl, known, .inr here, fun _ => rfl⟩⟩
  | silent => exact .inl rfl

end

/-! ### Steps -/

abbrev Deployment.Receives (d : Deployment maxSymbols) (pid : Nat) (out : GatewayProcess.Received)
    (pushed : List PushedRequest) : Prop :=
  RecvEffect (d.processes pid) pid (d.requestQueues (d.processes pid).gatewayId) out pushed

/-- Everything that a step can do. -/
inductive Deployment.Stepped (numGateways : Nat) (d : Deployment maxSymbols) : DeploymentOp →
    Deployment maxSymbols → Prop where
  | idle {op : DeploymentOp} : Stepped numGateways d op d
  | claim {gw : Nat} (free : d.claimed gw = false) : Stepped numGateways d (.claim gw) (d.claiming gw)
  | signal {pid : Nat} : Stepped numGateways d (.signal pid)
      { d with processes := update d.processes pid { d.processes pid with stop := true } }
  | recv {pid : Nat} {input : RecvInput} {out : GatewayProcess.Received} {pushed : List PushedRequest}
      (known : pid < d.started) (effect : d.Receives pid out pushed) :
      Stepped numGateways d (.recv pid input) (d.received pid out)
  | send {pid : Nat} {sent : Bool} {out : GatewayProcess × EventQueue} (known : pid < d.started)
      (active : (d.processes pid).send ≠ .finished)
      (effect : SendEffect (d.processes pid) out.1 (d.engine.responseQueues (d.processes pid).gatewayId) out.2) :
      Stepped numGateways d (.send pid sent) (d.sent pid out)
  | release {pid : Nat} (known : pid < d.started)
      (finished : (d.processes pid).recv = .finished ∧ (d.processes pid).send = .finished)
        (inside : (d.processes pid).exited = false) :
      Stepped numGateways d (.release pid) { d with
        claimed := update d.claimed (d.processes pid).gatewayId false
        processes := update d.processes pid { d.processes pid with exited := true } }
  | poll {gw : Nat} {req : PushedRequest} {queue : PushedQueue} {engine : Engine maxSymbols}
      (configured : ¬ numGateways ≤ gw) (popped : (d.requestQueues gw).tryPop = some (req, queue))
      (processed : d.engine.processRequest numGateways req.toOrderRequest = some engine) :
      Stepped numGateways d (.poll gw) (d.served gw req queue engine)
  | popMarketData {mdEventQueue : EventQueue} :
      Stepped numGateways d .popMarketData { d with engine := { d.engine with mdEventQueue } }

theorem Deployment.step_eq_some {op : DeploymentOp} (stepped : d.step numGateways op = some d') :
    Stepped numGateways d op d' := by
  cases op with
  | claim gw =>
    simp only [step] at stepped
    split at stepped
    · exact some.inj stepped ▸ .idle
    · rename_i free
      cases stepped
      exact .claim (by simpa using (not_or.mp free).2)
  | signal pid =>
    simp only [step] at stepped
    split at stepped
    · exact some.inj stepped ▸ .signal
    · exact some.inj stepped ▸ .idle
  | recv pid input =>
    simp only [step] at stepped
    split at stepped
    · rename_i known
      obtain ⟨pushed, effect⟩ :=
        (d.processes pid).recvStep_effect pid (d.requestQueues (d.processes pid).gatewayId) input
      exact some.inj stepped ▸ .recv known effect
    · exact some.inj stepped ▸ .idle
  | send pid sent =>
    simp only [step] at stepped
    split at stepped
    · rename_i known
      cases stepped
      by_cases finished : (d.processes pid).send = .finished
      · have idle : (d.processes pid).sendStep (d.engine.responseQueues (d.processes pid).gatewayId) sent =
            (d.processes pid, d.engine.responseQueues (d.processes pid).gatewayId) := by
          simp [GatewayProcess.sendStep, finished]
        rw [idle]
        simpa [Deployment.sent] using Stepped.idle
      · exact .send known finished ((d.processes pid).sendStep_effect _ sent)
    · exact some.inj stepped ▸ .idle
  | release pid =>
    simp only [step] at stepped
    split at stepped
    · rename_i done
      obtain ⟨known, recv, send, inside⟩ := done
      exact some.inj stepped ▸ .release known ⟨recv, send⟩ inside
    · exact some.inj stepped ▸ .idle
  | poll gw =>
    simp only [step] at stepped
    split at stepped
    · exact some.inj stepped ▸ .idle
    rename_i configured
    cases popped : (d.requestQueues gw).tryPop with
    | none =>
      simp only [popped] at stepped
      exact some.inj stepped ▸ .idle
    | some found =>
      simp only [popped] at stepped
      obtain ⟨engine, processed, stepped⟩ := bind_eq_some_iff.mp stepped
      exact some.inj stepped ▸ .poll configured popped processed
  | popMarketData =>
    cases popped : d.engine.mdEventQueue.tryPop with
    | none =>
      simp only [step, popped] at stepped
      exact some.inj stepped ▸ .idle
    | some found =>
      simp only [step, popped] at stepped
      exact some.inj stepped ▸ .popMarketData

/-! ### Slots -/

theorem claiming_older (bound : pid < d.started) : update d.processes d.started { gatewayId := gw } pid =
    d.processes pid :=
  update_of_ne (Nat.ne_of_lt bound) _ _

structure Tenancy (d : Deployment maxSymbols) : Prop where
  tenants : ∀ gw pid, d.tenant gw = some pid → pid < d.started ∧ (d.processes pid).gatewayId = gw
  live : ∀ pid < d.started, (d.processes pid).exited = false →
    d.tenant (d.processes pid).gatewayId = some pid ∧ d.claimed (d.processes pid).gatewayId = true
  gone : ∀ pid < d.started, (d.processes pid).exited = true →
    (d.processes pid).recv.early = false ∧ (d.processes pid).recv.serving = false ∧ (d.processes pid).send = .finished

section

variable (tenancy : Tenancy d)
include tenancy

theorem Tenancy.acting (known : pid < d.started)
    (acts : (d.processes pid).recv.early = true ∨ (d.processes pid).recv.serving = true) :
    d.tenant (d.processes pid).gatewayId = some pid ∧ d.claimed (d.processes pid).gatewayId = true := by
  refine tenancy.live pid known ?_
  by_contra exited
  obtain ⟨early, serving, _⟩ := tenancy.gone pid known (by simpa using exited)
  simp [early, serving] at acts

theorem Tenancy.local_step (gatewayId : g.gatewayId = (d.processes pid).gatewayId)
    (exited : g.exited = (d.processes pid).exited)
    (gone : pid < d.started → g.exited = true → g.recv.early = false ∧ g.recv.serving = false ∧ g.send = .finished)
    (engine : Engine maxSymbols) (requestQueues : Nat → PushedQueue) (failedPushes : Nat) :
    Tenancy { d with processes := update d.processes pid g, engine, requestQueues, failedPushes } := by
  refine ⟨?_, ?_, ?_⟩
  · intro gw other tenant
    obtain ⟨bound, gateway⟩ := tenancy.tenants gw other tenant
    refine ⟨bound, ?_⟩
    by_cases here : other = pid
    · subst here
      simpa [gatewayId] using gateway
    · simpa [here] using gateway
  · intro other bound
    by_cases here : other = pid
    · subst here
      simpa [gatewayId, exited] using tenancy.live other bound
    · simpa [here] using tenancy.live other bound
  · intro other bound
    by_cases here : other = pid
    · subst here
      simpa using gone bound
    · simpa [here] using tenancy.gone other bound

theorem Tenancy.claim (free : d.claimed gw = false) : Tenancy (d.claiming gw) := by
  refine ⟨?_, ?_, ?_⟩
  · intro slot pid tenant
    dsimp only at tenant ⊢
    by_cases here : slot = gw
    · subst here
      rw [update_self] at tenant
      cases tenant
      exact ⟨Nat.lt_succ_self _, by rw [update_self]⟩
    · rw [update_of_ne here] at tenant
      obtain ⟨bound, gateway⟩ := tenancy.tenants slot pid tenant
      exact ⟨by omega, by rw [claiming_older bound, gateway]⟩
  · intro pid bound inside
    rcases Nat.lt_succ_iff_lt_or_eq.mp bound with before | rfl
    · simp only [claiming_older before] at inside ⊢
      obtain ⟨tenant, claimed⟩ := tenancy.live pid before inside
      have elsewhere : (d.processes pid).gatewayId ≠ gw := by
        intro here
        rw [here, free] at claimed
        cases claimed
      rw [update_of_ne elsewhere, update_of_ne elsewhere]
      exact ⟨tenant, claimed⟩
    · simp
  · intro pid bound
    rcases Nat.lt_succ_iff_lt_or_eq.mp bound with before | rfl
    · simpa only [claiming_older before] using tenancy.gone pid before
    · simp

theorem Tenancy.release (known : pid < d.started)
    (finished : (d.processes pid).recv = .finished ∧ (d.processes pid).send = .finished)
    (inside : (d.processes pid).exited = false) : Tenancy { d with
      claimed := update d.claimed (d.processes pid).gatewayId false
      processes := update d.processes pid { d.processes pid with exited := true } } := by
  have mine := (tenancy.live pid known inside).1
  refine ⟨?_, ?_, ?_⟩
  · intro gw other tenant
    obtain ⟨bound, gateway⟩ := tenancy.tenants gw other tenant
    refine ⟨bound, ?_⟩
    by_cases here : other = pid
    · subst here
      simpa using gateway
    · simpa [here] using gateway
  · intro other bound
    by_cases here : other = pid
    · subst here
      simp
    · simp only [update_of_ne here]
      intro stays
      obtain ⟨tenant, claimed⟩ := tenancy.live other bound stays
      have elsewhere : (d.processes other).gatewayId ≠ (d.processes pid).gatewayId := by
        intro shared
        rw [shared, mine] at tenant
        exact here (some.inj tenant).symm
      rw [update_of_ne elsewhere]
      exact ⟨tenant, claimed⟩
  · intro other bound
    by_cases here : other = pid
    · subst here
      simp only [update_self, finished.1, finished.2]
      exact fun _ => ⟨rfl, rfl, trivial⟩
    · simpa [here] using tenancy.gone other bound

theorem Tenancy.recv {out : GatewayProcess.Received}
    (effect : d.Receives pid out pushed) :
    Tenancy (d.received pid out) := by
  obtain ⟨frame, _, outcome⟩ := effect
  refine tenancy.local_step frame.gatewayId frame.exited ?_ _ _ _
  intro known exited
  obtain ⟨early, serving, finished⟩ := tenancy.gone pid known (frame.exited ▸ exited)
  refine ⟨?_, ?_, frame.send.trans finished⟩
  · rw [Bool.eq_false_iff]
    intro next
    simp [(outcome.early next).1] at early
  · rw [Bool.eq_false_iff]
    intro next
    rcases outcome.serving next with before | before
    · simp [before] at serving
    · simp [before] at early

theorem Tenancy.sending (known : pid < d.started) (active : (d.processes pid).send ≠ .finished) :
    (d.processes pid).exited = false := by
  by_contra exited
  exact active (tenancy.gone pid known (by simpa using exited)).2.2

theorem Tenancy.step {op : DeploymentOp} (stepped : Stepped numGateways d op d') : Tenancy d' := by
  cases stepped with
  | idle => exact tenancy
  | claim free => exact tenancy.claim free
  | signal =>
    refine tenancy.local_step ?_ ?_ ?_ _ _ _
    · rfl
    · rfl
    · exact tenancy.gone _
  | recv known effect => exact tenancy.recv effect
  | send known active effect =>
    refine tenancy.local_step effect.gatewayId effect.exited (fun _ exited => ?_) _ _ _
    rw [effect.exited, tenancy.sending known active] at exited
    cases exited
  | release known finished inside => exact tenancy.release known finished inside
  | poll => exact { tenancy with }
  | popMarketData => exact { tenancy with }

end

theorem tenancy_initial (core : ExchangeCore maxSymbols) :
    Tenancy ({ engine := { core } } : Deployment maxSymbols) where
  tenants := fun _ _ tenant => nomatch tenant
  live := fun pid bound => absurd bound (Nat.not_lt_zero pid)
  gone := fun pid bound => absurd bound (Nat.not_lt_zero pid)

/-! ### The state after a step of a recv thread -/

section Received

variable {pid : Nat} {out : GatewayProcess.Received}

theorem received_self : (d.received pid out).processes pid = out.process := by simp [received]

theorem received_other {other : Nat} (ne : other ≠ pid) : (d.received pid out).processes other = d.processes other := by
  simp [received, ne]

theorem received_queue : (d.received pid out).requestQueues (d.processes pid).gatewayId = out.queue := by
  simp [received]

theorem received_elsewhere (ne : gw ≠ (d.processes pid).gatewayId) :
    (d.received pid out).requestQueues gw = d.requestQueues gw := by
  simp [received, ne]

end Received

/-! ### Queues that are taken from -/

theorem SendEffect.fewer {out : GatewayProcess × EventQueue}
    (effect : SendEffect (d.processes pid) out.1 (d.engine.responseQueues (d.processes pid).gatewayId) out.2)
    (gw : Nat) : ∀ event ∈ (update d.engine.responseQueues (d.processes pid).gatewayId out.2 gw).items,
      event ∈ (d.engine.responseQueues gw).items := by
  intro event member
  by_cases here : gw = (d.processes pid).gatewayId
  · subst here
    rw [update_self] at member
    rcases effect.session with ⟨same, _⟩ | ⟨first, items, _⟩
    · exact same ▸ member
    · rw [items]
      exact List.mem_cons_of_mem _ member
  · rwa [update_of_ne here] at member

theorem popped_fewer {req : PushedRequest} {queue : PushedQueue}
    (popped : (d.requestQueues gw).tryPop = some (req, queue))
    (slot : Nat) : ∀ later ∈ (update d.requestQueues gw queue slot).items, later ∈ (d.requestQueues slot).items := by
  intro later member
  by_cases here : slot = gw
  · subst here
    rw [update_self] at member
    rw [(FixedSPSCQueue.tryPop_eq_some popped).1]
    exact List.mem_cons_of_mem _ member
  · rwa [update_of_ne here] at member

end TickToTrade.Exchange
