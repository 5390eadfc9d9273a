import TickToTrade.Exchange.CallFrames
import TickToTrade.Lib.Transition

/-!
Every state the exchange can reach: symbols are registered, sessions come and go, requests are served
and the events are taken out, in any order.
-/

namespace TickToTrade.Exchange
open Algo Ds Probing Option Function

inductive Call where
  | register (symbolId : Nat) (params : Params)
  | request (op : Op)
  | drain

def Call.qty : Call → Nat
  | .request op => op.qty
  | _ => 0

namespace ExchangeCore

variable {maxSymbols : Nat} {core core' core₁ : ExchangeCore maxSymbols} {sessionId : UInt16} {idx : Nat}

def serve (core : ExchangeCore maxSymbols) : Call → Exec (ExchangeCore maxSymbols)
  | .register symbolId params => core.registerSymbol symbolId params
  | .request op => core.apply op
  | .drain => some core.drainEvents.2

abbrev serveAll : List Call → ExchangeCore maxSymbols → Exec (ExchangeCore maxSymbols) := Transition.run serve

/-! ### Tables and books -/

theorem usable_initial : Usable ({} : ExchangeCore maxSymbols) where
  maps := ⟨Table.fresh_wellFormed (p := 14) (by decide), Table.fresh_wellFormed (p := 10) (by decide),
    Table.fresh_wellFormed (p := 10) (by decide)⟩
  books := by
    intro i _ active
    cases active

variable {symbolId : Nat} {params : Params}

theorem registerSymbol_eq (registered : core.registerSymbol symbolId params = some core') :
    ∃ engine, MatchingEngine.create 64 params = some engine ∧
      core' = { core with symbols := update core.symbols (symbolId - 1) { engine, active := true } } := by
  unfold registerSymbol at registered
  split at registered
  · cases registered
  obtain ⟨engine, created, registered⟩ := bind_eq_some_iff.mp registered
  exact ⟨engine, created, (some.inj registered).symm⟩

theorem Usable.register (usable : Usable core)
    (registered : core.registerSymbol symbolId params = some core') : Usable core' := by
  obtain ⟨engine, created, rfl⟩ := registerSymbol_eq registered
  refine ⟨{ usable.maps with }, ?_⟩
  intro i bound active
  unfold bookOf
  by_cases here : i = symbolId - 1
  · subst here
    exact ⟨params, by simpa using MatchingEngine.create_sound created⟩
  · simp only [update_of_ne here] at active ⊢
    exact usable.books i bound active

theorem Usable.apply {op : Op} (usable : Usable core) (applied : core.apply op = some core') : Usable core' := by
  cases op with
  | connect =>
    obtain ⟨⟨sessionId, _⟩, connected, rfl⟩ := map_eq_some_iff.mp applied
    exact (onClientConnect_quiet usable connected).usable
  | disconnect sessionId => exact (onClientDisconnect_quiet usable applied).usable
  | submit sessionId order =>
    obtain ⟨_, responded⟩ := submitOrder_responded usable applied
    exact responded.usable
  | cancel sessionId cancel =>
    obtain ⟨_, responded⟩ := cancelOrder_responded usable applied
    exact responded.usable
  | modify sessionId modify =>
    obtain ⟨_, responded⟩ := modifyOrder_responded usable applied
    exact responded.usable

theorem Usable.serve {call : Call} (usable : Usable core) (served : core.serve call = some core') : Usable core' := by
  cases call with
  | register symbolId params => exact usable.register served
  | request op => exact usable.apply served
  | drain =>
    cases served
    exact ⟨{ usable.maps with }, usable.books⟩

theorem serveAll_usable {calls : List Call} (served : serveAll calls {} = some core) : Usable core :=
  Transition.run_keeps Usable (fun usable served => usable.serve served) usable_initial served

/-! ### What the engines keep -/

structure Lasting (P : MatchingEngine 64 → Prop) : Prop where
  create : ∀ {params e}, MatchingEngine.create 64 params = some e → P e
  submit : ∀ {params e id side price qty result e'}, OrderBook.Sound params e.book → P e → qty < 2 ^ 32 →
    e.submitOrder id side price qty = some (result, e') → P e'
  cancel : ∀ {params e id cancelled e'}, OrderBook.Sound params e.book → P e →
    e.cancelOrder id = some (cancelled, e') → P e'

def Engines (P : MatchingEngine 64 → Prop) (core : ExchangeCore maxSymbols) : Prop :=
  ∀ i, i < maxSymbols → (core.symbols i).active = true → P (core.symbols i).engine

variable {P : MatchingEngine 64 → Prop}

theorem Lasting.modify (lasting : Lasting P) {e e' : MatchingEngine 64} {oldId newId qty : Nat} {side : Side}
    {price : Int} {result : ModifyResult} (sound : OrderBook.Sound params e.book) (holds : P e) (word : qty < 2 ^ 32)
    (done : e.modifyOrder oldId side price qty newId = some (result, e')) : P e' := by
  obtain ⟨⟨cancelled, e₁⟩, withdrawn, done⟩ := bind_eq_some_iff.mp done
  have holds₁ := lasting.cancel sound holds withdrawn
  cases cancelled with
  | false =>
    cases done
    exact holds₁
  | true =>
    obtain ⟨⟨submitted, e₂⟩, resubmitted, done⟩ := bind_eq_some_iff.mp done
    cases done
    exact lasting.submit (cancelOrder_sound sound withdrawn) holds₁ word resubmitted

theorem Engines.setEngine (engines : Engines P core) {engine : MatchingEngine 64}
    (here : idx < maxSymbols → (core.symbols idx).active = true → P engine) :
    Engines P (core.setEngine idx engine) := by
  intro i bound active
  by_cases same : i = idx
  · subst same
    simp only [ExchangeCore.setEngine, update_self] at active ⊢
    exact here bound active
  · simp only [ExchangeCore.setEngine, update_of_ne same] at active ⊢
    exact engines i bound active

theorem Engines.reached {Request : MatchingEngine 64 → MatchingEngine 64 → Prop} {head : ExchangeEvent}
    (engines : Engines P core) (usable : Usable core) (reached : Reached core symbolId Request core₁)
    (reported : Reported core₁ core' head)
    (step : ∀ {params e e'}, OrderBook.Sound params e.book → P e → Request e e' → P e') : Engines P core' := by
  have symbols : core'.symbols = core₁.symbols := by rw [reported.frame]
  have before : Engines P core₁ := by
    cases reached with
    | untouched => exact engines
    | @called idx next engine known call =>
      have moved : Engines P ({ core with nextExchangeId := next } : ExchangeCore maxSymbols) := engines
      refine moved.setEngine fun bound active => ?_
      obtain ⟨params, sound⟩ := usable.books idx bound active
      exact step sound (engines idx bound active) call
  unfold Engines
  rw [symbols]
  exact before

section

variable (lasting : Lasting P) (usable : Usable core) (engines : Engines P core)
include lasting usable engines

theorem Engines.cancelSession {entries : List (Nat × IdEntry)} {keys : List Nat}
    (done : cancelSession sessionId entries core = some (keys, core')) : Engines P core' := by
  refine (cancelSession_keeps (fun core => Usable core ∧ Engines P core) ?_ ⟨usable, engines⟩ done).2
  intro core idx id cancelled engine ⟨usable, engines⟩ called
  constructor
  · refine usable.setEngine fun bound active => ?_
    obtain ⟨params, sound⟩ := usable.books idx bound active
    exact ⟨params, cancelOrder_sound sound called⟩
  · refine engines.setEngine fun bound active => ?_
    obtain ⟨params, sound⟩ := usable.books idx bound active
    exact lasting.cancel sound (engines idx bound active) called

theorem Engines.apply {op : Op} (word : op.qty < 2 ^ 32) (applied : core.apply op = some core') : Engines P core' := by
  cases op with
  | connect =>
    obtain ⟨⟨sessionId, _⟩, connected, rfl⟩ := map_eq_some_iff.mp applied
    rw [findSession_frame connected]
    exact engines
  | disconnect sessionId =>
    have applied : core.onClientDisconnect sessionId = some core' := applied
    unfold onClientDisconnect at applied
    split at applied
    · cases applied
      exact engines
    obtain ⟨⟨keys, core₁⟩, cancelled, applied⟩ := bind_eq_some_iff.mp applied
    obtain ⟨core₂, erased, forgotten⟩ := bind_eq_some_iff.mp applied
    let core₀ : ExchangeCore maxSymbols :=
      { core with activeSessions := update core.activeSessions sessionId false }
    have ended : Usable core₀ := ⟨{ usable.maps with }, usable.books⟩
    have still : Engines P core₀ := engines
    have first := still.cancelSession lasting ended cancelled
    rw [eraseSeen_frame forgotten, eraseMappings_frame erased]
    exact first
  | submit sessionId order =>
    cases submitOrder_submitted usable.maps.seen applied with
    | refused head reported _ _ =>
      refine engines.reached usable (.untouched : Reached core 0 (fun _ _ => False) core) reported ?_
      exact fun _ _ impossible => impossible.elim
    | noted head seen core₁ _ _ inserted reached reported _ _ =>
      have noted : Usable ({ core with seenOrders := seen } : ExchangeCore maxSymbols) :=
        ⟨{ usable.maps with seen := inserted.wellFormed }, usable.books⟩
      have still : Engines P ({ core with seenOrders := seen } : ExchangeCore maxSymbols) := engines
      refine still.reached noted reached reported fun sound holds call => ?_
      obtain ⟨result, called⟩ := call
      exact lasting.submit sound holds word called
  | cancel sessionId cancel =>
    obtain ⟨head, core₁, _, reached, reported⟩ := cancelOrder_reported applied
    refine engines.reached usable reached reported fun sound holds call => ?_
    obtain ⟨entry, cancelled, _, _, called⟩ := call
    exact lasting.cancel sound holds called
  | modify sessionId modify =>
    obtain ⟨head, core₁, _, reached, reported⟩ := modifyOrder_reported applied
    refine engines.reached usable reached reported fun sound holds call => ?_
    obtain ⟨entry, result, _, _, called⟩ := call
    exact lasting.modify sound holds word called

theorem Engines.serve {call : Call} (word : call.qty < 2 ^ 32) (served : core.serve call = some core') :
    Engines P core' := by
  cases call with
  | register symbolId params =>
    obtain ⟨engine, created, rfl⟩ := registerSymbol_eq served
    intro i bound active
    by_cases here : i = symbolId - 1
    · subst here
      simpa using lasting.create created
    · simp only [update_of_ne here] at active ⊢
      exact engines i bound active
  | request op => exact engines.apply lasting usable word served
  | drain =>
    cases served
    exact engines

end

/-- What the operations of an engine keep holds of every book in every state that is reached. -/
theorem serveAll_engines {calls : List Call} (lasting : Lasting P) (words : ∀ call ∈ calls, call.qty < 2 ^ 32)
    (served : serveAll calls {} = some core) : Engines P core := by
  have along : Transition.Along ExchangeCore.serve (fun _ call => call.qty < 2 ^ 32) calls
      ({} : ExchangeCore maxSymbols) :=
    Transition.along_of_forall fun _ call member => words call member
  have start : Usable ({} : ExchangeCore maxSymbols) ∧ Engines P ({} : ExchangeCore maxSymbols) := by
    refine ⟨usable_initial, ?_⟩
    intro i _ active
    cases active
  have step : ∀ {core : ExchangeCore maxSymbols} {call core'}, Usable core ∧ Engines P core → call.qty < 2 ^ 32 →
      core.serve call = some core' → Usable core' ∧ Engines P core' := fun inv word served =>
    ⟨inv.1.serve served, inv.2.serve lasting inv.1 word served⟩
  exact (Transition.run_invariant step start along served).2

end ExchangeCore

end TickToTrade.Exchange
