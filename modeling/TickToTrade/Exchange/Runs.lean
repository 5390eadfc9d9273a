import TickToTrade.Exchange.Disconnect
import TickToTrade.Lib.Transition

/-! Runs of the exchange: any sequence of calls, each followed by a drain of its events. -/

namespace TickToTrade.Exchange
open Algo Ds Probing PairedMaps Option Function

inductive Op where
  | connect
  | disconnect (sessionId : UInt16)
  | submit (sessionId : UInt16) (order : NewOrder)
  | cancel (sessionId : UInt16) (order : CancelOrder)
  | modify (sessionId : UInt16) (order : ModifyOrder)

/-- The session and client order id that a call may put into a book. -/
def Op.request : Op → Option (UInt16 × Nat)
  | .submit sessionId order => some (sessionId, order.clientOrderId)
  | .modify sessionId order => some (sessionId, order.clientOrderId)
  | _ => none

def Op.qty : Op → Nat
  | .submit _ order => order.qty
  | .modify _ order => order.newQty
  | _ => 0

namespace ExchangeCore

variable {maxSymbols : Nat} {core core' : ExchangeCore maxSymbols}

def registerAll : List (Nat × Params) → ExchangeCore maxSymbols → Exec (ExchangeCore maxSymbols)
  | [], core => some core
  | (symbolId, params) :: rest, core => do
    let core ← core.registerSymbol symbolId params
    registerAll rest core

def apply (core : ExchangeCore maxSymbols) : Op → Exec (ExchangeCore maxSymbols)
  | .connect => core.onClientConnect.map Prod.snd
  | .disconnect sessionId => core.onClientDisconnect sessionId
  | .submit sessionId order => core.submitOrder sessionId order
  | .cancel sessionId order => core.cancelOrder sessionId order
  | .modify sessionId order => core.modifyOrder sessionId order

def inBooks (core : ExchangeCore maxSymbols) (x : Nat) : Bool :=
  (List.range maxSymbols).any fun i => (core.symbols i).active && PriceTime.isLive (core.bookOf i).levels x

theorem inBooks_iff (x : Nat) : core.inBooks x = true ↔ ∃ i s p q, core.Rests i s p x q := by
  simp only [inBooks, List.any_eq_true, List.mem_range, Bool.and_eq_true, PriceTime.isLive_iff, Rests, OrderBook.Rests]
  constructor
  · rintro ⟨i, bound, active, s, p, q, member⟩
    exact ⟨i, s, p, q, ⟨bound, active⟩, member⟩
  · rintro ⟨i, s, p, q, ⟨bound, active⟩, member⟩
    exact ⟨i, bound, active, s, p, q, member⟩

end ExchangeCore

/-- How a client that sent a request for `qty` reads an event. -/
def hear (qty : Nat) (view : UInt16 × Nat → Option Nat) (event : ExchangeEvent) : UInt16 × Nat → Option Nat :=
  let key := (event.sessionId, event.clientOrderId)
  match event.type with
  | .kOrderAccepted | .kModifyAck => update view key (some qty)
  | .kFill =>
    let left := if event.remainingQty = 0 then none else some event.remainingQty
    update view key ((view key).bind fun _ => left)
  | .kCancelAck | .kOrderRejected => update view key none
  | _ => view

def forget (op : Op) (view : UInt16 × Nat → Option Nat) : UInt16 × Nat → Option Nat :=
  match op with
  | .disconnect sessionId => fun key => if key.1 = sessionId ∧ sessionId ≠ 0 then none else view key
  | _ => view

structure Audited (maxSymbols : Nat) where
  core : ExchangeCore maxSymbols
  owner : Nat → Option (UInt16 × Nat) := fun _ => none
  view : UInt16 × Nat → Option Nat := fun _ => none

namespace Audited

variable {maxSymbols : Nat} {a a' : Audited maxSymbols}

def step (a : Audited maxSymbols) (op : Op) : Exec (Audited maxSymbols) := do
  let core ← a.core.apply op
  -- An order that the call put into a book belongs to the request of the call.
  let owner := fun x => if core.inBooks x && !a.core.inBooks x then op.request else a.owner x
  let (events, core) := core.drainEvents
  return { core, owner, view := events.foldl (hear op.qty) (forget op a.view) }

def run : List Op → Audited maxSymbols → Exec (Audited maxSymbols) := Transition.run step

end Audited

namespace ExchangeCore

variable {maxSymbols : Nat} {core core' : ExchangeCore maxSymbols} {sessionId : UInt16}

theorem registerAll_frame {symbols : List (Nat × Params)} (registered : registerAll symbols core = some core') :
    core' = { core with symbols := core'.symbols } := by
  induction symbols generalizing core with
  | nil =>
    cases registered
    rfl
  | cons symbol symbols ih =>
    obtain ⟨core₁, first, later⟩ := bind_eq_some_iff.mp registered
    unfold registerSymbol at first
    split at first
    · cases first
    obtain ⟨engine, _, first⟩ := bind_eq_some_iff.mp first
    cases first
    have frame := ih later
    exact frame

theorem findSession_frame {fuel : Nat} (found : findSession fuel core = some (sessionId, core')) :
    core' = { core with nextSessionId := core'.nextSessionId, activeSessions := core'.activeSessions } := by
  induction fuel generalizing core with
  | zero => cases found
  | succ fuel ih =>
    unfold findSession at found
    dsimp only at found
    generalize (if core.nextSessionId = 0 then 1 else core.nextSessionId) = id at found
    split at found
    · have frame := ih found
      exact frame
    · cases found
      rfl

theorem findSession_new {fuel : Nat} (found : findSession fuel core = some (sessionId, core')) :
    sessionId ≠ 0 ∧ core.activeSessions sessionId = false ∧
      core'.activeSessions = update core.activeSessions sessionId true := by
  induction fuel generalizing core with
  | zero => cases found
  | succ fuel ih =>
    have nonzero : (if core.nextSessionId = 0 then 1 else core.nextSessionId) ≠ 0 := by
      split
      · decide
      · assumption
    unfold findSession at found
    dsimp only at found
    generalize (if core.nextSessionId = 0 then 1 else core.nextSessionId) = id at found nonzero
    split at found
    · have later := ih found
      exact later
    · rename_i unused
      cases found
      exact ⟨nonzero, by simpa using unused, rfl⟩

theorem onClientConnect_quiet (usable : Usable core) (done : core.onClientConnect = some (sessionId, core')) :
    Quiet core core' := by
  have frame := findSession_frame done
  rw [frame]
  exact ⟨⟨{ usable.maps with }, usable.books⟩, fun _ => rfl, rfl, fun _ _ => id⟩

theorem onClientConnect_effect (healthy : Healthy core) (connected : core.onClientConnect = some (sessionId, core')) :
    Withdrawn core core' (core.events.filter isClient) fun _ => False := by
  have frame := findSession_frame connected
  rw [frame]
  exact {
    healthy := { healthy with maps := { healthy.maps with } }
    rests := by simp [Rests, bookOf]
    restricts := restricts_refl
    events := rfl }

end ExchangeCore

end TickToTrade.Exchange
