import TickToTrade.Ds.TimingWheel
import TickToTrade.Lib.Lockstep

/-!
The timing wheels with their chains as the sources store them: each node has its links and each bucket
its head. A callback may call every function of the wheel that runs it, `tick` and `reset` too; what it
does to the chain under the outer walk is done to these links.
-/

namespace TickToTrade.Ds.LinkLevel
open Function
open Lockstep (Agrees load)
open Ds.TimingWheel (kInvalidHandle packHandle unpackHandle)

def kNullIdx : Nat := 2 ^ 32 - 1

structure TimerNode (Cb : Type) where
  next : Nat := kNullIdx
  cb : Option Cb := none
  ctx : Nat := 0
  gen : Nat := 1
  prev : Nat := kNullIdx
  slot : Nat := 0

structure Wheel (F Cb : Type) where
  bucketHeads : Nat → Nat := fun _ => kNullIdx
  nodes : Nat → TimerNode Cb := fun _ => {}
  freeList : F
  currentTick : Nat := 0
  activeCount : Nat := 0
  inTickWalk : Bool := false

/-- What a class of wheels has of its own: its sizes and its free list. -/
structure Parts (F : Type) where
  wheelSize : Nat
  wheelMask : Nat
  maxTimers : Nat
  pop : F → Option (Nat × F)
  push : F → Nat → Exec F

inductive Answer where
  | handle (h : Nat)
  | found (b : Bool)
  | count (n : Nat)
  | nothing
  deriving DecidableEq

inductive WheelEvent (Cb : Type) where
  | fired (cb : Cb) (ctx : Nat)
  | answered (answer : Answer)
  deriving DecidableEq

/-- A wheel, the memory that its callbacks share, and what was fired and answered so far. -/
structure Session (F Cb σ : Type) extends Wheel F Cb where
  memory : σ
  log : List (WheelEvent Cb) := []

/-- A `while` loop or a nest of callbacks that is longer than the fuel ends in `outOfFuel`. -/
inductive Halt where
  | abort
  | outOfFuel
  deriving DecidableEq

abbrev Code (F Cb σ : Type) := EStateM Halt (Session F Cb σ)

inductive WheelCall (Cb : Type) where
  | schedule (cb : Option Cb) (ctx delay : Nat)
  | cancel (h : Nat)
  | tick
  | reset
  | currentTick
  | activeCount

/-- A program that calls the wheel: the body of a callback, or the code that owns the wheel. -/
inductive Script (Cb σ : Type) where
  | done
  | call (c : WheelCall Cb) (next : Answer → Script Cb σ)
  | load (next : σ → Script Cb σ)
  | store (s : σ) (next : Script Cb σ)

variable {F Cb σ : Type}

def writeNode (idx : Nat) (f : TimerNode Cb → TimerNode Cb) : Code F Cb σ Unit :=
  modify fun s => { s with nodes := update s.nodes idx (f (s.nodes idx)) }

def writeHead (slot idx : Nat) : Code F Cb σ Unit :=
  modify fun s => { s with bucketHeads := update s.bucketHeads slot idx }

def writeCount (f : Nat → Nat) : Code F Cb σ Unit := modify fun s => { s with activeCount := f s.activeCount }

def readNode (idx : Nat) : Code F Cb σ (TimerNode Cb) := load fun s => s.nodes idx

def readHead (slot : Nat) : Code F Cb σ Nat := load fun s => s.bucketHeads slot

def clearLinks (idx : Nat) : Code F Cb σ Unit := writeNode idx fun n => { n with prev := kNullIdx, next := kNullIdx }

def disarm (idx : Nat) : Code F Cb σ Unit := writeNode idx fun n => { n with cb := none, ctx := 0 }

def pushFront (slot idx : Nat) : Code F Cb σ Unit := do
  let oldHead ← readHead slot
  writeNode idx fun n => { n with prev := kNullIdx, next := oldHead }
  (if oldHead ≠ kNullIdx then writeNode oldHead fun n => { n with prev := idx } else pure ())
  writeHead slot idx

def unlink (idx : Nat) : Code F Cb σ Unit := do
  let node ← readNode idx
  (if node.prev ≠ kNullIdx then writeNode node.prev fun n => { n with next := node.next }
    else writeHead node.slot node.next)
  (if node.next ≠ kNullIdx then writeNode node.next fun n => { n with prev := node.prev } else pure ())
  clearLinks idx

section Parts

variable (p : Parts F)

def popFree : Code F Cb σ (Option Nat) := fun s =>
  match p.pop s.freeList with
  | none => .ok none s
  | some (idx, freeList) => .ok (some idx) { s with freeList }

def pushFree (idx : Nat) : Code F Cb σ Unit := fun s =>
  match p.push s.freeList idx with
  | none => .error .abort s
  | some freeList => .ok () { s with freeList }

def freeNode (idx : Nat) : Code F Cb σ Unit := do
  writeNode idx fun n =>
    let gen := (n.gen + 1) % 2 ^ 32
    { n with gen := if gen = 0 then 1 else gen, cb := none, ctx := 0 }
  pushFree p idx

/-- `schedule` once it has its node. -/
def link (cb : Option Cb) (ctx delay idx : Nat) : Code F Cb σ Nat := do
  let currentTick ← load (·.currentTick)
  let slot := ((currentTick + delay) % 2 ^ 64 &&& p.wheelMask) % 2 ^ 32
  writeNode idx fun n => { n with cb, ctx, slot }
  pushFront slot idx
  writeCount fun n => (n + 1) % 2 ^ 32
  let node ← readNode idx
  return packHandle idx node.gen

def schedule (cb : Option Cb) (ctx delay : Nat) : Code F Cb σ Nat :=
  if delay = 0 ∨ p.wheelSize ≤ delay ∨ cb.isNone then throw .abort
  else do
    match ← popFree p with
    | none => return kInvalidHandle
    | some idx => link p cb ctx delay idx

def cancel (h : Nat) : Code F Cb σ Bool := do
  let idx := (unpackHandle h).1
  let node ← readNode idx
  if h = kInvalidHandle ∨ p.maxTimers ≤ idx ∨ node.gen ≠ (unpackHandle h).2 ∨ node.cb.isNone then return false
  else
    let inTickWalk ← load (·.inTickWalk)
    -- A node is not unlinked while `tick` walks a chain.
    (if inTickWalk then disarm idx
      else do
        unlink idx
        freeNode p idx)
    writeCount fun n => (n + 2 ^ 32 - 1) % 2 ^ 32
    return true

/-- The loop of `tick`; `run` runs a callback. -/
def walk (run : Cb → Nat → Code F Cb σ Unit) : (fuel headIdx fired : Nat) → Code F Cb σ Nat
  | 0, _, _ => throw .outOfFuel
  | fuel + 1, curIdx, fired =>
    if curIdx = kNullIdx then return fired
    else do
      let cur ← readNode curIdx
      clearLinks curIdx
      match cur.cb with
      | none =>
        freeNode p curIdx
        walk run fuel cur.next fired
      | some cb =>
        disarm curIdx
        run cb cur.ctx
        let node ← readNode curIdx
        (if node.gen = cur.gen then freeNode p curIdx else pure ())
        walk run fuel cur.next ((fired + 1) % 2 ^ 32)

def tick (run : Cb → Nat → Code F Cb σ Unit) (fuel : Nat) : Code F Cb σ Nat := do
  modify fun s => { s with currentTick := (s.currentTick + 1) % 2 ^ 64 }
  let currentTick ← load (·.currentTick)
  let slot := currentTick &&& p.wheelMask
  let headIdx ← readHead slot
  writeHead slot kNullIdx
  modify fun s => { s with inTickWalk := true }
  let fired ← walk p run fuel headIdx 0
  modify fun s => { s with inTickWalk := false }
  writeCount fun n => (n + 2 ^ 32 - fired) % 2 ^ 32
  return fired

def resetChain : (fuel idx : Nat) → Code F Cb σ Unit
  | 0, _ => throw .outOfFuel
  | fuel + 1, idx =>
    if idx = kNullIdx then return ()
    else do
      let node ← readNode idx
      clearLinks idx
      freeNode p idx
      resetChain fuel node.next

def resetSlots (fuel : Nat) : List Nat → Code F Cb σ Unit
  | [] => return ()
  | slot :: slots => do
    resetChain p fuel (← readHead slot)
    writeHead slot kNullIdx
    resetSlots fuel slots

def reset (fuel : Nat) : Code F Cb σ Unit := do
  resetSlots p fuel (List.range p.wheelSize)
  modify fun s => { s with activeCount := 0, currentTick := 0 }

/-! ### Callbacks -/

def note (event : WheelEvent Cb) : Code F Cb σ Unit := modify fun s => { s with log := s.log ++ [event] }

def perform (run : Cb → Nat → Code F Cb σ Unit) (fuel : Nat) : WheelCall Cb → Code F Cb σ Answer
  | .schedule cb ctx delay => return .handle (← schedule p cb ctx delay)
  | .cancel h => return .found (← cancel p h)
  | .tick => return .count (← tick p run fuel)
  | .reset => do
    reset p fuel
    return .nothing
  | .currentTick => return .count (← load (·.currentTick))
  | .activeCount => return .count (← load (·.activeCount))

def Script.run (run : Cb → Nat → Code F Cb σ Unit) (fuel : Nat) : Script Cb σ → Code F Cb σ Unit
  | .done => return ()
  | .call c next => do
    let answer ← perform p run fuel c
    note (.answered answer)
    (next answer).run run fuel
  | .load next => do
    let memory ← Lockstep.load (·.memory)
    (next memory).run run fuel
  | .store memory next => do
    modify fun s => { s with memory }
    next.run run fuel

/-- `scripts` has the bodies of the callbacks. -/
def fire (scripts : Cb → Nat → Script Cb σ) : (fuel : Nat) → Cb → Nat → Code F Cb σ Unit
  | 0, _, _ => throw .outOfFuel
  | fuel + 1, cb, ctx => do
    note (.fired cb ctx)
    (scripts cb ctx).run p (fire scripts fuel) fuel

/-- `owner` runs on a wheel that no callback is running on. -/
def runOwner (scripts : Cb → Nat → Script Cb σ) (fuel : Nat) (owner : Script Cb σ) : Code F Cb σ Unit :=
  owner.run p (fire p scripts fuel) fuel

end Parts

/-! ### Wheels that differ in their free lists -/

def Session.mapFree {G : Type} (view : F → G) (s : Session F Cb σ) : Session G Cb σ :=
  { s with freeList := view s.freeList }

/-- `q` has the sizes of `p`, and its free list does what that of `p` does. -/
structure Parts.Views {G : Type} (view : F → G) (p : Parts F) (q : Parts G) : Prop where
  wheelSize : q.wheelSize = p.wheelSize
  wheelMask : q.wheelMask = p.wheelMask
  maxTimers : q.maxTimers = p.maxTimers
  pop : ∀ s, q.pop (view s) = (p.pop s).map (Prod.map id view)
  push : ∀ s idx, q.push (view s) idx = (p.push s idx).map view

section Views

variable {G : Type} {view : F → G} {p : Parts F} {q : Parts G}

/-- `x` and `y` do the same but for the free lists. -/
abbrev Same {α : Type} (view : F → G) (x : Code F Cb σ α) (y : Code G Cb σ α) : Prop :=
    Agrees (Session.mapFree view) x y

theorem writeNode_same (idx : Nat) (f : TimerNode Cb → TimerNode Cb) :
    Same view (writeNode idx f : Code F Cb σ Unit) (writeNode idx f) :=
  .of_modify fun _ => rfl

theorem writeHead_same (slot idx : Nat) : Same view (writeHead slot idx : Code F Cb σ Unit) (writeHead slot idx) :=
  .of_modify fun _ => rfl

theorem writeCount_same (f : Nat → Nat) : Same view (writeCount f : Code F Cb σ Unit) (writeCount f) :=
  .of_modify fun _ => rfl

theorem readNode_same (idx : Nat) : Same view (readNode idx : Code F Cb σ _) (readNode idx) := .of_load fun _ => rfl

theorem readHead_same (slot : Nat) : Same view (readHead slot : Code F Cb σ _) (readHead slot) := .of_load fun _ => rfl

theorem pushFront_same (slot idx : Nat) : Same view (pushFront slot idx : Code F Cb σ Unit) (pushFront slot idx) := by
  refine .bind (readHead_same _) fun oldHead => .bind (writeNode_same _ _) fun _ => ?_
  exact .bind (.ite (writeNode_same _ _) (.of_pure _)) fun _ => writeHead_same _ _

theorem unlink_same (idx : Nat) : Same view (unlink idx : Code F Cb σ Unit) (unlink idx) := by
  refine .bind (readNode_same _) fun node => .bind (.ite (writeNode_same _ _) (writeHead_same _ _)) fun _ => ?_
  exact .bind (.ite (writeNode_same _ _) (.of_pure _)) fun _ => writeNode_same _ _

theorem note_same (event : WheelEvent Cb) : Same view (note event : Code F Cb σ Unit) (note event) :=
    .of_modify fun _ => rfl

variable (views : Parts.Views view p q)
include views

theorem popFree_same : Same view (popFree p : Code F Cb σ _) (popFree q) := by
  intro s
  have popped := views.pop s.freeList
  change popFree q (s.mapFree view) = _
  simp only [popFree, Session.mapFree, popped]
  cases p.pop s.freeList <;> rfl

theorem pushFree_same (idx : Nat) : Same view (pushFree p idx : Code F Cb σ Unit) (pushFree q idx) := by
  intro s
  have pushed := views.push s.freeList idx
  simp only [pushFree, Session.mapFree, pushed]
  cases p.push s.freeList idx <;> rfl

theorem freeNode_same (idx : Nat) : Same view (freeNode p idx : Code F Cb σ Unit) (freeNode q idx) :=
  .bind (writeNode_same _ _) fun _ => pushFree_same views idx

theorem link_same (cb : Option Cb) (ctx delay idx : Nat) :
    Same view (link p cb ctx delay idx : Code F Cb σ Nat) (link q cb ctx delay idx) := by
  unfold link
  rw [views.wheelMask]
  refine .bind (.of_load fun _ => rfl) fun currentTick => .bind (writeNode_same _ _) fun _ => ?_
  refine .bind (pushFront_same _ _) fun _ => .bind (writeCount_same _) fun _ => ?_
  exact .bind (readNode_same _) fun node => .of_pure _

theorem schedule_same (cb : Option Cb) (ctx delay : Nat) :
    Same view (schedule p cb ctx delay : Code F Cb σ Nat) (schedule q cb ctx delay) := by
  unfold schedule
  rw [views.wheelSize]
  refine .ite (.of_throw _) (.bind (popFree_same views) fun popped => ?_)
  cases popped with
  | none => exact .of_pure _
  | some idx => exact link_same views cb ctx delay idx

theorem cancel_same (h : Nat) : Same view (cancel p h : Code F Cb σ Bool) (cancel q h) := by
  unfold cancel
  rw [views.maxTimers]
  refine .bind (readNode_same _) fun node => .ite (.of_pure _) (.bind (.of_load fun _ => rfl) fun inTickWalk => ?_)
  refine .bind (.ite (writeNode_same _ _) ?_) fun _ => .bind (writeCount_same _) fun _ => .of_pure _
  exact .bind (unlink_same _) fun _ => freeNode_same views _

section Callbacks

variable {run : Cb → Nat → Code F Cb σ Unit} {run' : Cb → Nat → Code G Cb σ Unit}
  (runs : ∀ cb ctx, Same view (run cb ctx) (run' cb ctx))
include runs

theorem walk_same (fuel headIdx fired : Nat) :
    Same view (walk p run fuel headIdx fired) (walk q run' fuel headIdx fired) := by
  induction fuel generalizing headIdx fired with
  | zero => exact .of_throw _
  | succ fuel ih =>
    refine .ite (.of_pure _) (.bind (readNode_same _) fun cur => .bind (writeNode_same _ _) fun _ => ?_)
    cases cur.cb with
    | none => exact .bind (freeNode_same views _) fun _ => ih _ _
    | some cb =>
      refine .bind (writeNode_same _ _) fun _ => .bind (runs _ _) fun _ => .bind (readNode_same _) fun node => ?_
      exact .bind (.ite (freeNode_same views _) (.of_pure _)) fun _ => ih _ _

theorem tick_same (fuel : Nat) : Same view (tick p run fuel) (tick q run' fuel) := by
  unfold tick
  rw [views.wheelMask]
  refine .bind (.of_modify fun _ => rfl) fun _ => .bind (.of_load fun _ => rfl) fun currentTick => ?_
  refine .bind (readHead_same _) fun headIdx => .bind (writeHead_same _ _) fun _ => ?_
  refine .bind (.of_modify fun _ => rfl) fun _ => .bind (walk_same views runs _ _ _) fun fired => ?_
  exact .bind (.of_modify fun _ => rfl) fun _ => .bind (writeCount_same _) fun _ => .of_pure _

end Callbacks

theorem resetChain_same (fuel idx : Nat) :
    Same view (resetChain p fuel idx : Code F Cb σ Unit) (resetChain q fuel idx) := by
  induction fuel generalizing idx with
  | zero => exact .of_throw _
  | succ fuel ih =>
    refine .ite (.of_pure _) (.bind (readNode_same _) fun node => .bind (writeNode_same _ _) fun _ => ?_)
    exact .bind (freeNode_same views _) fun _ => ih _

theorem resetSlots_same (fuel : Nat) (slots : List Nat) :
    Same view (resetSlots p fuel slots : Code F Cb σ Unit) (resetSlots q fuel slots) := by
  induction slots with
  | nil => exact .of_pure _
  | cons slot slots ih =>
    refine .bind (readHead_same _) fun headIdx => .bind (resetChain_same views _ _) fun _ => ?_
    exact .bind (writeHead_same _ _) fun _ => ih

theorem reset_same (fuel : Nat) : Same view (reset p fuel : Code F Cb σ Unit) (reset q fuel) := by
  unfold reset
  rw [views.wheelSize]
  exact .bind (resetSlots_same views _ _) fun _ => .of_modify fun _ => rfl

theorem perform_same {run : Cb → Nat → Code F Cb σ Unit} {run' : Cb → Nat → Code G Cb σ Unit}
    (runs : ∀ cb ctx, Same view (run cb ctx) (run' cb ctx)) (fuel : Nat) (c : WheelCall Cb) :
    Same view (perform p run fuel c) (perform q run' fuel c) := by
  cases c with
  | schedule cb ctx delay => exact .bind (schedule_same views _ _ _) fun _ => .of_pure _
  | cancel h => exact .bind (cancel_same views _) fun _ => .of_pure _
  | tick => exact .bind (tick_same views runs _) fun _ => .of_pure _
  | reset => exact .bind (reset_same views _) fun _ => .of_pure _
  | currentTick => exact .bind (.of_load fun _ => rfl) fun _ => .of_pure _
  | activeCount => exact .bind (.of_load fun _ => rfl) fun _ => .of_pure _

theorem Script.run_same {run : Cb → Nat → Code F Cb σ Unit} {run' : Cb → Nat → Code G Cb σ Unit}
    (runs : ∀ cb ctx, Same view (run cb ctx) (run' cb ctx)) (fuel : Nat) (script : Script Cb σ) :
    Same view (script.run p run fuel) (script.run q run' fuel) := by
  induction script with
  | done => exact .of_pure _
  | call c next ih => exact .bind (perform_same views runs _ _) fun answer => .bind (note_same _) fun _ => ih answer
  | load next ih => exact .bind (.of_load fun _ => rfl) fun memory => ih memory
  | store memory next ih => exact .bind (.of_modify fun _ => rfl) fun _ => ih

theorem fire_same (scripts : Cb → Nat → Script Cb σ) (fuel : Nat) (cb : Cb) (ctx : Nat) :
    Same view (fire p scripts fuel cb ctx) (fire q scripts fuel cb ctx) := by
  induction fuel generalizing cb ctx with
  | zero => exact .of_throw _
  | succ fuel ih => exact .bind (note_same _) fun _ => Script.run_same views ih _ _

theorem runOwner_same (scripts : Cb → Nat → Script Cb σ) (fuel : Nat) (owner : Script Cb σ) :
    Same view (runOwner p scripts fuel owner) (runOwner q scripts fuel owner) :=
  Script.run_same views (fire_same views scripts fuel) fuel owner

end Views

end TickToTrade.Ds.LinkLevel
