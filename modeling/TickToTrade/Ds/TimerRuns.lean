import TickToTrade.Ds.TimerLedger
import TickToTrade.Lib.Transition

/-!
Runs of a timing wheel whose callbacks call back into it: outside of `tick`, in the walk over a detached
chain, or inside the callback of one of its nodes.
-/

namespace TickToTrade.Ds
open Option (bind_eq_bind bind_eq_some_iff bind_some pure_def)

open TimingWheel Function

/-- Where the thread of the wheel is: outside of `tick`, in its loop, or in the callback of `cur`. -/
inductive Control where
  | idle
  | walking (chain : List Nat) (fired : Nat)
  | calling (cur savedGen : Nat) (chain : List Nat) (fired : Nat)

namespace Control

def Open : Control → Prop
  | .walking _ _ => False
  | _ => True

instance (c : Control) : Decidable c.Open := by
  cases c <;> unfold Open <;> infer_instance

/-- The nodes that `tick` has taken off the wheel and not yet freed. -/
def detached : Control → List Nat
  | .idle => []
  | .walking chain _ => chain
  | .calling cur _ chain _ => cur :: chain

def inTick : Control → Bool
  | .idle => false
  | _ => true

end Control

structure TimerRun (Cb : Type) where
  wheel : TimingWheel Cb
  control : Control := .idle
  ledger : Ledger Cb := {}
  /-- What `cancel` returned, if it was the last call. -/
  answer : Option Bool := none

namespace TimerRun

variable {Cb : Type}

inductive Move (Cb : Type) where
  | schedule (cb : Cb) (ctx delay : Nat)
  | cancel (h : Nat)
  | tick
  /-- `tick` looks at the next node of the chain, or returns. -/
  | advance
  /-- The callback returns. -/
  | finish

def step (r : TimerRun Cb) : Move Cb → Exec (TimerRun Cb)
  | .schedule cb ctx delay => do
    guard r.control.Open
    let (handle, wheel) ← r.wheel.schedule cb ctx delay
    if handle = kInvalidHandle then return { r with wheel, answer := none }
    else return { r with wheel, ledger := r.ledger.enter handle cb ctx delay, answer := none }
  | .cancel h => do
    guard r.control.Open
    let (found, wheel) ← r.wheel.cancel h
    let ledger := if found then r.ledger.cancel (unpackHandle h).1 else r.ledger
    return { r with wheel, ledger, answer := some found }
  | .tick =>
    match r.control with
    | .idle =>
      let currentTick := (r.wheel.currentTick + 1) % 2 ^ 64
      let slot := currentTick % r.wheel.wheelSize
      some {
        wheel := { r.wheel with
          currentTick, buckets := update r.wheel.buckets slot [], inTickWalk := true }
        control := .walking (r.wheel.buckets slot) 0
        ledger := { r.ledger with now := r.ledger.now + 1 } }
    | _ => none
  | .advance =>
    match r.control with
    | .walking [] fired =>
      some { r with
        wheel := { r.wheel with
          inTickWalk := false, activeCount := (r.wheel.activeCount + 2 ^ 32 - fired % 2 ^ 32) % 2 ^ 32 }
        control := .idle
        answer := none }
    | .walking (cur :: chain) fired =>
      match (r.wheel.nodes cur).cb with
      | none => do
        let wheel ← r.wheel.freeNode cur
        return { r with wheel, control := .walking chain fired, answer := none }
      | some cb =>
        some {
          wheel := r.wheel.disarm cur
          control := .calling cur (r.wheel.nodes cur).gen chain fired
          ledger := r.ledger.invoke cur cb (r.wheel.nodes cur).ctx }
    | _ => none
  | .finish =>
    match r.control with
    | .calling cur savedGen chain fired => do
      let wheel ← if (r.wheel.nodes cur).gen = savedGen then r.wheel.freeNode cur else pure r.wheel
      return { r with wheel, control := .walking chain (fired + 1), answer := none }
    | _ => none

def run : List (Move Cb) → TimerRun Cb → Exec (TimerRun Cb) := Transition.run step

/-- The move is one that the thread can make here, with the arguments that `schedule` asks for. -/
def Enabled (r : TimerRun Cb) : Move Cb → Prop
  | .schedule _ _ delay => r.control.Open ∧ 1 ≤ delay ∧ delay < r.wheel.wheelSize
  | .cancel _ => r.control.Open
  | .tick => r.control = .idle
  | .advance => ∃ chain fired, r.control = .walking chain fired
  | .finish => ∃ cur savedGen chain fired, r.control = .calling cur savedGen chain fired

/-! ### The invariant -/

variable {r r' : TimerRun Cb} {moves : List (Move Cb)}


structure Inv (r : TimerRun Cb) : Prop where
  accounts : Accounts r.wheel r.control.detached r.ledger
  flag : r.wheel.inTickWalk = r.control.inTick
  current : ∀ cur savedGen chain fired, r.control = .calling cur savedGen chain fired →
    (r.wheel.nodes cur).gen = savedGen ∧ (r.wheel.nodes cur).cb = none

variable {w : TimingWheel Cb}

theorem schedule_some {delay : Nat} (positive : 0 < delay) (inside : delay < w.wheelSize) (cb : Cb) (ctx : Nat) :
    ∃ handle w', w.schedule cb ctx delay = some (handle, w') := by
  unfold TimingWheel.schedule
  rw [if_neg (by omega)]
  split
  · exact ⟨_, _, rfl⟩
  · exact ⟨_, _, rfl⟩

theorem Inv.schedule (inv : r.Inv) {cb : Cb} {ctx delay : Nat} (enabled : r.Enabled (.schedule cb ctx delay)) :
    ∃ r', r.step (.schedule cb ctx delay) = some r' ∧ r'.Inv := by
  obtain ⟨opened, positive, inside⟩ := enabled
  obtain ⟨handle, wheel, scheduled⟩ := schedule_some positive inside cb ctx
  simp only [step, guard, opened, if_true, scheduled, bind_eq_bind, pure_def, bind_some]
  obtain ⟨-, ⟨rfl, rfl⟩ | ⟨idx, freeList, popped, rfl, rfl⟩⟩ := schedule_cases scheduled
  · rw [if_pos rfl]
    exact ⟨_, rfl, inv.accounts, inv.flag, inv.current⟩
  · have unused := (inv.accounts.held.tracks.pop popped).2.1
    have valid : packHandle idx (r.wheel.nodes idx).gen ≠ kInvalidHandle := by
      have := (genAfter_bounds (r.ledger.nodes.count idx)).1
      rw [inv.accounts.unused idx unused, packHandle, kInvalidHandle]
      omega
    rw [if_neg valid]
    refine ⟨_, rfl, inv.accounts.arm popped cb ctx positive inside, inv.flag,
      fun cur savedGen chain fired calling => ?_⟩
    have other : cur ≠ idx := by
      rintro rfl
      refine unused (.inr ?_)
      dsimp only at calling
      rw [calling]
      exact List.mem_cons_self
    simp only [TimingWheel.arm, pushFront, update_of_ne other]
    exact inv.current cur savedGen chain fired calling

theorem disarm_freeNode (w : TimingWheel Cb) (i : Nat) : (w.disarm i).freeNode i = w.freeNode i := by
  have gen : ((w.disarm i).nodes i).gen = (w.nodes i).gen := by simp only [disarm, update_self]
  have slot : ((w.disarm i).nodes i).slot = (w.nodes i).slot := by simp only [disarm, update_self]
  have nodes : ∀ node, update (w.disarm i).nodes i node = update w.nodes i node := fun node => by
    rw [disarm, update_idem]
  unfold TimingWheel.freeNode
  dsimp only
  rw [gen, slot]
  simp only [nodes]
  rfl

theorem disarm_unlink (w : TimingWheel Cb) (i : Nat) : (w.disarm i).unlink i = (w.unlink i).disarm i := by
  simp only [TimingWheel.unlink, disarm, update_self]

section Cancel

variable {idx : Nat} {t : Timer Cb}

theorem Inv.disarm (inv : r.Inv) (accounted : Accounted r.wheel r.ledger idx t) (pending : t.Pending)
    (used : r.wheel.Linked idx ∨ idx ∈ r.control.detached) (activeCount : Nat) :
    ({ r with
      wheel := { r.wheel.disarm idx with activeCount }, ledger := r.ledger.cancel idx, answer := some true } : TimerRun
        Cb).Inv := by
  have settled : Accounts (r.wheel.disarm idx) r.control.detached (r.ledger.cancel idx) :=
    inv.accounts.settle accounted used (fun _ => ⟨rfl, rfl⟩) (.inl ⟨rfl, pending.2⟩)
  refine ⟨settled.counted _ _, inv.flag, fun cur savedGen chain fired calling => ?_⟩
  obtain ⟨gen, unarmed⟩ := inv.current _ _ _ _ calling
  by_cases same : cur = idx
  · subst same
    simp only [TimingWheel.disarm, update_self, and_true]
    exact gen
  · simp only [TimingWheel.disarm, update_of_ne same]
    exact ⟨gen, unarmed⟩

/-- A cancel outside of `tick`: the node is taken out of its bucket and freed. -/
theorem Inv.unlink (inv : r.Inv) (idle : r.control = .idle) (accounted : Accounted r.wheel r.ledger idx t)
    (pending : t.Pending) (used : r.wheel.Linked idx ∨ idx ∈ r.control.detached) (activeCount : Nat) :
    ∃ wheel, (r.wheel.unlink idx).freeNode idx = some wheel ∧
      ({ r with wheel := { wheel with activeCount }, ledger := r.ledger.cancel idx, answer := some true } : TimerRun
        Cb).Inv := by
  have settled : Accounts (r.wheel.disarm idx) r.control.detached (r.ledger.cancel idx) :=
    inv.accounts.settle accounted used (fun _ => ⟨rfl, rfl⟩) (.inl ⟨rfl, pending.2⟩)
  have disarmed : ((r.wheel.disarm idx).nodes idx).cb = none := by simp only [TimingWheel.disarm, update_self]
  have flag := inv.flag
  rw [idle] at settled used flag
  obtain ⟨slot, there⟩ := used.resolve_right (by simp [Control.detached])
  have member : idx ∈ (r.wheel.disarm idx).buckets ((r.wheel.disarm idx).nodes idx).slot := by
    rw [(settled.held.home slot _ there).2]
    exact there
  obtain ⟨wheel, freed, accounts, walking⟩ := (settled.unlink member disarmed).freeNode disarmed
  rw [disarm_unlink, disarm_freeNode] at freed
  refine ⟨wheel, freed, ?_, ?_, fun _ _ _ _ calling => ?_⟩
  · rw [idle]
    exact accounts.counted _ _
  · rw [idle]
    exact walking.trans flag
  · rw [idle] at calling
    cases calling

end Cancel

section

variable (inv : r.Inv)
include inv

/-- A node that is named by a handle is disarmed, in the walk of `tick`, or freed. -/
theorem Inv.cancel_named {h : Nat} (opened : r.control.Open) (named : r.wheel.Names h) :
    ∃ wheel, r.wheel.cancel h = some (true, wheel) ∧
      ({ r with wheel, ledger := r.ledger.cancel (unpackHandle h).1, answer := some true } : TimerRun Cb).Inv := by
  obtain ⟨t, accounted, pending, -, used⟩ := inv.accounts.of_names named
  rw [cancel_of_names named, inv.flag]
  generalize (r.wheel.activeCount + 2 ^ 32 - 1) % 2 ^ 32 = activeCount
  generalize (unpackHandle h).1 = idx at *
  cases state : r.control with
  | walking chain fired =>
    rw [state] at opened
    exact opened.elim
  | calling cur savedGen chain fired => exact ⟨_, rfl, state ▸ inv.disarm accounted pending used activeCount⟩
  | idle =>
    obtain ⟨wheel, freed, kept⟩ := inv.unlink state accounted pending used activeCount
    rw [freed]
    exact ⟨_, rfl, state ▸ kept⟩

/-- `cancel` finds a handle exactly if it names an armed node, and cancels the timer that owns it. -/
theorem Inv.cancel {h : Nat} (enabled : r.Enabled (.cancel h)) :
    (¬ r.wheel.Names h ∧ r.step (.cancel h) = some { r with answer := some false }) ∨
    (r.wheel.Names h ∧ ∃ r', r.step (.cancel h) = some r' ∧ r'.answer = some true ∧
      r'.ledger = r.ledger.cancel (unpackHandle h).1 ∧ r'.Inv) := by
  have opened : r.control.Open := enabled
  simp only [step, guard, opened, if_true, bind_eq_bind, pure_def, bind_some]
  by_cases named : r.wheel.Names h
  · obtain ⟨wheel, cancelled, kept⟩ := inv.cancel_named opened named
    refine .inr ⟨named, _, ?_, rfl, rfl, kept⟩
    rw [cancelled]
    rfl
  · refine .inl ⟨named, ?_⟩
    rw [cancel_of_not_names named]
    rfl

theorem Inv.tick (enabled : r.Enabled .tick) : ∃ r', r.step .tick = some r' ∧ r'.Inv := by
  have idle : r.control = .idle := enabled
  simp only [step, idle]
  have accounts := inv.accounts
  rw [idle] at accounts
  exact ⟨_, rfl, accounts.detach true, rfl, nofun⟩

theorem Inv.advance (enabled : r.Enabled .advance) : ∃ r', r.step .advance = some r' ∧ r'.Inv := by
  obtain ⟨chain, fired, walking⟩ := enabled
  have accounts := inv.accounts
  have flag := inv.flag
  rw [walking] at accounts flag
  cases chain with
  | nil =>
    simp only [step, walking]
    exact ⟨_, rfl, accounts.counted _ _, rfl, nofun⟩
  | cons cur chain =>
    simp only [step, walking]
    have detached : cur ∈ cur :: chain := List.mem_cons_self
    cases armed : (r.wheel.nodes cur).cb with
    | none =>
      obtain ⟨wheel, freed, kept, still⟩ := accounts.freeNode armed
      simp only [freed, bind_eq_bind, pure_def, bind_some]
      exact ⟨_, rfl, kept, still.trans flag, nofun⟩
    | some cb =>
      obtain ⟨t, accounted, due⟩ := accounts.chain cur detached
      obtain ⟨set, ctx, pending⟩ : (r.wheel.nodes cur).cb = some t.cb ∧ (r.wheel.nodes cur).ctx = t.ctx ∧
          t.Pending := by
        rcases accounted.standing with standing | ⟨disarmed, -⟩
        · exact standing
        · rw [disarmed] at armed
          cases armed
      obtain rfl : t.cb = cb := Option.mem_unique set armed
      refine ⟨_, rfl, ?_, flag, ?_⟩
      · refine accounts.settle accounted (.inr detached) (fun _ => ⟨rfl, rfl⟩)
          (.inr ⟨pending.1, ?_, Nat.le_of_eq (due pending)⟩)
        simp only [pending.2, List.nil_append, ctx, Timer.due, ← due pending]
      · rintro _ _ _ _ ⟨⟩
        simp only [TimingWheel.disarm, update_self, and_self]

theorem Inv.finish (enabled : r.Enabled .finish) : ∃ r', r.step .finish = some r' ∧ r'.Inv := by
  obtain ⟨cur, savedGen, chain, fired, calling⟩ := enabled
  have accounts := inv.accounts
  have flag := inv.flag
  obtain ⟨gen, disarmed⟩ := inv.current _ _ _ _ calling
  rw [calling] at accounts flag
  obtain ⟨wheel, freed, kept, still⟩ := accounts.freeNode disarmed
  simp only [step, calling, gen, if_true, freed, bind_eq_bind, pure_def, bind_some]
  exact ⟨_, rfl, kept, still.trans flag, nofun⟩

theorem Inv.step {move : Move Cb} (enabled : r.Enabled move) : ∃ r', r.step move = some r' ∧ r'.Inv := by
  cases move with
  | schedule cb ctx delay => exact inv.schedule enabled
  | cancel h =>
    obtain ⟨-, stepped⟩ | ⟨-, r', stepped, -, -, kept⟩ := inv.cancel enabled
    · exact ⟨_, stepped, inv.accounts, inv.flag, inv.current⟩
    · exact ⟨r', stepped, kept⟩
  | tick => exact inv.tick enabled
  | advance => exact inv.advance enabled
  | finish => exact inv.finish enabled

end

theorem enabled_of_step {move : Move Cb} (stepped : r.step move = some r') : r.Enabled move := by
  cases move with
  | schedule cb ctx delay =>
    obtain ⟨_, opened, stepped⟩ := Option.bind_eq_some_iff.mp stepped
    obtain ⟨⟨handle, wheel⟩, scheduled, -⟩ := Option.bind_eq_some_iff.mp stepped
    exact ⟨(Option.guard_eq_some' _).mp opened, (schedule_cases scheduled).1⟩
  | cancel h =>
    obtain ⟨_, opened, -⟩ := Option.bind_eq_some_iff.mp stepped
    exact (show r.control.Open from (Option.guard_eq_some' _).mp opened)
  | tick | advance | finish =>
    cases state : r.control <;> simp [TimerRun.step, state] at stepped
    simp [Enabled, state]

theorem Inv.run (inv : r.Inv) (ran : run moves r = some r') : r'.Inv := by
  refine Transition.run_keeps Inv (fun inv stepped => ?_) inv ran
  obtain ⟨r₁, again, kept⟩ := inv.step (enabled_of_step stepped)
  obtain rfl := Option.mem_unique again stepped
  exact kept

theorem inv_start {ws mt : Nat} (created : create ws mt = some w) : Inv { wheel := w } := by
  have held := (create_ok created).held
  unfold create at created
  split at created
  · cases created
  rename_i valid
  obtain ⟨freeList, pool, done⟩ := Option.bind_eq_some_iff.mp created
  cases done
  simp only [isValidWheelSize, isValidMaxTimers, Bool.or_eq_true, Bool.not_eq_true', not_or, Bool.not_eq_false,
    Bool.and_eq_true, decide_eq_true_eq] at valid
  obtain ⟨⟨⟨-, sizeBound⟩, power⟩, ⟨-, timerBound⟩, -⟩ := valid
  have divides : ws ∣ 2 ^ 64 := isPowerOfTwo_dvd power (by omega)
  have word : mt < 2 ^ 32 := by omega
  exact ⟨⟨held, rfl, divides, ⟨(IndexFreeStack.create_tracks pool).2, word⟩, by rintro _ _ ⟨⟩, by rintro _ ⟨⟩,
    fun _ _ => rfl, by rintro _ _ ⟨⟩⟩, rfl, by rintro _ _ _ _ ⟨⟩⟩

/-- Each timer is invoked once, with its context and in the tick that it is due, if it was not cancelled
before; `cancel` returns true for the pending timer of the handle, and a handle stays its timer's own until the
node was given out `2 ^ 32 - 1` times more. -/
theorem run_fires_once {ws mt : Nat} {w : TimingWheel Cb} (created : create ws mt = some w)
    (ran : run moves { wheel := w } = some r) :
    (∀ (s : Nat) (t : Timer Cb), r.ledger.timers[s]? = some t →
      (t.invoked = [] ∨ t.cancelled = false ∧ t.due ≤ r.ledger.now ∧ t.invoked = [(t.cb, t.ctx, t.due)]) ∧
      (r.control = .idle → (t.invoked = [] ↔ t.cancelled = true ∨ r.ledger.now < t.due))) ∧
    (∀ h r', r.step (.cancel h) = some r' →
      (r'.answer = some true ↔ ∃ (s : Nat) (t : Timer Cb), r.ledger.timers[s]? = some t ∧ t.handle = h ∧ t.Pending) ∧
      (∀ (s : Nat) (t : Timer Cb), r.ledger.timers[s]? = some t → t.handle = h → r.ledger.reuses s t.node < 2 ^ 32 - 1 →
        t.Pending ∧ r'.answer = some true ∧ r'.ledger.timers = r.ledger.timers.set s { t with cancelled := true } ∨
        ¬ t.Pending ∧ r'.answer = some false ∧ r'.ledger.timers = r.ledger.timers)) ∧
    ∀ move, r.Enabled move → ∃ r', r.step move = some r' := by
  have inv : r.Inv := (inv_start created).run ran
  refine ⟨fun s t found => ⟨?_, fun idle => ?_⟩, fun h r' stepped => ?_, fun move enabled => ?_⟩
  · obtain ⟨-, (⟨-, never⟩ | ⟨kept, invoked, past⟩) | ⟨pending, -⟩⟩ := inv.accounts.timers s t found
    · exact .inl never
    · exact .inr ⟨kept, past, invoked⟩
    · exact .inl pending.2
  · obtain ⟨-, (⟨cancelled, never⟩ | ⟨kept, invoked, past⟩) | ⟨pending, -⟩⟩ := inv.accounts.timers s t found
    · simp [never, cancelled]
    · simp [invoked, kept, past]
    · obtain ⟨-, used, accounted⟩ := inv.accounts.pending found pending
      rw [idle] at used
      obtain ⟨slot, member⟩ := used.resolve_right (by simp [Control.detached])
      obtain ⟨t', entry, after, -⟩ := inv.accounts.linked slot _ member
      obtain rfl : t' = t := Option.mem_unique entry.found accounted.found
      simp [pending.2, after]
  · obtain ⟨unnamed, answered⟩ | ⟨named, r₁, again, answered, ledger, -⟩ := inv.cancel (enabled_of_step stepped)
    · obtain rfl := Option.mem_unique answered stepped
      have none : ∀ (s : Nat) (t : Timer Cb), r.ledger.timers[s]? = some t → t.handle = h → ¬ t.Pending :=
        fun s t found same pending => unnamed (same ▸ inv.accounts.names found pending)
      refine ⟨⟨nofun, fun ⟨s, t, found, same, pending⟩ => absurd pending (none s t found same)⟩,
        fun s t found same _ => ?_⟩
      exact .inr ⟨none s t found same, rfl, rfl⟩
    · obtain rfl := Option.mem_unique again stepped
      obtain ⟨t₁, accounted, pending₁, handle₁, -⟩ := inv.accounts.of_names named
      refine ⟨⟨fun _ => ⟨_, t₁, accounted.found, handle₁, pending₁⟩, fun _ => answered⟩, fun s t found same few => ?_⟩
      have own := inv.accounts.handle_unique found few accounted.found pending₁ (handle₁.trans same.symm)
      have entry := accounted.found
      rw [own, found] at entry
      cases entry
      refine .inl ⟨pending₁, answered, ?_⟩
      rw [ledger, Ledger.cancel, Ledger.amend, own, List.modify_eq_set_getElem?, found]
      rfl
  · obtain ⟨r', stepped, -⟩ := inv.step enabled
    exact ⟨r', stepped⟩

/-- A callback cancels its own timer and another one of its bucket, and schedules a third. -/
def reentrantMoves : List (Move Nat) :=
  [.schedule 7 70 1, .schedule 8 80 1, .schedule 9 90 2, .tick, .advance, .cancel (packHandle 0 1),
    .cancel (packHandle 1 1),
    .schedule 10 100 1, .finish, .advance, .advance, .tick, .advance, .finish, .advance, .finish, .advance]

theorem run_fires_once_reentrant :
    ∃ w r, create 4 4 = some w ∧ run reentrantMoves { wheel := w } = some r ∧
      r.ledger.timers.map (fun t => (t.cancelled, t.invoked)) =
        [(true, []), (false, [(8, 80, 1)]), (false, [(9, 90, 2)]), (false, [(10, 100, 2)])] ∧
      ∀ (s : Nat) (t : Timer Nat), r.ledger.timers[s]? = some t →
        t.invoked = [] ∨ t.cancelled = false ∧ t.due ≤ r.ledger.now ∧ t.invoked = [(t.cb, t.ctx, t.due)] := by
  obtain ⟨w, created⟩ := Option.isSome_iff_exists.mp (show (create 4 4 : Exec (TimingWheel Nat)).isSome by decide)
  have computed : (create 4 4 : Exec (TimingWheel Nat)).any
    (fun w => (run reentrantMoves { wheel := w }).any fun r : TimerRun Nat =>
      decide (r.ledger.timers.map (fun t => (t.cancelled, t.invoked)) =
        [(true, []), (false, [(8, 80, 1)]), (false, [(9, 90, 2)]), (false, [(10, 100, 2)])])) = true := by
          decide +kernel
  rw [created, Option.any_some] at computed
  obtain ⟨r, ran, seen⟩ := Option.any_eq_true _ _ |>.mp computed
  exact ⟨w, r, created, ran, of_decide_eq_true seen, fun s t found => ((run_fires_once created ran).1 s t found).1⟩

/-! ### `tick` as a run -/

section Callbacks

variable {σ : Type} {fire : Cb → Nat → TimingWheel Cb × σ → Exec (TimingWheel Cb × σ)}

/-- All that the callbacks do to the wheel they do through `schedule` and `cancel`. -/
def CallsOnly (fire : Cb → Nat → TimingWheel Cb × σ → Exec (TimingWheel Cb × σ)) : Prop :=
  ∀ cb ctx w s w' s', fire cb ctx (w, s) = some (w', s') → ∀ r : TimerRun Cb, r.wheel = w → r.control.Open →
    ∃ moves r', run moves r = some r' ∧ r'.wheel = w' ∧ r'.control = r.control

theorem walk_run (calls : CallsOnly fire) {chain : List Nat} {fired fired' : Nat} {s s' : σ} {w' : TimingWheel Cb}
    (here : r.wheel = w) (walking : r.control = .walking chain fired)
    (walked : walk fire chain fired (w, s) = some (fired', w', s')) :
    ∃ moves r', run moves r = some r' ∧ r'.wheel = w' ∧ r'.control = .walking [] fired' := by
  subst here
  induction chain generalizing r fired s with
  | nil =>
    obtain ⟨rfl, rfl, -⟩ := by simpa [TimingWheel.walk] using walked
    exact ⟨[], r, rfl, rfl, walking⟩
  | cons cur chain ih =>
    unfold TimingWheel.walk at walked
    split at walked
    case h_1 disarmed =>
      obtain ⟨w₁, freed, walked⟩ := Option.bind_eq_some_iff.mp walked
      obtain ⟨r₁, stepped, rfl, walking₁⟩ : ∃ r₁, r.step .advance = some r₁ ∧ r₁.wheel = w₁ ∧
          r₁.control = .walking chain fired := by
        simp only [TimerRun.step, walking, disarmed, freed, bind_eq_bind, pure_def, bind_some]
        exact ⟨_, rfl, rfl, rfl⟩
      obtain ⟨moves, r', ran, done⟩ := ih walking₁ walked
      exact ⟨.advance :: moves, r', Transition.run_cons stepped ran, done⟩
    case h_2 cb armed =>
      obtain ⟨⟨w₁, s₁⟩, called, walked⟩ := Option.bind_eq_some_iff.mp walked
      obtain ⟨r₁, invoked, disarmed, calling⟩ : ∃ r₁, r.step .advance = some r₁ ∧ r₁.wheel = r.wheel.disarm cur ∧
          r₁.control = .calling cur (r.wheel.nodes cur).gen chain fired := by
        simp only [TimerRun.step, walking, armed]
        exact ⟨_, rfl, rfl, rfl⟩
      obtain ⟨inside, r₂, ranInside, rfl, back⟩ := calls _ _ _ _ _ _ called r₁ disarmed (by rw [calling]; trivial)
      obtain ⟨r₃, returned, walking₃, rest⟩ : ∃ r₃, r₂.step .finish = some r₃ ∧
        r₃.control = .walking chain (fired + 1) ∧
          walk fire chain (fired + 1) (r₃.wheel, s₁) = some (fired', w', s') := by
        simp only [TimerRun.step, back.trans calling]
        dsimp only at walked
        split at walked
        case isTrue same =>
          obtain ⟨w₃, freed, walked⟩ := Option.bind_eq_some_iff.mp walked
          rw [if_pos same, freed]
          exact ⟨_, rfl, rfl, walked⟩
        case isFalse other =>
          rw [if_neg other]
          exact ⟨_, rfl, rfl, walked⟩
      obtain ⟨moves, r', ran, done⟩ := ih walking₃ rest
      exact ⟨.advance :: (inside ++ .finish :: moves), r',
        Transition.run_cons invoked (Transition.run_append ranInside (Transition.run_cons returned ran)), done⟩

/-- A call of `tick` is a run, so that what holds of every run holds of the wheel that it leaves. -/
theorem tick_run (calls : CallsOnly fire) {s s' : σ} {w' : TimingWheel Cb} (idle : r.control = .idle)
    (ticked : tick fire (r.wheel, s) = some (w', s')) : ∃ moves r', run moves r = some r' ∧ r'.wheel = w' ∧
    r'.control = .idle := by
  obtain ⟨⟨fired, w₁, s₁⟩, walked, done⟩ := Option.bind_eq_some_iff.mp ticked
  cases done
  obtain ⟨r₁, begun, here, walking⟩ : ∃ r₁, r.step .tick = some r₁ ∧
      r₁.wheel = { r.wheel with
        currentTick := (r.wheel.currentTick + 1) % 2 ^ 64
        buckets := update r.wheel.buckets ((r.wheel.currentTick + 1) % 2 ^ 64 % r.wheel.wheelSize) []
        inTickWalk := true } ∧
      r₁.control = .walking (r.wheel.buckets ((r.wheel.currentTick + 1) % 2 ^ 64 % r.wheel.wheelSize)) 0 := by
    simp only [TimerRun.step, idle]
    exact ⟨_, rfl, rfl, rfl⟩
  obtain ⟨moves, r₂, ran, rfl, finished⟩ := walk_run calls here walking walked
  have ended : r₂.step .advance = some { r₂ with
      wheel := { r₂.wheel with
        inTickWalk := false, activeCount := (r₂.wheel.activeCount + 2 ^ 32 - fired % 2 ^ 32) % 2 ^ 32 }
      control := .idle
      answer := none } := by
    simp only [TimerRun.step, finished]
  exact ⟨.tick :: (moves ++ [.advance]), _,
    Transition.run_cons begun (Transition.run_append ran (Transition.run_cons ended rfl)), rfl, rfl⟩

end Callbacks

end TimerRun

end TickToTrade.Ds
