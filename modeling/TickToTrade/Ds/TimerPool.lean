import TickToTrade.Ds.TimerRuns
import TickToTrade.Lib.ListSums

/-! The pool of a timing wheel: how many nodes are linked, armed and free between two calls. -/

namespace TickToTrade.Ds
open Function (update update_self update_of_ne)
open TimerRun (step)

open TimingWheel List Option

variable {chain : List Nat} {ws mt activeCount : Nat}

namespace TimingWheel

variable {Cb : Type}

def linkedNodes (w : TimingWheel Cb) : List Nat := (range w.wheelSize).flatMap w.buckets

def isArmed (w : TimingWheel Cb) (idx : Nat) : Bool := (w.nodes idx).cb.isSome

def pendingTimers (w : TimingWheel Cb) : Nat := (range w.maxTimers).countP w.isArmed

/-! ### The check of `reset`

A debug build counts the nodes that `reset` frees. -/

def freeChainCounting : List Nat → (freed : Nat) → TimingWheel Cb → Exec (Nat × TimingWheel Cb)
  | [], freed, w => some (freed, w)
  | idx :: rest, freed, w => do
    let w ← w.freeNode idx
    freeChainCounting rest ((freed + 1) % 2 ^ 32) w

def resetSlotsCounting : List Nat → (freed : Nat) → TimingWheel Cb → Exec (Nat × TimingWheel Cb)
  | [], freed, w => some (freed, w)
  | slot :: rest, freed, w => do
    let (freed, w) ← freeChainCounting (w.buckets slot) freed w
    resetSlotsCounting rest freed { w with buckets := update w.buckets slot [] }

/-- `reset` of a debug build, and whether its assertion holds. -/
def resetChecked (w : TimingWheel Cb) : Exec (Bool × TimingWheel Cb) := do
  let (freed, w) ← resetSlotsCounting (range w.wheelSize) 0 w
  return (freed = w.activeCount, { w with activeCount := 0, currentTick := 0 })

/-- The accounts of the pool are right, for the observer, for `schedule` and for the check of `reset`. -/
structure Balanced (w : TimingWheel Cb) : Prop where
  linked : w.activeCount = w.linkedNodes.length
  free : w.freeList.available = w.maxTimers - w.activeCount
  full : ∀ cb ctx delay, 1 ≤ delay → delay < w.wheelSize →
    ((∃ w', w.schedule cb ctx delay = some (kInvalidHandle, w')) ↔ w.pendingTimers = w.maxTimers)
  check : ∃ w', w.resetChecked = some (true, w')

variable {w w' w'' : TimingWheel Cb} {i : Nat}

theorem freeChainCounting_eq (chain : List Nat) (freed : Nat) (small : freed < 2 ^ 32) (w : TimingWheel Cb) :
    freeChainCounting chain freed w = (freeChain chain w).map fun w' => ((freed + chain.length) % 2 ^ 32, w') := by
  induction chain generalizing freed w with
  | nil => simp only [freeChainCounting, freeChain, map_some, length_nil, Nat.add_zero,
      Nat.mod_eq_of_lt small]
  | cons idx rest ih =>
    have more : ((freed + 1) % 2 ^ 32 + rest.length) % 2 ^ 32 = (freed + (idx :: rest).length) % 2 ^ 32 := by
      rw [length_cons]
      omega
    unfold freeChainCounting freeChain
    cases w.freeNode idx with
    | none => rfl
    | some w₁ =>
      simp only [bind_eq_bind, bind_some, ih _ (Nat.mod_lt _ (by decide)), more]

theorem resetSlotsCounting_eq {slots : List Nat} (nodup : slots.Nodup) (freed : Nat) (small : freed < 2 ^ 32)
    (w : TimingWheel Cb) : resetSlotsCounting slots freed w =
      (resetSlots slots w).map fun w' => ((freed + (slots.flatMap w.buckets).length) % 2 ^ 32, w') := by
  induction slots generalizing freed w with
  | nil =>
    simp only [resetSlotsCounting, resetSlots, map_some, flatMap_nil, length_nil, Nat.add_zero,
      Nat.mod_eq_of_lt small]
  | cons slot rest ih =>
    obtain ⟨once, nodup⟩ := nodup_cons.mp nodup
    unfold resetSlotsCounting resetSlots
    rw [freeChainCounting_eq _ _ small]
    cases freedChain : freeChain (w.buckets slot) w with
    | none => rfl
    | some w₁ =>
      have buckets := freeChain_frame freedChain
      have later : rest.flatMap (update w₁.buckets slot []) = rest.flatMap w.buckets := by
        refine flatMap_congr fun other member => ?_
        have different : other ≠ slot := fun same => once (same ▸ member)
        rw [update_of_ne different, buckets]
      have more : ((freed + (w.buckets slot).length) % 2 ^ 32 + (rest.flatMap w.buckets).length) % 2 ^ 32 =
          (freed + ((slot :: rest).flatMap w.buckets).length) % 2 ^ 32 := by
        rw [flatMap_cons, length_append]
        omega
      simp only [bind_eq_bind, map_some, bind_some, ih nodup _ (Nat.mod_lt _ (by decide)),
        later, more]

theorem resetChecked_eq (w : TimingWheel Cb) :
    w.resetChecked = (resetSlots (range w.wheelSize) w).map fun w' =>
      (decide (w.linkedNodes.length % 2 ^ 32 = w'.activeCount), { w' with activeCount := 0, currentTick := 0 }) := by
  unfold resetChecked
  rw [resetSlotsCounting_eq nodup_range 0 (by decide)]
  cases resetSlots (range w.wheelSize) w with
  | none => rfl
  | some w' => simp [linkedNodes]

/-! ### What freeing nodes leaves alone -/

structure Frees (w w' : TimingWheel Cb) : Prop where
  wheelSize : w'.wheelSize = w.wheelSize
  maxTimers : w'.maxTimers = w.maxTimers
  capacity : w'.freeList.capacity = w.freeList.capacity
  activeCount : w'.activeCount = w.activeCount
  gens : (∀ i, 0 < (w.nodes i).gen) → ∀ i, 0 < (w'.nodes i).gen

theorem Frees.refl (w : TimingWheel Cb) : w.Frees w := ⟨rfl, rfl, rfl, rfl, id⟩

theorem Frees.trans (first : w.Frees w') (second : w'.Frees w'') : w.Frees w'' :=
  ⟨second.wheelSize.trans first.wheelSize, second.maxTimers.trans first.maxTimers, second.capacity.trans first.capacity,
    second.activeCount.trans first.activeCount, second.gens ∘ first.gens⟩

theorem freeNode_frees (freed : w.freeNode i = some w') :
    w.Frees w' ∧ w'.buckets = w.buckets ∧ (w'.nodes i).cb = none ∧ ∀ j, j ≠ i → w'.nodes j = w.nodes j := by
  obtain ⟨freeList, pushed, rfl⟩ := freeNode_cases freed
  refine ⟨⟨rfl, rfl, push_capacity pushed, rfl, fun positive j => ?_⟩, rfl, by simp, fun j other => by simp [other]⟩
  by_cases same : j = i
  · subst same
    simp only [update_self]
    split <;> omega
  · simp only [update_of_ne same]
    exact positive j

theorem freeChain_frees (freed : freeChain chain w = some w') : w.Frees w' := by
  induction chain generalizing w with
  | nil =>
    obtain rfl := some.inj freed
    exact Frees.refl w
  | cons idx rest ih =>
    obtain ⟨w₁, first, freed⟩ := bind_eq_some_iff.mp freed
    exact (freeNode_frees first).1.trans (ih freed)

theorem resetSlots_frees {slots : List Nat} (cleared : resetSlots slots w = some w') :
    w.Frees w' ∧ (∀ slot, slot ∈ slots → w'.buckets slot = []) ∧ ∀ slot, w.buckets slot = [] →
    w'.buckets slot = [] := by
  induction slots generalizing w with
  | nil =>
    obtain rfl := some.inj cleared
    exact ⟨Frees.refl w, nofun, fun _ => id⟩
  | cons slot rest ih =>
    obtain ⟨w₁, freed, cleared⟩ := bind_eq_some_iff.mp cleared
    obtain ⟨frees, emptied, stays⟩ := ih cleared
    have here : w'.buckets slot = [] := stays slot (update_self ..)
    refine ⟨(freeChain_frees freed).trans ⟨frees.1, frees.2, frees.3, frees.4, frees.5⟩, fun other member => ?_,
      fun other old => ?_⟩
    · rcases mem_cons.mp member with rfl | later
      · exact here
      · exact emptied other later
    · by_cases same : other = slot
      · exact same ▸ here
      · refine stays other ?_
        simp only [update_of_ne same, freeChain_frame freed]
        exact old

/-! ### Counting -/

theorem pendingTimers_congr (size : w'.maxTimers = w.maxTimers) (same : ∀ j, (w'.nodes j).cb = (w.nodes j).cb) :
    w'.pendingTimers = w.pendingTimers := by
  have armed : w'.isArmed = w.isArmed := funext fun j => by rw [isArmed, isArmed, same]
  rw [pendingTimers, pendingTimers, size, armed]

theorem pendingTimers_succ (size : w'.maxTimers = w.maxTimers) (inside : i < w.maxTimers) (off : (w.nodes i).cb = none)
    (on : (w'.nodes i).cb ≠ none) (same : ∀ j, j ≠ i → (w'.nodes j).cb = (w.nodes j).cb) :
    w'.pendingTimers = w.pendingTimers + 1 := by
  rw [pendingTimers, pendingTimers, size]
  refine ListSums.countP_add_one nodup_range (mem_range.mpr inside) (by simp [isArmed, off])
    (isSome_iff_ne_none.mpr on) fun j _ other => ?_
  rw [isArmed, isArmed, same j other]

theorem mem_linkedNodes (held : w.Held []) : i ∈ w.linkedNodes ↔ w.Linked i := by
  rw [linkedNodes, mem_flatMap]
  constructor
  · rintro ⟨slot, -, member⟩
    exact ⟨slot, member⟩
  · rintro ⟨slot, member⟩
    exact ⟨slot, mem_range.mpr (held.home slot i member).1, member⟩

theorem linkedNodes_nodup (held : w.Held []) : w.linkedNodes.Nodup := by
  refine nodup_flatMap.mpr ⟨fun slot _ => held.distinct slot, ?_⟩
  refine nodup_range.imp fun {a b} different i inA inB => different ?_
  exact (held.home a i inA).2.symm.trans (held.home b i inB).2

theorem Held.partition (held : w.Held []) : (w.freeList.indices ++ w.linkedNodes).Perm (range w.freeList.capacity) := by
  refine held.tracks.perm (linkedNodes_nodup held) fun i => ?_
  rw [mem_linkedNodes held]
  simp

/-- The armed nodes are linked, so between two calls there are as many timers as linked nodes that are armed. -/
theorem Held.pendingTimers (held : w.Held []) (capacity : w.freeList.capacity = w.maxTimers) :
    w.pendingTimers = w.linkedNodes.countP w.isArmed := by
  have none : w.freeList.indices.countP w.isArmed = 0 := by
    rw [countP_eq_zero]
    intro i free armed
    obtain ⟨cb, set⟩ := isSome_iff_exists.mp armed
    have linked := (held.armed i cb set).resolve_right (by simp)
    exact ((held.tracks.mem_iff i).mp free).2 (.inl ⟨_, linked⟩)
  rw [TimingWheel.pendingTimers, ← capacity, ← held.partition.countP_eq, countP_append, none, Nat.zero_add]

theorem create_buckets (created : create ws mt = some w) : w.buckets = fun _ => [] := by
  unfold create at created
  split at created
  · cases created
  · obtain ⟨freeList, -, done⟩ := bind_eq_some_iff.mp created
    cases done
    rfl

theorem create_pending (created : create ws mt = some w) :
    w.activeCount = 0 ∧ w.pendingTimers = 0 ∧ ∀ i, 0 < (w.nodes i).gen := by
  unfold create at created
  split at created
  · cases created
  · obtain ⟨freeList, -, done⟩ := bind_eq_some_iff.mp created
    cases done
    exact ⟨rfl, countP_eq_zero.mpr nofun, fun _ => Nat.one_pos⟩

theorem schedule_full_iff {cb : Cb} {ctx delay : Nat} (gens : ∀ i, 0 < (w.nodes i).gen) (positive : 1 ≤ delay)
    (inside : delay < w.wheelSize) :
    (∃ w', w.schedule cb ctx delay = some (kInvalidHandle, w')) ↔ w.freeList.pop = none := by
  unfold schedule
  rw [if_neg (by omega)]
  cases popped : w.freeList.pop with
  | none => simp
  | some taken =>
    obtain ⟨idx, freeList⟩ := taken
    have valid := gens idx
    simp only [reduceCtorEq, iff_false, not_exists, some.injEq, Prod.mk.injEq, kInvalidHandle, packHandle]
    omega

theorem Held.balanced (held : w.Held []) (capacity : w.freeList.capacity = w.maxTimers) (word : w.maxTimers < 2 ^ 32)
    (gens : ∀ i, 0 < (w.nodes i).gen) (counted : w.activeCount = w.pendingTimers)
    (armed : ∀ slot i, i ∈ w.buckets slot → (w.nodes i).cb ≠ none) : w.Balanced := by
  have pending : w.pendingTimers = w.linkedNodes.length := by
    rw [held.pendingTimers capacity, countP_eq_length]
    intro i member
    obtain ⟨slot, there⟩ := (mem_linkedNodes held).mp member
    exact isSome_iff_ne_none.mpr (armed slot i there)
  have total : w.freeList.indices.length + w.linkedNodes.length = w.maxTimers := by
    have length := held.partition.length_eq
    rwa [length_append, length_range, capacity] at length
  refine ⟨counted.trans pending, ?_, fun cb ctx delay positive inside => ?_, ?_⟩
  · rw [IndexFreeStack.available, counted, pending]
    omega
  · rw [schedule_full_iff gens positive inside, IndexFreeStack.pop_eq_none, ← length_eq_zero_iff, pending]
    omega
  · obtain ⟨w', cleared, -⟩ := held.resetSlots (range w.wheelSize)
    refine ⟨{ w' with activeCount := 0, currentTick := 0 }, ?_⟩
    rw [resetChecked_eq, cleared, map_some, (resetSlots_frees cleared).1.activeCount, counted, pending,
      Nat.mod_eq_of_lt (by omega), decide_eq_true rfl]

end TimingWheel

/-! ### Runs with `reset` -/

theorem idle_of_outside {c : Control} (outside : c.inTick = false) : c = .idle := by
  cases c with
  | idle => rfl
  | _ => simp [Control.inTick] at outside

/-- Fired timers that `active_count_` still counts. -/
def Control.uncounted : Control → Nat
  | .idle => 0
  | .walking _ fired => fired
  | .calling _ _ _ fired => fired + 1

namespace TimerRun

variable {Cb : Type}

inductive PoolMove (Cb : Type) where
  | call (move : Move Cb)
  | reset

/-- `reset` is called between ticks. The ledger is not told of it. -/
def poolStep (r : TimerRun Cb) : PoolMove Cb → Exec (TimerRun Cb)
  | .call move => r.step move
  | .reset =>
    match r.control with
    | .idle => do
      let wheel ← r.wheel.reset
      return { r with wheel, answer := none }
    | _ => none

def poolRun : List (PoolMove Cb) → TimerRun Cb → Exec (TimerRun Cb) := Transition.run poolStep

inductive Effect (r : TimerRun Cb) : Move Cb → TimingWheel Cb → Control → Prop where
  | refused {cb : Cb} {ctx delay : Nat} : Effect r (.schedule cb ctx delay) r.wheel r.control
  | armed {cb : Cb} {ctx delay idx : Nat} {freeList : IndexFreeStack}
      (popped : r.wheel.freeList.pop = some (idx, freeList)) :
      Effect r (.schedule cb ctx delay) (r.wheel.arm freeList idx cb ctx delay) r.control
  | missed {h : Nat} : Effect r (.cancel h) r.wheel r.control
  | marked {h : Nat} (named : r.wheel.Names h) (walking : r.wheel.inTickWalk = true) :
      Effect r (.cancel h)
        { r.wheel.disarm (unpackHandle h).1 with activeCount := (r.wheel.activeCount + 2 ^ 32 - 1) % 2 ^ 32 } r.control
  | removed {h : Nat} {w : TimingWheel Cb} (named : r.wheel.Names h) (outside : r.wheel.inTickWalk = false)
      (freed : (r.wheel.unlink (unpackHandle h).1).freeNode (unpackHandle h).1 = some w) :
      Effect r (.cancel h) { w with activeCount := (r.wheel.activeCount + 2 ^ 32 - 1) % 2 ^ 32 } r.control
  | begun (idle : r.control = .idle) {slot : Nat}
      (here : slot = (r.wheel.currentTick + 1) % 2 ^ 64 % r.wheel.wheelSize) : Effect r .tick { r.wheel with
          currentTick := (r.wheel.currentTick + 1) % 2 ^ 64
          buckets := update r.wheel.buckets slot []
          inTickWalk := true }
        (.walking (r.wheel.buckets slot) 0)
  | ended {fired : Nat} (walking : r.control = .walking [] fired) :
      Effect r .advance
        { r.wheel with
          inTickWalk := false, activeCount := (r.wheel.activeCount + 2 ^ 32 - fired % 2 ^ 32) % 2 ^ 32 } .idle
  | skipped {cur : Nat} {chain : List Nat} {fired : Nat} {w : TimingWheel Cb}
      (walking : r.control = .walking (cur :: chain) fired)
      (unarmed : (r.wheel.nodes cur).cb = none) (freed : r.wheel.freeNode cur = some w) :
      Effect r .advance w (.walking chain fired)
  | called {cur : Nat} {chain : List Nat} {fired : Nat} (walking : r.control = .walking (cur :: chain) fired)
      (set : (r.wheel.nodes cur).cb ≠ none) :
      Effect r .advance (r.wheel.disarm cur) (.calling cur (r.wheel.nodes cur).gen chain fired)
  | returned {cur savedGen : Nat} {chain : List Nat} {fired : Nat} {w : TimingWheel Cb}
      (calling : r.control = .calling cur savedGen chain fired) (freed : r.wheel.freeNode cur = some w) :
      Effect r .finish w (.walking chain (fired + 1))
  | reused {cur savedGen : Nat} {chain : List Nat} {fired : Nat}
      (calling : r.control = .calling cur savedGen chain fired)
      (other : (r.wheel.nodes cur).gen ≠ savedGen) : Effect r .finish r.wheel (.walking chain (fired + 1))

variable {r r' : TimerRun Cb}

theorem step_effect {move : Move Cb} (stepped : r.step move = some r') : Effect r move r'.wheel r'.control := by
  cases move with
  | schedule cb ctx delay =>
    obtain ⟨_, -, stepped⟩ := bind_eq_some_iff.mp stepped
    obtain ⟨⟨handle, wheel⟩, scheduled, stepped⟩ := bind_eq_some_iff.mp stepped
    have left : r'.wheel = wheel ∧ r'.control = r.control := by
      dsimp only at stepped
      split at stepped <;> obtain rfl := some.inj stepped <;> exact ⟨rfl, rfl⟩
    rw [left.1, left.2]
    obtain ⟨-, ⟨-, rfl⟩ | ⟨idx, freeList, popped, -, rfl⟩⟩ := schedule_cases scheduled
    · exact .refused
    · exact .armed popped
  | cancel h =>
    obtain ⟨_, -, stepped⟩ := bind_eq_some_iff.mp stepped
    obtain ⟨⟨found, wheel⟩, cancelled, stepped⟩ := bind_eq_some_iff.mp stepped
    cases stepped
    by_cases named : r.wheel.Names h
    · rw [cancel_of_names named] at cancelled
      split at cancelled
      case isTrue walking =>
        cases cancelled
        exact .marked named walking
      case isFalse outside =>
        obtain ⟨w, freed, made⟩ := map_eq_some_iff.mp cancelled
        cases made
        exact .removed named (by simpa using outside) freed
    · rw [cancel_of_not_names named] at cancelled
      cases cancelled
      exact .missed
  | tick =>
    cases state : r.control <;> simp only [step, state, reduceCtorEq] at stepped
    cases stepped
    exact .begun state rfl
  | advance =>
    cases state : r.control with
    | walking chain fired =>
      cases chain with
      | nil =>
        simp only [step, state] at stepped
        cases stepped
        exact .ended state
      | cons cur chain =>
        simp only [step, state] at stepped
        split at stepped
        case h_1 unarmed =>
          obtain ⟨w, freed, stepped⟩ := bind_eq_some_iff.mp stepped
          cases stepped
          exact .skipped state unarmed freed
        case h_2 cb set =>
          cases stepped
          exact .called state (by simp [set])
    | _ => simp only [step, state, reduceCtorEq] at stepped
  | finish =>
    cases state : r.control with
    | calling cur savedGen chain fired =>
      simp only [step, state] at stepped
      split at stepped
      case isTrue same =>
        obtain ⟨w, freed, stepped⟩ := bind_eq_some_iff.mp stepped
        cases stepped
        exact .returned state freed
      case isFalse other =>
        cases stepped
        exact .reused state other
    | _ => simp only [step, state, reduceCtorEq] at stepped

structure Pooled (w : TimingWheel Cb) (c : Control) : Prop where
  held : w.Held c.detached
  flag : w.inTickWalk = c.inTick
  current : ∀ cur savedGen chain fired, c = .calling cur savedGen chain fired →
    (w.nodes cur).gen = savedGen ∧ (w.nodes cur).cb = none
  capacity : w.freeList.capacity = w.maxTimers
  word : w.maxTimers < 2 ^ 32
  gens : ∀ i, 0 < (w.nodes i).gen
  counted : w.activeCount = (w.pendingTimers + c.uncounted) % 2 ^ 32

theorem pooled_start {w : TimingWheel Cb} (created : create ws mt = some w) : Pooled w .idle := by
  have inv := inv_start created
  obtain ⟨count, pending, gens⟩ := create_pending created
  refine ⟨inv.accounts.held, inv.flag, nofun, inv.accounts.capacity.1, inv.accounts.capacity.2, gens, ?_⟩
  rw [count, pending]
  rfl

section Pooled

variable {w w' : TimingWheel Cb} {c : Control} {i : Nat}

theorem Pooled.inside (pooled : Pooled w c) (set : (w.nodes i).cb ≠ none) : i < w.maxTimers := by
  obtain ⟨cb, armed⟩ := ne_none_iff_exists'.mp set
  rw [← pooled.capacity]
  exact pooled.held.tracks.used_lt i ((pooled.held.armed i cb armed).imp_left fun linked => ⟨_, linked⟩)

theorem Pooled.arm (pooled : Pooled w c) {freeList : IndexFreeStack} (popped : w.freeList.pop = some (i, freeList))
    (cb : Cb) (ctx delay : Nat) : Pooled (w.arm freeList i cb ctx delay) c := by
  obtain ⟨held, flag, current, capacity, word, gens, counted⟩ := pooled
  obtain ⟨inside, unused, same, -⟩ := held.tracks.pop popped
  have unarmed : (w.nodes i).cb = none := by
    by_contra set
    obtain ⟨cb', armed⟩ := ne_none_iff_exists'.mp set
    exact unused ((held.armed i cb' armed).imp_left fun linked => ⟨_, linked⟩)
  have others : ∀ j, j ≠ i → (w.arm freeList i cb ctx delay).nodes j = w.nodes j := fun j other => by
    simp [TimingWheel.arm, pushFront, other]
  have more : (w.arm freeList i cb ctx delay).pendingTimers = w.pendingTimers + 1 :=
    pendingTimers_succ rfl (capacity ▸ inside) unarmed (by simp [TimingWheel.arm, pushFront]) fun j other => by
      rw [others j other]
  refine ⟨held.arm popped cb ctx delay, flag, fun cur savedGen chain fired calling => ?_, same.trans capacity, word,
    fun j => ?_, ?_⟩
  · have other : cur ≠ i := by
      rintro rfl
      refine unused (.inr ?_)
      rw [calling]
      exact mem_cons_self
    rw [others cur other]
    exact current cur savedGen chain fired calling
  · by_cases here : j = i
    · subst here
      simp only [TimingWheel.arm, pushFront, update_self]
      exact gens j
    · rw [others j here]
      exact gens j
  · have count : (w.arm freeList i cb ctx delay).activeCount = (w.activeCount + 1) % 2 ^ 32 := rfl
    rw [count, more]
    omega

theorem disarm_gen (w : TimingWheel Cb) (i j : Nat) : ((w.disarm i).nodes j).gen = (w.nodes j).gen := by
  by_cases same : j = i
  · subst same
    simp [disarm]
  · rw [disarm_nodes_ne same]

theorem Pooled.disarm_pending (pooled : Pooled w c) (set : (w.nodes i).cb ≠ none) :
    w.pendingTimers = (w.disarm i).pendingTimers + 1 :=
  pendingTimers_succ rfl (pooled.inside set) (by simp [disarm]) set fun j other => by rw [disarm_nodes_ne other]

theorem Pooled.mark (pooled : Pooled w c) (set : (w.nodes i).cb ≠ none)
    (less : activeCount = (w.activeCount + 2 ^ 32 - 1) % 2 ^ 32) : Pooled { w.disarm i with activeCount } c := by
  have fewer := pooled.disarm_pending set
  obtain ⟨held, flag, current, capacity, word, gens, counted⟩ := pooled
  refine ⟨(disarm_held held i).congr rfl rfl rfl rfl, flag, fun cur savedGen chain fired calling => ?_, capacity, word,
    fun j => ?_, ?_⟩
  · obtain ⟨gen, unarmed⟩ := current cur savedGen chain fired calling
    have other : cur ≠ i := fun same => set (same ▸ unarmed)
    dsimp only
    rw [disarm_nodes_ne other]
    exact ⟨gen, unarmed⟩
  · dsimp only
    rw [disarm_gen]
    exact gens j
  · show activeCount = ((w.disarm i).pendingTimers + c.uncounted) % 2 ^ 32
    omega

theorem Pooled.remove (pooled : Pooled w .idle) (set : (w.nodes i).cb ≠ none)
    (freed : (w.unlink i).freeNode i = some w') (less : activeCount = (w.activeCount + 2 ^ 32 - 1) % 2 ^ 32) :
    Pooled { w' with activeCount } .idle := by
  have inside := pooled.inside set
  obtain ⟨held, flag, -, capacity, word, gens, counted⟩ := pooled
  obtain ⟨cb, armed⟩ := ne_none_iff_exists'.mp set
  have linked := (held.armed i cb armed).resolve_right (by simp [Control.detached])
  obtain ⟨w₁, again, kept, still⟩ := (held.unlink linked).freeNode
  obtain rfl := mem_unique again freed
  obtain ⟨frees, -, cleared, others⟩ := freeNode_frees freed
  have fewer : w.pendingTimers = w₁.pendingTimers + 1 :=
    pendingTimers_succ frees.maxTimers.symm (frees.maxTimers.symm ▸ inside) cleared set fun j other => by
      rw [others j other]
      rfl
  have size : w₁.maxTimers = w.maxTimers := frees.maxTimers
  refine ⟨kept.congr rfl rfl rfl rfl, still.trans flag, by rintro _ _ _ _ ⟨⟩, ?_, size.symm ▸ word, frees.gens gens, ?_⟩
  · exact frees.capacity.trans (capacity.trans size.symm)
  · have before : w.activeCount = (w.pendingTimers + 0) % 2 ^ 32 := counted
    show activeCount = (w₁.pendingTimers + 0) % 2 ^ 32
    omega

theorem Pooled.ended {fired : Nat} (pooled : Pooled w (.walking [] fired))
    (less : activeCount = (w.activeCount + 2 ^ 32 - fired % 2 ^ 32) % 2 ^ 32) :
    Pooled { w with inTickWalk := false, activeCount } .idle := by
  obtain ⟨held, -, -, capacity, word, gens, counted⟩ := pooled
  have before : w.activeCount = (w.pendingTimers + fired) % 2 ^ 32 := counted
  have after : activeCount = (w.pendingTimers + 0) % 2 ^ 32 := by omega
  exact ⟨held.congr rfl rfl rfl rfl, rfl, nofun, capacity, word, gens, after⟩

theorem Pooled.release (pooled : Pooled w c) {cur : Nat} {fired : Nat} (detached : c.detached = cur :: chain)
    (inTick : c.inTick = true) (count : c.uncounted = fired) (unarmed : (w.nodes cur).cb = none)
    (freed : w.freeNode cur = some w') : Pooled w' (.walking chain fired) := by
  obtain ⟨held, flag, -, capacity, word, gens, counted⟩ := pooled
  rw [detached] at held
  obtain ⟨w₁, again, kept, still⟩ := held.freeNode
  obtain rfl := mem_unique again freed
  obtain ⟨frees, -, cleared, others⟩ := freeNode_frees freed
  have same : w₁.pendingTimers = w.pendingTimers := by
    refine pendingTimers_congr frees.maxTimers fun j => ?_
    by_cases here : j = cur
    · rw [here, cleared, unarmed]
    · rw [others j here]
  refine ⟨kept, still.trans (flag.trans inTick), nofun, frees.capacity.trans (capacity.trans frees.maxTimers.symm),
    frees.maxTimers.symm ▸ word, frees.gens gens, ?_⟩
  rw [frees.activeCount, counted, same, count]
  rfl

end Pooled

variable {move : Move Cb} {w : TimingWheel Cb} {c : Control}

theorem Pooled.effect (pooled : Pooled r.wheel r.control) (effect : Effect r move w c) : Pooled w c := by
  obtain ⟨held, flag, current, capacity, word, gens, counted⟩ := id pooled
  cases effect with
  | refused => exact pooled
  | armed popped => exact pooled.arm popped _ _ _
  | missed => exact pooled
  | marked named walking => exact pooled.mark named.2.2.2 rfl
  | removed named outside freed =>
    have idle := idle_of_outside (flag.symm.trans outside)
    rw [idle] at pooled ⊢
    exact pooled.remove named.2.2.2 freed rfl
  | begun idle here =>
    rw [idle] at held counted
    generalize (r.wheel.currentTick + 1) % 2 ^ 64 = currentTick at here ⊢
    exact ⟨(held.detach _).congr rfl rfl rfl rfl, rfl, nofun, capacity, word, gens, counted⟩
  | ended walking => exact (walking ▸ pooled).ended rfl
  | skipped walking unarmed freed =>
    exact pooled.release (by rw [walking]; rfl) (by rw [walking]; rfl) (by rw [walking]; rfl) unarmed freed
  | @called cur chain fired walking set =>
    have fewer := pooled.disarm_pending set
    rw [walking] at held counted flag
    refine ⟨disarm_held held cur, flag, ?_, capacity, word, fun j => (disarm_gen _ cur j).symm ▸ gens j, ?_⟩
    · rintro _ _ _ _ ⟨⟩
      exact ⟨disarm_gen .., by simp [disarm]⟩
    · have before : r.wheel.activeCount = (r.wheel.pendingTimers + fired) % 2 ^ 32 := counted
      show r.wheel.activeCount = ((r.wheel.disarm cur).pendingTimers + (fired + 1)) % 2 ^ 32
      omega
  | returned calling freed =>
    obtain ⟨-, unarmed⟩ := current _ _ _ _ calling
    exact pooled.release (by rw [calling]; rfl) (by rw [calling]; rfl) (by rw [calling]; rfl) unarmed freed
  | reused calling other => exact absurd (current _ _ _ _ calling).1 other

theorem Pooled.reset (pooled : Pooled w .idle) {w' : TimingWheel Cb} (done : w.reset = some w') :
    Pooled w' .idle ∧ ∀ slot, w'.buckets slot = [] := by
  obtain ⟨held, flag, -, capacity, word, gens, -⟩ := pooled
  obtain ⟨w₁, cleared, kept, still⟩ := held.resetSlots (range w.wheelSize)
  obtain ⟨w₂, again, done⟩ := bind_eq_some_iff.mp done
  obtain rfl := mem_unique cleared again
  cases done
  obtain ⟨frees, emptied, -⟩ := resetSlots_frees cleared
  have empty : ∀ slot, w₁.buckets slot = [] := by
    intro slot
    by_contra occupied
    obtain ⟨i, member⟩ := exists_mem_of_ne_nil _ occupied
    have inside := (kept.home slot i member).1
    rw [frees.wheelSize] at inside
    exact occupied (emptied slot (mem_range.mpr inside))
  have size : w₁.freeList.capacity = w₁.maxTimers := frees.capacity.trans (capacity.trans frees.maxTimers.symm)
  have none : w₁.pendingTimers = 0 := by
    rw [kept.pendingTimers size, countP_eq_zero]
    intro i member
    obtain ⟨slot, there⟩ := (mem_linkedNodes kept).mp member
    rw [empty slot] at there
    cases there
  refine ⟨⟨kept.congr rfl rfl rfl rfl, still.trans flag, nofun, size, frees.maxTimers.symm ▸ word, frees.gens gens, ?_⟩,
    empty⟩
  have zero : 0 = (w₁.pendingTimers + 0) % 2 ^ 32 := by omega
  exact zero

theorem poolStep_reset (stepped : r.poolStep .reset = some r') :
    r.control = .idle ∧ ∃ wheel, r.wheel.reset = some wheel ∧ r' = { r with wheel, answer := none } := by
  cases state : r.control with
  | idle =>
    simp only [poolStep, state] at stepped
    obtain ⟨wheel, done, stepped⟩ := bind_eq_some_iff.mp stepped
    exact ⟨rfl, wheel, done, (some.inj stepped).symm⟩
  | _ => simp only [poolStep, state, reduceCtorEq] at stepped

theorem poolStep_pooled {move : PoolMove Cb} (pooled : Pooled r.wheel r.control) (stepped : r.poolStep move = some r') :
    Pooled r'.wheel r'.control := by
  cases move with
  | call move => exact pooled.effect (step_effect stepped)
  | reset =>
    obtain ⟨idle, wheel, done, rfl⟩ := poolStep_reset stepped
    dsimp only
    rw [idle] at pooled ⊢
    exact (pooled.reset done).1

/-! ### Callbacks that cancel -/

/-- What a callback cancels is in the chain that `tick` walks. -/
def CancelsInChain (r : TimerRun Cb) : PoolMove Cb → Prop
  | .call (.cancel h) => r.control.inTick = true → r.wheel.Names h → (unpackHandle h).1 ∈ r.control.detached
  | _ => True

instance (r : TimerRun Cb) : ∀ move, Decidable (r.CancelsInChain move)
  | .call (.cancel h) =>
    inferInstanceAs (Decidable (r.control.inTick = true → r.wheel.Names h → (unpackHandle h).1 ∈ r.control.detached))
  | .call (.schedule _ _ _) | .call .tick | .call .advance | .call .finish | .reset => isTrue trivial

def Tidy (w : TimingWheel Cb) : Prop := ∀ slot i, i ∈ w.buckets slot → (w.nodes i).cb ≠ none

section Tidy

variable {w' : TimingWheel Cb} {i : Nat}

section

variable (tidy : Tidy w) (unlinked : ¬ w.Linked i)
include tidy unlinked

theorem Tidy.clear (buckets : w'.buckets = w.buckets) (others : ∀ j, j ≠ i → (w'.nodes j).cb = (w.nodes j).cb) :
    Tidy w' := by
  intro slot j member
  rw [buckets] at member
  have other : j ≠ i := fun same => unlinked (same ▸ ⟨slot, member⟩)
  rw [others j other]
  exact tidy slot j member

theorem Tidy.freeNode (freed : w.freeNode i = some w') : Tidy w' := by
  obtain ⟨-, buckets, -, others⟩ := freeNode_frees freed
  exact tidy.clear unlinked buckets fun j other => by rw [others j other]

theorem Tidy.disarm : Tidy (w.disarm i) :=
  tidy.clear unlinked rfl fun j other => by rw [disarm_nodes_ne other]

end

theorem Tidy.thin (tidy : Tidy w) {here : Nat} (fewer : ∀ j ∈ chain, j ∈ w.buckets here)
    (buckets : w'.buckets = update w.buckets here chain) (nodes : w'.nodes = w.nodes) : Tidy w' := by
  intro slot j member
  rw [nodes]
  rw [buckets] at member
  by_cases same : slot = here
  · subst same
    rw [update_self] at member
    exact tidy slot j (fewer j member)
  · rw [update_of_ne same] at member
    exact tidy slot j member

end Tidy

theorem Tidy.effect (tidy : Tidy r.wheel) (pooled : Pooled r.wheel r.control) (effect : Effect r move w c)
    (inChain : r.CancelsInChain (.call move)) : Tidy w := by
  have held := pooled.held
  cases effect with
  | refused => exact tidy
  | missed => exact tidy
  | reused calling other => exact tidy
  | ended walking => exact fun slot i member => tidy slot i member
  | @armed cb ctx delay idx freeList popped =>
    intro slot j member
    by_cases same : j = idx
    · subst same
      simp [arm, pushFront]
    · have old := (mem_arm_buckets.mp member).resolve_right fun new => same new.2
      simp only [arm, pushFront, update_of_ne same]
      exact tidy slot j old
  | marked named walking =>
    have inTick : r.control.inTick = true := pooled.flag.symm.trans walking
    have cleared := tidy.disarm (held.apart _ (inChain inTick named))
    exact fun slot j member => cleared slot j member
  | @removed h w₁ named outside freed =>
    obtain ⟨cb, armed⟩ := ne_none_iff_exists'.mp named.2.2.2
    rw [idle_of_outside (pooled.flag.symm.trans outside)] at held
    have taken := held.unlink ((held.armed _ cb armed).resolve_right (by simp [Control.detached]))
    have thinned : Tidy (r.wheel.unlink (unpackHandle h).1) := tidy.thin (fun j => mem_of_mem_erase) rfl rfl
    have freed := thinned.freeNode (taken.apart _ mem_cons_self) freed
    exact fun slot j member => freed slot j member
  | begun idle here => exact tidy.thin (by simp) rfl rfl
  | skipped walking unarmed freed =>
    refine tidy.freeNode (held.apart _ ?_) freed
    rw [walking]
    exact mem_cons_self
  | called walking set =>
    refine tidy.disarm (held.apart _ ?_)
    rw [walking]
    exact mem_cons_self
  | returned calling freed =>
    refine tidy.freeNode (held.apart _ ?_) freed
    rw [calling]
    exact mem_cons_self

theorem poolStep_tidy {move : PoolMove Cb} (kept : Pooled r.wheel r.control ∧ Tidy r.wheel)
    (inChain : r.CancelsInChain move)
    (stepped : r.poolStep move = some r') : Pooled r'.wheel r'.control ∧ Tidy r'.wheel := by
  refine ⟨poolStep_pooled kept.1 stepped, ?_⟩
  cases move with
  | call move => exact kept.2.effect kept.1 (step_effect stepped) inChain
  | reset =>
    obtain ⟨idle, wheel, done, rfl⟩ := poolStep_reset stepped
    obtain ⟨pooled, -⟩ := kept
    rw [idle] at pooled
    intro slot i member
    rw [(pooled.reset done).2 slot] at member
    cases member

/-- Between two calls the pool's accounts are right, if no callback has cancelled a timer of another tick. -/
theorem poolRun_balanced {ws mt : Nat} {w : TimingWheel Cb} {moves : List (PoolMove Cb)}
    (created : create ws mt = some w) (inChain : Transition.Along poolStep CancelsInChain moves { wheel := w })
    (ran : poolRun moves { wheel := w } = some r) (idle : r.control = .idle) : r.wheel.Balanced := by
  have start : Pooled w .idle ∧ Tidy w := by
    refine ⟨pooled_start created, fun slot i member => ?_⟩
    rw [create_buckets created] at member
    cases member
  obtain ⟨pooled, tidy⟩ :=
    Transition.run_invariant (fun kept inChain stepped => poolStep_tidy kept inChain stepped) start inChain ran
  rw [idle] at pooled
  refine pooled.held.balanced pooled.capacity pooled.word pooled.gens ?_ tidy
  have few : r.wheel.pendingTimers ≤ r.wheel.maxTimers := by
    have bound := countP_le_length (p := r.wheel.isArmed) (l := range r.wheel.maxTimers)
    rwa [length_range] at bound
  have counted : r.wheel.activeCount = (r.wheel.pendingTimers + 0) % 2 ^ 32 := pooled.counted
  have word := pooled.word
  omega

/-- A callback cancels the other timer of its tick and schedules a new one; then the wheel is reset and used again. -/
def resetMoves : List (PoolMove Nat) :=
  [.call (.schedule 7 70 1), .call (.schedule 8 80 1), .call .tick, .call .advance, .call (.cancel (packHandle 0 1)),
    .call (.schedule 9 90 3), .call .finish, .call .advance, .call .advance, .reset, .call (.schedule 10 100 2)]

theorem poolRun_balanced_reset :
    ∃ w r, create 4 4 = some w ∧ poolRun resetMoves { wheel := w } = some r ∧ r.wheel.activeCount = 1 ∧
    r.wheel.Balanced := by
  obtain ⟨w, created, inChain, r, ran, outside, count⟩ : ∃ w : TimingWheel Nat, create 4 4 = some w ∧
      Transition.Along poolStep CancelsInChain resetMoves { wheel := w } ∧
      ∃ r, poolRun resetMoves { wheel := w } = some r ∧ r.control.inTick = false ∧ r.wheel.activeCount = 1 := by
    decide +kernel
  exact ⟨w, r, created, ran, count, poolRun_balanced created inChain ran (idle_of_outside outside)⟩

/-- The callback of the first timer cancels the second, which is due two ticks later: its node stays linked. -/
def strayMoves : List (PoolMove Nat) :=
  [.call (.schedule 7 70 1), .call (.schedule 8 80 3), .call .tick, .call .advance, .call (.cancel (packHandle 1 1)),
    .call .finish, .call .advance]

theorem cancelled_node_stays_linked :
    ¬ ∀ (ws mt : Nat) (w : TimingWheel Nat) (moves : List (PoolMove Nat)) (r : TimerRun Nat), create ws mt = some w →
      poolRun moves { wheel := w } = some r → r.control = .idle → r.wheel.Balanced := by
  intro claimed
  obtain ⟨w, created, r, ran, outside, count, linked⟩ : ∃ w : TimingWheel Nat, create 4 2 = some w ∧
      ∃ r, poolRun strayMoves { wheel := w } = some r ∧ r.control.inTick = false ∧ r.wheel.activeCount = 0 ∧
        r.wheel.linkedNodes.length = 1 := by
    decide +kernel
  have balanced := claimed 4 2 w strayMoves r created ran (idle_of_outside outside)
  have equal := balanced.linked
  omega

end TimerRun

end TickToTrade.Ds
