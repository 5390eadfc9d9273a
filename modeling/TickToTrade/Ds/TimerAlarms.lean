import TickToTrade.Ds.TimerPool

/-!
A timing wheel between two calls as a set of alarms: the handle of each armed node, its context and the
ticks that are left until its callback is called.
-/

namespace TickToTrade.Ds.TimingWheel
open List Option Function
open RingIndex (wrapSub wrapSub_eq_zero wrapSub_succ)

variable {Cb σ : Type}

def handleOf (w : TimingWheel Cb) (i : Nat) : Nat := packHandle i (w.nodes i).gen

/-- The ticks until the bucket of a node is taken. -/
def remaining (w : TimingWheel Cb) (i : Nat) : Nat :=
  wrapSub w.wheelSize (w.nodes i).slot (w.currentTick % w.wheelSize)

structure AlarmAt (w : TimingWheel Cb) (i h ctx left : Nat) : Prop where
  armed : (w.nodes i).cb ≠ none
  handle : w.handleOf i = h
  ctx : (w.nodes i).ctx = ctx
  left : w.remaining i = left

def Alarm (w : TimingWheel Cb) (h ctx left : Nat) : Prop := ∃ i, w.AlarmAt i h ctx left

/-- A wheel between two calls: every linked node is armed, and the bucket of the current tick is empty. -/
structure Clocked (w : TimingWheel Cb) : Prop where
  ok : w.Ok
  capacity : w.freeList.capacity = w.maxTimers
  word : w.maxTimers < 2 ^ 32
  gens : ∀ i, 0 < (w.nodes i).gen
  size : w.wheelSize ∣ 2 ^ 64
  armed : ∀ slot i, i ∈ w.buckets slot → (w.nodes i).cb ≠ none
  ahead : w.buckets (w.currentTick % w.wheelSize) = []

structure SameSize (w w' : TimingWheel Cb) : Prop where
  wheelSize : w'.wheelSize = w.wheelSize
  maxTimers : w'.maxTimers = w.maxTimers

variable {w w' : TimingWheel Cb} {i h ctx left : Nat}

theorem SameSize.trans {w'' : TimingWheel Cb} (first : w.SameSize w') (second : w'.SameSize w'') : w.SameSize w'' :=
  ⟨second.wheelSize.trans first.wheelSize, second.maxTimers.trans first.maxTimers⟩

/-! ### One node, one handle -/

theorem Clocked.linked (clocked : w.Clocked) (armed : (w.nodes i).cb ≠ none) : i ∈ w.buckets (w.nodes i).slot := by
  obtain ⟨cb, set⟩ := ne_none_iff_exists'.mp armed
  exact (clocked.ok.held.armed i cb set).resolve_right (by simp)

theorem Clocked.inside (clocked : w.Clocked) (armed : (w.nodes i).cb ≠ none) : i < w.maxTimers := by
  rw [← clocked.capacity]
  exact clocked.ok.held.tracks.used_lt i (.inl ⟨_, clocked.linked armed⟩)

theorem unpack_handleOf (bound : i < 2 ^ 32) : unpackHandle (w.handleOf i) = (i, (w.nodes i).gen) :=
  unpackHandle_packHandle bound

section

variable (clocked : w.Clocked)
include clocked

theorem Clocked.unpack (armed : (w.nodes i).cb ≠ none) : unpackHandle (w.handleOf i) = (i, (w.nodes i).gen) :=
  unpack_handleOf (Nat.lt_trans (clocked.inside armed) clocked.word)

theorem AlarmAt.node_eq {c r : Nat} (at_ : w.AlarmAt i h c r) : (unpackHandle h).1 = i := by
  rw [← at_.handle, clocked.unpack at_.armed]

theorem Alarm.unique {c c' r r' : Nat} (one : w.Alarm h c r) (other : w.Alarm h c' r') : c = c' ∧ r = r' := by
  obtain ⟨i, at_⟩ := one
  obtain ⟨j, at'⟩ := other
  obtain rfl : i = j := (at_.node_eq clocked).symm.trans (at'.node_eq clocked)
  exact ⟨at_.ctx.symm.trans at'.ctx, at_.left.symm.trans at'.left⟩

theorem Clocked.names_iff : w.Names h ↔ ∃ c r, w.Alarm h c r := by
  constructor
  · rintro ⟨-, -, gen, armed⟩
    refine ⟨_, _, (unpackHandle h).1, armed, ?_, rfl, rfl⟩
    rw [handleOf, gen]
    unfold packHandle unpackHandle
    dsimp only
    omega
  · rintro ⟨c, r, i, armed, rfl, -, -⟩
    have positive := clocked.gens i
    unfold Names
    rw [clocked.unpack armed]
    refine ⟨?_, clocked.inside armed, rfl, armed⟩
    unfold handleOf packHandle kInvalidHandle
    omega

/-- An alarm is due after the current tick and before the wheel comes round. -/
theorem Alarm.bounds (alarm : w.Alarm h ctx left) : 0 < left ∧ left < w.wheelSize := by
  obtain ⟨i, armed, -, -, rfl⟩ := alarm
  have member := clocked.linked armed
  have bound := (clocked.ok.held.home _ _ member).1
  have positive := clocked.ok.held.positive
  refine ⟨Nat.pos_of_ne_zero fun zero => ?_, Nat.mod_lt _ positive⟩
  have current := (wrapSub_eq_zero bound (Nat.mod_lt _ positive)).mp zero
  rw [current, clocked.ahead] at member
  cases member

end

theorem AlarmAt.frame (node : w'.nodes i = w.nodes i) (tick : w'.currentTick = w.currentTick)
    (size : w'.wheelSize = w.wheelSize) : w'.AlarmAt i h ctx left ↔ w.AlarmAt i h ctx left := by
  have handle : w'.handleOf i = w.handleOf i := by rw [handleOf, handleOf, node]
  have remains : w'.remaining i = w.remaining i := by rw [remaining, remaining, node, tick, size]
  constructor
  · rintro ⟨armed, same, about, ticks⟩
    exact ⟨node ▸ armed, handle ▸ same, node ▸ about, remains ▸ ticks⟩
  · rintro ⟨armed, same, about, ticks⟩
    exact ⟨node ▸ armed, handle.trans same, node ▸ about, remains.trans ticks⟩

/-! ### The handles of the armed nodes -/

def handles (w : TimingWheel Cb) : List Nat := w.linkedNodes.map w.handleOf

theorem Clocked.mem_handles (clocked : w.Clocked) : h ∈ w.handles ↔ ∃ c r, w.Alarm h c r := by
  simp only [handles, List.mem_map, mem_linkedNodes clocked.ok.held]
  constructor
  · rintro ⟨i, ⟨slot, member⟩, rfl⟩
    exact ⟨_, _, i, clocked.armed slot i member, rfl, rfl, rfl⟩
  · rintro ⟨c, r, i, armed, rfl, -⟩
    exact ⟨i, ⟨_, clocked.linked armed⟩, rfl⟩

theorem Clocked.handles_nodup (clocked : w.Clocked) : w.handles.Nodup := by
  refine (nodup_map_iff_inj_on (linkedNodes_nodup clocked.ok.held)).mpr fun i inI j inJ same => ?_
  obtain ⟨slotI, memberI⟩ := (mem_linkedNodes clocked.ok.held).mp inI
  obtain ⟨slotJ, memberJ⟩ := (mem_linkedNodes clocked.ok.held).mp inJ
  have unpacked := congrArg (fun h => (unpackHandle h).1) same
  simpa only [clocked.unpack (clocked.armed _ _ memberI), clocked.unpack (clocked.armed _ _ memberJ)] using unpacked

theorem Clocked.room (clocked : w.Clocked) (few : w.handles.length < w.maxTimers) :
    ∃ idx freeList, w.freeList.pop = some (idx, freeList) := by
  have length := clocked.ok.held.partition.length_eq
  rw [length_append, length_range, clocked.capacity] at length
  rw [handles, length_map] at few
  cases popped : w.freeList.pop with
  | none =>
    rw [IndexFreeStack.pop_eq_none.mp popped, length_nil] at length
    omega
  | some taken => exact ⟨taken.1, taken.2, rfl⟩

/-! ### The operations -/

theorem create_clocked {ws mt : Nat} (created : create ws mt = some w) :
    w.Clocked ∧ w.wheelSize = ws ∧ w.maxTimers = mt ∧ ∀ h c r, ¬ w.Alarm h c r := by
  have accounts := (TimerRun.inv_start created).accounts
  have buckets := create_buckets created
  have gens := (create_pending created).2.2
  have ok := create_ok created
  have none : ∀ h c r, ¬ w.Alarm h c r := by
    rintro h c r ⟨i, armed, -⟩
    obtain ⟨cb, set⟩ := ne_none_iff_exists'.mp armed
    have linked := (ok.held.armed i cb set).resolve_right (by simp)
    rw [buckets] at linked
    cases linked
  have clocked : w.Clocked := by
    refine ⟨ok, accounts.capacity.1, accounts.capacity.2, gens, accounts.size, fun slot i member => ?_, ?_⟩
    · rw [buckets] at member
      cases member
    · rw [buckets]
  unfold create at created
  split at created
  · cases created
  · obtain ⟨freeList, -, done⟩ := bind_eq_some_iff.mp created
    cases done
    exact ⟨clocked, rfl, rfl, none⟩

section Schedule

variable {idx delay : Nat} {freeList : IndexFreeStack}

theorem schedule_eq (popped : w.freeList.pop = some (idx, freeList)) (positive : 0 < delay)
    (inside : delay < w.wheelSize)
    (cb : Cb) (ctx : Nat) : w.schedule cb ctx delay = some (w.handleOf idx, w.arm freeList idx cb ctx delay) := by
  unfold schedule
  rw [if_neg (by omega), popped]
  rfl

theorem Clocked.slot_ne (clocked : w.Clocked) (positive : 0 < delay) (inside : delay < w.wheelSize) :
    (w.currentTick + delay) % 2 ^ 64 % w.wheelSize ≠ w.currentTick % w.wheelSize := by
  rw [Nat.mod_mod_of_dvd _ clocked.size]
  exact (RingIndex.position_ne (by omega) (by omega)).symm

theorem arm_node (cb : Cb) (ctx : Nat) : (w.arm freeList idx cb ctx delay).nodes idx =
    { w.nodes idx with cb := some cb, ctx, slot := (w.currentTick + delay) % 2 ^ 64 % w.wheelSize } := by
  simp only [arm, pushFront, update_self]

theorem arm_node_ne {j : Nat} (other : j ≠ idx) (cb : Cb) (ctx : Nat) : (w.arm freeList idx cb ctx delay).nodes j =
    w.nodes j := by
  simp only [arm, pushFront, update_of_ne other]

section

variable (clocked : w.Clocked) (popped : w.freeList.pop = some (idx, freeList))
include clocked popped

theorem Clocked.arm (positive : 0 < delay)
    (inside : delay < w.wheelSize) (cb : Cb) (ctx : Nat) : (w.arm freeList idx cb ctx delay).Clocked := by
  obtain ⟨-, unused, capacity, -⟩ := clocked.ok.held.tracks.pop popped
  refine ⟨⟨clocked.ok.held.arm popped cb ctx delay, clocked.ok.idle⟩, capacity.trans clocked.capacity, clocked.word,
    fun j => ?_, clocked.size, fun slot j member => ?_, ?_⟩
  · by_cases same : j = idx
    · subst same
      rw [arm_node]
      exact clocked.gens j
    · rw [arm_node_ne same]
      exact clocked.gens j
  · rcases mem_arm_buckets.mp member with old | ⟨-, rfl⟩
    · have other : j ≠ idx := fun same => unused (.inl (same ▸ ⟨slot, old⟩))
      rw [arm_node_ne other]
      exact clocked.armed slot j old
    · rw [arm_node]
      simp
  · refine eq_nil_iff_forall_not_mem.mpr fun j member => ?_
    rcases mem_arm_buckets.mp member with old | ⟨current, -⟩
    · have empty : w.buckets (w.currentTick % w.wheelSize) = [] := clocked.ahead
      have old : j ∈ w.buckets (w.currentTick % w.wheelSize) := old
      rw [empty] at old
      cases old
    · exact clocked.slot_ne positive inside current.symm

/-- The new alarm is due after the delay, and its handle is not that of another alarm. -/
theorem Clocked.arm_alarm (inside : delay < w.wheelSize)
    (cb : Cb) (ctx : Nat) (h c r : Nat) :
    (w.arm freeList idx cb ctx delay).Alarm h c r ↔ w.Alarm h c r ∨ (h = w.handleOf idx ∧ c = ctx ∧ r = delay) := by
  obtain ⟨-, unused, -, -⟩ := clocked.ok.held.tracks.pop popped
  have others : ∀ j, j ≠ idx → ((w.arm freeList idx cb ctx delay).AlarmAt j h c r ↔ w.AlarmAt j h c r) :=
    fun j other => AlarmAt.frame (arm_node_ne other cb ctx) rfl rfl
  have mine : (w.arm freeList idx cb ctx delay).AlarmAt idx h c r ↔ h = w.handleOf idx ∧ c = ctx ∧ r = delay := by
    have handle : (w.arm freeList idx cb ctx delay).handleOf idx = w.handleOf idx := by
      rw [handleOf, arm_node, handleOf]
    have ticks : (w.arm freeList idx cb ctx delay).remaining idx = delay := by
      rw [remaining, arm_node]
      show wrapSub w.wheelSize ((w.currentTick + delay) % 2 ^ 64 % w.wheelSize) (w.currentTick % w.wheelSize) = delay
      rw [Nat.mod_mod_of_dvd _ clocked.size, RingIndex.wrapSub_counters (by omega) (by omega)]
      omega
    have about : ((w.arm freeList idx cb ctx delay).nodes idx).ctx = ctx := by rw [arm_node]
    constructor
    · rintro ⟨-, rfl, rfl, rfl⟩
      exact ⟨handle, about, ticks⟩
    · rintro ⟨rfl, rfl, rfl⟩
      exact ⟨by rw [arm_node]; simp, handle, about, ticks⟩
  constructor
  · rintro ⟨j, at_⟩
    by_cases same : j = idx
    · exact .inr (mine.mp (same ▸ at_))
    · exact .inl ⟨j, (others j same).mp at_⟩
  · rintro (⟨j, at_⟩ | new)
    · refine ⟨j, (others j fun same => unused (.inl (same ▸ ⟨_, clocked.linked at_.armed⟩))).mpr at_⟩
    · exact ⟨idx, mine.mpr new⟩

theorem Clocked.handle_fresh {c r : Nat} : ¬ w.Alarm (w.handleOf idx) c r := by
  obtain ⟨bound, unused, -, -⟩ := clocked.ok.held.tracks.pop popped
  rintro ⟨j, at_⟩
  have node := at_.node_eq clocked
  rw [unpack_handleOf (Nat.lt_trans (clocked.capacity ▸ bound) clocked.word)] at node
  have same : idx = j := node
  exact unused (.inl (same ▸ ⟨_, clocked.linked at_.armed⟩))

end

end Schedule

theorem freeNode_clock (freed : w.freeNode i = some w') : w'.currentTick = w.currentTick := by
  obtain ⟨freeList, -, rfl⟩ := freeNode_cases freed
  rfl

theorem cancel_removes (idle : w.inTickWalk = false) (named : w.Names h) {found : Bool}
    (cancelled : w.cancel h = some (found, w')) :
    ∃ w₁ activeCount, (w.unlink (unpackHandle h).1).freeNode (unpackHandle h).1 = some w₁ ∧
    w' = { w₁ with activeCount } := by
  rw [cancel_of_names named, if_neg (by simp [idle])] at cancelled
  obtain ⟨w₁, freed, made⟩ := map_eq_some_iff.mp cancelled
  exact ⟨w₁, _, freed, (Prod.mk.inj made).2.symm⟩

theorem Clocked.remove (clocked : w.Clocked) {w₁ : TimingWheel Cb} {activeCount : Nat}
    (freed : (w.unlink i).freeNode i = some w₁) (ok : ({ w₁ with activeCount } : TimingWheel Cb).Ok) :
    ({ w₁ with activeCount } : TimingWheel Cb).Clocked ∧ w.SameSize { w₁ with activeCount } ∧
      ∀ j h c r, ({ w₁ with activeCount } : TimingWheel Cb).AlarmAt j h c r ↔ w.AlarmAt j h c r ∧ j ≠ i := by
  obtain ⟨frees, buckets, unarmed, others⟩ := freeNode_frees freed
  have clock : w₁.currentTick = w.currentTick := (freeNode_clock freed).trans rfl
  have others : ∀ j, j ≠ i → w₁.nodes j = w.nodes j := others
  have members : ∀ slot j, j ∈ w₁.buckets slot ↔ j ∈ w.buckets slot ∧ j ≠ i := by
    rw [buckets]
    exact clocked.ok.held.mem_unlink i
  refine ⟨⟨ok, ?_, ?_, frees.gens clocked.gens, ?_, fun slot j member => ?_, ?_⟩, { frees with }, ?_⟩
  · exact frees.capacity.trans (clocked.capacity.trans frees.maxTimers.symm)
  · exact frees.maxTimers ▸ clocked.word
  · exact frees.wheelSize ▸ clocked.size
  · obtain ⟨old, other⟩ := (members slot j).mp member
    have still := others j other
    dsimp only
    rw [still]
    exact clocked.armed slot j old
  · refine eq_nil_iff_forall_not_mem.mpr fun j member => ?_
    have old := ((members _ j).mp member).1
    dsimp only at old
    rw [clock, frees.wheelSize, show (w.unlink i).wheelSize = w.wheelSize from rfl, clocked.ahead] at old
    cases old
  · intro j h c r
    by_cases other : j = i
    · subst other
      exact iff_of_false (fun alarm => alarm.armed unarmed) fun both => both.2 rfl
    · have frame : ({ w₁ with activeCount } : TimingWheel Cb).AlarmAt j h c r ↔ w.AlarmAt j h c r :=
        AlarmAt.frame (others j other) clock frees.wheelSize
      rw [frame]
      exact ⟨fun before => ⟨before, other⟩, And.left⟩

theorem Clocked.cancel (clocked : w.Clocked) {found : Bool} (cancelled : w.cancel h = some (found, w')) :
    w'.Clocked ∧ w.SameSize w' ∧ ∀ h' c r, w'.Alarm h' c r ↔ w.Alarm h' c r ∧ h' ≠ h := by
  by_cases named : w.Names h
  · obtain ⟨_, _, cancelled', ok⟩ := clocked.ok.cancel h
    obtain ⟨-, rfl⟩ := Prod.mk.inj (mem_unique cancelled' cancelled)
    obtain ⟨_, _, i, alarm⟩ := clocked.names_iff.mp named
    have node := alarm.node_eq clocked
    obtain ⟨w₁, activeCount, freed, rfl⟩ := cancel_removes clocked.ok.idle named cancelled
    rw [node] at freed
    obtain ⟨clocked', size, alarms⟩ := clocked.remove freed ok
    refine ⟨clocked', size, fun h' c r => ⟨?_, ?_⟩⟩
    · rintro ⟨j, after⟩
      obtain ⟨before, other⟩ := (alarms j h' c r).mp after
      refine ⟨⟨j, before⟩, ?_⟩
      rintro rfl
      exact other ((before.node_eq clocked).symm.trans node)
    · rintro ⟨⟨j, before⟩, different⟩
      refine ⟨j, (alarms j h' c r).mpr ⟨before, ?_⟩⟩
      rintro rfl
      exact different (before.handle.symm.trans alarm.handle)
  · rw [cancel_of_not_names named] at cancelled
    cases cancelled
    refine ⟨clocked, ⟨rfl, rfl⟩, fun h' c r => ⟨fun alarm => ⟨alarm, ?_⟩, And.left⟩⟩
    rintro rfl
    exact named (clocked.names_iff.mpr ⟨c, r, alarm⟩)

theorem Clocked.reset (clocked : w.Clocked) (cleared : w.reset = some w') :
    w'.Clocked ∧ w.SameSize w' ∧ ∀ h c r, ¬ w'.Alarm h c r := by
  obtain ⟨_, cleared', ok⟩ := clocked.ok.reset
  obtain rfl := mem_unique cleared' cleared
  obtain ⟨w₁, slots, made⟩ := bind_eq_some_iff.mp cleared
  cases made
  obtain ⟨frees, emptied, stays⟩ := resetSlots_frees slots
  have empty : ∀ slot, w₁.buckets slot = [] := by
    intro slot
    by_cases inside : slot < w.wheelSize
    · exact emptied slot (mem_range.mpr inside)
    · refine stays slot (eq_nil_iff_forall_not_mem.mpr fun i member => inside ?_)
      exact (clocked.ok.held.home slot i member).1
  refine ⟨⟨ok, ?_, ?_, frees.gens clocked.gens, ?_, fun slot i member => ?_, empty _⟩, { frees with }, ?_⟩
  · exact frees.capacity.trans (clocked.capacity.trans frees.maxTimers.symm)
  · exact frees.maxTimers ▸ clocked.word
  · exact frees.wheelSize ▸ clocked.size
  · have member : i ∈ w₁.buckets slot := member
    rw [empty slot] at member
    cases member
  · rintro h c r ⟨i, armed, -⟩
    obtain ⟨cb, set⟩ := ne_none_iff_exists'.mp armed
    have linked : i ∈ w₁.buckets (w₁.nodes i).slot := (ok.held.armed i cb set).resolve_right (by simp)
    rw [empty] at linked
    cases linked

/-! ### Ticks -/

def recording (note : σ → Nat → Exec σ) (_cb : Cb) (ctx : Nat) : TimingWheel Cb × σ → Exec (TimingWheel Cb × σ)
  | (w, s) => (note s ctx).map fun s => (w, s)

theorem freeChain_nodes {chain : List Nat} (freed : freeChain chain w = some w') :
    w'.currentTick = w.currentTick ∧ (∀ j, j ∉ chain → w'.nodes j = w.nodes j) ∧ ∀ j, j ∈ chain →
    (w'.nodes j).cb = none := by
  induction chain generalizing w with
  | nil =>
    cases freed
    exact ⟨rfl, fun _ _ => rfl, nofun⟩
  | cons idx rest ih =>
    obtain ⟨w₁, first, freed⟩ := bind_eq_some_iff.mp freed
    obtain ⟨-, -, unarmed, others⟩ := freeNode_frees first
    obtain ⟨clock, same, none⟩ := ih freed
    refine ⟨clock.trans (freeNode_clock first), fun j outside => ?_, fun j member => ?_⟩
    · rw [mem_cons, not_or] at outside
      exact (same j outside.2).trans (others j outside.1)
    · by_cases later : j ∈ rest
      · exact none j later
      · obtain rfl := (mem_cons.mp member).resolve_right later
        rw [same j later]
        exact unarmed

/-- The walk over a chain of armed nodes frees it and calls each callback once, in the order of the chain. -/
theorem walk_recording (note : σ → Nat → Exec σ) {chain : List Nat} (nodup : chain.Nodup)
    (armed : ∀ i ∈ chain, (w.nodes i).cb ≠ none) (freed : freeChain chain w = some w') (fired : Nat) (s : σ) :
    walk (recording note) chain fired (w, s) =
      ((chain.map fun i => (w.nodes i).ctx).foldlM note s).map fun s' => (fired + chain.length, w', s') := by
  induction chain generalizing w fired s with
  | nil =>
    cases freed
    rfl
  | cons cur rest ih =>
    obtain ⟨once, nodup⟩ := nodup_cons.mp nodup
    obtain ⟨cb, set⟩ := ne_none_iff_exists'.mp (armed cur mem_cons_self)
    obtain ⟨w₁, first, freed⟩ := bind_eq_some_iff.mp freed
    obtain ⟨-, -, -, others⟩ := freeNode_frees first
    have nodes : ∀ i ∈ rest, w₁.nodes i = w.nodes i := fun i member => others i fun same => once (same ▸ member)
    have later := fun s => ih nodup (fun i member => nodes i member ▸ armed i (mem_cons_of_mem _ member)) freed
      (fired + 1) s
    have contexts : (rest.map fun i => (w₁.nodes i).ctx) = rest.map fun i => (w.nodes i).ctx :=
      map_congr_left fun i member => by rw [nodes i member]
    unfold walk
    simp only [set, recording, map_cons, foldlM_cons, bind_eq_bind]
    cases note s (w.nodes cur).ctx with
    | none => rfl
    | some s₁ =>
      have gen : ((w.disarm cur).nodes cur).gen = (w.nodes cur).gen := by simp only [disarm, update_self]
      simp only [map_some, bind_some, gen, if_true, TimerRun.disarm_freeNode, first, later, contexts,
        length_cons, Nat.add_right_comm fired 1, Nat.add_assoc]

def dueNodes (w : TimingWheel Cb) : List Nat := w.buckets ((w.currentTick + 1) % w.wheelSize)

def beginTick (w : TimingWheel Cb) : TimingWheel Cb :=
  { w with
    currentTick := (w.currentTick + 1) % 2 ^ 64
    buckets := update w.buckets ((w.currentTick + 1) % w.wheelSize) []
    inTickWalk := true }

structure Ticked (w : TimingWheel Cb) (n : Nat) (w' : TimingWheel Cb) : Prop where
  clocked : w'.Clocked
  size : w.SameSize w'
  alarm : ∀ h c r, w'.Alarm h c r ↔ w.Alarm h c (r + n) ∧ 0 < r

/-- The alarms that are due within `n` ticks: the handle and the context of each. -/
structure Rings (w : TimingWheel Cb) (n : Nat) (rings : List (Nat × Nat)) : Prop where
  nodup : (rings.map Prod.fst).Nodup
  mem : ∀ h c, (h, c) ∈ rings ↔ ∃ r ≤ n, w.Alarm h c r

section

variable (clocked : w.Clocked)
include clocked

theorem Clocked.mem_dueNodes (armed : (w.nodes i).cb ≠ none) : i ∈ w.dueNodes ↔ w.remaining i = 1 := by
  have member := clocked.linked armed
  have bound := (clocked.ok.held.home _ _ member).1
  have positive := clocked.ok.held.positive
  have ahead : (w.nodes i).slot ≠ w.currentTick % w.wheelSize := by
    intro current
    rw [current, clocked.ahead] at member
    cases member
  have step := wrapSub_succ bound ahead
  have zero := wrapSub_eq_zero bound (Nat.mod_lt (w.currentTick + 1) positive)
  have here : i ∈ w.dueNodes ↔ (w.nodes i).slot = (w.currentTick + 1) % w.wheelSize := by
    constructor
    · exact fun due => (clocked.ok.held.home _ _ due).2
    · intro same
      rw [dueNodes, ← same]
      exact member
  rw [here, ← zero, remaining]
  omega

theorem Clocked.ticked {w₁ : TimingWheel Cb} {activeCount : Nat}
    (freed : freeChain w.dueNodes w.beginTick = some w₁) (held : w₁.Held []) :
    Ticked w 1 { w₁ with inTickWalk := false, activeCount } := by
  have frees := freeChain_frees freed
  have buckets : w₁.buckets = update w.buckets ((w.currentTick + 1) % w.wheelSize) [] := freeChain_frame freed
  obtain ⟨clock, same, unarmed⟩ := freeChain_nodes freed
  have same : ∀ j, j ∉ w.dueNodes → w₁.nodes j = w.nodes j := same
  have clock : w₁.currentTick % w.wheelSize = (w.currentTick + 1) % w.wheelSize := by
    rw [clock]
    exact Nat.mod_mod_of_dvd _ clocked.size
  have size : w₁.wheelSize = w.wheelSize := frees.wheelSize
  have timers : w₁.maxTimers = w.maxTimers := frees.maxTimers
  have capacity : w₁.freeList.capacity = w.freeList.capacity := frees.capacity
  refine ⟨⟨⟨held.congr rfl rfl rfl rfl, rfl⟩, ?_, ?_, frees.gens clocked.gens, ?_, fun slot j member => ?_, ?_⟩,
    ⟨size, timers⟩, ?_⟩
  · exact capacity.trans (clocked.capacity.trans timers.symm)
  · exact timers ▸ clocked.word
  · exact size ▸ clocked.size
  · have member : j ∈ w₁.buckets slot := member
    rw [buckets] at member
    by_cases here : slot = (w.currentTick + 1) % w.wheelSize
    · rw [here, update_self] at member
      cases member
    · rw [update_of_ne here] at member
      have later : j ∉ w.dueNodes := fun due =>
        here ((clocked.ok.held.home slot j member).2.symm.trans (clocked.ok.held.home _ j due).2)
      show (w₁.nodes j).cb ≠ _
      rw [same j later]
      exact clocked.armed slot j member
  · show w₁.buckets (w₁.currentTick % w₁.wheelSize) = []
    rw [size, clock, buckets, update_self]
  · intro h c r
    have step : ∀ j, (w.nodes j).cb ≠ none → w₁.nodes j = w.nodes j →
        wrapSub w₁.wheelSize (w₁.nodes j).slot (w₁.currentTick % w₁.wheelSize) + 1 = w.remaining j := by
      intro j armed node
      have member := clocked.linked armed
      have ahead : (w.nodes j).slot ≠ w.currentTick % w.wheelSize := by
        intro current
        rw [current, clocked.ahead] at member
        cases member
      rw [size, clock, node]
      exact wrapSub_succ (clocked.ok.held.home _ _ member).1 ahead
    constructor
    · rintro ⟨j, armed, handle, about, ticks⟩
      have later : j ∉ w.dueNodes := fun due => armed (unarmed j due)
      have node := same j later
      have armed : (w.nodes j).cb ≠ none := node ▸ armed
      have one := step j armed node
      have ticks : wrapSub w₁.wheelSize (w₁.nodes j).slot (w₁.currentTick % w₁.wheelSize) = r := ticks
      rw [ticks] at one
      refine ⟨⟨j, armed, ?_, ?_, one.symm⟩, ?_⟩
      · rw [← handle, handleOf, handleOf, ← node]
      · rw [← about, ← node]
      · rw [clocked.mem_dueNodes armed] at later
        omega
    · rintro ⟨⟨j, armed, handle, about, ticks⟩, positive⟩
      have later : j ∉ w.dueNodes := by
        rw [clocked.mem_dueNodes armed]
        omega
      have node := same j later
      have one := step j armed node
      refine ⟨j, ?_, ?_, ?_, ?_⟩
      · show (w₁.nodes j).cb ≠ _
        rwa [node]
      · show packHandle j (w₁.nodes j).gen = h
        rw [node]
        exact handle
      · show (w₁.nodes j).ctx = c
        rwa [node]
      · show wrapSub w₁.wheelSize (w₁.nodes j).slot (w₁.currentTick % w₁.wheelSize) = r
        omega

/-- One tick: each alarm that is due is told of once, the others come one tick nearer. -/
theorem Clocked.tick :
    ∃ w' : TimingWheel Cb, Ticked w 1 w' ∧ ∀ {σ : Type} (note : σ → Nat → Exec σ)
    (s : σ), tick (recording note) (w, s) =
      ((w.dueNodes.map fun i => (w.nodes i).ctx).foldlM note s).map fun s' => (w', s') := by
  have slot : (w.currentTick + 1) % 2 ^ 64 % w.wheelSize = (w.currentTick + 1) % w.wheelSize :=
    Nat.mod_mod_of_dvd _ clocked.size
  have detached := clocked.ok.held.detach ((w.currentTick + 1) % w.wheelSize)
  have begun : w.beginTick.Held w.dueNodes := detached.congr rfl rfl rfl rfl
  obtain ⟨w₁, freed, held, -⟩ := begun.freeChain
  refine ⟨{ w₁ with
    inTickWalk := false, activeCount := (w₁.activeCount + 2 ^ 32 - (0 + w.dueNodes.length) % 2 ^ 32) % 2 ^ 32 },
    clocked.ticked freed held, fun note s => ?_⟩
  have armed : ∀ i ∈ w.dueNodes, (w.beginTick.nodes i).cb ≠ none := fun i member => clocked.armed _ i member
  have walked : walk (recording note) w.dueNodes 0 (w.beginTick, s) =
      ((w.dueNodes.map fun i => (w.nodes i).ctx).foldlM note s).map fun s' => (0 + w.dueNodes.length, w₁, s') :=
    walk_recording note (clocked.ok.held.distinct _) armed freed 0 s
  unfold TimingWheel.tick
  simp only [slot]
  show (walk (recording note) w.dueNodes 0 (w.beginTick, s)).bind _ = _
  rw [walked]
  cases (w.dueNodes.map fun i => (w.nodes i).ctx).foldlM note s <;> rfl

theorem Clocked.rings_one : Rings w 1 (w.dueNodes.map fun i => (w.handleOf i, (w.nodes i).ctx)) := by
  refine ⟨?_, fun h c => ?_⟩
  · rw [List.map_map]
    refine (nodup_map_iff_inj_on (clocked.ok.held.distinct _)).mpr fun i inI j inJ same => ?_
    have unpacked := congrArg (fun h => (unpackHandle h).1) same
    simpa only [comp_apply, clocked.unpack (clocked.armed _ _ inI), clocked.unpack (clocked.armed _ _ inJ)]
      using unpacked
  · simp only [List.mem_map, Prod.mk.injEq]
    constructor
    · rintro ⟨i, due, handle, about⟩
      have armed := clocked.armed _ i due
      exact ⟨1, Nat.le_refl 1, i, armed, handle, about, (clocked.mem_dueNodes armed).mp due⟩
    · rintro ⟨r, most, i, alarm⟩
      have least := (Alarm.bounds clocked ⟨i, alarm⟩).1
      have one : w.remaining i = 1 := by
        rw [alarm.left]
        omega
      exact ⟨i, (clocked.mem_dueNodes alarm.armed).mpr one, alarm.handle, alarm.ctx⟩

/-- The alarms of one tick and of the `n` ticks after it are the alarms of `n + 1` ticks. -/
theorem Rings.append {n : Nat} {first rest : List (Nat × Nat)} (ticked : Ticked w 1 w') (one : Rings w 1 first)
    (more : Rings w' n rest) : Rings w (n + 1) (first ++ rest) := by
  refine ⟨?_, fun h c => ?_⟩
  · rw [map_append, nodup_append]
    refine ⟨one.nodup, more.nodup, ?_⟩
    rintro h now _ later rfl
    obtain ⟨⟨_, c⟩, member, rfl⟩ := List.mem_map.mp now
    obtain ⟨⟨_, c'⟩, member', same⟩ := List.mem_map.mp later
    obtain rfl : _ = _ := same
    obtain ⟨r, most, alarm⟩ := (one.mem _ _).mp member
    obtain ⟨r', -, alarm'⟩ := (more.mem _ _).mp member'
    obtain ⟨before, positive⟩ := (ticked.alarm _ _ _).mp alarm'
    have ticks := (Alarm.unique clocked alarm before).2
    omega
  · rw [mem_append, one.mem, more.mem]
    constructor
    · rintro (⟨r, most, alarm⟩ | ⟨r, most, alarm⟩)
      · exact ⟨r, by omega, alarm⟩
      · exact ⟨r + 1, by omega, ((ticked.alarm _ _ _).mp alarm).1⟩
    · rintro ⟨r, most, alarm⟩
      have least := (Alarm.bounds clocked alarm).1
      by_cases now : r = 1
      · exact .inl ⟨1, Nat.le_refl 1, now ▸ alarm⟩
      · refine .inr ⟨r - 1, by omega, (ticked.alarm _ _ _).mpr ⟨?_, by omega⟩⟩
        rwa [Nat.sub_add_cancel least]

end

/-- A number of ticks tells of each alarm that is due within it, once, and leaves the others with that much less. -/
theorem Clocked.tickMany (clocked : w.Clocked) (n : Nat) :
    ∃ (w' : TimingWheel Cb) (rings : List (Nat × Nat)), Ticked w n w' ∧ Rings w n rings ∧
      ∀ {σ : Type} (note : σ → Nat → Exec σ) (s : σ), tickMany (recording note) n (w, s) =
        ((rings.map Prod.snd).foldlM note s).map fun s' => (w', s') := by
  induction n generalizing w with
  | zero =>
    refine ⟨w, [], ⟨clocked, ⟨rfl, rfl⟩, fun h c r => ?_⟩, ⟨nodup_nil, fun h c => ?_⟩, fun note s => rfl⟩
    · exact ⟨fun alarm => ⟨alarm, (Alarm.bounds clocked alarm).1⟩, And.left⟩
    · refine iff_of_false not_mem_nil ?_
      rintro ⟨r, most, alarm⟩
      have least := (Alarm.bounds clocked alarm).1
      omega
  | succ n ih =>
    obtain ⟨w₁, ticked, first⟩ := clocked.tick
    obtain ⟨w', rest, ticked', rings, ran⟩ := ih ticked.clocked
    refine ⟨w', _, ⟨ticked'.clocked, ticked.size.trans ticked'.size, fun h c r => ?_⟩,
      Rings.append clocked ticked clocked.rings_one rings, fun note s => ?_⟩
    · rw [ticked'.alarm, ticked.alarm, Nat.add_assoc]
      exact ⟨fun ⟨⟨alarm, _⟩, positive⟩ => ⟨alarm, positive⟩, fun ⟨alarm, positive⟩ => ⟨⟨alarm, by omega⟩, positive⟩⟩
    · rw [TimingWheel.tickMany, first, map_append, foldlM_append, List.map_map]
      show Option.bind _ _ = _
      rw [bind_map, bind_eq_bind, Option.map_bind]
      exact congrArg _ (funext fun s₁ => ran note s₁)

end TickToTrade.Ds.TimingWheel
