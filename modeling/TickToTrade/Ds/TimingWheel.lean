import TickToTrade.Ds.IndexFreeStack

/-!
The timing wheel of `ds/timing_wheel.hpp`. A bucket's chain of nodes is the list of their indices from
the head; a callback `Cb` is run by the caller of `tick`.
-/

namespace TickToTrade.Ds
open List Option Function

variable {ctx delay : Nat} {freeList : IndexFreeStack} {idx : Nat} {chain : List Nat}

structure TimerNode (Cb : Type) where
  cb : Option Cb := none
  ctx : Nat := 0
  gen : Nat := 1
  slot : Nat := 0

structure TimingWheel (Cb : Type) where
  wheelSize : Nat
  maxTimers : Nat
  buckets : Nat → List Nat := fun _ => []
  nodes : Nat → TimerNode Cb := fun _ => {}
  freeList : IndexFreeStack
  currentTick : Nat := 0
  activeCount : Nat := 0
  inTickWalk : Bool := false

namespace TimingWheel

variable {Cb σ : Type}

def kInvalidHandle : Nat := 0

def isValidWheelSize (ws : Nat) : Bool := 2 ≤ ws && ws ≤ 2 ^ 32 - 1 && isPowerOfTwo ws

def isValidMaxTimers (mt : Nat) : Bool := 1 ≤ mt && mt ≤ 2 ^ 32 - 1 && isPowerOfTwo mt

def packHandle (idx gen : Nat) : Nat := gen * 2 ^ 32 + idx

def unpackHandle (h : Nat) : Nat × Nat := (h % 2 ^ 32, h / 2 ^ 32)

def create (ws mt : Nat) : Exec (TimingWheel Cb) := do
  if !isValidWheelSize ws || !isValidMaxTimers mt then none
  else
    let freeList ← IndexFreeStack.create mt
    return { wheelSize := ws, maxTimers := mt, freeList }

def pushFront (w : TimingWheel Cb) (slot idx : Nat) : TimingWheel Cb :=
  { w with buckets := update w.buckets slot (idx :: w.buckets slot) }

def unlink (w : TimingWheel Cb) (idx : Nat) : TimingWheel Cb :=
  let slot := (w.nodes idx).slot
  { w with buckets := update w.buckets slot ((w.buckets slot).erase idx) }

def disarm (w : TimingWheel Cb) (idx : Nat) : TimingWheel Cb :=
  { w with nodes := update w.nodes idx { w.nodes idx with cb := none, ctx := 0 } }

/-- Generation 0 is skipped, so that no handle is `kInvalidHandle`. -/
def freeNode (w : TimingWheel Cb) (idx : Nat) : Exec (TimingWheel Cb) := do
  let gen := ((w.nodes idx).gen + 1) % 2 ^ 32
  let node := { w.nodes idx with gen := if gen = 0 then 1 else gen, cb := none, ctx := 0 }
  let freeList ← w.freeList.push idx
  return { w with nodes := update w.nodes idx node, freeList }

def schedule (w : TimingWheel Cb) (cb : Cb) (ctx delay : Nat) : Exec (Nat × TimingWheel Cb) :=
  if delay = 0 ∨ w.wheelSize ≤ delay then none
  else
    match w.freeList.pop with
    | none => some (kInvalidHandle, w)
    | some (idx, freeList) =>
      let slot := (w.currentTick + delay) % 2 ^ 64 % w.wheelSize
      let node := { w.nodes idx with cb := some cb, ctx, slot }
      let w := { w with freeList, nodes := update w.nodes idx node }
      some (packHandle idx node.gen, { w.pushFront slot idx with activeCount := (w.activeCount + 1) % 2 ^ 32 })

def cancel (w : TimingWheel Cb) (h : Nat) : Exec (Bool × TimingWheel Cb) := do
  if h = kInvalidHandle then return (false, w)
  let (idx, gen) := unpackHandle h
  if w.maxTimers ≤ idx then return (false, w)
  if (w.nodes idx).gen ≠ gen then return (false, w)
  if (w.nodes idx).cb.isNone then return (false, w)
  let activeCount := (w.activeCount + 2 ^ 32 - 1) % 2 ^ 32
  -- A node is not unlinked while `tick` walks a chain.
  if w.inTickWalk then return (true, { w.disarm idx with activeCount })
  let w ← (w.unlink idx).freeNode idx
  return (true, { w with activeCount })

/-- The walk of `tick` over a detached chain; it counts the timers that fired. -/
def walk (fire : Cb → Nat → TimingWheel Cb × σ → Exec (TimingWheel Cb × σ)) :
    List Nat → (fired : Nat) → TimingWheel Cb × σ → Exec (Nat × TimingWheel Cb × σ)
  | [], fired, (w, s) => some (fired, w, s)
  | cur :: rest, fired, (w, s) => do
    match (w.nodes cur).cb with
    | none =>
      let w ← w.freeNode cur
      walk fire rest fired (w, s)
    | some cb =>
      let savedGen := (w.nodes cur).gen
      let (w, s) ← fire cb (w.nodes cur).ctx (w.disarm cur, s)
      let w ← if (w.nodes cur).gen = savedGen then w.freeNode cur else pure w
      walk fire rest (fired + 1) (w, s)

def tick (fire : Cb → Nat → TimingWheel Cb × σ → Exec (TimingWheel Cb × σ)) :
    TimingWheel Cb × σ → Exec (TimingWheel Cb × σ)
  | (w, s) => do
    let currentTick := (w.currentTick + 1) % 2 ^ 64
    let slot := currentTick % w.wheelSize
    let chain := w.buckets slot
    let w := { w with currentTick, buckets := update w.buckets slot [], inTickWalk := true }
    let (fired, w, s) ← walk fire chain 0 (w, s)
    return ({ w with inTickWalk := false, activeCount := (w.activeCount + 2 ^ 32 - fired % 2 ^ 32) % 2 ^ 32 }, s)

def tickMany (fire : Cb → Nat → TimingWheel Cb × σ → Exec (TimingWheel Cb × σ)) :
    Nat → TimingWheel Cb × σ → Exec (TimingWheel Cb × σ)
  | 0, s => some s
  | n + 1, s => do
    let s ← tick fire s
    tickMany fire n s

def freeChain : List Nat → TimingWheel Cb → Exec (TimingWheel Cb)
  | [], w => some w
  | idx :: rest, w => do
    let w ← w.freeNode idx
    freeChain rest w

def resetSlots : List Nat → TimingWheel Cb → Exec (TimingWheel Cb)
  | [], w => some w
  | slot :: rest, w => do
    let w ← freeChain (w.buckets slot) w
    resetSlots rest { w with buckets := update w.buckets slot [] }

def reset (w : TimingWheel Cb) : Exec (TimingWheel Cb) := do
  let w ← resetSlots (range w.wheelSize) w
  return { w with activeCount := 0, currentTick := 0 }

/-! ### The nodes in use -/

def Linked (w : TimingWheel Cb) (i : Nat) : Prop := ∃ slot, i ∈ w.buckets slot

/-- Every node is in one bucket, in the detached chain `pending` or in the free list. -/
structure Held (w : TimingWheel Cb) (pending : List Nat) : Prop where
  positive : 0 < w.wheelSize
  tracks : w.freeList.Tracks fun i => w.Linked i ∨ i ∈ pending
  home : ∀ slot i, i ∈ w.buckets slot → slot < w.wheelSize ∧ (w.nodes i).slot = slot
  distinct : ∀ slot, (w.buckets slot).Nodup
  armed : ∀ i cb, (w.nodes i).cb = some cb → i ∈ w.buckets (w.nodes i).slot ∨ i ∈ pending
  pendingDistinct : pending.Nodup
  apart : ∀ i ∈ pending, ¬ w.Linked i

structure Ok (w : TimingWheel Cb) : Prop where
  held : w.Held []
  idle : w.inTickWalk = false

variable {w w' : TimingWheel Cb} {pending : List Nat} {i : Nat}

theorem Held.congr (held : w.Held pending) (size : w'.wheelSize = w.wheelSize) (free : w'.freeList = w.freeList)
    (buckets : w'.buckets = w.buckets) (nodes : w'.nodes = w.nodes) : w'.Held pending := by
  have linked : ∀ i, w'.Linked i ↔ w.Linked i := fun i => by rw [Linked, Linked, buckets]
  obtain ⟨positive, tracks, home, distinct, armed, pendingDistinct, apart⟩ := held
  refine ⟨size ▸ positive, ?_, ?_, ?_, ?_, pendingDistinct, fun i member => (linked i).not.mpr (apart i member)⟩
  · rw [free]
    exact tracks.congr fun i => by rw [linked]
  · rw [buckets, nodes, size]
    exact home
  · rw [buckets]
    exact distinct
  · rw [buckets, nodes]
    exact armed

theorem create_ok {ws mt : Nat} (created : create ws mt = some w) : w.Ok := by
  unfold create at created
  split at created
  · cases created
  · rename_i valid
    obtain ⟨freeList, pool, done⟩ := bind_eq_some_iff.mp created
    cases done
    simp only [isValidWheelSize, Bool.or_eq_true, Bool.not_eq_true', not_or, Bool.not_eq_false, Bool.and_eq_true,
      decide_eq_true_eq] at valid
    refine ⟨⟨by dsimp only; omega, ?_, ?_, ?_, ?_, nodup_nil, ?_⟩, rfl⟩
    · exact (IndexFreeStack.create_tracks pool).1.congr fun i => by simp [Linked]
    · intro slot i member
      cases member
    · intro slot
      exact nodup_nil
    · intro i cb armed
      cases armed
    · intro i member
      cases member

theorem disarm_held (held : w.Held pending) (i : Nat) : (w.disarm i).Held pending := by
  obtain ⟨positive, tracks, home, distinct, armed, pendingDistinct, apart⟩ := held
  have slots : ∀ j, ((w.disarm i).nodes j).slot = (w.nodes j).slot := by
    intro j
    by_cases same : j = i
    · subst same
      simp [disarm]
    · simp [disarm, same]
  refine ⟨positive, tracks, fun slot j member => ?_, distinct, fun j cb set => ?_, pendingDistinct, apart⟩
  · rw [slots]
    exact home slot j member
  · rw [slots]
    by_cases same : j = i
    · subst same
      simp [disarm] at set
    · simp only [disarm, update_of_ne same] at set
      exact armed j cb set

theorem Held.freeNode (held : w.Held (i :: pending)) :
    ∃ w', w.freeNode i = some w' ∧ w'.Held pending ∧ w'.inTickWalk = w.inTickWalk := by
  obtain ⟨positive, tracks, home, distinct, armed, pendingDistinct, apart⟩ := held
  obtain ⟨unique, pendingDistinct⟩ := nodup_cons.mp pendingDistinct
  have detached := apart i mem_cons_self
  obtain ⟨freeList, pushed, _, tracks'⟩ := tracks.push (.inr mem_cons_self)
  unfold TimingWheel.freeNode
  simp only [pushed, bind_eq_bind, bind_some, Option.pure_def]
  refine ⟨_, rfl, ⟨positive, tracks'.congr fun j => ?_, fun slot j member => ?_, distinct, fun j cb set => ?_,
    pendingDistinct, fun j member => apart j (mem_cons_of_mem _ member)⟩, rfl⟩
  · rw [mem_cons]
    constructor
    · rintro (linked | member)
      · exact ⟨.inl linked, fun same => detached (same ▸ linked)⟩
      · exact ⟨.inr (.inr member), fun same => unique (same ▸ member)⟩
    · rintro ⟨linked | same | member, other⟩
      · exact .inl linked
      · exact absurd same other
      · exact .inr member
  · have other : j ≠ i := fun same => detached (same ▸ ⟨slot, member⟩)
    simp only [update_of_ne other]
    exact home slot j member
  · by_cases same : j = i
    · subst same
      simp at set
    · simp only [update_of_ne same] at set ⊢
      rcases armed j cb set with linked | member
      · exact .inl linked
      · exact .inr ((mem_cons.mp member).resolve_left same)

theorem Held.mem_unlink (held : w.Held pending) (i slot j : Nat) :
    j ∈ (w.unlink i).buckets slot ↔ j ∈ w.buckets slot ∧ j ≠ i := by
  by_cases here : slot = (w.nodes i).slot
  · subst here
    simp [TimingWheel.unlink, (held.distinct _).mem_erase_iff, and_comm]
  · simp only [TimingWheel.unlink, update_of_ne here]
    refine ⟨fun member => ⟨member, ?_⟩, And.left⟩
    rintro rfl
    exact here (held.home slot j member).2.symm

theorem Held.unlink (held : w.Held pending) (linked : i ∈ w.buckets (w.nodes i).slot) :
    (w.unlink i).Held (i :: pending) := by
  have buckets := held.mem_unlink i
  obtain ⟨positive, tracks, home, distinct, armed, pendingDistinct, apart⟩ := held
  have fresh : i ∉ pending := fun member => apart i member ⟨_, linked⟩
  have still : ∀ j, (w.unlink i).Linked j ↔ w.Linked j ∧ j ≠ i := by
    intro j
    simp only [Linked, buckets, exists_and_right]
  refine ⟨positive, tracks.congr fun j => ?_, fun slot j member => ?_, fun slot => ?_, fun j cb set => ?_,
    nodup_cons.mpr ⟨fresh, pendingDistinct⟩, fun j member => ?_⟩
  · rw [still, mem_cons]
    by_cases same : j = i
    · subst same
      simpa using Or.inl ⟨_, linked⟩
    · simp [same]
  · exact home slot j ((buckets slot j).mp member).1
  · by_cases here : slot = (w.nodes i).slot
    · subst here
      simpa [TimingWheel.unlink] using (distinct _).erase i
    · simpa [TimingWheel.unlink, here] using distinct slot
  · by_cases same : j = i
    · exact .inr (same ▸ mem_cons_self)
    · rcases armed j cb set with member | member
      · exact .inl ((buckets _ j).mpr ⟨member, same⟩)
      · exact .inr (mem_cons_of_mem _ member)
  · rw [still]
    rcases mem_cons.mp member with rfl | old
    · simp
    · exact fun both => apart j old both.1

/-! ### The operations -/

def arm (w : TimingWheel Cb) (freeList : IndexFreeStack) (idx : Nat) (cb : Cb) (ctx delay : Nat) : TimingWheel Cb :=
  let slot := (w.currentTick + delay) % 2 ^ 64 % w.wheelSize
  let node := { w.nodes idx with cb := some cb, ctx, slot }
  let w := { w with freeList, nodes := update w.nodes idx node }
  { w.pushFront slot idx with activeCount := (w.activeCount + 1) % 2 ^ 32 }

theorem schedule_cases {cb : Cb} {handle : Nat} (scheduled : w.schedule cb ctx delay = some (handle, w')) :
    (0 < delay ∧ delay < w.wheelSize) ∧
    (handle = kInvalidHandle ∧ w' = w ∨
      ∃ idx freeList, w.freeList.pop = some (idx, freeList) ∧ handle = packHandle idx (w.nodes idx).gen ∧
        w' = w.arm freeList idx cb ctx delay) := by
  unfold TimingWheel.schedule at scheduled
  split at scheduled
  · cases scheduled
  refine ⟨by omega, ?_⟩
  split at scheduled
  · cases scheduled
    exact .inl ⟨rfl, rfl⟩
  · rename_i idx freeList popped
    cases scheduled
    exact .inr ⟨idx, freeList, popped, rfl, rfl⟩

theorem mem_arm_buckets {cb : Cb} {slot j : Nat} :
    j ∈ (w.arm freeList idx cb ctx delay).buckets slot ↔
      j ∈ w.buckets slot ∨ (slot = (w.currentTick + delay) % 2 ^ 64 % w.wheelSize ∧ j = idx) := by
  simp only [arm, pushFront]
  generalize (w.currentTick + delay) % 2 ^ 64 % w.wheelSize = target
  by_cases here : slot = target
  · subst here
    simp [or_comm]
  · simp [here]

theorem arm_linked {cb : Cb} {j : Nat} :
    (w.arm freeList idx cb ctx delay).Linked j ↔ w.Linked j ∨ j = idx := by
  simp only [Linked, mem_arm_buckets]
  constructor
  · rintro ⟨slot, old | ⟨_, same⟩⟩
    · exact .inl ⟨slot, old⟩
    · exact .inr same
  · rintro (⟨slot, old⟩ | same)
    · exact ⟨slot, .inl old⟩
    · exact ⟨_, .inr ⟨rfl, same⟩⟩

theorem Held.arm (held : w.Held pending) (popped : w.freeList.pop = some (idx, freeList)) (cb : Cb) (ctx delay : Nat) :
    (w.arm freeList idx cb ctx delay).Held pending := by
  obtain ⟨positive, tracks, home, distinct, armed, pendingDistinct, apart⟩ := held
  obtain ⟨_, unused, _, tracks'⟩ := tracks.pop popped
  have unlinked : ¬ w.Linked idx := fun linked => unused (.inl linked)
  refine ⟨positive, tracks'.congr fun j => ?_, fun slot j member => ?_, fun slot => ?_, fun j cb' set => ?_,
    pendingDistinct, fun j member => ?_⟩
  · rw [arm_linked, or_right_comm]
  · rcases mem_arm_buckets.mp member with old | ⟨rfl, rfl⟩
    · have other : j ≠ idx := fun same => unlinked (same ▸ ⟨slot, old⟩)
      simp only [TimingWheel.arm, pushFront, update_of_ne other]
      exact home slot j old
    · simp only [TimingWheel.arm, pushFront, update_self, and_true]
      exact Nat.mod_lt _ positive
  · simp only [TimingWheel.arm, pushFront]
    by_cases here : slot = (w.currentTick + delay) % 2 ^ 64 % w.wheelSize
    · rw [← here, update_self]
      exact nodup_cons.mpr ⟨fun member => unlinked ⟨_, member⟩, distinct _⟩
    · rw [update_of_ne here]
      exact distinct slot
  · rw [mem_arm_buckets]
    by_cases same : j = idx
    · subst same
      simp [TimingWheel.arm, pushFront]
    · simp only [TimingWheel.arm, pushFront, update_of_ne same] at set ⊢
      exact (armed j cb' set).imp_left Or.inl
  · rw [arm_linked]
    rintro (linked | rfl)
    · exact apart j member linked
    · exact unused (.inr member)

theorem Ok.schedule {cb : Cb} {handle : Nat} (ok : w.Ok) (scheduled : w.schedule cb ctx delay = some (handle, w')) :
    w'.Ok := by
  obtain ⟨-, ⟨-, rfl⟩ | ⟨idx, freeList, popped, -, rfl⟩⟩ := schedule_cases scheduled
  · exact ok
  · exact ⟨ok.held.arm popped cb ctx delay, ok.idle⟩

/-- The handle names a node, its current generation, and the node is armed. -/
def Names (w : TimingWheel Cb) (h : Nat) : Prop :=
  h ≠ kInvalidHandle ∧ (unpackHandle h).1 < w.maxTimers ∧ (w.nodes (unpackHandle h).1).gen = (unpackHandle h).2 ∧
    (w.nodes (unpackHandle h).1).cb ≠ none
  deriving Decidable

theorem cancel_of_not_names {h : Nat} (other : ¬ w.Names h) : w.cancel h = some (false, w) := by
  unfold TimingWheel.cancel
  dsimp only
  split
  · rfl
  split
  · rfl
  split
  · rfl
  split
  · rfl
  rename_i valid inside current set
  exact absurd ⟨valid, by omega, by simpa using current, by simpa using set⟩ other

theorem cancel_of_names {h : Nat} (named : w.Names h) :
    w.cancel h =
      if w.inTickWalk then
        some (true, { w.disarm (unpackHandle h).1 with activeCount := (w.activeCount + 2 ^ 32 - 1) % 2 ^ 32 })
      else
        ((w.unlink (unpackHandle h).1).freeNode (unpackHandle h).1).map fun w' =>
          (true, { w' with activeCount := (w.activeCount + 2 ^ 32 - 1) % 2 ^ 32 }) := by
  obtain ⟨valid, inside, current, set⟩ := named
  unfold TimingWheel.cancel
  dsimp only
  rw [if_neg valid, if_neg (by omega), if_neg (by simpa using current), if_neg (by simpa using set)]
  split
  · rfl
  · rw [map_eq_bind]
    rfl

theorem Ok.cancel (ok : w.Ok) (h : Nat) : ∃ b w', w.cancel h = some (b, w') ∧ w'.Ok := by
  by_cases named : w.Names h
  · obtain ⟨cb, set⟩ := ne_none_iff_exists'.mp named.2.2.2
    have linked := (ok.held.armed _ cb set).resolve_right (by simp)
    obtain ⟨w', freed, held, walking⟩ := (ok.held.unlink linked).freeNode
    rw [cancel_of_names named, if_neg (by simp [ok.idle]), freed]
    exact ⟨_, _, rfl, held.congr rfl rfl rfl rfl, walking.trans ok.idle⟩
  · exact ⟨false, w, cancel_of_not_names named, ok⟩

variable {fire : Cb → Nat → TimingWheel Cb × σ → Exec (TimingWheel Cb × σ)}

theorem Held.walk
    (quiet : ∀ cb ctx w s w' s', fire cb ctx (w, s) = some (w', s') → w' = w) {fired fired' : Nat} {s s' : σ}
    (held : w.Held chain) (walked : walk fire chain fired (w, s) = some (fired', w', s')) : w'.Held [] := by
  induction chain generalizing w fired s with
  | nil =>
    obtain ⟨_, rfl, _⟩ := by simpa [TimingWheel.walk] using walked
    exact held
  | cons cur rest ih =>
    unfold TimingWheel.walk at walked
    split at walked
    · obtain ⟨w₁, freed, held₁, _⟩ := held.freeNode
      simp only [freed, bind_eq_bind, bind_some] at walked
      exact ih held₁ walked
    · rename_i cb _
      simp only [bind_eq_bind, bind_eq_some_iff, Prod.exists] at walked
      obtain ⟨w₁, s₁, called, walked⟩ := walked
      obtain rfl := quiet _ _ _ _ _ _ called
      obtain ⟨w₂, freed, held', _⟩ := (disarm_held held cur).freeNode
      rw [if_pos (by simp [disarm]), freed] at walked
      exact ih held' walked

theorem Held.detach (held : w.Held []) (here : Nat) :
    ({ w with buckets := update w.buckets here [] } : TimingWheel Cb).Held (w.buckets here) := by
  obtain ⟨positive, tracks, home, distinct, armed, _, _⟩ := held
  have buckets : ∀ slot j, j ∈ update w.buckets here [] slot ↔ j ∈ w.buckets slot ∧ slot ≠ here := by
    intro slot j
    by_cases same : slot = here
    · subst same
      simp
    · simp [same]
  refine ⟨positive, tracks.congr fun j => ?_, fun slot j member => ?_, fun slot => ?_, fun j cb set => ?_,
    distinct here,
    fun j member => ?_⟩
  · simp only [Linked, buckets]
    constructor
    · rintro (⟨slot, old, _⟩ | member)
      · exact .inl ⟨slot, old⟩
      · exact .inl ⟨here, member⟩
    · rintro (⟨slot, old⟩ | impossible)
      · by_cases same : slot = here
        · exact .inr (same ▸ old)
        · exact .inl ⟨slot, old, same⟩
      · cases impossible
  · exact home slot j ((buckets slot j).mp member).1
  · by_cases same : slot = here
    · subst same
      simp
    · simpa [same] using distinct slot
  · have old := (armed j cb set).resolve_right (by simp)
    rw [buckets]
    by_cases same : (w.nodes j).slot = here
    · exact .inr (same ▸ old)
    · exact .inl ⟨old, same⟩
  · rintro ⟨slot, there⟩
    obtain ⟨old, other⟩ := (buckets slot j).mp there
    exact other ((home slot j old).2.symm.trans (home here j member).2)

theorem Ok.tick
    (quiet : ∀ cb ctx w s w' s', fire cb ctx (w, s) = some (w', s') → w' = w) {s s' : σ} (ok : w.Ok)
    (ticked : tick fire (w, s) = some (w', s')) : w'.Ok := by
  unfold TimingWheel.tick at ticked
  simp only [bind_eq_bind, bind_eq_some_iff, Prod.exists, Option.pure_def, some.injEq,
    Prod.mk.injEq] at ticked
  obtain ⟨fired, w₁, s₁, walked, rfl, rfl⟩ := ticked
  have detached := ok.held.detach ((w.currentTick + 1) % 2 ^ 64 % w.wheelSize)
  have kept : w₁.Held [] := by
    refine Held.walk quiet ?_ walked
    exact detached.congr rfl rfl rfl rfl
  exact ⟨kept.congr rfl rfl rfl rfl, rfl⟩

theorem walk_carries {P : σ → Prop}
    (keeps : ∀ cb ctx w s w' s', P s → fire cb ctx (w, s) = some (w', s') → P s') {fired fired' : Nat} {s s' : σ}
    (start : P s) (walked : walk fire chain fired (w, s) = some (fired', w', s')) : P s' := by
  induction chain generalizing w fired s with
  | nil =>
    obtain ⟨_, _, rfl⟩ := by simpa [TimingWheel.walk] using walked
    exact start
  | cons cur rest ih =>
    unfold TimingWheel.walk at walked
    split at walked
    · obtain ⟨_, _, walked⟩ := bind_eq_some_iff.mp walked
      exact ih start walked
    · obtain ⟨⟨w₁, s₁⟩, called, walked⟩ := bind_eq_some_iff.mp walked
      have carried := keeps _ _ _ _ _ _ start called
      dsimp only at walked
      split at walked
      · obtain ⟨_, _, walked⟩ := bind_eq_some_iff.mp walked
        exact ih carried walked
      · exact ih carried walked

theorem tick_carries {P : σ → Prop}
    (keeps : ∀ cb ctx w s w' s', P s → fire cb ctx (w, s) = some (w', s') → P s') {s s' : σ} (start : P s)
    (ticked : tick fire (w, s) = some (w', s')) : P s' := by
  obtain ⟨⟨fired, w₁, s₁⟩, walked, ticked⟩ := bind_eq_some_iff.mp ticked
  cases ticked
  exact walk_carries keeps start walked

theorem freeNode_buckets (idx : Nat) (buckets : Nat → List Nat) :
    freeNode { w with buckets } idx = (w.freeNode idx).map fun w' => { w' with buckets } := by
  cases pushed : w.freeList.push idx <;> simp [freeNode, pushed]

theorem freeChain_buckets (chain : List Nat) (buckets : Nat → List Nat) :
    freeChain chain { w with buckets } = (freeChain chain w).map fun w' => { w' with buckets } := by
  induction chain generalizing w with
  | nil => rfl
  | cons idx rest ih =>
    unfold freeChain
    rw [freeNode_buckets]
    cases freed : w.freeNode idx with
    | none => rfl
    | some w₁ => exact ih

theorem Held.freeChain (held : w.Held pending) :
    ∃ w', freeChain pending w = some w' ∧ w'.Held [] ∧ w'.inTickWalk = w.inTickWalk := by
  induction pending generalizing w with
  | nil => exact ⟨w, rfl, held, rfl⟩
  | cons idx rest ih =>
    obtain ⟨w₁, freed, held₁, walking₁⟩ := held.freeNode
    obtain ⟨w₂, done, held₂, walking₂⟩ := ih held₁
    refine ⟨w₂, ?_, held₂, walking₂.trans walking₁⟩
    simp only [TimingWheel.freeChain, freed, done, bind_eq_bind, bind_some]

/-- Emptying one bucket; the source frees the nodes first and clears the head last. -/
theorem Held.clearBucket (held : w.Held []) (slot : Nat) :
    ∃ w', (TimingWheel.freeChain (w.buckets slot) w).map (fun w' => { w' with buckets := update w.buckets slot [] }) =
    some w' ∧ w'.Held [] ∧ w'.inTickWalk = w.inTickWalk := by
  rw [← freeChain_buckets]
  exact (held.detach slot).freeChain

theorem freeChain_frame (freed : freeChain chain w = some w') : w'.buckets = w.buckets := by
  induction chain generalizing w with
  | nil =>
    cases freed
    rfl
  | cons idx rest ih =>
    unfold freeChain at freed
    obtain ⟨w₁, first, freed⟩ := bind_eq_some_iff.mp freed
    obtain ⟨freeList, _, done⟩ := bind_eq_some_iff.mp first
    cases done
    have kept := ih freed
    exact kept

theorem Held.resetSlots (held : w.Held []) (slots : List Nat) :
    ∃ w', resetSlots slots w = some w' ∧ w'.Held [] ∧ w'.inTickWalk = w.inTickWalk := by
  induction slots generalizing w with
  | nil => exact ⟨w, rfl, held, rfl⟩
  | cons slot rest ih =>
    obtain ⟨w₁, cleared, held₁, walking₁⟩ := held.clearBucket slot
    obtain ⟨w₀, freed, rfl⟩ := map_eq_some_iff.mp cleared
    obtain ⟨w₂, done, held₂, walking₂⟩ := ih held₁
    refine ⟨w₂, ?_, held₂, walking₂.trans walking₁⟩
    simp only [TimingWheel.resetSlots, freed, freeChain_frame freed, bind_eq_bind, bind_some]
    exact done

theorem Ok.reset (ok : w.Ok) : ∃ w', w.reset = some w' ∧ w'.Ok := by
  obtain ⟨w', done, held, walking⟩ := ok.held.resetSlots (range w.wheelSize)
  unfold TimingWheel.reset
  simp only [done, bind_eq_bind, bind_some, Option.pure_def]
  exact ⟨_, rfl, held.congr rfl rfl rfl rfl, walking.trans ok.idle⟩

end TimingWheel

end TickToTrade.Ds
