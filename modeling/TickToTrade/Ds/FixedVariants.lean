import TickToTrade.Ds.SlotLevel
import TickToTrade.Ds.LinkLevel

/-!
The free stack and the timing wheel whose sizes are template parameters
(`ds/fixed_index_free_stack.hpp`, `ds/fixed_timing_wheel.hpp`), next to the ones with runtime sizes.
-/

namespace TickToTrade.Ds
open List Option Function

structure FixedIndexFreeStack (capacity : Nat) where
  indices : Nat → Nat
  top : Nat

namespace FixedIndexFreeStack

variable {capacity : Nat}

def fresh : FixedIndexFreeStack capacity := { indices := fun i => capacity - 1 - i, top := capacity }

def pop (s : FixedIndexFreeStack capacity) : Option (Nat × FixedIndexFreeStack capacity) :=
  if s.top = 0 then none else some (s.indices (s.top - 1), { s with top := s.top - 1 })

def push (s : FixedIndexFreeStack capacity) (idx : Nat) : Exec (FixedIndexFreeStack capacity) :=
  if capacity ≤ idx ∨ capacity ≤ s.top then none
  else some { indices := update s.indices s.top idx, top := s.top + 1 }

def stack (s : FixedIndexFreeStack capacity) : IndexFreeStack :=
  { capacity, indices := (range s.top).reverse.map s.indices }

theorem fresh_stack (valid : IndexFreeStack.isValidCapacity capacity = true) :
    IndexFreeStack.create capacity = some (fresh : FixedIndexFreeStack capacity).stack := by
  have indices : (range capacity).reverse.map (fun i => capacity - 1 - i) = range capacity := by
    refine ext_getElem (by simp) fun i low high => ?_
    simp only [length_range] at high
    simp only [getElem_map, getElem_reverse, length_range, getElem_range]
    omega
  rw [IndexFreeStack.create, if_pos valid, stack, fresh, indices]

theorem pop_stack (s : FixedIndexFreeStack capacity) : s.pop.map (Prod.map id stack) = s.stack.pop := by
  obtain ⟨indices, top⟩ := s
  cases top with
  | zero => rfl
  | succ top => simp [pop, stack, IndexFreeStack.pop, range_succ]

theorem push_stack (s : FixedIndexFreeStack capacity) (idx : Nat) : (s.push idx).map stack = s.stack.push idx := by
  unfold push IndexFreeStack.push
  simp only [stack, length_map, length_reverse, length_range]
  split
  · rfl
  · have below : ∀ i, i < s.top → update s.indices s.top idx i = s.indices i :=
      fun i lower => update_of_ne (Nat.ne_of_lt lower) _ _
    simpa [stack, range_succ] using below

end FixedIndexFreeStack

/-! ### The wheels -/

namespace LinkLevel
open Ds.TimingWheel (isValidWheelSize isValidMaxTimers)

variable {Cb σ : Type} {ws mt : Nat}

/-- `FixedTimingWheel<ws, mt>`; `kWheelMask` is a `std::size_t`. -/
def FixedTimingWheel.parts (ws mt : Nat) : Parts (FixedIndexFreeStack mt) :=
  { wheelSize := ws, wheelMask := ws - 1, maxTimers := mt, pop := FixedIndexFreeStack.pop,
    push := FixedIndexFreeStack.push }

def FixedTimingWheel.init (mt : Nat) (memory : σ) : Session (FixedIndexFreeStack mt) Cb σ :=
  { freeList := .fresh, memory }

/-- The sizes that `TimingWheel` stores, as `std::uint32_t`. -/
def TimingWheel.parts (ws mt : Nat) : Parts IndexFreeStack :=
  { wheelSize := ws % 2 ^ 32
    wheelMask := (ws % 2 ^ 32 + 2 ^ 32 - 1) % 2 ^ 32
    maxTimers := mt % 2 ^ 32
    pop := IndexFreeStack.pop
    push := IndexFreeStack.push }

def TimingWheel.create (ws mt : Nat) (memory : σ) : Exec (Session IndexFreeStack Cb σ) := do
  if !isValidWheelSize ws || !isValidMaxTimers mt then none
  else
    let freeList ← IndexFreeStack.create mt
    return { freeList, memory }

theorem views (wheel : isValidWheelSize ws = true) (timers : isValidMaxTimers mt = true) :
    Parts.Views FixedIndexFreeStack.stack (FixedTimingWheel.parts ws mt) (TimingWheel.parts ws mt) := by
  simp only [isValidWheelSize, isValidMaxTimers, Bool.and_eq_true, decide_eq_true_eq] at wheel timers
  have small : ws % 2 ^ 32 = ws := Nat.mod_eq_of_lt (by omega)
  refine ⟨small, ?_, Nat.mod_eq_of_lt (by omega), fun s => s.pop_stack.symm, fun s idx => (s.push_stack idx).symm⟩
  change (ws % 2 ^ 32 + 2 ^ 32 - 1) % 2 ^ 32 = ws - 1
  omega

/-- What the outside sees of a run: how it ended, what was fired and answered, and the callbacks' memory. -/
def observed {F : Type} : EStateM.Result Halt (Session F Cb σ) Unit → Option Halt × List (WheelEvent Cb) × σ
  | .ok _ s => (none, s.log, s.memory)
  | .error halt s => (some halt, s.log, s.memory)

theorem observed_atEnd {F G : Type} (view : F → G) (ended : EStateM.Result Halt (Session F Cb σ) Unit) :
    observed (Lockstep.atEnd (Session.mapFree view) ended) = observed ended := by
  cases ended <;> rfl

theorem observed_eq {memory : σ} {w : Session IndexFreeStack Cb σ} (created : TimingWheel.create ws mt memory = some w)
    (scripts : Cb → Nat → Script Cb σ) (owner : Script Cb σ) (fuel : Nat) :
    observed (runOwner (FixedTimingWheel.parts ws mt) scripts fuel owner (FixedTimingWheel.init mt memory)) =
      observed (runOwner (TimingWheel.parts ws mt) scripts fuel owner w) := by
  unfold TimingWheel.create at created
  split at created
  case isTrue => cases created
  case isFalse valid =>
    obtain ⟨freeList, pool, done⟩ := bind_eq_some_iff.mp created
    simp only [Bool.or_eq_true, Bool.not_eq_true', not_or, Bool.not_eq_false] at valid
    have usable : IndexFreeStack.isValidCapacity mt = true := by
      simp only [isValidMaxTimers, IndexFreeStack.isValidCapacity, Bool.and_eq_true] at valid ⊢
      exact valid.2.1
    have start : w = (FixedTimingWheel.init mt memory).mapFree FixedIndexFreeStack.stack := by
      cases mem_unique pool (FixedIndexFreeStack.fresh_stack usable)
      exact (some.inj done).symm
    rw [start, runOwner_same (views valid.1 valid.2) scripts fuel owner, observed_atEnd]

end LinkLevel

/-- The maps and the wheels whose sizes are template parameters answer as the ones with runtime sizes do, whatever
the callbacks of the wheels call. -/
theorem fixed_variants_agree {K V Cb σ : Type} [DecidableEq K] [DefaultHash K] [Inhabited K] [Inhabited V] :
    (∀ (capacity : Nat) (buffer : Nat → SlotLevel.Slot K V) (m : SlotLevel.HashMap K V)
      (calls : List (SlotLevel.MapCall K V)), SlotLevel.HashMap.create buffer capacity = some m →
      Lockstep.replies SlotLevel.FixedHashMap.call calls
          (SlotLevel.FixedHashMap.empty : SlotLevel.FixedHashMap K V capacity) =
        Lockstep.replies SlotLevel.HashMap.call calls m) ∧
    ∀ (ws mt : Nat) (memory : σ) (w : LinkLevel.Session IndexFreeStack Cb σ)
      (scripts : Cb → Nat → LinkLevel.Script Cb σ) (owner : LinkLevel.Script Cb σ) (fuel : Nat),
      LinkLevel.TimingWheel.create ws mt memory = some w →
      LinkLevel.observed (LinkLevel.runOwner (LinkLevel.FixedTimingWheel.parts ws mt) scripts fuel owner
          (LinkLevel.FixedTimingWheel.init mt memory)) =
        LinkLevel.observed (LinkLevel.runOwner (LinkLevel.TimingWheel.parts ws mt) scripts fuel owner w) :=
  ⟨fun _ _ _ calls created => SlotLevel.replies_eq created calls,
    fun _ _ _ _ scripts owner fuel created => LinkLevel.observed_eq created scripts owner fuel⟩

/-- Callback 7 ticks the wheel that runs it and cancels the timer behind it in the chain; callback 9 resets the wheel.
-/
def nestScripts : Nat → Nat → LinkLevel.Script Nat Nat
  | 7, _ => .call .tick fun fired => .call (.cancel (TimingWheel.packHandle 1 1)) fun _ =>
      .store (if fired = .count 1 then 1 else 2) .done
  | 8, _ => .call (.schedule (some 9) 90 1) fun _ => .done
  | _, _ => .call .reset fun _ => .done

def nestOwner : LinkLevel.Script Nat Nat :=
  .call (.schedule (some 8) 80 2) fun _ => .call (.schedule (some 9) 91 1) fun _ =>
    .call (.schedule (some 7) 70 1) fun _ => .call .tick fun _ => .call .tick fun _ => .done

theorem fixed_variants_agree_sample :
    ∃ (m : SlotLevel.HashMap Nat Nat) (w : LinkLevel.Session IndexFreeStack Nat Nat),
      SlotLevel.HashMap.create (fun _ => { key := 5, value := 6, state := .kFull }) 4 = some m ∧
      LinkLevel.TimingWheel.create 4 4 0 = some w ∧
      Lockstep.replies SlotLevel.FixedHashMap.call
          [.op (.insert 5 7), .op (.erase 5), .tombstoneCount, .op (.find 5)]
          (SlotLevel.FixedHashMap.empty : SlotLevel.FixedHashMap Nat Nat 4) =
        Lockstep.replies SlotLevel.HashMap.call [.op (.insert 5 7), .op (.erase 5), .tombstoneCount, .op (.find 5)] m ∧
      LinkLevel.observed (LinkLevel.runOwner (LinkLevel.TimingWheel.parts 4 4) nestScripts 10 nestOwner w) =
        (some .abort, [.answered (.handle (TimingWheel.packHandle 0 1)),
          .answered (.handle (TimingWheel.packHandle 1 1)),
          .answered (.handle (TimingWheel.packHandle 2 1)), .fired 7 70, .fired 8 80,
          .answered (.handle (TimingWheel.packHandle 3 1)), .answered (.count 1), .answered (.found true),
          .answered (.count 1), .fired 9 90, .answered .nothing], 1) := by
  obtain ⟨m, mapped⟩ := isSome_iff_exists.mp
    (show (SlotLevel.HashMap.create (fun _ => { key := 5, value := 6, state := .kFull }) 4 :
      Option (SlotLevel.HashMap Nat Nat)).isSome by decide)
  obtain ⟨w, created⟩ := isSome_iff_exists.mp
    (show (LinkLevel.TimingWheel.create 4 4 0 : Exec (LinkLevel.Session IndexFreeStack Nat Nat)).isSome by decide)
  obtain ⟨maps, wheels⟩ := fixed_variants_agree (K := Nat) (V := Nat) (σ := Nat)
  exact ⟨m, w, mapped, created, maps 4 _ m _ mapped,
    (wheels 4 4 0 w nestScripts nestOwner 10 created).symm.trans (by decide +kernel)⟩

end TickToTrade.Ds
