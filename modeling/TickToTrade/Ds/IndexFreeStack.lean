import TickToTrade.Basic

/-!
The index free stack of `ds/index_free_stack.hpp`: a LIFO of the slot indices that are not handed
out. `indices` lists `indices_[0, top_)` from the top down.
-/

namespace TickToTrade.Ds
open List

structure IndexFreeStack where
  capacity : Nat
  indices : List Nat
  deriving DecidableEq

namespace IndexFreeStack

def isValidCapacity (c : Nat) : Bool := 1 ≤ c && c ≤ 2 ^ 32 - 1

def unbound : IndexFreeStack := { capacity := 0, indices := [] }

/-- `init_storage` stores the indices in reverse, so the first `pop` answers 0. -/
def create (capacity : Nat) : Option IndexFreeStack :=
  if isValidCapacity capacity then some { capacity, indices := range capacity } else none

def pop (s : IndexFreeStack) : Option (Nat × IndexFreeStack) :=
  match s.indices with
  | [] => none
  | idx :: rest => some (idx, { s with indices := rest })

def push (s : IndexFreeStack) (idx : Nat) : Exec IndexFreeStack :=
  if s.capacity ≤ idx ∨ s.capacity ≤ s.indices.length then none
  else some { s with indices := idx :: s.indices }

def available (s : IndexFreeStack) : Nat := s.indices.length

/-- The indices in the stack and the indices in use partition the slots. -/
structure Tracks (s : IndexFreeStack) (InUse : Nat → Prop) : Prop where
  nodup : s.indices.Nodup
  used_lt : ∀ i, InUse i → i < s.capacity
  mem_iff : ∀ i, i ∈ s.indices ↔ i < s.capacity ∧ ¬ InUse i

variable {s : IndexFreeStack} {InUse InUse' : Nat → Prop}

theorem create_tracks {capacity : Nat} (h : create capacity = some s) :
    s.Tracks (fun _ => False) ∧ s.capacity = capacity := by
  unfold create at h
  split at h
  · cases h
    exact ⟨⟨nodup_range, fun _ used => used.elim, fun i => by simp⟩, rfl⟩
  · cases h

theorem Tracks.congr (tracks : s.Tracks InUse) (same : ∀ i, InUse' i ↔ InUse i) : s.Tracks InUse' :=
  ⟨tracks.nodup, fun i used => tracks.used_lt i ((same i).mp used), fun i => by rw [tracks.mem_iff, same]⟩

theorem pop_eq_none : s.pop = none ↔ s.indices = [] := by
  unfold pop
  split <;> simp_all

theorem indices_of_create {capacity : Nat} (h : create capacity = some s) : s.indices = range capacity := by
  unfold create at h
  split at h
  · cases h
    rfl
  · cases h

variable {s' : IndexFreeStack} {idx : Nat}

theorem indices_of_pop (h : s.pop = some (idx, s')) :
    s.indices = idx :: s'.indices := by
  unfold pop at h
  split at h
  · cases h
  · rename_i stack
    cases h
    exact stack

section

variable (tracks : s.Tracks InUse)
include tracks

theorem Tracks.pop
    (h : s.pop = some (idx, s')) :
    idx < s.capacity ∧ ¬ InUse idx ∧ s'.capacity = s.capacity ∧
      s'.Tracks (fun i => InUse i ∨ i = idx) := by
  unfold IndexFreeStack.pop at h
  split at h
  · cases h
  · rename_i top rest read
    simp only [Option.some.injEq, Prod.mk.injEq] at h
    obtain ⟨rfl, rfl⟩ := h
    have nodup := tracks.nodup
    rw [read, nodup_cons] at nodup
    have free := (tracks.mem_iff top).mp (by rw [read]; exact mem_cons_self)
    refine ⟨free.1, free.2, rfl, nodup.2, ?_, fun i => ?_⟩
    · intro i used
      rcases used with old | rfl
      · exact tracks.used_lt i old
      · exact free.1
    have old := tracks.mem_iff i
    rw [read, mem_cons] at old
    by_cases same : i = top
    · subst same
      simp [nodup.1]
    · simp only [same, false_or, or_false] at old ⊢
      exact old

theorem Tracks.push (used : InUse idx) :
    ∃ s', s.push idx = some s' ∧ s'.capacity = s.capacity ∧ s'.Tracks (fun i => InUse i ∧ i ≠ idx) := by
  have bound := tracks.used_lt idx used
  have absent : idx ∉ s.indices := fun member => ((tracks.mem_iff idx).mp member).2 used
  have room : s.indices.length < s.capacity := by
    have fits : (idx :: s.indices).length ≤ (range s.capacity).length := by
      apply Subperm.length_le
      apply subperm_of_subset (nodup_cons.mpr ⟨absent, tracks.nodup⟩)
      intro i member
      rcases mem_cons.mp member with rfl | member
      · exact mem_range.mpr bound
      · exact mem_range.mpr ((tracks.mem_iff i).mp member).1
    rw [length_cons, length_range] at fits
    omega
  refine ⟨_, if_neg (by omega), rfl, nodup_cons.mpr ⟨absent, tracks.nodup⟩,
    fun i still => tracks.used_lt i still.1, fun i => ?_⟩
  rw [mem_cons, tracks.mem_iff]
  by_cases same : i = idx
  · subst same
    simp [bound]
  · simp [same]

theorem Tracks.pop_push (h : s.pop = some (idx, s')) :
    ∃ s'', s'.push idx = some s'' ∧ s''.capacity = s.capacity ∧ s''.Tracks InUse := by
  obtain ⟨_, unused, capacity, popped⟩ := tracks.pop h
  obtain ⟨s'', pushed, capacity', back⟩ := popped.push (.inr rfl)
  refine ⟨s'', pushed, capacity'.trans capacity, back.congr fun i => ?_⟩
  constructor
  · intro used
    refine ⟨.inl used, ?_⟩
    rintro rfl
    exact unused used
  · intro ⟨used, other⟩
    exact used.resolve_right other

theorem Tracks.perm {used : List Nat} (nodup : used.Nodup) (mem : ∀ i, i ∈ used ↔ InUse i) :
    (s.indices ++ used).Perm (range s.capacity) := by
  refine (perm_ext_iff_of_nodup ?_ nodup_range).mpr ?_
  · refine nodup_append.mpr ⟨tracks.nodup, nodup, ?_⟩
    intro i free j taken same
    subst same
    exact ((tracks.mem_iff i).mp free).2 ((mem i).mp taken)
  · intro i
    rw [mem_append, tracks.mem_iff, mem, mem_range]
    constructor
    · intro known
      exact known.elim And.left (tracks.used_lt i)
    · intro bound
      by_cases taken : InUse i
      · exact .inr taken
      · exact .inl ⟨bound, taken⟩

end

end IndexFreeStack

end TickToTrade.Ds
