import Mathlib

/-!
The queue of `sys/memory/fixed_spsc_queue.hpp` between calls. Everything ever pushed is kept and `head`
is where the consumer stands.
-/

namespace TickToTrade.Sys
open List

structure FixedSPSCQueue (α : Type) (capacityPow2 : Nat) where
  pushed : List α := []
  head : Nat := 0
  head_le : head ≤ pushed.length := by decide

namespace FixedSPSCQueue

variable {α : Type} {n : Nat}

theorem fresh_le : 0 ≤ ([] : List α).length := Nat.zero_le _

def tail (q : FixedSPSCQueue α n) : Nat := q.pushed.length

def items (q : FixedSPSCQueue α n) : List α := q.pushed.drop q.head

def tryPush (q : FixedSPSCQueue α n) (v : α) : Bool × FixedSPSCQueue α n :=
  if q.tail - q.head = n then (false, q)
  else (true, { q with pushed := q.pushed ++ [v], head_le := by have := q.head_le; simp; omega })

def tryPop (q : FixedSPSCQueue α n) : Option (α × FixedSPSCQueue α n) :=
  if bound : q.head < q.pushed.length then some (q.pushed[q.head], { q with head := q.head + 1, head_le := bound })
  else none

def drain (q : FixedSPSCQueue α n) (maxCount : Nat) : List α × FixedSPSCQueue α n :=
  let count := min (q.tail - q.head) maxCount
  (q.items.take count,
    { q with head := q.head + count, head_le := by have := q.head_le; simp only [count, tail]; omega })

variable {q q' : FixedSPSCQueue α n} {v : α}

theorem items_length (q : FixedSPSCQueue α n) : q.items.length = q.tail - q.head := by
  simp [items, tail]

/-- `vs` was pushed onto the queue and nothing was popped. -/
structure Appended (q q' : FixedSPSCQueue α n) (vs : List α) : Prop where
  pushed : q'.pushed = q.pushed ++ vs
  head : q'.head = q.head

theorem appended_nil (q : FixedSPSCQueue α n) : Appended q q [] := ⟨by simp, rfl⟩

theorem Appended.trans {q₁ : FixedSPSCQueue α n} {vs vs' : List α} (first : Appended q q₁ vs)
    (second : Appended q₁ q' vs') : Appended q q' (vs ++ vs') :=
  ⟨by rw [second.pushed, first.pushed, append_assoc], second.head.trans first.head⟩

theorem Appended.items {vs : List α} (appended : Appended q q' vs) : q'.items = q.items ++ vs := by
  unfold FixedSPSCQueue.items
  rw [appended.pushed, appended.head, drop_append_of_le_length q.head_le]

theorem tryPush_cases (q : FixedSPSCQueue α n) (v : α) :
    (q.items.length = n ∧ q.tryPush v = (false, q)) ∨
      (q.items.length ≠ n ∧ (q.tryPush v).1 = true ∧ Appended q (q.tryPush v).2 [v]) := by
  unfold tryPush
  split
  · rename_i full
    exact .inl ⟨by rw [items_length, full], rfl⟩
  · rename_i room
    exact .inr ⟨by rwa [items_length], rfl, rfl, rfl⟩

theorem tryPop_eq_some (popped : q.tryPop = some (v, q')) : q.items = v :: q'.items ∧ q'.pushed = q.pushed := by
  unfold tryPop at popped
  split at popped
  · rename_i bound
    cases popped
    exact ⟨drop_eq_getElem_cons bound, rfl⟩
  · cases popped

theorem tryPop_eq_none : q.tryPop = none ↔ q.items = [] := by
  unfold tryPop items
  simp

theorem drain_items (q : FixedSPSCQueue α n) (maxCount : Nat) :
    (q.drain maxCount).1 ++ (q.drain maxCount).2.items = q.items ∧
    (q.drain maxCount).1 = q.items.take maxCount ∧ (q.drain maxCount).2.pushed = q.pushed := by
  have size := q.items_length
  refine ⟨?_, ?_, rfl⟩
  · show q.items.take _ ++ q.pushed.drop (q.head + _) = q.items
    rw [← drop_drop]
    exact take_append_drop _ _
  · show q.items.take (min _ maxCount) = _
    rw [← size, Nat.min_comm, ← take_eq_take_min]

end FixedSPSCQueue

end TickToTrade.Sys
