import TickToTrade.Basic
import TickToTrade.Lib.Merging
import TickToTrade.Lib.Transition
import TickToTrade.Sys.FixedSpscQueue

/-!
`drain_all` of `sys/log/async_drain_loop.hpp`. A read of `batches` past its last queue or past the
entries of a queue is a fault.
-/

namespace TickToTrade.Sys
open Merging List Option Function

def kMaxQueues : Nat := 4

def kDrainBatch : Nat := 128

/-- `UINT64_MAX`, which the search starts with. -/
def kNoTimestamp : Nat := 2 ^ 64 - 1

variable {α : Type} (tsc : α → Nat) (numQueues : Nat)

/-- One round of the search: a smaller timestamp replaces the best one. -/
def selectStep (batches : Nat → List α) (indices : Nat → Nat) (best : Nat × Nat) (q : Nat) : Nat × Nat :=
  match (batches q)[indices q]? with
  | some entry => if tsc entry < best.2 then (q, tsc entry) else best
  | none => best

def select (batches : Nat → List α) (indices : Nat → Nat) : Nat :=
  ((range numQueues).foldl (selectStep tsc batches indices) (kMaxQueues, kNoTimestamp)).1

def mergeLoop (batches : Nat → List α) : (left : Nat) → (indices : Nat → Nat) → Exec (List (Nat × α))
  | 0, _ => some []
  | left + 1, indices => do
    let best := select tsc numQueues batches indices
    if best = kMaxQueues then none
    let entry ← (batches best)[indices best]?
    let later ← mergeLoop batches left (update indices best (indices best + 1))
    return (best, entry) :: later

def writeBatches (batches : Nat → List α) : Exec (List (Nat × α)) :=
  mergeLoop tsc numQueues batches ((range numQueues).map fun q => (batches q).length).sum fun _ => 0

section Queues

variable {capacity : Nat → Nat}

def takeBatches (queues : (q : Nat) → FixedSPSCQueue α (capacity q)) (q : Nat) : List α :=
  if q < numQueues then ((queues q).drain kDrainBatch).1 else []

/-- The entries that a call writes, in their order, and the queues it leaves. -/
def drainAll (queues : (q : Nat) → FixedSPSCQueue α (capacity q)) :
    Exec (List (Nat × α) × ((q : Nat) → FixedSPSCQueue α (capacity q))) := do
  let written ← writeBatches tsc numQueues (takeBatches numQueues queues)
  return (written, fun q => if q < numQueues then ((queues q).drain kDrainBatch).2 else queues q)

end Queues

/-! ### The search -/

variable {tsc numQueues}

def leftOf (batches : Nat → List α) (indices : Nat → Nat) (q : Nat) : List α := (batches q).drop (indices q)

theorem leftOf_head (batches : Nat → List α) (indices : Nat → Nat) (q : Nat) :
    (leftOf batches indices q).head? = (batches q)[indices q]? := head?_drop

/-- After `k` queues: nothing was found, or the first of the least entries. -/
inductive Searched (tsc : α → Nat) (lanes : Nat → List α) (k : Nat) : Nat × Nat → Prop
  | nothing (empty : ∀ p < k, lanes p = []) : Searched tsc lanes k (kMaxQueues, kNoTimestamp)
  | found {q : Nat} {entry : α} (bound : q < k) (here : (lanes q).head? = some entry)
    (least : ∀ p x, p < k → (lanes p).head? = some x → tsc entry ≤ tsc x)
    (first : ∀ p x, p < q → (lanes p).head? = some x → tsc entry < tsc x) : Searched tsc lanes k (q, tsc entry)

theorem Searched.step {batches : Nat → List α} {indices : Nat → Nat} {k : Nat} {best : Nat × Nat}
    (stamped : ∀ p, ∀ entry ∈ batches p, tsc entry < kNoTimestamp)
    (searched : Searched tsc (leftOf batches indices) k best) :
    Searched tsc (leftOf batches indices) (k + 1) (selectStep tsc batches indices best k) := by
  have head := leftOf_head batches indices k
  unfold selectStep
  cases next : (batches k)[indices k]? with
  | none =>
    rw [next] at head
    have empty := head?_eq_none_iff.mp head
    cases searched with
    | nothing empties =>
      refine .nothing fun p below => ?_
      rcases Nat.lt_succ_iff_lt_or_eq.mp below with earlier | rfl
      · exact empties p earlier
      · exact empty
    | found bound here least first =>
      refine .found (Nat.lt_succ_of_lt bound) here (fun p x below front => ?_) first
      rcases Nat.lt_succ_iff_lt_or_eq.mp below with earlier | rfl
      · exact least p x earlier front
      · rw [head] at front
        cases front
  | some entry =>
    rw [next] at head
    have small := stamped k entry (mem_of_getElem? next)
    cases searched with
    | nothing empties =>
      dsimp only
      rw [if_pos small]
      refine .found (Nat.lt_succ_self k) head (fun p x below front => ?_) fun p x below front => ?_
      · rcases Nat.lt_succ_iff_lt_or_eq.mp below with earlier | rfl
        · rw [empties p earlier] at front
          cases front
        · exact Nat.le_of_eq (congrArg tsc (mem_unique head front))
      · rw [empties p below] at front
        cases front
    | @found q best bound here least first =>
      dsimp only
      split
      case isTrue smaller =>
        refine .found (Nat.lt_succ_self k) head (fun p x below front => ?_) fun p x below front => ?_
        · rcases Nat.lt_succ_iff_lt_or_eq.mp below with earlier | rfl
          · exact Nat.le_of_lt (Nat.lt_of_lt_of_le smaller (least p x earlier front))
          · exact Nat.le_of_eq (congrArg tsc (mem_unique head front))
        · exact Nat.lt_of_lt_of_le smaller (least p x below front)
      case isFalse larger =>
        refine .found (Nat.lt_succ_of_lt bound) here (fun p x below front => ?_) first
        rcases Nat.lt_succ_iff_lt_or_eq.mp below with earlier | rfl
        · exact least p x earlier front
        · obtain rfl := mem_unique head front
          exact Nat.not_lt.mp larger

theorem searched_all {batches : Nat → List α} (stamped : ∀ p, ∀ entry ∈ batches p, tsc entry < kNoTimestamp)
    (indices : Nat → Nat) (k : Nat) : Searched tsc (leftOf batches indices) k
    ((range k).foldl (selectStep tsc batches indices) (kMaxQueues, kNoTimestamp)) := by
  induction k with
  | zero => exact .nothing fun p below => absurd below (Nat.not_lt_zero p)
  | succ k ih =>
    rw [range_succ, foldl_append]
    exact ih.step stamped

/-! ### The merge -/

section Merge

variable {batches : Nat → List α} {indices : Nat → Nat}

/-- While entries are left the search finds the one that a merge takes next, and not the sentinel. -/
theorem select_picks (few : numQueues ≤ kMaxQueues) (stamped : ∀ p, ∀ entry ∈ batches p, tsc entry < kNoTimestamp)
    (outside : ∀ p, numQueues ≤ p → batches p = []) (more : (range numQueues).flatMap (leftOf batches indices) ≠ []) :
    select tsc numQueues batches indices ≠ kMaxQueues ∧
      ∃ entry rest, Picks tsc (leftOf batches indices) (select tsc numQueues batches indices) entry rest := by
  have searched := searched_all stamped indices numQueues
  unfold select
  generalize (range numQueues).foldl (selectStep tsc batches indices) (kMaxQueues, kNoTimestamp) = best at searched
  cases searched with
  | nothing empty =>
    refine absurd (flatMap_eq_nil_iff.mpr fun p member => ?_) more
    exact empty p (mem_range.mp member)
  | @found q entry bound here least first =>
    obtain ⟨rest, lane⟩ := head?_eq_some_iff.mp here
    refine ⟨Nat.ne_of_lt (Nat.lt_of_lt_of_le bound few), entry, rest, lane, fun p x front => ?_, first⟩
    by_cases below : p < numQueues
    · exact least p x below front
    · rw [leftOf, outside p (Nat.not_lt.mp below), drop_nil] at front
      cases front

theorem leftOf_update {q : Nat} {entry : α} {rest : List α} (here : leftOf batches indices q = entry :: rest) :
    leftOf batches (update indices q (indices q + 1)) = update (leftOf batches indices) q rest := by
  funext p
  by_cases same : p = q
  · subst same
    rw [update_self, leftOf, update_self, ← drop_drop]
    show (leftOf batches indices p).drop 1 = rest
    rw [here, drop_one, tail_cons]
  · rw [update_of_ne same, leftOf, update_of_ne same, leftOf]

section

variable (few : numQueues ≤ kMaxQueues) (stamped : ∀ p, ∀ entry ∈ batches p, tsc entry < kNoTimestamp)
  (outside : ∀ p, numQueues ≤ p → batches p = [])
include few stamped outside

theorem mergeLoop_merges {left : Nat}
    (total : ((range numQueues).flatMap (leftOf batches indices)).length = left) :
    ∃ out, mergeLoop tsc numQueues batches left indices = some out ∧ Merged tsc (leftOf batches indices) out := by
  induction left generalizing indices with
  | zero =>
    refine ⟨[], rfl, .done fun p => ?_⟩
    by_cases below : p < numQueues
    · exact flatMap_eq_nil_iff.mp (eq_nil_of_length_eq_zero total) p (mem_range.mpr below)
    · rw [leftOf, outside p (Nat.not_lt.mp below), drop_nil]
  | succ left ih =>
    have more : (range numQueues).flatMap (leftOf batches indices) ≠ [] := by
      intro none
      rw [none] at total
      cases total
    obtain ⟨real, entry, rest, picks⟩ := select_picks few stamped outside more
    have next := leftOf_update picks.here
    have bound : select tsc numQueues batches indices < numQueues := by
      by_contra far
      have nothing := picks.here
      rw [leftOf, outside _ (Nat.not_lt.mp far), drop_nil] at nothing
      cases nothing
    have fewer := (flatMap_pick picks.here bound).length_eq
    rw [total, length_cons, ← next] at fewer
    obtain ⟨out, wrote, merged⟩ := ih (Nat.succ.inj fewer).symm
    rw [next] at merged
    refine ⟨_, ?_, .pick picks merged⟩
    have front : (batches (select tsc numQueues batches indices))[indices (select tsc numQueues batches indices)]? =
        some entry := by
      rw [← leftOf_head, picks.here, head?_cons]
    simp only [mergeLoop, if_neg real, front, wrote, bind_eq_bind, bind_some, Option.pure_def]

theorem writeBatches_merges : ∃ out, writeBatches tsc numQueues batches = some out ∧ Merged tsc batches out := by
  have whole : leftOf batches (fun _ => 0) = batches := funext fun q => drop_zero
  have total : ((range numQueues).flatMap (leftOf batches fun _ => 0)).length =
      ((range numQueues).map fun q => (batches q).length).sum := by
    rw [whole, length_flatMap]
  obtain ⟨out, wrote, merged⟩ := mergeLoop_merges few stamped outside total
  rw [whole] at merged
  exact ⟨out, wrote, merged⟩

end

end Merge

section Queues

variable {capacity : Nat → Nat} {queues : (q : Nat) → FixedSPSCQueue α (capacity q)}

/-- The written entries are those that were drained; those of a queue are in its order. Of equal heads the one in the
lower queue is taken at every step, so the entries are sorted, ties by queue, if every batch is. -/
structure WritesMerged (tsc : α → Nat) (numQueues : Nat) (batches : Nat → List α)
    (written : List (Nat × α)) : Prop where
  perm : (written.map Prod.snd).Perm ((range numQueues).flatMap batches)
  lanes : ∀ q, (written.filter fun x => x.1 = q).map Prod.snd = batches q
  picks : Merged tsc batches written
  sorted : (∀ q, (batches q).Pairwise fun x y => tsc x ≤ tsc y) → written.Pairwise (Before tsc)

theorem takeBatches_eq (numQueues : Nat) (queues : (q : Nat) → FixedSPSCQueue α (capacity q)) :
    takeBatches numQueues queues = fun q => if q < numQueues then (queues q).items.take kDrainBatch else [] := by
  funext q
  rw [takeBatches, ((queues q).drain_items kDrainBatch).2.1]

theorem drain_left {n : Nat} (queue : FixedSPSCQueue α n) (maxCount : Nat) :
    (queue.drain maxCount).2.items = queue.items.drop maxCount := by
  obtain ⟨whole, taken, -⟩ := queue.drain_items maxCount
  rw [taken] at whole
  exact append_cancel_left (whole.trans (take_append_drop maxCount _).symm)

/-- `drain_all` writes the merge of the first 128 entries of every queue and leaves the others; the search never ends
at the sentinel, which would be a fault. -/
theorem drainAll_merges (few : numQueues ≤ kMaxQueues)
    (stamped : ∀ q < numQueues, ∀ entry ∈ (queues q).items.take kDrainBatch, tsc entry < kNoTimestamp) :
    ∃ written rest, drainAll tsc numQueues queues = some (written, rest) ∧
      WritesMerged tsc numQueues (fun q => if q < numQueues then (queues q).items.take kDrainBatch else []) written ∧
      ∀ q, (rest q).items = if q < numQueues then (queues q).items.drop kDrainBatch else (queues q).items := by
  have batches := takeBatches_eq numQueues queues
  have outside : ∀ q, numQueues ≤ q → takeBatches numQueues queues q = [] := fun q far => if_neg (Nat.not_lt.mpr far)
  have early : ∀ q, ∀ entry ∈ takeBatches numQueues queues q, tsc entry < kNoTimestamp := by
    intro q entry member
    rw [batches] at member
    dsimp only at member
    split at member
    · exact stamped q ‹_› entry member
    · cases member
  obtain ⟨written, wrote, merged⟩ := writeBatches_merges few early outside
  refine ⟨written, fun q => if q < numQueues then ((queues q).drain kDrainBatch).2 else queues q, ?_, ?_, fun q => ?_⟩
  · rw [drainAll, wrote]
    rfl
  · rw [← batches]
    exact ⟨merged.perm outside, merged.lane, merged, merged.sorted⟩
  · dsimp only
    split
    · exact drain_left (queues q) kDrainBatch
    · rfl

def twoQueues (q : Nat) : FixedSPSCQueue Nat 4 := if q = 0 then { pushed := [1, 3] } else { pushed := [2, 3] }

theorem drainAll_merges_two :
    (drainAll id 2 twoQueues).map Prod.fst = some [(0, 1), (1, 2), (0, 3), (1, 3)] ∧
      ∃ written rest, drainAll id 2 twoQueues = some (written, rest) ∧
        WritesMerged id 2 (fun q => if q < 2 then (twoQueues q).items.take kDrainBatch else []) written ∧
        ∀ q, (rest q).items = if q < 2 then (twoQueues q).items.drop kDrainBatch else (twoQueues q).items :=
  ⟨by decide, drainAll_merges (by decide) (by decide)⟩

end Queues

end TickToTrade.Sys
