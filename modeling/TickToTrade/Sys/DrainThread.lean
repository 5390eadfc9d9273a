import TickToTrade.Sys.DrainLoop

/-!
The thread of `sys/log/async_drain_loop.hpp`, interleaved with producers and `stop`. `none` is a fault:
a read of `batches` out of bounds, or a second `start`.
-/

namespace TickToTrade.Sys
open Transition Merging List Option Function

variable {α : Type} {capacity : Nat → Nat}
variable {final : Bool} {batches : Nat → List α}

/-- Where the thread stands: before `start`, at the load of `stop_`, in a call of `drain_all` that is about to drain the
queue `next`, or past the final call. -/
inductive DrainPhase (α : Type)
  | unstarted
  | checking
  | draining (final : Bool) (next : Nat) (batches : Nat → List α)
  | exited

structure AsyncDrainLoop (α : Type) (capacity : Nat → Nat) where
  queues : (q : Nat) → FixedSPSCQueue α (capacity q)
  stop : Bool := false
  thread : DrainPhase α := .unstarted
  written : List (Nat × α) := []

inductive DrainMove (α : Type)
  | push (q : Nat) (entry : α)
  | start
  | stop
  | thread

namespace AsyncDrainLoop

def runStep (tsc : α → Nat) (numQueues : Nat) (l : AsyncDrainLoop α capacity) : Exec (AsyncDrainLoop α capacity) :=
  match l.thread with
  | .unstarted => some l
  | .checking => some { l with thread := .draining l.stop 0 fun _ => [] }
  | .draining final next batches =>
    if next < numQueues then
      some { l with
        queues := update l.queues next ((l.queues next).drain kDrainBatch).2
        thread := .draining final (next + 1) (update batches next ((l.queues next).drain kDrainBatch).1) }
    else do
      let written ← writeBatches tsc numQueues batches
      return { l with thread := if final then .exited else .checking, written := l.written ++ written }
  | .exited => some l

def step (tsc : α → Nat) (numQueues : Nat) (l : AsyncDrainLoop α capacity) : DrainMove α →
    Exec (AsyncDrainLoop α capacity)
  | .push q entry => some { l with queues := update l.queues q ((l.queues q).tryPush entry).2 }
  | .start =>
    match l.thread with
    | .unstarted => some { l with thread := .checking }
    | _ => none
  | .stop => some { l with stop := true }
  | .thread => runStep tsc numQueues l

def new : AsyncDrainLoop α capacity := { queues := fun _ => ⟨[], 0, Nat.le_refl 0⟩ }

/-- `stop` has been called and there is no thread left to join. -/
def StopReturned (l : AsyncDrainLoop α capacity) : Prop := l.stop = true ∧ (l.thread = .unstarted ∨ l.thread = .exited)

def hasExited (l : AsyncDrainLoop α capacity) : Bool :=
  match l.thread with
  | .exited => l.stop
  | _ => false

/-- Every entry that a registered queue took is written once, in its order, and the queue is empty. -/
def LosesNothing (numQueues : Nat) (l : AsyncDrainLoop α capacity) : Prop :=
  ∀ q < numQueues, (l.queues q).items = [] ∧ (l.written.filter fun x => x.1 = q).map Prod.snd = (l.queues q).pushed

/-- Producers push before `stop` is called. -/
def StopsLast (l : AsyncDrainLoop α capacity) : DrainMove α → Prop
  | .push _ _ => l.stop = false
  | _ => True

/-- For the registered queues; also, no entry carries the timestamp that the search starts with, the queues are empty if
`stop` comes before `start`, and the thread finds no more than one batch in any queue when it sees the flag. -/
def FinalBatch (tsc : α → Nat) (numQueues : Nat) (l : AsyncDrainLoop α capacity) : DrainMove α → Prop
  | .push q entry => q < numQueues → l.stop = false ∧ tsc entry < kNoTimestamp
  | .start => True
  | .stop => match l.thread with
    | .unstarted => ∀ q < numQueues, (l.queues q).items = []
    | _ => True
  | .thread => match l.thread with
    | .checking => l.stop = true → ∀ q < numQueues, (l.queues q).items.length ≤ kDrainBatch
    | _ => True

instance (tsc : α → Nat) (numQueues : Nat) (l : AsyncDrainLoop α capacity) :
    (move : DrainMove α) → Decidable (FinalBatch tsc numQueues l move)
  | .push q entry => inferInstanceAs (Decidable (q < numQueues → l.stop = false ∧ tsc entry < kNoTimestamp))
  | .start => isTrue trivial
  | .stop => by
    unfold FinalBatch
    exact match l.thread with
    | .unstarted => inferInstanceAs (Decidable (∀ q < numQueues, (l.queues q).items = []))
    | .checking | .draining _ _ _ | .exited => isTrue trivial
  | .thread => by
    unfold FinalBatch
    exact match l.thread with
    | .checking => inferInstanceAs
    (Decidable (l.stop = true → ∀ q < numQueues, (l.queues q).items.length ≤ kDrainBatch))
    | .unstarted | .draining _ _ _ | .exited => isTrue trivial

variable {tsc : α → Nat} {numQueues : Nat} {l l' : AsyncDrainLoop α capacity} {move : DrainMove α}

theorem stopReturned_of_hasExited (exited : l.hasExited = true) : l.StopReturned := by
  unfold hasExited at exited
  cases thread : l.thread with
  | exited =>
    rw [thread] at exited
    exact ⟨exited, .inr thread⟩
  | _ =>
    rw [thread] at exited
    cases exited

/-! ### The steps -/

/-- A step of the thread while it runs: it loads the flag, drains a queue, or writes what it took. -/
inductive RunStep (tsc : α → Nat) (numQueues : Nat) (l : AsyncDrainLoop α capacity) : AsyncDrainLoop α capacity → Prop
  | check (thread : l.thread = .checking) : RunStep tsc numQueues l { l with thread := .draining l.stop 0 fun _ => [] }
  | take {final : Bool} {next : Nat} {batches : Nat → List α} (thread : l.thread = .draining final next batches)
    (more : next < numQueues) : RunStep tsc numQueues l { l with
      queues := update l.queues next ((l.queues next).drain kDrainBatch).2
      thread := .draining final (next + 1) (update batches next ((l.queues next).drain kDrainBatch).1) }
  | write {final : Bool} {next : Nat} {batches : Nat → List α} {written : List (Nat × α)}
    (thread : l.thread = .draining final next batches) (all : numQueues ≤ next)
    (wrote : writeBatches tsc numQueues batches = some written) : RunStep tsc numQueues l { l with
      thread := if final then .exited else .checking, written := l.written ++ written }

/-- What the moves do; a thread that does not run stays where it is. -/
inductive Moved (tsc : α → Nat) (numQueues : Nat) (l : AsyncDrainLoop α capacity) : DrainMove α →
    AsyncDrainLoop α capacity → Prop
  | push (q : Nat) (entry : α) :
    Moved tsc numQueues l (.push q entry) { l with queues := update l.queues q ((l.queues q).tryPush entry).2 }
  | start (thread : l.thread = .unstarted) : Moved tsc numQueues l .start { l with thread := .checking }
  | stop : Moved tsc numQueues l .stop { l with stop := true }
  | idle (thread : l.thread = .unstarted ∨ l.thread = .exited) : Moved tsc numQueues l .thread l
  | runs {l' : AsyncDrainLoop α capacity} (steps : RunStep tsc numQueues l l') : Moved tsc numQueues l .thread l'

theorem moved_of_step (stepped : l.step tsc numQueues move = some l') : Moved tsc numQueues l move l' := by
  cases move with
  | push q entry =>
    cases stepped
    exact .push q entry
  | start =>
    unfold step at stepped
    cases thread : l.thread with
    | unstarted =>
      rw [thread] at stepped
      cases stepped
      exact .start thread
    | _ =>
      rw [thread] at stepped
      cases stepped
  | stop =>
    cases stepped
    exact .stop
  | thread =>
    change l.runStep tsc numQueues = some l' at stepped
    unfold runStep at stepped
    cases thread : l.thread with
    | unstarted =>
      rw [thread] at stepped
      cases stepped
      exact .idle (.inl thread)
    | checking =>
      rw [thread] at stepped
      cases stepped
      exact .runs (.check thread)
    | draining final next batches =>
      rw [thread] at stepped
      dsimp only at stepped
      split at stepped
      case isTrue more =>
        cases stepped
        exact .runs (.take thread more)
      case isFalse all =>
        obtain ⟨written, wrote, stepped⟩ := bind_eq_some_iff.mp stepped
        cases stepped
        exact .runs (.write thread (Nat.not_lt.mp all) wrote)
    | exited =>
      rw [thread] at stepped
      cases stepped
      exact .idle (.inr thread)

/-! ### What is under way -/

def inHand (thread : DrainPhase α) (q : Nat) : List α :=
  match thread with
  | .draining _ _ batches => batches q
  | _ => []

def Ahead (numQueues : Nat) (thread : DrainPhase α) : Prop :=
  match thread with
  | .draining _ next batches => ∀ q, min next numQueues ≤ q → batches q = []
  | _ => True

structure Conserves (tsc : α → Nat) (numQueues : Nat) (l : AsyncDrainLoop α capacity) : Prop where
  lanes : ∀ q < numQueues,
    (l.written.filter fun x => x.1 = q).map Prod.snd ++ inHand l.thread q ++ (l.queues q).items = (l.queues q).pushed
  stamped : ∀ q < numQueues, ∀ entry ∈ (l.queues q).pushed, tsc entry < kNoTimestamp
  ahead : Ahead numQueues l.thread

theorem conserves_new : Conserves tsc numQueues (new : AsyncDrainLoop α capacity) :=
  ⟨fun _ _ => rfl, fun _ _ _ member => (nomatch member), trivial⟩

variable {next : Nat}

section

variable (conserves : Conserves tsc numQueues l)
include conserves

theorem Conserves.push {q : Nat} {entry : α} (early : q < numQueues → tsc entry < kNoTimestamp) :
    Conserves tsc numQueues { l with queues := update l.queues q ((l.queues q).tryPush entry).2 } := by
  obtain ⟨-, same⟩ | ⟨-, -, appended⟩ := (l.queues q).tryPush_cases entry
  · rw [same, update_eq_self]
    exact conserves
  generalize ((l.queues q).tryPush entry).2 = queue at appended
  refine ⟨fun p below => ?_, fun p below e member => ?_, conserves.ahead⟩
  · by_cases here : p = q
    · subst here
      simp only [update_self]
      rw [appended.items, appended.pushed, ← conserves.lanes p below, append_assoc _ _ [entry]]
    · simp only [update_of_ne here]
      exact conserves.lanes p below
  · by_cases here : p = q
    · subst here
      simp only [update_self] at member
      rw [appended.pushed, mem_append, mem_singleton] at member
      rcases member with old | rfl
      · exact conserves.stamped p below e old
      · exact early below
    · simp only [update_of_ne here] at member
      exact conserves.stamped p below e member

theorem Conserves.rephase {thread : DrainPhase α} (before : ∀ q, inHand l.thread q = [])
    (after : ∀ q, inHand thread q = []) (ahead : Ahead numQueues thread) :
    Conserves tsc numQueues { l with thread := thread } := by
  refine ⟨fun q below => ?_, conserves.stamped, ahead⟩
  have lanes := conserves.lanes q below
  rw [before q] at lanes
  dsimp only
  rwa [after q]

theorem Conserves.take (thread : l.thread = .draining final next batches)
    (more : next < numQueues) :
    Conserves tsc numQueues { l with
      queues := update l.queues next ((l.queues next).drain kDrainBatch).2
      thread := .draining final (next + 1) (update batches next ((l.queues next).drain kDrainBatch).1) } := by
  obtain ⟨whole, -, pushed⟩ := (l.queues next).drain_items kDrainBatch
  generalize (l.queues next).drain kDrainBatch = drained at whole pushed
  obtain ⟨lanes, stamped, ahead⟩ := conserves
  rw [thread] at lanes ahead
  refine ⟨fun q below => ?_, fun q below entry member => ?_, fun q far => ?_⟩
  · have lane := lanes q below
    by_cases here : q = next
    · subst here
      simp only [inHand, update_self] at lane ⊢
      rw [ahead q (Nat.min_le_left _ _), append_nil] at lane
      rw [append_assoc, whole, pushed]
      exact lane
    · simp only [inHand, update_of_ne here] at lane ⊢
      exact lane
  · by_cases here : q = next
    · subst here
      simp only [update_self, pushed] at member
      exact stamped q below entry member
    · simp only [update_of_ne here] at member
      exact stamped q below entry member
  · rw [update_of_ne (by omega)]
    exact ahead q (by omega)

end

section

variable (few : numQueues ≤ kMaxQueues) (conserves : Conserves tsc numQueues l)
include few conserves

/-- When every queue has been drained, the call can write the merge of what was taken. -/
theorem Conserves.writes
    (thread : l.thread = .draining final next batches) (all : numQueues ≤ next) :
    ∃ written, writeBatches tsc numQueues batches = some written ∧ Merged tsc batches written := by
  obtain ⟨lanes, stamped, ahead⟩ := conserves
  rw [thread] at lanes ahead
  have outside : ∀ q, numQueues ≤ q → batches q = [] := fun q far => ahead q (by omega)
  refine writeBatches_merges few (fun q entry member => ?_) outside
  by_cases below : q < numQueues
  · refine stamped q below entry ?_
    rw [← lanes q below]
    exact mem_append_left _ (mem_append_right _ member)
  · rw [outside q (Nat.not_lt.mp below)] at member
    cases member

theorem Conserves.runStep (steps : RunStep tsc numQueues l l') : Conserves tsc numQueues l' := by
  cases steps with
  | check thread => exact conserves.rephase (fun q => congrArg (inHand · q) thread) (fun _ => rfl) fun _ _ => rfl
  | take thread more => exact conserves.take thread more
  | @write final next batches written thread all wrote =>
    obtain ⟨written', wrote', merged⟩ := conserves.writes few thread all
    obtain rfl := mem_unique wrote wrote'
    refine ⟨fun q below => ?_, conserves.stamped, by cases final <;> trivial⟩
    have done : inHand (if final then .exited else .checking : DrainPhase α) q = [] := by cases final <;> rfl
    have lane := conserves.lanes q below
    rw [thread] at lane
    dsimp only
    rw [done, append_nil, filter_append, map_append, merged.lane q]
    exact lane

theorem Conserves.step
    (batch : FinalBatch tsc numQueues l move) (stepped : l.step tsc numQueues move = some l') :
    Conserves tsc numQueues l' := by
  cases moved_of_step stepped with
  | push q entry => exact conserves.push fun below => (batch below).2
  | start thread => exact conserves.rephase (fun q => congrArg (inHand · q) thread) (fun _ => rfl) trivial
  | stop => exact { conserves with }
  | idle => exact conserves
  | runs steps => exact conserves.runStep few steps

end

/-! ### The final call -/

/-- What the phase of the thread says about the queues: the final call has emptied those it has drained. -/
def InPhase (numQueues : Nat) (l : AsyncDrainLoop α capacity) : Prop :=
  match l.thread with
  | .unstarted => l.stop = true → ∀ q < numQueues, (l.queues q).items = []
  | .checking => True
  | .draining final next _ => final = true →
    l.stop = true ∧ ∀ q < numQueues, (l.queues q).items.length ≤ if next ≤ q then kDrainBatch else 0
  | .exited => l.stop = true ∧ ∀ q < numQueues, (l.queues q).items = []

section

variable (phase : InPhase numQueues l)
include phase

/-- What a phase says of the registered queues, it says once `stop` has been called. -/
theorem InPhase.refilled {queues : (q : Nat) → FixedSPSCQueue α (capacity q)}
    (same : l.stop = true → ∀ q < numQueues, queues q = l.queues q) :
    InPhase numQueues { l with queues := queues } := by
  unfold InPhase at phase ⊢
  cases thread : l.thread with
  | unstarted =>
    rw [thread] at phase
    intro stop q below
    dsimp only
    rw [same stop q below]
    exact phase stop q below
  | checking => trivial
  | draining final next batches =>
    rw [thread] at phase
    refine fun last => ⟨(phase last).1, fun q below => ?_⟩
    dsimp only
    rw [same (phase last).1 q below]
    exact (phase last).2 q below
  | exited =>
    rw [thread] at phase
    refine ⟨phase.1, fun q below => ?_⟩
    dsimp only
    rw [same phase.1 q below]
    exact phase.2 q below

theorem InPhase.stop (batch : FinalBatch tsc numQueues l .stop) : InPhase numQueues { l with stop := true } := by
  unfold InPhase at phase ⊢
  unfold FinalBatch at batch
  cases thread : l.thread with
  | unstarted =>
    rw [thread] at batch
    exact fun _ => batch
  | checking => trivial
  | draining final next batches =>
    rw [thread] at phase
    exact fun last => ⟨rfl, (phase last).2⟩
  | exited =>
    rw [thread] at phase
    exact ⟨rfl, phase.2⟩

theorem InPhase.take {batches' : Nat → List α}
    (thread : l.thread = .draining final next batches) : InPhase numQueues { l with
      queues := update l.queues next ((l.queues next).drain kDrainBatch).2
      thread := .draining final (next + 1) batches' } := by
  unfold InPhase at phase
  rw [thread] at phase
  refine fun last => ⟨(phase last).1, fun q below => ?_⟩
  have bound := (phase last).2 q below
  by_cases here : q = next
  · subst here
    rw [if_pos (Nat.le_refl q)] at bound
    simp only [update_self]
    rw [drain_left, drop_eq_nil_of_le bound, if_neg (by omega), length_nil]
  · simp only [update_of_ne here]
    refine Nat.le_trans bound (Nat.le_of_eq ?_)
    split <;> split <;> first | rfl | omega

theorem InPhase.write (thread : l.thread = .draining final next batches)
    (all : numQueues ≤ next) (written : List (Nat × α)) :
    InPhase numQueues { l with thread := if final then .exited else .checking, written := written } := by
  unfold InPhase at phase
  rw [thread] at phase
  cases final with
  | false => trivial
  | true =>
    refine ⟨(phase rfl).1, fun q below => eq_nil_of_length_eq_zero (Nat.le_zero.mp ?_)⟩
    have bound := (phase rfl).2 q below
    rwa [if_neg (by omega)] at bound

theorem InPhase.step (batch : FinalBatch tsc numQueues l move) (stepped : l.step tsc numQueues move = some l') :
    InPhase numQueues l' := by
  cases moved_of_step stepped with
  | push q entry =>
    refine phase.refilled fun stop other below => ?_
    refine update_of_ne ?_ _ _
    rintro rfl
    rw [(batch below).1] at stop
    cases stop
  | start => trivial
  | stop => exact phase.stop batch
  | idle => exact phase
  | runs steps =>
    cases steps with
    | check thread =>
      unfold FinalBatch at batch
      rw [thread] at batch
      exact fun stop => ⟨stop, fun q below => le_trans (batch stop q below)
        (Nat.le_of_eq (if_pos (Nat.zero_le q)).symm)⟩
    | take thread => exact phase.take thread
    | write thread all => exact phase.write thread all _

end

/-! ### The end of the thread -/

def stepsLeft (numQueues : Nat) : DrainPhase α → Nat
  | .checking => numQueues + 2
  | .draining final next _ => numQueues - next + 1 + if final then 0 else numQueues + 2
  | _ => 0

section

variable (few : numQueues ≤ kMaxQueues) (conserves : Conserves tsc numQueues l) (stop : l.stop = true)
include few conserves stop

theorem runStep_advances
    (left : stepsLeft numQueues l.thread ≠ 0) :
    ∃ l', l.step tsc numQueues .thread = some l' ∧ RunStep tsc numQueues l l' ∧ l'.stop = true ∧
      stepsLeft numQueues l'.thread < stepsLeft numQueues l.thread := by
  unfold AsyncDrainLoop.step AsyncDrainLoop.runStep
  cases thread : l.thread with
  | unstarted =>
    rw [thread] at left
    exact absurd rfl left
  | exited =>
    rw [thread] at left
    exact absurd rfl left
  | checking =>
    refine ⟨_, rfl, .check thread, stop, ?_⟩
    simp only [stop, stepsLeft, if_true]
    omega
  | draining final next batches =>
    dsimp only
    by_cases more : next < numQueues
    · rw [if_pos more]
      refine ⟨_, rfl, .take thread more, stop, ?_⟩
      simp only [stepsLeft]
      omega
    · obtain ⟨written, wrote, -⟩ := conserves.writes few thread (Nat.not_lt.mp more)
      rw [if_neg more, wrote]
      refine ⟨_, rfl, .write thread (Nat.not_lt.mp more) wrote, stop, ?_⟩
      cases final
      · simp only [stepsLeft, Bool.false_eq_true, if_false]
        omega
      · simp only [stepsLeft, if_true]
        omega

/-- Once the flag is set, the thread ends after finitely many of its own steps, and none of them faults. -/
theorem stop_returns : ∃ n l', run (step tsc numQueues) (replicate n .thread) l = some l' ∧ l'.StopReturned := by
  generalize size : stepsLeft numQueues l.thread = left
  induction left using Nat.strong_induction_on generalizing l with
  | _ left ih =>
    subst size
    by_cases done : stepsLeft numQueues l.thread = 0
    · refine ⟨0, l, rfl, stop, ?_⟩
      unfold stepsLeft at done
      cases thread : l.thread with
      | unstarted => exact .inl rfl
      | exited => exact .inr rfl
      | _ =>
        rw [thread] at done
        dsimp only at done
        omega
    · obtain ⟨l₁, stepped, steps, stop, less⟩ := runStep_advances few conserves stop done
      obtain ⟨n, l', ran, returned⟩ := ih _ less (conserves.runStep few steps) stop rfl
      exact ⟨n + 1, l', run_cons stepped ran, returned⟩

end

theorem losesNothing (conserves : Conserves tsc numQueues l) (phase : InPhase numQueues l) (returned : l.StopReturned) :
    l.LosesNothing numQueues := by
  intro q below
  have lane := conserves.lanes q below
  unfold InPhase at phase
  have empty : (l.queues q).items = [] := by
    rcases returned.2 with thread | thread <;> rw [thread] at phase
    · exact phase returned.1 q below
    · exact phase.2 q below
  have idle : inHand l.thread q = [] := by rcases returned.2 with thread | thread <;> rw [thread] <;> rfl
  rw [empty, idle, append_nil, append_nil] at lane
  exact ⟨empty, lane⟩

/-- If the thread finds at most a batch in every queue when it sees the flag, then nothing is lost when `stop` returns,
and `stop` does return. -/
theorem run_losesNothing (few : numQueues ≤ kMaxQueues) {moves : List (DrainMove α)}
    (batch : Along (step tsc numQueues) (FinalBatch tsc numQueues) moves (new : AsyncDrainLoop α capacity))
    (ran : run (step tsc numQueues) moves new = some l) :
    (l.StopReturned → l.LosesNothing numQueues) ∧
      (l.stop = true → ∃ n l', run (step tsc numQueues) (replicate n .thread) l = some l' ∧ l'.StopReturned) := by
  have step : ∀ {l : AsyncDrainLoop α capacity} {move l'}, Conserves tsc numQueues l ∧ InPhase numQueues l →
      FinalBatch tsc numQueues l move → step tsc numQueues l move = some l' →
      Conserves tsc numQueues l' ∧ InPhase numQueues l' :=
    fun both batch stepped => ⟨both.1.step few batch stepped, both.2.step batch stepped⟩
  have initial : InPhase numQueues (new : AsyncDrainLoop α capacity) := by rintro ⟨⟩
  have ⟨conserves, phase⟩ := run_invariant step ⟨conserves_new, initial⟩ batch ran
  exact ⟨losesNothing conserves phase, stop_returns few conserves⟩

def drainMoves : List (DrainMove Nat) :=
  [.start, .push 0 7, .thread, .thread, .thread, .push 0 8, .stop, .thread, .thread, .thread]

theorem run_losesNothing_two :
    ∃ l : AsyncDrainLoop Nat fun _ => 4, run (step id 1) drainMoves new = some l ∧ l.LosesNothing 1 := by
  have batch : Along (step id 1) (FinalBatch id 1) drainMoves (new : AsyncDrainLoop Nat fun _ => 4) := by decide +kernel
  have ended : (run (step id 1) drainMoves (new : AsyncDrainLoop Nat fun _ => 4)).any hasExited = true := by
    decide +kernel
  obtain ⟨l, ran, exited⟩ := (Option.any_eq_true _ _).mp ended
  exact ⟨l, ran, (run_losesNothing (by decide) batch ran).1 (stopReturned_of_hasExited exited)⟩

/-! ### More than a batch -/

theorem run_pushes (tsc : α → Nat) (numQueues : Nat) (n q : Nat) (entry : α) (running : l.stop = false)
    (room : (l.queues q).items.length + n ≤ capacity q) :
    Along (step tsc numQueues) StopsLast (replicate n (.push q entry)) l ∧
      ∃ queue, FixedSPSCQueue.Appended (l.queues q) queue (replicate n entry) ∧
        run (step tsc numQueues) (replicate n (.push q entry)) l =
          some { l with queues := update l.queues q queue } := by
  induction n generalizing l with
  | zero => exact ⟨trivial, l.queues q, FixedSPSCQueue.appended_nil _, by rw [update_eq_self]; rfl⟩
  | succ n ih =>
    obtain ⟨full, -⟩ | ⟨-, -, appended⟩ := (l.queues q).tryPush_cases entry
    · omega
    have more := appended.items
    have first : l.step tsc numQueues (.push q entry) =
        some { l with queues := update l.queues q ((l.queues q).tryPush entry).2 } := rfl
    generalize ((l.queues q).tryPush entry).2 = next at appended more first
    have fits : (update l.queues q next q).items.length + n ≤ capacity q := by
      rw [update_self, more, length_append, length_singleton]
      omega
    obtain ⟨along, queue, rest, ran⟩ := @ih { l with queues := update l.queues q next } running fits
    simp only [update_self, update_idem] at rest ran
    refine ⟨⟨running, fun l₁ stepped => ?_⟩, queue, appended.trans rest, run_cons first ran⟩
    obtain rfl := mem_unique first stepped
    exact along

/-- The whole life of a thread that is stopped before its first step: it drains its queue once. -/
theorem run_stopped {l : AsyncDrainLoop Nat fun _ => 256} (thread : l.thread = .unstarted)
    (zeros : ∀ entry ∈ (l.queues 0).items, entry = 0) :
    ∃ written, run (step id 1) [.start, .stop, .thread, .thread, .thread] l = some { l with
      queues := update l.queues 0 ((l.queues 0).drain kDrainBatch).2, stop := true, thread := .exited,
        written := written } := by
  have taken := ((l.queues 0).drain_items kDrainBatch).2.1
  have stamped : ∀ q, ∀ entry ∈ update (fun _ => []) 0 ((l.queues 0).drain kDrainBatch).1 q, id entry <
      kNoTimestamp := by
    intro q entry member
    by_cases here : q = 0
    · rw [here, update_self, taken] at member
      rw [zeros entry (mem_of_mem_take member)]
      decide
    · rw [update_of_ne here] at member
      cases member
  have outside : ∀ q, 1 ≤ q → update (fun _ => []) 0 ((l.queues 0).drain kDrainBatch).1 q = [] :=
    fun q far => update_of_ne (by omega) _ _
  obtain ⟨written, wrote, -⟩ := writeBatches_merges (by decide) stamped outside
  refine ⟨l.written ++ written, ?_⟩
  simp only [run, step, thread, runStep, bind_eq_bind, bind_some, Nat.zero_lt_one, if_true, Nat.zero_add,
    Nat.lt_irrefl, if_false, wrote, Option.pure_def]

/-- The final call takes only one batch: of 129 entries of a queue that holds 256, one stays. -/
theorem run_not_losesNothing :
    ¬ ∀ (moves : List (DrainMove Nat)) (l : AsyncDrainLoop Nat fun _ => 256),
      Along (step id 1) StopsLast moves (new : AsyncDrainLoop Nat fun _ => 256) →
      run (step id 1) moves new = some l → l.StopReturned → l.LosesNothing 1 := by
  intro always
  obtain ⟨along, queue, appended, pushed⟩ := @run_pushes Nat (fun _ => 256) new id 1 129 0 0 rfl (by decide)
  have items : queue.items = replicate 129 0 := appended.items
  obtain ⟨written, ended⟩ := @run_stopped { new with queues := update new.queues 0 queue } rfl (by
    intro entry member
    simp only [update_self, items] at member
    exact eq_of_mem_replicate member)
  have last : Along (step id 1) StopsLast (replicate 129 (.push 0 0) ++ [.start, .stop, .thread, .thread, .thread])
      (new : AsyncDrainLoop Nat fun _ => 256) := by
    refine along_append along fun l₁ _ => along_of_forall fun l move member => ?_
    simp only [mem_cons, not_mem_nil, or_false] at member
    rcases member with rfl | rfl | rfl | rfl | rfl <;> trivial
  have empty := (always _ _ last (run_append pushed ended) ⟨rfl, .inr rfl⟩ 0 (by decide)).1
  simp only [update_self, drain_left, items] at empty
  exact absurd empty (by decide)

end AsyncDrainLoop

end TickToTrade.Sys
