import TickToTrade.Basic
import TickToTrade.Lib.Transition

/-!
The threads of `LockFreeStack` (`sys/memory/lock_free_stack.hpp`), the free list of `ConcurrentObjectPool`;
`IntrusiveLockFreeStack` has the same steps. A step is one load, store or compare-exchange of `head_` or of
the `next` field of a node.
-/

namespace TickToTrade.Sys
open List Option Function

structure TaggedPtr where
  ptr : Option Nat
  tag : Nat
  deriving DecidableEq

/-- Where a thread is in `push` or `try_pop`; `old` is its `old_head`. -/
inductive StackPhase where
  | idle
  | pushLoad (node : Nat)
  | pushStore (node : Nat) (old : TaggedPtr)
  | pushCas (node : Nat) (old : TaggedPtr)
  | popLoad
  | popRead (old : TaggedPtr)
  | popCas (node tag : Nat) (next : Option Nat)
  deriving DecidableEq

inductive StackEvent where
  | pushed (thread node : Nat)
  | popped (thread node : Nat)
  | empty (thread : Nat)
  deriving DecidableEq

namespace StackEvent

def thread : StackEvent → Nat
  | .pushed t _ => t
  | .popped t _ => t
  | .empty t => t

/-- A compare-exchange succeeded. -/
def exchanges : StackEvent → Bool
  | .empty _ => false
  | _ => true

/-- The stack that the class stands for. -/
def lifo : List Nat → StackEvent → Option (List Nat)
  | stack, .pushed _ n => some (n :: stack)
  | stack, .popped _ n => if stack.head? = some n then some stack.tail else none
  | stack, .empty _ => if stack = [] then some [] else none

end StackEvent

/-- The event of a call that has not returned: `try_pop` has read a null head. -/
def StackPhase.unreturned (t : Nat) : StackPhase → List StackEvent
  | .popRead old => if old.ptr = none then [.empty t] else []
  | _ => []

/-- `held` are the nodes outside of the stack with the thread they belong to, `log` has each operation where it
takes effect and `returned` what the calls of a thread have returned. -/
structure LockFreeStack where
  head : TaggedPtr := ⟨none, 0⟩
  next : Nat → Option Nat := fun _ => none
  phase : Nat → StackPhase := fun _ => .idle
  held : List (Nat × Nat)
  log : List StackEvent := []
  returned : Nat → List StackEvent := fun _ => []

inductive StackOp where
  | push (t node : Nat)
  | tryPop (t : Nat)
  | advance (t : Nat) (spurious : Bool)

namespace LockFreeStack

/-- Thread `t` goes on to `p`; the events `took` take effect and `done` are returned. -/
def go (s : LockFreeStack) (t : Nat) (p : StackPhase) (took done : List StackEvent) : LockFreeStack :=
  { s with phase := update s.phase t p, log := s.log ++ took, returned := update s.returned t (s.returned t ++ done) }

def move (s : LockFreeStack) (t : Nat) (p : StackPhase) : LockFreeStack := s.go t p [] []

/-- `old_head` of `try_pop` becomes what `head_` holds. -/
def observe (s : LockFreeStack) (t : Nat) : LockFreeStack :=
  s.go t (.popRead s.head) ((StackPhase.popRead s.head).unreturned t) []

/-- `compare_exchange_weak` may fail although the values agree. -/
def advance (s : LockFreeStack) (t : Nat) (spurious : Bool) : Option LockFreeStack :=
  match s.phase t with
  | .idle => none
  | .pushLoad n => some (s.move t (.pushStore n s.head))
  | .pushStore n old => some { s.move t (.pushCas n old) with next := update s.next n old.ptr }
  | .pushCas n old =>
    if s.head = old ∧ spurious = false then
      some { s.go t .idle [.pushed t n] [.pushed t n] with
        head := ⟨some n, (old.tag + 1) % 2 ^ 64⟩
        held := s.held.erase (t, n) }
    else some (s.move t (.pushStore n s.head))
  | .popLoad => some (s.observe t)
  | .popRead ⟨none, _⟩ => some (s.go t .idle [] [.empty t])
  | .popRead ⟨some n, tag⟩ => some (s.move t (.popCas n tag (s.next n)))
  | .popCas n tag next =>
    if s.head = ⟨some n, tag⟩ ∧ spurious = false then
      some { s.go t .idle [.popped t n] [.popped t n] with
        head := ⟨next, (tag + 1) % 2 ^ 64⟩
        held := (t, n) :: s.held }
    else some (s.observe t)

/-- A thread begins a call only after its last one, and pushes only a node that belongs to it. -/
def step (s : LockFreeStack) : StackOp → Option LockFreeStack
  | .push t n => if s.phase t = .idle ∧ (t, n) ∈ s.held then some (s.move t (.pushLoad n)) else none
  | .tryPop t => if s.phase t = .idle then some (s.move t .popLoad) else none
  | .advance t spurious => s.advance t spurious

def run : List StackOp → LockFreeStack → Option LockFreeStack := Transition.run step

def successes (s : LockFreeStack) : Nat := s.log.countP StackEvent.exchanges

def nodes (s : LockFreeStack) : List Nat := s.held.map Prod.snd

/-- The nodes from `p` along the `next` fields are `chain`. -/
def Links (next : Nat → Option Nat) : Option Nat → List Nat → Prop
  | p, [] => p = none
  | p, n :: rest => p = some n ∧ Links next (next n) rest

variable {s s' : LockFreeStack} {chain chain' all : List Nat} {took done : List StackEvent} {t n : Nat} {p : StackPhase}
variable {head head' : TaggedPtr} {next next' : Nat → Option Nat} {held held' : List (Nat × Nat)}

theorem Links.congr {q : Option Nat} (links : Links next q chain) (same : ∀ n ∈ chain, next' n = next n) :
    Links next' q chain := by
  induction chain generalizing q with
  | nil => exact links
  | cons n rest ih =>
    refine ⟨links.1, ?_⟩
    rw [same n mem_cons_self]
    exact ih links.2 fun m member => same m (mem_cons_of_mem n member)

theorem Links.of_some (links : Links next (some n) chain) : ∃ rest, chain = n :: rest ∧ Links next (next n) rest := by
  cases chain with
  | nil => cases links
  | cons m rest =>
    obtain ⟨same, onward⟩ := links
    cases same
    exact ⟨rest, rfl, onward⟩

/-! ### What a step keeps -/

/-- A value of `head_` that was read: as long as the tag has not moved on, it is still there. -/
def Seen (head old : TaggedPtr) : Prop := old.tag ≤ head.tag ∧ (old.tag = head.tag → old = head)

def PhaseOk (head : TaggedPtr) (next : Nat → Option Nat) (held : List (Nat × Nat)) (t : Nat) : StackPhase → Prop
  | .idle | .popLoad => True
  | .pushLoad n | .pushStore n _ => (t, n) ∈ held
  | .pushCas n old => (t, n) ∈ held ∧ next n = old.ptr
  | .popRead old => Seen head old
  | .popCas n tag after => Seen head ⟨some n, tag⟩ ∧ (tag = head.tag → after = next n)

theorem Seen.frame {old : TaggedPtr} (seen : Seen head old) (tagged : head.tag < head'.tag ∨ head' = head) :
    Seen head' old := by
  rcases tagged with later | rfl
  · have before := seen.1
    exact ⟨by omega, fun equal => by omega⟩
  · exact seen

/-- What other threads write leaves the thread right: none of its nodes, and the first node only as the tag moves on. -/
theorem PhaseOk.frame (ok : PhaseOk head next held t p) (kept : ∀ n, (t, n) ∈ held → (t, n) ∈ held' ∧ next' n = next n)
    (tagged : head.tag < head'.tag ∨ head' = head) (first : ∀ n, head.ptr = some n → next' n = next n) :
    PhaseOk head' next' held' t p := by
  cases p with
  | idle | popLoad => trivial
  | pushLoad n | pushStore n _ => exact (kept n ok).1
  | pushCas n old => exact ⟨(kept n ok.1).1, (kept n ok.1).2.trans ok.2⟩
  | popRead old => exact Seen.frame ok tagged
  | popCas n tag after =>
    refine ⟨ok.1.frame tagged, fun current => ?_⟩
    rcases tagged with later | rfl
    · have before : tag ≤ head.tag := ok.1.1
      omega
    · rw [first n (by rw [← ok.1.2 current]), ok.2 current]

/-- The chain of the stack and the nodes outside of it are the nodes `all` of the beginning. -/
structure Inv (all : List Nat) (s : LockFreeStack) (chain : List Nat) : Prop where
  links : Links s.next s.head.ptr chain
  nodup : all.Nodup
  nodes : (chain ++ s.nodes).Perm all
  tag : s.head.tag = s.successes
  phases : ∀ t, PhaseOk s.head s.next s.held t (s.phase t)
  replay : s.log.foldlM StackEvent.lifo [] = some chain
  results : ∀ t, s.returned t ++ (s.phase t).unreturned t = s.log.filter (·.thread = t)

section

variable (inv : Inv all s chain)
include inv

theorem Inv.parts : chain.Nodup ∧ s.nodes.Nodup ∧ chain.Disjoint s.nodes :=
  nodup_append'.mp (inv.nodes.nodup_iff.mpr inv.nodup)

theorem Inv.apart (mine : (t, n) ∈ s.held) : n ∉ chain := fun linked => inv.parts.2.2 linked (List.mem_map_of_mem mine)

theorem Inv.exclusive {t' : Nat} (mine : (t, n) ∈ s.held) (other : (t', n) ∈ s.held) : t = t' :=
  congrArg Prod.fst (inj_on_of_nodup_map inv.parts.2.1 mine other rfl)

/-- A step of thread `t`: it writes `next` only in a node of its own, and what it does to the chain is what its
events do to the stack. -/
theorem Inv.go (kept : ∀ t' ≠ t, ∀ n, (t', n) ∈ s.held → (t', n) ∈ held)
    (own : ∀ n, (t, n) ∉ s.held → next n = s.next n)
    (tagged : s.head.tag < head.tag ∨ head = s.head) (ok : PhaseOk head next held t p)
    (links : Links next head.ptr chain')
    (nodes : (chain' ++ held.map Prod.snd).Perm (chain ++ s.nodes)) (mine : ∀ e ∈ took, e.thread = t)
    (returns : done ++ p.unreturned t = (s.phase t).unreturned t ++ took)
    (replay : took.foldlM StackEvent.lifo chain = some chain')
    (tag : head.tag = s.head.tag + took.countP StackEvent.exchanges) :
    Inv all { s.go t p took done with head, next, held } chain' := by
  refine ⟨links, inv.nodup, nodes.trans inv.nodes, ?_, fun t' => ?_, ?_, fun t' => ?_⟩
  · rw [tag, inv.tag]
    exact (countP_append ..).symm
  · by_cases here : t' = t
    · subst here
      simpa [LockFreeStack.go] using ok
    · simp only [LockFreeStack.go, update_of_ne here]
      refine (inv.phases t').frame (fun n owned => ⟨kept t' here n owned, ?_⟩) tagged fun n first => ?_
      · exact own n fun mine => here (inv.exclusive owned mine)
      · obtain ⟨rest, rfl, _⟩ := (first ▸ inv.links).of_some
        exact own n fun mine => inv.apart mine mem_cons_self
  · simp [LockFreeStack.go, foldlM_append, inv.replay, replay]
  · simp only [LockFreeStack.go, filter_append, ← inv.results t']
    by_cases here : t' = t
    · subst here
      have all : took.filter (·.thread = t') = took := filter_eq_self.mpr fun e member =>
        decide_eq_true (mine e member)
      rw [update_self, update_self, all, append_assoc, returns, append_assoc]
    · have none : took.filter (·.thread = t') = [] :=
        filter_eq_nil_iff.mpr fun e member => by simpa [mine e member] using Ne.symm here
      rw [update_of_ne here, update_of_ne here, none, append_nil]

theorem Inv.move (ok : PhaseOk s.head s.next s.held t p) (returns : done ++ p.unreturned t = (s.phase t).unreturned t) :
    Inv all (s.go t p [] done) chain :=
  inv.go (fun _ _ _ => id) (fun _ _ => rfl) (.inr rfl) ok inv.links .rfl (forall_mem_nil _)
    (by simp [returns]) rfl rfl

/-- A null head is the effect of the call where it is read: the chain is empty there. -/
theorem Inv.observe (before : (s.phase t).unreturned t = []) : Inv all (s.observe t) chain := by
  have seen : Seen s.head s.head := ⟨Nat.le_refl _, fun _ => rfl⟩
  have links := inv.links
  cases chain <;> simp only [Links] at links
  all_goals
    refine inv.go (fun _ _ _ => id) (fun _ _ => rfl) (.inr rfl) seen inv.links .rfl ?_ (by simp [before]) ?_ ?_ <;>
      simp [StackPhase.unreturned, links, StackEvent.thread, StackEvent.lifo, StackEvent.exchanges]

theorem Inv.advance {spurious : Bool} (few : s'.successes < 2 ^ 64) (stepped : s.advance t spurious = some s') :
    ∃ chain', Inv all s' chain' := by
  have ok := inv.phases t
  have before : ∀ {q}, s.phase t = q → q.unreturned t = [] → (s.phase t).unreturned t = [] :=
    fun here none => here ▸ none
  have tagged : ∀ {old e}, s.head = old → e.exchanges → (s.log ++ [e]).countP StackEvent.exchanges < 2 ^ 64 →
      (old.tag + 1) % 2 ^ 64 = s.head.tag + 1 := by
    rintro old e rfl exchanged more
    rw [countP_append, countP_singleton, if_pos exchanged] at more
    rw [inv.tag]
    exact Nat.mod_eq_of_lt more
  unfold LockFreeStack.advance at stepped
  split at stepped <;> rename_i phase <;> rw [phase] at ok <;> try cases stepped
  case h_2 => exact ⟨chain, inv.move ok (before phase rfl).symm⟩
  case h_3 =>
    -- The node is not in the chain, so no link of the chain changes.
    refine ⟨chain, inv.go (fun _ _ _ => id) (fun m foreign => update_of_ne ?_ ..) (.inr rfl) ⟨ok, update_self ..⟩
      (inv.links.congr fun m linked => update_of_ne ?_ ..) .rfl (forall_mem_nil _) (by rw [phase]; rfl) rfl rfl⟩
    · rintro rfl
      exact foreign ok
    · rintro rfl
      exact inv.apart ok linked
  case h_4 n old =>
    split at stepped <;> rename_i won <;> cases stepped
    · have next := tagged won.1 rfl few
      refine ⟨n :: chain, inv.go ?_ (fun _ _ => rfl) (.inl (by simp only [next]; omega)) trivial ⟨rfl, ?_⟩ ?_
        (by simp [StackEvent.thread]) (by rw [before phase rfl]; rfl) rfl next⟩
      · exact fun t' other m owned => (mem_erase_of_ne (by simp [other])).mpr owned
      · show Links s.next (s.next n) chain
        rw [ok.2, ← won.1]
        exact inv.links
      · have split := (perm_cons_erase ok.1).map Prod.snd
        exact perm_middle.symm.trans (split.symm.append_left chain)
    · exact ⟨chain, inv.move ok.1 (before phase rfl).symm⟩
  case h_5 => exact ⟨chain, inv.observe (before phase rfl)⟩
  case h_6 => exact ⟨chain, inv.move trivial (by rw [phase]; rfl)⟩
  case h_7 => exact ⟨chain, inv.move ⟨ok, fun _ => rfl⟩ (before phase rfl).symm⟩
  case h_8 n tag after =>
    split at stepped <;> rename_i won <;> cases stepped
    · have next : (tag + 1) % 2 ^ 64 = _ := tagged won.1 rfl few
      have links := inv.links
      rw [won.1] at links
      obtain ⟨rest, rfl, onward⟩ := links.of_some
      -- The tag has not moved since `after` was read, so it is still the next node.
      have current : after = s.next n := ok.2 (by rw [won.1])
      exact ⟨rest, inv.go (fun t' _ m => mem_cons_of_mem _) (fun _ _ => rfl)
        (.inl (by simp only [next]; omega)) trivial
        (current ▸ onward) perm_middle (by simp [StackEvent.thread]) (by rw [before phase rfl]; rfl)
        (by simp [StackEvent.lifo]) next⟩
    · exact ⟨chain, inv.observe (before phase rfl)⟩

theorem Inv.step {op : StackOp} (few : s'.successes < 2 ^ 64) (stepped : s.step op = some s') :
    ∃ chain', Inv all s' chain' := by
  cases op with
  | push t n =>
    obtain ⟨⟨idle, mine⟩, begun⟩ := ite_none_right_eq_some.mp stepped
    cases begun
    exact ⟨chain, inv.move mine (by rw [idle]; rfl)⟩
  | tryPop t =>
    obtain ⟨idle, begun⟩ := ite_none_right_eq_some.mp stepped
    cases begun
    exact ⟨chain, inv.move trivial (by rw [idle]; rfl)⟩
  | advance t spurious => exact inv.advance few stepped

end

/-! ### Every interleaving -/

theorem inv_start (distinct : (held.map Prod.snd).Nodup) : Inv (held.map Prod.snd) { held, next } [] :=
  ⟨rfl, distinct, .rfl, rfl, fun _ => trivial, rfl, fun _ => rfl⟩

theorem step_successes {op : StackOp} (stepped : s.step op = some s') : s.successes ≤ s'.successes := by
  have grows : s.log <+: s'.log := by
    unfold step LockFreeStack.advance at stepped
    repeat' split at stepped
    all_goals
      cases stepped
      try exact prefix_append ..
  exact grows.sublist.countP_le

/-- Thread 0 has read that node 1 comes after node 2; before its compare-exchange, thread 1 pops both nodes
and pushes node 2 again. -/
def reused : Option LockFreeStack :=
  let goOn (t n : Nat) : List StackOp := replicate n (.advance t false)
  run (.push 0 1 :: goOn 0 3 ++ .push 0 2 :: goOn 0 3 ++ .tryPop 0 :: goOn 0 2 ++ .tryPop 1 :: goOn 1 3 ++
    .tryPop 1 :: goOn 1 3 ++ .push 1 2 :: goOn 1 3 ++ goOn 0 3) { held := [(0, 1), (0, 2)] }

theorem reused_some : ∃ s, reused = some s ∧ s.successes = 6 ∧
    s.returned 0 = [.pushed 0 1, .pushed 0 2, .popped 0 2] := by
  decide +kernel

variable {ops : List StackOp}

theorem run_inv (distinct : (held.map Prod.snd).Nodup) (ran : run ops { held, next } = some s)
    (few : s.successes < 2 ^ 64) : ∃ chain, Inv (held.map Prod.snd) s chain := by
  refine Transition.run_keeps (fun s => s.successes < 2 ^ 64 → ∃ chain, Inv (held.map Prod.snd) s chain) ?_
    (fun _ => ⟨[], inv_start distinct⟩) ran few
  intro s op s' inv stepped few
  obtain ⟨chain, inv⟩ := inv (Nat.lt_of_le_of_lt (step_successes stepped) few)
  exact inv.step few stepped

/-- No node is lost or given out twice: each one is once in the chain of the stack or belongs to one thread. -/
theorem run_accounts (distinct : (held.map Prod.snd).Nodup) (ran : run ops { held, next } = some s)
    (few : s.successes < 2 ^ 64) :
    ∃ chain, Links s.next s.head.ptr chain ∧ chain.Nodup ∧ ∀ n ∈ held.map Prod.snd,
      (n ∈ chain ∧ ∀ t, (t, n) ∉ s.held) ∨ (n ∉ chain ∧ ∃! t, (t, n) ∈ s.held) := by
  obtain ⟨chain, inv⟩ := run_inv distinct ran few
  refine ⟨chain, inv.links, inv.parts.1, fun n known => ?_⟩
  rcases mem_append.mp (inv.nodes.mem_iff.mpr known) with linked | owned
  · exact .inl ⟨linked, fun t mine => inv.apart mine linked⟩
  · obtain ⟨⟨t, m⟩, mine, rfl⟩ := List.mem_map.mp owned
    exact .inr ⟨inv.apart mine, t, mine, fun t' other => inv.exclusive other mine⟩

theorem run_accounts_reuse : ∃ s, reused = some s ∧
    ∃ chain, Links s.next s.head.ptr chain ∧ chain.Nodup ∧ ∀ n ∈ [1, 2],
      (n ∈ chain ∧ ∀ t, (t, n) ∉ s.held) ∨ (n ∉ chain ∧ ∃! t, (t, n) ∈ s.held) := by
  obtain ⟨s, ran, six, _⟩ := reused_some
  exact ⟨s, ran, run_accounts (by decide) ran (by omega)⟩

/-- The calls take effect one after the other as on a stack, and each returns what its effect was there. -/
theorem run_linearizes (distinct : (held.map Prod.snd).Nodup) (ran : run ops { held, next } = some s)
    (few : s.successes < 2 ^ 64) :
    ∃ chain, Links s.next s.head.ptr chain ∧ s.log.foldlM StackEvent.lifo [] = some chain ∧
      ∀ t, s.returned t ++ (s.phase t).unreturned t = s.log.filter (·.thread = t) := by
  obtain ⟨chain, inv⟩ := run_inv distinct ran few
  exact ⟨chain, inv.links, inv.replay, inv.results⟩

theorem run_linearizes_reuse : ∃ s, reused = some s ∧ s.returned 0 = [.pushed 0 1, .pushed 0 2, .popped 0 2] ∧
    ∃ chain, Links s.next s.head.ptr chain ∧ s.log.foldlM StackEvent.lifo [] = some chain ∧
      ∀ t, s.returned t ++ (s.phase t).unreturned t = s.log.filter (·.thread = t) := by
  obtain ⟨s, ran, six, results⟩ := reused_some
  exact ⟨s, ran, results, run_linearizes (by decide) ran (by omega)⟩

/-- At every point one chain is the stack as it is linked and as the calls that took effect left it, and it accounts
with the nodes of the threads for every node there is. -/
theorem run_loses_nothing (distinct : (held.map Prod.snd).Nodup) (ran : run ops { held, next } = some s)
    (few : s.successes < 2 ^ 64) :
    ∃ chain, Links s.next s.head.ptr chain ∧ (chain ++ s.nodes).Perm (held.map Prod.snd) ∧ chain.Nodup ∧
      (∀ n ∈ s.nodes, n ∉ chain ∧ ∃! t, (t, n) ∈ s.held) ∧ s.log.foldlM StackEvent.lifo [] = some chain ∧
      ∀ t, s.returned t ++ (s.phase t).unreturned t = s.log.filter (·.thread = t) := by
  obtain ⟨chain, inv⟩ := run_inv distinct ran few
  refine ⟨chain, inv.links, inv.nodes, inv.parts.1, fun n owned => ?_, inv.replay, inv.results⟩
  obtain ⟨⟨t, m⟩, mine, rfl⟩ := List.mem_map.mp owned
  exact ⟨inv.apart mine, t, mine, fun t' other => inv.exclusive other mine⟩

theorem run_loses_nothing_reuse : ∃ s, reused = some s ∧ s.returned 0 = [.pushed 0 1, .pushed 0 2, .popped 0 2] ∧
    ∃ chain, Links s.next s.head.ptr chain ∧ (chain ++ s.nodes).Perm [1, 2] ∧ chain.Nodup ∧
      (∀ n ∈ s.nodes, n ∉ chain ∧ ∃! t, (t, n) ∈ s.held) ∧ s.log.foldlM StackEvent.lifo [] = some chain ∧
      ∀ t, s.returned t ++ (s.phase t).unreturned t = s.log.filter (·.thread = t) := by
  obtain ⟨s, ran, six, results⟩ := reused_some
  exact ⟨s, ran, results, run_loses_nothing (by decide) ran (by omega)⟩

/-- Thread `t` ends its call within `k` steps of its own. -/
def Ends (t : Nat) : Nat → LockFreeStack → Prop
  | 0, s => s.phase t = .idle
  | k + 1, s => s.phase t = .idle ∨ (s.step (.advance t false)).elim False (Ends t k)

/-- No thread waits for another one: from any state, a thread that runs alone ends its call. -/
theorem ends_alone (s : LockFreeStack) (t : Nat) : s.Ends t 4 := by
  -- A stale `old_head` costs one exchange, which reads it again.
  cases phase : s.phase t with
  | idle => exact .inl phase
  | pushLoad n => simp [Ends, step, advance, move, go, phase]
  | pushStore n old | pushCas n old =>
    by_cases same : s.head = old <;> simp [Ends, step, advance, move, go, phase, same]
  | popLoad => rcases head : s.head with ⟨_ | m, u⟩ <;> simp [Ends, step, advance, move, go, observe, phase, head]
  | popRead old =>
    rcases old with ⟨_ | n, tag⟩
    · simp [Ends, step, advance, go, phase]
    · rcases head : s.head with ⟨_ | m, u⟩
      · simp [Ends, step, advance, move, go, observe, phase, head]
      · by_cases same : m = n ∧ u = tag <;> simp [Ends, step, advance, move, go, observe, phase, head, same]
  | popCas n tag next =>
    rcases head : s.head with ⟨_ | m, u⟩
    · simp [Ends, step, advance, go, observe, phase, head]
    · by_cases same : m = n ∧ u = tag <;> simp [Ends, step, advance, move, go, observe, phase, head, same]

end LockFreeStack

end TickToTrade.Sys
