import TickToTrade.Ds.TimingWheel
import TickToTrade.Lib.Reuse
import TickToTrade.Lib.RingIndex

/-!
The timers that a timing wheel has been given. `Accounts` connects the ledger to the nodes of the wheel,
of which some may be detached and some disarmed while `tick` walks a chain.
-/

namespace TickToTrade.Ds

open TimingWheel List Option Function

/-- A timer that `schedule` returned `handle` for, after `start` ticks. -/
structure Timer (Cb : Type) where
  handle : Nat
  cb : Cb
  ctx : Nat
  start : Nat
  delay : Nat
  /-- A call of `cancel` returned true for it. -/
  cancelled : Bool := false
  /-- The calls of its callback: the callback, the context and the number of the tick. -/
  invoked : List (Cb × Nat × Nat) := []
  deriving DecidableEq

namespace Timer

variable {Cb : Type}

def node (t : Timer Cb) : Nat := (unpackHandle t.handle).1

def gen (t : Timer Cb) : Nat := (unpackHandle t.handle).2

def due (t : Timer Cb) : Nat := t.start + t.delay

def Pending (t : Timer Cb) : Prop := t.cancelled = false ∧ t.invoked = []

def Settled (t : Timer Cb) (now : Nat) : Prop :=
  t.cancelled = true ∧ t.invoked = [] ∨ t.cancelled = false ∧ t.invoked = [(t.cb, t.ctx, t.due)] ∧ t.due ≤ now

end Timer

structure Ledger (Cb : Type) where
  /-- Calls of `tick` so far. -/
  now : Nat := 0
  timers : List (Timer Cb) := []
  /-- The timer that a node was last given to. -/
  owner : Nat → Nat := fun _ => 0

namespace Ledger

variable {Cb : Type}

def enter (l : Ledger Cb) (handle : Nat) (cb : Cb) (ctx delay : Nat) : Ledger Cb :=
  { l with
    timers := l.timers ++ [{ handle, cb, ctx, start := l.now, delay }]
    owner := update l.owner (unpackHandle handle).1 l.timers.length }

def amend (l : Ledger Cb) (idx : Nat) (f : Timer Cb → Timer Cb) : Ledger Cb :=
  { l with timers := l.timers.modify (l.owner idx) f }

def cancel (l : Ledger Cb) (idx : Nat) : Ledger Cb := l.amend idx fun t => { t with cancelled := true }

def invoke (l : Ledger Cb) (idx : Nat) (cb : Cb) (ctx : Nat) : Ledger Cb :=
  l.amend idx fun t => { t with invoked := t.invoked ++ [(cb, ctx, l.now)] }

def nodes (l : Ledger Cb) : List Nat := l.timers.map Timer.node

/-- How often node `idx` was given out before timer `s`. -/
def rank (l : Ledger Cb) (s idx : Nat) : Nat := Reuse.rank l.nodes s idx

/-- How often the node of timer `s` was given out again after it. -/
def reuses (l : Ledger Cb) (s idx : Nat) : Nat := Reuse.reuses l.nodes s idx

end Ledger

/-! ### Generations -/

/-- The generation of a node that was freed `frees` times. -/
def genAfter (frees : Nat) : Nat := frees % (2 ^ 32 - 1) + 1

theorem genAfter_succ (frees : Nat) :
    (if (genAfter frees + 1) % 2 ^ 32 = 0 then 1 else (genAfter frees + 1) % 2 ^ 32) = genAfter (frees + 1) := by
  unfold genAfter
  split <;> omega

/-- The generations of a node repeat after `2 ^ 32 - 1` uses and not before. -/
theorem genAfter_ne {a b : Nat} (less : a < b) (near : b < a + (2 ^ 32 - 1)) : genAfter a ≠ genAfter b := by
  have apart := RingIndex.position_ne less near
  unfold genAfter
  omega

theorem genAfter_bounds (frees : Nat) : 0 < genAfter frees ∧ genAfter frees < 2 ^ 32 := by
  unfold genAfter
  omega

theorem unpackHandle_packHandle {idx gen : Nat} (bound : idx < 2 ^ 32) :
    unpackHandle (packHandle idx gen) = (idx, gen) := by
  unfold unpackHandle packHandle
  refine Prod.ext ?_ ?_ <;> dsimp only <;> omega

namespace Timer

variable {Cb : Type} {t : Timer Cb}

theorem handle_eq (t : Timer Cb) : t.handle = packHandle t.node t.gen := by
  unfold packHandle node gen unpackHandle
  dsimp only
  omega

theorem Settled.not_pending {now : Nat} (settled : t.Settled now) : ¬ t.Pending := by
  rintro ⟨open_, never⟩
  rcases settled with ⟨cancelled, -⟩ | ⟨-, invoked, -⟩
  · simp [cancelled] at open_
  · simp [never] at invoked

theorem Settled.mono {now later : Nat} (settled : t.Settled now) (after : now ≤ later) : t.Settled later :=
  settled.imp_right fun ⟨kept, invoked, past⟩ => ⟨kept, invoked, Nat.le_trans past after⟩

end Timer

/-! ### The ledger and the nodes -/

variable {s : Nat}

namespace Ledger

variable {Cb : Type} {l : Ledger Cb}

theorem nodes_getElem? {t : Timer Cb} (found : l.timers[s]? = some t) : l.nodes[s]? = some t.node := by
  rw [nodes, getElem?_map, found, map_some]

@[simp] theorem amend_owner (idx : Nat) (f : Timer Cb → Timer Cb) : (l.amend idx f).owner = l.owner := rfl

theorem amend_getElem? (idx s : Nat) (f : Timer Cb → Timer Cb) :
    (l.amend idx f).timers[s]? = if l.owner idx = s then l.timers[s]?.map f else l.timers[s]? := by
  rw [amend, getElem?_modify]
  split <;> simp

theorem amend_nodes {f : Timer Cb → Timer Cb} (keeps : ∀ t, (f t).handle = t.handle) (idx : Nat) :
    (l.amend idx f).nodes = l.nodes := by
  have same : ∀ t, (f t).node = t.node := fun t => by rw [Timer.node, keeps, Timer.node]
  refine ext_getElem? fun s => ?_
  rw [nodes, nodes, getElem?_map, getElem?_map, amend_getElem?]
  split
  · rw [Option.map_map]
    congr 1
    exact funext same
  · rfl

end Ledger

structure Accounted {Cb : Type} (w : TimingWheel Cb) (l : Ledger Cb) (i : Nat) (t : Timer Cb) : Prop where
  found : l.timers[l.owner i]? = some t
  node : t.node = i
  gen : t.gen = (w.nodes i).gen
  slot : (w.nodes i).slot = t.due % w.wheelSize
  last : l.nodes.count i = l.rank (l.owner i) i + 1
  standing : ((w.nodes i).cb = some t.cb ∧ (w.nodes i).ctx = t.ctx ∧ t.Pending) ∨
    ((w.nodes i).cb = none ∧ t.Settled l.now)

/-- The ledger tells of the wheel, some of whose nodes are detached. -/
structure Accounts {Cb : Type} (w : TimingWheel Cb) (detached : List Nat) (l : Ledger Cb) : Prop where
  held : w.Held detached
  clock : w.currentTick = l.now % 2 ^ 64
  size : w.wheelSize ∣ 2 ^ 64
  capacity : w.freeList.capacity = w.maxTimers ∧ w.maxTimers < 2 ^ 32
  linked : ∀ slot i, i ∈ w.buckets slot → ∃ t, Accounted w l i t ∧ l.now < t.due ∧ t.due < l.now + w.wheelSize
  chain : ∀ i ∈ detached, ∃ t, Accounted w l i t ∧ (t.Pending → t.due = l.now)
  unused : ∀ i, ¬ (w.Linked i ∨ i ∈ detached) → (w.nodes i).gen = genAfter (l.nodes.count i)
  timers : ∀ s t, l.timers[s]? = some t → t.gen = genAfter (l.rank s t.node) ∧
    (t.Settled l.now ∨ t.Pending ∧ l.owner t.node = s ∧ (w.Linked t.node ∨ t.node ∈ detached))

section Accounts

variable {Cb : Type} {w w' : TimingWheel Cb} {detached : List Nat} {l l' : Ledger Cb} {i : Nat} {t : Timer Cb}

theorem Accounts.used (accounts : Accounts w detached l) (used : w.Linked i ∨ i ∈ detached) :
    ∃ t, Accounted w l i t := by
  rcases used with ⟨slot, member⟩ | member
  · obtain ⟨t, accounted, -⟩ := accounts.linked slot i member
    exact ⟨t, accounted⟩
  · obtain ⟨t, accounted, -⟩ := accounts.chain i member
    exact ⟨t, accounted⟩

theorem Accounted.owner_ne {j : Nat} {t' : Timer Cb} (one : Accounted w l i t) (other : Accounted w l j t')
    (different : j ≠ i) : l.owner j ≠ l.owner i := by
  intro same
  have entries := other.found
  rw [same, one.found] at entries
  exact different (by rw [← other.node, ← one.node, some.inj entries])

theorem Accounted.frame (accounted : Accounted w l i t) (node : w'.nodes i = w.nodes i)
    (size : w'.wheelSize = w.wheelSize)
    (owner : l'.owner i = l.owner i) (found : l'.timers[l.owner i]? = l.timers[l.owner i]?)
    (uses : l'.nodes.count i = l.nodes.count i ∧ l'.rank (l.owner i) i = l.rank (l.owner i) i)
    (later : l.now ≤ l'.now) : Accounted w' l' i t where
  found := by rw [owner, found, accounted.found]
  node := accounted.node
  gen := by rw [node, accounted.gen]
  slot := by rw [node, size, accounted.slot]
  last := by rw [uses.1, owner, uses.2, accounted.last]
  standing := by
    rw [node]
    exact accounted.standing.imp_right fun ⟨disarmed, settled⟩ => ⟨disarmed, settled.mono later⟩

theorem Accounts.pending (accounts : Accounts w detached l) (found : l.timers[s]? = some t) (pending : t.Pending) :
    l.owner t.node = s ∧ (w.Linked t.node ∨ t.node ∈ detached) ∧ Accounted w l t.node t := by
  obtain ⟨-, settled | ⟨-, owner, used⟩⟩ := accounts.timers s t found
  · exact absurd pending settled.not_pending
  obtain ⟨t', accounted⟩ := accounts.used used
  have same : t' = t := by
    have entry := accounted.found
    rw [owner, found] at entry
    exact (some.inj entry).symm
  exact ⟨owner, used, same ▸ accounted⟩

theorem Accounts.counted (accounts : Accounts w detached l) (activeCount : Nat) (inTickWalk : Bool) :
    Accounts { w with activeCount, inTickWalk } detached l := by
  refine { accounts with
    held := accounts.held.congr rfl rfl rfl rfl
    linked := fun slot j member => ?_
    chain := fun j member => ?_ }
  · obtain ⟨t, entry, bounds⟩ := accounts.linked slot j member
    exact ⟨t, entry.frame rfl rfl rfl rfl ⟨rfl, rfl⟩ (Nat.le_refl _), bounds⟩
  · obtain ⟨t, entry, due⟩ := accounts.chain j member
    exact ⟨t, entry.frame rfl rfl rfl rfl ⟨rfl, rfl⟩ (Nat.le_refl _), due⟩

/-! ### What the wheel's operations do to them -/

theorem disarm_nodes_ne {j : Nat} (other : j ≠ i) : (w.disarm i).nodes j = w.nodes j := by
  simp only [disarm, update_of_ne other]

theorem Accounts.settle (accounts : Accounts w detached l) (accounted : Accounted w l i t)
    (used : w.Linked i ∨ i ∈ detached)
    {f : Timer Cb → Timer Cb} (keeps : ∀ t, (f t).handle = t.handle ∧ (f t).due = t.due)
    (settled : (f t).Settled l.now) : Accounts (w.disarm i) detached (l.amend i f) := by
  have nodes : (l.amend i f).nodes = l.nodes := Ledger.amend_nodes (fun t => (keeps t).1) i
  have handle : (f t).node = t.node ∧ (f t).gen = t.gen := by
    rw [Timer.node, Timer.gen, (keeps t).1]
    exact ⟨rfl, rfl⟩
  have mine : Accounted (w.disarm i) (l.amend i f) i (f t) := by
    refine ⟨?_, handle.1.trans accounted.node, ?_, ?_, ?_, .inr ⟨?_, settled⟩⟩
    · rw [Ledger.amend_getElem?, Ledger.amend_owner, if_pos rfl, accounted.found, map_some]
    · simp only [handle.2, accounted.gen, disarm, update_self]
    · simp only [disarm, update_self, (keeps t).2]
      exact accounted.slot
    · rw [Ledger.rank, nodes]
      exact accounted.last
    · simp only [disarm, update_self]
  have others : ∀ {j t'}, j ≠ i → Accounted w l j t' → Accounted (w.disarm i) (l.amend i f) j t' := by
    intro j t' other entry
    refine entry.frame (disarm_nodes_ne other) rfl rfl ?_ ⟨by rw [nodes], by rw [Ledger.rank, nodes, Ledger.rank]⟩
      (Nat.le_refl _)
    rw [Ledger.amend_getElem?, if_neg (accounted.owner_ne entry other).symm]
  refine ⟨disarm_held accounts.held i, accounts.clock, accounts.size, accounts.capacity, fun slot j member => ?_,
    fun j member => ?_, fun j free => ?_, fun s t' found => ?_⟩
  · obtain ⟨t', entry, bounds⟩ := accounts.linked slot j member
    by_cases same : j = i
    · subst same
      obtain rfl : t' = t := mem_unique entry.found accounted.found
      exact ⟨f t', mine, by rw [(keeps t').2]; exact bounds⟩
    · exact ⟨t', others same entry, bounds⟩
  · obtain ⟨t', entry, due⟩ := accounts.chain j member
    by_cases same : j = i
    · subst same
      exact ⟨f t, mine, fun pending => absurd pending settled.not_pending⟩
    · exact ⟨t', others same entry, due⟩
  · have other : j ≠ i := fun same => free (same ▸ used)
    rw [disarm_nodes_ne other, nodes]
    exact accounts.unused j free
  · rw [Ledger.amend_getElem?] at found
    rw [Ledger.rank, nodes]
    split at found
    · rename_i here
      rw [← here, accounted.found, map_some] at found
      cases found
      rw [handle.1, handle.2, ← here]
      exact ⟨(accounts.timers _ t accounted.found).1, .inl settled⟩
    · exact accounts.timers s t' found

theorem freeNode_cases (freed : w.freeNode i = some w') :
    ∃ freeList, w.freeList.push i = some freeList ∧
      w' = { w with
        freeList
        nodes := update w.nodes i
          { w.nodes i with
            gen := if ((w.nodes i).gen + 1) % 2 ^ 32 = 0 then 1 else ((w.nodes i).gen + 1) % 2 ^ 32
            cb := none, ctx := 0 } } := by
  unfold TimingWheel.freeNode at freed
  obtain ⟨freeList, pushed, done⟩ := bind_eq_some_iff.mp freed
  exact ⟨freeList, pushed, (some.inj done).symm⟩

theorem push_capacity {s s' : IndexFreeStack} {idx : Nat} (pushed : s.push idx = some s') :
    s'.capacity = s.capacity := by
  unfold IndexFreeStack.push at pushed
  split at pushed
  · cases pushed
  · cases pushed
    rfl

/-- A detached and disarmed node goes back to the free list, one generation on. -/
theorem Accounts.freeNode (accounts : Accounts w (i :: detached) l) (disarmed : (w.nodes i).cb = none) :
    ∃ w', w.freeNode i = some w' ∧ Accounts w' detached l ∧ w'.inTickWalk = w.inTickWalk := by
  obtain ⟨w', freed, held, walking⟩ := accounts.held.freeNode
  obtain ⟨freeList, pushed, rfl⟩ := freeNode_cases freed
  refine ⟨_, freed, ?_, walking⟩
  obtain ⟨t, accounted, -⟩ := accounts.chain i mem_cons_self
  have fresh := (nodup_cons.mp accounts.held.pendingDistinct).1
  have unlinked := accounts.held.apart i mem_cons_self
  have settled : t.Settled l.now := by
    rcases accounted.standing with ⟨armed, -⟩ | ⟨-, settled⟩
    · rw [disarmed] at armed
      cases armed
    · exact settled
  refine ⟨held, accounts.clock, accounts.size, ?_, fun slot j member => ?_, fun j member => ?_, fun j free => ?_,
    fun s t' found => ?_⟩
  · exact ⟨(push_capacity pushed).trans accounts.capacity.1, accounts.capacity.2⟩
  · obtain ⟨t', entry, bounds⟩ := accounts.linked slot j member
    have other : j ≠ i := fun same => unlinked (same ▸ ⟨slot, member⟩)
    exact ⟨t', entry.frame (update_of_ne other _ _) rfl rfl rfl ⟨rfl, rfl⟩ (Nat.le_refl _), bounds⟩
  · obtain ⟨t', entry, due⟩ := accounts.chain j (mem_cons_of_mem _ member)
    have other : j ≠ i := fun same => fresh (same ▸ member)
    exact ⟨t', entry.frame (update_of_ne other _ _) rfl rfl rfl ⟨rfl, rfl⟩ (Nat.le_refl _), due⟩
  · by_cases same : j = i
    · subst same
      have issued := (accounts.timers _ t accounted.found).1
      rw [accounted.node, accounted.gen] at issued
      simp only [update_self]
      rw [issued, genAfter_succ, accounted.last]
    · simp only [update_of_ne same]
      refine accounts.unused j fun used => free ?_
      exact used.imp_right fun member => (mem_cons.mp member).resolve_left same
  · obtain ⟨issued, state⟩ := accounts.timers s t' found
    refine ⟨issued, state.imp_right fun ⟨pending, owner, used⟩ => ⟨pending, owner, ?_⟩⟩
    refine used.imp_right fun member => (mem_cons.mp member).resolve_left fun same => ?_
    -- The node's entry is settled, so that it is not this one.
    obtain rfl : t' = t := some.inj (by rw [← found, ← owner, same, accounted.found])
    exact settled.not_pending pending

theorem Accounts.unlink (accounts : Accounts w [] l) (member : i ∈ w.buckets (w.nodes i).slot)
    (disarmed : (w.nodes i).cb = none) : Accounts (w.unlink i) [i] l := by
  have held := accounts.held.unlink member
  have still : ∀ {slot j}, j ∈ (w.unlink i).buckets slot → j ∈ w.buckets slot := by
    intro slot j there
    by_cases here : slot = (w.nodes i).slot
    · subst here
      simp only [TimingWheel.unlink, update_self] at there
      exact mem_of_mem_erase there
    · simpa only [TimingWheel.unlink, update_of_ne here] using there
  have kept : ∀ j, w.Linked j → (w.unlink i).Linked j ∨ j ∈ [i] := by
    intro j linked
    have used := (accounts.held.tracks.used_lt j (.inl linked))
    by_contra free
    have gone := (held.tracks.mem_iff j).mpr ⟨used, free⟩
    exact ((accounts.held.tracks.mem_iff j).mp gone).2 (.inl linked)
  refine ⟨held, accounts.clock, accounts.size, accounts.capacity, fun slot j there => ?_, fun j there => ?_,
    fun j free => ?_, fun s t found => ?_⟩
  · obtain ⟨t, entry, bounds⟩ := accounts.linked slot j (still there)
    exact ⟨t, entry.frame rfl rfl rfl rfl ⟨rfl, rfl⟩ (Nat.le_refl _), bounds⟩
  · obtain rfl := mem_singleton.mp there
    obtain ⟨t, entry, -⟩ := accounts.linked _ j member
    refine ⟨t, entry.frame rfl rfl rfl rfl ⟨rfl, rfl⟩ (Nat.le_refl _), fun pending => ?_⟩
    rcases entry.standing with ⟨armed, -⟩ | ⟨-, settled⟩
    · rw [disarmed] at armed
      cases armed
    · exact absurd pending settled.not_pending
  · refine accounts.unused j fun used => free ?_
    exact kept j (used.resolve_right (by simp))
  · obtain ⟨issued, state⟩ := accounts.timers s t found
    refine ⟨issued, state.imp_right ?_⟩
    rintro ⟨pending, owner, used⟩
    refine ⟨pending, owner, ?_⟩
    exact kept _ (used.resolve_right (by simp))

theorem Accounts.slot_eq (accounts : Accounts w detached l) (delay : Nat) :
    (w.currentTick + delay) % 2 ^ 64 % w.wheelSize = (l.now + delay) % w.wheelSize := by
  rw [accounts.clock, Nat.mod_add_mod, Nat.mod_mod_of_dvd _ accounts.size]

/-- A tick begins: the timers of its bucket are those that are due, and no other bucket has one. -/
theorem Accounts.detach (accounts : Accounts w [] l) (inTickWalk : Bool) :
    Accounts
      { w with
        currentTick := (w.currentTick + 1) % 2 ^ 64
        buckets := update w.buckets ((w.currentTick + 1) % 2 ^ 64 % w.wheelSize) []
        inTickWalk }
      (w.buckets ((w.currentTick + 1) % 2 ^ 64 % w.wheelSize)) { l with now := l.now + 1 } := by
  have held := accounts.held.detach ((w.currentTick + 1) % 2 ^ 64 % w.wheelSize)
  rw [accounts.slot_eq] at held ⊢
  have clock : (w.currentTick + 1) % 2 ^ 64 = (l.now + 1) % 2 ^ 64 := by rw [accounts.clock, Nat.mod_add_mod]
  have home : ∀ {slot j}, j ∈ w.buckets slot → ∀ {t}, Accounted w l j t → t.due % w.wheelSize = slot :=
    fun member _ entry => entry.slot.symm.trans (accounts.held.home _ _ member).2
  have kept : ∀ {j}, w.Linked j →
      (∃ slot, j ∈ update w.buckets ((l.now + 1) % w.wheelSize) [] slot) ∨
        j ∈ w.buckets ((l.now + 1) % w.wheelSize) := by
    rintro j ⟨slot, member⟩
    by_cases here : slot = (l.now + 1) % w.wheelSize
    · exact .inr (here ▸ member)
    · exact .inl ⟨slot, by rwa [update_of_ne here]⟩
  have later : ∀ {j t}, Accounted w l j t →
      Accounted { w with
        currentTick := (w.currentTick + 1) % 2 ^ 64
        buckets := update w.buckets ((l.now + 1) % w.wheelSize) [], inTickWalk } { l with now := l.now + 1 } j t :=
    fun entry => entry.frame rfl rfl rfl rfl ⟨rfl, rfl⟩ (Nat.le_succ _)
  refine ⟨held.congr rfl rfl rfl rfl, clock, accounts.size, accounts.capacity, fun slot j member => ?_,
    fun j member => ?_, fun j free => ?_, fun s t found => ?_⟩
  · dsimp only at member
    by_cases here : slot = (l.now + 1) % w.wheelSize
    · simp [here] at member
    · rw [update_of_ne here] at member
      obtain ⟨t, entry, after, near⟩ := accounts.linked slot j member
      have different : t.due ≠ l.now + 1 := fun same => here (by rw [← home member entry, same])
      exact ⟨t, later entry, by dsimp only; omega, by dsimp only; omega⟩
  · obtain ⟨t, entry, after, near⟩ := accounts.linked _ j member
    refine ⟨t, later entry, fun _ => ?_⟩
    by_contra different
    exact RingIndex.position_ne (show l.now + 1 < t.due by dsimp only at different; omega) (by omega)
      (home member entry).symm
  · refine accounts.unused j fun used => free ?_
    exact kept (used.resolve_right (by simp))
  · obtain ⟨issued, state⟩ := accounts.timers s t found
    refine ⟨issued, state.imp (fun settled => settled.mono (Nat.le_succ _)) ?_⟩
    exact fun ⟨pending, owner, used⟩ => ⟨pending, owner, kept (used.resolve_right (by simp))⟩

theorem Ledger.enter_nodes (l : Ledger Cb) (handle : Nat) (cb : Cb) (ctx delay : Nat) :
    (l.enter handle cb ctx delay).nodes = l.nodes ++ [(unpackHandle handle).1] := by
  rw [nodes, enter, map_append]
  rfl

theorem Ledger.enter_rank (l : Ledger Cb) (handle : Nat) (cb : Cb) (ctx delay : Nat) (old : s ≤ l.timers.length)
    (j : Nat) : (l.enter handle cb ctx delay).rank s j = l.rank s j := by
  rw [rank, enter_nodes, Reuse.rank_append (by rwa [nodes, length_map]), rank]

theorem Ledger.rank_all (l : Ledger Cb) (j : Nat) : l.rank l.timers.length j = l.nodes.count j := by
  rw [rank, ← Reuse.rank_length, nodes, length_map]

theorem Ledger.enter_old (l : Ledger Cb) (handle : Nat) (cb : Cb) (ctx delay : Nat) (old : s < l.timers.length) :
    (l.enter handle cb ctx delay).timers[s]? = l.timers[s]? :=
  getElem?_append_left old

theorem Ledger.enter_cases (l : Ledger Cb) {handle ctx delay : Nat} {cb : Cb}
    (found : (l.enter handle cb ctx delay).timers[s]? = some t) :
    (s < l.timers.length ∧ l.timers[s]? = some t) ∨
      (s = l.timers.length ∧ t = { handle, cb, ctx, start := l.now, delay }) := by
  rw [enter, getElem?_append] at found
  split at found
  case isTrue old => exact .inl ⟨old, found⟩
  case isFalse new =>
    rw [getElem?_singleton] at found
    split at found
    case isTrue first => exact .inr ⟨by omega, (some.inj found).symm⟩
    case isFalse => cases found

section Arm

variable {freeList : IndexFreeStack} {delay : Nat}

section

variable (accounts : Accounts w detached l) (popped : w.freeList.pop = some (i, freeList))
include accounts popped

theorem Accounts.unpack : unpackHandle (packHandle i (w.nodes i).gen) = (i, (w.nodes i).gen) := by
  have bound := (accounts.held.tracks.pop popped).1
  exact unpackHandle_packHandle (Nat.lt_trans (accounts.capacity.1 ▸ bound) accounts.capacity.2)

theorem Accounts.arm_entry (cb : Cb)
    (ctx delay : Nat) :
    Accounted (w.arm freeList i cb ctx delay) (l.enter (packHandle i (w.nodes i).gen) cb ctx delay) i
      { handle := packHandle i (w.nodes i).gen, cb, ctx, start := l.now, delay } := by
  have unpacked := accounts.unpack popped
  have node : (w.arm freeList i cb ctx delay).nodes i =
      { w.nodes i with cb := some cb, ctx, slot := (w.currentTick + delay) % 2 ^ 64 % w.wheelSize } := by
    simp only [TimingWheel.arm, pushFront, update_self]
  have owner : (l.enter (packHandle i (w.nodes i).gen) cb ctx delay).owner i = l.timers.length := by
    simp only [Ledger.enter, unpacked, update_self]
  refine ⟨?_, ?_, ?_, ?_, ?_, .inl ⟨by rw [node], by rw [node], rfl, rfl⟩⟩
  · rw [owner]
    exact getElem?_concat_length
  · simp only [Timer.node, unpacked]
  · simp only [Timer.gen, unpacked, node]
  · rw [node]
    exact accounts.slot_eq delay
  · rw [owner, l.enter_rank _ _ _ _ (Nat.le_refl _), Ledger.enter_nodes, unpacked, count_append, l.rank_all,
      count_singleton_self]

end

theorem Ledger.enter_count (l : Ledger Cb) {handle j : Nat} (other : j ≠ (unpackHandle handle).1) (cb : Cb)
    (ctx delay : Nat) : (l.enter handle cb ctx delay).nodes.count j = l.nodes.count j := by
  rw [enter_nodes, count_append, count_singleton, if_neg (by simpa using other.symm), Nat.add_zero]

theorem Accounts.arm (accounts : Accounts w detached l) (popped : w.freeList.pop = some (i, freeList))
    (cb : Cb) (ctx : Nat) (positive : 0 < delay) (inside : delay < w.wheelSize) :
    Accounts (w.arm freeList i cb ctx delay) detached (l.enter (packHandle i (w.nodes i).gen) cb ctx delay) := by
  obtain ⟨-, unused, capacity, -⟩ := accounts.held.tracks.pop popped
  have unpacked := accounts.unpack popped
  have mine := accounts.arm_entry popped cb ctx delay
  have node : ∀ {j}, j ≠ i → (w.arm freeList i cb ctx delay).nodes j = w.nodes j := fun other => by
    simp only [TimingWheel.arm, pushFront, update_of_ne other]
  have count : ∀ {j}, j ≠ i → (l.enter (packHandle i (w.nodes i).gen) cb ctx delay).nodes.count j = l.nodes.count j :=
    fun other => l.enter_count (by rwa [unpacked]) cb ctx delay
  have others : ∀ {j t'}, w.Linked j ∨ j ∈ detached → Accounted w l j t' →
      Accounted (w.arm freeList i cb ctx delay) (l.enter (packHandle i (w.nodes i).gen) cb ctx delay) j t' := by
    intro j t' used entry
    have other : j ≠ i := fun same => unused (same ▸ used)
    have old := (List.getElem?_eq_some_iff.mp entry.found).1
    refine entry.frame (node other) rfl ?_ (l.enter_old _ _ _ _ old)
      ⟨count other, l.enter_rank _ _ _ _ (Nat.le_of_lt old) j⟩ (Nat.le_refl _)
    simp only [Ledger.enter, unpacked, update_of_ne other]
  refine ⟨accounts.held.arm popped cb ctx delay, accounts.clock, accounts.size, ⟨capacity.trans accounts.capacity.1,
    accounts.capacity.2⟩, fun slot j member => ?_, fun j member => ?_, fun j free => ?_, fun s t' found => ?_⟩
  · rcases mem_arm_buckets.mp member with old | ⟨-, rfl⟩
    · obtain ⟨t', entry, bounds⟩ := accounts.linked slot j old
      exact ⟨t', others (.inl ⟨slot, old⟩) entry, bounds⟩
    · exact ⟨_, mine, Nat.lt_add_of_pos_right positive, Nat.add_lt_add_left inside l.now⟩
  · obtain ⟨t', entry, due⟩ := accounts.chain j member
    exact ⟨t', others (.inr member) entry, due⟩
  · rw [arm_linked] at free
    have other : j ≠ i := fun same => free (.inl (.inr same))
    rw [node other, count other]
    exact accounts.unused j fun used => free (used.imp_left Or.inl)
  · rcases l.enter_cases found with ⟨old, found⟩ | ⟨rfl, rfl⟩
    · rw [l.enter_rank _ _ _ _ (Nat.le_of_lt old)]
      obtain ⟨issued, state⟩ := accounts.timers s t' found
      refine ⟨issued, state.imp_right ?_⟩
      rintro ⟨pending, owner, used⟩
      refine ⟨pending, ?_, ?_⟩
      · have other : t'.node ≠ i := fun same => unused (same ▸ used)
        simpa only [Ledger.enter, unpacked, update_of_ne other] using owner
      · rw [arm_linked]
        exact used.imp_left Or.inl
    · rw [mine.node, l.enter_rank _ _ _ _ (Nat.le_refl _), l.rank_all]
      refine ⟨?_, .inr ⟨⟨rfl, rfl⟩, ?_, .inl (arm_linked.mpr (.inr rfl))⟩⟩
      · rw [Timer.gen, unpacked]
        exact accounts.unused i unused
      · simp only [Ledger.enter, unpacked, update_self]

end Arm

/-! ### Handles -/

theorem Accounts.of_names (accounts : Accounts w detached l) {h : Nat} (named : w.Names h) :
    ∃ t, Accounted w l (unpackHandle h).1 t ∧ t.Pending ∧ t.handle = h ∧
      (w.Linked (unpackHandle h).1 ∨ (unpackHandle h).1 ∈ detached) := by
  obtain ⟨-, -, current, armed⟩ := named
  obtain ⟨cb, set⟩ := ne_none_iff_exists'.mp armed
  have used : w.Linked (unpackHandle h).1 ∨ (unpackHandle h).1 ∈ detached :=
    (accounts.held.armed _ cb set).imp_left fun member => ⟨_, member⟩
  obtain ⟨t, accounted⟩ := accounts.used used
  refine ⟨t, accounted, ?_, ?_, used⟩
  · rcases accounted.standing with ⟨-, -, pending⟩ | ⟨disarmed, -⟩
    · exact pending
    · exact absurd disarmed armed
  · rw [t.handle_eq, accounted.node, accounted.gen, current]
    unfold packHandle unpackHandle
    dsimp only
    omega

theorem Accounts.names (accounts : Accounts w detached l) (found : l.timers[s]? = some t) (pending : t.Pending) :
    w.Names t.handle := by
  obtain ⟨-, used, accounted⟩ := accounts.pending found pending
  have issued := (accounts.timers s t found).1
  have positive := (genAfter_bounds (l.rank s t.node)).1
  refine ⟨?_, ?_, accounted.gen.symm, ?_⟩
  · rw [t.handle_eq, issued, packHandle, kInvalidHandle]
    omega
  · exact accounts.capacity.1 ▸ accounts.held.tracks.used_lt _ used
  · rcases accounted.standing with ⟨armed, -⟩ | ⟨-, settled⟩
    · intro disarmed
      rw [show (unpackHandle t.handle).1 = t.node from rfl, armed] at disarmed
      cases disarmed
    · exact absurd pending settled.not_pending

/-- A timer whose node was given out fewer than `2 ^ 32 - 1` times since shares its handle with no pending timer. -/
theorem Accounts.handle_unique (accounts : Accounts w detached l) {s' : Nat} {t' : Timer Cb}
    (found : l.timers[s]? = some t)
    (few : l.reuses s t.node < 2 ^ 32 - 1) (found' : l.timers[s']? = some t') (pending : t'.Pending)
    (same : t'.handle = t.handle) : s' = s := by
  have node : t'.node = t.node := by rw [Timer.node, same, Timer.node]
  have gens : genAfter (l.rank s t.node) = genAfter (l.rank s' t.node) := by
    rw [← (accounts.timers s t found).1, ← node, ← (accounts.timers s' t' found').1, Timer.gen, Timer.gen, same]
  obtain ⟨owner, -, accounted⟩ := accounts.pending found' pending
  have last := accounted.last
  rw [owner, node] at last
  exact Reuse.eq_of_stamp genAfter_ne (Ledger.nodes_getElem? found) few (node ▸ Ledger.nodes_getElem? found') last gens

end Accounts

end TickToTrade.Ds
