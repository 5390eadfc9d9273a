import TickToTrade.Ds.HashMapRefinement
import TickToTrade.Lib.Lockstep

/-!
The hash maps with their slots as the sources store them: a key and a value stay in the slot when it is
cleared or buried, and the buffer of a `HashMap` starts with whatever it held.
-/

namespace TickToTrade.Ds.SlotLevel
open Probing Option Function
open DefaultHash (hash)
open Ds.HashMap (isValidCapacity step)

inductive SlotState where
  | kEmpty
  | kFull
  | kTombstone
  deriving DecidableEq

structure Slot (K V : Type) where
  key : K
  value : V
  state : SlotState := .kEmpty

structure Sizes where
  capacity : Nat
  mask : Nat
  maxLoad : Nat
  tombstoneThreshold : Nat

def Sizes.ofCapacity (capacity : Nat) : Sizes :=
  { capacity, mask := capacity - 1, maxLoad := capacity * 7 / 10, tombstoneThreshold := capacity * 2 / 10 }

structure Slots (K V : Type) where
  slots : Nat → Slot K V
  size : Nat := 0
  tombstones : Nat := 0

variable {K V : Type} [DecidableEq K] [DefaultHash K]

namespace Slots

/-- `for (i = 0; i < capacity; ++i)` of `probe_find`, with the iterations that are left. -/
def probeFindLoop (s : Slots K V) (mask : Nat) (key : K) : Nat → (idx : Nat) → Exec Nat
  | 0, _ => none
  | n + 1, idx =>
    let slot := s.slots idx
    if slot.state = .kEmpty then some idx
    else if slot.state = .kFull ∧ slot.key = key then some idx
    else probeFindLoop s mask key n ((idx + 1) &&& mask)

def probeFind (s : Slots K V) (z : Sizes) (key : K) : Exec Nat :=
  s.probeFindLoop z.mask key z.capacity (hash key &&& z.mask)

/-- The loop of `probe_insert`; `firstTombstone` is the capacity while none was met. -/
def probeInsertLoop (s : Slots K V) (z : Sizes) (key : K) : Nat → (idx firstTombstone : Nat) → Exec (Nat × Bool)
  | 0, _, _ => none
  | n + 1, idx, firstTombstone =>
    let slot := s.slots idx
    if slot.state = .kEmpty then some (if firstTombstone ≠ z.capacity then firstTombstone else idx, false)
    else if slot.state = .kTombstone then
      probeInsertLoop s z key n ((idx + 1) &&& z.mask) (if firstTombstone = z.capacity then idx else firstTombstone)
    else if slot.key = key then some (idx, true)
    else probeInsertLoop s z key n ((idx + 1) &&& z.mask) firstTombstone

def probeInsert (s : Slots K V) (z : Sizes) (key : K) : Exec (Nat × Bool) :=
  s.probeInsertLoop z key z.capacity (hash key &&& z.mask) z.capacity

def find (s : Slots K V) (z : Sizes) (key : K) : Exec (Option V) := do
  let idx ← s.probeFind z key
  if (s.slots idx).state = .kFull then return some (s.slots idx).value else return none

def occupy (s : Slots K V) (idx : Nat) (key : K) (value : V) : Slots K V :=
  { slots := update s.slots idx { key, value, state := .kFull }
    size := s.size + 1
    tombstones := if (s.slots idx).state = .kTombstone then s.tombstones - 1 else s.tombstones }

def insert (s : Slots K V) (z : Sizes) (key : K) (value : V) : Exec (Bool × Slots K V) := do
  let (idx, foundExisting) ← s.probeInsert z key
  if foundExisting then return (false, s)
  else if ¬ (s.slots idx).state = .kTombstone ∧ z.maxLoad ≤ s.size + s.tombstones then return (false, s)
  else return (true, s.occupy idx key value)

def upsert (s : Slots K V) (z : Sizes) (key : K) (value : V) : Exec (Table.UpsertResult × Slots K V) := do
  let (idx, foundExisting) ← s.probeInsert z key
  if foundExisting then
    return (.updated, { s with slots := update s.slots idx { s.slots idx with value } })
  else if ¬ (s.slots idx).state = .kTombstone ∧ z.maxLoad ≤ s.size + s.tombstones then return (.capacityFull, s)
  else return (.inserted, s.occupy idx key value)

def erase (s : Slots K V) (z : Sizes) (key : K) : Exec (Bool × Slots K V) := do
  let idx ← s.probeFind z key
  if (s.slots idx).state ≠ .kFull then return (false, s)
  else
    return (true, {
      slots := update s.slots idx { s.slots idx with state := .kTombstone }
      size := s.size - 1
      tombstones := s.tombstones + 1 })

def clear (s : Slots K V) (z : Sizes) : Slots K V :=
  { slots := fun i => if i < z.capacity then { s.slots i with state := .kEmpty } else s.slots i }

def forEachTo (fn : List (K × V) → K → V → V) (s : Slots K V) : Nat → List (K × V) × Slots K V
  | 0 => ([], s)
  | n + 1 =>
    let (visits, s) := forEachTo fn s n
    let slot := s.slots n
    if slot.state = .kFull then
      (visits ++ [(slot.key, slot.value)],
        { s with slots := update s.slots n { slot with value := fn visits slot.key slot.value } })
    else (visits, s)

end Slots

/-! ### The two maps -/

abbrev FixedHashMap (K V : Type) (_capacityPow2 : Nat) := Slots K V

namespace FixedHashMap

variable {n : Nat}

def empty [Inhabited K] [Inhabited V] : FixedHashMap K V n := { slots := fun _ => { key := default, value := default } }

def needsRebuild (m : FixedHashMap K V n) : Bool := (Sizes.ofCapacity n).tombstoneThreshold < m.tombstones

def find (m : FixedHashMap K V n) (key : K) : Exec (Option V) := Slots.find m (.ofCapacity n) key

def insert (m : FixedHashMap K V n) (key : K) (value : V) : Exec (Bool × FixedHashMap K V n) :=
  Slots.insert m (.ofCapacity n) key value

def upsert (m : FixedHashMap K V n) (key : K) (value : V) : Exec (Table.UpsertResult × FixedHashMap K V n) :=
  Slots.upsert m (.ofCapacity n) key value

def erase (m : FixedHashMap K V n) (key : K) : Exec (Bool × FixedHashMap K V n) := Slots.erase m (.ofCapacity n) key

def clear (m : FixedHashMap K V n) : FixedHashMap K V n := Slots.clear m (.ofCapacity n)

def forEach (m : FixedHashMap K V n) (fn : List (K × V) → K → V → V) : List (K × V) × FixedHashMap K V n :=
  Slots.forEachTo fn m n

end FixedHashMap

structure HashMap (K V : Type) where
  sizes : Sizes
  store : Slots K V
  sized : sizes = .ofCapacity sizes.capacity

namespace HashMap

/-- The direct constructor or `create`, on a buffer of the required size. -/
def create (buffer : Nat → Slot K V) (capacity : Nat) : Option (HashMap K V) :=
  if isValidCapacity capacity then
    some {
      sizes := .ofCapacity capacity
      store := Slots.clear { slots := buffer } (.ofCapacity capacity)
      sized := rfl }
  else none

def needsRebuild (m : HashMap K V) : Bool := m.sizes.tombstoneThreshold < m.store.tombstones

def find (m : HashMap K V) (key : K) : Exec (Option V) :=
  if m.sizes.capacity = 0 then return none else m.store.find m.sizes key

def insert (m : HashMap K V) (key : K) (value : V) : Exec (Bool × HashMap K V) :=
  if m.sizes.capacity = 0 then return (false, m)
  else (m.store.insert m.sizes key value).map (Prod.map id fun store => { m with store })

def upsert (m : HashMap K V) (key : K) (value : V) : Exec (Table.UpsertResult × HashMap K V) :=
  if m.sizes.capacity = 0 then return (.capacityFull, m)
  else (m.store.upsert m.sizes key value).map (Prod.map id fun store => { m with store })

def erase (m : HashMap K V) (key : K) : Exec (Bool × HashMap K V) :=
  if m.sizes.capacity = 0 then return (false, m)
  else (m.store.erase m.sizes key).map (Prod.map id fun store => { m with store })

def clear (m : HashMap K V) : HashMap K V := { m with store := m.store.clear m.sizes }

def forEach (m : HashMap K V) (fn : List (K × V) → K → V → V) : List (K × V) × HashMap K V :=
  Prod.map id (fun store => { m with store }) (m.store.forEachTo fn m.sizes.capacity)

end HashMap

/-! ### Slots as a table -/

def Slot.toSlot (s : Slot K V) : Probing.Slot K V :=
  match s.state with
  | .kEmpty => .empty
  | .kFull => .full s.key s.value
  | .kTombstone => .tombstone

/-- The table that the slots stand for; there are no slots past the capacity. -/
def Slots.table (z : Sizes) (s : Slots K V) : Table K V :=
  { capacity := z.capacity
    maxLoad := z.maxLoad
    slots := fun i => if i < z.capacity then (s.slots i).toSlot else .empty
    size := s.size
    tombstones := s.tombstones }

namespace Slots

variable {z : Sizes} {s : Slots K V} {idx : Nat}

omit [DecidableEq K] [DefaultHash K] in
theorem table_slots (inside : idx < z.capacity) : (s.table z).slots idx = (s.slots idx).toSlot := if_pos inside

theorem next_lt (masked : z.mask = z.capacity - 1) (inside : idx < z.capacity) : (idx + 1) &&& z.mask < z.capacity := by
  have below := Nat.and_le_right (n := idx + 1) (m := z.mask)
  omega

omit [DefaultHash K] in
theorem probeFindLoop_table (s : Slots K V) (key : K) (masked : z.mask = z.capacity - 1) (n : Nat)
    (inside : idx < z.capacity) : s.probeFindLoop z.mask key n idx = (s.table z).probeFindFrom key n idx ∧
      ∀ found, s.probeFindLoop z.mask key n idx = some found → found < z.capacity := by
  induction n generalizing idx with
  | zero => exact ⟨rfl, nofun⟩
  | succ n ih =>
    have same : (s.table z).mask = z.mask := masked.symm
    have next := next_lt masked inside
    rw [probeFindLoop, Table.probeFindFrom, table_slots inside, Slot.toSlot]
    cases state : (s.slots idx).state with
    | kEmpty => simp [inside]
    | kTombstone => simpa [same] using ih next
    | kFull =>
      by_cases hit : (s.slots idx).key = key
      · simp [hit, inside]
      · simpa [hit, same] using ih next

/-- The first tombstone that was met, where the capacity stands for none. -/
def firstMet (z : Sizes) (firstTombstone : Nat) : Option Nat := if firstTombstone = z.capacity then none
    else some firstTombstone

/-- What `probe_insert` answers: a slot of the array, and one with the key if it says so. -/
def Answers (s : Slots K V) (z : Sizes) (key : K) (answer : Nat × Bool) : Prop :=
  answer.1 < z.capacity ∧ (answer.2 = true → (s.slots answer.1).state = .kFull ∧ (s.slots answer.1).key = key)

omit [DefaultHash K] in
theorem probeInsertLoop_table (s : Slots K V) (key : K) (masked : z.mask = z.capacity - 1) (n : Nat)
    (inside : idx < z.capacity) {first : Nat} (bound : first ≤ z.capacity) :
    s.probeInsertLoop z key n idx first = (s.table z).probeInsertFrom key n idx (firstMet z first) ∧
      ∀ answer, s.probeInsertLoop z key n idx first = some answer → s.Answers z key answer := by
  induction n generalizing idx first with
  | zero => exact ⟨rfl, nofun⟩
  | succ n ih =>
    have same : (s.table z).mask = z.mask := masked.symm
    have next := next_lt masked inside
    rw [probeInsertLoop, Table.probeInsertFrom, table_slots inside, Slot.toSlot]
    cases state : (s.slots idx).state with
    | kEmpty =>
      by_cases met : first = z.capacity
      · simp [firstMet, met, Answers, inside]
      · have less : first < z.capacity := by omega
        simp [firstMet, met, Answers, less]
    | kTombstone =>
      by_cases met : first = z.capacity
      · have other : idx ≠ z.capacity := by omega
        have rest := ih next (Nat.le_of_lt inside)
        simp only [firstMet, met, other, if_true, if_false, same, reduceCtorEq] at rest ⊢
        exact rest
      · have rest := ih next bound
        simp only [firstMet, met, if_true, if_false, same, reduceCtorEq] at rest ⊢
        exact rest
    | kFull =>
      by_cases hit : (s.slots idx).key = key
      · simp [hit, Answers, inside, state]
      · simpa [hit, same] using ih next bound

omit [DecidableEq K] in
theorem bucket_lt (masked : z.mask = z.capacity - 1) (positive : 0 < z.capacity) (key : K) :
    hash key &&& z.mask < z.capacity := by
  have below := Nat.and_le_right (n := hash key) (m := z.mask)
  omega

omit [DecidableEq K] [DefaultHash K] in
section

variable (inside : idx < z.capacity)
include inside

theorem isTombstone_table :
    ((s.table z).slots idx).isTombstone = decide ((s.slots idx).state = .kTombstone) := by
  rw [table_slots inside, Slot.toSlot]
  cases (s.slots idx).state <;> simp

omit [DecidableEq K] [DefaultHash K] in
theorem table_update (slot : Slot K V) (size tombstones : Nat) :
    Slots.table z { slots := update s.slots idx slot, size, tombstones } =
      { s.table z with slots := update (s.table z).slots idx slot.toSlot, size, tombstones } := by
  simp only [table, Table.mk.injEq, true_and, and_true]
  funext i
  by_cases here : i = idx
  · subst here
    simp [inside]
  · simp [here]

omit [DecidableEq K] [DefaultHash K] in
theorem occupy_table (key : K) (value : V) :
    (s.occupy idx key value).table z = (s.table z).occupy idx key value := by
  rw [occupy, table_update inside, Table.occupy, isTombstone_table inside]
  simp only [decide_eq_true_eq]
  rfl

omit [DecidableEq K] [DefaultHash K] in
theorem blocked_table :
    (!((s.table z).slots idx).isTombstone && (s.table z).maxLoad ≤ (s.table z).size + (s.table z).tombstones) = true ↔
      ¬ (s.slots idx).state = .kTombstone ∧ z.maxLoad ≤ s.size + s.tombstones := by
  rw [isTombstone_table inside, Bool.and_eq_true, Bool.not_eq_true', decide_eq_false_iff_not, decide_eq_true_eq]
  rfl

end

section Operations

variable (s) (masked : z.mask = z.capacity - 1) (positive : 0 < z.capacity) (key : K) (value : V)
include masked positive

theorem probeFind_table :
    s.probeFind z key = (s.table z).probeFind hash key ∧ ∀ found, s.probeFind z key = some found →
    found < z.capacity := by
  have same : (s.table z).mask = z.mask := masked.symm
  have loop := probeFindLoop_table s key masked z.capacity (bucket_lt masked positive key)
  unfold Table.probeFind Table.bucketFor
  rw [same]
  exact loop

theorem probeInsert_table :
    s.probeInsert z key = (s.table z).probeInsert hash key ∧
      ∀ answer, s.probeInsert z key = some answer → s.Answers z key answer := by
  have same : (s.table z).mask = z.mask := masked.symm
  have unmet : firstMet z z.capacity = none := if_pos rfl
  have loop := probeInsertLoop_table s key masked z.capacity (bucket_lt masked positive key) (Nat.le_refl _)
  unfold Table.probeInsert Table.bucketFor
  rw [same]
  rw [unmet] at loop
  exact loop

theorem find_table : s.find z key = (s.table z).find hash key := by
  obtain ⟨probe, bound⟩ := probeFind_table s masked positive key
  unfold find Table.find
  rw [← probe]
  cases probed : s.probeFind z key with
  | none => rfl
  | some idx =>
    have inside := bound idx probed
    simp only [bind_eq_bind, bind_some, table_slots inside, Slot.toSlot]
    cases state : (s.slots idx).state <;> simp

theorem insert_table :
    (s.insert z key value).map (Prod.map id (Slots.table z)) = (s.table z).insert hash key value := by
  obtain ⟨probe, answers⟩ := probeInsert_table s masked positive key
  unfold insert Table.insert
  rw [← probe]
  cases probed : s.probeInsert z key with
  | none => rfl
  | some answer =>
    obtain ⟨idx, found⟩ := answer
    have inside : idx < z.capacity := (answers _ probed).1
    simp only [bind_eq_bind, bind_some, blocked_table inside]
    cases found with
    | true => rfl
    | false =>
      simp only [Bool.false_eq_true, if_false]
      split
      · rfl
      · rw [← occupy_table inside]
        rfl

theorem upsert_table :
    (s.upsert z key value).map (Prod.map id (Slots.table z)) = (s.table z).upsert hash key value := by
  obtain ⟨probe, answers⟩ := probeInsert_table s masked positive key
  unfold upsert Table.upsert
  rw [← probe]
  cases probed : s.probeInsert z key with
  | none => rfl
  | some answer =>
    obtain ⟨idx, found⟩ := answer
    obtain ⟨inside, holds⟩ : idx < z.capacity ∧ _ := answers _ probed
    simp only [bind_eq_bind, bind_some, blocked_table inside]
    cases found with
    | true =>
      -- The value is written into a slot that holds the key already.
      obtain ⟨full, same⟩ := holds rfl
      have written : Slot.toSlot { s.slots idx with value } = .full key value := by
        simp only [Slot.toSlot, full, ← same]
      simp only [if_true, pure_def, map_some, Prod.map, id, table_update inside, written]
      rfl
    | false =>
      simp only [Bool.false_eq_true, if_false]
      split
      · rfl
      · rw [← occupy_table inside]
        rfl

theorem erase_table :
    (s.erase z key).map (Prod.map id (Slots.table z)) = (s.table z).erase hash key := by
  obtain ⟨probe, bound⟩ := probeFind_table s masked positive key
  unfold erase Table.erase
  rw [← probe]
  cases probed : s.probeFind z key with
  | none => rfl
  | some idx =>
    have inside := bound idx probed
    simp only [bind_eq_bind, bind_some, table_slots inside, Slot.toSlot]
    cases state : (s.slots idx).state with
    | kFull =>
      simp only [ne_eq, not_true_eq_false, if_false, pure_def, map_some, Prod.map, id, table_update inside]
      rfl
    | _ => rfl

end Operations

omit [DecidableEq K] [DefaultHash K] in
theorem clear_table (s : Slots K V) : (s.clear z).table z = (s.table z).clear := by
  simp only [clear, table, Table.clear, Table.mk.injEq, true_and, and_true]
  funext i
  split
  · simp [Slot.toSlot]
  · rfl

omit [DecidableEq K] [DefaultHash K] in
theorem forEachTo_table (fn : List (K × V) → K → V → V) (s : Slots K V) {n : Nat} (inside : n ≤ z.capacity) :
    Prod.map id (Slots.table z) (s.forEachTo fn n) = (s.table z).forEachTo fn n := by
  induction n with
  | zero => rfl
  | succ n ih =>
    have here : n < z.capacity := by omega
    rw [forEachTo, Table.forEachTo, ← ih (by omega)]
    generalize s.forEachTo fn n = scanned
    obtain ⟨visits, s⟩ := scanned
    simp only [Prod.map, id, table_slots here, Slot.toSlot]
    cases state : (s.slots n).state with
    | kFull =>
      simp only [if_true, table_update here, Table.rewrite, Prod.mk.injEq, true_and]
      simp only [Slot.toSlot]
      rfl
    | _ => simp

end Slots

/-! ### Sequences of calls -/

inductive MapCall (K V : Type) where
  | op (op : MapOp K V)
  | size
  | tombstoneCount
  | needsRebuild

inductive MapReply (K V : Type) where
  | answer (answer : MapAnswer K V)
  | count (n : Nat)
  | flag (b : Bool)

def FixedHashMap.call {n : Nat} (m : FixedHashMap K V n) : MapCall K V → Exec (MapReply K V × FixedHashMap K V n)
  | .op (.insert k v) => (FixedHashMap.insert m k v).map (Prod.map (.answer ∘ .inserted) id)
  | .op (.upsert k v) => (FixedHashMap.upsert m k v).map (Prod.map (.answer ∘ .upserted) id)
  | .op (.erase k) => (FixedHashMap.erase m k).map (Prod.map (.answer ∘ .erased) id)
  | .op (.find k) => (FixedHashMap.find m k).map fun value => (.answer (.found value), m)
  | .op (.forEach fn) => some (Prod.map (.answer ∘ .visited) id (FixedHashMap.forEach m fn))
  | .op .clear => some (.answer .cleared, FixedHashMap.clear m)
  | .size => some (.count m.size, m)
  | .tombstoneCount => some (.count m.tombstones, m)
  | .needsRebuild => some (.flag (FixedHashMap.needsRebuild m), m)

def HashMap.call (m : HashMap K V) : MapCall K V → Exec (MapReply K V × HashMap K V)
  | .op (.insert k v) => (m.insert k v).map (Prod.map (.answer ∘ .inserted) id)
  | .op (.upsert k v) => (m.upsert k v).map (Prod.map (.answer ∘ .upserted) id)
  | .op (.erase k) => (m.erase k).map (Prod.map (.answer ∘ .erased) id)
  | .op (.find k) => (m.find k).map fun value => (.answer (.found value), m)
  | .op (.forEach fn) => some (Prod.map (.answer ∘ .visited) id (m.forEach fn))
  | .op .clear => some (.answer .cleared, m.clear)
  | .size => some (.count m.store.size, m)
  | .tombstoneCount => some (.count m.store.tombstones, m)
  | .needsRebuild => some (.flag m.needsRebuild, m)

/-- The calls on the table that both maps stand for. -/
def tableCall (m : Ds.HashMap K V) : MapCall K V → Exec (MapReply K V × Ds.HashMap K V)
  | .op op => (m.step op).map (Prod.map .answer id)
  | .size => some (.count m.size, m)
  | .tombstoneCount => some (.count m.tombstones, m)
  | .needsRebuild => some (.flag m.needsRebuild, m)

section Refinement

variable (m : Ds.HashMap K V) (k : K) (v : V)

theorem tableCall_insert :
    tableCall m (.op (.insert k v)) = (m.insert k v).map (Prod.map (.answer ∘ .inserted) id) := by
  simp only [tableCall, step]
  cases m.insert k v <;> rfl

theorem tableCall_upsert :
    tableCall m (.op (.upsert k v)) = (m.upsert k v).map (Prod.map (.answer ∘ .upserted) id) := by
  simp only [tableCall, step]
  cases m.upsert k v <;> rfl

theorem tableCall_erase : tableCall m (.op (.erase k)) = (m.erase k).map (Prod.map (.answer ∘ .erased) id) := by
  simp only [tableCall, step]
  cases m.erase k <;> rfl

theorem tableCall_find : tableCall m (.op (.find k)) = (m.find k).map fun value => (.answer (.found value), m) := by
  simp only [tableCall, step]
  cases m.find k <;> rfl

theorem tableCall_forEach (fn : List (K × V) → K → V → V) :
    tableCall m (.op (.forEach fn)) = some (Prod.map (.answer ∘ .visited) id (Table.forEach fn m)) := rfl

end Refinement

theorem map_wrap {α β σ τ : Type} (wrap : α → β) (view : σ → τ) (result : Option (α × σ)) :
    (result.map (Prod.map wrap id)).map (Prod.map id view) =
    (result.map (Prod.map id view)).map (Prod.map wrap id) := by
  cases result <;> rfl

namespace HashMap

variable (m : HashMap K V) (k : K) (v : V)

def table (m : HashMap K V) : Ds.HashMap K V := m.store.table m.sizes

omit [DecidableEq K] [DefaultHash K] in
theorem masked : m.sizes.mask = m.sizes.capacity - 1 := by
  rw [m.sized]
  rfl

omit [DecidableEq K] [DefaultHash K] in
theorem guard_table {α : Type} (refused : α) {op : Exec (α × Slots K V)} {op' : Exec (α × Ds.HashMap K V)}
    (refines : 0 < m.sizes.capacity → op.map (Prod.map id (Slots.table m.sizes)) = op') :
    (if m.sizes.capacity = 0 then pure (refused, m) else op.map (Prod.map id fun store => { m with store })).map
    (Prod.map id table) =
      if m.table.capacity = 0 then pure (refused, m.table) else op' := by
  have same : m.table.capacity = m.sizes.capacity := rfl
  rw [same]
  split
  · rfl
  · rename_i bound
    rw [← refines (Nat.pos_of_ne_zero bound), map_map]
    rfl

theorem insert_table : (m.insert k v).map (Prod.map id table) = m.table.insert k v :=
  m.guard_table false fun positive => m.store.insert_table m.masked positive k v

theorem upsert_table : (m.upsert k v).map (Prod.map id table) = m.table.upsert k v :=
  m.guard_table Table.UpsertResult.capacityFull fun positive => m.store.upsert_table m.masked positive k v

theorem erase_table : (m.erase k).map (Prod.map id table) = m.table.erase k :=
  m.guard_table false fun positive => m.store.erase_table m.masked positive k

theorem find_table : m.find k = m.table.find k := by
  have same : m.table.capacity = m.sizes.capacity := rfl
  unfold find Ds.HashMap.find
  rw [same]
  split
  · rfl
  · rename_i bound
    exact m.store.find_table m.masked (Nat.pos_of_ne_zero bound) k

theorem call_table (call : MapCall K V) : (m.call call).map (Prod.map id table) = tableCall m.table call := by
  cases call with
  | op op =>
    cases op with
    | insert k v => rw [HashMap.call, tableCall_insert, map_wrap, insert_table]
    | upsert k v => rw [HashMap.call, tableCall_upsert, map_wrap, upsert_table]
    | erase k => rw [HashMap.call, tableCall_erase, map_wrap, erase_table]
    | find k =>
      rw [HashMap.call, tableCall_find, find_table, map_map]
      rfl
    | forEach fn =>
      have scanned := m.store.forEachTo_table fn (Nat.le_refl m.sizes.capacity)
      rw [tableCall_forEach, Table.forEach]
      simp only [HashMap.call, HashMap.forEach, map_some]
      exact congrArg (fun visit => some (Prod.map (MapReply.answer ∘ MapAnswer.visited) id visit)) scanned
    | clear => exact congrArg (fun t =>
        some (MapReply.answer MapAnswer.cleared, t)) (m.store.clear_table (z := m.sizes))
  | size => rfl
  | tombstoneCount => rfl
  | needsRebuild =>
    have threshold : m.sizes.tombstoneThreshold = m.sizes.capacity * 2 / 10 := by
      rw [m.sized]
      rfl
    simp only [HashMap.call, tableCall, map_some, HashMap.needsRebuild, Ds.HashMap.needsRebuild, threshold]
    rfl

end HashMap

namespace FixedHashMap

variable {n : Nat} (positive : 0 < n) (m : FixedHashMap K V n)

def table (m : FixedHashMap K V n) : Ds.HashMap K V := Slots.table (.ofCapacity n) m

include positive in
theorem call_table (call : MapCall K V) : (FixedHashMap.call m call).map (Prod.map id table) =
    tableCall (table m) call := by
  have bound : ¬ (table m).capacity = 0 := Nat.ne_of_gt positive
  cases call with
  | op op =>
    cases op with
    | insert k v =>
      rw [FixedHashMap.call, tableCall_insert, map_wrap, Ds.HashMap.insert, if_neg bound]
      exact congrArg _ (Slots.insert_table m rfl positive k v)
    | upsert k v =>
      rw [FixedHashMap.call, tableCall_upsert, map_wrap, Ds.HashMap.upsert, if_neg bound]
      exact congrArg _ (Slots.upsert_table m rfl positive k v)
    | erase k =>
      rw [FixedHashMap.call, tableCall_erase, map_wrap, Ds.HashMap.erase, if_neg bound]
      exact congrArg _ (Slots.erase_table m rfl positive k)
    | find k =>
      rw [FixedHashMap.call, tableCall_find, Ds.HashMap.find, if_neg bound, map_map]
      exact congrArg _ (Slots.find_table m rfl positive k)
    | forEach fn =>
      have scanned := Slots.forEachTo_table (z := .ofCapacity n) fn m (Nat.le_refl n)
      rw [tableCall_forEach, Table.forEach]
      exact congrArg (fun visit => some (Prod.map (MapReply.answer ∘ MapAnswer.visited) id visit)) scanned
    | clear => exact congrArg (fun t =>
        some (MapReply.answer MapAnswer.cleared, t)) (Slots.clear_table (z := .ofCapacity n) m)
  | size => rfl
  | tombstoneCount => rfl
  | needsRebuild => rfl

end FixedHashMap

theorem replies_eq [Inhabited K] [Inhabited V] {buffer : Nat → Slot K V} {capacity : Nat} {m : HashMap K V}
    (created : HashMap.create buffer capacity = some m) (calls : List (MapCall K V)) :
    Lockstep.replies FixedHashMap.call calls (FixedHashMap.empty : FixedHashMap K V capacity) =
      Lockstep.replies HashMap.call calls m := by
  unfold HashMap.create at created
  split at created
  case isFalse => cases created
  case isTrue valid =>
    cases created
    have positive : 0 < capacity := by
      simp only [isValidCapacity, Bool.and_eq_true, decide_eq_true_eq] at valid
      omega
    have start : FixedHashMap.table (FixedHashMap.empty : FixedHashMap K V capacity) =
        (Slots.clear { slots := buffer } (.ofCapacity capacity)).table (.ofCapacity capacity) := by
      rw [Slots.clear_table]
      simp only [FixedHashMap.table, FixedHashMap.empty, Slots.table, Slot.toSlot, Table.clear, ite_self]
    rw [Lockstep.replies_eq (FixedHashMap.call_table positive), start, Lockstep.replies_eq HashMap.call_table]
    rfl

end TickToTrade.Ds.SlotLevel
