import Mathlib

/-!
Open addressing with linear probing and tombstones, over an arbitrary hash. An operation returns `none`
where the probe loop runs through the whole table without meeting an empty slot.
-/

namespace Probing
open Function

inductive Slot (K V : Type) where
  | empty
  | full (key : K) (value : V)
  | tombstone
  deriving DecidableEq

def Slot.entry {K V : Type} : Slot K V → Option (K × V)
  | .full key value => some (key, value)
  | _ => none

def Slot.isTombstone {K V : Type} : Slot K V → Bool
  | .tombstone => true
  | _ => false

section Slots

variable {K V : Type} (k : K) (v : V)

@[simp] theorem Slot.entry_empty : (.empty : Slot K V).entry = none := rfl
@[simp] theorem Slot.entry_full : (Slot.full k v).entry = some (k, v) := rfl
@[simp] theorem Slot.entry_tombstone : (.tombstone : Slot K V).entry = none := rfl
@[simp] theorem Slot.isTombstone_empty : (.empty : Slot K V).isTombstone = false := rfl
@[simp] theorem Slot.isTombstone_full : (Slot.full k v).isTombstone = false := rfl
@[simp] theorem Slot.isTombstone_tombstone : (.tombstone : Slot K V).isTombstone = true := rfl

end Slots

structure Table (K V : Type) where
  capacity : Nat
  maxLoad : Nat
  slots : Nat → Slot K V
  size : Nat
  tombstones : Nat

variable {K V : Type} [DecidableEq K]

namespace Table

def fresh (capacity maxLoad : Nat) : Table K V :=
  { capacity, maxLoad, slots := fun _ => .empty, size := 0, tombstones := 0 }

def mask (t : Table K V) : Nat := t.capacity - 1

def bucketFor (hash : K → Nat) (t : Table K V) (key : K) : Nat := hash key &&& t.mask

/-- The probe loop of a lookup: `n` iterations are left and `idx` is the slot to look at. -/
def probeFindFrom (t : Table K V) (key : K) : Nat → Nat → Option Nat
  | 0, _ => none
  | n + 1, idx =>
    match t.slots idx with
    | .empty => some idx
    | .full k _ => if k = key then some idx else probeFindFrom t key n ((idx + 1) &&& t.mask)
    | .tombstone => probeFindFrom t key n ((idx + 1) &&& t.mask)

def probeFind (hash : K → Nat) (t : Table K V) (key : K) : Option Nat :=
  t.probeFindFrom key t.capacity (t.bucketFor hash key)

/-- The probe loop of an insertion. It remembers the first tombstone and answers the slot to
write and whether that slot already holds the key. -/
def probeInsertFrom (t : Table K V) (key : K) : Nat → Nat → Option Nat → Option (Nat × Bool)
  | 0, _, _ => none
  | n + 1, idx, firstTombstone =>
    match t.slots idx with
    | .empty => some (firstTombstone.getD idx, false)
    | .full k _ =>
      if k = key then some (idx, true)
      else probeInsertFrom t key n ((idx + 1) &&& t.mask) firstTombstone
    | .tombstone => probeInsertFrom t key n ((idx + 1) &&& t.mask) (firstTombstone.or (some idx))

def probeInsert (hash : K → Nat) (t : Table K V) (key : K) : Option (Nat × Bool) :=
  t.probeInsertFrom key t.capacity (t.bucketFor hash key) none

def find (hash : K → Nat) (t : Table K V) (key : K) : Option (Option V) := do
  let idx ← t.probeFind hash key
  match t.slots idx with
  | .full _ value => pure (some value)
  | _ => pure none

/-- Write a new entry at `idx`, a slot that is empty or a tombstone. -/
def occupy (t : Table K V) (idx : Nat) (key : K) (value : V) : Table K V :=
  { t with
    slots := update t.slots idx (.full key value)
    size := t.size + 1
    tombstones := if (t.slots idx).isTombstone then t.tombstones - 1 else t.tombstones }

def insert (hash : K → Nat) (t : Table K V) (key : K) (value : V) : Option (Bool × Table K V) := do
  let (idx, foundExisting) ← t.probeInsert hash key
  if foundExisting then pure (false, t)
  else if !(t.slots idx).isTombstone && t.maxLoad ≤ t.size + t.tombstones then pure (false, t)
  else pure (true, t.occupy idx key value)

inductive UpsertResult where
  | inserted
  | updated
  | capacityFull
  deriving DecidableEq

def upsert (hash : K → Nat) (t : Table K V) (key : K) (value : V) :
    Option (UpsertResult × Table K V) := do
  let (idx, foundExisting) ← t.probeInsert hash key
  if foundExisting then
    pure (.updated, { t with slots := update t.slots idx (.full key value) })
  else if !(t.slots idx).isTombstone && t.maxLoad ≤ t.size + t.tombstones then
    pure (.capacityFull, t)
  else pure (.inserted, t.occupy idx key value)

def bury (t : Table K V) (idx : Nat) : Table K V :=
  { t with
    slots := update t.slots idx .tombstone
    size := t.size - 1
    tombstones := t.tombstones + 1 }

def erase (hash : K → Nat) (t : Table K V) (key : K) : Option (Bool × Table K V) := do
  let idx ← t.probeFind hash key
  match t.slots idx with
  | .full _ _ => pure (true, t.bury idx)
  | _ => pure (false, t)

def clear (t : Table K V) : Table K V :=
  { t with slots := fun _ => .empty, size := 0, tombstones := 0 }

/-- The live entries in the order a scan of the slots visits them. -/
def entries (t : Table K V) : List (K × V) :=
  (List.range t.capacity).filterMap fun i => (t.slots i).entry

/-- The finite map a table stands for. -/
def content (t : Table K V) (key : K) : Option V :=
  (t.entries.find? fun entry => entry.1 = key).map Prod.snd

/-- Whether an insertion of `key` would write a slot. -/
def accepts (hash : K → Nat) (t : Table K V) (key : K) : Bool :=
  match t.probeInsert hash key with
  | some (idx, false) => (t.slots idx).isTombstone || t.size + t.tombstones < t.maxLoad
  | _ => false

end Table

end Probing
