import TickToTrade.Basic
import TickToTrade.Lib.ProbingUpdate

/-!
The hash maps of `ds/hash_map.hpp` and `ds/fixed_hash_map.hpp`. Both run the probe loops of
`Probing.Table` with a load limit of seven tenths.
-/

namespace TickToTrade.Ds
open Probing Function

/-- The finalizer of `ds/hash_utils.hpp`. -/
def mix64 (k : UInt64) : UInt64 :=
  let k := k ^^^ (k >>> 33)
  let k := k * 0xFF51AFD7ED558CCD
  let k := k ^^^ (k >>> 33)
  let k := k * 0xC4CEB9FE1A85EC53
  k ^^^ (k >>> 33)

/-- `DefaultHash<Key>`: the key cast to `size_t` and mixed. -/
class DefaultHash (K : Type) where
  hash : K → Nat

instance : DefaultHash Nat := ⟨fun k => (mix64 (UInt64.ofNat k)).toNat⟩

instance : DefaultHash Int := ⟨fun k => (mix64 (UInt64.ofNat (k % 2 ^ 64).toNat)).toNat⟩

theorem xorShift_involutive : Involutive fun k : UInt64 => k ^^^ (k >>> 33) := by
  intro k
  have past : (k >>> 33) >>> 33 = 0 := by
    apply UInt64.toNat_inj.mp
    have := k.toNat_lt
    simp only [UInt64.toNat_shiftRight, UInt64.reduceToNat, Nat.reduceMod, Nat.shiftRight_eq_div_pow]
    omega
  dsimp only
  rw [UInt64.shiftRight_xor, past, UInt64.xor_zero, UInt64.xor_assoc, UInt64.xor_self, UInt64.xor_zero]

theorem mul_bijective {c d : UInt64} (inverse : c * d = 1) : Bijective fun k : UInt64 => k * c := by
  refine bijective_iff_has_inverse.mpr ⟨fun k => k * d, fun k => ?_, fun k => ?_⟩
  all_goals dsimp only
  · rw [UInt64.mul_assoc, inverse, UInt64.mul_one]
  · rw [UInt64.mul_assoc, UInt64.mul_comm d, inverse, UInt64.mul_one]

theorem mix64_bijective : Bijective mix64 := by
  have shift := xorShift_involutive.bijective
  have first : Bijective fun k : UInt64 => k * 0xFF51AFD7ED558CCD :=
    mul_bijective (show (0xFF51AFD7ED558CCD : UInt64) * 0x4F74430C22A54005 = 1 by decide)
  have second : Bijective fun k : UInt64 => k * 0xC4CEB9FE1A85EC53 :=
    mul_bijective (show (0xC4CEB9FE1A85EC53 : UInt64) * 0x9CB4B2F8129337DB = 1 by decide)
  exact shift.comp (second.comp (shift.comp (first.comp shift)))

/-- Keys that differ as 64-bit values, ids or composite keys or prices, have different hashes. -/
theorem hashes_distinct : Bijective mix64 ∧ Set.InjOn (DefaultHash.hash : Nat → Nat) { k | k < 2 ^ 64 } ∧
    Set.InjOn (DefaultHash.hash : Int → Nat) { k | -2 ^ 63 ≤ k ∧ k < 2 ^ 63 } := by
  refine ⟨mix64_bijective, fun x (small : x < 2 ^ 64) y (small' : y < 2 ^ 64) same => ?_,
    fun x (range : -2 ^ 63 ≤ x ∧ x < 2 ^ 63) y (range' : -2 ^ 63 ≤ y ∧ y < 2 ^ 63) same => ?_⟩
  · have key := congrArg UInt64.toNat (mix64_bijective.1 (UInt64.toNat_inj.mp same))
    simp only [UInt64.toNat_ofNat'] at key
    omega
  · have key := congrArg UInt64.toNat (mix64_bijective.1 (UInt64.toNat_inj.mp same))
    simp only [UInt64.toNat_ofNat'] at key
    omega

variable {K V : Type} [DecidableEq K] [DefaultHash K]

abbrev HashMap (K V : Type) := Table K V

namespace HashMap

def isValidCapacity (c : Nat) : Bool := 4 ≤ c && isPowerOfTwo (c % 2 ^ 32) && c ≤ 2 ^ 32 - 1

def roundUpCapacity (n : Nat) : Exec Nat :=
  if n = 0 then some 0 else if n ≤ 4 then some 4 else if 2 ^ 32 - 1 < n then some 0 else roundUpPow2 n

def unbound : HashMap K V := Table.fresh 0 0

/-- `create` on a buffer of the required size. -/
def create (capacity : Nat) : Option (HashMap K V) :=
  if isValidCapacity capacity then some (Table.fresh capacity (capacity * 7 / 10)) else none

def needsRebuild (m : HashMap K V) : Bool := m.capacity * 2 / 10 < m.tombstones

def find (m : HashMap K V) (key : K) : Exec (Option V) :=
  if m.capacity = 0 then pure none else Table.find DefaultHash.hash m key

def insert (m : HashMap K V) (key : K) (value : V) : Exec (Bool × HashMap K V) :=
  if m.capacity = 0 then pure (false, m) else Table.insert DefaultHash.hash m key value

def erase (m : HashMap K V) (key : K) : Exec (Bool × HashMap K V) :=
  if m.capacity = 0 then pure (false, m) else Table.erase DefaultHash.hash m key

def upsert (m : HashMap K V) (key : K) (value : V) : Exec (Table.UpsertResult × HashMap K V) :=
  if m.capacity = 0 then pure (.capacityFull, m) else Table.upsert DefaultHash.hash m key value

/-- `for_each` with a callback that may write the value it is given; `fn` is told the entries
visited before, which is all that a callback with state of its own has seen. -/
def forEach (m : HashMap K V) (fn : List (K × V) → K → V → V) : List (K × V) × HashMap K V :=
  Table.forEach fn m

/-- A map in use: it has a buffer and its table is well formed. -/
abbrev Ok (m : HashMap K V) : Prop := Table.WellFormed DefaultHash.hash m

omit [DecidableEq K] in
theorem create_ok {capacity : Nat} {m : HashMap K V} (h : create capacity = some m) :
    m.Ok ∧ m = Table.fresh capacity (capacity * 7 / 10) := by
  unfold create at h
  split at h
  · rename_i valid
    cases h
    simp only [isValidCapacity, Bool.and_eq_true, decide_eq_true_eq] at valid
    obtain ⟨⟨four, single⟩, word⟩ := valid
    rw [Nat.mod_eq_of_lt (by omega)] at single
    obtain ⟨p, rfl⟩ := isPowerOfTwo_pow single
    exact ⟨Table.fresh_wellFormed (by omega), rfl⟩
  · cases h

section Ok

variable {m : HashMap K V} {k : K} {v : V}

theorem Ok.find_eq (ok : m.Ok) (k : K) : m.find k = some (m.content k) := by
  rw [find, if_neg (Nat.ne_of_gt ok.capacity_pos)]
  exact Table.WellFormed.find_eq ok k

theorem Ok.insert_eq (ok : m.Ok) (k : K) (v : V) :
    m.insert k v = Table.insert DefaultHash.hash m k v :=
  if_neg (Nat.ne_of_gt ok.capacity_pos)

theorem Ok.erase_eq (ok : m.Ok) (k : K) : m.erase k = Table.erase DefaultHash.hash m k :=
  if_neg (Nat.ne_of_gt ok.capacity_pos)

theorem Ok.upsert_eq (ok : m.Ok) (k : K) (v : V) :
    m.upsert k v = Table.upsert DefaultHash.hash m k v :=
  if_neg (Nat.ne_of_gt ok.capacity_pos)

end Ok

end HashMap

/-- A `FixedHashMap` is a table whose capacity is `capacityPow2`. -/
abbrev FixedHashMap (K V : Type) (_capacityPow2 : Nat) := Table K V

namespace FixedHashMap

variable {n : Nat}

def empty : FixedHashMap K V n := Table.fresh n (n * 7 / 10)

def find (m : FixedHashMap K V n) (key : K) : Exec (Option V) := Table.find DefaultHash.hash m key

def insert (m : FixedHashMap K V n) (key : K) (value : V) : Exec (Bool × FixedHashMap K V n) :=
  Table.insert DefaultHash.hash m key value

def erase (m : FixedHashMap K V n) (key : K) : Exec (Bool × FixedHashMap K V n) :=
  Table.erase DefaultHash.hash m key

end FixedHashMap

end TickToTrade.Ds
