import Mathlib

/-!
Fixed-width unsigned integers in network byte order.
-/

namespace BigEndian
open List

/-- The `n` low bytes of `x`, the most significant one first. -/
def store : Nat → Nat → List UInt8
  | 0, _ => []
  | n + 1, x => UInt8.ofNat (x / 256 ^ n) :: store n x

@[simp] theorem store_length (n x : Nat) : (store n x).length = n := by
  induction n with
  | zero => rfl
  | succ n ih => rw [store, length_cons, ih]

/-- The number with the given bytes. -/
def load : List UInt8 → Nat
  | [] => 0
  | byte :: rest => byte.toNat * 256 ^ rest.length + load rest

theorem load_lt (bytes : List UInt8) : load bytes < 256 ^ bytes.length := by
  induction bytes with
  | nil => exact Nat.one_pos
  | cons byte rest ih =>
    have small : byte.toNat + 1 ≤ 256 := byte.toNat_lt
    calc load (byte :: rest) < byte.toNat * 256 ^ rest.length + 256 ^ rest.length := Nat.add_lt_add_left ih _
      _ = (byte.toNat + 1) * 256 ^ rest.length := (Nat.succ_mul _ _).symm
      _ ≤ 256 * 256 ^ rest.length := Nat.mul_le_mul_right _ small
      _ = 256 ^ (rest.length + 1) := by rw [Nat.pow_succ, Nat.mul_comm]

theorem load_store (n x : Nat) : load (store n x) = x % 256 ^ n := by
  induction n with
  | zero => rw [Nat.pow_zero, Nat.mod_one]; rfl
  | succ n ih =>
    have top : (UInt8.ofNat (x / 256 ^ n)).toNat = x / 256 ^ n % 256 := UInt8.toNat_ofNat
    rw [store, load, ih, store_length, top, Nat.mod_pow_succ, Nat.add_comm, Nat.mul_comm]

theorem store_mod {n m : Nat} (x : Nat) (within : n ≤ m) : store n (x % 256 ^ m) = store n x := by
  induction n with
  | zero => rfl
  | succ n ih =>
    obtain ⟨k, rfl⟩ := Nat.exists_eq_add_of_le within
    have top : UInt8.ofNat (x % 256 ^ (n + 1 + k) / 256 ^ n) = UInt8.ofNat (x / 256 ^ n) := by
      apply UInt8.toNat_inj.mp
      rw [UInt8.toNat_ofNat', UInt8.toNat_ofNat',
        show n + 1 + k = n + (k + 1) by omega, Nat.pow_add, Nat.mod_mul_right_div_self,
        Nat.pow_succ, Nat.mul_comm, Nat.mod_mod_of_dvd _ ⟨_, rfl⟩]
    rw [store, store, top, ih (by omega)]

theorem store_load (bytes : List UInt8) : store bytes.length (load bytes) = bytes := by
  induction bytes with
  | nil => rfl
  | cons byte rest ih =>
    have small := load_lt rest
    have top : (byte.toNat * 256 ^ rest.length + load rest) / 256 ^ rest.length = byte.toNat := by
      rw [Nat.mul_comm, Nat.mul_add_div (Nat.pow_pos (by decide)), Nat.div_eq_of_lt small, Nat.add_zero]
    have low : store rest.length (byte.toNat * 256 ^ rest.length + load rest) = store rest.length (load rest) := by
      rw [← store_mod _ (Nat.le_refl _), Nat.mul_comm, Nat.mul_add_mod, store_mod _ (Nat.le_refl _)]
    rw [length_cons, store, load, top, low, ih, UInt8.ofNat_toNat]

/-- The number in the `n` bytes at `offset`. -/
def loadAt (n offset : Nat) (buf : List UInt8) : Nat := load ((buf.drop offset).take n)

section Fields

variable {n m offset x : Nat} {byte : UInt8} {field rest buf : List UInt8}

theorem loadAt_lt : loadAt n offset buf < 256 ^ n := by
  refine Nat.lt_of_lt_of_le (load_lt _) (Nat.pow_le_pow_right (by decide) ?_)
  exact length_take_le n (buf.drop offset)

theorem store_loadAt (inside : offset + n ≤ buf.length) : store n (loadAt n offset buf) = (buf.drop offset).take n := by
  have whole : ((buf.drop offset).take n).length = n := by
    rw [length_take, length_drop]
    omega
  have back := store_load ((buf.drop offset).take n)
  rwa [whole] at back

theorem loadAt_append (inside : offset + n ≤ buf.length) : loadAt n offset (buf ++ rest) = loadAt n offset buf := by
  have skipped : offset ≤ buf.length := by omega
  have remain : n ≤ (buf.drop offset).length := by rw [length_drop]; omega
  rw [loadAt, loadAt, drop_append_of_le_length skipped, take_append_of_le_length remain]

@[simp] theorem loadAt_store : loadAt n 0 (store n x ++ rest) = x % 256 ^ n := by
  have front : (store n x ++ rest).take n = store n x := take_left' (store_length n x)
  rw [loadAt, drop_zero, front, load_store]

@[simp] theorem loadAt_store_last : loadAt n 0 (store n x) = x % 256 ^ n := by
  rw [← append_nil (store n x), loadAt_store]

theorem loadAt_skip (passed : field.length ≤ offset) :
    loadAt n offset (field ++ rest) = loadAt n (offset - field.length) rest := by
  rw [loadAt, drop_append, drop_of_length_le passed, nil_append, loadAt]

@[simp] theorem loadAt_store_skip (passed : m ≤ offset) :
    loadAt n offset (store m x ++ rest) = loadAt n (offset - m) rest := by
  rw [loadAt_skip (by rwa [store_length]), store_length]

@[simp] theorem loadAt_cons : loadAt n (offset + 1) (byte :: rest) = loadAt n offset rest := rfl

/-- The byte at `offset`, where there is one. -/
def byteAt (offset : Nat) (buf : List UInt8) : UInt8 := buf.getD offset 0

@[simp] theorem byteAt_store_skip (passed : m ≤ offset) :
    byteAt offset (store m x ++ rest) = byteAt (offset - m) rest := by
  have later : (store m x).length ≤ offset := by rwa [store_length]
  rw [byteAt, byteAt, getD_eq_getElem?_getD, getElem?_append_right later, store_length,
    ← getD_eq_getElem?_getD]

@[simp] theorem byteAt_cons_zero : byteAt 0 (byte :: rest) = byte := rfl

@[simp] theorem byteAt_cons_succ : byteAt (offset + 1) (byte :: rest) = byteAt offset rest := rfl

end Fields

/-! ### Stores into a buffer -/

/-- `bytes` copied to `offset`. -/
def storeAt (buf : List UInt8) (offset : Nat) (bytes : List UInt8) : List UInt8 :=
  buf.take offset ++ bytes ++ buf.drop (offset + bytes.length)

/-- The buffer after the stores `(offset, bytes)`, in their order. -/
def storeAll (buf : List UInt8) (stores : List (Nat × List UInt8)) : List UInt8 :=
  stores.foldl (fun buf s => storeAt buf s.1 s.2) buf

/-- Each store begins where the one before it ended. -/
def Adjacent : Nat → List (Nat × List UInt8) → Prop
  | _, [] => True
  | offset, (start, bytes) :: rest => start = offset ∧ Adjacent (offset + bytes.length) rest

/-- What adjacent stores leave in a buffer that has room for them. -/
theorem storeAll_adjacent {offset : Nat} {stores : List (Nat × List UInt8)} {buf : List UInt8}
    (adjacent : Adjacent offset stores) (room : offset + (stores.map Prod.snd).flatten.length ≤ buf.length) :
    storeAll buf stores =
      buf.take offset ++ (stores.map Prod.snd).flatten ++ buf.drop (offset + (stores.map Prod.snd).flatten.length) := by
  -- the first store becomes part of what stands before the others
  induction stores generalizing offset buf with
  | nil => simp [storeAll]
  | cons first rest ih =>
    obtain ⟨start, bytes⟩ := first
    obtain ⟨rfl, next⟩ := adjacent
    simp only [map_cons, flatten_cons, length_append] at room ⊢
    have before : (buf.take start).length = start := length_take_of_le (by omega)
    have same : (storeAt buf start bytes).length = buf.length := by
      simp only [storeAt, length_append, before, length_drop]
      omega
    have front : (storeAt buf start bytes).take (start + bytes.length) = buf.take start ++ bytes := by
      rw [storeAt, take_left' (by rw [length_append, before])]
    have tail (k : Nat) : (storeAt buf start bytes).drop (start + bytes.length + k) =
        buf.drop (start + bytes.length + k) := by
      rw [← drop_drop, storeAt, drop_left' (by rw [length_append, before]), drop_drop]
    have later := ih next (show _ ≤ (storeAt buf start bytes).length by omega)
    rw [front, tail] at later
    rw [show storeAll buf ((start, bytes) :: rest) = storeAll (storeAt buf start bytes) rest from rfl, later]
    simp only [append_assoc, Nat.add_assoc]

end BigEndian
