import Mathlib

/-!
Vocabulary of the trading system (`algo/trading_types.hpp`). An `OrderId` and a `Qty` are a `Nat` and a
`Price` is an `Int`; a machine word wraps where the source lets it wrap.
-/

namespace TickToTrade

/-- A computation that may end in `std::abort()` or in a fault, written `none`. -/
abbrev Exec (α : Type) := Option α

inductive Side where
  | kBid
  | kAsk
  deriving DecidableEq, Repr

def Side.opposite : Side → Side
  | .kBid => .kAsk
  | .kAsk => .kBid

@[simp] theorem Side.opposite_opposite (s : Side) : s.opposite.opposite = s := by cases s <;> rfl

@[simp] theorem Side.opposite_ne (s : Side) : s.opposite ≠ s := by cases s <;> decide

theorem Side.eq_or_opposite (s s' : Side) : s' = s ∨ s' = s.opposite := by
  cases s <;> cases s' <;> simp [Side.opposite]

/-- `p` comes before `q` in the ladder of side `s`: bids descend and asks ascend. -/
def Better : Side → Int → Int → Prop
  | .kBid, p, q => q < p
  | .kAsk, p, q => p < q

instance (s : Side) (p q : Int) : Decidable (Better s p q) := by
  cases s <;> unfold Better <;> infer_instance

theorem better_irrefl (s : Side) (p : Int) : ¬ Better s p p := by
  cases s <;> simp [Better]

theorem better_trans {s : Side} {p q r : Int} (first : Better s p q) (second : Better s q r) : Better s p r := by
  cases s <;> simp only [Better] at * <;> omega

theorem better_total {s : Side} {p q : Int} (different : p ≠ q) (not : ¬ Better s p q) : Better s q p := by
  cases s <;> simp only [Better] at * <;> omega

/-- An incoming order of side `s` at price `p` trades with a resting price `q`. -/
def Crosses : Side → Int → Int → Prop
  | .kBid, p, q => q ≤ p
  | .kAsk, p, q => p ≤ q

instance (s : Side) (p q : Int) : Decidable (Crosses s p q) := by
  cases s <;> unfold Crosses <;> infer_instance

theorem not_crosses_iff {s : Side} {p q : Int} : ¬ Crosses s p q ↔ Better s.opposite p q := by
  cases s <;> simp only [Crosses, Better, Side.opposite] <;> omega

/-- The `int64_t` with the bits of `x`. -/
def toInt64 (x : Int) : Int := (x + 2 ^ 63) % 2 ^ 64 - 2 ^ 63

theorem toInt64_of_fits {x : Int} (low : -2 ^ 63 ≤ x) (high : x < 2 ^ 63) : toInt64 x = x := by
  unfold toInt64
  omega

/-- `--x` on a `uint32_t`. -/
def decrement32 (x : Nat) : Nat := (x + 2 ^ 32 - 1) % 2 ^ 32

theorem decrement32_of_pos {x : Nat} (positive : 0 < x) (word : x < 2 ^ 32) : decrement32 x = x - 1 := by
  unfold decrement32
  omega

/-- `std::bit_ceil` on a `uint32_t`, undefined where the power does not fit. -/
def roundUpPow2 (n : Nat) : Exec Nat :=
  if n ≤ 1 then some 1 else if 2 ^ 31 < n then none else some (2 ^ ((n - 1).log2 + 1))

/-- `std::has_single_bit`. -/
def isPowerOfTwo (n : Nat) : Bool := n ≠ 0 && n &&& (n - 1) = 0

theorem isPowerOfTwo_pow {n : Nat} (h : isPowerOfTwo n = true) : ∃ p, n = 2 ^ p := by
  simp only [isPowerOfTwo, Bool.and_eq_true, decide_eq_true_eq] at h
  exact Nat.ne_zero_and_sub_one_eq_zero_iff_isPowerOfTwo.mp h

theorem isPowerOfTwo_dvd {n k : Nat} (h : isPowerOfTwo n = true) (small : n < 2 ^ k) : n ∣ 2 ^ k := by
  obtain ⟨p, rfl⟩ := isPowerOfTwo_pow h
  exact Nat.pow_dvd_pow 2 (Nat.le_of_lt ((Nat.pow_lt_pow_iff_right (by decide)).mp small))

end TickToTrade
