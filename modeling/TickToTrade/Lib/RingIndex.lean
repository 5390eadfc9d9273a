import Mathlib

/-!
Positions in a ring. Two counters that only grow are kept modulo `m`, and a buffer whose capacity
divides `m` is addressed by their remainders; the counters themselves are unbounded.
-/

namespace RingIndex
open Function

/-- `a - b` on words of size `m`. -/
def wrapSub (m a b : Nat) : Nat := (a + m - b) % m

variable {m capacity consumed produced k l n i : Nat}

/-- The difference of two counters that are less than `m` apart survives the wrap. -/
theorem wrapSub_counters (order : consumed ≤ produced) (near : produced - consumed < m) :
    wrapSub m (produced % m) (consumed % m) = produced - consumed := by
  obtain ⟨d, rfl⟩ := Nat.exists_eq_add_of_le order
  rw [Nat.add_sub_cancel_left] at near ⊢
  have below : consumed % m < m := Nat.mod_lt _ (by omega)
  have sum : (consumed + d) % m = (consumed % m + d) % m := (Nat.mod_add_mod consumed m d).symm
  rw [wrapSub, sum]
  by_cases inside : consumed % m + d < m
  · rw [Nat.mod_eq_of_lt inside, show consumed % m + d + m - consumed % m = d + m by omega, Nat.add_mod_right,
      Nat.mod_eq_of_lt near]
  · have wrapped : (consumed % m + d) % m = consumed % m + d - m := by
      rw [Nat.mod_eq_sub_mod (Nat.le_of_not_lt inside), Nat.mod_eq_of_lt (by omega)]
    rw [wrapped, show consumed % m + d - m + m - consumed % m = d by omega, Nat.mod_eq_of_lt near]

theorem wrapSub_of_lt {a b : Nat} (left : a < m) (right : b < m) : wrapSub m a b = if b ≤ a then a - b
    else a + m - b := by
  unfold wrapSub
  split
  · rw [show a + m - b = a - b + m by omega, Nat.add_mod_right, Nat.mod_eq_of_lt (by omega)]
  · exact Nat.mod_eq_of_lt (by omega)

theorem wrapSub_eq_zero {a b : Nat} (left : a < m) (right : b < m) : wrapSub m a b = 0 ↔ a = b := by
  rw [wrapSub_of_lt left right]
  split <;> omega

/-- One step of the second counter takes one off the distance to a position that it is not at. -/
theorem wrapSub_succ {a b : Nat} (left : a < m) (other : a ≠ b % m) :
    wrapSub m a ((b + 1) % m) + 1 = wrapSub m a (b % m) := by
  have right : b % m < m := Nat.mod_lt _ (by omega)
  rw [← Nat.mod_add_mod b m 1]
  generalize b % m = at_ at *
  rcases Nat.lt_or_ge (at_ + 1) m with inside | last
  · rw [Nat.mod_eq_of_lt inside, wrapSub_of_lt left inside, wrapSub_of_lt left right]
    split <;> split <;> omega
  · rw [show at_ + 1 = m by omega, Nat.mod_self, wrapSub_of_lt left (by omega), wrapSub_of_lt left right,
      if_pos (Nat.zero_le a)]
    split <;> omega

/-- A mask of ones takes the remainder. -/
theorem and_mask (power : ∃ p, capacity = 2 ^ p) (x : Nat) : x &&& (capacity - 1) = x % capacity := by
  obtain ⟨p, rfl⟩ := power
  exact Nat.and_two_pow_sub_one_eq_mod x p

/-- Entries less than a capacity apart have different positions. -/
theorem position_ne (less : k < l) (near : l < k + capacity) : k % capacity ≠ l % capacity := by
  intro same
  have divides : capacity ∣ l - k := (Nat.modEq_iff_dvd' (Nat.le_of_lt less)).mp same
  have := Nat.le_of_dvd (by omega) divides
  omega

/-- A run of `n` entries that begins at `k`, as two segments: up to the end of the buffer and from its beginning. -/
theorem segments_eq (small : n ≤ capacity) (inside : i < n) :
    (if i < min n (capacity - k % capacity) then k % capacity + i else i - min n (capacity - k % capacity)) =
      (k + i) % capacity := by
  have start : k % capacity < capacity := Nat.mod_lt _ (by omega)
  rw [← Nat.mod_add_mod k capacity i]
  generalize k % capacity = first at *
  split
  case isTrue => exact (Nat.mod_eq_of_lt (by omega)).symm
  case isFalse =>
    have wrapped : (first + i) % capacity = first + i - capacity := by
      rw [Nat.mod_eq_sub_mod (by omega), Nat.mod_eq_of_lt (by omega)]
    omega

/-! ### Buffers -/

section Buffer

variable {α : Type} {buf : Nat → α} {first : Nat} {entries : List α} {v : α}

/-- The entries from number `first` on are in their places. -/
def Holds (capacity : Nat) (buf : Nat → α) (first : Nat) (entries : List α) : Prop :=
  ∀ k v, first ≤ k → entries[k]? = some v → buf (k % capacity) = v

theorem Holds.mono (holds : Holds capacity buf first entries) {later : Nat} (after : first ≤ later) :
    Holds capacity buf later entries :=
  fun k v behind found => holds k v (Nat.le_trans after behind) found

/-- One more entry, if the buffer is not full, overwrites none of them. -/
theorem Holds.push (holds : Holds capacity buf first entries) (room : entries.length < first + capacity) (v : α) :
    Holds capacity (update buf (entries.length % capacity) v) first (entries ++ [v]) := by
  intro k w behind found
  rw [List.getElem?_append] at found
  split at found
  case isTrue old =>
    rw [update_of_ne (position_ne old (by omega))]
    exact holds k w behind found
  case isFalse new =>
    have index : k = entries.length := by
      have short := (List.getElem?_eq_some_iff.mp found).1
      simp only [List.length_singleton] at short
      omega
    subst index
    rw [update_self]
    simpa using found

end Buffer

end RingIndex
