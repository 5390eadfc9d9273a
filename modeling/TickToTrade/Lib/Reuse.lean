import Mathlib

/-!
Places that are given out again and again. A stamp that depends on the number of uses of the place tells
two uses apart, as long as the stamps have not come round.
-/

namespace Reuse
open List

variable {α : Type} [DecidableEq α] {history : List α} {s s' : Nat} {a : α}

/-- How often `a` was given out before use `s`. -/
def rank (history : List α) (s : Nat) (a : α) : Nat := (history.take s).count a

/-- How often `a` was given out after use `s`. -/
def reuses (history : List α) (s : Nat) (a : α) : Nat := (history.drop (s + 1)).count a

theorem count_eq (found : history[s]? = some a) : history.count a = rank history s a + 1 + reuses history s a := by
  obtain ⟨bound, here⟩ := List.getElem?_eq_some_iff.mp found
  have cut : history.take s ++ history[s] :: history.drop (s + 1) = history := by
    rw [getElem_cons_drop, take_append_drop]
  calc history.count a = (history.take s ++ history[s] :: history.drop (s + 1)).count a := by rw [cut]
    _ = rank history s a + 1 + reuses history s a := by
      rw [count_append, here, count_cons_self, rank, reuses]
      omega

theorem rank_lt (found : history[s]? = some a) (later : s < s') : rank history s a < rank history s' a := by
  have next : rank history (s + 1) a = rank history s a + 1 := by
    rw [rank, take_add_one, found, count_append, rank]
    simp
  have grows : rank history (s + 1) a ≤ rank history s' a :=
    ((take_prefix_take_left (show s + 1 ≤ s' by omega)).sublist.count_le _)
  omega

theorem rank_length : rank history history.length a = history.count a := by
  rw [rank, take_length]

theorem rank_append (inside : s ≤ history.length) (more : List α) : rank (history ++ more) s a = rank history s a := by
  rw [rank, take_append_of_le_length inside, rank]

/-- Of two uses with one stamp, the later of which is the last of the place, the earlier is the same one. -/
theorem eq_of_stamp {β : Type} {stamp : Nat → β} {period : Nat}
    (distinct : ∀ {m n}, m < n → n < m + period → stamp m ≠ stamp n) (found : history[s]? = some a)
    (few : reuses history s a < period) (found' : history[s']? = some a)
    (last : history.count a = rank history s' a + 1)
    (same : stamp (rank history s a) = stamp (rank history s' a)) : s' = s := by
  have total := count_eq found
  rcases Nat.lt_trichotomy s s' with earlier | rfl | later
  · exact absurd same (distinct (rank_lt found earlier) (by omega))
  · rfl
  · have := rank_lt found' later
    omega

end Reuse
