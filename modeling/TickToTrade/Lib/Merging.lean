import Mathlib

/-!
The merge of numbered lanes by a key; of equal heads the one in the lane with the least number is taken.
-/

namespace Merging
open List Function

variable {α κ : Type} [LinearOrder κ] {key : α → κ} {lanes : Nat → List α} {out : List (Nat × α)}

/-- `e` is the head of lane `q` that a merge takes next. -/
structure Picks (key : α → κ) (lanes : Nat → List α) (q : Nat) (e : α) (rest : List α) : Prop where
  here : lanes q = e :: rest
  least : ∀ p x, (lanes p).head? = some x → key e ≤ key x
  first : ∀ p x, p < q → (lanes p).head? = some x → key e < key x

inductive Merged (key : α → κ) : (Nat → List α) → List (Nat × α) → Prop
  | done {lanes : Nat → List α} (empty : ∀ p, lanes p = []) : Merged key lanes []
  | pick {lanes : Nat → List α} {q : Nat} {e : α} {rest : List α} {out : List (Nat × α)}
    (picks : Picks key lanes q e rest) (later : Merged key (update lanes q rest) out) : Merged key lanes ((q, e) :: out)

/-- Each lane is found in the result, in its order. -/
theorem Merged.lane (merged : Merged key lanes out) (p : Nat) : (out.filter fun x => x.1 = p).map Prod.snd =
    lanes p := by
  induction merged with
  | done empty => exact (empty p).symm
  | @pick lanes q e rest out picks _ ih =>
    by_cases here : p = q
    · subst here
      rw [filter_cons_of_pos (by simp), map_cons, ih, update_self, picks.here]
    · rw [filter_cons_of_neg (by simpa using Ne.symm here), ih, update_of_ne here]

theorem Merged.mem (merged : Merged key lanes out) {p : Nat} {x : α} (member : (p, x) ∈ out) : x ∈ lanes p := by
  rw [← merged.lane p, mem_map]
  exact ⟨(p, x), mem_filter.mpr ⟨member, by simp⟩, rfl⟩

/-- The head of one lane can be put first. -/
theorem flatMap_pick {q : Nat} {e : α} {rest : List α} (here : lanes q = e :: rest) {n : Nat} (bound : q < n) :
    ((range n).flatMap lanes).Perm (e :: (range n).flatMap (update lanes q rest)) := by
  have apart : ∀ m ≤ q, (range m).flatMap (update lanes q rest) = (range m).flatMap lanes := by
    intro m below
    refine flatMap_congr fun p member => update_of_ne ?_ _ _
    have less := mem_range.mp member
    omega
  induction n with
  | zero => omega
  | succ n ih =>
    rw [range_succ, flatMap_append, flatMap_append, flatMap_singleton, flatMap_singleton]
    by_cases last : q = n
    · subst last
      rw [apart q (Nat.le_refl q), here, update_self]
      exact perm_middle
    · rw [update_of_ne (Ne.symm last)]
      exact (ih (by omega)).append_right (lanes n)

theorem Merged.perm (merged : Merged key lanes out) {n : Nat} (outside : ∀ p, n ≤ p → lanes p = []) :
    (out.map Prod.snd).Perm ((range n).flatMap lanes) := by
  induction merged with
  | @done lanes empty =>
    have none : (range n).flatMap lanes = [] := flatMap_eq_nil_iff.mpr fun p _ => empty p
    rw [none, map_nil]
  | @pick lanes q e rest out picks _ ih =>
    have bound : q < n := by
      by_contra far
      have nothing := outside q (Nat.not_lt.mp far)
      rw [picks.here] at nothing
      cases nothing
    have later : (out.map Prod.snd).Perm _ := ih fun p far => by
      rw [update_of_ne (by omega)]
      exact outside p far
    exact (later.cons e).trans (flatMap_pick picks.here bound).symm

/-- An element that comes later has a greater key, or the same key and a lane that is not lower. -/
def Before (key : α → κ) (x y : Nat × α) : Prop := key x.2 < key y.2 ∨ key x.2 = key y.2 ∧ x.1 ≤ y.1

theorem Picks.before {q : Nat} {e : α} {rest : List α} (picks : Picks key lanes q e rest)
    (sorted : ∀ p, (lanes p).Pairwise fun x y => key x ≤ key y) {p : Nat} {x : α} (member : x ∈ update lanes q rest p) :
    Before key (q, e) (p, x) := by
  by_cases here : p = q
  · subst here
    rw [update_self] at member
    have order := sorted p
    rw [picks.here] at order
    rcases lt_or_eq_of_le ((pairwise_cons.mp order).1 x member) with less | same
    · exact .inl less
    · exact .inr ⟨same, Nat.le_refl p⟩
  · rw [update_of_ne here] at member
    obtain ⟨head, tail, lane⟩ := exists_cons_of_ne_nil (ne_nil_of_mem member)
    have front : (lanes p).head? = some head := by rw [lane, head?_cons]
    have above : key head ≤ key x := by
      have order := sorted p
      rw [lane] at order member
      rcases mem_cons.mp member with rfl | later
      · exact le_refl _
      · exact (pairwise_cons.mp order).1 x later
    rcases Nat.lt_or_gt_of_ne here with lower | higher
    · exact .inl (lt_of_lt_of_le (picks.first p head lower front) above)
    · rcases lt_or_eq_of_le (le_trans (picks.least p head front) above) with less | same
      · exact .inl less
      · exact .inr ⟨same, Nat.le_of_lt higher⟩

/-- Sorted lanes give a sorted result, with equal keys in the order of their lanes. -/
theorem Merged.sorted (merged : Merged key lanes out) (sorted : ∀ p, (lanes p).Pairwise fun x y => key x ≤ key y) :
    out.Pairwise (Before key) := by
  induction merged with
  | done => exact List.Pairwise.nil
  | @pick lanes q e rest out picks later ih =>
    refine pairwise_cons.mpr ⟨fun x member => picks.before sorted (later.mem member), ih fun p => ?_⟩
    by_cases here : p = q
    · subst here
      have order := sorted p
      rw [picks.here] at order
      rw [update_self]
      exact (pairwise_cons.mp order).2
    · rw [update_of_ne here]
      exact sorted p

end Merging
