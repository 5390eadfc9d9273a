import Mathlib

/-! Sums of weights over lists without duplicates. -/

namespace ListSums
open List

variable {α : Type} [DecidableEq α] {f g : α → Nat} {l l' : List α} {x : α} {d : Nat}

omit [DecidableEq α] in
theorem sum_map_le_of_subset (nodup : l'.Nodup) (subset : l' ⊆ l) (le : ∀ y ∈ l, f y ≤ g y) :
    (l'.map f).sum ≤ (l.map g).sum := by
  obtain ⟨l'', perm, sublist⟩ := subperm_of_subset nodup subset
  calc (l'.map f).sum = (l''.map f).sum := (perm.map f).sum_eq.symm
    _ ≤ (l.map f).sum := (sublist.map f).sum_le_sum fun _ _ => Nat.zero_le _
    _ ≤ (l.map g).sum := sum_le_sum le

theorem sum_map_drop (member : x ∈ l) (drop : f x + d ≤ g x) (le : ∀ y ∈ l, f y ≤ g y) :
    (l.map f).sum + d ≤ (l.map g).sum := by
  have perm := perm_cons_erase member
  have rest : ((l.erase x).map f).sum ≤ ((l.erase x).map g).sum :=
    sum_le_sum fun y inside => le y (mem_of_mem_erase inside)
  rw [(perm.map f).sum_eq, (perm.map g).sum_eq, map_cons, map_cons, sum_cons, sum_cons]
  omega

theorem sum_map_rise (nodup : l.Nodup) (rise : f x ≤ g x + d) (le : ∀ y ∈ l, y ≠ x → f y ≤ g y) :
    (l.map f).sum ≤ (l.map g).sum + d := by
  by_cases member : x ∈ l
  · have perm := perm_cons_erase member
    have rest : ((l.erase x).map f).sum ≤ ((l.erase x).map g).sum := by
      refine sum_le_sum fun y inside => ?_
      obtain ⟨other, old⟩ := nodup.mem_erase_iff.mp inside
      exact le y old other
    rw [(perm.map f).sum_eq, (perm.map g).sum_eq, map_cons, map_cons, sum_cons, sum_cons]
    omega
  · have all : (l.map f).sum ≤ (l.map g).sum :=
      sum_le_sum fun y inside => le y inside fun same => member (same ▸ inside)
    omega

theorem countP_add_one {p q : α → Bool} (nodup : l.Nodup) (member : x ∈ l) (off : p x = false) (on : q x = true)
    (same : ∀ y ∈ l, y ≠ x → q y = p y) : l.countP q = l.countP p + 1 := by
  have perm := perm_cons_erase member
  have rest : (l.erase x).countP q = (l.erase x).countP p := by
    refine countP_congr fun y inside => ?_
    obtain ⟨other, old⟩ := nodup.mem_erase_iff.mp inside
    rw [same y old other]
  rw [perm.countP_eq, perm.countP_eq, countP_cons_of_pos on, countP_cons_of_neg (by simp [off]), rest]

end ListSums
