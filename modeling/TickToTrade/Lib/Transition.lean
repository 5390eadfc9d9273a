import Mathlib

/-!
Runs of a partial step function: `none` is a step that fails. A condition on the steps of a run is
checked in the state in which each step is taken.
-/

namespace Transition
open Option

variable {σ α : Type} (step : σ → α → Option σ)

def run : List α → σ → Option σ
  | [], s => some s
  | a :: as, s => do
    let s ← step s a
    run as s

/-- Every step that the run takes meets `P`. -/
def Along (P : σ → α → Prop) : List α → σ → Prop
  | [], _ => True
  | a :: as, s => P s a ∧ ∀ s' ∈ step s a, Along P as s'

instance decidableAlong (P : σ → α → Prop) [∀ s a, Decidable (P s a)] : ∀ as s, Decidable (Along step P as s)
  | [], _ => isTrue trivial
  | a :: as, s =>
    have := decidableAlong P as
    inferInstanceAs (Decidable (P s a ∧ ∀ s' ∈ step s a, Along step P as s'))

variable {step} {P : σ → α → Prop} {s s' : σ} {as : List α}

theorem along_of_forall (all : ∀ s, ∀ a ∈ as, P s a) : Along step P as s := by
  induction as generalizing s with
  | nil => trivial
  | cons a as ih =>
    exact ⟨all s a List.mem_cons_self, fun s' _ => ih fun s b member => all s b (List.mem_cons_of_mem _ member)⟩

theorem along_append {bs : List α} (first : Along step P as s) (second : ∀ s' ∈ run step as s, Along step P bs s') :
    Along step P (as ++ bs) s := by
  induction as generalizing s with
  | nil => exact second s rfl
  | cons a as ih =>
    refine ⟨first.1, fun s₁ stepped => ih (first.2 s₁ stepped) fun s' ran => second s' ?_⟩
    exact bind_eq_some_iff.mpr ⟨s₁, stepped, ran⟩

theorem run_append {bs : List α} {s'' : σ} (first : run step as s = some s') (second : run step bs s' = some s'') :
    run step (as ++ bs) s = some s'' := by
  induction as generalizing s with
  | nil =>
    cases first
    exact second
  | cons a as ih =>
    obtain ⟨s₁, stepped, first⟩ := bind_eq_some_iff.mp first
    exact bind_eq_some_iff.mpr ⟨s₁, stepped, ih first⟩

theorem run_cons {a : α} {s'' : σ} (stepped : step s a = some s') (rest : run step as s' = some s'') :
    run step (a :: as) s = some s'' :=
  bind_eq_some_iff.mpr ⟨s', stepped, rest⟩

/-- What every step keeps holds at the end of a run. -/
theorem run_invariant {Inv : σ → Prop} (keeps : ∀ {s a s'}, Inv s → P s a → step s a = some s' → Inv s') (start : Inv s)
    (along : Along step P as s) (ran : run step as s = some s') : Inv s' := by
  induction as generalizing s with
  | nil =>
    cases ran
    exact start
  | cons a as ih =>
    obtain ⟨s₁, stepped, ran⟩ := bind_eq_some_iff.mp ran
    exact ih (keeps start along.1 stepped) (along.2 s₁ stepped) ran

theorem run_keeps (Inv : σ → Prop) (keeps : ∀ {s a s'}, Inv s → step s a = some s' → Inv s') (start : Inv s)
    (ran : run step as s = some s') : Inv s' :=
  run_invariant (P := fun _ _ => True)
    (fun inv _ stepped => keeps inv stepped) start (along_of_forall fun _ _ _ => trivial) ran

end Transition
