import TickToTrade.Lib.Transition

/-!
Machines that answer every call, compared by their answers. `none` is a call that does not return,
and the machine takes no call after it.
-/

namespace Lockstep

variable {σ τ ι ο : Type}

/-- The answers to a sequence of calls. -/
def replies (step : σ → ι → Option (ο × σ)) : List ι → σ → List (Option ο)
  | [], _ => []
  | i :: is, s =>
    match step s i with
    | none => [none]
    | some (o, s') => some o :: replies step is s'

/-- A machine that another one simulates through `view` answers as the other one does. -/
theorem replies_eq {step : σ → ι → Option (ο × σ)} {step' : τ → ι → Option (ο × τ)} {view : σ → τ}
    (commutes : ∀ s i, (step s i).map (Prod.map id view) = step' (view s) i) (is : List ι) (s : σ) :
    replies step is s = replies step' is (view s) := by
  induction is generalizing s with
  | nil => rfl
  | cons i is ih =>
    rw [replies, replies, ← commutes s i]
    cases step s i with
    | none => rfl
    | some answered =>
      obtain ⟨o, s'⟩ := answered
      exact congrArg _ (ih s')

/-! ### Programs with a state that outlives a failure -/

variable {ε α β : Type}

def atEnd (view : σ → τ) : EStateM.Result ε σ α → EStateM.Result ε τ α
  | .ok a s => .ok a (view s)
  | .error e s => .error e (view s)

def load (f : σ → α) : EStateM ε σ α := fun s => .ok (f s) s

/-- The programs return the same or fail in the same way, in states that `view` relates. -/
def Agrees (view : σ → τ) (x : EStateM ε σ α) (y : EStateM ε τ α) : Prop := ∀ s, y (view s) = atEnd view (x s)

namespace Agrees

variable {view : σ → τ}

theorem of_pure (a : α) : Agrees view (pure a : EStateM ε σ α) (pure a) := fun _ => rfl

theorem of_throw (e : ε) : Agrees view (throw e : EStateM ε σ α) (throw e) := fun _ => rfl

theorem of_load {f : σ → α} {g : τ → α} (same : ∀ s, g (view s) = f s) : Agrees view (load (ε := ε) f) (load g) :=
  fun s => congrArg (EStateM.Result.ok · (view s)) (same s)

theorem of_modify {f : σ → σ} {g : τ → τ} (same : ∀ s, g (view s) = view (f s)) :
    Agrees view (modify f : EStateM ε σ PUnit) (modify g) :=
  fun s => congrArg (EStateM.Result.ok _) (same s)

protected theorem bind {x : EStateM ε σ α} {y : EStateM ε τ α} {k : α → EStateM ε σ β} {l : α → EStateM ε τ β}
    (first : Agrees view x y) (rest : ∀ a, Agrees view (k a) (l a)) : Agrees view (x >>= k) (y >>= l) := by
  intro s
  have ran := first s
  change EStateM.bind y l (view s) = atEnd view (EStateM.bind x k s)
  unfold EStateM.bind
  rw [ran]
  cases x s with
  | ok a s' => exact rest a s'
  | error e s' => rfl

protected theorem ite {c : Prop} [Decidable c] {x x' : EStateM ε σ α} {y y' : EStateM ε τ α}
    (yes : Agrees view x y) (no : Agrees view x' y') :
    Agrees view (if c then x else x') (if c then y else y') := by
  split
  · exact yes
  · exact no

end Agrees

end Lockstep
