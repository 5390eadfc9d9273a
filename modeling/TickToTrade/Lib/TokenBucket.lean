import Mathlib

/-! A token bucket over unbounded time: one token an interval, up to a capacity. -/

/-- The tokens at hand, and the time up to which tokens have been granted. -/
structure TokenBucket where
  tokens : Nat
  granted : Int

namespace TokenBucket

variable (capacity : Nat) (interval : Int)

/-- The whole intervals that are not granted yet. -/
def due (b : TokenBucket) (now : Int) : Nat := ((now - b.granted) / interval).toNat

def refill (b : TokenBucket) (now : Int) : TokenBucket where
  tokens := min (b.tokens + b.due interval now) capacity
  granted := b.granted + b.due interval now * interval

def take (b : TokenBucket) : TokenBucket := { b with tokens := b.tokens - 1 }

/-- A bucket at time `clock` after `taken` tokens were taken at times in `[t₁, t₂]`. Each of them was there
when the window was entered or was granted since. -/
structure Metered (t₁ t₂ : Int) (b : TokenBucket) (clock : Int) (taken : Nat) : Prop where
  within : b.tokens ≤ capacity
  entered : taken = 0 ∨ (taken + b.tokens : Int) ≤ capacity + (b.granted - t₁) / interval + 1
  -- A clock that starts before the bucket's own time grants nothing.
  early : b.granted ≤ clock ∨ taken + b.tokens ≤ capacity
  bound : (taken : Int) ≤ capacity + (t₂ - t₁) / interval + 1

variable {capacity interval} {t₁ t₂ clock now : Int} {b : TokenBucket} {taken : Nat}

theorem due_le (positive : 0 < interval) (past : b.granted ≤ now) :
    b.granted + b.due interval now * interval ≤ now := by
  have whole : ((b.due interval now : Nat) : Int) = (now - b.granted) / interval :=
    Int.toNat_of_nonneg (Int.ediv_nonneg (by omega) positive.le)
  have := Int.ediv_mul_le (now - b.granted) positive.ne'
  rw [whole]
  omega

theorem due_eq_zero (positive : 0 < interval) (future : now < b.granted) : b.due interval now = 0 :=
  Int.toNat_of_nonpos (Int.ediv_neg_of_neg_of_pos (by omega) positive).le

/-- After a refill less than one interval is open. -/
theorem refill_recent (positive : 0 < interval) : now < (b.refill capacity interval now).granted + interval := by
  have whole : (now - b.granted) / interval ≤ (b.due interval now : Int) := Int.self_le_toNat _
  have := Int.lt_ediv_add_one_mul_self (now - b.granted) positive
  have := Int.mul_le_mul_of_nonneg_right whole positive.le
  have : ((now - b.granted) / interval + 1) * interval = (now - b.granted) / interval * interval + interval := by ring
  simp only [refill]
  omega

theorem Metered.start (b : TokenBucket) (clock : Int) (full : b.tokens ≤ capacity) (positive : 0 < interval)
    (window : t₁ ≤ t₂) : Metered capacity interval t₁ t₂ b clock 0 := by
  have : 0 ≤ (t₂ - t₁) / interval := Int.ediv_nonneg (by omega) positive.le
  exact ⟨full, .inl rfl, .inr (by omega), by omega⟩

section

variable (metered : Metered capacity interval t₁ t₂ b clock taken)
include metered

theorem Metered.refill (positive : 0 < interval) (later : clock ≤ now) :
    Metered capacity interval t₁ t₂ (b.refill capacity interval now) now taken where
  within := min_le_right _ _
  entered := by
    have gained : (b.granted + b.due interval now * interval - t₁) / interval =
        (b.granted - t₁) / interval + b.due interval now := by
      rw [← Int.add_mul_ediv_right _ _ positive.ne']
      ring_nf
    have : min (b.tokens + b.due interval now) capacity ≤ b.tokens + b.due interval now := min_le_left _ _
    simp only [TokenBucket.refill, gained]
    rcases metered.entered with untouched | spent
    · exact .inl untouched
    · exact .inr (by omega)
  early := by
    by_cases past : b.granted ≤ now
    · exact .inl (due_le positive past)
    · have nothing := due_eq_zero positive (Int.not_le.mp past)
      have spent := metered.early.resolve_left (by omega)
      simp only [TokenBucket.refill, nothing]
      omega
  bound := metered.bound

theorem Metered.idle (later : clock ≤ now) : Metered capacity interval t₁ t₂ b now taken :=
  { metered with early := metered.early.imp_left fun past => past.trans later }

theorem Metered.take_outside : Metered capacity interval t₁ t₂ b.take clock taken := by
  obtain ⟨full, entered, early, bound⟩ := metered
  have fewer : b.take.tokens ≤ b.tokens := Nat.sub_le _ _
  have same : b.take.granted = b.granted := rfl
  exact ⟨by omega, by rw [same]; omega, by rw [same]; omega, bound⟩

end

theorem Metered.take_inside (metered : Metered capacity interval t₁ t₂ b now taken) (positive : 0 < interval)
    (recent : now < b.granted + interval) (token : 0 < b.tokens) (low : t₁ ≤ now) (high : now ≤ t₂) :
    Metered capacity interval t₁ t₂ b.take now (taken + 1) := by
  obtain ⟨full, entered, early, _⟩ := metered
  have fewer : (b.take.tokens : Int) = b.tokens - 1 := by simp only [TokenBucket.take]; omega
  have same : b.take.granted = b.granted := rfl
  have window : 0 ≤ (t₂ - t₁) / interval := Int.ediv_nonneg (by omega) positive.le
  -- The first token of the window is taken less than one interval after the last grant.
  have reached : -1 ≤ (b.granted - t₁) / interval := by
    rw [Int.le_ediv_iff_mul_le positive]
    omega
  have entered' : (taken + b.tokens : Int) ≤ capacity + (b.granted - t₁) / interval + 1 := by omega
  refine ⟨by omega, .inr (by rw [same]; push_cast; omega), by rw [same]; omega, ?_⟩
  rcases early with past | few
  · have : (b.granted - t₁) / interval ≤ (t₂ - t₁) / interval := Int.ediv_le_ediv positive (by omega)
    omega
  · omega

end TokenBucket
