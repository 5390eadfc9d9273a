import Mathlib

/-!
Two partial maps that are each other's inverse: an entry of the first names the key of the second and
the other way round. `R` relates the data of the two entries of a pair.
-/

namespace PairedMaps
open Function

variable {K I A B : Type} {idOf : A → I} {keyOf : B → K} {R : A → B → Prop}
  {fwd : K → Option A} {rev : I → Option B} {k : K} {a : A} {b : B}

structure Paired (idOf : A → I) (keyOf : B → K) (R : A → B → Prop) (fwd : K → Option A)
    (rev : I → Option B) : Prop where
  forth : ∀ k a, fwd k = some a → ∃ b, rev (idOf a) = some b ∧ keyOf b = k ∧ R a b
  back : ∀ i b, rev i = some b → ∃ a, fwd (keyOf b) = some a ∧ idOf a = i ∧ R a b

/-- An id belongs to one key. -/
theorem Paired.key_unique (paired : Paired idOf keyOf R fwd rev) {k' : K} {a' : A} (read : fwd k = some a)
    (read' : fwd k' = some a') (same : idOf a' = idOf a) : k' = k := by
  obtain ⟨b, found, key, _⟩ := paired.forth k a read
  obtain ⟨b', found', key', _⟩ := paired.forth k' a' read'
  rw [same, found] at found'
  cases found'
  exact key'.symm.trans key

theorem Paired.insert [DecidableEq K] [DecidableEq I] (paired : Paired idOf keyOf R fwd rev) (newKey : fwd k = none)
    (newId : rev (idOf a) = none) (key : keyOf b = k) (related : R a b) :
    Paired idOf keyOf R (update fwd k (some a)) (update rev (idOf a) (some b)) where
  forth := by
    intro k' a' read
    by_cases here : k' = k
    · subst here
      rw [update_self] at read
      cases read
      exact ⟨b, update_self _ _ _, key, related⟩
    · rw [update_of_ne here] at read
      obtain ⟨b', found, rest⟩ := paired.forth k' a' read
      refine ⟨b', ?_, rest⟩
      rw [update_of_ne, found]
      intro same
      rw [same, newId] at found
      cases found
  back := by
    intro i b' read
    by_cases here : i = idOf a
    · subst here
      rw [update_self] at read
      cases read
      exact ⟨a, by rw [key, update_self], rfl, related⟩
    · rw [update_of_ne here] at read
      obtain ⟨a', found, rest⟩ := paired.back i b' read
      refine ⟨a', ?_, rest⟩
      rw [update_of_ne, found]
      intro same
      rw [same, newKey] at found
      cases found

/-- The second pair of maps is the first without the ids in `Gone`. -/
structure Restricts (idOf : A → I) (fwd : K → Option A) (rev : I → Option B) (fwd' : K → Option A) (rev' : I → Option B)
    (Gone : I → Prop) : Prop where
  fwd_iff : ∀ k a, fwd' k = some a ↔ fwd k = some a ∧ ¬ Gone (idOf a)
  rev_iff : ∀ i b, rev' i = some b ↔ rev i = some b ∧ ¬ Gone i

theorem restricts_refl : Restricts idOf fwd rev fwd rev fun _ => False := by
  constructor <;> simp

theorem Restricts.congr {fwd' : K → Option A} {rev' : I → Option B} {Gone Gone' : I → Prop}
    (restricts : Restricts idOf fwd rev fwd' rev' Gone) (same : ∀ i, Gone' i ↔ Gone i) :
    Restricts idOf fwd rev fwd' rev' Gone' where
  fwd_iff := by
    intro k a
    rw [restricts.fwd_iff, same]
  rev_iff := by
    intro i b
    rw [restricts.rev_iff, same]

theorem Paired.restricts {fwd' : K → Option A} {rev' : I → Option B} {Gone : I → Prop}
    (paired : Paired idOf keyOf R fwd rev) (restricts : Restricts idOf fwd rev fwd' rev' Gone) :
    Paired idOf keyOf R fwd' rev' where
  forth := by
    intro k a read
    obtain ⟨old, kept⟩ := (restricts.fwd_iff k a).mp read
    obtain ⟨b, found, rest⟩ := paired.forth k a old
    exact ⟨b, (restricts.rev_iff _ b).mpr ⟨found, kept⟩, rest⟩
  back := by
    intro i b read
    obtain ⟨old, kept⟩ := (restricts.rev_iff i b).mp read
    obtain ⟨a, found, same, related⟩ := paired.back i b old
    exact ⟨a, (restricts.fwd_iff _ a).mpr ⟨found, same ▸ kept⟩, same, related⟩

theorem Paired.restricts_erase [DecidableEq K] [DecidableEq I] (paired : Paired idOf keyOf R fwd rev)
    (read : fwd k = some a) :
    Restricts idOf fwd rev (update fwd k none) (update rev (idOf a) none) fun i => i = idOf a where
  fwd_iff := by
    intro k' a'
    by_cases here : k' = k
    · subst here
      rw [update_self, read]
      constructor
      · intro impossible
        cases impossible
      · intro ⟨same, other⟩
        cases same
        exact absurd rfl other
    · rw [update_of_ne here]
      constructor
      · intro read'
        exact ⟨read', fun same => here (paired.key_unique read read' same)⟩
      · exact And.left
  rev_iff := by
    intro i b
    by_cases here : i = idOf a
    · simp [here]
    · simp [here]

/-- The second pair of maps is the first without the ids in `Gone`, and with a new entry if one is `added`. -/
structure Revised (idOf : A → I) (fwd : K → Option A) (rev : I → Option B) (fwd' : K → Option A) (rev' : I → Option B)
    (Gone : I → Prop) (added : Prop) (k : K) (a : A) (b : B) : Prop where
  fwd_iff : ∀ k' a', fwd' k' = some a' ↔ (fwd k' = some a' ∧ ¬ Gone (idOf a')) ∨ (added ∧ k' = k ∧ a' = a)
  rev_iff : ∀ i b', rev' i = some b' ↔ (rev i = some b' ∧ ¬ Gone i) ∨ (added ∧ i = idOf a ∧ b' = b)

variable {fwd' fwd'' : K → Option A} {rev' rev'' : I → Option B} {Gone Gone' : I → Prop} {added : Prop}

theorem Restricts.revised (restricts : Restricts idOf fwd rev fwd' rev' Gone) (unchanged : ¬ added) (k : K)
    (a : A) (b : B) : Revised idOf fwd rev fwd' rev' Gone added k a b := by
  constructor
  · intro k' a'
    rw [restricts.fwd_iff]
    simp [unchanged]
  · intro i b'
    rw [restricts.rev_iff]
    simp [unchanged]

theorem Restricts.insert [DecidableEq K] [DecidableEq I] (restricts : Restricts idOf fwd rev fwd' rev' Gone)
    (newKey : fwd' k = none) (newId : rev' (idOf a) = none) (here : added) (b : B) :
    Revised idOf fwd rev (update fwd' k (some a)) (update rev' (idOf a) (some b)) Gone added k a b where
  fwd_iff := by
    intro k' a'
    rw [← restricts.fwd_iff]
    by_cases same : k' = k
    · subst same
      simp [newKey, here, eq_comm]
    · simp [same]
  rev_iff := by
    intro i b'
    rw [← restricts.rev_iff]
    by_cases same : i = idOf a
    · subst same
      simp [newId, here, eq_comm]
    · simp [same]

theorem Revised.restricts (revised : Revised idOf fwd rev fwd' rev' Gone added k a b)
    (restricts : Restricts idOf fwd' rev' fwd'' rev'' Gone') (kept : added → ¬ Gone' (idOf a)) :
    Revised idOf fwd rev fwd'' rev'' (fun i => Gone i ∨ Gone' i) added k a b where
  fwd_iff := by
    intro k' a'
    rw [restricts.fwd_iff, revised.fwd_iff]
    constructor
    · rintro ⟨old | new, stays⟩
      · exact .inl ⟨old.1, fun gone => gone.elim old.2 stays⟩
      · exact .inr new
    · intro either
      rcases either with ⟨old, stays⟩ | ⟨here, key, same⟩
      · exact ⟨.inl ⟨old, fun gone => stays (.inl gone)⟩, fun gone => stays (.inr gone)⟩
      · exact ⟨.inr ⟨here, key, same⟩, same ▸ kept here⟩
  rev_iff := by
    intro i b'
    rw [restricts.rev_iff, revised.rev_iff]
    constructor
    · rintro ⟨old | new, stays⟩
      · exact .inl ⟨old.1, fun gone => gone.elim old.2 stays⟩
      · exact .inr new
    · intro either
      rcases either with ⟨old, stays⟩ | ⟨here, same, value⟩
      · exact ⟨.inl ⟨old, fun gone => stays (.inl gone)⟩, fun gone => stays (.inr gone)⟩
      · exact ⟨.inr ⟨here, same, value⟩, same ▸ kept here⟩

end PairedMaps
