import TickToTrade.Lib.ProbingMap

/-!
Operations that rewrite values in place. They keep the shape of the table, which is its slots without
the values.
-/

namespace Probing
open List Option Function

variable {K V : Type} {hash : K → Nat} {t u : Table K V} {k : K} {v : V}

def Slot.shape : Slot K V → Slot K Unit
  | .empty => .empty
  | .full key _ => .full key ()
  | .tombstone => .tombstone

section Shapes

variable {s s' : Slot K V}

theorem Slot.shape_empty : s.shape = .empty ↔ s = .empty := by
  cases s <;> simp [shape]

theorem Slot.shape_full : s.shape = .full k () ↔ ∃ v, s = .full k v := by
  cases s <;> simp [shape]

theorem Slot.isTombstone_of_shape (same : s.shape = s'.shape) : s.isTombstone = s'.isTombstone := by
  cases s <;> cases s' <;> simp_all [shape]

theorem Slot.key_of_shape (same : s.shape = s'.shape) : s.entry.map Prod.fst = s'.entry.map Prod.fst := by
  cases s <;> cases s' <;> simp_all [shape]

end Shapes

namespace Table

structure SameShape (t u : Table K V) : Prop where
  capacity_eq : u.capacity = t.capacity
  maxLoad_eq : u.maxLoad = t.maxLoad
  size_eq : u.size = t.size
  tombstones_eq : u.tombstones = t.tombstones
  shape_eq : ∀ i, (u.slots i).shape = (t.slots i).shape

theorem SameShape.refl (t : Table K V) : SameShape t t := ⟨rfl, rfl, rfl, rfl, fun _ => rfl⟩

theorem SameShape.full (same : SameShape t u) {i : Nat} (full : u.slots i = .full k v) :
    ∃ w, t.slots i = .full k w := by
  rw [← Slot.shape_full, ← same.shape_eq, Slot.shape_full]
  exact ⟨v, full⟩

/-- The keys of the entries, read off the shape. -/
theorem SameShape.keys_eq (same : SameShape t u) : u.entries.map Prod.fst = t.entries.map Prod.fst := by
  simp only [entries, map_filterMap, same.capacity_eq]
  exact filterMap_congr fun i _ => Slot.key_of_shape (same.shape_eq i)

theorem SameShape.wellFormed (same : SameShape t u) (wf : t.WellFormed hash) : u.WellFormed hash where
  pow := same.capacity_eq ▸ wf.pow
  headroom := by
    rw [same.maxLoad_eq, same.capacity_eq]
    exact wf.headroom
  load := by
    rw [same.size_eq, same.tombstones_eq, same.maxLoad_eq]
    exact wf.load
  size_eq := by
    have lengths := congrArg length same.keys_eq
    rw [length_map, length_map] at lengths
    rw [same.size_eq, wf.size_eq, lengths]
  tombstones_eq := by
    rw [same.tombstones_eq, wf.tombstones_eq, same.capacity_eq]
    congr
    funext i
    exact (Slot.isTombstone_of_shape (same.shape_eq i)).symm
  unique := by
    intro i j k v w low high first second
    rw [same.capacity_eq] at low high
    obtain ⟨v', first⟩ := same.full first
    obtain ⟨w', second⟩ := same.full second
    exact wf.unique i j k v' w' low high first second
  chain := by
    intro i k v bound full
    rw [same.capacity_eq] at bound
    obtain ⟨w, full⟩ := same.full full
    obtain ⟨d, here, before⟩ := wf.chain i k w bound full
    have pos_eq : ∀ e, u.pos hash k e = t.pos hash k e := fun e => by rw [pos, pos, same.capacity_eq]
    refine ⟨d, (pos_eq d).trans here, fun e lower blank => before e lower ?_⟩
    rw [pos_eq, ← Slot.shape_empty, same.shape_eq, Slot.shape_empty] at blank
    exact blank

/-! ### One value -/

def rewrite (t : Table K V) (i : Nat) (k : K) (v : V) : Table K V :=
  { t with slots := update t.slots i (.full k v) }

theorem rewrite_sameShape {i : Nat} {w : V} (full : t.slots i = .full k w) (v : V) : SameShape t (t.rewrite i k v) := by
  refine ⟨rfl, rfl, rfl, rfl, fun j => ?_⟩
  by_cases here : j = i
  · subst here
    simp [rewrite, full, Slot.shape]
  · simp [rewrite, here]

theorem WellFormed.rewrite_content [DecidableEq K] (wf : t.WellFormed hash) {i : Nat} {w : V} (bound : i < t.capacity)
    (full : t.slots i = .full k w) (v : V) : (t.rewrite i k v).content = update t.content k (some v) := by
  have wf' := (rewrite_sameShape full v).wellFormed wf
  funext k'
  by_cases same : k' = k
  · subst same
    rw [update_self, wf'.content_eq_some]
    exact mem_entries.mpr ⟨i, bound, by simp [rewrite]⟩
  · rw [update_of_ne same]
    apply content_congr wf wf'
    intro v'
    rw [mem_entries, mem_entries]
    refine exists_congr fun j => and_congr_right fun _ => ?_
    by_cases here : j = i
    · subst here
      simp [rewrite, full, Ne.symm same]
    · simp [rewrite, here]

/-- The three outcomes of an upsert. -/
theorem WellFormed.upsert_cases [DecidableEq K] (wf : t.WellFormed hash) (k : K) (v : V) :
    (∃ w u, t.content k = some w ∧ t.upsert hash k v = some (.updated, u) ∧ SameShape t u ∧
      u.content = update t.content k (some v)) ∨
    (t.content k = none ∧ t.maxLoad ≤ t.size + t.tombstones ∧ t.upsert hash k v = some (.capacityFull, t)) ∨
    (t.content k = none ∧ ∃ u, t.upsert hash k v = some (.inserted, u) ∧ Inserted hash t u k v) := by
  -- away from the update, `upsert` writes what `insert` writes
  rcases probed : t.probeInsert hash k with _ | ⟨idx, found⟩
  · obtain ⟨_, _, ⟨_, _, result⟩ | ⟨_, _, _, result, _⟩⟩ :=
      wf.probeInsert_spec k <;> rw [probed] at result <;> cases result
  cases found with
  | true =>
    obtain ⟨d, _, ⟨w, full, result⟩ | ⟨_, _, _, result, _⟩⟩ := wf.probeInsert_spec k
    · rw [probed] at result
      cases result
      refine .inl ⟨w, _, wf.content_eq_some.mpr (mem_entries.mpr ⟨_, wf.pos_lt k d, full⟩), ?_,
        rewrite_sameShape full v, wf.rewrite_content (wf.pos_lt k d) full v⟩
      simp [upsert, probed, rewrite]
    · rw [probed] at result
      cases result
  | false =>
    rcases wf.insert_cases k v with ⟨⟨w, present⟩, _⟩ | ⟨absent, _, full, refused⟩ | ⟨absent, _, u, added, grown⟩
    · obtain ⟨d, before, ⟨_, _, result⟩ | ⟨empty, _⟩⟩ := wf.probeInsert_spec k
      · rw [probed] at result
        cases result
      · obtain ⟨i, bound, full⟩ := mem_entries.mp (wf.content_eq_some.mp present)
        exact absurd full (wf.absent_of_empty empty before bound)
    · refine .inr (.inl ⟨absent, full, ?_⟩)
      simp only [insert, upsert, probed] at refused ⊢
      simp_all
    · refine .inr (.inr ⟨absent, u, ?_, grown⟩)
      by_cases blocked : (t.slots idx).isTombstone = false ∧ t.maxLoad ≤ t.size + t.tombstones
      · simp [insert, probed, blocked] at added
      · simpa [insert, upsert, probed, blocked] using added

/-! ### Scans -/

/-- A scan of the first `n` slots. The callback is told the visits before and leaves a value. -/
def forEachTo (fn : List (K × V) → K → V → V) (t : Table K V) : Nat → List (K × V) × Table K V
  | 0 => ([], t)
  | n + 1 =>
    let (visits, u) := forEachTo fn t n
    match u.slots n with
    | .full k v => (visits ++ [(k, v)], u.rewrite n k (fn visits k v))
    | _ => (visits, u)

def forEach (fn : List (K × V) → K → V → V) (t : Table K V) : List (K × V) × Table K V :=
  t.forEachTo fn t.capacity

def entriesTo (t : Table K V) (n : Nat) : List (K × V) := (range n).filterMap fun i => (t.slots i).entry

theorem entriesTo_succ (t : Table K V) (n : Nat) : t.entriesTo (n + 1) = t.entriesTo n ++ (t.slots n).entry.toList := by
  rw [entriesTo, range_succ, filterMap_append, ← entriesTo]
  cases read : (t.slots n).entry <;> simp [read]

def visited (fn : List (K × V) → K → V → V) (t : Table K V) (i : Nat) : Slot K V :=
  match t.slots i with
  | .full k v => .full k (fn (t.entriesTo i) k v)
  | s => s

structure Scanned (fn : List (K × V) → K → V → V) (t : Table K V) (n : Nat) (visits : List (K × V)) (u : Table K V) :
    Prop where
  visits_eq : visits = t.entriesTo n
  sameShape : SameShape t u
  passed : ∀ i < n, u.slots i = t.visited fn i
  ahead : ∀ i, n ≤ i → u.slots i = t.slots i

section

variable (fn : List (K × V) → K → V → V)
include fn

theorem forEachTo_scanned (t : Table K V) (n : Nat) :
    Scanned fn t n (t.forEachTo fn n).1 (t.forEachTo fn n).2 := by
  induction n with
  | zero => exact ⟨rfl, .refl t, fun _ lower => absurd lower (Nat.not_lt_zero _), fun _ _ => rfl⟩
  | succ n ih =>
    rw [forEachTo]
    rcases scan : t.forEachTo fn n with ⟨visits, u⟩
    rw [scan] at ih
    obtain ⟨rfl, sameShape, passed, ahead⟩ := ih
    have here : u.slots n = t.slots n := ahead n (Nat.le_refl n)
    cases read : t.slots n with
    | full k v =>
      have full : u.slots n = .full k v := here.trans read
      simp only [full]
      have rewritten := rewrite_sameShape full (fn (t.entriesTo n) k v)
      refine ⟨by simp [entriesTo_succ, read], ⟨rewritten.capacity_eq.trans sameShape.capacity_eq,
        rewritten.maxLoad_eq.trans sameShape.maxLoad_eq, rewritten.size_eq.trans sameShape.size_eq,
        rewritten.tombstones_eq.trans sameShape.tombstones_eq,
        fun i => (rewritten.shape_eq i).trans (sameShape.shape_eq i)⟩, fun i lower => ?_, fun i later => ?_⟩
      · rcases Nat.lt_succ_iff_lt_or_eq.mp lower with lower | rfl
        · rw [← passed i lower]
          simp [rewrite, Nat.ne_of_lt lower]
        · simp [rewrite, visited, read]
      · rw [← ahead i (by omega)]
        simp [rewrite, show i ≠ n by omega]
    | _ =>
      simp only [here, read]
      refine ⟨by simp [entriesTo_succ, read], sameShape, fun i lower => ?_, fun i later => ahead i (by omega)⟩
      rcases Nat.lt_succ_iff_lt_or_eq.mp lower with lower | rfl
      · exact passed i lower
      · simp [visited, here, read]

theorem forEach_visits (t : Table K V) : (t.forEach fn).1 = t.entries :=
  (forEachTo_scanned fn t t.capacity).visits_eq

theorem forEach_sameShape (t : Table K V) : SameShape t (t.forEach fn).2 :=
  (forEachTo_scanned fn t t.capacity).sameShape

end

/-- A visit, by the slot at which the scan met it. -/
theorem slot_of_visit {before after : List (K × V)} (split : t.entries = before ++ (k, v) :: after) :
    ∃ i < t.capacity, t.slots i = .full k v ∧ t.entriesTo i = before := by
  have scan : ∀ n, ∀ after, t.entriesTo n = before ++ (k, v) :: after →
      ∃ i < n, t.slots i = .full k v ∧ t.entriesTo i = before := by
    intro n
    induction n with
    | zero => intro after impossible; simp [entriesTo] at impossible
    | succ n ih =>
      intro after split
      have shorter : (∃ rest, t.entriesTo n = before ++ (k, v) :: rest) →
          ∃ i < n + 1, t.slots i = .full k v ∧ t.entriesTo i = before := by
        rintro ⟨rest, split⟩
        obtain ⟨i, lower, found⟩ := ih rest split
        exact ⟨i, by omega, found⟩
      rw [entriesTo_succ] at split
      cases read : t.slots n with
      | full k' v' =>
        rw [read, Slot.entry_full, toList_some] at split
        rcases eq_nil_or_concat after with rfl | ⟨rest, last, rfl⟩
        · obtain ⟨same, pair⟩ := append_inj' split rfl
          simp only [cons.injEq, Prod.mk.injEq, and_true] at pair
          exact ⟨n, by omega, by rw [read, pair.1, pair.2], same⟩
        · rw [concat_eq_append, ← cons_append, ← append_assoc] at split
          exact shorter ⟨rest, (append_inj' split rfl).1⟩
      | _ =>
        rw [read] at split
        simp only [Slot.entry_empty, Slot.entry_tombstone, toList_none, append_nil] at split
        exact shorter ⟨after, split⟩
  exact scan t.capacity after split

theorem WellFormed.forEach_content [DecidableEq K] (wf : t.WellFormed hash) {fn : List (K × V) → K → V → V}
    {before after : List (K × V)} (split : t.entries = before ++ (k, v) :: after) :
    (t.forEach fn).2.content k = some (fn before k v) := by
  obtain ⟨i, bound, full, seen⟩ := slot_of_visit split
  have scanned := forEachTo_scanned fn t t.capacity
  rw [forEach, (scanned.sameShape.wellFormed wf).content_eq_some]
  refine mem_entries.mpr ⟨i, Nat.lt_of_lt_of_eq bound scanned.sameShape.capacity_eq.symm, ?_⟩
  rw [scanned.passed i bound]
  simp [visited, full, seen]

theorem WellFormed.forEach_absent [DecidableEq K] (wf : t.WellFormed hash) {fn : List (K × V) → K → V → V}
    (absent : t.content k = none) : (t.forEach fn).2.content k = none := by
  have same := forEach_sameShape fn t
  rw [(same.wellFormed wf).content_eq_none]
  intro w member
  obtain ⟨i, bound, full⟩ := mem_entries.mp member
  obtain ⟨w', full⟩ := same.full full
  exact wf.content_eq_none.mp absent w' (mem_entries.mpr ⟨i, Nat.lt_of_lt_of_eq bound same.capacity_eq, full⟩)

end Table

end Probing
