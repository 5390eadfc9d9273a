import TickToTrade.Lib.Probing

/-!
A well-formed table is a finite map. Every operation keeps `WellFormed` and acts on `entries` as on a
list of pairs.
-/

namespace Probing
open List Option Function

variable {K V : Type} {hash : K → Nat} {t : Table K V} {k : K} {v : V}
variable {n i j d : Nat} {u : Table K V} {k' : K}

/-! ### Lists read through an index -/

theorem filterMap_range_perm {α : Type} (f : Nat → Option α) (bound : i < n) :
    ((range n).filterMap f).Perm ((f i).toList ++ ((range n).erase i).filterMap f) := by
  have split := perm_cons_erase (mem_range.mpr bound)
  refine (split.filterMap f).trans ?_
  cases read : f i <;> simp [read]

theorem countP_range_perm (p : Nat → Bool) (bound : i < n) :
    (range n).countP p = (if p i then 1 else 0) + ((range n).erase i).countP p := by
  have split := perm_cons_erase (mem_range.mpr bound)
  rw [split.countP_eq, countP_cons]
  omega

theorem mem_erase_range_ne (member : j ∈ (range n).erase i) : j ≠ i :=
  ((Nodup.mem_erase_iff nodup_range).mp member).1

namespace Table

/-- The slot a probe for `k` looks at after `d` steps. -/
def pos (hash : K → Nat) (t : Table K V) (k : K) (d : Nat) : Nat := (hash k + d) % t.capacity

/-- A lookup of `k` ends at slot `i`. -/
def Stops (t : Table K V) (k : K) (i : Nat) : Prop :=
  t.slots i = .empty ∨ ∃ v, t.slots i = .full k v

structure WellFormed (hash : K → Nat) (t : Table K V) : Prop where
  pow : ∃ p, t.capacity = 2 ^ p
  headroom : t.maxLoad < t.capacity
  load : t.size + t.tombstones ≤ t.maxLoad
  size_eq : t.size = t.entries.length
  tombstones_eq : t.tombstones = (range t.capacity).countP fun i => (t.slots i).isTombstone
  unique : ∀ i j k v w, i < t.capacity → j < t.capacity →
    t.slots i = .full k v → t.slots j = .full k w → i = j
  chain : ∀ i k v, i < t.capacity → t.slots i = .full k v →
    ∃ d, t.pos hash k d = i ∧ ∀ e < d, t.slots (t.pos hash k e) ≠ .empty

theorem fresh_wellFormed {p maxLoad : Nat} (small : maxLoad < 2 ^ p) :
    (fresh (2 ^ p) maxLoad : Table K V).WellFormed hash where
  pow := ⟨p, rfl⟩
  headroom := small
  load := Nat.zero_le _
  size_eq := by simp [fresh, entries]
  tombstones_eq := by simp [fresh]
  unique := by simp [fresh]
  chain := by simp [fresh]

theorem clear_eq_fresh (t : Table K V) : t.clear = fresh t.capacity t.maxLoad := rfl

section

variable (wf : t.WellFormed hash)
include wf

theorem WellFormed.clear : t.clear.WellFormed hash := by
  obtain ⟨p, power⟩ := wf.pow
  rw [clear_eq_fresh, power]
  exact fresh_wellFormed (power ▸ wf.headroom)

/-! ### Positions of a probe -/

theorem WellFormed.capacity_pos : 0 < t.capacity :=
  Nat.lt_of_le_of_lt (Nat.zero_le _) wf.headroom

theorem WellFormed.masked (n : Nat) : n &&& t.mask = n % t.capacity := by
  obtain ⟨p, power⟩ := wf.pow
  rw [mask, power, Nat.and_two_pow_sub_one_eq_mod]

theorem WellFormed.bucketFor_eq (k : K) : t.bucketFor hash k = t.pos hash k 0 := by
  rw [bucketFor, wf.masked, pos, Nat.add_zero]

theorem WellFormed.pos_succ (k : K) (d : Nat) : (t.pos hash k d + 1) &&& t.mask = t.pos hash k (d + 1) := by
  rw [wf.masked, pos, pos, Nat.mod_add_mod, Nat.add_assoc]

theorem WellFormed.pos_lt (k : K) (d : Nat) : t.pos hash k d < t.capacity :=
  Nat.mod_lt _ wf.capacity_pos

theorem WellFormed.pos_surjective (k : K) (bound : i < t.capacity) : ∃ d < t.capacity, t.pos hash k d = i := by
  refine ⟨(i + (t.capacity - hash k % t.capacity)) % t.capacity, Nat.mod_lt _ wf.capacity_pos, ?_⟩
  have below : hash k % t.capacity < t.capacity := Nat.mod_lt _ wf.capacity_pos
  rw [pos, Nat.add_mod_mod, ← Nat.mod_add_mod,
    show hash k % t.capacity + (i + (t.capacity - hash k % t.capacity)) = i + t.capacity by omega,
    Nat.add_mod_right, Nat.mod_eq_of_lt bound]

end

/-! ### The probe loops -/

section Loops

variable [DecidableEq K]

theorem WellFormed.probeFindFrom_eq (wf : t.WellFormed hash) {e : Nat} (le : d ≤ e) (short : e < d + n)
    (before : ∀ j, d ≤ j → j < e → ¬ t.Stops k (t.pos hash k j)) (stop : t.Stops k (t.pos hash k e)) :
    t.probeFindFrom k n (t.pos hash k d) = some (t.pos hash k e) := by
  induction n generalizing d with
  | zero => omega
  | succ n ih =>
    rw [probeFindFrom]
    by_cases here : d = e
    · subst here
      rcases stop with empty | ⟨v, full⟩
      · rw [empty]
      · simp [full]
    · have passed := before d (Nat.le_refl _) (by omega)
      have rest := ih (d := d + 1) (by omega) (by omega) (fun j low high => before j (by omega) high)
      rw [wf.pos_succ, rest]
      -- A slot the loop walks over is a tombstone or holds another key.
      cases read : t.slots (t.pos hash k d) with
      | empty => exact absurd (.inl read) passed
      | tombstone => rfl
      | full k' v =>
        have other : k' ≠ k := by
          rintro rfl
          exact passed (.inr ⟨v, read⟩)
        simp [other]

theorem WellFormed.probeInsertFrom_eq (wf : t.WellFormed hash) {e : Nat} (le : d ≤ e) (short : e < d + n)
    (before : ∀ j, d ≤ j → j < e → ¬ t.Stops k (t.pos hash k j)) (stop : t.Stops k (t.pos hash k e))
    (first : Option Nat) : (∃ v, t.slots (t.pos hash k e) = .full k v ∧
      t.probeInsertFrom k n (t.pos hash k d) first = some (t.pos hash k e, true)) ∨
    t.slots (t.pos hash k e) = .empty ∧
      ((∃ i, first = some i ∧ t.probeInsertFrom k n (t.pos hash k d) first = some (i, false)) ∨
       first = none ∧ ∃ j, d ≤ j ∧ j ≤ e ∧
        t.probeInsertFrom k n (t.pos hash k d) first = some (t.pos hash k j, false) ∧
        (t.slots (t.pos hash k j) = .tombstone ∨
          j = e ∧ ∀ l, d ≤ l → l < e → t.slots (t.pos hash k l) ≠ .tombstone)) := by
  induction n generalizing d first with
  | zero => omega
  | succ n ih =>
    rw [probeInsertFrom]
    by_cases here : d = e
    · subst here
      rcases stop with empty | ⟨v, full⟩
      · rw [empty]
        refine .inr ⟨rfl, ?_⟩
        cases first with
        | some i => exact .inl ⟨i, rfl, rfl⟩
        | none => exact .inr ⟨rfl, d, le, le, rfl, .inr ⟨rfl, fun l low high => by omega⟩⟩
      · exact .inl ⟨v, full, by simp [full]⟩
    · have passed := before d (Nat.le_refl _) (by omega)
      have rest := fun first => ih (d := d + 1) (by omega) (by omega)
        (fun j low high => before j (by omega) high) first
      rw [wf.pos_succ]
      cases read : t.slots (t.pos hash k d) with
      | empty => exact absurd (.inl read) passed
      | full k' v =>
        have other : k' ≠ k := by
          rintro rfl
          exact passed (.inr ⟨v, read⟩)
        simp only [other, if_false]
        rcases rest first with found | ⟨empty, carried | ⟨none, j, low, high, result, kind⟩⟩
        · exact .inl found
        · exact .inr ⟨empty, .inl carried⟩
        · refine .inr ⟨empty, .inr ⟨none, j, by omega, high, result, ?_⟩⟩
          rcases kind with tomb | ⟨last, clean⟩
          · exact .inl tomb
          · refine .inr ⟨last, fun l lower upper => ?_⟩
            by_cases same : l = d
            · rw [same, read]; simp
            · exact clean l (by omega) upper
      | tombstone =>
        cases first with
        | some i =>
          rcases rest (some i) with found | ⟨empty, carried | ⟨none, _⟩⟩
          · exact .inl found
          · exact .inr ⟨empty, .inl carried⟩
          · cases none
        | none =>
          rcases rest (some (t.pos hash k d)) with found | ⟨empty, ⟨i, same, result⟩ | ⟨none, _⟩⟩
          · exact .inl found
          · cases same
            exact .inr ⟨empty, .inr ⟨rfl, d, Nat.le_refl _, le, result, .inl read⟩⟩
          · cases none

end Loops

/-! ### An empty slot ends every probe -/

theorem length_of_occupied (f : Nat → Slot K V) (l : List Nat) (occupied : ∀ i ∈ l, f i ≠ .empty) :
    (l.filterMap fun i => (f i).entry).length + l.countP (fun i => (f i).isTombstone) = l.length := by
  induction l with
  | nil => rfl
  | cons i rest ih =>
    have tail := ih fun j member => occupied j (mem_cons_of_mem _ member)
    cases read : f i with
    | empty => exact absurd read (occupied i mem_cons_self)
    | full k v => simp only [filterMap_cons, countP_cons, read, Slot.entry_full,
        Slot.isTombstone_full, Bool.false_eq_true, if_false, length_cons]; omega
    | tombstone => simp only [filterMap_cons, countP_cons, read, Slot.entry_tombstone,
        Slot.isTombstone_tombstone, if_true, length_cons]; omega

theorem WellFormed.exists_empty (wf : t.WellFormed hash) :
    ∃ i < t.capacity, t.slots i = .empty := by
  by_contra none
  have occupied : ∀ i ∈ range t.capacity, t.slots i ≠ .empty := fun i member empty =>
    none ⟨i, mem_range.mp member, empty⟩
  have full := length_of_occupied t.slots _ occupied
  rw [length_range] at full
  have size := wf.size_eq
  have tombs := wf.tombstones_eq
  have load := wf.load
  have headroom := wf.headroom
  rw [entries] at size
  omega

/-- Where a probe for `k` ends: at the first position that is empty or holds `k`. -/
theorem WellFormed.exists_stop (wf : t.WellFormed hash) (k : K) :
    ∃ d < t.capacity, t.Stops k (t.pos hash k d) ∧ ∀ e < d, ¬ t.Stops k (t.pos hash k e) := by
  obtain ⟨i, bound, empty⟩ := wf.exists_empty
  obtain ⟨d, short, rfl⟩ := wf.pos_surjective k bound
  have some : ∃ d, t.Stops k (t.pos hash k d) := ⟨d, .inl empty⟩
  classical
  exact ⟨Nat.find some, Nat.lt_of_le_of_lt (Nat.find_min' some (.inl empty)) short,
    Nat.find_spec some, fun e lower => Nat.find_min some lower⟩

theorem WellFormed.absent_of_empty (wf : t.WellFormed hash) (empty : t.slots (t.pos hash k d) = .empty)
    (before : ∀ e < d, ¬ t.Stops k (t.pos hash k e)) (bound : i < t.capacity) : t.slots i ≠ .full k v := by
  intro full
  obtain ⟨d', rfl, reached⟩ := wf.chain i k v bound full
  rcases Nat.lt_trichotomy d d' with lower | rfl | higher
  · exact reached d lower empty
  · rw [empty] at full
    cases full
  · exact before d' higher (.inr ⟨v, full⟩)

/-! ### Entries and content -/

theorem mem_entries : (k, v) ∈ t.entries ↔ ∃ i < t.capacity, t.slots i = .full k v := by
  simp only [entries, mem_filterMap, mem_range]
  constructor
  · rintro ⟨i, bound, read⟩
    refine ⟨i, bound, ?_⟩
    cases slot : t.slots i <;> simp_all
  · rintro ⟨i, bound, full⟩
    exact ⟨i, bound, by simp [full]⟩

theorem WellFormed.keys_nodup (wf : t.WellFormed hash) : (t.entries.map Prod.fst).Nodup := by
  rw [entries, map_filterMap, Nodup, pairwise_filterMap]
  refine nodup_range.imp_of_mem ?_
  intro i j left right different k first k' second same
  subst same
  -- Two slots that show one key are one slot.
  have shows : ∀ i, Option.map Prod.fst (t.slots i).entry = some k → ∃ v, t.slots i = .full k v := by
    intro i read
    cases slot : t.slots i <;> simp_all
  obtain ⟨v, full⟩ := shows i first
  obtain ⟨w, full'⟩ := shows j second
  exact different (wf.unique i j k v w (mem_range.mp left) (mem_range.mp right) full full')

section Content

variable [DecidableEq K]

theorem WellFormed.content_eq_some (wf : t.WellFormed hash) :
    t.content k = some v ↔ (k, v) ∈ t.entries := by
  rw [content, map_eq_some_iff]
  constructor
  · rintro ⟨⟨k', v'⟩, found, rfl⟩
    have same := find?_some found
    simp only [decide_eq_true_eq] at same
    exact same ▸ mem_of_find?_eq_some found
  · intro member
    cases found : t.entries.find? fun entry => entry.1 = k with
    | none => exact absurd (find?_eq_none.mp found _ member) (by simp)
    | some pair =>
      obtain ⟨k', v'⟩ := pair
      have same := find?_some found
      simp only [decide_eq_true_eq] at same
      subst same
      refine ⟨_, rfl, ?_⟩
      exact congrArg Prod.snd (inj_on_of_nodup_map wf.keys_nodup
        (mem_of_find?_eq_some found) member rfl)

theorem WellFormed.content_eq_none (wf : t.WellFormed hash) :
    t.content k = none ↔ ∀ v, (k, v) ∉ t.entries := by
  rw [eq_none_iff_forall_ne_some]
  exact forall_congr' fun v => not_congr wf.content_eq_some

theorem fresh_content (capacity maxLoad : Nat) (k : K) : (fresh capacity maxLoad : Table K V).content k = none := by
  simp [content, entries, fresh]

theorem content_congr (wf : t.WellFormed hash) (wf' : u.WellFormed hash)
    (same : ∀ v, (k, v) ∈ u.entries ↔ (k, v) ∈ t.entries) : u.content k = t.content k := by
  apply ext
  intro v
  rw [wf.content_eq_some, wf'.content_eq_some, same]

/-- A lookup answers the content and never aborts. -/
theorem WellFormed.find_eq (wf : t.WellFormed hash) (k : K) :
    t.find hash k = some (t.content k) := by
  obtain ⟨d, short, stop, before⟩ := wf.exists_stop k
  have probe : t.probeFind hash k = some (t.pos hash k d) := by
    rw [probeFind, wf.bucketFor_eq]
    exact wf.probeFindFrom_eq (Nat.zero_le _) (by omega) (fun j _ high => before j high) stop
  rw [find, probe]
  rcases stop with empty | ⟨v, full⟩
  · have absent : t.content k = none := by
      rw [wf.content_eq_none]
      intro v member
      obtain ⟨i, bound, full⟩ := mem_entries.mp member
      exact wf.absent_of_empty empty before bound full
    simp [empty, absent]
  · have present := wf.content_eq_some.mpr (mem_entries.mpr ⟨_, wf.pos_lt k d, full⟩)
    simp [full, present]

theorem WellFormed.find_some (wf : t.WellFormed hash) {found : Option V} (done : t.find hash k = some found) :
    t.content k = found :=
  mem_unique (wf.find_eq k) done

end Content

/-! ### Writing one slot -/

def others (t : Table K V) (i : Nat) : List (K × V) :=
  ((range t.capacity).erase i).filterMap fun j => (t.slots j).entry

theorem entries_perm_others (bound : i < t.capacity) :
    t.entries.Perm ((t.slots i).entry.toList ++ t.others i) :=
  filterMap_range_perm _ bound

theorem others_update (f : Nat → Slot K V) (n i : Nat) (s : Slot K V) :
    (((range n).erase i).filterMap fun j => (update f i s j).entry) =
      ((range n).erase i).filterMap fun j => (f j).entry := by
  apply filterMap_congr
  intro j member
  rw [update_of_ne (mem_erase_range_ne member)]

theorem tombstones_update (f : Nat → Slot K V) (bound : i < n) (s : Slot K V) :
    ((range n).countP fun j => (update f i s j).isTombstone) +
        (if (f i).isTombstone then 1 else 0) =
      ((range n).countP fun j => (f j).isTombstone) + (if s.isTombstone then 1 else 0) := by
  have same : (((range n).erase i).countP fun j => (update f i s j).isTombstone) =
      ((range n).erase i).countP fun j => (f j).isTombstone := by
    apply countP_congr
    intro j member
    rw [update_of_ne (mem_erase_range_ne member)]
  rw [countP_range_perm _ bound, countP_range_perm (fun j => (f j).isTombstone) bound, same,
    update_self]
  omega

/-! ### Insertion -/

/-- `u` is `t` with a new entry. -/
structure Inserted (hash : K → Nat) (t u : Table K V) (k : K) (v : V) : Prop where
  wellFormed : u.WellFormed hash
  capacity_eq : u.capacity = t.capacity
  maxLoad_eq : u.maxLoad = t.maxLoad
  entries_perm : u.entries.Perm ((k, v) :: t.entries)
  tombstones_le : u.tombstones ≤ t.tombstones

theorem WellFormed.occupy_inserted (wf : t.WellFormed hash) (reached : ∀ e < j, t.slots (t.pos hash k e) ≠ .empty)
    (absent : ∀ i v, i < t.capacity → t.slots i ≠ .full k v) (kind : t.slots (t.pos hash k j) = .tombstone ∨
      t.slots (t.pos hash k j) = .empty ∧ t.size + t.tombstones < t.maxLoad) :
    Inserted hash t (t.occupy (t.pos hash k j) k v) k v := by
  have bound := wf.pos_lt k j
  have vacant : (t.slots (t.pos hash k j)).entry = none := by
    rcases kind with tomb | ⟨empty, _⟩
    · rw [tomb]; rfl
    · rw [empty]; rfl
  have perm : (t.occupy (t.pos hash k j) k v).entries.Perm ((k, v) :: t.entries) := by
    have before := entries_perm_others (t := t) bound
    have after := entries_perm_others (t := t.occupy (t.pos hash k j) k v) bound
    rw [vacant] at before
    have same : (t.occupy (t.pos hash k j) k v).others (t.pos hash k j) = t.others (t.pos hash k j) :=
      others_update _ _ _ _
    rw [same] at after
    have written : ((t.occupy (t.pos hash k j) k v).slots (t.pos hash k j)).entry = some (k, v) := by
      simp [occupy]
    rw [written] at after
    exact after.trans (before.symm.cons (k, v))
  have tombs := tombstones_update t.slots bound (.full k v)
  have counted := wf.tombstones_eq
  have load := wf.load
  have filled : ∀ i, (t.occupy (t.pos hash k j) k v).slots i = .empty → t.slots i = .empty := by
    intro i empty
    by_cases same : i = t.pos hash k j
    · simp [occupy, same] at empty
    · simpa [occupy, update_of_ne same] using empty
  have shown : ∀ i k' w, (t.occupy (t.pos hash k j) k v).slots i = .full k' w →
      (i = t.pos hash k j ∧ k' = k) ∨ (i ≠ t.pos hash k j ∧ t.slots i = .full k' w) := by
    intro i k' w full
    by_cases same : i = t.pos hash k j
    · simp only [occupy, same, update_self, Slot.full.injEq] at full
      exact .inl ⟨same, full.1.symm⟩
    · exact .inr ⟨same, by simpa [occupy, update_of_ne same] using full⟩
  have sizes : (t.occupy (t.pos hash k j) k v).size + (t.occupy (t.pos hash k j) k v).tombstones ≤ t.maxLoad ∧
      (t.occupy (t.pos hash k j) k v).tombstones =
        ((range t.capacity).countP fun i =>
          (update t.slots (t.pos hash k j) (.full k v) i).isTombstone) := by
    rcases kind with tomb | ⟨empty, room⟩
    · simp only [tomb, Slot.isTombstone_tombstone, Slot.isTombstone_full, Bool.false_eq_true, if_true,
        if_false] at tombs
      simp only [occupy, tomb, Slot.isTombstone_tombstone, if_true]
      omega
    · simp only [empty, Slot.isTombstone_empty, Slot.isTombstone_full, Bool.false_eq_true, if_false] at tombs
      simp only [occupy, empty, Slot.isTombstone_empty, Bool.false_eq_true, if_false]
      omega
  refine ⟨⟨wf.pow, wf.headroom, sizes.1, ?_, sizes.2, ?_, ?_⟩, rfl, rfl, perm, ?_⟩
  · rw [perm.length_eq, length_cons, ← wf.size_eq]
    rfl
  · intro i i' k' w w' low low' full full'
    rcases shown i k' w full with ⟨here, same⟩ | ⟨away, old⟩
    · rcases shown i' k' w' full' with ⟨here', _⟩ | ⟨_, old'⟩
      · exact here.trans here'.symm
      · exact absurd (same ▸ old') (absent i' w' low')
    · rcases shown i' k' w' full' with ⟨_, same'⟩ | ⟨_, old'⟩
      · exact absurd (same' ▸ old) (absent i w low)
      · exact wf.unique i i' k' w w' low low' old old'
  · intro i k' w low full
    rcases shown i k' w full with ⟨rfl, rfl⟩ | ⟨away, old⟩
    · exact ⟨j, rfl, fun e lower empty => reached e lower (filled _ empty)⟩
    · obtain ⟨d, here, path⟩ := wf.chain i k' w low old
      exact ⟨d, here, fun e lower empty => path e lower (filled _ empty)⟩
  · simp only [occupy]
    split <;> omega

theorem Inserted.size_eq (wf : t.WellFormed hash) (ins : Inserted hash t u k v) :
    u.size = t.size + 1 := by
  rw [ins.wellFormed.size_eq, ins.entries_perm.length_eq, length_cons, wf.size_eq]

section Insert

variable [DecidableEq K]

section

variable (wf : t.WellFormed hash)
include wf

/-- What the insertion probe answers, by the position `d` where a lookup ends. -/
theorem WellFormed.probeInsert_spec (k : K) :
    ∃ d, (∀ e < d, ¬ t.Stops k (t.pos hash k e)) ∧
      ((∃ v, t.slots (t.pos hash k d) = .full k v ∧
        t.probeInsert hash k = some (t.pos hash k d, true)) ∨
       t.slots (t.pos hash k d) = .empty ∧ ∃ j ≤ d, t.probeInsert hash k = some (t.pos hash k j, false) ∧
        (t.slots (t.pos hash k j) = .tombstone ∨
          j = d ∧ ∀ l < d, t.slots (t.pos hash k l) ≠ .tombstone)) := by
  obtain ⟨d, short, stop, before⟩ := wf.exists_stop k
  refine ⟨d, before, ?_⟩
  rw [probeInsert, wf.bucketFor_eq]
  rcases wf.probeInsertFrom_eq (Nat.zero_le d) (n := t.capacity) (by omega)
      (fun j _ high => before j high) stop none with found | ⟨empty, ⟨i, impossible, _⟩ | ⟨_, j, _, high, result, kind⟩⟩
  · exact .inl found
  · cases impossible
  · refine .inr ⟨empty, j, high, result, ?_⟩
    rcases kind with tomb | ⟨last, clean⟩
    · exact .inl tomb
    · exact .inr ⟨last, fun l upper => clean l (Nat.zero_le _) upper⟩

theorem Inserted.content_eq (ins : Inserted hash t u k v) : u.content = update t.content k (some v) := by
  funext k'
  by_cases same : k' = k
  · subst same
    rw [update_self, ins.wellFormed.content_eq_some]
    exact ins.entries_perm.mem_iff.mpr mem_cons_self
  · rw [update_of_ne same]
    apply content_congr wf ins.wellFormed
    intro v'
    rw [ins.entries_perm.mem_iff, mem_cons]
    constructor
    · intro member
      rcases member with head | tail
      · exact absurd (congrArg Prod.fst head) same
      · exact tail
    · exact .inr

/-- An absent key is accepted when the probe crosses a tombstone or the load is below the limit. -/
theorem WellFormed.accepts_of_probe (before : ∀ e < d, ¬ t.Stops k (t.pos hash k e))
    (empty : t.slots (t.pos hash k d) = .empty) :
    t.accepts hash k = true ↔
      (∃ l < d, t.slots (t.pos hash k l) = .tombstone) ∨ t.size + t.tombstones < t.maxLoad := by
  obtain ⟨d', before', cases⟩ := wf.probeInsert_spec k
  have same : d' = d := by
    have stop' : t.Stops k (t.pos hash k d') := by
      rcases cases with ⟨v, full, _⟩ | ⟨empty', _⟩
      · exact .inr ⟨v, full⟩
      · exact .inl empty'
    rcases Nat.lt_trichotomy d' d with lower | same | higher
    · exact absurd stop' (before d' lower)
    · exact same
    · exact absurd (.inl empty) (before' d higher)
  subst same
  rcases cases with ⟨v, full, _⟩ | ⟨_, j, upper, result, tomb | ⟨last, clean⟩⟩
  · rw [empty] at full
    cases full
  · have below : j < d' := by
      refine Nat.lt_of_le_of_ne upper fun same => ?_
      rw [same, empty] at tomb
      cases tomb
    have crossed : ∃ l < d', t.slots (t.pos hash k l) = .tombstone := ⟨j, below, tomb⟩
    simp [accepts, result, tomb, crossed]
  · subst last
    have free : ¬ ∃ l < j, t.slots (t.pos hash k l) = .tombstone := fun ⟨l, lower, tomb⟩ => clean l lower tomb
    simp [accepts, result, empty, free]

/-- The three outcomes of an insertion: the key is there, the table refuses, or it is written. -/
theorem WellFormed.insert_cases (k : K) (v : V) :
    ((∃ w, t.content k = some w) ∧ t.accepts hash k = false ∧ t.insert hash k v = some (false, t)) ∨
    (t.content k = none ∧ t.accepts hash k = false ∧ t.maxLoad ≤ t.size + t.tombstones ∧
      t.insert hash k v = some (false, t)) ∨
    (t.content k = none ∧ t.accepts hash k = true ∧
      ∃ u, t.insert hash k v = some (true, u) ∧ Inserted hash t u k v) := by
  obtain ⟨d, before, ⟨w, full, result⟩ | ⟨empty, j, upper, result, kind⟩⟩ := wf.probeInsert_spec k
  · refine .inl ⟨⟨w, wf.content_eq_some.mpr (mem_entries.mpr ⟨_, wf.pos_lt k d, full⟩)⟩, ?_, ?_⟩
    · simp [accepts, result]
    · simp [insert, result]
  · have absent : ∀ i v, i < t.capacity → t.slots i ≠ .full k v := fun i v bound =>
      wf.absent_of_empty empty before bound
    have missing : t.content k = none := by
      rw [wf.content_eq_none]
      intro w member
      obtain ⟨i, bound, full⟩ := mem_entries.mp member
      exact absent i w bound full
    have reached : ∀ e < j, t.slots (t.pos hash k e) ≠ .empty := fun e lower blank =>
      before e (by omega) (.inl blank)
    rcases kind with tomb | ⟨last, clean⟩
    · refine .inr (.inr ⟨missing, by simp [accepts, result, tomb], _, ?_,
        wf.occupy_inserted reached absent (.inl tomb)⟩)
      simp [insert, result, tomb]
    · subst last
      by_cases room : t.size + t.tombstones < t.maxLoad
      · refine .inr (.inr ⟨missing, by simp [accepts, result, room], _, ?_,
          wf.occupy_inserted reached absent (.inr ⟨empty, room⟩)⟩)
        simp [insert, result, empty, room]
      · refine .inr (.inl ⟨missing, by simp [accepts, result, empty, room], by omega, ?_⟩)
        simp [insert, result, empty, Nat.not_lt.mp room]

theorem WellFormed.insert_accepts (k : K) (v : V) : ∃ u, t.insert hash k v = some (t.accepts hash k, u) := by
  rcases wf.insert_cases k v with ⟨_, refused, kept⟩ | ⟨_, refused, _, kept⟩ | ⟨_, accepted, u, added, _⟩
  · exact ⟨t, refused ▸ kept⟩
  · exact ⟨t, refused ▸ kept⟩
  · exact ⟨u, accepted ▸ added⟩

/-- Whatever an insertion answers, it touches nothing but its own key. -/
theorem WellFormed.insert_some {inserted : Bool} (done : t.insert hash k v = some (inserted, u)) :
    u.WellFormed hash ∧ (∀ k', k' ≠ k → u.content k' = t.content k') ∧
    (u.content k = t.content k ∨ u.content k = some v) := by
  rcases wf.insert_cases k v with ⟨_, _, kept⟩ | ⟨_, _, _, kept⟩ | ⟨_, _, u', added, grown⟩
  · obtain ⟨_, rfl⟩ := Prod.mk.inj (mem_unique kept done)
    exact ⟨wf, fun _ _ => rfl, .inl rfl⟩
  · obtain ⟨_, rfl⟩ := Prod.mk.inj (mem_unique kept done)
    exact ⟨wf, fun _ _ => rfl, .inl rfl⟩
  · obtain ⟨_, rfl⟩ := Prod.mk.inj (mem_unique added done)
    rw [grown.content_eq wf]
    exact ⟨grown.wellFormed, fun _ other => update_of_ne other _ _, .inr (update_self _ _ _)⟩

theorem WellFormed.insert_accepted {inserted : Bool} (accepted : t.accepts hash k = true)
    (done : t.insert hash k v = some (inserted, u)) : t.content k = none ∧ u.content = update t.content k (some v) := by
  rcases wf.insert_cases k v with ⟨_, refused, _⟩ | ⟨_, refused, _⟩ | ⟨absent, _, u', added, grown⟩
  · rw [accepted] at refused
    cases refused
  · rw [accepted] at refused
    cases refused
  · obtain ⟨_, rfl⟩ := Prod.mk.inj (mem_unique added done)
    exact ⟨absent, grown.content_eq wf⟩

theorem WellFormed.content_of_accepts (accepted : t.accepts hash k = true) (v : V) : t.content k = none := by
  rcases wf.insert_cases k v with ⟨_, refused, _⟩ | ⟨absent, _⟩ | ⟨absent, _⟩
  · rw [accepted] at refused
    cases refused
  · exact absent
  · exact absent

/-- A table below its load limit accepts every absent key. -/
theorem WellFormed.accepts_of_room (absent : t.content k = none)
    (room : t.size + t.tombstones < t.maxLoad) (v : V) : t.accepts hash k = true := by
  rcases wf.insert_cases k v with ⟨⟨w, present⟩, _⟩ | ⟨_, _, full, _⟩ | ⟨_, accepted, _⟩
  · rw [absent] at present
    cases present
  · omega
  · exact accepted

end

/-- The load is below its limit, or the probe for `k` meets a tombstone before it meets an empty slot. -/
def Spare (hash : K → Nat) (t : Table K V) (k : K) : Prop :=
  t.size + t.tombstones < t.maxLoad ∨
    ∃ d < t.capacity, t.slots (t.pos hash k d) = .tombstone ∧ ∀ e < d, t.slots (t.pos hash k e) ≠ .empty

instance [DecidableEq V] : Decidable (t.Spare hash k) :=
  inferInstanceAs (Decidable (_ ∨ _))

theorem WellFormed.accepts_iff_spare (wf : t.WellFormed hash) (absent : t.content k = none) :
    t.accepts hash k = true ↔ t.Spare hash k := by
  obtain ⟨d, short, stop, before⟩ := wf.exists_stop k
  have empty : t.slots (t.pos hash k d) = .empty := by
    rcases stop with empty | ⟨v, full⟩
    · exact empty
    · have member := mem_entries.mpr ⟨_, wf.pos_lt k d, full⟩
      exact absurd member (wf.content_eq_none.mp absent v)
  rw [wf.accepts_of_probe before empty, Spare, or_comm]
  refine or_congr_right ⟨?_, ?_⟩
  · intro ⟨l, lower, tomb⟩
    exact ⟨l, by omega, tomb, fun e earlier blank => before e (by omega) (.inl blank)⟩
  · intro ⟨l, _, tomb, reached⟩
    refine ⟨l, Nat.lt_of_not_le fun later => ?_, tomb⟩
    rcases Nat.eq_or_lt_of_le later with same | later
    · rw [← same, empty] at tomb
      cases tomb
    · exact reached d later empty

end Insert

/-! ### Erasure -/

theorem bury_empty {w : V} (full : t.slots i = .full k w) :
    (t.bury i).slots j = .empty ↔ t.slots j = .empty := by
  by_cases same : j = i
  · simp [bury, same, full]
  · simp [bury, update_of_ne same]

theorem bury_full {w : V} (shown : (t.bury i).slots j = .full k' w) :
    j ≠ i ∧ t.slots j = .full k' w := by
  by_cases same : j = i
  · simp [bury, same] at shown
  · exact ⟨same, by simpa [bury, update_of_ne same] using shown⟩

theorem bury_entries (bound : i < t.capacity) (full : t.slots i = .full k v) :
    t.entries.Perm ((k, v) :: (t.bury i).entries) := by
  have before := entries_perm_others (t := t) bound
  have after := entries_perm_others (t := t.bury i) bound
  have same : (t.bury i).others i = t.others i := others_update _ _ _ _
  have blank : ((t.bury i).slots i).entry = none := by simp [bury]
  rw [full] at before
  rw [same, blank] at after
  exact before.trans (after.symm.cons (k, v))

theorem WellFormed.bury_wellFormed (wf : t.WellFormed hash) (bound : i < t.capacity) (full : t.slots i = .full k v) :
    (t.bury i).WellFormed hash := by
  have perm := bury_entries bound full
  have length := perm.length_eq
  rw [length_cons] at length
  have tombs := tombstones_update t.slots bound .tombstone
  simp only [full, Slot.isTombstone_full, Slot.isTombstone_tombstone, Bool.false_eq_true, if_true, if_false] at tombs
  have size := wf.size_eq
  have counted := wf.tombstones_eq
  have load := wf.load
  refine ⟨wf.pow, wf.headroom, ?_, ?_, ?_, ?_, ?_⟩
  · simp only [bury]
    omega
  · simp only [bury] at length ⊢
    omega
  · simp only [bury]
    omega
  · intro j j' k' w w' low low' shown shown'
    exact wf.unique j j' k' w w' low low' (bury_full shown).2 (bury_full shown').2
  · intro j k' w low shown
    obtain ⟨d, here, path⟩ := wf.chain j k' w low (bury_full shown).2
    exact ⟨d, here, fun e lower empty => path e lower ((bury_empty full).mp empty)⟩

section Erase

variable [DecidableEq K]

/-- `u` is `t` without the entry of `k`. -/
structure Erased (hash : K → Nat) (t u : Table K V) (k : K) (v : V) : Prop where
  wellFormed : u.WellFormed hash
  capacity_eq : u.capacity = t.capacity
  maxLoad_eq : u.maxLoad = t.maxLoad
  entries_perm : t.entries.Perm ((k, v) :: u.entries)
  load_eq : u.size + u.tombstones = t.size + t.tombstones
  accepts_self : u.accepts hash k = true
  accepts_other : ∀ k', t.accepts hash k' = true → u.accepts hash k' = true

section

variable (wf : t.WellFormed hash)
include wf

/-- A probe that ended at an empty slot ends there after a key was erased. -/
theorem WellFormed.bury_accepts (bound : i < t.capacity) (full : t.slots i = .full k v)
    (accepted : t.accepts hash k' = true) :
    (t.bury i).accepts hash k' = true := by
  obtain ⟨d, before, ⟨w, _, result⟩ | ⟨empty, _⟩⟩ := wf.probeInsert_spec k'
  · simp [accepts, result] at accepted
  · have wf' := wf.bury_wellFormed bound full
    have before' : ∀ e < d, ¬ (t.bury i).Stops k' ((t.bury i).pos hash k' e) := by
      intro e lower stop
      rcases stop with blank | ⟨w, shown⟩
      · exact before e lower (.inl ((bury_empty full).mp blank))
      · exact before e lower (.inr ⟨w, (bury_full shown).2⟩)
    rw [wf'.accepts_of_probe before' ((bury_empty full).mpr empty)]
    rcases (wf.accepts_of_probe before empty).mp accepted with ⟨l, lower, tomb⟩ | room
    · refine .inl ⟨l, lower, ?_⟩
      by_cases same : t.pos hash k' l = i
      · rw [same, full] at tomb
        cases tomb
      · exact (update_of_ne same _ _).trans tomb
    · have length := (bury_entries bound full).length_eq
      rw [length_cons, ← wf.size_eq] at length
      exact .inr (by simp only [bury]; omega)

/-- The slot of the erased key lies on the key's own probe, so it takes the key back. -/
theorem WellFormed.bury_accepts_self (bound : i < t.capacity) (full : t.slots i = .full k v) :
    (t.bury i).accepts hash k = true := by
  have wf' := wf.bury_wellFormed bound full
  have gone : ∀ w, ¬ ∃ j < t.capacity, (t.bury i).slots j = .full k w := by
    intro w ⟨j, low, shown⟩
    have old := bury_full shown
    exact old.1 (wf.unique j i k w v low bound old.2 full)
  obtain ⟨d, before, ⟨w, shown, _⟩ | ⟨empty, _⟩⟩ := wf'.probeInsert_spec k
  · exact absurd ⟨_, wf'.pos_lt k d, shown⟩ (gone w)
  · rw [wf'.accepts_of_probe before empty]
    obtain ⟨e, here, path⟩ := wf.chain i k v bound full
    have lower : e < d := by
      rcases Nat.lt_trichotomy e d with lower | same | higher
      · exact lower
      · rw [← same, show (t.bury i).pos hash k e = i from here] at empty
        simp [bury] at empty
      · exact absurd ((bury_empty full).mp empty) (path d higher)
    refine .inl ⟨e, lower, ?_⟩
    rw [show (t.bury i).pos hash k e = i from here]
    simp [bury]

/-- The two outcomes of an erasure. -/
theorem WellFormed.erase_cases (k : K) :
    (t.content k = none ∧ t.erase hash k = some (false, t)) ∨
    ∃ v u, t.content k = some v ∧ t.erase hash k = some (true, u) ∧ Erased hash t u k v := by
  obtain ⟨d, short, stop, before⟩ := wf.exists_stop k
  have probe : t.probeFind hash k = some (t.pos hash k d) := by
    rw [probeFind, wf.bucketFor_eq]
    exact wf.probeFindFrom_eq (Nat.zero_le _) (by omega) (fun j _ high => before j high) stop
  have bound := wf.pos_lt k d
  rcases stop with empty | ⟨v, full⟩
  · refine .inl ⟨?_, by simp [erase, probe, empty]⟩
    rw [wf.content_eq_none]
    intro v member
    obtain ⟨i, low, full⟩ := mem_entries.mp member
    exact wf.absent_of_empty empty before low full
  · refine .inr ⟨v, t.bury (t.pos hash k d), wf.content_eq_some.mpr (mem_entries.mpr ⟨_, bound, full⟩),
      by simp [erase, probe, full], wf.bury_wellFormed bound full, rfl, rfl, bury_entries bound full, ?_,
      wf.bury_accepts_self bound full, fun k' accepted => wf.bury_accepts bound full accepted⟩
    have length := (bury_entries bound full).length_eq
    rw [length_cons, ← wf.size_eq] at length
    simp only [bury]
    omega

theorem WellFormed.erase_of_content (present : t.content k = some v) : ∃ u, t.erase hash k = some (true, u) ∧
    Erased hash t u k v := by
  rcases wf.erase_cases k with ⟨absent, _⟩ | ⟨w, u, found, result, erased⟩
  · rw [present] at absent
    cases absent
  · obtain rfl := mem_unique present found
    exact ⟨u, result, erased⟩

theorem Erased.content_eq (er : Erased hash t u k v) : u.content = update t.content k none := by
  have keys := wf.keys_nodup
  rw [(er.entries_perm.map Prod.fst).nodup_iff, map_cons, nodup_cons] at keys
  funext k'
  by_cases same : k' = k
  · subst same
    rw [update_self, er.wellFormed.content_eq_none]
    intro w member
    exact keys.1 (List.mem_map.mpr ⟨_, member, rfl⟩)
  · rw [update_of_ne same]
    apply content_congr wf er.wellFormed
    intro w
    rw [er.entries_perm.mem_iff, mem_cons]
    constructor
    · exact .inr
    · intro member
      rcases member with head | tail
      · exact absurd (congrArg Prod.fst head) same
      · exact tail

theorem WellFormed.erase_some {erased : Bool} (done : t.erase hash k = some (erased, u)) :
    u.WellFormed hash ∧ u.content = update t.content k none := by
  rcases wf.erase_cases k with ⟨absent, kept⟩ | ⟨_, u', _, removed, gone⟩
  · obtain ⟨_, rfl⟩ := Prod.mk.inj (mem_unique kept done)
    exact ⟨wf, by rw [← absent, update_eq_self]⟩
  · obtain ⟨_, rfl⟩ := Prod.mk.inj (mem_unique removed done)
    exact ⟨gone.wellFormed, gone.content_eq wf⟩

theorem WellFormed.erase_accepts {erased : Bool} (done : t.erase hash k = some (erased, u))
    (accepted : t.accepts hash k' = true) : u.accepts hash k' = true := by
  rcases wf.erase_cases k with ⟨_, kept⟩ | ⟨_, u', _, removed, gone⟩
  · obtain ⟨_, rfl⟩ := Prod.mk.inj (mem_unique kept done)
    exact accepted
  · obtain ⟨_, rfl⟩ := Prod.mk.inj (mem_unique removed done)
    exact gone.accepts_other k' accepted

theorem Erased.size_eq (er : Erased hash t u k v) : u.size + 1 = t.size := by
  rw [er.wellFormed.size_eq, wf.size_eq, er.entries_perm.length_eq, length_cons]

end

end Erase

/-! ### Tables that only grow -/

/-- At most `k` slots were ever written, and the keys `f c` for `k < c ≤ bound` are still to come. -/
structure Growing [DecidableEq K] (hash : K → Nat) (f : Nat → K) (bound k : Nat) (t : Table K V) : Prop where
  wellFormed : t.WellFormed hash
  load : t.size + t.tombstones ≤ k
  new : ∀ c, k < c → c ≤ bound → t.content (f c) = none

theorem Growing.insert [DecidableEq K] {f : Nat → K} {bound : Nat} (growing : Growing hash f bound n t)
    (distinct : ∀ c, n + 1 < c → c ≤ bound → f c ≠ f (n + 1)) (within : n + 1 ≤ bound) (v : V) :
    ∃ flag u, t.insert hash (f (n + 1)) v = some (flag, u) ∧ Growing hash f bound (n + 1) u ∧ u.maxLoad = t.maxLoad ∧
      (n < t.maxLoad → flag = true) := by
  have wf := growing.wellFormed
  have absent := growing.new (n + 1) (by omega) within
  have load := growing.load
  rcases wf.insert_cases (f (n + 1)) v with ⟨⟨w, present⟩, _⟩ | ⟨_, _, full, refused⟩ | ⟨_, _, u, inserted, grown⟩
  · rw [absent] at present
    cases present
  · refine ⟨false, t, refused, ⟨wf, by omega, ?_⟩, rfl, fun room => by omega⟩
    exact fun c later => growing.new c (by omega)
  · have size := grown.size_eq wf
    have tombstones := grown.tombstones_le
    refine ⟨true, u, inserted, ⟨grown.wellFormed, by omega, ?_⟩, grown.maxLoad_eq, fun _ => rfl⟩
    intro c later upTo
    rw [grown.content_eq wf, update_of_ne (distinct c later upTo)]
    exact growing.new c (by omega) upTo

end Table

end Probing
