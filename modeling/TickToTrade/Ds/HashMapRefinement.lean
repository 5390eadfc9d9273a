import TickToTrade.Ds.HashMap

/-!
`HashMap` against a finite map. Every run of the code from a created map is a run of the abstract one,
and no probe loop reaches its abort.
-/

namespace TickToTrade.Ds
open Probing Function

variable {K V : Type}

inductive MapOp (K V : Type) where
  | insert (key : K) (value : V)
  | upsert (key : K) (value : V)
  | erase (key : K)
  | find (key : K)
  | forEach (fn : List (K × V) → K → V → V)
  | clear

inductive MapAnswer (K V : Type) where
  | inserted (added : Bool)
  | upserted (result : Table.UpsertResult)
  | erased (removed : Bool)
  | found (value : Option V)
  | visited (entries : List (K × V))
  | cleared

/-! ### The abstract map -/

abbrev FiniteMap (K V : Type) := K → Option V

namespace FiniteMap

/-- A complete visit of `m`: every entry once. -/
structure Visits (m : FiniteMap K V) (entries : List (K × V)) : Prop where
  once : (entries.map Prod.fst).Nodup
  complete : ∀ k v, (k, v) ∈ entries ↔ m k = some v

/-- What the callback `fn` leaves behind when it is called on `entries` in order. -/
structure Revised (fn : List (K × V) → K → V → V) (entries : List (K × V)) (m m' : FiniteMap K V) : Prop where
  visited : ∀ before k v after, entries = before ++ (k, v) :: after → m' k = some (fn before k v)
  absent : ∀ k, m k = none → m' k = none

variable [DecidableEq K]

/-- One operation. A key that is not there may be refused only if `full` holds. -/
inductive Step (full : Prop) : FiniteMap K V → MapOp K V → MapAnswer K V → FiniteMap K V → Prop where
  | insertNew {m k v} (absent : m k = none) :
    Step full m (.insert k v) (.inserted true) (update m k (some v))
  | insertPresent {m k v w} (present : m k = some w) : Step full m (.insert k v) (.inserted false) m
  | insertRefused {m k v} (absent : m k = none) (refused : full) : Step full m (.insert k v) (.inserted false) m
  | upsertNew {m k v} (absent : m k = none) :
    Step full m (.upsert k v) (.upserted .inserted) (update m k (some v))
  | upsertPresent {m k v w} (present : m k = some w) :
    Step full m (.upsert k v) (.upserted .updated) (update m k (some v))
  | upsertRefused {m k v} (absent : m k = none) (refused : full) : Step full m (.upsert k v) (.upserted .capacityFull) m
  | erasePresent {m k w} (present : m k = some w) : Step full m (.erase k) (.erased true) (update m k none)
  | eraseAbsent {m k} (absent : m k = none) : Step full m (.erase k) (.erased false) m
  | find {m k} : Step full m (.find k) (.found (m k)) m
  | forEach {m m' fn entries} (visits : Visits m entries) (revised : Revised fn entries m m') :
    Step full m (.forEach fn) (.visited entries) m'
  | clear {m} : Step full m .clear .cleared fun _ => none

inductive Run : FiniteMap K V → List (MapOp K V) → List (MapAnswer K V) → FiniteMap K V → Prop where
  | nil {m} : Run m [] [] m
  | cons {full m op answer m' ops answers m''} (head : Step full m op answer m') (tail : Run m' ops answers m'') :
    Run m (op :: ops) (answer :: answers) m''

end FiniteMap

/-! ### The code -/

namespace HashMap

variable [DecidableEq K] [DefaultHash K]

def step (m : HashMap K V) : MapOp K V → Exec (MapAnswer K V × HashMap K V)
  | .insert k v => do
    let (added, m) ← m.insert k v
    pure (.inserted added, m)
  | .upsert k v => do
    let (result, m) ← m.upsert k v
    pure (.upserted result, m)
  | .erase k => do
    let (removed, m) ← m.erase k
    pure (.erased removed, m)
  | .find k => do
    let value ← m.find k
    pure (.found value, m)
  | .forEach fn =>
    let (entries, m) := m.forEach fn
    pure (.visited entries, m)
  | .clear => pure (.cleared, m.clear)

def run (m : HashMap K V) : List (MapOp K V) → Exec (List (MapAnswer K V) × HashMap K V)
  | [] => pure ([], m)
  | op :: ops => do
    let (answer, m) ← m.step op
    let (answers, m) ← m.run ops
    pure (answer :: answers, m)

/-- No room for a key that finds no tombstone on its way. -/
def Full (m : HashMap K V) : Prop := m.maxLoad ≤ m.size + m.tombstones

structure Stepped (m : HashMap K V) (op : MapOp K V) (answer : MapAnswer K V) (m' : HashMap K V) : Prop where
  step_eq : m.step op = some (answer, m')
  ok : m'.Ok
  capacity_eq : m'.capacity = m.capacity
  maxLoad_eq : m'.maxLoad = m.maxLoad
  abstract : FiniteMap.Step m.Full m.content op answer m'.content

variable {m : HashMap K V}

section

variable (ok : m.Ok)
include ok

theorem Ok.step_insert (k : K) (v : V) : ∃ answer m', m.Stepped (.insert k v) answer m' := by
  rcases ok.insert_cases k v with ⟨⟨w, present⟩, _, kept⟩ | ⟨absent, _, full, kept⟩ | ⟨absent, _, u, added, grown⟩
  · exact ⟨_, m, by simp [step, ok.insert_eq, kept], ok, rfl, rfl, .insertPresent present⟩
  · exact ⟨_, m, by simp [step, ok.insert_eq, kept], ok, rfl, rfl, .insertRefused absent full⟩
  · refine ⟨.inserted true, u,
      by simp [step, ok.insert_eq, added], grown.wellFormed, grown.capacity_eq, grown.maxLoad_eq, ?_⟩
    rw [grown.content_eq ok]
    exact .insertNew absent

theorem Ok.step_upsert (k : K) (v : V) : ∃ answer m', m.Stepped (.upsert k v) answer m' := by
  rcases ok.upsert_cases k v with ⟨w, u, present, done, same, written⟩ | ⟨absent, full, kept⟩ | ⟨absent, u, done, grown⟩
  · refine ⟨.upserted .updated, u,
      by simp [step, ok.upsert_eq, done], same.wellFormed ok, same.capacity_eq, same.maxLoad_eq, ?_⟩
    rw [written]
    exact .upsertPresent present
  · exact ⟨_, m, by simp [step, ok.upsert_eq, kept], ok, rfl, rfl, .upsertRefused absent full⟩
  · refine ⟨.upserted .inserted, u,
      by simp [step, ok.upsert_eq, done], grown.wellFormed, grown.capacity_eq, grown.maxLoad_eq, ?_⟩
    rw [grown.content_eq ok]
    exact .upsertNew absent

theorem Ok.step_erase (k : K) : ∃ answer m', m.Stepped (.erase k) answer m' := by
  rcases ok.erase_cases k with ⟨absent, kept⟩ | ⟨w, u, present, removed, gone⟩
  · exact ⟨_, m, by simp [step, ok.erase_eq, kept], ok, rfl, rfl, .eraseAbsent absent⟩
  · refine ⟨.erased true, u,
      by simp [step, ok.erase_eq, removed], gone.wellFormed, gone.capacity_eq, gone.maxLoad_eq, ?_⟩
    rw [gone.content_eq ok]
    exact .erasePresent present

theorem Ok.step_forEach (fn : List (K × V) → K → V → V) : ∃ answer m', m.Stepped (.forEach fn) answer m' := by
  have same := Table.forEach_sameShape fn m
  have visits : FiniteMap.Visits m.content m.entries := ⟨ok.keys_nodup, fun k v => ok.content_eq_some.symm⟩
  refine ⟨.visited m.entries, (m.forEach fn).2, ?_, same.wellFormed ok, same.capacity_eq, same.maxLoad_eq,
    .forEach visits ⟨fun before k v after split => ok.forEach_content split, fun k absent => ok.forEach_absent absent⟩⟩
  simp [step, forEach, ← Table.forEach_visits fn m]

theorem Ok.step_clear : ∃ answer m', m.Stepped .clear answer m' := by
  refine ⟨.cleared, m.clear, rfl, Table.WellFormed.clear ok, rfl, rfl, ?_⟩
  have blank : m.clear.content = fun _ => none := funext fun k => Table.fresh_content m.capacity m.maxLoad k
  rw [blank]
  exact .clear

/-- Every operation returns, keeps the map well formed and does a step of the abstract map. -/
theorem Ok.step_spec (op : MapOp K V) : ∃ answer m', m.Stepped op answer m' := by
  cases op with
  | insert k v => exact ok.step_insert k v
  | upsert k v => exact ok.step_upsert k v
  | erase k => exact ok.step_erase k
  | find k => exact ⟨_, m, by simp [step, ok.find_eq], ok, rfl, rfl, .find⟩
  | forEach fn => exact ok.step_forEach fn
  | clear => exact ok.step_clear

theorem Ok.run_spec (ops : List (MapOp K V)) :
    ∃ answers m', m.run ops = some (answers, m') ∧ m'.Ok ∧ m'.capacity = m.capacity ∧ m'.maxLoad = m.maxLoad ∧
      FiniteMap.Run m.content ops answers m'.content := by
  induction ops generalizing m with
  | nil => exact ⟨[], m, rfl, ok, rfl, rfl, .nil⟩
  | cons op ops ih =>
    obtain ⟨answer, m₁, stepped⟩ := ok.step_spec op
    obtain ⟨answers, m', ran, ok', capacity_eq, maxLoad_eq, abstract⟩ := ih stepped.ok
    exact ⟨answer :: answers, m', by simp [run, stepped.step_eq, ran], ok', capacity_eq.trans stepped.capacity_eq,
      maxLoad_eq.trans stepped.maxLoad_eq, .cons stepped.abstract abstract⟩

end

/-- `HashMap` refines a finite map. Whatever the hash, a run from a created map returns, its answers
are those of the abstract map, the load stays within bounds, and in the state it reaches the next
operation, whichever it is, does an abstract step in which a new key is refused only when the load
is at its limit. -/
theorem run_refines_finiteMap {capacity : Nat} {m : HashMap K V} (created : create capacity = some m)
    (ops : List (MapOp K V)) :
    ∃ answers m', m.run ops = some (answers, m') ∧ FiniteMap.Run (fun _ => none) ops answers m'.content ∧
      m'.size + m'.tombstones ≤ m'.maxLoad ∧ m'.maxLoad < m'.capacity ∧ m'.capacity = capacity ∧
      m'.maxLoad = capacity * 7 / 10 ∧
      ∀ op, ∃ answer m'', m'.step op = some (answer, m'') ∧
      FiniteMap.Step m'.Full m'.content op answer m''.content := by
  obtain ⟨ok, rfl⟩ := create_ok created
  obtain ⟨answers, m', ran, ok', capacity_eq, maxLoad_eq, abstract⟩ := ok.run_spec ops
  have blank : (Table.fresh capacity (capacity * 7 / 10) : HashMap K V).content = fun _ => none :=
    funext fun k => Table.fresh_content _ _ k
  rw [blank] at abstract
  refine ⟨answers, m', ran, abstract, ok'.load, ok'.headroom, capacity_eq, maxLoad_eq, fun op => ?_⟩
  obtain ⟨answer, m'', stepped⟩ := ok'.step_spec op
  exact ⟨answer, m'', stepped.step_eq, stepped.abstract⟩

/-- Four slots and a key that comes back after its tombstone. -/
theorem run_refines_finiteMap_four :
    ∃ m : HashMap Nat Nat, create 4 = some m ∧
      ∃ answers m', m.run [.insert 1 10, .upsert 1 11, .erase 1, .insert 1 12, .find 1] = some (answers, m') ∧
        FiniteMap.Run (fun _ => none)
        [.insert 1 10, .upsert 1 11, .erase 1, .insert 1 12, .find 1] answers m'.content := by
  refine ⟨_, rfl, ?_⟩
  obtain ⟨answers, m', ran, abstract, _⟩ := @run_refines_finiteMap Nat Nat _ _ 4 _ rfl
    [.insert 1 10, .upsert 1 11, .erase 1, .insert 1 12, .find 1]
  exact ⟨answers, m', ran, abstract⟩

end HashMap

end TickToTrade.Ds
