import TickToTrade.Lib.Reuse
import TickToTrade.Lib.RingIndex

/-!
What a server owes its handler: `on_connect`, `on_data` while a connection is open, and one
`on_disconnect`. The generation of an id counts the connections that have left it.
-/

namespace TickToTrade.Net
open List Option Function

inductive Callback where
  | onConnect (id : Int) (accepted : Bool)
  | onData (id : Int) (payload : List UInt8)
  | onDisconnect (id : Int)
  deriving DecidableEq

def Callback.id : Callback → Int
  | .onConnect id _ => id
  | .onData id _ => id
  | .onDisconnect id => id

/-- The callbacks with one id, in order: those of one connection after the other, of which the last may still be open.
-/
inductive Lives (id : Int) : (opened : Bool) → List Callback → Prop
  | nothing : Lives id false []
  | rejected {calls : List Callback} : Lives id false calls → Lives id false (calls ++ [.onConnect id false])
  | accepted {calls : List Callback} : Lives id false calls → Lives id true (calls ++ [.onConnect id true])
  | data {calls : List Callback} (payload : List UInt8) : Lives id true calls →
    Lives id true (calls ++ [.onData id payload])
  | left {calls : List Callback} : Lives id true calls → Lives id false (calls ++ [.onDisconnect id])

theorem Lives.first {id : Int} {opened : Bool} {calls : List Callback} (lives : Lives id opened calls) :
    (∀ call ∈ calls.head?, ∃ accepted, call = .onConnect id accepted) ∧
    (opened = true → ∃ call, calls.head? = some call) := by
  induction lives with
  | nothing => exact ⟨nofun, nofun⟩
  | @rejected calls _ ih | @accepted calls _ ih =>
    rw [head?_append]
    cases head : calls.head? with
    | none =>
      refine ⟨fun call found => ?_, fun _ => ⟨_, rfl⟩⟩
      cases found
      exact ⟨_, rfl⟩
    | some first =>
      rw [head] at ih
      exact ⟨ih.1, fun _ => ⟨first, rfl⟩⟩
  | data payload _ ih | left _ ih =>
    obtain ⟨first, head⟩ := ih.2 rfl
    rw [head] at ih
    rw [head?_append, head]
    exact ⟨ih.1, fun _ => ⟨first, rfl⟩⟩

structure Conn where
  fd : Nat
  generation : Nat
  deriving DecidableEq

inductive Phase where
  | absent
  /-- Its `on_connect` has not returned. -/
  | arriving
  | opened
  /-- Its `on_disconnect` has been called. -/
  | leaving
  deriving DecidableEq

def Phase.isOpen : Phase → Bool
  | .opened => true
  | _ => false

structure Registry where
  phase : Nat → Phase
  generation : Nat → Nat
  log : List Callback
  conns : List Conn
  /-- The connection that last had the id. -/
  owner : Nat → Nat

namespace Registry

def history (r : Registry) : List Nat := r.conns.map Conn.fd

def arrive (r : Registry) (n : Nat) : Registry :=
  { r with
    phase := update r.phase n .arriving
    conns := r.conns ++ [⟨n, r.generation n⟩]
    owner := update r.owner n r.conns.length }

def accept (r : Registry) (n : Nat) : Registry :=
  { r with phase := update r.phase n .opened, log := r.log ++ [.onConnect n true] }

def disconnect (r : Registry) (n : Nat) : Registry :=
  { r with phase := update r.phase n .leaving, log := r.log ++ [.onDisconnect n] }

def release (r : Registry) (n : Nat) : Registry :=
  { r with
    phase := update r.phase n .absent
    generation := update r.generation n ((r.generation n + 1) % 2 ^ 32) }

def reject (r : Registry) (n : Nat) : Registry := { r.release n with log := r.log ++ [.onConnect n false] }

inductive Step (r : Registry) : Registry → Prop
  | quiet : Step r r
  | arrive {n : Nat} : r.phase n = .absent → Step r (r.arrive n)
  | accept {n : Nat} : r.phase n = .arriving → Step r (r.accept n)
  | reject {n : Nat} : r.phase n = .arriving → Step r (r.reject n)
  | data {n : Nat} (payload : List UInt8) : r.phase n = .opened → Step r { r with log := r.log ++ [.onData n payload] }
  | disconnect {n : Nat} : r.phase n = .opened → Step r (r.disconnect n)
  | release {n : Nat} : r.phase n = .leaving → Step r (r.release n)

def calls (log : List Callback) (id : Int) : List Callback := log.filter fun call => call.id = id

theorem calls_append (log : List Callback) (call : Callback) (id : Int) :
    calls (log ++ [call]) id = if call.id = id then calls log id ++ [call] else calls log id := by
  rw [calls, filter_append, calls]
  by_cases same : call.id = id
  · simp [same]
  · simp [same]

structure Inv (r : Registry) : Prop where
  lives : ∀ n : Nat, Lives n (r.phase n).isOpen (calls r.log n)
  ids : ∀ call ∈ r.log, ∃ n : Nat, call.id = n
  stamps : ∀ k c, r.conns[k]? = some c → c.generation = Reuse.rank r.history k c.fd % 2 ^ 32
  here : ∀ n, r.phase n ≠ .absent →
    r.conns[r.owner n]? = some ⟨n, r.generation n⟩ ∧ r.history.count n = Reuse.rank r.history (r.owner n) n + 1
  gone : ∀ n, r.phase n = .absent → r.generation n = r.history.count n % 2 ^ 32

variable {r r' : Registry} {n : Nat}

theorem Inv.call (inv : r.Inv) (phase : Phase) (call : Callback) (id : call.id = n) (before : r.phase n ≠ .absent)
    (after : phase ≠ .absent)
    (next : Lives n (r.phase n).isOpen (calls r.log n) → Lives n phase.isOpen (calls r.log n ++ [call])) :
    ({ r with phase := update r.phase n phase, log := r.log ++ [call] } : Registry).Inv := by
  refine ⟨fun m => ?_, fun call' member => ?_, inv.stamps, fun m present => ?_, fun m absent => ?_⟩
  · dsimp only
    rw [calls_append, id]
    by_cases same : m = n
    · subst same
      rw [if_pos rfl, update_self]
      exact next (inv.lives m)
    · rw [if_neg (by omega), update_of_ne same]
      exact inv.lives m
  · rcases mem_append.mp member with old | new
    · exact inv.ids call' old
    · cases mem_singleton.mp new
      exact ⟨n, id⟩
  · by_cases same : m = n
    · subst same
      exact inv.here m before
    · dsimp only at present
      rw [update_of_ne same] at present
      exact inv.here m present
  · by_cases same : m = n
    · subst same
      dsimp only at absent
      rw [update_self] at absent
      exact absurd absent after
    · dsimp only at absent
      rw [update_of_ne same] at absent
      exact inv.gone m absent

theorem Inv.arrive (inv : r.Inv) (absent : r.phase n = .absent) : (r.arrive n).Inv := by
  have history : (r.arrive n).history = r.history ++ [n] := map_append
  have length : r.history.length = r.conns.length := length_map ..
  have count : ∀ {m}, m ≠ n → (r.arrive n).history.count m = r.history.count m := fun other => by
    rw [history, count_append, count_singleton, if_neg (by simpa using other.symm), Nat.add_zero]
  refine ⟨fun m => ?_, inv.ids, fun k c found => ?_, fun m present => ?_, fun m gone => ?_⟩
  · have lives := inv.lives m
    by_cases same : m = n
    · subst same
      simpa [Registry.arrive, absent, Phase.isOpen] using lives
    · simpa [Registry.arrive, same] using lives
  · simp only [Registry.arrive] at found
    rw [history]
    by_cases old : k < r.conns.length
    · rw [getElem?_append_left old] at found
      rw [Reuse.rank_append (by omega)]
      exact inv.stamps k c found
    · rw [getElem?_append_right (by omega), getElem?_singleton] at found
      split at found
      case isFalse => cases found
      case isTrue first =>
        cases found
        have last : k = r.history.length := by omega
        rw [last, Reuse.rank_append (Nat.le_refl _), Reuse.rank_length]
        exact inv.gone n absent
  · by_cases same : m = n
    · subst same
      have owner : (r.arrive m).owner m = r.conns.length := update_self ..
      rw [owner, history, ← length, Reuse.rank_append (Nat.le_refl _), Reuse.rank_length, count_append,
        count_singleton_self, length]
      exact ⟨getElem?_concat_length, rfl⟩
    · have owner : (r.arrive n).owner m = r.owner m := update_of_ne same ..
      have before : (r.arrive n).phase m = r.phase m := update_of_ne same ..
      obtain ⟨found, last⟩ := inv.here m (before ▸ present)
      have old := (List.getElem?_eq_some_iff.mp found).1
      rw [owner, count same, history, Reuse.rank_append (by omega), last]
      exact ⟨(getElem?_append_left old).trans found, rfl⟩
  · have other : m ≠ n := by
      rintro rfl
      simp [Registry.arrive] at gone
    simp only [Registry.arrive, update_of_ne other] at gone
    rw [count other]
    exact inv.gone m gone

theorem Inv.release (inv : r.Inv) (present : r.phase n ≠ .absent) (lives : Lives n false (calls r.log n)) :
    (r.release n).Inv := by
  refine ⟨fun m => ?_, inv.ids, inv.stamps, fun m here => ?_, fun m gone => ?_⟩
  · by_cases same : m = n
    · subst same
      simpa [Registry.release, Phase.isOpen] using lives
    · simpa [Registry.release, same] using inv.lives m
  · have other : m ≠ n := by
      rintro rfl
      simp [Registry.release] at here
    simp only [Registry.release, update_of_ne other] at here ⊢
    exact inv.here m here
  · by_cases same : m = n
    · subst same
      obtain ⟨found, last⟩ := inv.here m present
      have stamp := inv.stamps _ _ found
      simp only [Registry.release, update_self]
      dsimp only at stamp
      rw [stamp, Nat.mod_add_mod]
      exact congrArg (· % 2 ^ 32) last.symm
    · simp only [Registry.release, update_of_ne same] at gone ⊢
      exact inv.gone m gone

theorem Inv.step (inv : r.Inv) (stepped : Step r r') : r'.Inv := by
  cases stepped with
  | quiet => exact inv
  | arrive absent => exact inv.arrive absent
  | @accept n arriving =>
    refine inv.call .opened (.onConnect n true) rfl (by simp [arriving]) (by simp) fun lives => ?_
    rw [arriving] at lives
    exact lives.accepted
  | @reject n arriving =>
    have kept := inv.call .leaving (.onConnect n false) rfl (by simp [arriving]) (by simp) fun lives => by
      rw [arriving] at lives
      exact lives.rejected
    have lives := kept.lives n
    rw [show ({ r with phase := update r.phase n .leaving, log := r.log ++ [.onConnect n false] } : Registry).phase n =
      .leaving from update_self ..] at lives
    have released := kept.release (by simp) lives
    rwa [Registry.release, update_idem] at released
  | @data n payload opened =>
    have kept := inv.call .opened (.onData n payload) rfl (by simp [opened]) (by simp) fun lives => by
      rw [opened] at lives
      exact lives.data payload
    rwa [← opened, update_eq_self] at kept
  | @disconnect n opened =>
    refine inv.call .leaving (.onDisconnect n) rfl (by simp [opened]) (by simp) fun lives => ?_
    rw [opened] at lives
    exact lives.left
  | @release n leaving =>
    have lives := inv.lives n
    rw [leaving] at lives
    exact inv.release (by simp [leaving]) lives

/-- An event registered for a connection that no later one of its fd could be taken for: if the fd is in use
in that generation, it is by this connection. -/
theorem Inv.owner_eq (inv : r.Inv) {k : Nat} {c : Conn} (found : r.conns[k]? = some c)
    (few : Reuse.reuses r.history k c.fd < 2 ^ 32) (present : r.phase c.fd ≠ .absent)
    (current : r.generation c.fd = c.generation) : r.owner c.fd = k := by
  obtain ⟨last, latest⟩ := inv.here c.fd present
  have stamp := inv.stamps k c found
  have stamp' := inv.stamps _ _ last
  refine @Reuse.eq_of_stamp _ _ _ _ _ _ _ (· % 2 ^ 32) _ (fun less near => RingIndex.position_ne less near) ?_ few
    ?_ latest ?_
  · rw [history, getElem?_map, found, map_some]
  · rw [history, getElem?_map, last, map_some]
  · exact stamp.symm.trans (current.symm.trans stamp')

end Registry

end TickToTrade.Net
