import TickToTrade.Exchange.CallFrames
import TickToTrade.Exchange.IdMapRuns
import TickToTrade.Lib.Transition

/-!
Session ids. `on_client_connect` goes through the ids from `next_session_id_` on and stops after 65535
of them.
-/

namespace TickToTrade.Exchange
open Algo Ds Probing ExchangeCore List Option

variable {maxSymbols : Nat} {core core' : ExchangeCore maxSymbols} {sessionId : UInt16}

/-! ### The search -/

def firstId (next : UInt16) : UInt16 := if next = 0 then 1 else next

def searchedId (next : UInt16) (k : Nat) : UInt16 := UInt16.ofNat (((firstId next).toNat - 1 + k) % 65535 + 1)

theorem firstId_pos (next : UInt16) : 0 < (firstId next).toNat := by
  unfold firstId
  split
  · decide
  · rename_i nonzero
    exact Nat.pos_of_ne_zero fun zero => nonzero (UInt16.toNat_inj.mp zero)

theorem firstId_succ {id : UInt16} (positive : 0 < id.toNat) : (firstId (id + 1)).toNat = id.toNat % 65535 + 1 := by
  have bound := id.toNat_lt
  have next : (id + 1).toNat = (id.toNat + 1) % 65536 := UInt16.toNat_add id 1
  unfold firstId
  split
  · rename_i wrapped
    have zero : (id.toNat + 1) % 65536 = 0 := by rw [← next, wrapped]; rfl
    show 1 = _
    omega
  · rename_i inside
    have nonzero : (id.toNat + 1) % 65536 ≠ 0 := fun zero => inside (UInt16.toNat_inj.mp (next.trans zero))
    omega

theorem searchedId_zero (next : UInt16) : searchedId next 0 = firstId next := by
  have positive := firstId_pos next
  have bound := (firstId next).toNat_lt
  refine UInt16.toNat_inj.mp ?_
  rw [searchedId, UInt16.toNat_ofNat_of_lt' (by show _ < 65536; omega)]
  omega

theorem searchedId_succ (next : UInt16) (k : Nat) : searchedId (firstId next + 1) k = searchedId next (k + 1) := by
  have positive := firstId_pos next
  unfold searchedId
  rw [firstId_succ positive]
  congr 1
  omega

theorem findSession_eq_none {fuel : Nat} :
    findSession fuel core = none ↔ ∀ k < fuel, core.activeSessions (searchedId core.nextSessionId k) = true := by
  induction fuel generalizing core with
  | zero => exact ⟨fun _ k below => absurd below (Nat.not_lt_zero k), fun _ => rfl⟩
  | succ fuel ih =>
    have first := searchedId_zero core.nextSessionId
    unfold findSession
    dsimp only
    rw [← firstId]
    by_cases active : core.activeSessions (firstId core.nextSessionId) = true
    · rw [if_pos active, ih]
      dsimp only
      constructor
      · intro rest k below
        cases k with
        | zero => rwa [first]
        | succ k =>
          rw [← searchedId_succ]
          exact rest k (by omega)
      · intro all k below
        rw [searchedId_succ]
        exact all (k + 1) (by omega)
    · rw [if_neg active]
      refine iff_of_false (some_ne_none _) fun all => active ?_
      rw [← first]
      exact all 0 (by omega)

theorem searchedId_covers (next : UInt16) {id : UInt16} (nonzero : id ≠ 0) : ∃ k < 65535, searchedId next k = id := by
  have positive : 0 < id.toNat := Nat.pos_of_ne_zero fun zero => nonzero (UInt16.toNat_inj.mp zero)
  have bound := id.toNat_lt
  have first := firstId_pos next
  have last := (firstId next).toNat_lt
  refine ⟨(id.toNat - 1 + 65535 - ((firstId next).toNat - 1)) % 65535, Nat.mod_lt _ (by decide), UInt16.toNat_inj.mp ?_⟩
  rw [searchedId, UInt16.toNat_ofNat_of_lt' (by show _ < 65536; omega)]
  omega

theorem searchedId_ne_zero (next : UInt16) (k : Nat) : searchedId next k ≠ 0 := by
  intro zero
  have value := congrArg UInt16.toNat zero
  rw [searchedId, UInt16.toNat_ofNat_of_lt' (by show _ < 65536; omega)] at value
  exact absurd value (by show ¬ _ = 0; omega)

structure Connects (core : ExchangeCore maxSymbols) : Prop where
  aborts : core.onClientConnect = none ↔ ∀ id ≠ 0, core.activeSessions id = true
  returns : ∀ id core', core.onClientConnect = some (id, core') → id ≠ 0 ∧ core.activeSessions id = false ∧
    core'.activeSessions = Function.update core.activeSessions id true ∧
    core' = { core with nextSessionId := core'.nextSessionId, activeSessions := core'.activeSessions }

theorem connects (core : ExchangeCore maxSymbols) : Connects core where
  aborts := by
    rw [onClientConnect, findSession_eq_none]
    constructor
    · intro all id nonzero
      obtain ⟨k, below, rfl⟩ := searchedId_covers core.nextSessionId nonzero
      exact all k below
    · intro all k _
      exact all _ (searchedId_ne_zero _ k)
  returns id core' connected := by
    obtain ⟨nonzero, inactive, active⟩ := findSession_new connected
    exact ⟨nonzero, inactive, active, findSession_frame connected⟩

/-! ### The sessions of a run -/

structure Sessions (maxSymbols : Nat) where
  core : ExchangeCore maxSymbols
  next : Nat := 0
  held : List (Nat × UInt16) := []

namespace Sessions

variable {s s' : Sessions maxSymbols} {op : Op}

def leave (held : List (Nat × UInt16)) : Op → List (Nat × UInt16)
  | .disconnect sessionId => held.filter fun session => session.2 ≠ sessionId
  | _ => held

def step (s : Sessions maxSymbols) : Op → Exec (Sessions maxSymbols)
  | .connect => do
    let (sessionId, core) ← s.core.onClientConnect
    return { core, next := s.next + 1, held := (s.next, sessionId) :: s.held }
  | op => do
    let core ← s.core.apply op
    return { s with core := core.drainEvents.2, held := leave s.held op }

abbrev run : List Op → Sessions maxSymbols → Exec (Sessions maxSymbols) := Transition.run step

/-- The active ids are those of the connected sessions, and no two of these share one. -/
structure Distinct (s : Sessions maxSymbols) : Prop where
  seen : Table.WellFormed DefaultHash.hash s.core.seenOrders
  active : ∀ id, s.core.activeSessions id = true ↔ id ∈ s.held.map Prod.snd
  ids : (s.held.map Prod.snd).Nodup
  nonzero : ∀ id ∈ s.held.map Prod.snd, id ≠ 0

theorem Distinct.connect (distinct : Distinct s) (connected : s.core.onClientConnect = some (sessionId, core')) :
    Distinct ({ core := core', next := s.next + 1, held := (s.next, sessionId) :: s.held } : Sessions maxSymbols) := by
  obtain ⟨nonzero, inactive, active, frame⟩ := (connects s.core).returns sessionId core' connected
  have fresh : sessionId ∉ s.held.map Prod.snd := by
    rw [← distinct.active, inactive]
    exact Bool.false_ne_true
  refine ⟨?_, fun id => ?_, ?_, ?_⟩
  · dsimp only
    rw [frame]
    exact distinct.seen
  · dsimp only
    rw [active, map_cons, mem_cons, ← distinct.active]
    by_cases here : id = sessionId
    · simp [here]
    · simp [here]
  · exact nodup_cons.mpr ⟨fresh, distinct.ids⟩
  · exact forall_mem_cons.mpr ⟨nonzero, distinct.nonzero⟩

theorem Distinct.disconnect (distinct : Distinct s) (done : s.core.onClientDisconnect sessionId = some core') :
    Distinct { s with core := core'.drainEvents.2, held := leave s.held (.disconnect sessionId) } := by
  have listed : ∀ id, id ∈ (leave s.held (.disconnect sessionId)).map Prod.snd ↔ id ∈ s.held.map Prod.snd ∧
      id ≠ sessionId := by
    intro id
    simp only [leave, List.mem_map, mem_filter, decide_eq_true_eq]
    constructor
    · rintro ⟨session, ⟨member, other⟩, rfl⟩
      exact ⟨⟨session, member, rfl⟩, other⟩
    · rintro ⟨⟨session, member, rfl⟩, other⟩
      exact ⟨session, ⟨member, other⟩, rfl⟩
  have ids : ((leave s.held (.disconnect sessionId)).map Prod.snd).Nodup :=
    distinct.ids.sublist (filter_sublist.map Prod.snd)
  have nonzero : ∀ id ∈ (leave s.held (.disconnect sessionId)).map Prod.snd, id ≠ 0 :=
    fun id member => distinct.nonzero id ((listed id).mp member).1
  by_cases zero : sessionId = 0
  · subst zero
    cases done
    refine ⟨distinct.seen, fun id => ?_, ids, nonzero⟩
    rw [listed, ← distinct.active]
    exact ⟨fun active => ⟨active, distinct.nonzero id ((distinct.active id).mp active)⟩, And.left⟩
  · obtain ⟨seen, sessions, -⟩ := onClientDisconnect_seen distinct.seen zero done
    refine ⟨seen, fun id => ?_, ids, nonzero⟩
    rw [listed, ← distinct.active]
    show core'.activeSessions id = true ↔ _
    rw [sessions]
    by_cases here : id = sessionId
    · simp [here]
    · simp [here]

theorem Distinct.request (distinct : Distinct s) (seen : Table.WellFormed DefaultHash.hash core'.seenOrders)
    (sessions : core'.activeSessions = s.core.activeSessions) : Distinct { s with core := core'.drainEvents.2 } :=
  ⟨seen, fun id => by rw [← distinct.active, ← sessions]; rfl, distinct.ids, distinct.nonzero⟩

theorem Distinct.step (distinct : Distinct s) (stepped : s.step op = some s') : Distinct s' := by
  cases op with
  | connect =>
    obtain ⟨⟨sessionId, core'⟩, connected, done⟩ := bind_eq_some_iff.mp stepped
    cases done
    exact distinct.connect connected
  | disconnect sessionId =>
    obtain ⟨core', disconnected, done⟩ := bind_eq_some_iff.mp stepped
    cases done
    exact distinct.disconnect disconnected
  | submit sessionId order =>
    obtain ⟨core', submitted, done⟩ := bind_eq_some_iff.mp stepped
    cases done
    cases submitOrder_submitted distinct.seen submitted with
    | refused head reported _ _ =>
      have replied := reported.replied
      exact distinct.request (replied.seen ▸ distinct.seen) replied.sessions
    | noted head seen core₁ _ _ inserted reached reported _ _ =>
      have replied := reached.replied reported
      exact distinct.request (replied.seen ▸ inserted.wellFormed) replied.sessions
  | cancel sessionId order =>
    obtain ⟨core', cancelled, done⟩ := bind_eq_some_iff.mp stepped
    cases done
    obtain ⟨head, core₁, -, reached, reported⟩ := cancelOrder_reported cancelled
    have replied := reached.replied reported
    exact distinct.request (replied.seen ▸ distinct.seen) replied.sessions
  | modify sessionId order =>
    obtain ⟨core', modified, done⟩ := bind_eq_some_iff.mp stepped
    cases done
    obtain ⟨head, core₁, -, reached, reported⟩ := modifyOrder_reported modified
    have replied := reached.replied reported
    exact distinct.request (replied.seen ▸ distinct.seen) replied.sessions

end Sessions

/-- In every state that a run reaches the connected sessions have distinct ids, these are the active ones, and a connect
finds another one unless all are taken. -/
theorem run_sessions {symbols : List (Nat × Params)} {ops : List Op} {s : Sessions maxSymbols}
    (registered : registerAll symbols {} = some core) (ran : Sessions.run ops { core } = some s) :
    Connects s.core ∧ (∀ id, s.core.activeSessions id = true ↔ ∃ session ∈ s.held, session.2 = id) ∧
      s.held.Pairwise fun session session' => session.2 ≠ session'.2 := by
  have fresh := fresh_initial.registerAll registered
  have frame := registerAll_frame registered
  have start : Sessions.Distinct ({ core } : Sessions maxSymbols) := by
    refine ⟨fresh.healthy.maps.seen, fun id => ?_, nodup_nil, nofun⟩
    dsimp only
    rw [frame]
    exact iff_of_false Bool.false_ne_true not_mem_nil
  have distinct := Transition.run_keeps Sessions.Distinct Sessions.Distinct.step start ran
  refine ⟨connects s.core, fun id => ?_, pairwise_map.mp distinct.ids⟩
  rw [distinct.active, List.mem_map]

theorem run_sessions_two : ∃ s, registerAll [] ({} : ExchangeCore 1) = some {} ∧
    Sessions.run [.connect, .connect, .disconnect 1] ({ core := {} } : Sessions 1) = some s ∧
    Connects s.core ∧ (∀ id, s.core.activeSessions id = true ↔ ∃ session ∈ s.held, session.2 = id) ∧
      s.held.Pairwise fun session session' => session.2 ≠ session'.2 := by
  have returns : (Sessions.run [.connect, .connect, .disconnect 1] ({ core := {} } : Sessions 1)).isSome = true := by
    decide +kernel
  have registered : registerAll [] ({} : ExchangeCore 1) = some {} := rfl
  obtain ⟨s, ran⟩ := isSome_iff_exists.mp returns
  exact ⟨s, registered, ran, run_sessions registered ran⟩

end TickToTrade.Exchange
