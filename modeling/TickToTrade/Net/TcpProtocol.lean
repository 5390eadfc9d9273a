import TickToTrade.Net.TcpSteps

/-!
Every step of `TcpServer` is a step of a registry of connections, as long as the handler closes the
connection whose `on_data` is running only in the last frame of the buffer.
-/

namespace TickToTrade.Net
open List Function

namespace TcpServer

variable {p : TcpServerParams} {s s' : TcpServer} {idx : Nat}

def Control.phase : Control → Nat → Phase
  | .connecting fd, n => if n = fd then .arriving else .opened
  | .dropping fd, n => if n = fd then .leaving else .opened
  | .closing fd, n => if (n : Int) = fd then .leaving else .opened
  | _, _ => .opened

def phase (s : TcpServer) (n : Nat) : Phase :=
  if (s.slots n).fd = -1 then .absent else if n ∈ s.nested then .leaving else s.control.phase n

def registry (s : TcpServer) : Registry where
  phase := s.phase
  generation n := (s.slots n).generation
  log := s.log
  conns := s.conns
  owner := s.owner

/-- The frame loop ends after `consumed` bytes, in the second call of `process_frames`, and not with an error. -/
def Ends (p : TcpServerParams) (slot : ConnSlot) (last : Bool) (consumed : Nat) : Prop :=
  last = true ∧ p.framer.decode (slot.rx.drop consumed) = .incomplete ∧ consumed ≠ kFrameError
  deriving Decidable

/-- A callback calls `close` on open connections. If it closes the one whose `on_data` is running, then the frame is the
last one and its reply is not refused. -/
def Allowed (p : TcpServerParams) (s : TcpServer) : Move → Prop
  | .close id => s.phase id = .opened ∧
    match s.control with
    | .serving idx _ last consumed size => idx = id → Ends p (s.slots idx) last (consumed + size)
    | _ => True
  | .onData reply =>
    match s.control with
    | .serving idx _ _ _ _ => (s.slots idx).fd = -1 → queueReply p (s.slots idx) reply ≠ none
    | _ => True
  | _ => True

/-- The place in the code is one that the slots agree with. -/
def Place (p : TcpServerParams) (s : TcpServer) : Prop :=
  match s.control with
  | .idle | .accepting => True
  | .connecting fd | .registering fd | .dropping fd => (s.slots fd).fd = fd
  | .reading idx _ | .writing idx => (s.slots idx).fd = idx
  | .framing idx _ last consumed => (s.slots idx).fd = idx ∨ (s.slots idx).fd = -1 ∧ Ends p (s.slots idx) last consumed
  | .serving idx _ last consumed size =>
    (s.slots idx).fd = idx ∧ idx ∉ s.nested ∨ Ends p (s.slots idx) last (consumed + size)
  | .closing fd => ∃ n : Nat, fd = n ∧ (s.slots n).fd = n

structure Sound (p : TcpServerParams) (s : TcpServer) : Prop where
  slots : ∀ n, (s.slots n).fd = -1 ∨ (s.slots n).fd = n ∧ n < p.kMaxConns
  distinct : s.nested.Nodup
  nested : ∀ n ∈ s.nested, (s.slots n).fd = n ∧ s.control.phase n = .opened
  calm : ¬ s.control.Calling → s.nested = []
  place : s.Place p

/-- `s'` is sound and one step of the registry further. -/
def Outcome (p : TcpServerParams) (r : Registry) (s' : TcpServer) : Prop := Sound p s' ∧ Registry.Step r s'.registry

theorem fd_ne (n : Nat) : (n : Int) ≠ -1 := by omega

theorem phase_of_fd (here : (s.slots idx).fd = idx) :
    s.phase idx = if idx ∈ s.nested then .leaving else s.control.phase idx := by
  rw [phase, here, if_neg (fd_ne idx)]

theorem Control.phase_ne_absent (c : Control) (n : Nat) : c.phase n ≠ .absent := by
  unfold Control.phase
  split
  · split <;> simp
  · split <;> simp
  · split <;> simp
  · simp

theorem phase_absent_iff : s.phase idx = .absent ↔ (s.slots idx).fd = -1 := by
  unfold TcpServer.phase
  split
  case isTrue closed => exact ⟨fun _ => closed, fun _ => rfl⟩
  case isFalse present =>
    split
    · exact ⟨nofun, fun closed => absurd closed present⟩
    · exact ⟨fun absent => absurd absent (s.control.phase_ne_absent idx), fun closed => absurd closed present⟩

theorem phase_update {phase : Phase} (here : s'.phase idx = phase) (others : ∀ n, n ≠ idx → s'.phase n = s.phase n) :
    s'.phase = update s.phase idx phase := by
  funext n
  by_cases same : n = idx
  · rw [same, update_self, here]
  · rw [update_of_ne same, others n same]

/-- No callback has to return. -/
structure Calm (p : TcpServerParams) (s : TcpServer) : Prop where
  slots : ∀ n, (s.slots n).fd = -1 ∨ (s.slots n).fd = n ∧ n < p.kMaxConns
  nested : s.nested = []
  phase : ∀ n, s.control.phase n = .opened

/-- The event loop works on slot `idx`. -/
structure Ready (p : TcpServerParams) (s : TcpServer) (idx : Nat) : Prop extends Calm p s where
  here : (s.slots idx).fd = idx

theorem registry_control {c : Control} (same : ∀ n, c.phase n = s.control.phase n) :
    ({ s with control := c } : TcpServer).registry = s.registry := by
  have phases : ({ s with control := c } : TcpServer).phase = s.phase := by
    funext n
    simp only [TcpServer.phase, same]
  simp only [registry, phases]

theorem registry_setSlot {f : ConnSlot → ConnSlot}
    (keeps : (f (s.slots idx)).fd = (s.slots idx).fd ∧ (f (s.slots idx)).generation = (s.slots idx).generation) :
    (s.setSlot idx f).registry = s.registry := by
  have slot := setSlot_slots keeps
  have phases : (s.setSlot idx f).phase = s.phase := by
    funext n
    simp only [TcpServer.phase, (slot n).1]
    rfl
  simp only [registry, phases, (slot _).2]
  rfl

theorem Calm.sound (calm : Calm p s) (fds : ∀ n, (s'.slots n).fd = (s.slots n).fd) (nested : s'.nested = s.nested)
    (place : s'.Place p) : Sound p s' := by
  have none : s'.nested = [] := nested.trans calm.nested
  refine ⟨fun n => ?_, none ▸ nodup_nil, by rw [none]; exact nofun, fun _ => none, place⟩
  rw [fds]
  exact calm.slots n

theorem Calm.goto (calm : Calm p s) {c : Control} (plain : ∀ n, c.phase n = .opened)
    (place : ({ s with control := c } : TcpServer).Place p) : Outcome p s.registry { s with control := c } := by
  refine ⟨calm.sound (fun _ => rfl) rfl place, ?_⟩
  rw [registry_control fun n => (plain n).trans (calm.phase n).symm]
  exact .quiet

theorem Calm.phase_eq (calm : Calm p s) (here : (s.slots idx).fd = idx) : s.phase idx = .opened := by
  rw [TcpServer.phase, here, if_neg (fd_ne idx), calm.nested, if_neg not_mem_nil, calm.phase]

theorem Outcome.disconnect (opened : s.phase idx = .opened) (sound : Sound p s') (slots : s'.slots = s.slots)
    (log : s'.log = s.log ++ [.onDisconnect idx]) (conns : s'.conns = s.conns) (owner : s'.owner = s.owner)
    (phases : s'.phase = update s.phase idx .leaving) : Outcome p s.registry s' := by
  have after : s'.registry = s.registry.disconnect idx := by
    simp only [registry, slots, log, conns, owner, phases, Registry.disconnect]
  exact ⟨sound, after ▸ .disconnect opened⟩

theorem Control.phase_of_slot {c : Control} (here : c = .idle ∨ c.slot = some idx) (n : Nat) : c.phase n = .opened := by
  rcases here with rfl | here
  · rfl
  · cases c <;> first | rfl | cases here

theorem place_of_slot (next : s.control = .idle ∨ s.control.slot = some idx) (here : (s.slots idx).fd = idx)
    (outside : idx ∉ s.nested) : s.Place p := by
  unfold Place
  cases control : s.control <;> rw [control] at next <;> simp_all [Control.slot]

theorem Dispatches.registry (dispatch : Dispatches s idx s') :
    s'.registry = { s.registry with phase := s'.phase, log := s'.log } := by
  simp only [TcpServer.registry, dispatch.fds, dispatch.rest]

theorem Calm.working (calm : Calm p s) (dispatch : Dispatches s idx s')
    (next : s'.control = .idle ∨ s'.control.slot = some idx) : s'.registry = { s.registry with log := s'.log } := by
  have phases : s'.phase = s.phase := by
    funext n
    simp only [TcpServer.phase, dispatch.fds, dispatch.rest, Control.phase_of_slot next, calm.phase]
  rw [dispatch.registry, phases]
  rfl

theorem Calm.quiet (calm : Calm p s) (dispatch : Dispatches s idx s')
    (next : s'.control = .idle ∨ s'.control.slot = some idx)
    (log : s'.log = s.log) (place : s'.Place p) : Outcome p s.registry s' := by
  refine ⟨calm.sound (fun n => (dispatch.fds n).1) dispatch.rest.1 place, ?_⟩
  rw [calm.working dispatch next, log]
  exact .quiet

theorem Ready.dispatch (ready : Ready p s idx) (dispatch : Dispatches s idx s') : Outcome p s.registry s' := by
  have nested : s'.nested = [] := dispatch.rest.1.trans ready.nested
  have here : (s'.slots idx).fd = idx := dispatch.slot.1.trans ready.here
  rcases dispatch.next with ⟨closing, log⟩ | ⟨next, log⟩
  · rw [ready.here] at closing log
    refine ⟨ready.sound (fun n => (dispatch.fds n).1) dispatch.rest.1 (by rw [Place, closing]; exact ⟨idx, rfl, here⟩),
      ?_⟩
    have phases : s'.phase = update s.phase idx .leaving := by
      refine phase_update ?_ fun n other => ?_
      · simp [TcpServer.phase, nested, here, closing, Control.phase, fd_ne]
      · have plain : (Control.closing idx).phase n = .opened := if_neg (by omega)
        simp only [TcpServer.phase, dispatch.fds, dispatch.rest, closing, plain, ready.phase]
    rw [dispatch.registry, phases, log]
    exact .disconnect (ready.phase_eq ready.here)
  · have place : s'.Place p := place_of_slot next here (nested ▸ not_mem_nil)
    rcases log with same | ⟨payload, data⟩
    · exact ready.quiet dispatch next same place
    · refine ⟨ready.sound (fun n => (dispatch.fds n).1) dispatch.rest.1 place, ?_⟩
      rw [ready.working dispatch next, data, ready.here]
      exact .data payload (ready.phase_eq ready.here)

/-! ### The steps -/

section

variable (sound : Sound p s)
include sound

theorem Sound.calm_of (quiet : ¬ s.control.Calling) (plain : ∀ n, s.control.phase n = .opened) : Calm p s :=
  ⟨sound.slots, sound.calm quiet, plain⟩

theorem Sound.fd_eq (present : (s.slots idx).fd ≠ -1) : (s.slots idx).fd = idx :=
  ((sound.slots idx).resolve_left present).1

theorem Sound.event {u64 : Nat} {flags : EpollFlags} (stepped : s.stepEvent p u64 flags = some s') :
    Outcome p s.registry s' := by
  obtain ⟨idle, event⟩ := stepEvent_cases stepped
  have calm := sound.calm_of (by rw [idle]; exact id) fun n => by rw [idle]; rfl
  rcases event with ⟨handled, dispatch⟩ | ⟨-, rfl | rfl⟩
  · exact Ready.dispatch ⟨calm, sound.fd_eq handled.2.1⟩ dispatch
  · exact ⟨sound, .quiet⟩
  · exact calm.goto (fun _ => rfl) trivial

theorem Sound.arrive {fd : Nat} (accepting : s.control = .accepting) (small : fd < p.kMaxConns)
    (free : (s.slots fd).fd = -1) : Outcome p s.registry { s.allocSlot fd with control := .connecting fd } := by
  have nested := sound.calm (by rw [accepting]; exact id)
  have absent : s.phase fd = .absent := if_pos free
  have phases : ({ s.allocSlot fd with control := .connecting fd } : TcpServer).phase =
      update s.phase fd .arriving := by
    refine phase_update ?_ fun n other => ?_
    · simp [TcpServer.phase, allocSlot, setSlot, nested, Control.phase, fd_ne]
    · have slot : ((s.allocSlot fd).slots n).fd = (s.slots n).fd := (allocSlot_slots fd n).1.trans (if_neg other)
      have plain : (Control.connecting fd).phase n = .opened := if_neg other
      have before : s.control.phase n = .opened := by rw [accepting]; rfl
      simp only [TcpServer.phase, slot, plain, before]
      rfl
  refine ⟨⟨fun n => ?_, sound.distinct, ?_, fun _ => nested, (allocSlot_slots fd fd).1.trans (if_pos rfl)⟩, ?_⟩
  · rw [(allocSlot_slots fd n).1]
    by_cases same : n = fd
    · rw [if_pos same, same]
      exact .inr ⟨rfl, small⟩
    · rw [if_neg same]
      exact sound.slots n
  · show ∀ n ∈ s.nested, _
    rw [nested]
    exact forall_mem_nil _
  · have after : ({ s.allocSlot fd with control := .connecting fd } : TcpServer).registry = s.registry.arrive fd := by
      simp only [registry, phases, Registry.arrive, allocSlot_slots]
      rfl
    rw [after]
    exact .arrive absent

theorem Sound.accept {result : AcceptResult} (stepped : s.stepAccept p result = some s') :
    Outcome p s.registry s' := by
  obtain ⟨accepting, rfl | rfl | ⟨fd, small, free, rfl⟩⟩ := stepAccept_cases stepped
  · exact ⟨sound, .quiet⟩
  · have calm := sound.calm_of (by rw [accepting]; exact id) fun n => by rw [accepting]; rfl
    exact calm.goto (fun _ => rfl) trivial
  · exact sound.arrive accepting small free

theorem Sound.epollAdd {ok : Bool} (stepped : s.stepEpollAdd ok = some s') : Outcome p s.registry s' := by
  obtain ⟨fd, registering, rfl⟩ := stepEpollAdd_cases stepped
  have calm := sound.calm_of (by rw [registering]; exact id) fun n => by rw [registering]; rfl
  have here := sound.place
  simp only [Place, registering] at here
  cases ok with
  | true => exact calm.goto (fun _ => rfl) trivial
  | false =>
    refine Outcome.disconnect (calm.phase_eq here) (calm.sound (fun _ => rfl) rfl here) rfl rfl rfl rfl ?_
    refine phase_update ?_ fun n other => ?_
    · simp [TcpServer.phase, callOnDisconnect, calm.nested, here, Control.phase, fd_ne]
    · have after : (Control.dropping fd).phase n = .opened := if_neg other
      simp only [Bool.false_eq_true, if_false, TcpServer.phase, callOnDisconnect, after, calm.phase]

theorem Sound.recv {result : RecvResult} (stepped : s.stepRecv p result = some s') :
    Outcome p s.registry s' := by
  obtain ⟨idx, flags, reading, dispatch⟩ := stepRecv_cases stepped
  have place := sound.place
  simp only [Place, reading] at place
  exact Ready.dispatch ⟨sound.calm_of (by rw [reading]; exact id) fun n => by rw [reading]; rfl, place⟩ dispatch

theorem Sound.rawSend {result : SendResult} (stepped : s.stepRawSend result = some s') :
    Outcome p s.registry s' := by
  obtain ⟨idx, writing, dispatch⟩ := stepRawSend_cases stepped
  have place := sound.place
  simp only [Place, writing] at place
  exact Ready.dispatch ⟨sound.calm_of (by rw [writing]; exact id) fun n => by rw [writing]; rfl, place⟩ dispatch

end

/-- After the callback that closed the connection there is nothing left to do. -/
theorem Calm.endFrames (calm : Calm p s) (closed : (s.slots idx).fd = -1) {last : Bool} {consumed : Nat}
    (ends : Ends p (s.slots idx) last consumed) (flags : EpollFlags) :
    Outcome p s.registry (s.afterFrames p idx flags last consumed) := by
  obtain ⟨rfl, -, inside⟩ := ends
  have ended : (s.afterFrames p idx flags true consumed).control = .idle ∧
      (s.afterFrames p idx flags true consumed).log = s.log := by
    simp [afterFrames, inside, setSlot, closed]
  exact calm.quiet (dispatches_afterFrames ..) (.inl ended.1) ended.2 (by rw [Place, ended.1]; trivial)

theorem Sound.advance (sound : Sound p s) (stepped : s.stepAdvance p = some s') : Outcome p s.registry s' := by
  obtain ⟨idx, here, quiet, dispatch⟩ := stepAdvance_cases stepped
  have calm := sound.calm_of quiet (Control.phase_of_slot (.inr here))
  by_cases closed : (s.slots idx).fd = -1
  · have place := sound.place
    cases control : s.control with
    | reading n flags | writing n =>
      cases control ▸ here
      simp only [Place, control, closed] at place
      exact absurd place.symm (fd_ne idx)
    | framing n flags last consumed =>
      cases control ▸ here
      simp only [Place, control, closed] at place
      obtain ⟨-, ends⟩ := place.resolve_left (fd_ne idx).symm
      simp only [stepAdvance, control, ends.2.1] at stepped
      cases stepped
      exact calm.endFrames closed ends flags
    | serving => exact absurd (by rw [control]; trivial) quiet
    | _ => cases control ▸ here
  · exact Ready.dispatch ⟨calm, sound.fd_eq closed⟩ dispatch

/-! ### The calls of the handler and the returns of its callbacks -/

theorem Place.congr (place : s.Place p) (control : s'.control = s.control) (nested : s'.nested = s.nested)
    (slots : ∀ n, (s'.slots n).fd = (s.slots n).fd ∧ (s'.slots n).rx = (s.slots n).rx) : s'.Place p := by
  simp only [Place, Ends, control, nested, slots] at place ⊢
  exact place

theorem Sound.send (sound : Sound p s) {id : Nat} {payload : List UInt8} (stepped : s.stepSend p id payload = some s') :
    Outcome p s.registry s' := by
  obtain ⟨calling, txSize, rfl⟩ := stepSend_cases stepped
  have kept := fun n => (@setSlot_slots s id (fun slot => { slot with txSize }) ⟨rfl, rfl⟩ n).1
  refine ⟨⟨fun n => ?_, sound.distinct, fun n member => ?_, sound.calm, sound.place.congr rfl rfl fun n =>
    ⟨kept n, ?_⟩⟩, ?_⟩
  · rw [kept]
    exact sound.slots n
  · rw [kept]
    exact sound.nested n member
  · by_cases same : n = id
    · subst same
      simp only [setSlot, update_self]
    · simp only [setSlot, update_of_ne same]
  · rw [registry_setSlot ⟨rfl, rfl⟩]
    exact .quiet

theorem opened_of_phase {n : Nat} (opened : s.phase n = .opened) :
    (s.slots n).fd ≠ -1 ∧ n ∉ s.nested ∧ s.control.phase n = .opened := by
  simp only [TcpServer.phase] at opened
  split at opened
  · cases opened
  · rename_i present
    split at opened
    · cases opened
    · rename_i outside
      exact ⟨present, outside, opened⟩

theorem Sound.close (sound : Sound p s) {id : Nat} (allowed : s.Allowed p (.close id))
    (stepped : s.stepClose p id = some s') : Outcome p s.registry s' := by
  obtain ⟨opened, lastFrame⟩ := allowed
  obtain ⟨present, outside, plain⟩ := opened_of_phase opened
  have here := sound.fd_eq present
  obtain ⟨calling, rfl⟩ := stepClose_cases stepped
  rw [if_pos here]
  refine Outcome.disconnect opened ⟨sound.slots, ?_, ?_, fun quiet => absurd calling quiet, ?_⟩ rfl rfl rfl rfl ?_
  · exact nodup_cons.mpr ⟨outside, sound.distinct⟩
  · intro n member
    rcases mem_cons.mp member with rfl | old
    · exact ⟨here, plain⟩
    · exact sound.nested n old
  · have place := sound.place
    simp only [Place, callOnDisconnect] at place ⊢
    cases control : s.control with
    | serving idx flags last consumed size =>
      simp only [control] at place lastFrame ⊢
      by_cases same : idx = id
      · exact .inr (lastFrame same)
      · exact place.imp_left fun ⟨fd, other⟩ => ⟨fd, by simp [same, other]⟩
    | connecting | dropping | closing => simpa only [control] using place
    | _ => exact absurd calling (by rw [control]; exact not_false)
  · refine phase_update ?_ fun n other => ?_
    · simp [TcpServer.phase, callOnDisconnect, here, fd_ne]
    · simp [TcpServer.phase, callOnDisconnect, other]

theorem Sound.free (sound : Sound p s) (n m : Nat) :
    ((s.freed n).slots m).fd = -1 ∨ ((s.freed n).slots m).fd = m ∧ m < p.kMaxConns := by
  rw [(freed_slots n m).1]
  split
  · exact .inl rfl
  · exact sound.slots m

theorem registry_freed {n : Nat} (slots : s'.slots = (s.freed n).slots) (conns : s'.conns = s.conns)
    (owner : s'.owner = s.owner)
    (phases : ∀ m, m ≠ n → s'.phase m = s.phase m) : s'.registry = { s.registry.release n with log := s'.log } := by
  have here : s'.phase n = .absent := if_pos (by rw [slots, (freed_slots n n).1, if_pos rfl])
  have generations : (fun m => (s'.slots m).generation) =
      update (fun m => (s.slots m).generation) n (((s.slots n).generation + 1) % 2 ^ 32) := by
    funext m
    rw [slots]
    by_cases same : m = n
    · subst same
      simp only [freed, setSlot, update_self]
    · simp only [freed, setSlot, update_of_ne same]
  simp only [registry, generations, conns, owner, phase_update here phases, Registry.release]

section

variable (sound : Sound p s)
include sound

theorem Sound.place_freed {id : Nat} {rest : List Nat} (nested : s.nested = id :: rest) :
    ({ s.freed id with nested := rest } : TcpServer).Place p := by
  have member : id ∈ s.nested := nested ▸ mem_cons_self
  have plain := (sound.nested id member).2
  have place := sound.place
  have fd : ∀ {m}, m ≠ id → ((s.freed id).slots m).fd = (s.slots m).fd :=
    fun other => (freed_slots id _).1.trans (if_neg other)
  cases control : s.control with
  | connecting n | dropping n =>
    have other : n ≠ id := by
      rintro rfl
      simp [control, Control.phase] at plain
    simp only [Place, control] at place
    simp only [Place, freed, setSlot, control]
    exact (fd other).trans place
  | closing closed =>
    simp only [Place, control] at place
    obtain ⟨n, rfl, here⟩ := place
    have other : n ≠ id := by
      rintro rfl
      simp [control, Control.phase] at plain
    simp only [Place, freed, setSlot, control]
    exact ⟨n, rfl, (fd other).trans here⟩
  | serving idx flags last consumed size =>
    simp only [Place, control] at place
    simp only [Place, freed, setSlot, control]
    rcases place with ⟨here, outside⟩ | ends
    · rw [nested, mem_cons, not_or] at outside
      exact .inl ⟨(fd outside.1).trans here, outside.2⟩
    · refine .inr ?_
      have rx := (freed_slots (s := s) id idx).2
      simp only [freed, setSlot] at rx
      simpa only [Ends, rx] using ends
  | _ =>
    have none := sound.calm (by rw [control]; exact not_false)
    rw [nested] at none
    cases none

theorem Sound.innerReturn {id : Nat} {rest : List Nat} (nested : s.nested = id :: rest) :
    Outcome p s.registry { s.freed id with nested := rest } := by
  have member : id ∈ s.nested := nested ▸ mem_cons_self
  have here := (sound.nested id member).1
  have distinct := sound.distinct
  rw [nested] at distinct
  obtain ⟨unique, distinct⟩ := nodup_cons.mp distinct
  have leaving : s.phase id = .leaving := by rw [phase_of_fd here, if_pos member]
  have phases : ∀ m, m ≠ id → ({ s.freed id with nested := rest } : TcpServer).phase m = s.phase m := by
    intro m other
    simp only [TcpServer.phase, (freed_slots id m).1, nested, mem_cons, other, false_or]
    rfl
  refine ⟨⟨sound.free id, distinct, fun m inner => ?_, fun quiet => ?_, sound.place_freed nested⟩, ?_⟩
  · have other : m ≠ id := fun same => unique (same ▸ inner)
    rw [(freed_slots id m).1, if_neg other]
    exact sound.nested m (by rw [nested]; exact mem_cons_of_mem _ inner)
  · have none := sound.calm quiet
    rw [nested] at none
    cases none
  · have after : ({ s.freed id with nested := rest } : TcpServer).registry = s.registry.release id :=
      registry_freed rfl rfl rfl phases
    exact after ▸ .release leaving

theorem Sound.outerReturn (nested : s.nested = []) {n : Nat} (c : Control) (log : List Callback)
    (others : ∀ m, m ≠ n → s.control.phase m = .opened) (plain : ∀ m, c.phase m = .opened)
    (place : ({ s.freed n with log, control := c } : TcpServer).Place p) :
    Sound p { s.freed n with log, control := c } ∧
      ({ s.freed n with log, control := c } : TcpServer).registry = { s.registry.release n with log } := by
  have phases : ∀ m, m ≠ n → ({ s.freed n with log, control := c } : TcpServer).phase m = s.phase m := by
    intro m other
    simp only [TcpServer.phase, (freed_slots n m).1, if_neg other, plain, others m other]
    rfl
  refine ⟨⟨sound.free n, sound.distinct, fun m inner => ?_, fun _ => nested, place⟩, registry_freed rfl rfl rfl phases⟩
  exact absurd (nested ▸ inner : m ∈ []) not_mem_nil

theorem Sound.returnOnDisconnect (stepped : s.returnOnDisconnect = some s') : Outcome p s.registry s' := by
  rcases returnOnDisconnect_cases stepped with ⟨id, rest, nested, rfl⟩ | ⟨nested, n, c, rfl, waiting⟩
  · exact sound.innerReturn nested
  · have place := sound.place
    obtain ⟨here, leaving, others, plain, free⟩ : (s.slots n).fd = n ∧ s.control.phase n = .leaving ∧
        (∀ m, m ≠ n → s.control.phase m = .opened) ∧ (∀ m, c.phase m = .opened) ∧
        ({ s.freed n with control := c } : TcpServer).Place p := by
      rcases waiting with ⟨dropping, rfl⟩ | ⟨closing, rfl⟩
      · simp only [Place, dropping] at place ⊢
        exact ⟨place, if_pos rfl, fun m other => if_neg other, fun _ => rfl, trivial⟩
      · simp only [Place, closing] at place ⊢
        obtain ⟨k, same, here⟩ := place
        cases Int.ofNat.inj same
        exact ⟨here, if_pos rfl, fun m other => if_neg (by omega), fun _ => rfl, trivial⟩
    obtain ⟨kept, after⟩ := sound.outerReturn nested c s.log others plain free
    refine ⟨kept, after ▸ .release ?_⟩
    show s.phase n = .leaving
    rw [phase_of_fd here, nested, if_neg not_mem_nil, leaving]

theorem Sound.returnOnConnect {accepted : Bool} (stepped : s.returnOnConnect accepted = some s') :
    Outcome p s.registry s' := by
  obtain ⟨fd, connecting, nested, rfl⟩ := returnOnConnect_cases stepped
  have here := sound.place
  simp only [Place, connecting] at here
  have arriving : s.phase fd = .arriving := by
    rw [phase_of_fd here, nested, if_neg not_mem_nil, connecting]
    exact if_pos rfl
  have others : ∀ m, m ≠ fd → s.control.phase m = .opened := fun m other => by
    rw [connecting]
    exact if_neg other
  cases accepted with
  | true =>
    have phases : ({ s with log := s.log ++ [.onConnect fd true], control := .registering fd } : TcpServer).phase =
        update s.phase fd .opened := by
      refine phase_update ?_ fun n other => ?_
      · simp [TcpServer.phase, nested, here, Control.phase, fd_ne]
      · have plain : (Control.registering fd).phase n = .opened := rfl
        simp only [TcpServer.phase, plain, others n other]
    have after : ({ s with log := s.log ++ [.onConnect fd true], control := .registering fd } : TcpServer).registry =
        s.registry.accept fd := by
      simp only [registry, phases, Registry.accept]
    refine ⟨⟨sound.slots, sound.distinct, ?_, fun _ => nested, here⟩, after ▸ .accept arriving⟩
    show ∀ n ∈ s.nested, _
    rw [nested]
    exact nofun
  | false =>
    obtain ⟨kept, after⟩ :=
      sound.outerReturn nested .accepting (s.log ++ [.onConnect fd false]) others (fun _ => rfl) trivial
    exact ⟨kept, after ▸ .reject arriving⟩

end

theorem Sound.returnOnData (sound : Sound p s) {reply : List UInt8} (allowed : s.Allowed p (.onData reply))
    (stepped : s.returnOnData p reply = some s') : Outcome p s.registry s' := by
  obtain ⟨idx, flags, last, consumed, size, serving, nested, dispatch, next⟩ := returnOnData_cases stepped
  have place := sound.place
  simp only [Place, serving] at place
  simp only [Allowed, serving] at allowed
  have calm : Calm p s := ⟨sound.slots, nested, fun n => by rw [serving]; rfl⟩
  by_cases closed : (s.slots idx).fd = -1
  · obtain ⟨framing, log, rx⟩ := next.resolve_left (allowed closed)
    have ends := place.resolve_left fun ⟨here, _⟩ => fd_ne idx (here.symm.trans closed)
    refine calm.quiet dispatch (.inr (by rw [framing]; rfl)) log ?_
    rw [Place, framing]
    exact .inr ⟨dispatch.slot.1.trans closed, by simpa only [Ends, rx] using ends⟩
  · exact Ready.dispatch ⟨calm, sound.fd_eq closed⟩ dispatch

theorem Sound.step (sound : Sound p s) {move : Move} (allowed : s.Allowed p move) (stepped : s.step p move = some s') :
    Outcome p s.registry s' := by
  cases move with
  | event u64 flags => exact sound.event stepped
  | accept result => exact sound.accept stepped
  | epollAdd ok => exact sound.epollAdd stepped
  | recv result => exact sound.recv stepped
  | rawSend result => exact sound.rawSend stepped
  | advance => exact sound.advance stepped
  | send id payload => exact sound.send stepped
  | close id => exact sound.close allowed stepped
  | onConnect accepted => exact sound.returnOnConnect stepped
  | onData reply => exact sound.returnOnData allowed stepped
  | onDisconnect => exact sound.returnOnDisconnect stepped

/-! ### Runs -/

structure Inv (p : TcpServerParams) (s : TcpServer) : Prop where
  sound : Sound p s
  registry : s.registry.Inv
  conns : ∀ c ∈ s.conns, c.fd < p.kMaxConns

theorem inv_start (p : TcpServerParams) : Inv p {} := by
  refine ⟨⟨fun _ => .inl rfl, nodup_nil, nofun, fun _ => rfl, trivial⟩,
    ⟨fun n => ?_, nofun, nofun, nofun, fun _ _ => rfl⟩, nofun⟩
  exact .nothing

theorem Inv.step (inv : Inv p s) {move : Move} (allowed : s.Allowed p move) (stepped : s.step p move = some s') :
    Inv p s' := by
  obtain ⟨sound, next⟩ := inv.sound.step allowed stepped
  refine ⟨sound, inv.registry.step next, ?_⟩
  generalize after : s'.registry = r' at next
  have conns : s'.conns = r'.conns := by rw [← after]; rfl
  rw [conns]
  cases next with
  | @arrive n absent =>
    intro c member
    rcases mem_append.mp member with old | new
    · exact inv.conns c old
    · cases mem_singleton.mp new
      have arriving : s'.phase n = .arriving := by
        show s'.registry.phase n = .arriving
        rw [after]
        exact update_self ..
      have present : (s'.slots n).fd ≠ -1 := phase_absent_iff.not.mp (by simp [arriving])
      exact ((sound.slots n).resolve_left present).2
  | _ => exact inv.conns

theorem Inv.run {moves : List Move} (inv : Inv p s) (along : Transition.Along (TcpServer.step p) (Allowed p) moves s)
    (ran : TcpServer.run p moves s = some s') : Inv p s' :=
  Transition.run_invariant (fun inv allowed stepped => inv.step allowed stepped) inv along ran

/-- The calls that a handler may make: on connections whose `on_connect` has returned true and whose `on_disconnect`
has not been called. -/
def OnOpen (s : TcpServer) : Move → Prop
  | .send id _ | .close id => s.phase id = .opened
  | _ => True

instance (s : TcpServer) : ∀ move, Decidable (s.OnOpen move)
  | .send id _ | .close id => inferInstanceAs (Decidable (s.phase id = .opened))
  | .event _ _ | .accept _ | .epollAdd _ | .recv _ | .rawSend _ | .advance | .onConnect _ | .onData _ | .onDisconnect =>
    isTrue trivial

instance (s : TcpServer) : ∀ move, Decidable (s.Allowed p move)
  | .close id => by
    unfold Allowed
    cases s.control <;> infer_instance
  | .onData reply => by
    unfold Allowed
    cases s.control <;> infer_instance
  | .event _ _ | .accept _ | .epollAdd _ | .recv _ | .rawSend _ | .send _ _ | .advance | .onConnect _ | .onDisconnect =>
    isTrue trivial

/-- A connection on fd 3 whose first `on_data` closes it; `bytes` have been received. -/
def closingMoves (bytes : List UInt8) : List Move :=
  [.event kListenerSentinel {}, .accept (.accepted 3), .onConnect true, .epollAdd true, .accept .failed,
    .event (encodeU64 ⟨3, 0⟩) { epollin := true }, .recv (.kOk bytes), .recv .kWouldBlock, .advance, .close 3,
      .onDisconnect,
    .onData [], .advance]

/-- Another connection takes the fd. -/
def arrivingMoves : List Move :=
  [.event kListenerSentinel {}, .accept (.accepted 3), .onConnect true, .epollAdd true, .accept .failed]

def smallParams : TcpServerParams := ⟨8, 16, 16, lengthPrefixFramer, by decide, by decide, by decide⟩

/-- The callbacks of every id are those of one connection after the other, and an event that was registered for a
connection is not taken for one of a later connection with its fd. -/
theorem run_callbacks {moves : List Move} (along : Transition.Along (step p) (Allowed p) moves {})
    (ran : run p moves {} = some s) :
    (∀ n : Nat, Lives n (s.phase n).isOpen (Registry.calls s.log n)) ∧ (∀ call ∈ s.log, ∃ n : Nat, call.id = n) ∧
    ∀ (k : Nat) (c : Conn), s.conns[k]? = some c → Reuse.reuses (s.conns.map Conn.fd) k c.fd < 2 ^ 32 →
      s.Handles p (encodeU64 c) → s.owner c.fd = k := by
  have inv : Inv p s := (inv_start p).run along ran
  refine ⟨inv.registry.lives, inv.registry.ids, fun k c found few handled => ?_⟩
  have small : c.fd < 2 ^ 32 := by
    have bound := inv.conns c (mem_of_getElem? found)
    have int := p.conns.2
    omega
  have slot : encodeU64 c % 2 ^ 32 = c.fd ∧ encodeU64 c / 2 ^ 32 = c.generation := by
    unfold encodeU64
    omega
  obtain ⟨-, present, current⟩ := handled
  rw [slot.1] at present current
  rw [slot.2] at current
  exact inv.registry.owner_eq found few (phase_absent_iff.not.mpr present) current

theorem run_callbacks_reuse :
    ∃ s, run smallParams (closingMoves [0, 0, 0, 4] ++ arrivingMoves) {} = some s ∧
      s.log = [.onConnect 3 true, .onData 3 [], .onDisconnect 3, .onConnect 3 true] ∧
      Lives 3 (s.phase 3).isOpen (Registry.calls s.log 3) := by
  obtain ⟨s, ran, log⟩ : ∃ s, run smallParams (closingMoves [0, 0, 0, 4] ++ arrivingMoves) {} = some s ∧
      s.log = [.onConnect 3 true, .onData 3 [], .onDisconnect 3, .onConnect 3 true] := by decide +kernel
  have along : Transition.Along (step smallParams) (Allowed smallParams)
      (closingMoves [0, 0, 0, 4] ++ arrivingMoves) {} := by decide +kernel
  exact ⟨s, ran, log, (run_callbacks along ran).1 3⟩

/-- A second frame is handed over after the connection was closed, with the id -1. -/
theorem run_calls_closed :
    ∃ s, Transition.Along (step smallParams) OnOpen (closingMoves [0, 0, 0, 4, 0, 0, 0, 4]) {} ∧
      run smallParams (closingMoves [0, 0, 0, 4, 0, 0, 0, 4]) {} = some s ∧
      s.log = [.onConnect 3 true, .onData 3 [], .onDisconnect 3, .onData (-1) []] ∧
      ¬ ∃ opened, Lives (-1) opened (Registry.calls s.log (-1)) := by
  obtain ⟨s, ran, log, calls⟩ : ∃ s, run smallParams (closingMoves [0, 0, 0, 4, 0, 0, 0, 4]) {} = some s ∧
      s.log = [.onConnect 3 true, .onData 3 [], .onDisconnect 3, .onData (-1) []] ∧
      Registry.calls s.log (-1) = [.onData (-1) []] := by decide +kernel
  refine ⟨s, by decide +kernel, ran, log, ?_⟩
  rintro ⟨opened, lives⟩
  rw [calls] at lives
  obtain ⟨accepted, same⟩ := lives.first.1 _ rfl
  cases same

end TcpServer

end TickToTrade.Net
