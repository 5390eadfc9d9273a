import TickToTrade.Net.TcpProtocol

/-!
The interest sets of `TcpServer`. `dispatch_event` turns `EPOLLOUT` on and off for the connection of its
event only, while a callback can queue bytes on every connection.
-/

namespace TickToTrade.Net
open List Function

namespace TcpServer

variable {p : TcpServerParams} {s s' : TcpServer} {idx n : Nat} {epollout : Int → Bool}

def Control.isWriting : Control → Bool
  | .writing _ => true
  | _ => false

/-- `close_connection` removes the fd. At the end, `dispatch_event` calls `enable_epollout` if something is pending, and
else `disable_epollout` if it has flushed. -/
def epollDispatch (s s' : TcpServer) (idx : Nat) (epollout : Int → Bool) : Int → Bool :=
  match s'.control with
  | .closing fd => update epollout fd false
  | .idle =>
    let slot := s'.slots idx
    if slot.fd ≠ -1 ∧ 0 < slot.txPending then update epollout slot.fd true
    else if s.control.isWriting then update epollout slot.fd false
    else epollout
  | _ => epollout

/-- The calls of `epoll_ctl` in a step from `s` to `s'`; `epollout` tells the fds registered with `EPOLLOUT`. -/
def epollAfter (p : TcpServerParams) (s : TcpServer) (move : Move) (s' : TcpServer) (epollout : Int → Bool) :
    Int → Bool :=
  match move with
  | .event u64 _ => if s.Handles p u64 then epollDispatch s s' (u64 % 2 ^ 32) epollout else epollout
  | .recv _ | .rawSend _ | .advance | .onData _ =>
    s.control.slot.elim epollout fun idx => epollDispatch s s' idx epollout
  | .epollAdd true =>
    match s.control with
    | .registering fd => update epollout fd false
    | _ => epollout
  | .close id => if (s.slots id).fd = id then update epollout id false else epollout
  | _ => epollout

structure Polled where
  server : TcpServer := {}
  epollout : Int → Bool := fun _ => false

namespace Polled

def step (p : TcpServerParams) (x : Polled) (move : Move) : Exec Polled := do
  let server ← x.server.step p move
  return { server, epollout := epollAfter p x.server move server x.epollout }

def run (p : TcpServerParams) : List Move → Polled → Exec Polled := Transition.run (step p)

/-- Between two events, an open connection with pending output is registered with `EPOLLOUT`. -/
def NothingStranded (x : Polled) : Prop :=
  x.server.control = .idle → ∀ n : Nat, (x.server.slots n).fd ≠ -1 → 0 < (x.server.slots n).txPending →
    x.epollout n = true

end Polled

/-- The event loop comes back to the connection before the next event, or the kernel tells when it can write. -/
def Control.Attends (c : Control) (n : Nat) (armed : Bool) : Prop :=
  match c with
  | .connecting fd | .registering fd => fd ≠ n ∧ armed
  | .dropping fd => fd = n ∨ armed
  | .closing fd => fd = n ∨ armed
  | c => c.slot = some n ∨ armed

instance (n : Nat) (armed : Bool) : ∀ c : Control, Decidable (c.Attends n armed)
  | .connecting fd | .registering fd => inferInstanceAs (Decidable (fd ≠ n ∧ armed))
  | .dropping fd => inferInstanceAs (Decidable (fd = n ∨ armed))
  | .closing fd => inferInstanceAs (Decidable (fd = n ∨ armed))
  | .idle | .accepting | .reading _ _ | .framing _ _ _ _ | .serving _ _ _ _ _ | .writing _ =>
    inferInstanceAs (Decidable (_ = some n ∨ armed))

theorem Control.attends_self {c : Control} {armed : Bool} (here : c.slot = some n) : c.Attends n armed := by
  cases c <;> first | exact .inl here | cases here

theorem Control.attends_other {c : Control} {armed : Bool} (here : c = .idle ∨ c.slot = some idx) (other : n ≠ idx) :
    c.Attends n armed ↔ armed = true := by
  cases c <;> simp_all [Attends, Control.slot, other.symm]

namespace Polled

/-- A connection that a callback has closed is not written to again. -/
def Attended (x : Polled) (n : Nat) : Prop :=
  n ∈ x.server.nested ∨ x.server.control.Attends n (x.epollout n)
  deriving Decidable

/-- `send` is called on attended connections, and registering a connection succeeds. -/
def SendsAttended (x : Polled) : Move → Prop
  | .send id _ => x.Attended id
  | .epollAdd ok => ok = true
  | _ => True

instance (x : Polled) : ∀ move, Decidable (x.SendsAttended move)
  | .send id _ => inferInstanceAs (Decidable (x.Attended id))
  | .epollAdd ok => inferInstanceAs (Decidable (ok = true))
  | .event _ _ | .accept _ | .recv _ | .rawSend _ | .advance | .close _ | .onConnect _ | .onData _ | .onDisconnect =>
    isTrue trivial

structure Inv (x : Polled) : Prop where
  slots : ∀ n, (x.server.slots n).fd = -1 ∨ (x.server.slots n).fd = n
  calm : ¬ x.server.control.Calling → x.server.nested = []
  attended : ∀ n : Nat, (x.server.slots n).fd ≠ -1 → 0 < (x.server.slots n).txPending → x.Attended n

section

variable (inv : Inv ⟨s, epollout⟩)
include inv

/-- What `dispatch_event` leaves pending on its slot is registered at its end. -/
theorem Inv.dispatch (calm : s.nested = []) (dispatch : Dispatches s idx s')
    (before : s.control = .idle ∨ s.control.slot = some idx) : Inv ⟨s', epollDispatch s s' idx epollout⟩ := by
  have fds := fun n => (dispatch.fds n).1
  have next : s'.control = .closing (s.slots idx).fd ∨ s'.control = .idle ∨ s'.control.slot = some idx :=
    dispatch.next.imp And.left And.left
  refine ⟨fun n => fds n ▸ inv.slots n, fun _ => dispatch.rest.1.trans calm, fun n present pending => .inr ?_⟩
  dsimp only at present pending ⊢
  by_cases same : n = idx
  · subst same
    have here := (inv.slots n).resolve_left (fds n ▸ present)
    rcases next with closing | idle | working
    · rw [closing]
      exact .inl here
    · simp only [epollDispatch, idle]
      rw [if_pos ⟨present, pending⟩, fds, here, update_self]
      exact .inr rfl
    · exact Control.attends_self working
  · have key : (n : Int) ≠ (s.slots idx).fd := by
      have slot : (s.slots idx).fd = -1 ∨ (s.slots idx).fd = idx := inv.slots idx
      omega
    have kept : epollDispatch s s' idx epollout n = epollout n := by
      rcases next with closing | idle | working
      · simp only [epollDispatch, closing, update_of_ne key]
      · simp only [epollDispatch, idle, fds]
        split
        · exact update_of_ne key _ _
        split
        · exact update_of_ne key _ _
        · rfl
      · unfold epollDispatch
        cases control : s'.control <;> rw [control] at working <;> first | rfl | cases working
    rw [dispatch.others n same] at present pending
    have armed : epollout n = true := (Control.attends_other before same).mp
      ((inv.attended n present pending).resolve_left (calm ▸ not_mem_nil))
    rw [kept]
    rcases next with closing | next
    · rw [closing]
      exact .inr armed
    · exact (Control.attends_other next same).mpr armed

/-- Slots may be released, and the event loop goes on to another place. -/
theorem Inv.move {epollout' : Int → Bool} (slots : ∀ n : Nat, (s'.slots n).fd = -1 ∨ s'.slots n = s.slots n)
    (calm : ¬ s'.control.Calling → s'.nested = [])
    (attended : ∀ n, (s'.slots n).fd ≠ -1 → Attended ⟨s, epollout⟩ n → Attended ⟨s', epollout'⟩ n) :
    Inv ⟨s', epollout'⟩ := by
  refine ⟨fun n => ?_, calm, fun n present pending => attended n present ?_⟩
  · rcases slots n with gone | same
    · exact .inl gone
    · exact same ▸ inv.slots n
  · have same := (slots n).resolve_left present
    exact inv.attended n (same ▸ present) (same ▸ pending)

theorem Inv.event {u64 : Nat} {flags : EpollFlags} (stepped : s.stepEvent p u64 flags = some s') :
    Inv ⟨s', epollAfter p s (.event u64 flags) s' epollout⟩ := by
  obtain ⟨idle, event⟩ := stepEvent_cases stepped
  have calm : s.nested = [] := inv.calm (by rw [idle]; exact id)
  rcases event with ⟨handled, dispatch⟩ | ⟨other, same⟩
  · simp only [epollAfter, if_pos handled]
    exact inv.dispatch calm dispatch (.inl idle)
  · simp only [epollAfter, if_neg other]
    rcases same with rfl | rfl
    · exact inv
    · refine inv.move (fun _ => .inr rfl) (fun _ => calm) fun n _ attended => ?_
      simp only [Attended, idle] at attended
      exact attended

theorem Inv.accept {result : AcceptResult} (stepped : s.stepAccept p result = some s') : Inv ⟨s', epollout⟩ := by
  obtain ⟨accepting, next⟩ := stepAccept_cases stepped
  have calm : s.nested = [] := inv.calm (by rw [accepting]; exact id)
  rcases next with rfl | rfl | ⟨fd, small, free, rfl⟩
  · exact inv
  · refine inv.move (fun _ => .inr rfl) (fun _ => calm) fun n _ attended => ?_
    simp only [Attended, accepting] at attended
    exact attended
  · have slots : ∀ n, n ≠ fd → (s.allocSlot fd).slots n = s.slots n := fun n other => update_of_ne other ..
    refine ⟨fun n => ?_, fun _ => calm, fun n present pending => ?_⟩
    all_goals
      dsimp only at *
      by_cases here : n = fd
    · exact .inr (by rw [(allocSlot_slots fd n).1, if_pos here, here])
    · exact slots n here ▸ inv.slots n
    · subst here
      simp [allocSlot, setSlot, ConnSlot.txPending] at pending
    · rw [slots n here] at present pending
      have attended := inv.attended n present pending
      simp only [Attended, accepting, Control.Attends, Control.slot, reduceCtorEq, false_or] at attended
      exact attended.imp_right fun armed => ⟨Ne.symm here, armed⟩

theorem Inv.epollAdd (stepped : s.stepEpollAdd true = some s') :
    Inv ⟨s', epollAfter p s (.epollAdd true) s' epollout⟩ := by
  obtain ⟨fd, registering, rfl⟩ := stepEpollAdd_cases stepped
  simp only [epollAfter, registering, if_true]
  refine inv.move (fun _ => .inr rfl) (fun _ => inv.calm (by rw [registering]; exact id)) fun n _ attended => ?_
  simp only [Attended, registering, Control.Attends] at attended
  exact attended.imp_right fun armed => .inr ((update_of_ne (by omega) _ _).trans armed.2)

theorem Inv.dispatched {move : Move} (after : epollAfter p s move s' epollout =
      s.control.slot.elim epollout fun idx => epollDispatch s s' idx epollout)
    (here : s.control.slot = some idx) (calm : s.nested = [] ∨ ¬ s.control.Calling) (dispatch : Dispatches s idx s') :
    Inv ⟨s', epollAfter p s move s' epollout⟩ := by
  rw [after, here, Option.elim_some]
  exact inv.dispatch (calm.elim id inv.calm) dispatch (.inr here)

theorem Inv.send {id : Nat} {payload : List UInt8} (sends : Attended ⟨s, epollout⟩ id)
    (stepped : s.stepSend p id payload = some s') : Inv ⟨s', epollout⟩ := by
  obtain ⟨calling, txSize, rfl⟩ := stepSend_cases stepped
  have kept := fun n => (@setSlot_slots s id (fun slot => { slot with txSize }) ⟨rfl, rfl⟩ n).1
  refine ⟨fun n => ?_, fun quiet => absurd calling quiet, fun n present pending => ?_⟩
  · rw [kept]
    exact inv.slots n
  · by_cases same : n = id
    · exact same ▸ sends
    · simp only [setSlot, update_of_ne same] at present pending
      exact inv.attended n present pending

theorem Inv.close {id : Nat} (stepped : s.stepClose p id = some s') :
    Inv ⟨s', epollAfter p s (.close id) s' epollout⟩ := by
  obtain ⟨calling, rfl⟩ := stepClose_cases stepped
  by_cases here : (s.slots id).fd = id
  · simp only [epollAfter, if_pos here]
    refine inv.move (fun _ => .inr rfl) (fun quiet => absurd calling quiet) fun n _ attended => ?_
    by_cases same : n = id
    · exact .inl (same ▸ mem_cons_self)
    · have kept : update epollout (id : Int) false n = epollout n := update_of_ne (by omega) _ _
      simp only [Attended, kept]
      exact attended.imp_left (mem_cons_of_mem _)
  · simp only [epollAfter, if_neg here]
    exact inv

theorem Inv.release {k : Nat} {c : Control} {nested : List Nat} {log : List Callback} (calm : ¬ c.Calling → nested = [])
    (attended : ∀ n, n ≠ k → Attended ⟨s, epollout⟩ n → n ∈ nested ∨ c.Attends n (epollout n)) :
    Inv ⟨{ s.freed k with control := c, nested, log }, epollout⟩ := by
  have freed := fun n => (@freed_slots s k n).1
  refine inv.move (fun n => ?_) calm fun n present => attended n ?_
  · by_cases same : n = k
    · exact .inl ((freed n).trans (if_pos same))
    · exact .inr (update_of_ne same ..)
  · exact fun same => present ((freed n).trans (if_pos same))

theorem Inv.returnOnConnect {accepted : Bool} (stepped : s.returnOnConnect accepted = some s') :
    Inv ⟨s', epollout⟩ := by
  obtain ⟨fd, connecting, nested, rfl⟩ := returnOnConnect_cases stepped
  cases accepted with
  | true =>
    refine inv.move (fun _ => .inr rfl) (fun _ => nested) fun n _ attended => ?_
    simp only [Attended, connecting] at attended
    exact attended
  | false =>
    refine inv.release (fun _ => nested) fun n _ attended => ?_
    simp only [Attended, connecting] at attended
    exact attended.imp_right fun joining => .inr joining.2

theorem Inv.returnOnDisconnect (stepped : s.returnOnDisconnect = some s') : Inv ⟨s', epollout⟩ := by
  rcases returnOnDisconnect_cases stepped with ⟨id, rest, nested, rfl⟩ | ⟨nested, k, c, rfl, waiting⟩
  · refine inv.release (fun quiet => ?_) fun n other attended => ?_
    · cases nested.symm.trans (inv.calm quiet)
    · simp only [Attended] at attended
      rwa [nested, mem_cons, or_iff_right other] at attended
  · refine inv.release (fun _ => nested) fun n other attended => attended.imp_right fun attends => ?_
    rcases waiting with ⟨here, rfl⟩ | ⟨here, rfl⟩
    all_goals
      simp only [here, Control.Attends] at attends
      exact .inr (attends.resolve_left (by omega))

end

theorem Inv.step {x x' : Polled} (inv : x.Inv) {move : Move} (sends : x.SendsAttended move)
    (stepped : x.step p move = some x') : x'.Inv := by
  obtain ⟨s', server, done⟩ := Option.bind_eq_some_iff.mp stepped
  cases done
  cases move with
  | event u64 flags => exact inv.event server
  | accept result => exact inv.accept server
  | epollAdd ok =>
    cases sends
    exact inv.epollAdd server
  | recv result =>
    obtain ⟨idx, flags, reading, dispatch⟩ := stepRecv_cases server
    exact inv.dispatched rfl (by rw [reading]; rfl) (.inr (by rw [reading]; exact id)) dispatch
  | rawSend result =>
    obtain ⟨idx, writing, dispatch⟩ := stepRawSend_cases server
    exact inv.dispatched rfl (by rw [writing]; rfl) (.inr (by rw [writing]; exact id)) dispatch
  | advance =>
    obtain ⟨idx, here, quiet, dispatch⟩ := stepAdvance_cases server
    exact inv.dispatched rfl here (.inr quiet) dispatch
  | onData reply =>
    obtain ⟨idx, flags, last, consumed, size, serving, nested, dispatch, -⟩ := returnOnData_cases server
    exact inv.dispatched rfl (by rw [serving]; rfl) (.inl nested) dispatch
  | send id payload => exact inv.send sends server
  | close id => exact inv.close server
  | onConnect accepted => exact inv.returnOnConnect server
  | onDisconnect => exact inv.returnOnDisconnect server

/-- No output is stranded in a run whose callbacks call `send` on attended connections only. -/
theorem run_nothingStranded {moves : List Move} {x : Polled} (along : Transition.Along (step p) SendsAttended moves {})
    (ran : run p moves {} = some x) : x.NothingStranded := by
  have start : Inv {} := ⟨fun _ => .inl rfl, fun _ => rfl, fun _ present => absurd rfl present⟩
  have inv : x.Inv := Transition.run_invariant (fun inv sends stepped => inv.step sends stepped) start along ran
  intro idle n present pending
  have attended := inv.attended n present pending
  rw [Attended, inv.calm (by rw [idle]; exact id), idle] at attended
  simpa [Control.Attends, Control.slot] using attended

/-- Two connections, and the `on_data` of the first calls `send` on connection `id`. -/
def sendingMoves (id : Nat) : List Move :=
  [.event kListenerSentinel {}, .accept (.accepted 3), .onConnect true, .epollAdd true, .accept (.accepted 4),
    .onConnect true, .epollAdd true, .accept .failed, .event (encodeU64 ⟨3, 0⟩) { epollin := true },
    .recv (.kOk [0, 0, 0, 4]), .recv .kWouldBlock, .advance, .send id [7], .onData [], .advance]

theorem run_nothingStranded_own : ∃ x, run smallParams (sendingMoves 3) {} = some x ∧
    x.server.control = .idle ∧ (x.server.slots 3).txPending = 5 ∧ x.NothingStranded := by
  obtain ⟨x, ran, idle, pending⟩ : ∃ x, run smallParams (sendingMoves 3) {} = some x ∧
      x.server.control = .idle ∧ (x.server.slots 3).txPending = 5 := by decide +kernel
  exact ⟨x, ran, idle, pending, run_nothingStranded (by decide +kernel) ran⟩

/-- The bytes sent to the other connection stay in its buffer: nothing registers it with `EPOLLOUT`. -/
theorem run_stranded : ∃ x, run smallParams (sendingMoves 4) {} = some x ∧
    (∀ ok, .epollAdd ok ∈ sendingMoves 4 → ok = true) ∧ ¬ x.NothingStranded := by
  obtain ⟨x, ran, idle, present, pending, off⟩ : ∃ x, run smallParams (sendingMoves 4) {} = some x ∧
      x.server.control = .idle ∧ (x.server.slots 4).fd ≠ -1 ∧ 0 < (x.server.slots 4).txPending ∧
      x.epollout 4 = false := by decide +kernel
  refine ⟨x, ran, by simp [sendingMoves], fun nothing => ?_⟩
  exact Bool.false_ne_true (off.symm.trans (nothing idle 4 present pending))

end Polled

end TcpServer

end TickToTrade.Net
