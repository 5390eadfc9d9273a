import TickToTrade.Net.TcpServer

/-!
What a step of `TcpServer` can do. `dispatch_event` works on one slot: it ends, goes on with the slot or
closes its connection. The other steps are those of `handle_accept` and of the callbacks.
-/

namespace TickToTrade.Net
open Function

namespace TcpServer

variable {p : TcpServerParams} {s s' : TcpServer} {idx : Nat} {f : ConnSlot → ConnSlot}

theorem setSlot_slots
    (keeps : (f (s.slots idx)).fd = (s.slots idx).fd ∧ (f (s.slots idx)).generation = (s.slots idx).generation)
    (n : Nat) : ((s.setSlot idx f).slots n).fd = (s.slots n).fd ∧
      ((s.setSlot idx f).slots n).generation = (s.slots n).generation := by
  by_cases same : n = idx
  · subst same
    simpa only [setSlot, update_self] using keeps
  · simp only [setSlot, update_of_ne same, and_self]

theorem allocSlot_slots (fd n : Nat) :
    ((s.allocSlot fd).slots n).fd = (if n = fd then (fd : Int) else (s.slots n).fd) ∧
      ((s.allocSlot fd).slots n).generation = (s.slots n).generation := by
  by_cases same : n = fd
  · subst same
    simp [allocSlot, setSlot]
  · simp [allocSlot, setSlot, same]

def freed (s : TcpServer) (n : Nat) : TcpServer :=
  s.setSlot n fun slot => { slot with fd := -1, generation := (slot.generation + 1) % 2 ^ 32 }

theorem freed_slots (n m : Nat) :
    ((s.freed n).slots m).fd = (if m = n then -1 else (s.slots m).fd) ∧ ((s.freed n).slots m).rx = (s.slots m).rx := by
  by_cases same : m = n
  · subst same
    simp [freed, setSlot]
  · simp [freed, setSlot, same]

/-! ### `dispatch_event` -/

/-- The slot that `dispatch_event` works on. -/
def Control.slot : Control → Option Nat
  | .reading idx _ | .framing idx _ _ _ | .serving idx _ _ _ _ | .writing idx => some idx
  | _ => none

/-- A step of the event loop on slot `idx`. -/
structure Dispatches (s : TcpServer) (idx : Nat) (s' : TcpServer) : Prop where
  others : ∀ n, n ≠ idx → s'.slots n = s.slots n
  slot : (s'.slots idx).fd = (s.slots idx).fd ∧ (s'.slots idx).generation = (s.slots idx).generation
  rest : s'.nested = s.nested ∧ s'.conns = s.conns ∧ s'.owner = s.owner
  next : s'.control = .closing (s.slots idx).fd ∧ s'.log = s.log ++ [.onDisconnect (s.slots idx).fd] ∨
    (s'.control = .idle ∨ s'.control.slot = some idx) ∧
      (s'.log = s.log ∨ ∃ payload, s'.log = s.log ++ [.onData (s.slots idx).fd payload])

theorem Dispatches.fds (dispatch : Dispatches s idx s') (n : Nat) :
    (s'.slots n).fd = (s.slots n).fd ∧ (s'.slots n).generation = (s.slots n).generation := by
  by_cases same : n = idx
  · exact same ▸ dispatch.slot
  · rw [dispatch.others n same]
    exact ⟨rfl, rfl⟩

theorem Dispatches.of_set
    (keeps : (f (s.slots idx)).fd = (s.slots idx).fd ∧ (f (s.slots idx)).generation = (s.slots idx).generation)
    (rest : Dispatches (s.setSlot idx f) idx s') : Dispatches s idx s' := by
  obtain ⟨fd, generation⟩ := setSlot_slots keeps idx
  refine ⟨fun n other => (rest.others n other).trans ?_, ⟨rest.slot.1.trans fd, rest.slot.2.trans generation⟩,
    rest.rest, fd ▸ rest.next⟩
  simp only [setSlot, update_of_ne other]

theorem dispatches_close (s : TcpServer) (idx : Nat) : Dispatches s idx (s.closeConnection (s.slots idx).fd) :=
  ⟨fun _ _ => rfl, ⟨rfl, rfl⟩, ⟨rfl, rfl, rfl⟩, .inl ⟨rfl, rfl⟩⟩

theorem dispatches_goto {c : Control} (next : c = .idle ∨ c.slot = some idx) :
    Dispatches s idx { s with control := c } :=
  ⟨fun _ _ => rfl, ⟨rfl, rfl⟩, ⟨rfl, rfl, rfl⟩, .inr ⟨next, .inl rfl⟩⟩

theorem dispatches_stay
    (keeps : (f (s.slots idx)).fd = (s.slots idx).fd ∧ (f (s.slots idx)).generation = (s.slots idx).generation)
    (here : s.control.slot = some idx) : Dispatches s idx (s.setSlot idx f) :=
  .of_set keeps ⟨fun _ _ => rfl, ⟨rfl, rfl⟩, ⟨rfl, rfl, rfl⟩, .inr ⟨.inr here, .inl rfl⟩⟩

theorem dispatches_finishEvent (s : TcpServer) (idx : Nat) : Dispatches s idx (s.finishEvent idx) := by
  simp only [finishEvent]
  split
  · exact dispatches_close s idx
  · exact dispatches_goto (.inl rfl)

theorem dispatches_afterWrite (s : TcpServer) (idx : Nat) : Dispatches s idx (s.afterWrite idx) := by
  simp only [afterWrite]
  split
  · exact dispatches_close s idx
  · exact dispatches_finishEvent s idx

theorem dispatches_afterRead (s : TcpServer) (idx : Nat) (flags : EpollFlags) :
    Dispatches s idx (s.afterRead idx flags) := by
  have rest : ∀ s₁ : TcpServer, Dispatches s₁ idx
    (if flags.epollhup || flags.epollerr then s₁.closeConnection (s₁.slots idx).fd
      else if flags.epollout then { s₁ with control := .writing idx } else s₁.finishEvent idx) := by
    intro s₁
    split
    · exact dispatches_close s₁ idx
    split
    · exact dispatches_goto (.inr rfl)
    · exact dispatches_finishEvent s₁ idx
  simp only [afterRead]
  by_cases hungUp : flags.epollrdhup = true
  · rw [if_pos hungUp]
    exact .of_set ⟨rfl, rfl⟩ (rest _)
  · rw [if_neg hungUp]
    exact rest s

theorem dispatches_afterFrames (s : TcpServer) (idx : Nat) (flags : EpollFlags) (last : Bool) (consumed : Nat) :
    Dispatches s idx (s.afterFrames p idx flags last consumed) := by
  simp only [afterFrames]
  split
  · exact dispatches_close s idx
  refine .of_set (f := fun slot => { slot with rx := slot.rx.drop consumed }) ⟨rfl, rfl⟩ ?_
  split
  · split
    · exact dispatches_goto (.inl rfl)
    · exact dispatches_afterRead _ idx flags
  split
  · exact dispatches_close _ idx
  · exact dispatches_goto (.inr rfl)

theorem stepEvent_cases {u64 : Nat} {flags : EpollFlags} (stepped : s.stepEvent p u64 flags = some s') :
    s.control = .idle ∧ (s.Handles p u64 ∧ Dispatches s (u64 % 2 ^ 32) s' ∨
      ¬ s.Handles p u64 ∧ (s' = s ∨ s' = { s with control := .accepting })) := by
  simp only [stepEvent] at stepped
  split at stepped
  case h_2 => cases stepped
  case h_1 idle =>
    refine ⟨idle, ?_⟩
    split at stepped
    · rename_i sentinel
      cases stepped
      refine .inr ⟨?_, .inr rfl⟩
      rintro ⟨small, -⟩
      rw [sentinel, kListenerSentinel] at small
      have := p.conns
      omega
    split at stepped
    case isTrue handled =>
      refine .inl ⟨handled, ?_⟩
      split at stepped
      · cases stepped
        exact dispatches_goto (.inr rfl)
      · cases stepped
        exact dispatches_afterRead s _ flags
    case isFalse other =>
      cases stepped
      exact .inr ⟨other, .inl rfl⟩

theorem stepRecv_cases {result : RecvResult} (stepped : s.stepRecv p result = some s') :
    ∃ idx flags, s.control = .reading idx flags ∧ Dispatches s idx s' := by
  simp only [stepRecv] at stepped
  split at stepped
  case h_2 => cases stepped
  case h_1 idx flags reading =>
    refine ⟨idx, flags, reading, ?_⟩
    split at stepped
    · cases stepped
    split at stepped
    · cases stepped
      exact dispatches_close s idx
    · split at stepped
      · cases stepped
        exact dispatches_stay ⟨rfl, rfl⟩ (by rw [reading]; rfl)
      · cases stepped
    · split at stepped
      · cases stepped
        exact dispatches_goto (.inr rfl)
      · cases stepped
    · split at stepped
      · cases stepped
        exact .of_set ⟨rfl, rfl⟩ (dispatches_goto (.inr rfl))
      · cases stepped

theorem stepRawSend_cases {result : SendResult} (stepped : s.stepRawSend result = some s') :
    ∃ idx, s.control = .writing idx ∧ Dispatches s idx s' := by
  simp only [stepRawSend] at stepped
  split at stepped
  case h_2 => cases stepped
  case h_1 idx writing =>
    refine ⟨idx, writing, ?_⟩
    split at stepped
    · cases stepped
    split at stepped
    · split at stepped
      · cases stepped
        exact dispatches_stay ⟨rfl, rfl⟩ (by rw [writing]; rfl)
      · cases stepped
    · cases stepped
      exact dispatches_afterWrite s idx
    · cases stepped
      exact dispatches_close s idx

theorem stepAdvance_cases (stepped : s.stepAdvance p = some s') :
    ∃ idx, s.control.slot = some idx ∧ ¬ s.control.Calling ∧ Dispatches s idx s' := by
  simp only [stepAdvance] at stepped
  split at stepped
  case h_4 => cases stepped
  case h_1 idx flags reading =>
    refine ⟨idx, by rw [reading]; rfl, by rw [reading]; exact id, ?_⟩
    split at stepped
    · cases stepped
      exact dispatches_goto (.inr rfl)
    · cases stepped
  case h_2 idx flags last consumed framing =>
    refine ⟨idx, by rw [framing]; rfl, by rw [framing]; exact id, ?_⟩
    split at stepped
    · cases stepped
      exact dispatches_close s idx
    · cases stepped
      exact dispatches_afterFrames s idx flags last consumed
    · cases stepped
      exact ⟨fun _ _ => rfl, ⟨rfl, rfl⟩, ⟨rfl, rfl, rfl⟩, .inr ⟨.inr rfl, .inr ⟨_, rfl⟩⟩⟩
  case h_3 idx writing =>
    refine ⟨idx, by rw [writing]; rfl, by rw [writing]; exact id, ?_⟩
    split at stepped
    · cases stepped
      exact .of_set ⟨rfl, rfl⟩ (dispatches_afterWrite _ idx)
    · cases stepped

theorem queueReply_keeps {slot slot' : ConnSlot} {reply : List UInt8} (queued : queueReply p slot reply = some slot') :
    (slot'.fd = slot.fd ∧ slot'.generation = slot.generation) ∧ slot'.rx = slot.rx := by
  simp only [queueReply] at queued
  split at queued
  · cases queued
    exact ⟨⟨rfl, rfl⟩, rfl⟩
  split at queued
  · cases queued
  split at queued
  · cases queued
  · cases queued
    exact ⟨⟨rfl, rfl⟩, rfl⟩

theorem returnOnData_cases {reply : List UInt8} (stepped : s.returnOnData p reply = some s') :
    ∃ idx flags last consumed size, s.control = .serving idx flags last consumed size ∧ s.nested = [] ∧
    Dispatches s idx s' ∧ (queueReply p (s.slots idx) reply = none ∨
        s'.control = .framing idx flags last (consumed + size) ∧ s'.log = s.log ∧
          (s'.slots idx).rx = (s.slots idx).rx) := by
  simp only [returnOnData] at stepped
  split at stepped
  case h_2 => cases stepped
  case h_1 idx flags last consumed size nested serving =>
    refine ⟨idx, flags, last, consumed, size, serving, nested, ?_⟩
    cases queued : queueReply p (s.slots idx) reply with
    | none =>
      rw [queued] at stepped
      cases stepped
      exact ⟨dispatches_close s idx, .inl rfl⟩
    | some slot =>
      rw [queued] at stepped
      cases stepped
      obtain ⟨keeps, rx⟩ := queueReply_keeps queued
      refine ⟨.of_set (f := fun _ => slot) keeps (dispatches_goto (.inr rfl)), .inr ⟨rfl, rfl, ?_⟩⟩
      simpa only [setSlot, update_self] using rx

/-! ### The other steps -/

theorem stepAccept_cases {result : AcceptResult} (stepped : s.stepAccept p result = some s') :
    s.control = .accepting ∧ (s' = s ∨ s' = { s with control := .idle } ∨
      ∃ fd, fd < p.kMaxConns ∧ (s.slots fd).fd = -1 ∧ s' = { s.allocSlot fd with control := .connecting fd }) := by
  simp only [stepAccept] at stepped
  split at stepped
  case h_1 fd accepting =>
    refine ⟨accepting, ?_⟩
    split at stepped
    · cases stepped
      exact .inl rfl
    rename_i small
    split at stepped
    case isFalse => cases stepped
    case isTrue free =>
      cases stepped
      exact .inr (.inr ⟨fd, Nat.not_le.mp small, free, rfl⟩)
  case h_2 accepting =>
    cases stepped
    exact ⟨accepting, .inl rfl⟩
  case h_3 accepting =>
    cases stepped
    exact ⟨accepting, .inr (.inl rfl)⟩
  case h_4 => cases stepped

theorem stepEpollAdd_cases {ok : Bool} (stepped : s.stepEpollAdd ok = some s') :
    ∃ fd, s.control = .registering fd ∧
      s' = if ok then { s with control := .accepting } else { s.callOnDisconnect fd with control := .dropping fd } := by
  simp only [stepEpollAdd] at stepped
  split at stepped
  case h_2 => cases stepped
  case h_1 fd registering =>
    refine ⟨fd, registering, ?_⟩
    cases ok with
    | false | true =>
      cases stepped
      rfl

theorem stepSend_cases {id : Nat} {payload : List UInt8} (stepped : s.stepSend p id payload = some s') :
    s.control.Calling ∧ ∃ txSize, s' = s.setSlot id fun slot => { slot with txSize } := by
  simp only [stepSend] at stepped
  split at stepped
  case isFalse => cases stepped
  case isTrue calling =>
    cases stepped
    exact ⟨calling.1, _, rfl⟩

theorem stepClose_cases {id : Nat} (stepped : s.stepClose p id = some s') :
    s.control.Calling ∧ s' = if (s.slots id).fd = id then { s.callOnDisconnect id with nested := id :: s.nested }
    else s := by
  simp only [stepClose] at stepped
  split at stepped
  case isFalse => cases stepped
  case isTrue calling =>
    refine ⟨calling.1, ?_⟩
    split at stepped
    all_goals
      cases stepped
      rename_i here
      simp only [here, if_true, if_false]

theorem returnOnConnect_cases {accepted : Bool} (stepped : s.returnOnConnect accepted = some s') :
    ∃ fd, s.control = .connecting fd ∧ s.nested = [] ∧
      s' = { if accepted then s else s.freed fd with
        log := s.log ++ [.onConnect fd accepted]
        control := if accepted then .registering fd else .accepting } := by
  simp only [returnOnConnect] at stepped
  split at stepped
  case h_2 => cases stepped
  case h_1 fd nested connecting =>
    refine ⟨fd, connecting, nested, ?_⟩
    cases accepted with
    | false | true =>
      cases stepped
      rfl

theorem returnOnDisconnect_cases (stepped : s.returnOnDisconnect = some s') :
    (∃ id rest, s.nested = id :: rest ∧ s' = { s.freed id with nested := rest }) ∨
    s.nested = [] ∧ ∃ (n : Nat) (c : Control), s' = { s.freed n with control := c } ∧
      (s.control = .dropping n ∧ c = .accepting ∨ s.control = .closing n ∧ c = .idle) := by
  simp only [returnOnDisconnect] at stepped
  split at stepped
  case h_4 => cases stepped
  case h_1 id rest nested =>
    cases stepped
    exact .inl ⟨id, rest, nested, rfl⟩
  case h_2 fd nested dropping =>
    cases stepped
    exact .inr ⟨nested, fd, .accepting, rfl, .inl ⟨dropping, rfl⟩⟩
  case h_3 fd nested closing =>
    cases fd with
    | negSucc n => cases stepped
    | ofNat n =>
      cases stepped
      exact .inr ⟨nested, n, .idle, rfl, .inr ⟨closing, rfl⟩⟩

end TcpServer

end TickToTrade.Net
