import TickToTrade.Pipeline.StrategyThread
import TickToTrade.Lib.Framing

/-!
What the kernel takes on one connection are the packed frames in order, with at most one incomplete
frame at the end.
-/

namespace TickToTrade.Pipeline
open Framing Oms OrderManager List Option

def IsTcpFrame (bytes : List UInt8) : Prop :=
    ∃ outSize msgType payload, packTcpMessage outSize msgType payload = some bytes

namespace StrategyThread

variable {cfg : Config} {t t' : StrategyThread}

def lines (t : StrategyThread) : List (Framing.Line UInt8) := t.closed ++ [t.line]

structure Intact (line : Framing.Line UInt8) : Prop where
  packed : ∀ send ∈ line, IsTcpFrame send.frame
  framed : line.Framed

/-- After a short write the kernel takes nothing more on the connection. -/
def Unbroken (t : StrategyThread) (answers : List SendAnswer) : Prop :=
  ¬ t.line.Whole → ∀ answer ∈ answers, answer.takes = false
  deriving Decidable

def AllIntact (t : StrategyThread) : Prop := ∀ line ∈ t.lines, Intact line

theorem intact_nil : Intact [] := ⟨forall_mem_nil _, Framing.Line.framed_nil⟩

theorem AllIntact.of_same (intact : t.AllIntact) (line : t'.line = t.line) (closed : t'.closed = t.closed) :
    t'.AllIntact := by
  rw [AllIntact, lines, line, closed]
  exact intact

theorem AllIntact.disconnectAndReconnect (intact : t.AllIntact) (clock : Int) :
    (t.disconnectAndReconnect clock).AllIntact := by
  unfold StrategyThread.disconnectAndReconnect
  split
  · exact intact
  · exact forall_mem_append.mpr ⟨intact, forall_mem_singleton.mpr intact_nil⟩

variable {answers : List SendAnswer}

theorem AllIntact.sendFrame {frame : List UInt8} {ok : Bool} (intact : t.AllIntact) (unbroken : t.Unbroken answers)
    (packed : IsTcpFrame frame) (sent : t.sendFrame answers frame = some (ok, t')) : t'.AllIntact := by
  obtain ⟨⟨result, taken⟩, took, done⟩ := bind_eq_some_iff.mp sent
  cases done
  obtain ⟨front, takes⟩ := sendNonblocking_takes took
  obtain ⟨closed, current⟩ := forall_mem_append.mp intact
  have current := forall_mem_singleton.mp current
  have framed : Framing.Line.Framed (t.line ++ [{ frame := frame, taken }]) := by
    by_cases whole : t.line.Whole
    · exact whole.push front
    · -- The frame before this one is incomplete, and it stays the last.
      have nothing : taken = [] := by
        by_contra some
        obtain ⟨answer, member, took⟩ := takes some
        exact Bool.false_ne_true ((unbroken whole answer member).symm.trans took)
      exact nothing ▸ current.framed.silent frame
  refine forall_mem_append.mpr ⟨closed, forall_mem_singleton.mpr ⟨?_, framed⟩⟩
  exact forall_mem_append.mpr ⟨current.packed, forall_mem_singleton.mpr packed⟩

theorem AllIntact.sendMessage {msgType : MsgType} {payload : Option (List UInt8)} {ok : Bool}
    (intact : t.AllIntact) (unbroken : t.Unbroken answers)
    (sent : t.sendMessage answers msgType payload = some (ok, t')) : t'.AllIntact := by
  unfold StrategyThread.sendMessage at sent
  split at sent
  · cases sent
    exact intact
  · rename_i frame packed
    obtain ⟨bytes, _, packed⟩ := bind_eq_some_iff.mp packed
    exact intact.sendFrame unbroken ⟨t.txSize, msgType, bytes, packed⟩ sent

theorem AllIntact.onSignal {signal : Signal} {now sendTs : Int} {ok : Bool} (intact : t.AllIntact)
    (unbroken : t.Unbroken answers)
    (done : t.onSignal cfg signal now sendTs answers = some (ok, t')) : t'.AllIntact := by
  obtain ⟨⟨changes, modify, om⟩, _, done⟩ := bind_eq_some_iff.mp done
  have checked : ({ t with om } : StrategyThread).AllIntact := intact.of_same rfl rfl
  cases changes with
  | true => exact checked.sendMessage unbroken done
  | false =>
    obtain ⟨⟨generated, order, om₁⟩, _, done⟩ := bind_eq_some_iff.mp done
    have placed : ({ t with om := om₁ } : StrategyThread).AllIntact := intact.of_same rfl rfl
    cases generated with
    | true => exact placed.sendMessage unbroken done
    | false =>
      cases done
      exact placed

theorem AllIntact.heartbeatIfDue {now clock : Int} (intact : t.AllIntact) (unbroken : t.Unbroken answers)
    (beaten : t.heartbeatIfDue now clock answers = some t') : t'.AllIntact := by
  unfold StrategyThread.heartbeatIfDue at beaten
  split at beaten
  · exact some.inj beaten ▸ intact
  obtain ⟨⟨ok, t₁⟩, sent, done⟩ := bind_eq_some_iff.mp beaten
  cases done
  have intact₁ := intact.sendMessage unbroken sent
  cases ok with
  | true => exact intact₁.of_same rfl rfl
  | false => exact (intact₁.disconnectAndReconnect clock).of_same rfl rfl

theorem AllIntact.step {op : StrategyOp} (intact : t.AllIntact) (unbroken : t.Unbroken op.answers)
    (stepped : t.step cfg op = some t') : t'.AllIntact := by
  -- Most stages leave the line alone.
  have still : some t = some t' → t'.AllIntact := fun same => some.inj same ▸ intact
  cases op with
  | killSwitch now =>
    dsimp only [StrategyThread.step] at stepped
    split at stepped
    · obtain ⟨⟨batch, om⟩, _, done⟩ := bind_eq_some_iff.mp stepped
      cases done
      exact intact.of_same rfl rfl
    · exact still stepped
  | cancel clock answers =>
    dsimp only [StrategyThread.step] at stepped
    split at stepped
    · exact still stepped
    · rename_i cancel batch _
      obtain ⟨⟨ok, t₁⟩, sent, done⟩ := bind_eq_some_iff.mp stepped
      cases done
      have taken : ({ t with batch } : StrategyThread).AllIntact := intact.of_same rfl rfl
      have intact₁ := taken.sendMessage unbroken sent
      cases ok with
      | true => exact intact₁
      | false => exact (intact₁.disconnectAndReconnect clock).of_same rfl rfl
  | drained =>
    cases stepped
    split
    · exact intact.of_same rfl rfl
    · exact intact
  | heartbeat now clock answers =>
    dsimp only [StrategyThread.step] at stepped
    split at stepped
    · obtain ⟨t₁, beaten, done⟩ := bind_eq_some_iff.mp stepped
      have intact₁ := intact.heartbeatIfDue unbroken beaten
      cases done
      split
      · exact intact₁.disconnectAndReconnect clock
      · exact intact₁
    · exact still stepped
  | connectTimeout now =>
    cases stepped
    split
    · exact intact.of_same rfl rfl
    · exact intact
  | reconnect now outcome =>
    cases stepped
    split
    · unfold tryReconnect
      split
      · exact intact.of_same rfl rfl
      · split <;> exact intact.of_same rfl rfl
    · exact intact
  | timeouts nowNs =>
    dsimp only [StrategyThread.step] at stepped
    split at stepped
    · obtain ⟨⟨batch, om⟩, _, done⟩ := bind_eq_some_iff.mp stepped
      cases done
      exact intact.of_same rfl rfl
    · exact still stepped
  | signal signal now sendTs clock answers =>
    dsimp only [StrategyThread.step] at stepped
    split at stepped
    · obtain ⟨⟨ok, t₁⟩, sent, done⟩ := bind_eq_some_iff.mp stepped
      have intact₁ := intact.onSignal unbroken sent
      cases done
      cases ok with
      | true => exact intact₁
      | false => exact intact₁.disconnectAndReconnect clock
    · exact still stepped
  | connectEvent now succeeded =>
    cases stepped
    split
    · exact intact.of_same rfl rfl
    · exact intact
  | response msg =>
    dsimp only [StrategyThread.step] at stepped
    split at stepped
    · obtain ⟨⟨sent, om⟩, _, done⟩ := bind_eq_some_iff.mp stepped
      cases done
      exact intact.of_same rfl rfl
    · exact still stepped
  | heartbeatAck now =>
    cases stepped
    split
    · exact intact.of_same rfl rfl
    · exact intact
  | lost clock =>
    cases stepped
    split
    · exact intact.disconnectAndReconnect clock
    · exact intact

/-- In every run in which nothing is taken behind an incomplete frame, the bytes that the kernel took on each connection
are the packed frames it began to take, in order, all of them complete but perhaps the last. -/
theorem run_framed {om : OrderManager} {conn : ConnectionState} {txSize scratchSize : Nat} {ops : List StrategyOp}
    (unbroken : Along cfg (fun t op => t.Unbroken op.answers) ops { om, conn, txSize, scratchSize })
    (ran : run cfg ops { om, conn, txSize, scratchSize } = some t) : ∀ line ∈ t.lines, Intact line := by
  have start : AllIntact { om, conn, txSize, scratchSize } := forall_mem_singleton.mpr intact_nil
  exact Transition.run_invariant AllIntact.step start unbroken ran

def smallThread : StrategyThread := { om := smallManager, txSize := 4096, scratchSize := 128 }

/-- The second order is cut by a full send buffer, and the heartbeat does not get through. -/
def cutOps : List StrategyOp :=
  [.signal (buy 5) 0 0 0 [.fail .eintr, .accept 49], .signal (buy 5) 1 1 1 [.accept 20],
    .heartbeat 1000000001 1000000001 [.fail .eagain]]

theorem run_framed_cut : ∃ t, Along smallConfig (fun t op => t.Unbroken op.answers) cutOps smallThread ∧
    run smallConfig cutOps smallThread = some t ∧ t.line.map (fun send => (send.frame.length, send.taken.length)) =
      [(49, 49), (49, 20), (16, 0)] ∧ ∀ line ∈ t.lines, Intact line := by
  have unbroken : Along smallConfig (fun t op => t.Unbroken op.answers) cutOps smallThread := by decide +kernel
  obtain ⟨t, ran, lengths⟩ : ∃ t, run smallConfig cutOps smallThread = some t ∧
      t.line.map (fun send => (send.frame.length, send.taken.length)) = [(49, 49), (49, 20), (16, 0)] := by
    decide +kernel
  exact ⟨t, unbroken, ran, lengths, run_framed unbroken ran⟩

/-- The kernel takes one byte of the first order and all of the second. -/
def tornOps : List StrategyOp := [.signal (buy 5) 0 0 0 [.accept 1], .signal (buy 5) 1 1 1 [.accept 49]]

/-- The frame of the second order stands behind the first letter of the first. -/
theorem run_torn : ∃ t, create smallConfig = some smallManager ∧ run smallConfig tornOps smallThread = some t ∧
    t.conn.state = .kConnected ∧ t.closed = [] ∧ t.line.stream.take 2 = [0x53, 0x53] ∧ ¬ t.line.Framed := by
  obtain ⟨t, ran, torn⟩ : ∃ t, run smallConfig tornOps smallThread = some t ∧ t.conn.state = .kConnected ∧
      t.closed = [] ∧ t.line.stream.take 2 = [0x53, 0x53] ∧ ¬ t.line.Framed := by decide +kernel
  exact ⟨t, create_smallManager, ran, torn⟩

end StrategyThread

end TickToTrade.Pipeline
