import TickToTrade.Exchange.Routing
import TickToTrade.Exchange.CallFrames

/-! Duplicate suppression over the lifetime of a session. -/

namespace TickToTrade.Exchange
open Algo Ds Probing ExchangeCore List Option Function

variable {sessionId : UInt16}

def acceptances (sessionId : UInt16) (id : Nat) (events : List ExchangeEvent) : Nat :=
  events.countP fun event => event.type = .kOrderAccepted ∧ event.sessionId = sessionId ∧ event.clientOrderId = id

theorem acceptances_append (sessionId : UInt16) (id : Nat) (events events' : List ExchangeEvent) :
    acceptances sessionId id (events ++ events') = acceptances sessionId id events + acceptances sessionId id events' :=
  countP_append

theorem acceptances_reports {id : Nat} {events : List ExchangeEvent}
    (kinds : ∀ event ∈ events, event.type = .kFill ∨ event.type = .kBBOUpdate) :
    acceptances sessionId id events = 0 := by
  rw [acceptances, countP_eq_zero]
  intro event member
  rcases kinds event member with kind | kind <;> simp [kind]

theorem ExchangeCore.Replied.acceptances_eq {maxSymbols : Nat} {core core' : ExchangeCore maxSymbols}
    {head : ExchangeEvent} {id : Nat} (replied : Replied core core' head) (drained : core.events = []) :
    acceptances sessionId id core'.events = acceptances sessionId id [head] := by
  obtain ⟨more, grown, kinds⟩ := replied.events
  rw [grown, drained, nil_append, ← singleton_append, acceptances_append, acceptances_reports kinds,
    Nat.add_zero]

structure Lifetimes (maxSymbols : Nat) where
  core : ExchangeCore maxSymbols
  submitted : UInt16 → Nat → Bool := fun _ _ => false
  accepted : UInt16 → Nat → Nat := fun _ _ => 0

namespace Lifetimes

variable {maxSymbols : Nat} {l l' : Lifetimes maxSymbols} {op : Op} {core : ExchangeCore maxSymbols}

def note (op : Op) (submitted : UInt16 → Nat → Bool) : UInt16 → Nat → Bool :=
  match op with
  | .submit sessionId order =>
    update submitted sessionId (update (submitted sessionId) order.clientOrderId true)
  | _ => submitted

def record (l : Lifetimes maxSymbols) (op : Op) (core : ExchangeCore maxSymbols) : Lifetimes maxSymbols where
  core := core.drainEvents.2
  submitted := note op l.submitted
  accepted := fun sessionId id => l.accepted sessionId id + acceptances sessionId id core.drainEvents.1

def renew (l : Lifetimes maxSymbols) (sessionId : UInt16) (core : ExchangeCore maxSymbols) : Lifetimes maxSymbols where
  core
  submitted := update l.submitted sessionId fun _ => false
  accepted := update l.accepted sessionId fun _ => 0

def step (l : Lifetimes maxSymbols) : Op → Exec (Lifetimes maxSymbols)
  | .connect => do
    let (sessionId, core) ← l.core.onClientConnect
    return l.renew sessionId core
  | op => do
    let core ← l.core.apply op
    return l.record op core

abbrev run : List Op → Lifetimes maxSymbols → Exec (Lifetimes maxSymbols) := Transition.run step

def FromActive (l : Lifetimes maxSymbols) : Op → Prop
  | .submit sessionId _ | .cancel sessionId _ | .modify sessionId _ => l.core.activeSessions sessionId = true
  | _ => True

instance : ∀ op, Decidable (FromActive l op)
  | .submit sessionId _ => inferInstanceAs (Decidable (l.core.activeSessions sessionId = true))
  | .cancel sessionId _ => inferInstanceAs (Decidable (l.core.activeSessions sessionId = true))
  | .modify sessionId _ => inferInstanceAs (Decidable (l.core.activeSessions sessionId = true))
  | .connect | .disconnect _ => isTrue trivial

/-- The seen ids are ids of connected sessions, submitted since their connect, and hold every id that was
accepted; none was accepted twice. -/
structure Inv (l : Lifetimes maxSymbols) : Prop where
  ok : Table.WellFormed DefaultHash.hash l.core.seenOrders
  drained : l.core.events = []
  keys : ∀ key flag, l.core.seenOrders.content key = some flag → ∃ sessionId id, id ≤ kMaxClientOrderId ∧
    key = makeCompositeKey sessionId id ∧ l.core.activeSessions sessionId = true ∧ l.submitted sessionId id = true
  once : ∀ sessionId id, l.accepted sessionId id ≤ 1
  seen : ∀ sessionId id, l.core.activeSessions sessionId = true → l.accepted sessionId id ≠ 0 →
    id ≤ kMaxClientOrderId ∧ l.core.seenOrders.content (makeCompositeKey sessionId id) ≠ none

theorem note_of_submitted (op : Op) {submitted : UInt16 → Nat → Bool} {id : Nat}
    (before : submitted sessionId id = true) : note op submitted sessionId id = true := by
  cases op with
  | submit sessionId' order =>
    by_cases mine : sessionId = sessionId'
    · subst mine
      by_cases same : id = order.clientOrderId
      · simp [note, same]
      · simp [note, same, before]
    · simp [note, mine, before]
  | _ => exact before

section

variable (inv : l.Inv)
include inv

/-- A reply that accepts nothing and leaves the sessions and the seen ids alone. -/
theorem Inv.replied {core' : ExchangeCore maxSymbols} {head : ExchangeEvent}
    (replied : Replied l.core core' head) (other : head.type ≠ .kOrderAccepted) (op : Op) :
    (l.record op core').Inv := by
  have quiet : ∀ sessionId id, acceptances sessionId id core'.events = 0 := by
    intro sessionId id
    rw [replied.acceptances_eq inv.drained]
    simp [acceptances, other]
  simp only [record, drainEvents, quiet, Nat.add_zero]
  refine ⟨?_, rfl, ?_, inv.once, ?_⟩
  · exact replied.seen ▸ inv.ok
  · intro key flag found
    simp only [replied.seen, replied.sessions] at found ⊢
    obtain ⟨sessionId, id, bound, same, active, tried⟩ := inv.keys key flag found
    exact ⟨sessionId, id, bound, same, active, note_of_submitted op tried⟩
  · simp only [replied.seen, replied.sessions]
    exact inv.seen

theorem Inv.submit {core' : ExchangeCore maxSymbols} {order : NewOrder}
    (active : l.core.activeSessions sessionId = true) (done : l.core.submitOrder sessionId order = some core') :
    (l.record (.submit sessionId order) core').Inv := by
  cases submitOrder_submitted inv.ok done with
  | refused head reported type _ => exact inv.replied reported.replied (by simp [type]) _
  | noted head seen core₁ bound absent inserted reached reported sender _ =>
    have replied := reached.replied reported
    have content : core'.seenOrders.content =
        update l.core.seenOrders.content (makeCompositeKey sessionId order.clientOrderId) (some true) := by
      rw [replied.seen]
      exact inserted.content_eq inv.ok
    have sessions : core'.activeSessions = l.core.activeSessions := replied.sessions
    -- The id was not accepted before, since it was not among the seen ones.
    have unused : l.accepted sessionId order.clientOrderId = 0 := by
      by_contra used
      exact (inv.seen sessionId _ active used).2 absent
    have counted : ∀ sessionId' id, acceptances sessionId' id core'.events ≠ 0 →
        sessionId' = sessionId ∧ id = order.clientOrderId := by
      intro sessionId' id some
      rw [replied.acceptances_eq inv.drained] at some
      obtain ⟨event, member, accepts⟩ := countP_pos_iff.mp (Nat.pos_of_ne_zero some)
      rw [mem_singleton.mp member, decide_eq_true_eq] at accepts
      exact ⟨accepts.2.1.symm.trans sender.1, accepts.2.2.symm.trans sender.2⟩
    have atMostOne : ∀ sessionId' id, acceptances sessionId' id core'.events ≤ 1 := by
      intro sessionId' id
      rw [replied.acceptances_eq inv.drained]
      exact countP_le_length
    refine ⟨?_, rfl, ?_, ?_, ?_⟩
    · exact replied.seen ▸ inserted.wellFormed
    · intro key flag found
      simp only [record, drainEvents, content, sessions] at found ⊢
      by_cases same : key = makeCompositeKey sessionId order.clientOrderId
      · exact ⟨sessionId, order.clientOrderId, bound, same, active, by simp [note]⟩
      · rw [update_of_ne same] at found
        obtain ⟨sessionId', id, bound', same', active', tried⟩ := inv.keys key flag found
        exact ⟨sessionId', id, bound', same', active', note_of_submitted _ tried⟩
    · intro sessionId' id
      show l.accepted sessionId' id + acceptances sessionId' id core'.events ≤ 1
      by_cases none : acceptances sessionId' id core'.events = 0
      · rw [none]
        exact inv.once sessionId' id
      · obtain ⟨rfl, rfl⟩ := counted sessionId' id none
        rw [unused, Nat.zero_add]
        exact atMostOne _ _
    · intro sessionId' id active' used
      simp only [record, drainEvents, content, sessions] at active' used ⊢
      by_cases none : acceptances sessionId' id core'.events = 0
      · rw [none, Nat.add_zero] at used
        obtain ⟨bound', present⟩ := inv.seen sessionId' id active' used
        refine ⟨bound', ?_⟩
        by_cases same : makeCompositeKey sessionId' id = makeCompositeKey sessionId order.clientOrderId
        · simp [same]
        · rwa [update_of_ne same]
      · obtain ⟨rfl, rfl⟩ := counted sessionId' id none
        exact ⟨bound, by simp⟩

theorem Inv.disconnect {core' : ExchangeCore maxSymbols} (done : l.core.onClientDisconnect sessionId = some core') :
    (l.record (.disconnect sessionId) core').Inv := by
  by_cases named : sessionId = 0
  · subst named
    cases done
    simp only [record, drainEvents, note, inv.drained, acceptances, countP_nil, Nat.add_zero]
    exact { inv with drained := rfl }
  · obtain ⟨ok, sessions, events, content⟩ := onClientDisconnect_seen inv.ok named done
    simp only [record, drainEvents, note, events, inv.drained, acceptances, countP_nil, Nat.add_zero]
    refine ⟨ok, rfl, ?_, inv.once, ?_⟩
    · intro key flag found
      simp only [content] at found
      split at found
      · cases found
      rename_i other
      obtain ⟨sessionId', id, bound, same, active, tried⟩ := inv.keys key flag found
      refine ⟨sessionId', id, bound, same, ?_, tried⟩
      have different : sessionId' ≠ sessionId := by
        rw [same, extractSessionId_key sessionId' bound] at other
        exact other
      rw [sessions, update_of_ne different]
      exact active
    · intro sessionId' id active used
      simp only [sessions] at active
      have different : sessionId' ≠ sessionId := by
        intro same
        rw [same, update_self] at active
        cases active
      rw [update_of_ne different] at active
      obtain ⟨bound, present⟩ := inv.seen sessionId' id active used
      refine ⟨bound, ?_⟩
      rwa [content, extractSessionId_key sessionId' bound, if_neg different]

/-- A session that connects has no seen id left from an earlier one under the same number. -/
theorem Inv.connect {core' : ExchangeCore maxSymbols} (done : l.core.onClientConnect = some (sessionId, core')) :
    (l.renew sessionId core').Inv := by
  obtain ⟨-, inactive, sessions⟩ := findSession_new done
  have frame := findSession_frame done
  have seen : core'.seenOrders = l.core.seenOrders := by rw [frame]
  have events : core'.events = l.core.events := by rw [frame]
  refine ⟨seen ▸ inv.ok, events.trans inv.drained, ?_, ?_, ?_⟩
  · intro key flag found
    simp only [renew, seen] at found
    obtain ⟨sessionId', id, bound, same, active, tried⟩ := inv.keys key flag found
    have different : sessionId' ≠ sessionId := by
      intro equal
      rw [equal, inactive] at active
      cases active
    exact ⟨sessionId', id, bound, same, by simp [renew, sessions, different, active], by simp [renew, different, tried]⟩
  · intro sessionId' id
    by_cases same : sessionId' = sessionId
    · simp [renew, same]
    · simpa [renew, same] using inv.once sessionId' id
  · intro sessionId' id active used
    simp only [renew, sessions, seen] at active used ⊢
    by_cases same : sessionId' = sessionId
    · simp [same] at used
    · rw [update_of_ne same] at active used
      exact inv.seen sessionId' id active used

theorem Inv.step (active : FromActive l op) (stepped : l.step op = some l') : l'.Inv := by
  cases op with
  | connect =>
    obtain ⟨⟨sessionId, core'⟩, connected, done⟩ := bind_eq_some_iff.mp stepped
    cases done
    exact inv.connect connected
  | disconnect sessionId =>
    obtain ⟨core', disconnected, done⟩ := bind_eq_some_iff.mp stepped
    cases done
    exact inv.disconnect disconnected
  | submit sessionId order =>
    obtain ⟨core', submitted, done⟩ := bind_eq_some_iff.mp stepped
    cases done
    exact inv.submit active submitted
  | cancel sessionId order =>
    obtain ⟨core', cancelled, done⟩ := bind_eq_some_iff.mp stepped
    cases done
    obtain ⟨head, core₁, other, reached, reported⟩ := cancelOrder_reported cancelled
    exact inv.replied (reached.replied reported) other _
  | modify sessionId order =>
    obtain ⟨core', modified, done⟩ := bind_eq_some_iff.mp stepped
    cases done
    obtain ⟨head, core₁, other, reached, reported⟩ := modifyOrder_reported modified
    exact inv.replied (reached.replied reported) other _

theorem Inv.first_submission {core' : ExchangeCore maxSymbols} {order : NewOrder}
    (new : l.submitted sessionId order.clientOrderId = false) (done : l.core.submitOrder sessionId order = some core')
    {event : ExchangeEvent} (member : event ∈ core'.events) :
    ¬ (event.type = .kOrderRejected ∧ event.reason = .kDuplicateOrderId) := by
  intro ⟨type, reason⟩
  have reports : ∀ {core₁ : ExchangeCore maxSymbols} {head : ExchangeEvent}, Replied core₁ core' head →
      core₁.events = [] → event = head := by
    intro core₁ head replied drained
    obtain ⟨more, grown, kinds⟩ := replied.events
    rw [grown, drained, nil_append] at member
    rcases mem_cons.mp member with same | later
    · exact same
    · rcases kinds event later with kind | kind <;> rw [kind] at type <;> cases type
  cases submitOrder_submitted inv.ok done with
  | refused head reported _ duplicate =>
    obtain rfl := reports reported.replied inv.drained
    obtain ⟨bound, flag, found⟩ := duplicate reason
    obtain ⟨sessionId', id, bound', same, _, tried⟩ := inv.keys _ flag found
    obtain ⟨rfl, rfl⟩ := makeCompositeKey_inj bound bound' same
    rw [new] at tried
    cases tried
  | noted head seen core₁ _ _ _ reached reported _ unique =>
    obtain rfl := reports (reached.replied reported) inv.drained
    exact unique reason

end

end Lifetimes

open Lifetimes in
/-- In every run with requests from connected sessions only, no client order id is accepted twice in the
lifetime of a session, and the first submission of an id in it is never called a duplicate. -/
theorem run_accepts_once {maxSymbols : Nat} {symbols : List (Nat × Params)} {core : ExchangeCore maxSymbols}
    {ops : List Op} {l : Lifetimes maxSymbols} (registered : registerAll symbols {} = some core)
    (active : Transition.Along Lifetimes.step FromActive ops { core }) (ran : Lifetimes.run ops { core } = some l) :
    (∀ sessionId id, l.accepted sessionId id ≤ 1) ∧
    ∀ (sessionId : UInt16) (order : NewOrder) core', l.core.activeSessions sessionId = true →
      order.clientOrderId ≤ kMaxClientOrderId → l.submitted sessionId order.clientOrderId = false →
      l.core.submitOrder sessionId order = some core' →
      ∀ event ∈ core'.events, ¬ (event.type = .kOrderRejected ∧ event.reason = .kDuplicateOrderId) := by
  have fresh := fresh_initial.registerAll registered
  have frame := registerAll_frame registered
  have start : Inv ({ core } : Lifetimes maxSymbols) := by
    refine ⟨fresh.healthy.maps.seen, fresh.drained, ?_, fun _ _ => Nat.zero_le 1, fun _ _ _ used => absurd rfl used⟩
    intro key flag found
    have seen : core.seenOrders = FixedHashMap.empty := by rw [frame]
    rw [show core.seenOrders.content key = none from seen ▸ Table.fresh_content _ _ key] at found
    cases found
  have inv := Transition.run_invariant (fun inv active stepped => Inv.step inv active stepped) start active ran
  exact ⟨inv.once, fun sessionId order core' _ _ new done event member => inv.first_submission new done member⟩

def repeatOps : List Op :=
    [.connect, .submit 1 ⟨7, 1, .kBid, 100, 5, 0⟩, .cancel 1 ⟨7, 1, 0⟩, .submit 1 ⟨7, 1, .kBid, 100, 5, 0⟩]

theorem run_accepts_once_repeat : registerAll [(1, tinyParams)] {} = some tinyCore ∧
    Transition.Along Lifetimes.step Lifetimes.FromActive repeatOps { core := tinyCore } ∧
    ∃ l, Lifetimes.run repeatOps { core := tinyCore } = some l ∧ l.accepted 1 7 = 1 ∧
      ∀ sessionId id, l.accepted sessionId id ≤ 1 := by
  have active : Transition.Along Lifetimes.step Lifetimes.FromActive repeatOps { core := tinyCore } := by decide +kernel
  obtain ⟨l, ran, once⟩ : ∃ l, Lifetimes.run repeatOps { core := tinyCore } = some l ∧ l.accepted 1 7 = 1 := by
    decide +kernel
  exact ⟨registerAll_tinyCore, active, l, ran, once, (run_accepts_once registerAll_tinyCore active ran).1⟩

end TickToTrade.Exchange
