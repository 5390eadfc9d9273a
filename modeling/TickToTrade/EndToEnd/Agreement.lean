import TickToTrade.EndToEnd.OrderFlow
import TickToTrade.Exchange.GatewayEffects

/-! Orders that rest at the exchange are tracked by their order manager, or a cancel is on its way. -/

namespace TickToTrade.EndToEnd
open Algo Ds Exchange ExchangeCore Oms OrderManager Sys Function

variable {maxSymbols : Nat} {cfg : Config} {s : UInt16}

def requestOp (s : UInt16) : Request → Exchange.Op
  | .newOrder order => .submit s order
  | .modifyOrder modify => .modify s modify
  | .cancelOrder cancel => .cancel s cancel

def Submits (s : UInt16) (up : List Exchange.Op) (id : Nat) : Prop := ∃ order, .submit s order ∈ up ∧
    order.clientOrderId = id

def Cancels (s : UInt16) (up : List Exchange.Op) (id : Nat) : Prop := ∃ cancel, .cancel s cancel ∈ up ∧
    cancel.clientOrderId = id

/-- A submission comes before everything else that names its id, except a modify. -/
def Follows (s : UInt16) (first later : Exchange.Op) : Prop :=
  ∀ id, Submits s [later] id → ¬ Submits s [first] id ∧ ¬ Cancels s [first] id

/-- Client ids are used once, and `symbolOf` gives the symbol that goes with an id. -/
structure Agreed (cfg : Config) (s : UInt16) (symbolOf : Nat → Nat) (om : OrderManager) (a : Audited maxSymbols)
    (up : List Exchange.Op) (Down : ExchangeMessage → Prop) : Prop where
  session : s ≠ 0
  ok : om.Ok cfg
  sound : a.Sound
  tracked : ∀ id info, om.outstanding.content id = some info → id < om.nextOrderId ∧ info.symbolId = symbolOf id
  mine : ∀ op ∈ up, ∃ msg, op = requestOp s msg
  submits : ∀ order, .submit s order ∈ up → order.clientOrderId < om.nextOrderId ∧
    order.symbolId = symbolOf order.clientOrderId
  cancels : ∀ cancel, .cancel s cancel ∈ up → cancel.clientOrderId < om.nextOrderId ∧
    cancel.symbolId = symbolOf cancel.clientOrderId
  ordered : up.Pairwise (Follows s)
  resting : ∀ id i, a.HasOrder (s, id) i → id < om.nextOrderId ∧ symbolOf id = i + 1 ∧ ¬ Submits s up id
  covered : ∀ id, (∃ i, a.HasOrder (s, id) i) ∨ Submits s up id →
    (om.outstanding.content id).isSome = true ∨ Cancels s up id
  final : ∀ msg, Down msg → ∀ id ∈ (onTcpMessage msg).drops,
    id < om.nextOrderId ∧ (∀ i, ¬ a.HasOrder (s, id) i) ∧ ¬ Submits s up id

section Agreed

variable {symbolOf : Nat → Nat} {om om' : OrderManager} {a a' : Audited maxSymbols} {up rest : List Exchange.Op}
  {Down Down' : ExchangeMessage → Prop} {id : Nat}

theorem submits_append {more : List Exchange.Op} :
    Submits s (up ++ more) id ↔ Submits s up id ∨ Submits s more id := by
  simp [Submits, or_and_right, exists_or]

theorem cancels_append {more : List Exchange.Op} :
    Cancels s (up ++ more) id ↔ Cancels s up id ∨ Cancels s more id := by
  simp [Cancels, or_and_right, exists_or]

theorem submits_subset (fewer : ∀ op ∈ rest, op ∈ up) (submits : Submits s rest id) : Submits s up id := by
  obtain ⟨order, member, same⟩ := submits
  exact ⟨order, fewer _ member, same⟩

theorem submits_request {msgs : List Request} :
    Submits s (msgs.map (requestOp s)) id ↔ ∃ order, .newOrder order ∈ msgs ∧ order.clientOrderId = id := by
  constructor
  · rintro ⟨order, member, same⟩
    obtain ⟨msg, listed, op⟩ := List.mem_map.mp member
    cases msg with
    | newOrder sent =>
      obtain rfl := (Op.submit.inj op).2
      exact ⟨sent, listed, same⟩
    | modifyOrder _ => cases op
    | cancelOrder _ => cases op
  · rintro ⟨order, member, same⟩
    exact ⟨order, List.mem_map.mpr ⟨_, member, rfl⟩, same⟩

theorem cancel_mem_requests {msgs : List Request} {cancel : CancelOrder} :
    .cancel s cancel ∈ msgs.map (requestOp s) ↔ .cancelOrder cancel ∈ msgs := by
  constructor
  · intro member
    obtain ⟨msg, listed, op⟩ := List.mem_map.mp member
    cases msg with
    | newOrder _ => cases op
    | modifyOrder _ => cases op
    | cancelOrder sent =>
      obtain rfl := (Op.cancel.inj op).2
      exact listed
  · exact fun member => List.mem_map.mpr ⟨_, member, rfl⟩

section

variable (agreed : Agreed cfg s symbolOf om a up Down)
include agreed

theorem Agreed.mono (fewer : ∀ msg, Down' msg → Down msg) : Agreed cfg s symbolOf om a up Down' :=
  { agreed with final := fun msg down => agreed.final msg (fewer msg down) }

theorem Agreed.of_same (core : a'.core = a.core) (owner : a'.owner = a.owner) :
    Agreed cfg s symbolOf om a' up Down := by
  obtain ⟨_, _, _⟩ := a
  obtain ⟨_, _, _⟩ := a'
  dsimp only at core owner
  subst core owner
  obtain ⟨session, ok, ⟨healthy, mirror, drained⟩, tracked, mine, submits, cancels, ordered, resting, covered, final⟩ :=
    agreed
  exact ⟨session, ok, ⟨healthy, mirror, drained⟩, tracked, mine, submits, cancels, ordered, resting, covered, final⟩

/-! ### Calls of the order manager -/

/-- Messages other than new orders go up; what leaves the tracking is over or is being cancelled. -/
theorem Agreed.send {op : Oms.Op} {sent : List Request} (ok : om'.Ok cfg)
    (sending : Sheds.Sending om om' op sent)
    (dropped : ∀ id ∈ op.drops, (∀ i, ¬ a.HasOrder (s, id) i) ∧ ¬ Submits s up id) :
    Agreed cfg s symbolOf om' a (up ++ sent.map (requestOp s)) Down := by
  obtain ⟨sheds, cancels, orders⟩ := sending
  have next := sheds.next
  have none_new : ∀ id, ¬ Submits s (sent.map (requestOp s)) id := by
    intro id new
    obtain ⟨order, member, _⟩ := submits_request.mp new
    exact orders order member
  have submits : ∀ id, Submits s (up ++ sent.map (requestOp s)) id ↔ Submits s up id := by
    intro id
    rw [submits_append, or_iff_left (none_new id)]
  refine ⟨agreed.session, ok, agreed.sound, ?_, ?_, ?_, ?_, ?_, ?_, ?_, ?_⟩
  · intro id info found
    rw [next]
    exact agreed.tracked id info (sheds.old.content agreed.ok.map ok.map found)
  · intro op member
    rcases List.mem_append.mp member with old | new
    · exact agreed.mine op old
    · obtain ⟨msg, _, same⟩ := List.mem_map.mp new
      exact ⟨msg, same.symm⟩
  · intro order member
    rw [next]
    rcases List.mem_append.mp member with old | new
    · exact agreed.submits order old
    · exact absurd ⟨order, new, rfl⟩ (none_new order.clientOrderId)
  · intro cancel member
    rw [next]
    rcases List.mem_append.mp member with old | new
    · exact agreed.cancels cancel old
    · obtain ⟨info, found, symbol⟩ := cancels cancel (cancel_mem_requests.mp new)
      obtain ⟨bound, same⟩ := agreed.tracked _ info found
      exact ⟨bound, symbol.trans same⟩
  · have after : ∀ first, ∀ later ∈ sent.map (requestOp s), Follows s first later := by
      intro first later member id ⟨order, same, _⟩
      cases List.mem_singleton.mp same
      exact absurd ⟨order, member, rfl⟩ (none_new order.clientOrderId)
    refine List.pairwise_append.mpr ⟨agreed.ordered, ?_, fun first _ later member => after first later member⟩
    exact List.Pairwise.imp_of_mem (fun _ member _ => after _ _ member) (List.pairwise_of_forall fun _ _ => trivial)
  · intro id i has
    rw [next, submits]
    exact agreed.resting id i has
  · intro id live
    rw [submits] at live
    rw [cancels_append]
    rcases agreed.covered id live with tracked | cancelled
    · obtain ⟨info, found⟩ := Option.isSome_iff_exists.mp tracked
      by_cases gone : id ∈ op.drops ∨ ∃ cancel, .cancelOrder cancel ∈ sent ∧ cancel.clientOrderId = id
      · rcases gone with drops | ⟨cancel, member, same⟩
        · obtain ⟨unheld, unsent⟩ := dropped id drops
          exact absurd live (not_or.mpr ⟨fun ⟨i, has⟩ => unheld i has, unsent⟩)
        · exact .inr (.inr ⟨cancel, cancel_mem_requests.mpr member, same⟩)
      · exact .inl (by rw [sheds.kept id info found gone]; rfl)
    · exact .inr (.inl cancelled)
  · intro msg down id drops
    rw [next, submits]
    exact agreed.final msg down id drops

theorem Agreed.skip (ok : om'.Ok cfg) (next : om.nextOrderId ≤ om'.nextOrderId)
    (same : om'.outstanding = om.outstanding) : Agreed cfg s symbolOf om' a up Down where
  session := agreed.session
  ok := ok
  sound := agreed.sound
  tracked := fun id info found => (agreed.tracked id info (same ▸ found)).imp_left (Nat.lt_of_lt_of_le · next)
  mine := agreed.mine
  submits := fun order member => (agreed.submits order member).imp_left (Nat.lt_of_lt_of_le · next)
  cancels := fun cancel member => (agreed.cancels cancel member).imp_left (Nat.lt_of_lt_of_le · next)
  ordered := agreed.ordered
  resting := fun id i has => (agreed.resting id i has).imp_left (Nat.lt_of_lt_of_le · next)
  covered := fun id live => same ▸ agreed.covered id live
  final := fun msg down id drops => (agreed.final msg down id drops).imp_left (Nat.lt_of_lt_of_le · next)

theorem Agreed.order (ok : om'.Ok cfg) {out : NewOrder} {info : OrderInfo}
    (id : out.clientOrderId = om.nextOrderId) (next : om'.nextOrderId = om.nextOrderId + 1)
    (symbol : info.symbolId = out.symbolId)
    (entered : om'.outstanding.content = update om.outstanding.content om.nextOrderId (some info)) :
    Agreed cfg s (update symbolOf om.nextOrderId out.symbolId) om' a (up ++ [.submit s out]) Down := by
  have older : ∀ {id : Nat}, id < om.nextOrderId → id ≠ om.nextOrderId := fun bound => Nat.ne_of_lt bound
  have fresh : ∀ n, Submits s [.submit s out] n ↔ n = om.nextOrderId := by
    intro n
    simp [Submits, id, eq_comm]
  refine ⟨agreed.session, ok, agreed.sound, ?_, ?_, ?_, ?_, ?_, ?_, ?_, ?_⟩
  · intro n found present
    rw [next]
    by_cases new : n = om.nextOrderId
    · subst new
      rw [entered, update_self] at present
      cases present
      exact ⟨Nat.lt_succ_self _, by rw [update_self, symbol]⟩
    · rw [entered, update_of_ne new] at present
      obtain ⟨bound, same⟩ := agreed.tracked n found present
      exact ⟨Nat.lt_succ_of_lt bound, by rw [update_of_ne new, same]⟩
  · intro op member
    rcases List.mem_append.mp member with old | new
    · exact agreed.mine op old
    · exact ⟨.newOrder out, List.mem_singleton.mp new⟩
  · intro order member
    rw [next]
    rcases List.mem_append.mp member with old | new
    · obtain ⟨bound, same⟩ := agreed.submits order old
      exact ⟨Nat.lt_succ_of_lt bound, by rw [update_of_ne (older bound), same]⟩
    · obtain rfl := (Op.submit.inj (List.mem_singleton.mp new)).2
      exact ⟨by rw [id]; exact Nat.lt_succ_self _, by rw [id, update_self]⟩
  · intro cancel member
    rw [next]
    rcases List.mem_append.mp member with old | new
    · obtain ⟨bound, same⟩ := agreed.cancels cancel old
      exact ⟨Nat.lt_succ_of_lt bound, by rw [update_of_ne (older bound), same]⟩
    · cases List.mem_singleton.mp new
  · refine List.pairwise_append.mpr ⟨agreed.ordered, List.pairwise_singleton _ _, ?_⟩
    intro first member later new n submits
    cases List.mem_singleton.mp new
    obtain rfl := (fresh n).mp submits
    constructor
    · rintro ⟨order, here, same⟩
      cases List.mem_singleton.mp here
      exact older (agreed.submits order member).1 same
    · rintro ⟨cancel, here, same⟩
      cases List.mem_singleton.mp here
      exact older (agreed.cancels cancel member).1 same
  · intro n i has
    obtain ⟨bound, same, unsent⟩ := agreed.resting n i has
    rw [next, update_of_ne (older bound), submits_append, fresh]
    exact ⟨Nat.lt_succ_of_lt bound, same, not_or.mpr ⟨unsent, older bound⟩⟩
  · intro n live
    rw [submits_append, fresh, ← or_assoc] at live
    rw [cancels_append, entered]
    by_cases new : n = om.nextOrderId
    · exact .inl (by rw [new, update_self]; rfl)
    · rw [update_of_ne new]
      exact (agreed.covered n (live.resolve_right new)).imp_right .inl
  · intro msg down n drops
    obtain ⟨bound, unheld, unsent⟩ := agreed.final msg down n drops
    rw [next, submits_append, fresh]
    exact ⟨Nat.lt_succ_of_lt bound, unheld, not_or.mpr ⟨unsent, older bound⟩⟩

end

/-! ### The exchange -/

/-- A submission is throttled, or a modify is; a throttled submission is the last of its id. -/
theorem Agreed.throttle {pre post : List Exchange.Op} {op : Exchange.Op}
    (agreed : Agreed cfg s symbolOf om a (pre ++ op :: post) Down) (stays : ∀ cancel, op ≠ .cancel s cancel)
    (told : ∀ msg, Down' msg → Down msg ∨ ∀ id ∈ (onTcpMessage msg).drops, op.key = some (s, id)) :
    Agreed cfg s symbolOf om a (pre ++ post) Down' := by
  have fewer : (pre ++ post).Sublist (pre ++ op :: post) := (List.sublist_cons_self op post).append_left pre
  have submits : ∀ {id : Nat}, Submits s (pre ++ post) id → Submits s (pre ++ op :: post) id :=
    fun sent => submits_subset (fun _ member => fewer.subset member) sent
  refine ⟨agreed.session, agreed.ok, agreed.sound, agreed.tracked, fun other member =>
    agreed.mine other (fewer.subset member),
    fun order member => agreed.submits order (fewer.subset member), fun cancel member =>
      agreed.cancels cancel (fewer.subset member),
    agreed.ordered.sublist fewer, ?_, ?_, ?_⟩
  · intro id i has
    obtain ⟨bound, symbol, unsent⟩ := agreed.resting id i has
    exact ⟨bound, symbol, fun sent => unsent (submits sent)⟩
  · intro id live
    refine (agreed.covered id (live.imp_right submits)).imp_right ?_
    rintro ⟨cancel, member, same⟩
    refine ⟨cancel, ?_, same⟩
    simp only [List.mem_append, List.mem_cons] at member ⊢
    exact member.imp_right fun later => later.resolve_left (stays cancel).symm
  · intro msg down id drops
    rcases told msg down with old | key
    · obtain ⟨bound, unheld, unsent⟩ := agreed.final msg old id drops
      exact ⟨bound, unheld, fun sent => unsent (submits sent)⟩
    have here : op ∈ pre ++ op :: post := by simp
    have named := key id drops
    obtain ⟨request, rfl⟩ := agreed.mine op here
    cases request with
    | newOrder order =>
      obtain rfl : order.clientOrderId = id := (Prod.mk.inj (Option.some.inj named)).2
      refine ⟨(agreed.submits order here).1, fun i has => (agreed.resting _ i has).2.2 ⟨order, here, rfl⟩, ?_⟩
      -- Nothing before the submission and nothing behind it submits the same id.
      obtain ⟨_, behind, before⟩ := List.pairwise_append.mp agreed.ordered
      rintro ⟨other, member, same⟩
      rcases List.mem_append.mp member with first | later
      · exact (before _ first _ List.mem_cons_self _ ⟨order, List.mem_singleton_self _, rfl⟩).1
          ⟨other, List.mem_singleton_self _, same⟩
      · exact ((List.pairwise_cons.mp behind).1 _ later _ ⟨other, List.mem_singleton_self _, same⟩).1
          ⟨order, List.mem_singleton_self _, rfl⟩
    | modifyOrder modify => cases named
    | cancelOrder cancel => exact absurd rfl (stays cancel)

theorem serializeOneEvent_drops {event : ExchangeEvent} {msg : ExchangeMessage}
    (serialized : serializeOneEvent event = some msg) (drops : id ∈ (onTcpMessage msg).drops) :
    event.isFinal = true ∧ event.clientOrderId = id := by
  unfold serializeOneEvent at serialized
  unfold ExchangeEvent.isFinal
  split at serialized <;> rename_i type <;> rw [type] <;> try cases serialized
  all_goals simp [onTcpMessage, Oms.Op.drops, Oms.Op.ends] at drops
  all_goals simp [drops]

theorem Agreed.serve {op : Exchange.Op} {core : ExchangeCore maxSymbols} (agreed : Agreed cfg s symbolOf om a up Down)
    (room : IdRoom a.core op) (applied : a.core.apply op = some core) (stepped : a.step op = some a')
    (head : up = op :: rest ∨ (up = rest ∧ sessionOf op ≠ some s))
    (told : ∀ msg, Down' msg → Down msg ∨ ∃ event ∈ core.events, event.sessionId = s ∧
      serializeOneEvent event = some msg) :
    Agreed cfg s symbolOf om a' rest Down' := by
  have own : sessionOf op = some s → up = op :: rest := fun mine => head.resolve_right fun other => other.2 mine
  have fewer : rest.Sublist up := by
    rcases head with rfl | ⟨rfl, _⟩
    · exact List.sublist_cons_self op rest
    · exact List.Sublist.refl up
  have submits : ∀ {id : Nat}, Submits s rest id → Submits s up id :=
    fun sent => submits_subset (fun _ member => fewer.subset member) sent
  have first : ∀ {id : Nat}, up = op :: rest → Submits s [op] id ∨ Cancels s [op] id → ¬ Submits s rest id := by
    rintro id rfl names ⟨order, later, same⟩
    obtain ⟨unsent, uncancelled⟩ :=
      (List.pairwise_cons.mp agreed.ordered).1 _ later id ⟨order, List.mem_singleton_self _, same⟩
    exact names.elim unsent uncancelled
  have submitted : ∀ order, op = .submit s order → .submit s order ∈ up ∧ ¬ Submits s rest order.clientOrderId := by
    rintro order rfl
    have here := own rfl
    exact ⟨here ▸ List.mem_cons_self, first here (.inl ⟨order, List.mem_singleton_self _, rfl⟩)⟩
  have cancelled : ∀ cancel, op = .cancel s cancel → .cancel s cancel ∈ up ∧ ¬ Submits s rest cancel.clientOrderId ∧
      ∀ i, a.HasOrder (s, cancel.clientOrderId) i → cancel.symbolId = i + 1 := by
    rintro cancel rfl
    have here := own rfl
    have member : .cancel s cancel ∈ up := here ▸ List.mem_cons_self
    refine ⟨member, first here (.inr ⟨cancel, List.mem_singleton_self _, rfl⟩), fun i has => ?_⟩
    rw [(agreed.cancels cancel member).2, (agreed.resting _ i has).2.1]
  have before : ∀ {id i : Nat}, a'.HasOrder (s, id) i → a.HasOrder (s, id) i ∨
      ∃ order, op = .submit s order ∧ order.clientOrderId = id ∧ order.symbolId = i + 1 := by
    intro id i has
    rcases step_hasOrder agreed.sound room stepped has with old | ⟨session, order, rfl, key, symbol⟩
    · exact .inl old
    · cases key
      exact .inr ⟨order, rfl, rfl, symbol⟩
  have live : ∀ {id : Nat}, (∃ i, a'.HasOrder (s, id) i) ∨ Submits s rest id → (∃ i, a.HasOrder (s, id) i) ∨
      Submits s up id := by
    rintro id (⟨i, has⟩ | sent)
    · rcases before has with old | ⟨order, rfl, same, _⟩
      · exact .inl ⟨i, old⟩
      · exact .inr ⟨order, (submitted order rfl).1, same⟩
    · exact .inr (submits sent)
  refine ⟨agreed.session, agreed.ok, agreed.sound.step room stepped, agreed.tracked,
    fun other member => agreed.mine other (fewer.subset member), fun order member =>
      agreed.submits order (fewer.subset member),
    fun cancel member => agreed.cancels cancel (fewer.subset member), agreed.ordered.sublist fewer, ?_, ?_, ?_⟩
  · intro id i has
    rcases before has with old | ⟨order, new, rfl, symbol⟩
    · obtain ⟨bound, same, unsent⟩ := agreed.resting id i old
      exact ⟨bound, same, fun sent => unsent (submits sent)⟩
    · obtain ⟨member, last⟩ := submitted order new
      obtain ⟨bound, same⟩ := agreed.submits order member
      exact ⟨bound, same.symm.trans symbol, last⟩
  · intro id after
    rcases agreed.covered id (live after) with tracked | ⟨cancel, member, same⟩
    · exact .inl tracked
    -- The cancel is still on its way, or it was served and nothing of the order is left.
    rcases head with rfl | ⟨rfl, _⟩
    · rcases List.mem_cons.mp member with served | later
      · obtain ⟨_, last, located⟩ := cancelled cancel served.symm
        subst served same
        refine absurd after (not_or.mpr ⟨?_, last⟩)
        rintro ⟨i, has⟩
        exact step_cancel_gone agreed.sound located stepped i has
      · exact .inr ⟨cancel, later, same⟩
    · exact .inr ⟨cancel, member, same⟩
  · intro msg down id drops
    rcases told msg down with old | ⟨event, emitted, session, serialized⟩
    · obtain ⟨bound, unheld, unsent⟩ := agreed.final msg old id drops
      have past : ¬ ((∃ i, a'.HasOrder (s, id) i) ∨ Submits s rest id) := by
        intro after
        exact (live after).elim (fun ⟨i, has⟩ => unheld i has) unsent
      exact ⟨bound, fun i has => past (.inl ⟨i, has⟩), fun sent => past (.inr sent)⟩
    obtain ⟨final, client⟩ := serializeOneEvent_drops serialized drops
    have mine : addressee event = (s, id) := by rw [addressee, session, client]
    have ends := step_final agreed.sound room applied stepped ?_ ?_ emitted final
    · rw [mine] at ends
      obtain ⟨whose, gone⟩ := ends
      rcases whose with key | ⟨i, has⟩
      · cases op with
        | submit sessionId order =>
          cases key
          obtain ⟨member, last⟩ := submitted order rfl
          exact ⟨(agreed.submits order member).1, gone, last⟩
        | cancel sessionId cancel =>
          cases key
          obtain ⟨member, last, _⟩ := cancelled cancel rfl
          exact ⟨(agreed.cancels cancel member).1, gone, last⟩
        | modify _ _ => cases key
        | connect => cases key
        | disconnect _ => cases key
      · obtain ⟨bound, _, unsent⟩ := agreed.resting id i has
        exact ⟨bound, gone, fun sent => unsent (submits sent)⟩
    · rintro sessionId order i rfl here has
      obtain ⟨rfl, _⟩ := Prod.mk.inj (mine.symm.trans here)
      exact (agreed.resting _ i has).2.2 ⟨order, (submitted order rfl).1, rfl⟩
    · rintro sessionId cancel i rfl here has
      obtain ⟨rfl, _⟩ := Prod.mk.inj (mine.symm.trans here)
      exact (cancelled cancel rfl).2.2 i has

end Agreed

end TickToTrade.EndToEnd
