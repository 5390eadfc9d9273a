import TickToTrade.Algo.QueueOrder
import TickToTrade.Exchange.CallFrames
import TickToTrade.Exchange.Routing

/-!
Sessions and symbols do not disturb each other. It rests on exchange ids that are in use only once,
which `cancel_order` and `modify_order` do not check.
-/

namespace TickToTrade.Exchange
open Algo Ds Probing PriceTime ExchangeCore Option

def Op.actor : Op → Option UInt16
  | .disconnect sessionId | .cancel sessionId _ | .modify sessionId _ => some sessionId
  | _ => none

def Op.symbolId : Op → Option Nat
  | .submit _ order => some order.symbolId
  | .cancel _ order => some order.symbolId
  | .modify _ order => some order.symbolId
  | _ => none

variable {maxSymbols : Nat} {core core' core₁ : ExchangeCore maxSymbols} {a a' : Audited maxSymbols} {op : Op}
  {sessionId : UInt16}

def filledBy (core : ExchangeCore maxSymbols) : Op → List Nat
  | .modify sessionId modify => (core.modifyFills sessionId modify).map Fill.makerId
  | _ => []

/-- The orders of one side that belong to other sessions and are not among `filled`, as they trade. -/
def foreignOrders (a : Audited maxSymbols) (sessionId : UInt16) (filled : List Nat) (i : Nat) (s : Side) :
    List (Int × Resting) :=
  (makers ((a.core.bookOf i).levels s)).filter fun entry =>
    (a.owner entry.2.id).any (fun owner => owner.1 ≠ sessionId) && entry.2.id ∉ filled

/-- `core'` is as `a` for everybody but `sessionId` and the owners of the orders in `filled`. -/
structure Isolated (a : Audited maxSymbols) (sessionId : UInt16) (filled : List Nat) (core' : ExchangeCore maxSymbols) :
    Prop where
  queues : ∀ i s, i < maxSymbols → (a.core.symbols i).active = true →
    (makers ((core'.bookOf i).levels s)).filter
        (fun entry => entry.2.id ∈ (foreignOrders a sessionId filled i s).map fun entry => entry.2.id) =
      foreignOrders a sessionId filled i s
  idMap : ∀ other id, other ≠ sessionId → id ≤ kMaxClientOrderId →
    (∀ entry, a.core.idMap.find (makeCompositeKey other id) = some (some entry) → entry.exchangeId ∉ filled) →
    core'.idMap.find (makeCompositeKey other id) = a.core.idMap.find (makeCompositeKey other id)
  reverseIdMap : ∀ x reverse, a.core.reverseIdMap.find x = some (some reverse) → reverse.sessionId ≠ sessionId →
    x ∉ filled → core'.reverseIdMap.find x = some (some reverse)
  seen : ∀ other id, other ≠ sessionId → id ≤ kMaxClientOrderId →
    core'.seenOrders.find (makeCompositeKey other id) = a.core.seenOrders.find (makeCompositeKey other id)

/-! ### Queues -/

def foreignId (a : Audited maxSymbols) (sessionId : UInt16) (filled : List Nat) (i : Nat) (s : Side) (x : Nat) : Bool :=
  x ∈ (foreignOrders a sessionId filled i s).map fun entry => entry.2.id

variable {filled : List Nat} {i : Nat} {s : Side} {x : Nat}

theorem foreignId_spec (on : foreignId a sessionId filled i s x = true) :
    (∃ p q, (a.core.bookOf i).Rests s p x q) ∧ (a.owner x).any (fun owner => owner.1 ≠ sessionId) = true ∧
    x ∉ filled := by
  rw [foreignId, decide_eq_true_eq] at on
  obtain ⟨⟨p, r⟩, member, rfl⟩ := List.mem_map.mp on
  obtain ⟨resting, foreign⟩ := List.mem_filter.mp member
  rw [Bool.and_eq_true, decide_eq_true_eq] at foreign
  exact ⟨⟨p, r.qty, resting⟩, foreign⟩

theorem kept_foreign (a : Audited maxSymbols) (sessionId : UInt16) (filled : List Nat) (i : Nat) (s : Side) :
    kept (foreignId a sessionId filled i s) ((a.core.bookOf i).levels s) = foreignOrders a sessionId filled i s := by
  rw [kept, foreignOrders]
  apply List.filter_congr
  intro entry member
  rw [Bool.eq_iff_iff]
  constructor
  · intro on
    have spec := foreignId_spec on
    rw [Bool.and_eq_true, decide_eq_true_eq]
    exact spec.2
  · intro foreign
    exact decide_eq_true (List.mem_map.mpr ⟨entry, List.mem_filter.mpr ⟨member, foreign⟩, rfl⟩)

/-- An order that `owner` gives to the acting session, or that is filled, is not foreign. -/
theorem foreignId_own {id : Nat} (own : a.owner x = some (sessionId, id)) :
    foreignId a sessionId filled i s x = false := by
  rw [Bool.eq_false_iff]
  intro on
  have foreign := (foreignId_spec on).2.1
  simp [own] at foreign

theorem foreignId_filled (member : x ∈ filled) : foreignId a sessionId filled i s x = false := by
  rw [Bool.eq_false_iff]
  exact fun on => (foreignId_spec on).2.2 member

theorem foreignId_unused (unused : isLive (a.core.bookOf i).levels x = false) :
    foreignId a sessionId filled i s x = false := by
  rw [Bool.eq_false_iff]
  intro on
  obtain ⟨⟨p, q, resting⟩, _⟩ := foreignId_spec on
  rw [isLive_iff.mpr ⟨s, p, q, resting⟩] at unused
  cases unused

/-! ### Whose orders a request can name -/

variable {entry : IdEntry}

theorem Audited.Sound.owned_entry (sound : a.Sound) {id : Nat} (bound : id ≤ kMaxClientOrderId)
    (found : a.core.idMap.content (makeCompositeKey sessionId id) = some entry) :
    a.owner entry.exchangeId = some (sessionId, id) ∧ OfSession a.core sessionId entry.exchangeId := by
  obtain ⟨reverse, back, same, _, bound'⟩ := sound.healthy.paired.forth _ _ found
  obtain ⟨session, client⟩ := makeCompositeKey_inj bound' bound same
  refine ⟨?_, reverse, back, session⟩
  rw [sound.mirror.owned _ _ back, session, client]

theorem Audited.Sound.entry_of_other (sound : a.Sound) {other : UInt16} {id : Nat}
    (different : other ≠ sessionId) (bound : id ≤ kMaxClientOrderId)
    (found : a.core.idMap.content (makeCompositeKey other id) = some entry) :
    ¬ OfSession a.core sessionId entry.exchangeId := by
  intro ⟨reverse, back, mine⟩
  obtain ⟨reverse', back', same, _, bound'⟩ := sound.healthy.paired.forth _ _ found
  rw [back] at back'
  cases back'
  exact different ((makeCompositeKey_inj bound' bound same).1.symm.trans mine)

/-! ### Maps -/

theorem Audited.Sound.withdrawn_idMap (sound : a.Sound) {client : List ExchangeEvent} {Gone : Nat → Prop}
    (withdrawn : Withdrawn a.core core' client Gone) (mine : ∀ x, Gone x → OfSession a.core sessionId x)
    {other : UInt16} {id : Nat} (different : other ≠ sessionId) (bound : id ≤ kMaxClientOrderId) :
    core'.idMap.content (makeCompositeKey other id) = a.core.idMap.content (makeCompositeKey other id) := by
  apply ext
  intro entry
  rw [withdrawn.restricts.fwd_iff]
  refine ⟨And.left, fun found => ⟨found, fun gone => ?_⟩⟩
  exact sound.entry_of_other different bound found (mine _ gone)

theorem withdrawn_reverseIdMap {client : List ExchangeEvent} {Gone : Nat → Prop}
    (withdrawn : Withdrawn core core' client Gone) (mine : ∀ x, Gone x → OfSession core sessionId x)
    {reverse : ReverseIdEntry} (found : core.reverseIdMap.content x = some reverse)
    (different : reverse.sessionId ≠ sessionId) : core'.reverseIdMap.content x = some reverse := by
  rw [withdrawn.restricts.rev_iff]
  refine ⟨found, fun gone => ?_⟩
  obtain ⟨reverse', found', same⟩ := mine x gone
  rw [found] at found'
  cases found'
  exact different same

/-- The maps and the books are read through `find`, which is `content` on well-formed tables. -/
theorem Audited.Sound.isolated (sound : a.Sound) (maps : MapsOk core')
    (queues : ∀ i s, i < maxSymbols → (a.core.symbols i).active = true →
      kept (foreignId a sessionId filled i s) ((core'.bookOf i).levels s) =
        kept (foreignId a sessionId filled i s) ((a.core.bookOf i).levels s))
    (idMap : ∀ other id, other ≠ sessionId → id ≤ kMaxClientOrderId →
      (∀ entry, a.core.idMap.content (makeCompositeKey other id) = some entry → entry.exchangeId ∉ filled) →
      core'.idMap.content (makeCompositeKey other id) = a.core.idMap.content (makeCompositeKey other id))
    (reverseIdMap : ∀ x reverse, a.core.reverseIdMap.content x = some reverse → reverse.sessionId ≠ sessionId →
      x ∉ filled → core'.reverseIdMap.content x = some reverse)
    (seen : ∀ other id, other ≠ sessionId → id ≤ kMaxClientOrderId →
      core'.seenOrders.content (makeCompositeKey other id) = a.core.seenOrders.content (makeCompositeKey other id)) :
    Isolated a sessionId filled core' where
  queues := by
    intro i s bound active
    exact (queues i s bound active).trans (kept_foreign a sessionId filled i s)
  idMap := by
    simp only [FixedHashMap.find, sound.healthy.maps.id.find_eq, maps.id.find_eq, some.injEq]
    exact idMap
  reverseIdMap := by
    simp only [FixedHashMap.find, sound.healthy.maps.reverse.find_eq, maps.reverse.find_eq, some.injEq]
    exact reverseIdMap
  seen := by
    simp only [FixedHashMap.find, sound.healthy.maps.seen.find_eq, maps.seen.find_eq, some.injEq]
    exact seen

/-! ### The calls -/

variable {keep : Nat → Bool} {symbolId : Nat}

theorem ExchangeCore.Reached.kept_foreign {Call : MatchingEngine 64 → MatchingEngine 64 → Prop} {head : ExchangeEvent}
    (reached : Reached core symbolId Call core₁) (reported : Reported core₁ core' head)
    (called : ∀ e, core.symbolIndex symbolId = some i → Call (core.symbols i).engine e →
      kept keep (e.book.levels s) = kept keep ((core.bookOf i).levels s)) :
    kept keep ((core'.bookOf i).levels s) = kept keep ((core.bookOf i).levels s) := by
  have books : core'.bookOf i = core₁.bookOf i := by rw [bookOf, reported.frame, bookOf]
  rw [books]
  cases reached with
  | untouched => rfl
  | @called idx next engine known call =>
    by_cases here : i = idx
    · subst here
      have changed := called engine known call
      simpa [bookOf, setEngine] using changed
    · simp [bookOf, setEngine, here]

theorem Audited.Sound.cancel_isolated (sound : a.Sound) {cancel : CancelOrder}
    (done : a.core.cancelOrder sessionId cancel = some core') : Isolated a sessionId [] core' := by
  obtain ⟨head, core₁, _, reached, reported⟩ := cancelOrder_reported done
  have outcome := cancelOrder_effect sound.healthy sound.mirror sound.drained done
  obtain ⟨client, Gone, withdrawn, mine⟩ : ∃ client Gone, Withdrawn a.core core' client Gone ∧
      ∀ x, Gone x → OfSession a.core sessionId x := by
    rcases outcome with ⟨_, _, withdrawn⟩ | ⟨entry, bound, found, withdrawn⟩
    · exact ⟨_, _, withdrawn, fun _ => False.elim⟩
    · refine ⟨_, _, withdrawn, ?_⟩
      rintro x rfl
      exact (sound.owned_entry bound found).2
  have replied := reached.replied reported
  refine sound.isolated withdrawn.healthy.maps ?_
    (fun other id different bound _ => sound.withdrawn_idMap withdrawn mine different bound)
    (fun x reverse found different _ => withdrawn_reverseIdMap withdrawn mine found different) (by simp [replied.seen])
  intro i s bound active
  obtain ⟨params, book⟩ := sound.healthy.books i bound active
  refine reached.kept_foreign reported fun e known call => ?_
  obtain ⟨entry, cancelled, found, small, called⟩ := call
  exact cancelOrder_kept book called
    (foreignId_own (sound.owned_entry small (sound.healthy.maps.id.find_some found)).1) s

variable {modify : ModifyOrder}

theorem Audited.Sound.modify_isolated (sound : a.Sound) (room : ModifyRoom a.core sessionId modify)
    (done : a.core.modifyOrder sessionId modify = some core') :
    Isolated a sessionId ((a.core.modifyFills sessionId modify).map Fill.makerId) core' := by
  obtain ⟨head, core₁, _, reached, reported⟩ := modifyOrder_reported done
  have replied := reached.replied reported
  have queues : ∀ i s, i < maxSymbols → (a.core.symbols i).active = true →
      kept (foreignId a sessionId ((a.core.modifyFills sessionId modify).map Fill.makerId) i s)
        ((core'.bookOf i).levels s) =
        kept (foreignId a sessionId ((a.core.modifyFills sessionId modify).map Fill.makerId) i s)
          ((a.core.bookOf i).levels s) := by
    intro i s bound active
    obtain ⟨params, book⟩ := sound.healthy.books i bound active
    refine reached.kept_foreign reported fun e known call => ?_
    obtain ⟨entry, result, found, small, called⟩ := call
    have found := sound.healthy.maps.id.find_some found
    obtain ⟨fills, _⟩ := modifyFills_of_called small known found called
    refine modifyOrder_kept book called (foreignId_own (sound.owned_entry small found).1) foreignId_unused ?_ s
    intro fill member
    rw [fills]
    exact foreignId_filled (List.mem_map_of_mem member)
  rcases modifyOrder_effect sound.healthy sound.mirror sound.drained room done with
    ⟨_, _, withdrawn⟩ | ⟨idx, entry, result, e₁, engine, small, known, found, cancelled, submitted, exchanged⟩
  · exact sound.isolated withdrawn.healthy.maps queues
      (fun other id different bound _ => sound.withdrawn_idMap withdrawn (fun _ => False.elim) different bound)
      (fun x reverse found different _ => withdrawn_reverseIdMap withdrawn (fun _ => False.elim) found different)
      (by simp [replied.seen])
  have own := (sound.owned_entry small found).2
  have fills : a.core.modifyFills sessionId modify = result.fills := by
    have called : (a.core.symbols idx).engine.modifyOrder entry.exchangeId entry.side modify.newPrice modify.newQty
        a.core.nextExchangeId = some (⟨result.fills, result.remainingQty, result.rested, true⟩, engine) := by
      simp [MatchingEngine.modifyOrder, cancelled, submitted]
    exact (modifyFills_of_called small known found called).1
  have key : keyOf (modifyTaker sessionId modify entry.side a.core.nextExchangeId).reverse =
      makeCompositeKey sessionId modify.clientOrderId := rfl
  refine sound.isolated exchanged.healthy.maps queues ?_ ?_ (by simp [replied.seen])
  · intro other id different bound unfilled
    apply ext
    intro found'
    rw [exchanged.revised.fwd_iff, key]
    constructor
    · rintro (⟨old, _⟩ | ⟨_, same, _⟩)
      · exact old
      · exact absurd (makeCompositeKey_inj bound small same).1 different
    · intro old
      refine .inl ⟨old, ?_⟩
      rintro (same | used)
      · exact sound.entry_of_other different bound old (same ▸ own)
      · exact unfilled found' old (fills ▸ used.1)
  · intro x reverse old different unfilled
    rw [exchanged.revised.rev_iff]
    refine .inl ⟨old, ?_⟩
    rintro (same | used)
    · obtain ⟨reverse', back, mine⟩ := own
      rw [← same, old] at back
      cases back
      exact different mine
    · exact unfilled (fills ▸ used.1)

theorem cancelSession_kept {entries : List (Nat × IdEntry)} {keys : List Nat}
    (books : ∃ params, OrderBook.Sound params (core.bookOf i))
    (off : ∀ entry ∈ entries, extractSessionId entry.1 = sessionId → entry.2.symbolId - 1 = i →
      keep entry.2.exchangeId = false)
    (done : cancelSession sessionId entries core = some (keys, core')) :
    kept keep ((core'.bookOf i).levels s) = kept keep ((core.bookOf i).levels s) := by
  induction entries generalizing core keys with
  | nil =>
    cases done
    rfl
  | cons first rest ih =>
    obtain ⟨key, entry⟩ := first
    have later := fun entry member => off entry (List.mem_cons_of_mem _ member)
    unfold cancelSession at done
    split at done
    · rename_i mine
      obtain ⟨⟨_, engine⟩, cancelled, done⟩ := bind_eq_some_iff.mp done
      obtain ⟨⟨keys', core₁⟩, cancelledRest, done⟩ := bind_eq_some_iff.mp done
      cases done
      by_cases here : entry.symbolId - 1 = i
      · subst here
        obtain ⟨params, sound⟩ := books
        have sound' := cancelOrder_sound sound cancelled
        have first := cancelOrder_kept sound cancelled (off _ List.mem_cons_self mine rfl) s
        rw [ih ⟨params, by simpa [bookOf, setEngine] using sound'⟩ later cancelledRest]
        simpa [bookOf, setEngine] using first
      · rw [ih (by simpa [bookOf, setEngine, Ne.symm here] using books) later cancelledRest]
        simp [bookOf, setEngine, Ne.symm here]
    · exact ih books later done

theorem onClientDisconnect_kept (books : ∃ params, OrderBook.Sound params (core.bookOf i))
    (off : ∀ entry ∈ core.idMap.entries, extractSessionId entry.1 = sessionId → keep entry.2.exchangeId = false)
    (done : core.onClientDisconnect sessionId = some core') :
    kept keep ((core'.bookOf i).levels s) = kept keep ((core.bookOf i).levels s) := by
  unfold onClientDisconnect at done
  split at done
  · cases done
    rfl
  obtain ⟨⟨keys, core₁⟩, cancelled, done⟩ := bind_eq_some_iff.mp done
  obtain ⟨core₂, erased, forgotten⟩ := bind_eq_some_iff.mp done
  let core₀ : ExchangeCore maxSymbols :=
    { core with activeSessions := Function.update core.activeSessions sessionId false }
  have ended : ∃ params, OrderBook.Sound params (core₀.bookOf i) := books
  have first : kept keep ((core₁.bookOf i).levels s) = kept keep ((core₀.bookOf i).levels s) :=
    cancelSession_kept ended (fun entry member mine _ => off entry member mine) cancelled
  have frame := eraseSeen_frame forgotten
  rw [eraseMappings_frame erased] at frame
  have books' : core'.bookOf i = core₁.bookOf i := by rw [bookOf, frame, bookOf]
  rw [books']
  exact first

theorem Audited.Sound.disconnect_isolated (sound : a.Sound) (done : a.core.onClientDisconnect sessionId = some core') :
    Isolated a sessionId [] core' := by
  have withdrawn := onClientDisconnect_effect sound.healthy sound.mirror sound.drained done
  have mine : ∀ x, (sessionId ≠ 0 ∧ OfSession a.core sessionId x) → OfSession a.core sessionId x := fun _ => And.right
  refine sound.isolated withdrawn.healthy.maps ?_
    (fun other id different bound _ => sound.withdrawn_idMap withdrawn mine different bound)
    (fun x reverse found different _ => withdrawn_reverseIdMap withdrawn mine found different) ?_
  · intro i s bound active
    refine onClientDisconnect_kept (sound.healthy.books i bound active) ?_ done
    intro ⟨key, entry⟩ member own
    have found := sound.healthy.maps.id.content_eq_some.mpr member
    obtain ⟨reverse, back, same, _, small⟩ := sound.healthy.paired.forth _ _ found
    rw [← same, keyOf, extractSessionId_key _ small] at own
    exact foreignId_own (own ▸ sound.mirror.owned _ _ back)
  · intro other id different bound
    by_cases named : sessionId = 0
    · subst named
      cases done
      rfl
    · obtain ⟨_, _, _, content⟩ := onClientDisconnect_seen sound.healthy.maps.seen named done
      rw [content, extractSessionId_key _ bound, if_neg different]

theorem ExchangeCore.Reached.elsewhere {Call : MatchingEngine 64 → MatchingEngine 64 → Prop} {head : ExchangeEvent}
    (reached : Reached core symbolId Call core₁) (reported : Reported core₁ core' head) (other : i + 1 ≠ symbolId) :
    core'.bookOf i = core.bookOf i := by
  rw [bookOf, reported.frame]
  cases reached with
  | untouched => rfl
  | called known _ =>
    have named := (symbolIndex_eq_some known).1
    have different : i ≠ _ := fun same => other (by rw [same]; exact named.symm)
    simp [bookOf, setEngine, different]

theorem apply_elsewhere (ok : Table.WellFormed DefaultHash.hash core.seenOrders)
    (applied : core.apply op = some core') (named : op.symbolId = some symbolId) (other : i + 1 ≠ symbolId) :
    core'.bookOf i = core.bookOf i := by
  cases op with
  | submit sessionId order =>
    cases named
    cases submitOrder_submitted ok applied with
    | refused head reported _ _ => rw [bookOf, reported.frame, bookOf]
    | noted head seen core₁ _ _ _ reached reported _ _ => exact reached.elsewhere reported other
  | cancel sessionId cancel =>
    cases named
    obtain ⟨_, _, _, reached, reported⟩ := cancelOrder_reported applied
    exact reached.elsewhere reported other
  | modify sessionId modify =>
    cases named
    obtain ⟨_, _, _, reached, reported⟩ := modifyOrder_reported applied
    exact reached.elsewhere reported other
  | connect => cases named
  | disconnect => cases named

/-- Every call of a run in which the id maps take what comes to rest leaves other sessions and other
symbols alone. -/
theorem run_isolated {symbols : List (Nat × Params)} (registered : registerAll symbols {} = some core) {ops : List Op}
    (room : IdRoomRun { core } ops) (ran : Audited.run ops { core } = some a) (next : IdRoom a.core op)
    (applied : a.core.apply op = some core') :
    (∀ sessionId, op.actor = some sessionId → Isolated a sessionId (filledBy a.core op) core') ∧
    ∀ symbolId i, op.symbolId = some symbolId → i + 1 ≠ symbolId → core'.bookOf i = a.core.bookOf i := by
  have sound := (fresh_initial.registerAll registered).sound.run room ran
  refine ⟨fun sessionId acts => ?_, fun symbolId i named other =>
    apply_elsewhere sound.healthy.maps.seen applied named other⟩
  cases op with
  | disconnect sessionId' =>
    cases acts
    exact sound.disconnect_isolated applied
  | cancel sessionId' cancel =>
    cases acts
    exact sound.cancel_isolated applied
  | modify sessionId' modify =>
    cases acts
    exact sound.modify_isolated next applied
  | connect => cases acts
  | submit => cases acts

def twinParams : List (Nat × Params) := [(1, tinyParams), (2, tinyParams)]

def twinCore : ExchangeCore 2 := (registerAll twinParams {}).get (by decide)

theorem registerAll_twinCore : registerAll twinParams {} = some twinCore := (some_get _).symm

def twinOps : List Op := [.connect, .connect, .submit 1 ⟨1, 1, .kBid, 100, 5, 0⟩, .submit 2 ⟨1, 2, .kBid, 100, 5, 0⟩]

/-- The second session names the symbol of the first with its own client order id, and is refused. -/
theorem run_isolated_twin : ∃ (a : Audited 2) (core' : ExchangeCore 2), registerAll twinParams {} = some twinCore ∧
    IdRoomRun { core := twinCore } twinOps ∧ Audited.run twinOps { core := twinCore } = some a ∧
    a.core.apply (.cancel 2 ⟨1, 1, 0⟩) = some core' ∧ Isolated a 2 [] core' := by
  have room : IdRoomRun { core := twinCore } twinOps := by decide +kernel
  obtain ⟨a, ran, returns⟩ : ∃ a, Audited.run twinOps { core := twinCore } = some a ∧
      (a.core.apply (.cancel 2 ⟨1, 1, 0⟩)).isSome = true := by decide +kernel
  obtain ⟨core', applied⟩ := isSome_iff_exists.mp returns
  exact ⟨a, core', registerAll_twinCore, room, ran, applied,
    (run_isolated registerAll_twinCore room ran (by trivial) applied).1 2 rfl⟩

/-! ### Exchange ids that come round -/

def Audited.withNext (a : Audited maxSymbols) (next : Nat) : Audited maxSymbols :=
  { a with core := { a.core with nextExchangeId := next } }

def modifyNotFound (sessionId : UInt16) (modify : ModifyOrder) : ExchangeEvent where
  type := .kModifyRejected
  sessionId := sessionId
  clientOrderId := modify.clientOrderId
  sendTs := modify.sendTs
  reason := .kOrderNotFound

/-- A modify that names the wrong symbol uses up an exchange id and changes nothing else. -/
theorem modify_wrong_symbol {idx : Nat} (drained : a.core.events = [])
    (small : modify.clientOrderId ≤ kMaxClientOrderId) (known : a.core.symbolIndex modify.symbolId = some idx)
    (found : a.core.idMap.find (makeCompositeKey sessionId modify.clientOrderId) = some (some entry))
    (missing : (a.core.bookOf idx).orderMap.find entry.exchangeId = some none) (next : Nat) :
    (a.withNext next).step (.modify sessionId modify) = some (a.withNext ((next + 1) % 2 ^ 64)) := by
  have refused : (a.core.symbols idx).engine.modifyOrder entry.exchangeId entry.side modify.newPrice
      modify.newQty next = some (⟨[], 0, false, false⟩, (a.core.symbols idx).engine) := by
    have unfound : (a.core.symbols idx).engine.book.orderMap.find entry.exchangeId = some none := missing
    simp [MatchingEngine.modifyOrder, MatchingEngine.cancelOrder, OrderBook.cancelOrder, unfound]
  let after : ExchangeCore maxSymbols :=
    { a.core with nextExchangeId := (next + 1) % 2 ^ 64, events := [modifyNotFound sessionId modify] }
  have applied : (a.withNext next).core.apply (.modify sessionId modify) = some after := by
    have known' : (a.withNext next).core.symbolIndex modify.symbolId = some idx := known
    unfold ExchangeCore.apply ExchangeCore.modifyOrder
    simp only [known', Nat.not_lt.mpr small, if_false]
    simp [Audited.withNext, found, takeExchangeId, refused, setEngine, emit, drained, kMaxEvents, after, modifyNotFound]
  have held : ∀ x, after.inBooks x = (a.withNext next).core.inBooks x := fun _ => rfl
  have owners : (fun x => if after.inBooks x && !(a.withNext next).core.inBooks x then
      Op.request (.modify sessionId modify) else (a.withNext next).owner x) = a.owner := by
    funext x
    rw [held, Bool.and_not_self]
    rfl
  unfold Audited.step
  rw [applied]
  simp only [bind_eq_bind, bind_some, drainEvents, Option.pure_def, some.injEq]
  rw [owners, Audited.withNext, drained.symm]
  rfl

theorem run_wrong_symbol {idx : Nat} (drained : a.core.events = [])
    (small : modify.clientOrderId ≤ kMaxClientOrderId) (known : a.core.symbolIndex modify.symbolId = some idx)
    (found : a.core.idMap.find (makeCompositeKey sessionId modify.clientOrderId) = some (some entry))
    (missing : (a.core.bookOf idx).orderMap.find entry.exchangeId = some none) (n : Nat) {next : Nat}
    (word : next < 2 ^ 64) : Audited.run (List.replicate n (.modify sessionId modify)) (a.withNext next) =
    some (a.withNext ((next + n) % 2 ^ 64)) := by
  induction n generalizing next with
  | zero => rw [Nat.add_zero, Nat.mod_eq_of_lt word]; rfl
  | succ n ih =>
    have rest := ih (Nat.mod_lt (next + 1) (by decide))
    rw [Nat.mod_add_mod, Nat.add_right_comm, Nat.add_assoc] at rest
    exact Transition.run_cons (modify_wrong_symbol drained small known found missing next) rest

def Twin (a : Audited 2) : Prop :=
  a.core.nextExchangeId = 3 ∧ a.core.events = [] ∧ a.core.symbolIndex 1 = some 0 ∧
    a.core.idMap.find (makeCompositeKey 2 1) = some (some ⟨2, .kBid, 2⟩) ∧ (a.core.bookOf 0).orderMap.find 2 = some none
  deriving Decidable

/-- Session 2 names the wrong symbol until the exchange ids come round to 1, gets that id for an order of
its own on symbol 2, and cancels this order naming symbol 1. The order of session 1 is gone. -/
def strayOps : List Op :=
  twinOps ++ List.replicate (2 ^ 64 - 2) (.modify 2 ⟨1, 1, 100, 5, 0⟩) ++ [.submit 2 ⟨2, 2, .kBid, 100, 5, 0⟩]

theorem run_not_isolated : ∃ (a : Audited 2) (core' : ExchangeCore 2), registerAll twinParams {} = some twinCore ∧
    Audited.run strayOps { core := twinCore } = some a ∧ a.core.apply (.cancel 2 ⟨2, 1, 0⟩) = some core' ∧
    ¬ Isolated a 2 (filledBy a.core (.cancel 2 ⟨2, 1, 0⟩)) core' := by
  obtain ⟨a₀, first, ⟨next, drained, known, found, missing⟩, a, submitted, core', applied, active, foreign, left⟩ :
      ∃ a₀, Audited.run twinOps { core := twinCore } = some a₀ ∧ Twin a₀ ∧
      ∃ a, Audited.run [.submit 2 ⟨2, 2, .kBid, 100, 5, 0⟩] (a₀.withNext 1) = some a ∧
      ∃ core', a.core.apply (.cancel 2 ⟨2, 1, 0⟩) = some core' ∧ (a.core.symbols 0).active = true ∧
        foreignOrders a 2 [] 0 .kBid = [(100, ⟨1, 5⟩)] ∧ makers ((core'.bookOf 0).levels .kBid) = [] := by
    decide +kernel
  have round : Audited.run (List.replicate (2 ^ 64 - 2) (.modify 2 ⟨1, 1, 100, 5, 0⟩)) (a₀.withNext 3) =
      some (a₀.withNext 1) :=
    run_wrong_symbol drained (by decide) known found missing (2 ^ 64 - 2) (by decide)
  have same : a₀.withNext 3 = a₀ := by rw [← next]; rfl
  rw [same] at round
  refine ⟨a, core', registerAll_twinCore, ?_, applied, fun isolated => ?_⟩
  · exact Transition.run_append (Transition.run_append first round) submitted
  · have queues := isolated.queues 0 .kBid (by decide) active
    simp only [filledBy, foreign, left] at queues
    cases queues

end TickToTrade.Exchange
