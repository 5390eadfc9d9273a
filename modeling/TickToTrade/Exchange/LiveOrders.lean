import TickToTrade.Exchange.IdMapRuns

/-! What a client knows of its orders from its events, against what rests in the books. -/

namespace TickToTrade.Exchange
open Algo Ds Probing PairedMaps ExchangeCore List Option Function
open PriceTime (filledQty makers walk)

variable {maxSymbols : Nat} {core core' : ExchangeCore maxSymbols} {a a' : Audited maxSymbols}

/-! ### Reading events -/

variable {reverse : ReverseIdEntry}

section Hear

variable {view : UInt16 × Nat → Option Nat} {event : ExchangeEvent} {key : UInt16 × Nat} {taker : Taker} {qty : Nat}
  {makerOf : Nat → Option ReverseIdEntry} {leftOf : Nat → Nat} {fills : List Fill}

def addressee (event : ExchangeEvent) : UInt16 × Nat := (event.sessionId, event.clientOrderId)

def ownerOf (reverse : ReverseIdEntry) : UInt16 × Nat := (reverse.sessionId, reverse.clientOrderId)

theorem hear_other (other : addressee event ≠ key) : hear qty view event key = view key := by
  unfold hear
  have apart : key ≠ (event.sessionId, event.clientOrderId) := fun same => other same.symm
  cases event.type <;> simp [apart]

theorem hear_fill (fill : event.type = .kFill) (here : addressee event = key) :
    hear qty view event key = (view key).bind fun _ => if event.remainingQty = 0 then none
    else some event.remainingQty := by
  subst here
  unfold hear
  simp [fill, addressee]

theorem hear_market (market : isClient event = false) : hear qty view event = view := by
  have type : event.type = .kBBOUpdate := by simpa [isClient] using market
  unfold hear
  simp [type]

theorem foldl_hear_filter (events : List ExchangeEvent) :
    events.foldl (hear qty) view = (events.filter isClient).foldl (hear qty) view := by
  induction events generalizing view with
  | nil => rfl
  | cons event events ih =>
    cases client : isClient event with
    | true => rw [filter_cons_of_pos client, foldl_cons, foldl_cons, ih]
    | false => rw [filter_cons_of_neg (by simp [client]), foldl_cons, hear_market client, ih]

/-- The fills tell the other clients nothing, except the owners of the makers. -/
theorem hear_fills_other (notTaker : (taker.sessionId, taker.clientOrderId) ≠ key)
    (notMaker : ∀ fill ∈ fills, ∀ reverse, makerOf fill.makerId = some reverse → ownerOf reverse ≠ key)
    (remaining : Nat) : (fillEvents taker makerOf leftOf remaining fills).foldl (hear qty) view key = view key := by
  induction fills generalizing remaining view with
  | nil => rfl
  | cons fill fills ih =>
    have later := fun fill member => notMaker fill (mem_cons_of_mem _ member)
    have first : hear qty view (takerEvent taker fill (remaining - fill.qty)) key = view key := hear_other notTaker
    rw [fillEvents, foldl_append, ih later, foldl_cons]
    cases found : makerOf fill.makerId with
    | none => exact first
    | some reverse =>
      rw [toList_some, map_cons, map_nil, foldl_cons, foldl_nil, hear_other, first]
      exact notMaker fill mem_cons_self reverse found

theorem hear_fills_maker (notTaker : (taker.sessionId, taker.clientOrderId) ≠ key) {maker : Fill}
    (member : maker ∈ fills) (found : makerOf maker.makerId = some reverse) (owner : ownerOf reverse = key)
    (one : ∀ fill ∈ fills, ∀ reverse, makerOf fill.makerId = some reverse → ownerOf reverse = key →
      fill.makerId = maker.makerId) (distinct : (fills.map Fill.makerId).Nodup) (remaining : Nat) :
    (fillEvents taker makerOf leftOf remaining fills).foldl (hear qty) view key =
      (view key).bind fun _ => if leftOf maker.makerId = 0 then none else some (leftOf maker.makerId) := by
  induction fills generalizing remaining view with
  | nil => cases member
  | cons fill fills ih =>
    rw [map_cons, nodup_cons] at distinct
    have first : hear qty view (takerEvent taker fill (remaining - fill.qty)) key = view key := hear_other notTaker
    rw [fillEvents, foldl_append, foldl_cons]
    by_cases here : fill.makerId = maker.makerId
    · have rest : ∀ fill' ∈ fills, ∀ reverse, makerOf fill'.makerId = some reverse → ownerOf reverse ≠ key := by
        intro fill' later reverse' found' same
        have equal := one fill' (mem_cons_of_mem _ later) reverse' found' same
        exact distinct.1 (List.mem_map.mpr ⟨fill', later, equal.trans here.symm⟩)
      have told : addressee (makerEvent reverse fill taker.side (leftOf maker.makerId)) = key := owner
      rw [hear_fills_other notTaker rest, here, found, toList_some, map_cons, map_nil, foldl_cons,
        foldl_nil, hear_fill rfl told, first]
      rfl
    · have later : maker ∈ fills := by
        rcases mem_cons.mp member with same | later
        · exact absurd (same ▸ rfl) here
        · exact later
      rw [ih later (fun fill member => one fill (mem_cons_of_mem _ member)) distinct.2]
      cases listed : makerOf fill.makerId with
      | none =>
        rw [toList_none, map_nil, foldl_nil, first]
      | some reverse' =>
        rw [toList_some, map_cons, map_nil, foldl_cons, foldl_nil, hear_other, first]
        intro same
        exact here (one fill mem_cons_self reverse' listed same)

theorem hear_fills_taker (known : ∃ v, view (taker.sessionId, taker.clientOrderId) = some v) (some_fills : fills ≠ [])
    (notMaker : ∀ fill ∈ fills, ∀ reverse, makerOf fill.makerId = some reverse →
      ownerOf reverse ≠ (taker.sessionId, taker.clientOrderId))
    (positive : ∀ fill ∈ fills, 0 < fill.qty) {remaining left : Nat}
    (total : left + filledQty (fills.map Fill.execution) = remaining) :
    (fillEvents taker makerOf leftOf remaining fills).foldl (hear qty) view (taker.sessionId, taker.clientOrderId) =
      if left = 0 then none else some left := by
  induction fills generalizing remaining view with
  | nil => exact absurd rfl some_fills
  | cons fill fills ih =>
    obtain ⟨v, before⟩ := known
    have told : addressee (takerEvent taker fill (remaining - fill.qty)) = (taker.sessionId, taker.clientOrderId) := rfl
    have sum : left + filledQty (fills.map Fill.execution) = remaining - fill.qty := by
      simp only [filledQty, map_cons, sum_cons, Fill.execution] at total ⊢
      omega
    have heard : (hear qty view (takerEvent taker fill (remaining - fill.qty))) (taker.sessionId, taker.clientOrderId) =
        if remaining - fill.qty = 0 then none else some (remaining - fill.qty) := by
      rw [hear_fill rfl told, before]
      rfl
    -- The report to the maker is for somebody else.
    have told' : ∀ view : UInt16 × Nat → Option Nat, (((makerOf fill.makerId).toList.map fun maker =>
        makerEvent maker fill taker.side (leftOf fill.makerId)).foldl (hear qty) view)
          (taker.sessionId, taker.clientOrderId) =
        view (taker.sessionId, taker.clientOrderId) := by
      intro view
      cases found : makerOf fill.makerId with
      | none => rfl
      | some reverse =>
        rw [toList_some, map_cons, map_nil, foldl_cons, foldl_nil, hear_other]
        exact notMaker fill mem_cons_self reverse found
    rw [fillEvents, foldl_append, foldl_cons]
    cases fills with
    | nil =>
      have same : remaining - fill.qty = left := by simpa [filledQty] using sum.symm
      rw [fillEvents, foldl_nil, told', heard, same]
    | cons next fills =>
      have more := positive next (mem_cons_of_mem _ mem_cons_self)
      refine ih ⟨remaining - fill.qty, ?_⟩ (by simp) (fun fill member => notMaker fill (mem_cons_of_mem _ member))
        (fun fill member => positive fill (mem_cons_of_mem _ member)) sum
      rw [told', heard, if_neg]
      simp only [filledQty, map_cons, sum_cons, Fill.execution] at sum
      omega

end Hear

/-! ### Events and books -/

variable {view view' : UInt16 × Nat → Option Nat} {owner : Nat → Option (UInt16 × Nat)}

def Shows (core : ExchangeCore maxSymbols) (key : UInt16 × Nat) (q : Nat) : Prop :=
  ∃ x reverse i s p, core.reverseIdMap.content x = some reverse ∧ ownerOf reverse = key ∧ core.Rests i s p x q

def Tracks (view : UInt16 × Nat → Option Nat) (core : ExchangeCore maxSymbols) : Prop :=
  ∀ key q, 0 < q → (view key = some q ↔ Shows core key q)

theorem owner_unique (paired : IdsPaired core) {x x' : Nat} {reverse' : ReverseIdEntry}
    (found : core.reverseIdMap.content x = some reverse) (found' : core.reverseIdMap.content x' = some reverse')
    (same : ownerOf reverse' = ownerOf reverse) : x' = x := by
  obtain ⟨entry, mapped, id, _⟩ := paired.back x reverse found
  obtain ⟨entry', mapped', id', _⟩ := paired.back x' reverse' found'
  obtain ⟨session, client⟩ := Prod.mk.inj same
  rw [keyOf, session, client, ← keyOf, mapped] at mapped'
  cases mapped'
  exact id'.symm.trans id

theorem Tracks.after_withdrawal {client : List ExchangeEvent} {Gone : Nat → Prop} (tracks : Tracks view core)
    (Lost : UInt16 × Nat → Prop) (withdrawn : Withdrawn core core' client Gone)
    (gone : ∀ x reverse, core.reverseIdMap.content x = some reverse → (Gone x ↔ Lost (ownerOf reverse)))
    (lost : ∀ key, Lost key → view' key = none) (kept : ∀ key, ¬ Lost key → view' key = view key) :
    Tracks view' core' := by
  intro key q positive
  have shows : Shows core' key q ↔ Shows core key q ∧ ¬ Lost key := by
    constructor
    · intro ⟨x, reverse, i, s, p, found, same, rests⟩
      obtain ⟨old, stays⟩ := (withdrawn.restricts.rev_iff _ _).mp found
      refine ⟨⟨x, reverse, i, s, p, old, same, ((withdrawn.rests _ _ _ _ _).mp rests).1⟩, ?_⟩
      rw [← same, ← gone x reverse old]
      exact stays
    · intro ⟨⟨x, reverse, i, s, p, found, same, rests⟩, stays⟩
      rw [← same, ← gone x reverse found] at stays
      exact ⟨x, reverse, i, s, p, (withdrawn.restricts.rev_iff _ _).mpr ⟨found, stays⟩, same,
        (withdrawn.rests _ _ _ _ _).mpr ⟨rests, stays⟩⟩
  rw [shows]
  by_cases here : Lost key
  · simp [lost key here, here]
  · rw [kept key here, tracks key q positive, and_iff_left here]

variable {q : Nat}

section Exchanged

variable {idx qty : Nat} {taker : Taker} {price : Int} {Old : Nat → Prop} {b : OrderBook} {result : MatchResult}
  {ack : ExchangeEvent} (healthy : Healthy core) (mirror : Mirror owner core)
  (exchanged : Exchanged core core' idx taker price qty Old b result ack)
include healthy mirror exchanged

omit healthy mirror in
theorem ExchangeCore.Exchanged.bystander {x : Nat} (found : core.reverseIdMap.content x = some reverse)
    (stays : ¬ Old x) (idle : x ∉ result.fills.map Fill.makerId) (i : Nat) (s : Side) (p : Int) (q : Nat) :
    core'.reverseIdMap.content x = some reverse ∧ (core'.Rests i s p x q ↔ core.Rests i s p x q) := by
  obtain ⟨params, sound⟩ := exchanged.sound
  refine ⟨(exchanged.revised.rev_iff _ _).mpr (.inl ⟨found, fun gone => gone.elim stays fun used => idle used.1⟩), ?_⟩
  by_cases here : i = idx
  · subst here
    have other : x ≠ taker.exchangeId ∨ result.rested = false := by
      by_cases rested : result.rested = true
      · left
        intro same
        rw [same, exchanged.fresh rested] at found
        cases found
      · exact .inr (by simpa using rested)
    have untouched : result.taken x = 0 := by
      apply PriceTime.takenFrom_eq_zero
      rw [List.map_map]
      exact idle
    have moved := exchanged.submitted.others s p x q other
    rw [untouched] at moved
    unfold Rests
    rw [exchanged.active, moved]
    simp only [exchanged.before, stays, not_false_eq_true, and_true]
    constructor
    · intro ⟨slot, k, rests, same, _⟩
      rw [same]
      exact ⟨slot, rests⟩
    · intro ⟨slot, rests⟩
      exact ⟨slot, q, rests, rfl, sound.rests_pos ((exchanged.before _ _ _ _).mpr ⟨rests, stays⟩)⟩
  · rw [Rests, Rests, exchanged.active, exchanged.others i here]

omit healthy in
theorem ExchangeCore.Exchanged.maker_left {x : Nat}
    (hit : x ∈ result.fills.map Fill.makerId) (found : core.reverseIdMap.content x = some reverse) (positive : 0 < q) :
    (core'.reverseIdMap.content x = some reverse ∧ ∃ i s p, core'.Rests i s p x q) ↔
    leftIn (core'.bookOf idx) x = q := by
  have registered : idx < maxSymbols ∧ (core'.symbols idx).active = true :=
    ⟨exchanged.registered.1, (exchanged.active idx).trans exchanged.registered.2⟩
  obtain ⟨params, sound⟩ := exchanged.healthy.books idx registered.1 registered.2
  obtain ⟨k, known, resting, absent⟩ := orderQty_effect sound x
  have left : leftIn (core'.bookOf idx) x = k := by
    rw [leftIn, known]
    rfl
  rw [left]
  constructor
  · rintro ⟨_, i, s, p, rests⟩
    by_cases here : i = idx
    · subst here
      exact resting s p q rests.2
    · obtain ⟨s', p', q', old⟩ := exchanged.maker_rests hit
      rw [Rests, exchanged.active, exchanged.others i here] at rests
      exact absurd (mirror.unique old rests).1 here
  · intro same
    have present : ¬ Absent (core'.bookOf idx) x := fun nowhere => by
      have none := absent nowhere
      omega
    have stays : ¬ Old x := by
      obtain ⟨fill, member, rfl⟩ := List.mem_map.mp hit
      obtain ⟨p, q, rests⟩ := exchanged.submitted.makers fill member
      exact ((exchanged.before _ _ _ _).mp rests).2
    refine ⟨(exchanged.revised.rev_iff _ _).mpr
      (.inl ⟨found, fun gone => gone.elim stays fun used => present used.2⟩), ?_⟩
    simp only [Absent, not_forall, not_not] at present
    obtain ⟨s, p, q', rests⟩ := present
    have equal := (resting s p q' rests).symm.trans same
    exact ⟨idx, s, p, registered, equal ▸ rests⟩

omit healthy in
theorem ExchangeCore.Exchanged.shows_taker
    (own : ∀ x reverse, core.reverseIdMap.content x = some reverse →
      (Old x ↔ ownerOf reverse = (taker.sessionId, taker.clientOrderId))) :
    Shows core' (taker.sessionId, taker.clientOrderId) q ↔ result.rested = true ∧ result.remainingQty = q := by
  have fresh : result.rested = true → ∀ s p q, ¬ b.Rests s p taker.exchangeId q := by
    intro rested s p q rests
    exact exchanged.fresh_rests mirror rested ⟨exchanged.registered, ((exchanged.before _ _ _ _).mp rests).1⟩
  constructor
  · rintro ⟨x, reverse, i, s, p, found, same, rests⟩
    rcases (exchanged.revised.rev_iff _ _).mp found with ⟨old, stays⟩ | ⟨rested, id, _⟩
    · exact absurd (.inl ((own x reverse old).mpr same)) stays
    · have id : x = taker.exchangeId := id
      subst id
      refine ⟨rested, ?_⟩
      by_cases here : i = idx
      · subst here
        exact ((exchanged.submitted.own (fresh rested) s p q).mp rests.2).2.2.2.symm
      · rw [Rests, exchanged.active, exchanged.others i here] at rests
        exact absurd rests (exchanged.fresh_rests mirror rested)
  · rintro ⟨rested, same⟩
    refine ⟨taker.exchangeId, taker.reverse, idx, taker.side, price,
      (exchanged.revised.rev_iff _ _).mpr (.inr ⟨rested, rfl, rfl⟩), rfl, ?_, ?_⟩
    · rw [exchanged.active]
      exact exchanged.registered
    · exact (exchanged.submitted.own (fresh rested) _ _ _).mpr ⟨rested, rfl, rfl, same.symm⟩

theorem ExchangeCore.Exchanged.shows_other {key : UInt16 × Nat}
    (own : ∀ x reverse, core.reverseIdMap.content x = some reverse → Old x →
      ownerOf reverse = (taker.sessionId, taker.clientOrderId))
    (other : (taker.sessionId, taker.clientOrderId) ≠ key) (positive : 0 < q) :
    (∃ fill ∈ result.fills, ∃ reverse, core.reverseIdMap.content fill.makerId = some reverse ∧ ownerOf reverse = key ∧
      (Shows core' key q ↔ leftIn (core'.bookOf idx) fill.makerId = q)) ∨
    ((∀ fill ∈ result.fills, ∀ reverse, core.reverseIdMap.content fill.makerId = some reverse → ownerOf reverse ≠ key) ∧
      (Shows core' key q ↔ Shows core key q)) := by
  have before : ∀ x reverse, core'.reverseIdMap.content x = some reverse → ownerOf reverse = key →
      core.reverseIdMap.content x = some reverse := by
    intro x reverse found same
    rcases (exchanged.revised.rev_iff _ _).mp found with ⟨old, _⟩ | ⟨_, _, rfl⟩
    · exact old
    · exact absurd same other
  have stays : ∀ x reverse, core.reverseIdMap.content x = some reverse → ownerOf reverse = key → ¬ Old x := by
    intro x reverse found same old
    exact other ((own x reverse found old).symm.trans same)
  by_cases maker : ∃ fill ∈ result.fills, ∃ reverse, core.reverseIdMap.content fill.makerId = some reverse ∧
      ownerOf reverse = key
  · obtain ⟨fill, member, reverse, found, same⟩ := maker
    refine .inl ⟨fill, member, reverse, found, same, ?_⟩
    rw [← exchanged.maker_left mirror (List.mem_map.mpr ⟨fill, member, rfl⟩) found positive]
    constructor
    · intro ⟨x, reverse', i, s, p, found', same', rests⟩
      have old := before x reverse' found' same'
      have equal := owner_unique healthy.paired found old (same'.trans same.symm)
      subst equal
      rw [found] at old
      cases old
      exact ⟨found', i, s, p, rests⟩
    · intro ⟨found', i, s, p, rests⟩
      exact ⟨fill.makerId, reverse, i, s, p, found', same, rests⟩
  · refine .inr ⟨fun fill member reverse found same => maker ⟨fill, member, reverse, found, same⟩, ?_⟩
    have idle : ∀ x reverse, core.reverseIdMap.content x = some reverse → ownerOf reverse = key →
        x ∉ result.fills.map Fill.makerId := by
      intro x reverse found same hit
      obtain ⟨fill, member, rfl⟩ := List.mem_map.mp hit
      exact maker ⟨fill, member, reverse, found, same⟩
    constructor
    · intro ⟨x, reverse, i, s, p, found, same, rests⟩
      have old := before x reverse found same
      have unmoved := exchanged.bystander old (stays x reverse old same) (idle x reverse old same) i s p q
      exact ⟨x, reverse, i, s, p, old, same, unmoved.2.mp rests⟩
    · intro ⟨x, reverse, i, s, p, found, same, rests⟩
      have unmoved := exchanged.bystander found (stays x reverse found same) (idle x reverse found same) i s p q
      exact ⟨x, reverse, i, s, p, unmoved.1, same, unmoved.2.mpr rests⟩

omit healthy mirror in
theorem ExchangeCore.Exchanged.maker_apart
    (own : ∀ x reverse, core.reverseIdMap.content x = some reverse →
      (Old x ↔ ownerOf reverse = (taker.sessionId, taker.clientOrderId))) :
    ∀ fill ∈ result.fills, ∀ reverse, core.reverseIdMap.content fill.makerId = some reverse →
      ownerOf reverse ≠ (taker.sessionId, taker.clientOrderId) := by
  intro fill member reverse found same
  obtain ⟨p, q, rests⟩ := exchanged.submitted.makers fill member
  exact ((exchanged.before _ _ _ _).mp rests).2 ((own _ _ found).mpr same)

omit healthy mirror in
/-- The order's own client: it believes in what is left after the last fill, at rest or not. -/
theorem ExchangeCore.Exchanged.told_taker
    (own : ∀ x reverse, core.reverseIdMap.content x = some reverse →
      (Old x ↔ ownerOf reverse = (taker.sessionId, taker.clientOrderId)))
    (acked : ∀ view, hear qty view ack = update view (taker.sessionId, taker.clientOrderId) (some qty))
    (positive : 0 < q) :
    (core'.events.filter isClient).foldl (hear qty) view (taker.sessionId, taker.clientOrderId) = some q ↔
      result.remainingQty = q := by
  have submitted := exchanged.submitted
  have total := submitted.total
  rw [exchanged.events, foldl_cons, acked]
  by_cases none : result.fills = []
  · rw [none] at total ⊢
    simp only [map_nil, filledQty, sum_nil, Nat.add_zero] at total
    simp [fillEvents, total]
  · rw [hear_fills_taker ⟨qty, update_self _ _ _⟩ none (exchanged.maker_apart own) submitted.filled total]
    by_cases used : result.remainingQty = 0
    · simp only [used, if_true, reduceCtorEq, false_iff]
      omega
    · simp [used]

theorem Tracks.after_exchange (tracks : Tracks view core)
    (own : ∀ x reverse, core.reverseIdMap.content x = some reverse →
      (Old x ↔ ownerOf reverse = (taker.sessionId, taker.clientOrderId)))
    (acked : ∀ view, hear qty view ack = update view (taker.sessionId, taker.clientOrderId) (some qty))
    (complete : 0 < result.remainingQty → result.rested = true) :
    Tracks ((core'.events.filter isClient).foldl (hear qty) view) core' := by
  intro key q positive
  by_cases here : (taker.sessionId, taker.clientOrderId) = key
  · subst here
    rw [exchanged.shows_taker mirror own, exchanged.told_taker own acked positive]
    constructor
    · intro same
      exact ⟨complete (by omega), same⟩
    · exact And.right
  · rw [exchanged.events, foldl_cons, acked]
    rcases exchanged.shows_other healthy mirror (fun x reverse found => (own x reverse found).mp) here positive with
      ⟨fill, member, reverse, found, same, shows⟩ | ⟨noMaker, shows⟩
    · obtain ⟨s, p, q₀, rests⟩ := exchanged.maker_rests (List.mem_map.mpr ⟨fill, member, rfl⟩)
      obtain ⟨params, sound⟩ := healthy.book rests
      have known : view key = some q₀ :=
        (tracks key q₀ (sound.rests_pos rests.2)).mpr ⟨fill.makerId, reverse, idx, s, p, found, same, rests⟩
      rw [shows, hear_fills_maker here member found same ?_ exchanged.submitted.distinct,
        update_of_ne (Ne.symm here), known]
      · by_cases used : leftIn (core'.bookOf idx) fill.makerId = 0
        · simp only [used, bind_some, if_true, reduceCtorEq, false_iff]
          omega
        · simp [used]
      · intro fill' _ reverse' found' same'
        exact owner_unique healthy.paired found found' (same'.trans same.symm)
    · rw [hear_fills_other here noMaker, update_of_ne (Ne.symm here), shows]
      exact tracks key q positive

end Exchanged

/-! ### The calls -/

theorem owner_entry (paired : IdsPaired core) {sessionId : UInt16} {clientOrderId x : Nat} {entry : IdEntry}
    (bound : clientOrderId ≤ kMaxClientOrderId)
    (mapped : core.idMap.content (makeCompositeKey sessionId clientOrderId) = some entry)
    (found : core.reverseIdMap.content x = some reverse) :
    x = entry.exchangeId ↔ ownerOf reverse = (sessionId, clientOrderId) := by
  obtain ⟨reverse₀, found₀, key, _, bound₀⟩ := paired.forth _ _ mapped
  obtain ⟨session, client⟩ := makeCompositeKey_inj bound₀ bound key
  have owner : ownerOf reverse₀ = (sessionId, clientOrderId) := by rw [ownerOf, session, client]
  constructor
  · intro same
    subst same
    rw [found₀] at found
    cases found
    exact owner
  · intro same
    exact owner_unique paired found₀ found (same.trans owner.symm)

theorem owner_none (paired : IdsPaired core) {sessionId : UInt16} {clientOrderId x : Nat}
    (unmapped : clientOrderId ≤ kMaxClientOrderId →
      core.idMap.content (makeCompositeKey sessionId clientOrderId) = none)
    (found : core.reverseIdMap.content x = some reverse) : ownerOf reverse ≠ (sessionId, clientOrderId) := by
  intro same
  obtain ⟨entry, mapped, _, _, bound⟩ := paired.back x reverse found
  obtain ⟨session, client⟩ := Prod.mk.inj same
  rw [client] at bound
  rw [keyOf, session, client, unmapped bound] at mapped
  cases mapped

def executions (b : OrderBook) (side : Side) (price : Int) (qty : Nat) : List PriceTime.Execution :=
  walk side price qty (makers (b.levels side.opposite))

/-- No quantity is lost between the fills and the book: the fill buffer holds the executions, and the book takes what
they leave. -/
def Complete (b : OrderBook) (id : Nat) (side : Side) (price : Int) (qty : Nat) : Prop :=
  (executions b side price qty).length ≤ 64 ∧ (Unfilled b side price qty → b.canAdd id side price = true)

def Informs (core : ExchangeCore maxSymbols) : Op → Prop
  | .submit sessionId order =>
    (order.clientOrderId ≤ kMaxClientOrderId →
      core.idMap.content (makeCompositeKey sessionId order.clientOrderId) = none) ∧
    ∀ idx, core.symbolIndex order.symbolId = some idx → order.clientOrderId ≤ kMaxClientOrderId →
      core.seenOrders.accepts DefaultHash.hash (makeCompositeKey sessionId order.clientOrderId) = true →
      executions (core.bookOf idx) order.side order.price order.qty ≠ [] →
      Complete (core.bookOf idx) core.nextExchangeId order.side order.price order.qty
  | .modify sessionId order =>
    ∀ idx entry engine, core.symbolIndex order.symbolId = some idx → order.clientOrderId ≤ kMaxClientOrderId →
      core.idMap.content (makeCompositeKey sessionId order.clientOrderId) = some entry →
      (core.symbols idx).engine.cancelOrder entry.exchangeId = some (true, engine) →
      core.inBooks core.nextExchangeId = false ∧
      Complete engine.book core.nextExchangeId entry.side order.newPrice order.newQty
  | _ => True

theorem apply_tracks (sound : a.Sound) (tracks : Tracks a.view a.core) {op : Op} (room : IdRoom a.core op)
    (informs : Informs a.core op) (applied : a.core.apply op = some core') :
    Tracks ((core'.events.filter isClient).foldl (hear op.qty) (forget op a.view)) core' := by
  obtain ⟨healthy, mirror, drained⟩ := sound
  have paired := healthy.paired
  cases op with
  | connect =>
    obtain ⟨⟨sessionId, _⟩, connected, rfl⟩ := map_eq_some_iff.mp applied
    have withdrawn := onClientConnect_effect healthy connected
    rw [withdrawn.events, drained]
    exact tracks.after_withdrawal (fun _ => False) withdrawn (fun _ _ _ => Iff.rfl) (fun _ => False.elim)
      (fun _ _ => rfl)
  | disconnect sessionId =>
    have withdrawn := onClientDisconnect_effect healthy mirror drained applied
    rw [withdrawn.events, foldl_nil]
    refine tracks.after_withdrawal (fun key => key.1 = sessionId ∧ sessionId ≠ 0) withdrawn ?_ ?_ ?_
    · intro x reverse found
      constructor
      · intro ⟨connected, reverse', found', mine⟩
        rw [found] at found'
        cases found'
        exact ⟨mine, connected⟩
      · intro ⟨mine, connected⟩
        exact ⟨connected, reverse, found, mine⟩
    · intro key lost
      exact if_pos lost
    · intro key kept
      exact if_neg kept
  | submit sessionId order =>
    obtain ⟨unmapped, complete⟩ := informs
    have outcome := submitOrder_effect healthy drained room applied
    have own : ∀ x reverse, a.core.reverseIdMap.content x = some reverse →
        (False ↔ ownerOf reverse = (sessionId, order.clientOrderId)) := by
      intro x reverse found
      exact iff_of_false not_false (owner_none paired unmapped found)
    rcases outcome with ⟨event, ⟨type, session, client⟩, withdrawn⟩ |
      ⟨idx, result, engine, known, bound, accepts, matched, busy, exchanged⟩
    · have heard : hear order.qty a.view event = update a.view (sessionId, order.clientOrderId) none := by
        unfold hear
        simp [type, session, client]
      rw [withdrawn.events]
      show Tracks (hear order.qty a.view event) core'
      rw [heard]
      refine tracks.after_withdrawal (fun key => key = (sessionId, order.clientOrderId)) withdrawn own ?_ ?_
      · intro key lost
        rw [lost, update_self]
      · intro key kept
        exact update_of_ne kept _ _
    · refine tracks.after_exchange healthy mirror exchanged own (fun _ => rfl) ?_
      intro left
      rcases busy with rested | trades
      · exact rested
      obtain ⟨params, sound⟩ := exchanged.sound
      obtain ⟨unused, meets⟩ := submitOrder_trades sound matched trades
      obtain ⟨short, takes⟩ := complete idx known bound accepts meets
      exact submitOrder_complete sound unused matched short (fun left => takes ⟨short, left⟩) left
  | cancel sessionId order =>
    have outcome := cancelOrder_effect healthy mirror drained applied
    rcases outcome with ⟨event, ⟨type, _⟩, withdrawn⟩ | ⟨entry, bound, mapped, withdrawn⟩
    · have heard : hear 0 a.view event = a.view := by
        unfold hear
        simp [type]
      rw [withdrawn.events]
      show Tracks (hear 0 a.view event) core'
      rw [heard]
      exact tracks.after_withdrawal (fun _ => False) withdrawn (fun _ _ _ => Iff.rfl) (fun _ => False.elim)
        (fun _ _ => rfl)
    · rw [withdrawn.events]
      show Tracks (update a.view (sessionId, order.clientOrderId) none) core'
      refine tracks.after_withdrawal (fun key => key = (sessionId, order.clientOrderId)) withdrawn
        (fun x reverse found => owner_entry paired bound mapped found) ?_ ?_
      · intro key lost
        rw [lost, update_self]
      · intro key kept
        exact update_of_ne kept _ _
  | modify sessionId order =>
    have outcome := modifyOrder_effect healthy mirror drained room applied
    rcases outcome with ⟨event, ⟨type, _⟩, withdrawn⟩ |
      ⟨idx, entry, result, e₁, engine, bound, known, mapped, cancelled, matched, exchanged⟩
    · have heard : hear order.newQty a.view event = a.view := by
        unfold hear
        simp [type]
      rw [withdrawn.events]
      show Tracks (hear order.newQty a.view event) core'
      rw [heard]
      exact tracks.after_withdrawal (fun _ => False) withdrawn (fun _ _ _ => Iff.rfl) (fun _ => False.elim)
        (fun _ _ => rfl)
    · refine tracks.after_exchange healthy mirror exchanged
        (fun x reverse found => owner_entry paired bound mapped found) (fun _ => rfl) ?_
      obtain ⟨unused, short, takes⟩ := informs idx entry e₁ known bound mapped cancelled
      obtain ⟨params, sound⟩ := exchanged.sound
      refine submitOrder_complete sound ?_ matched short fun left => takes ⟨short, left⟩
      rw [Bool.eq_false_iff]
      intro live
      obtain ⟨s, p, q, rests⟩ := PriceTime.isLive_iff.mp live
      have before := ((exchanged.before s p _ q).mp rests).1
      rw [(inBooks_iff _).mpr ⟨idx, s, p, q, exchanged.registered, before⟩] at unused
      cases unused

theorem Audited.step_tracks (sound : a.Sound) (tracks : Tracks a.view a.core) {op : Op} (room : IdRoom a.core op)
    (informs : Informs a.core op) (stepped : a.step op = some a') : Tracks a'.view a'.core := by
  unfold Audited.step at stepped
  cases applied : a.core.apply op with
  | none => simp [applied] at stepped
  | some core' =>
    simp only [applied, bind_eq_bind, bind_some, Option.pure_def, some.injEq] at stepped
    subst stepped
    have heard := apply_tracks sound tracks room informs applied
    rw [← foldl_hear_filter] at heard
    exact heard

abbrev InformedRun (a : Audited maxSymbols) (ops : List Op) : Prop :=
  Transition.Along Audited.step (fun a op => IdRoom a.core op ∧ Informs a.core op) ops a

/-- A connected client knows its live orders and what is left of each of them. -/
def Reconstructed (a : Audited maxSymbols) : Prop :=
  ∀ sessionId, a.core.activeSessions sessionId = true → ∀ clientOrderId q, 0 < q →
    (a.view (sessionId, clientOrderId) = some q ↔
      ∃ x i s p, a.owner x = some (sessionId, clientOrderId) ∧ a.core.Rests i s p x q)

theorem Audited.Sound.shows_iff (sound : a.Sound) {key : UInt16 × Nat} :
    Shows a.core key q ↔ ∃ x i s p, a.owner x = some key ∧ a.core.Rests i s p x q := by
  constructor
  · intro ⟨x, reverse, i, s, p, found, same, rests⟩
    refine ⟨x, i, s, p, ?_, rests⟩
    rw [sound.mirror.owned x reverse found, ← same]
    rfl
  · intro ⟨x, i, s, p, owned, rests⟩
    obtain ⟨_, reverse, found, _⟩ := sound.mirror.mapped i s p x q rests
    rw [sound.mirror.owned x reverse found] at owned
    exact ⟨x, reverse, i, s, p, found, some.inj owned, rests⟩

theorem Audited.Sound.reconstructed (sound : a.Sound) (tracks : Tracks a.view a.core) : Reconstructed a := by
  intro sessionId _ clientOrderId q positive
  rw [tracks _ q positive]
  exact sound.shows_iff

theorem Audited.Sound.run_tracks (sound : a.Sound) (tracks : Tracks a.view a.core) {ops : List Op}
    (informed : InformedRun a ops) (ran : a.run ops = some a') : a'.Sound ∧ Tracks a'.view a'.core := by
  have keeps : ∀ {a : Audited maxSymbols} {op a'}, a.Sound ∧ Tracks a.view a.core → IdRoom a.core op ∧
      Informs a.core op → a.step op = some a' → a'.Sound ∧ Tracks a'.view a'.core := by
    rintro a op a' ⟨sound, tracks⟩ ⟨room, informs⟩ stepped
    exact ⟨sound.step room stepped, a.step_tracks sound tracks room informs stepped⟩
  have kept := Transition.run_invariant keeps ⟨sound, tracks⟩ informed ran
  exact kept

theorem Fresh.tracks (fresh : Fresh core) : Tracks (fun _ => none) core := by
  intro key q _
  constructor
  · intro impossible
    cases impossible
  · intro ⟨x, reverse, i, s, p, _, _, rests⟩
    exact absurd rests (fresh.empty i s p x q)

section Stacked

variable {sessionId : UInt16} {side : Side} {price : Int} {bound k : Nat}

theorem Stacked.informedRun (stacked : Stacked sessionId side price bound 0 a.core) (few : bound ≤ 716)
    (upTo : k ≤ bound) : InformedRun a (stackOps sessionId side price k) := by
  induction k with
  | zero => trivial
  | succ k ih =>
    rw [stackOps_succ]
    refine Transition.along_append (ih (by omega)) fun a' ran => ⟨⟨?_, fun _ => ?_, ?_⟩, fun _ _ => trivial⟩
    all_goals
      obtain ⟨a₁, ran₁, stacked₁⟩ := stacked.run (k := k) (by omega) (by omega)
      obtain rfl : a' = a₁ := mem_unique ran ran₁
    · exact stacked₁.submitRoom (by omega) few rfl
    · exact stacked₁.ids.new (k + 1) (by omega) upTo
    · intro idx known _ _ meets
      obtain ⟨symbol, _⟩ := symbolIndex_eq_some known
      obtain rfl : idx = 0 := by simpa [unitOrder] using symbol.symm
      refine absurd ?_ meets
      show walk side price 1 (makers ((a'.core.bookOf 0).levels side.opposite)) = []
      rw [stacked₁.opposite]
      rfl

/-- 65 asks against a fill buffer of 64: the walk stops short, the rest still crosses and is not put into the book. -/
theorem crowded_submit (accepts : Bool) :
    let outcome := PriceTime.submit 64 accepts (fun s => if s = .kAsk then stack 100 65 else []) 66 .kBid 100 100
    outcome.fills ≠ [] ∧ outcome.remaining = 36 ∧ outcome.rested = false := by
  cases accepts <;> decide +kernel

theorem Stacked.crowded (stacked : Stacked sessionId .kAsk 100 bound 65 core) :
    ∃ result engine, (core.symbols 0).engine.submitOrder core.nextExchangeId .kBid 100 100 = some (result, engine) ∧
      result.fills ≠ [] ∧ result.remainingQty = 36 ∧ result.rested = false := by
  obtain ⟨params, sound⟩ := stacked.sound
  have levels : (core.bookOf 0).levels = fun s => if s = .kAsk then stack 100 65 else [] := by
    funext s
    cases s with
    | kAsk => exact stacked.own
    | kBid => exact stacked.opposite
  obtain ⟨m, result, engine, _, done, _, _, outcome⟩ :=
    MatchingEngine.submitOrder_spec sound (e := (core.symbols 0).engine) core.nextExchangeId .kBid 100 100
  rw [stacked.next, show (core.symbols 0).engine.book.levels = _ from levels] at outcome
  have expected := crowded_submit ((m.book.addOrder (65 + 1) .kBid 100 m.remaining).any Prod.fst)
  dsimp only at expected
  rw [← outcome] at expected
  exact ⟨result, engine, done, fun none => expected.1 (by simp [MatchResult.outcome, none]), expected.2⟩

end Stacked

/-- Clients can reconstruct their live orders as long as no call drops a remainder. -/
theorem run_reconstructed {symbols : List (Nat × Params)} (registered : registerAll symbols {} = some core)
    {ops : List Op}
    (informed : InformedRun { core } ops) (ran : Audited.run ops { core } = some a) : Reconstructed a := by
  have fresh := fresh_initial.registerAll registered
  obtain ⟨sound, tracks⟩ := fresh.sound.run_tracks fresh.tracks informed ran
  exact sound.reconstructed tracks

/-- Two orders that rest keep their client informed. -/
theorem run_reconstructed_two : ∃ (core : ExchangeCore 1) (a : Audited 1), registerAll [(1, {})] {} = some core ∧
    InformedRun { core } (.connect :: stackOps 1 .kBid 100 2) ∧
    Audited.run (.connect :: stackOps 1 .kBid 100 2) { core } = some a ∧ Reconstructed a := by
  have few : 2 ≤ 11468 := by omega
  obtain ⟨core, a₁, a, registered, connected, stacked, ran, _⟩ := run_stacked .kBid 100 few (Nat.le_refl 2)
  have informed : InformedRun { core } (.connect :: stackOps 1 .kBid 100 2) := by
    refine ⟨⟨trivial, trivial⟩, fun a' stepped => ?_⟩
    rw [connected] at stepped
    cases stepped
    exact stacked.informedRun (by omega) (Nat.le_refl 2)
  exact ⟨core, a, registered, informed, ran, run_reconstructed registered informed ran⟩

/-- A buy of 100 meets 65 asks of one unit: after 64 fills the events say that 36 are left, and nothing of them rests.
-/
theorem run_not_reconstructed : ∃ (core : ExchangeCore 1) (a : Audited 1), registerAll [(1, {})] {} = some core ∧
    Audited.run (.connect :: (stackOps 1 .kAsk 100 65 ++
      [.submit 1 { clientOrderId := 66, symbolId := 1, side := .kBid, price := 100, qty := 100 }])) { core } = some a ∧
    ¬ Reconstructed a := by
  have few : 66 ≤ 11468 := by omega
  obtain ⟨core, a₁, a, registered, connected, stacked₁, ran, stacked⟩ :=
    run_stacked (k := 65) .kAsk 100 few (by omega)
  have sound := (fresh_initial.registerAll registered).sound.run
    (stacked₁.idRoomRun_connect connected (by omega) (by omega)) ran
  obtain ⟨result, engine, done, trades, left, rested⟩ := stacked.crowded
  have unmapped := stacked.ids.new 66 (by omega) (by omega)
  have load := stacked.seen.load
  have limit := stacked.seenLoad
  have accepts := stacked.seen.wellFormed.accepts_of_room (stacked.seen.new 66 (by omega) (by omega)) (by omega) true
  have known : a.core.symbolIndex 1 = some 0 := by simp [symbolIndex, stacked.registered.2]
  let order : NewOrder := { clientOrderId := 66, symbolId := 1, side := .kBid, price := 100, qty := 100 }
  have room : SubmitRoom a.core 1 order := stacked.submitRoom (by omega) (by omega) rfl
  have usable := sound.healthy.usable
  obtain ⟨core', submitted⟩ := submitOrder_returns usable (by rw [sound.drained]; decide) 1 order
  have exchanged : Exchanged a.core core' 0 (submitTaker 1 order a.core.nextExchangeId) 100 100 (fun _ => False)
      (a.core.bookOf 0) result (acceptedEvent 1 order a.core.nextExchangeId) := by
    rcases submitOrder_effect sound.healthy sound.drained room submitted with
      ⟨_, _, withdrawn⟩ | ⟨idx, result', engine', known', _, _, done', _, exchanged⟩
    · -- A refusal reports no fills.
      obtain ⟨ack, responded⟩ := submitOrder_responded usable submitted
      have heard := (responded.client sound.drained).symm.trans withdrawn.events
      rw [submitFills_of_called (by decide) known accepts done] at heard
      obtain ⟨fill, fills, split⟩ := exists_cons_of_ne_nil trades
      simp [split, fillEvents] at heard
    · obtain rfl := mem_unique known known'
      obtain ⟨rfl, rfl⟩ := Prod.mk.inj (mem_unique done done')
      exact exchanged
  have applied : a.core.apply (.submit 1 order) = some core' := submitted
  obtain ⟨a', stepped, same, heard⟩ := step_eq applied
  have room' : IdRoom a.core (.submit 1 order) := room
  have sound' := sound.step room' stepped
  have own : ∀ x reverse, a.core.reverseIdMap.content x = some reverse → (False ↔ ownerOf reverse = (1, 66)) :=
    fun x reverse found => iff_of_false not_false (owner_none sound.healthy.paired (fun _ => unmapped) found)
  refine ⟨core, a', registered, ?_, fun reconstructed => ?_⟩
  · exact Transition.run_append ran (Transition.run_cons stepped rfl)
  · have active : a'.core.activeSessions 1 = true := by
      rw [same]
      exact (congrFun exchanged.sessions 1).trans stacked.connected
    have told : a'.view (1, 66) = some 36 := by
      rw [heard, foldl_hear_filter]
      exact (exchanged.told_taker own (fun _ => rfl) (by omega)).mpr left
    have shows := sound'.shows_iff.mpr ((reconstructed 1 active 66 36 (by omega)).mp told)
    rw [same] at shows
    have impossible := ((exchanged.shows_taker sound.mirror own).mp shows).1
    rw [rested] at impossible
    cases impossible

end TickToTrade.Exchange
