import TickToTrade.Exchange.LiveOrders

/-!
What a call does to the orders of one client: where a new one comes from, and that an order is gone from
the books once an event says that it is over.
-/

namespace TickToTrade.Exchange
open Algo Ds Probing PairedMaps ExchangeCore List Option

variable {maxSymbols : Nat} {core core' : ExchangeCore maxSymbols} {a a' : Audited maxSymbols} {op : Op}
variable {i : Nat} {sessionId : UInt16}

def Audited.HasOrder (a : Audited maxSymbols) (key : UInt16 × Nat) (i : Nat) : Prop :=
  ∃ x s p q, a.owner x = some key ∧ a.core.Rests i s p x q

def Op.key : Op → Option (UInt16 × Nat)
  | .submit sessionId order => some (sessionId, order.clientOrderId)
  | .cancel sessionId order => some (sessionId, order.clientOrderId)
  | .modify _ _ | .connect | .disconnect _ => none

def ExchangeEvent.isFinal (event : ExchangeEvent) : Bool :=
  match event.type with
  | .kOrderRejected | .kCancelAck | .kCancelRejected => true
  | .kFill => event.remainingQty = 0
  | _ => false

theorem step_eq_some (stepped : a.step op = some a') : ∃ core, a.core.apply op = some core ∧
    a'.core = core.drainEvents.2 ∧
    a'.owner = fun x => if core.inBooks x && !a.core.inBooks x then op.request else a.owner x := by
  obtain ⟨core, applied, done⟩ := bind_eq_some_iff.mp stepped
  cases done
  exact ⟨core, applied, rfl, rfl⟩

variable {key : UInt16 × Nat}

theorem Audited.HasOrder.shows (sound : a.Sound) (has : a.HasOrder key i) :
    ∃ q, 0 < q ∧ Shows a.core key q := by
  obtain ⟨x, s, p, q, owned, rests⟩ := has
  obtain ⟨params, book⟩ := sound.healthy.book rests
  exact ⟨q, book.rests_pos rests.2, sound.shows_iff.mpr ⟨x, i, s, p, owned, rests⟩⟩

theorem Audited.Sound.hasOrder_of_reverse (sound : a.Sound) {x : Nat} {s : Side} {p : Int} {q : Nat}
    {reverse : ReverseIdEntry} (found : a.core.reverseIdMap.content x = some reverse) (rests : a.core.Rests i s p x q) :
    a.HasOrder (ownerOf reverse) i :=
  ⟨x, s, p, q, sound.mirror.owned x reverse found, rests⟩

/-- The order that a modify replaces rests in the book that the modify names. -/
theorem Audited.Sound.hasOrder_of_entry (sound : a.Sound) {modify : ModifyOrder} {entry : IdEntry} {idx : Nat}
    {engine : MatchingEngine 64} (bound : modify.clientOrderId ≤ kMaxClientOrderId)
    (known : a.core.symbolIndex modify.symbolId = some idx)
    (mapped : a.core.idMap.content (makeCompositeKey sessionId modify.clientOrderId) = some entry)
    (cancelled : (a.core.symbols idx).engine.cancelOrder entry.exchangeId = some (true, engine)) :
    a.HasOrder (sessionId, modify.clientOrderId) idx := by
  obtain ⟨healthy, mirror, _⟩ := sound
  obtain ⟨_, registered⟩ := symbolIndex_eq_some known
  obtain ⟨params, book⟩ := healthy.books idx registered.1 registered.2
  obtain ⟨_, _, done, _, answer, _⟩ := Algo.cancelOrder_effect book entry.exchangeId
  obtain ⟨rfl, _⟩ := Prod.mk.inj (mem_unique cancelled done)
  obtain ⟨s, p, q, rests⟩ := answer.mp rfl
  obtain ⟨reverse, found, _⟩ := healthy.paired.forth _ _ mapped
  have mine := (owner_entry healthy.paired bound mapped found).mp rfl
  exact ⟨entry.exchangeId, s, p, q, mine ▸ mirror.owned _ reverse found, registered, rests⟩

/-! ### Where orders come from -/

theorem hasOrder_withdrawn {client : List ExchangeEvent} {Gone : Nat → Prop}
    (withdrawn : Withdrawn a.core core client Gone) (same : a'.core = core.drainEvents.2)
    (owner : a'.owner = fun x => if core.inBooks x && !a.core.inBooks x then op.request else a.owner x)
    (has : a'.HasOrder key i) : ∃ x s p q, a.owner x = some key ∧ a.core.Rests i s p x q ∧ ¬ Gone x := by
  obtain ⟨x, s, p, q, owned, rests⟩ := has
  rw [same] at rests
  obtain ⟨before, stays⟩ := (withdrawn.rests i s p x q).mp rests
  have held := (inBooks_iff x).mpr ⟨i, s, p, q, before⟩
  rw [owner] at owned
  simp only [held, Bool.not_true, Bool.and_false, Bool.false_eq_true, if_false] at owned
  exact ⟨x, s, p, q, owned, before, stays⟩

theorem hasOrder_exchanged {idx qty : Nat} {taker : Taker} {price : Int} {Old : Nat → Prop} {b : OrderBook}
    {result : MatchResult}
    {ack : ExchangeEvent} (sound : a.Sound) (exchanged : Exchanged a.core core idx taker price qty Old b result ack)
    (same : a'.core = core.drainEvents.2)
    (owner : a'.owner = fun x => if core.inBooks x && !a.core.inBooks x then op.request else a.owner x)
    (request : op.request = some (taker.sessionId, taker.clientOrderId)) (has : a'.HasOrder key i) :
    a.HasOrder key i ∨ (key = (taker.sessionId, taker.clientOrderId) ∧ i = idx) := by
  obtain ⟨x, s, p, q, owned, rests⟩ := has
  rw [same] at rests
  rw [owner] at owned
  rcases (exchanged.rests_iff sound.mirror i s x).mp ⟨p, q, rests⟩ with ⟨⟨p₀, q₀, before⟩, _⟩ | ⟨rested, here, _, new⟩
  · have held := (inBooks_iff x).mpr ⟨i, s, p₀, q₀, before⟩
    simp only [held, Bool.not_true, Bool.and_false, Bool.false_eq_true, if_false] at owned
    exact .inl ⟨x, s, p₀, q₀, owned, before⟩
  · have held : core.inBooks x = true := (inBooks_iff x).mpr ⟨i, s, p, q, rests⟩
    have unheld : a.core.inBooks x = false := by
      rw [Bool.eq_false_iff]
      intro before
      obtain ⟨i₀, s₀, p₀, q₀, old⟩ := (inBooks_iff x).mp before
      subst new
      exact exchanged.fresh_rests sound.mirror rested old
    simp only [held, unheld, Bool.not_false, Bool.and_self, if_true, request, some.injEq] at owned
    exact .inr ⟨owned.symm, here⟩

theorem step_hasOrder (sound : a.Sound) (room : IdRoom a.core op) (stepped : a.step op = some a')
    (has : a'.HasOrder key i) : a.HasOrder key i ∨
      ∃ sessionId order, op = .submit sessionId order ∧ key = (sessionId, order.clientOrderId) ∧
      order.symbolId = i + 1 := by
  obtain ⟨core, applied, same, owner⟩ := step_eq_some stepped
  have withdraws : ∀ {client Gone}, Withdrawn a.core core client Gone → a.HasOrder key i := by
    intro client Gone withdrawn
    obtain ⟨x, s, p, q, owned, rests, _⟩ := hasOrder_withdrawn withdrawn same owner has
    exact ⟨x, s, p, q, owned, rests⟩
  obtain ⟨healthy, mirror, drained⟩ := sound
  cases op with
  | connect =>
    obtain ⟨⟨sessionId, _⟩, connected, rfl⟩ := map_eq_some_iff.mp applied
    exact .inl (withdraws (onClientConnect_effect healthy connected))
  | disconnect sessionId =>
    have withdrawn := onClientDisconnect_effect healthy mirror drained applied
    exact .inl (withdraws withdrawn)
  | cancel sessionId cancel =>
    have outcome := cancelOrder_effect healthy mirror drained applied
    rcases outcome with ⟨_, _, withdrawn⟩ | ⟨_, _, _, withdrawn⟩
    · exact .inl (withdraws withdrawn)
    · exact .inl (withdraws withdrawn)
  | submit sessionId order =>
    have outcome := submitOrder_effect healthy drained room applied
    rcases outcome with ⟨_, _, withdrawn⟩ | ⟨idx, result, engine, known, _, _, _, _, exchanged⟩
    · exact .inl (withdraws withdrawn)
    · rcases hasOrder_exchanged ⟨healthy, mirror, drained⟩ exchanged same owner rfl has with old | ⟨mine, rfl⟩
      · exact .inl old
      · exact .inr ⟨sessionId, order, rfl, mine, (symbolIndex_eq_some known).1⟩
  | modify sessionId modify =>
    have outcome := modifyOrder_effect healthy mirror drained room applied
    rcases outcome with ⟨_, _, withdrawn⟩ | ⟨idx, entry, result, e₁, engine, bound, known, mapped, cancelled,
      _, exchanged⟩
    · exact .inl (withdraws withdrawn)
    · rcases hasOrder_exchanged ⟨healthy, mirror, drained⟩ exchanged same owner rfl has with old | ⟨rfl, rfl⟩
      · exact .inl old
      · exact .inl (Audited.Sound.hasOrder_of_entry ⟨healthy, mirror, drained⟩ bound known mapped cancelled)

/-! ### Orders that are over -/

variable {event : ExchangeEvent}

/-- A fill is reported to the taker, with what is left to fill, or to the owner of the maker. -/
theorem mem_fillEvents {taker : Taker} {makerOf : Nat → Option ReverseIdEntry} {leftOf : Nat → Nat} {remaining : Nat}
    {fills : List Fill} (member : event ∈ fillEvents taker makerOf leftOf remaining fills) :
    (addressee event = (taker.sessionId, taker.clientOrderId) ∧
      remaining ≤ event.remainingQty + PriceTime.filledQty (fills.map Fill.execution)) ∨
    ∃ fill ∈ fills, ∃ maker, makerOf fill.makerId = some maker ∧
    event = makerEvent maker fill taker.side (leftOf fill.makerId) := by
  induction fills generalizing remaining with
  | nil => cases member
  | cons fill fills ih =>
    have sum : PriceTime.filledQty ((fill :: fills).map Fill.execution) =
        fill.qty + PriceTime.filledQty (fills.map Fill.execution) := by
      simp [PriceTime.filledQty, Fill.execution]
    simp only [fillEvents, cons_append, mem_cons, mem_append, List.mem_map, mem_toList] at member
    rcases member with rfl | ⟨maker, found, rfl⟩ | later
    · refine .inl ⟨rfl, ?_⟩
      rw [sum]
      show remaining ≤ (remaining - fill.qty) + _
      omega
    · exact .inr ⟨fill, mem_cons_self, maker, found, rfl⟩
    · rcases ih later with ⟨mine, left⟩ | ⟨other, listed, maker, found, same⟩
      · refine .inl ⟨mine, ?_⟩
        rw [sum]
        omega
      · exact .inr ⟨other, mem_cons_of_mem _ listed, maker, found, same⟩

section Exchanged

variable {idx qty : Nat} {taker : Taker} {price : Int} {Old : Nat → Prop} {b : OrderBook} {result : MatchResult}
  {ack : ExchangeEvent}

/-- After a last fill neither the taker nor the maker has anything in the books. -/
theorem final_fill_shows (sound : a.Sound) (exchanged : Exchanged a.core core idx taker price qty Old b result ack)
    (old : ∀ x reverse, a.core.reverseIdMap.content x = some reverse → Old x →
      ownerOf reverse = (taker.sessionId, taker.clientOrderId))
    (own : addressee event = (taker.sessionId, taker.clientOrderId) → ∀ x reverse,
      a.core.reverseIdMap.content x = some reverse → ownerOf reverse = (taker.sessionId, taker.clientOrderId) → Old x)
    (member : event ∈ fillEvents taker a.core.reverseIdMap.content (leftIn (core.bookOf idx)) qty result.fills)
    (last : event.remainingQty = 0) :
    (addressee event = (taker.sessionId, taker.clientOrderId) ∨ ∃ i, a.HasOrder (addressee event) i) ∧
      ∀ q, 0 < q → ¬ Shows core (addressee event) q := by
  have mirror := sound.mirror
  have both := fun mine x reverse found => Iff.intro (old x reverse found) (own mine x reverse found)
  rcases mem_fillEvents member with ⟨mine, left⟩ | ⟨fill, listed, maker, found, rfl⟩
  · refine ⟨.inl mine, fun q positive shows => ?_⟩
    rw [mine, exchanged.shows_taker mirror (both mine)] at shows
    obtain ⟨rested, same⟩ := shows
    have total := exchanged.submitted.total
    omega
  · obtain ⟨s, p, q, rests⟩ := exchanged.maker_rests (List.mem_map_of_mem listed)
    refine ⟨.inr ⟨idx, sound.hasOrder_of_reverse found rests⟩, fun q positive shows => ?_⟩
    have other : (taker.sessionId, taker.clientOrderId) ≠ ownerOf maker := by
      intro mine
      exact exchanged.maker_apart (both mine.symm) fill listed maker found mine.symm
    rcases exchanged.shows_other sound.healthy mirror old other positive with
      ⟨fill', _, maker', found', same, iff⟩ | ⟨nobody, _⟩
    · have id := owner_unique sound.healthy.paired found found' same
      have some_left := iff.mp shows
      rw [id] at some_left
      change leftIn (core.bookOf idx) fill.makerId = 0 at last
      omega
    · exact nobody fill listed maker found rfl

end Exchanged

theorem cancelOrder_acks (sound : a.Sound) {cancel : CancelOrder} (has : a.HasOrder (sessionId, cancel.clientOrderId) i)
    (symbol : cancel.symbolId = i + 1) (done : a.core.cancelOrder sessionId cancel = some core) :
    ∃ events, core.events = events ++ [cancelAckEvent sessionId cancel] := by
  obtain ⟨healthy, mirror, _⟩ := sound
  obtain ⟨x, s, p, q, owned, rests⟩ := has
  obtain ⟨entry, reverse, found, mapped, id, _⟩ := mirror.mapped i s p x q rests
  obtain ⟨session, client⟩ := Prod.mk.inj (mem_unique (mirror.owned x reverse found) owned)
  obtain ⟨_, _, _, _, bound⟩ := healthy.paired.back x reverse found
  rw [keyOf, session, client] at mapped
  rw [client] at bound
  obtain ⟨params, book⟩ := healthy.book rests
  obtain ⟨cancelled, engine, ran, _, answer, _⟩ := Algo.cancelOrder_effect book x
  have known : a.core.symbolIndex cancel.symbolId = some i := by
    unfold symbolIndex
    obtain ⟨small, active⟩ := rests.1
    rw [symbol, if_neg (by omega), Nat.add_sub_cancel, if_pos active]
  obtain rfl := answer.mpr ⟨s, p, q, rests.2⟩
  unfold cancelOrder at done
  simp only [Nat.not_lt_of_le bound, if_false, known, FixedHashMap.find, healthy.maps.id.find_eq, mapped, id,
    bind_eq_bind, bind_some] at done
  change ((a.core.symbols i).engine.cancelOrder x).bind _ = _ at done
  simp only [ran, bind_some, Bool.not_true, Bool.false_eq_true, if_false] at done
  obtain ⟨core₁, _, emitted⟩ := bind_eq_some_iff.mp done
  unfold emit at emitted
  split at emitted
  · cases emitted
  · cases emitted
    exact ⟨core₁.events, rfl⟩

theorem isClient_of_isFinal (final : event.isFinal = true) : isClient event = true := by
  unfold ExchangeEvent.isFinal at final
  unfold isClient
  split at final <;> simp_all

/-- An order that a final event names belongs to the sender of the call or rested before, and rests no more. -/
theorem step_final (sound : a.Sound) (room : IdRoom a.core op) (applied : a.core.apply op = some core)
    (stepped : a.step op = some a')
    (unused : ∀ sessionId order i, op = .submit sessionId order → addressee event = (sessionId, order.clientOrderId) →
      ¬ a.HasOrder (sessionId, order.clientOrderId) i)
    (located : ∀ sessionId cancel i, op = .cancel sessionId cancel →
      addressee event = (sessionId, cancel.clientOrderId) →
      a.HasOrder (sessionId, cancel.clientOrderId) i → cancel.symbolId = i + 1)
    (emitted : event ∈ core.events) (final : event.isFinal = true) :
    (op.key = some (addressee event) ∨ ∃ i, a.HasOrder (addressee event) i) ∧
    ∀ i, ¬ a'.HasOrder (addressee event) i := by
  have sound' := sound.step room stepped
  obtain ⟨core₁, applied₁, same, owner⟩ := step_eq_some stepped
  obtain rfl := mem_unique applied applied₁
  have reported : event ∈ core.events.filter isClient := mem_filter.mpr ⟨emitted, isClient_of_isFinal final⟩
  have hidden : (∀ q, 0 < q → ¬ Shows core (addressee event) q) → ∀ i, ¬ a'.HasOrder (addressee event) i := by
    intro none i has
    obtain ⟨q, positive, shows⟩ := has.shows sound'
    rw [same] at shows
    exact none q positive shows
  have ⟨healthy, mirror, drained⟩ := sound
  cases op with
  | connect =>
    obtain ⟨⟨sessionId, _⟩, connected, rfl⟩ := map_eq_some_iff.mp applied
    rw [(onClientConnect_effect healthy connected).events, drained] at reported
    cases reported
  | disconnect sessionId =>
    have withdrawn := onClientDisconnect_effect healthy mirror drained applied
    rw [withdrawn.events] at reported
    cases reported
  | cancel sessionId cancel =>
    have outcome := cancelOrder_effect healthy mirror drained applied
    rcases outcome with ⟨_, ⟨type, session, client⟩, withdrawn⟩ | ⟨entry, bound, mapped, withdrawn⟩
    · rw [withdrawn.events] at reported
      cases mem_singleton.mp reported
      have mine : addressee event = (sessionId, cancel.clientOrderId) := by rw [addressee, session, client]
      refine ⟨.inl (by rw [mine]; rfl), fun i has => ?_⟩
      rw [mine] at has
      obtain ⟨x, s, p, q, owned, rests, _⟩ := hasOrder_withdrawn withdrawn same owner has
      have before : a.HasOrder (sessionId, cancel.clientOrderId) i := ⟨x, s, p, q, owned, rests⟩
      obtain ⟨events, acked⟩ := cancelOrder_acks sound before (located sessionId cancel i rfl mine before) applied
      have ack : cancelAckEvent sessionId cancel ∈ core.events.filter isClient := by
        simp [acked, isClient, cancelAckEvent]
      rw [withdrawn.events] at ack
      rw [← mem_singleton.mp ack] at type
      cases type
    · rw [withdrawn.events] at reported
      cases mem_singleton.mp reported
      refine ⟨.inl rfl, fun i has => ?_⟩
      obtain ⟨x, s, p, q, owned, rests, stays⟩ := hasOrder_withdrawn withdrawn same owner has
      obtain ⟨_, reverse, found, _⟩ := mirror.mapped i s p x q rests
      refine stays ((owner_entry healthy.paired bound mapped found).mpr ?_)
      exact mem_unique (mirror.owned x reverse found) owned
  | submit sessionId order =>
    have outcome := submitOrder_effect healthy drained room applied
    have fresh : addressee event = (sessionId, order.clientOrderId) → ∀ x reverse,
        a.core.reverseIdMap.content x = some reverse → ownerOf reverse = (sessionId, order.clientOrderId) → False := by
      intro mine x reverse found same
      obtain ⟨i, s, p, q, rests⟩ := mirror.rests_of_reverse healthy.paired found
      exact unused sessionId order i rfl mine (same ▸ sound.hasOrder_of_reverse found rests)
    rcases outcome with ⟨_, ⟨type, session, client⟩, withdrawn⟩ | ⟨idx, result, engine, _, _, _, _, _, exchanged⟩
    · rw [withdrawn.events] at reported
      cases mem_singleton.mp reported
      have mine : addressee event = (sessionId, order.clientOrderId) := by rw [addressee, session, client]
      refine ⟨.inl (by rw [mine]; rfl), fun i has => ?_⟩
      rw [mine] at has
      obtain ⟨x, s, p, q, owned, rests, _⟩ := hasOrder_withdrawn withdrawn same owner has
      exact unused sessionId order i rfl mine ⟨x, s, p, q, owned, rests⟩
    · rw [exchanged.events] at reported
      rcases mem_cons.mp reported with rfl | fill
      · cases final
      · have last : event.remainingQty = 0 := by simpa [ExchangeEvent.isFinal, fillEvents_type fill] using final
        obtain ⟨known, gone⟩ := final_fill_shows sound exchanged (fun _ _ _ => False.elim) fresh fill last
        exact ⟨known.imp_left fun mine => by rw [mine]; rfl, hidden gone⟩
  | modify sessionId modify =>
    have outcome := modifyOrder_effect healthy mirror drained room applied
    rcases outcome with ⟨_, ⟨type, _⟩, withdrawn⟩ | ⟨idx, entry, result, e₁, engine, bound, known, mapped, cancelled,
      _, exchanged⟩
    · rw [withdrawn.events] at reported
      cases mem_singleton.mp reported
      simp [ExchangeEvent.isFinal, type] at final
    · rw [exchanged.events] at reported
      rcases mem_cons.mp reported with rfl | fill
      · cases final
      · have last : event.remainingQty = 0 := by simpa [ExchangeEvent.isFinal, fillEvents_type fill] using final
        have own : ∀ x reverse, a.core.reverseIdMap.content x = some reverse →
            (x = entry.exchangeId ↔ ownerOf reverse = (sessionId, modify.clientOrderId)) :=
          fun x reverse found => owner_entry healthy.paired bound mapped found
        obtain ⟨whose, gone⟩ := final_fill_shows sound exchanged (fun x reverse found => (own x reverse found).mp)
          (fun _ x reverse found => (own x reverse found).mpr) fill last
        refine ⟨.inr (whose.elim (fun mine => ⟨idx, ?_⟩) id), hidden gone⟩
        rw [mine]
        exact sound.hasOrder_of_entry bound known mapped cancelled

theorem step_cancel_gone (sound : a.Sound) {cancel : CancelOrder}
    (located : ∀ i, a.HasOrder (sessionId, cancel.clientOrderId) i → cancel.symbolId = i + 1)
    (stepped : a.step (.cancel sessionId cancel) = some a') (i : Nat) :
    ¬ a'.HasOrder (sessionId, cancel.clientOrderId) i := by
  obtain ⟨core, applied, _⟩ := step_eq_some stepped
  have outcome := cancelOrder_effect sound.healthy sound.mirror sound.drained applied
  have answered : ∃ event ∈ core.events, event.isFinal = true ∧
      addressee event = (sessionId, cancel.clientOrderId) := by
    rcases outcome with ⟨event, ⟨type, session, client⟩, withdrawn⟩ | ⟨_, _, _, withdrawn⟩
    · refine ⟨event, (mem_filter.mp (withdrawn.events ▸ mem_singleton_self event)).1, ?_, ?_⟩
      · simp [ExchangeEvent.isFinal, type]
      · rw [addressee, session, client]
    · exact ⟨_, (mem_filter.mp (withdrawn.events ▸ mem_singleton_self _)).1, rfl, rfl⟩
  obtain ⟨event, emitted, final, mine⟩ := answered
  rw [← mine]
  refine (step_final sound (by trivial) applied stepped (fun _ _ _ impossible => by cases impossible) ?_
    emitted final).2 i
  rintro _ _ i same _ has
  cases same
  exact located i has

end TickToTrade.Exchange
