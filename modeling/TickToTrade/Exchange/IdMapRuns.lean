import TickToTrade.Exchange.Stacking

/-!
The id maps mirror the books in every run in which they have room for the orders that come to rest.
-/

namespace TickToTrade.Exchange
open Algo Ds Probing PairedMaps ExchangeCore List Option Function

variable {maxSymbols : Nat} {core core' : ExchangeCore maxSymbols} {a a' : Audited maxSymbols}

/-- The maps as a lookup reads them: inverse to each other, with the ids that rest in the books, and each entry carries
the owner, the symbol and the side of its order. -/
structure Mirrored (owner : Nat → Option (UInt16 × Nat)) (core : ExchangeCore maxSymbols) : Prop where
  inverse : ∀ key x, (∃ entry, core.idMap.find key = some (some entry) ∧ entry.exchangeId = x) ↔
    ∃ reverse, core.reverseIdMap.find x = some (some reverse) ∧ keyOf reverse = key
  exact : ∀ x, (∃ reverse, core.reverseIdMap.find x = some (some reverse)) ↔ ∃ i s p q, core.Rests i s p x q
  carried : ∀ x i s p q reverse, core.reverseIdMap.find x = some (some reverse) → core.Rests i s p x q →
    owner x = some (reverse.sessionId, reverse.clientOrderId) ∧ reverse.symbolId = i + 1 ∧
      core.idMap.find (keyOf reverse) = some (some ⟨x, s, i + 1⟩)

theorem mirrored_of_mirror {owner : Nat → Option (UInt16 × Nat)} (healthy : Healthy core) (mirror : Mirror owner core) :
    Mirrored owner core := by
  have paired := healthy.paired
  have readId : ∀ key value, core.idMap.find key = some (some value) ↔ core.idMap.content key = some value := by
    intro key value
    rw [FixedHashMap.find, healthy.maps.id.find_eq, some.injEq]
  have readReverse : ∀ x value, core.reverseIdMap.find x = some (some value) ↔
      core.reverseIdMap.content x = some value := by
    intro x value
    rw [FixedHashMap.find, healthy.maps.reverse.find_eq, some.injEq]
  refine ⟨?_, ?_, ?_⟩
  · intro key x
    simp only [readId, readReverse]
    constructor
    · rintro ⟨entry, found, same⟩
      obtain ⟨reverse, back, key, _⟩ := paired.forth _ _ found
      exact ⟨reverse, same ▸ back, key⟩
    · rintro ⟨reverse, found, same⟩
      obtain ⟨entry, forth, id, _⟩ := paired.back _ _ found
      exact ⟨entry, same ▸ forth, id⟩
  · intro x
    simp only [readReverse]
    constructor
    · rintro ⟨reverse, found⟩
      exact mirror.rests_of_reverse paired found
    · rintro ⟨i, s, p, q, rests⟩
      obtain ⟨_, reverse, found, _⟩ := mirror.mapped i s p x q rests
      exact ⟨reverse, found⟩
  · intro x i s p q reverse found rests
    rw [readReverse] at found
    obtain ⟨⟨id, side, symbol⟩, reverse', found', mapped, rfl, rfl, rfl⟩ := mirror.mapped i s p x q rests
    rw [found] at found'
    cases found'
    obtain ⟨entry', forth, _, agree, _⟩ := paired.back _ _ found
    rw [mapped] at forth
    cases forth
    exact ⟨mirror.owned _ reverse found, agree.symm, (readId _ _).mpr mapped⟩

def IdRoom (core : ExchangeCore maxSymbols) : Op → Prop
  | .submit sessionId order => SubmitRoom core sessionId order
  | .modify sessionId order => ModifyRoom core sessionId order
  | _ => True

instance (core : ExchangeCore maxSymbols) (sessionId : UInt16) (order : NewOrder) :
    Decidable (SubmitRoom core sessionId order) :=
  inferInstanceAs (Decidable (∀ idx ∈ core.symbolIndex order.symbolId, _))

instance (core : ExchangeCore maxSymbols) (sessionId : UInt16) (modify : ModifyOrder) :
    Decidable (ModifyRoom core sessionId modify) :=
  decidable_of_iff (∀ idx ∈ core.symbolIndex modify.symbolId,
    ∀ entry ∈ core.idMap.content (makeCompositeKey sessionId modify.clientOrderId), modify.clientOrderId ≤
      kMaxClientOrderId → Unfilled (core.bookOf idx) entry.side modify.newPrice modify.newQty →
      core.reverseIdMap.accepts DefaultHash.hash core.nextExchangeId = true)
    ⟨fun room idx entry known bound found => room idx known entry found bound,
      fun room idx known entry found bound => room idx entry known bound found⟩

instance (core : ExchangeCore maxSymbols) : DecidablePred (IdRoom core)
  | .submit _ _ => inferInstanceAs (Decidable (SubmitRoom ..))
  | .modify _ _ => inferInstanceAs (Decidable (ModifyRoom ..))
  | .connect | .disconnect _ | .cancel _ _ => isTrue trivial

/-- The id maps have room for what every call of the run puts into a book. -/
abbrev IdRoomRun (a : Audited maxSymbols) (ops : List Op) : Prop :=
  Transition.Along Audited.step (fun a op => IdRoom a.core op) ops a

structure Audited.Sound (a : Audited maxSymbols) : Prop where
  healthy : Healthy a.core
  mirror : Mirror a.owner a.core
  drained : a.core.events = []

theorem Audited.Sound.drain {owner : Nat → Option (UInt16 × Nat)} (healthy : Healthy core) (mirror : Mirror owner core)
    (view : UInt16 × Nat → Option Nat) : Audited.Sound ⟨core.drainEvents.2, owner, view⟩ where
  healthy := { healthy with maps := { healthy.maps with } }
  mirror := { mirror with }
  drained := rfl

theorem apply_effect (sound : a.Sound) {op : Op} (room : IdRoom a.core op) (applied : a.core.apply op = some core') :
    (∃ client Gone, Withdrawn a.core core' client Gone) ∨
    ∃ idx taker price qty Old b result ack, Exchanged a.core core' idx taker price qty Old b result ack ∧
      op.request = some (taker.sessionId, taker.clientOrderId) := by
  obtain ⟨healthy, mirror, drained⟩ := sound
  cases op with
  | connect =>
    obtain ⟨⟨sessionId, _⟩, connected, rfl⟩ := map_eq_some_iff.mp applied
    exact .inl ⟨_, _, onClientConnect_effect healthy connected⟩
  | disconnect sessionId =>
    have withdrawn := onClientDisconnect_effect healthy mirror drained applied
    exact .inl ⟨_, _, withdrawn⟩
  | submit sessionId order =>
    have outcome := submitOrder_effect healthy drained room applied
    rcases outcome with ⟨_, _, withdrawn⟩ | ⟨idx, result, engine, _, _, _, _, _, exchanged⟩
    · exact .inl ⟨_, _, withdrawn⟩
    · exact .inr ⟨idx, _, _, _, _, _, _, _, exchanged, rfl⟩
  | cancel sessionId order =>
    have outcome := cancelOrder_effect healthy mirror drained applied
    rcases outcome with ⟨_, _, withdrawn⟩ | ⟨_, _, _, withdrawn⟩
    · exact .inl ⟨_, _, withdrawn⟩
    · exact .inl ⟨_, _, withdrawn⟩
  | modify sessionId order =>
    have outcome := modifyOrder_effect healthy mirror drained room applied
    rcases outcome with ⟨_, _, withdrawn⟩ | ⟨idx, entry, result, e₁, engine, _, _, _, _, _, exchanged⟩
    · exact .inl ⟨_, _, withdrawn⟩
    · exact .inr ⟨idx, _, _, _, _, _, _, _, exchanged, rfl⟩

theorem Audited.Sound.step (sound : a.Sound) {op : Op} (room : IdRoom a.core op) (stepped : a.step op = some a') :
    a'.Sound := by
  unfold Audited.step at stepped
  cases applied : a.core.apply op with
  | none => simp [applied] at stepped
  | some core' =>
    simp only [applied, bind_eq_bind, bind_some, Option.pure_def, some.injEq] at stepped
    subst stepped
    have healthy := sound.healthy
    rcases apply_effect sound room applied with
      ⟨_, _, withdrawn⟩ | ⟨idx, taker, price, qty, Old, b, result, ack, exchanged, request⟩
    · refine Audited.Sound.drain withdrawn.healthy (sound.mirror.after_withdrawal withdrawn ?_ healthy.paired) _
      intro x held
      simp [(inBooks_iff x).mpr held]
    · refine Audited.Sound.drain exchanged.healthy (sound.mirror.after_exchange exchanged healthy.paired ?_ ?_) _
      · intro x held _
        simp [(inBooks_iff x).mpr held]
      · intro rested
        obtain ⟨p, q, rests⟩ := (exchanged.rests_iff sound.mirror idx taker.side taker.exchangeId).mpr
          (.inr ⟨rested, rfl, rfl, rfl⟩)
        have held : core'.inBooks taker.exchangeId = true := (inBooks_iff _).mpr ⟨_, _, p, q, rests⟩
        have unheld : a.core.inBooks taker.exchangeId = false := by
          rw [Bool.eq_false_iff]
          intro before
          obtain ⟨i, s, p, q, old⟩ := (inBooks_iff _).mp before
          exact exchanged.fresh_rests sound.mirror rested old
        simp [held, unheld, request]

theorem Audited.Sound.run (sound : a.Sound) {ops : List Op} (room : IdRoomRun a ops) (ran : a.run ops = some a') :
    a'.Sound :=
  Transition.run_invariant (fun sound room stepped => sound.step room stepped) sound room ran

/-! ### The start of a run -/

/-- Symbols are registered and nothing has been traded. -/
structure Fresh (core : ExchangeCore maxSymbols) : Prop where
  healthy : Healthy core
  idMap : ∀ key, core.idMap.content key = none
  reverseIdMap : ∀ x, core.reverseIdMap.content x = none
  empty : ∀ i s p x q, ¬ core.Rests i s p x q
  drained : core.events = []

theorem fresh_initial : Fresh ({} : ExchangeCore maxSymbols) where
  healthy := {
    maps := ⟨Table.fresh_wellFormed (p := 14) (by decide), Table.fresh_wellFormed (p := 10) (by decide),
      Table.fresh_wellFormed (p := 10) (by decide)⟩
    paired := by
      constructor
      · intro key entry found
        cases (Table.fresh_content _ _ key).symm.trans found
      · intro x reverse found
        cases (Table.fresh_content _ _ x).symm.trans found
    books := by
      intro i _ active
      cases active }
  idMap := Table.fresh_content _ _
  reverseIdMap := Table.fresh_content _ _
  empty := by
    intro i s p x q ⟨⟨_, active⟩, _⟩
    cases active
  drained := rfl

theorem Fresh.registerSymbol (fresh : Fresh core) {symbolId : Nat} {params : Params}
    (registered : core.registerSymbol symbolId params = some core') : Fresh core' := by
  unfold ExchangeCore.registerSymbol at registered
  split at registered
  · cases registered
  cases created : MatchingEngine.create 64 params with
  | none => simp [created] at registered
  | some engine =>
    simp only [created, bind_eq_bind, bind_some, Option.pure_def, some.injEq] at registered
    subst registered
    have healthy := fresh.healthy
    refine { fresh with healthy := ⟨{ healthy.maps with }, healthy.paired, ?_⟩, empty := ?_ }
    · intro i bound active
      unfold bookOf
      by_cases here : i = symbolId - 1
      · subst here
        exact ⟨params, by simpa using MatchingEngine.create_sound created⟩
      · simp only [update_of_ne here] at active ⊢
        exact healthy.books i bound active
    · intro i s p x q rests
      unfold Rests bookOf at rests
      by_cases here : i = symbolId - 1
      · subst here
        simp only [update_self, OrderBook.Rests,
          (OrderBook.bind_linked (MatchingEngine.create_book created)).2.1] at rests
        cases rests.2
      · simp only [update_of_ne here] at rests
        exact fresh.empty i s p x q rests

theorem Fresh.registerAll (fresh : Fresh core) {symbols : List (Nat × Params)}
    (registered : ExchangeCore.registerAll symbols core = some core') : Fresh core' := by
  induction symbols generalizing core with
  | nil =>
    cases registered
    exact fresh
  | cons symbol rest ih =>
    obtain ⟨symbolId, params⟩ := symbol
    unfold ExchangeCore.registerAll at registered
    obtain ⟨core₁, first, later⟩ := bind_eq_some_iff.mp registered
    exact ih (fresh.registerSymbol first) later

theorem Fresh.connect (fresh : Fresh core) {sessionId : UInt16}
    (connected : core.onClientConnect = some (sessionId, core')) : Fresh core' := by
  have withdrawn := onClientConnect_effect fresh.healthy connected
  refine ⟨withdrawn.healthy, ?_, ?_, fun i s p x q rests =>
    fresh.empty i s p x q ((withdrawn.rests i s p x q).mp rests).1, ?_⟩
  all_goals rw [findSession_frame connected]
  · exact fresh.idMap
  · exact fresh.reverseIdMap
  · exact fresh.drained

theorem Fresh.sound (fresh : Fresh core) : Audited.Sound ({ core } : Audited maxSymbols) where
  healthy := fresh.healthy
  mirror := {
    mapped := fun i s p x q rests => absurd rests (fresh.empty i s p x q)
    resting := by
      intro key entry found
      rw [fresh.idMap] at found
      cases found
    owned := by
      intro x reverse found
      rw [fresh.reverseIdMap] at found
      cases found }
  drained := fresh.drained

section Stacked

variable {sessionId : UInt16} {side : Side} {price : Int} {bound k : Nat}

theorem Stacked.submitRoom (stacked : Stacked sessionId side price bound k core) (below : k < bound) (few : bound ≤ 716)
    {order : NewOrder} (next : order.clientOrderId = k + 1) : SubmitRoom core sessionId order := by
  intro idx _ _ _ _
  have idLoad := stacked.ids.load
  have idLimit := stacked.idLoad
  have reverseLoad := stacked.reverses.load
  have reverseLimit := stacked.reverseLoad
  rw [next, stacked.next]
  exact ⟨stacked.ids.wellFormed.accepts_of_room (stacked.ids.new (k + 1) (by omega) below) (by omega) ⟨0, side, 0⟩,
    stacked.reverses.wellFormed.accepts_of_room (stacked.reverses.new (k + 1) (by omega) below) (by omega) ⟨0, 0, 0, 0⟩⟩

theorem Stacked.idRoomRun (stacked : Stacked sessionId side price bound 0 a.core) (few : bound ≤ 716)
    (upTo : k ≤ bound) : IdRoomRun a (stackOps sessionId side price k) := by
  induction k with
  | zero => trivial
  | succ k ih =>
    rw [stackOps_succ]
    refine Transition.along_append (ih (by omega)) fun a' ran => ⟨?_, fun _ _ => trivial⟩
    obtain ⟨a₁, ran₁, stacked₁⟩ := stacked.run (k := k) (by omega) (by omega)
    obtain rfl : a' = a₁ := mem_unique ran ran₁
    exact stacked₁.submitRoom (by omega) few rfl

theorem Stacked.idRoomRun_connect {core : ExchangeCore maxSymbols}
    (stacked : Stacked sessionId side price bound 0 a.core)
    (connected : ({ core } : Audited maxSymbols).step .connect = some a) (few : bound ≤ 716) (upTo : k ≤ bound) :
    IdRoomRun { core } (.connect :: stackOps sessionId side price k) := by
  refine ⟨trivial, fun a' stepped => ?_⟩
  rw [connected] at stepped
  cases stepped
  exact stacked.idRoomRun few upTo

theorem Stacked.not_mirrored (stacked : Stacked sessionId side price bound k core) (many : 716 < k)
    (owner : Nat → Option (UInt16 × Nat)) : ¬ Mirrored owner core := by
  intro mirrored
  have wf := stacked.reverses.wellFormed
  have listed : (range k).map (· + 1) ⊆ core.reverseIdMap.entries.map Prod.fst := by
    intro x member
    obtain ⟨j, lower, rfl⟩ := List.mem_map.mp member
    have rests : core.Rests 0 side price (j + 1) 1 := by
      refine ⟨stacked.registered, ?_⟩
      rw [OrderBook.Rests, stacked.own]
      exact mem_makers_stack.mpr ⟨rfl, j, mem_range.mp lower, rfl⟩
    obtain ⟨reverse, found⟩ := (mirrored.exact (j + 1)).mpr ⟨0, side, price, 1, rests⟩
    rw [FixedHashMap.find, wf.find_eq, some.injEq] at found
    exact List.mem_map.mpr ⟨_, wf.content_eq_some.mp found, rfl⟩
  have distinct : ((range k).map (· + 1)).Nodup := nodup_range.map fun x y same => by simpa using same
  have long := (subperm_of_subset distinct listed).length_le
  have load := wf.load
  have size := wf.size_eq
  have limit := stacked.reverseLoad
  rw [length_map, length_range, length_map] at long
  omega

end Stacked

/-- The maps mirror the books as long as they have room for the orders that come to rest. -/
theorem run_mirrored {symbols : List (Nat × Params)} (registered : registerAll symbols {} = some core) {ops : List Op}
    (room : IdRoomRun { core } ops) (ran : Audited.run ops { core } = some a) : Mirrored a.owner a.core := by
  have sound := (fresh_initial.registerAll registered).sound.run room ran
  exact mirrored_of_mirror sound.healthy sound.mirror

theorem run_mirrored_two : ∃ (core : ExchangeCore 1) (a : Audited 1), registerAll [(1, {})] {} = some core ∧
    IdRoomRun { core } (.connect :: stackOps 1 .kBid 100 2) ∧
    Audited.run (.connect :: stackOps 1 .kBid 100 2) { core } = some a ∧ Mirrored a.owner a.core := by
  have few : 2 ≤ 11468 := by omega
  obtain ⟨core, a₁, a, registered, connected, stacked, ran, _⟩ := run_stacked .kBid 100 few (Nat.le_refl 2)
  have room := stacked.idRoomRun_connect connected (by omega) (Nat.le_refl 2)
  exact ⟨core, a, registered, room, ran, run_mirrored registered room ran⟩

/-- 717 orders at one price, all of them resting: the maps hold 716 of them. -/
theorem run_not_mirrored : ∃ (core : ExchangeCore 1) (a : Audited 1), registerAll [(1, {})] {} = some core ∧
    Audited.run (.connect :: stackOps 1 .kBid 100 717) { core } = some a ∧ ¬ Mirrored a.owner a.core := by
  have few : 717 ≤ 11468 := by omega
  obtain ⟨core, _, a, registered, _, _, ran, stacked⟩ := run_stacked .kBid 100 few (Nat.le_refl 717)
  have many : 716 < 717 := by omega
  exact ⟨core, a, registered, ran, stacked.not_mirrored many a.owner⟩

end TickToTrade.Exchange
