import TickToTrade.Exchange.CallEffects

/-!
A session that disconnects takes its orders with it: out of the books first, then out of the id maps.
-/

namespace TickToTrade.Exchange.ExchangeCore
open Algo Ds Probing PairedMaps List Option Function
open DefaultHash (hash)

variable {maxSymbols : Nat} {core core' core₁ : ExchangeCore maxSymbols} {owner : Nat → Option (UInt16 × Nat)}
  {sessionId : UInt16} {entries : List (Nat × IdEntry)} {keys : List Nat}

def OfSession (core : ExchangeCore maxSymbols) (sessionId : UInt16) (x : Nat) : Prop :=
  ∃ reverse, core.reverseIdMap.content x = some reverse ∧ reverse.sessionId = sessionId

/-! ### The loops -/

theorem cancelSession_keeps (Inv : ExchangeCore maxSymbols → Prop)
    (step : ∀ {core : ExchangeCore maxSymbols} {idx id cancelled engine}, Inv core →
      (core.symbols idx).engine.cancelOrder id = some (cancelled, engine) → Inv (core.setEngine idx engine))
    (start : Inv core) (done : cancelSession sessionId entries core = some (keys, core')) : Inv core' := by
  induction entries generalizing core keys with
  | nil =>
    cases done
    exact start
  | cons first rest ih =>
    unfold cancelSession at done
    split at done
    · obtain ⟨⟨_, engine⟩, cancelled, done⟩ := bind_eq_some_iff.mp done
      obtain ⟨⟨keys', core₁⟩, cancelledRest, done⟩ := bind_eq_some_iff.mp done
      cases done
      exact ih (step start cancelled) cancelledRest
    · exact ih start done

theorem cancelSession_frame (done : cancelSession sessionId entries core = some (keys, core')) :
    core' = { core with symbols := core'.symbols } :=
  cancelSession_keeps (fun later => later = { core with symbols := later.symbols })
    (fun frame _ => by rw [frame]; rfl) rfl done

theorem cancelSession_usable (usable : Usable core) (done : cancelSession sessionId entries core = some (keys, core')) :
    Usable core' ∧ ∀ i, (core'.symbols i).active = (core.symbols i).active := by
  refine cancelSession_keeps (fun later => Usable later ∧ ∀ i, (later.symbols i).active = (core.symbols i).active) ?_
    ⟨usable, fun _ => rfl⟩ done
  intro later idx id cancelled engine ⟨usable, active⟩ called
  refine ⟨usable.setEngine fun bound here => ?_, fun i => (setEngine_active later idx engine i).trans (active i)⟩
  obtain ⟨params, sound⟩ := usable.books idx bound here
  exact ⟨params, cancelOrder_sound sound called⟩

/-- The loop over the entries cancels each order in the book its entry names. -/
theorem cancelSession_rests (usable : Usable core)
    (registered : ∀ entry ∈ entries, entry.2.symbolId - 1 < maxSymbols ∧
      (core.symbols (entry.2.symbolId - 1)).active = true)
    (done : cancelSession sessionId entries core = some (keys, core')) :
    keys = (entries.filter fun entry => extractSessionId entry.1 = sessionId).map Prod.fst ∧
      ∀ i s p x q, core'.Rests i s p x q ↔ core.Rests i s p x q ∧
        ¬ ∃ entry ∈ entries, extractSessionId entry.1 = sessionId ∧ entry.2.exchangeId = x ∧
        entry.2.symbolId - 1 = i := by
  induction entries generalizing core keys with
  | nil =>
    cases done
    exact ⟨rfl, by simp⟩
  | cons first rest ih =>
    obtain ⟨key, entry⟩ := first
    unfold cancelSession at done
    split at done
    · rename_i mine
      obtain ⟨⟨_, engine⟩, called, done⟩ := bind_eq_some_iff.mp done
      obtain ⟨⟨keys', core₁⟩, cancelledRest, done⟩ := bind_eq_some_iff.mp done
      cases done
      obtain ⟨bound, active⟩ := registered _ mem_cons_self
      obtain ⟨params, sound⟩ := usable.books _ bound active
      obtain ⟨_, _, again, _, _, rests, _⟩ := Algo.cancelOrder_effect sound entry.exchangeId
      obtain ⟨rfl, rfl⟩ := Prod.mk.inj (mem_unique called again)
      have ran := usable.ran_cancel sound called
      obtain ⟨rfl, after⟩ := ih ran.usable (by
        intro entry member
        rw [ran.registered]
        exact registered entry (mem_cons_of_mem _ member)) cancelledRest
      refine ⟨by simp [mine], ?_⟩
      intro i s p x q
      have here : (core.setEngine (entry.symbolId - 1) engine).Rests i s p x q ↔
          core.Rests i s p x q ∧ ¬ (entry.exchangeId = x ∧ entry.symbolId - 1 = i) := by
        unfold Rests
        rw [ran.registered]
        by_cases named : i = entry.symbolId - 1
        · subst named
          rw [ran.here, rests]
          constructor
          · intro ⟨slot, old, other⟩
            exact ⟨⟨slot, old⟩, fun ⟨same, _⟩ => other same.symm⟩
          · intro ⟨⟨slot, old⟩, other⟩
            exact ⟨slot, old, fun same => other ⟨same.symm, rfl⟩⟩
        · rw [ran.others i named]
          simp [Ne.symm named]
      rw [after, here]
      simp [mine, and_assoc]
    · rename_i other
      obtain ⟨rfl, after⟩ := ih usable (fun entry member => registered entry (mem_cons_of_mem _ member)) done
      refine ⟨by simp [other], ?_⟩
      intro i s p x q
      rw [after]
      simp [other]

theorem eraseMappings_noted (maps : MapsOk core) (done : eraseMappings keys core = some core') :
    ∃ Gone, Noted core core' [] Gone ∧ (IdsPaired core → ∀ x, Gone x ↔
      ∃ key ∈ keys, ∃ entry, core.idMap.content key = some entry ∧ entry.exchangeId = x) := by
  induction keys generalizing core with
  | nil =>
    cases done
    exact ⟨_, told_noted maps (by simp), by simp⟩
  | cons key rest ih =>
    obtain ⟨found, looked, done⟩ := bind_eq_some_iff.mp done
    obtain ⟨entry, present, done⟩ := bind_eq_some_iff.mp done
    obtain ⟨⟨_, reverseIdMap⟩, erased', done⟩ := bind_eq_some_iff.mp done
    obtain ⟨⟨_, idMap⟩, erased, done⟩ := bind_eq_some_iff.mp done
    have content := (maps.id.find_some looked).trans present
    have step := erased_noted maps erased erased' fun _ => ⟨entry, content, rfl⟩
    obtain ⟨Gone, later, meaning⟩ := ih step.maps done
    refine ⟨_, step.trans later, fun paired x => ?_⟩
    rw [meaning (step.paired paired)]
    constructor
    · rintro (same | ⟨key', member, entry', found', same⟩)
      · exact ⟨key, mem_cons_self, entry, content, same.symm⟩
      · exact ⟨key', mem_cons_of_mem _ member, entry', ((step.forward paired key' entry').mp found').1, same⟩
    · rintro ⟨key', member, entry', found', same⟩
      by_cases first : x = entry.exchangeId
      · exact .inl first
      · rcases mem_cons.mp member with rfl | member
        · obtain rfl := mem_unique content found'
          exact .inl same.symm
        · exact .inr ⟨key', member, entry', (step.forward paired key' entry').mpr ⟨found', same ▸ first⟩, same⟩

variable {keys : List Nat}

theorem eraseMappings_frame (done : eraseMappings keys core = some core') :
    core' = { core with idMap := core'.idMap, reverseIdMap := core'.reverseIdMap } := by
  induction keys generalizing core with
  | nil =>
    cases done
    rfl
  | cons key rest ih =>
    obtain ⟨_, _, done⟩ := bind_eq_some_iff.mp done
    obtain ⟨_, _, done⟩ := bind_eq_some_iff.mp done
    obtain ⟨_, _, done⟩ := bind_eq_some_iff.mp done
    obtain ⟨_, _, done⟩ := bind_eq_some_iff.mp done
    have frame := ih done
    exact frame

theorem eraseSeen_frame (done : eraseSeen keys core = some core') :
    core' = { core with seenOrders := core'.seenOrders } := by
  induction keys generalizing core with
  | nil =>
    cases done
    rfl
  | cons key rest ih =>
    obtain ⟨_, _, done⟩ := bind_eq_some_iff.mp done
    have frame := ih done
    exact frame

theorem eraseSeen_content (ok : Table.WellFormed hash core.seenOrders)
    (done : eraseSeen keys core = some core') : Table.WellFormed hash core'.seenOrders ∧
      ∀ key, core'.seenOrders.content key = if key ∈ keys then none else core.seenOrders.content key := by
  induction keys generalizing core with
  | nil =>
    cases done
    exact ⟨ok, by simp⟩
  | cons first rest ih =>
    obtain ⟨⟨_, seen⟩, erased, done⟩ := bind_eq_some_iff.mp done
    obtain ⟨ok₁, content⟩ := ok.erase_some erased
    have rest : _ ∧ ∀ key, _ := ih (show Table.WellFormed hash
      ({ core with seenOrders := seen } : ExchangeCore maxSymbols).seenOrders from ok₁) done
    obtain ⟨ok', rests⟩ := rest
    refine ⟨ok', fun key => ?_⟩
    rw [rests key]
    by_cases same : key = first
    · subst same
      simp [content]
    · simp [content, same]

/-! ### The call -/

theorem ofSession_iff (paired : IdsPaired core) {x : Nat} : OfSession core sessionId x ↔
    ∃ key entry, extractSessionId key = sessionId ∧ core.idMap.content key = some entry ∧ entry.exchangeId = x := by
  constructor
  · intro ⟨reverse, found, mine⟩
    obtain ⟨entry, mapped, same, _, bound⟩ := paired.back x reverse found
    refine ⟨keyOf reverse, entry, ?_, mapped, same⟩
    rw [keyOf, extractSessionId_key _ bound, mine]
  · intro ⟨key, entry, mine, mapped, same⟩
    obtain ⟨reverse, found, rfl, _, bound⟩ := paired.forth key entry mapped
    rw [keyOf, extractSessionId_key _ bound] at mine
    exact ⟨reverse, same ▸ found, mine⟩

theorem onClientDisconnect_effect (healthy : Healthy core) (mirror : Mirror owner core) (drained : core.events = [])
    (done : core.onClientDisconnect sessionId = some core') :
    Withdrawn core core' [] fun x => sessionId ≠ 0 ∧ OfSession core sessionId x := by
  unfold onClientDisconnect at done
  by_cases zero : sessionId = 0
  · rw [if_pos zero] at done
    cases done
    exact ⟨healthy, by simp [zero], restricts_refl.congr (by simp [zero]), by simp [drained]⟩
  rw [if_neg zero] at done
  obtain ⟨⟨keys, core₁⟩, cancelled, done⟩ := bind_eq_some_iff.mp done
  obtain ⟨core₂, erased, forgotten⟩ := bind_eq_some_iff.mp done
  let core₀ : ExchangeCore maxSymbols :=
    { core with activeSessions := update core.activeSessions sessionId false }
  have usable₀ : Usable core₀ := ⟨{ healthy.maps with }, healthy.books⟩
  have member : ∀ key entry, (key, entry) ∈ core.idMap.entries ↔ core.idMap.content key = some entry := fun key entry =>
    healthy.maps.id.content_eq_some.symm
  obtain ⟨collected, rests⟩ := cancelSession_rests usable₀ (by
    intro entry listed
    obtain ⟨_, _, rests⟩ := mirror.resting entry.1 entry.2 ((member _ _).mp listed)
    exact rests.1) cancelled
  have listed : ∀ key, key ∈ keys ↔ extractSessionId key = sessionId ∧
      ∃ entry, core.idMap.content key = some entry := by
    intro key
    rw [collected]
    simp [member, and_comm]
  obtain ⟨usable₁, _⟩ := cancelSession_usable usable₀ cancelled
  have frame₁ := cancelSession_frame cancelled
  obtain ⟨Gone, noted, meaning⟩ := eraseMappings_noted usable₁.maps erased
  have paired₁ : IdsPaired core₁ := by
    rw [frame₁]
    exact healthy.paired
  have frame₃ := eraseSeen_frame forgotten
  obtain ⟨ok, _⟩ := eraseSeen_content noted.maps.seen forgotten
  have symbols : core'.symbols = core₁.symbols := by rw [frame₃, ← noted.symbols]
  refine ⟨⟨⟨ok, ?_, ?_⟩, ?_, ?_⟩, ?_, ?_, ?_⟩
  · rw [frame₃]
    exact noted.maps.id
  · rw [frame₃]
    exact noted.maps.reverse
  · rw [frame₃]
    exact noted.paired paired₁
  · unfold bookOf
    rw [symbols]
    exact usable₁.books
  · intro i s p x q
    have moved : core'.Rests i s p x q ↔ core₁.Rests i s p x q := by rw [Rests, Rests, bookOf, bookOf, symbols]
    rw [moved, rests]
    have same : core₀.Rests i s p x q ↔ core.Rests i s p x q := Iff.rfl
    rw [same, and_congr_right_iff]
    intro resting
    rw [not_iff_not, ofSession_iff healthy.paired]
    constructor
    · rintro ⟨entry, there, mine, id, _⟩
      exact ⟨zero, entry.1, entry.2, mine, (member _ _).mp there, id⟩
    · rintro ⟨_, key, entry, mine, mapped, id⟩
      subst id
      have located := (mirror.locate healthy.paired mapped resting).1
      exact ⟨(key, entry), (member _ _).mpr mapped, mine, rfl, by simp only; omega⟩
  · have restricts := noted.restricts paired₁
    rw [frame₁] at restricts meaning
    rw [frame₃]
    refine restricts.congr fun x => ?_
    rw [ofSession_iff healthy.paired, meaning healthy.paired]
    constructor
    · rintro ⟨_, key, entry, mine, mapped, id⟩
      exact ⟨key, (listed key).mpr ⟨mine, entry, mapped⟩, entry, mapped, id⟩
    · rintro ⟨key, there, entry, mapped, id⟩
      exact ⟨zero, key, entry, ((listed key).mp there).1, mapped, id⟩
  · have silent : core'.events = [] := by rw [frame₃, noted.events, frame₁, drained, nil_append]
    rw [silent]
    rfl

theorem onClientDisconnect_sessions (known : sessionId ≠ 0) (done : core.onClientDisconnect sessionId = some core') :
    core'.activeSessions = update core.activeSessions sessionId false := by
  unfold onClientDisconnect at done
  rw [if_neg known] at done
  obtain ⟨⟨keys, core₁⟩, cancelled, done⟩ := bind_eq_some_iff.mp done
  obtain ⟨core₂, erased, forgotten⟩ := bind_eq_some_iff.mp done
  rw [eraseSeen_frame forgotten, eraseMappings_frame erased, cancelSession_frame cancelled]

theorem onClientDisconnect_seen (ok : Table.WellFormed hash core.seenOrders) (named : sessionId ≠ 0)
    (done : core.onClientDisconnect sessionId = some core') :
    Table.WellFormed hash core'.seenOrders ∧
      core'.activeSessions = update core.activeSessions sessionId false ∧ core'.events = core.events ∧
      ∀ key, core'.seenOrders.content key =
        if extractSessionId key = sessionId then none else core.seenOrders.content key := by
  unfold onClientDisconnect at done
  rw [if_neg named] at done
  obtain ⟨⟨keys, core₁⟩, cancelled, done⟩ := bind_eq_some_iff.mp done
  obtain ⟨core₂, erased, forgotten⟩ := bind_eq_some_iff.mp done
  have frame := eraseMappings_frame erased
  rw [cancelSession_frame cancelled] at frame
  have seen : core₂.seenOrders = core.seenOrders := by rw [frame]
  obtain ⟨ok', content⟩ := eraseSeen_content (by rw [seen]; exact ok) forgotten
  have frame' := eraseSeen_frame forgotten
  refine ⟨ok', by rw [frame', frame], by rw [frame', frame], fun key => ?_⟩
  rw [content key, seen]
  by_cases mine : extractSessionId key = sessionId
  · rw [if_pos mine]
    split
    · rfl
    rename_i missing
    cases found : core.seenOrders.content key with
    | none => rfl
    | some flag =>
      have member := List.mem_map_of_mem (f := Prod.fst) (ok.content_eq_some.mp found)
      exact absurd (mem_filter.mpr ⟨member, by simpa using mine⟩) missing
  · rw [if_neg mine, if_neg]
    intro member
    exact mine (by simpa using (mem_filter.mp member).2)

/-! ### Whatever the id maps held -/

structure Quiet (core core' : ExchangeCore maxSymbols) : Prop where
  usable : Usable core'
  registered : ∀ i, (core'.symbols i).active = (core.symbols i).active
  events : core'.events = core.events
  owners : ∀ x reverse, core'.reverseIdMap.content x = some reverse → core.reverseIdMap.content x = some reverse

theorem onClientDisconnect_quiet (usable : Usable core) (done : core.onClientDisconnect sessionId = some core') :
    Quiet core core' := by
  unfold onClientDisconnect at done
  split at done
  · cases done
    exact ⟨usable, fun _ => rfl, rfl, fun _ _ => id⟩
  obtain ⟨⟨keys, core₁⟩, cancelled, done⟩ := bind_eq_some_iff.mp done
  obtain ⟨core₂, erased, forgotten⟩ := bind_eq_some_iff.mp done
  let core₀ : ExchangeCore maxSymbols :=
    { core with activeSessions := update core.activeSessions sessionId false }
  have usable₀ : Usable core₀ := ⟨{ usable.maps with }, usable.books⟩
  obtain ⟨usable₁, active⟩ := cancelSession_usable usable₀ cancelled
  obtain ⟨Gone, noted, _⟩ := eraseMappings_noted usable₁.maps erased
  have usable₂ := noted.usable usable₁
  obtain ⟨ok, _⟩ := eraseSeen_content usable₂.maps.seen forgotten
  have frame := eraseSeen_frame forgotten
  have frame₁ := cancelSession_frame cancelled
  refine ⟨⟨⟨ok, ?_, ?_⟩, ?_⟩, ?_, ?_, ?_⟩
  · rw [frame]
    exact usable₂.maps.id
  · rw [frame]
    exact usable₂.maps.reverse
  · rw [frame]
    exact usable₂.books
  · intro i
    rw [frame, noted.symbols]
    exact active i
  · rw [frame, noted.events, frame₁, append_nil]
  · intro x reverse found
    rw [frame] at found
    have old := ((noted.reverse x reverse).mp found).1
    rw [frame₁] at old
    exact old

end TickToTrade.Exchange.ExchangeCore
