import TickToTrade.Algo.EngineEffects
import TickToTrade.Exchange.Core
import TickToTrade.Lib.PairedMaps

/-!
What the helpers of the exchange core do to the two id maps and to the event buffer. The engine makes at
most 64 fills and each of them takes at most four events.
-/

namespace TickToTrade.Exchange
open Algo Ds Probing PairedMaps List Option

/-! ### Composite keys -/

variable {c c' : Nat}

theorem makeCompositeKey_eq (sessionId : UInt16) (bound : c ≤ kMaxClientOrderId) :
    makeCompositeKey sessionId c = sessionId.toNat * 2 ^ 48 + c := by
  have small : c < 2 ^ 48 := by
    unfold kMaxClientOrderId at bound
    omega
  have kept : c &&& kMaxClientOrderId = c := by
    rw [kMaxClientOrderId, Nat.and_two_pow_sub_one_eq_mod, Nat.mod_eq_of_lt small]
  rw [makeCompositeKey, kept, ← Nat.shiftLeft_add_eq_or_of_lt small, Nat.shiftLeft_eq]

theorem extractSessionId_key (sessionId : UInt16) (bound : c ≤ kMaxClientOrderId) :
    extractSessionId (makeCompositeKey sessionId c) = sessionId := by
  have small : c < 2 ^ 48 := by
    unfold kMaxClientOrderId at bound
    omega
  have word := sessionId.toNat_lt
  rw [makeCompositeKey_eq sessionId bound, extractSessionId, Nat.shiftRight_eq_div_pow,
    show (0xFFFF : Nat) = 2 ^ 16 - 1 from rfl, Nat.and_two_pow_sub_one_eq_mod]
  have quotient : (sessionId.toNat * 2 ^ 48 + c) / 2 ^ 48 % 2 ^ 16 = sessionId.toNat := by omega
  rw [quotient, UInt16.ofNat_toNat]

theorem makeCompositeKey_inj {sessionId sessionId' : UInt16} (bound : c ≤ kMaxClientOrderId)
    (bound' : c' ≤ kMaxClientOrderId)
    (same : makeCompositeKey sessionId c = makeCompositeKey sessionId' c') : sessionId = sessionId' ∧ c = c' := by
  have session : sessionId = sessionId' := by
    rw [← extractSessionId_key sessionId bound, same, extractSessionId_key sessionId' bound']
  subst session
  rw [makeCompositeKey_eq sessionId bound, makeCompositeKey_eq sessionId bound'] at same
  exact ⟨rfl, by omega⟩

namespace ExchangeCore

variable {maxSymbols : Nat} {core core' core'' : ExchangeCore maxSymbols}

def keyOf (reverse : ReverseIdEntry) : Nat := makeCompositeKey reverse.sessionId reverse.clientOrderId

def Agree (entry : IdEntry) (reverse : ReverseIdEntry) : Prop :=
  entry.symbolId = reverse.symbolId ∧ reverse.clientOrderId ≤ kMaxClientOrderId

def IdsPaired (core : ExchangeCore maxSymbols) : Prop :=
  Paired IdEntry.exchangeId keyOf Agree core.idMap.content core.reverseIdMap.content

structure MapsOk (core : ExchangeCore maxSymbols) : Prop where
  seen : Table.WellFormed DefaultHash.hash core.seenOrders
  id : Table.WellFormed DefaultHash.hash core.idMap
  reverse : Table.WellFormed DefaultHash.hash core.reverseIdMap

def bookOf (core : ExchangeCore maxSymbols) (i : Nat) : OrderBook := (core.symbols i).engine.book

/-! ### The events of the fill loop -/

/-- Market data is addressed to no client. -/
def isClient (event : ExchangeEvent) : Bool := event.type ≠ .kBBOUpdate

def makerEvent (maker : ReverseIdEntry) (fill : Fill) (takerSide : Side) (left : Nat) : ExchangeEvent where
  type := .kFill
  sessionId := maker.sessionId
  clientOrderId := maker.clientOrderId
  exchangeOrderId := fill.makerId
  symbolId := maker.symbolId
  side := takerSide.opposite
  price := fill.price
  qty := fill.qty
  remainingQty := left
  sendTs := maker.sendTs

def takerEvent (taker : Taker) (fill : Fill) (remaining : Nat) : ExchangeEvent where
  type := .kFill
  sessionId := taker.sessionId
  clientOrderId := taker.clientOrderId
  exchangeOrderId := taker.exchangeId
  symbolId := taker.symbolId
  side := taker.side
  price := fill.price
  qty := fill.qty
  remainingQty := remaining
  sendTs := taker.sendTs

def Absent (b : OrderBook) (x : Nat) : Prop := ∀ s p q, ¬ b.Rests s p x q

def leftIn (b : OrderBook) (x : Nat) : Nat := (b.orderQty x).getD 0

def fillEvents (taker : Taker) (makerOf : Nat → Option ReverseIdEntry) (leftOf : Nat → Nat) :
    (remaining : Nat) → List Fill → List ExchangeEvent
  | _, [] => []
  | remaining, fill :: fills =>
    takerEvent taker fill (remaining - fill.qty) ::
      ((makerOf fill.makerId).toList.map fun maker => makerEvent maker fill taker.side (leftOf fill.makerId)) ++
      fillEvents taker makerOf leftOf (remaining - fill.qty) fills

theorem fillEvents_type {taker : Taker} {makerOf : Nat → Option ReverseIdEntry} {leftOf : Nat → Nat} {remaining : Nat}
    {fills : List Fill} {event : ExchangeEvent} (member : event ∈ fillEvents taker makerOf leftOf remaining fills) :
    event.type = .kFill := by
  induction fills generalizing remaining with
  | nil => cases member
  | cons fill fills ih =>
    simp only [fillEvents, cons_append, mem_cons, mem_append, List.mem_map] at member
    rcases member with rfl | ⟨maker, _, rfl⟩ | later
    · rfl
    · rfl
    · exact ih later

def bestEvents (book : OrderBook) (symbolId : Nat) (side : Side) : List ExchangeEvent :=
  (book.ladders side).head?.toList.map fun best => {
    type := .kBBOUpdate, symbolId, side, price := (book.levelSlots best).price, qty := (book.levelSlots best).totalQty }

def bboEvents (book : OrderBook) (symbolId : Nat) : List ExchangeEvent :=
  bestEvents book symbolId .kBid ++ bestEvents book symbolId .kAsk

def fillGroup (taker : Taker) (makerOf : Nat → Option ReverseIdEntry) (book : OrderBook) (left : Nat) (fill : Fill) :
    List ExchangeEvent :=
  takerEvent taker fill left ::
    (((makerOf fill.makerId).toList.map fun maker => makerEvent maker fill taker.side (leftIn book fill.makerId)) ++
      bboEvents book taker.symbolId)

def fillGroups (taker : Taker) (makerOf : Nat → Option ReverseIdEntry) (book : OrderBook) :
    (remaining : Nat) → List Fill → List (List ExchangeEvent)
  | _, [] => []
  | remaining, fill :: fills =>
    fillGroup taker makerOf book (remaining - fill.qty) fill :: fillGroups taker makerOf book
    (remaining - fill.qty) fills

variable {taker : Taker} {fill : Fill} {fills : List Fill} {b : OrderBook}
  {makerOf makerOf' : Nat → Option ReverseIdEntry}
  {idx symbolId remaining : Nat} {side : Side} {event : ExchangeEvent} {params : Params}

theorem fillGroups_congr (same : ∀ fill ∈ fills, makerOf' fill.makerId = makerOf fill.makerId) (remaining : Nat) :
    fillGroups taker makerOf' b remaining fills = fillGroups taker makerOf b remaining fills := by
  induction fills generalizing remaining with
  | nil => rfl
  | cons fill fills ih =>
    simp only [fillGroups, fillGroup, same fill mem_cons_self,
      ih fun fill member => same fill (mem_cons_of_mem _ member)]

theorem length_bestEvents (book : OrderBook) (symbolId : Nat) (side : Side) :
    (bestEvents book symbolId side).length ≤ 1 := by
  unfold bestEvents
  cases book.ladders side <;> simp

theorem length_bboEvents (book : OrderBook) (symbolId : Nat) : (bboEvents book symbolId).length ≤ 2 := by
  have bid := length_bestEvents book symbolId .kBid
  have ask := length_bestEvents book symbolId .kAsk
  rw [bboEvents, length_append]
  omega

theorem mem_bboEvents (member : event ∈ bboEvents b symbolId) : event.type = .kBBOUpdate := by
  rcases mem_append.mp member with bid | ask
  · obtain ⟨_, _, rfl⟩ := List.mem_map.mp bid
    rfl
  · obtain ⟨_, _, rfl⟩ := List.mem_map.mp ask
    rfl

theorem length_fillGroups (taker : Taker) (makerOf : Nat → Option ReverseIdEntry) (book : OrderBook) (remaining : Nat)
    (fills : List Fill) :
    (fillGroups taker makerOf book remaining fills).flatten.length ≤ 4 * fills.length := by
  induction fills generalizing remaining with
  | nil => simp [fillGroups]
  | cons fill fills ih =>
    have rest := ih (remaining - fill.qty)
    have quotes := length_bboEvents book taker.symbolId
    have maker : (makerOf fill.makerId).toList.length ≤ 1 := by cases makerOf fill.makerId <;> simp
    simp only [fillGroups, fillGroup, flatten_cons, length_append, length_cons, length_map]
    omega

theorem fillGroups_client (taker : Taker) (makerOf : Nat → Option ReverseIdEntry) (book : OrderBook) (remaining : Nat)
    (fills : List Fill) : (fillGroups taker makerOf book remaining fills).flatten.filter isClient =
      fillEvents taker makerOf (leftIn book) remaining fills := by
  induction fills generalizing remaining with
  | nil => rfl
  | cons fill fills ih =>
    have quotes : (bboEvents book taker.symbolId).filter isClient = [] := by
      rw [filter_eq_nil_iff]
      intro event member
      simp [isClient, mem_bboEvents member]
    have maker : ((makerOf fill.makerId).toList.map fun maker =>
        makerEvent maker fill taker.side (leftIn book fill.makerId)).filter isClient =
        (makerOf fill.makerId).toList.map fun maker => makerEvent maker fill taker.side (leftIn book fill.makerId) := by
      cases makerOf fill.makerId <;> simp [isClient, makerEvent]
    rw [fillGroups, flatten_cons, filter_append, ih, fillGroup, fillEvents,
      filter_cons_of_pos (by simp [isClient, takerEvent]), filter_append, maker, quotes, append_nil]

/-! ### Reports -/

/-- Only the event buffer and the id maps changed: the buffer gained `events` and the second map lost the ids in
`Gone`. If the maps agreed, then the first lost the same orders. -/
structure Noted (core core' : ExchangeCore maxSymbols) (events : List ExchangeEvent) (Gone : Nat → Prop) : Prop where
  frame : core' = { core with events := core'.events, idMap := core'.idMap, reverseIdMap := core'.reverseIdMap }
  events : core'.events = core.events ++ events
  maps : MapsOk core'
  reverse : ∀ x maker, core'.reverseIdMap.content x = some maker ↔ core.reverseIdMap.content x = some maker ∧ ¬ Gone x
  forward : IdsPaired core → ∀ key entry, core'.idMap.content key = some entry ↔
    core.idMap.content key = some entry ∧ ¬ Gone entry.exchangeId
  idAccepts : ∀ key, core.idMap.accepts DefaultHash.hash key = true → core'.idMap.accepts DefaultHash.hash key = true
  reverseAccepts : ∀ id, core.reverseIdMap.accepts DefaultHash.hash id = true →
    core'.reverseIdMap.accepts DefaultHash.hash id = true

theorem told_noted (maps : MapsOk core) {events : List ExchangeEvent}
    (told : core' = { core with events := core.events ++ events }) : Noted core core' events fun _ => False := by
  subst told
  exact ⟨rfl, rfl, { maps with }, by simp, by simp, fun _ => id, fun _ => id⟩

section Noted

variable {events events' : List ExchangeEvent} {Gone Gone' : Nat → Prop} (noted : Noted core core' events Gone)
include noted

theorem Noted.congr (same : ∀ x, Gone' x ↔ Gone x) : Noted core core' events Gone' := by
  obtain rfl : Gone' = Gone := funext fun x => propext (same x)
  exact noted

theorem Noted.symbols : core'.symbols = core.symbols := by
  rw [noted.frame]

theorem Noted.book (i : Nat) : core'.bookOf i = core.bookOf i := by
  rw [bookOf, noted.symbols, bookOf]

theorem Noted.kept {x : Nat} (missed : ¬ Gone x) : core'.reverseIdMap.content x = core.reverseIdMap.content x :=
  ext fun maker => (noted.reverse x maker).trans (and_iff_left missed)

theorem Noted.restricts (paired : IdsPaired core) :
    Restricts IdEntry.exchangeId core.idMap.content core.reverseIdMap.content
      core'.idMap.content core'.reverseIdMap.content Gone :=
  ⟨noted.forward paired, noted.reverse⟩

theorem Noted.paired (paired : IdsPaired core) : IdsPaired core' := Paired.restricts paired (noted.restricts paired)

theorem Noted.trans (later : Noted core' core'' events' Gone') : Noted core core'' (events ++ events') fun x => Gone x ∨
    Gone' x where
  frame := by
    have frame := later.frame
    rw [noted.frame] at frame
    exact frame
  events := by rw [later.events, noted.events, append_assoc]
  maps := later.maps
  reverse := by
    intro x maker
    rw [later.reverse, noted.reverse, and_assoc, not_or]
  forward := by
    intro paired key entry
    rw [later.forward (noted.paired paired), noted.forward paired, and_assoc, not_or]
  idAccepts := fun key accepted => later.idAccepts key (noted.idAccepts key accepted)
  reverseAccepts := fun id accepted => later.reverseAccepts id (noted.reverseAccepts id accepted)

end Noted

theorem emit_eq_some (done : core.emit event = some core') :
    core' = { core with events := core.events ++ [event] } := by
  unfold emit at done
  split at done
  · cases done
  · exact (some.inj done).symm

theorem emit_noted (maps : MapsOk core) (done : core.emit event = some core') :
    Noted core core' [event] fun _ => False :=
  told_noted maps (emit_eq_some done)

theorem emitBest_eq (done : core.emitBest idx symbolId side = some core') :
    core' = { core with events := core.events ++ bestEvents (core.bookOf idx) symbolId side } := by
  simp only [emitBest] at done
  unfold bestEvents bookOf
  split at done
  · rename_i empty
    cases done
    simp [empty]
  · rename_i best rest ladder
    rw [emit_eq_some done, ladder]
    rfl

theorem emitBbo_eq (done : core.emitBbo idx symbolId = some core') :
    core' = { core with events := core.events ++ bboEvents (core.bookOf idx) symbolId } := by
  obtain ⟨core₁, bid, ask⟩ := bind_eq_some_iff.mp done
  rw [emitBest_eq ask, emitBest_eq bid, bboEvents, append_assoc]
  rfl

/-- Both maps are told to forget an order; `key` is where the first map has it, if the maps agree. -/
theorem erased_noted {key id : Nat} {answer answer' : Bool} {idMap : FixedHashMap Nat IdEntry kMaxIdMappings}
    {reverseIdMap : FixedHashMap Nat ReverseIdEntry kMaxIdMappings} (maps : MapsOk core)
    (erased : core.idMap.erase key = some (answer, idMap))
    (erased' : core.reverseIdMap.erase id = some (answer', reverseIdMap))
    (pairs : IdsPaired core → ∃ entry, core.idMap.content key = some entry ∧ entry.exchangeId = id) :
    Noted core { core with idMap, reverseIdMap } [] fun x => x = id := by
  obtain ⟨ok, content⟩ := maps.id.erase_some erased
  obtain ⟨ok', content'⟩ := maps.reverse.erase_some erased'
  refine ⟨rfl, by simp, ⟨maps.seen, ok, ok'⟩, ?_, ?_, fun _ => maps.id.erase_accepts erased,
    fun _ => maps.reverse.erase_accepts erased'⟩
  · intro x maker
    by_cases same : x = id
    · simp [content', same]
    · simp [content', same]
  · intro paired key' entry'
    obtain ⟨entry, found, rfl⟩ := pairs paired
    simp only [content]
    exact (Paired.restricts_erase paired found).fwd_iff key' entry'

theorem removeMappings_noted {key : Nat} {entry : IdEntry} (maps : MapsOk core)
    (found : core.idMap.content key = some entry) (done : core.removeMappings key entry.exchangeId = some core') :
    Noted core core' [] (fun x => x = entry.exchangeId) ∧ core'.idMap.accepts DefaultHash.hash key = true := by
  obtain ⟨⟨_, reverseIdMap⟩, erased', done⟩ := bind_eq_some_iff.mp done
  obtain ⟨⟨_, idMap⟩, erased, done⟩ := bind_eq_some_iff.mp done
  cases done
  refine ⟨erased_noted maps erased erased' fun _ => ⟨entry, found, rfl⟩, ?_⟩
  obtain ⟨_, again, gone⟩ := maps.id.erase_of_content found
  obtain ⟨_, rfl⟩ := Prod.mk.inj (mem_unique erased again)
  exact gone.accepts_self

def makerEvents (core : ExchangeCore maxSymbols) (idx : Nat) (fill : Fill) (side : Side) : List ExchangeEvent :=
  (core.reverseIdMap.content fill.makerId).toList.map fun maker =>
    makerEvent maker fill side (leftIn (core.bookOf idx) fill.makerId)

section

variable (maps : MapsOk core) (sound : OrderBook.Sound params (core.bookOf idx))
include maps sound

theorem emitMakerFill_noted
    (done : core.emitMakerFill idx fill side = some core') :
    Noted core core' (core.makerEvents idx fill side) fun x => x = fill.makerId ∧ Absent (core.bookOf idx) x := by
  unfold emitMakerFill at done
  rw [FixedHashMap.find, maps.reverse.find_eq] at done
  unfold makerEvents
  cases found : core.reverseIdMap.content fill.makerId with
  | none =>
    rw [found] at done
    cases done
    have silent : Noted core core [] fun _ => False := told_noted maps (by simp)
    refine { silent with reverse := ?_, forward := ?_ }
    · intro x maker
      refine ⟨fun present => ⟨present, fun gone => ?_⟩, And.left⟩
      rw [gone.1, found] at present
      cases present
    · intro paired key entry
      refine ⟨fun present => ⟨present, fun gone => ?_⟩, And.left⟩
      obtain ⟨_, mapped, _⟩ := paired.forth key entry present
      rw [gone.1, found] at mapped
      cases mapped
  | some maker =>
    rw [found, bind_eq_bind, bind_some] at done
    obtain ⟨left, asked, done⟩ := bind_eq_some_iff.mp done
    obtain ⟨core₁, emitted, done⟩ := bind_eq_some_iff.mp done
    obtain ⟨lives, known, done⟩ := bind_eq_some_iff.mp done
    obtain ⟨_, known', meaning⟩ := hasOrder_effect sound fill.makerId
    obtain rfl := mem_unique known known'
    have here : leftIn (core.bookOf idx) fill.makerId = left := by rw [leftIn, bookOf, asked]; rfl
    have told : Noted core core₁ [makerEvent maker fill side left] fun _ => False := emit_noted maps emitted
    simp only [toList_some, map_cons, map_nil, here]
    cases lives with
    | true =>
      cases done
      obtain ⟨s, p, q, rests⟩ := meaning.mp rfl
      exact told.congr fun x => ⟨fun ⟨same, absent⟩ => absent s p q (same ▸ rests), False.elim⟩
    | false =>
      obtain ⟨⟨_, idMap⟩, erased, done⟩ := bind_eq_some_iff.mp done
      obtain ⟨⟨_, reverseIdMap⟩, erased', done⟩ := bind_eq_some_iff.mp done
      cases done
      have absent : Absent (core.bookOf idx) fill.makerId := fun s p q rests => nomatch meaning.mpr ⟨s, p, q, rests⟩
      have gone := erased_noted told.maps erased erased' fun paired => by
        obtain ⟨entry, mapped, same, _⟩ := paired.back fill.makerId maker ((told.kept not_false).trans found)
        exact ⟨entry, mapped, same⟩
      exact (told.trans gone).congr fun x =>
        ⟨fun ⟨same, _⟩ => .inr same, fun either => either.elim False.elim fun same => ⟨same, same ▸ absent⟩⟩

/-- The makers of the fills are distinct, so each of them is looked up as the loop found the map. -/
theorem emitFills_noted
    (distinct : (fills.map Fill.makerId).Nodup) (done : emitFills taker idx remaining fills core = some core') :
    Noted core core' (fillGroups taker core.reverseIdMap.content (core.bookOf idx) remaining fills).flatten
      fun x => x ∈ fills.map Fill.makerId ∧ Absent (core.bookOf idx) x := by
  induction fills generalizing core remaining with
  | nil =>
    cases done
    exact (told_noted maps (by simp [fillGroups])).congr (by simp)
  | cons fill fills ih =>
    rw [map_cons, nodup_cons] at distinct
    obtain ⟨core₁, told, done⟩ := bind_eq_some_iff.mp done
    obtain ⟨core₂, toldMaker, done⟩ := bind_eq_some_iff.mp done
    obtain ⟨core₃, published, done⟩ := bind_eq_some_iff.mp done
    have first : Noted core core₁ [takerEvent taker fill (remaining - fill.qty)] fun _ => False := emit_noted maps told
    have second := emitMakerFill_noted first.maps (first.book idx ▸ sound) toldMaker
    have third := told_noted second.maps (emitBbo_eq published)
    rw [makerEvents, first.kept not_false, first.book] at second
    rw [second.book, first.book] at third
    have upTo := (first.trans second).trans third
    have rest := ih third.maps (upTo.book idx ▸ sound) distinct.2 done
    have kept : ∀ fill' ∈ fills, core₃.reverseIdMap.content fill'.makerId =
        core.reverseIdMap.content fill'.makerId := by
      intro fill' member
      apply upTo.kept
      rintro ((impossible | ⟨same, _⟩) | impossible)
      · exact impossible
      · exact distinct.1 (List.mem_map.mpr ⟨fill', member, same⟩)
      · exact impossible
    rw [upTo.book, fillGroups_congr kept] at rest
    have whole := upTo.trans rest
    have events : [takerEvent taker fill (remaining - fill.qty)] ++
      ((core.reverseIdMap.content fill.makerId).toList.map fun maker =>
        makerEvent maker fill taker.side (leftIn (core.bookOf idx) fill.makerId)) ++ bboEvents (core.bookOf idx)
          taker.symbolId =
        fillGroup taker core.reverseIdMap.content (core.bookOf idx) (remaining - fill.qty) fill := by
      simp [fillGroup]
    rw [events] at whole
    refine whole.congr fun x => ?_
    simp only [map_cons, mem_cons, false_or, or_false]
    tauto

theorem report_noted {ack : ExchangeEvent} {qty : Nat}
    (distinct : (fills.map Fill.makerId).Nodup) (told : core.emit ack = some core'')
    (reported : emitFills taker idx qty fills core'' = some core') :
    Noted core core' (ack :: (fillGroups taker core.reverseIdMap.content (core.bookOf idx) qty fills).flatten)
      fun x => x ∈ fills.map Fill.makerId ∧ Absent (core.bookOf idx) x := by
  have first := emit_noted maps told
  have second := emitFills_noted first.maps (first.book idx ▸ sound) distinct reported
  have content : core''.reverseIdMap.content = core.reverseIdMap.content := funext fun x => first.kept not_false
  rw [content, first.book] at second
  exact (first.trans second).congr fun x => (iff_of_eq (false_or _)).symm

end

/-! ### The helpers return -/

theorem erase_returns {K V : Type} [DecidableEq K] {hash : K → Nat} {t : Table K V} (ok : t.WellFormed hash) (key : K) :
    ∃ answer, t.erase hash key = some answer := by
  rcases ok.erase_cases key with ⟨_, erased⟩ | ⟨_, _, _, erased, _⟩
  · exact ⟨_, erased⟩
  · exact ⟨_, erased⟩

theorem removeMappings_returns (maps : MapsOk core) (key exchangeId : Nat) :
    ∃ core', core.removeMappings key exchangeId = some core' := by
  obtain ⟨_, erased⟩ := erase_returns maps.id key
  obtain ⟨_, erased'⟩ := erase_returns maps.reverse exchangeId
  simp [removeMappings, FixedHashMap.erase, erased, erased']

theorem emit_returns (room : core.events.length < kMaxEvents) (event : ExchangeEvent) :
    ∃ core', core.emit event = some core' := by
  unfold emit
  rw [if_neg (by omega)]
  exact ⟨_, rfl⟩

theorem emitBest_returns (room : core.events.length < kMaxEvents) (idx symbolId : Nat) (side : Side) :
    ∃ core', core.emitBest idx symbolId side = some core' := by
  simp only [emitBest]
  split
  · exact ⟨core, rfl⟩
  · exact emit_returns room _

theorem emitBbo_returns (room : core.events.length + 2 ≤ kMaxEvents) (idx symbolId : Nat) :
    ∃ core', core.emitBbo idx symbolId = some core' := by
  obtain ⟨core₁, bid⟩ := emitBest_returns (show core.events.length < kMaxEvents by omega) idx symbolId .kBid
  have one := length_bestEvents (core.bookOf idx) symbolId .kBid
  have length : core₁.events.length ≤ core.events.length + 1 := by
    rw [emitBest_eq bid, length_append]
    omega
  obtain ⟨core₂, ask⟩ := emitBest_returns (show core₁.events.length < kMaxEvents by omega) idx symbolId .kAsk
  exact ⟨core₂, bind_eq_some_iff.mpr ⟨core₁, bid, ask⟩⟩

theorem emitMakerFill_returns (maps : MapsOk core) (sound : OrderBook.Sound params (core.bookOf idx))
    (room : core.events.length < kMaxEvents) (fill : Fill) (side : Side) :
    ∃ core', core.emitMakerFill idx fill side = some core' := by
  unfold emitMakerFill
  rw [FixedHashMap.find, maps.reverse.find_eq]
  cases found : core.reverseIdMap.content fill.makerId with
  | none => exact ⟨core, rfl⟩
  | some maker =>
    obtain ⟨left, asked, _⟩ := orderQty_effect sound fill.makerId
    obtain ⟨lives, known, _⟩ := hasOrder_effect sound fill.makerId
    obtain ⟨core₁, emitted⟩ := emit_returns room (makerEvent maker fill side left)
    have asked : (core.symbols idx).engine.book.orderQty fill.makerId = some left := asked
    have known : (core.symbols idx).engine.book.hasOrder fill.makerId = some lives := known
    have told := emit_noted maps emitted
    unfold makerEvent at emitted
    simp only [asked, known, emitted, bind_eq_bind, bind_some]
    cases lives with
    | true => exact ⟨core₁, rfl⟩
    | false =>
      obtain ⟨_, erased⟩ := erase_returns told.maps.id (makeCompositeKey maker.sessionId maker.clientOrderId)
      obtain ⟨_, erased'⟩ := erase_returns told.maps.reverse fill.makerId
      simp [FixedHashMap.erase, erased, erased']

theorem emitFills_returns (taker : Taker) (maps : MapsOk core) (sound : OrderBook.Sound params (core.bookOf idx))
    (room : core.events.length + 4 * fills.length ≤ kMaxEvents) (remaining : Nat) :
    ∃ core', emitFills taker idx remaining fills core = some core' := by
  induction fills generalizing core remaining with
  | nil => exact ⟨core, rfl⟩
  | cons fill fills ih =>
    rw [length_cons] at room
    obtain ⟨core₁, told⟩ := emit_returns (show core.events.length < kMaxEvents by omega)
      (takerEvent taker fill (remaining - fill.qty))
    have first := emit_noted maps told
    have length₁ : core₁.events.length = core.events.length + 1 := by rw [first.events, length_append]; rfl
    obtain ⟨core₂, toldMaker⟩ := emitMakerFill_returns first.maps (first.book idx ▸ sound) (by omega) fill taker.side
    have second := emitMakerFill_noted first.maps (first.book idx ▸ sound) toldMaker
    have length₂ : core₂.events.length ≤ core₁.events.length + 1 := by
      rw [second.events, length_append, makerEvents, length_map]
      cases core₁.reverseIdMap.content fill.makerId <;> simp
    obtain ⟨core₃, published⟩ := emitBbo_returns (show core₂.events.length + 2 ≤ kMaxEvents by omega) idx taker.symbolId
    have third := told_noted second.maps (emitBbo_eq published)
    have length₃ := length_bboEvents (core₂.bookOf idx) taker.symbolId
    have room₃ : core₃.events.length + 4 * fills.length ≤ kMaxEvents := by
      rw [third.events, length_append]
      omega
    obtain ⟨core', rest⟩ :=
      ih third.maps (((first.trans second).trans third).book idx ▸ sound) room₃ (remaining - fill.qty)
    refine ⟨core', ?_⟩
    unfold takerEvent at told
    simp only [emitFills, told, toldMaker, published, rest, bind_eq_bind, bind_some]

theorem report_returns (taker : Taker) (ack : ExchangeEvent) (maps : MapsOk core)
    (sound : OrderBook.Sound params (core.bookOf idx))
    (few : fills.length ≤ 64) (room : core.events.length + 257 ≤ kMaxEvents) (qty : Nat) :
    ∃ core₁ core', core.emit ack = some core₁ ∧ emitFills taker idx qty fills core₁ = some core' := by
  obtain ⟨core₁, told⟩ := emit_returns (show core.events.length < kMaxEvents by omega) ack
  have noted := emit_noted maps told
  have room₁ : core₁.events.length + 4 * fills.length ≤ kMaxEvents := by
    rw [noted.events, length_append, length_singleton]
    omega
  obtain ⟨core', reported⟩ := emitFills_returns taker noted.maps (noted.book idx ▸ sound) room₁ qty
  exact ⟨core₁, core', told, reported⟩

end ExchangeCore

end TickToTrade.Exchange
