import TickToTrade.Oms.Outstanding

/-! Which orders a call leaves in `outstanding_`, and the id of the next order. -/

namespace TickToTrade.Oms
open Ds Probing List Option

variable {ids : List Nat} {nowNs : Int} {batch : List CancelOrder}

/-- The id whose order a response drops. -/
def Op.drops : Op → Option Nat
  | .cancelReject reject => some reject.clientOrderId
  | op => op.ends

namespace OrderManager

variable {cfg : Config} {om om₁ om' : OrderManager} {id : Nat}

/-- If the count would reach zero while the map is due for a rebuild, no other order is tracked. -/
def Spares (om : OrderManager) (id : Nat) : Prop :=
  om.outstandingCount ≤ 1 → om.outstanding.capacity * 2 / 10 < om.outstanding.tombstones + 1 →
    ∀ entry ∈ om.outstanding.entries, entry.1 = id
  deriving Decidable

/-- Every tracked order is counted, or the map is not due for a rebuild even if they are all erased. -/
def SparesAll (om : OrderManager) : Prop :=
  om.outstanding.size ≤ om.outstandingCount ∨
    om.outstanding.size + om.outstanding.tombstones ≤ om.outstanding.capacity * 2 / 10
  deriving Decidable

/-- The call does not clear the map under an order that it does not close. -/
def SparesOthers (om : OrderManager) : Op → Prop
  | .advanceTimeouts _ => om.SparesAll
  | op => ∀ id ∈ op.drops, om.Spares id

instance : DecidablePred (SparesOthers om)
  | .advanceTimeouts _ => inferInstanceAs (Decidable om.SparesAll)
  | .signal .. | .modify .. | .orderAck _ | .modifyAck _ | .modifyReject _ | .triggerKillSwitch _ =>
    isTrue fun _ dropped => nomatch dropped
  | .orderReject reject => inferInstanceAs (Decidable (∀ id ∈ some reject.clientOrderId, _))
  | .cancelAck ack => inferInstanceAs (Decidable (∀ id ∈ some ack.clientOrderId, _))
  | .cancelReject reject => inferInstanceAs (Decidable (∀ id ∈ some reject.clientOrderId, _))
  | .fill report => inferInstanceAs
    (Decidable (∀ id ∈ (if report.remainingQty = 0 then some report.clientOrderId else none), _))

/-- Only orders of `Gone` leave the tracking, and none enters it. -/
structure Sheds (om om' : OrderManager) (Gone : Nat → Prop) : Prop where
  next : om'.nextOrderId = om.nextOrderId
  old : Shrinks om om'
  kept : ∀ id info, om.outstanding.content id = some info → ¬ Gone id → om'.outstanding.content id = some info

variable {Gone Gone' : Nat → Prop}

theorem sheds_same (next : om'.nextOrderId = om.nextOrderId) (same : om'.outstanding = om.outstanding) :
    Sheds om om' Gone :=
  ⟨next, shrinks_of_eq same, fun _ _ found _ => same ▸ found⟩

theorem Sheds.mono (sheds : Sheds om om' Gone) (more : ∀ id, Gone id → Gone' id) : Sheds om om' Gone' :=
  ⟨sheds.next, sheds.old, fun id info found stays => sheds.kept id info found fun gone => stays (more id gone)⟩

theorem Sheds.trans (first : Sheds om om₁ Gone) (second : Sheds om₁ om' Gone) : Sheds om om' Gone where
  next := second.next.trans first.next
  old := first.old.trans second.old
  kept := fun id info found stays => second.kept id info (first.kept id info found stays) stays

theorem Sheds.counted (sheds : Sheds om om' Gone) (stat : Stat) (n : Nat) : Sheds om (om'.count stat n) Gone :=
  { sheds with }

/-- A compaction forgets orders only if the count has come to zero before the map was empty. -/
theorem Sheds.compact (sheds : Sheds om om' Gone)
    (all : om'.outstandingCount = 0 → om'.outstanding.needsRebuild = true →
      ∀ id info, om.outstanding.content id = some info → Gone id) : Sheds om om'.maybeCompactOutstanding Gone := by
  unfold maybeCompactOutstanding
  split
  · rename_i due
    exact ⟨sheds.next, sheds.old.trans (shrinks_of_cleared rfl), fun id info found stays =>
      absurd (all due.1 due.2 id info found) stays⟩
  · exact sheds

/-! ### Responses -/

theorem clearActiveIfMatch_sheds (om : OrderManager) (symbolId : Nat) (side : Side) (id : Nat) :
    Sheds om (om.clearActiveIfMatch cfg symbolId side id) Gone := by
  obtain ⟨activeOrders, cleared⟩ := clearActiveIfMatch_eq cfg om symbolId side id
  rw [cleared]
  exact sheds_same rfl rfl

/-- The cleanup before the entry is erased touches neither the map nor the counts of all orders. -/
theorem untrack_frame {info : OrderInfo} (done : om.untrack cfg id info = some om') :
    om'.nextOrderId = om.nextOrderId ∧ om'.outstanding = om.outstanding ∧
    om'.outstandingCount = om.outstandingCount := by
  obtain ⟨⟨_, wheel⟩, _, done⟩ := bind_eq_some_iff.mp done
  obtain ⟨symIdx, _, done⟩ := bind_eq_some_iff.mp done
  cases done
  obtain ⟨activeOrders, cleared⟩ :=
    clearActiveIfMatch_eq cfg { om with timeoutWheel := wheel } info.symbolId info.side id
  rw [cleared]
  exact ⟨rfl, rfl, rfl⟩

structure ErasedOne (om om' : OrderManager) (id : Nat) : Prop where
  sheds : Sheds om om' (· = id)
  count : om.outstandingCount ≤ om'.outstandingCount + 1
  capacity : om'.outstanding.capacity = om.outstanding.capacity
  tombstones : om'.outstanding.tombstones ≤ om.outstanding.tombstones + 1
  ok : om'.outstanding.Ok

theorem eraseOutstanding_erasedOne (ok : om.outstanding.Ok) (done : om.eraseOutstanding id = some om') :
    ErasedOne om om' id := by
  obtain ⟨⟨_, outstanding⟩, erased, done⟩ := bind_eq_some_iff.mp done
  cases done
  rw [HashMap.Ok.erase_eq ok] at erased
  have count : om.outstandingCount ≤ (if 0 < om.outstandingCount then om.outstandingCount - 1 else 0) + 1 := by
    split <;> omega
  rcases ok.erase_cases id with ⟨_, absent⟩ | ⟨info, u, _, present, gone⟩
  · obtain ⟨_, rfl⟩ := Prod.mk.inj (mem_unique erased absent)
    exact ⟨sheds_same rfl rfl, count, rfl, Nat.le_succ _, ok⟩
  · obtain ⟨_, rfl⟩ := Prod.mk.inj (mem_unique erased present)
    have content := gone.content_eq ok
    have load := gone.load_eq
    have size := gone.size_eq ok
    refine ⟨⟨rfl, shrinks_of_erased gone, ?_⟩, count, gone.capacity_eq, ?_, gone.wellFormed⟩
    · intro other info found stays
      simpa [content, stays] using found
    · dsimp only
      omega

theorem Sheds.erase (first : Sheds om om₁ (· = id)) (ok : om.Ok cfg) (spares : om.Spares id)
    (map : om₁.outstanding = om.outstanding) (counted : om₁.outstandingCount = om.outstandingCount)
    (done : (do return (← om₁.eraseOutstanding id).maybeCompactOutstanding) = some om') : Sheds om om' (· = id) := by
  obtain ⟨om₂, erased, done⟩ := bind_eq_some_iff.mp done
  cases done
  have one := eraseOutstanding_erasedOne (map ▸ ok.map) erased
  refine (first.trans one.sheds).compact ?_
  intro none_counted due other info found
  have count := one.count
  have tombstones := one.tombstones
  simp only [HashMap.needsRebuild, decide_eq_true_eq, one.capacity, map] at due
  rw [map] at tombstones
  exact spares (by omega) (by omega) _ (ok.map.content_eq_some.mp found)

theorem dropOrder_sheds (ok : om.Ok cfg) (spares : om.Spares id) {info : Option OrderInfo}
    (done : om.dropOrder cfg id info = some om') : Sheds om om' (· = id) := by
  unfold dropOrder at done
  cases info with
  | none => exact (sheds_same rfl rfl).erase ok spares rfl rfl done
  | some info =>
    obtain ⟨om₁, untracked, done⟩ := bind_eq_some_iff.mp done
    obtain ⟨next, map, counted⟩ := untrack_frame untracked
    exact (sheds_same next map).erase ok spares map counted done

theorem checkDrainComplete_sheds (om : OrderManager) : Sheds om om.checkDrainComplete Gone := by
  unfold checkDrainComplete
  split <;> exact sheds_same rfl rfl

/-! ### Timeouts -/

variable {wheel : TimingWheel Unit}

theorem tickTimes_length {n : Nat} {wheel' : TimingWheel Unit} {ids' : List Nat} (few : ids.length ≤ cfg.maxOutstanding)
    (ticked : tickTimes cfg n (wheel, ids) = some (wheel', ids')) : ids'.length ≤ cfg.maxOutstanding := by
  induction n generalizing wheel ids with
  | zero =>
    cases ticked
    exact few
  | succ n ih =>
    obtain ⟨⟨wheel₁, ids₁⟩, first, rest⟩ := bind_eq_some_iff.mp ticked
    refine ih (TimingWheel.tick_carries (P := fun ids => ids.length ≤ cfg.maxOutstanding) ?_ few first) rest
    intro cb ctx w s w' s' few called
    simp only [onOrderTimeout] at called
    split at called
    · cases called
    · rename_i room
      cases called
      rw [length_append, length_singleton]
      omega

def CancelsTracked (om : OrderManager) (cancel : CancelOrder) : Prop :=
  ∃ info, om.outstanding.content cancel.clientOrderId = some info ∧ cancel.symbolId = info.symbolId

structure Expired (om om' : OrderManager) (ids : List Nat) (batch batch' : List CancelOrder) : Prop where
  sheds : Sheds om om' (· ∈ ids)
  count : om.outstandingCount + om'.outstanding.size ≤ om'.outstandingCount + om.outstanding.size
  capacity : om'.outstanding.capacity = om.outstanding.capacity
  load : om'.outstanding.size + om'.outstanding.tombstones = om.outstanding.size + om.outstanding.tombstones
  map : om'.outstanding.Ok
  grows : ∀ cancel ∈ batch, cancel ∈ batch'
  tracked : ∀ cancel ∈ batch', cancel ∈ batch ∨ CancelsTracked om cancel
  cancelled : ∀ id info, id ∈ ids → om.outstanding.content id = some info → ∃ cancel ∈ batch', cancel.clientOrderId = id
  listed : ∀ cancel ∈ batch', cancel ∈ batch ∨ cancel.clientOrderId ∈ ids
  gone : ∀ id ∈ ids, om'.outstanding.content id = none

theorem expireOrders_expired {batch' : List CancelOrder} (ok : om.Ok cfg)
    (room : batch.length + ids.length ≤ cfg.maxOutstanding)
    (done : expireOrders cfg nowNs ids om batch = some (batch', om')) : Expired om om' ids batch batch' := by
  induction ids generalizing om batch with
  | nil =>
    cases done
    exact ⟨sheds_same rfl rfl, Nat.le_refl _, rfl, rfl, ok.map, fun _ => id, fun _ => .inl,
      fun _ _ member => (by cases member), fun _ => .inl, fun _ member => (by cases member)⟩
  | cons coid rest ih =>
    rw [length_cons] at room
    unfold expireOrders at done
    simp only [ok.find, bind_eq_bind, bind_some] at done
    cases found : om.outstanding.content coid with
    | none =>
      rw [found] at done
      obtain ⟨sheds, count, capacity, load, map, grows, tracked, cancelled, listed, gone⟩ := ih ok (by omega) done
      refine ⟨sheds.mono fun id => mem_cons_of_mem coid, count, capacity, load, map, grows, tracked, ?_, ?_, ?_⟩
      · intro id info member present
        rcases mem_cons.mp member with rfl | later
        · cases found.symm.trans present
        · exact cancelled id info later present
      · exact fun cancel member => (listed cancel member).imp_right (mem_cons_of_mem coid)
      · intro id member
        rcases mem_cons.mp member with rfl | later
        · by_contra present
          obtain ⟨info, present⟩ := ne_none_iff_exists'.mp present
          cases found.symm.trans (sheds.old.content ok.map map present)
        · exact gone id later
    | some info =>
      rw [found] at done
      have full : batch.length < cfg.maxOutstanding := by omega
      simp only [if_pos full] at done
      obtain ⟨activeOrders, cleared⟩ := clearActiveIfMatch_eq cfg om info.symbolId info.side coid
      rw [cleared] at done
      have ok₁ : ({ om with activeOrders } : OrderManager).Ok cfg := { ok with }
      obtain ⟨om₁, om₂, released, erased, closed⟩ := ok₁.close found
      simp only [released, erased, bind_some] at done
      have one : ErasedOne om (om₂.count .timeoutsFired 1) coid := by
        obtain ⟨symIdx, _, released⟩ := bind_eq_some_iff.mp released
        cases released
        obtain ⟨⟨next, old, kept⟩, count, capacity, tombstones, map⟩ :=
          eraseOutstanding_erasedOne (by exact ok.map) erased
        exact ⟨⟨next, old, kept⟩, count, capacity, tombstones, map⟩
      have closed' := closed.counted .timeoutsFired 1
      obtain ⟨sheds, count, capacity, load, map, grows, tracked, cancelled, listed, gone⟩ := ih closed'.ok
        (by rw [length_append, length_singleton]; omega) done
      have first := one.count
      have size := closed'.erased.size_eq ok.map
      refine ⟨?_, ?_, capacity.trans one.capacity, load.trans closed'.erased.load_eq, map, ?_, ?_, ?_, ?_, ?_⟩
      · exact (one.sheds.mono fun id same => same ▸ mem_cons_self).trans
          (sheds.mono fun id => mem_cons_of_mem coid)
      · omega
      · exact fun cancel member => grows cancel (mem_append_left _ member)
      · intro cancel member
        rcases tracked cancel member with old | ⟨info', present, symbol⟩
        · rcases mem_append.mp old with old | new
          · exact .inl old
          · cases mem_singleton.mp new
            exact .inr ⟨info, found, rfl⟩
        · exact .inr ⟨info', one.sheds.old.content ok.map one.ok present, symbol⟩
      · intro id info' member present
        by_cases here : id = coid
        · subst here
          exact ⟨_, grows _ (mem_append_right _ (mem_singleton_self _)), rfl⟩
        · have later := (mem_cons.mp member).resolve_left here
          exact cancelled id info' later (one.sheds.kept id info' present here)
      · intro cancel member
        rcases listed cancel member with old | later
        · refine (mem_append.mp old).imp_right fun new => ?_
          rw [mem_singleton.mp new]
          exact mem_cons_self
        · exact .inr (mem_cons_of_mem _ later)
      · intro id member
        by_cases later : id ∈ rest
        · exact gone id later
        · obtain rfl := (mem_cons.mp member).resolve_right later
          by_contra present
          obtain ⟨info', present⟩ := ne_none_iff_exists'.mp present
          have erasedHere := sheds.old.content one.ok map present
          rw [closed'.erased.content_eq ok.map, Function.update_self] at erasedHere
          cases erasedHere

theorem Advanced.ok (ok : om.Ok cfg) (advanced : Advanced cfg om om' nowNs batch wheel ids om₁) :
    (om.ticked nowNs wheel).Ok cfg :=
  ⟨ok.map, tickTimes_ok ok.wheel advanced.ticks, ok.indexed⟩

/-- The orders whose timer fired are closed, and the map is cleared only when none is left. -/
theorem Advanced.sheds (ok : om.Ok cfg) (spares : om.SparesAll)
    (advanced : Advanced cfg om om' nowNs batch wheel ids om₁) :
    Sheds om om' (· ∈ ids) ∧ Expired (om.ticked nowNs wheel) om₁ ids [] batch := by
  have expired := expireOrders_expired (advanced.ok ok) (by simpa using tickTimes_length (Nat.zero_le _) advanced.ticks)
    advanced.expired
  have sheds : Sheds om om₁ (· ∈ ids) := { expired.sheds with }
  refine ⟨?_, expired⟩
  rw [advanced.compacted]
  refine sheds.compact fun none_counted rebuild id info found => ?_
  have count : om.outstandingCount + om₁.outstanding.size ≤ om₁.outstandingCount + om.outstanding.size := expired.count
  have load : om₁.outstanding.size + om₁.outstanding.tombstones = om.outstanding.size + om.outstanding.tombstones :=
    expired.load
  have capacity : om₁.outstanding.capacity = om.outstanding.capacity := expired.capacity
  simp only [HashMap.needsRebuild, decide_eq_true_eq, capacity] at rebuild
  -- The count came to zero with the last entry, so nothing that was tracked stayed.
  have empty : om₁.outstanding.size = 0 := by
    rcases spares with all | room <;> omega
  by_contra stays
  have left := expired.map.content_eq_some.mp (sheds.kept id info found stays)
  rw [expired.map.size_eq, length_eq_zero_iff] at empty
  rw [empty] at left
  cases left

/-! ### New orders -/

def Numbered (om om' : OrderManager) (generated : Bool) (out : NewOrder) : Prop :=
  (generated = false ∧ om'.nextOrderId = om.nextOrderId) ∨ (om'.nextOrderId = (om.nextOrderId + 1) % 2 ^ 64 ∧
    (generated = true → out.clientOrderId = om.nextOrderId))

theorem placeOrder_numbered {symIdx : Nat} {signal : Signal} {sendTs : Int} {generated : Bool} {out : NewOrder}
    (placed : om.placeOrder cfg symIdx signal sendTs = some (generated, out, om')) : Numbered om om' generated out := by
  refine .inr ?_
  obtain ⟨rfl, timerHandle, wheel, outstanding, _, _, ⟨rfl, _, _, _, rfl⟩ | ⟨rfl, rfl⟩⟩ := placeOrder_cases placed
  · exact ⟨rfl, fun impossible => nomatch impossible⟩
  · exact ⟨rfl, fun _ => rfl⟩

theorem onSignal_numbered {signal : Signal} {now sendTs : Int} {out out' : NewOrder} {generated : Bool}
    (done : om.onSignal cfg signal now sendTs out = some (generated, out', om')) : Numbered om om' generated out' := by
  cases onSignal_cases done with
  | early stat => exact .inl ⟨rfl, rfl⟩
  | late stat refilled =>
    obtain ⟨tokens, lastRefillTs, rfl⟩ := refill_frame refilled
    exact .inl ⟨rfl, rfl⟩
  | passed known passes refilled placed =>
    obtain ⟨tokens, lastRefillTs, rfl⟩ := refill_frame refilled
    have numbered := placeOrder_numbered placed
    exact numbered

/-! ### One call -/

/-- What a call other than a signal does to the tracked orders, with the messages it sends. -/
structure Sheds.Sending (om om' : OrderManager) (op : Op) (sent : List Request) : Prop where
  sheds : Sheds om om' fun id => id ∈ op.drops ∨ ∃ cancel, .cancelOrder cancel ∈ sent ∧ cancel.clientOrderId = id
  cancels : ∀ cancel, .cancelOrder cancel ∈ sent → CancelsTracked om cancel
  orders : ∀ out, .newOrder out ∉ sent

theorem sending_none {op : Op} (sheds : Sheds om om' (· ∈ op.drops)) : Sheds.Sending om om' op [] :=
  ⟨sheds.mono fun _ => .inl, fun _ member => (nomatch member), fun _ member => (nomatch member)⟩

theorem sending_cancels {op : Op} (sheds : Sheds om om' fun id => ∃ cancel ∈ batch, cancel.clientOrderId = id)
    (cancels : ∀ cancel ∈ batch, CancelsTracked om cancel) :
    Sheds.Sending om om' op (batch.map .cancelOrder) := by
  refine ⟨sheds.mono ?_, ?_, ?_⟩
  · rintro id ⟨cancel, member, same⟩
    exact .inr ⟨cancel, List.mem_map_of_mem member, same⟩
  · intro cancel member
    obtain ⟨_, listed, same⟩ := List.mem_map.mp member
    obtain rfl := Request.cancelOrder.inj same
    exact cancels _ listed
  · intro out member
    obtain ⟨_, _, same⟩ := List.mem_map.mp member
    cases same

theorem Advanced.sending (ok : om.Ok cfg) (spares : om.SparesAll)
    (advanced : Advanced cfg om om' nowNs batch wheel ids om₁) {op : Op} :
    Sheds.Sending om om' op (batch.map .cancelOrder) := by
  obtain ⟨sheds, expired⟩ := advanced.sheds ok spares
  refine sending_cancels ⟨sheds.next, sheds.old, fun id info found stays => sheds.kept id info found fun member => ?_⟩
    fun cancel member => ?_
  · exact stays (expired.cancelled id info member found)
  · exact (expired.tracked cancel member).resolve_left (by simp)

theorem apply_sending {op : Op} {sent : List Request} (ok : om.Ok cfg)
    (plain : ∀ signal now sendTs, op ≠ .signal signal now sendTs)
    (spares : om.SparesOthers op) (applied : om.apply cfg op = some (sent, om')) : Sheds.Sending om om' op sent := by
  cases apply_cases ok applied with
  | refused | placed => exact absurd rfl (plain _ _ _)
  | unmodified | modified => exact ⟨sheds_same rfl rfl, by simp, by simp⟩
  | acked | modifyAcked | modifyUnknown | filled => exact sending_none (sheds_same rfl rfl)
  | modifyRejected => exact sending_none ((clearActiveIfMatch_sheds om _ _ _).counted _ _)
  | rejected dropped =>
    exact sending_none (((dropOrder_sheds ok (spares _ rfl) dropped).counted _ _).mono fun id same => same ▸ rfl)
  | @completed fill netPosition om₁ last dropped =>
    have ok₁ := ok.of_position netPosition
    have sheds := dropOrder_sheds ok₁ (spares _ (if_pos last)) dropped
    have whole : Sheds om om₁ (· = fill.clientOrderId) := { sheds with }
    refine sending_none (((whole.counted _ _).counted _ _).mono fun id same => ?_)
    rw [same]
    exact if_pos last
  | cancelled dropped =>
    have sheds := dropOrder_sheds ok (spares _ rfl) dropped
    exact sending_none ((sheds.trans (checkDrainComplete_sheds _)).mono fun id same => same ▸ rfl)
  | cancelUnknown => exact sending_none (checkDrainComplete_sheds om)
  | cancelRejected known dropped =>
    have sheds := dropOrder_sheds ok (spares _ rfl) dropped
    exact sending_none ((sheds.trans (checkDrainComplete_sheds _)).mono fun id same => same ▸ rfl)
  | early => exact sending_none (sheds_same rfl rfl)
  | expired advanced => exact advanced.sending ok spares
  | killed =>
    refine sending_cancels (sheds_same rfl rfl) fun cancel member => ?_
    obtain ⟨entry, listed, rfl⟩ := List.mem_map.mp member
    exact ⟨entry.2, ok.map.content_eq_some.mpr (mem_of_mem_take listed), rfl⟩
  | killedAgain => exact sending_none (sheds_same rfl rfl)

end OrderManager

end TickToTrade.Oms
