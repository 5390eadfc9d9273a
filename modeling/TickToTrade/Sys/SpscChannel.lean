import TickToTrade.Basic
import TickToTrade.Lib.RingIndex
import TickToTrade.Lib.Transition
import TickToTrade.Sys.FixedSpscQueue

/-!
The two threads of `SPSCQueue` (`sys/memory/spsc_queue.hpp`) and `FixedSPSCQueue`
(`sys/memory/fixed_spsc_queue.hpp`). A step reads the index of the other thread, copies one element or
publishes its own index; the indices are 32-bit words.
-/

namespace TickToTrade.Sys
open RingIndex List Option Function

/-- What the queues check of their capacity, and whether `drain` copies segments. -/
structure QueueParams where
  capacity : Nat
  bulkCopy : Bool
  least : 2 ≤ capacity
  word : capacity < 2 ^ 32
  power : isPowerOfTwo capacity = true

/-- Where the producer is in `try_push` (`single`) or `try_push_batch`; it writes `items` from its tail `t` on. -/
inductive Producer (α : Type) where
  | idle
  | reading (items : List α) (single : Bool)
  | writing (t : Nat) (items : List α) (written : Nat)

/-- Where the consumer is in `try_pop` (`single`) or `drain`; it copies `n` elements from its head `h` on. -/
inductive Consumer (α : Type) where
  | idle
  | reading (maxCount : Nat) (single : Bool)
  | copying (h n : Nat) (single : Bool) (out : List α)

inductive Report where
  | full
  | pushed (count : Nat)
  | empty
  | popped (count : Nat)
  deriving DecidableEq

/-- `pushed` is what was published, `popped` what was returned, and `report` what the last step returned. -/
structure Channel (α : Type) where
  head : Nat := 0
  tail : Nat := 0
  buf : Nat → α
  producer : Producer α := .idle
  consumer : Consumer α := .idle
  pushed : List α := []
  popped : List α := []
  report : Option Report := none

inductive Move (α : Type) where
  | tryPush (v : α)
  | tryPushBatch (items : List α)
  | produce
  | tryPop
  | drain (maxCount : Nat)
  | consume

def sub32 (a b : Nat) : Nat := wrapSub (2 ^ 32) a b

namespace QueueParams

/-- `buf_[index & mask]`, for an index computed in 32 bits. -/
def slot (p : QueueParams) (index : Nat) : Nat := index % 2 ^ 32 &&& (p.capacity - 1)

/-- The position from which `drain` copies its element `i`. -/
def drainSlot (p : QueueParams) (h n i : Nat) : Nat :=
  if p.bulkCopy then
    let start := h &&& (p.capacity - 1)
    let first := min n (p.capacity - start)
    if i < first then start + i else i - first
  else p.slot (h + i)

end QueueParams

namespace Channel

variable {α : Type}

def produce (p : QueueParams) (c : Channel α) : Option (Channel α) :=
  match c.producer with
  | .idle => none
  | .reading items true =>
    if sub32 c.tail c.head = p.capacity then some { c with producer := .idle, report := some .full }
    else some { c with producer := .writing c.tail items 0, report := none }
  | .reading items false =>
    let n := min items.length (sub32 p.capacity (sub32 c.tail c.head))
    if 0 < n then some { c with producer := .writing c.tail (items.take n) 0, report := none }
    else some { c with producer := .idle, report := some (if items = [] then .pushed 0 else .full) }
  | .writing t items written =>
    match items[written]? with
    | some v => some { c with
        buf := update c.buf (p.slot (t + written)) v
        producer := .writing t items (written + 1)
        report := none }
    | none => some { c with
        tail := (t + items.length) % 2 ^ 32
        producer := .idle
        pushed := c.pushed ++ items
        report := some (.pushed items.length) }

def consume (p : QueueParams) (c : Channel α) : Option (Channel α) :=
  match c.consumer with
  | .idle => none
  | .reading maxCount single =>
    if c.head = c.tail then some { c with consumer := .idle, report := some .empty }
    else
      let n := if single then 1 else min (sub32 c.tail c.head) maxCount
      some { c with consumer := .copying c.head n single [], report := none }
  | .copying h n single out =>
    if out.length < n then
      let v := c.buf (if single then p.slot h else p.drainSlot h n out.length)
      some { c with consumer := .copying h n single (out ++ [v]), report := none }
    else some { c with
      head := (h + n) % 2 ^ 32
      consumer := .idle
      popped := c.popped ++ out
      report := some (.popped n) }

/-- A thread begins a call only after its last one. -/
def step (p : QueueParams) (c : Channel α) : Move α → Option (Channel α)
  | .tryPush v =>
    match c.producer with
    | .idle => some { c with producer := .reading [v] true, report := none }
    | _ => none
  | .tryPushBatch items =>
    match c.producer with
    | .idle => some { c with producer := .reading items false, report := none }
    | _ => none
  | .produce => c.produce p
  | .tryPop =>
    match c.consumer with
    | .idle => some { c with consumer := .reading 1 true, report := none }
    | _ => none
  | .drain maxCount =>
    match c.consumer with
    | .idle => some { c with consumer := .reading maxCount false, report := none }
    | _ => none
  | .consume => c.consume p

def run (p : QueueParams) : List (Move α) → Channel α → Option (Channel α) := Transition.run (step p)

/-! ### The invariant -/

/-- The elements of the current call that are in the buffer but not published. -/
def unpublished (c : Channel α) : List α :=
  match c.producer with
  | .writing _ items written => items.take written
  | _ => []

/-- A writing producer read a head that left room for all its items. -/
def ProducerOk (p : QueueParams) (c : Channel α) : Prop :=
  match c.producer with
  | .writing t items written =>
    t = c.tail ∧ written ≤ items.length ∧ c.pushed.length + items.length ≤ c.popped.length + p.capacity
  | .reading items true => items.length = 1
  | _ => True

/-- A copying consumer read a tail behind all the elements it copies, and has copied the right ones. -/
def ConsumerOk (c : Channel α) : Prop :=
  match c.consumer with
  | .copying h n single out =>
    h = c.head ∧ c.popped.length + n ≤ c.pushed.length ∧ out.length ≤ n ∧ c.popped ++ out <+: c.pushed ∧
      (single = true → n = 1)
  | _ => True

/-- The indices are the numbers of elements pushed and popped, and the buffer holds what lies between. -/
structure Inv (p : QueueParams) (c : Channel α) : Prop where
  tail : c.tail = c.pushed.length % 2 ^ 32
  head : c.head = c.popped.length % 2 ^ 32
  fifo : c.popped <+: c.pushed
  bounded : c.pushed.length ≤ c.popped.length + p.capacity
  stored : Holds p.capacity c.buf c.popped.length (c.pushed ++ c.unpublished)
  producer : c.ProducerOk p
  consumer : c.ConsumerOk

end Channel

theorem QueueParams.pow (p : QueueParams) : ∃ n, p.capacity = 2 ^ n := isPowerOfTwo_pow p.power

theorem QueueParams.divides (p : QueueParams) : p.capacity ∣ 2 ^ 32 := isPowerOfTwo_dvd p.power p.word

theorem QueueParams.slot_counter (p : QueueParams) (counter i : Nat) :
    p.slot (counter % 2 ^ 32 + i) = (counter + i) % p.capacity := by
  rw [QueueParams.slot, and_mask p.pow, Nat.mod_add_mod, Nat.mod_mod_of_dvd _ p.divides]

theorem QueueParams.drainSlot_counter (p : QueueParams) (counter : Nat) {n i : Nat} (small : n ≤ p.capacity)
    (inside : i < n) : p.drainSlot (counter % 2 ^ 32) n i = (counter + i) % p.capacity := by
  unfold QueueParams.drainSlot
  split
  · rw [and_mask p.pow, Nat.mod_mod_of_dvd _ p.divides]
    exact segments_eq small inside
  · exact p.slot_counter counter i

namespace Channel

variable {α : Type} {p : QueueParams} {c c' : Channel α} {report : Option Report}

section

variable (inv : c.Inv p)
include inv

theorem Inv.size : sub32 c.tail c.head = c.pushed.length - c.popped.length := by
  have bounded := inv.bounded
  have word := p.word
  rw [inv.tail, inv.head]
  exact wrapSub_counters inv.fifo.length_le (by omega)

theorem Inv.available : sub32 p.capacity (sub32 c.tail c.head) = p.capacity - (c.pushed.length - c.popped.length) := by
  have bounded := inv.bounded
  have word := p.word
  rw [inv.size]
  unfold sub32 wrapSub
  omega

theorem Inv.head_eq_tail_iff : c.head = c.tail ↔ c.pushed.length = c.popped.length := by
  have order := inv.fifo.length_le
  have bounded := inv.bounded
  have word := p.word
  rw [inv.tail, inv.head]
  omega

theorem Inv.writing {t written : Nat} {items : List α} (writing : c.producer = .writing t items written) :
    t = c.tail ∧ written ≤ items.length ∧ c.pushed.length + items.length ≤ c.popped.length + p.capacity := by
  simpa only [ProducerOk, writing] using inv.producer

theorem Inv.copying {h n : Nat} {single : Bool} {out : List α} (copying : c.consumer = .copying h n single out) :
    h = c.head ∧ c.popped.length + n ≤ c.pushed.length ∧ out.length ≤ n ∧ c.popped ++ out <+: c.pushed ∧
      (single = true → n = 1) := by
  simpa only [ConsumerOk, copying] using inv.consumer

theorem Inv.with_producer (nothing : c.unpublished = []) {producer : Producer α}
    (fresh : unpublished { c with producer, report } = []) (ok : ProducerOk p { c with producer, report }) :
    Inv p { c with producer, report } := by
  refine { inv with stored := ?_, producer := ok }
  rw [fresh, ← nothing]
  exact inv.stored

theorem Inv.with_consumer {consumer : Consumer α}
    (ok : ConsumerOk { c with consumer, report }) : Inv p { c with consumer, report } :=
  { inv with consumer := ok }

theorem Inv.write {t written : Nat} {items : List α} {v : α} (writing : c.producer = .writing t items written)
    (next : items[written]? = some v) :
    Inv p { c with
      buf := update c.buf (p.slot (t + written)) v
      producer := .writing t items (written + 1)
      report := none } := by
  obtain ⟨rfl, -, room⟩ := inv.writing writing
  have inside : written < items.length := (List.getElem?_eq_some_iff.mp next).1
  have order := inv.fifo.length_le
  have before : c.unpublished = items.take written := by simp only [unpublished, writing]
  have more : items.take (written + 1) = items.take written ++ [v] := by
    rw [take_add_one, next]
    rfl
  have stands : (c.pushed ++ items.take written).length = c.pushed.length + written := by
    rw [length_append, length_take_of_le (Nat.le_of_lt inside)]
  have stored := (before ▸ inv.stored).push (show (c.pushed ++ items.take written).length < _ by omega) v
  rw [stands, ← p.slot_counter, ← inv.tail, append_assoc, ← more] at stored
  exact { inv with stored, producer := ⟨rfl, inside, room⟩ }

theorem Inv.publish {t written : Nat} {items : List α}
    (writing : c.producer = .writing t items written) (done : items[written]? = none) :
    Inv p { c with tail := (t + items.length) % 2 ^ 32, producer := .idle, pushed := c.pushed ++ items, report } := by
  obtain ⟨rfl, -, room⟩ := inv.writing writing
  have all : c.unpublished = items := by
    simp only [unpublished, writing]
    exact take_of_length_le (List.getElem?_eq_none_iff.mp done)
  have behind : c.pushed <+: c.pushed ++ items := prefix_append _ _
  refine { inv with
    tail := ?_, fifo := inv.fifo.trans behind, bounded := ?_, stored := ?_, producer := trivial, consumer := ?_ }
  · rw [inv.tail, Nat.mod_add_mod, length_append]
  · rw [length_append]
    exact room
  · simp only [unpublished, append_nil]
    exact all ▸ inv.stored
  · have consumer := inv.consumer
    unfold ConsumerOk at consumer ⊢
    simp only
    split
    · rename_i h n single out copying
      rw [copying] at consumer
      obtain ⟨own, within, short, right, one⟩ := consumer
      exact ⟨own, by rw [length_append]; omega, short, right.trans behind, one⟩
    · trivial

end

theorem prefix_snoc {xs ys : List α} {v : α} (front : xs <+: ys) (next : ys[xs.length]? = some v) :
    xs ++ [v] <+: ys := by
  obtain ⟨rest, rfl⟩ := front
  rw [getElem?_append_right (Nat.le_refl _), Nat.sub_self] at next
  cases rest with
  | nil => cases next
  | cons w rest =>
    obtain rfl : w = v := by simpa using next
    exact ⟨rest, by simp⟩

/-- The consumer copies the element that its index stands for, which no writing producer touches. -/
theorem Inv.copy (inv : c.Inv p) {h n : Nat} {single : Bool} {out : List α}
    (copying : c.consumer = .copying h n single out) (more : out.length < n) : Inv p { c with
      consumer := .copying h n single (out ++ [c.buf (if single then p.slot h else p.drainSlot h n out.length)])
      report := none } := by
  obtain ⟨rfl, within, -, right, one⟩ := inv.copying copying
  have bounded := inv.bounded
  have slot : (if single then p.slot c.head else p.drainSlot c.head n out.length) =
      (c.popped.length + out.length) % p.capacity := by
    rw [inv.head]
    split
    case isTrue alone =>
      have := one alone
      rw [show out.length = 0 by omega]
      exact p.slot_counter c.popped.length 0
    case isFalse => exact p.drainSlot_counter c.popped.length (by omega) more
  have index : (c.popped ++ out).length = c.popped.length + out.length := length_append
  obtain ⟨v, found⟩ : ∃ v, c.pushed[c.popped.length + out.length]? = some v := ⟨_, getElem?_eq_getElem (by omega)⟩
  have value : c.buf ((c.popped.length + out.length) % p.capacity) = v := by
    refine inv.stored _ v (Nat.le_add_right _ _) ?_
    rw [getElem?_append_left (by omega)]
    exact found
  refine inv.with_consumer ⟨rfl, within, ?_, ?_, one⟩
  · rw [length_append, length_singleton]
    exact more
  · rw [slot, value, ← append_assoc]
    exact prefix_snoc right (index ▸ found)

theorem Inv.release (inv : c.Inv p) {h n : Nat} {single : Bool} {out : List α}
    (copying : c.consumer = .copying h n single out) (done : ¬ out.length < n) :
    Inv p { c with head := (h + n) % 2 ^ 32, consumer := .idle, popped := c.popped ++ out, report } := by
  obtain ⟨rfl, -, short, right, -⟩ := inv.copying copying
  have count : n = out.length := by omega
  have bounded := inv.bounded
  refine { inv with head := ?_, fifo := right, bounded := ?_, stored := ?_, producer := ?_, consumer := trivial }
  · rw [inv.head, Nat.mod_add_mod, length_append, count]
  · show c.pushed.length ≤ (c.popped ++ out).length + p.capacity
    rw [length_append]
    omega
  · exact inv.stored.mono (by rw [length_append]; exact Nat.le_add_right _ _)
  · have producer := inv.producer
    unfold ProducerOk at producer ⊢
    simp only
    split
    · rename_i t items written writing
      rw [writing] at producer
      obtain ⟨own, some, room⟩ := producer
      exact ⟨own, some, by rw [length_append]; omega⟩
    · rename_i items reading
      rw [reading] at producer
      exact producer
    · trivial

theorem Inv.produce (inv : c.Inv p) (stepped : c.produce p = some c') : c'.Inv p := by
  have order := inv.fifo.length_le
  have bounded := inv.bounded
  unfold Channel.produce at stepped
  split at stepped
  · cases stepped
  · rename_i items reading
    have none : c.unpublished = [] := by simp only [unpublished, reading]
    have one : items.length = 1 := by simpa only [ProducerOk, reading] using inv.producer
    split at stepped <;> cases stepped
    · exact inv.with_producer none rfl trivial
    · rename_i room
      rw [inv.size] at room
      have fits : c.pushed.length + items.length ≤ c.popped.length + p.capacity := by omega
      exact inv.with_producer none rfl ⟨rfl, Nat.zero_le _, fits⟩
  · rename_i items reading
    have none : c.unpublished = [] := by simp only [unpublished, reading]
    simp only [inv.available] at stepped
    have fits : c.pushed.length +
      (items.take (min items.length (p.capacity - (c.pushed.length - c.popped.length)))).length ≤
        c.popped.length + p.capacity := by
      rw [length_take]
      omega
    split at stepped <;> cases stepped
    · exact inv.with_producer none rfl ⟨rfl, Nat.zero_le _, fits⟩
    · exact inv.with_producer none rfl trivial
  · rename_i t items written writing
    split at stepped <;> cases stepped
    · rename_i v next
      exact inv.write writing next
    · rename_i done
      exact inv.publish writing done

theorem Inv.consume (inv : c.Inv p) (stepped : c.consume p = some c') : c'.Inv p := by
  unfold Channel.consume at stepped
  split at stepped
  · cases stepped
  · rename_i maxCount single reading
    split at stepped
    · cases stepped
      exact inv.with_consumer trivial
    · rename_i some
      have nonempty : c.pushed.length ≠ c.popped.length := fun empty => some (inv.head_eq_tail_iff.mpr empty)
      have order := inv.fifo.length_le
      simp only [inv.size] at stepped
      cases stepped
      have within : c.popped.length + (if single then 1 else min (c.pushed.length - c.popped.length) maxCount) ≤
          c.pushed.length := by
        split <;> omega
      exact inv.with_consumer
        ⟨rfl, within, Nat.zero_le _, by rw [append_nil]; exact inv.fifo, fun alone => if_pos alone⟩
  · rename_i h n single out copying
    split at stepped <;> cases stepped
    · rename_i more
      exact inv.copy copying more
    · rename_i done
      exact inv.release copying done

variable {move : Move α}

theorem Inv.step (inv : c.Inv p) (stepped : c.step p move = some c') : c'.Inv p := by
  cases move with
  | tryPush v =>
    simp only [Channel.step] at stepped
    split at stepped <;> cases stepped
    rename_i idle
    exact inv.with_producer (by simp only [unpublished, idle]) rfl rfl
  | tryPushBatch items =>
    simp only [Channel.step] at stepped
    split at stepped <;> cases stepped
    rename_i idle
    exact inv.with_producer (by simp only [unpublished, idle]) rfl trivial
  | tryPop | drain maxCount =>
    simp only [Channel.step] at stepped
    split at stepped <;> cases stepped
    exact inv.with_consumer trivial
  | produce => exact inv.produce stepped
  | consume => exact inv.consume stepped

theorem inv_start (buf : Nat → α) : Inv p { buf } where
  tail := rfl
  head := rfl
  fifo := List.nil_prefix
  bounded := Nat.zero_le _
  stored := fun k v _ found => by cases found
  producer := trivial
  consumer := trivial

theorem Inv.run {moves : List (Move α)} (inv : c.Inv p) (ran : Channel.run p moves c = some c') : c'.Inv p :=
  Transition.run_keeps (Inv p) (fun inv stepped => inv.step stepped) inv ran

/-! ### What a step does -/

/-- A step that ends no call leaves what was pushed and popped. A call reports full or empty in the step in which it
reads the other index; the steps that publish an index are the ones that push and pop. -/
inductive Effect (p : QueueParams) (c c' : Channel α) : Prop
  | silent (report : c'.report = none) (pushed : c'.pushed = c.pushed) (popped : c'.popped = c.popped)
  | full {items : List α} {single : Bool} (reading : c.producer = .reading items single) (asked : items ≠ [])
      (size : c.pushed.length - c.popped.length = p.capacity)
      (report : c'.report = some .full) (pushed : c'.pushed = c.pushed) (popped : c'.popped = c.popped)
  | pushed (items : List α) (room : c.pushed.length + items.length ≤ c.popped.length + p.capacity)
      (report : c'.report = some (.pushed items.length)) (pushed : c'.pushed = c.pushed ++ items)
      (popped : c'.popped = c.popped)
  | empty {maxCount : Nat} {single : Bool} (reading : c.consumer = .reading maxCount single)
      (size : c.pushed.length - c.popped.length = 0)
      (report : c'.report = some .empty) (pushed : c'.pushed = c.pushed) (popped : c'.popped = c.popped)
  | popped (out : List α) (right : c.popped ++ out <+: c.pushed)
      (report : c'.report = some (.popped out.length)) (pushed : c'.pushed = c.pushed)
      (popped : c'.popped = c.popped ++ out)

theorem Inv.produce_effect (inv : c.Inv p) (stepped : c.produce p = some c') : Effect p c c' := by
  have bounded := inv.bounded
  unfold Channel.produce at stepped
  split at stepped
  · cases stepped
  · rename_i items reading
    have one : items.length = 1 := by simpa only [ProducerOk, reading] using inv.producer
    split at stepped <;> cases stepped
    · rename_i spent
      refine .full reading (fun none => ?_) (inv.size.symm.trans spent) rfl rfl rfl
      rw [none] at one
      cases one
    · exact .silent rfl rfl rfl
  · rename_i items reading
    simp only [inv.available] at stepped
    split at stepped <;> cases stepped
    · exact .silent rfl rfl rfl
    · rename_i nothing
      by_cases asked : items = []
      · exact .pushed [] (by simpa using bounded) (by rw [if_pos asked]; rfl) (append_nil _).symm rfl
      · have positive := length_pos_iff.mpr asked
        exact .full reading asked (by omega) (by rw [if_neg asked]) rfl rfl
  · rename_i t items written writing
    obtain ⟨-, -, room⟩ := inv.writing writing
    split at stepped <;> cases stepped
    · exact .silent rfl rfl rfl
    · exact .pushed items room rfl rfl rfl

theorem Inv.consume_effect (inv : c.Inv p) (stepped : c.consume p = some c') : Effect p c c' := by
  unfold Channel.consume at stepped
  split at stepped
  · cases stepped
  · rename_i maxCount single reading
    split at stepped <;> cases stepped
    · rename_i same
      have all := inv.head_eq_tail_iff.mp same
      exact .empty reading (by omega) rfl rfl rfl
    · exact .silent rfl rfl rfl
  · rename_i h n single out copying
    obtain ⟨-, -, short, right, -⟩ := inv.copying copying
    split at stepped <;> cases stepped
    · exact .silent rfl rfl rfl
    · rename_i done
      exact .popped out right (by rw [show n = out.length by omega]) rfl rfl

theorem Inv.step_effect (inv : c.Inv p) (stepped : c.step p move = some c') : Effect p c c' := by
  cases move with
  | tryPush v | tryPushBatch items | tryPop | drain maxCount =>
    simp only [Channel.step] at stepped
    split at stepped <;> cases stepped
    exact .silent rfl rfl rfl
  | produce => exact inv.produce_effect stepped
  | consume => exact inv.consume_effect stepped

/-- Both queues are bounded channels, first in and first out, in every interleaving: what was popped is a prefix of what
was pushed, there are at most `capacity` elements, and a report of full or empty is true of the state in which the call
made it. -/
theorem run_bounded_fifo {buf : Nat → α} {moves : List (Move α)} (ran : Channel.run p moves { buf } = some c) :
    c.popped <+: c.pushed ∧ c.pushed.length - c.popped.length ≤ p.capacity ∧
    ∀ move c', c.step p move = some c' →
      (c'.report = some .full →
        (∃ items single, c.producer = .reading items single) ∧ c.pushed.length - c.popped.length = p.capacity) ∧
      (c'.report = some .empty →
        (∃ maxCount single, c.consumer = .reading maxCount single) ∧ c.pushed.length - c.popped.length = 0) := by
  have inv : c.Inv p := (inv_start buf).run ran
  have bounded := inv.bounded
  refine ⟨inv.fifo, by omega, fun move c' stepped => ?_⟩
  cases inv.step_effect stepped with
  | silent report | pushed _ _ report | popped _ _ report => rw [report]; exact ⟨nofun, nofun⟩
  | full reading _ size report => exact ⟨fun _ => ⟨⟨_, _, reading⟩, size⟩, by rw [report]; exact nofun⟩
  | empty reading size report => exact ⟨by rw [report]; exact nofun, fun _ => ⟨⟨_, _, reading⟩, size⟩⟩

/-- A queue of two: a batch of three finds room for two, and a pop overlaps the push that follows. -/
def overlapMoves : List (Move Nat) :=
  [.tryPushBatch [7, 8, 9], .produce, .produce, .drain 5, .produce, .produce, .consume, .tryPush 10, .consume, .produce,
    .consume, .tryPush 10, .consume, .produce]

theorem run_bounded_fifo_overlap :
    ∃ c, Channel.run ⟨2, true, by decide, by decide, by decide⟩ overlapMoves { buf := fun _ => 0 } = some c ∧
      c.popped = [7, 8] ∧ c.popped <+: c.pushed := by
  obtain ⟨c, ran, popped⟩ : ∃ c, Channel.run ⟨2, true, by decide, by decide, by decide⟩ overlapMoves
      { buf := fun _ => 0 } = some c ∧ c.popped = [7, 8] := by decide
  exact ⟨c, ran, popped, (run_bounded_fifo ran).1⟩

/-! ### The queue between calls -/

section Atomic

variable {n : Nat}

def pushAll : List α → FixedSPSCQueue α n → Option (FixedSPSCQueue α n)
  | [], q => some q
  | v :: rest, q =>
    match q.tryPush v with
    | (true, q) => pushAll rest q
    | (false, _) => none

def popMany : Nat → FixedSPSCQueue α n → Option (List α × FixedSPSCQueue α n)
  | 0, q => some ([], q)
  | count + 1, q => do
    let (v, q) ← q.tryPop
    let (rest, q) ← popMany count q
    return (v :: rest, q)

/-- What one step of the threads does to the queue, at once. -/
inductive Atomic : FixedSPSCQueue α n → Option Report → FixedSPSCQueue α n → Prop
  | silent (q) : Atomic q none q
  | full (q) (v : α) : q.tryPush v = (false, q) → Atomic q (some .full) q
  | pushed {q q'} (items : List α) : pushAll items q = some q' → Atomic q (some (.pushed items.length)) q'
  | empty (q) : q.tryPop = none → Atomic q (some .empty) q
  | popped {q q'} (out : List α) : popMany out.length q = some (out, q') → Atomic q (some (.popped out.length)) q'

/-- The queue that the channel stands for. -/
def Shows (c : Channel α) (q : FixedSPSCQueue α n) : Prop := q.pushed = c.pushed ∧ q.head = c.popped.length

variable {q : FixedSPSCQueue α n}

theorem pushAll_room {items : List α} (room : q.items.length + items.length ≤ n) :
    ∃ q', pushAll items q = some q' ∧ FixedSPSCQueue.Appended q q' items := by
  induction items generalizing q with
  | nil => exact ⟨q, rfl, q.appended_nil⟩
  | cons v rest ih =>
    rw [length_cons] at room
    rcases q.tryPush_cases v with ⟨full, -⟩ | ⟨-, taken, appended⟩
    · omega
    · obtain ⟨q', all, later⟩ :=
        @ih (q.tryPush v).2 (by rw [appended.items, length_append, length_singleton]; omega)
      refine ⟨q', ?_, appended.trans later⟩
      rw [pushAll]
      split
      · rename_i heq
        rw [heq] at all
        exact all
      · rename_i heq
        rw [heq] at taken
        cases taken

theorem tryPop_head {q' : FixedSPSCQueue α n} {v : α} (popped : q.tryPop = some (v, q')) : q'.head = q.head + 1 := by
  unfold FixedSPSCQueue.tryPop at popped
  split at popped <;> cases popped
  rfl

theorem popMany_items {out : List α} (front : out <+: q.items) :
    ∃ q', popMany out.length q = some (out, q') ∧ q'.pushed = q.pushed ∧ q'.head = q.head + out.length := by
  induction out generalizing q with
  | nil => exact ⟨q, rfl, rfl, rfl⟩
  | cons v rest ih =>
    cases popped : q.tryPop with
    | none =>
      rw [FixedSPSCQueue.tryPop_eq_none.mp popped] at front
      cases prefix_nil.mp front
    | some pair =>
      obtain ⟨w, q₁⟩ := pair
      obtain ⟨items, same⟩ := FixedSPSCQueue.tryPop_eq_some popped
      rw [items, cons_prefix_cons] at front
      obtain ⟨rfl, front⟩ := front
      obtain ⟨q', all, pushed, head⟩ := ih front
      refine ⟨q', ?_, pushed.trans same, ?_⟩
      · rw [length_cons, popMany, popped]
        simp only [bind_eq_bind, bind_some, all]
        rfl
      · rw [head, tryPop_head popped, length_cons]
        omega

theorem Shows.items {q : FixedSPSCQueue α p.capacity} (stands : Shows c q) (inv : c.Inv p) :
    c.pushed = c.popped ++ q.items := by
  obtain ⟨rest, split⟩ := inv.fifo
  rw [FixedSPSCQueue.items, stands.1, stands.2, ← split, drop_left]

/-- Every step of the threads is a step of the queue between calls, with the same report. -/
theorem step_refines {q : FixedSPSCQueue α p.capacity} (inv : c.Inv p) (stands : Shows c q)
    (stepped : c.step p move = some c') : ∃ q', Atomic q c'.report q' ∧ Shows c' q' := by
  have items := stands.items inv
  have size : c.pushed.length - c.popped.length = q.items.length := by
    rw [items, length_append]
    omega
  cases inv.step_effect stepped with
  | silent report pushed popped => exact ⟨q, report ▸ .silent q, pushed ▸ stands.1, popped ▸ stands.2⟩
  | @full asked single reading some spent report pushed popped =>
    obtain ⟨v, rest, rfl⟩ := exists_cons_of_ne_nil some
    rcases q.tryPush_cases v with ⟨-, refused⟩ | ⟨room, -⟩
    · exact ⟨q, report ▸ .full q v refused, pushed ▸ stands.1, popped ▸ stands.2⟩
    · exact absurd (size.symm.trans spent) room
  | pushed new room report pushed popped =>
    have order := inv.fifo.length_le
    obtain ⟨q', all, appended⟩ := pushAll_room (show q.items.length + new.length ≤ p.capacity by omega)
    exact ⟨q', report ▸ .pushed new all,
      by rw [appended.pushed, stands.1, pushed], by rw [appended.head, stands.2, popped]⟩
  | empty reading none report pushed popped =>
    have nothing : q.items = [] := eq_nil_of_length_eq_zero (size.symm.trans none)
    exact ⟨q, report ▸ .empty q (FixedSPSCQueue.tryPop_eq_none.mpr nothing), pushed ▸ stands.1, popped ▸ stands.2⟩
  | popped out right report pushed popped =>
    rw [items, prefix_append_right_inj] at right
    obtain ⟨q', all, same, head⟩ := popMany_items right
    exact ⟨q', report ▸ .popped out all, by rw [same, stands.1, pushed], by rw [head, stands.2, popped, length_append]⟩

/-- By steps at once, from the empty queue. -/
def Reached : FixedSPSCQueue α n → Prop :=
  Relation.ReflTransGen (fun q q' => ∃ report, Atomic q report q') { head_le := FixedSPSCQueue.fresh_le }

/-- Every interleaving of the two threads is a run of the queue between calls, and goes on as one. -/
theorem run_refines_queue {buf : Nat → α} {moves : List (Move α)} (ran : Channel.run p moves { buf } = some c) :
    ∃ q : FixedSPSCQueue α p.capacity, Reached q ∧ Shows c q ∧
      ∀ move c', c.step p move = some c' → ∃ q', Atomic q c'.report q' ∧ Shows c' q' := by
  have inv : c.Inv p := (inv_start buf).run ran
  obtain ⟨-, q, reached, stands⟩ := Transition.run_keeps
    (fun c => c.Inv p ∧ ∃ q : FixedSPSCQueue α p.capacity, Reached q ∧ Shows c q)
    (by
      rintro c move c' ⟨inv, q, reached, stands⟩ stepped
      obtain ⟨q', atomic, stands'⟩ := step_refines inv stands stepped
      exact ⟨inv.step stepped, q', reached.tail ⟨_, atomic⟩, stands'⟩)
    ⟨inv_start buf, _, .refl, rfl, rfl⟩ ran
  exact ⟨q, reached, stands, fun move c' stepped => step_refines inv stands stepped⟩

theorem run_refines_queue_overlap :
    ∃ c, Channel.run ⟨2, true, by decide, by decide, by decide⟩ overlapMoves { buf := fun _ => 0 } = some c ∧
      ∃ q : FixedSPSCQueue Nat 2, Reached q ∧ Shows c q := by
  obtain ⟨c, ran⟩ := isSome_iff_exists.mp
    (show (Channel.run ⟨2, true, by decide, by decide, by decide⟩ overlapMoves { buf := fun _ => 0 }).isSome by decide)
  obtain ⟨q, reached, stands, -⟩ := run_refines_queue ran
  exact ⟨c, ran, q, reached, stands⟩

end Atomic

end Channel

end TickToTrade.Sys
