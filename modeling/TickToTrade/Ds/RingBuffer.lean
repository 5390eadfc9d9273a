import TickToTrade.Basic
import TickToTrade.Lib.RingIndex
import TickToTrade.Lib.Transition

/-! The ring buffer of `ds/ring_buffer.hpp`. The write index is a `uint32_t` that counts the pushes. -/

namespace TickToTrade.Ds
open RingIndex List Option

structure RingBuffer (T : Type) where
  buf : Nat → T
  capacity : Nat
  mask : Nat
  writeIdx : Nat := 0
  count : Nat := 0

namespace RingBuffer

variable {T : Type}

def isValidCapacity (c : Nat) : Bool := 2 ≤ c && isPowerOfTwo (c % 2 ^ 32) && c ≤ 2 ^ 32 - 1

/-- `create` on a buffer of the required size. -/
def create (buf : Nat → T) (capacity : Nat) : Option (RingBuffer T) :=
  if isValidCapacity capacity then some { buf, capacity, mask := capacity - 1 } else none

def headPhysical (r : RingBuffer T) : Nat := wrapSub (2 ^ 32) r.writeIdx r.count &&& r.mask

def front (r : RingBuffer T) : T := r.buf r.headPhysical

def back (r : RingBuffer T) : T := r.buf (wrapSub (2 ^ 32) r.writeIdx 1 &&& r.mask)

/-- `operator[]`. -/
def get (r : RingBuffer T) (i : Nat) : T := r.buf ((r.headPhysical + i % 2 ^ 32) % 2 ^ 32 &&& r.mask)

/-- What the iterators from `begin` to `end` refer to. -/
def elements (r : RingBuffer T) : List T := (range r.count).map r.get

def push (r : RingBuffer T) (value : T) : RingBuffer T :=
  if r.capacity = 0 then r
  else
    { r with
      buf := Function.update r.buf (r.writeIdx &&& r.mask) value
      writeIdx := (r.writeIdx + 1) % 2 ^ 32
      count := if r.count < r.capacity then r.count + 1 else r.count }

/-- The buffer must not be empty. -/
def popFront (r : RingBuffer T) : Exec (RingBuffer T) :=
    if r.count = 0 then none else some { r with count := r.count - 1 }

def clear (r : RingBuffer T) : RingBuffer T := { r with writeIdx := 0, count := 0 }

inductive Op (T : Type) where
  | push (value : T)
  | popFront
  | clear

def step (r : RingBuffer T) : Op T → Exec (RingBuffer T)
  | .push value => some (r.push value)
  | .popFront => r.popFront
  | .clear => some r.clear

/-- The bounded list: a push onto a full one drops the oldest element. -/
def boundedStep (capacity : Nat) (l : List T) : Op T → Option (List T)
  | .push value => some (if l.length < capacity then l ++ [value] else l.tail ++ [value])
  | .popFront => if l = [] then none else some l.tail
  | .clear => some []

/-- The buffer reads as the list, whichever way it is read. -/
structure Reads (r : RingBuffer T) (l : List T) : Prop where
  count : r.count = l.length
  get : ∀ i v, l[i]? = some v → r.get i = v
  front : ∀ v, l.head? = some v → r.front = v
  back : ∀ v, l.getLast? = some v → r.back = v
  elements : r.elements = l

/-- `pushed` are the values since the last `clear`, of which the last ones are in the buffer. -/
structure Shows (r : RingBuffer T) (pushed l : List T) : Prop where
  power : ∃ p, r.capacity = 2 ^ p
  divides : r.capacity ∣ 2 ^ 32
  mask : r.mask = r.capacity - 1
  index : r.writeIdx = pushed.length % 2 ^ 32
  room : r.count ≤ r.capacity
  enough : r.count ≤ pushed.length
  last : l = pushed.drop (pushed.length - r.count)
  holds : Holds r.capacity r.buf (pushed.length - r.count) pushed

variable {r : RingBuffer T} {pushed l : List T}

section

variable (shows : r.Shows pushed l)
include shows

theorem Shows.masked (x : Nat) : x % 2 ^ 32 &&& r.mask = x % r.capacity := by
  rw [shows.mask, and_mask shows.power, Nat.mod_mod_of_dvd _ shows.divides]

theorem Shows.behind {n : Nat} (enough : n ≤ pushed.length) (word : n ≤ 2 ^ 32) :
    wrapSub (2 ^ 32) r.writeIdx n &&& r.mask = (pushed.length - n) % r.capacity := by
  have wrapped : wrapSub (2 ^ 32) r.writeIdx n = (pushed.length - n) % 2 ^ 32 := by
    rw [wrapSub, shows.index]
    omega
  rw [wrapped, shows.masked]

theorem Shows.small : r.count ≤ 2 ^ 32 :=
  Nat.le_trans shows.room (Nat.le_of_dvd (by omega) shows.divides)

theorem Shows.length : r.count = l.length := by
  have enough := shows.enough
  rw [shows.last, length_drop]
  omega

theorem Shows.at {i : Nat} {v : T} (found : l[i]? = some v) :
    r.buf ((pushed.length - r.count + i) % r.capacity) = v := by
  rw [shows.last, getElem?_drop] at found
  exact shows.holds _ v (Nat.le_add_right _ _) found

theorem Shows.get {i : Nat} {v : T} (found : l[i]? = some v) : r.get i = v := by
  have bound := (List.getElem?_eq_some_iff.mp found).1
  have small := shows.small
  rw [shows.length] at small
  have word : i % 2 ^ 32 = i := Nat.mod_eq_of_lt (by omega)
  rw [RingBuffer.get, headPhysical, shows.behind shows.enough shows.small, word, shows.masked, Nat.mod_add_mod]
  exact shows.at found

theorem Shows.reads : r.Reads l where
  count := shows.length
  get _ _ := shows.get
  front v first := by
    rw [front, headPhysical, shows.behind shows.enough shows.small]
    exact shows.at (head?_eq_getElem? ▸ first)
  back v last := by
    have present : 0 < l.length := by
      cases l with
      | nil => cases last
      | cons => exact Nat.succ_pos _
    have enough := shows.enough
    have length := shows.length
    rw [back, shows.behind (by omega) (by omega),
      show pushed.length - 1 = pushed.length - r.count + (l.length - 1) by omega]
    exact shows.at (getLast?_eq_getElem? ▸ last)
  elements := by
    refine ext_getElem? fun i => ?_
    rw [elements, getElem?_map]
    rcases Nat.lt_or_ge i l.length with inside | outside
    · rw [getElem?_range (shows.length ▸ inside), map_some, shows.get (getElem?_eq_getElem inside),
        getElem?_eq_getElem inside]
    · rw [List.getElem?_eq_none (by simpa [shows.length] using outside), List.getElem?_eq_none outside]
      rfl

theorem Shows.push (value : T) :
    (r.push value).Shows (pushed ++ [value]) (if l.length < r.capacity then l ++ [value] else l.tail ++ [value]) := by
  obtain ⟨p, power⟩ := shows.power
  have positive : 0 < r.capacity := power ▸ Nat.two_pow_pos p
  have enough := shows.enough
  have room := shows.room
  have length := shows.length
  have slot : r.writeIdx &&& r.mask = pushed.length % r.capacity := by rw [shows.index, shows.masked]
  have index : (r.writeIdx + 1) % 2 ^ 32 = (pushed ++ [value]).length % 2 ^ 32 := by
    rw [shows.index, length_append, length_singleton, Nat.mod_add_mod]
  unfold RingBuffer.push
  rw [if_neg (Nat.ne_of_gt positive), slot, index]
  by_cases free : r.count < r.capacity
  · rw [if_pos free, if_pos (length ▸ free)]
    have first : (pushed ++ [value]).length - (r.count + 1) = pushed.length - r.count := by
      rw [length_append, length_singleton]
      omega
    refine ⟨shows.power, shows.divides, shows.mask, rfl, free, by simpa using enough, ?_, ?_⟩
    · rw [first, drop_append_of_le_length (Nat.sub_le _ _), ← shows.last]
    · dsimp only
      rw [first]
      exact shows.holds.push (by omega) value
  · rw [if_neg free, if_neg (length ▸ free)]
    have first : (pushed ++ [value]).length - r.count = pushed.length - r.count + 1 := by
      rw [length_append, length_singleton]
      omega
    refine ⟨shows.power, shows.divides, shows.mask, rfl, room, by simp; omega, ?_, ?_⟩
    · rw [first, drop_append_of_le_length (by omega), ← tail_drop, ← shows.last]
    · dsimp only
      rw [first]
      exact (shows.holds.mono (Nat.le_succ _)).push (by omega) value

theorem Shows.popFront (filled : l ≠ []) : ∃ r', r.popFront = some r' ∧ r'.capacity = r.capacity ∧
    r'.Shows pushed l.tail := by
  have present : 0 < l.length := length_pos_iff.mpr filled
  have enough := shows.enough
  have room := shows.room
  have length := shows.length
  have first : pushed.length - (r.count - 1) = pushed.length - r.count + 1 := by omega
  refine ⟨_, if_neg (by omega), rfl, shows.power, shows.divides, shows.mask, shows.index, ?_, ?_, ?_, ?_⟩
  all_goals dsimp only
  · omega
  · omega
  · rw [first, ← tail_drop, ← shows.last]
  · rw [first]
    exact shows.holds.mono (Nat.le_succ _)

theorem Shows.clear : r.clear.Shows [] [] :=
  ⟨shows.power, shows.divides, shows.mask, rfl, Nat.zero_le _, Nat.le_refl _, rfl, nofun⟩

theorem Shows.step {op : Op T} {l' : List T} (stepped : boundedStep r.capacity l op = some l') :
    ∃ r' pushed', r.step op = some r' ∧ r'.capacity = r.capacity ∧ r'.Shows pushed' l' := by
  cases op with
  | push value =>
    cases stepped
    refine ⟨_, _, rfl, ?_, shows.push value⟩
    unfold RingBuffer.push
    split <;> rfl
  | popFront =>
    simp only [boundedStep] at stepped
    split at stepped
    case isTrue => cases stepped
    case isFalse filled =>
      cases stepped
      obtain ⟨r', popped, same, shows'⟩ := shows.popFront filled
      exact ⟨r', pushed, popped, same, shows'⟩
  | clear =>
    cases stepped
    exact ⟨_, [], rfl, rfl, shows.clear⟩

theorem Shows.run {ops : List (Op T)} {l' : List T}
    (ran : Transition.run (boundedStep r.capacity) ops l = some l') :
    ∃ r' pushed', Transition.run RingBuffer.step ops r = some r' ∧ r'.Shows pushed' l' := by
  induction ops generalizing r pushed l with
  | nil =>
    cases ran
    exact ⟨r, pushed, rfl, shows⟩
  | cons op ops ih =>
    obtain ⟨l₁, stepped, ran⟩ := bind_eq_some_iff.mp ran
    obtain ⟨r₁, pushed₁, done, same, shows₁⟩ := shows.step stepped
    obtain ⟨r', pushed', rest, shows'⟩ := ih shows₁ (same ▸ ran)
    exact ⟨r', pushed', Transition.run_cons done rest, shows'⟩

end

theorem create_shows {buf : Nat → T} {capacity : Nat} (created : create buf capacity = some r) :
    r.capacity = capacity ∧ r.Shows [] [] := by
  unfold create at created
  split at created
  case isFalse => cases created
  case isTrue valid =>
    cases created
    simp only [isValidCapacity, Bool.and_eq_true, decide_eq_true_eq] at valid
    obtain ⟨⟨_, power⟩, small⟩ := valid
    rw [Nat.mod_eq_of_lt (by omega)] at power
    have divides : capacity ∣ 2 ^ 32 := isPowerOfTwo_dvd power (by omega)
    exact ⟨rfl, isPowerOfTwo_pow power, divides, rfl, rfl, Nat.zero_le _, Nat.le_refl _, rfl, nofun⟩

/-- Whatever the number of pushes, a buffer does and reads what the bounded list does and holds. -/
theorem run_refines_boundedList {buf : Nat → T} {capacity : Nat} {r₀ : RingBuffer T} {ops : List (Op T)}
    (created : create buf capacity = some r₀) (ran : Transition.run (boundedStep capacity) ops [] = some l) :
    ∃ r, Transition.run step ops r₀ = some r ∧ r.Reads l := by
  obtain ⟨same, shows⟩ := create_shows created
  obtain ⟨r, _, done, shows'⟩ := shows.run (same.symm ▸ ran)
  exact ⟨r, done, shows'.reads⟩

theorem run_refines_boundedList_two :
    ∃ r, Transition.run step [.push 5, .push 6, .push 7, .popFront] (⟨fun _ => 0, 2, 1, 0, 0⟩ : RingBuffer Nat) =
    some r ∧ r.Reads [7] :=
  @run_refines_boundedList Nat [7] (fun _ => 0) 2 _ _ rfl rfl

end RingBuffer

end TickToTrade.Ds
