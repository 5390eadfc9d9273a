import TickToTrade.Basic
import TickToTrade.Lib.Transition

/-!
The bump allocator of `sys/memory/arena_allocator.hpp` over `align_up` of `sys/bit_utils.hpp`. A
pointer is its `uintptr_t`, and the arithmetic of `align_up` wraps.
-/

namespace TickToTrade.Sys
open List

/-- `(value + alignment - 1) & ~(alignment - 1)` on `size_t`. -/
def alignUp (value alignment : Nat) : Nat := (value + alignment - 1) % 2 ^ 64 &&& (2 ^ 64 - alignment)

/-- `alignof(void *)`. -/
def kPointerAlign : Nat := 8

structure Arena where
  base : Nat
  cur : Nat
  stop : Nat
  deriving DecidableEq

namespace Arena

def ofBuffer (buf bytes : Nat) : Arena := ⟨buf, buf, buf + bytes⟩

/-- `none` is `nullptr`. -/
def alloc (a : Arena) (bytes alignment : Nat) : Option Nat × Arena :=
  let p := alignUp a.cur (max alignment kPointerAlign)
  if a.stop < p ∨ a.stop - p < bytes then (none, a) else (some p, { a with cur := p + bytes })

/-- `alloc<T>(count)` for a type of this size and alignment. -/
def allocArray (a : Arena) (count size alignment : Nat) : Option Nat × Arena :=
    a.alloc (count * size % 2 ^ 64) alignment

def reset (a : Arena) : Arena := { a with cur := a.base }

end Arena

structure Region where
  addr : Nat
  size : Nat
  align : Nat
  deriving DecidableEq

def Region.Disjoint (r s : Region) : Prop := r.addr + r.size ≤ s.addr ∨ s.addr + s.size ≤ r.addr

/-! ### Alignment -/

theorem and_high_bits {x k : Nat} (word : x < 2 ^ 64) (bound : k ≤ 64) :
    x &&& (2 ^ 64 - 2 ^ k) = x / 2 ^ k * 2 ^ k := by
  have ones : 2 ^ 64 - 2 ^ k = (2 ^ (64 - k) - 1) * 2 ^ k := by
    rw [Nat.sub_mul, Nat.one_mul, ← Nat.pow_add, Nat.sub_add_cancel bound]
  rw [ones, ← Nat.shiftRight_eq_div_pow, ← Nat.shiftLeft_eq, ← Nat.shiftLeft_eq]
  refine Nat.eq_of_testBit_eq fun i => ?_
  rw [Nat.testBit_and, Nat.testBit_shiftLeft, Nat.testBit_shiftLeft, Nat.testBit_two_pow_sub_one,
    Nat.testBit_shiftRight]
  by_cases high : k ≤ i
  · by_cases below : i < 64
    · have inside : i - k < 64 - k := by omega
      simp [high, inside]
    · have zero : x.testBit i = false :=
        Nat.testBit_lt_two_pow (Nat.lt_of_lt_of_le word (Nat.pow_le_pow_right (by omega) (by omega)))
      simp [high, zero]
  · simp [high]

/-- The next multiple, if it is an address. -/
theorem alignUp_spec {value k : Nat} (bound : k < 64) (fits : value + (2 ^ k - 1) < 2 ^ 64) :
    value ≤ alignUp value (2 ^ k) ∧ alignUp value (2 ^ k) ≤ value + (2 ^ k - 1) ∧ 2 ^ k ∣ alignUp value (2 ^ k) := by
  have positive := Nat.two_pow_pos k
  have rounded : alignUp value (2 ^ k) = (value + (2 ^ k - 1)) / 2 ^ k * 2 ^ k := by
    unfold alignUp
    rw [Nat.add_sub_assoc positive, Nat.mod_eq_of_lt fits, and_high_bits fits (Nat.le_of_lt bound)]
  have whole := Nat.div_add_mod' (value + (2 ^ k - 1)) (2 ^ k)
  have rest := Nat.mod_lt (value + (2 ^ k - 1)) positive
  rw [rounded]
  exact ⟨by omega, by omega, Nat.dvd_mul_left _ _⟩

namespace Arena

variable {a : Arena}

/-- Enough is left for the requests, each with the padding that its alignment can need. -/
structure Room (a : Arena) (requests : List (Nat × Nat)) : Prop where
  stop_lt : a.stop < 2 ^ 64
  enough : a.cur + (requests.map fun r => r.1 + (max r.2 kPointerAlign - 1)).sum ≤ a.stop

/-- The first request is served behind what was handed out before, and there is still room for the others. -/
theorem Room.alloc {bytes alignment k : Nat} {rest : List (Nat × Nat)} (room : a.Room ((bytes, alignment) :: rest))
    (power : max alignment kPointerAlign = 2 ^ k) (bound : k < 64) :
    ∃ p, a.alloc bytes alignment = (some p, { a with cur := p + bytes }) ∧ a.cur ≤ p ∧ 2 ^ k ∣ p ∧ p + bytes ≤ a.stop ∧
      Room { a with cur := p + bytes } rest := by
  obtain ⟨stop_lt, enough⟩ := room
  rw [map_cons, sum_cons, power] at enough
  obtain ⟨least, most, aligned⟩ := alignUp_spec bound (show a.cur + (2 ^ k - 1) < 2 ^ 64 by omega)
  refine ⟨alignUp a.cur (2 ^ k), ?_, least, aligned, by omega, stop_lt, ?_⟩
  · unfold Arena.alloc
    rw [power, if_neg]
    omega
  · dsimp only
    omega

/-! ### Sequences of calls -/

inductive Call
  | alloc (bytes alignment : Nat)
  /-- `alloc<T>(count)`. -/
  | array (count size alignment : Nat)

def Call.extent : Call → Nat
  | .alloc bytes _ => bytes
  | .array count size _ => count * size

/-- The extent as the call computes it. -/
def Call.bytes : Call → Nat
  | .alloc bytes _ => bytes
  | .array count size _ => count * size % 2 ^ 64

def Call.alignment : Call → Nat
  | .alloc _ alignment | .array _ _ alignment => alignment

def serve (a : Arena) : Call → Option Nat × Arena
  | .alloc bytes alignment => a.alloc bytes alignment
  | .array count size alignment => a.allocArray count size alignment

/-- The pointer that a call returns; an address that wrapped to zero reads as `nullptr` too. -/
def pointer (a : Arena) (c : Call) : Nat := (a.serve c).1.getD 0

/-- More bytes are asked for than there are addresses before the end, or rounding up the bump pointer does not pass the
last address and the extent is a `size_t` or wraps to more bytes than are left. -/
def Fits (a : Arena) (c : Call) : Prop :=
  a.stop < c.bytes ∨ (isPowerOfTwo c.alignment = true ∧ c.alignment < 2 ^ 64) ∧
    a.cur + (max c.alignment kPointerAlign - 1) < 2 ^ 64 ∧ (c.extent < 2 ^ 64 ∨ a.stop - a.cur < c.bytes)
  deriving Decidable

theorem max_kPointerAlign {alignment : Nat} (power : isPowerOfTwo alignment = true ∧ alignment < 2 ^ 64) :
    ∃ k < 64, max alignment kPointerAlign = 2 ^ k ∧ alignment ∣ 2 ^ k := by
  obtain ⟨k, rfl⟩ := isPowerOfTwo_pow power.1
  have bound : k < 64 := (Nat.pow_lt_pow_iff_right (by decide)).mp power.2
  by_cases small : k ≤ 3
  · have le : 2 ^ k ≤ 2 ^ 3 := Nat.pow_le_pow_right (by decide) small
    exact ⟨3, by decide, Nat.max_eq_right le, Nat.pow_dvd_pow 2 small⟩
  · have le : 2 ^ 3 ≤ 2 ^ k := Nat.pow_le_pow_right (by decide) (by omega)
    exact ⟨k, bound, Nat.max_eq_left le, Nat.dvd_refl _⟩

/-- A call is refused, or it takes its whole extent behind the bump pointer. -/
theorem serve_cases {c : Call} (fits : a.Fits c) :
    a.serve c = (none, a) ∨ ∃ p, a.serve c = (some p, { a with cur := p + c.extent }) ∧ a.cur ≤ p ∧ c.alignment ∣ p ∧
      p + c.extent ≤ a.stop := by
  have served : a.serve c = a.alloc c.bytes c.alignment := by cases c <;> rfl
  rw [served, Arena.alloc]
  rcases fits with large | ⟨power, address, whole⟩
  · exact .inl (if_pos (.inr (by omega)))
  obtain ⟨k, bound, power, divides⟩ := max_kPointerAlign power
  rw [power] at address
  obtain ⟨least, -, aligned⟩ := alignUp_spec bound address
  rw [power]
  split
  · exact .inl rfl
  · rcases whole with extent | short
    · have same : c.bytes = c.extent := by
        cases c with
        | alloc bytes alignment => rfl
        | array count size alignment => exact Nat.mod_eq_of_lt extent
      rw [← same]
      exact .inr ⟨_, rfl, least, divides.trans aligned, by omega⟩
    · omega

/-- An arena with the blocks handed out since the last reset. -/
structure Ledger where
  arena : Arena
  blocks : List Region := []
  deriving DecidableEq

namespace Ledger

variable {x y : Ledger} {buf bytes : Nat}

/-- `none` is `reset`. -/
def step (x : Ledger) : Option Call → Option Ledger
  | none => some { arena := x.arena.reset }
  | some c =>
    let p := x.arena.pointer c
    some { arena := (x.arena.serve c).2, blocks := if p = 0 then x.blocks else ⟨p, c.extent, c.alignment⟩ :: x.blocks }

def FitsIn (x : Ledger) (op : Option Call) : Prop := ∀ c ∈ op, x.arena.Fits c
  deriving Decidable

/-- Blocks are aligned, inside the buffer and apart. -/
def Sound (buf bytes : Nat) (x : Ledger) : Prop :=
  (∀ r ∈ x.blocks, buf ≤ r.addr ∧ r.addr + r.size ≤ buf + bytes ∧ r.align ∣ r.addr) ∧ x.blocks.Pairwise Region.Disjoint

structure Inv (buf bytes : Nat) (x : Ledger) : Prop where
  base : x.arena.base = buf
  stop : x.arena.stop = buf + bytes
  cur_ge : buf ≤ x.arena.cur
  cur_le : x.arena.cur ≤ buf + bytes
  blocks : ∀ r ∈ x.blocks, buf ≤ r.addr ∧ r.addr + r.size ≤ x.arena.cur ∧ r.align ∣ r.addr
  apart : x.blocks.Pairwise Region.Disjoint

theorem Inv.sound (inv : Inv buf bytes x) : Sound buf bytes x := by
  refine ⟨fun r member => ?_, inv.apart⟩
  obtain ⟨low, high, aligned⟩ := inv.blocks r member
  exact ⟨low, Nat.le_trans high inv.cur_le, aligned⟩

theorem Inv.step {op : Option Call} (inv : Inv buf bytes x) (fits : x.FitsIn op) (stepped : x.step op = some y) :
    Inv buf bytes y := by
  obtain ⟨base, stop, cur_ge, cur_le, blocks, apart⟩ := inv
  cases op with
  | none =>
    cases stepped
    exact ⟨base, stop, Nat.le_of_eq base.symm, Nat.le_trans (Nat.le_of_eq base) (Nat.le_add_right _ _), nofun, .nil⟩
  | some c =>
    cases stepped
    obtain refused | ⟨p, served, behind, aligned, inside⟩ := serve_cases (fits c rfl)
    · have null : x.arena.pointer c = 0 := by rw [pointer, refused]; rfl
      rw [null, refused, if_pos rfl]
      exact ⟨base, stop, cur_ge, cur_le, blocks, apart⟩
    · have points : x.arena.pointer c = p := by rw [pointer, served]; rfl
      have kept : ∀ r ∈ x.blocks, buf ≤ r.addr ∧ r.addr + r.size ≤ p + c.extent ∧ r.align ∣ r.addr := by
        intro r member
        obtain ⟨low, high, aligned⟩ := blocks r member
        exact ⟨low, by omega, aligned⟩
      rw [points, served]
      refine ⟨base, stop, show buf ≤ p + c.extent by omega, show p + c.extent ≤ buf + bytes by omega, ?_, ?_⟩
      · split
        · exact kept
        · exact forall_mem_cons.mpr ⟨⟨by dsimp only; omega, Nat.le_refl _, aligned⟩, kept⟩
      · split
        · exact apart
        · refine pairwise_cons.mpr ⟨fun r member => .inr ?_, apart⟩
          exact Nat.le_trans (blocks r member).2.1 behind

/-- While every call fits, the blocks are sound and a call that returns `nullptr` changes nothing. -/
theorem run_blocks_sound {ops : List (Option Call)} (real : buf = 0 → bytes = 0)
    (along : Transition.Along step FitsIn ops { arena := ofBuffer buf bytes })
    (ran : Transition.run step ops { arena := ofBuffer buf bytes } = some x) :
    Sound buf bytes x ∧ ∀ c, x.arena.Fits c → x.arena.pointer c = 0 → (x.arena.serve c).2 = x.arena := by
  have start : Inv buf bytes { arena := ofBuffer buf bytes } :=
    ⟨rfl, rfl, Nat.le_refl _, Nat.le_add_right _ _, nofun, .nil⟩
  have inv := Transition.run_invariant (fun inv fits stepped => inv.step fits stepped) start along ran
  refine ⟨inv.sound, fun c fits null => ?_⟩
  obtain ⟨-, stop, low, -, -, -⟩ := inv
  obtain refused | ⟨p, served, behind, -, inside⟩ := serve_cases fits
  · rw [refused]
  · have zero : p = 0 := by rwa [pointer, served] at null
    -- A block at address zero lies in an empty buffer.
    have cur : p + c.extent = x.arena.cur := by omega
    rw [served, cur]

theorem run_blocks_sound_pair :
    let ops := [some (.alloc 3 1), some (.array 2 8 8), some (.alloc 64 64)]
    let x : Ledger := ⟨⟨4096, 4120, 4160⟩, [⟨4104, 16, 8⟩, ⟨4096, 3, 1⟩]⟩
    Transition.run step ops { arena := ofBuffer 4096 64 } = some x ∧ Sound 4096 64 x ∧
      ∀ c, x.arena.Fits c → x.arena.pointer c = 0 → (x.arena.serve c).2 = x.arena := by
  intro ops x
  have ran : Transition.run step ops { arena := ofBuffer 4096 64 } = some x := by decide +kernel
  exact ⟨ran, run_blocks_sound (by decide) (by decide +kernel) ran⟩

/-- `count * sizeof(T)` wraps to a block of no bytes; an alignment that wraps returns `nullptr` and moves the bump
pointer. -/
theorem run_blocks_unsound :
    (∃ x, Transition.run step [some (.array (2 ^ 61) 8 8)] { arena := ofBuffer 4096 64 } = some x ∧ ¬ Sound 4096 64 x) ∧
    (let a := ofBuffer (2 ^ 63 + 4096) 64
     a.pointer (.alloc 1 (2 ^ 63)) = 0 ∧ (a.serve (.alloc 1 (2 ^ 63))).2 = { a with cur := 1 }) := by
  refine ⟨⟨_, rfl, fun sound => ?_⟩, by decide +kernel, by decide +kernel⟩
  have inside := (sound.1 ⟨4096, 2 ^ 64, 8⟩ (by decide +kernel)).2.1
  exact absurd inside (by decide)

end Ledger

end Arena

end TickToTrade.Sys
