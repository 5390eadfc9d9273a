import TickToTrade.Algo.BookBuffer
import TickToTrade.Oms.Runs

/-!
The one buffer of the strategy thread, in `tick_to_trade/strategy_ctx.hpp`. `place` is the arithmetic of
its two functions, and `extent` the same sum without overflow.
-/

namespace TickToTrade.Sys
open List

def roundUp (value alignment : Nat) : Nat := (value + (alignment - 1)) / alignment * alignment

theorem alignUp_eq_roundUp {value k : Nat} (bound : k < 64) (fits : roundUp value (2 ^ k) < 2 ^ 64) :
    alignUp value (2 ^ k) = roundUp value (2 ^ k) := by
  have positive := Nat.two_pow_pos k
  have rest := Nat.mod_lt (value + (2 ^ k - 1)) positive
  have whole := Nat.div_add_mod' (value + (2 ^ k - 1)) (2 ^ k)
  -- The rounded value is a multiple below `2 ^ 64`, so it leaves room for one more alignment.
  have room : roundUp value (2 ^ k) + 2 ^ k ≤ 2 ^ 64 := by
    obtain ⟨m, eq⟩ := Nat.pow_dvd_pow 2 (Nat.le_of_lt bound)
    unfold roundUp at fits ⊢
    rw [eq, Nat.mul_comm (2 ^ k) m] at fits ⊢
    rw [← Nat.succ_mul]
    exact Nat.mul_le_mul_right _ (Nat.lt_of_mul_lt_mul_right fits)
  have word : value + (2 ^ k - 1) < 2 ^ 64 := by
    unfold roundUp at room
    omega
  unfold alignUp
  rw [Nat.add_sub_assoc positive, Nat.mod_eq_of_lt word, and_high_bits word (Nat.le_of_lt bound)]
  rfl

/-- Regions of these exponents of alignments and sizes, one behind the other, and the offset behind the last. -/
def place (offset : Nat) : List (Nat × Nat) → List Region × Nat
  | [] => ([], offset)
  | (k, bytes) :: rest =>
    let start := alignUp offset (2 ^ k)
    let placed := place ((start + bytes) % 2 ^ 64) rest
    (⟨start, bytes, 2 ^ k⟩ :: placed.1, placed.2)

def extent (offset : Nat) : List (Nat × Nat) → Nat
  | [] => offset
  | (k, bytes) :: rest => extent (roundUp offset (2 ^ k) + bytes) rest

theorem le_roundUp (value k : Nat) : value ≤ roundUp value (2 ^ k) := by
  have positive := Nat.two_pow_pos k
  have rest := Nat.mod_lt (value + (2 ^ k - 1)) positive
  have whole := Nat.div_add_mod' (value + (2 ^ k - 1)) (2 ^ k)
  unfold roundUp
  omega

theorem le_extent (offset : Nat) (reqs : List (Nat × Nat)) : offset ≤ extent offset reqs := by
  induction reqs generalizing offset with
  | nil => exact Nat.le_refl _
  | cons r rest ih => exact Nat.le_trans (Nat.le_trans (le_roundUp offset r.1) (Nat.le_add_right _ _)) (ih _)

theorem le_extent_of_mem {offset k bytes : Nat} {reqs : List (Nat × Nat)} (member : (k, bytes) ∈ reqs) :
    bytes ≤ extent offset reqs := by
  induction reqs generalizing offset with
  | nil => cases member
  | cons r rest ih =>
    obtain here | later := mem_cons.mp member
    · cases here
      exact Nat.le_trans (Nat.le_add_left _ _) (le_extent _ _)
    · exact ih later

/-- Without overflow the regions are apart, aligned, and end at the extent. -/
theorem place_spec {offset : Nat} {reqs : List (Nat × Nat)} (small : ∀ r ∈ reqs, r.1 ≤ 6)
    (fits : extent offset reqs < 2 ^ 64) :
    (place offset reqs).2 = extent offset reqs ∧ (place offset reqs).1.Pairwise Region.Disjoint ∧
      ∀ r ∈ (place offset reqs).1, offset ≤ r.addr ∧ r.addr + r.size ≤ extent offset reqs ∧ r.align ∣ r.addr ∧
      r.align ∣ 64 := by
  induction reqs generalizing offset with
  | nil => exact ⟨rfl, .nil, nofun⟩
  | cons r rest ih =>
    obtain ⟨k, bytes⟩ := r
    obtain ⟨exponent, small⟩ := forall_mem_cons.mp small
    have fits : extent (roundUp offset (2 ^ k) + bytes) rest < 2 ^ 64 := fits
    have behind := le_extent (roundUp offset (2 ^ k) + bytes) rest
    have start : alignUp offset (2 ^ k) = roundUp offset (2 ^ k) := alignUp_eq_roundUp (by omega) (by omega)
    have next : (roundUp offset (2 ^ k) + bytes) % 2 ^ 64 = roundUp offset (2 ^ k) + bytes :=
      Nat.mod_eq_of_lt (by omega)
    obtain ⟨last, apart, within⟩ := ih small fits
    have least := le_roundUp offset k
    dsimp only [place, extent]
    rw [start, next]
    refine ⟨last, pairwise_cons.mpr ⟨fun r member => .inl (within r member).1, apart⟩,
      forall_mem_cons.mpr ⟨?_, ?_⟩⟩
    · exact ⟨least, behind, Nat.dvd_mul_left _ _, Nat.pow_dvd_pow 2 exponent⟩
    · intro r member
      obtain ⟨low, inside⟩ := within r member
      exact ⟨by omega, inside⟩

end TickToTrade.Sys

namespace TickToTrade.Ds.TimingWheel
open Sys List

/-- `sizeof(TimerNode)`; it is aligned for a pointer. -/
def kNodeSize : Nat := 40

def nodesOffset (ws : Nat) : Nat := alignUp (ws * 4 % 2 ^ 64) kPointerAlign

def freeListOffset (ws mt : Nat) : Nat := (nodesOffset ws + mt * kNodeSize) % 2 ^ 64

def requiredBufferSize (debug : Bool) (ws mt : Nat) : Nat :=
  (freeListOffset ws mt + IndexFreeStack.requiredBufferSize debug mt) % 2 ^ 64

/-- The bucket heads, the nodes, and the buffer of the free list with its size. -/
def partitionBuffer (debug : Bool) (buf bytes ws mt : Nat) : Option (Nat × Nat × Nat × Nat) :=
  if buf = 0 ∨ buf % kPointerAlign ≠ 0 ∨ bytes < requiredBufferSize debug ws mt then none
  else some (buf, buf + nodesOffset ws, buf + freeListOffset ws mt, IndexFreeStack.requiredBufferSize debug mt % 2 ^ 64)

/-- `required_buffer_size` without overflow. -/
def exactBufferSize (debug : Bool) (ws mt : Nat) : Nat :=
  roundUp (ws * 4) kPointerAlign + mt * kNodeSize + IndexFreeStack.requiredBufferSize debug mt

theorem partition_offsets {debug : Bool} {ws mt : Nat} (fits : exactBufferSize debug ws mt < 2 ^ 64) :
    nodesOffset ws = roundUp (ws * 4) kPointerAlign ∧
    freeListOffset ws mt = roundUp (ws * 4) kPointerAlign + mt * kNodeSize ∧
      requiredBufferSize debug ws mt = exactBufferSize debug ws mt := by
  unfold exactBufferSize at fits
  have least : ws * 4 ≤ roundUp (ws * 4) kPointerAlign := le_roundUp _ 3
  have nodes : nodesOffset ws = roundUp (ws * 4) kPointerAlign := by
    unfold nodesOffset
    rw [Nat.mod_eq_of_lt (show ws * 4 < 2 ^ 64 by omega)]
    exact alignUp_eq_roundUp (k := 3) (by decide) (show roundUp (ws * 4) kPointerAlign < 2 ^ 64 by omega)
  have free : freeListOffset ws mt = roundUp (ws * 4) kPointerAlign + mt * kNodeSize := by
    unfold freeListOffset
    rw [nodes, Nat.mod_eq_of_lt (by omega)]
  refine ⟨nodes, free, ?_⟩
  unfold requiredBufferSize exactBufferSize
  rw [free, Nat.mod_eq_of_lt fits]

def parts (debug : Bool) (buckets nodes free ws mt : Nat) : List Region := [
  ⟨buckets, ws * 4, kIndexAlign⟩, ⟨nodes, mt * kNodeSize, kPointerAlign⟩,
    ⟨free, IndexFreeStack.requiredBufferSize debug mt, kIndexAlign⟩]

theorem partitionBuffer_carves {debug : Bool} {buf ws mt : Nat} (nonnull : buf ≠ 0) (aligned : kPointerAlign ∣ buf)
    (fits : exactBufferSize debug ws mt < 2 ^ 64) : ∃ buckets nodes free,
      partitionBuffer debug buf (requiredBufferSize debug ws mt) ws mt =
        some (buckets, nodes, free, IndexFreeStack.requiredBufferSize debug mt) ∧
      let parts := parts debug buckets nodes free ws mt
      parts.Pairwise Region.Disjoint ∧
        ∀ r ∈ parts, buf ≤ r.addr ∧ r.addr + r.size ≤ buf + requiredBufferSize debug ws mt ∧ r.align ∣ r.addr := by
  obtain ⟨nodes, free, total⟩ := partition_offsets fits
  have least : ws * 4 ≤ roundUp (ws * 4) kPointerAlign := le_roundUp _ 3
  have rounded : kPointerAlign ∣ roundUp (ws * 4) kPointerAlign := Nat.dvd_mul_left _ _
  unfold exactBufferSize at fits total
  refine ⟨buf, buf + nodesOffset ws, buf + freeListOffset ws mt, ?_, ?_, ?_⟩
  · unfold partitionBuffer
    rw [if_neg (by rw [Nat.dvd_iff_mod_eq_zero] at aligned; simp [nonnull, aligned]), Nat.mod_eq_of_lt (by omega)]
  · simp only [parts, pairwise_cons, mem_cons, not_mem_nil, or_false, forall_eq_or_imp, forall_eq,
      IsEmpty.forall_iff, implies_true, List.Pairwise.nil, and_true, Region.Disjoint, nodes, free]
    omega
  · unfold kNodeSize at fits total free
    unfold kPointerAlign at *
    simp only [parts, mem_cons, not_mem_nil, or_false, forall_eq_or_imp, forall_eq, nodes, free, total,
      kIndexAlign, kNodeSize, kPointerAlign]
    omega

end TickToTrade.Ds.TimingWheel

namespace TickToTrade.Ds.HashMap

theorem roundUpCapacity_valid {n : Nat} (positive : 1 ≤ n) (small : n ≤ 2 ^ 29) :
    ∃ capacity, roundUpCapacity (n * 4) = some capacity ∧ n * 4 ≤ capacity ∧ isValidCapacity capacity = true := by
  by_cases one : n = 1
  · subst one
    exact ⟨4, by decide⟩
  have above := Nat.lt_log2_self (n := n * 4 - 1)
  have exponent : (n * 4 - 1).log2 + 1 ≤ 31 := (Nat.log2_lt (by omega)).mpr (by omega)
  have word := Nat.pow_le_pow_right (n := 2) (by decide) exponent
  refine ⟨2 ^ ((n * 4 - 1).log2 + 1), ?_, by omega, ?_⟩
  · unfold roundUpCapacity roundUpPow2
    rw [if_neg (by omega), if_neg (by omega), if_neg (by omega), if_neg (by omega), if_neg (by omega)]
  · simp only [isValidCapacity, isPowerOfTwo, Bool.and_eq_true, decide_eq_true_eq]
    rw [Nat.mod_eq_of_lt (by omega)]
    exact ⟨⟨by omega, Nat.ne_zero_and_sub_one_eq_zero_iff_isPowerOfTwo.mpr ⟨_, rfl⟩⟩, by omega⟩

end TickToTrade.Ds.HashMap

namespace TickToTrade.Pipeline
open Ds Sys List
open Oms (Config)
open Algo.OrderBook (kMaxAlign)

def kCacheLineSize : Nat := 64

/-- `sizeof(ActiveOrder)`, `sizeof(CancelOrder)` and `sizeof(Slot)` of the outstanding map. -/
def kActiveOrderSize : Nat := 24

def kCancelOrderSize : Nat := 24

def kOutstandingSlotSize : Nat := 56

structure StrategyCtx where
  tcpRx : Nat
  tcpTx : Nat
  scratch : Nat
  netPosition : Nat
  outstandingPerSymbol : Nat
  activeOrders : Nat
  mapBuf : Nat
  mapBufSize : Nat
  mapCapacity : Nat
  cancelBuf : Nat
  timeoutWheelBuf : Nat
  timeoutWheelBufSize : Nat
  timeoutIds : Nat

/-- The arguments of both functions, and whether the free lists have their debug tracker. -/
structure CtxArgs where
  debug : Bool
  cfg : Config
  tcpRxSize : Nat
  tcpTxSize : Nat
  scratchSize : Nat

section
variable (a : CtxArgs)

def strategyCtxBufSize : Exec Nat := do
  let offset := (alignUp a.tcpRxSize kCacheLineSize + alignUp a.tcpTxSize kCacheLineSize + a.scratchSize) % 2 ^ 64
  let offset := alignUp offset kMaxAlign
  let offset := (offset + a.cfg.maxSymbols * 8) % 2 ^ 64
  let offset := alignUp offset 4
  let offset := (offset + a.cfg.maxSymbols * 4) % 2 ^ 64
  let offset := alignUp offset 8
  let offset := (offset + a.cfg.maxSymbols * 2 * kActiveOrderSize) % 2 ^ 64
  let offset := alignUp offset 8
  let offset := (offset + a.cfg.maxOutstanding * kCancelOrderSize) % 2 ^ 64
  let mapCap ← a.cfg.orderCtxMapCapacity
  let offset := alignUp offset HashMap.kSlotAlign
  let offset := (offset + mapCap * kOutstandingSlotSize) % 2 ^ 64
  let offset := alignUp offset 8
  let offset := (offset + a.cfg.maxOutstanding * 8) % 2 ^ 64
  let offset := alignUp offset kMaxAlign
  return (offset + TimingWheel.requiredBufferSize a.debug a.cfg.timeoutWheelSize a.cfg.timeoutMaxTimers) % 2 ^ 64

def makeStrategyCtx (base : Nat) : Exec StrategyCtx := do
  let tcpRx := base
  let offset := alignUp a.tcpRxSize kCacheLineSize
  let tcpTx := base + offset
  let offset := alignUp ((offset + a.tcpTxSize) % 2 ^ 64) kCacheLineSize
  let scratch := base + offset
  let offset := (offset + a.scratchSize) % 2 ^ 64
  let offset := alignUp offset kMaxAlign
  let netPosition := base + offset
  let offset := (offset + a.cfg.maxSymbols * 8) % 2 ^ 64
  let offset := alignUp offset 4
  let outstandingPerSymbol := base + offset
  let offset := (offset + a.cfg.maxSymbols * 4) % 2 ^ 64
  let offset := alignUp offset 8
  let activeOrders := base + offset
  let offset := (offset + a.cfg.maxSymbols * 2 * kActiveOrderSize) % 2 ^ 64
  let offset := alignUp offset 8
  let cancelBuf := base + offset
  let offset := (offset + a.cfg.maxOutstanding * kCancelOrderSize) % 2 ^ 64
  let mapCapacity ← a.cfg.orderCtxMapCapacity
  let offset := alignUp offset HashMap.kSlotAlign
  let mapBuf := base + offset
  let mapBufSize := mapCapacity * kOutstandingSlotSize
  let offset := (offset + mapBufSize) % 2 ^ 64
  let offset := alignUp offset 8
  let timeoutIds := base + offset
  let offset := (offset + a.cfg.maxOutstanding * 8) % 2 ^ 64
  let offset := alignUp offset kMaxAlign
  return {
    tcpRx, tcpTx, scratch, netPosition, outstandingPerSymbol, activeOrders, mapBuf, mapBufSize, mapCapacity, cancelBuf
    timeoutWheelBuf := base + offset
    timeoutWheelBufSize := TimingWheel.requiredBufferSize a.debug a.cfg.timeoutWheelSize a.cfg.timeoutMaxTimers
    timeoutIds }

def StrategyCtx.regions (ctx : StrategyCtx) : List Region := [
  ⟨ctx.tcpRx, a.tcpRxSize, kCacheLineSize⟩, ⟨ctx.tcpTx, a.tcpTxSize, kCacheLineSize⟩,
    ⟨ctx.scratch, a.scratchSize, kCacheLineSize⟩,
  ⟨ctx.netPosition, a.cfg.maxSymbols * 8, kMaxAlign⟩, ⟨ctx.outstandingPerSymbol, a.cfg.maxSymbols * 4, 4⟩,
  ⟨ctx.activeOrders, a.cfg.maxSymbols * 2 * kActiveOrderSize, 8⟩,
    ⟨ctx.cancelBuf, a.cfg.maxOutstanding * kCancelOrderSize, 8⟩,
  ⟨ctx.mapBuf, ctx.mapBufSize, HashMap.kSlotAlign⟩, ⟨ctx.timeoutIds, a.cfg.maxOutstanding * 8, 8⟩,
  ⟨ctx.timeoutWheelBuf, ctx.timeoutWheelBufSize, kMaxAlign⟩]

/-- The sizes behind the scratch buffer, with the exponents of their alignments. -/
def omsRequests (mapCap wheelBytes : Nat) : List (Nat × Nat) := [
  (4, a.cfg.maxSymbols * 8), (2, a.cfg.maxSymbols * 4), (3, a.cfg.maxSymbols * 2 * kActiveOrderSize),
  (3, a.cfg.maxOutstanding * kCancelOrderSize), (3, mapCap * kOutstandingSlotSize), (3, a.cfg.maxOutstanding * 8),
  (4, wheelBytes)]

def CtxArgs.wheelSize : Nat := TimingWheel.exactBufferSize a.debug a.cfg.timeoutWheelSize a.cfg.timeoutMaxTimers

/-- `strategy_ctx_buf_size` without overflow. -/
def exactCtxSize (mapCap : Nat) : Nat :=
  extent (roundUp a.tcpRxSize kCacheLineSize + roundUp a.tcpTxSize kCacheLineSize + a.scratchSize)
    (omsRequests a mapCap a.wheelSize)

variable {a} {mapCap : Nat}

theorem wheel_fits (fits : exactCtxSize a mapCap < 2 ^ 64) : a.wheelSize < 2 ^ 64 :=
  Nat.lt_of_le_of_lt (le_extent_of_mem (k := 4) (by simp [omsRequests])) fits

theorem wheelSize_eq (fits : exactCtxSize a mapCap < 2 ^ 64) :
    TimingWheel.requiredBufferSize a.debug a.cfg.timeoutWheelSize a.cfg.timeoutMaxTimers = a.wheelSize :=
  (TimingWheel.partition_offsets (wheel_fits fits)).2.2

theorem strategyCtxBufSize_eq (rounded : a.cfg.orderCtxMapCapacity = some mapCap)
    (fits : exactCtxSize a mapCap < 2 ^ 64) : strategyCtxBufSize a = some (exactCtxSize a mapCap) := by
  have first : roundUp a.tcpRxSize kCacheLineSize + roundUp a.tcpTxSize kCacheLineSize + a.scratchSize < 2 ^ 64 :=
    Nat.lt_of_le_of_lt (le_extent _ _) fits
  have rx : alignUp a.tcpRxSize kCacheLineSize = roundUp a.tcpRxSize kCacheLineSize :=
    alignUp_eq_roundUp (k := 6) (by decide) (show roundUp a.tcpRxSize kCacheLineSize < 2 ^ 64 by omega)
  have tx : alignUp a.tcpTxSize kCacheLineSize = roundUp a.tcpTxSize kCacheLineSize :=
    alignUp_eq_roundUp (k := 6) (by decide) (show roundUp a.tcpTxSize kCacheLineSize < 2 ^ 64 by omega)
  have placed : strategyCtxBufSize a = some
      (place ((alignUp a.tcpRxSize kCacheLineSize + alignUp a.tcpTxSize kCacheLineSize + a.scratchSize) % 2 ^ 64)
        (omsRequests a mapCap
          (TimingWheel.requiredBufferSize a.debug a.cfg.timeoutWheelSize a.cfg.timeoutMaxTimers))).2 := by
    unfold strategyCtxBufSize
    rw [rounded]
    rfl
  rw [placed, rx, tx, Nat.mod_eq_of_lt first, wheelSize_eq fits]
  exact congrArg some (place_spec (by simp [omsRequests]) fits).1

/-- The second computation of the offsets ends where the first one does. -/
theorem extent_make :
    extent a.tcpRxSize ((6, a.tcpTxSize) :: (6, a.scratchSize) :: omsRequests a mapCap a.wheelSize) =
      exactCtxSize a mapCap := by
  have merged : roundUp (roundUp a.tcpRxSize kCacheLineSize + a.tcpTxSize) kCacheLineSize =
      roundUp a.tcpRxSize kCacheLineSize + roundUp a.tcpTxSize kCacheLineSize := by
    unfold roundUp kCacheLineSize
    omega
  unfold exactCtxSize
  rw [← merged]
  rfl

def shift (base : Nat) (r : Region) : Region := { r with addr := base + r.addr }

theorem regions_make (base : Nat) (rounded : a.cfg.orderCtxMapCapacity = some mapCap)
    (fits : exactCtxSize a mapCap < 2 ^ 64) :
    ∃ ctx, makeStrategyCtx a base = some ctx ∧ ctx.mapBufSize = mapCap * kOutstandingSlotSize ∧
    ctx.mapCapacity = mapCap ∧ ctx.timeoutWheelBufSize =
        TimingWheel.requiredBufferSize a.debug a.cfg.timeoutWheelSize a.cfg.timeoutMaxTimers ∧
      ctx.regions a = (⟨0, a.tcpRxSize, kCacheLineSize⟩ ::
        (place a.tcpRxSize ((6, a.tcpTxSize) :: (6, a.scratchSize) :: omsRequests a mapCap a.wheelSize)).1).map
          (shift base) := by
  unfold makeStrategyCtx
  rw [rounded, ← wheelSize_eq fits]
  exact ⟨_, rfl, rfl, rfl, rfl, rfl⟩

/-- The regions that the second computation places are apart, aligned and inside the size of the first. -/
theorem regions_carved {base : Nat} (aligned : 64 ∣ base) (fits : exactCtxSize a mapCap < 2 ^ 64) :
    let regions := (⟨0, a.tcpRxSize, kCacheLineSize⟩ ::
      (place a.tcpRxSize ((6, a.tcpTxSize) :: (6, a.scratchSize) :: omsRequests a mapCap a.wheelSize)).1).map
        (shift base)
    regions.Pairwise Region.Disjoint ∧
      ∀ r ∈ regions, base ≤ r.addr ∧ r.addr + r.size ≤ base + exactCtxSize a mapCap ∧ r.align ∣ r.addr := by
  intro regions
  have small : ∀ r ∈ (6, a.tcpTxSize) :: (6, a.scratchSize) :: omsRequests a mapCap a.wheelSize, r.1 ≤ 6 := by
    simp [omsRequests]
  obtain ⟨-, apart, within⟩ := place_spec small (extent_make.trans_lt fits)
  have least : a.tcpRxSize ≤ exactCtxSize a mapCap := extent_make ▸ le_extent _ _
  rw [extent_make] at within
  refine ⟨pairwise_map.mpr (pairwise_cons.mpr ⟨fun r member => ?_, apart.imp ?_⟩),
    forall_mem_map.mpr (forall_mem_cons.mpr ⟨?_, ?_⟩)⟩
  · exact .inl (show base + 0 + a.tcpRxSize ≤ base + r.addr by have := (within r member).1; omega)
  · intro r s disjoint
    unfold Region.Disjoint shift at *
    dsimp only
    omega
  · exact ⟨Nat.le_add_right _ _, show base + 0 + a.tcpRxSize ≤ _ by omega, aligned⟩
  · intro r member
    obtain ⟨-, inside, divides, power⟩ := within r member
    exact ⟨Nat.le_add_right _ _, show base + r.addr + r.size ≤ _ by omega, Nat.dvd_add (power.trans aligned) divides⟩

/-- The constructors of the map and of the wheel succeed in their regions. -/
structure StrategyCtx.Serves (a : CtxArgs) (ctx : StrategyCtx) : Prop where
  map : ∃ map : HashMap Nat Oms.OrderInfo,
    HashMap.createIn kOutstandingSlotSize ctx.mapBuf ctx.mapBufSize ctx.mapCapacity = some map
  capacity : a.cfg.maxOutstanding * 4 ≤ ctx.mapCapacity
  wheel : ∃ buckets nodes free,
    TimingWheel.partitionBuffer a.debug ctx.timeoutWheelBuf ctx.timeoutWheelBufSize a.cfg.timeoutWheelSize
        a.cfg.timeoutMaxTimers =
      some (buckets, nodes, free, IndexFreeStack.requiredBufferSize a.debug a.cfg.timeoutMaxTimers) ∧
    let parts := TimingWheel.parts a.debug buckets nodes free a.cfg.timeoutWheelSize a.cfg.timeoutMaxTimers
    parts.Pairwise Region.Disjoint ∧ ∀ r ∈ parts, ctx.timeoutWheelBuf ≤ r.addr ∧
      r.addr + r.size ≤ ctx.timeoutWheelBuf + ctx.timeoutWheelBufSize ∧ r.align ∣ r.addr

/-- Both computations agree; the regions are apart, aligned, inside the buffer and large enough. -/
theorem strategyCtx_carves {base : Nat} (positive : 1 ≤ a.cfg.maxOutstanding) (small : a.cfg.maxOutstanding ≤ 2 ^ 29)
    (nonnull : base ≠ 0) (aligned : 64 ∣ base)
    (fits : ∀ mapCap ∈ a.cfg.orderCtxMapCapacity, exactCtxSize a mapCap < 2 ^ 64) :
    ∃ size ctx, strategyCtxBufSize a = some size ∧ makeStrategyCtx a base = some ctx ∧
      (ctx.regions a).Pairwise Region.Disjoint ∧
      (∀ r ∈ ctx.regions a, base ≤ r.addr ∧ r.addr + r.size ≤ base + size ∧ r.align ∣ r.addr) ∧ ctx.Serves a := by
  obtain ⟨mapCap, rounded, enough, valid⟩ := HashMap.roundUpCapacity_valid positive small
  have fits := fits mapCap rounded
  obtain ⟨ctx, made, mapSize, capacity, wheelSize, regions⟩ := regions_make base rounded fits
  obtain ⟨apart, within⟩ := regions_carved aligned fits
  rw [← regions] at apart within
  have map : base ≤ ctx.mapBuf ∧ _ ∧ 8 ∣ ctx.mapBuf :=
    within ⟨ctx.mapBuf, ctx.mapBufSize, 8⟩ (by simp [StrategyCtx.regions, HashMap.kSlotAlign])
  have wheel : base ≤ ctx.timeoutWheelBuf ∧ _ ∧ 16 ∣ ctx.timeoutWheelBuf :=
    within ⟨ctx.timeoutWheelBuf, ctx.timeoutWheelBufSize, 16⟩ (by simp [StrategyCtx.regions, kMaxAlign])
  refine ⟨_, ctx, strategyCtxBufSize_eq rounded fits, made, apart, within, ?_, ?_, ?_⟩
  · rw [mapSize, capacity, Algo.OrderBook.createIn_map kOutstandingSlotSize mapCap (by omega) map.2.2]
    exact ⟨_, if_pos valid⟩
  · rw [capacity]
    exact enough
  · rw [wheelSize]
    exact TimingWheel.partitionBuffer_carves (by omega) (Nat.dvd_trans (by decide) wheel.2.2) (wheel_fits fits)

/-- A thread with room for `maxOutstanding` orders. -/
def ctxArgs (maxOutstanding : Nat) (outstanding_lt : maxOutstanding < 2 ^ 32 := by decide) : CtxArgs :=
  { debug := true
    cfg := { Oms.smallConfig with maxSymbols := 2, maxOutstanding, outstanding_lt }
    tcpRxSize := 100
    tcpTxSize := 50
    scratchSize := 40 }

theorem strategyCtx_carves_small : ∃ size ctx,
    strategyCtxBufSize (ctxArgs 4) = some size ∧ makeStrategyCtx (ctxArgs 4) 4096 = some ctx ∧
      (ctx.regions (ctxArgs 4)).Pairwise Region.Disjoint ∧
      (∀ r ∈ ctx.regions (ctxArgs 4), 4096 ≤ r.addr ∧ r.addr + r.size ≤ 4096 + size ∧ r.align ∣ r.addr) ∧
      ctx.Serves (ctxArgs 4) :=
  strategyCtx_carves (by decide) (by decide) (by decide) (by decide) (by decide +kernel)

/-- `round_up_capacity` gives 0 for 2³⁰ orders: the region of the map is empty and the map is not built in it. -/
theorem strategyCtx_no_map :
    (∀ mapCap ∈ (ctxArgs (2 ^ 30)).cfg.orderCtxMapCapacity, exactCtxSize (ctxArgs (2 ^ 30)) mapCap < 2 ^ 64) ∧
    ∃ ctx, makeStrategyCtx (ctxArgs (2 ^ 30)) 4096 = some ctx ∧ ctx.mapBufSize = 0 ∧
      (HashMap.createIn kOutstandingSlotSize ctx.mapBuf ctx.mapBufSize ctx.mapCapacity :
        Option (HashMap Nat Oms.OrderInfo)) = none := by
  refine ⟨by decide +kernel, _, rfl, rfl, rfl⟩

end

end TickToTrade.Pipeline
