import TickToTrade.Net.RoundTrip

/-!
The market data receiver of `tick_to_trade/feed_handler.hpp`: datagrams come in any order, some of
them lost, repeated or damaged, and the updates it accepts are in order.
-/

namespace TickToTrade.Pipeline
open List Option

structure FeedHandler where
  initialized : Bool := false
  expectedSeq : Nat := 0
  gapCount : Nat := 0
  duplicateCount : Nat := 0
  parseErrors : Nat := 0
  totalUpdates : Nat := 0

def fetchAdd (counter n : Nat) : Nat := (counter + n) % 2 ^ 64

namespace FeedHandler

def accept (h : FeedHandler) (out : MarketDataUpdate) : FeedHandler :=
  { h with initialized := true, expectedSeq := fetchAdd out.seqNum 1, totalUpdates := fetchAdd h.totalUpdates 1 }

/-- The update, if the function returns true. -/
def onUdpData (h : FeedHandler) (datagram : List UInt8) : Option MarketDataUpdate × FeedHandler :=
  match deserializeMarketData datagram with
  | none => (none, { h with parseErrors := fetchAdd h.parseErrors 1 })
  | some out =>
    if h.initialized = false then (some out, h.accept out)
    else
      let h' := if h.expectedSeq <
        out.seqNum then { h with gapCount := fetchAdd h.gapCount (out.seqNum - h.expectedSeq) } else h
      if out.seqNum < h.expectedSeq then (none, { h' with duplicateCount := fetchAdd h.duplicateCount 1 })
      else (some out, h'.accept out)

/-- A call counts in exactly one of three counters: an update that is returned, one that is not, or no update at all. -/
def Counts (h : FeedHandler) (datagram : List UInt8) (result : Option MarketDataUpdate × FeedHandler) : Prop :=
  let (out, h') := result
  h'.totalUpdates = (if out.isSome then fetchAdd h.totalUpdates 1 else h.totalUpdates) ∧
  h'.duplicateCount =
    (if out = none ∧ deserializeMarketData datagram ≠ none then fetchAdd h.duplicateCount 1 else h.duplicateCount) ∧
  h'.parseErrors = (if deserializeMarketData datagram = none then fetchAdd h.parseErrors 1 else h.parseErrors) ∧
  (out.isSome → out = deserializeMarketData datagram)

inductive Outcome (h : FeedHandler) : Option MarketDataUpdate → Option MarketDataUpdate × FeedHandler → Prop
  | malformed : Outcome h none (none, { h with parseErrors := fetchAdd h.parseErrors 1 })
  | first (out : MarketDataUpdate) : h.initialized = false → Outcome h (some out) (some out, h.accept out)
  | next (out : MarketDataUpdate) : h.initialized = true → out.seqNum = h.expectedSeq → Outcome h (some out)
      (some out, h.accept out)
  | gap (out : MarketDataUpdate) : h.initialized = true → h.expectedSeq < out.seqNum →
      Outcome h (some out)
        (some out, { h with gapCount := fetchAdd h.gapCount (out.seqNum - h.expectedSeq) }.accept out)
  | duplicate (out : MarketDataUpdate) : h.initialized = true → out.seqNum < h.expectedSeq →
      Outcome h (some out) (none, { h with duplicateCount := fetchAdd h.duplicateCount 1 })

theorem onUdpData_outcome (h : FeedHandler) (datagram : List UInt8) :
    h.Outcome (deserializeMarketData datagram) (h.onUdpData datagram) := by
  unfold onUdpData
  cases deserializeMarketData datagram with
  | none => exact .malformed
  | some out =>
    simp only
    split
    case isTrue fresh => exact .first out fresh
    case isFalse old =>
      have started : h.initialized = true := by simpa using old
      rcases Nat.lt_trichotomy out.seqNum h.expectedSeq with less | same | more
      · rw [if_pos less, if_neg (by omega)]
        exact .duplicate out started less
      · rw [if_neg (by omega), if_neg (by omega)]
        exact .next out started same
      · rw [if_neg (by omega), if_pos more]
        exact .gap out started more

theorem onUdpData_counts (h : FeedHandler) (datagram : List UInt8) : h.Counts datagram (h.onUdpData datagram) := by
  have outcome := h.onUdpData_outcome datagram
  unfold Counts
  generalize deserializeMarketData datagram = parsed at *
  generalize h.onUdpData datagram = result at *
  cases outcome <;> simp [accept]

end FeedHandler

/-! ### A whole feed -/

structure Feed where
  handler : FeedHandler := {}
  accepted : List MarketDataUpdate := []

namespace Feed

def receive (f : Feed) (datagram : List UInt8) : Feed where
  handler := (f.handler.onUdpData datagram).2
  accepted := f.accepted ++ (f.handler.onUdpData datagram).1.toList

def run (datagrams : List (List UInt8)) : Feed := datagrams.foldl receive {}

structure Running (f : Feed) (head last : MarketDataUpdate) : Prop where
  started : f.handler.initialized = true
  head_eq : f.accepted.head? = some head
  last_mem : last ∈ f.accepted
  expected : f.handler.expectedSeq = last.seqNum + 1
  bounded : f.handler.expectedSeq < 2 ^ 64
  upTo : ∀ md ∈ f.accepted, md.seqNum ≤ last.seqNum
  increasing : f.accepted.Pairwise fun md md' => md.seqNum < md'.seqNum
  conserved : f.handler.totalUpdates + f.handler.gapCount + head.seqNum = f.handler.expectedSeq

structure Waiting (f : Feed) : Prop where
  fresh : f.handler.initialized = false
  empty : f.accepted = []
  total : f.handler.totalUpdates = 0
  gap : f.handler.gapCount = 0

def Inv (f : Feed) : Prop := f.Waiting ∨ ∃ head last, f.Running head last

variable {f : Feed} {head last out : MarketDataUpdate} {datagram : List UInt8}

theorem fetchAdd_of_lt {counter n : Nat} (word : counter + n < 2 ^ 64) : fetchAdd counter n = counter + n :=
  Nat.mod_eq_of_lt word

theorem Waiting.accepts (waiting : f.Waiting) (below : out.seqNum < 2 ^ 64 - 1) :
    Running { handler := f.handler.accept out, accepted := f.accepted ++ [out] } out out := by
  have next : fetchAdd out.seqNum 1 = out.seqNum + 1 := fetchAdd_of_lt (by omega)
  have one : fetchAdd f.handler.totalUpdates 1 = 1 := by rw [waiting.total]; rfl
  constructor <;> simp [FeedHandler.accept, waiting.empty, waiting.gap, next, one]
  · omega
  · omega

theorem Running.accepts (running : f.Running head last) (later : f.handler.expectedSeq ≤ out.seqNum)
    (below : out.seqNum < 2 ^ 64 - 1) : Running {
      handler := FeedHandler.accept
        { f.handler with gapCount := f.handler.gapCount + (out.seqNum - f.handler.expectedSeq) } out
      accepted := f.accepted ++ [out] } head out := by
  have next : fetchAdd out.seqNum 1 = out.seqNum + 1 := fetchAdd_of_lt (by omega)
  have conserved := running.conserved
  have expected := running.expected
  have count : fetchAdd f.handler.totalUpdates 1 = f.handler.totalUpdates + 1 := fetchAdd_of_lt (by omega)
  have earlier : ∀ md ∈ f.accepted, md.seqNum < out.seqNum := fun md member => by
    have := running.upTo md member
    omega
  constructor
  · rfl
  · rw [head?_append, running.head_eq]
    rfl
  · exact mem_append_right _ (mem_singleton_self out)
  · exact next
  · show fetchAdd out.seqNum 1 < 2 ^ 64
    omega
  · intro md member
    rcases mem_append.mp member with old | new
    · exact Nat.le_of_lt (earlier md old)
    · exact Nat.le_of_eq (congrArg _ (mem_singleton.mp new))
  · refine pairwise_append.mpr ⟨running.increasing, pairwise_singleton _ _, ?_⟩
    intro md member md' new
    exact mem_singleton.mp new ▸ earlier md member
  · show fetchAdd f.handler.totalUpdates 1 + (f.handler.gapCount + (out.seqNum - f.handler.expectedSeq)) + head.seqNum =
      fetchAdd out.seqNum 1
    omega

theorem Inv.receive (inv : f.Inv) (below : ∀ md ∈ deserializeMarketData datagram, md.seqNum < 2 ^ 64 - 1) :
    (f.receive datagram).Inv := by
  have outcome := f.handler.onUdpData_outcome datagram
  unfold Feed.receive
  generalize deserializeMarketData datagram = parsed at *
  generalize f.handler.onUdpData datagram = result at *
  cases outcome with
  | malformed =>
    rw [toList_none, append_nil]
    rcases inv with waiting | ⟨head, last, running⟩
    · exact .inl { waiting with }
    · exact .inr ⟨head, last, { running with }⟩
  | first out fresh =>
    rcases inv with waiting | ⟨head, last, running⟩
    · exact .inr ⟨out, out, waiting.accepts (below out rfl)⟩
    · cases fresh.symm.trans running.started
  | next out started same =>
    rcases inv with waiting | ⟨head, last, running⟩
    · cases waiting.fresh.symm.trans started
    · have accepted := running.accepts (Nat.le_of_eq same.symm) (below out rfl)
      rw [same, Nat.sub_self, Nat.add_zero] at accepted
      exact .inr ⟨head, out, accepted⟩
  | gap out started more =>
    rcases inv with waiting | ⟨head, last, running⟩
    · cases waiting.fresh.symm.trans started
    · have accepted := running.accepts (Nat.le_of_lt more) (below out rfl)
      have conserved := running.conserved
      have small := below out rfl
      rw [← fetchAdd_of_lt
        (show f.handler.gapCount + (out.seqNum - f.handler.expectedSeq) < 2 ^ 64 by omega)] at accepted
      exact .inr ⟨head, out, accepted⟩
  | duplicate out started less =>
    rw [toList_none, append_nil]
    rcases inv with waiting | ⟨head, last, running⟩
    · cases waiting.fresh.symm.trans started
    · exact .inr ⟨head, last, { running with }⟩

theorem Inv.run {datagrams : List (List UInt8)} (inv : f.Inv)
    (below : ∀ d ∈ datagrams, ∀ md ∈ deserializeMarketData d, md.seqNum < 2 ^ 64 - 1) :
    (datagrams.foldl Feed.receive f).Inv := by
  induction datagrams generalizing f with
  | nil => exact inv
  | cons d rest ih =>
    exact ih (inv.receive (below d mem_cons_self)) fun d' member => below d' (mem_cons_of_mem d member)

/-- A well-formed datagram that is not accepted is not newer than the last accepted one. -/
theorem Inv.rejects (inv : f.Inv) (parsed : deserializeMarketData datagram = some out)
    (rejected : (f.handler.onUdpData datagram).1 = none) : ∃ md ∈ f.accepted, out.seqNum ≤ md.seqNum := by
  have outcome := f.handler.onUdpData_outcome datagram
  rw [parsed] at outcome
  generalize f.handler.onUdpData datagram = result at *
  cases outcome with
  | first | next | gap => cases rejected
  | duplicate out started less =>
    rcases inv with waiting | ⟨head, last, running⟩
    · cases waiting.fresh.symm.trans started
    · have expected := running.expected
      exact ⟨last, running.last_mem, by omega⟩

/-- Whatever the feed brings, the accepted updates are in order, an update is refused only if it is not newer, each call
is counted once, and the updates and the gaps add up to the sequence numbers passed. -/
theorem run_sequenced (datagrams : List (List UInt8))
    (below : ∀ d ∈ datagrams, ∀ md ∈ deserializeMarketData d, md.seqNum < 2 ^ 64 - 1) :
    ((run datagrams).accepted.Pairwise fun md md' => md.seqNum < md'.seqNum) ∧
    (∀ d out, deserializeMarketData d = some out → ((run datagrams).handler.onUdpData d).1 = none →
      ∃ md ∈ (run datagrams).accepted, out.seqNum ≤ md.seqNum) ∧
    (∀ d, (run datagrams).handler.Counts d ((run datagrams).handler.onUdpData d)) ∧
    ∀ head ∈ (run datagrams).accepted.head?,
      (run datagrams).handler.totalUpdates + (run datagrams).handler.gapCount =
        (run datagrams).handler.expectedSeq - head.seqNum := by
  have inv : (run datagrams).Inv := Inv.run (.inl ⟨rfl, rfl, rfl, rfl⟩) below
  refine ⟨?_, fun d out => inv.rejects, fun d => FeedHandler.onUdpData_counts _ d, ?_⟩
  · rcases inv with waiting | ⟨head, last, running⟩
    · rw [waiting.empty]
      exact List.Pairwise.nil
    · exact running.increasing
  · intro first isFirst
    rcases inv with waiting | ⟨head, last, running⟩
    · rw [waiting.empty] at isFirst
      cases isFirst
    · obtain rfl := mem_unique running.head_eq isFirst
      have conserved := running.conserved
      omega

/-- Update 7 is the first, 10 leaves a gap, 9 comes too late and a short datagram is no update. -/
theorem run_sequenced_gap :
    let md (n : Nat) : MarketDataUpdate := ⟨n, 1, 0, 0, 100, 5, 0⟩
    let f := run ([7, 10, 9].map (fun n => (serializeMarketData 34 (md n)).getD []) ++ [[0]])
    f.handler.totalUpdates = 2 ∧ f.handler.gapCount = 2 ∧ f.handler.duplicateCount = 1 ∧ f.handler.parseErrors = 1 ∧
      f.handler.totalUpdates + f.handler.gapCount = f.handler.expectedSeq - 7 := by
  refine ⟨by decide, by decide, by decide, by decide, ?_⟩
  exact (run_sequenced _ (by decide)).2.2.2 ⟨7, 1, 0, 0, 100, 5, 0⟩ (by decide)

end Feed

end TickToTrade.Pipeline
