import Mathlib

/-!
The text lines of `tick_to_trade/pipeline_log_formatter.hpp`. A cell of the buffer that nothing has
written is `none`, and a number that does not fit leaves its cells so.
-/

namespace TickToTrade.Pipeline
open List

inductive LogLevel
  | kDebug | kInfo | kWarn | kError

inductive LatencyStage
  | kUdpRecv | kFeedParse | kQueueHop | kStrategy | kOrderSend | kTickToTrade | kKernelTickToTrade

inductive OrderEvent
  | kNewOrder | kOrderAck | kOrderReject | kFill | kCancelSent | kCancelAck | kCancelReject | kModifySent | kModifyAck
  | kModifyReject

inductive ConnectionEvent
  | kConnect | kDisconnect | kHeartbeatSent | kHeartbeatRecv | kReconnectAttempt

/-- The union with its tag. -/
inductive Payload
  | latency (stage : LatencyStage) (cycles : Nat)
  | order (subType : OrderEvent) (side symbolId clientOrderId exchangeOrderId : Nat) (price : Int)
    (qty remainingQty : Nat)
  | marketData (seqNum symbolId side : Nat) (price : Int) (qty gapSize : Nat)
  | connection (subType : ConnectionEvent) (attempt : Nat) (rttNs : Int)
  | text (msg : List Char)

structure LogEntry where
  tscTimestamp : Nat
  threadId : Nat
  level : LogLevel
  payload : Payload

def kThreadNames : Nat → String
  | 0 => "MAIN "
  | 1 => "MD   "
  | 2 => "STRAT"
  | _ => "LOG  "

def kLevelNames : LogLevel → String
  | .kDebug => "DEBUG"
  | .kInfo => "INFO "
  | .kWarn => "WARN "
  | .kError => "ERROR"

def kEventTypeNames : Payload → String
  | .latency .. => "LATENCY"
  | .order .. => "ORDER  "
  | .marketData .. => "MKTDATA"
  | .connection .. => "CONN   "
  | .text _ => "TEXT   "

def kLatencyStageNames : LatencyStage → String
  | .kUdpRecv => "UdpRecv"
  | .kFeedParse => "FeedParse"
  | .kQueueHop => "QueueHop"
  | .kStrategy => "Strategy"
  | .kOrderSend => "OrderSend"
  | .kTickToTrade => "T2T"
  | .kKernelTickToTrade => "KernelT2T"

def kOrderEventNames : OrderEvent → String
  | .kNewOrder => "NewOrder"
  | .kOrderAck => "OrderAck"
  | .kOrderReject => "OrderReject"
  | .kFill => "Fill"
  | .kCancelSent => "CancelSent"
  | .kCancelAck => "CancelAck"
  | .kCancelReject => "CancelReject"
  | .kModifySent => "ModifySent"
  | .kModifyAck => "ModifyAck"
  | .kModifyReject => "ModifyReject"

def kConnectionEventNames : ConnectionEvent → String
  | .kConnect => "Connect"
  | .kDisconnect => "Disconnect"
  | .kHeartbeatSent => "HbSent"
  | .kHeartbeatRecv => "HbRecv"
  | .kReconnectAttempt => "Reconnect"

def sideName : Nat → String
  | 0 => "Bid"
  | 1 => "Ask"
  | _ => "?"

/-! ### Writing to the buffer -/

structure Line where
  pos : Nat := 0
  cells : Nat → Option Char := fun _ => none

namespace Line

/-- `memcpy(buf + pos, s, s.size())` and the position behind it. -/
def put (o : Line) (s : List Char) : Line where
  pos := o.pos + s.length
  cells i := if o.pos ≤ i ∧ i < o.pos + s.length then s[i - o.pos]? else o.cells i

/-- `cap - 1 - pos` wraps when the position has reached `cap`. -/
def appendStr (cap : Nat) (o : Line) (s : List Char) : Line := o.put (s.take ((2 ^ 64 + (cap - 1) - o.pos) % 2 ^ 64))

/-- `std::to_chars` into `[buf + pos, buf + cap - 1)`; digits that do not fit give the end of the range. -/
def appendNum (cap : Nat) (o : Line) (digits : List Char) : Line :=
  if cap - 1 ≤ o.pos then o else if o.pos + digits.length ≤ cap - 1 then o.put digits else { o with pos := cap - 1 }

/-- The guarded quote and newline. -/
def appendLast (cap : Nat) (o : Line) (c : Char) : Line := if o.pos < cap - 1 then o.put [c] else o

end Line

inductive Piece
  | str (s : List Char)
  | num (digits : List Char)
  /-- `data[pos++] = ' '`. -/
  | space
  | last (c : Char)

def Piece.text : Piece → List Char
  | .str s | .num s => s
  | .space => [' ']
  | .last c => [c]

def Line.append (cap : Nat) (o : Line) : Piece → Line
  | .str s => o.appendStr cap s
  | .num digits => o.appendNum cap digits
  | .space => o.put [' ']
  | .last c => o.appendLast cap c

def Piece.lit (s : String) : Piece := .str s.toList

/-- `append_u64` and `append_u32`. -/
def Piece.unsigned (n : Nat) : Piece := .num (Nat.toDigits 10 n)

def Piece.signed (n : Int) : Piece := .num (if n < 0 then '-' :: Nat.toDigits 10 n.natAbs else Nat.toDigits 10 n.natAbs)

namespace PipelineLogFormatter
open Piece

variable (toNs : Nat → Nat)

def header (entry : LogEntry) : List Piece := [
  unsigned (toNs entry.tscTimestamp), space,
  lit (kThreadNames (min entry.threadId 3)), space,
  lit (kLevelNames entry.level), space,
  lit (kEventTypeNames entry.payload), space, space]

def fields : Payload → List Piece
  | .latency stage cycles =>
    [lit "stage=", lit (kLatencyStageNames stage), lit " cycles=", unsigned cycles, lit " ns=", unsigned (toNs cycles)]
  | .order subType side symbolId clientOrderId exchangeOrderId price qty remainingQty =>
    [lit "event=", lit (kOrderEventNames subType), lit " sym=", unsigned symbolId, lit " side=", lit (sideName side),
      lit " price=", signed price, lit " qty=", unsigned qty, lit " oid=", unsigned clientOrderId] ++
    (if exchangeOrderId ≠ 0 then [lit " xoid=", unsigned exchangeOrderId] else []) ++
    if remainingQty ≠ 0 then [lit " rem=", unsigned remainingQty] else []
  | .marketData seqNum symbolId side price qty gapSize =>
    [lit "seq=", unsigned seqNum, lit " sym=", unsigned symbolId, lit " side=", lit (sideName side),
      lit " price=", signed price, lit " qty=", unsigned qty] ++
    if 0 < gapSize then [lit " gap=", unsigned gapSize] else []
  | .connection subType attempt rttNs =>
    [lit "event=", lit (kConnectionEventNames subType)] ++
    (if 0 < attempt then [lit " attempt=", unsigned attempt] else []) ++
    if 0 < rttNs then [lit " rtt_ns=", signed rttNs] else []
  | .text msg => [lit "msg=\"", str ((msg.take 111).takeWhile (· ≠ '\x00')), last '"']

def pieces (entry : LogEntry) : List Piece := header toNs entry ++ fields toNs entry.payload ++ [last '\n']

/-- `operator()`. -/
def format (entry : LogEntry) (cap : Nat) : Line := (pieces toNs entry).foldl (Line.append cap) {}

/-- The line of an unbounded buffer. -/
def fullText (entry : LogEntry) : List Char := (pieces toNs entry).flatMap Piece.text

end PipelineLogFormatter

/-! ### Lines that fit -/

/-- What a piece needs with `len` characters before it: a space ends before the last cell, and a number ends before it
or begins there. -/
def Piece.Fits (cap len : Nat) : Piece → Prop
  | .space => len + 1 < cap
  | .num digits => cap ≤ len + 1 ∨ len + digits.length < cap
  | .str _ | .last _ => True

def AllFit (cap : Nat) : Nat → List Piece → Prop
  | _, [] => True
  | len, p :: ps => p.Fits cap len ∧ AllFit cap (len + p.text.length) ps

theorem allFit_of_length {cap len : Nat} {ps : List Piece} (short : len + (ps.flatMap Piece.text).length < cap) :
    AllFit cap len ps := by
  induction ps generalizing len with
  | nil => trivial
  | cons p ps ih =>
    rw [flatMap_cons, length_append] at short
    refine ⟨?_, ih (by omega)⟩
    cases p with
    | space =>
      have : Piece.space.text.length = 1 := rfl
      exact show len + 1 < cap by omega
    | num digits =>
      have : (Piece.num digits).text.length = digits.length := rfl
      exact .inr (by omega)
    | str s => trivial
    | last c => trivial

namespace Line

variable {cap : Nat} {o : Line} {t s : List Char} {p : Piece} {ps : List Piece}

/-- The buffer that holds this text and nothing else. -/
def holding (t : List Char) : Line := ⟨t.length, fun i => t[i]?⟩

theorem holding_put (t s : List Char) : (holding t).put s = holding (t ++ s) := by
  refine congrArg₂ Line.mk length_append.symm (funext fun i => ?_)
  show (if t.length ≤ i ∧ i < t.length + s.length then s[i - t.length]? else t[i]?) = (t ++ s)[i]?
  by_cases behind : t.length ≤ i
  · rw [getElem?_append_right behind, List.getElem?_eq_none behind]
    by_cases inside : i < t.length + s.length
    · rw [if_pos ⟨behind, inside⟩]
    · rw [if_neg fun h => inside h.2, List.getElem?_eq_none (by omega)]
  · rw [getElem?_append_left (by omega), if_neg fun h => behind h.1]

theorem holding_put_short (short : t.length + s.length < cap) :
    (holding (t.take (cap - 1))).put s = holding ((t ++ s).take (cap - 1)) := by
  rw [holding_put, take_of_length_le (by omega), take_of_length_le (by rw [length_append]; omega)]

theorem holding_full (long : cap - 1 ≤ t.length) (s : List Char) :
    holding (t.take (cap - 1)) = holding ((t ++ s).take (cap - 1)) := by
  rw [take_append_of_le_length long]

theorem append_fits (room : 0 < cap) (small : cap < 2 ^ 64) (fits : p.Fits cap t.length) :
    (holding (t.take (cap - 1))).append cap p = holding ((t ++ p.text).take (cap - 1)) := by
  have pos : (holding (t.take (cap - 1))).pos = min (cap - 1) t.length := length_take
  cases p with
  | str s =>
    have left : (2 ^ 64 + (cap - 1) - min (cap - 1) t.length) % 2 ^ 64 = cap - 1 - t.length := by omega
    show (holding (t.take (cap - 1))).appendStr cap s = holding ((t ++ s).take (cap - 1))
    rw [appendStr, pos, left, holding_put, ← take_append]
  | num digits =>
    show (holding (t.take (cap - 1))).appendNum cap digits = holding ((t ++ digits).take (cap - 1))
    rw [appendNum, pos]
    split
    · exact holding_full (by omega) _
    · have short : t.length + digits.length < cap := fits.resolve_left (by omega)
      rw [if_pos (by omega)]
      exact holding_put_short short
  | space => exact holding_put_short fits
  | last c =>
    show (holding (t.take (cap - 1))).appendLast cap c = holding ((t ++ [c]).take (cap - 1))
    rw [appendLast, pos]
    split
    · exact holding_put_short (show t.length + 1 < cap by omega)
    · exact holding_full (by omega) _

theorem foldl_fits (room : 0 < cap) (small : cap < 2 ^ 64) (fits : AllFit cap t.length ps) :
    ps.foldl (append cap) (holding (t.take (cap - 1))) = holding ((t ++ ps.flatMap Piece.text).take (cap - 1)) := by
  induction ps generalizing t with
  | nil => rw [flatMap_nil, append_nil, foldl_nil]
  | cons p ps ih =>
    rw [foldl_cons, append_fits room small fits.1, flatMap_cons, ← append_assoc]
    exact ih (by rw [length_append]; exact fits.2)

/-! ### Lines that do not fit -/

/-- What stands before the position is never written again. -/
theorem append_mono (cap : Nat) (o : Line) (p : Piece) : o.pos ≤ (o.append cap p).pos ∧
    ∀ i < o.pos, (o.append cap p).cells i = o.cells i := by
  have put : ∀ s, o.pos ≤ (o.put s).pos ∧ ∀ i < o.pos, (o.put s).cells i = o.cells i := fun s =>
    ⟨Nat.le_add_right _ _, fun i before => if_neg fun h => by omega⟩
  cases p with
  | str s => exact put _
  | num digits =>
    show o.pos ≤ (o.appendNum cap digits).pos ∧ ∀ i < o.pos, (o.appendNum cap digits).cells i = o.cells i
    unfold appendNum
    split
    · exact ⟨Nat.le_refl _, fun _ _ => rfl⟩
    · split
      · exact put _
      · exact ⟨by dsimp only; omega, fun _ _ => rfl⟩
  | space => exact put _
  | last c =>
    show o.pos ≤ (o.appendLast cap c).pos ∧ ∀ i < o.pos, (o.appendLast cap c).cells i = o.cells i
    unfold appendLast
    split
    · exact put _
    · exact ⟨Nat.le_refl _, fun _ _ => rfl⟩

theorem foldl_mono (cap : Nat) (ps : List Piece) (o : Line) :
    o.pos ≤ (ps.foldl (append cap) o).pos ∧ ∀ i < o.pos, (ps.foldl (append cap) o).cells i = o.cells i := by
  induction ps generalizing o with
  | nil => exact ⟨Nat.le_refl _, fun _ _ => rfl⟩
  | cons p ps ih =>
    obtain ⟨le, same⟩ := append_mono cap o p
    obtain ⟨le', same'⟩ := ih (o.append cap p)
    exact ⟨Nat.le_trans le le', fun i before => (same' i (Nat.lt_of_lt_of_le before le)).trans (same i before)⟩

/-- Nothing is written from `cap` on, and what the length covers is a text that begins the line, up to a quote and a
newline. -/
structure Contained (cap : Nat) (full : List Char) (o : Line) : Prop where
  inside : ∀ i, cap ≤ i → o.cells i = none
  length : o.pos ≤ cap
  written : ∃ text tail, text <+: full ∧ tail ∈ [[], ['\n'], ['\x22'], ['\x22', '\n']] ∧ o.pos = (text ++ tail).length ∧
    ∀ i < o.pos, o.cells i = (text ++ tail)[i]?

theorem contained_holding (room : 0 < cap) (full : List Char) : Contained cap full (holding (full.take (cap - 1))) := by
  have length : (full.take (cap - 1)).length ≤ cap - 1 := length_take_le _ _
  refine ⟨fun i beyond => List.getElem?_eq_none (by omega), Nat.le_trans length (Nat.sub_le _ _), ?_⟩
  refine ⟨full.take (cap - 1), [], List.take_prefix _ _, mem_cons_self, ?_, fun i _ => ?_⟩
  · rw [append_nil]
    rfl
  · rw [append_nil]
    rfl

def Solid : Piece → Prop
  | .str s => s ≠ []
  | .space => True
  | .num _ | .last _ => False

/-- A space is followed by something that takes a cell. -/
def Separated : List Piece → Prop
  | [] => True
  | p :: ps => (p = .space → ∃ q ∈ ps.head?, Solid q) ∧ Separated ps

theorem separated_of_plain (plain : Piece.space ∉ ps) : Separated ps := by
  induction ps with
  | nil => trivial
  | cons p ps ih =>
    rw [mem_cons, not_or] at plain
    exact ⟨fun same => absurd same.symm plain.1, ih plain.2⟩

theorem append_beyond {q : Piece} (solid : Solid q) (room : 0 < cap) (end_eq : o.pos = cap) :
    cap < (o.append cap q).pos ∧ (o.append cap q).cells cap ≠ none := by
  have put : ∀ s : List Char, 0 < s.length → cap < (o.put s).pos ∧ (o.put s).cells cap ≠ none := by
    intro s positive
    have here : (o.put s).cells cap = s[cap - o.pos]? := if_pos ⟨by omega, by omega⟩
    rw [here]
    refine ⟨show cap < o.pos + s.length by omega, fun absent => ?_⟩
    have := List.getElem?_eq_none_iff.mp absent
    omega
  cases q with
  | str s =>
    have positive := length_pos_iff.mpr solid
    exact put _ (by rw [length_take, end_eq]; omega)
  | space => exact put _ (by decide)
  | num digits => cases solid
  | last c => cases solid

theorem foldl_overflow {full : List Char} (room : 0 < cap) (small : cap < 2 ^ 64) (separated : Separated ps)
    (misfit : ¬ AllFit cap t.length ps) :
    ¬ Contained cap full (ps.foldl (append cap) (holding (t.take (cap - 1)))) := by
  induction ps generalizing t with
  | nil => exact absurd trivial misfit
  | cons p ps ih =>
    rw [foldl_cons]
    by_cases fits : p.Fits cap t.length
    · rw [append_fits room small fits]
      refine ih separated.2 fun rest => misfit ⟨fits, ?_⟩
      rwa [length_append] at rest
    intro contained
    have pos : (holding (t.take (cap - 1))).pos = min (cap - 1) t.length := length_take
    cases p with
    | str s => exact fits trivial
    | last c => exact fits trivial
    | num digits =>
      -- The cell where the number should begin stays unwritten below the position.
      unfold Piece.Fits at fits
      obtain ⟨text, tail, -, -, length, cells⟩ := contained.written
      have cut : (holding (t.take (cap - 1))).append cap (.num digits) =
          { holding (t.take (cap - 1)) with pos := cap - 1 } := by
        show (holding (t.take (cap - 1))).appendNum cap digits = _
        rw [appendNum, pos, if_neg (by omega), if_neg (by omega)]
      rw [cut] at length cells
      obtain ⟨le, same⟩ := foldl_mono cap ps { holding (t.take (cap - 1)) with pos := cap - 1 }
      have before : t.length < cap - 1 := by omega
      have here := (cells t.length (Nat.lt_of_lt_of_le before le)).symm.trans (same t.length before)
      rw [show (holding (t.take (cap - 1))).cells t.length =
        none from List.getElem?_eq_none (length_take_le' _ _)] at here
      exact absurd (List.getElem?_eq_none_iff.mp here) (Nat.not_le.mpr (length ▸ Nat.lt_of_lt_of_le before le))
    | space =>
      -- The space takes the last cell, and the next piece is written behind the buffer.
      obtain ⟨q, next, solid⟩ := separated.1 rfl
      cases ps with
      | nil => cases next
      | cons q' ps =>
        cases next
        have full : ((holding (t.take (cap - 1))).append cap .space).pos = cap := by
          have long : ¬ t.length + 1 < cap := fits
          show (holding (t.take (cap - 1))).pos + 1 = cap
          omega
        obtain ⟨beyond, wrote⟩ := append_beyond solid room full
        rw [foldl_cons] at contained
        exact wrote (((foldl_mono cap ps _).2 cap beyond).symm.trans (contained.inside cap (Nat.le_refl _)))

end Line

namespace PipelineLogFormatter

variable {toNs : Nat → Nat}

theorem space_not_mem_fields (payload : Payload) : Piece.space ∉ fields toNs payload := by
  cases payload <;> simp [fields, Piece.lit, Piece.unsigned, Piece.signed]

theorem solid_fields (payload : Payload) : ∃ q ∈ (fields toNs payload ++ [Piece.last '\n']).head?, Line.Solid q := by
  cases payload with
  | latency => exact ⟨_, rfl, (by decide : "stage=".toList ≠ [])⟩
  | order => exact ⟨_, rfl, (by decide : "event=".toList ≠ [])⟩
  | marketData => exact ⟨_, rfl, (by decide : "seq=".toList ≠ [])⟩
  | connection => exact ⟨_, rfl, (by decide : "event=".toList ≠ [])⟩
  | text => exact ⟨_, rfl, (by decide : "msg=\"".toList ≠ [])⟩

theorem separated_pieces (entry : LogEntry) : Line.Separated (pieces toNs entry) := by
  have thread : (kThreadNames (min entry.threadId 3)).toList ≠ [] := by unfold kThreadNames; split <;> decide
  have level : (kLevelNames entry.level).toList ≠ [] := by unfold kLevelNames; split <;> decide
  have event : (kEventTypeNames entry.payload).toList ≠ [] := by unfold kEventTypeNames; split <;> decide
  have tail : Line.Separated (fields toNs entry.payload ++ [.last '\n']) := by
    refine Line.separated_of_plain fun member => ?_
    obtain inside | last := mem_append.mp member
    · exact space_not_mem_fields _ inside
    · cases mem_singleton.mp last
  unfold pieces
  rw [append_assoc]
  exact ⟨nofun, fun _ => ⟨_, rfl, thread⟩, nofun, fun _ => ⟨_, rfl, level⟩, nofun, fun _ => ⟨_, rfl, event⟩, nofun,
    fun _ => ⟨_, rfl, trivial⟩, fun _ => solid_fields _, tail⟩

/-- Nothing is written outside and the line is a beginning of the text just when all its pieces fit. -/
theorem format_contained_iff (toNs : Nat → Nat) (entry : LogEntry) {cap : Nat} (room : 0 < cap) (small : cap < 2 ^ 64) :
    (format toNs entry cap).Contained cap (fullText toNs entry) ↔ AllFit cap 0 (pieces toNs entry) := by
  have start : ({} : Line) = Line.holding (([] : List Char).take (cap - 1)) := by
    rw [take_nil]
    rfl
  unfold format
  rw [start]
  refine ⟨fun contained => ?_, fun fits => ?_⟩
  · by_contra misfit
    have misfit : ¬ AllFit cap ([] : List Char).length (pieces toNs entry) := misfit
    exact Line.foldl_overflow room small (separated_pieces entry) misfit contained
  · have fits : AllFit cap ([] : List Char).length (pieces toNs entry) := fits
    rw [Line.foldl_fits room small fits, nil_append]
    exact Line.contained_holding room _

def sample : LogEntry := ⟨7, 1, .kInfo, .marketData 123456 3 0 100 5 0⟩

theorem format_contained_iff_whole : (format id sample 256).Contained 256 (fullText id sample) :=
  (format_contained_iff id sample (by decide) (by decide)).mpr (allFit_of_length (by decide +kernel))

/-- With one cell the thread name is written behind the buffer, and a cut number leaves cells unwritten. -/
theorem format_not_contained :
    ¬ (format id sample 1).Contained 1 (fullText id sample) ∧
    ¬ (format id sample 30).Contained 30 (fullText id sample) := by
  refine ⟨fun contained => ?_, fun contained => ?_⟩
  · have outside : (format id sample 1).cells 1 = some 'M' := by decide +kernel
    rw [contained.inside 1 (Nat.le_refl _)] at outside
    cases outside
  · obtain ⟨text, tail, -, -, length, cells⟩ := contained.written
    have pos : (format id sample 30).pos = 29 := by decide +kernel
    have cell : (format id sample 30).cells 28 = none := by decide +kernel
    rw [cells 28 (by omega)] at cell
    have := List.getElem?_eq_none_iff.mp cell
    omega

end PipelineLogFormatter

end TickToTrade.Pipeline
