import TickToTrade.Exchange.RecvLoop

/-!
The receive loop of `StrategyThread::run` over the bytes of its buffer: two cursors, and the bytes
between them moved to the front only when the buffer is full.
-/

namespace TickToTrade.Pipeline
open Deframing Net List Option

/-- The message at the front of the unread bytes; `none` is a message of another version. -/
def nextMessage (view : List UInt8) : Found (Option ParsedMessageView) :=
  if view.length < kMessageHeaderSize then .incomplete
  else
    match unpackMessage view with
    | none => .incomplete
    | some msg =>
      .frame (kMessageHeaderSize + msg.header.payloadLen)
        (if verifyProtocolVersion msg.header.version then some msg else none)

inductive RecvResult where
  | kOk (bytes : List UInt8)
  | kWouldBlock
  | kPeerClosed
  | kError
  deriving DecidableEq

def RecvResult.bytes : RecvResult → List UInt8
  | .kOk bytes => bytes
  | _ => []

/-- `data` is the buffer up to the write cursor. The kill switch is what this loop does to it. -/
structure ResponseLoop where
  size : Nat
  data : List UInt8 := []
  read : Nat := 0
  handed : List ParsedMessageView := []
  killSwitch : Bool := false
  connected : Bool := true

namespace ResponseLoop

def write (loop : ResponseLoop) : Nat := loop.data.length

def disconnectAndReconnect (loop : ResponseLoop) : ResponseLoop :=
    { loop with data := [], read := 0, connected := false }

def makeRoom (loop : ResponseLoop) : ResponseLoop :=
  if loop.size ≤ loop.write then
    if 0 < loop.read then { loop with data := loop.data.drop loop.read, read := 0 }
    else loop.disconnectAndReconnect
  else loop

def parse (loop : ResponseLoop) : Exec ResponseLoop := do
  let parsed ← scan nextMessage loop.data (loop.write + 1) loop.read
  let loop := { loop with
    read := parsed.position
    handed := loop.handed ++ parsed.contents.filterMap id
    killSwitch := loop.killSwitch || parsed.contents.any isNone }
  return if loop.read = loop.write then { loop with data := [], read := 0 } else loop

def step (loop : ResponseLoop) (result : RecvResult) : Exec ResponseLoop :=
  if loop.connected = false then some loop
  else
    let loop := loop.makeRoom
    if loop.connected = false then some loop
    else
      match result with
      | .kWouldBlock => some loop
      | .kPeerClosed | .kError => some loop.disconnectAndReconnect
      | .kOk bytes => { loop with data := loop.data ++ bytes }.parse

def run : List RecvResult → ResponseLoop → Exec ResponseLoop := Transition.run step

/-- The answer is one that the kernel can give while the peer keeps the connection. -/
def Delivers (loop : ResponseLoop) (result : RecvResult) : Prop :=
  match result with
  | .kOk bytes => 0 < bytes.length ∧ bytes.length ≤ loop.size - loop.makeRoom.write
  | .kWouldBlock => True
  | .kPeerClosed | .kError => False

instance (loop : ResponseLoop) (result : RecvResult) : Decidable (loop.Delivers result) := by
  unfold Delivers
  cases result <;> infer_instance

end ResponseLoop

theorem nextMessage_decodes :
    Decodes nextMessage TlvMessage.bytes (fun m => some m.view) TlvMessage.Fits where
  nothing := rfl
  nonempty m fits := by
    rw [fits.length]
    exact Nat.lt_of_lt_of_le (by decide) (Nat.le_add_right kMessageHeaderSize _)
  whole m fits rest := by
    have long : kMessageHeaderSize ≤ (m.bytes ++ rest).length := by
      rw [length_append, fits.length, TlvMessage.size, Nat.add_assoc]
      exact Nat.le_add_right _ _
    rw [nextMessage, if_neg (Nat.not_lt.mpr long), fits.unpack, fits.length]
    rfl
  cut m fits front begins short := by
    unfold nextMessage
    split
    · rfl
    · rw [fits.unpack_front begins short]

namespace ResponseLoop

/-- What the loop has done with the bytes that arrived; the unread ones lie between the cursors. -/
structure Reads (messages : List TlvMessage) (arrived : List UInt8) (loop : ResponseLoop) : Prop where
  connected : loop.connected = true
  cursor : loop.read ≤ loop.write
  killSwitch : loop.killSwitch = false
  reading : ∃ taken, loop.handed = taken.map TlvMessage.view ∧
    Reading TlvMessage.bytes messages arrived taken (loop.data.drop loop.read)

variable {messages : List TlvMessage} {arrived chunk : List UInt8} {loop : ResponseLoop}

section

variable (reads : loop.Reads messages arrived)
include reads

theorem Reads.parse (valid : ∀ m ∈ messages, m.Fits)
    (more : arrived ++ chunk <+: messages.flatMap TlvMessage.bytes) :
    ∃ loop', ResponseLoop.parse { loop with data := loop.data ++ chunk } = some loop' ∧
      loop'.Reads messages (arrived ++ chunk) ∧ loop'.size = loop.size := by
  obtain ⟨taken, handed, reading⟩ := reads.reading
  have cursor : loop.read ≤ loop.data.length := reads.cursor
  have buffered : (loop.data ++ chunk).drop loop.read = loop.data.drop loop.read ++ chunk :=
    drop_append_of_le_length cursor
  have inside : loop.read ≤ (loop.data ++ chunk).length := by
    rw [length_append]
    omega
  obtain ⟨done, position, scanned, within, reading'⟩ :=
    reading.scan nextMessage_decodes valid more buffered
      (show _ < (loop.data ++ chunk).length + 1 by rw [length_drop]; omega) inside
  have told : taken.map TlvMessage.view ++ (done.map fun m => some m.view).filterMap id =
      (taken ++ done).map TlvMessage.view := by
    simp [filterMap_map]
  have versions : (loop.killSwitch || (done.map fun m => some m.view).any isNone) = false := by
    simp [reads.killSwitch]
  simp only [ResponseLoop.parse, write, scanned, handed]
  refine ⟨_, rfl, ?_, by split <;> rfl⟩
  split
  case isTrue all =>
    -- nothing is left, so the cursors go back to the beginning
    have empty : (loop.data ++ chunk).drop position = [] := drop_eq_nil_of_le (Nat.le_of_eq all.symm)
    exact ⟨reads.connected, Nat.le_refl 0, versions, taken ++ done, told, empty ▸ reading'⟩
  case isFalse some => exact ⟨reads.connected, within, versions, taken ++ done, told, reading'⟩

/-- A full buffer holds a message that was read, since it holds no complete one that was not. -/
theorem Reads.makeRoom (positive : 0 < loop.size)
    (fits : ∀ m ∈ messages, m.bytes.length ≤ loop.size) : loop.makeRoom.Reads messages arrived ∧
    loop.makeRoom.size = loop.size := by
  obtain ⟨taken, handed, reading⟩ := reads.reading
  have room := reading.room positive fits
  have cursor := reads.cursor
  unfold ResponseLoop.makeRoom
  split
  case isFalse => exact ⟨reads, rfl⟩
  case isTrue full =>
    rw [if_pos (by rw [length_drop] at room; unfold write at *; omega)]
    exact ⟨⟨reads.connected, Nat.zero_le _, reads.killSwitch, taken, handed, reading⟩, rfl⟩

section

variable (valid : ∀ m ∈ messages, m.Fits) (positive : 0 < loop.size) (fits : ∀ m ∈ messages, m.bytes.length ≤ loop.size)
include valid positive fits

theorem Reads.step {result : RecvResult} (delivers : loop.Delivers result)
    (more : arrived ++ result.bytes <+: messages.flatMap TlvMessage.bytes) :
    ∃ loop', loop.step result = some loop' ∧ loop'.Reads messages (arrived ++ result.bytes) ∧
    loop'.size = loop.size := by
  obtain ⟨roomy, sized⟩ := reads.makeRoom positive fits
  rw [ResponseLoop.step, if_neg (by rw [reads.connected]; decide)]
  simp only
  rw [if_neg (by rw [roomy.connected]; decide)]
  cases result with
  | kOk bytes =>
    obtain ⟨loop', parsed, reads', same⟩ := roomy.parse valid more
    exact ⟨loop', parsed, reads', same.trans sized⟩
  | kWouldBlock => exact ⟨_, rfl, (append_nil arrived).symm ▸ roomy, sized⟩
  | kPeerClosed | kError => exact delivers.elim

theorem Reads.run {results : List RecvResult}
    (delivered : Transition.Along ResponseLoop.step Delivers results loop)
    (more : arrived ++ results.flatMap RecvResult.bytes <+: messages.flatMap TlvMessage.bytes) :
    ∃ loop', ResponseLoop.run results loop = some loop' ∧
    loop'.Reads messages (arrived ++ results.flatMap RecvResult.bytes) := by
  induction results generalizing loop arrived with
  | nil => exact ⟨loop, rfl, by rwa [flatMap_nil, append_nil]⟩
  | cons result rest ih =>
    rw [flatMap_cons, ← append_assoc] at more ⊢
    obtain ⟨next, stepped, reads', sized⟩ :=
      reads.step valid positive fits delivered.1 ((prefix_append _ _).trans more)
    obtain ⟨last, ran, final⟩ := ih reads' (by rwa [sized]) (by rwa [sized]) (delivered.2 next stepped) more
    refine ⟨last, ?_, final⟩
    rw [ResponseLoop.run, Transition.run, stepped]
    exact ran

end

end

theorem reads_start (valid : ∀ m ∈ messages, m.Fits) (size : Nat) : Reads messages [] { size } :=
  ⟨rfl, Nat.le_refl 0, rfl, [], rfl, reading_start fun m member => nextMessage_decodes.nonempty m (valid m member)⟩

theorem run_hands_over (valid : ∀ m ∈ messages, m.Fits) {size : Nat} (positive : 0 < size)
    (fits : ∀ m ∈ messages, m.bytes.length ≤ size) {results : List RecvResult}
    (delivered : Transition.Along ResponseLoop.step Delivers results { size })
    (stream : results.flatMap RecvResult.bytes = messages.flatMap TlvMessage.bytes) :
    ∃ loop, ResponseLoop.run results { size } = some loop ∧ loop.connected = true ∧ loop.killSwitch = false ∧
      loop.handed = messages.map TlvMessage.view := by
  obtain ⟨loop, ran, reads⟩ :=
    (reads_start valid size).run valid positive fits delivered (by rw [nil_append, stream])
  obtain ⟨taken, handed, reading⟩ := reads.reading
  rw [nil_append, stream] at reading
  exact ⟨loop, ran, reads.connected, reads.killSwitch, by rw [handed, reading.complete]⟩

end ResponseLoop

/-! ### Both ends of a connection -/

section Ends
open Exchange

/-- Whatever the segments of the stream, each end hands over its messages, once each and in order, and neither
disconnects. -/
theorem streams_handed_over {messages : List TlvMessage} (valid : ∀ m ∈ messages, m.Fits) :
    (∀ answers, (∀ m ∈ messages, m.bytes.length ≤ kRxBufSize) →
      Transition.Along RecvLoop.step RecvLoop.Delivers answers {} →
      answers.flatMap (fun answer => answer.1.bytes) = messages.flatMap TlvMessage.bytes →
      ∃ loop, RecvLoop.run answers {} = some loop ∧ loop.connected = true ∧
        loop.handed.map Prod.snd = messages.map TlvMessage.bytes) ∧
    ∀ size results, 0 < size → (∀ m ∈ messages, m.bytes.length ≤ size) →
      Transition.Along ResponseLoop.step ResponseLoop.Delivers results { size } →
      results.flatMap RecvResult.bytes = messages.flatMap TlvMessage.bytes →
      ∃ loop, ResponseLoop.run results { size } = some loop ∧ loop.connected = true ∧ loop.killSwitch = false ∧
        loop.handed = messages.map TlvMessage.view :=
  ⟨fun _ fits delivered stream => RecvLoop.run_hands_over valid fits delivered stream,
    fun _ _ positive fits delivered stream => ResponseLoop.run_hands_over valid positive fits delivered stream⟩

def heartbeatMessage : TlvMessage := ⟨MsgType.kHeartbeat.toNat, 0, []⟩

def ackMessage : TlvMessage := ⟨MsgType.kCancelAck.toNat, 7, [1, 2, 3]⟩

/-- Two messages in four pieces, at both ends; the second end has to move them in a buffer of 20 bytes. -/
theorem streams_handed_over_pieces :
    let stream := heartbeatMessage.bytes ++ ackMessage.bytes
    (∃ loop, RecvLoop.run [(.data (stream.take 5), 0), (.wouldBlock, 0), (.data ((stream.drop 5).take 15), 1),
        (.data (stream.drop 20), 1)] {} = some loop ∧ loop.connected = true ∧
      loop.handed.map Prod.snd = [heartbeatMessage.bytes, ackMessage.bytes]) ∧
    ∃ loop, ResponseLoop.run [.kOk (stream.take 5), .kWouldBlock, .kOk ((stream.drop 5).take 15), .kOk (stream.drop 20)]
        { size := 20 } = some loop ∧ loop.connected = true ∧ loop.killSwitch = false ∧
      loop.handed = [heartbeatMessage.view, ackMessage.view] := by
  have valid : ∀ m ∈ [heartbeatMessage, ackMessage], m.Fits := by
    intro m member
    rcases mem_pair.mp member with rfl | rfl <;> exact ⟨by decide, by decide, by decide⟩
  have both := streams_handed_over valid
  exact ⟨both.1 _ (by decide) (by decide +kernel) (by decide +kernel),
    both.2 20 _ (by decide) (by decide) (by decide +kernel) (by decide +kernel)⟩

end Ends

end TickToTrade.Pipeline
