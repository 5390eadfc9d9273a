import TickToTrade.Exchange.WireFormat
import TickToTrade.Net.Framer

/-!
The receive loop of `recv_thread_main` over the bytes of its buffer, for a gateway that is not asked
to stop and whose queues have room.
-/

namespace TickToTrade.Exchange
open Deframing Net List

def kRxBufSize : Nat := 8192

/-- The frame at the front of the buffer. A frame that cannot be unpacked or is of another version is skipped. -/
def peekFrame (buf : List UInt8) : Found (Option (List UInt8)) :=
  if buf = [] then .incomplete
  else
    match MessageCodecFramer.decode buf with
    | .kIncomplete => .incomplete
    | .kError => .corrupt
    | .kOk frame =>
      .frame frame.length <| match unpackMessage frame with
        | none => none
        | some peek => if verifyProtocolVersion peek.header.version then some frame else none

inductive RecvAnswer where
  | data (bytes : List UInt8)
  | wouldBlock
  | interrupted
  | closed
  | failed
  deriving DecidableEq

def RecvAnswer.bytes : RecvAnswer → List UInt8
  | .data bytes => bytes
  | _ => []

/-- `rxBuf` is the part of the buffer that is in use. A frame is handed over together with the session read before it.
-/
structure RecvLoop where
  rxBuf : List UInt8 := []
  handed : List (UInt16 × List UInt8) := []
  connected : Bool := true

namespace RecvLoop

def parse (loop : RecvLoop) (curSession : UInt16) : Exec RecvLoop := do
  let parsed ← scan peekFrame loop.rxBuf (loop.rxBuf.length + 1) 0
  return {
    rxBuf := loop.rxBuf.drop parsed.position
    handed := loop.handed ++ (parsed.contents.filterMap id).map fun frame => (curSession, frame)
    connected := parsed.sound }

def step (loop : RecvLoop) (answer : RecvAnswer × UInt16) : Exec RecvLoop :=
  if loop.connected = false then some loop
  else if kRxBufSize - loop.rxBuf.length = 0 then some { loop with connected := false }
  else
    match answer with
    | (.data bytes, curSession) => { loop with rxBuf := loop.rxBuf ++ bytes }.parse curSession
    | (.wouldBlock, curSession) | (.interrupted, curSession) => loop.parse curSession
    | (.closed, _) | (.failed, _) => some { loop with connected := false }

def run : List (RecvAnswer × UInt16) → RecvLoop → Exec RecvLoop := Transition.run step

/-- The answer is one that the kernel can give while the peer keeps the connection. -/
def Delivers (loop : RecvLoop) (answer : RecvAnswer × UInt16) : Prop :=
  match answer.1 with
  | .data bytes => 0 < bytes.length ∧ bytes.length ≤ kRxBufSize - loop.rxBuf.length
  | .wouldBlock | .interrupted => True
  | .closed | .failed => False

instance (loop : RecvLoop) (answer : RecvAnswer × UInt16) : Decidable (loop.Delivers answer) := by
  unfold Delivers
  cases answer.1 <;> infer_instance

end RecvLoop

theorem peekFrame_decodes :
    Decodes peekFrame TlvMessage.bytes (fun m => some m.bytes) TlvMessage.Fits where
  nothing := rfl
  nonempty m fits := by
    rw [fits.length]
    exact Nat.lt_of_lt_of_le (by decide) (Nat.le_add_right kMessageHeaderSize _)
  whole m fits rest := by
    have positive : m.bytes ++ rest ≠ [] := by
      intro empty
      have short := congrArg length empty
      rw [length_append, fits.length, TlvMessage.size, kMessageHeaderSize] at short
      simp at short
    have peek : unpackMessage m.bytes = some m.view := by simpa using @TlvMessage.Fits.unpack m [] fits
    rw [peekFrame, if_neg positive, fits.decode]
    simp only [peek]
    rfl
  cut m fits front begins short := by
    unfold peekFrame
    split
    · rfl
    · rw [fits.decode_front begins short]

namespace RecvLoop

structure Reads (messages : List TlvMessage) (arrived : List UInt8) (loop : RecvLoop) : Prop where
  connected : loop.connected = true
  reading : ∃ taken, loop.handed.map Prod.snd = taken.map TlvMessage.bytes ∧
    Reading TlvMessage.bytes messages arrived taken loop.rxBuf

variable {messages : List TlvMessage} {arrived chunk : List UInt8} {loop : RecvLoop}

section

variable (reads : loop.Reads messages arrived) (valid : ∀ m ∈ messages, m.Fits)
include reads valid

theorem Reads.parse
    (more : arrived ++ chunk <+: messages.flatMap TlvMessage.bytes) (curSession : UInt16) :
    ∃ loop', RecvLoop.parse { loop with rxBuf := loop.rxBuf ++ chunk } curSession = some loop' ∧
      loop'.Reads messages (arrived ++ chunk) := by
  obtain ⟨taken, handed, reading⟩ := reads.reading
  have buffered : (loop.rxBuf ++ chunk).drop 0 = loop.rxBuf ++ chunk := drop_zero
  obtain ⟨done, position, scanned, -, reading'⟩ :=
    reading.scan peekFrame_decodes valid more buffered (Nat.lt_succ_self _) (Nat.zero_le _)
  rw [buffered] at scanned
  refine ⟨_, by rw [RecvLoop.parse, scanned]; rfl, rfl, taken ++ done, ?_, reading'⟩
  simp [handed, filterMap_map, Function.comp_def]

/-- The buffer has room whenever the loop asks for more, so no round disconnects. -/
theorem Reads.step
    (fits : ∀ m ∈ messages, m.bytes.length ≤ kRxBufSize) {answer : RecvAnswer × UInt16}
    (delivers : loop.Delivers answer) (more : arrived ++ answer.1.bytes <+: messages.flatMap TlvMessage.bytes) :
    ∃ loop', loop.step answer = some loop' ∧ loop'.Reads messages (arrived ++ answer.1.bytes) := by
  obtain ⟨taken, handed, reading⟩ := reads.reading
  have room : loop.rxBuf.length < kRxBufSize := reading.room (by decide) fits
  have same : { loop with rxBuf := loop.rxBuf ++ [] } = loop := by rw [append_nil]
  unfold RecvLoop.step
  rw [if_neg (by rw [reads.connected]; decide), if_neg (by omega)]
  obtain ⟨received, curSession⟩ := answer
  cases received with
  | data bytes => exact reads.parse valid more curSession
  | wouldBlock | interrupted =>
    have parsed : ∃ loop', RecvLoop.parse { loop with rxBuf := loop.rxBuf ++ [] } curSession = some loop' ∧
        loop'.Reads messages (arrived ++ []) := reads.parse valid more curSession
    rw [same] at parsed
    exact parsed
  | closed | failed => exact delivers.elim

theorem Reads.run
    (fits : ∀ m ∈ messages, m.bytes.length ≤ kRxBufSize) {answers : List (RecvAnswer × UInt16)}
    (delivered : Transition.Along RecvLoop.step Delivers answers loop)
    (more : arrived ++ answers.flatMap (fun answer => answer.1.bytes) <+: messages.flatMap TlvMessage.bytes) :
    ∃ loop', RecvLoop.run answers loop = some loop' ∧
      loop'.Reads messages (arrived ++ answers.flatMap fun answer => answer.1.bytes) := by
  induction answers generalizing loop arrived with
  | nil => exact ⟨loop, rfl, by rwa [flatMap_nil, append_nil]⟩
  | cons answer rest ih =>
    rw [flatMap_cons, ← append_assoc] at more ⊢
    obtain ⟨next, stepped, reads'⟩ := reads.step valid fits delivered.1 ((prefix_append _ _).trans more)
    obtain ⟨last, ran, final⟩ := ih reads' (delivered.2 next stepped) more
    refine ⟨last, ?_, final⟩
    rw [RecvLoop.run, Transition.run, stepped]
    exact ran

end

theorem reads_start (valid : ∀ m ∈ messages, m.Fits) : Reads messages [] {} :=
  ⟨rfl, [], rfl, reading_start fun m member => peekFrame_decodes.nonempty m (valid m member)⟩

theorem run_hands_over (valid : ∀ m ∈ messages, m.Fits) (fits : ∀ m ∈ messages, m.bytes.length ≤ kRxBufSize)
    {answers : List (RecvAnswer × UInt16)} (delivered : Transition.Along RecvLoop.step Delivers answers {})
    (stream : answers.flatMap (fun answer => answer.1.bytes) = messages.flatMap TlvMessage.bytes) :
    ∃ loop, RecvLoop.run answers {} = some loop ∧ loop.connected = true ∧
      loop.handed.map Prod.snd = messages.map TlvMessage.bytes := by
  obtain ⟨loop, ran, reads⟩ := (reads_start valid).run valid fits delivered (by rw [nil_append, stream])
  obtain ⟨taken, handed, reading⟩ := reads.reading
  rw [nil_append, stream] at reading
  exact ⟨loop, ran, reads.connected, by rw [handed, reading.complete]⟩

end RecvLoop

end TickToTrade.Exchange
