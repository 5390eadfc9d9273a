import TickToTrade.Lib.Deframing
import TickToTrade.Net.RoundTrip

/-!
`MessageCodecFramer` of `simulated_exchange/message_codec_framer.hpp`, on buffers that begin with a
message of the current protocol version or with a part of one.
-/

namespace TickToTrade.Net
open BigEndian List

/-- `FrameStatus`, with the frame in the case of `kOk`. -/
inductive FrameDecodeResult where
  | kOk (frame : List UInt8)
  | kIncomplete
  | kError

/-- The whole frame is handed on as the payload. -/
def MessageCodecFramer.decode (buf : List UInt8) : FrameDecodeResult :=
  if buf.length < kMessageHeaderSize then .kIncomplete
  else if loadAt 4 0 buf ≠ kMessageMagic then .kError
  else
    let plen := loadAt 4 8 buf
    if kMaxPayloadSize < plen then .kError
    else if buf.length < kMessageHeaderSize + plen then .kIncomplete
    else .kOk (buf.take (kMessageHeaderSize + plen))

/-- A well-formed message of the current version. -/
structure TlvMessage where
  msgType : Nat
  flags : Nat
  payload : List UInt8
  deriving DecidableEq

namespace TlvMessage

structure Fits (m : TlvMessage) : Prop where
  msgType : m.msgType < 2 ^ 16
  flags : m.flags < 2 ^ 32
  payload : m.payload.length ≤ kMaxPayloadSize

def header (m : TlvMessage) : MessageHeader := ⟨kMessageMagic, kProtocolVersion, m.msgType, m.payload.length, m.flags⟩

def view (m : TlvMessage) : ParsedMessageView := ⟨m.header, m.payload⟩

def size (m : TlvMessage) : Nat := kMessageHeaderSize + m.payload.length

def bytes (m : TlvMessage) : List UInt8 := (packMessage m.size kProtocolVersion m.msgType m.flags m.payload).getD []

variable {m : TlvMessage} {front rest : List UInt8}

section

variable (fits : m.Fits)
include fits

theorem Fits.packed : packMessage m.size kProtocolVersion m.msgType m.flags m.payload = some m.bytes := by
  obtain ⟨frame, packed⟩ : ∃ frame, packMessage m.size kProtocolVersion m.msgType m.flags m.payload = some frame :=
    packMessage_some fits.payload (Nat.le_refl _)
  rw [bytes, packed]
  rfl

theorem Fits.length : m.bytes.length = m.size := packMessage_length fits.packed

theorem Fits.read : Header m.bytes m.header :=
  packMessage_header fits.packed (by decide) fits.msgType fits.flags

theorem Fits.unpack : unpackMessage (m.bytes ++ rest) = some m.view :=
  unpackMessage_packMessage fits.packed (by decide) fits.msgType fits.flags rest

theorem Fits.decode : MessageCodecFramer.decode (m.bytes ++ rest) = .kOk m.bytes := by
  have read : Header (m.bytes ++ rest) m.header := fits.read.append
  have long : (m.bytes ++ rest).length = kMessageHeaderSize + m.payload.length + rest.length := by
    rw [length_append, fits.length, size]
  have magic : loadAt 4 0 (m.bytes ++ rest) = kMessageMagic := read.magic
  have plen : loadAt 4 8 (m.bytes ++ rest) = m.payload.length := read.payloadLen
  have small := fits.payload
  have taken : (m.bytes ++ rest).take (kMessageHeaderSize + m.payload.length) = m.bytes := take_left' fits.length
  simp only [MessageCodecFramer.decode, magic, plen, taken]
  rw [if_neg (by omega), if_neg (not_not.mpr rfl), if_neg (by omega), if_neg (by omega)]

theorem Fits.read_front (begins : front <+: m.bytes) (header : kMessageHeaderSize ≤ front.length) :
    loadAt 4 0 front = kMessageMagic ∧ loadAt 4 8 front = m.payload.length := by
  obtain ⟨more, split⟩ := begins
  have long : 16 ≤ front.length := header
  have read := split ▸ fits.read
  have magic := read.magic
  have plen := read.payloadLen
  rw [loadAt_append (by omega)] at magic plen
  exact ⟨magic, plen⟩

theorem Fits.decode_front (begins : front <+: m.bytes) (short : front.length < m.bytes.length) :
    MessageCodecFramer.decode front = .kIncomplete := by
  rw [fits.length, size] at short
  unfold MessageCodecFramer.decode
  by_cases part : front.length < kMessageHeaderSize
  · rw [if_pos part]
  · obtain ⟨magic, plen⟩ := fits.read_front begins (Nat.le_of_not_lt part)
    have small := fits.payload
    simp only [magic, plen]
    rw [if_neg part, if_neg (not_not.mpr rfl), if_neg (by omega), if_pos (by omega)]

theorem Fits.unpack_front (begins : front <+: m.bytes) (short : front.length < m.bytes.length) :
    unpackMessage front = none := by
  rw [fits.length, size] at short
  unfold unpackMessage
  by_cases part : front.length < kMessageHeaderSize
  · rw [if_pos part]
  · obtain ⟨magic, plen⟩ := fits.read_front begins (Nat.le_of_not_lt part)
    have small := fits.payload
    simp only [magic, plen]
    rw [if_neg part, if_neg (not_not.mpr rfl), if_neg (by omega), if_pos (by omega)]

end

end TlvMessage

/-! ### Every byte string -/

namespace MessageCodecFramer

variable {input frame : List UInt8} {view : ParsedMessageView}

/-- The header is there and no message can begin with it. -/
def Corrupt (input : List UInt8) : Prop :=
  kMessageHeaderSize ≤ input.length ∧ (loadAt 4 0 input ≠ kMessageMagic ∨ kMaxPayloadSize < loadAt 4 8 input)

/-- The header is that of a message, and the payload has not arrived completely. -/
def Begun (input : List UInt8) : Prop :=
  kMessageHeaderSize ≤ input.length ∧ loadAt 4 0 input = kMessageMagic ∧ loadAt 4 8 input ≤ kMaxPayloadSize ∧
    input.length < kMessageHeaderSize + loadAt 4 8 input

theorem decode_cases (input : List UInt8) :
    (input.length < kMessageHeaderSize ∧ decode input = .kIncomplete) ∨ (Corrupt input ∧ decode input = .kError) ∨
    (Begun input ∧ decode input = .kIncomplete) ∨
    ∃ view, Unpacked input view ∧ decode input = .kOk (input.take (kMessageHeaderSize + view.header.payloadLen)) := by
  unfold decode
  dsimp only
  split
  · rename_i short
    exact .inl ⟨short, rfl⟩
  rename_i whole
  split
  · rename_i magic
    exact .inr (.inl ⟨⟨by omega, .inl magic⟩, rfl⟩)
  rename_i magic
  split
  · rename_i large
    exact .inr (.inl ⟨⟨by omega, .inr large⟩, rfl⟩)
  rename_i bounded
  split
  · rename_i short
    exact .inr (.inr (.inl ⟨⟨by omega, not_not.mp magic, by omega, short⟩, rfl⟩))
  rename_i complete
  let header : MessageHeader :=
    ⟨loadAt 4 0 input, loadAt 2 4 input, loadAt 2 6 input, loadAt 4 8 input, loadAt 4 12 input⟩
  refine .inr (.inr (.inr ⟨⟨header, (input.drop kMessageHeaderSize).take header.payloadLen⟩, ?_, rfl⟩))
  exact ⟨⟨by omega, rfl, rfl, rfl, rfl, rfl⟩, not_not.mp magic, Nat.le_of_not_lt bounded,
    Nat.le_of_not_lt complete, rfl⟩

theorem Corrupt.append (corrupt : Corrupt input) (more : List UInt8) : Corrupt (input ++ more) := by
  obtain ⟨whole, wrong⟩ := corrupt
  have whole : 16 ≤ input.length := whole
  refine ⟨by rw [length_append]; exact Nat.le_add_right_of_le whole, ?_⟩
  rw [loadAt_append (by omega), loadAt_append (by omega)]
  exact wrong

theorem Corrupt.not_unpacked (corrupt : Corrupt input) : ¬ Unpacked input view := by
  intro unpacked
  have bounded := unpacked.bounded
  rcases corrupt.2 with magic | large
  · exact magic (unpacked.header.magic.trans unpacked.magic)
  · rw [unpacked.header.payloadLen] at large
    omega

theorem Begun.not_unpacked (begun : Begun input) : ¬ Unpacked input view := by
  intro unpacked
  have complete := unpacked.complete
  have short := begun.2.2.2
  rw [unpacked.header.payloadLen] at short
  omega

theorem not_unpacked_of_short (short : input.length < kMessageHeaderSize) : ¬ Unpacked input view := by
  intro unpacked
  have whole := unpacked.header.whole
  omega

theorem Unpacked.unique {other : ParsedMessageView} (first : Unpacked input view) (second : Unpacked input other) :
    view = other :=
  Option.mem_unique (unpackMessage_eq_some_iff.mpr first) (unpackMessage_eq_some_iff.mpr second)

theorem decode_of_unpacked (unpacked : Unpacked input view) :
    decode input = .kOk (input.take (kMessageHeaderSize + view.header.payloadLen)) := by
  rcases decode_cases input with ⟨short, _⟩ | ⟨corrupt, _⟩ | ⟨begun, _⟩ | ⟨other, again, decoded⟩
  · exact absurd unpacked (not_unpacked_of_short short)
  · exact absurd unpacked corrupt.not_unpacked
  · exact absurd unpacked begun.not_unpacked
  · rw [Unpacked.unique unpacked again]
    exact decoded

theorem unpacked_of_decode (decoded : decode input = .kOk frame) :
    ∃ view, Unpacked input view ∧ frame = input.take (kMessageHeaderSize + view.header.payloadLen) := by
  rcases decode_cases input with ⟨_, other⟩ | ⟨_, other⟩ | ⟨_, other⟩ | ⟨view, unpacked, again⟩
  · cases other.symm.trans decoded
  · cases other.symm.trans decoded
  · cases other.symm.trans decoded
  · exact ⟨view, unpacked, FrameDecodeResult.kOk.inj (decoded.symm.trans again)⟩

theorem decode_corrupt (corrupt : Corrupt input) : decode input = .kError := by
  rcases decode_cases input with ⟨short, _⟩ | ⟨_, decoded⟩ | ⟨begun, _⟩ | ⟨_, unpacked, _⟩
  · exact absurd corrupt.1 (by omega)
  · exact decoded
  · rcases corrupt.2 with magic | large
    · exact absurd begun.2.1 magic
    · exact absurd begun.2.2.1 (by omega)
  · exact absurd unpacked corrupt.not_unpacked

theorem Begun.extends (begun : Begun input) : ∃ more view, Unpacked (input ++ more) view := by
  obtain ⟨whole, magic, bounded, short⟩ := begun
  have long : 16 ≤ input.length := whole
  let more := replicate (kMessageHeaderSize + loadAt 4 8 input - input.length) (0 : UInt8)
  rcases decode_cases (input ++ more) with ⟨short', _⟩ | ⟨corrupt, _⟩ | ⟨begun, _⟩ | ⟨view, unpacked, _⟩
  · rw [length_append] at short'
    omega
  · obtain ⟨_, wrong⟩ := corrupt
    rw [loadAt_append (by omega), loadAt_append (by omega)] at wrong
    rcases wrong with other | large
    · exact absurd magic other
    · omega
  · obtain ⟨_, _, _, short'⟩ := begun
    rw [loadAt_append (by omega), length_append, length_replicate] at short'
    omega
  · exact ⟨more, view, unpacked⟩

theorem header_words {header : MessageHeader} (read : Header input header) :
    header.version < 2 ^ 16 ∧ header.msgType < 2 ^ 16 ∧ header.flags < 2 ^ 32 := by
  rw [← read.version, ← read.msgType, ← read.flags]
  exact ⟨loadAt_lt, loadAt_lt, loadAt_lt⟩

theorem decode_frame (decoded : decode input = .kOk frame) (rest : List UInt8) :
    decode (frame ++ rest) = .kOk frame := by
  obtain ⟨view, unpacked, rfl⟩ := unpacked_of_decode decoded
  obtain ⟨versioned, typed, flagged⟩ := header_words unpacked.header
  have packed := unpacked.repack (Nat.le_refl _)
  have again := unpackMessage_packMessage packed versioned typed flagged rest
  rw [decode_of_unpacked (unpackMessage_eq_some_iff.mp again), take_left' (packMessage_length packed)]

def Decodes (input : List UInt8) : Prop := ∃ frame, decode input = .kOk frame

theorem decodes_iff : Decodes input ↔ ∃ view, Unpacked input view := by
  constructor
  · intro ⟨frame, decoded⟩
    obtain ⟨view, unpacked, _⟩ := unpacked_of_decode decoded
    exact ⟨view, unpacked⟩
  · intro ⟨view, unpacked⟩
    exact ⟨_, decode_of_unpacked unpacked⟩

theorem decode_incomplete_iff : decode input = .kIncomplete ↔
    input.length < kMessageHeaderSize ∨ ¬ Decodes input ∧ ∃ more, Decodes (input ++ more) := by
  rcases decode_cases input with ⟨short, decoded⟩ | ⟨corrupt, decoded⟩ | ⟨begun, decoded⟩ | ⟨view, unpacked, decoded⟩
  · exact iff_of_true decoded (.inl short)
  · refine iff_of_false (by simp [decoded]) ?_
    intro possible
    rcases possible with short | ⟨_, more, decodes⟩
    · exact absurd corrupt.1 (by omega)
    · obtain ⟨view, unpacked⟩ := decodes_iff.mp decodes
      exact (corrupt.append more).not_unpacked unpacked
  · refine iff_of_true decoded (.inr ⟨?_, ?_⟩)
    · intro decodes
      obtain ⟨view, unpacked⟩ := decodes_iff.mp decodes
      exact begun.not_unpacked unpacked
    · obtain ⟨more, view, unpacked⟩ := begun.extends
      exact ⟨more, decodes_iff.mpr ⟨view, unpacked⟩⟩
  · refine iff_of_false (by simp [decoded]) ?_
    intro possible
    rcases possible with short | ⟨none, _⟩
    · exact not_unpacked_of_short short unpacked
    · exact none ⟨_, decoded⟩

theorem decode_error_append (failed : decode input = .kError) (more : List UInt8) :
    decode (input ++ more) = .kError := by
  rcases decode_cases input with ⟨_, decoded⟩ | ⟨corrupt, _⟩ | ⟨_, decoded⟩ | ⟨_, _, decoded⟩
  · cases decoded.symm.trans failed
  · exact decode_corrupt (corrupt.append more)
  · cases decoded.symm.trans failed
  · cases decoded.symm.trans failed

/-- What the framer says of a byte string, and what that means for `unpack_message` and `pack_message`. -/
theorem decode_classifies (input : List UInt8) :
    (∀ n, (∃ frame, decode input = .kOk frame ∧ frame.length = n) ↔
      ∃ view, unpackMessage input = some view ∧ kMessageHeaderSize + view.header.payloadLen = n) ∧
    (decode input = .kIncomplete ↔
      input.length < kMessageHeaderSize ∨ ¬ Decodes input ∧ ∃ more, Decodes (input ++ more)) ∧
    (decode input = .kError → ∀ more, decode (input ++ more) = .kError) ∧
    ∀ frame, decode input = .kOk frame → frame <+: input ∧ (∀ rest, decode (frame ++ rest) = .kOk frame) ∧
      ∃ view, unpackMessage input = some view ∧ ∀ outSize, frame.length ≤ outSize →
        packMessage outSize view.header.version view.header.msgType view.header.flags view.payload = some frame := by
  refine ⟨?_, decode_incomplete_iff, decode_error_append, ?_⟩
  · intro n
    constructor
    · intro ⟨frame, decoded, length⟩
      obtain ⟨view, unpacked, rfl⟩ := unpacked_of_decode decoded
      rw [length_take_of_le unpacked.complete] at length
      exact ⟨view, unpackMessage_eq_some_iff.mpr unpacked, length⟩
    · intro ⟨view, unpacked, length⟩
      have unpacked := unpackMessage_eq_some_iff.mp unpacked
      exact ⟨_, decode_of_unpacked unpacked, by rw [length_take_of_le unpacked.complete, length]⟩
  · intro frame decoded
    obtain ⟨view, unpacked, shape⟩ := unpacked_of_decode decoded
    refine ⟨shape ▸ List.take_prefix _ _, decode_frame decoded, view, unpackMessage_eq_some_iff.mpr unpacked, ?_⟩
    intro outSize room
    rw [shape, length_take_of_le unpacked.complete] at room
    rw [shape]
    exact unpacked.repack room

def sample : List UInt8 := [0x53, 0x45, 0x52, 0x31, 0, 1, 0, 7, 0, 0, 0, 3, 0, 0, 0, 0, 10, 20, 30, 99]

theorem decode_classifies_sample : decode sample = .kOk (sample.take 19) ∧
    (∀ rest, decode (sample.take 19 ++ rest) = .kOk (sample.take 19)) ∧
    ∃ view, unpackMessage sample = some view ∧
    packMessage 19 view.header.version view.header.msgType view.header.flags view.payload = some (sample.take 19) := by
  have read : unpackMessage sample = some ⟨⟨kMessageMagic, 1, 7, 3, 0⟩, [10, 20, 30]⟩ := by decide +kernel
  have decoded : decode sample = .kOk (sample.take 19) := decode_of_unpacked (unpackMessage_eq_some_iff.mp read)
  obtain ⟨_, stable, view, unpacked, repack⟩ := (decode_classifies sample).2.2.2 _ decoded
  exact ⟨decoded, stable, view, unpacked, repack 19 (by decide)⟩

end MessageCodecFramer

end TickToTrade.Net
