import TickToTrade.Lib.BigEndian

/-!
The frames of `net/message_codec.hpp`: a header of sixteen bytes and a payload.
-/

namespace TickToTrade.Net
open BigEndian List

/-- The letters `SER1`. -/
def kMessageMagic : Nat := 0x53455231

def kMaxPayloadSize : Nat := 65536

def kMessageHeaderSize : Nat := 16

/-- The bytes written to an output of `outSize` bytes; `none` if the function returns zero. -/
def packMessage (outSize version msgType flags : Nat) (payload : List UInt8) : Option (List UInt8) :=
  if kMaxPayloadSize < payload.length then none
  else if outSize < kMessageHeaderSize + payload.length then none
  else some (store 4 kMessageMagic ++ store 2 version ++ store 2 msgType ++ store 4 payload.length ++
    store 4 flags ++ payload)

variable {outSize version msgType flags : Nat} {payload frame : List UInt8}

section

variable (packed : packMessage outSize version msgType flags payload = some frame)
include packed

theorem packMessage_eq_some :
    frame = store 4 kMessageMagic ++ store 2 version ++ store 2 msgType ++ store 4 payload.length ++ store 4 flags ++
    payload := by
  unfold packMessage at packed
  split at packed
  · cases packed
  split at packed
  · cases packed
  · exact (Option.some.inj packed).symm

theorem packMessage_length : frame.length = kMessageHeaderSize + payload.length := by
  rw [packMessage_eq_some packed]
  simp only [length_append, store_length, kMessageHeaderSize]

theorem packMessage_bounded : payload.length ≤ kMaxPayloadSize := by
  unfold packMessage at packed
  split at packed
  · cases packed
  · omega

end

theorem packMessage_some (small : payload.length ≤ kMaxPayloadSize)
    (room : kMessageHeaderSize + payload.length ≤ outSize) :
    ∃ frame, packMessage outSize version msgType flags payload = some frame := by
  rw [packMessage, if_neg (by omega), if_neg (by omega)]
  exact ⟨_, rfl⟩

structure MessageHeader where
  magic : Nat
  version : Nat
  msgType : Nat
  payloadLen : Nat
  flags : Nat
  deriving DecidableEq

structure ParsedMessageView where
  header : MessageHeader
  payload : List UInt8
  deriving DecidableEq

/-- The message at the front of the input; bytes after it are not looked at. -/
def unpackMessage (input : List UInt8) : Option ParsedMessageView :=
  if input.length < kMessageHeaderSize then none
  else
    let header : MessageHeader := {
      magic := loadAt 4 0 input
      version := loadAt 2 4 input
      msgType := loadAt 2 6 input
      payloadLen := loadAt 4 8 input
      flags := loadAt 4 12 input }
    if header.magic ≠ kMessageMagic then none
    else if kMaxPayloadSize < header.payloadLen then none
    else if input.length - kMessageHeaderSize < header.payloadLen then none
    else some { header, payload := (input.drop kMessageHeaderSize).take header.payloadLen }

/-- The header that `packMessage` writes, read at the offsets of the source. -/
structure Header (input : List UInt8) (header : MessageHeader) : Prop where
  whole : kMessageHeaderSize ≤ input.length
  magic : loadAt 4 0 input = header.magic
  version : loadAt 2 4 input = header.version
  msgType : loadAt 2 6 input = header.msgType
  payloadLen : loadAt 4 8 input = header.payloadLen
  flags : loadAt 4 12 input = header.flags

theorem Header.append {input rest : List UInt8} {header : MessageHeader} (read : Header input header) :
    Header (input ++ rest) header := by
  have whole : 16 ≤ input.length := read.whole
  constructor
  case whole => rw [length_append]; exact Nat.le_add_right_of_le whole
  all_goals rw [loadAt_append (by omega)]
  · exact read.magic
  · exact read.version
  · exact read.msgType
  · exact read.payloadLen
  · exact read.flags

section

variable (packed : packMessage outSize version msgType flags payload = some frame) (versioned : version < 2 ^ 16)
  (typed : msgType < 2 ^ 16) (flagged : flags < 2 ^ 32)
include packed versioned typed flagged

theorem packMessage_header : Header frame ⟨kMessageMagic, version, msgType, payload.length, flags⟩ := by
  have small : payload.length ≤ 65536 := packMessage_bounded packed
  constructor
  case whole => rw [packMessage_length packed]; exact Nat.le_add_right _ _
  all_goals
    rw [packMessage_eq_some packed]
    simp only [append_assoc, loadAt_store_skip, loadAt_store, Nat.reduceLeDiff, Nat.reduceSub, Nat.le_refl,
      Nat.sub_self]
    apply Nat.mod_eq_of_lt
  · decide
  all_goals omega

theorem unpackMessage_packMessage (rest : List UInt8) :
    unpackMessage (frame ++ rest) = some ⟨⟨kMessageMagic, version, msgType, payload.length, flags⟩, payload⟩ := by
  have read : Header (frame ++ rest) _ := (packMessage_header packed versioned typed flagged).append
  have long : (frame ++ rest).length = kMessageHeaderSize + payload.length + rest.length := by
    rw [length_append, packMessage_length packed]
  have small := packMessage_bounded packed
  have content : ((frame ++ rest).drop kMessageHeaderSize).take payload.length = payload := by
    rw [packMessage_eq_some packed, append_assoc, drop_left' (by simp [kMessageHeaderSize]),
      take_left' rfl]
  simp only [unpackMessage, read.magic, read.version, read.msgType, read.payloadLen, read.flags, content]
  rw [if_neg (Nat.not_lt.mpr read.whole), if_neg (not_not.mpr rfl), if_neg (by omega), if_neg (by omega)]

end

/-! ### Every byte string -/

variable {input : List UInt8} {view : ParsedMessageView}

/-- What `unpack_message` accepts. -/
structure Unpacked (input : List UInt8) (view : ParsedMessageView) : Prop where
  header : Header input view.header
  magic : view.header.magic = kMessageMagic
  bounded : view.header.payloadLen ≤ kMaxPayloadSize
  complete : kMessageHeaderSize + view.header.payloadLen ≤ input.length
  payload : view.payload = (input.drop kMessageHeaderSize).take view.header.payloadLen

theorem unpackMessage_eq_some_iff : unpackMessage input = some view ↔ Unpacked input view := by
  constructor
  · intro unpacked
    unfold unpackMessage at unpacked
    dsimp only at unpacked
    split at unpacked
    · cases unpacked
    split at unpacked
    · cases unpacked
    split at unpacked
    · cases unpacked
    split at unpacked
    · cases unpacked
    rename_i whole magic bounded complete
    cases unpacked
    exact ⟨⟨by omega, rfl, rfl, rfl, rfl, rfl⟩, not_not.mp magic, by dsimp only; omega, by dsimp only; omega, rfl⟩
  · intro ⟨read, magic, bounded, complete, payload⟩
    obtain ⟨header, payload'⟩ := view
    simp only at read magic bounded complete payload
    have whole := read.whole
    simp only [unpackMessage, read.magic, read.version, read.msgType, read.payloadLen, read.flags, ← payload]
    rw [if_neg (by omega), if_neg (not_not.mpr magic), if_neg (by omega), if_neg (by omega)]

theorem Header.bytes {header : MessageHeader} (read : Header input header) : input.take kMessageHeaderSize =
    store 4 header.magic ++ store 2 header.version ++ store 2 header.msgType ++ store 4 header.payloadLen ++
    store 4 header.flags := by
  have whole : 16 ≤ input.length := read.whole
  rw [← read.magic, ← read.version, ← read.msgType, ← read.payloadLen, ← read.flags]
  rw [store_loadAt (by omega), store_loadAt (by omega), store_loadAt (by omega), store_loadAt (by omega),
    store_loadAt (by omega)]
  rw [drop_zero, ← take_add, ← take_add, ← take_add, ← take_add]
  rfl

theorem Unpacked.repack (unpacked : Unpacked input view)
    (room : kMessageHeaderSize + view.header.payloadLen ≤ outSize) :
    packMessage outSize view.header.version view.header.msgType view.header.flags view.payload =
      some (input.take (kMessageHeaderSize + view.header.payloadLen)) := by
  have complete := unpacked.complete
  have bounded := unpacked.bounded
  have length : view.payload.length = view.header.payloadLen := by
    rw [unpacked.payload, length_take, length_drop]
    omega
  rw [packMessage, length, if_neg (by omega), if_neg (by omega), take_add, ← unpacked.payload,
    unpacked.header.bytes, unpacked.magic]

end TickToTrade.Net
