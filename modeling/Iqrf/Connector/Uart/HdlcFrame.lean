import Iqrf.Connector.IConnector
import Iqrf.Lib.Feed
import Iqrf.Lib.Stuffing
import Mathlib.Logic.Function.Iterate

/-!
# The HDLC-like frame of the UART connector

`HdlcFrame` is the object of `HdlcFrame.cpp`: the bytes gathered so far, the two
mode flags and the CRC field, which is an `int16_t` so that `-1` can say that no
CRC is known. A member function leaves the object behind also when it throws, so
each one returns the object together with the way the call ended.

The second half gives `decodeByte` one lemma per branch; later modules read the
decoder through these lemmas and through the stuffing discipline `hdlc`.
-/

namespace Iqrf.Connector.Uart

/-- The `std::logic_error`s of `HdlcFrame`, one for each `throw`. -/
inductive LogicError
  | dataIsEmpty
  | receivedEmptyFrame
  | receivedTooShortFrame
  | crcCheckFailed
  | receivedAbortSequence
  | invalidEscapeSequence
  | frameNotFullyDecoded
  | noDataToEncode
  deriving DecidableEq, Repr

/-- The text the exception carries. -/
def LogicError.what : LogicError → String
  | dataIsEmpty => "Data is empty"
  | receivedEmptyFrame => "Received empty frame"
  | receivedTooShortFrame => "Received too short frame"
  | crcCheckFailed => "CRC check failed"
  | receivedAbortSequence => "Received abort sequence"
  | invalidEscapeSequence => "Invalid escape sequence"
  | frameNotFullyDecoded => "Frame is not fully decoded"
  | noDataToEncode => "No data to encode"

/-- The text tells a caller which check failed. -/
theorem LogicError.what_injective {e e' : LogicError} (h : e.what = e'.what) : e = e' := by
  cases e <;> cases e' <;> first | rfl | (revert h; decide)

/-- HDLC frame start/end flag. -/
def hdlcFlag : UInt8 := 0x7E

/-- HDLC escape character. -/
def hdlcEscape : UInt8 := 0x7D

/-- HDLC escape bit to XOR with the byte. -/
def hdlcEscapeBit : UInt8 := 0x20

/-- A `uint8_t` stored in the `int16_t` CRC field. -/
def crcField (byte : UInt8) : Int16 := byte.toUInt16.toInt16

/-- The CRC field converted back to `uint8_t`. -/
def crcByte (crc : Int16) : UInt8 := crc.toUInt16.toUInt8

@[simp] theorem crcByte_crcField (byte : UInt8) : crcByte (crcField byte) = byte := by
  simp [crcByte, crcField]

theorem crcField_inj {a b : UInt8} : crcField a = crcField b ↔ a = b := by
  refine ⟨fun h => ?_, fun h => h ▸ rfl⟩
  rw [← crcByte_crcField a, h, crcByte_crcField]

theorem crcField_ne_unknown (byte : UInt8) : crcField byte ≠ -1 := by
  intro h
  have field : (crcField byte).toUInt16.toNat = byte.toNat := by simp [crcField]
  have unknown : (-1 : Int16).toUInt16.toNat = 65535 := by decide
  rw [h, unknown] at field
  have := byte.toNat_lt
  omega

/-- One turn of the bit loop of `calculateCrc`. -/
def crcShift (crc : UInt8) : UInt8 :=
  if crc &&& 0x01 ≠ 0 then (crc >>> 1) ^^^ 0x8C else crc >>> 1

/-- One turn of the byte loop of `calculateCrc`. -/
def crcUpdate (crc byte : UInt8) : UInt8 := crcShift^[8] (crc ^^^ byte)

/-- The 1-Wire CRC8 checksum of the data. -/
def calculateCrc (data : Bytes) : UInt8 := data.foldl crcUpdate 0xFF

/-- `HdlcFrame::encodeByte`. -/
def encodeByte (byte : UInt8) : UInt8 :=
  if byte = hdlcFlag ∨ byte = hdlcEscape then byte ^^^ hdlcEscapeBit else byte

/-- The object, with the member initialisers of the default constructor. -/
structure HdlcFrame where
  data : Bytes := []
  decoding : Bool := false
  escape : Bool := false
  crc : Int16 := -1
  deriving DecidableEq, Repr

namespace HdlcFrame

/-- `HdlcFrame(data)`. -/
def ofData (data : Bytes) : Except LogicError HdlcFrame :=
  if data.isEmpty then .error .dataIsEmpty
  else .ok { data := data, crc := crcField (calculateCrc data) }

/-- `HdlcFrame::decodeByte`, branch by branch. -/
def decodeByte (frame : HdlcFrame) (byte : UInt8) : HdlcFrame × Except LogicError Unit :=
  if frame.decoding = false ∧ byte = hdlcFlag then
    ({ frame with data := [], crc := -1, decoding := true }, .ok ())
  else if frame.decoding = false then (frame, .ok ())
  else if frame.escape = false ∧ byte = hdlcFlag then
    let frame := { frame with decoding := false, escape := false }
    if frame.data.isEmpty then (frame, .error .receivedEmptyFrame)
    else if frame.data.length < 2 then (frame, .error .receivedTooShortFrame)
    else
      -- `data.back()` becomes the CRC and leaves the data before the check
      let frame := { frame with
        crc := crcField (frame.data.getLastD 0)
        data := frame.data.dropLast }
      if frame.crc ≠ crcField (calculateCrc frame.data) then (frame, .error .crcCheckFailed)
      else (frame, .ok ())
  else if frame.escape = false ∧ byte = hdlcEscape then ({ frame with escape := true }, .ok ())
  else if frame.escape then
    if byte = hdlcFlag then
      ({ frame with decoding := false, escape := false }, .error .receivedAbortSequence)
    else
      let byte := byte ^^^ hdlcEscapeBit
      if byte ≠ hdlcEscape ∧ byte ≠ hdlcFlag then
        ({ frame with escape := false }, .error .invalidEscapeSequence)
      else ({ frame with escape := false, data := frame.data ++ [byte] }, .ok ())
  else ({ frame with data := frame.data ++ [byte] }, .ok ())

/-- `HdlcFrame::decode`: the loop over the bytes lets an exception out, and the
object is lost with it. -/
def decode (data : Bytes) : Except LogicError HdlcFrame :=
  match Feed.strict decodeByte {} data with
  | (frame, .ok ()) => .ok frame
  | (_, .error e) => .error e

/-- The payload loop of `encode`. -/
def encodeData (data : Bytes) : Bytes :=
  data.flatMap fun byte =>
    if byte = hdlcFlag ∨ byte = hdlcEscape then [hdlcEscape, encodeByte byte] else [byte]

/-- `HdlcFrame::encode`, which fills in an unknown CRC. -/
def encode (frame : HdlcFrame) : HdlcFrame × Except LogicError Bytes :=
  if frame.decoding then (frame, .error .frameNotFullyDecoded)
  else if frame.data.isEmpty then (frame, .error .noDataToEncode)
  else
    let encoded := hdlcFlag :: encodeData frame.data
    let frame :=
      if frame.crc = -1 then { frame with crc := crcField (calculateCrc frame.data) } else frame
    (frame, .ok (encoded ++ [encodeByte (crcByte frame.crc), hdlcFlag]))

/-- `HdlcFrame::getData`; both of its last branches return the data. -/
def getData (frame : HdlcFrame) : Except LogicError Bytes :=
  if frame.decoding then .error .frameNotFullyDecoded else .ok frame.data

end HdlcFrame

/-! ## The stuffing discipline of the frame -/

/-- Flag `0x7E`, escape character `0x7D`, and the escape bit flipped. -/
def hdlc : Stuffing UInt8 where
  flag := hdlcFlag
  esc := hdlcEscape
  flip := (· ^^^ hdlcEscapeBit)
  flag_ne_esc := by decide
  flip_flip := fun a => by
    rw [UInt8.xor_assoc, UInt8.xor_self, UInt8.xor_zero]
  flip_flag_ne_flag := by decide
  flip_flag_ne_esc := by decide
  flip_esc_ne_esc := by decide

@[simp] theorem hdlc_flag : hdlc.flag = hdlcFlag := rfl

@[simp] theorem hdlc_esc : hdlc.esc = hdlcEscape := rfl

@[simp] theorem hdlc_flip (byte : UInt8) : hdlc.flip byte = byte ^^^ hdlcEscapeBit := rfl

theorem hdlc_reserved_iff {byte : UInt8} :
    hdlc.Reserved byte ↔ byte = hdlcFlag ∨ byte = hdlcEscape := Iff.rfl

theorem encodeByte_of_reserved {byte : UInt8} (reserved : hdlc.Reserved byte) :
    encodeByte byte = hdlc.flip byte := if_pos reserved

theorem encodeByte_of_not_reserved {byte : UInt8} (ordinary : ¬ hdlc.Reserved byte) :
    encodeByte byte = byte := if_neg ordinary

/-- The payload loop of `encode` is the discipline's writer. -/
theorem encodeData_eq_stuff (data : Bytes) : HdlcFrame.encodeData data = hdlc.stuff data := by
  unfold HdlcFrame.encodeData Stuffing.stuff
  congr 1
  funext byte
  by_cases reserved : hdlc.Reserved byte
  · rw [if_pos (hdlc_reserved_iff.mp reserved), encodeByte_of_reserved reserved,
      hdlc.stuffOne_of_reserved reserved, hdlc_esc]
  · rw [if_neg (fun h => reserved (hdlc_reserved_iff.mpr h)),
      hdlc.stuffOne_of_not_reserved reserved]

/-! ## One lemma for each branch of `decodeByte` -/

namespace HdlcFrame

theorem decodeByte_idle {frame : HdlcFrame} {byte : UInt8} (idle : frame.decoding = false)
    (ne : byte ≠ hdlcFlag) : decodeByte frame byte = (frame, .ok ()) := by
  simp only [decodeByte, idle, ne, and_false, if_false, if_true]

theorem decodeByte_open {frame : HdlcFrame} (idle : frame.decoding = false) :
    decodeByte frame hdlcFlag =
      ({ frame with data := [], crc := -1, decoding := true }, .ok ()) := by
  simp only [decodeByte, idle, and_self, if_true]

section Decoding

variable {data : Bytes} {crc : Int16} {byte : UInt8}

theorem decodeByte_plain (neFlag : byte ≠ hdlcFlag) (neEscape : byte ≠ hdlcEscape) :
    decodeByte ⟨data, true, false, crc⟩ byte =
      (⟨data ++ [byte], true, false, crc⟩, .ok ()) := by
  simp [decodeByte, neFlag, neEscape]

theorem decodeByte_escape :
    decodeByte ⟨data, true, false, crc⟩ hdlcEscape = (⟨data, true, true, crc⟩, .ok ()) := by
  simp [decodeByte, show hdlcEscape ≠ hdlcFlag from by decide]

theorem decodeByte_escaped (ne : byte ≠ hdlcFlag) (reserved : hdlc.Reserved (hdlc.flip byte)) :
    decodeByte ⟨data, true, true, crc⟩ byte =
      (⟨data ++ [hdlc.flip byte], true, false, crc⟩, .ok ()) := by
  have accepted : ¬ (byte ^^^ hdlcEscapeBit ≠ hdlcEscape ∧ byte ^^^ hdlcEscapeBit ≠ hdlcFlag) := by
    intro given
    rcases given with ⟨neEscape, neFlag⟩
    exact reserved.elim neFlag neEscape
  simp only [decodeByte, ne, accepted, hdlc_flip, and_false, false_and, if_false, if_true,
    Bool.true_eq_false]

theorem decodeByte_invalid (ne : byte ≠ hdlcFlag)
    (ordinary : ¬ hdlc.Reserved (hdlc.flip byte)) :
    decodeByte ⟨data, true, true, crc⟩ byte =
      (⟨data, true, false, crc⟩, .error .invalidEscapeSequence) := by
  have rejected : byte ^^^ hdlcEscapeBit ≠ hdlcEscape ∧ byte ^^^ hdlcEscapeBit ≠ hdlcFlag :=
    ⟨fun h => ordinary (Or.inr h), fun h => ordinary (Or.inl h)⟩
  simp only [decodeByte, ne, rejected, false_and, if_false, if_true,
    Bool.true_eq_false, ne_eq, not_false_eq_true, and_self]

theorem decodeByte_abort :
    decodeByte ⟨data, true, true, crc⟩ hdlcFlag =
      (⟨data, false, false, crc⟩, .error .receivedAbortSequence) := by
  simp [decodeByte]

theorem decodeByte_close_empty :
    decodeByte ⟨[], true, false, crc⟩ hdlcFlag =
      (⟨[], false, false, crc⟩, .error .receivedEmptyFrame) := by
  simp [decodeByte]

theorem decodeByte_close_short :
    decodeByte ⟨[byte], true, false, crc⟩ hdlcFlag =
      (⟨[byte], false, false, crc⟩, .error .receivedTooShortFrame) := by
  simp [decodeByte]

/-- The closing flag takes the last byte for the CRC. -/
theorem decodeByte_close {p : Bytes} (nonempty : p ≠ []) :
    decodeByte ⟨p ++ [byte], true, false, crc⟩ hdlcFlag =
      (⟨p, false, false, crcField byte⟩,
        if byte = calculateCrc p then .ok () else .error .crcCheckFailed) := by
  have long : ¬ (p ++ [byte]).length < 2 := by
    have := List.length_pos_iff.mpr nonempty
    rw [List.length_append, List.length_singleton]
    omega
  have kept : (p ++ [byte]).isEmpty = false := List.isEmpty_eq_false_iff.mpr (by simp)
  simp only [decodeByte, long, kept, List.getLastD_concat, List.dropLast_concat, ne_eq,
    crcField_inj, Bool.true_eq_false, Bool.false_eq_true, false_and, and_self, if_false, if_true]
  by_cases match_ : byte = calculateCrc p
  · rw [if_neg (not_not_intro match_), if_pos match_]
  · rw [if_pos match_, if_neg match_]

end Decoding

end HdlcFrame

end Iqrf.Connector.Uart
