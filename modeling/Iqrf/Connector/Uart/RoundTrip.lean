import Iqrf.Connector.Uart.Grammar

/-!
# Encoding and decoding are inverse, except for a reserved CRC

`encode` puts the payload through the stuffing discipline but writes the CRC as
`encodeByte` of it, without the escape character in front. For an ordinary CRC
that is the CRC itself; for `0x7D` and `0x7E` it is the flipped byte, which the
decoder takes for a wrong CRC.
-/

namespace Iqrf.Connector.Uart

open HdlcFrame

theorem not_reserved_encodeByte (byte : UInt8) : ¬ hdlc.Reserved (encodeByte byte) := by
  by_cases reserved : hdlc.Reserved byte
  · rw [encodeByte_of_reserved reserved]
    exact hdlc.not_reserved_flip reserved
  · rwa [encodeByte_of_not_reserved reserved]

theorem encodeByte_eq_self_iff {byte : UInt8} : encodeByte byte = byte ↔ ¬ hdlc.Reserved byte := by
  apply Iff.intro
  · intro same
    rw [← same]
    exact not_reserved_encodeByte byte
  · exact encodeByte_of_not_reserved

/-- The body `encode` writes between the flags. -/
def encodedBody (p : Bytes) : Bytes := hdlc.stuff p ++ [encodeByte (calculateCrc p)]

theorem flag_notMem_encodedBody (p : Bytes) : hdlcFlag ∉ encodedBody p :=
  hdlc.flag_notMem_stuff_concat p (not_reserved_encodeByte _)

theorem unstuff_encodedBody (p : Bytes) :
    hdlc.unstuff (encodedBody p) = some (p ++ [encodeByte (calculateCrc p)]) :=
  hdlc.unstuff_stuff_concat p (not_reserved_encodeByte _)

/-- `encode` of an object that holds a payload. -/
theorem encode_holding {p : Bytes} (nonempty : p ≠ []) :
    (holding p).encode = (holding p, .ok (hdlcFlag :: (encodedBody p ++ [hdlcFlag]))) := by
  simp [encode, holding, nonempty, crcField_ne_unknown, encodeData_eq_stuff, encodedBody]

/-- The encoded body carries the payload exactly when the CRC is not reserved. -/
theorem carries_encodedBody_iff {p : Bytes} (nonempty : p ≠ []) :
    Carries (encodedBody p) p ↔ ¬ hdlc.Reserved (calculateCrc p) := by
  rw [Carries, unstuff_encodedBody, ← encodeByte_eq_self_iff]
  simp [nonempty]

/-- A body that carries `p` is the stuffed payload followed by the stuffed CRC. -/
theorem Carries.body_eq {b p : Bytes} (carries : Carries b p) (free : hdlcFlag ∉ b) :
    b = hdlc.stuff p ++ hdlc.stuffOne (calculateCrc p) := by
  rw [← hdlc.stuff_of_unstuff free carries.2, hdlc.stuff_append, hdlc.stuff_singleton]

/-- A carried body ends in an escape pair exactly when the CRC is reserved. -/
theorem Carries.ends_escaped_iff {b p : Bytes} (carries : Carries b p) (free : hdlcFlag ∉ b) :
    (∃ front x, b = front ++ [hdlcEscape, x]) ↔ hdlc.Reserved (calculateCrc p) := by
  have body := carries.body_eq free
  by_cases reserved : hdlc.Reserved (calculateCrc p)
  · rw [hdlc.stuffOne_of_reserved reserved] at body
    exact ⟨fun _ => reserved, fun _ => ⟨_, _, body⟩⟩
  · rw [hdlc.stuffOne_of_not_reserved reserved] at body
    refine ⟨?_, fun h => absurd h reserved⟩
    intro given
    rcases given with ⟨front, x, ends⟩
    -- the byte before an ordinary CRC is the last one of a stuffed payload
    have last : hdlc.stuff p = front ++ [hdlcEscape] := by
      have both := body.symm.trans ends
      rw [show front ++ [hdlcEscape, x] = (front ++ [hdlcEscape]) ++ [x] by simp] at both
      exact (List.append_inj' both rfl).1
    exact absurd rfl (hdlc.esc_ne_last_of_stuff last)

/-- A carried body is the one `encode` writes exactly when the CRC is not reserved. -/
theorem Carries.eq_encodedBody_iff {b p : Bytes} (carries : Carries b p) (free : hdlcFlag ∉ b) :
    encodedBody p = b ↔ ¬ hdlc.Reserved (calculateCrc p) := by
  apply Iff.intro
  · intro eq
    subst eq
    exact (carries_encodedBody_iff carries.1).mp carries
  · intro ordinary
    rw [carries.body_eq free, encodedBody, encodeByte_of_not_reserved ordinary,
      hdlc.stuffOne_of_not_reserved ordinary]

/-- `HdlcFrame(p).encode()` gives bytes that decode to `p`. -/
def RoundTrips (p : Bytes) : Prop :=
  ∃ frame w, ofData p = .ok frame ∧ frame.encode.2 = .ok w ∧ decodeData w = .ok p

theorem decodeData_frame_eq_ok_iff {b d : Bytes} (free : hdlcFlag ∉ b) :
    decodeData (hdlcFlag :: (b ++ [hdlcFlag])) = .ok d ↔ Carries b d := by
  rw [decodeData_eq_ok_iff]
  apply Iff.intro
  · intro given
    rcases given with ⟨frame, run, -, rfl⟩
    obtain ⟨p, carries, same⟩ := (decode_frame_eq_ok_iff free).mp (decode_eq_ok_iff.mpr run)
    subst same
    exact carries
  · intro carries
    exact ⟨_, strict_frame_of_carries idle_default free carries, rfl, rfl⟩

theorem roundTrips_iff {p : Bytes} (nonempty : p ≠ []) :
    RoundTrips p ↔ ¬ hdlc.Reserved (calculateCrc p) := by
  rw [← carries_encodedBody_iff nonempty, ← decodeData_frame_eq_ok_iff (flag_notMem_encodedBody p)]
  apply Iff.intro
  · intro given
    rcases given with ⟨frame, w, constructed, encoded, decoded⟩
    rw [ofData_of_ne_nil nonempty] at constructed
    cases constructed
    rw [encode_holding nonempty] at encoded
    cases encoded
    exact decoded
  · intro decoded
    exact ⟨_, _, ofData_of_ne_nil nonempty, by rw [encode_holding nonempty], decoded⟩

theorem encode_decoded_iff {b : Bytes} {frame : HdlcFrame} (free : hdlcFlag ∉ b)
    (accepted : decode (hdlcFlag :: (b ++ [hdlcFlag])) = .ok frame) :
    frame.encode.2 = .ok (hdlcFlag :: (b ++ [hdlcFlag])) ↔
      ¬ ∃ front x, b = front ++ [hdlcEscape, x] := by
  obtain ⟨p, carries, same⟩ := (decode_frame_eq_ok_iff free).mp accepted
  subst same
  rw [carries.ends_escaped_iff free, encode_holding carries.1, ← carries.eq_encodedBody_iff free]
  simp

/-- **Where encode and decode are inverse.** A non-empty payload comes back from
its own encoding exactly when its CRC is neither `0x7D` nor `0x7E`; an accepted
frame is encoded to the same bytes exactly when its last body byte, the CRC, was
not escaped. -/
theorem encode_decode_inverse_iff (p b : Bytes) (nonempty : p ≠ []) (free : hdlcFlag ∉ b) :
    (RoundTrips p ↔ calculateCrc p ≠ hdlcFlag ∧ calculateCrc p ≠ hdlcEscape) ∧
      ∀ frame : HdlcFrame, decode (hdlcFlag :: (b ++ [hdlcFlag])) = .ok frame →
        (frame.encode.2 = .ok (hdlcFlag :: (b ++ [hdlcFlag])) ↔
          ¬ ∃ front x, b = front ++ [hdlcEscape, x]) := by
  refine ⟨?_, fun frame accepted => encode_decoded_iff free accepted⟩
  rw [roundTrips_iff nonempty, hdlc_reserved_iff, not_or]

/-- The payload `7E`, which is escaped, comes back, and its frame is encoded to itself. -/
theorem encode_decode_inverse_escaped :
    RoundTrips [0x7E] ∧ (holding [0x7E]).encode.2 = .ok [0x7E, 0x7D, 0x5E, 0xD2, 0x7E] := by
  have inverse := encode_decode_inverse_iff [0x7E] [0x7D, 0x5E, 0xD2] (by decide) (by decide)
  refine ⟨inverse.1.mpr (by decide), (inverse.2 (holding [0x7E]) rfl).mpr ?_⟩
  intro given
  rcases given with ⟨front, x, escaped⟩
  have reversed := congrArg List.reverse escaped
  simp [hdlcEscape] at reversed

/-- The CRC of `F5` is `7E`: its encoding is rejected, and the frame that the
decoder does accept for it is not the encoded one. -/
theorem encode_decode_not_inverse :
    ¬ RoundTrips [0xF5] ∧
      decode [0x7E, 0xF5, 0x7D, 0x5E, 0x7E] = .ok (holding [0xF5]) ∧
      (holding [0xF5]).encode.2 ≠ .ok [0x7E, 0xF5, 0x7D, 0x5E, 0x7E] := by
  refine ⟨?_, rfl, by decide⟩
  rw [roundTrips_iff (by decide), not_not]
  decide

end Iqrf.Connector.Uart
