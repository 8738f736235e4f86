import Iqrf.Connector.Uart.Reachable
import Iqrf.Connector.Uart.RoundTrip

/-!
# The encoded bytes cannot be mistaken

`encode` writes two flags and between them a body that can be read: whatever the
payload and whatever the CRC field holds, the byte `encodeByte` gives is not
reserved. So a decoder in front of a part of the encoded bytes neither closes a
frame nor throws. In the other direction, a payload has one wire form: what
`decode` accepts is determined by the data it hands out.
-/

namespace Iqrf.Connector.Uart

open HdlcFrame

/-! ## The shape of what `encode` returns -/

/-- What `encode` writes between the flags, for any CRC byte. -/
theorem encode_eq_ok {frame : HdlcFrame} {w : Bytes} (encoded : frame.encode.2 = .ok w) :
    ∃ crc, w = hdlcFlag :: ((hdlc.stuff frame.data ++ [encodeByte crc]) ++ [hdlcFlag]) := by
  unfold encode at encoded
  split at encoded
  · cases encoded
  · split at encoded
    · cases encoded
    · dsimp only at encoded
      cases encoded
      exact ⟨_, by rw [encodeData_eq_stuff, List.cons_append, List.append_assoc,
        List.singleton_append]⟩

/-- Escapes that are complete in the body are complete between the flags. -/
theorem wellEscaped_framed {b : Bytes} (escaped : WellEscaped b) :
    WellEscaped (hdlcFlag :: (b ++ [hdlcFlag])) := by
  rw [wellEscaped_cons_of_ne (by decide)]
  intro pre post eq
  rcases List.append_eq_append_iff.mp eq with ⟨front, rfl, last⟩ | ⟨rest, rfl, last⟩
  · -- the closing flag is no escape character
    have member : hdlcEscape ∈ [hdlcFlag] := by
      rw [last]
      exact List.mem_append_right _ List.mem_cons_self
    exact absurd (List.mem_singleton.mp member) (by decide)
  · rcases rest with _ | ⟨a, rest⟩
    · exact absurd (List.cons.inj last).1 (by decide)
    · rw [List.cons_append] at last
      obtain ⟨same, tail⟩ := List.cons.inj last
      subst same
      obtain ⟨more, pair⟩ := escaped pre rest rfl
      rw [tail]
      rcases pair with pair | pair
      · exact ⟨more ++ [hdlcFlag], Or.inl (by rw [pair, List.cons_append])⟩
      · exact ⟨more ++ [hdlcFlag], Or.inr (by rw [pair, List.cons_append])⟩

/-- A well-escaped list holds no other pair that begins with an escape character. -/
theorem WellEscaped.pair {w : Bytes} {x : UInt8} (escaped : WellEscaped w)
    (within : [hdlcEscape, x] <:+: w) : x = 0x5D ∨ x = 0x5E := by
  obtain ⟨pre, post, eq⟩ := within
  have split_ : w = pre ++ hdlcEscape :: (x :: post) := by
    rw [← eq, List.append_assoc]
    rfl
  obtain ⟨rest, pair⟩ := escaped pre (x :: post) split_
  rcases pair with pair | pair
  · exact Or.inl (List.cons.inj pair).1
  · exact Or.inr (List.cons.inj pair).1

/-- A proper prefix of a frame whose body can be read is taken without an exception
and leaves the decoder inside the frame. -/
theorem strict_proper_prefix {frame : HdlcFrame} {b q v : Bytes} (idle : frame.Idle)
    (free : hdlcFlag ∉ b) (read : hdlc.unstuff b = some q)
    (le : v <+: hdlcFlag :: (b ++ [hdlcFlag])) (proper : v ≠ hdlcFlag :: (b ++ [hdlcFlag])) :
    ∃ t, Feed.strict decodeByte frame v = (t, .ok ()) ∧ (v ≠ [] → t.decoding = true) := by
  rcases v with _ | ⟨first, v⟩
  · exact ⟨frame, rfl, fun nonempty => absurd rfl nonempty⟩
  · obtain ⟨same, inside⟩ := List.cons_prefix_cons.mp le
    subst same
    have inBody : v <+: b := by
      rcases List.prefix_concat_iff.mp inside with whole | inside
      · exact absurd (by rw [whole]) proper
      · exact inside
    obtain ⟨rest, same⟩ := inBody
    subst same
    have freeFront : hdlcFlag ∉ v := fun member => free (List.mem_append_left rest member)
    have whole := strict_body_of_unstuff free read [] (-1)
    obtain ⟨t, run⟩ := Feed.strict_ok_of_append whole
    rw [← Feed.strict_cons_of_ok (decodeByte_open_of_idle idle)] at run
    exact ⟨t, run, fun _ => decoding_of_strict_open idle freeFront run⟩

/-- No part of `w` can be taken for a frame, an abort or a broken escape. -/
structure Transparent (w : Bytes) : Prop where
  flags : ∃ body, w = hdlcFlag :: (body ++ [hdlcFlag]) ∧ hdlcFlag ∉ body
  escapes : WellEscaped w
  prefixes : ∀ v, v <+: w → v ≠ w → ∀ frame : HdlcFrame, frame.Reachable →
    frame.decoding = false →
    ∃ t, Feed.strict decodeByte frame v = (t, .ok ()) ∧ (v ≠ [] → t.decoding = true)
  noAbort : ¬ [hdlcEscape, hdlcFlag] <:+: w
  noInvalidEscape : ∀ x, [hdlcEscape, x] <:+: w → x = 0x5D ∨ x = 0x5E

/-- **No payload can forge framing.** Whatever an object holds, what `encode` returns
begins and ends with its only flags, and its escapes are complete. -/
theorem transparent_of_encode (frame : HdlcFrame) {w : Bytes}
    (encoded : frame.encode.2 = .ok w) : Transparent w := by
  obtain ⟨crc, same⟩ := encode_eq_ok encoded
  subst same
  have free := hdlc.flag_notMem_stuff_concat frame.data (not_reserved_encodeByte crc)
  have read := hdlc.unstuff_stuff_concat frame.data (not_reserved_encodeByte crc)
  have escaped := wellEscaped_framed (unstuff_eq_some_iff.mp read).1
  refine ⟨⟨_, rfl, free⟩, escaped, ?_, ?_, fun x within => escaped.pair within⟩
  · intro v le proper decoder reachable closed
    exact strict_proper_prefix (reachable.idle closed) free read le proper
  · intro within
    rcases escaped.pair within with same | same <;> exact absurd same (by decide)

/-- A payload of reserved bytes with a reserved CRC taken over from a rejected frame. -/
theorem transparent_of_encode_rejected :
    Transparent [0x7E, 0x7D, 0x5E, 0x7D, 0x5D, 0x5E, 0x7E] :=
  transparent_of_encode { data := [0x7E, 0x7D], crc := crcField 0x7E } rfl

/-! ## One wire form for each payload -/

/-- An opening flag, a body without a raw flag and a closing flag. -/
def Enclosed (s : Bytes) : Prop := ∃ b, s = hdlcFlag :: (b ++ [hdlcFlag]) ∧ hdlcFlag ∉ b

/-- What `decode` accepts is the wire form of what it hands out. -/
theorem enclosed_eq_of_decode {s d : Bytes} {frame : HdlcFrame} (enclosed : Enclosed s)
    (accepted : decode s = .ok frame) (handed : frame.getData = .ok d) : s = frameBytes d := by
  obtain ⟨b, rfl, free⟩ := enclosed
  obtain ⟨p, carries, same⟩ := (decode_frame_eq_ok_iff free).mp accepted
  subst same
  have data : p = d := (getData_eq_ok_iff.mp handed).2
  subst data
  rw [frameBytes, encodeData_eq_stuff, hdlc.stuff_append, hdlc.stuff_singleton,
    ← carries.body_eq free]

/-- **The wire form of a payload is unique.** Two accepted frames that hand out the
same data are the same bytes. -/
theorem wire_form_unique {s₁ s₂ : Bytes} {f₁ f₂ : HdlcFrame} (enclosed₁ : Enclosed s₁)
    (enclosed₂ : Enclosed s₂) (accepted₁ : decode s₁ = .ok f₁) (accepted₂ : decode s₂ = .ok f₂)
    (same : f₁.getData = f₂.getData) : s₁ = s₂ := by
  obtain ⟨b, framed, free⟩ := enclosed₁
  obtain ⟨p, carries, holds⟩ := (decode_frame_eq_ok_iff free).mp (framed ▸ accepted₁)
  have handed : f₁.getData = .ok p := getData_eq_ok_iff.mpr (by rw [holds]; exact ⟨rfl, rfl⟩)
  rw [enclosed_eq_of_decode ⟨b, framed, free⟩ accepted₁ handed,
    enclosed_eq_of_decode enclosed₂ accepted₂ (same.symm.trans handed)]

/-- The frame of `F5`, whose CRC has to be escaped, and itself. -/
theorem wire_form_unique_escaped :
    ([0x7E, 0xF5, 0x7D, 0x5E, 0x7E] : Bytes) = frameBytes [0xF5] :=
  wire_form_unique ⟨[0xF5, 0x7D, 0x5E], rfl, by decide⟩ ⟨[0xF5, 0x7D, 0x5E], by decide, by decide⟩
    (rfl : _ = Except.ok (holding [0xF5])) (rfl : _ = Except.ok (holding [0xF5])) rfl

end Iqrf.Connector.Uart
