import Iqrf.Connector.Uart.HdlcFrame

/-!
# The decoder over bodies and frames

`decodeByte` over the flag-free body of an open frame is the stuffing
discipline's reader: with exceptions caught it gathers `hdlc.salvage`
(`caught_body`), with the first exception let out it ends normally on exactly
the bodies that can be read (`strict_body_of_unstuff`, `strict_body_of_broken`).
`Carries b p` then says which bodies a closing flag accepts, and `holding p` is
the object it leaves, the very one `HdlcFrame(p)` constructs.
-/

namespace Iqrf.Connector.Uart

open HdlcFrame

/-- Between frames, with no escape open. -/
def HdlcFrame.Idle (frame : HdlcFrame) : Prop :=
  frame.decoding = false ∧ frame.escape = false

/-- The object that holds the payload `p` with its verified CRC. -/
def HdlcFrame.holding (p : Bytes) : HdlcFrame :=
  { data := p, crc := crcField (calculateCrc p) }

/-- A closing flag takes the body `b` for the payload `p`: `p` is not empty and
`b` is well escaped and unescapes to `p` and the CRC of `p`. -/
def Carries (b p : Bytes) : Prop :=
  p ≠ [] ∧ hdlc.unstuff b = some (p ++ [calculateCrc p])

/-- A body carries at most one payload. -/
theorem Carries.unique {b p q : Bytes} (hp : Carries b p) (hq : Carries b q) : p = q := by
  have same := Option.some.inj (hp.2.symm.trans hq.2)
  exact (List.append_inj' same rfl).1

@[simp] theorem HdlcFrame.holding_data (p : Bytes) : (holding p).data = p := rfl

theorem HdlcFrame.idle_holding (p : Bytes) : (holding p).Idle := ⟨rfl, rfl⟩

theorem HdlcFrame.idle_default : Idle {} := ⟨rfl, rfl⟩

theorem HdlcFrame.ofData_of_ne_nil {p : Bytes} (nonempty : p ≠ []) :
    ofData p = .ok (holding p) := by
  simp [ofData, holding, nonempty]

theorem HdlcFrame.decode_eq_ok_iff {s : Bytes} {frame : HdlcFrame} :
    decode s = .ok frame ↔ Feed.strict decodeByte {} s = (frame, .ok ()) := by
  unfold decode
  split <;> rename_i h <;> simp [h]

theorem HdlcFrame.getData_eq_ok_iff {frame : HdlcFrame} {d : Bytes} :
    frame.getData = .ok d ↔ frame.decoding = false ∧ frame.data = d := by
  unfold getData
  cases frame.decoding <;> simp

/-! ## Bodies -/

section Body

variable {b : Bytes}

theorem notMem_of_cons {a : UInt8} {rest : Bytes} (free : hdlcFlag ∉ a :: rest) :
    a ≠ hdlcFlag ∧ hdlcFlag ∉ rest := by
  simpa [eq_comm] using free

/-- With exceptions caught, an open frame gathers what can be salvaged. -/
theorem caught_body (free : hdlcFlag ∉ b) (data : Bytes) (crc : Int16) :
    Feed.caught decodeByte ⟨data, true, false, crc⟩ b =
      ⟨data ++ hdlc.salvage b, true, hdlc.Dangling b, crc⟩ := by
  induction b using hdlc.body_induction generalizing data with
  | nil => simp
  | plain a rest ne ih =>
    obtain ⟨neFlag, freeRest⟩ := notMem_of_cons free
    rw [Feed.caught_cons, decodeByte_plain neFlag ne, ih freeRest,
      hdlc.salvage_cons_of_ne ne, hdlc.dangling_cons_of_ne ne, List.append_assoc,
      List.singleton_append]
  | open_ =>
    rw [Feed.caught_cons, hdlc_esc, decodeByte_escape, ← hdlc_esc, hdlc.salvage_esc,
      hdlc.dangling_esc, List.append_nil, Feed.caught_nil]
  | pair x rest ih =>
    obtain ⟨-, freeTail⟩ := notMem_of_cons free
    obtain ⟨neFlag, freeRest⟩ := notMem_of_cons freeTail
    rw [Feed.caught_cons, hdlc_esc, decodeByte_escape, Feed.caught_cons, ← hdlc_esc,
      hdlc.salvage_esc_cons, hdlc.dangling_esc_cons]
    by_cases reserved : hdlc.Reserved (hdlc.flip x)
    · rw [decodeByte_escaped neFlag reserved, ih freeRest, if_pos reserved,
        List.append_assoc, List.singleton_append]
    · rw [decodeByte_invalid neFlag reserved, ih freeRest, if_neg reserved]

/-- A body that can be read is gathered without an exception. -/
theorem strict_body_of_unstuff {q : Bytes} (free : hdlcFlag ∉ b)
    (read : hdlc.unstuff b = some q) (data : Bytes) (crc : Int16) :
    Feed.strict decodeByte ⟨data, true, false, crc⟩ b =
      (⟨data ++ q, true, false, crc⟩, .ok ()) := by
  induction b using hdlc.body_induction generalizing data q with
  | nil => cases read; simp
  | plain a rest ne ih =>
    obtain ⟨neFlag, freeRest⟩ := notMem_of_cons free
    rw [hdlc.unstuff_cons_of_ne ne] at read
    obtain ⟨r, hr, same⟩ := Option.map_eq_some_iff.mp read
    subst same
    rw [Feed.strict_cons_of_ok (decodeByte_plain neFlag ne), ih freeRest hr,
      List.append_assoc, List.singleton_append]
  | open_ =>
    rw [hdlc.unstuff_esc] at read
    cases read
  | pair x rest ih =>
    obtain ⟨-, freeTail⟩ := notMem_of_cons free
    obtain ⟨neFlag, freeRest⟩ := notMem_of_cons freeTail
    rw [hdlc.unstuff_esc_cons] at read
    split at read
    · rename_i reserved
      obtain ⟨r, hr, same⟩ := Option.map_eq_some_iff.mp read
      subst same
      rw [hdlc_esc, Feed.strict_cons_of_ok decodeByte_escape,
        Feed.strict_cons_of_ok (decodeByte_escaped neFlag reserved), ih freeRest hr,
        List.append_assoc, List.singleton_append]
    · cases read

/-- A body that cannot be read throws, or leaves an escape open at its end. -/
theorem strict_body_of_broken (free : hdlcFlag ∉ b) (broken : hdlc.unstuff b = none)
    (data : Bytes) (crc : Int16) :
    (∃ frame, Feed.strict decodeByte ⟨data, true, false, crc⟩ b =
        (frame, .error .invalidEscapeSequence)) ∨
      ∃ kept, Feed.strict decodeByte ⟨data, true, false, crc⟩ b =
        (⟨kept, true, true, crc⟩, .ok ()) := by
  induction b using hdlc.body_induction generalizing data with
  | nil => cases broken
  | plain a rest ne ih =>
    obtain ⟨neFlag, freeRest⟩ := notMem_of_cons free
    rw [hdlc.unstuff_cons_of_ne ne, Option.map_eq_none_iff] at broken
    rw [Feed.strict_cons_of_ok (decodeByte_plain neFlag ne)]
    exact ih freeRest broken _
  | open_ => exact Or.inr ⟨data, Feed.strict_cons_of_ok decodeByte_escape []⟩
  | pair x rest ih =>
    obtain ⟨-, freeTail⟩ := notMem_of_cons free
    obtain ⟨neFlag, freeRest⟩ := notMem_of_cons freeTail
    rw [hdlc_esc, Feed.strict_cons_of_ok decodeByte_escape]
    by_cases reserved : hdlc.Reserved (hdlc.flip x)
    · rw [hdlc.unstuff_esc_cons, if_pos reserved, Option.map_eq_none_iff] at broken
      rw [Feed.strict_cons_of_ok (decodeByte_escaped neFlag reserved)]
      exact ih freeRest broken _
    · exact Or.inl ⟨_, Feed.strict_cons_of_error (decodeByte_invalid neFlag reserved) rest⟩

end Body

/-! ## Junk and frames -/

/-- A closed frame in front of a stream. -/
theorem frame_append (b rest : Bytes) :
    hdlcFlag :: (b ++ hdlcFlag :: rest) = (hdlcFlag :: (b ++ [hdlcFlag])) ++ rest := by
  rw [List.cons_append, List.append_assoc, List.singleton_append]

section Frame

variable {frame : HdlcFrame} {b : Bytes}

/-- Outside a frame nothing but a flag has an effect. -/
theorem strict_junk (idle : frame.decoding = false) (free : hdlcFlag ∉ b) :
    Feed.strict decodeByte frame b = (frame, .ok ()) := by
  induction b with
  | nil => rfl
  | cons a rest ih =>
    obtain ⟨ne, freeRest⟩ := notMem_of_cons free
    rw [Feed.strict_cons_of_ok (decodeByte_idle idle ne), ih freeRest]

/-- The opening flag of an idle decoder. -/
theorem decodeByte_open_of_idle (idle : frame.Idle) :
    decodeByte frame hdlcFlag = (⟨[], true, false, -1⟩, .ok ()) := by
  rw [decodeByte_open idle.1, idle.2]

/-- A frame whose body carries `p` is accepted, and the object holds `p`. -/
theorem strict_frame_of_carries {p : Bytes} (idle : frame.Idle) (free : hdlcFlag ∉ b)
    (carries : Carries b p) :
    Feed.strict decodeByte frame (hdlcFlag :: (b ++ [hdlcFlag])) = (holding p, .ok ()) := by
  have close := @decodeByte_close (-1) (calculateCrc p) p carries.1
  rw [if_pos rfl] at close
  rw [Feed.strict_cons_of_ok (decodeByte_open_of_idle idle),
    Feed.strict_append_of_ok (strict_body_of_unstuff free carries.2 [] (-1)), List.nil_append,
    Feed.strict_cons_of_ok close, Feed.strict_nil]
  rfl

/-- An accepted frame's body carries what the object holds. -/
theorem carries_of_strict_frame {t : HdlcFrame} (idle : frame.Idle) (free : hdlcFlag ∉ b)
    (h : Feed.strict decodeByte frame (hdlcFlag :: (b ++ [hdlcFlag])) = (t, .ok ())) :
    ∃ p, Carries b p ∧ t = holding p := by
  rw [Feed.strict_cons_of_ok (decodeByte_open_of_idle idle)] at h
  rcases read : hdlc.unstuff b with _ | q
  · rcases strict_body_of_broken free read [] (-1) with ⟨t', run⟩ | ⟨kept, run⟩
    · rw [Feed.strict_append_of_error run] at h
      cases h
    · rw [Feed.strict_append_of_ok run, Feed.strict_cons_of_error decodeByte_abort] at h
      cases h
  · rw [Feed.strict_append_of_ok (strict_body_of_unstuff free read [] (-1)),
      List.nil_append] at h
    rcases List.eq_nil_or_concat q with rfl | ⟨p, x, rfl⟩
    · rw [Feed.strict_cons_of_error decodeByte_close_empty] at h
      cases h
    · rw [List.concat_eq_append] at h read
      by_cases nonempty : p = []
      · subst nonempty
        rw [List.nil_append, Feed.strict_cons_of_error decodeByte_close_short] at h
        cases h
      · have close := @decodeByte_close (-1) x p nonempty
        split at close
        · rename_i crc
          subst crc
          rw [Feed.strict_cons_of_ok close] at h
          cases h
          exact ⟨p, ⟨nonempty, read⟩, rfl⟩
        · rw [Feed.strict_cons_of_error close] at h
          cases h

/-- `decode` accepts a single frame exactly when its body carries a payload. -/
theorem decode_frame_eq_ok_iff (free : hdlcFlag ∉ b) :
    decode (hdlcFlag :: (b ++ [hdlcFlag])) = .ok frame ↔
      ∃ p, Carries b p ∧ frame = holding p := by
  rw [decode_eq_ok_iff]
  apply Iff.intro
  · exact carries_of_strict_frame idle_default free
  · intro given
    rcases given with ⟨p, carries, rfl⟩
    exact strict_frame_of_carries idle_default free carries

/-- A frame that is not closed leaves the decoder inside it. -/
theorem decoding_of_strict_open {t : HdlcFrame} (idle : frame.Idle) (free : hdlcFlag ∉ b)
    (h : Feed.strict decodeByte frame (hdlcFlag :: b) = (t, .ok ())) : t.decoding = true := by
  rw [Feed.strict_cons_of_ok (decodeByte_open_of_idle idle)] at h
  have same := Feed.caught_of_strict h
  rw [caught_body free] at same
  rw [← same]

end Frame

/-! ## Well-formed frames -/

/-- The well-formed frame of a payload. -/
def frameBytes (p : Bytes) : Bytes :=
  hdlcFlag :: (encodeData (p ++ [calculateCrc p]) ++ [hdlcFlag])

/-- The escaped payload and CRC carry the payload. -/
theorem carries_encodeData {p : Bytes} (nonempty : p ≠ []) :
    Carries (encodeData (p ++ [calculateCrc p])) p :=
  ⟨nonempty, by rw [encodeData_eq_stuff, hdlc.unstuff_stuff]⟩

theorem flag_notMem_encodeData (data : Bytes) : hdlcFlag ∉ encodeData data := by
  rw [encodeData_eq_stuff]
  exact hdlc.flag_notMem_stuff data

/-- An idle decoder takes a well-formed frame and holds its payload. -/
theorem strict_frameBytes {frame : HdlcFrame} {p : Bytes} (idle : frame.Idle)
    (nonempty : p ≠ []) :
    Feed.strict decodeByte frame (frameBytes p) = (holding p, .ok ()) :=
  strict_frame_of_carries idle (flag_notMem_encodeData _) (carries_encodeData nonempty)

end Iqrf.Connector.Uart
