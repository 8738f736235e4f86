import Iqrf.Connector.Uart.Decoder

/-!
# The frame grammar, and that the decoder accepts exactly it

The grammar is stated without the decoder: `WellEscaped` and `unescape` say what
an escape is, a `WireFrame` is a body that unescapes to a payload and its CRC,
and a `Transmission` is junk and frames in turn. `decodeData_wire` runs the
decoder over a transmission, `exists_continuation` finds the transmission that
whatever the decoder takes is the beginning of.
-/

namespace Iqrf.Connector.Uart

open HdlcFrame

/-! ## Escapes -/

/-- Every `0x7D` is followed by `0x5D` or `0x5E`. -/
def WellEscaped (b : Bytes) : Prop :=
  ∀ pre post, b = pre ++ hdlcEscape :: post →
    ∃ rest, post = 0x5D :: rest ∨ post = 0x5E :: rest

/-- `7D 5D` stands for `7D`, `7D 5E` for `7E`, every other byte for itself. -/
def unescape : Bytes → Bytes
  | [] => []
  | a :: rest =>
    if a = 0x7D then
      match rest with
      | 0x5D :: rest => 0x7D :: unescape rest
      | 0x5E :: rest => 0x7E :: unescape rest
      | rest => 0x7D :: unescape rest
    else a :: unescape rest

theorem hdlc_reserved_flip_iff {x : UInt8} :
    hdlc.Reserved (hdlc.flip x) ↔ x = 0x5D ∨ x = 0x5E := by
  apply Iff.intro
  · intro given
    rcases given with h | h
    · exact Or.inr (hdlc.flip_injective (b := 0x5E) (h.trans (by decide)))
    · exact Or.inl (hdlc.flip_injective (b := 0x5D) (h.trans (by decide)))
  · rintro (rfl | rfl) <;> decide

theorem WellEscaped.tail {a : UInt8} {b : Bytes} (h : WellEscaped (a :: b)) : WellEscaped b := by
  intro pre post eq
  exact h (a :: pre) post (by rw [eq, List.cons_append])

theorem wellEscaped_cons_of_ne {a : UInt8} {b : Bytes} (ne : a ≠ hdlcEscape) :
    WellEscaped (a :: b) ↔ WellEscaped b := by
  refine ⟨WellEscaped.tail, fun h pre post eq => ?_⟩
  rcases pre with _ | ⟨a', pre⟩
  · exact absurd (List.cons.inj eq).1 ne
  · exact h pre post (List.cons.inj eq).2

theorem wellEscaped_pair {x : UInt8} {b : Bytes} (hx : x = 0x5D ∨ x = 0x5E) :
    WellEscaped (hdlcEscape :: x :: b) ↔ WellEscaped b := by
  have ne : x ≠ hdlcEscape := by rcases hx with rfl | rfl <;> decide
  refine ⟨fun h => h.tail.tail, fun h pre post eq => ?_⟩
  rcases pre with _ | ⟨a, pre⟩
  · have same : x :: b = post := (List.cons.inj eq).2
    rcases hx with rfl | rfl
    · exact ⟨b, Or.inl same.symm⟩
    · exact ⟨b, Or.inr same.symm⟩
  · exact (wellEscaped_cons_of_ne ne).mpr h pre post (List.cons.inj eq).2

theorem not_wellEscaped_pair {x : UInt8} {b : Bytes} (hx : ¬ (x = 0x5D ∨ x = 0x5E)) :
    ¬ WellEscaped (hdlcEscape :: x :: b) := by
  intro h
  obtain ⟨rest, eq | eq⟩ := h [] (x :: b) rfl
  · exact hx (Or.inl (List.cons.inj eq).1)
  · exact hx (Or.inr (List.cons.inj eq).1)

theorem unescape_cons_of_ne {a : UInt8} (ne : a ≠ hdlcEscape) (rest : Bytes) :
    unescape (a :: rest) = a :: unescape rest := by
  rw [unescape.eq_def]
  exact if_neg ne

/-- The grammar's escapes are those of the stuffing discipline. -/
theorem unstuff_eq_some_iff {b q : Bytes} :
    hdlc.unstuff b = some q ↔ WellEscaped b ∧ unescape b = q := by
  induction b using hdlc.body_induction generalizing q with
  | nil =>
    refine ⟨fun h => ⟨fun pre post eq => ?_, Option.some.inj h⟩, fun h => congrArg some h.2⟩
    exact absurd eq (by simp)
  | plain a rest ne ih =>
    rw [hdlc.unstuff_cons_of_ne ne, wellEscaped_cons_of_ne ne, unescape_cons_of_ne ne]
    apply Iff.intro
    · intro h
      obtain ⟨r, hr, same⟩ := Option.map_eq_some_iff.mp h
      subst same
      exact ⟨(ih.mp hr).1, by rw [(ih.mp hr).2]⟩
    · intro given
      rcases given with ⟨wellEscaped, rfl⟩
      rw [ih.mpr ⟨wellEscaped, rfl⟩, Option.map_some]
  | open_ =>
    rw [hdlc.unstuff_esc]
    refine ⟨(fun h => by cases h), fun h => ?_⟩
    obtain ⟨rest, eq | eq⟩ := h.1 [] [] rfl
    · cases eq
    · cases eq
  | pair x rest ih =>
    rw [hdlc.unstuff_esc_cons]
    by_cases hx : x = 0x5D ∨ x = 0x5E
    · have read : unescape (hdlc.esc :: x :: rest) = hdlc.flip x :: unescape rest := by
        rcases hx with rfl | rfl <;> rfl
      rw [if_pos (hdlc_reserved_flip_iff.mpr hx), hdlc_esc, wellEscaped_pair hx, ← hdlc_esc, read]
      apply Iff.intro
      · intro h
        obtain ⟨r, hr, same⟩ := Option.map_eq_some_iff.mp h
        subst same
        exact ⟨(ih.mp hr).1, by rw [(ih.mp hr).2]⟩
      · intro given
        rcases given with ⟨wellEscaped, rfl⟩
        rw [ih.mpr ⟨wellEscaped, rfl⟩, Option.map_some]
    · rw [if_neg (fun h => hx (hdlc_reserved_flip_iff.mp h))]
      exact ⟨(fun h => by cases h), fun h => absurd h.1 (not_wellEscaped_pair hx)⟩

/-! ## Transmissions -/

/-- A frame on the wire and the bytes up to the next opening flag. -/
structure WireFrame where
  payload : Bytes
  body : Bytes
  gap : Bytes
  payload_ne_nil : payload ≠ []
  body_free : hdlcFlag ∉ body
  gap_free : hdlcFlag ∉ gap
  wellEscaped : WellEscaped body
  unescape_body : unescape body = payload ++ [calculateCrc payload]

/-- `j0 7E b1 7E j1 … 7E bn 7E jn`. -/
structure Transmission where
  lead : Bytes
  frames : List WireFrame
  lead_free : hdlcFlag ∉ lead

theorem WireFrame.carries (f : WireFrame) : Carries f.body f.payload :=
  ⟨f.payload_ne_nil, unstuff_eq_some_iff.mpr ⟨f.wellEscaped, f.unescape_body⟩⟩

/-- The frame that a carried payload makes. -/
def WireFrame.ofCarries {body gap payload : Bytes} (carries : Carries body payload)
    (body_free : hdlcFlag ∉ body) (gap_free : hdlcFlag ∉ gap) : WireFrame where
  payload := payload
  body := body
  gap := gap
  payload_ne_nil := carries.1
  body_free := body_free
  gap_free := gap_free
  wellEscaped := (unstuff_eq_some_iff.mp carries.2).1
  unescape_body := (unstuff_eq_some_iff.mp carries.2).2

/-- The bytes of the frames, each with the gap after it. -/
def framesWire (frames : List WireFrame) : Bytes :=
  frames.flatMap fun f => hdlcFlag :: (f.body ++ hdlcFlag :: f.gap)

theorem framesWire_cons (f : WireFrame) (frames : List WireFrame) :
    framesWire (f :: frames) =
      hdlcFlag :: (f.body ++ hdlcFlag :: (f.gap ++ framesWire frames)) := by
  simp [framesWire]

/-- The bytes of a transmission. -/
def Transmission.wire (t : Transmission) : Bytes := t.lead ++ framesWire t.frames

/-- The payload of the last frame, empty when there is none. -/
def Transmission.lastPayload (t : Transmission) : Bytes :=
  (t.frames.getLast?.map WireFrame.payload).getD []

/-- `HdlcFrame::decode` followed by `getData`. -/
def decodeData (s : Bytes) : Except LogicError Bytes :=
  match decode s with
  | .ok frame => frame.getData
  | .error e => .error e

theorem decodeData_eq_ok_iff {s d : Bytes} :
    decodeData s = .ok d ↔ ∃ frame : HdlcFrame,
      Feed.strict decodeByte {} s = (frame, .ok ()) ∧ frame.decoding = false ∧ frame.data = d := by
  unfold decodeData
  apply Iff.intro
  · intro h
    split at h
    · rename_i frame decoded
      exact ⟨frame, decode_eq_ok_iff.mp decoded, getData_eq_ok_iff.mp h⟩
    · cases h
  · intro given
    rcases given with ⟨frame, run, idle⟩
    rw [decode_eq_ok_iff.mpr run]
    exact getData_eq_ok_iff.mpr idle

/-- What the object holds after frames: the payload of the last one. -/
def afterFrames (frame : HdlcFrame) (frames : List WireFrame) : HdlcFrame :=
  (frames.getLast?.map (holding ·.payload)).getD frame

theorem afterFrames_cons (frame : HdlcFrame) (f : WireFrame) (frames : List WireFrame) :
    afterFrames frame (f :: frames) = afterFrames (holding f.payload) frames := by
  cases frames <;> rfl

/-- The decoder runs through any frames and gaps without an exception. -/
theorem strict_framesWire {frame : HdlcFrame} (idle : frame.Idle) (frames : List WireFrame) :
    Feed.strict decodeByte frame (framesWire frames) = (afterFrames frame frames, .ok ()) := by
  induction frames generalizing frame with
  | nil => rfl
  | cons f frames ih =>
    rw [framesWire_cons, frame_append,
      Feed.strict_append_of_ok (strict_frame_of_carries idle f.body_free f.carries),
      Feed.strict_append_of_ok (strict_junk (idle_holding _).1 f.gap_free),
      ih (idle_holding _), afterFrames_cons]

/-- A transmission decodes to its last payload. -/
theorem decodeData_wire (t : Transmission) : decodeData t.wire = .ok t.lastPayload := by
  refine decodeData_eq_ok_iff.mpr ⟨afterFrames {} t.frames, ?_, ?_⟩
  · rw [Transmission.wire, Feed.strict_append_of_ok (strict_junk rfl t.lead_free)]
    exact strict_framesWire idle_default t.frames
  · unfold afterFrames Transmission.lastPayload
    cases t.frames.getLast? <;> exact ⟨rfl, rfl⟩

/-- An open body that the decoder has taken so far can be continued to one that can be
read. -/
theorem exists_readable {b data : Bytes} {crc : Int16} {t : HdlcFrame} (free : hdlcFlag ∉ b)
    (h : Feed.strict decodeByte ⟨data, true, false, crc⟩ b = (t, .ok ())) :
    ∃ more q, hdlcFlag ∉ b ++ more ∧ hdlc.unstuff (b ++ more) = some q := by
  induction b using hdlc.body_induction generalizing data with
  | nil => exact ⟨[], [], by simp, rfl⟩
  | plain a rest ne ih =>
    obtain ⟨neFlag, freeRest⟩ := notMem_of_cons free
    rw [Feed.strict_cons_of_ok (decodeByte_plain neFlag ne)] at h
    obtain ⟨more, q, free', read⟩ := ih freeRest h
    refine ⟨more, a :: q, ?_, ?_⟩
    · rw [List.cons_append, List.mem_cons, not_or]
      exact ⟨neFlag.symm, free'⟩
    · rw [List.cons_append, hdlc.unstuff_cons_of_ne ne, read, Option.map_some]
  | open_ => exact ⟨[0x5D], [hdlcEscape], by decide, rfl⟩
  | pair x rest ih =>
    obtain ⟨neEscape, freeTail⟩ := notMem_of_cons free
    obtain ⟨neFlag, freeRest⟩ := notMem_of_cons freeTail
    rw [hdlc_esc, Feed.strict_cons_of_ok decodeByte_escape] at h
    by_cases reserved : hdlc.Reserved (hdlc.flip x)
    · rw [Feed.strict_cons_of_ok (decodeByte_escaped neFlag reserved)] at h
      obtain ⟨more, q, free', read⟩ := ih freeRest h
      refine ⟨more, hdlc.flip x :: q, ?_, ?_⟩
      · rw [List.cons_append, List.cons_append, List.mem_cons, List.mem_cons, not_or, not_or]
        exact ⟨neEscape.symm, neFlag.symm, free'⟩
      · rw [List.cons_append, List.cons_append, hdlc.unstuff_esc_cons, if_pos reserved, read,
          Option.map_some]
    · rw [Feed.strict_cons_of_error (decodeByte_invalid neFlag reserved)] at h
      cases h

/-- A readable body can be continued to a frame: with one more byte it is a payload,
and the CRC of that completes it. -/
theorem exists_frame_of_readable {b q : Bytes} (free : hdlcFlag ∉ b)
    (read : hdlc.unstuff b = some q) :
    ∃ (more : Bytes) (f : WireFrame), framesWire [f] = hdlcFlag :: (b ++ more) := by
  have wire : b ++ encodeData [0, calculateCrc (q ++ [0])] =
      encodeData ((q ++ [0]) ++ [calculateCrc (q ++ [0])]) := by
    rw [List.append_assoc q, encodeData_eq_stuff, encodeData_eq_stuff, hdlc.stuff_append,
      hdlc.stuff_of_unstuff free read]
    rfl
  have carries := carries_encodeData (p := q ++ [0]) (by simp)
  refine ⟨encodeData [0, calculateCrc (q ++ [0])] ++ [hdlcFlag],
    .ofCarries carries (flag_notMem_encodeData _) (List.not_mem_nil : hdlcFlag ∉ ([] : Bytes)), ?_⟩
  rw [framesWire, List.flatMap_singleton, ← List.append_assoc, wire]
  rfl

/-- What an idle decoder takes without an exception is the beginning of a transmission,
and a whole one if it leaves the decoder between frames. -/
theorem exists_continuation {frame t : HdlcFrame} {s : Bytes} (idle : frame.Idle)
    (h : Feed.strict decodeByte frame s = (t, .ok ())) :
    ∃ (more : Bytes) (tr : Transmission), tr.wire = s ++ more ∧
      (t.decoding = false → more = []) := by
  induction s using hdlc.framing_induction generalizing frame with
  | junk j free => exact ⟨[], ⟨j, [], free⟩, rfl, fun _ => rfl⟩
  | open_ j b freeJ freeB =>
    rw [Feed.strict_append_of_ok (strict_junk idle.1 freeJ), hdlc_flag] at h
    have opened := decoding_of_strict_open idle freeB h
    rw [Feed.strict_cons_of_ok (decodeByte_open_of_idle idle)] at h
    obtain ⟨more, q, free, read⟩ := exists_readable freeB h
    obtain ⟨last, f, wire⟩ := exists_frame_of_readable free read
    refine ⟨more ++ last, ⟨j, [f], freeJ⟩, ?_, fun closed => ?_⟩
    · rw [Transmission.wire, wire]
      simp
    · rw [closed] at opened
      cases opened
  | frame j b rest freeJ freeB ih =>
    rw [hdlc_flag, Feed.strict_append_of_ok (strict_junk idle.1 freeJ), frame_append] at h
    rcases run : Feed.strict decodeByte frame (hdlcFlag :: (b ++ [hdlcFlag])) with ⟨t', e | ⟨⟩⟩
    · rw [Feed.strict_append_of_error run] at h
      cases h
    · obtain ⟨p, carries, same⟩ := carries_of_strict_frame idle freeB run
      subst same
      rw [Feed.strict_append_of_ok run] at h
      obtain ⟨more, tr, wire, whole⟩ := ih (idle_holding p) h
      refine ⟨more, ⟨j, .ofCarries carries freeB tr.lead_free :: tr.frames, freeJ⟩, ?_, whole⟩
      unfold Transmission.wire framesWire at wire ⊢
      rw [List.flatMap_cons]
      simp [WireFrame.ofCarries, wire]

/-- The decoder accepts exactly the grammar. -/
theorem decodeData_ok_iff (s : Bytes) :
    (∃ d, decodeData s = .ok d) ↔ ∃ t : Transmission, t.wire = s := by
  apply Iff.intro
  · intro given
    rcases given with ⟨d, h⟩
    obtain ⟨frame, run, closed, -⟩ := decodeData_eq_ok_iff.mp h
    obtain ⟨more, t, wire, whole⟩ := exists_continuation idle_default run
    rw [whole closed, List.append_nil] at wire
    exact ⟨t, wire⟩
  · intro given
    rcases given with ⟨t, rfl⟩
    exact ⟨_, decodeData_wire t⟩

/-- The decoder takes exactly the beginnings of the grammar without an exception. -/
theorem strict_ok_iff (s : Bytes) :
    (∃ t, Feed.strict decodeByte {} s = (t, .ok ())) ↔
      ∃ (more : Bytes) (t : Transmission), t.wire = s ++ more := by
  apply Iff.intro
  · intro given
    rcases given with ⟨t, h⟩
    obtain ⟨more, tr, wire, -⟩ := exists_continuation idle_default h
    exact ⟨more, tr, wire⟩
  · intro given
    rcases given with ⟨more, t, wire⟩
    obtain ⟨frame, run, -⟩ := decodeData_eq_ok_iff.mp (decodeData_wire t)
    rw [wire] at run
    exact Feed.strict_ok_of_append run

/-- The decoder accepts exactly the grammar, the result is the payload of the
last frame, and the bytes between frames have no part in it. -/
theorem decodeData_grammar :
    (∀ s : Bytes, (∃ d, decodeData s = .ok d) ↔ ∃ t : Transmission, t.wire = s) ∧
      (∀ t : Transmission, decodeData t.wire = .ok t.lastPayload) ∧
      ∀ t t' : Transmission, t.frames.map WireFrame.body = t'.frames.map WireFrame.body →
        decodeData t.wire = decodeData t'.wire := by
  refine ⟨decodeData_ok_iff, decodeData_wire, fun t t' same => ?_⟩
  · have last : t.lastPayload = t'.lastPayload := by
      have bodies := congrArg List.getLast? same
      rw [List.getLast?_map, List.getLast?_map] at bodies
      unfold Transmission.lastPayload
      rcases hf : t.frames.getLast? with _ | f <;> rcases hf' : t'.frames.getLast? with _ | f'
      · rfl
      · simp [hf, hf'] at bodies
      · simp [hf, hf'] at bodies
      · rw [hf, hf'] at bodies
        have body : f.body = f'.body := Option.some.inj bodies
        exact f.carries.unique (body ▸ f'.carries)
    rw [decodeData_wire, decodeData_wire, last]

end Iqrf.Connector.Uart
