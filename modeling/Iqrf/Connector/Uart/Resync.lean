import Iqrf.Connector.Uart.Reachable

/-!
# The next frame, after a rejection and from anywhere

One byte opens and closes frames, so what a flag means depends on the flags
before it. A decoder that is between frames takes the next well-formed frame
(`takesNext_iff`), one that is inside a frame takes each of its flags for the
other. Four of the five errors are thrown at a flag and leave the decoder between
frames; an invalid escape sequence is thrown at another byte and leaves it inside.
-/

namespace Iqrf.Connector.Uart

open HdlcFrame

/-- The well-formed frame of `q` is taken without an exception, and `q` handed out. -/
def TakesNext (frame : HdlcFrame) (q : Bytes) : Prop :=
  ∃ t, Feed.strict decodeByte frame (frameBytes q) = (t, .ok ()) ∧ t.getData = .ok q

/-- A well-formed frame has two flags. -/
theorem count_flag_frameBytes (q : Bytes) : (frameBytes q).count hdlcFlag = 2 := by
  rw [frameBytes, List.count_cons_self, List.count_append,
    List.count_eq_zero_of_not_mem (flag_notMem_encodeData _), List.count_singleton_self]

/-- So it leaves the mode of the decoder as it was. -/
theorem caught_frameBytes_decoding {frame : HdlcFrame} (inFrame : frame.EscapeInFrame)
    (q : Bytes) : (Feed.caught decodeByte frame (frameBytes q)).decoding = frame.decoding := by
  have even : Even ((frameBytes q).count hdlcFlag) := by
    rw [count_flag_frameBytes]
    decide
  have mode := (caught_decoding_eq_false_iff inFrame (frameBytes q)).trans (iff_true_right even)
  cases before : frame.decoding with
  | false => exact mode.mpr before
  | true =>
    rw [before] at mode
    by_contra left
    cases mode.mp (Bool.eq_false_iff.mpr left)

/-- The next frame is taken exactly if the decoder is not inside a frame. -/
theorem takesNext_iff {frame : HdlcFrame} {q : Bytes} (inFrame : frame.EscapeInFrame)
    (nonempty : q ≠ []) : TakesNext frame q ↔ frame.decoding = false := by
  apply Iff.intro
  · intro takes
    obtain ⟨t, run, handed⟩ := takes
    have closed := (getData_eq_ok_iff.mp handed).1
    have same := Feed.caught_of_strict run
    rwa [← same, caught_frameBytes_decoding inFrame] at closed
  · intro closed
    exact ⟨holding q, strict_frameBytes ⟨closed, inFrame closed⟩ nonempty, rfl⟩

/-! ## After a rejection -/

/-- Outside a frame nothing is thrown. -/
theorem decoding_of_thrown {frame : HdlcFrame} {byte : UInt8} {e : LogicError}
    (thrown : (decodeByte frame byte).2 = .error e) : frame.decoding = true := by
  by_contra inside
  have closed : frame.decoding = false := Bool.eq_false_iff.mpr inside
  by_cases isFlag : byte = hdlcFlag
  · subst isFlag
    rw [decodeByte_open closed] at thrown
    cases thrown
  · rw [decodeByte_idle closed isFlag] at thrown
    cases thrown

/-- **When a rejection leaves the decoder ready.** After a call that threw, the next
well-formed frame is taken exactly if the byte of that call was a flag. -/
theorem takesNext_after_thrown_iff (h : Bytes) (byte : UInt8) (e : LogicError)
    (thrown : (decodeByte (after h) byte).2 = .error e) (q : Bytes) (nonempty : q ≠ []) :
    TakesNext (after (h ++ [byte])) q ↔ byte = hdlcFlag := by
  rw [takesNext_iff (escapeInFrame_after _) nonempty, after_concat,
    (decodeByte_mode (escapeInFrame_after h) byte).1, decoding_of_thrown thrown]
  by_cases isFlag : byte = hdlcFlag <;> simp [isFlag]

/-- A CRC mismatch, then the frame of `01`. -/
theorem takesNext_after_crcCheckFailed : TakesNext (after ([0x7E, 0x01, 0x00] ++ [0x7E])) [0x01] :=
  (takesNext_after_thrown_iff [0x7E, 0x01, 0x00] 0x7E .crcCheckFailed rfl [0x01]
    (List.cons_ne_nil _ _)).mpr rfl

/-- After `7E 7D 00` threw for the invalid escape, the opening flag of the next frame
closes the broken one. -/
theorem not_takesNext_after_invalidEscape :
    ¬ ∀ h byte e, (decodeByte (after h) byte).2 = .error e →
      ∀ q, q ≠ [] → TakesNext (after (h ++ [byte])) q := by
  intro ready
  obtain ⟨t, run, -⟩ :=
    ready [0x7E, 0x7D] 0x00 .invalidEscapeSequence rfl [0x01] (List.cons_ne_nil _ _)
  have thrown : Feed.strict decodeByte (after ([0x7E, 0x7D] ++ [0x00])) (frameBytes [0x01]) =
      (⟨[], false, false, -1⟩, .error .receivedEmptyFrame) := rfl
  rw [thrown] at run
  cases run

/-! ## From anywhere -/

/-- **What two frames in a row leave.** Fed the well-formed frames of two payloads back
to back, a decoder that was not inside a frame hands out the second one; one that was
inside a frame ends inside a frame and hands out nothing. -/
theorem getData_after_two_frames (h q₁ q₂ : Bytes) (nonempty₁ : q₁ ≠ []) (nonempty₂ : q₂ ≠ []) :
    (after (h ++ (frameBytes q₁ ++ frameBytes q₂))).getData =
      if (after h).decoding then .error .frameNotFullyDecoded else .ok q₂ := by
  rw [after_append, Feed.caught_append]
  cases mode : (after h).decoding with
  | false =>
    have first := strict_frameBytes (after_idle ((after_decoding_eq_false_iff h).mp mode)) nonempty₁
    have second := strict_frameBytes (idle_holding q₁) nonempty₂
    rw [Feed.caught_of_strict first, Feed.caught_of_strict second]
    rfl
  | true =>
    have inFrame := Feed.caught_invariant (P := EscapeInFrame)
      (fun _ byte inFrame => (decodeByte_mode inFrame byte).2) (escapeInFrame_after h)
      (frameBytes q₁)
    rw [getData, caught_frameBytes_decoding inFrame,
      caught_frameBytes_decoding (escapeInFrame_after h), mode]
    rfl

/-- Junk, and then two frames. -/
theorem getData_after_two_frames_junk :
    (after ([0x01, 0x7D] ++ (frameBytes [0x01] ++ frameBytes [0xF5]))).getData = .ok [0xF5] :=
  getData_after_two_frames [0x01, 0x7D] [0x01] [0xF5] (List.cons_ne_nil _ _) (List.cons_ne_nil _ _)

/-- After a stray flag every flag of the two frames is taken for the other. -/
theorem not_resynchronised :
    ¬ ∀ h q₁ q₂ : Bytes, q₁ ≠ [] → q₂ ≠ [] →
      (after (h ++ (frameBytes q₁ ++ frameBytes q₂))).getData = .ok q₂ := by
  intro handed
  have second := handed [0x7E] [0x01] [0x01] (List.cons_ne_nil _ _) (List.cons_ne_nil _ _)
  have lost : (after ([0x7E] ++ (frameBytes [0x01] ++ frameBytes [0x01]))).getData =
      .error .frameNotFullyDecoded := rfl
  rw [lost] at second
  cases second

end Iqrf.Connector.Uart
