import Iqrf.Connector.Uart.Decoder

/-!
# What a reused decoder hands out

One `HdlcFrame` is fed byte after byte and each exception is caught. Every flag
switches the decoder into or out of a frame (`after_decoding_eq_false_iff`), so the bytes fed
so far split into frames by the parity of their flags, whatever was thrown on
the way. `after_frame` says what the object holds once a frame was closed; only a
body that carries a payload leaves verified data behind, every other body with
something to salvage leaves unverified data that `getData` hands out.
-/

namespace Iqrf.Connector.Uart

namespace HdlcFrame

/-- The default-constructed object after some bytes, exceptions caught. -/
def after (h : Bytes) : HdlcFrame := Feed.caught decodeByte {} h

@[simp] theorem after_nil : after [] = {} := rfl

theorem after_append (h rest : Bytes) :
    after (h ++ rest) = Feed.caught decodeByte (after h) rest := Feed.caught_append ..

theorem after_concat (h : Bytes) (byte : UInt8) :
    after (h ++ [byte]) = (decodeByte (after h) byte).1 := after_append h [byte]

/-! ## The mode of the decoder -/

/-- An escape is open only inside a frame. -/
def EscapeInFrame (frame : HdlcFrame) : Prop := frame.decoding = false → frame.escape = false

theorem escapeInFrame_of_decoding (data : Bytes) (escape : Bool) (crc : Int16) :
    EscapeInFrame ⟨data, true, escape, crc⟩ := nofun

/-- Whatever it throws, `decodeByte` changes the mode exactly at a flag, and
leaves no escape open outside a frame. -/
theorem decodeByte_mode {frame : HdlcFrame} (inFrame : frame.EscapeInFrame) (byte : UInt8) :
    (decodeByte frame byte).1.decoding = (if byte = hdlcFlag then !frame.decoding
      else frame.decoding) ∧ (decodeByte frame byte).1.EscapeInFrame := by
  rcases frame with ⟨data, decoding, escape, crc⟩
  cases decoding with
  | false =>
    have closed : escape = false := inFrame rfl
    subst closed
    by_cases isFlag : byte = hdlcFlag
    · subst isFlag
      rw [decodeByte_open rfl]
      exact ⟨rfl, fun _ => rfl⟩
    · rw [decodeByte_idle rfl isFlag, if_neg isFlag]
      exact ⟨rfl, fun _ => rfl⟩
  | true =>
    by_cases isFlag : byte = hdlcFlag
    · subst isFlag
      cases escape with
      | true =>
        rw [decodeByte_abort]
        exact ⟨rfl, fun _ => rfl⟩
      | false =>
        rcases List.eq_nil_or_concat data with rfl | ⟨front, last, rfl⟩
        · rw [decodeByte_close_empty]
          exact ⟨rfl, fun _ => rfl⟩
        · rw [List.concat_eq_append]
          by_cases nonempty : front = []
          · rw [nonempty, List.nil_append, decodeByte_close_short]
            exact ⟨rfl, fun _ => rfl⟩
          · rw [decodeByte_close nonempty]
            exact ⟨rfl, fun _ => rfl⟩
    · rw [if_neg isFlag]
      cases escape with
      | true =>
        by_cases reserved : hdlc.Reserved (hdlc.flip byte)
        · rw [decodeByte_escaped isFlag reserved]
          exact ⟨rfl, fun h => by cases h⟩
        · rw [decodeByte_invalid isFlag reserved]
          exact ⟨rfl, fun h => by cases h⟩
      | false =>
        by_cases isEscape : byte = hdlcEscape
        · subst isEscape
          rw [decodeByte_escape]
          exact ⟨rfl, fun h => by cases h⟩
        · rw [decodeByte_plain isFlag isEscape]
          exact ⟨rfl, fun h => by cases h⟩

theorem escapeInFrame_after (h : Bytes) : (after h).EscapeInFrame :=
  Feed.caught_invariant (P := EscapeInFrame)
    (fun _ byte inFrame => (decodeByte_mode inFrame byte).2)
    (fun _ => rfl) h

/-- An even number of flags leaves the mode as it was, an odd number switches it. -/
theorem caught_decoding_eq_false_iff {frame : HdlcFrame} (inFrame : frame.EscapeInFrame)
    (s : Bytes) : (Feed.caught decodeByte frame s).decoding = false ↔
      (frame.decoding = false ↔ Even (s.count hdlcFlag)) := by
  induction s generalizing frame with
  | nil => simp
  | cons byte s ih =>
    obtain ⟨mode, inFrame'⟩ := decodeByte_mode inFrame byte
    rw [Feed.caught_cons, ih inFrame', mode]
    by_cases isFlag : byte = hdlcFlag
    · subst isFlag
      rw [if_pos rfl, List.count_cons_self, Nat.even_add_one]
      cases frame.decoding <;> simp
    · rw [if_neg isFlag, List.count_cons_of_ne isFlag]

/-- The decoder is inside a frame exactly after an odd number of flags. -/
theorem after_decoding_eq_false_iff (h : Bytes) :
    (after h).decoding = false ↔ Even (h.count hdlcFlag) := by
  have inFrame : EscapeInFrame {} := fun _ => rfl
  exact (caught_decoding_eq_false_iff inFrame h).trans (iff_true_left rfl)

theorem after_idle {h : Bytes} (even : Even (h.count hdlcFlag)) : (after h).Idle :=
  have closed := (after_decoding_eq_false_iff h).mpr even
  ⟨closed, escapeInFrame_after h closed⟩

end HdlcFrame

open HdlcFrame

/-! ## What a frame leaves behind -/

section Frame

variable {pre body post : Bytes}

theorem caught_junk {frame : HdlcFrame} (idle : frame.decoding = false) (free : hdlcFlag ∉ post) :
    Feed.caught decodeByte frame post = frame := Feed.caught_of_strict (strict_junk idle free)

/-- Inside a frame the object holds what can be salvaged of the body so far. -/
theorem after_open (even : Even (pre.count hdlcFlag)) (free : hdlcFlag ∉ body) :
    after (pre ++ hdlcFlag :: body) = ⟨hdlc.salvage body, true, hdlc.Dangling body, -1⟩ := by
  rw [after_append, Feed.caught_cons, decodeByte_open_of_idle (after_idle even),
    caught_body free, List.nil_append]

/-- A closed frame leaves what the closing flag left. -/
theorem after_frame (even : Even (pre.count hdlcFlag)) (freeBody : hdlcFlag ∉ body)
    (freePost : hdlcFlag ∉ post) :
    after (pre ++ hdlcFlag :: (body ++ hdlcFlag :: post)) =
      (decodeByte ⟨hdlc.salvage body, true, hdlc.Dangling body, -1⟩ hdlcFlag).1 := by
  have split_ : pre ++ hdlcFlag :: (body ++ hdlcFlag :: post) =
      (pre ++ hdlcFlag :: body) ++ hdlcFlag :: post := by simp
  have mode := decodeByte_mode
    (escapeInFrame_of_decoding (hdlc.salvage body) (hdlc.Dangling body) (-1)) hdlcFlag
  rw [split_, after_append, after_open even freeBody, Feed.caught_cons,
    caught_junk mode.1 freePost]

/-- A body that carries a payload leaves that payload. -/
theorem decodeByte_close_of_carries {p : Bytes} (carries : Carries body p) :
    decodeByte ⟨hdlc.salvage body, true, hdlc.Dangling body, -1⟩ hdlcFlag =
      (holding p, .ok ()) := by
  rw [hdlc.salvage_of_unstuff carries.2, hdlc.not_dangling_of_unstuff carries.2,
    decodeByte_close carries.1, if_pos rfl]
  rfl

/-- A closing flag drops at most the byte it takes for the CRC: what was salvaged
is never dropped altogether. -/
theorem data_ne_nil_of_close {data : Bytes} {escape : Bool} {crc : Int16} (kept : data ≠ []) :
    (decodeByte ⟨data, true, escape, crc⟩ hdlcFlag).1.data ≠ [] := by
  cases escape with
  | true => rwa [decodeByte_abort]
  | false =>
    obtain ⟨front, last, same⟩ := (List.eq_nil_or_concat data).resolve_left kept
    subst same
    rw [List.concat_eq_append]
    by_cases nonempty : front = []
    · rw [nonempty, List.nil_append, decodeByte_close_short]
      exact List.cons_ne_nil _ _
    · rwa [decodeByte_close nonempty]

end Frame

/-! ## Verified data -/

/-- The last frame opened in the history `h` was closed, its closing flag was not
escaped, and its body unescapes to `d` and the CRC of `d`. A flag opens a frame
when an even number of flags came before it. -/
def VerifiedFrame (h d : Bytes) : Prop :=
  ∃ pre body post, h = pre ++ hdlcFlag :: (body ++ hdlcFlag :: post) ∧
    Even (pre.count hdlcFlag) ∧ hdlcFlag ∉ body ∧ hdlcFlag ∉ post ∧
    hdlc.unstuff body = some (d ++ [calculateCrc d])

/-- Over the whole history `s`, `getData` hands out verified data only, and
nothing at all after a call that threw. -/
def HandsOutVerified (s : Bytes) : Prop :=
  (∀ h, h <+: s → ∀ d, d ≠ [] → (after h).getData = .ok d → VerifiedFrame h d) ∧
    ∀ h byte e, h ++ [byte] <+: s → (decodeByte (after h) byte).2 = .error e →
      ∀ d, (after (h ++ [byte])).getData = .ok d → d = []

/-- Each frame closed in `s` is well escaped and carries its CRC, or nothing of it
can be salvaged. -/
def ClosesCleanly (s : Bytes) : Prop :=
  ∀ pre body post, s = pre ++ hdlcFlag :: (body ++ hdlcFlag :: post) →
    Even (pre.count hdlcFlag) → hdlcFlag ∉ body →
    (∃ p, Carries body p) ∨ hdlc.salvage body = []

theorem ClosesCleanly.of_prefix {h s : Bytes} (clean : ClosesCleanly s) (le : h <+: s) :
    ClosesCleanly h := by
  obtain ⟨rest, same⟩ := le
  subst same
  intro pre body post eq
  exact clean pre body (post ++ rest) (by simp [eq])

/-- With every frame closed cleanly, data handed out is verified. -/
theorem ClosesCleanly.verified {h d : Bytes} (clean : ClosesCleanly h) (nonempty : d ≠ [])
    (handed : (after h).getData = .ok d) : VerifiedFrame h d := by
  obtain ⟨closed, same⟩ := getData_eq_ok_iff.mp handed
  subst same
  have even := (after_decoding_eq_false_iff h).mp closed
  rcases hdlc.exists_last_frame even with free | ⟨pre, body, post, rfl, evenPre, freeBody, freePost⟩
  · exact absurd (by rw [after, caught_junk rfl free]) nonempty
  · rw [hdlc_flag] at *
    have frame := after_frame evenPre freeBody freePost
    rcases clean pre body post rfl evenPre freeBody with ⟨p, carries⟩ | dropped
    · rw [decodeByte_close_of_carries carries] at frame
      refine ⟨pre, body, post, rfl, evenPre, freeBody, freePost, ?_⟩
      rw [frame]
      exact carries.2
    · refine absurd ?_ nonempty
      rw [frame, dropped]
      cases hdlc.Dangling body with
      | true => rw [decodeByte_abort]
      | false => rw [decodeByte_close_empty]

/-- A call that closes a verified frame, or finds the decoder between frames, does
not throw. -/
theorem VerifiedFrame.not_thrown {h d : Bytes} {byte : UInt8} (nonempty : d ≠ [])
    (verified : VerifiedFrame (h ++ [byte]) d) : (decodeByte (after h) byte).2 = .ok () := by
  obtain ⟨pre, body, post, eq, evenPre, freeBody, freePost, read⟩ := verified
  rcases List.eq_nil_or_concat post with rfl | ⟨post, last, rfl⟩
  · have split_ : pre ++ hdlcFlag :: (body ++ [hdlcFlag]) =
        (pre ++ hdlcFlag :: body) ++ [hdlcFlag] := by simp
    rw [split_] at eq
    obtain ⟨rfl, last⟩ := List.append_inj' eq rfl
    have agree := List.singleton_inj.mp last
    subst agree
    rw [after_open evenPre freeBody, decodeByte_close_of_carries ⟨nonempty, read⟩]
  · have split_ : pre ++ hdlcFlag :: (body ++ hdlcFlag :: post.concat last) =
        (pre ++ hdlcFlag :: (body ++ hdlcFlag :: post)) ++ [last] := by simp
    rw [split_] at eq
    obtain ⟨rfl, same⟩ := List.append_inj' eq rfl
    have agree := List.singleton_inj.mp same
    subst agree
    rw [List.concat_eq_append, List.mem_append, not_or] at freePost
    have even : Even ((pre ++ hdlcFlag :: (body ++ hdlcFlag :: post)).count hdlcFlag) := by
      simp only [List.count_append, List.count_cons_self, List.count_eq_zero_of_not_mem freeBody,
        List.count_eq_zero_of_not_mem freePost.1]
      exact evenPre.add (by decide)
    rw [decodeByte_idle (after_idle even).1 (fun h => freePost.2 (by simp [h]))]

/-- **When only verified data is handed out.** `getData` hands out verified data
only, over the whole history, exactly when each frame closed in it carries its
CRC or leaves nothing to salvage. -/
theorem handsOutVerified_iff (s : Bytes) : HandsOutVerified s ↔ ClosesCleanly s := by
  apply Iff.intro
  · rintro ⟨verified, -⟩ pre body post rfl even free
    by_cases kept : hdlc.salvage body = []
    · exact Or.inr kept
    · left
      have frame := after_frame even free (List.not_mem_nil : hdlcFlag ∉ ([] : Bytes))
      have mode := decodeByte_mode
        (escapeInFrame_of_decoding (hdlc.salvage body) (hdlc.Dangling body) (-1)) hdlcFlag
      have nonempty : (after (pre ++ hdlcFlag :: (body ++ [hdlcFlag]))).data ≠ [] := by
        rw [frame]
        exact data_ne_nil_of_close kept
      have handed : (after (pre ++ hdlcFlag :: (body ++ [hdlcFlag]))).getData =
          .ok (after (pre ++ hdlcFlag :: (body ++ [hdlcFlag]))).data :=
        getData_eq_ok_iff.mpr ⟨by rw [frame]; exact mode.1, rfl⟩
      obtain ⟨pre', body', post', eq, -, freeBody', freePost', read⟩ :=
        verified _ ⟨post, by simp⟩ _ nonempty handed
      obtain ⟨-, rfl, -⟩ :=
        hdlc.last_frame_unique free freeBody' List.not_mem_nil freePost' eq
      exact ⟨_, nonempty, read⟩
  · intro clean
    refine ⟨fun h le d => (clean.of_prefix le).verified, fun h byte e le thrown d handed => ?_⟩
    by_contra nonempty
    have verified := (clean.of_prefix le).verified nonempty handed
    rw [verified.not_thrown nonempty] at thrown
    cases thrown

/-- A CRC mismatch leaves the rejected payload to be handed out: after
`7E 01 00 7E` threw, `getData` returns `01`. -/
theorem not_handsOutVerified :
    (decodeByte (after [0x7E, 0x01, 0x00]) 0x7E).2 = .error .crcCheckFailed ∧
      (after [0x7E, 0x01, 0x00, 0x7E]).getData = .ok [0x01] ∧
      ¬ HandsOutVerified [0x7E, 0x01, 0x00, 0x7E] := by
  refine ⟨rfl, rfl, fun h => ?_⟩
  have none : ([0x01] : Bytes) = [] := h.2 [0x7E, 0x01, 0x00] 0x7E _ ⟨[], rfl⟩ rfl [0x01] rfl
  cases none

end Iqrf.Connector.Uart
