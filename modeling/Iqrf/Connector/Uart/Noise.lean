import Iqrf.Connector.Uart.UartConnector

/-!
# Noise on the line

An exception of the decoder, or of `getData` at a timeout, leaves `receive` and ends
the listening loop for good. `notSilenced_iff` says which noise the listener
survives: the timeouts cut the reads into segments, every closed segment has to be in
the grammar of the decoder, and the segment after the last timeout has to be the
beginning of one.
-/

namespace Iqrf.Connector.Uart

open HdlcFrame UartConnector

/-! ## Segments -/

/-- The bytes up to each timeout, and those after the last one. -/
def segments : List Read → List Bytes × Bytes
  | [] => ([], [])
  | .byte byte :: reads =>
    match segments reads with
    | ([], unfinished) => ([], byte :: unfinished)
    | (segment :: closed, unfinished) => ((byte :: segment) :: closed, unfinished)
  | .timeout :: reads => ([] :: (segments reads).1, (segments reads).2)
  -- reads after an error are not looked at
  | .error :: _ => ([], [])

theorem segments_bytes (bytes : Bytes) : segments (bytes.map .byte) = ([], bytes) := by
  induction bytes with
  | nil => rfl
  | cons byte bytes ih => rw [List.map_cons, segments, ih]

theorem segments_segment (bytes : Bytes) (reads : List Read) :
    segments (bytes.map .byte ++ .timeout :: reads) =
      (bytes :: (segments reads).1, (segments reads).2) := by
  induction bytes with
  | nil => rfl
  | cons byte bytes ih => rw [List.map_cons, List.cons_append, segments, ih]

/-- One segment after the other. -/
inductive Segmented : List Read → Prop
  | unfinished (bytes : Bytes) : Segmented (bytes.map .byte)
  | segment (bytes : Bytes) {reads : List Read} (rest : Segmented reads) :
    Segmented (bytes.map .byte ++ .timeout :: reads)

theorem Segmented.bytes_append {reads : List Read} (segmented : Segmented reads)
    (bytes : Bytes) : Segmented (bytes.map .byte ++ reads) := by
  cases segmented with
  | unfinished more =>
    rw [← List.map_append]
    exact .unfinished (bytes ++ more)
  | segment more rest =>
    rw [← List.append_assoc, ← List.map_append]
    exact .segment (bytes ++ more) rest

/-- Reads without an error are segments. -/
theorem segmented_of_noError {reads : List Read} (noError : .error ∉ reads) :
    Segmented reads := by
  induction reads with
  | nil => exact .unfinished []
  | cons read reads ih =>
    have rest := ih fun member => noError (List.mem_cons_of_mem read member)
    cases read with
    | byte byte => exact rest.bytes_append [byte]
    | timeout => exact .segment [] rest
    | error => exact absurd List.mem_cons_self noError

/-! ## Calls that do not throw -/

theorem not_buffers_of_error (e : ReceiveError) (later : List (Except ReceiveError Bytes)) :
    ¬ ∃ buffers : List Bytes, .error e :: later = buffers.map .ok := by
  intro all
  rcases all with ⟨_ | ⟨d, buffers⟩, eq⟩
  · cases eq
  · cases (List.cons.inj eq).1

/-- No call of `receive` throws exactly if every closed segment decodes and the decoder
takes what follows the last timeout. -/
theorem exists_buffers_iff {reads : List Read} (segmented : Segmented reads) :
    (∃ buffers : List Bytes, receiveResults {} reads = buffers.map .ok) ↔
      (∀ s ∈ (segments reads).1, ∃ d, decodeData s = .ok d) ∧
        ∃ t, Feed.strict decodeByte {} (segments reads).2 = (t, .ok ()) := by
  induction segmented with
  | unfinished bytes =>
    rw [segments_bytes]
    rcases run : Feed.strict decodeByte {} bytes with ⟨t, e | ⟨⟩⟩
    · obtain ⟨later, threw⟩ := receiveResults_bytes_of_error run []
      rw [List.append_nil] at threw
      rw [threw]
      refine iff_of_false (not_buffers_of_error _ later) fun taken => ?_
      obtain ⟨-, t', eq⟩ := taken
      cases eq
    · have none_ := receiveResults_bytes_of_ok run []
      rw [List.append_nil] at none_
      exact iff_of_true ⟨[], none_⟩ ⟨nofun, t, rfl⟩
  | @segment bytes reads _ ih =>
    rw [segments_segment]
    rcases decoded : decodeData bytes with e | d
    · obtain ⟨later, threw⟩ := receiveResults_segment_of_error decoded reads
      rw [threw]
      refine iff_of_false (not_buffers_of_error _ later) fun taken => ?_
      obtain ⟨d, eq⟩ := taken.1 bytes List.mem_cons_self
      cases decoded.symm.trans eq
    · rw [receiveResults_segment_of_ok decoded]
      apply Iff.intro
      · intro all
        rcases all with ⟨_ | ⟨d', buffers⟩, eq⟩
        · cases eq
        · obtain ⟨each, rest⟩ := ih.mp ⟨buffers, (List.cons.inj eq).2⟩
          exact ⟨List.forall_mem_cons.mpr ⟨⟨d, decoded⟩, each⟩, rest⟩
      · intro taken
        have each := (List.forall_mem_cons.mp taken.1).2
        obtain ⟨buffers, eq⟩ := ih.mpr ⟨each, taken.2⟩
        exact ⟨d :: buffers, by rw [eq, List.map_cons]⟩

/-- Every closed segment is in the grammar and the last, unfinished one is the beginning
of something in it. -/
def OnlyTransmissions (reads : List Read) : Prop :=
  (∀ s ∈ (segments reads).1, ∃ t : Transmission, t.wire = s) ∧
    ∃ (more : Bytes) (t : Transmission), t.wire = (segments reads).2 ++ more

theorem exists_buffers_iff_onlyTransmissions {reads : List Read} (noError : .error ∉ reads) :
    (∃ buffers : List Bytes, receiveResults {} reads = buffers.map .ok) ↔
      OnlyTransmissions reads := by
  rw [exists_buffers_iff (segmented_of_noError noError), strict_ok_iff]
  simp only [decodeData_ok_iff]
  rfl

/-! ## The listener -/

section Listener

variable {H : Type*} {returns : Delivery H → Bool} {c : IConnector H} {h : H} {reads : List Read}

/-- The listener is listening after the reads, and with no exclusive handler each frame
between two timeouts was delivered, right after what had been delivered before it. -/
structure NotSilenced (returns : Delivery H → Bool) (c : IConnector H) (h : H) (reads : List Read) :
    Prop where
  listening : (UartConnector.listeningLoop returns c reads).1.listening = true
  delivers : c.exclusiveResponseHandler = none →
    ∀ (before after : List Read) (p : Bytes), p ≠ [] →
    reads = before ++ .timeout :: ((frameBytes p).map .byte ++ .timeout :: after) →
    ∃ later, (UartConnector.listeningLoop returns c reads).2 =
      (UartConnector.listeningLoop returns c (before ++ [.timeout])).2 ++
        ⟨.normal, h, p⟩ :: later

/-- The listener is listening exactly if no call of `receive` has thrown. -/
theorem listening_iff_exists_buffers
    (present : c.hasExclusiveAccess = true ∨ c.normalResponseHandler.isSome = true)
    (listening : c.listening = true) (returned : ∀ call, returns call = true) :
    (UartConnector.listeningLoop returns c reads).1.listening = true ↔
      ∃ buffers : List Bytes, receiveResults {} reads = buffers.map .ok := by
  rw [UartConnector.listeningLoop, listeningLoop_listening_iff returned present listening]
  generalize receiveResults {} reads = results
  apply Iff.intro
  · intro noError
    induction results with
    | nil => exact ⟨[], rfl⟩
    | cons result results ih =>
      rw [List.map_cons, List.mem_cons, not_or] at noError
      obtain ⟨buffers, same⟩ := ih noError.2
      subst same
      rcases result with e | d
      · exact absurd rfl noError.1
      · exact ⟨d :: buffers, rfl⟩
  · intro given
    rcases given with ⟨buffers, rfl⟩
    simp [Except.toOption]

/-- A frame between two timeouts is delivered where no call throws. -/
theorem delivers_of_buffers (normal : c.normalResponseHandler = some h)
    (free : c.exclusiveResponseHandler = none) (listening : c.listening = true)
    (returned : ∀ call, returns call = true) {before after : List Read} {p : Bytes}
    (nonempty : p ≠ []) {buffers : List Bytes}
    (results : receiveResults {} (before ++ .timeout :: ((frameBytes p).map .byte ++
      .timeout :: after)) = buffers.map .ok) :
    ∃ later, (UartConnector.listeningLoop returns c (before ++ .timeout ::
        ((frameBytes p).map .byte ++ .timeout :: after))).2 =
      (UartConnector.listeningLoop returns c (before ++ [.timeout])).2 ++
        ⟨.normal, h, p⟩ :: later := by
  have present := present_of_normal normal
  have decoded : decodeData (frameBytes p) = .ok p := decodeData_eq_ok_iff.mpr
    ⟨_, strict_frameBytes idle_default nonempty, rfl, rfl⟩
  have cut := results
  rw [receiveResults_append_timeout, receiveResults_segment_of_ok decoded] at cut
  obtain ⟨earlier, rest, rfl, first, second⟩ := List.append_eq_map_iff.mp cut
  obtain ⟨p', later, rfl, same, -⟩ := List.map_eq_cons_iff.mp second
  cases same
  rw [listeningLoop_of_buffers present listening returned results,
    listeningLoop_of_buffers present listening returned first.symm, List.filter_append,
    List.filter_cons_of_pos (by simpa using nonempty), List.flatMap_append, List.flatMap_cons]
  obtain ⟨sniffed, first⟩ := entitled_of_normal normal free p
  exact ⟨sniffed ++ _, by rw [first, List.cons_append]⟩

/-- The listener is not silenced exactly if the timeouts leave only transmissions of the
grammar between them: any other noise ends the loop. -/
theorem notSilenced_iff (normal : c.normalResponseHandler = some h)
    (listening : c.listening = true) (returned : ∀ call, returns call = true)
    (noError : .error ∉ reads) :
    NotSilenced returns c h reads ↔ OnlyTransmissions reads := by
  have still : (UartConnector.listeningLoop returns c reads).1.listening = true ↔
      ∃ buffers : List Bytes, receiveResults {} reads = buffers.map .ok :=
    listening_iff_exists_buffers (present_of_normal normal) listening returned
  rw [← exists_buffers_iff_onlyTransmissions noError, ← still]
  refine ⟨NotSilenced.listening, fun listens => ⟨listens, ?_⟩⟩
  intro free before after p nonempty eq
  subst eq
  obtain ⟨buffers, results⟩ := still.mp listens
  exact delivers_of_buffers normal free listening returned nonempty results

/-- A frame between two timeouts. -/
def isolated : List Read := .timeout :: ((frameBytes [1]).map .byte ++ [.timeout])

theorem notSilenced_isolated :
    NotSilenced (fun _ => true) { normalResponseHandler := some 0, listening := true } (0 : Nat)
        isolated ↔ OnlyTransmissions isolated :=
  notSilenced_iff rfl rfl (fun _ => rfl) (by decide)

/-- Two flags in a row end the loop, and the frame after them is not delivered. -/
theorem not_notSilenced :
    ¬ ∀ reads : List Read, .error ∉ reads → NotSilenced (fun _ => true)
      { normalResponseHandler := some 0, listening := true } (0 : Nat) reads := by
  intro never
  have silenced := never ([.byte hdlcFlag, .byte hdlcFlag] ++ isolated) (by decide)
  exact absurd silenced.listening (by decide)

end Listener

end Iqrf.Connector.Uart
