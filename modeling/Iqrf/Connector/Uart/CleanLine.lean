import Iqrf.Connector.Uart.UartConnector

/-!
# Messages on a clean line

A clean line carries well-formed frames with idle bytes and read timeouts between
them. A frame is handed to the handlers at the timeout that follows it, and the next
frame's opening flag forgets a frame that no timeout followed: `calls_line` says
exactly which messages arrive, and `delivers_all_iff` when all of them do.
-/

namespace Iqrf.Connector.Uart

open HdlcFrame UartConnector

/-- What may be read between two frames. -/
def Read.Idle : Read → Prop
  | .byte b => b ≠ hdlcFlag
  | .timeout => True
  | .error => False

/-- A payload sent as one frame, and what is read up to the next frame. -/
structure LineFrame where
  payload : Bytes
  gap : List Read
  payload_ne_nil : payload ≠ []
  gap_idle : ∀ read ∈ gap, read.Idle

/-- The reads of a line. -/
def line (frames : List LineFrame) : List Read :=
  frames.flatMap fun f => (frameBytes f.payload).map .byte ++ f.gap

theorem line_cons (f : LineFrame) (frames : List LineFrame) :
    line (f :: frames) = (frameBytes f.payload).map .byte ++ (f.gap ++ line frames) := by
  rw [line, List.flatMap_cons, List.append_assoc]
  rfl

/-! ## What the calls of `receive` return -/

section Calls

variable {frame : HdlcFrame}

/-- Between frames, the first timeout returns the data and later ones return nothing. -/
theorem exists_buffers_of_gap (idle : frame.Idle) (gap : List Read)
    (gap_idle : ∀ read ∈ gap, read.Idle) :
    ∃ buffers : List Bytes,
      (∀ reads, receiveResults frame (gap ++ reads) =
        buffers.map .ok ++ receiveResults (if .timeout ∈ gap then {} else frame) reads) ∧
      buffers.filter (· ≠ []) = [frame.data].filter fun d => .timeout ∈ gap ∧ d ≠ [] := by
  induction gap generalizing frame with
  | nil => exact ⟨[], fun reads => rfl, by simp⟩
  | cons read gap ih =>
    have head := gap_idle read List.mem_cons_self
    have tail := fun r member => gap_idle r (List.mem_cons_of_mem read member)
    cases read with
    | byte byte =>
      obtain ⟨buffers, results, kept⟩ := ih idle tail
      refine ⟨buffers, fun reads => ?_, ?_⟩
      · rw [List.cons_append, receiveResults_byte_of_ok (decodeByte_idle idle.1 head), results]
        simp
      · rw [kept]
        simp
    | timeout =>
      obtain ⟨buffers, results, kept⟩ := ih idle_default tail
      refine ⟨frame.data :: buffers, fun reads => ?_, ?_⟩
      · rw [List.cons_append, receiveResults_timeout idle.1, results]
        simp
      · have empty : buffers.filter (· ≠ []) = [] := by
          rw [kept]
          simp
        rw [← List.singleton_append, List.filter_append, empty, List.append_nil]
        simp
    | error => exact head.elim

/-- The payloads of the frames that a timeout follows, and nothing else, come back. -/
theorem exists_buffers_of_line (idle : frame.Idle) (frames : List LineFrame) :
    ∃ buffers : List Bytes,
      receiveResults frame (line frames) = buffers.map .ok ∧
      buffers.filter (· ≠ []) =
        (frames.filter fun f => .timeout ∈ f.gap).map LineFrame.payload := by
  induction frames generalizing frame with
  | nil => exact ⟨[], rfl, rfl⟩
  | cons f frames ih =>
    obtain ⟨gapBuffers, gapResults, gapKept⟩ :=
      exists_buffers_of_gap (idle_holding f.payload) f.gap f.gap_idle
    have next : HdlcFrame.Idle (if .timeout ∈ f.gap then {} else holding f.payload) := by
      split
      · exact idle_default
      · exact idle_holding _
    obtain ⟨buffers, results, kept⟩ := ih next
    refine ⟨gapBuffers ++ buffers, ?_, ?_⟩
    · rw [line_cons, receiveResults_bytes_of_ok (strict_frameBytes idle f.payload_ne_nil),
        gapResults, results, List.map_append]
    · rw [List.filter_append, gapKept, kept, holding_data]
      by_cases timeout : .timeout ∈ f.gap
      · rw [List.filter_cons_of_pos (by simp [timeout, f.payload_ne_nil]), List.filter_nil,
          List.filter_cons_of_pos (by simpa using timeout), List.map_cons, List.singleton_append]
      · rw [List.filter_cons_of_neg (by simp [timeout]), List.filter_nil,
          List.filter_cons_of_neg (by simpa using timeout), List.nil_append]

end Calls

/-! ## What the normal handler is given -/

variable {H : Type*} {returns : Delivery H → Bool} {c : IConnector H} {h : H}

/-- Without an exclusive handler, the normal one is called once for each buffer. -/
theorem filter_entitled (normal : c.normalResponseHandler = some h)
    (free : c.exclusiveResponseHandler = none) (recvBuffer : Bytes) :
    (entitled c recvBuffer).filter (·.access = .normal) = [⟨.normal, h, recvBuffer⟩] := by
  rcases sniffer : c.snifferResponseHandler with _ | s <;> simp [entitled, normal, free, sniffer]

/-- The messages of a clean line that reach the normal handler are those that a timeout
follows before the next frame. -/
theorem calls_line (normal : c.normalResponseHandler = some h)
    (free : c.exclusiveResponseHandler = none) (listening : c.listening = true)
    (returned : ∀ call, returns call = true) (frames : List LineFrame) :
    (UartConnector.listeningLoop returns c (line frames)).2.filter (·.access = .normal) =
      (frames.filter fun f => .timeout ∈ f.gap).map fun f => ⟨.normal, h, f.payload⟩ := by
  obtain ⟨buffers, results, kept⟩ := exists_buffers_of_line idle_default frames
  rw [listeningLoop_of_buffers (present_of_normal normal) listening returned results, kept]
  simp only [List.filter_flatMap, filter_entitled normal free, List.flatMap_map]
  rw [← List.map_eq_flatMap]

/-- On a clean line that ends in a timeout, the normal handler is handed every message,
once and in order, exactly if a timeout is read between every two frames: the opening
flag that follows a frame without a pause forgets it. -/
theorem delivers_all_iff (normal : c.normalResponseHandler = some h)
    (free : c.exclusiveResponseHandler = none) (listening : c.listening = true)
    (returned : ∀ call, returns call = true) (frames : List LineFrame)
    (ends : ∀ f ∈ frames.getLast?, .timeout ∈ f.gap) :
    (UartConnector.listeningLoop returns c (line frames)).2.filter (·.access = .normal) =
        frames.map (fun f => ⟨.normal, h, f.payload⟩) ↔
      ∀ f ∈ frames.dropLast, .timeout ∈ f.gap := by
  rw [calls_line normal free listening returned]
  apply Iff.intro
  · intro all f member
    have length := congrArg List.length all
    rw [List.length_map, List.length_map] at length
    have each := List.length_filter_eq_length_iff.mp length
    simpa using each f (List.dropLast_subset frames member)
  · intro between
    have each : ∀ f ∈ frames, .timeout ∈ f.gap := by
      rcases List.eq_nil_or_concat frames with rfl | ⟨front, last, rfl⟩
      · exact nofun
      · rw [List.concat_eq_append] at between ends ⊢
        rw [List.dropLast_concat] at between
        rw [List.getLast?_concat] at ends
        intro f member
        rcases List.mem_append.mp member with inner | outer
        · exact between f inner
        · exact ends f (by rw [List.mem_singleton.mp outer]; rfl)
    rw [List.filter_eq_self.mpr fun f member => by simpa using each f member]

/-- One byte as a message, and the gap after it. -/
def LineFrame.ofByte (byte : UInt8) (gap : List Read) (gap_idle : ∀ read ∈ gap, read.Idle) :
    LineFrame :=
  ⟨[byte], gap, List.cons_ne_nil _ _, gap_idle⟩

/-- Two messages with a timeout after each. -/
def spaced : List LineFrame :=
  [.ofByte 1 [.timeout] (by simp [Read.Idle]), .ofByte 2 [.timeout] (by simp [Read.Idle])]

theorem delivers_all_spaced :
    (UartConnector.listeningLoop (fun _ => true)
        { normalResponseHandler := some 0, listening := true } (line spaced)).2.filter
          (·.access = .normal) = spaced.map (fun f => ⟨.normal, (0 : Nat), f.payload⟩) ↔
      ∀ f ∈ spaced.dropLast, .timeout ∈ f.gap :=
  delivers_all_iff rfl rfl rfl (fun _ => rfl) spaced (by simp [spaced, LineFrame.ofByte])

/-- Two messages back to back. -/
def backToBack : List LineFrame :=
  [.ofByte 1 [] nofun, .ofByte 2 [.timeout] (by simp [Read.Idle])]

/-- Of two frames without a pause between them only the second arrives. -/
theorem not_delivers_all :
    ¬ ∀ frames : List LineFrame, (∀ f ∈ frames.getLast?, .timeout ∈ f.gap) →
      (UartConnector.listeningLoop (fun _ => true)
        { normalResponseHandler := some 0, listening := true } (line frames)).2.filter
          (·.access = .normal) = frames.map (fun f => ⟨.normal, (0 : Nat), f.payload⟩) := by
  intro delivers
  have both := delivers backToBack (by simp [backToBack, LineFrame.ofByte])
  rw [calls_line rfl rfl rfl fun _ => rfl] at both
  exact absurd both (by decide)

end Iqrf.Connector.Uart
