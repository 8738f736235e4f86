import Iqrf.Connector.Sending
import Iqrf.Connector.Uart.Transparency

/-!
# Two connectors on one line

One connector sends, another one listens, and nothing but the bytes of `send` is on the
line between them. A write may put the whole frame on the line, a part of it or nothing,
and may say so or not. `send` does not wait for anything, so the calls reach the other end
in bursts: a read there times out after each burst, and between its calls none does.

`link_delivers` says what comes out at the other end, whatever the writes do, if no torn
frame is followed by more bytes in its burst: the payload of the last whole frame of each
burst, up to the first burst with a frame that is torn or whose CRC is a reserved byte.
There the listening loop ends.
-/

namespace Iqrf.Connector.Uart

open HdlcFrame UartConnector

namespace UartConnector

instance (call : Sending) : Decidable call.Torn :=
  inferInstanceAs (Decidable (call.written ≠ [] ∧ call.written ≠ call.message))

/-- The whole frame has reached the line. -/
def SendCall.Arrives (call : SendCall) : Prop := call.sending.written = encoded call.data

/-- What the call puts on the line cannot be read at the other end. -/
def SendCall.Breaks (call : SendCall) : Prop :=
  call.sending.Torn ∨ call.Arrives ∧ hdlc.Reserved (calculateCrc call.data)

instance (call : SendCall) : Decidable call.Arrives :=
  inferInstanceAs (Decidable (call.sending.written = encoded call.data))

instance (call : SendCall) : Decidable call.Breaks :=
  inferInstanceAs (Decidable (call.sending.Torn ∨ call.Arrives ∧
    (calculateCrc call.data = hdlcFlag ∨ calculateCrc call.data = hdlcEscape)))

/-- What the calls put on the line, one after the other. -/
def burstBytes (burst : List SendCall) : Bytes := burst.flatMap fun call => call.sending.written

/-- What is read at the other end: the bytes of the calls, and a timeout after each burst
of them. A burst without calls is a longer silence. -/
def linkReads (bursts : List (List SendCall)) : List Read :=
  bursts.flatMap fun burst => (burstBytes burst).map .byte ++ [.timeout]

/-- Nothing follows a torn frame. -/
def Parted (burst : List SendCall) : Prop :=
  burst.Pairwise fun call later => call.sending.Torn → later.sending.written = []

/-- The payload of the last whole frame. -/
def handed (burst : List SendCall) : Option Bytes :=
  (burst.filter fun call => call.Arrives).getLast?.map SendCall.data

/-- What the bursts before the first one that breaks the link hand over. -/
def deliverable (bursts : List (List SendCall)) : List Bytes :=
  (bursts.takeWhile fun burst => ∀ call ∈ burst, ¬ call.Breaks).filterMap handed

/-! ## One call -/

variable {call : SendCall}

theorem prefix_of_sending (call : SendCall) : call.sending.written <+: encoded call.data := by
  by_cases empty : call.data = []
  · have nothing : call.sending.written = [] := by
      rw [SendCall.sending, send, empty]
      rfl
    rw [nothing]
    exact List.nil_prefix
  · rw [written_sending empty]
    exact List.take_prefix ..

/-- A call without data puts nothing on the line. -/
theorem data_ne_nil_of_arrives (arrives : call.Arrives) : call.data ≠ [] := by
  intro empty
  rw [SendCall.Arrives, SendCall.sending, send, empty] at arrives
  cases arrives

/-- A call puts nothing on the line, its whole frame, or a torn one. -/
theorem sending_cases (call : SendCall) :
    call.sending.written = [] ∨ call.Arrives ∨ call.sending.Torn := by
  by_cases nothing : call.sending.written = []
  · exact Or.inl nothing
  · by_cases arrives : call.Arrives
    · exact Or.inr (Or.inl arrives)
    · exact Or.inr (Or.inr ⟨nothing, arrives⟩)

section Feeding

variable {frame : HdlcFrame} {burst : List SendCall}

/-- A torn frame leaves the decoder inside it. -/
theorem strict_of_torn (idle : frame.Idle) (torn : call.sending.Torn) :
    ∃ t, Feed.strict decodeByte frame call.sending.written = (t, .ok ()) ∧ t.decoding = true := by
  have free := flag_notMem_encodedBody call.data
  have read := unstuff_encodedBody call.data
  obtain ⟨t, run, inside⟩ :=
    strict_proper_prefix idle free read (prefix_of_sending call) torn.2
  exact ⟨t, run, inside torn.1⟩

theorem strict_of_arrives (idle : frame.Idle) (arrives : call.Arrives)
    (ordinary : ¬ hdlc.Reserved (calculateCrc call.data)) :
    Feed.strict decodeByte frame call.sending.written = (holding call.data, .ok ()) := by
  have carries := (carries_encodedBody_iff (data_ne_nil_of_arrives arrives)).mpr ordinary
  rw [arrives, encoded]
  exact strict_frame_of_carries idle (flag_notMem_encodedBody _) carries

/-- A whole frame whose CRC is reserved is rejected. -/
theorem strict_of_reserved (idle : frame.Idle) (arrives : call.Arrives)
    (reserved : hdlc.Reserved (calculateCrc call.data)) :
    ∃ t e, Feed.strict decodeByte frame call.sending.written = (t, .error e) := by
  rcases run : Feed.strict decodeByte frame call.sending.written with ⟨t, e | ⟨⟩⟩
  · exact ⟨t, e, rfl⟩
  · rw [arrives, encoded] at run
    obtain ⟨p, carries, -⟩ := carries_of_strict_frame idle (flag_notMem_encodedBody _) run
    have both := carries.2
    rw [unstuff_encodedBody] at both
    obtain ⟨same, -⟩ := List.append_inj' (Option.some.inj both) rfl
    subst same
    exact absurd reserved ((carries_encodedBody_iff carries.1).mp carries)

/-- A call that does not break the link puts its whole frame on the line or nothing. -/
theorem strict_of_not_breaks (idle : frame.Idle) (kept : ¬ call.Breaks) :
    Feed.strict decodeByte frame call.sending.written =
      (if call.Arrives then holding call.data else frame, .ok ()) := by
  rcases sending_cases call with nothing | arrives | torn
  · have absent : ¬ call.Arrives := by
      rw [SendCall.Arrives, nothing]
      exact fun same => by cases same
    rw [nothing, if_neg absent]
    rfl
  · rw [if_pos arrives]
    exact strict_of_arrives idle arrives fun reserved => kept (Or.inr ⟨arrives, reserved⟩)
  · exact absurd (Or.inl torn) kept

theorem burstBytes_cons (call : SendCall) (burst : List SendCall) :
    burstBytes (call :: burst) = call.sending.written ++ burstBytes burst := rfl

theorem handed_cons (call : SendCall) (burst : List SendCall) :
    handed (call :: burst) =
      (handed burst).or (if call.Arrives then some call.data else none) := by
  unfold handed
  by_cases arrives : call.Arrives
  · rw [List.filter_cons_of_pos (by simpa using arrives), List.getLast?_cons, if_pos arrives]
    cases (burst.filter fun call => call.Arrives).getLast? <;> rfl
  · rw [List.filter_cons_of_neg (by simpa using arrives), if_neg arrives, Option.or_none]

/-! ## One burst -/

/-- In a burst without a broken frame each whole frame takes the place of the one before. -/
theorem strict_burstBytes (idle : frame.Idle) (kept : ∀ call ∈ burst, ¬ call.Breaks) :
    Feed.strict decodeByte frame (burstBytes burst) =
      (((handed burst).map holding).getD frame, .ok ()) := by
  induction burst generalizing frame with
  | nil => rfl
  | cons call burst ih =>
    have first := strict_of_not_breaks idle (kept call List.mem_cons_self)
    have next : HdlcFrame.Idle (if call.Arrives then holding call.data else frame) := by
      split
      · exact idle_holding _
      · exact idle
    rw [burstBytes_cons, Feed.strict_append_of_ok first,
      ih next fun later member => kept later (List.mem_cons_of_mem call member), handed_cons]
    by_cases arrives : call.Arrives
    · rw [if_pos arrives, if_pos arrives]
      cases handed burst <;> rfl
    · rw [if_neg arrives, if_neg arrives, Option.or_none]

theorem decodeData_burstBytes (kept : ∀ call ∈ burst, ¬ call.Breaks) :
    decodeData (burstBytes burst) = .ok ((handed burst).getD []) := by
  refine decodeData_eq_ok_iff.mpr ⟨_, strict_burstBytes idle_default kept, ?_⟩
  cases handed burst <;> exact ⟨rfl, rfl⟩

/-- A burst with a broken frame throws, or leaves the decoder inside its last frame. -/
theorem strict_burstBytes_of_breaks (idle : frame.Idle) (parted : Parted burst)
    (breaks : ∃ call ∈ burst, call.Breaks) :
    (∃ t e, Feed.strict decodeByte frame (burstBytes burst) = (t, .error e)) ∨
      ∃ t, Feed.strict decodeByte frame (burstBytes burst) = (t, .ok ()) ∧ t.decoding = true := by
  induction burst generalizing frame with
  | nil =>
    obtain ⟨call, member, -⟩ := breaks
    cases member
  | cons call burst ih =>
    obtain ⟨alone, rest⟩ := List.pairwise_cons.mp parted
    by_cases broken : call.Breaks
    · rcases broken with torn | ⟨arrives, reserved⟩
      · have nothing : burstBytes burst = [] :=
          List.flatMap_eq_nil_iff.mpr fun later member => alone later member torn
        rw [burstBytes_cons, nothing, List.append_nil]
        exact Or.inr (strict_of_torn idle torn)
      · obtain ⟨t, e, thrown⟩ := strict_of_reserved idle arrives reserved
        exact Or.inl ⟨t, e, Feed.strict_append_of_error thrown _⟩
    · have next : HdlcFrame.Idle (if call.Arrives then holding call.data else frame) := by
        split
        · exact idle_holding _
        · exact idle
      have later : ∃ call ∈ burst, call.Breaks := by
        obtain ⟨other, member, breaks⟩ := breaks
        rcases List.mem_cons.mp member with same | member
        · exact absurd (same ▸ breaks) broken
        · exact ⟨other, member, breaks⟩
      rw [burstBytes_cons, Feed.strict_append_of_ok (strict_of_not_breaks idle broken)]
      exact ih next rest later

theorem decodeData_of_breaks (parted : Parted burst) (breaks : ∃ call ∈ burst, call.Breaks) :
    ∃ e, decodeData (burstBytes burst) = .error e := by
  rcases decoded : decodeData (burstBytes burst) with e | d
  · exact ⟨e, rfl⟩
  · obtain ⟨frame, run, closed, -⟩ := decodeData_eq_ok_iff.mp decoded
    rcases strict_burstBytes_of_breaks idle_default parted breaks with
      ⟨t, e, thrown⟩ | ⟨t, taken, inside⟩
    · rw [run] at thrown
      cases thrown
    · rw [run] at taken
      cases taken
      rw [closed] at inside
      cases inside

end Feeding

/-! ## What the calls of `receive` return -/

theorem linkReads_cons (burst : List SendCall) (bursts : List (List SendCall)) :
    linkReads (burst :: bursts) =
      (burstBytes burst).map .byte ++ .timeout :: linkReads bursts := by
  rw [linkReads, List.flatMap_cons, List.append_assoc, List.singleton_append]
  rfl

theorem deliverable_cons_of_breaks {burst : List SendCall} (breaks : ∃ call ∈ burst, call.Breaks)
    (bursts : List (List SendCall)) : deliverable (burst :: bursts) = [] := by
  rw [deliverable, List.takeWhile_cons_of_neg (by simpa using breaks)]
  rfl

theorem deliverable_cons_of_kept {burst : List SendCall} (kept : ∀ call ∈ burst, ¬ call.Breaks)
    (bursts : List (List SendCall)) :
    deliverable (burst :: bursts) = (handed burst).toList ++ deliverable bursts := by
  rw [deliverable, List.takeWhile_cons_of_pos (by simpa using kept), List.filterMap_cons]
  cases handed burst <;> rfl

/-- What is handed over is no empty buffer. -/
theorem filter_handed (burst : List SendCall) :
    [(handed burst).getD []].filter (· ≠ []) = (handed burst).toList := by
  rcases last : handed burst with _ | d
  · rfl
  · obtain ⟨call, among, same⟩ := Option.map_eq_some_iff.mp last
    have arrives : call.Arrives := by
      simpa using (List.mem_filter.mp (List.mem_of_getLast? among)).2
    rw [← same]
    exact List.filter_cons_of_pos (by simpa using data_ne_nil_of_arrives arrives)

end UartConnector

/-! ## The whole link -/

section Link

variable {H : Type*} {returns : Delivery H → Bool} {c : IConnector H}

open UartConnector

/-- The loop goes through the bursts one after the other, as long as none breaks the link. -/
theorem listeningLoop_linkReads
    (present : c.hasExclusiveAccess = true ∨ c.normalResponseHandler.isSome = true)
    (listening : c.listening = true) (returned : ∀ delivery, returns delivery = true)
    {bursts : List (List SendCall)} (parted : ∀ burst ∈ bursts, Parted burst) :
    UartConnector.listeningLoop returns c (linkReads bursts) =
      ({ c with listening := decide (∀ burst ∈ bursts, ∀ call ∈ burst, ¬ call.Breaks) },
        (deliverable bursts).flatMap (entitled c)) := by
  induction bursts with
  | nil =>
    have unchanged : ({ c with listening := true } : IConnector H) = c := by rw [← listening]
    simp [linkReads, deliverable, UartConnector.listeningLoop, receiveResults,
      Connector.listeningLoop, unchanged]
  | cons burst bursts ih =>
    rw [UartConnector.listeningLoop, linkReads_cons]
    by_cases kept : ∀ call ∈ burst, ¬ call.Breaks
    · rw [receiveResults_segment_of_ok (decodeData_burstBytes kept), List.map_cons,
        ← List.singleton_append]
      have first := listeningLoop_append_buffers returned present listening
        [(handed burst).getD []] ((receiveResults {} (linkReads bursts)).map Except.toOption)
      rw [List.map_singleton, filter_handed] at first
      have same : decide (∀ other ∈ burst :: bursts, ∀ call ∈ other, ¬ call.Breaks) =
          decide (∀ other ∈ bursts, ∀ call ∈ other, ¬ call.Breaks) :=
        decide_eq_decide.mpr (List.forall_mem_cons.trans (and_iff_right kept))
      rw [deliverable_cons_of_kept kept, List.flatMap_append, same]
      refine first.trans ?_
      rw [← UartConnector.listeningLoop,
        ih fun other member => parted other (List.mem_cons_of_mem burst member)]
    · -- `receive` throws, and the exception leaves the loop
      have breaks : ∃ call ∈ burst, call.Breaks := by
        simpa only [not_forall, not_not, exists_prop] using kept
      obtain ⟨e, thrown⟩ := decodeData_of_breaks (parted burst List.mem_cons_self) breaks
      obtain ⟨later, results⟩ := receiveResults_segment_of_error thrown (linkReads bursts)
      have stopped : decide (∀ other ∈ burst :: bursts, ∀ call ∈ other, ¬ call.Breaks) = false :=
        decide_eq_false fun all => kept (all burst List.mem_cons_self)
      rw [results, List.map_cons, deliverable_cons_of_breaks breaks, stopped]
      exact listeningLoop_cons_none listening _

/-- **What arrives over the line.** Whatever each write does, and however many calls there
are between two timeouts, the listening connector is handed the payload of the last whole
frame in front of each timeout, in order, up to the first burst with a torn frame or a
frame with a reserved CRC; it still listens at the end exactly if there is no such burst. -/
theorem link_delivers
    (present : c.hasExclusiveAccess = true ∨ c.normalResponseHandler.isSome = true)
    (listening : c.listening = true) (returned : ∀ delivery, returns delivery = true)
    (bursts : List (List SendCall)) (parted : ∀ burst ∈ bursts, Parted burst) :
    UartConnector.listeningLoop returns c (linkReads bursts) =
      ({ c with listening := decide (∀ burst ∈ bursts, ∀ call ∈ burst, ¬ call.Breaks) },
        (deliverable bursts).flatMap (entitled c)) :=
  listeningLoop_linkReads present listening returned parted

/-- A whole frame, two that come without a pause, a write that times out before the first
byte, a torn frame, and a whole frame that comes too late. -/
theorem link_delivers_torn :
    UartConnector.listeningLoop (fun _ => true)
        { normalResponseHandler := some 0, listening := true }
        (linkReads [[⟨[0x01], .wrote 4⟩], [⟨[0x02], .wrote 4⟩, ⟨[0x03], .wrote 4⟩],
          [⟨[0x04], .wrote 0⟩], [], [⟨[0x05], .failed .supp 2⟩], [⟨[0x06], .wrote 4⟩]]) =
      ({ normalResponseHandler := some 0, listening := false },
        [⟨.normal, (0 : Nat), [0x01]⟩, ⟨.normal, 0, [0x03]⟩]) := by
  rw [link_delivers (Or.inr rfl) rfl (fun _ => rfl) _ (by unfold Parted; decide)]
  decide

end Link

end Iqrf.Connector.Uart
