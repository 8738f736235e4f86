import Iqrf.Connector.Tcp.TcpConnector
import Iqrf.Connector.Uart.RoundTrip
import Iqrf.Connector.Uart.UartConnector
import Iqrf.Connector.Uart.Verified
import Mathlib.Data.List.TakeDrop

/-!
# What a send that returns has sent

A `Sending` is one call of a connector's `send` as its transport and its caller saw
it. `Truthful` says of a run of calls what a caller takes for granted: a call that
returned has put its whole message on the transport, and behind no torn one. Over TCP
every call that ends returns, so the second part follows from the first; over the UART
a write may report its error when a part of the frame is on the line already.
-/

namespace Iqrf.Connector

open Runs

/-- A call of `send`: the whole message, the bytes of it that reached the transport,
and whether the call returned. -/
structure Sending where
  message : Bytes
  written : Bytes
  returned : Bool
  deriving DecidableEq

/-- What the calls have put on the transport. -/
def wire (calls : List Sending) : Bytes := calls.flatMap Sending.written

/-- A call that returned has sent its message. -/
def Sending.Whole (call : Sending) : Prop := call.returned = true → call.written = call.message

/-- A part of the message was written, and not all of it. -/
def Sending.Torn (call : Sending) : Prop := call.written ≠ [] ∧ call.written ≠ call.message

/-- Each call that returned has sent its message, and no torn one precedes it. -/
structure Truthful (calls : List Sending) : Prop where
  whole : ∀ call ∈ calls, call.Whole
  unbroken : calls.Pairwise fun earlier later => later.returned = true → ¬ earlier.Torn

theorem truthful_nil : Truthful [] := ⟨fun _ member => absurd member List.not_mem_nil, .nil⟩

theorem Truthful.of_append {calls later : List Sending} (truthful : Truthful (calls ++ later)) :
    Truthful calls where
  whole call member := truthful.whole call (List.mem_append_left later member)
  unbroken := (List.pairwise_append.mp truthful.unbroken).1

/-- Where every call has returned, the first part is enough. -/
theorem truthful_of_returned {calls : List Sending} (whole : ∀ call ∈ calls, call.Whole)
    (returned : ∀ call ∈ calls, call.returned = true) : Truthful calls := by
  refine ⟨whole, List.pairwise_of_forall_mem_list fun earlier member later _ _ torn => ?_⟩
  exact torn.2 (whole earlier member (returned earlier member))

/-! ## Runs of calls -/

section Run

variable {σ α : Type*}

/-- The connector together with the calls that are over. -/
def record (send : σ → α → Option (σ × Sending)) :
    σ × List Sending → α → Option (σ × List Sending) :=
  fun s a => (send s.1 a).map fun result => (result.1, s.2 ++ [result.2])

/-- Where every call ends, a property of the calls so far that goes over to fewer calls
is one of all calls of the run. -/
theorem always_calls_iff {P : List Sending → Prop}
    (fewer : ∀ calls later, P (calls ++ later) → P calls) (sending : α → Sending)
    {sent : List Sending} (init : P sent) (calls : List α) :
    Always (record fun (_ : Unit) a => some ((), sending a)) (fun _ _ s' => P s'.2) ((), sent)
      calls ↔ P (sent ++ calls.map sending) := by
  induction calls generalizing sent with
  | nil =>
    rw [List.map_nil, List.append_nil]
    exact iff_of_true trivial init
  | cons a calls ih =>
    rw [List.map_cons, List.append_cons]
    apply Iff.intro
    · intro always
      obtain ⟨next, rest⟩ := always _ rfl
      exact (ih next).mp rest
    · intro all s' taken
      cases taken
      have next := fewer _ _ all
      exact ⟨next, (ih next).mpr all⟩

end Run

/-! ## The UART -/

namespace Uart.UartConnector

/-- A call of `send`, and what the write it makes will do. -/
structure SendCall where
  data : Bytes
  write : Write
  deriving DecidableEq

/-- The HDLC frame of a message. -/
def encoded (data : Bytes) : Bytes := hdlcFlag :: (encodedBody data ++ [hdlcFlag])

/-- The call as its transport and its caller see it. -/
def SendCall.sending (call : SendCall) : Sending :=
  ⟨encoded call.data, (send call.data call.write).1, (send call.data call.write).2.isOk⟩

/-- One call, which leaves nothing behind in the connector. -/
def sendCall (_ : Unit) (call : SendCall) : Option (Unit × Sending) := some ((), call.sending)

/-- The write reports an error or has written the whole frame: it does not time out
short. -/
def SendCall.WritesWhole (call : SendCall) : Prop :=
  ∀ count, call.write = .wrote count → (encoded call.data).length ≤ count

/-- The write reports an error when it has written a part of the frame. -/
def SendCall.FailsTorn (call : SendCall) : Prop :=
  ∃ error count, call.write = .failed error count ∧ 0 < count ∧
    count < (encoded call.data).length

/-- The write reports no error. -/
def SendCall.NoError (call : SendCall) : Prop := ∃ count, call.write = .wrote count

theorem send_of_ne_nil {data : Bytes} (nonempty : data ≠ []) (write : Write) :
    send data write =
      ((encoded data).take write.count,
        (checkSerialResult write.lastErrorMessage write.result).map fun _ => ()) := by
  have kept : data.isEmpty = false := List.isEmpty_eq_false_iff.mpr nonempty
  rw [send, kept, HdlcFrame.ofData_of_ne_nil nonempty]
  simp only [encode_holding nonempty, Bool.false_eq_true, if_false]
  cases checkSerialResult write.lastErrorMessage write.result <;> rfl

variable {call : SendCall}

theorem returned_sending_iff (nonempty : call.data ≠ []) :
    call.sending.returned = true ↔ call.NoError := by
  rw [SendCall.sending, send_of_ne_nil nonempty, SendCall.NoError]
  cases call.write with
  | wrote count =>
    have ok : checkSerialResult (Write.wrote count).lastErrorMessage (Write.wrote count).result =
        .ok count := checkSerialResult_of_wrote _ count
    rw [ok]
    exact iff_of_true rfl ⟨count, rfl⟩
  | failed error count =>
    obtain ⟨e, thrown⟩ := checkSerialResult_of_failed
      (Write.failed error count).lastErrorMessage error
    have failed : (Write.failed error count).result = error.code := rfl
    rw [failed, thrown]
    exact iff_of_false nofun nofun

theorem written_sending (nonempty : call.data ≠ []) :
    call.sending.written = (encoded call.data).take call.write.count := by
  rw [SendCall.sending, send_of_ne_nil nonempty]

theorem whole_sending_iff (nonempty : call.data ≠ []) :
    call.sending.Whole ↔ call.WritesWhole := by
  rw [Sending.Whole, returned_sending_iff nonempty, written_sending nonempty]
  apply Iff.intro
  · intro whole count wrote
    have all := whole ⟨count, wrote⟩
    rw [wrote] at all
    exact List.take_eq_self_iff _ |>.mp all
  · intro whole returned
    obtain ⟨count, wrote⟩ := returned
    rw [wrote]
    exact List.take_of_length_le (whole count wrote)

/-- A torn frame is one whose write failed on the way, where no write times out short. -/
theorem torn_sending_iff (nonempty : call.data ≠ []) (whole : call.WritesWhole) :
    call.sending.Torn ↔ call.FailsTorn := by
  have message : call.sending.message = encoded call.data := rfl
  rw [Sending.Torn, written_sending nonempty, message, Ne, Ne, List.take_eq_self_iff,
    List.take_eq_nil_iff, SendCall.FailsTorn]
  cases write : call.write with
  | wrote count =>
    have enough := whole count write
    apply iff_of_false
    · intro torn
      exact torn.2 enough
    · intro fails
      obtain ⟨_, _, same, -⟩ := fails
      cases same
  | failed error count =>
    apply Iff.intro
    · intro torn
      refine ⟨error, count, rfl, ?_, not_le.mp torn.2⟩
      exact Nat.pos_of_ne_zero fun zero => torn.1 (Or.inl zero)
    · intro fails
      obtain ⟨_, _, same, pos, short⟩ := fails
      cases same
      refine ⟨fun empty => ?_, not_le.mpr short⟩
      rcases empty with zero | empty
      · exact absurd zero (Nat.pos_iff_ne_zero.mp pos)
      · cases empty

variable {calls : List SendCall} (data : ∀ call ∈ calls, call.data ≠ [])
include data

theorem whole_map_sending_iff :
    (∀ sending ∈ calls.map SendCall.sending, sending.Whole) ↔
      ∀ call ∈ calls, call.WritesWhole := by
  rw [List.forall_mem_map]
  exact forall₂_congr fun call member => whole_sending_iff (data call member)

theorem always_whole_iff :
    Always (record sendCall) (fun _ _ s' => ∀ call ∈ s'.2, call.Whole) ((), []) calls ↔
      ∀ call ∈ calls, call.WritesWhole := by
  rw [← whole_map_sending_iff data]
  refine always_calls_iff (P := fun calls => ∀ call ∈ calls, call.Whole) ?_ _ ?_ calls
  · intro calls later whole call member
    exact whole call (List.mem_append_left later member)
  · intro call member
    exact absurd member List.not_mem_nil

theorem always_truthful_iff :
    Always (record sendCall) (fun _ _ s' => Truthful s'.2) ((), []) calls ↔
      (∀ call ∈ calls, call.WritesWhole) ∧
        calls.Pairwise fun earlier later => later.NoError → ¬ earlier.FailsTorn := by
  have all := always_calls_iff (fun _ _ => Truthful.of_append) SendCall.sending truthful_nil calls
  have related (whole : ∀ call ∈ calls, call.WritesWhole) :
      (calls.map SendCall.sending).Pairwise
          (fun earlier later => later.returned = true → ¬ earlier.Torn) ↔
        calls.Pairwise fun earlier later => later.NoError → ¬ earlier.FailsTorn := by
    rw [List.pairwise_map]
    refine List.Pairwise.iff_of_mem fun {earlier later} first second => ?_
    rw [returned_sending_iff (data later second),
      torn_sending_iff (data earlier first) (whole earlier first)]
  refine all.trans ⟨fun truthful => ?_, fun given => ?_⟩
  · have whole := (whole_map_sending_iff data).mp truthful.whole
    exact ⟨whole, (related whole).mp truthful.unbroken⟩
  · exact ⟨(whole_map_sending_iff data).mpr given.1, (related given.1).mpr given.2⟩

end Uart.UartConnector

/-! ## TCP -/

namespace Tcp.TcpSocket

/-- A call of `send`, what the write it makes will do, and the attempts to connect that
a reconnect will make. -/
structure SendCall where
  data : Bytes
  write : Write
  attempts : List Bool
  deriving DecidableEq

/-- One call, which may never end. -/
def sendCall (s : TcpSocket) (call : SendCall) : Option (TcpSocket × Sending) :=
  (s.send call.data call.write call.attempts).map fun result =>
    (result.1, ⟨call.data, result.2.1, result.2.2.isOk⟩)

/-- The write does not throw before everything is written. -/
def SendCall.WritesWhole (call : SendCall) : Prop :=
  ∀ count, call.write = .threw count → call.data.length ≤ count

/-- A call that ends has returned. -/
theorem sendCall_cases {s s' : TcpSocket} {call : SendCall} {sending : Sending} (ready : s.Ready)
    (nonempty : call.data ≠ []) (taken : sendCall s call = some (s', sending)) :
    s'.Ready ∧ sending.returned = true ∧ (sending.Whole ↔ call.WritesWhole) := by
  have kept : call.data.isEmpty = false := List.isEmpty_eq_false_iff.mpr nonempty
  unfold sendCall send at taken
  rw [ready.1, kept] at taken
  simp only [Bool.true_eq_false, Bool.false_eq_true, if_false] at taken
  cases write : call.write with
  | all =>
    rw [write] at taken
    cases taken
    refine ⟨ready, rfl, ?_⟩
    simp [Sending.Whole, SendCall.WritesWhole, write]
  | threw count =>
    rw [write] at taken
    simp only [Option.map_map, Option.map_eq_some_iff] at taken
    obtain ⟨t, connected, same⟩ := taken
    cases same
    refine ⟨ready_of_reconnect ready connected, rfl, ?_⟩
    simp [Sending.Whole, SendCall.WritesWhole, write, Except.isOk, Except.toBool,
      List.take_eq_self_iff]

theorem always_truthful_iff {calls : List SendCall} (data : ∀ call ∈ calls, call.data ≠ []) :
    Always (record sendCall) (fun _ _ s' => Truthful s'.2) ({}, []) calls ↔
      Always (record sendCall) (fun _ call _ => call.WritesWhole) ({}, []) calls := by
  refine always_iff_of_invariant_on
    (I := fun s => s.1.Ready ∧ (∀ call ∈ s.2, call.Whole) ∧ ∀ call ∈ s.2, call.returned = true)
    ?_ ?_ ⟨⟨rfl, rfl⟩, truthful_nil.whole, fun _ member => absurd member List.not_mem_nil⟩ data
  · intro s call s' nonempty inv taken
    obtain ⟨⟨t, sending⟩, sent, same⟩ := Option.map_eq_some_iff.mp taken
    subst same
    obtain ⟨-, returned, whole⟩ := sendCall_cases inv.1 nonempty sent
    rw [← whole]
    apply Iff.intro
    · intro truthful
      exact truthful.whole sending (List.mem_append_right _ List.mem_cons_self)
    · intro last
      refine truthful_of_returned ?_ ?_
      · exact List.forall_mem_append.mpr ⟨inv.2.1, List.forall_mem_singleton.mpr last⟩
      · exact List.forall_mem_append.mpr ⟨inv.2.2, List.forall_mem_singleton.mpr returned⟩
  · intro s call s' nonempty inv taken truthful
    obtain ⟨⟨t, sending⟩, sent, same⟩ := Option.map_eq_some_iff.mp taken
    subst same
    obtain ⟨ready, returned, -⟩ := sendCall_cases inv.1 nonempty sent
    exact ⟨ready, truthful.whole,
      List.forall_mem_append.mpr ⟨inv.2.2, List.forall_mem_singleton.mpr returned⟩⟩

end Tcp.TcpSocket

/-! ## Both connectors -/

/-- **When a send that returns has sent its message.** Over every run of calls with data:

* over the UART, each call that returns has written its whole frame exactly if no write
  times out short, and no torn frame precedes it exactly if in addition no write that
  fails on the way is followed by one that reports no error;
* over TCP, both hold exactly if no write of a call that ends throws before everything
  is written. -/
theorem send_truthful_iff (uartCalls : List Uart.UartConnector.SendCall)
    (tcpCalls : List Tcp.TcpSocket.SendCall) (uartData : ∀ call ∈ uartCalls, call.data ≠ [])
    (tcpData : ∀ call ∈ tcpCalls, call.data ≠ []) :
    (Always (record Uart.UartConnector.sendCall) (fun _ _ s' => ∀ call ∈ s'.2, call.Whole)
        ((), []) uartCalls ↔
      ∀ call ∈ uartCalls, call.WritesWhole) ∧
    (Always (record Uart.UartConnector.sendCall) (fun _ _ s' => Truthful s'.2) ((), [])
        uartCalls ↔
      (∀ call ∈ uartCalls, call.WritesWhole) ∧
        uartCalls.Pairwise fun earlier later => later.NoError → ¬ earlier.FailsTorn) ∧
    (Always (record Tcp.TcpSocket.sendCall) (fun _ _ s' => Truthful s'.2) ({}, []) tcpCalls ↔
      Always (record Tcp.TcpSocket.sendCall) (fun _ call _ => call.WritesWhole) ({}, [])
        tcpCalls) := by
  refine ⟨?_, ?_, ?_⟩
  · exact Uart.UartConnector.always_whole_iff uartData
  · exact Uart.UartConnector.always_truthful_iff uartData
  · exact Tcp.TcpSocket.always_truthful_iff tcpData

/-- Two frames over the UART of which the second fails on the way, and two messages over
TCP of which the second throws and is never answered by a connection. -/
theorem send_truthful_two :
    Always (record Uart.UartConnector.sendCall) (fun _ _ s' => Truthful s'.2) ((), [])
        [⟨[0x01], .wrote 4⟩, ⟨[0x02], .failed .supp 1⟩] ∧
      Always (record Tcp.TcpSocket.sendCall) (fun _ _ s' => Truthful s'.2) ({}, [])
        [⟨[0x01], .all, []⟩, ⟨[0x02, 0x03], .threw 1, [false]⟩] := by
  have both := send_truthful_iff [⟨[0x01], .wrote 4⟩, ⟨[0x02], .failed .supp 1⟩]
    [⟨[0x01], .all, []⟩, ⟨[0x02, 0x03], .threw 1, [false]⟩] (by simp) (by simp)
  refine ⟨both.2.1.mpr ⟨?_, ?_⟩, both.2.2.mpr ?_⟩
  · intro call member count wrote
    rcases List.mem_pair.mp member with same | same
    · subst same
      cases wrote
      decide
    · subst same
      cases wrote
  · refine List.pairwise_pair.mpr fun noError => ?_
    obtain ⟨count, wrote⟩ := noError
    cases wrote
  · intro s taken
    cases taken
    refine ⟨nofun, fun s taken => ?_⟩
    -- the second call never ends
    cases taken

/-- A write over the UART that times out after two of four bytes returns like any other;
the frame sent after it is lost to a decoder at the other end. A write over TCP that
throws is answered by a reconnect, and the call returns too. -/
theorem not_send_truthful :
    (¬ ∀ calls : List Uart.UartConnector.SendCall, (∀ call ∈ calls, call.data ≠ []) →
      Always (record Uart.UartConnector.sendCall) (fun _ _ s' => ∀ call ∈ s'.2, call.Whole)
        ((), []) calls) ∧
    (∃ calls : List Sending, run (record Uart.UartConnector.sendCall) ((), [])
        [⟨[0x01], .wrote 2⟩, ⟨[0x01], .wrote 4⟩] = some ((), calls) ∧
      calls.map Sending.returned = [true, true] ∧
      (Uart.HdlcFrame.after (wire calls)).getData = .error .frameNotFullyDecoded) ∧
    ¬ ∀ calls : List Tcp.TcpSocket.SendCall, (∀ call ∈ calls, call.data ≠ []) →
      Always (record Tcp.TcpSocket.sendCall) (fun _ _ s' => ∀ call ∈ s'.2, call.Whole) ({}, [])
        calls := by
  refine ⟨?_, ?_, ?_⟩
  · intro whole
    have short := (whole [⟨[0x01], .wrote 2⟩] (by simp) _ rfl).1 _ List.mem_cons_self rfl
    exact absurd short (by decide)
  · exact ⟨_, rfl, rfl, rfl⟩
  · intro whole
    have short := (whole [⟨[0x01], .threw 0, [true]⟩] (by simp) _ rfl).1 _ List.mem_cons_self rfl
    exact absurd short (by decide)

end Iqrf.Connector
