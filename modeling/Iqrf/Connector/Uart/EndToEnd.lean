import Iqrf.Connector.Locking
import Iqrf.Connector.Uart.Link

/-!
# From the clients at one end to the handlers at the other

Any threads use one connector under its guard, piece by piece and with handlers that call it
back, and what its `send` does to the transport is what `UartConnector::send` does to a serial
port. Nobody calls the latter itself, which is public and takes no token. Another connector
listens at the other end of the line. `sends` stands for what the clients of the first one
pass to `send`, and with which token.

`handlers_get_sent` puts the two together: the wire carries whole calls of `send` one after
the other, whichever way the threads took turns, and the handlers at the other end are
called with what of it arrives, so with nothing that no client has sent. How the calls come
in bursts there is given, and that no torn frame is followed by another in its burst.
-/

namespace Iqrf.Connector.Uart

open Runs RecursiveLock UartConnector

variable {H K : Type*} (sends : AccessToken → Bytes → Prop)

/-- What a call of `send` does to the transport, where that is a serial port. -/
def UartConnector.SendCall.transfer (call : SendCall) : Transfer :=
  ⟨[call.sending.written], call.sending.returned⟩

/-! ## What the clients may do -/

/-- What is sent is sent over the serial port, and is one of the messages in `sends`. -/
def Serial : Request H → Prop
  | .send data token transfer =>
    sends token data ∧ ∃ write, transfer = SendCall.transfer ⟨data, write⟩
  | _ => True

/-- Handlers send in this way, whatever their calls return. -/
def SerialScript : Script H → Prop
  | .ends _ => True
  | .calls request next => Serial sends request ∧ ∀ response, SerialScript (next response)

def SerialOperation : Operation H → Prop
  | .request asked => Serial sends asked
  | .dispatch handlers _ => ∀ delivery, SerialScript sends (handlers delivery)

/-! ## What reaches the port -/

/-- The transfers are those of some calls of `send` that were asked for, none of them with the
token of a sniffer. -/
structure Sent (p : Port H) (sent : List (AccessToken × SendCall)) : Prop where
  transfers : p.transfers = sent.map fun s => (s.1, s.2.transfer)
  asked : ∀ s ∈ sent, sends s.1 s.2.data ∧ s.1.accessType ≠ .sniffer

/-- The port has carried what was asked for and nothing else. -/
def Conveys (p : Port H) : Prop := ∃ sent, Sent sends p sent

variable {sends} {p : Port H} {handlers : Delivery H → Script H}

theorem Conveys.request (conveys : Conveys sends p) {request : Request H}
    (serial : Serial sends request) : Conveys sends (request.effect p).1 := by
  obtain ⟨sent, transfers, asked⟩ := conveys
  cases request with
  | hasExclusiveAccess => exact ⟨sent, transfers, asked⟩
  | registerResponseHandler responseHandler access => exact ⟨sent, transfers, asked⟩
  | send data token transfer =>
    obtain ⟨member, write, same⟩ := serial
    subst same
    rw [Request.effect]
    split
    · rename_i reached
      have admitted : token.accessType ≠ .sniffer := by
        intro sniffer
        simp [IConnector.send, sniffer] at reached
      refine ⟨sent ++ [(token, ⟨data, write⟩)], ?_, ?_⟩
      · rw [List.map_append, List.map_singleton, ← transfers]
        rfl
      · rw [List.forall_mem_append, List.forall_mem_singleton]
        exact ⟨asked, member, admitted⟩
    · exact ⟨sent, transfers, asked⟩
  | unregisterResponseHandler token => exact ⟨sent, transfers, asked⟩

theorem Conveys.script {script : Script H} (conveys : Conveys sends p)
    (serial : SerialScript sends script) : Conveys sends (script.effect p).1 := by
  induction script generalizing p with
  | ends returned => exact conveys
  | calls request next ih => exact ih _ (conveys.request serial.1) (serial.2 _)

theorem Conveys.slotCalled (conveys : Conveys sends p)
    (serial : ∀ delivery, SerialScript sends (handlers delivery)) (access : AccessType)
    (recvBuffer : Bytes) : Conveys sends (p.slotCalled handlers access recvBuffer).1 := by
  unfold Port.slotCalled
  split
  · exact conveys
  · obtain ⟨sent, transfers, asked⟩ := conveys
    exact Conveys.script ⟨sent, transfers, asked⟩ (serial _)

theorem Conveys.operation (conveys : Conveys sends p) {operation : Operation H}
    (allowed : SerialOperation sends operation) : Conveys sends (operation.effect p).1 := by
  cases operation with
  | request asked => exact conveys.request allowed
  | dispatch handlers recvBuffer =>
    have first := conveys.slotCalled allowed p.connector.served recvBuffer
    unfold Operation.effect Port.dispatched
    dsimp only
    split
    · split
      · exact first.slotCalled allowed .sniffer recvBuffer
      · exact first
    · exact first

/-- The bytes on the wire are those of the calls, one after the other. -/
theorem Sent.wire {sent : List (AccessToken × SendCall)} (calls : Sent sends p sent)
    (settled : p.Settled) :
    p.written.flatMap Prod.snd = sent.flatMap fun s => s.2.sending.written := by
  rw [settled, Port.meant, calls.transfers, List.flatMap_map, List.flatMap_assoc]
  exact List.flatMap_congr fun s _ => by simp [SendCall.transfer]

/-! ## Both ends -/

theorem mem_deliverable {bursts : List (List SendCall)} {d : Bytes}
    (member : d ∈ deliverable bursts) : ∃ call ∈ bursts.flatten, call.data = d := by
  obtain ⟨burst, kept, last⟩ := List.mem_filterMap.mp member
  obtain ⟨call, among, same⟩ := Option.map_eq_some_iff.mp last
  have inside : call ∈ burst := (List.mem_filter.mp (List.mem_of_getLast? among)).1
  exact ⟨call, List.mem_flatten_of_mem ((List.takeWhile_sublist _).subset kept) inside, same⟩

theorem buffer_of_entitled {c : IConnector K} {d : Bytes} {delivery : Delivery K}
    (member : delivery ∈ entitled c d) : delivery.buffer = d := by
  unfold entitled at member
  rcases List.mem_append.mp member with served | sniffed
  · split at served
    · rw [List.mem_singleton.mp served]
    · rw [List.mem_singleton.mp served]
    · cases served
  · split at sniffed
    · rw [List.mem_singleton.mp sniffed]
    · cases sniffed

section EndToEnd

variable {T : Type*} [DecidableEq T] {c : IConnector H} {d : IConnector K}
  {returns : Delivery K → Bool} {m : Machine T (Port H) Response}
  {actions : List (Action T {operation : Operation H // SerialOperation sends operation})}

/-- **From clients to handlers.** However the threads of one connector took turns, once none
of them is inside it its wire carries whole calls of `send`, none of them a sniffer's. The
handlers at the other end are called with the data of the last call of each burst whose
frame arrives, in that order, up to the first burst that breaks the link; so each of their
calls is for a message that a client has asked to send. -/
theorem handlers_get_sent
    (reached : run (Machine.step fun operation => Operation.guarded operation.1)
      { shared := { connector := c } } actions = some m) (free : m.owner = none)
    (present : d.hasExclusiveAccess = true ∨ d.normalResponseHandler.isSome = true)
    (listening : d.listening = true) (returned : ∀ delivery, returns delivery = true) :
    ∃ sent, Sent sends m.shared sent ∧
      m.shared.written.flatMap Prod.snd = sent.flatMap (fun s => s.2.sending.written) ∧
      ∀ bursts : List (List SendCall), bursts.flatten = sent.map Prod.snd →
        (∀ burst ∈ bursts, Parted burst) →
        ∃ calls, UartConnector.listeningLoop returns d (linkReads bursts) =
              ({ d with listening := decide (∀ burst ∈ bursts, ∀ call ∈ burst, ¬ call.Breaks) },
                calls) ∧
          calls = (deliverable bursts).flatMap (entitled d) ∧
          ∀ delivery ∈ calls, ∃ token, sends token delivery.buffer ∧
            token.accessType ≠ .sniffer := by
  have sound : ∀ operation : {operation : Operation H // SerialOperation sends operation},
      operation.1.guarded.Keeps Port.Settled Port.Orderly :=
    fun operation => Operation.keeps operation.1
  have blank : ({ connector := c } : Port H).Settled := rfl
  have settled := Machine.settled_of_free sound blank reached free
  have keeps : ∀ operation : {operation : Operation H // SerialOperation sends operation},
      operation.1.guarded.Keeps (Conveys sends) fun _ _ => True := by
    intro operation p conveys
    refine ⟨Program.throughout_true _ p, ?_⟩
    rw [Operation.guarded, Operation.eval_body]
    exact conveys.operation operation.2
  have nothing : Conveys sends ({ connector := c } : Port H) :=
    ⟨[], rfl, fun s member => absurd member List.not_mem_nil⟩
  obtain ⟨sent, calls⟩ := Machine.settled_of_free keeps nothing reached free
  refine ⟨sent, calls, calls.wire settled, fun bursts whole parted =>
    ⟨_, listeningLoop_linkReads present listening returned parted, rfl, ?_⟩⟩
  intro delivery member
  obtain ⟨data, arrived, entitled_⟩ := List.mem_flatMap.mp member
  obtain ⟨call, among, same⟩ := mem_deliverable arrived
  rw [whole] at among
  obtain ⟨s, member', own⟩ := List.mem_map.mp among
  subst own
  rw [buffer_of_entitled entitled_, ← same]
  exact ⟨s.1, calls.asked s member'⟩

/-- One client may send a byte, and one that only listens tries to send as well. -/
def asks (token : AccessToken) (data : Bytes) : Prop := token.accessType = .sniffer ∨ data = [0x01]

def asking (token : AccessToken) (data : Bytes) (allowed : asks token data) :
    {operation : Operation Unit // SerialOperation asks operation} :=
  ⟨.request (.send data token (SendCall.transfer ⟨data, .wrote 4⟩)), allowed, _, rfl⟩

def bothAsk : List (Action Bool {operation : Operation Unit // SerialOperation asks operation}) :=
  [.call true (asking ⟨.normal⟩ [0x01] (.inr rfl)),
    .call false (asking ⟨.sniffer⟩ [0x02] (.inl rfl))] ++
    List.replicate 7 (.proceed true) ++ List.replicate 2 (.proceed false) ++
    [.return_ false, .return_ true]

theorem handlers_get_sent_bothAsk :
    ∃ m, run (Machine.step fun operation => Operation.guarded operation.1) { shared := {} }
        bothAsk = some m ∧
      ∃ sent, Sent asks m.shared sent ∧
        m.shared.written.flatMap Prod.snd = sent.flatMap (fun s => s.2.sending.written) ∧
        ∀ bursts : List (List SendCall), bursts.flatten = sent.map Prod.snd →
          (∀ burst ∈ bursts, Parted burst) →
          ∃ calls, UartConnector.listeningLoop (fun _ => true)
              { normalResponseHandler := some 0, listening := true } (linkReads bursts) =
                ({ normalResponseHandler := some (0 : Nat),
                   listening := decide (∀ burst ∈ bursts, ∀ call ∈ burst, ¬ call.Breaks) },
                  calls) ∧
            calls = (deliverable bursts).flatMap
              (entitled { normalResponseHandler := some 0, listening := true }) ∧
            ∀ delivery ∈ calls, ∃ token, asks token delivery.buffer ∧
              token.accessType ≠ .sniffer := by
  have reached : run (Machine.step fun operation => Operation.guarded operation.1)
      { shared := {} } bothAsk = some _ := rfl
  exact ⟨_, reached, handlers_get_sent reached rfl (Or.inr rfl) rfl fun _ => rfl⟩

end EndToEnd

end Iqrf.Connector.Uart
