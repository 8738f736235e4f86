import Iqrf.Connector.IConnector

/-!
# Receiving and sending over TCP

A call of `receive` starts a deadline and a read and runs the I/O context until both
completion handlers have run. `Receive` holds the locals of a call and the two
operations; `runTimer` and `runRead` are the handlers, each of which cancels the
other operation, in vain if that one has completed already. `TcpReceiver.step` makes
one call after another, in every order of completions and handlers.

`send` writes to the socket and answers a failed write with `reconnect`, whose loop
of attempts ends with the first one that succeeds, if any does.
-/

namespace Iqrf.Connector.Tcp

open Runs

/-- The `boost::system::error_code`s that `receive` tells apart. -/
inductive ErrorCode
  | success
  | operationAborted
  | eof
  | connectionReset
  | other
  deriving DecidableEq, Repr

/-- What `receive` throws. -/
inductive ReceiveError
  | socketIsNotOpen
  deriving DecidableEq, Repr

/-- The text the exception carries. -/
def ReceiveError.what : ReceiveError → String
  | socketIsNotOpen => "Socket is not open"

/-- An asynchronous operation: under way, completed with its handler queued, or with
its handler run. -/
inductive Operation (α : Type)
  | pending
  | queued (completion : α)
  | ran
  deriving DecidableEq, Repr

/-- Cancelling completes an operation that is under way and no other. -/
def Operation.cancel {α : Type} (aborted : α) : Operation α → Operation α
  | .pending => .queued aborted
  | .queued completion => .queued completion
  | .ran => .ran

/-- The locals of a call of `receive` and its two operations. -/
structure Receive where
  buffer : Bytes := List.replicate 1024 0
  ec : ErrorCode := .success
  bytesRead : Nat := 0
  timeout : Bool := false
  deadline : Operation ErrorCode := .pending
  read : Operation (ErrorCode × Nat) := .pending
  deriving DecidableEq

namespace Receive

/-- The handler of `deadline.async_wait`. -/
def timerHandler (r : Receive) (error : ErrorCode) : Receive :=
  if error = .success then
    { r with timeout := true, read := r.read.cancel (.operationAborted, 0) }
  else r

/-- The handler of `socket.async_read_some`. -/
def readHandler (r : Receive) (error : ErrorCode) (length : Nat) : Receive :=
  { r with ec := error, bytesRead := length, deadline := r.deadline.cancel .operationAborted }

/-- The deadline expires. -/
def expire (r : Receive) : Option Receive :=
  match r.deadline with
  | .pending => some { r with deadline := .queued .success }
  | _ => none

/-- The read takes data from the socket, as much as the buffer holds. -/
def arrive (r : Receive) (data : Bytes) : Option Receive :=
  match r.read with
  | .pending =>
    if data.length ≤ r.buffer.length then
      some { r with
        buffer := data ++ r.buffer.drop data.length, read := .queued (.success, data.length) }
    else none
  | _ => none

/-- The read fails. -/
def fail (r : Receive) (error : ErrorCode) : Option Receive :=
  match r.read with
  | .pending => some { r with read := .queued (error, 0) }
  | _ => none

/-- `ioContext.run()` runs the queued handler of the deadline. -/
def runTimer (r : Receive) : Option Receive :=
  match r.deadline with
  | .queued error => some ({ r with deadline := .ran }.timerHandler error)
  | _ => none

/-- `ioContext.run()` runs the queued handler of the read. -/
def runRead (r : Receive) : Option Receive :=
  match r.read with
  | .queued (error, length) => some ({ r with read := .ran }.readHandler error length)
  | _ => none

/-- What the call returns once both handlers have run, and whether it reconnects. -/
def result (r : Receive) : Bytes × Bool :=
  if r.timeout then ([], false)
  else if r.ec = .eof ∨ r.ec = .connectionReset then ([], true)
  else if r.ec ≠ .success then ([], true)
  else (r.buffer.take r.bytesRead, false)

end Receive

/-- A step of the connector: a call starts, the deadline or the read completes, a
handler runs, the call returns. -/
inductive TcpAction
  | receive
  | expire
  | arrive (data : Bytes)
  | fail (error : ErrorCode)
  | runTimer
  | runRead
  | return_
  deriving DecidableEq

/-- The connector with its call in progress, the buffers returned so far and the bytes
that each completed read took from the socket. -/
structure TcpReceiver where
  isOpen : Bool := true
  call : Option Receive := none
  raised : Option ReceiveError := none
  returned : List Bytes := []
  consumed : List Bytes := []
  reconnects : Nat := 0
  deriving DecidableEq

namespace TcpReceiver

def step (s : TcpReceiver) (action : TcpAction) : Option TcpReceiver :=
  match action, s.call with
  | .receive, none =>
    if s.isOpen then some { s with raised := none, call := some {} }
    else some { s with raised := some .socketIsNotOpen }
  | .expire, some r => r.expire.map fun r => { s with call := some r }
  | .arrive data, some r =>
    (r.arrive data).map fun r => { s with call := some r, consumed := s.consumed ++ [data] }
  | .fail error, some r => (r.fail error).map fun r => { s with call := some r }
  | .runTimer, some r => r.runTimer.map fun r => { s with call := some r }
  | .runRead, some r => r.runRead.map fun r => { s with call := some r }
  | .return_, some r =>
    if r.deadline = .ran ∧ r.read = .ran then
      some { s with
        call := none, returned := s.returned ++ [r.result.1],
        reconnects := s.reconnects + if r.result.2 then 1 else 0 }
    else none
  | _, _ => none

end TcpReceiver

/-! ## Sending -/

/-- What `boost::asio::write` has done when it is over: it has written everything, or
throws after the first bytes. -/
inductive Write
  | all
  | threw (count : Nat)
  deriving DecidableEq, Repr

/-- What `send` throws. -/
inductive SendError
  | notReady
  | noDataToSend
  deriving DecidableEq, Repr

/-- The text the exception carries. -/
def SendError.what : SendError → String
  | notReady => "TCP connector is not ready"
  | noDataToSend => "No data to send"

/-- The socket and the flag of `connect`. -/
structure TcpSocket where
  isOpen : Bool := true
  connecting : Bool := false
  deriving DecidableEq, Repr

namespace TcpSocket

/-- The loop of `TcpConnector::connect` over its attempts, each of which connects or
not: the socket once it is connected, or `none` while the loop goes on. -/
def connectLoop (s : TcpSocket) : List Bool → Option TcpSocket
  | [] => none
  | true :: _ => some { s with isOpen := true, connecting := false }
  | false :: attempts => connectLoop { s with connecting := true } attempts

/-- `TcpConnector::connect`. -/
def connect (s : TcpSocket) (attempts : List Bool) : Option TcpSocket :=
  if s.connecting then some s else s.connectLoop attempts

/-- `TcpConnector::disconnect`. -/
def disconnect (s : TcpSocket) : TcpSocket := { s with isOpen := false }

/-- `TcpConnector::reconnect`. -/
def reconnect (s : TcpSocket) (attempts : List Bool) : Option TcpSocket :=
  s.disconnect.connect attempts

/-- `TcpConnector::send`: the bytes written to the socket and how the call ended, or
`none` while it is reconnecting. -/
def send (s : TcpSocket) (data : Bytes) (write : Write) (attempts : List Bool) :
    Option (TcpSocket × Bytes × Except SendError Unit) :=
  if s.isOpen = false then some (s, [], .error .notReady)
  else if data.isEmpty then some (s, [], .error .noDataToSend)
  else
    match write with
    | .all => some (s, data, .ok ())
    | .threw count => (s.reconnect attempts).map fun s => (s, data.take count, .ok ())

/-- A socket that is open and not being connected: what `connect` leaves. -/
def Ready (s : TcpSocket) : Prop := s.isOpen = true ∧ s.connecting = false

theorem ready_of_connectLoop {s s' : TcpSocket} {attempts : List Bool}
    (connected : s.connectLoop attempts = some s') : s'.Ready := by
  induction attempts generalizing s with
  | nil => cases connected
  | cons attempt attempts ih =>
    cases attempt with
    | true =>
      cases connected
      exact ⟨rfl, rfl⟩
    | false => exact ih connected

theorem ready_of_reconnect {s s' : TcpSocket} {attempts : List Bool} (ready : s.Ready)
    (connected : s.reconnect attempts = some s') : s'.Ready := by
  rw [reconnect, connect, disconnect, ready.2, if_neg (by decide)] at connected
  exact ready_of_connectLoop connected

end TcpSocket

end Iqrf.Connector.Tcp
