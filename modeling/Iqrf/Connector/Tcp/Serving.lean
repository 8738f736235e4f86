import Iqrf.Connector.Tcp.Connecting
import Iqrf.Connector.Tcp.Receiving

/-!
# What the user of a TCP connector sees

`AtomicConnector` has no operations, no handlers and no turns: `serve` answers a whole
call, with `TcpSocket.connect`, `TcpSocket.reconnect` and `TcpSocket.send` where the
attempts to connect are a list of outcomes, and with what the network has done in the
read. `run_refines` says that this is what a run of the connector shows: the same calls,
with what the network did in each of them, get the same answers.

A call that the network has left alone for good still returns, unless it is in the write
of `send` (`returns_of_run`). As in `Connecting`, one thread makes the calls.
-/

namespace Iqrf.Connector.Tcp

open Runs

/-- What happens in a read: whether the deadline expires, and how the read completes. -/
structure ReadHistory where
  expired : Bool := false
  completed : Option (ErrorCode × Bytes) := none
  deriving DecidableEq

def ReadHistory.update (h : ReadHistory) : TcpAction → ReadHistory
  | .expire => { h with expired := true }
  | .arrive data => { h with completed := some (.success, data) }
  | .fail error => { h with completed := some (error, []) }
  | _ => h

/-- A call of the user, with how its write ends or what happens in its read. -/
inductive UserCall
  | construct
  | send (data : Bytes) (write : Write)
  | receive (read : ReadHistory)
  | destroy
  deriving DecidableEq

/-- The calls that are made in a run, the last one first. A write that is not over yet
stands as a whole one. -/
def UserCall.observe (made : List UserCall) : ConnectorAction → List UserCall
  | .construct => construct :: made
  | .send data => send data .all :: made
  | .receive => receive {} :: made
  | .destroy => destroy :: made
  | .write write =>
    match made with
    | send data _ :: made => send data write :: made
    | made => made
  | .read action =>
    match made with
    | receive read :: made => receive (read.update action) :: made
    | made => made
  | _ => made

/-- A connector that serves each call at once; `none` before its construction and after
its destruction. -/
structure AtomicConnector where
  socket : Option TcpSocket := none
  log : List Event := []
  deriving DecidableEq

/-- A call and the outcomes of its attempts to connect. -/
structure Served where
  call : UserCall
  attempts : List Bool := []
  deriving DecidableEq

/-- The delays between these attempts to connect. -/
def delaysOf (attempts : List Bool) : List Nat :=
  (List.range (attempts.takeWhile (!·)).length).map timeoutAt

namespace AtomicConnector

/-- A read that is over: nothing if the deadline has expired, whatever has arrived; what
has arrived; or nothing, over a new connection. -/
def receive (socket : TcpSocket) (read : ReadHistory) (attempts : List Bool) :
    Option (TcpSocket × Event) :=
  if socket.isOpen = false then some (socket, .received [] (.error .socketIsNotOpen))
  else if read.expired then some (socket, .received [] (.ok []))
  else
    match read.completed with
    | none => none
    | some (.success, data) => some (socket, .received [] (.ok data))
    | some _ =>
      (socket.reconnect attempts).map fun socket =>
        (socket, .received (delaysOf attempts) (.ok []))

def serve (t : AtomicConnector) (served : Served) : Option AtomicConnector :=
  match served.call, t.socket with
  | .construct, none =>
    (TcpSocket.connect { isOpen := false } served.attempts).map fun socket =>
      ⟨some socket, t.log ++ [.constructed (delaysOf served.attempts)]⟩
  | .send data write, some socket =>
    (socket.send data write served.attempts).map fun result =>
      let delays := if data = [] ∨ write = .all then [] else delaysOf served.attempts
      ⟨some result.1, t.log ++ [.sent data result.2.1 delays result.2.2]⟩
  | .receive read, some socket =>
    (receive socket read served.attempts).map fun result =>
      ⟨some result.1, t.log ++ [result.2]⟩
  | .destroy, some _ => some ⟨none, t.log ++ [.destroyed]⟩
  | _, _ => none

end AtomicConnector

/-! ## A read in progress -/

/-- How a read that is over has ended, unless the deadline has cancelled it before. -/
def Ended (r : Receive) (h : ReadHistory) (error : ErrorCode) (length : Nat) : Prop :=
  h.completed = some (error, r.buffer.take length) ∨ r.timeout = true ∧ h.completed = none

/-- The read's operation. -/
def ReadEnds (r : Receive) (h : ReadHistory) : Operation (ErrorCode × Nat) → Prop
  | .pending => h.completed = none
  | .queued (error, length) => Ended r h error length
  | .ran => Ended r h r.ec r.bytesRead

/-- The locals of `receive` are what the deadline and the network make of them. -/
structure Reading (r : Receive) (h : ReadHistory) : Prop where
  deadline : DeadlineInv r.timeout h.expired r.deadline
  read : ReadEnds r h r.read

namespace Reading

variable {r r' : Receive} {h : ReadHistory} {action : TcpAction}

theorem init : Reading {} {} := ⟨⟨rfl, rfl⟩, rfl⟩

theorem Ended.of_timeout {error : ErrorCode} {length : Nat} (ended : Ended r h error length) :
    Ended { r with timeout := true } h error length :=
  ended.imp_right fun given => ⟨rfl, given.2⟩

theorem of_step (reading : Reading r h) (taken : r.step action = some r') :
    Reading r' (h.update action) := by
  obtain ⟨deadline, read⟩ := reading
  cases action with
  | expire =>
    unfold Receive.step Receive.expire at taken
    dsimp only at taken
    split at taken <;> cases taken
    rename_i pending
    rw [pending] at deadline
    exact ⟨⟨deadline.1, by simp [ReadHistory.update]⟩, read⟩
  | arrive data =>
    unfold Receive.step Receive.arrive at taken
    dsimp only at taken
    split at taken
    · split at taken <;> cases taken
      refine ⟨deadline, Or.inl ?_⟩
      dsimp only [ReadHistory.update]
      rw [List.take_left]
    · cases taken
  | fail error =>
    unfold Receive.step Receive.fail at taken
    dsimp only at taken
    split at taken <;> cases taken
    exact ⟨deadline, Or.inl rfl⟩
  | runTimer =>
    unfold Receive.step Receive.runTimer Receive.timerHandler at taken
    dsimp only at taken
    split at taken
    · rename_i error queued
      rw [queued] at deadline
      obtain ⟨timeout, success_iff⟩ := deadline
      split at taken <;> rename_i success <;> cases taken
      · refine ⟨(success_iff.mp success).symm, ?_⟩
        dsimp only [ReadHistory.update]
        rcases at_ : r.read with _ | ⟨error', length⟩ | _ <;> rw [at_] at read
        · exact Or.inr ⟨rfl, read⟩
        · exact Ended.of_timeout read
        · exact Ended.of_timeout read
      · have inTime : h.expired = false := Bool.eq_false_iff.mpr (success ∘ success_iff.mpr)
        exact ⟨timeout.trans inTime.symm, read⟩
    · cases taken
  | runRead =>
    unfold Receive.step Receive.runRead Receive.readHandler at taken
    dsimp only at taken
    split at taken <;> cases taken
    rename_i error length queued
    rw [queued] at read
    refine ⟨?_, read⟩
    dsimp only [ReadHistory.update]
    rcases at_ : r.deadline with _ | error' | _ <;> rw [at_] at deadline
    · exact ⟨deadline.1, by simp [deadline.2]⟩
    · exact deadline
    · exact deadline
  | receive => cases taken
  | return_ => cases taken

/-- Once both handlers have run, the result is that of the history. -/
theorem result (reading : Reading r h) (deadlineRan : r.deadline = .ran) (readRan : r.read = .ran) :
    (r.result = ([], false) ∧ h.expired = true) ∨
      h.expired = false ∧ ∃ error data, h.completed = some (error, data) ∧
        r.result = if error = .success then (data, false) else ([], true) := by
  obtain ⟨deadline, read⟩ := reading
  rw [deadlineRan] at deadline
  rw [readRan] at read
  have same : r.timeout = h.expired := deadline
  cases expired : h.expired with
  | true =>
    rw [expired] at same
    exact Or.inl ⟨by rw [Receive.result, same, if_pos rfl], rfl⟩
  | false =>
    rw [expired] at same
    rcases read with completed | ⟨timeout, -⟩
    · refine Or.inr ⟨rfl, r.ec, _, completed, ?_⟩
      rw [Receive.result, same, if_neg Bool.false_ne_true]
      cases r.ec <;> rfl
    · cases same.symm.trans timeout

end Reading

/-! ## The call in progress -/

/-- A call is in progress. -/
def Control.busy : Control → Bool
  | .connecting _ _ | .writing _ | .receiving _ => true
  | .unconstructed | .idle | .destroyed => false

/-- The socket that the call in progress has found. -/
def Control.found : Control → Option TcpSocket
  | .unconstructed => none
  | .connecting .constructor_ _ => none
  | .destroyed => none
  | _ => some {}

/-- What a call that has called `connect` is, and what has happened in it. -/
def Caller.Made : Caller → UserCall → Prop
  | .constructor_, call => call = .construct
  | .send data count, call => call = .send data (.threw count)
  | .receive, call => ∃ read error data, call = .receive read ∧ read.expired = false ∧
    read.completed = some (error, data) ∧ error ≠ .success

/-- What the call in progress is, and what has happened in it so far. -/
def Control.Made : Control → UserCall → Prop
  | .connecting caller _, call => caller.Made call
  | .writing data, call => ∃ write, call = .send data write
  | .receiving r, call => ∃ read, call = .receive read ∧ Reading r read
  | .unconstructed, _ | .idle, _ | .destroyed, _ => False

/-- The calls that have returned, of those that were made. -/
def Control.returned (control : Control) (made : List UserCall) : List UserCall :=
  if control.busy then made.tail else made

namespace TcpConnector

/-- The calls that have returned can be served, with the answers of the connector. -/
structure Tracks (s : TcpConnector) (made : List UserCall) : Prop where
  progress : s.control.busy = true → ∃ call made', made = call :: made' ∧ s.control.Made call
  served : ∃ calls t, run AtomicConnector.serve {} calls = some t ∧
    calls.map Served.call = (s.control.returned made).reverse ∧ t.log = s.log ∧
    t.socket = s.control.found

variable {s s' : TcpConnector} {h : AttemptHistory} {action : ConnectorAction}
  {made made' : List UserCall} {call : UserCall} {caller : Caller}

theorem tracks_init : Tracks {} [] where
  progress busy := by cases busy
  served := ⟨[], {}, rfl, rfl, rfl, rfl⟩

theorem returned_of_busy (busy : s.control.busy = true) :
    s.control.returned (call :: made) = made := if_pos busy

theorem returned_of_free (free : s.control.busy = false) : s.control.returned made = made :=
  if_neg (by rw [free]; exact Bool.false_ne_true)

/-- The call in progress was made last, and the others have returned. -/
theorem Tracks.exists_call {control : Control} (tracks : Tracks s made)
    (at_ : s.control = control) (busy : control.busy = true) :
    ∃ call before, made = call :: before ∧ control.Made call ∧
      s.control.returned made = before := by
  subst at_
  obtain ⟨call, before, same, caused⟩ := tracks.progress busy
  subst same
  exact ⟨call, before, rfl, caused, returned_of_busy busy⟩

/-- A step that answers nothing. -/
theorem Tracks.silent (tracks : Tracks s made) (log : s'.log = s.log)
    (found : s'.control.found = s.control.found)
    (same : s'.control.returned made' = s.control.returned made)
    (progress : s'.control.busy = true → ∃ call made'', made' = call :: made'' ∧
      s'.control.Made call) : Tracks s' made' where
  progress := progress
  served := by
    obtain ⟨calls, t, served, calls_, log_, socket⟩ := tracks.served
    exact ⟨calls, t, served, by rw [calls_, same], log_.trans log.symm, socket.trans found.symm⟩

/-- A step that answers a call. -/
theorem Tracks.answer (tracks : Tracks s made) (attempts : List Bool)
    (free : s'.control.busy = false) (same : made' = call :: s.control.returned made)
    (serves : ∀ t : AtomicConnector, t.log = s.log → t.socket = s.control.found →
      ∃ t', t.serve ⟨call, attempts⟩ = some t' ∧ t'.log = s'.log ∧
        t'.socket = s'.control.found) : Tracks s' made' where
  progress busy := by rw [free] at busy; cases busy
  served := by
    obtain ⟨calls, t, served, calls_, log, socket⟩ := tracks.served
    obtain ⟨t', answers, log', socket'⟩ := serves t log socket
    refine ⟨calls ++ [⟨call, attempts⟩], t', ?_, ?_, log', socket'⟩
    · rw [run_append, served, Option.bind_some, run_cons_of_step answers, run_nil]
    · rw [List.map_append, calls_, returned_of_free free, same, List.reverse_cons]
      rfl

/-- The outcomes of the turns of a loop that ends with a connection. -/
def outcomes (c : Connect) : List Bool := List.replicate c.delays.length false ++ [true]

theorem connectLoop_outcomes {socket : TcpSocket} (c : Connect) :
    socket.connectLoop (outcomes c) = some {} := by
  unfold outcomes
  induction c.delays.length generalizing socket with
  | zero => rfl
  | succ count ih => exact ih

theorem connect_outcomes {socket : TcpSocket} (free : socket.connecting = false) (c : Connect) :
    socket.connect (outcomes c) = some {} := by
  rw [TcpSocket.connect, free, if_neg Bool.false_ne_true, connectLoop_outcomes]

theorem delaysOf_outcomes {c : Connect} (scheduled : c.Scheduled) :
    delaysOf (outcomes c) = c.delays := by
  have failed (count : Nat) : (List.replicate count false ++ [true]).takeWhile (!·) =
      List.replicate count false := by
    induction count with
    | zero => rfl
    | succ count ih => exact congrArg (false :: ·) ih
  rw [delaysOf, outcomes, failed, List.length_replicate, ← scheduled.delays]

/-- A call of `connect` that the call in progress makes. -/
theorem Tracks.connect (tracks : Tracks s made) (free : s.socket.connecting = false)
    (found : (Control.connecting caller {}).found = s.control.found)
    (same : made' = call :: s.control.returned made) (caused : caller.Made call) :
    Tracks (s.connect caller) made' := by
  rw [TcpConnector.connect, free, if_neg Bool.false_ne_true]
  refine tracks.silent rfl found ?_ fun _ => ⟨call, _, same, caused⟩
  rw [same, returned_of_busy rfl]

theorem Tracks.reconnect (tracks : Tracks s made) (waits : s.socket = ready)
    (found : (Control.connecting caller {}).found = s.control.found)
    (same : made' = call :: s.control.returned made) (caused : caller.Made call) :
    Tracks (s.reconnect caller) made' := by
  rw [TcpConnector.reconnect, disconnect_of_ready waits]
  have closed : Tracks { s with socket := {} } made := ⟨tracks.progress, tracks.served⟩
  exact closed.connect rfl found same caused

theorem Tracks.send {data : Bytes} (tracks : Tracks s made) (idle : s.control = .idle)
    (waits : s.socket = ready) : Tracks (s.send data) (.send data .all :: made) := by
  have isOpen : s.socket.isOpen = true := by rw [waits]; rfl
  have returned : s.control.returned made = made := returned_of_free (by rw [idle]; rfl)
  unfold TcpConnector.send
  rw [if_neg (by simp [isOpen])]
  cases data with
  | nil =>
    refine tracks.answer [] rfl (by rw [returned]) fun t log socket => ?_
    rw [idle] at socket
    refine ⟨⟨some {}, t.log ++ [.sent [] [] [] (.error .noDataToSend)]⟩, ?_,
      congrArg (· ++ _) log, rfl⟩
    unfold AtomicConnector.serve
    rw [socket]
    rfl
  | cons byte data =>
    dsimp only [List.isEmpty_cons]
    rw [if_neg Bool.false_ne_true]
    refine tracks.silent rfl (congrArg Control.found idle).symm ?_ fun _ => ⟨_, _, rfl, _, rfl⟩
    rw [returned]
    exact if_pos rfl

theorem Tracks.wrote {data : Bytes} {write : Write} (tracks : Tracks s made)
    (at_ : s.control = .writing data) (waits : s.socket = ready) (nonempty : data ≠ []) :
    Tracks (s.wrote data write) (UserCall.observe made (.write write)) := by
  obtain ⟨call, before, same, ⟨write', call_⟩, returned⟩ := tracks.exists_call at_ rfl
  subst same call_
  cases write with
  | all =>
    refine tracks.answer [] rfl (by rw [returned]; rfl) fun t log socket => ?_
    rw [at_] at socket
    have sends : TcpSocket.send {} data .all [] = some ({}, data, .ok ()) := by
      rw [TcpSocket.send, if_neg (by simp), List.isEmpty_eq_false_iff.mpr nonempty,
        if_neg Bool.false_ne_true]
    refine ⟨⟨some {}, t.log ++ [.sent data data [] (.ok ())]⟩, ?_, congrArg (· ++ _) log, rfl⟩
    unfold AtomicConnector.serve
    rw [socket]
    dsimp only [Control.found]
    rw [sends, Option.map_some, if_pos (Or.inr rfl)]
  | threw count =>
    exact tracks.reconnect waits (congrArg Control.found at_).symm (by rw [returned]; rfl) rfl

/-- The call that has called `connect` is answered with the outcomes of the turns. -/
theorem Tracks.connected {c : Connect} {socket : PeerSocket} (tracks : Tracks s made)
    (at_ : s.control = .connecting caller c) (proper : caller.Proper) (scheduled : c.Scheduled) :
    Tracks ({ s with socket := socket }.return_ (caller.event c.delays)) made := by
  have delays := delaysOf_outcomes scheduled
  obtain ⟨call, before, same, caused, returned⟩ := tracks.exists_call at_ rfl
  subst same
  refine tracks.answer (outcomes c) rfl (by rw [returned]) fun t log socket => ?_
  rw [at_] at socket
  cases caller with
  | constructor_ =>
    cases caused
    refine ⟨⟨some {}, t.log ++ [.constructed c.delays]⟩, ?_, congrArg (· ++ _) log, rfl⟩
    unfold AtomicConnector.serve
    rw [socket]
    dsimp only [Control.found]
    rw [connect_outcomes rfl, Option.map_some, delays]
  | send data count =>
    cases caused
    have nonempty : data ≠ [] := fun empty => by
      subst empty
      cases proper []
    have sends : TcpSocket.send {} data (.threw count) (outcomes c) =
        some ({}, data.take count, .ok ()) := by
      rw [TcpSocket.send, if_neg (by simp), List.isEmpty_eq_false_iff.mpr nonempty,
        if_neg Bool.false_ne_true, TcpSocket.reconnect, connect_outcomes rfl, Option.map_some]
    refine ⟨⟨some {}, t.log ++ [.sent data (data.take count) c.delays (.ok ())]⟩, ?_,
      congrArg (· ++ _) log, rfl⟩
    unfold AtomicConnector.serve
    rw [socket]
    dsimp only [Control.found]
    rw [sends, Option.map_some, if_neg (by simp [nonempty]), delays]
  | receive =>
    obtain ⟨read, error, data, call_, inTime, completed, failed⟩ := caused
    subst call_
    refine ⟨⟨some {}, t.log ++ [.received c.delays (.ok [])]⟩, ?_, congrArg (· ++ _) log, rfl⟩
    unfold AtomicConnector.serve AtomicConnector.receive
    rw [socket]
    dsimp only [Control.found]
    rw [if_neg (by simp), inTime, if_neg Bool.false_ne_true, completed, TcpSocket.reconnect,
      connect_outcomes rfl, delays]
    cases error with
    | success => exact absurd rfl failed
    | _ => rfl

/-- What a step within `connect` leaves in progress. -/
theorem Tracks.stay {c c' : Connect} (tracks : Tracks s made) (socket : PeerSocket)
    (at_ : s.control = .connecting caller c) :
    Tracks { s with socket := socket, control := .connecting caller c' } made := by
  have progress := tracks.progress
  have returned : s.control.returned made = made.tail := by
    rw [at_]
    exact if_pos rfl
  rw [at_] at progress
  refine tracks.silent rfl ?_ (by rw [returned]; exact if_pos rfl) fun _ => progress rfl
  rw [at_]
  cases caller <;> rfl

/-- The read in progress is over. -/
theorem Tracks.concluded {r : Receive} (tracks : Tracks s made) (at_ : s.control = .receiving r)
    (waits : s.socket = ready) (deadline : r.deadline = .ran) (read : r.read = .ran) :
    Tracks
      (if r.result.2 then s.reconnect .receive else s.return_ (.received [] (.ok r.result.1)))
      made := by
  obtain ⟨call, before, same, ⟨history, call_, reading⟩, returned⟩ := tracks.exists_call at_ rfl
  subst same call_
  have answers {data : Bytes}
      (serves : AtomicConnector.receive {} history [] = some ({}, .received [] (.ok data))) :
      Tracks (s.return_ (.received [] (.ok data))) (.receive history :: before) := by
    refine tracks.answer [] rfl (by rw [returned]) fun t log socket => ?_
    rw [at_] at socket
    refine ⟨⟨some {}, t.log ++ [.received [] (.ok data)]⟩, ?_, congrArg (· ++ _) log, rfl⟩
    unfold AtomicConnector.serve
    rw [socket]
    dsimp only [Control.found]
    rw [serves, Option.map_some]
  rcases reading.result deadline read with ⟨result, expired⟩ |
    ⟨inTime, error, data, completed, result⟩
  · rw [result, if_neg Bool.false_ne_true]
    refine answers ?_
    rw [AtomicConnector.receive, if_neg (by simp), expired, if_pos rfl]
  · by_cases success : error = .success
    · subst success
      rw [result, if_pos rfl, if_neg Bool.false_ne_true]
      refine answers ?_
      rw [AtomicConnector.receive, if_neg (by simp), inTime, if_neg Bool.false_ne_true, completed]
    · rw [result, if_neg success, if_pos rfl]
      exact tracks.reconnect waits (congrArg Control.found at_).symm (by rw [returned])
        ⟨history, error, data, rfl, inTime, completed, success⟩

/-- A step within the read in progress. -/
theorem Tracks.reads {r r' : Receive} {action : TcpAction} (tracks : Tracks s made)
    (at_ : s.control = .receiving r) (moves : r.step action = some r') :
    Tracks { s with control := .receiving r' } (UserCall.observe made (.read action)) := by
  obtain ⟨call, before, same, ⟨history, call_, reading⟩, returned⟩ := tracks.exists_call at_ rfl
  subst same call_
  refine tracks.silent rfl (congrArg Control.found at_).symm ?_ fun _ =>
    ⟨_, _, rfl, _, rfl, reading.of_step moves⟩
  rw [returned]
  exact if_pos rfl

/-- Each step is answered by the call that it completes, if any. -/
theorem Tracks.of_step (inv : Inv (s, h)) (tracks : Tracks s made)
    (taken : s.step action = some s') : Tracks s' (UserCall.observe made action) := by
  have phase := inv.phase
  dsimp only at phase
  cases takes_of_step taken with
  | constructs at_ =>
    have fresh := phase.of_unconstructed at_
    have returned : s.control.returned made = made := returned_of_free (by rw [at_]; rfl)
    exact tracks.connect (by rw [fresh]) (congrArg Control.found at_).symm
      (by rw [returned]; rfl) rfl
  | sends idle => exact tracks.send idle (phase.ready_of_idle idle)
  | receives idle =>
    have isOpen : s.socket.isOpen = true := by rw [phase.ready_of_idle idle]; rfl
    have returned : s.control.returned made = made := returned_of_free (by rw [idle]; rfl)
    rw [TcpConnector.receive, if_pos isOpen]
    refine tracks.silent rfl (congrArg Control.found idle).symm ?_ fun _ =>
      ⟨_, _, rfl, _, rfl, .init⟩
    rw [returned]
    exact if_pos rfl
  | destroys idle =>
    have returned : s.control.returned made = made := returned_of_free (by rw [idle]; rfl)
    refine tracks.answer [] rfl (by rw [returned]; rfl) fun t log socket => ?_
    rw [idle] at socket
    refine ⟨⟨none, t.log ++ [.destroyed]⟩, ?_, congrArg (· ++ _) log, rfl⟩
    unfold AtomicConnector.serve
    rw [socket]
    rfl
  | writes at_ =>
    obtain ⟨waits, nonempty⟩ := phase.ready_of_writing at_
    exact tracks.wrote at_ waits nonempty
  | reads at_ moves => exact tracks.reads at_ moves
  | @lost r at_ deadline read failed =>
    have concluded := tracks.concluded at_ (phase.ready_of_receiving at_) deadline read
    rwa [failed, if_pos rfl] at concluded
  | @returns r at_ deadline read fine =>
    have concluded := tracks.concluded at_ (phase.ready_of_receiving at_) deadline read
    rwa [fine, if_neg Bool.false_ne_true] at concluded
  | resolves at_ stage => exact tracks.stay _ at_
  | attempts at_ stage moves => exact tracks.stay _ at_
  | connects at_ stage timer connect connects =>
    rw [at_] at phase
    obtain ⟨scheduled, proper, -⟩ := phase.of_connecting
    exact tracks.connected at_ proper scheduled
  | fails at_ stage timer connect fails => exact tracks.stay s.socket at_
  | elapses at_ stage => exact tracks.stay s.socket at_

/-- **Nothing but whole calls is seen from outside.** In every run of a connector that one
thread calls, the calls that have returned have the answers, the written bytes and the delays
that they get when each of them is served at once, given how its write ended and what happened
in its read; between two calls the socket is the same. -/
theorem run_refines {actions : List ConnectorAction} (reached : run step {} actions = some s) :
    ∃ calls t, run AtomicConnector.serve {} calls = some t ∧
      calls.map Served.call =
        (s.control.returned (actions.foldl UserCall.observe [])).reverse ∧
      t.log = s.log ∧ (s.control = .idle → t.socket = some s.socket.toTcpSocket) := by
  have observed := run_withGhost_foldl (f := UserCall.observe) (g := []) reached
  obtain ⟨⟨h, inv⟩, tracks⟩ := invariant_run
    (I := fun s => (∃ h, Inv (s.1, h)) ∧ Tracks s.1 s.2)
    (fun s action s' given taken => by
      obtain ⟨⟨h, inv⟩, tracks⟩ := given
      obtain ⟨step_, same⟩ := withGhost_eq_some taken
      rw [same]
      exact ⟨⟨_, inv.of_takes (takes_of_step step_)⟩, tracks.of_step inv step_⟩)
    ⟨⟨_, inv_init⟩, tracks_init⟩ observed
  obtain ⟨calls, t, served, calls_, log, socket⟩ := tracks.served
  refine ⟨calls, t, served, calls_, log, fun idle => ?_⟩
  have waits := inv.phase.ready_of_idle idle
  dsimp only at waits socket
  rw [socket, idle, waits]
  rfl

/-- A connector that is constructed in its second attempt and then sends and reads over
connections that fail. -/
def failingLife : List ConnectorAction :=
  [.construct, .resolve false, .elapse, .resolve true, .attempt .accept,
    .attempt (.runConnect .success), .attempt .runTimer, .conclude,
    .send [0x01, 0x02], .write (.threw 1), .resolve true, .attempt .expire, .attempt .accept,
    .attempt .runTimer, .attempt (.runConnect .operationAborted), .conclude, .elapse,
    .resolve true, .attempt .accept, .attempt (.runConnect .success), .attempt .runTimer,
    .conclude, .receive, .read .expire, .read .runTimer, .read .runRead, .conclude, .receive,
    .read (.fail .eof), .read .runRead, .read .runTimer, .conclude, .resolve true,
    .attempt (.refuse .other true)]

theorem run_refines_failingLife : ∃ s, run step {} failingLife = some s ∧
    s.log = [.constructed [2], .sent [0x01, 0x02] [0x01] [2] (.ok ()),
      .received [] (.ok [])] ∧
    ∃ calls t, run AtomicConnector.serve {} calls = some t ∧
      calls.map Served.call = [.construct, .send [0x01, 0x02] (.threw 1),
        .receive { expired := true }] ∧
      t.log = s.log ∧ (s.control = .idle → t.socket = some s.socket.toTcpSocket) := by
  have reached : run step {} failingLife = some _ := rfl
  exact ⟨_, reached, rfl, run_refines reached⟩

end TcpConnector

/-! ## No call hangs -/

/-- What happens in an attempt without the network. -/
def AttemptAction.Own : AttemptAction → Prop
  | .expire => True
  | .runTimer => True
  | .runConnect _ => True
  | _ => False

namespace Attempt

variable {s : PeerSocket × Attempt} {h : AttemptHistory}

/-- The operations of an attempt come to their ends without the network. -/
def Ends (s : PeerSocket × Attempt) : Prop :=
  ∃ actions s', (∀ action ∈ actions, action.Own) ∧ run step s actions = some s' ∧
    s'.2.timer = .ran ∧ s'.2.connect = .ran

theorem Ends.of_step {s' : PeerSocket × Attempt} {action : AttemptAction}
    (taken : step s action = some s') (own : action.Own) (ends : Ends s') : Ends s := by
  obtain ⟨actions, s'', rest, reached, ran⟩ := ends
  exact ⟨action :: actions, s'', List.forall_mem_cons.mpr ⟨own, rest⟩,
    (run_cons_of_step taken).trans reached, ran⟩

theorem ends_of_ran (timer : s.2.timer ≠ .pending) (connect : s.2.connect = .ran) : Ends s := by
  rcases at_ : s.2.timer with _ | error | _
  · exact absurd at_ timer
  · have taken : step s .runTimer = some (timerHandler s.1 { s.2 with timer := .ran } error) := by
      unfold step
      rw [at_]
    refine .of_step taken trivial ⟨[], _, by simp, rfl, ?_⟩
    unfold timerHandler
    split
    · exact ⟨rfl, by simp [connect, Operation.cancel]⟩
    · exact ⟨rfl, connect⟩
  · exact ⟨[], s, by simp, rfl, at_, connect⟩

theorem ends_of_queued {error : ErrorCode} (connect : s.2.connect = .queued error) : Ends s := by
  have taken : step s (.runConnect error) =
      some (s.1, connectHandler { s.2 with connect := .ran } error) := by
    unfold step
    rw [connect]
    exact if_pos (Or.inl rfl)
  refine .of_step taken trivial (ends_of_ran ?_ rfl)
  unfold connectHandler
  cases s.2.timer <;> simp [Operation.cancel]

/-- Where `async_connect` is under way, the timer ends it. -/
theorem ends_of_expired (connected : s.2.connected = false) (timer : s.2.timer = .queued .success)
    (connect : s.2.connect = .pending) : Ends s := by
  have fires : ErrorCode.success = .success ∧ s.2.connected = false := ⟨rfl, connected⟩
  have taken : step s .runTimer = some (s.1.close,
      { s.2 with timer := .ran, timedOut := true, connect := .queued .operationAborted }) := by
    unfold step timerHandler
    rw [timer]
    dsimp only
    rw [if_pos fires, connect]
    rfl
  exact .of_step taken trivial (ends_of_queued rfl)

theorem Inv.ends (inv : Inv s h) : Ends s := by
  have timer := inv.timer
  have connect := inv.connect
  rcases atConnect : s.2.connect with _ | error | _ <;> rw [atConnect] at connect
  · rcases atTimer : s.2.timer with _ | error | _ <;> rw [atTimer] at timer
    · have taken : step s .expire = some (s.1, { s.2 with timer := .queued .success }) := by
        unfold step
        rw [atTimer]
      exact .of_step taken trivial (ends_of_expired connect.2.1 rfl atConnect)
    · have success := timer.2.1.mpr (timer.2.2.2 connect.1)
      exact ends_of_expired connect.2.1 (by rw [atTimer, success]) atConnect
    · exact absurd connect.1 timer.1
  · exact ends_of_queued atConnect
  · refine ends_of_ran (fun pending => ?_) atConnect
    rw [pending] at timer
    exact connect.1 timer.2.2

end Attempt

/-- What happens in a read without the network. -/
def TcpAction.Own : TcpAction → Prop
  | .expire => True
  | .runTimer => True
  | .runRead => True
  | _ => False

namespace Receive

variable {r r' : Receive} {action : TcpAction}

/-- A deadline was cancelled by the read's handler only, and its own handler leaves no
read under way. -/
structure Races (r : Receive) : Prop where
  waits : r.deadline = .pending → r.read ≠ .ran
  cancelled : ∀ error, r.deadline = .queued error → error = .success ∨ r.read = .ran
  finished : r.deadline = .ran → r.read ≠ .pending

theorem races_init : Races {} where
  waits := by simp
  cancelled := by simp
  finished := by simp

/-- A read that completes is one that was under way. -/
theorem Races.complete (races : r.Races) (pending : r.read = .pending)
    {completion : ErrorCode × Nat} {buffer : Bytes} :
    Races { r with buffer := buffer, read := .queued completion } where
  waits := by simp
  cancelled := fun error at_ => (races.cancelled error at_).imp_right fun ran => by
    cases pending.symm.trans ran
  finished := by simp

theorem Races.of_step (races : r.Races) (taken : r.step action = some r') : r'.Races := by
  cases action with
  | expire =>
    unfold Receive.step expire at taken
    dsimp only at taken
    split at taken <;> cases taken
    exact ⟨by simp, by simp, by simp⟩
  | arrive data =>
    unfold Receive.step arrive at taken
    dsimp only at taken
    split at taken
    · split at taken <;> cases taken
      exact races.complete ‹_›
    · cases taken
  | fail error =>
    unfold Receive.step fail at taken
    dsimp only at taken
    split at taken <;> cases taken
    exact races.complete ‹_›
  | runTimer =>
    unfold Receive.step runTimer timerHandler at taken
    dsimp only at taken
    split at taken
    · rename_i error queued
      split at taken <;> rename_i expired <;> cases taken
      · refine ⟨by simp, by simp, fun _ => ?_⟩
        dsimp only
        cases r.read <;> simp [Operation.cancel]
      · have ran := (races.cancelled error queued).resolve_left expired
        exact ⟨by simp, by simp, by simp [ran]⟩
    · cases taken
  | runRead =>
    unfold Receive.step runRead readHandler at taken
    dsimp only at taken
    split at taken <;> cases taken
    refine ⟨fun pending => ?_, fun _ _ => Or.inr rfl, by simp⟩
    dsimp only at pending
    cases at_ : r.deadline <;> rw [at_, Operation.cancel] at pending <;> cases pending
  | receive => cases taken
  | return_ => cases taken

/-- The operations of a read come to their ends without the network. -/
def Ends (r : Receive) : Prop :=
  ∃ actions r', (∀ action ∈ actions, action.Own) ∧ run Receive.step r actions = some r' ∧
    r'.deadline = .ran ∧ r'.read = .ran

theorem Ends.of_step (taken : r.step action = some r') (own : action.Own) (ends : Ends r') :
    Ends r := by
  obtain ⟨actions, r'', rest, reached, over_⟩ := ends
  exact ⟨action :: actions, r'', List.forall_mem_cons.mpr ⟨own, rest⟩,
    (run_cons_of_step taken).trans reached, over_⟩

theorem ends_of_deadline (deadline : r.deadline = .ran) (read : r.read ≠ .pending) : Ends r := by
  rcases at_ : r.read with _ | ⟨error, length⟩ | _
  · exact absurd at_ read
  · have taken : r.step .runRead = some ({ r with read := .ran }.readHandler error length) := by
      unfold Receive.step runRead
      rw [at_]
    refine .of_step taken trivial ⟨[], _, by simp, rfl, ?_, rfl⟩
    rw [readHandler]
    dsimp only
    rw [deadline, Operation.cancel]
  · exact ⟨[], r, by simp, rfl, deadline, at_⟩

theorem ends_of_queued {error : ErrorCode} (races : r.Races) (queued : r.deadline = .queued error) :
    Ends r := by
  have taken : r.step .runTimer = some ({ r with deadline := .ran }.timerHandler error) := by
    unfold Receive.step runTimer
    rw [queued]
  have races' := races.of_step taken
  have ran : ({ r with deadline := .ran }.timerHandler error).deadline = .ran := by
    unfold timerHandler
    split <;> rfl
  exact .of_step taken trivial (ends_of_deadline ran (races'.finished ran))

theorem Races.ends (races : r.Races) : Ends r := by
  rcases at_ : r.deadline with _ | error | _
  · have taken : r.step .expire = some { r with deadline := .queued .success } := by
      unfold Receive.step expire
      rw [at_]
    exact .of_step taken trivial (ends_of_queued (races.of_step taken) rfl)
  · exact ends_of_queued races at_
  · exact ends_of_deadline at_ (races.finished at_)

end Receive

/-- What happens in a call without the network and without its user. A write is not over
before the network has taken it. -/
def ConnectorAction.Own : ConnectorAction → Prop
  | .read action => action.Own
  | .attempt action => action.Own
  | .conclude => True
  | .elapse => True
  | _ => False

namespace TcpConnector

variable {s s' : TcpConnector} {h : AttemptHistory} {action : ConnectorAction} {caller : Caller}
  {c : Connect} {a : Attempt} {r : Receive}

/-- A turn of the loop in which the resolver finds the host and a peer accepts. -/
def accepted : List ConnectorAction :=
  [.resolve true, .attempt .accept, .attempt (.runConnect .success), .attempt .runTimer, .conclude]

/-- The call in progress returns without the network, or in the next turn of its loop if
a peer then accepts. -/
def Returns (s : TcpConnector) : Prop :=
  ∃ own s', (∀ action ∈ own, action.Own) ∧ s'.control = .idle ∧
    (run step s own = some s' ∨ run step s (own ++ accepted) = some s')

theorem Returns.of_run {actions : List ConnectorAction} (reached : run step s actions = some s')
    (own : ∀ action ∈ actions, action.Own) (returns : Returns s') : Returns s := by
  obtain ⟨more, s'', own', idle, ends⟩ := returns
  refine ⟨actions ++ more, s'', List.forall_mem_append.mpr ⟨own, own'⟩, idle, ?_⟩
  rw [List.append_assoc, run_append, run_append, reached]
  exact ends

theorem Returns.of_step (taken : s.step action = some s') (own : action.Own)
    (returns : Returns s') : Returns s := by
  have reached : run step s [action] = some s' := run_cons_of_step taken
  exact .of_run reached (List.forall_mem_singleton.mpr own) returns

theorem returns_of_idle (idle : s.control = .idle) : Returns s :=
  ⟨[], s, by simp, idle, Or.inl rfl⟩

/-- The connector is in the loop of `connect`, at this stage. -/
def AtStage (s : TcpConnector) (stage : Stage) : Prop :=
  ∃ caller c, s.control = .connecting caller c ∧ c.stage = stage

theorem atStage_reconnect (waits : s.socket = ready) : (s.reconnect caller).AtStage .resolving := by
  rw [reconnect, disconnect_of_ready waits]
  exact ⟨caller, {}, rfl, rfl⟩

theorem returns_of_resolving (at_ : s.AtStage .resolving) : Returns s := by
  obtain ⟨caller, ⟨currentTimeout, stage', timeouts, delays⟩, at_, stage⟩ := at_
  rcases s with ⟨socket, control, log⟩
  cases at_
  cases stage
  exact ⟨[], _, by simp, rfl, Or.inr rfl⟩

theorem returns_of_delaying (at_ : s.AtStage .delaying) : Returns s := by
  obtain ⟨caller, c, at_, stage⟩ := at_
  have taken : s.step .elapse = some { s with
      control := .connecting caller
        { c with
          stage := .resolving, currentTimeout := backoff c.currentTimeout,
          delays := c.delays ++ [c.currentTimeout] } } := by
    unfold step
    rw [at_]
    dsimp only
    rw [stage]
  exact .of_step taken trivial (returns_of_resolving ⟨caller, _, rfl, rfl⟩)

theorem returns_of_concluding (at_ : s.AtStage (.running a)) (timer : a.timer = .ran)
    (connect : a.connect = .ran) : Returns s := by
  obtain ⟨caller, c, at_, stage⟩ := at_
  have concludes : s.step .conclude =
      if a.Connects then
        some (return_ { s with socket := { s.socket with connecting := false } }
          (caller.event c.delays))
      else some { s with control := .connecting caller { c with stage := .delaying } } := by
    unfold step
    rw [at_]
    dsimp only
    rw [stage]
    exact if_pos ⟨timer, connect⟩
  split at concludes
  · exact .of_step concludes trivial (returns_of_idle rfl)
  · exact .of_step concludes trivial (returns_of_delaying ⟨caller, _, rfl, rfl⟩)

/-- The pieces of an attempt within the connector. -/
theorem run_attempt {actions : List AttemptAction} {after : PeerSocket × Attempt}
    (at_ : s.control = .connecting caller c) (stage : c.stage = .running a)
    (moves : run Attempt.step (s.socket, a) actions = some after) :
    run step s (actions.map .attempt) = some { s with
      socket := after.1, control := .connecting caller { c with stage := .running after.2 } } := by
  induction actions generalizing s c a with
  | nil =>
    cases moves
    rw [← stage, ← at_]
    rfl
  | cons action actions ih =>
    obtain ⟨next, first, rest⟩ := Option.bind_eq_some_iff.mp moves
    have taken : s.step (.attempt action) = some { s with
        socket := next.1, control := .connecting caller { c with stage := .running next.2 } } := by
      unfold step
      rw [at_]
      dsimp only
      rw [stage]
      dsimp only
      rw [first, Option.map_some]
    rw [List.map_cons, run_cons_of_step taken]
    exact ih (c := { c with stage := .running next.2 }) rfl rfl rest

theorem run_read {actions : List TcpAction} {r' : Receive} (at_ : s.control = .receiving r)
    (moves : run Receive.step r actions = some r') :
    run step s (actions.map .read) = some { s with control := .receiving r' } := by
  induction actions generalizing s r with
  | nil =>
    cases moves
    rw [← at_]
    rfl
  | cons action actions ih =>
    obtain ⟨next, first, rest⟩ := Option.bind_eq_some_iff.mp moves
    have taken : s.step (.read action) = some { s with control := .receiving next } := by
      unfold step
      rw [at_]
      dsimp only
      rw [first, Option.map_some]
    rw [List.map_cons, run_cons_of_step taken]
    exact ih rfl rest

theorem returns_of_running (at_ : s.control = .connecting caller c) (stage : c.stage = .running a)
    (inv : Attempt.Inv (s.socket, a) h) : Returns s := by
  obtain ⟨actions, after, own, moves, timer, connect⟩ := inv.ends
  refine .of_run (run_attempt at_ stage moves) (by simpa [ConnectorAction.Own] using own) ?_
  exact returns_of_concluding ⟨caller, _, rfl, rfl⟩ timer connect

theorem returns_of_receiving (at_ : s.control = .receiving r) (races : r.Races)
    (waits : s.socket = ready) : Returns s := by
  obtain ⟨actions, r', own, moves, deadline, read⟩ := races.ends
  refine .of_run (run_read at_ moves) (by simpa [ConnectorAction.Own] using own) ?_
  have concludes : step { s with control := .receiving r' } .conclude =
      if r'.result.2 then some (reconnect { s with control := .receiving r' } .receive)
      else some (return_ { s with control := .receiving r' } (.received [] (.ok r'.result.1))) :=
    if_pos ⟨deadline, read⟩
  split at concludes
  · exact .of_step concludes trivial (returns_of_resolving (atStage_reconnect waits))
  · exact .of_step concludes trivial (returns_of_idle rfl)

/-! ## Every run -/

/-- The read in progress can end. -/
def Reads (s : TcpConnector) : Prop := ∀ r, s.control = .receiving r → r.Races

theorem reads_connect : (s.connect caller).Reads := by
  intro r at_
  unfold TcpConnector.connect at at_
  split at at_ <;> cases at_

theorem reads_return {event : Event} : (s.return_ event).Reads := by
  intro r at_
  cases at_

theorem reads_of_takes (reads : s.Reads) (takes : Takes s action s') : s'.Reads := by
  cases takes with
  | constructs at_ => exact reads_connect
  | sends idle =>
    unfold TcpConnector.send
    split
    · exact reads_return
    · split
      · exact reads_return
      · intro r at_
        cases at_
  | @writes data write at_ =>
    cases write with
    | all => exact reads_return
    | threw count => exact reads_connect
  | receives idle =>
    unfold TcpConnector.receive
    split
    · intro r at_
      cases at_
      exact Receive.races_init
    · exact reads_return
  | reads at_ moves =>
    intro r at_'
    cases at_'
    exact (reads _ at_).of_step moves
  | lost at_ deadline read failed => exact reads_connect
  | returns at_ deadline read fine => exact reads_return
  | connects at_ stage timer connect connects => exact reads_return
  | _ =>
    intro r at_'
    cases at_'

theorem returns_of_wrote {data : Bytes} (waits : s.socket = ready) (write : Write) :
    Returns (s.wrote data write) := by
  cases write with
  | all => exact returns_of_idle rfl
  | threw count => exact returns_of_resolving (atStage_reconnect waits)

/-- **No call hangs outside of a write.** In every state of every run of a connector that one
thread calls, the call in progress can return without the network, or in its next attempt to
connect once a peer accepts; in the write of `send`, which has no deadline, that is so
whenever the write is over, however it ended. -/
theorem returns_of_run {actions : List ConnectorAction} (reached : run step {} actions = some s)
    (constructed : s.control ≠ .unconstructed) (alive : s.control ≠ .destroyed) :
    Returns s ∨ ∃ data, s.control = .writing data ∧
      ∀ write, ∃ s', s.step (.write write) = some s' ∧ Returns s' := by
  obtain ⟨h, phase, -⟩ := inv_of_run reached
  have reads : s.Reads := invariant_run
    (fun _ _ _ reads taken => reads_of_takes reads (takes_of_step taken)) (by simp [Reads]) reached
  dsimp only at phase
  rcases at_ : s.control with _ | _ | ⟨caller, c⟩ | data | r | _
  · exact absurd at_ constructed
  · exact Or.inl (returns_of_idle at_)
  · rw [at_] at phase
    obtain ⟨-, -, -, -, running⟩ := phase.of_connecting
    rcases stage : c.stage with _ | a | _
    · exact Or.inl (returns_of_resolving ⟨caller, c, at_, stage⟩)
    · exact Or.inl (returns_of_running at_ stage (running a stage))
    · exact Or.inl (returns_of_delaying ⟨caller, c, at_, stage⟩)
  · refine Or.inr ⟨data, rfl, fun write => ⟨s.wrote data write, ?_, ?_⟩⟩
    · unfold step
      rw [at_]
    · exact returns_of_wrote (phase.ready_of_writing at_).1 write
  · exact Or.inl (returns_of_receiving at_ (reads r at_) (phase.ready_of_receiving at_))
  · exact absurd at_ alive

theorem returns_of_run_failingLife : ∃ s, run step {} failingLife = some s ∧
    (Returns s ∨ ∃ data, s.control = .writing data ∧
      ∀ write, ∃ s', s.step (.write write) = some s' ∧ Returns s') := by
  have reached : run step {} failingLife = some _ := rfl
  exact ⟨_, reached, returns_of_run reached (by simp) (by simp)⟩

end TcpConnector

end Iqrf.Connector.Tcp
