import Iqrf.Connector.Tcp.TcpConnector
import Mathlib.Algebra.Order.Ring.Nat

/-!
# A TCP connector from construction to destruction

`connect` repeats an attempt until one succeeds. An attempt starts a timer and an
`async_connect`, runs the I/O context until the handlers of both have run and decides
by the locals that they have written; a failed attempt is followed by a delay, and both
the timer and the delay grow with each turn. `Attempt` holds the locals of a turn and
the two operations, `Connect` the loop, and `TcpConnector.step` takes one piece of a
call of the constructor, of `send`, of `receive` or of the destructor at a time, with
every outcome of the resolver, of the network and of the handlers' order.

One thread makes all the calls: the I/O context must not be restarted while it runs, so
a listening thread next to one that sends is outside of what Asio allows, and of this.

* `attempt_decided`: an attempt ends with a connection exactly if a peer has accepted one
  and the handler of an expired timer did not run first;
* `answers_of_run`: between two calls the connector has an accepted connection, so no
  call finds it closed;
* `waits_of_run`: the timers and the delays are those of the doubling schedule.
-/

namespace Iqrf.Connector.Tcp

open Runs

/-- The socket, with whether a peer has accepted its connection. -/
structure PeerSocket extends TcpSocket where
  isOpen := false
  established : Bool := false
  deriving DecidableEq, Repr

def PeerSocket.close (s : PeerSocket) : PeerSocket :=
  { s with isOpen := false, established := false }

/-- The locals of a turn of the loop in `connect` and its two operations. -/
structure Attempt where
  ec : ErrorCode := .success
  connected : Bool := false
  timedOut : Bool := false
  timer : Operation ErrorCode := .pending
  connect : Operation ErrorCode := .pending
  deriving DecidableEq

/-- What happens in an attempt: the timer expires, a peer accepts the connection, the
last endpoint refuses it, or the I/O context runs a handler. -/
inductive AttemptAction
  | expire
  | accept
  | refuse (error : ErrorCode) (leftOpen : Bool)
  | runTimer
  | runConnect (reported : ErrorCode)
  deriving DecidableEq

namespace Attempt

/-- The handler of `timer.async_wait`, which closes the socket. -/
def timerHandler (s : PeerSocket) (a : Attempt) (error : ErrorCode) : PeerSocket × Attempt :=
  if error = .success ∧ a.connected = false then
    (s.close, { a with timedOut := true, connect := a.connect.cancel .operationAborted })
  else (s, a)

/-- The handler of `async_connect`. -/
def connectHandler (a : Attempt) (error : ErrorCode) : Attempt :=
  { a with ec := error, connected := error = .success, timer := a.timer.cancel .operationAborted }

/-- A completion whose socket has been closed before its handler runs may still be
reported as it was or as aborted. -/
def step (s : PeerSocket × Attempt) : AttemptAction → Option (PeerSocket × Attempt)
  | .expire =>
    match s.2.timer with
    | .pending => some (s.1, { s.2 with timer := .queued .success })
    | _ => none
  | .accept =>
    match s.2.connect with
    | .pending =>
      some ({ s.1 with isOpen := true, established := true },
        { s.2 with connect := .queued .success })
    | _ => none
  | .refuse error leftOpen =>
    match s.2.connect with
    | .pending =>
      if error = .success then none
      else some ({ s.1 with isOpen := leftOpen, established := false },
        { s.2 with connect := .queued error })
    | _ => none
  | .runTimer =>
    match s.2.timer with
    | .queued error => some (timerHandler s.1 { s.2 with timer := .ran } error)
    | _ => none
  | .runConnect reported =>
    match s.2.connect with
    | .queued error =>
      if reported = error ∨ s.1.isOpen = false ∧ reported = .operationAborted then
        some (s.1, connectHandler { s.2 with connect := .ran } reported)
      else none
    | _ => none

/-- Whether `connect` returns after the attempt. -/
def Connects (a : Attempt) : Prop := a.timedOut = false ∧ a.ec = .success

instance (a : Attempt) : Decidable a.Connects := inferInstanceAs (Decidable (_ ∧ _))

end Attempt

/-- Where the loop of `connect` stands. -/
inductive Stage
  | resolving
  | running (attempt : Attempt)
  | delaying
  deriving DecidableEq

/-- The loop of `connect`: its local `currentTimeout` and, of the turns so far, the
timeout that the timer was given, if the resolver did not throw, and the delays. -/
structure Connect where
  currentTimeout : Nat := 2
  stage : Stage := .resolving
  timeouts : List (Option Nat) := []
  delays : List Nat := []
  deriving DecidableEq

/-- `maxTimeout`, in seconds. -/
def maxTimeout : Nat := 64

/-- The exponential backoff. -/
def backoff (currentTimeout : Nat) : Nat :=
  if currentTimeout < maxTimeout then currentTimeout * 2 else maxTimeout

/-- Who has called `connect`: the constructor, `send` after a write that threw, or
`receive` after a read that failed. -/
inductive Caller
  | constructor_
  | send (data : Bytes) (count : Nat)
  | receive
  deriving DecidableEq

/-- What the user of a connector sees of a call that has returned: its answer and the
delays between its attempts to connect. -/
inductive Event
  | constructed (delays : List Nat)
  | sent (data written : Bytes) (delays : List Nat) (result : Except SendError Unit)
  | received (delays : List Nat) (result : Except ReceiveError Bytes)
  | destroyed
  deriving DecidableEq

/-- What the call returns once `connect` has. -/
def Caller.event (delays : List Nat) : Caller → Event
  | constructor_ => .constructed delays
  | send data count => .sent data (data.take count) delays (.ok ())
  | receive => .received delays (.ok [])

/-- The call in progress. -/
inductive Control
  | unconstructed
  | idle
  | connecting (caller : Caller) (connect : Connect)
  | writing (data : Bytes)
  | receiving (call : Receive)
  | destroyed
  deriving DecidableEq

/-- A connector with its socket and its call in progress, and the calls that have
returned. -/
structure TcpConnector where
  socket : PeerSocket := {}
  control : Control := .unconstructed
  log : List Event := []
  deriving DecidableEq

/-- A call starts, a piece of it is done, or it returns. -/
inductive ConnectorAction
  | construct
  | send (data : Bytes)
  | receive
  | destroy
  | write (write : Write)
  | read (action : TcpAction)
  | resolve (resolved : Bool)
  | attempt (action : AttemptAction)
  | conclude
  | elapse
  deriving DecidableEq

/-- The operations and the handlers of a call of `receive`. -/
def Receive.step (r : Receive) : TcpAction → Option Receive
  | .expire => r.expire
  | .arrive data => r.arrive data
  | .fail error => r.fail error
  | .runTimer => r.runTimer
  | .runRead => r.runRead
  | _ => none

namespace TcpConnector

/-- The call returns. -/
def return_ (s : TcpConnector) (event : Event) : TcpConnector :=
  { s with control := .idle, log := s.log ++ [event] }

/-- `TcpConnector::connect` up to its loop. -/
def connect (s : TcpConnector) (caller : Caller) : TcpConnector :=
  if s.socket.connecting then s.return_ (caller.event [])
  else { s with control := .connecting caller {} }

/-- `TcpConnector::disconnect`. -/
def disconnect (s : TcpConnector) : TcpConnector :=
  if s.socket.isOpen then { s with socket := s.socket.close } else s

/-- `TcpConnector::reconnect`. -/
def reconnect (s : TcpConnector) (caller : Caller) : TcpConnector := s.disconnect.connect caller

/-- `TcpConnector::send`, up to its write. -/
def send (s : TcpConnector) (data : Bytes) : TcpConnector :=
  if s.socket.isOpen = false then s.return_ (.sent data [] [] (.error .notReady))
  else if data.isEmpty then s.return_ (.sent data [] [] (.error .noDataToSend))
  else { s with control := .writing data }

/-- `boost::asio::write` is over, which it need not ever be. -/
def wrote (s : TcpConnector) (data : Bytes) : Write → TcpConnector
  | .all => s.return_ (.sent data data [] (.ok ()))
  | .threw count => s.reconnect (.send data count)

/-- `TcpConnector::receive`, up to its operations. -/
def receive (s : TcpConnector) : TcpConnector :=
  if s.socket.isOpen then { s with control := .receiving {} }
  else s.return_ (.received [] (.error .socketIsNotOpen))

def step (s : TcpConnector) (action : ConnectorAction) : Option TcpConnector :=
  match action, s.control with
  | .construct, .unconstructed => some (s.connect .constructor_)
  | .send data, .idle => some (s.send data)
  | .receive, .idle => some s.receive
  | .destroy, .idle =>
    some { s.disconnect with control := .destroyed, log := s.log ++ [.destroyed] }
  | .write write, .writing data => some (s.wrote data write)
  | .read action, .receiving r =>
    (r.step action).map fun r => { s with control := .receiving r }
  | .conclude, .receiving r =>
    if r.deadline = .ran ∧ r.read = .ran then
      if r.result.2 then some (s.reconnect .receive)
      else some (s.return_ (.received [] (.ok r.result.1)))
    else none
  | .resolve resolved, .connecting caller c =>
    match c.stage with
    | .resolving =>
      some { s with
        socket := { s.socket with connecting := true },
        control := .connecting caller
          { c with
            stage := if resolved then .running {} else .delaying,
            timeouts := c.timeouts ++ [if resolved then some c.currentTimeout else none] } }
    | _ => none
  | .attempt action, .connecting caller c =>
    match c.stage with
    | .running a =>
      (Attempt.step (s.socket, a) action).map fun after =>
        { s with
          socket := after.1, control := .connecting caller { c with stage := .running after.2 } }
    | _ => none
  | .conclude, .connecting caller c =>
    match c.stage with
    | .running a =>
      if a.timer = .ran ∧ a.connect = .ran then
        if a.Connects then
          some (return_ { s with socket := { s.socket with connecting := false } }
            (caller.event c.delays))
        else some { s with control := .connecting caller { c with stage := .delaying } }
      else none
    | _ => none
  | .elapse, .connecting caller c =>
    match c.stage with
    | .delaying =>
      some { s with
        control := .connecting caller
          { c with
            stage := .resolving, currentTimeout := backoff c.currentTimeout,
            delays := c.delays ++ [c.currentTimeout] } }
    | _ => none
  | _, _ => none

end TcpConnector

/-! ## One attempt -/

/-- The two handlers of an attempt. -/
inductive Handler
  | timer
  | connect
  deriving DecidableEq

/-- Whether the timer of the current attempt has expired, whether a peer has accepted a
connection, and the handler that ran first. -/
structure AttemptHistory where
  expired : Bool := false
  accepted : Bool := false
  first : Option Handler := none
  deriving DecidableEq

def AttemptHistory.update (h : AttemptHistory) : AttemptAction → AttemptHistory
  | .expire => { h with expired := true }
  | .accept => { h with accepted := true }
  | .refuse _ _ => h
  | .runTimer => { h with first := h.first.or (some .timer) }
  | .runConnect _ => { h with first := h.first.or (some .connect) }

namespace Attempt

/-- The timer's operation. A timer that was cancelled was so by the other handler. -/
def TimerInv (a : Attempt) (h : AttemptHistory) : Operation ErrorCode → Prop
  | .pending => a.timedOut = false ∧ h.expired = false ∧ h.first = none
  | .queued error =>
    a.timedOut = false ∧ (error = .success ↔ h.expired = true) ∧ h.first ≠ some .timer ∧
      (h.first = none → h.expired = true)
  | .ran =>
    h.first ≠ none ∧ (h.first = some .timer → h.expired = true ∧ a.timedOut = true) ∧
      (h.first = some .connect → a.timedOut = true → h.accepted = false)

/-- The operation of `async_connect`. -/
def ConnectInv (a : Attempt) (h : AttemptHistory) : Operation ErrorCode → Prop
  | .pending => h.first = none ∧ a.connected = false ∧ h.accepted = false
  | .queued error =>
    h.first ≠ some .connect ∧ a.connected = false ∧ (error = .success ↔ h.accepted = true)
  | .ran =>
    h.first ≠ none ∧ (a.connected = true ↔ a.ec = .success) ∧
      (a.ec = .success → h.accepted = true) ∧
      (h.accepted = true → h.first = some .connect → a.ec = .success)

/-- What holds throughout an attempt. -/
structure Inv (s : PeerSocket × Attempt) (h : AttemptHistory) : Prop where
  established : s.1.established = true ↔ h.accepted = true ∧ s.2.timedOut = false
  isOpen : s.1.established = true → s.1.isOpen = true
  connecting : s.1.connecting = true
  timer : TimerInv s.2 h s.2.timer
  connect : ConnectInv s.2 h s.2.connect

variable {s s' : PeerSocket × Attempt} {h : AttemptHistory} {action : AttemptAction}

theorem inv_init {socket : PeerSocket} (closed : socket.established = false)
    (connecting : socket.connecting = true) : Inv (socket, {}) {} where
  established := by simp [closed]
  isOpen := by simp [closed]
  connecting := connecting
  timer := ⟨rfl, rfl, rfl⟩
  connect := ⟨rfl, rfl, rfl⟩

theorem Inv.expire (inv : Inv s h) (taken : step s .expire = some s') :
    Inv s' (h.update .expire) := by
  unfold step at taken
  dsimp only at taken
  split at taken <;> cases taken
  rename_i pending
  have timer := inv.timer
  rw [pending] at timer
  exact ⟨inv.established, inv.isOpen, inv.connecting,
    ⟨timer.1, by simp [AttemptHistory.update], by simp [AttemptHistory.update, timer.2.2],
      fun _ => rfl⟩, inv.connect⟩

theorem Inv.timedOut_of_first (inv : Inv s h) (first : h.first = none) : s.2.timedOut = false := by
  have timer := inv.timer
  rcases at_ : s.2.timer with _ | error | _ <;> rw [at_] at timer
  · exact timer.1
  · exact timer.1
  · exact absurd first timer.1

theorem Inv.accept (inv : Inv s h) (taken : step s .accept = some s') :
    Inv s' (h.update .accept) := by
  unfold step at taken
  dsimp only at taken
  split at taken <;> cases taken
  rename_i pending
  have connect := inv.connect
  rw [pending] at connect
  obtain ⟨first, connected, -⟩ := connect
  have onTime := inv.timedOut_of_first first
  refine ⟨by simp [AttemptHistory.update, onTime], fun _ => rfl, inv.connecting, ?_, ?_⟩
  · have timer := inv.timer
    dsimp only
    rcases at_ : s.2.timer with _ | error | _ <;> rw [at_] at timer
    · exact timer
    · exact timer
    · exact absurd first timer.1
  · exact ⟨by simp [AttemptHistory.update, first], connected, by simp [AttemptHistory.update]⟩

theorem Inv.refuse {error : ErrorCode} {leftOpen : Bool} (inv : Inv s h)
    (taken : step s (.refuse error leftOpen) = some s') :
    Inv s' (h.update (.refuse error leftOpen)) := by
  unfold step at taken
  dsimp only at taken
  split at taken
  · rename_i pending
    split at taken <;> cases taken
    rename_i failed
    have connect := inv.connect
    rw [pending] at connect
    obtain ⟨first, connected, accepted⟩ := connect
    refine ⟨by simp [AttemptHistory.update, accepted], by simp, inv.connecting, inv.timer, ?_⟩
    exact ⟨by simp [AttemptHistory.update, first], connected,
      by simp [AttemptHistory.update, failed, accepted]⟩
  · cases taken

/-- Before any handler has run, `async_connect` has not succeeded. -/
theorem Inv.connected_of_first (inv : Inv s h) (first : h.first = none) :
    s.2.connected = false := by
  have connect := inv.connect
  rcases at_ : s.2.connect with _ | error | _ <;> rw [at_] at connect
  · exact connect.2.1
  · exact connect.2.1
  · exact absurd first connect.1

/-- Where its handler was the first, `async_connect` is over. -/
theorem Inv.ran_of_first (inv : Inv s h) (first : h.first = some .connect) :
    s.2.connect = .ran := by
  have connect := inv.connect
  rcases at_ : s.2.connect with _ | error | _ <;> rw [at_] at connect
  · cases first.symm.trans connect.1
  · exact absurd first connect.1

/-- A timer whose handler runs first has expired, and the handler closes the socket. -/
theorem Inv.runTimer_first {error : ErrorCode} (inv : Inv s h) (queued : s.2.timer = .queued error)
    (first : h.first = none) :
    Inv (timerHandler s.1 { s.2 with timer := .ran } error) (h.update .runTimer) := by
  have timer := inv.timer
  have connect := inv.connect
  rw [queued] at timer
  have expired := timer.2.2.2 first
  have connected := inv.connected_of_first first
  have fires : error = .success ∧ s.2.connected = false := ⟨timer.2.1.mpr expired, connected⟩
  have first' : (h.update .runTimer).first = some .timer := by
    simp [AttemptHistory.update, first]
  rw [timerHandler, if_pos fires]
  refine ⟨by simp [PeerSocket.close], by simp [PeerSocket.close], inv.connecting, ?_, ?_⟩
  · exact ⟨by simp [first'], fun _ => ⟨expired, rfl⟩, fun other => by simp [first'] at other⟩
  · dsimp only
    rcases at_ : s.2.connect with _ | error' | _ <;> rw [at_] at connect
    · exact ⟨by simp [first'], connected, by simp [AttemptHistory.update, connect.2.2]⟩
    · exact ⟨by simp [first'], connected, connect.2.2⟩
    · exact absurd first connect.1

/-- A timer whose handler runs second was cancelled in time, or the attempt has failed. -/
theorem Inv.runTimer_second {error : ErrorCode} (inv : Inv s h)
    (queued : s.2.timer = .queued error) (first : h.first = some .connect) :
    Inv (timerHandler s.1 { s.2 with timer := .ran } error) (h.update .runTimer) := by
  have timer := inv.timer
  have connect := inv.connect
  have ran := inv.ran_of_first first
  rw [queued] at timer
  rw [ran] at connect
  have same : h.update .runTimer = h := by
    rw [AttemptHistory.update, first, Option.some_or, ← first]
  rw [same]
  unfold timerHandler
  split <;> rename_i fires
  · have notAccepted : h.accepted = false := by
      refine Bool.eq_false_iff.mpr fun accepted => ?_
      have connected := connect.2.1.mpr (connect.2.2.2 accepted first)
      exact Bool.false_ne_true (fires.2.symm.trans connected)
    refine ⟨by simp [PeerSocket.close], by simp [PeerSocket.close], inv.connecting, ?_, ?_⟩
    · exact ⟨by simp [first], fun other => by simp [first] at other, fun _ _ => notAccepted⟩
    · dsimp only
      rw [ran]
      exact connect
  · refine ⟨inv.established, inv.isOpen, inv.connecting, ?_, inv.connect⟩
    refine ⟨by simp [first], fun other => by simp [first] at other, fun _ late => ?_⟩
    exact absurd (timer.1.symm.trans late) Bool.false_ne_true

theorem Inv.runTimer (inv : Inv s h) (taken : step s .runTimer = some s') :
    Inv s' (h.update .runTimer) := by
  unfold step at taken
  dsimp only at taken
  split at taken <;> cases taken
  rename_i error queued
  rcases first : h.first with _ | _ | _
  · exact inv.runTimer_first queued first
  · have timer := inv.timer
    rw [queued] at timer
    exact absurd first timer.2.2.1
  · exact inv.runTimer_second queued first

/-- What the handler of `async_connect` is told: a success only if a peer has accepted. -/
theorem Inv.accepted_of_reported {error reported : ErrorCode} (inv : Inv s h)
    (queued : s.2.connect = .queued error)
    (reports : reported = error ∨ s.1.isOpen = false ∧ reported = .operationAborted)
    (success : reported = .success) : h.accepted = true := by
  have connect := inv.connect
  rw [queued] at connect
  rcases reports with same | aborted
  · exact connect.2.2.mp (same.symm.trans success)
  · cases aborted.2.symm.trans success

/-- Where the handler of `async_connect` runs first, an accepted connection is reported. -/
theorem Inv.runConnect_first {error reported : ErrorCode} (inv : Inv s h)
    (queued : s.2.connect = .queued error)
    (reports : reported = error ∨ s.1.isOpen = false ∧ reported = .operationAborted)
    (first : h.first = none) :
    Inv (s.1, connectHandler { s.2 with connect := .ran } reported)
      (h.update (.runConnect reported)) := by
  have timer := inv.timer
  have connect := inv.connect
  rw [queued] at connect
  have success (accepted : h.accepted = true) : reported = .success := by
    rcases reports with same | aborted
    · exact same.trans (connect.2.2.mpr accepted)
    · have established := inv.established.mpr ⟨accepted, inv.timedOut_of_first first⟩
      exact absurd (aborted.1.symm.trans (inv.isOpen established)) Bool.false_ne_true
  have first' : (h.update (.runConnect reported)).first = some .connect := by
    simp [AttemptHistory.update, first]
  unfold connectHandler
  refine ⟨inv.established, inv.isOpen, inv.connecting, ?_, ?_⟩
  · dsimp only
    rcases at_ : s.2.timer with _ | error' | _ <;> rw [at_] at timer
    · exact ⟨timer.1, by simp [AttemptHistory.update, timer.2.1], by simp [first'],
        fun none_ => by simp [first'] at none_⟩
    · exact ⟨timer.1, timer.2.1, by simp [first'], fun none_ => by simp [first'] at none_⟩
    · exact absurd first timer.1
  · exact ⟨by simp [first'], decide_eq_true_iff, inv.accepted_of_reported queued reports,
      fun accepted _ => success accepted⟩

/-- Where the timer's handler ran first, the timer is over and the attempt has failed. -/
theorem Inv.runConnect_second {error reported : ErrorCode} (inv : Inv s h)
    (queued : s.2.connect = .queued error)
    (reports : reported = error ∨ s.1.isOpen = false ∧ reported = .operationAborted)
    (first : h.first = some .timer) :
    Inv (s.1, connectHandler { s.2 with connect := .ran } reported)
      (h.update (.runConnect reported)) := by
  have timer := inv.timer
  have same : h.update (.runConnect reported) = h := by
    rw [AttemptHistory.update, first, Option.some_or, ← first]
  rw [same]
  unfold connectHandler
  refine ⟨inv.established, inv.isOpen, inv.connecting, ?_, ?_⟩
  · dsimp only
    rcases at_ : s.2.timer with _ | error' | _ <;> rw [at_] at timer
    · cases first.symm.trans timer.2.2
    · exact absurd first timer.2.2.1
    · exact timer
  · exact ⟨by simp [first], decide_eq_true_iff, inv.accepted_of_reported queued reports,
      fun _ other => by simp [first] at other⟩

theorem Inv.runConnect {reported : ErrorCode} (inv : Inv s h)
    (taken : step s (.runConnect reported) = some s') :
    Inv s' (h.update (.runConnect reported)) := by
  unfold step at taken
  dsimp only at taken
  split at taken
  · rename_i error queued
    split at taken <;> cases taken
    rename_i reports
    rcases first : h.first with _ | _ | _
    · exact inv.runConnect_first queued reports first
    · exact inv.runConnect_second queued reports first
    · have connect := inv.connect
      rw [queued] at connect
      exact absurd first connect.1
  · cases taken

theorem Inv.of_step (inv : Inv s h) (taken : step s action = some s') :
    Inv s' (h.update action) := by
  cases action with
  | expire => exact inv.expire taken
  | accept => exact inv.accept taken
  | refuse error leftOpen => exact inv.refuse taken
  | runTimer => exact inv.runTimer taken
  | runConnect reported => exact inv.runConnect taken

section Over

variable (inv : Inv s h) (timer : s.2.timer = .ran) (connect : s.2.connect = .ran)

include inv timer connect

/-- What decides an attempt. -/
theorem Inv.connects_iff : s.2.Connects ↔
    h.accepted = true ∧ (h.expired = true → h.first = some .connect) := by
  have timerInv := inv.timer
  have connectInv := inv.connect
  rw [timer] at timerInv
  rw [connect] at connectInv
  obtain ⟨some_, late, failed⟩ := timerInv
  obtain ⟨-, -, accepted_of_success, success⟩ := connectInv
  apply Iff.intro
  · intro connects
    refine ⟨accepted_of_success connects.2, fun _ => ?_⟩
    rcases first : h.first with _ | _ | _
    · exact absurd first some_
    · exact absurd (connects.1.symm.trans (late first).2) Bool.false_ne_true
    · rfl
  · intro given
    have first : h.first = some .connect := by
      rcases first : h.first with _ | _ | _
      · exact absurd first some_
      · exact first.symm.trans (given.2 (late first).1)
      · rfl
    refine ⟨Bool.eq_false_iff.mpr fun timedOut => ?_, success given.1 first⟩
    exact Bool.false_ne_true ((failed first timedOut).symm.trans given.1)

/-- An attempt that ends with a connection leaves one that a peer has accepted, and an
attempt that fails leaves none. -/
theorem Inv.established_iff : s.1.established = true ↔ s.2.Connects := by
  have timerInv := inv.timer
  rw [timer] at timerInv
  obtain ⟨some_, late, -⟩ := timerInv
  apply Iff.intro
  · intro established
    obtain ⟨accepted, onTime⟩ := inv.established.mp established
    refine (inv.connects_iff timer connect).mpr ⟨accepted, fun _ => ?_⟩
    rcases first : h.first with _ | _ | _
    · exact absurd first some_
    · exact absurd (onTime.symm.trans (late first).2) Bool.false_ne_true
    · rfl
  · intro connects
    exact inv.established.mpr ⟨((inv.connects_iff timer connect).mp connects).1, connects.1⟩

end Over

end Attempt

/-! ## The loop -/

/-- The timeout of a turn, in seconds. -/
def timeoutAt (turn : Nat) : Nat := min (2 ^ (turn + 1)) maxTimeout

theorem backoff_timeoutAt (turn : Nat) : backoff (timeoutAt turn) = timeoutAt (turn + 1) := by
  have double : 2 ^ (turn + 1 + 1) = 2 ^ (turn + 1) * 2 := pow_succ 2 (turn + 1)
  unfold backoff timeoutAt maxTimeout
  split
  · rename_i less
    have small : 2 ^ (turn + 1) < 2 ^ 6 := by omega
    have next : 2 ^ (turn + 1 + 1) ≤ 2 ^ 6 :=
      Nat.pow_le_pow_right (by decide) ((Nat.pow_lt_pow_iff_right (by decide)).mp small)
    omega
  · omega

/-- The loop keeps to its schedule: turn by turn, the timer is given the timeout of the
turn and the delay after it lasts as long. -/
structure Connect.Scheduled (c : Connect) : Prop where
  current : c.currentTimeout = timeoutAt c.delays.length
  timeouts : ∀ turn timeout, c.timeouts[turn]? = some (some timeout) → timeout = timeoutAt turn
  turns : c.timeouts.length = c.delays.length + if c.stage = .resolving then 0 else 1
  delays : c.delays = (List.range c.delays.length).map timeoutAt

namespace Connect

variable {c : Connect}

theorem scheduled_init : Scheduled {} where
  current := rfl
  timeouts := by simp
  turns := rfl
  delays := rfl

theorem Scheduled.resolve (scheduled : c.Scheduled) (at_ : c.stage = .resolving)
    (resolved : Bool) :
    Scheduled { c with
      stage := if resolved then .running {} else .delaying,
      timeouts := c.timeouts ++ [if resolved then some c.currentTimeout else none] } where
  current := scheduled.current
  timeouts := by
    intro turn timeout set
    have turns := scheduled.turns
    rw [if_pos at_, Nat.add_zero] at turns
    dsimp only at set
    rcases Nat.lt_trichotomy turn c.timeouts.length with old | rfl | beyond
    · rw [List.getElem?_append_left old] at set
      exact scheduled.timeouts turn timeout set
    · rw [List.getElem?_concat_length] at set
      cases resolved with
      | true =>
        cases set
        rw [turns]
        exact scheduled.current
      | false => cases set
    · rw [List.getElem?_eq_none (by simpa using Nat.succ_le_of_lt beyond)] at set
      cases set
  turns := by
    have turns := scheduled.turns
    rw [if_pos at_] at turns
    cases resolved <;> simp [turns]
  delays := scheduled.delays

theorem Scheduled.stay {stage : Stage} (scheduled : c.Scheduled) (at_ : c.stage ≠ .resolving)
    (stays : stage ≠ .resolving) : Scheduled { c with stage := stage } where
  current := scheduled.current
  timeouts := scheduled.timeouts
  turns := by
    have turns := scheduled.turns
    rw [if_neg at_] at turns
    rw [turns, if_neg stays]
  delays := scheduled.delays

theorem Scheduled.elapse (scheduled : c.Scheduled) (at_ : c.stage = .delaying) :
    Scheduled { c with
      stage := .resolving, currentTimeout := backoff c.currentTimeout,
      delays := c.delays ++ [c.currentTimeout] } where
  current := by
    rw [scheduled.current, backoff_timeoutAt, List.length_append, List.length_singleton]
  timeouts := scheduled.timeouts
  turns := by
    have turns := scheduled.turns
    rw [if_neg (by rw [at_]; simp)] at turns
    simp [turns]
  delays := by
    rw [List.length_append, List.length_singleton, List.range_succ, List.map_append,
      ← scheduled.delays, scheduled.current]
    rfl

end Connect

/-! ## The connector -/

/-- A call has answered as it should: `send` throws for no data and for nothing else. -/
def Event.Proper : Event → Prop
  | .sent data _ _ result => result = if data = [] then .error .noDataToSend else .ok ()
  | .received _ result => result.isOk = true
  | _ => True

/-- A call to be answered once `connect` has returned. -/
def Caller.Proper (caller : Caller) : Prop := ∀ delays, (caller.event delays).Proper

namespace TcpConnector

/-- The steps, with what each one does. -/
inductive Takes (s : TcpConnector) : ConnectorAction → TcpConnector → Prop
  | constructs (at_ : s.control = .unconstructed) : Takes s .construct (s.connect .constructor_)
  | sends {data : Bytes} (idle : s.control = .idle) : Takes s (.send data) (s.send data)
  | receives (idle : s.control = .idle) : Takes s .receive s.receive
  | destroys (idle : s.control = .idle) :
    Takes s .destroy { s.disconnect with control := .destroyed, log := s.log ++ [.destroyed] }
  | writes {data : Bytes} {write : Write} (at_ : s.control = .writing data) :
    Takes s (.write write) (s.wrote data write)
  | reads {r r' : Receive} {action : TcpAction} (at_ : s.control = .receiving r)
      (moves : r.step action = some r') :
    Takes s (.read action) { s with control := .receiving r' }
  | lost {r : Receive} (at_ : s.control = .receiving r) (deadline : r.deadline = .ran)
      (read : r.read = .ran) (failed : r.result.2 = true) :
    Takes s .conclude (s.reconnect .receive)
  | returns {r : Receive} (at_ : s.control = .receiving r) (deadline : r.deadline = .ran)
      (read : r.read = .ran) (fine : r.result.2 = false) :
    Takes s .conclude (s.return_ (.received [] (.ok r.result.1)))
  | resolves {caller : Caller} {c : Connect} {resolved : Bool}
      (at_ : s.control = .connecting caller c) (stage : c.stage = .resolving) :
    Takes s (.resolve resolved)
      { s with
        socket := { s.socket with connecting := true },
        control := .connecting caller
          { c with
            stage := if resolved then .running {} else .delaying,
            timeouts := c.timeouts ++ [if resolved then some c.currentTimeout else none] } }
  | attempts {caller : Caller} {c : Connect} {a : Attempt} {action : AttemptAction}
      {after : PeerSocket × Attempt} (at_ : s.control = .connecting caller c)
      (stage : c.stage = .running a) (moves : Attempt.step (s.socket, a) action = some after) :
    Takes s (.attempt action)
      { s with
        socket := after.1, control := .connecting caller { c with stage := .running after.2 } }
  | connects {caller : Caller} {c : Connect} {a : Attempt} (at_ : s.control = .connecting caller c)
      (stage : c.stage = .running a) (timer : a.timer = .ran) (connect : a.connect = .ran)
      (connects : a.Connects) :
    Takes s .conclude
      (return_ { s with socket := { s.socket with connecting := false } }
        (caller.event c.delays))
  | fails {caller : Caller} {c : Connect} {a : Attempt} (at_ : s.control = .connecting caller c)
      (stage : c.stage = .running a) (timer : a.timer = .ran) (connect : a.connect = .ran)
      (fails : ¬ a.Connects) :
    Takes s .conclude { s with control := .connecting caller { c with stage := .delaying } }
  | elapses {caller : Caller} {c : Connect} (at_ : s.control = .connecting caller c)
      (stage : c.stage = .delaying) :
    Takes s .elapse
      { s with
        control := .connecting caller
          { c with
            stage := .resolving, currentTimeout := backoff c.currentTimeout,
            delays := c.delays ++ [c.currentTimeout] } }

theorem takes_of_step {s s' : TcpConnector} {action : ConnectorAction}
    (taken : s.step action = some s') : Takes s action s' := by
  unfold step at taken
  split at taken
  case h_1 at_ => cases taken; exact .constructs at_
  case h_2 idle => cases taken; exact .sends idle
  case h_3 idle => cases taken; exact .receives idle
  case h_4 idle => cases taken; exact .destroys idle
  case h_5 at_ => cases taken; exact .writes at_
  case h_6 at_ =>
    obtain ⟨r', moves, same⟩ := Option.map_eq_some_iff.mp taken
    subst same
    exact .reads at_ moves
  case h_7 at_ =>
    split at taken
    · rename_i ran
      split at taken <;> cases taken
      · exact .lost at_ ran.1 ran.2 ‹_›
      · exact .returns at_ ran.1 ran.2 (Bool.eq_false_iff.mpr ‹_›)
    · cases taken
  case h_8 at_ =>
    split at taken <;> cases taken
    exact .resolves at_ ‹_›
  case h_9 at_ =>
    split at taken
    · obtain ⟨after, moves, same⟩ := Option.map_eq_some_iff.mp taken
      subst same
      exact .attempts at_ ‹_› moves
    · cases taken
  case h_10 at_ =>
    split at taken
    · split at taken
      · rename_i stage ran
        split at taken <;> cases taken
        · exact .connects at_ stage ran.1 ran.2 ‹_›
        · exact .fails at_ stage ran.1 ran.2 ‹_›
      · cases taken
    · cases taken
  case h_11 at_ =>
    split at taken <;> cases taken
    exact .elapses at_ ‹_›
  case h_12 => cases taken

/-- The history of the last attempt. -/
def follow (h : AttemptHistory) : ConnectorAction → AttemptHistory
  | .resolve _ => {}
  | .attempt action => h.update action
  | _ => h

/-- The step, with this history. -/
abbrev historyStep : TcpConnector × AttemptHistory → ConnectorAction →
    Option (TcpConnector × AttemptHistory) :=
  withGhost step fun _ action _ h => follow h action

/-- The socket of a connector that waits for a call. -/
def ready : PeerSocket := { isOpen := true, connecting := false, established := true }

/-- The socket and the history at each point of a call. -/
inductive Phase : PeerSocket → Control → AttemptHistory → Prop
  | unconstructed {h : AttemptHistory} : Phase {} .unconstructed h
  | idle {h : AttemptHistory} : Phase ready .idle h
  | writing {data : Bytes} {h : AttemptHistory} (nonempty : data ≠ []) :
    Phase ready (.writing data) h
  | receiving {r : Receive} {h : AttemptHistory} : Phase ready (.receiving r) h
  | resolving {socket : PeerSocket} {caller : Caller} {c : Connect} {h : AttemptHistory}
      (stage : c.stage = .resolving) (closed : socket.established = false)
      (scheduled : c.Scheduled) (proper : caller.Proper) :
    Phase socket (.connecting caller c) h
  | running {socket : PeerSocket} {caller : Caller} {c : Connect} {a : Attempt}
      {h : AttemptHistory} (stage : c.stage = .running a) (inv : Attempt.Inv (socket, a) h)
      (scheduled : c.Scheduled) (proper : caller.Proper) :
    Phase socket (.connecting caller c) h
  | delaying {socket : PeerSocket} {caller : Caller} {c : Connect} {h : AttemptHistory}
      (stage : c.stage = .delaying) (closed : socket.established = false)
      (scheduled : c.Scheduled) (proper : caller.Proper) :
    Phase socket (.connecting caller c) h
  | destroyed {h : AttemptHistory} : Phase {} .destroyed h

/-- The invariant of the connector. -/
structure Inv (s : TcpConnector × AttemptHistory) : Prop where
  phase : Phase s.1.socket s.1.control s.2
  proper : ∀ event ∈ s.1.log, event.Proper

variable {s s' : TcpConnector} {h : AttemptHistory} {action : ConnectorAction}

theorem Inv.return_ {event : Event} (proper : ∀ event ∈ s.log, event.Proper)
    (waits : s.socket = ready) (last : event.Proper) : Inv (s.return_ event, h) where
  phase := by
    rw [TcpConnector.return_]
    dsimp only
    rw [waits]
    exact .idle
  proper := List.forall_mem_append.mpr ⟨proper, List.forall_mem_singleton.mpr last⟩

theorem Inv.connect {caller : Caller} (proper : ∀ event ∈ s.log, event.Proper)
    (closed : s.socket.established = false) (free : s.socket.connecting = false)
    (last : caller.Proper) : Inv (s.connect caller, h) := by
  rw [TcpConnector.connect, free, if_neg Bool.false_ne_true]
  exact ⟨.resolving rfl closed Connect.scheduled_init last, proper⟩

theorem disconnect_of_ready (waits : s.socket = ready) :
    s.disconnect = { s with socket := {} } := by
  rw [disconnect, waits]
  rfl

theorem Inv.reconnect {caller : Caller} (proper : ∀ event ∈ s.log, event.Proper)
    (waits : s.socket = ready) (last : caller.Proper) :
    Inv (s.reconnect caller, h) := by
  rw [TcpConnector.reconnect, disconnect_of_ready waits]
  exact .connect proper rfl rfl last

theorem Inv.send {data : Bytes} (proper : ∀ event ∈ s.log, event.Proper)
    (waits : s.socket = ready) : Inv (s.send data, h) := by
  unfold TcpConnector.send
  rw [waits, if_neg (by simp [ready])]
  cases data with
  | nil => exact .return_ proper waits rfl
  | cons byte data =>
    refine ⟨?_, proper⟩
    dsimp only [List.isEmpty_cons]
    rw [if_neg Bool.false_ne_true]
    exact .writing (List.cons_ne_nil byte data)

theorem Inv.wrote {data : Bytes} {write : Write} (proper : ∀ event ∈ s.log, event.Proper)
    (waits : s.socket = ready) (nonempty : data ≠ []) : Inv (s.wrote data write, h) := by
  have answered : (.ok () : Except SendError Unit) =
      if data = [] then .error .noDataToSend else .ok () := (if_neg nonempty).symm
  cases write with
  | all => exact .return_ proper waits answered
  | threw count => exact .reconnect proper waits fun _ => answered

theorem Inv.receive (proper : ∀ event ∈ s.log, event.Proper) (waits : s.socket = ready) :
    Inv (s.receive, h) := by
  have isOpen : s.socket.isOpen = true := by rw [waits]; rfl
  rw [TcpConnector.receive, if_pos isOpen]
  refine ⟨?_, proper⟩
  dsimp only
  rw [waits]
  exact .receiving

/-- What the invariant says of the socket where the connector waits. -/
theorem Phase.ready_of_idle {socket : PeerSocket} {control : Control}
    (phase : Phase socket control h) (idle : control = .idle) : socket = ready := by
  cases phase <;> cases idle
  rfl

theorem Phase.ready_of_writing {socket : PeerSocket} {control : Control} {data : Bytes}
    (phase : Phase socket control h) (at_ : control = .writing data) :
    socket = ready ∧ data ≠ [] := by
  cases phase <;> cases at_
  exact ⟨rfl, ‹_›⟩

theorem Phase.ready_of_receiving {socket : PeerSocket} {control : Control} {r : Receive}
    (phase : Phase socket control h) (at_ : control = .receiving r) : socket = ready := by
  cases phase <;> cases at_
  rfl

theorem Phase.of_unconstructed {socket : PeerSocket} {control : Control}
    (phase : Phase socket control h) (at_ : control = .unconstructed) : socket = {} := by
  cases phase <;> cases at_
  rfl

/-- What it says within `connect`, stage by stage. -/
theorem Phase.of_connecting {socket : PeerSocket} {caller : Caller} {c : Connect}
    (phase : Phase socket (.connecting caller c) h) :
    c.Scheduled ∧ caller.Proper ∧
      (c.stage = .resolving → socket.established = false) ∧
      (c.stage = .delaying → socket.established = false) ∧
      ∀ a, c.stage = .running a → Attempt.Inv (socket, a) h := by
  cases phase with
  | resolving stage closed scheduled proper =>
    exact ⟨scheduled, proper, fun _ => closed, fun _ => closed,
      fun a at_ => by cases stage.symm.trans at_⟩
  | running stage inv scheduled proper =>
    refine ⟨scheduled, proper, fun at_ => ?_, fun at_ => ?_, fun a at_ => ?_⟩
    · cases stage.symm.trans at_
    · cases stage.symm.trans at_
    · cases stage.symm.trans at_
      exact inv
  | delaying stage closed scheduled proper =>
    exact ⟨scheduled, proper, fun _ => closed, fun _ => closed,
      fun a at_ => by cases stage.symm.trans at_⟩

/-- A connection that has been made is the one the connector waits with. -/
theorem ready_of_connects {socket : PeerSocket} {a : Attempt} (inv : Attempt.Inv (socket, a) h)
    (timer : a.timer = .ran) (connect : a.connect = .ran) (connects : a.Connects) :
    { socket with connecting := false } = ready := by
  have established : socket.established = true :=
    (inv.established_iff timer connect).mpr connects
  have isOpen : socket.isOpen = true := inv.isOpen established
  rcases socket with ⟨⟨isOpen', connecting⟩, established'⟩
  cases isOpen
  cases established
  rfl

/-- What a step keeps. -/
theorem Inv.of_takes (inv : Inv (s, h)) (takes : Takes s action s') :
    Inv (s', follow h action) := by
  obtain ⟨phase, proper⟩ := inv
  dsimp only at phase proper
  cases takes with
  | constructs at_ =>
    have fresh := phase.of_unconstructed at_
    exact .connect proper (by rw [fresh]) (by rw [fresh]) fun _ => trivial
  | sends idle => exact .send proper (phase.ready_of_idle idle)
  | receives idle => exact .receive proper (phase.ready_of_idle idle)
  | destroys idle =>
    rw [disconnect_of_ready (phase.ready_of_idle idle)]
    exact ⟨.destroyed, List.forall_mem_append.mpr ⟨proper, List.forall_mem_singleton.mpr trivial⟩⟩
  | writes at_ =>
    obtain ⟨waits, nonempty⟩ := phase.ready_of_writing at_
    exact .wrote proper waits nonempty
  | reads at_ moves =>
    refine ⟨?_, proper⟩
    dsimp only
    rw [phase.ready_of_receiving at_]
    exact .receiving
  | lost at_ deadline read failed =>
    exact .reconnect proper (phase.ready_of_receiving at_) fun _ => rfl
  | returns at_ deadline read fine => exact .return_ proper (phase.ready_of_receiving at_) rfl
  | @resolves caller c resolved at_ stage =>
    rw [at_] at phase
    obtain ⟨scheduled, last, closed, -, -⟩ := phase.of_connecting
    have scheduled := scheduled.resolve stage resolved
    refine ⟨?_, proper⟩
    cases resolved with
    | true => exact .running rfl (Attempt.inv_init (closed stage) rfl) scheduled last
    | false => exact .delaying rfl (closed stage) scheduled last
  | attempts at_ stage moves =>
    rw [at_] at phase
    obtain ⟨scheduled, last, -, -, running⟩ := phase.of_connecting
    have inv := (running _ stage).of_step moves
    exact ⟨.running rfl inv (scheduled.stay (by rw [stage]; simp) (by simp)) last, proper⟩
  | connects at_ stage timer connect connects =>
    rw [at_] at phase
    obtain ⟨-, last, -, -, running⟩ := phase.of_connecting
    have waits := ready_of_connects (running _ stage) timer connect connects
    exact .return_ proper waits (last _)
  | fails at_ stage timer connect fails =>
    rw [at_] at phase
    obtain ⟨scheduled, last, -, -, running⟩ := phase.of_connecting
    have closed := mt ((running _ stage).established_iff timer connect).mp fails
    have closed := Bool.eq_false_iff.mpr closed
    exact ⟨.delaying rfl closed (scheduled.stay (by rw [stage]; simp) (by simp)) last, proper⟩
  | elapses at_ stage =>
    rw [at_] at phase
    obtain ⟨scheduled, last, -, closed, -⟩ := phase.of_connecting
    exact ⟨.resolving rfl (closed stage) (scheduled.elapse stage) last, proper⟩

/-! ## Runs -/

theorem inv_init : Inv ({}, {}) := ⟨.unconstructed, fun _ member => absurd member List.not_mem_nil⟩

theorem Inv.of_historyStep {s s' : TcpConnector × AttemptHistory} (inv : Inv s)
    (taken : historyStep s action = some s') : Inv s' := by
  obtain ⟨step_, same⟩ := withGhost_eq_some taken
  rcases s' with ⟨s', h'⟩
  dsimp only at step_ same
  subst same
  exact inv.of_takes (takes_of_step step_)

theorem inv_of_run {actions : List ConnectorAction} (reached : run step {} actions = some s) :
    ∃ h, Inv (s, h) := by
  obtain ⟨⟨s', h⟩, reached', same⟩ : ∃ after, run historyStep ({}, {}) actions = some after ∧
      after.1 = s := Option.map_eq_some_iff.mp (run_withGhost.trans reached)
  cases same
  exact ⟨h, invariant_run (fun _ _ _ inv taken => inv.of_historyStep taken) inv_init reached'⟩

/-- In every run of a connector that one thread calls, what decides an attempt is which
handler ran first: `connect` returns exactly if a peer has accepted a connection and, where
the timer has expired too, its handler ran after that of `async_connect`. -/
theorem attempt_decided (actions : List ConnectorAction) :
    Always historyStep (fun s action s' => action = .conclude →
      (∃ caller c, s.1.control = .connecting caller c) →
        (s'.1.control = .idle ↔
          s.2.accepted = true ∧ (s.2.expired = true → s.2.first = some .connect)))
      ({}, {}) actions := by
  refine always_of_invariant (I := Inv) (fun _ _ _ inv taken => inv.of_historyStep taken) ?_
    inv_init
  rintro ⟨s, h⟩ action ⟨s', h'⟩ inv taken concludes ⟨caller, c, at_⟩
  subst concludes
  have phase := inv.phase
  dsimp only at at_ phase ⊢
  rw [at_] at phase
  obtain ⟨-, -, -, -, running⟩ := phase.of_connecting
  cases takes_of_step (withGhost_eq_some taken).1 with
  | lost at_' => cases at_.symm.trans at_'
  | returns at_' => cases at_.symm.trans at_'
  | connects at_' stage timer connect connects =>
    cases at_.symm.trans at_'
    exact iff_of_true rfl (((running _ stage).connects_iff timer connect).mp connects)
  | fails at_' stage timer connect fails =>
    cases at_.symm.trans at_'
    exact iff_of_false (by simp) (mt ((running _ stage).connects_iff timer connect).mpr fails)

/-- In every run of a connector that one thread calls, the connector waits for calls, for its
writes and for data with an accepted connection, and is closed when it is destroyed; no call
throws, but `send` for no data. -/
theorem answers_of_run {actions : List ConnectorAction} (reached : run step {} actions = some s) :
    ((s.control = .idle ∨ (∃ data, s.control = .writing data) ∨
        ∃ r, s.control = .receiving r) → s.socket = ready) ∧
      (s.control = .destroyed → s.socket = {}) ∧ ∀ event ∈ s.log, event.Proper := by
  obtain ⟨h, phase, proper⟩ := inv_of_run reached
  dsimp only at phase
  refine ⟨?_, fun destroyed => ?_, proper⟩
  · rintro (idle | ⟨data, at_⟩ | ⟨r, at_⟩)
    · exact phase.ready_of_idle idle
    · exact (phase.ready_of_writing at_).1
    · exact phase.ready_of_receiving at_
  · rw [destroyed] at phase
    generalize s.socket = socket at phase ⊢
    cases phase
    rfl

/-- A connector that is constructed, whose write then throws and which has been connected
again by a peer that accepted as the timer expired. -/
def lateAccept : List ConnectorAction :=
  [.construct, .resolve true, .attempt .accept, .attempt (.runConnect .success),
    .attempt .runTimer, .conclude, .send [0x01, 0x02], .write (.threw 1), .resolve true,
    .attempt .expire, .attempt .accept, .attempt (.runConnect .success), .attempt .runTimer,
    .conclude, .send []]

theorem answers_of_run_lateAccept : ∃ s, run step {} lateAccept = some s ∧
    ((s.control = .idle ∨ (∃ data, s.control = .writing data) ∨
        ∃ r, s.control = .receiving r) → s.socket = ready) ∧
      (s.control = .destroyed → s.socket = {}) ∧ ∀ event ∈ s.log, event.Proper := by
  have reached : run step {} lateAccept = some _ := rfl
  exact ⟨_, reached, answers_of_run reached⟩

/-- In every run of a connector that one thread calls, the loop of `connect` keeps to its
schedule, whatever fails in a turn. -/
theorem waits_of_run {actions : List ConnectorAction} {caller : Caller} {c : Connect}
    (reached : run step {} actions = some s) (at_ : s.control = .connecting caller c) :
    c.Scheduled := by
  obtain ⟨h, phase, -⟩ := inv_of_run reached
  dsimp only at phase
  rw [at_] at phase
  exact phase.of_connecting.1

/-- A construction whose first turn fails in the resolver and whose second one is late. -/
def slowConstruction : List ConnectorAction :=
  [.construct, .resolve false, .elapse, .resolve true, .attempt .expire, .attempt .accept,
    .attempt .runTimer, .attempt (.runConnect .success), .conclude, .elapse]

theorem waits_of_run_slowConstruction : ∃ s caller c, run step {} slowConstruction = some s ∧
    s.control = .connecting caller c ∧ c.delays = [2, 4] ∧ c.Scheduled := by
  have reached : run step {} slowConstruction = some _ := rfl
  exact ⟨_, _, _, reached, rfl, rfl, waits_of_run reached rfl⟩

end TcpConnector

end Iqrf.Connector.Tcp
