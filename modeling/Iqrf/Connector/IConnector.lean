import Iqrf.Lib.Runs

/-!
# The connector interface: handlers, tokens and the listening loop

`IConnector` is the state of `IConnector.h`: one slot for each access type, the
flag of the listening loop and the slot of its thread. The guarded member
functions are atomic under the mutex and are modelled as functions of the whole
state. The listening loop is modelled twice: `loopStep` is the thread, one
uninterrupted piece at a time (`LoopTakes` names the pieces), and `listeningLoop`
is a whole run of it that no other thread interrupts.
-/

namespace Iqrf.Connector

/-- A `std::vector<uint8_t>`. -/
abbrev Bytes := List UInt8

/-- The mode of access to the connector. -/
inductive AccessType
  | normal
  | exclusive
  | sniffer
  deriving DecidableEq, Repr

/-- A `std::function` slot, which may be empty. -/
abbrev ResponseHandler (H : Type*) := Option H

/-- A token bears its level of access and nothing else. It cannot be copied, but
the object it was moved from bears the same level. -/
structure AccessToken where
  accessType : AccessType
  deriving DecidableEq, Repr

/-- The `std::runtime_error`s of the interface. -/
inductive RuntimeError
  | exclusiveAccessIsActive
  | snifferTokenDoesNotAllowSending
  | exclusiveAccessAlreadyAssigned
  | listeningLoopAlreadyActive
  deriving DecidableEq, Repr

/-- The text the exception carries. -/
def RuntimeError.what : RuntimeError → String
  | exclusiveAccessIsActive => "Cannot send: Exclusive access is active"
  | snifferTokenDoesNotAllowSending => "Cannot send: Sniffer token does not allow sending"
  | exclusiveAccessAlreadyAssigned => "Exclusive access already assigned"
  | listeningLoopAlreadyActive => "Listening loop already active"

/-- The connector, with the values its constructor leaves. `H` are the handlers;
`listeningThread` is the thread that is joinable through the slot, if any. -/
structure IConnector (H : Type*) where
  normalResponseHandler : ResponseHandler H := none
  exclusiveResponseHandler : ResponseHandler H := none
  snifferResponseHandler : ResponseHandler H := none
  listening : Bool := false
  listeningThread : Option Nat := none
  deriving DecidableEq

namespace IConnector

variable {H : Type*} (c : IConnector H)

def hasExclusiveAccess : Bool := c.exclusiveResponseHandler.isSome

/-- The two-argument `send`: what it hands to the transport's `send`, if it does. -/
def send (data : Bytes) (token : AccessToken) : Except RuntimeError Bytes :=
  match token.accessType with
  | .normal => if c.hasExclusiveAccess then .error .exclusiveAccessIsActive else .ok data
  | .exclusive => .ok data
  | .sniffer => .error .snifferTokenDoesNotAllowSending

def registerResponseHandler (responseHandler : ResponseHandler H) (access : AccessType) :
    IConnector H × Except RuntimeError AccessToken :=
  match access with
  | .normal => ({ c with normalResponseHandler := responseHandler }, .ok ⟨access⟩)
  | .exclusive =>
    if c.hasExclusiveAccess then (c, .error .exclusiveAccessAlreadyAssigned)
    else ({ c with exclusiveResponseHandler := responseHandler }, .ok ⟨access⟩)
  | .sniffer => ({ c with snifferResponseHandler := responseHandler }, .ok ⟨access⟩)

def unregisterResponseHandler (token : AccessToken) : IConnector H :=
  match token.accessType with
  | .normal => { c with normalResponseHandler := none }
  | .exclusive => { c with exclusiveResponseHandler := none }
  | .sniffer => { c with snifferResponseHandler := none }

/-- The slot of an access type. -/
def slot : AccessType → ResponseHandler H
  | .normal => c.normalResponseHandler
  | .exclusive => c.exclusiveResponseHandler
  | .sniffer => c.snifferResponseHandler

/-! ## What the guarded functions do to the slots -/

variable {c} {handler : ResponseHandler H} {access other : AccessType} {token : AccessToken}

/-- A registration is refused exactly for exclusive access that is taken, and then
nothing changes; otherwise it fills its slot and hands out a token of its type. -/
theorem registerResponseHandler_cases (c : IConnector H) (handler : ResponseHandler H)
    (access : AccessType) :
    (access = .exclusive ∧ c.hasExclusiveAccess = true ∧
      c.registerResponseHandler handler access = (c, .error .exclusiveAccessAlreadyAssigned)) ∨
    ((access = .exclusive → c.hasExclusiveAccess = false) ∧
      (c.registerResponseHandler handler access).2 = .ok ⟨access⟩ ∧
      (∀ other, (c.registerResponseHandler handler access).1.slot other =
        if other = access then handler else c.slot other)) := by
  cases access with
  | normal =>
    exact Or.inr ⟨(fun h => by cases h), rfl, fun other => by cases other <;> rfl⟩
  | exclusive =>
    by_cases taken : c.hasExclusiveAccess = true
    · exact Or.inl ⟨rfl, taken, by rw [registerResponseHandler, if_pos taken]⟩
    · have free := Bool.eq_false_iff.mpr taken
      refine Or.inr ⟨fun _ => free, ?_, fun other => ?_⟩
      · rw [registerResponseHandler, if_neg taken]
      · rw [registerResponseHandler, if_neg taken]
        cases other <;> rfl
  | sniffer =>
    exact Or.inr ⟨(fun h => by cases h), rfl, fun other => by cases other <;> rfl⟩

/-- Unregistering empties the slot of the token's type, whoever filled it. -/
theorem slot_unregisterResponseHandler (c : IConnector H) (token : AccessToken)
    (other : AccessType) :
    (c.unregisterResponseHandler token).slot other =
      if other = token.accessType then none else c.slot other := by
  rcases token with ⟨access⟩
  cases access <;> cases other <;> rfl

theorem hasExclusiveAccess_eq (c : IConnector H) :
    c.hasExclusiveAccess = (c.slot .exclusive).isSome := rfl

/-- The guarded functions leave the loop's flag and thread alone. -/
theorem registerResponseHandler_loop (c : IConnector H) (handler : ResponseHandler H)
    (access : AccessType) :
    (c.registerResponseHandler handler access).1.listening = c.listening ∧
      (c.registerResponseHandler handler access).1.listeningThread = c.listeningThread := by
  cases access with
  | normal => exact ⟨rfl, rfl⟩
  | exclusive =>
    by_cases taken : c.hasExclusiveAccess = true
    · rw [registerResponseHandler, if_pos taken]
      exact ⟨rfl, rfl⟩
    · rw [registerResponseHandler, if_neg taken]
      exact ⟨rfl, rfl⟩
  | sniffer => exact ⟨rfl, rfl⟩

theorem unregisterResponseHandler_loop (c : IConnector H) (token : AccessToken) :
    (c.unregisterResponseHandler token).listening = c.listening ∧
      (c.unregisterResponseHandler token).listeningThread = c.listeningThread := by
  rcases token with ⟨access⟩
  cases access <;> exact ⟨rfl, rfl⟩

/-- With exclusive access active only an exclusive token reaches the transport. -/
theorem send_of_exclusive {data sent : Bytes} (active : c.hasExclusiveAccess = true)
    (reaches : c.send data token = .ok sent) : token.accessType = .exclusive := by
  rcases token with ⟨access⟩
  cases access with
  | normal => simp [send, active] at reaches
  | exclusive => rfl
  | sniffer => simp [send] at reaches

end IConnector

/-! ## The listening loop -/

/-- One call of a handler by the listening loop. -/
structure Delivery (H : Type*) where
  access : AccessType
  handler : H
  buffer : Bytes
  deriving DecidableEq

section Loop

variable {H : Type*}

/-- Calling a slot: an empty `std::function` throws, a handler is called and
returns or throws. The flag says whether the call returned. -/
def ResponseHandler.call (returns : Delivery H → Bool) (access : AccessType)
    (recvBuffer : Bytes) : ResponseHandler H → List (Delivery H) × Bool
  | none => ([], false)
  | some handler => ([⟨access, handler, recvBuffer⟩], returns ⟨access, handler, recvBuffer⟩)

namespace IConnector

/-- The part of the loop body under the lock. An exception of the first call
leaves the body before the sniffer is looked at. -/
def dispatch (returns : Delivery H → Bool) (c : IConnector H) (recvBuffer : Bytes) :
    List (Delivery H) × Bool :=
  let first :=
    if c.hasExclusiveAccess then
      ResponseHandler.call returns .exclusive recvBuffer c.exclusiveResponseHandler
    else ResponseHandler.call returns .normal recvBuffer c.normalResponseHandler
  if first.2 then
    if c.snifferResponseHandler.isSome then
      let second := ResponseHandler.call returns .sniffer recvBuffer c.snifferResponseHandler
      (first.1 ++ second.1, second.2)
    else first
  else first

end IConnector

/-- Where a listening thread stands. -/
inductive LoopPc
  /-- before the test of the `while` loop -/
  | checking
  /-- inside `receive()` -/
  | receiving
  /-- with a buffer that is not empty, before the lock -/
  | dispatching (recvBuffer : Bytes)
  /-- in the `catch` block, before the flag is cleared -/
  | caught
  /-- at the end of the thread function -/
  | finished
  deriving DecidableEq, Repr

/-- One uninterrupted piece of a listening thread; `receive()` returns a buffer or
throws, and for each handler call it is given whether it returns. -/
inductive LoopEvent (H : Type*)
  | check
  | receive (result : Option Bytes)
  | dispatch (returns : Delivery H → Bool)
  | catchAll

/-- One piece of `IConnector::listeningLoop`: the connector, where the thread
stands afterwards and the handler calls it made. -/
def loopStep (c : IConnector H) :
    LoopPc → LoopEvent H → Option (IConnector H × LoopPc × List (Delivery H))
  | .checking, .check => some (c, if c.listening then .receiving else .finished, [])
  | .receiving, .receive (some recvBuffer) =>
    some (c, if recvBuffer.isEmpty then .checking else .dispatching recvBuffer, [])
  | .receiving, .receive none => some (c, .caught, [])
  | .dispatching recvBuffer, .dispatch returns =>
    let result := c.dispatch returns recvBuffer
    some (c, if result.2 then .checking else .caught, result.1)
  | .caught, .catchAll => some ({ c with listening := false }, .finished, [])
  | _, _ => none

/-- A run of `IConnector::listeningLoop` over the results of `receive()`, with no
other thread in between: the connector it leaves and the handler calls it made.
At the end of the list it waits inside `receive()`. -/
def listeningLoop (returns : Delivery H → Bool) (c : IConnector H) :
    List (Option Bytes) → IConnector H × List (Delivery H)
  | [] => (c, [])
  | received :: rest =>
    if c.listening then
      match received with
      | none => ({ c with listening := false }, [])
      | some recvBuffer =>
        if recvBuffer.isEmpty then listeningLoop returns c rest
        else
          let result := c.dispatch returns recvBuffer
          if result.2 then
            let later := listeningLoop returns c rest
            (later.1, result.1 ++ later.2)
          else ({ c with listening := false }, result.1)
    else (c, [])

/-! ## What the loop does -/

variable {c c' : IConnector H} {pc pc' : LoopPc} {event : LoopEvent H}
  {calls : List (Delivery H)} {recvBuffer : Bytes} {returns : Delivery H → Bool}

/-- The pieces of a listening thread, with what each one does. -/
inductive LoopTakes (c : IConnector H) :
    LoopPc → LoopEvent H → IConnector H → LoopPc → List (Delivery H) → Prop
  | again (listening : c.listening = true) : LoopTakes c .checking .check c .receiving []
  | leave (stopped : c.listening = false) : LoopTakes c .checking .check c .finished []
  | nothing : LoopTakes c .receiving (.receive (some [])) c .checking []
  | received {recvBuffer : Bytes} (nonempty : recvBuffer ≠ []) :
    LoopTakes c .receiving (.receive (some recvBuffer)) c (.dispatching recvBuffer) []
  | receiveThrew : LoopTakes c .receiving (.receive none) c .caught []
  | dispatched {recvBuffer : Bytes} {returns : Delivery H → Bool}
      (returned : (c.dispatch returns recvBuffer).2 = true) :
    LoopTakes c (.dispatching recvBuffer) (.dispatch returns) c .checking
      (c.dispatch returns recvBuffer).1
  | dispatchThrew {recvBuffer : Bytes} {returns : Delivery H → Bool}
      (threw : (c.dispatch returns recvBuffer).2 = false) :
    LoopTakes c (.dispatching recvBuffer) (.dispatch returns) c .caught
      (c.dispatch returns recvBuffer).1
  | ended : LoopTakes c .caught .catchAll { c with listening := false } .finished []

theorem loopStep_eq_some_iff :
    loopStep c pc event = some (c', pc', calls) ↔ LoopTakes c pc event c' pc' calls := by
  apply Iff.intro
  · intro taken
    cases pc with
    | checking =>
      cases event <;> cases taken
      cases listening : c.listening with
      | true => exact .again listening
      | false => exact .leave listening
    | receiving =>
      cases event with
      | receive result =>
        rcases result with _ | _ | ⟨b, rest⟩
        · cases taken
          exact .receiveThrew
        · cases taken
          exact .nothing
        · cases taken
          exact .received (List.cons_ne_nil b rest)
      | check => cases taken
      | dispatch returns => cases taken
      | catchAll => cases taken
    | dispatching recvBuffer =>
      cases event <;> cases taken
      rename_i returns
      cases result : (c.dispatch returns recvBuffer).2 with
      | true => exact .dispatched result
      | false => exact .dispatchThrew result
    | caught =>
      cases event <;> cases taken
      exact .ended
    | finished => cases event <;> cases taken
  · intro takes
    cases takes with
    | again listening => simp [loopStep, listening]
    | leave stopped => simp [loopStep, stopped]
    | nothing => rfl
    | received nonempty => simp [loopStep, nonempty]
    | receiveThrew => rfl
    | dispatched returned => simp [loopStep, returned]
    | dispatchThrew threw => simp [loopStep, threw]
    | ended => rfl

/-- The handler calls a buffer is entitled to: the exclusive handler if there is one
and the normal handler otherwise, and the sniffer in any case. -/
def entitled (c : IConnector H) (recvBuffer : Bytes) : List (Delivery H) :=
  (match c.exclusiveResponseHandler, c.normalResponseHandler with
    | some handler, _ => [⟨.exclusive, handler, recvBuffer⟩]
    | none, some handler => [⟨.normal, handler, recvBuffer⟩]
    | none, none => []) ++
  (match c.snifferResponseHandler with
    | some handler => [⟨.sniffer, handler, recvBuffer⟩]
    | none => [])

/-- With an exclusive or a normal handler, and handlers that return, a dispatch makes
exactly the calls the buffer is entitled to. -/
theorem dispatch_of_present (returned : ∀ call, returns call = true)
    (present : c.hasExclusiveAccess = true ∨ c.normalResponseHandler.isSome = true) :
    c.dispatch returns recvBuffer = (entitled c recvBuffer, true) := by
  rcases c with ⟨normal, exclusive, sniffer, listening, thread⟩
  rcases exclusive with _ | exclusive
  · rcases normal with _ | normal
    · rcases present with present | present <;> cases present
    · rcases sniffer with _ | sniffer <;>
        simp [IConnector.dispatch, IConnector.hasExclusiveAccess, ResponseHandler.call, entitled,
          returned]
  · rcases sniffer with _ | sniffer <;>
      simp [IConnector.dispatch, IConnector.hasExclusiveAccess, ResponseHandler.call, entitled,
        returned]

theorem present_of_normal {h : H} (normal : c.normalResponseHandler = some h) :
    c.hasExclusiveAccess = true ∨ c.normalResponseHandler.isSome = true := by
  apply Or.inr
  rw [normal, Option.isSome_some]

/-- Without an exclusive handler the normal one is called first. -/
theorem entitled_of_normal {h : H} (normal : c.normalResponseHandler = some h)
    (free : c.exclusiveResponseHandler = none) (recvBuffer : Bytes) :
    ∃ sniffed, entitled c recvBuffer = ⟨.normal, h, recvBuffer⟩ :: sniffed := by
  rw [entitled, normal, free]
  exact ⟨_, rfl⟩

/-- With neither, it calls an empty `std::function`: no handler is called, not even
the sniffer, and the exception leaves the loop. -/
theorem dispatch_of_absent (free : c.hasExclusiveAccess = false)
    (absent : c.normalResponseHandler.isSome = false) :
    c.dispatch returns recvBuffer = ([], false) := by
  have normal : c.normalResponseHandler = none :=
    Option.not_isSome_iff_eq_none.mp (Bool.eq_false_iff.mp absent)
  simp [IConnector.dispatch, free, normal, ResponseHandler.call]

/-! ## A run of the loop -/

theorem listeningLoop_cons_of_stopped (stopped : c.listening = false) (received : Option Bytes)
    (rest : List (Option Bytes)) :
    listeningLoop returns c (received :: rest) = (c, []) := by
  simp only [listeningLoop, stopped, Bool.false_eq_true, if_false]

theorem listeningLoop_cons_none (listening : c.listening = true) (rest : List (Option Bytes)) :
    listeningLoop returns c (none :: rest) = ({ c with listening := false }, []) := by
  simp only [listeningLoop, listening, if_true]

theorem listeningLoop_cons_nil (listening : c.listening = true) (rest : List (Option Bytes)) :
    listeningLoop returns c (some [] :: rest) = listeningLoop returns c rest := by
  simp only [listeningLoop, listening, List.isEmpty_nil, if_true]

theorem listeningLoop_cons_of_returned (listening : c.listening = true)
    (nonempty : recvBuffer ≠ []) (returned : (c.dispatch returns recvBuffer).2 = true)
    (rest : List (Option Bytes)) :
    listeningLoop returns c (some recvBuffer :: rest) =
      ((listeningLoop returns c rest).1,
        (c.dispatch returns recvBuffer).1 ++ (listeningLoop returns c rest).2) := by
  simp only [listeningLoop, listening, List.isEmpty_eq_false_iff.mpr nonempty, returned, if_true,
    Bool.false_eq_true, if_false]

theorem listeningLoop_cons_of_threw (listening : c.listening = true)
    (nonempty : recvBuffer ≠ []) (threw : (c.dispatch returns recvBuffer).2 = false)
    (rest : List (Option Bytes)) :
    listeningLoop returns c (some recvBuffer :: rest) =
      ({ c with listening := false }, (c.dispatch returns recvBuffer).1) := by
  simp only [listeningLoop, listening, List.isEmpty_eq_false_iff.mpr nonempty, threw, if_true,
    Bool.false_eq_true, if_false]

/-- With an exclusive or a normal handler, and handlers that return, each buffer of a
run is delivered as it is entitled to be, and the loop goes on with what follows. -/
theorem listeningLoop_append_buffers (returned : ∀ call, returns call = true)
    (present : c.hasExclusiveAccess = true ∨ c.normalResponseHandler.isSome = true)
    (listening : c.listening = true) (buffers : List Bytes) (rest : List (Option Bytes)) :
    listeningLoop returns c (buffers.map some ++ rest) =
      ((listeningLoop returns c rest).1,
        (buffers.filter (· ≠ [])).flatMap (entitled c) ++ (listeningLoop returns c rest).2) := by
  induction buffers with
  | nil => simp
  | cons recvBuffer buffers ih =>
    rw [List.map_cons, List.cons_append]
    by_cases nonempty : recvBuffer = []
    · rw [nonempty, listeningLoop_cons_nil listening, ih, List.filter_cons_of_neg (by simp)]
    · have result : c.dispatch returns recvBuffer = (entitled c recvBuffer, true) :=
        dispatch_of_present returned present
      rw [listeningLoop_cons_of_returned listening nonempty (by rw [result]), result, ih,
        List.filter_cons_of_pos (by simpa using nonempty), List.flatMap_cons, List.append_assoc]

/-- The loop is listening at the end of such a run exactly if `receive()` never threw. -/
theorem listeningLoop_listening_iff (returned : ∀ call, returns call = true)
    (present : c.hasExclusiveAccess = true ∨ c.normalResponseHandler.isSome = true)
    (listening : c.listening = true) (results : List (Option Bytes)) :
    (listeningLoop returns c results).1.listening = true ↔ none ∉ results := by
  induction results with
  | nil => simp [listeningLoop, listening]
  | cons received rest ih =>
    rcases received with _ | recvBuffer
    · rw [listeningLoop_cons_none listening]
      simp
    · have run := listeningLoop_append_buffers returned present listening [recvBuffer] rest
      rw [List.map_singleton, List.singleton_append] at run
      rw [run, ih]
      simp

end Loop

end Iqrf.Connector
