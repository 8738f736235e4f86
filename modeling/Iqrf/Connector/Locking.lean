import Iqrf.Connector.Sniffing
import Iqrf.Lib.RecursiveLock

/-!
# The guard of the connector

The guarded member functions of `IConnector.h`, piece by piece: each one takes the
recursive mutex, some take it again in `hasExclusiveAccess`, and the dispatch of the
listening loop calls handlers while it holds it. A handler is code of a client and may
call the connector back; `Script` is what it does. Each dispatch has scripts of its own,
so a handler may go by what it did before and by what others did meanwhile: what it has
found out elsewhere is in the script, and only its calls of the connector are ordered.

Any number of threads call these functions, and their pieces interleave as the mutex
allows. `guarded_refines_atomic` says that nobody can tell such a run from one in which
each call is a single step, which is how the other modules model them; the transport is
written to piece by piece, so `wire_unmixed` is about what two calls of `send` put there.
`send` is the one with a token. The connectors' own public `send` takes neither a token
nor the mutex, and no thread here calls it.
-/

namespace Iqrf.Connector

open Runs RecursiveLock

variable {H : Type*}

/-- What the transport's own `send` does with a message: the pieces it writes, one after
the other, and whether it returns or throws in the end. One that blocks for ever is none. -/
structure Transfer where
  pieces : List Bytes
  returned : Bool
  deriving DecidableEq

/-- What the guard protects: the slots, and the transport with what was written to it.
Two histories go with it: the transfers that reached the transport, each with the token
it was sent with, and the handler calls. -/
structure Port (H : Type*) where
  connector : IConnector H := {}
  written : List (AccessToken × Bytes) := []
  transfers : List (AccessToken × Transfer) := []
  delivered : List (Delivery H) := []

/-- A call of a guarded member function. -/
inductive Request (H : Type*)
  | hasExclusiveAccess
  | registerResponseHandler (responseHandler : ResponseHandler H) (access : AccessType)
  | send (data : Bytes) (token : AccessToken) (transfer : Transfer)
  | unregisterResponseHandler (token : AccessToken)

/-- What a guarded member function returns or throws; a `send` that reached the
transport, whether that returned. -/
inductive Response
  | hasExclusiveAccess (active : Bool)
  | registerResponseHandler (result : Except RuntimeError AccessToken)
  | send (result : Except RuntimeError Bool)
  | unregisterResponseHandler
  | dispatched (returned : Bool)

/-- What a handler does: it calls the connector back, as it likes, and returns or throws. -/
inductive Script (H : Type*)
  | ends (returned : Bool)
  | calls (request : Request H) (next : Response → Script H)

/-! ## The functions piece by piece -/

namespace Port

/-- A write to a field of the connector. -/
def assign (change : IConnector H → IConnector H) (p : Port H) : Port H :=
  { p with connector := change p.connector }

def hasExclusiveAccess : Program (Port H) Bool :=
  Program.guarded (.access id fun p => .done p.connector.hasExclusiveAccess)

def write (token : AccessToken) (returned : Bool) : List Bytes → Program (Port H) Bool
  | [] => .done returned
  | piece :: pieces =>
    .access (fun p => { p with written := p.written ++ [(token, piece)] }) fun _ =>
      write token returned pieces

/-- The transport's `send`. That it begins goes into the history. -/
def transmit (token : AccessToken) (transfer : Transfer) :
    Program (Port H) (Except RuntimeError Bool) :=
  .access (fun p => { p with transfers := p.transfers ++ [(token, transfer)] }) fun _ =>
    (write token transfer.returned transfer.pieces).bind fun returned => .done (.ok returned)

def send (token : AccessToken) (transfer : Transfer) :
    Program (Port H) (Except RuntimeError Bool) :=
  match token.accessType with
  | .normal =>
    hasExclusiveAccess.bind fun active =>
      if active then .done (.error .exclusiveAccessIsActive) else transmit token transfer
  | .exclusive => transmit token transfer
  | .sniffer => .done (.error .snifferTokenDoesNotAllowSending)

def registerResponseHandler (responseHandler : ResponseHandler H) (access : AccessType) :
    Program (Port H) (Except RuntimeError AccessToken) :=
  match access with
  | .normal =>
    .access (assign fun c => { c with normalResponseHandler := responseHandler }) fun _ =>
      .done (.ok ⟨access⟩)
  | .exclusive =>
    hasExclusiveAccess.bind fun active =>
      if active then .done (.error .exclusiveAccessAlreadyAssigned)
      else
        .access (assign fun c => { c with exclusiveResponseHandler := responseHandler }) fun _ =>
          .done (.ok ⟨access⟩)
  | .sniffer =>
    .access (assign fun c => { c with snifferResponseHandler := responseHandler }) fun _ =>
      .done (.ok ⟨access⟩)

def unregisterResponseHandler (token : AccessToken) : Program (Port H) Unit :=
  .access (assign fun c => c.unregisterResponseHandler token) fun _ => .done ()

end Port

/-- The part of a guarded member function that its `lock_guard` covers. -/
def Request.body : Request H → Program (Port H) Response
  | .hasExclusiveAccess =>
    .access id fun p => .done (.hasExclusiveAccess p.connector.hasExclusiveAccess)
  | .registerResponseHandler responseHandler access =>
    (Port.registerResponseHandler responseHandler access).bind fun result =>
      .done (.registerResponseHandler result)
  | .send _ token transfer => (Port.send token transfer).bind fun result => .done (.send result)
  | .unregisterResponseHandler token =>
    (Port.unregisterResponseHandler token).bind fun _ => .done .unregisterResponseHandler

/-- A handler calls the same functions as everyone, which take the mutex again. -/
def Script.program : Script H → Program (Port H) Bool
  | .ends returned => .done returned
  | .calls request next => request.body.guarded.bind fun response => (next response).program

/-- A call of the loop through a slot. An empty `std::function` throws. -/
def Port.callSlot (handlers : Delivery H → Script H) (access : AccessType) (recvBuffer : Bytes) :
    Program (Port H) Bool :=
  .access
    (fun p => { p with
      delivered := p.delivered ++
        (p.connector.slot access).toList.map fun handler => ⟨access, handler, recvBuffer⟩ })
    fun p =>
      match p.connector.slot access with
      | none => .done false
      | some handler => (handlers ⟨access, handler, recvBuffer⟩).program

/-- The part of the loop body under the lock. -/
def Port.dispatch (handlers : Delivery H → Script H) (recvBuffer : Bytes) :
    Program (Port H) Bool :=
  hasExclusiveAccess.bind fun active =>
    (callSlot handlers (if active then .exclusive else .normal) recvBuffer).bind fun returned =>
      if returned then
        .access id fun p =>
          if p.connector.snifferResponseHandler.isSome then callSlot handlers .sniffer recvBuffer
          else .done true
      else .done false

/-- What a thread can do with the connector under its guard. A dispatch comes with what the
handlers do in it. -/
inductive Operation (H : Type*)
  | request (asked : Request H)
  | dispatch (handlers : Delivery H → Script H) (recvBuffer : Bytes)

def Operation.body : Operation H → Program (Port H) Response
  | .request asked => asked.body
  | .dispatch handlers recvBuffer =>
    (Port.dispatch handlers recvBuffer).bind fun returned => .done (.dispatched returned)

/-! ## The functions at once -/

/-- The transfer of a `send` as one step. -/
def Port.transmitted (p : Port H) (token : AccessToken) (transfer : Transfer) : Port H :=
  { p with
    written := p.written ++ transfer.pieces.map fun piece => (token, piece)
    transfers := p.transfers ++ [(token, transfer)] }

/-- A guarded member function as one step: the functions of `IConnector`. -/
def Request.effect (p : Port H) : Request H → Port H × Response
  | .hasExclusiveAccess => (p, .hasExclusiveAccess p.connector.hasExclusiveAccess)
  | .registerResponseHandler responseHandler access =>
    let result := p.connector.registerResponseHandler responseHandler access
    ({ p with connector := result.1 }, .registerResponseHandler result.2)
  | .send data token transfer =>
    match p.connector.send data token with
    | .ok _ => (p.transmitted token transfer, .send (.ok transfer.returned))
    | .error e => (p, .send (.error e))
  | .unregisterResponseHandler token =>
    ({ p with connector := p.connector.unregisterResponseHandler token },
      .unregisterResponseHandler)

def Script.effect (p : Port H) : Script H → Port H × Bool
  | .ends returned => (p, returned)
  | .calls request next =>
    let result := request.effect p
    (next result.2).effect result.1

/-- A call through a slot as one step. -/
def Port.slotCalled (handlers : Delivery H → Script H) (access : AccessType) (recvBuffer : Bytes)
    (p : Port H) : Port H × Bool :=
  match p.connector.slot access with
  | none => (p, false)
  | some handler =>
    (handlers ⟨access, handler, recvBuffer⟩).effect
      { p with delivered := p.delivered ++ [⟨access, handler, recvBuffer⟩] }

/-- A dispatch as one step: the handler served, with all it calls back, and then the
sniffer that is registered by then. -/
def Port.dispatched (handlers : Delivery H → Script H) (recvBuffer : Bytes) (p : Port H) :
    Port H × Bool :=
  let first := p.slotCalled handlers p.connector.served recvBuffer
  if first.2 then
    if first.1.connector.snifferResponseHandler.isSome then
      first.1.slotCalled handlers .sniffer recvBuffer
    else first
  else first

def Operation.effect (operation : Operation H) (p : Port H) : Port H × Response :=
  match operation with
  | .request asked => asked.effect p
  | .dispatch handlers recvBuffer =>
    ((p.dispatched handlers recvBuffer).1, .dispatched (p.dispatched handlers recvBuffer).2)

/-! ## Run alone, the pieces are the step -/

section Eval

variable (p : Port H) (handlers : Delivery H → Script H)

namespace Port

@[simp] theorem eval_hasExclusiveAccess :
    hasExclusiveAccess.eval p = (p, p.connector.hasExclusiveAccess) := by
  rw [hasExclusiveAccess, Program.eval_guarded]
  rfl

theorem eval_write (token : AccessToken) (returned : Bool) (pieces : List Bytes) :
    (write token returned pieces).eval p =
      ({ p with written := p.written ++ pieces.map fun piece => (token, piece) }, returned) := by
  induction pieces generalizing p with
  | nil => rw [List.map_nil, List.append_nil]; rfl
  | cons piece pieces ih =>
    rw [write, Program.eval, ih, List.map_cons, List.append_assoc, List.singleton_append]

theorem eval_transmit (token : AccessToken) (transfer : Transfer) :
    (transmit token transfer).eval p = (p.transmitted token transfer, .ok transfer.returned) := by
  rw [transmit, Program.eval, Program.eval_bind, eval_write]
  rfl

end Port

theorem Request.eval_body (request : Request H) : request.body.eval p = request.effect p := by
  cases request with
  | hasExclusiveAccess => rfl
  | registerResponseHandler responseHandler access =>
    rw [body, Program.eval_bind, effect]
    cases access with
    | normal => rfl
    | exclusive =>
      unfold Port.registerResponseHandler IConnector.registerResponseHandler
      rw [Program.eval_bind, Port.eval_hasExclusiveAccess]
      dsimp only
      split <;> rfl
    | sniffer => rfl
  | send data token transfer =>
    rcases token with ⟨access⟩
    rw [body, Program.eval_bind, Port.send, effect, IConnector.send]
    cases access with
    | normal =>
      rw [Program.eval_bind, Port.eval_hasExclusiveAccess]
      dsimp only
      split
      · rfl
      · rw [Port.eval_transmit]
        rfl
    | exclusive =>
      rw [Port.eval_transmit]
      rfl
    | sniffer => rfl
  | unregisterResponseHandler token => rfl

theorem Script.eval_program (script : Script H) : script.program.eval p = script.effect p := by
  induction script generalizing p with
  | ends returned => rfl
  | calls request next ih =>
    rw [program, Program.eval_bind, Program.eval_guarded, Request.eval_body, ih, effect]

theorem Port.eval_callSlot (access : AccessType) (recvBuffer : Bytes) :
    (callSlot handlers access recvBuffer).eval p = p.slotCalled handlers access recvBuffer := by
  rw [callSlot, Program.eval, slotCalled]
  rcases p.connector.slot access with _ | handler
  · dsimp only [Option.toList]
    rw [List.map_nil, List.append_nil]
    rfl
  · exact Script.eval_program _ _

theorem Port.eval_dispatch (recvBuffer : Bytes) :
    (dispatch handlers recvBuffer).eval p = p.dispatched handlers recvBuffer := by
  rw [dispatch, Program.eval_bind, eval_hasExclusiveAccess, Program.eval_bind, eval_callSlot,
    dispatched, IConnector.served]
  dsimp only
  rcases slotCalled handlers (if p.connector.hasExclusiveAccess then .exclusive else .normal)
    recvBuffer p with ⟨q, _ | _⟩
  · rfl
  · cases sniffed : q.connector.snifferResponseHandler.isSome with
    | true => simp only [if_true, Program.eval, id, sniffed, eval_callSlot]
    | false => simp only [if_true, Program.eval, id, sniffed, Bool.false_eq_true, if_false]

theorem Operation.eval_body (operation : Operation H) :
    operation.body.eval p = operation.effect p := by
  cases operation with
  | request asked => exact asked.eval_body p
  | dispatch handlers recvBuffer =>
    rw [body, Program.eval_bind, Port.eval_dispatch]
    rfl

/-- With handlers that do not call back, a dispatch makes the calls of `IConnector.dispatch`
and changes nothing else. -/
theorem Port.dispatched_of_ends {returns : Delivery H → Bool}
    (ends : ∀ delivery, handlers delivery = .ends (returns delivery)) (recvBuffer : Bytes) :
    p.dispatched handlers recvBuffer =
      ({ p with delivered := p.delivered ++ (p.connector.dispatch returns recvBuffer).1 },
        (p.connector.dispatch returns recvBuffer).2) := by
  have called : ∀ (access : AccessType) (q : Port H), q.slotCalled handlers access recvBuffer =
      match q.connector.slot access with
      | none => (q, false)
      | some handler => ({ q with delivered := q.delivered ++ [⟨access, handler, recvBuffer⟩] },
          returns ⟨access, handler, recvBuffer⟩) := by
    intro access q
    rw [slotCalled]
    cases q.connector.slot access with
    | none => rfl
    | some handler =>
      dsimp only
      rw [ends]
      rfl
  rw [dispatched, called]
  rcases first : p.connector.slot p.connector.served with _ | handler
  · rw [Shared.dispatch_of_none first, List.append_nil]
    rfl
  · rw [Shared.dispatch_of_some first]
    by_cases returned : returns ⟨p.connector.served, handler, recvBuffer⟩ = true
    · rcases sniffed : p.connector.snifferResponseHandler with _ | sniffer
      · simp [returned]
      · have slot : p.connector.slot .sniffer = some sniffer := sniffed
        simp [returned, called, slot]
    · simp [returned]

end Eval

/-! ## Each function leaves the scopes it enters -/

theorem Port.balanced_hasExclusiveAccess :
    (hasExclusiveAccess : Program (Port H) Bool).Balanced 0 :=
  Program.Balanced.guarded (.access fun _ => .done _)

theorem Port.balanced_write (token : AccessToken) (returned : Bool) (pieces : List Bytes) :
    (write token returned pieces : Program (Port H) Bool).Balanced 0 := by
  induction pieces with
  | nil => exact .done returned
  | cons piece pieces ih => exact .access fun _ => ih

theorem Port.balanced_transmit (token : AccessToken) (transfer : Transfer) :
    (transmit token transfer : Program (Port H) _).Balanced 0 :=
  .access fun _ => (balanced_write ..).andThen fun _ => .done _

theorem Request.balanced (request : Request H) : request.body.Balanced 0 := by
  cases request with
  | hasExclusiveAccess => exact .access fun _ => .done _
  | registerResponseHandler responseHandler access =>
    refine Program.Balanced.andThen ?_ fun result => .done _
    cases access with
    | normal => exact .access fun _ => .done _
    | exclusive =>
      refine Port.balanced_hasExclusiveAccess.andThen fun active => ?_
      split
      · exact .done _
      · exact .access fun _ => .done _
    | sniffer => exact .access fun _ => .done _
  | send data token transfer =>
    rcases token with ⟨access⟩
    refine Program.Balanced.andThen ?_ fun result => .done _
    cases access with
    | normal =>
      refine Port.balanced_hasExclusiveAccess.andThen fun active => ?_
      split
      · exact .done _
      · exact Port.balanced_transmit ..
    | exclusive => exact Port.balanced_transmit ..
    | sniffer => exact .done _
  | unregisterResponseHandler token => exact .access fun _ => .done _

theorem Script.balanced (script : Script H) : script.program.Balanced 0 := by
  induction script with
  | ends returned => exact .done returned
  | calls request next ih => exact request.balanced.guarded.andThen ih

theorem Port.balanced_callSlot (handlers : Delivery H → Script H) (access : AccessType)
    (recvBuffer : Bytes) : (callSlot handlers access recvBuffer).Balanced 0 := by
  refine .access fun p => ?_
  split
  · exact .done false
  · exact Script.balanced _

theorem Operation.balanced (operation : Operation H) : operation.body.Balanced 0 := by
  cases operation with
  | request asked => exact asked.balanced
  | dispatch handlers recvBuffer =>
    refine Program.Balanced.andThen ?_ fun returned => .done _
    refine Port.balanced_hasExclusiveAccess.andThen fun active => ?_
    refine (Port.balanced_callSlot ..).andThen fun returned => ?_
    split
    · refine .access fun p => ?_
      split
      · exact Port.balanced_callSlot ..
      · exact .done true
    · exact .done false

/-- The operations under the guard. -/
def Operation.guarded (operation : Operation H) : Guarded (Port H) Response :=
  ⟨operation.body, operation.balanced⟩

/-! ## Any threads, in any order -/

section Threads

variable {T : Type*} [DecidableEq T] {p : Port H} {actions : List (Action T (Operation H))}
  {m : Machine T (Port H) Response}

/-- Whatever the order of the pieces of any number of threads, what they call, what is
returned to them and in which order is what it is when each guarded function is one step,
each dispatch with the same scripts of its handlers; so are the slots, the transport and
the handler calls, whenever no thread is inside one. -/
theorem guarded_refines_atomic
    (reached : run (Machine.step Operation.guarded) { shared := p } actions = some m) :
    ∃ atomically a,
      run (Atomic.step Operation.effect) { shared := p } atomically = some a ∧
      atomically.filterMap Action.shown = actions.filterMap Action.shown ∧
      a.returned = m.returned ∧ (m.owner = none → a.shared = m.shared) :=
  Machine.refines_atomic (fun operation p => operation.eval_body p) reached

/-- A handler that sends when it is called. -/
def answering : Delivery Unit → Script Unit :=
  fun _ => .calls (.send [1] ⟨.normal⟩ ⟨[[1]], true⟩) fun _ => .ends true

/-- A client registers while the loop is in its dispatch. -/
def registeredMeanwhile : List (Action Bool (Operation Unit)) :=
  [.call true (.dispatch answering [7]), .proceed true, .proceed true,
    .call false (.request (.registerResponseHandler (some ()) .sniffer))] ++
    List.replicate 12 (.proceed true) ++ List.replicate 3 (.proceed false) ++
    [.return_ false, .return_ true]

theorem guarded_refines_atomic_answering :
    ∃ m, run (Machine.step Operation.guarded)
        { shared := { connector := { normalResponseHandler := some () } } } registeredMeanwhile =
        some m ∧
      ∃ atomically a,
        run (Atomic.step Operation.effect)
          { shared := { connector := { normalResponseHandler := some () } } } atomically = some a ∧
        atomically.filterMap Action.shown = registeredMeanwhile.filterMap Action.shown ∧
        a.returned = m.returned ∧ (m.owner = none → a.shared = m.shared) :=
  ⟨_, rfl, guarded_refines_atomic rfl⟩

/-- No call of a guarded function is stuck for good at the mutex, not even with handlers that
call the connector back: some more pieces of the threads bring it to its return. That the
transport's own `send` and what handlers do elsewhere come to an end is taken for granted. -/
theorem guarded_returns
    (reached : run (Machine.step Operation.guarded) { shared := p } actions = some m)
    {t : T} (busy : m.running t ≠ none) :
    ∃ pieces m' response,
      run (Machine.step Operation.guarded) m (pieces ++ [.return_ t]) = some m' ∧
      (∀ action ∈ pieces, ∃ u, action = .proceed u) ∧
      m'.returned = m.returned ++ [(t, response)] :=
  Machine.exists_return reached busy

theorem guarded_returns_answering :
    ∃ m, run (Machine.step Operation.guarded)
        { shared := { connector := { normalResponseHandler := some () } } }
        (registeredMeanwhile.take 7) = some m ∧
      ∃ pieces m' response,
        run (Machine.step Operation.guarded) m (pieces ++ [.return_ false]) = some m' ∧
        (∀ action ∈ pieces, ∃ u, action = .proceed u) ∧
        m'.returned = m.returned ++ [(false, response)] := by
  have reached : run (Machine.step Operation.guarded)
      { shared := { connector := { normalResponseHandler := some () } } }
      (registeredMeanwhile.take 7) = some _ := rfl
  exact ⟨_, reached, guarded_returns reached (by simp)⟩

end Threads

/-! ## What reaches the transport -/

/-- All pieces of the transfers that reached the transport, in the order they did. -/
def Port.meant (p : Port H) : List (AccessToken × Bytes) :=
  p.transfers.flatMap fun sent => sent.2.pieces.map fun piece => (sent.1, piece)

/-- Nothing is half sent. -/
def Port.Settled (p : Port H) : Prop := p.written = p.meant

/-- A token that may send: no sniffer, and a normal one without exclusive access only. -/
def Port.Admits (p : Port H) (token : AccessToken) : Prop :=
  token.accessType ≠ .sniffer ∧
    (token.accessType = .normal → p.connector.hasExclusiveAccess = false)

/-- One piece of a thread puts nothing out of turn on the transport, and nothing with a
token that may not send. -/
structure Port.Orderly (p p' : Port H) : Prop where
  inTurn : p'.written <+: p'.meant
  admitted : ∀ token piece, p'.written = p.written ++ [(token, piece)] → p.Admits token

variable {p p' : Port H} {handlers : Delivery H → Script H}

/-- A piece that does not write is in order. -/
theorem Port.Orderly.of_same (settled : p.Settled) (written : p'.written = p.written)
    (transfers : ∃ more, p'.transfers = p.transfers ++ more) : p.Orderly p' where
  inTurn := by
    obtain ⟨more, transfers⟩ := transfers
    rw [written, settled, Port.meant, Port.meant, transfers, List.flatMap_append]
    exact List.prefix_append ..
  admitted token piece appended := by
    rw [written] at appended
    simp at appended

theorem Port.Settled.of_same (settled : p.Settled) (written : p'.written = p.written)
    (transfers : p'.transfers = p.transfers) : p'.Settled := by
  rw [Port.Settled, written, settled, Port.meant, Port.meant, transfers]

/-- From a settled port the program goes on in order, and it leaves the port settled. -/
def Port.Sound (p : Port H) {ρ : Type} (program : Program (Port H) ρ) : Prop :=
  program.Throughout Port.Orderly p ∧ (program.eval p).1.Settled

theorem Port.Sound.bind {ρ τ : Type} {program : Program (Port H) ρ} {f : ρ → Program (Port H) τ}
    (first : p.Sound program)
    (later : (program.eval p).1.Sound (f (program.eval p).2)) : p.Sound (program.bind f) := by
  refine ⟨Program.throughout_bind.mpr ⟨first.1, later.1⟩, ?_⟩
  rw [Program.eval_bind]
  exact later.2

theorem Port.sound_done {ρ : Type} (settled : p.Settled) (result : ρ) :
    p.Sound (.done result : Program (Port H) ρ) :=
  ⟨trivial, settled⟩

/-- An access that neither writes nor begins a transfer. -/
theorem Port.sound_access {ρ : Type} {change : Port H → Port H} {next : Port H → Program (Port H) ρ}
    (settled : p.Settled) (written : (change p).written = p.written)
    (transfers : (change p).transfers = p.transfers) (later : (change p).Sound (next p)) :
    p.Sound (.access change next) :=
  ⟨⟨.of_same settled written ⟨[], by rw [transfers, List.append_nil]⟩, later.1⟩, later.2⟩

theorem Port.sound_guarded {ρ : Type} {program : Program (Port H) ρ} (sound : p.Sound program) :
    p.Sound program.guarded :=
  ⟨Program.throughout_guarded.mpr sound.1, (Program.eval_guarded program p).symm ▸ sound.2⟩

theorem Port.sound_hasExclusiveAccess (settled : p.Settled) : p.Sound hasExclusiveAccess :=
  sound_guarded (sound_access settled rfl rfl (sound_done settled _))

/-- With the rest of the last transfer still to be written, the writes are in order. -/
theorem Port.throughout_write {token : AccessToken} (admits : p.Admits token) (returned : Bool)
    {pieces : List Bytes} (rest : p.written ++ pieces.map (fun piece => (token, piece)) = p.meant) :
    (write token returned pieces).Throughout Port.Orderly p := by
  induction pieces generalizing p with
  | nil => trivial
  | cons piece pieces ih =>
    rw [List.map_cons, List.append_cons] at rest
    refine ⟨⟨⟨_, rest⟩, fun token' piece' appended => ?_⟩, ih admits rest⟩
    obtain ⟨rfl, -⟩ := Prod.mk.inj (List.singleton_inj.mp (List.append_cancel_left appended))
    exact admits

theorem Port.sound_transmit {token : AccessToken} (settled : p.Settled) (admits : p.Admits token)
    (transfer : Transfer) : p.Sound (transmit token transfer) := by
  have meant : (p.transmitted token transfer).Settled := by
    rw [Settled, Port.meant, transmitted, List.flatMap_append, List.flatMap_singleton]
    exact congrArg (· ++ _) settled
  refine ⟨⟨.of_same settled rfl ⟨_, rfl⟩, ?_⟩, ?_⟩
  · refine Program.throughout_bind.mpr ⟨?_, trivial⟩
    apply throughout_write (p := { p with transfers := p.transfers ++ [(token, transfer)] }) admits
    exact meant
  · rw [eval_transmit]
    exact meant

theorem Request.sound (settled : p.Settled) (request : Request H) : p.Sound request.body := by
  cases request with
  | hasExclusiveAccess => exact Port.sound_access settled rfl rfl (Port.sound_done settled _)
  | registerResponseHandler responseHandler access =>
    have assigned : ∀ (change : IConnector H → IConnector H)
        (result : Except RuntimeError AccessToken),
        p.Sound (.access (Port.assign change) fun _ => .done result) := fun change result =>
      Port.sound_access settled rfl rfl (Port.sound_done (settled.of_same rfl rfl) result)
    have ends : ∀ {program : Program (Port H) _}, p.Sound program →
        p.Sound (program.bind fun result => .done (Response.registerResponseHandler result)) :=
      fun sound => sound.bind (Port.sound_done sound.2 _)
    refine ends ?_
    cases access with
    | normal => exact assigned ..
    | exclusive =>
      refine (Port.sound_hasExclusiveAccess settled).bind ?_
      rw [Port.eval_hasExclusiveAccess]
      dsimp only
      split
      · exact Port.sound_done settled _
      · exact assigned ..
    | sniffer => exact assigned ..
  | send data token transfer =>
    rcases token with ⟨access⟩
    have ends : ∀ {program : Program (Port H) _}, p.Sound program →
        p.Sound (program.bind fun result => .done (Response.send result)) :=
      fun sound => sound.bind (Port.sound_done sound.2 _)
    refine ends ?_
    cases access with
    | normal =>
      refine (Port.sound_hasExclusiveAccess settled).bind ?_
      rw [Port.eval_hasExclusiveAccess]
      dsimp only
      split
      · exact Port.sound_done settled _
      · exact Port.sound_transmit settled ⟨by simp, fun _ => Bool.eq_false_iff.mpr ‹_›⟩ transfer
    | exclusive => exact Port.sound_transmit settled ⟨by simp, by simp⟩ transfer
    | sniffer => exact Port.sound_done settled _
  | unregisterResponseHandler token =>
    refine Port.sound_access settled rfl rfl ?_
    exact Port.sound_done (settled.of_same rfl rfl) Response.unregisterResponseHandler

theorem Script.sound (settled : p.Settled) (script : Script H) : p.Sound script.program := by
  induction script generalizing p with
  | ends returned => exact Port.sound_done settled returned
  | calls request next ih =>
    have first := Port.sound_guarded (request.sound settled)
    exact first.bind (ih _ first.2)

theorem Port.sound_callSlot (settled : p.Settled) (access : AccessType) (recvBuffer : Bytes) :
    p.Sound (callSlot handlers access recvBuffer) := by
  refine sound_access settled rfl rfl ?_
  have settled' : Settled { p with delivered := p.delivered ++
      (p.connector.slot access).toList.map fun handler => ⟨access, handler, recvBuffer⟩ } :=
    settled.of_same rfl rfl
  split
  · exact sound_done settled' false
  · exact Script.sound settled' _

theorem Port.sound_dispatch (settled : p.Settled) (recvBuffer : Bytes) :
    p.Sound (dispatch handlers recvBuffer) := by
  refine (sound_hasExclusiveAccess settled).bind ?_
  rw [eval_hasExclusiveAccess]
  have called : p.Sound (callSlot handlers
      (if p.connector.hasExclusiveAccess then .exclusive else .normal) recvBuffer) :=
    sound_callSlot settled _ recvBuffer
  refine called.bind ?_
  obtain ⟨-, settled'⟩ := called
  revert settled'
  generalize (callSlot handlers _ recvBuffer).eval p = first
  rcases first with ⟨q, _ | _⟩
  · exact fun settled' => sound_done settled' false
  · intro settled'
    rw [if_pos rfl]
    refine sound_access settled' rfl rfl ?_
    split
    · exact sound_callSlot settled' .sniffer recvBuffer
    · exact sound_done settled' true

theorem Operation.keeps (operation : Operation H) :
    operation.guarded.Keeps Port.Settled Port.Orderly := by
  intro p settled
  cases operation with
  | request asked => exact asked.sound settled
  | dispatch handlers recvBuffer =>
    have sound : p.Sound (Port.dispatch handlers recvBuffer) :=
      Port.sound_dispatch settled recvBuffer
    exact sound.bind (Port.sound_done sound.2 _)

/-- Whatever the order of the pieces of any number of threads, the transport carries whole
transfers one after the other and then a beginning of the last one, no piece is written
with the token of a sniffer, and none with a normal token while exclusive access is
active, not even in the middle of a message. -/
theorem wire_unmixed {T : Type*} [DecidableEq T] (c : IConnector H)
    (actions : List (Action T (Operation H))) :
    Always (Machine.step Operation.guarded)
      (fun m _ m' => m.shared.Orderly m'.shared ∧ (m'.owner = none → m'.shared.Settled))
      { shared := { connector := c } } actions := by
  have sound := Operation.keeps (H := H)
  have settled : ({ connector := c } : Port H).Settled := rfl
  refine always_iff_forall_split.mpr fun pre action post m m' _ reached taken =>
    ⟨?_, fun free => ?_⟩
  · have inTurn : m.shared.written <+: m.shared.meant :=
      Machine.during (D := fun p => p.written <+: p.meant) sound settled List.prefix_rfl
        (fun _ _ orderly => orderly.inTurn) reached
    have changes := always_iff_forall_split.mp
      (Machine.always_change sound settled (pre ++ [action])) pre action [] m m' rfl reached taken
    rcases changes with same | orderly
    · rw [same]
      refine ⟨inTurn, fun token piece appended => ?_⟩
      simp at appended
    · exact orderly
  · have whole : run (Machine.step Operation.guarded) { shared := { connector := c } }
        (pre ++ [action]) = some m' := by
      rw [run_append, reached, Option.bind_some, run_cons_of_step taken, run_nil]
    exact Machine.settled_of_free sound settled whole free

end Iqrf.Connector
