import Iqrf.Connector.IConnector

/-!
# The listening loop among its clients

A listening thread runs while clients register and unregister; its pieces and
their calls interleave in any order. `Listener.step` is that system, and
`listeningLoop_run` says that the uninterrupted run `listeningLoop` is one of its
runs. The history variable `Dispatches` keeps the buffers received and, for each
dispatch, the connector it saw, so that `DeliversEntitled` can say that the
handler calls are those the buffers were entitled to, in the order received.
-/

namespace Iqrf.Connector

open Runs

variable {H : Type*}

/-- The connector, its listening thread and the handler calls made so far. -/
structure Listener (H : Type*) where
  connector : IConnector H
  loop : LoopPc := .checking
  delivered : List (Delivery H) := []

/-- A call by some client, or a piece of the listening thread. -/
inductive ListenerAction (H : Type*)
  | registerResponseHandler (handler : ResponseHandler H) (access : AccessType)
  | unregisterResponseHandler (token : AccessToken)
  | loop (event : LoopEvent H)

namespace Listener

def step (s : Listener H) : ListenerAction H → Option (Listener H)
  | .registerResponseHandler handler access =>
    some { s with connector := (s.connector.registerResponseHandler handler access).1 }
  | .unregisterResponseHandler token =>
    some { s with connector := s.connector.unregisterResponseHandler token }
  | .loop event =>
    (loopStep s.connector s.loop event).map fun after =>
      ⟨after.1, after.2.1, s.delivered ++ after.2.2⟩

theorem step_loop_of_takes {c c' : IConnector H} {pc pc' : LoopPc} {event : LoopEvent H}
    {calls : List (Delivery H)} (delivered : List (Delivery H))
    (takes : LoopTakes c pc event c' pc' calls) :
    step ⟨c, pc, delivered⟩ (.loop event) = some ⟨c', pc', delivered ++ calls⟩ := by
  rw [step, loopStep_eq_some_iff.mpr takes, Option.map_some]

/-! ## The uninterrupted run -/

/-- What the pieces of a thread were given by `receive()`. -/
def receiveResult : LoopEvent H → Option (Option Bytes)
  | .receive result => some result
  | _ => none

/-- `listeningLoop` is a run of the thread alone: it leaves the same connector, makes
the same handler calls, and reads its results of `receive()` in their order. -/
theorem listeningLoop_run (returns : Delivery H → Bool) (c : IConnector H)
    (delivered : List (Delivery H)) (results : List (Option Bytes)) :
    ∃ (events : List (LoopEvent H)) (pc : LoopPc),
      run step ⟨c, .checking, delivered⟩ (events.map .loop) =
        some ⟨(listeningLoop returns c results).1, pc,
          delivered ++ (listeningLoop returns c results).2⟩ ∧
      events.filterMap receiveResult <+: results := by
  induction results generalizing delivered with
  | nil => exact ⟨[], .checking, by simp [listeningLoop], List.nil_prefix⟩
  | cons received rest ih =>
    cases listening : c.listening with
    | false =>
      rw [listeningLoop_cons_of_stopped listening]
      exact ⟨[], .checking, by simp, List.nil_prefix⟩
    | true =>
      have again := fun delivered : List (Delivery H) =>
        step_loop_of_takes delivered (LoopTakes.again listening)
      rcases received with _ | recvBuffer
      · -- `receive()` throws: the catch block clears the flag
        rw [listeningLoop_cons_none listening]
        refine ⟨[.check, .receive none, .catchAll], .finished, ?_, ⟨rest, rfl⟩⟩
        simp only [List.map_cons, List.map_nil, run_cons_of_step (again _),
          run_cons_of_step (step_loop_of_takes _ LoopTakes.receiveThrew),
          run_cons_of_step (step_loop_of_takes _ LoopTakes.ended), run_nil, List.append_nil]
      · by_cases nonempty : recvBuffer = []
        · subst nonempty
          obtain ⟨events, pc, reached, reads⟩ := ih delivered
          refine ⟨.check :: .receive (some []) :: events, pc, ?_, ?_⟩
          · rw [listeningLoop_cons_nil listening, List.map_cons, List.map_cons,
              run_cons_of_step (again _), List.append_nil,
              run_cons_of_step (step_loop_of_takes _ LoopTakes.nothing), List.append_nil, reached]
          · exact List.cons_prefix_cons.mpr ⟨rfl, reads⟩
        · have received := fun delivered : List (Delivery H) =>
            step_loop_of_takes delivered (LoopTakes.received (c := c) nonempty)
          cases returned : (c.dispatch returns recvBuffer).2 with
          | true =>
            obtain ⟨events, pc, reached, reads⟩ :=
              ih (delivered ++ (c.dispatch returns recvBuffer).1)
            refine ⟨.check :: .receive (some recvBuffer) :: .dispatch returns :: events, pc, ?_, ?_⟩
            · rw [listeningLoop_cons_of_returned listening nonempty returned, List.map_cons,
                List.map_cons, List.map_cons, run_cons_of_step (again _), List.append_nil,
                run_cons_of_step (received _), List.append_nil,
                run_cons_of_step (step_loop_of_takes _ (.dispatched returned)), reached,
                List.append_assoc]
            · exact List.cons_prefix_cons.mpr ⟨rfl, reads⟩
          | false =>
            rw [listeningLoop_cons_of_threw listening nonempty returned]
            refine ⟨[.check, .receive (some recvBuffer), .dispatch returns, .catchAll], .finished,
              ?_, ⟨rest, rfl⟩⟩
            simp only [List.map_cons, List.map_nil, run_cons_of_step (again _), List.append_nil,
              run_cons_of_step (received _),
              run_cons_of_step (step_loop_of_takes _ (.dispatchThrew returned)),
              run_cons_of_step (step_loop_of_takes _ LoopTakes.ended), run_nil]

/-! ## Delivery to those entitled -/

/-- The non-empty buffers received, and each dispatch with the connector it saw. -/
structure Dispatches (H : Type*) where
  received : List Bytes := []
  dispatched : List (IConnector H × Bytes) := []

def updateDispatches (s : Listener H) (action : ListenerAction H) (_ : Listener H)
    (d : Dispatches H) : Dispatches H :=
  match action, s.loop with
  | .loop (.receive (some (b :: rest))), _ => { d with received := d.received ++ [b :: rest] }
  | .loop (.dispatch _), .dispatching recvBuffer =>
    { d with dispatched := d.dispatched ++ [(s.connector, recvBuffer)] }
  | _, _ => d

/-- The system with its history. -/
abbrev historyStep : Listener H × Dispatches H → ListenerAction H →
    Option (Listener H × Dispatches H) :=
  withGhost step updateDispatches

/-- The buffer that was received and is not yet dispatched. -/
def pending : LoopPc → List Bytes
  | .dispatching recvBuffer => [recvBuffer]
  | _ => []

/-- The handler calls are those the buffers were entitled to when they were
dispatched, every buffer received was dispatched in turn or is about to be, and
the loop is still listening. -/
structure DeliversEntitled (s : Listener H × Dispatches H) : Prop where
  delivered : s.1.delivered = s.2.dispatched.flatMap fun d => entitled d.1 d.2
  inOrder : s.2.received = s.2.dispatched.map Prod.snd ++ pending s.1.loop
  listening : s.1.connector.listening = true
  running : s.1.loop ≠ .caught ∧ s.1.loop ≠ .finished

/-- `receive()` does not throw and the handlers return. -/
def Benign : ListenerAction H → Prop
  | .loop (.receive result) => result ≠ none
  | .loop (.dispatch returns) => ∀ call, returns call = true
  | _ => True

/-- A buffer is dispatched only while an exclusive or a normal handler is registered. -/
def HandlerPresent (s : Listener H × Dispatches H) (action : ListenerAction H) : Prop :=
  ∀ returns, action = .loop (.dispatch returns) →
    s.1.connector.hasExclusiveAccess = true ∨ s.1.connector.normalResponseHandler.isSome = true

variable {s s' : Listener H} {d : Dispatches H} {action : ListenerAction H}

/-- A step that neither receives nor dispatches keeps delivery as it is. -/
theorem DeliversEntitled.frame (inv : DeliversEntitled (s, d)) {loop : LoopPc}
    {connector : IConnector H} (listening : connector.listening = s.connector.listening)
    (same : pending loop = pending s.loop) (running : loop ≠ .caught ∧ loop ≠ .finished) :
    DeliversEntitled (⟨connector, loop, s.delivered⟩, d) :=
  ⟨inv.delivered, by rw [inv.inOrder]; exact congrArg _ same.symm,
    listening.trans inv.listening, running⟩

/-- A dispatch delivers what the buffer is entitled to and goes on exactly if there is
an exclusive or a normal handler. -/
theorem DeliversEntitled.dispatch_iff {recvBuffer : Bytes} {returns : Delivery H → Bool}
    {loop : LoopPc} (inv : DeliversEntitled (s, d)) (at_ : s.loop = .dispatching recvBuffer)
    (benign : ∀ call, returns call = true) (next : loop = .checking ∨ loop = .caught)
    (result : (s.connector.dispatch returns recvBuffer).2 = decide (loop = .checking)) :
    (s.connector.hasExclusiveAccess = true ∨ s.connector.normalResponseHandler.isSome = true) ↔
      DeliversEntitled
        (⟨s.connector, loop, s.delivered ++ (s.connector.dispatch returns recvBuffer).1⟩,
          { d with dispatched := d.dispatched ++ [(s.connector, recvBuffer)] }) := by
  apply Iff.intro
  · intro present
    have calls : s.connector.dispatch returns recvBuffer =
        (entitled s.connector recvBuffer, true) := dispatch_of_present benign present
    rw [calls] at result ⊢
    have same : loop = .checking := of_decide_eq_true result.symm
    subst same
    refine ⟨?_, ?_, inv.listening, by simp⟩
    · dsimp only
      rw [List.flatMap_append, ← inv.delivered, List.flatMap_singleton]
    · have order := inv.inOrder
      dsimp only at order ⊢
      rw [order, at_]
      simp [pending]
  · intro delivers
    by_contra absent
    obtain ⟨free, none_⟩ := not_or.mp absent
    rw [dispatch_of_absent (Bool.eq_false_iff.mpr free) (Bool.eq_false_iff.mpr none_)] at result
    have threw : ¬ loop = .checking := of_decide_eq_false result.symm
    exact delivers.running.1 (next.resolve_left threw)

/-- One step that is benign, in a state that delivers as entitled. -/
theorem handlerPresent_iff {s s' : Listener H × Dispatches H} (benign : Benign action)
    (inv : DeliversEntitled s) (taken : historyStep s action = some s') :
    HandlerPresent s action ↔ DeliversEntitled s' := by
  rcases s with ⟨⟨c, pc, delivered⟩, d⟩
  rcases s' with ⟨s', d'⟩
  obtain ⟨step_, ghost⟩ := withGhost_eq_some taken
  dsimp only at step_ ghost
  subst ghost
  have settled : ∀ {s' : Listener H × Dispatches H},
      (∀ returns, action ≠ .loop (.dispatch returns)) → DeliversEntitled s' →
      (HandlerPresent (⟨c, pc, delivered⟩, d) action ↔ DeliversEntitled s') := fun other inv' =>
    ⟨fun _ => inv', fun _ returns eq => absurd eq (other returns)⟩
  cases action with
  | registerResponseHandler handler access =>
    cases step_
    have listening := (c.registerResponseHandler_loop handler access).1
    exact settled nofun (inv.frame listening rfl inv.running)
  | unregisterResponseHandler token =>
    cases step_
    exact settled nofun (inv.frame (c.unregisterResponseHandler_loop token).1 rfl inv.running)
  | loop event =>
    obtain ⟨⟨c', pc', calls⟩, taken', same⟩ := Option.map_eq_some_iff.mp step_
    subst same
    cases loopStep_eq_some_iff.mp taken' with
    | again listening =>
      rw [List.append_nil]
      exact settled nofun (inv.frame rfl rfl (by simp))
    | leave stopped =>
      have listening := inv.listening
      dsimp only at listening
      rw [stopped] at listening
      cases listening
    | nothing =>
      rw [List.append_nil]
      exact settled nofun (inv.frame rfl rfl (by simp))
    | @received recvBuffer nonempty =>
      obtain ⟨b, rest, same⟩ := List.exists_cons_of_ne_nil nonempty
      subst same
      refine settled nofun ⟨?_, ?_, inv.listening, by simp⟩
      · rw [List.append_nil]
        exact inv.delivered
      · have order := inv.inOrder
        simp only [pending, List.append_nil] at order
        simp only [updateDispatches, pending, order]
    | receiveThrew => exact absurd rfl benign
    | @dispatched recvBuffer returns returned =>
      have delivers := inv.dispatch_iff rfl benign (Or.inl rfl) returned
      exact ⟨fun present => delivers.mp (present returns rfl), fun h _ eq => delivers.mpr h⟩
    | @dispatchThrew recvBuffer returns threw =>
      have delivers := inv.dispatch_iff rfl benign (Or.inr rfl) threw
      exact ⟨fun present => delivers.mp (present returns rfl), fun h _ eq => delivers.mpr h⟩
    | ended => exact absurd rfl inv.running.1

/-- The loop as `listen()` starts it, before anything was received. -/
theorem deliversEntitled_init {c : IConnector H} (listening : c.listening = true) :
    DeliversEntitled (⟨c, .checking, []⟩, {}) :=
  ⟨rfl, rfl, listening, by simp⟩

/-- Over every interleaving of the clients' calls with the loop's iterations, each
received buffer reaches exactly the handlers entitled to it, in the order received,
and the loop goes on listening, exactly if each buffer is dispatched while an
exclusive or a normal handler is registered: the call of the normal handler, unlike
that of the sniffer, is not guarded. -/
theorem deliversEntitled_iff (c : IConnector H) (actions : List (ListenerAction H))
    (listening : c.listening = true) (benign : ∀ action ∈ actions, Benign action) :
    Always historyStep (fun _ _ s' => DeliversEntitled s') (⟨c, .checking, []⟩, {}) actions ↔
      Always historyStep (fun s action _ => HandlerPresent s action)
        (⟨c, .checking, []⟩, {}) actions :=
  always_iff_of_invariant_on
    (fun _ _ _ benign inv taken => (handlerPresent_iff benign inv taken).symm)
    (fun _ _ _ _ _ _ delivers => delivers) (deliversEntitled_init listening) benign

/-- A registration while the thread waits in `receive()`, one delivery, and back. -/
def servedRun : List (ListenerAction Nat) :=
  [.loop .check, .registerResponseHandler (some 1) .normal, .loop (.receive (some [1])),
    .loop (.dispatch fun _ => true), .loop .check]

theorem benign_servedRun : ∀ action ∈ servedRun, Benign action := by
  simp [servedRun, Benign]

theorem deliversEntitled_served :
    Always historyStep (fun _ _ s' => DeliversEntitled s')
        (⟨{ listening := true }, .checking, []⟩, {}) servedRun ↔
      Always historyStep (fun s action _ => HandlerPresent s action)
        (⟨{ listening := true }, .checking, []⟩, {}) servedRun :=
  deliversEntitled_iff { listening := true } servedRun rfl benign_servedRun

/-- With a sniffer alone, the first message ends the loop and the sniffer misses it. -/
theorem not_deliversEntitled :
    ¬ ∀ actions : List (ListenerAction Nat), (∀ action ∈ actions, Benign action) →
      Always historyStep (fun _ _ s' => DeliversEntitled s')
        (⟨{ snifferResponseHandler := some 7, listening := true }, .checking, []⟩, {})
        actions := by
  intro delivers
  have always := delivers
    [.loop .check, .loop (.receive (some [1])), .loop (.dispatch fun _ => true)]
    (by simp [Benign])
  have missed := (((always _ rfl).2 _ rfl).2 _ rfl).1
  exact absurd missed.delivered (by decide)

end Listener

end Iqrf.Connector
