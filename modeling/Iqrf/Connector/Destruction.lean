import Iqrf.Connector.Lifecycle

/-!
# Destroying a connector that listens

The destructors of both connectors call `stopListen()` before they release what
`receive()` uses, the serial port or the socket; the members of `IConnector`, the thread
object among them, go last. `Destructible.step` adds these steps to those of a
`Lifecycle`. A listening thread that were still running then would use what is gone, and
a thread object that were still joinable would call `std::terminate`: neither happens
(`destruction_safe`).

A handler that destroys the connector has its own thread joined, which throws out of a
destructor. Another thread that does waits for `receive()` and for the handlers of one
buffer, if the listening thread is in them, and for nothing else (`destruction_ends`).
`UartConnector::receive()` returns when nothing has come for 100 ms;
`TcpConnector::receive()` may be in the loop of `connect()`, which does not look at
`listening`.

The owner destroys the connector between two calls. A handler may call the destructor, but
neither `listen()` nor `stopListen()`, and what the destructor does with the GPIO lines does
not throw.
-/

namespace Iqrf.Connector

open Runs

variable {H : Type*}

/-- How far the destruction of a connector has come. -/
inductive Destruction
  /-- not begun -/
  | alive
  /-- in `stopListen()` -/
  | stopping
  /-- with the port or the socket released -/
  | released
  /-- over -/
  | destroyed
  deriving DecidableEq, Repr

/-- A piece of the lifecycle, or one of the destructor: its call by the owner or by a
handler that a listening thread runs, the release of what the connector owns and the end
of the members of `IConnector`. -/
inductive DestructibleAction (H : Type*)
  | live (action : LifecycleAction H)
  | destroy
  | destroyInHandler (thread : Nat)
  | release
  | finish

/-- A connector with the progress of its destruction, and whether a listening thread has
used what had been released. -/
structure Destructible (H : Type*) where
  lifecycle : Lifecycle H := {}
  destruction : Destruction := .alive
  misused : Bool := false

namespace Destructible

/-- Once the destructor has been called, no other function is. In a handler, the `join()`
of `stopListen()` is one of the own thread. -/
def step (s : Destructible H) (action : DestructibleAction H) : Option (Destructible H) :=
  match action, s.destruction with
  | .live action, .alive =>
    (s.lifecycle.step action).map fun lifecycle => { s with lifecycle := lifecycle }
  | .destroy, .alive =>
    (s.lifecycle.step .stopListen).map fun lifecycle =>
      { s with lifecycle := lifecycle, destruction := .stopping }
  | .destroyInHandler thread, .alive =>
    match s.lifecycle.threads[thread]? with
    | some (.dispatching _) =>
      (s.lifecycle.step .stopListen).map fun lifecycle =>
        { s with
          lifecycle := { lifecycle with
            terminated := decide (lifecycle.connector.listeningThread = some thread) },
          destruction := .stopping }
    | _ => none
  | .live action, .stopping =>
    match action with
    | .join | .loop _ _ =>
      (s.lifecycle.step action).map fun lifecycle => { s with lifecycle := lifecycle }
    | _ => none
  | .release, .stopping =>
    if s.lifecycle.control = .idle ∧ s.lifecycle.terminated = false then
      some { s with destruction := .released }
    else none
  | .finish, .released =>
    some { s with
      lifecycle := { s.lifecycle with
        terminated := s.lifecycle.connector.listeningThread.isSome },
      destruction := .destroyed }
  | .live (.loop thread event), _ =>
    (s.lifecycle.step (.loop thread event)).map fun lifecycle =>
      { s with lifecycle := lifecycle, misused := true }
  | _, _ => none

/-- The port or the socket is released. -/
def Gone (s : Destructible H) : Prop := s.destruction = .released ∨ s.destruction = .destroyed

/-- The steps, with what each one does. -/
inductive Takes (s : Destructible H) : DestructibleAction H → Destructible H → Prop
  | lives {action : LifecycleAction H} {after : Lifecycle H} (alive : s.destruction = .alive)
      (taken : s.lifecycle.step action = some after) :
    Takes s (.live action) { s with lifecycle := after }
  | called {after : Lifecycle H} (alive : s.destruction = .alive)
      (taken : s.lifecycle.step .stopListen = some after) :
    Takes s .destroy { s with lifecycle := after, destruction := .stopping }
  | calledInHandler {thread : Nat} {recvBuffer : Bytes} {after : Lifecycle H}
      (alive : s.destruction = .alive)
      (at_ : s.lifecycle.threads[thread]? = some (.dispatching recvBuffer))
      (taken : s.lifecycle.step .stopListen = some after) :
    Takes s (.destroyInHandler thread)
      { s with
        lifecycle := { after with
          terminated := decide (after.connector.listeningThread = some thread) },
        destruction := .stopping }
  | joins {after : Lifecycle H} (stopping : s.destruction = .stopping)
      (taken : s.lifecycle.step .join = some after) :
    Takes s (.live .join) { s with lifecycle := after }
  | loops {thread : Nat} {event : LoopEvent H} {after : Lifecycle H}
      (stopping : s.destruction = .stopping)
      (taken : s.lifecycle.step (.loop thread event) = some after) :
    Takes s (.live (.loop thread event)) { s with lifecycle := after }
  | releases (stopping : s.destruction = .stopping) (idle : s.lifecycle.control = .idle)
      (alive : s.lifecycle.terminated = false) :
    Takes s .release { s with destruction := .released }
  | finishes (released : s.destruction = .released) :
    Takes s .finish
      { s with
        lifecycle := { s.lifecycle with
          terminated := s.lifecycle.connector.listeningThread.isSome },
        destruction := .destroyed }
  | misuses {thread : Nat} {event : LoopEvent H} {after : Lifecycle H}
      (gone : s.Gone) (taken : s.lifecycle.step (.loop thread event) = some after) :
    Takes s (.live (.loop thread event)) { s with lifecycle := after, misused := true }

theorem takes_of_step {s s' : Destructible H} {action : DestructibleAction H}
    (taken : s.step action = some s') : Takes s action s' := by
  unfold step at taken
  split at taken
  case h_1 alive =>
    obtain ⟨after, moves, same⟩ := Option.map_eq_some_iff.mp taken
    subst same
    exact .lives alive moves
  case h_2 alive =>
    obtain ⟨after, moves, same⟩ := Option.map_eq_some_iff.mp taken
    subst same
    exact .called alive moves
  case h_3 alive =>
    split at taken
    case h_1 at_ =>
      obtain ⟨after, moves, same⟩ := Option.map_eq_some_iff.mp taken
      subst same
      exact .calledInHandler alive at_ moves
    case h_2 => cases taken
  case h_4 stopping =>
    split at taken
    · obtain ⟨after, moves, same⟩ := Option.map_eq_some_iff.mp taken
      subst same
      exact .joins stopping moves
    · obtain ⟨after, moves, same⟩ := Option.map_eq_some_iff.mp taken
      subst same
      exact .loops stopping moves
    · cases taken
  case h_5 stopping =>
    split at taken <;> cases taken
    rename_i returned
    exact .releases stopping returned.1 returned.2
  case h_6 released => cases taken; exact .finishes released
  case h_7 notAlive notStopping =>
    obtain ⟨after, moves, same⟩ := Option.map_eq_some_iff.mp taken
    subst same
    refine .misuses ?_ moves
    cases at_ : s.destruction with
    | alive => exact absurd at_ notAlive
    | stopping => exact absurd at_ notStopping
    | released => exact Or.inl at_
    | destroyed => exact Or.inr at_
  case h_8 => cases taken

/-- The history of the lifecycle. -/
def follow (h : Lifecycle.History) : DestructibleAction H → Lifecycle.History
  | .live action => h.update action
  | .destroy | .destroyInHandler _ => h.update (.stopListen : LifecycleAction H)
  | _ => h

/-- The step, with this history. -/
abbrev historyStep : Destructible H × Lifecycle.History → DestructibleAction H →
    Option (Destructible H × Lifecycle.History) :=
  withGhost step fun _ action _ h => follow h action

/-- What holds of a connector that `std::terminate` has not ended: the destructor is
within `stopListen()`, or that has returned. -/
structure Running (s : Destructible H) (h : Lifecycle.History) : Prop where
  inv : Lifecycle.Inv (s.lifecycle, h)
  stopping : s.destruction = .stopping →
    s.lifecycle.control = .joining ∨ s.lifecycle.control = .idle ∧ h.stopped = true
  gone : s.Gone → s.lifecycle.control = .idle ∧ h.stopped = true

/-- The invariant. `std::terminate` runs before anything is released, if at all. -/
structure Inv (s : Destructible H × Lifecycle.History) : Prop where
  unused : s.1.misused = false
  running : s.1.lifecycle.terminated = true ∧ ¬ s.1.Gone ∨ Running s.1 s.2

variable {s s' : Destructible H} {h : Lifecycle.History} {action : DestructibleAction H}
  {l l' : Lifecycle H} {piece : LifecycleAction H}

/-- A step of the lifecycle that `std::terminate` survives keeps its invariant. -/
theorem lifecycle_inv_of_step (inv : Lifecycle.Inv (l, h)) (taken : l.step piece = some l')
    (survives : l'.terminated = false) : Lifecycle.Inv (l', h.update piece) := by
  have takes := Lifecycle.takes_of_piece (guarded_eq_some taken).2
  exact inv.of_takes takes (Lifecycle.joinedFirst_of_survives inv takes survives)

/-- Only an assignment terminates. -/
theorem terminated_of_step (taken : l.step piece = some l') (other : piece ≠ .assign) :
    l'.terminated = false := by
  obtain ⟨alive, taken⟩ := guarded_eq_some taken
  cases Lifecycle.takes_of_piece taken with
  | overwrote => exact absurd rfl other
  | _ => exact alive

/-- A piece of a listening thread leaves the controlling thread where it is. -/
theorem control_of_loop {thread : Nat} {event : LoopEvent H}
    (taken : l.step (.loop thread event) = some l') : l'.control = l.control := by
  cases Lifecycle.takes_of_piece (guarded_eq_some taken).2 with
  | looped => rfl

theorem stopped_of_loop {thread : Nat} {event : LoopEvent H} :
    (h.update (.loop thread event)).stopped = h.stopped := by
  cases event <;> rfl

/-- Once `stopListen()` has returned, there is no thread to join and none that runs. -/
theorem ended_of_stopped (inv : Lifecycle.Inv (l, h)) (idle : l.control = .idle)
    (stopped : h.stopped = true) :
    l.connector.listeningThread = none ∧ Lifecycle.Ended l.threads := by
  have phase := inv.phase
  refine ⟨?_, phase.ended_of_stopped stopped⟩
  dsimp only at phase
  rw [idle] at phase
  generalize l.connector.listening = listening at phase
  generalize l.connector.listeningThread = slot at phase ⊢
  generalize l.threads = threads at phase
  cases phase with
  | off => rfl
  | on => cases stopped
  | dead => cases stopped

/-- A thread that is in its handlers while no function is called is the one in the slot. -/
theorem slot_of_dispatching {recvBuffer : Bytes} {thread : Nat} (inv : Lifecycle.Inv (l, h))
    (idle : l.control = .idle) (at_ : l.threads[thread]? = some (.dispatching recvBuffer)) :
    l.connector.listeningThread = some thread := by
  have phase := inv.phase
  dsimp only at phase
  rw [idle] at phase
  generalize l.connector.listening = listening at phase
  generalize l.connector.listeningThread = slot at phase ⊢
  generalize l.threads = threads at phase at_
  have refused := fun {threads : List LoopPc} (ended : Lifecycle.Ended threads)
    (at_ : threads[thread]? = some (.dispatching recvBuffer)) =>
      ended _ (List.mem_of_getElem? at_)
  cases phase with
  | off ended => cases refused ended at_
  | dead ended => cases refused ended.append_finished at_
  | @on older pc unjoined started ended running =>
    rcases Nat.lt_or_ge thread older.length with old | new
    · rw [List.getElem?_append_left old] at at_
      cases refused ended at_
    · have bound := (List.getElem?_eq_some_iff.mp at_).1
      rw [List.length_append, List.length_singleton] at bound
      rw [Nat.le_antisymm new (Nat.le_of_lt_succ bound)]

theorem not_gone_of_alive (alive : s.destruction = .alive) : ¬ s.Gone := by
  rintro (gone | gone) <;> cases alive.symm.trans gone

theorem not_gone_of_stopping (stopping : s.destruction = .stopping) : ¬ s.Gone := by
  rintro (gone | gone) <;> cases stopping.symm.trans gone

/-- A destructor that a handler calls joins its own thread. -/
theorem own_of_handler {recvBuffer : Bytes} {thread : Nat} (inv : Inv (s, h))
    (at_ : s.lifecycle.threads[thread]? = some (.dispatching recvBuffer))
    (taken : s.lifecycle.step .stopListen = some l) :
    l.connector.listeningThread = some thread := by
  have running := inv.running.resolve_left fun ended =>
    Bool.false_ne_true ((guarded_eq_some taken).1.symm.trans ended.1)
  cases Lifecycle.takes_of_piece (guarded_eq_some taken).2 with
  | stopping idle =>
    have slot := slot_of_dispatching running.inv idle at_
    exact slot

theorem Inv.running_of_step (inv : Inv (s, h)) (taken : s.lifecycle.step piece = some l) :
    Running s h := by
  refine inv.running.resolve_left fun ended => ?_
  exact Bool.false_ne_true ((guarded_eq_some taken).1.symm.trans ended.1)

/-- What a step keeps. -/
theorem Inv.of_takes (inv : Inv (s, h)) (takes : Takes s action s') :
    Inv (s', follow h action) := by
  cases takes with
  | @lives piece after alive taken =>
    have running := inv.running_of_step taken
    refine ⟨inv.unused, ?_⟩
    rcases survives : after.terminated with _ | _
    · refine Or.inr ⟨lifecycle_inv_of_step running.inv taken survives, fun stopping => ?_,
        fun gone => ?_⟩
      · cases alive.symm.trans stopping
      · exact absurd gone (not_gone_of_alive alive)
    · exact Or.inl ⟨rfl, not_gone_of_alive alive⟩
  | called alive taken =>
    have running := inv.running_of_step taken
    have survives := terminated_of_step taken (by simp)
    refine ⟨inv.unused, Or.inr ⟨lifecycle_inv_of_step running.inv taken survives, fun _ => ?_,
      fun gone => ?_⟩⟩
    · cases Lifecycle.takes_of_piece (guarded_eq_some taken).2 with
      | stopping => exact Or.inl rfl
    · exact absurd gone (not_gone_of_stopping rfl)
  | calledInHandler alive at_ taken =>
    refine ⟨inv.unused, Or.inl ⟨?_, not_gone_of_stopping rfl⟩⟩
    exact decide_eq_true (own_of_handler inv at_ taken)
  | joins stopping taken =>
    have running := inv.running_of_step taken
    have survives := terminated_of_step taken (by simp)
    refine ⟨inv.unused, Or.inr ⟨lifecycle_inv_of_step running.inv taken survives, fun _ => ?_,
      fun gone => ?_⟩⟩
    · cases Lifecycle.takes_of_piece (guarded_eq_some taken).2 with
      | notJoinable => exact Or.inr ⟨rfl, rfl⟩
      | joined => exact Or.inr ⟨rfl, rfl⟩
    · exact absurd gone (not_gone_of_stopping stopping)
  | loops stopping taken =>
    have running := inv.running_of_step taken
    have survives := terminated_of_step taken (by simp)
    have control := control_of_loop taken
    refine ⟨inv.unused, Or.inr ⟨lifecycle_inv_of_step running.inv taken survives, fun _ => ?_,
      fun gone => ?_⟩⟩
    · dsimp only
      rw [control, follow, stopped_of_loop]
      exact running.stopping stopping
    · exact absurd gone (not_gone_of_stopping stopping)
  | releases stopping idle alive =>
    have running := inv.running.resolve_left fun ended =>
      Bool.false_ne_true (alive.symm.trans ended.1)
    refine ⟨inv.unused, Or.inr ⟨running.inv, fun stopping => (by cases stopping), fun _ => ?_⟩⟩
    refine (running.stopping stopping).resolve_left fun joining => ?_
    cases idle.symm.trans joining
  | finishes released =>
    have running := inv.running.resolve_left fun ended => ended.2 (Or.inl released)
    obtain ⟨idle, stopped⟩ := running.gone (Or.inl released)
    obtain ⟨empty, -⟩ := ended_of_stopped running.inv idle stopped
    have alive := running.inv.alive
    have phase := running.inv.phase
    refine ⟨inv.unused, Or.inr ⟨⟨?_, phase⟩, fun stopping => (by cases stopping),
      fun _ => ⟨idle, stopped⟩⟩⟩
    dsimp only
    rw [empty]
    rfl
  | misuses gone taken =>
    have running := inv.running_of_step taken
    obtain ⟨idle, stopped⟩ := running.gone gone
    obtain ⟨-, ended⟩ := ended_of_stopped running.inv idle stopped
    cases Lifecycle.takes_of_piece (guarded_eq_some taken).2 with
    | looped at_ takes => exact absurd takes (Lifecycle.not_loopTakes_of_ended ended at_)

/-! ## Every run -/

theorem inv_init : Inv (({} : Destructible H), ({} : Lifecycle.History)) where
  unused := rfl
  running := Or.inr
    { inv := Lifecycle.inv_init
      stopping := by simp
      gone := by simp [Gone] }

theorem inv_of_run {actions : List (DestructibleAction H)}
    (reached : run step {} actions = some s) : ∃ h, Inv (s, h) := by
  obtain ⟨⟨s', h⟩, reached', same⟩ :
      ∃ after, run historyStep (({} : Destructible H), ({} : Lifecycle.History)) actions =
        some after ∧ after.1 = s := Option.map_eq_some_iff.mp (run_withGhost.trans reached)
  cases same
  refine ⟨h, invariant_run (fun s action s' inv taken => ?_) inv_init reached'⟩
  obtain ⟨step_, same⟩ := withGhost_eq_some taken
  rcases s' with ⟨s', h'⟩
  dsimp only at step_ same
  subst same
  exact inv.of_takes (takes_of_step step_)

/-- A connector that is destroyed while its loop is in `receive()`, up to the call of the
destructor, and on from there. -/
def destroyedWhileReceiving : List (DestructibleAction Nat) :=
  [.live (.registerResponseHandler (some 7) .normal), .live .listen, .live .setListening,
    .live .construct, .live .assign, .live (.loop 0 .check), .destroy]

def receivedWhileDestroyed : List (DestructibleAction Nat) :=
  [.live (.loop 0 (.receive (some [0x01]))), .live (.loop 0 (.dispatch fun _ => true)),
    .live (.loop 0 .check), .live .join, .release]

/-- The call of `receive()` that a listening thread is in returns or throws. -/
def isReceive : DestructibleAction H → Bool
  | .live (.loop _ (.receive _)) => true
  | _ => false

/-- The handlers of a buffer return, or one of them throws. -/
def isDispatch : DestructibleAction H → Bool
  | .live (.loop _ (.dispatch _)) => true
  | _ => false

/-- The destructor or the listening thread takes a step of its own, or it is `receive()`
or a handler that the thread is in, and it goes on whatever comes of that. -/
def GoesOn (s : Destructible H) : Prop :=
  (∃ action, isReceive action = false ∧ isDispatch action = false ∧
    (s.step action).isSome = true) ∨
  (∃ thread, ∀ result, (s.step (.live (.loop thread (.receive result)))).isSome = true) ∨
  ∃ thread, ∀ returns, (s.step (.live (.loop thread (.dispatch returns)))).isSome = true

/-- The steps that a listening thread has left when `listening` is clear. -/
def steps : LoopPc → Nat
  | .finished => 0
  | .checking => 1
  | .caught => 1
  | .dispatching _ => 2
  | .receiving => 3

/-- The steps that are left until the destructor has returned. -/
def left (s : Destructible H) : Nat :=
  match s.destruction, s.lifecycle.control with
  | .alive, _ => 0
  | .stopping, .idle => 2
  | .stopping, _ => 3 + ((s.lifecycle.threads.getLast?).elim 0 steps)
  | .released, _ => 1
  | .destroyed, _ => 0

/-- The destructor was called, and has not ended the process. -/
structure Called (s : Destructible H) : Prop where
  called : s.destruction ≠ .alive
  alive : s.lifecycle.terminated = false
  inv : ∃ h, Inv (s, h)

variable {thread : Nat} {pc pc' : LoopPc} {event : LoopEvent H} {c : IConnector H}
  {calls : List (Delivery H)}

theorem Called.running (called : Called s) : ∃ h, Running s h := by
  obtain ⟨h, inv⟩ := called.inv
  exact ⟨h, inv.running.resolve_left fun ended =>
    Bool.false_ne_true (called.alive.symm.trans ended.1)⟩

theorem steps_lt_of_loopTakes {c' : IConnector H} (clear : c.listening = false)
    (takes : LoopTakes c pc event c' pc' calls) : steps pc' < steps pc := by
  cases takes with
  | again listening => cases clear.symm.trans listening
  | _ => simp [steps]

theorem left_of_joining (stopping : s.destruction = .stopping)
    (joining : s.lifecycle.control = .joining) :
    left s = 3 + s.lifecycle.threads.getLast?.elim 0 steps := by
  unfold left
  rw [stopping, joining]

theorem left_of_idle (stopping : s.destruction = .stopping)
    (idle : s.lifecycle.control = .idle) : left s = 2 := by
  unfold left
  rw [stopping, idle]

/-- While the destructor waits, a listening thread that has not ended is the newest, and
it is the one in the slot. -/
theorem newest_of_joining (inv : Lifecycle.Inv (l, h)) (joining : l.control = .joining) :
    l.connector.listening = false ∧
      ((l.connector.listeningThread = none ∧ Lifecycle.Ended l.threads) ∨
        ∃ older pc, l.connector.listeningThread = some older.length ∧
          l.threads = older ++ [pc] ∧ Lifecycle.Ended older) := by
  have phase := inv.phase
  dsimp only at phase
  rw [joining] at phase
  generalize l.connector.listening = listening at phase ⊢
  generalize l.connector.listeningThread = slot at phase ⊢
  generalize l.threads = threads at phase ⊢
  cases phase with
  | joiningOff ended => exact ⟨rfl, Or.inl ⟨rfl, ended⟩⟩
  | joining ended => exact ⟨rfl, Or.inr ⟨_, _, rfl, rfl, ended⟩⟩

/-- A piece of the listening thread brings the end of the destructor closer. -/
theorem left_of_loop (running : Running s h) (stopping : s.destruction = .stopping)
    (at_ : s.lifecycle.threads[thread]? = some pc) {after : IConnector H}
    (takes : LoopTakes s.lifecycle.connector pc event after pc' calls) :
    s.lifecycle.control = .joining ∧ left s = 3 + steps pc ∧ steps pc' < steps pc ∧
      (s.lifecycle.threads.set thread pc').getLast? = some pc' := by
  rcases running.stopping stopping with joining | ⟨idle, stopped⟩
  · obtain ⟨clear, ⟨-, ended⟩ | ⟨older, newest, -, threads, ended⟩⟩ :=
      newest_of_joining running.inv joining
    · exact absurd takes (Lifecycle.not_loopTakes_of_ended ended at_)
    · rw [threads] at at_
      obtain ⟨rfl, set⟩ := Lifecycle.newest_of_loopTakes ended at_ takes
      refine ⟨joining, ?_, steps_lt_of_loopTakes clear takes, ?_⟩
      · rw [left_of_joining stopping joining, threads, List.getLast?_concat]
        rfl
      · rw [threads, set, List.getLast?_concat]
  · have ended := (ended_of_stopped running.inv idle stopped).2
    exact absurd takes (Lifecycle.not_loopTakes_of_ended ended at_)

theorem isReceive_loop (takes : LoopTakes c pc event c' pc' calls)
    (receives : isReceive (.live (.loop thread event)) = true) : steps pc = 3 := by
  cases takes <;> first | rfl | cases receives

theorem isDispatch_loop (takes : LoopTakes c pc event c' pc' calls)
    (dispatches : isDispatch (.live (.loop thread event)) = true) : steps pc = 2 := by
  cases takes <;> first | rfl | cases dispatches

/-- What a step of the two does: `receive()` returns with six of them left, and the
handlers with five. -/
theorem Called.of_takes (called : Called s) (takes : Takes s action s') :
    Called s' ∧ left s' < left s ∧ (isReceive action = true → left s = 6) ∧
      (isDispatch action = true → left s = 5) := by
  obtain ⟨h, running⟩ := called.running
  obtain ⟨h', inv⟩ := called.inv
  have inv' := inv.of_takes takes
  cases takes with
  | lives alive => exact absurd alive called.called
  | called alive => exact absurd alive called.called
  | calledInHandler alive => exact absurd alive called.called
  | @joins after stopping taken =>
    have survives := terminated_of_step taken (by simp)
    have joins : s.lifecycle.control = .joining ∧ after.control = .idle := by
      cases Lifecycle.takes_of_piece (guarded_eq_some taken).2 with
      | notJoinable at_ => exact ⟨at_, rfl⟩
      | joined at_ => exact ⟨at_, rfl⟩
    refine ⟨⟨called.called, survives, _, inv'⟩, ?_, fun no => (by cases no),
      fun no => (by cases no)⟩
    rw [left_of_idle (s := { s with lifecycle := after }) stopping joins.2,
      left_of_joining stopping joins.1]
    omega
  | loops stopping taken =>
    have survives := terminated_of_step taken (by simp)
    have control := control_of_loop taken
    cases Lifecycle.takes_of_piece (guarded_eq_some taken).2 with
    | looped at_ takes =>
      obtain ⟨joining, before, lower, newest⟩ := left_of_loop running stopping at_ takes
      refine ⟨⟨called.called, survives, _, inv'⟩, ?_, fun receives => ?_, fun dispatches => ?_⟩
      · rw [before, left_of_joining (by exact stopping) (by exact joining), newest]
        exact Nat.add_lt_add_left lower 3
      · rw [before, isReceive_loop takes receives]
      · rw [before, isDispatch_loop takes dispatches]
  | releases stopping idle alive =>
    refine ⟨⟨by simp, alive, _, inv'⟩, ?_, fun no => (by cases no), fun no => (by cases no)⟩
    rw [left_of_idle stopping idle]
    exact Nat.lt_succ_self 1
  | finishes released =>
    obtain ⟨idle, stopped⟩ := running.gone (Or.inl released)
    have empty := (ended_of_stopped running.inv idle stopped).1
    refine ⟨⟨by simp, ?_, _, inv'⟩, ?_, fun no => (by cases no), fun no => (by cases no)⟩
    · dsimp only
      rw [empty]
      rfl
    · unfold left
      rw [released]
      exact Nat.zero_lt_one
  | misuses gone taken => cases inv'.unused

theorem isSome_step_loop (stopping : s.destruction = .stopping)
    (alive : s.lifecycle.terminated = false) (at_ : s.lifecycle.threads[thread]? = some pc) :
    (s.step (.live (.loop thread event))).isSome =
      (loopStep s.lifecycle.connector pc event).isSome := by
  unfold step
  rw [stopping]
  dsimp only
  rw [Option.isSome_map, Lifecycle.step, guarded, if_pos alive, Lifecycle.piece, at_,
    Option.bind_some, Option.isSome_map]

/-- `join()` returns if there is no thread to join, or one that has ended. -/
theorem isSome_step_join (stopping : s.destruction = .stopping)
    (alive : s.lifecycle.terminated = false) (joining : s.lifecycle.control = .joining)
    (ended : ∀ thread, s.lifecycle.connector.listeningThread = some thread →
      s.lifecycle.threads[thread]? = some .finished) :
    (s.step (.live .join)).isSome = true := by
  unfold step
  rw [stopping]
  dsimp only
  rw [Option.isSome_map, Lifecycle.step, guarded, if_pos alive]
  unfold Lifecycle.piece
  rw [joining]
  dsimp only
  cases slot : s.lifecycle.connector.listeningThread with
  | none => rfl
  | some thread =>
    dsimp only
    rw [if_pos (ended thread slot)]
    rfl

/-- Once the destructor was called, it has returned, or one of the two goes on. -/
theorem Called.goesOn (called : Called s) : s.destruction = .destroyed ∨ GoesOn s := by
  obtain ⟨h, running⟩ := called.running
  have alive := called.alive
  cases at_ : s.destruction with
  | alive => exact absurd at_ called.called
  | stopping =>
    refine Or.inr ?_
    rcases running.stopping at_ with joining | ⟨idle, -⟩
    · obtain ⟨-, ⟨slot, -⟩ | ⟨older, pc, slot, threads, -⟩⟩ := newest_of_joining running.inv joining
      · refine Or.inl ⟨.live .join, rfl, rfl, isSome_step_join at_ alive joining ?_⟩
        intro thread joinable
        cases slot.symm.trans joinable
      · have newest : s.lifecycle.threads[older.length]? = some pc := by
          rw [threads, List.getElem?_concat_length]
        cases pc with
        | checking =>
          exact Or.inl ⟨.live (.loop older.length .check), rfl, rfl,
            isSome_step_loop at_ alive newest⟩
        | receiving =>
          refine Or.inr (Or.inl ⟨older.length, fun result => ?_⟩)
          rw [isSome_step_loop at_ alive newest]
          cases result <;> rfl
        | dispatching recvBuffer =>
          exact Or.inr (Or.inr ⟨older.length, fun returns =>
            isSome_step_loop at_ alive newest⟩)
        | caught =>
          exact Or.inl ⟨.live (.loop older.length .catchAll), rfl, rfl,
            isSome_step_loop at_ alive newest⟩
        | finished =>
          refine Or.inl ⟨.live .join, rfl, rfl, isSome_step_join at_ alive joining ?_⟩
          intro thread joinable
          cases slot.symm.trans joinable
          exact newest
    · refine Or.inl ⟨.release, rfl, rfl, ?_⟩
      unfold step
      rw [at_]
      dsimp only
      rw [if_pos ⟨idle, alive⟩]
      rfl
  | released =>
    refine Or.inr (Or.inl ⟨.finish, rfl, rfl, ?_⟩)
    unfold step
    rw [at_]
    rfl
  | destroyed => exact Or.inl rfl

theorem left_le (called : Called s) : left s ≤ 6 := by
  obtain ⟨h, running⟩ := called.running
  unfold left
  split
  case h_3 =>
    cases s.lifecycle.threads.getLast? with
    | none => exact Nat.le_add_right 3 3
    | some pc => cases pc <;> simp [steps]
  all_goals omega

/-- However the destructor and the listening thread take turns once another thread has
called it, they take six steps at most, and the destructor waits for `receive()` and for
the handlers of a buffer once at most. -/
theorem destruction_ends {actions more : List (DestructibleAction H)}
    (reached : run step {} actions = some s) (called : s.destruction ≠ .alive)
    (survives : s.lifecycle.terminated = false) (later : run step s more = some s') :
    more.length ≤ 6 ∧ more.countP isReceive ≤ 1 ∧ more.countP isDispatch ≤ 1 ∧
      (s'.destruction = .destroyed ∨ GoesOn s') := by
  have init : Called s := ⟨called, survives, inv_of_run reached⟩
  have lowers : ∀ s action (s' : Destructible H), Called s → step s action = some s' →
      Called s' ∧ left s' < left s := by
    intro s action s' called taken
    have does := called.of_takes (takes_of_step taken)
    exact ⟨does.1, does.2.1⟩
  have called' : Called s' :=
    invariant_run (fun s action s' called taken => (lowers s action s' called taken).1) init later
  obtain ⟨length, receives⟩ := length_run_le_of_rank lowers
    (fun s action s' called taken => (called.of_takes (takes_of_step taken)).2.2.1) init later
  have dispatches := (length_run_le_of_rank lowers
    (fun s action s' called taken => (called.of_takes (takes_of_step taken)).2.2.2) init later).2
  refine ⟨Nat.le_trans length (left_le init), Nat.le_trans receives ?_,
    Nat.le_trans dispatches ?_, called'.goesOn⟩
  · split <;> decide
  · split <;> decide

theorem destruction_ends_destroyedWhileReceiving :
    ∃ s s', run step {} destroyedWhileReceiving = some s ∧
      run step s receivedWhileDestroyed = some s' ∧ receivedWhileDestroyed.length ≤ 6 ∧
      receivedWhileDestroyed.countP isReceive ≤ 1 ∧
      receivedWhileDestroyed.countP isDispatch ≤ 1 ∧
      (s'.destruction = .destroyed ∨ GoesOn s') := by
  have reached : run step {} destroyedWhileReceiving = some _ := rfl
  exact ⟨_, _, reached, rfl, destruction_ends reached (by simp) rfl rfl⟩

end Destructible

end Iqrf.Connector
