import Iqrf.Connector.IConnector

/-!
# Starting and stopping the listening loop

One controlling thread calls `listen()` and `stopListen()` while the threads that
`listen()` started run `listeningLoop`. `Lifecycle.step` takes one piece of one of
them at a time: the test, the store and the two halves of the thread assignment of
`listen()`, the store and the join of `stopListen()`, and the pieces `loopStep` of a
thread. `Phase` is the invariant: what the flag, the slot and the threads can be at
each point of the controlling thread.
-/

namespace Iqrf.Connector

open Runs

variable {H : Type*}

/-- Where the controlling thread stands. -/
inductive ControlPc
  /-- between two calls -/
  | idle
  /-- in `listen()`, with the flag found clear -/
  | storing
  /-- in `listen()`, with the flag set and no thread yet -/
  | constructing
  /-- in `listen()`, with a thread to be moved into the slot -/
  | assigning (thread : Nat)
  /-- in `stopListen()`, with the flag cleared -/
  | joining
  deriving DecidableEq, Repr

/-- One piece of the controlling thread, of a listening thread or of a client. -/
inductive LifecycleAction (H : Type*)
  | listen
  | setListening
  | construct
  | assign
  | stopListen
  | join
  | loop (thread : Nat) (event : LoopEvent H)
  | registerResponseHandler (handler : ResponseHandler H) (access : AccessType)
  | unregisterResponseHandler (token : AccessToken)

/-- The connector, the controlling thread and the exception its last call raised, the
threads started so far, the handler calls made and whether `std::terminate` ran. -/
structure Lifecycle (H : Type*) where
  connector : IConnector H := {}
  control : ControlPc := .idle
  raised : Option RuntimeError := none
  threads : List LoopPc := []
  delivered : List (Delivery H) := []
  terminated : Bool := false

namespace Lifecycle

/-- `listen`, `setListening`, `construct` and `assign` are `IConnector::listen`;
`stopListen` and `join` are `IConnector::stopListen`. The temporary thread runs
before it is assigned, and assigning over a joinable thread terminates. -/
def piece (s : Lifecycle H) (action : LifecycleAction H) : Option (Lifecycle H) :=
  match action, s.control with
  | .listen, .idle =>
    if s.connector.listening then some { s with raised := some .listeningLoopAlreadyActive }
    else some { s with raised := none, control := .storing }
  | .setListening, .storing =>
    some { s with connector := { s.connector with listening := true }, control := .constructing }
  | .construct, .constructing =>
    some { s with
      threads := s.threads ++ [.checking], control := .assigning s.threads.length }
  | .assign, .assigning thread =>
    if s.connector.listeningThread.isSome then some { s with terminated := true }
    else
      some { s with
        connector := { s.connector with listeningThread := some thread }, control := .idle }
  | .stopListen, .idle =>
    some { s with
      connector := { s.connector with listening := false }, raised := none, control := .joining }
  | .join, .joining =>
    match s.connector.listeningThread with
    | none => some { s with control := .idle }
    | some thread =>
      if s.threads[thread]? = some .finished then
        some { s with
          connector := { s.connector with listeningThread := none }, control := .idle }
      else none
  | .loop thread event, _ =>
    s.threads[thread]?.bind fun pc =>
      (loopStep s.connector pc event).map fun after =>
        { s with
          connector := after.1, threads := s.threads.set thread after.2.1,
          delivered := s.delivered ++ after.2.2 }
  | .registerResponseHandler handler access, _ =>
    some { s with connector := (s.connector.registerResponseHandler handler access).1 }
  | .unregisterResponseHandler token, _ =>
    some { s with connector := s.connector.unregisterResponseHandler token }
  | _, _ => none

/-- A process that `std::terminate` has ended takes no step. -/
def step : Lifecycle H → LifecycleAction H → Option (Lifecycle H) :=
  guarded piece fun s _ => s.terminated = false

/-! ## What a step does -/

/-- The steps, with what each one does. -/
inductive Takes (s : Lifecycle H) : LifecycleAction H → Lifecycle H → Prop
  | refused (idle : s.control = .idle) (listening : s.connector.listening = true) :
    Takes s .listen { s with raised := some .listeningLoopAlreadyActive }
  | passed (idle : s.control = .idle) (clear : s.connector.listening = false) :
    Takes s .listen { s with raised := none, control := .storing }
  | stored (at_ : s.control = .storing) :
    Takes s .setListening
      { s with connector := { s.connector with listening := true }, control := .constructing }
  | constructed (at_ : s.control = .constructing) :
    Takes s .construct
      { s with threads := s.threads ++ [.checking], control := .assigning s.threads.length }
  | overwrote {thread : Nat} (at_ : s.control = .assigning thread)
      (joinable : s.connector.listeningThread.isSome = true) :
    Takes s .assign { s with terminated := true }
  | assigned {thread : Nat} (at_ : s.control = .assigning thread)
      (empty : s.connector.listeningThread = none) :
    Takes s .assign
      { s with
        connector := { s.connector with listeningThread := some thread }, control := .idle }
  | stopping (idle : s.control = .idle) :
    Takes s .stopListen
      { s with
        connector := { s.connector with listening := false }, raised := none, control := .joining }
  | notJoinable (at_ : s.control = .joining) (empty : s.connector.listeningThread = none) :
    Takes s .join { s with control := .idle }
  | joined {thread : Nat} (at_ : s.control = .joining)
      (joinable : s.connector.listeningThread = some thread)
      (ended : s.threads[thread]? = some .finished) :
    Takes s .join
      { s with connector := { s.connector with listeningThread := none }, control := .idle }
  | looped {thread : Nat} {event : LoopEvent H} {pc pc' : LoopPc} {c : IConnector H}
      {calls : List (Delivery H)} (at_ : s.threads[thread]? = some pc)
      (takes : LoopTakes s.connector pc event c pc' calls) :
    Takes s (.loop thread event)
      { s with
        connector := c, threads := s.threads.set thread pc', delivered := s.delivered ++ calls }
  | registered (handler : ResponseHandler H) (access : AccessType) :
    Takes s (.registerResponseHandler handler access)
      { s with connector := (s.connector.registerResponseHandler handler access).1 }
  | unregistered (token : AccessToken) :
    Takes s (.unregisterResponseHandler token)
      { s with connector := s.connector.unregisterResponseHandler token }

theorem takes_of_piece {s s' : Lifecycle H} {action : LifecycleAction H}
    (taken : piece s action = some s') : Takes s action s' := by
  unfold piece at taken
  split at taken
  case h_1 idle =>
    split at taken <;> cases taken
    · exact .refused idle ‹_›
    · exact .passed idle (Bool.eq_false_iff.mpr ‹_›)
  case h_2 at_ => cases taken; exact .stored at_
  case h_3 at_ => cases taken; exact .constructed at_
  case h_4 at_ =>
    split at taken <;> cases taken
    · exact .overwrote at_ ‹_›
    · exact .assigned at_ (Option.not_isSome_iff_eq_none.mp ‹_›)
  case h_5 idle => cases taken; exact .stopping idle
  case h_6 at_ =>
    split at taken
    · cases taken
      exact .notJoinable at_ ‹_›
    · split at taken <;> cases taken
      exact .joined at_ ‹_› ‹_›
  case h_7 thread event =>
    obtain ⟨pc, at_, moved⟩ := Option.bind_eq_some_iff.mp taken
    obtain ⟨⟨c, pc', calls⟩, moves, same⟩ := Option.map_eq_some_iff.mp moved
    subst same
    exact .looped at_ (loopStep_eq_some_iff.mp moves)
  case h_8 handler access => cases taken; exact .registered handler access
  case h_9 token => cases taken; exact .unregistered token
  case h_10 => cases taken

/-! ## Running threads -/

/-- Every one of these threads has ended. -/
def Ended (threads : List LoopPc) : Prop := ∀ pc ∈ threads, pc = .finished

/-- The number of threads that have not ended. -/
def running (threads : List LoopPc) : Nat := threads.countP (· ≠ .finished)

variable {threads older : List LoopPc} {pc pc' : LoopPc} {thread : Nat} {event : LoopEvent H}
  {c c' : IConnector H} {calls : List (Delivery H)}

theorem running_of_ended (ended : Ended threads) : running threads = 0 :=
  List.countP_eq_zero.mpr fun pc member => by simp [ended pc member]

theorem running_le_of_ended (ended : Ended threads) : running threads ≤ 1 := by
  rw [running_of_ended ended]
  exact Nat.zero_le 1

theorem running_append_le (ended : Ended older) (pc : LoopPc) : running (older ++ [pc]) ≤ 1 := by
  have none_ := running_of_ended ended
  rw [running] at none_ ⊢
  rw [List.countP_append, none_, Nat.zero_add]
  exact List.countP_le_length

theorem Ended.append_finished (ended : Ended older) : Ended (older ++ [.finished]) := by
  intro pc member
  rcases List.mem_append.mp member with old | new
  · exact ended pc old
  · exact List.mem_singleton.mp new

/-- A thread that has ended takes no step. -/
theorem not_loopTakes_of_ended (ended : Ended threads) (at_ : threads[thread]? = some pc) :
    ¬ LoopTakes c pc event c' pc' calls := by
  intro takes
  have same := ended pc (List.mem_of_getElem? at_)
  subst same
  cases takes

/-- Where all threads but the newest have ended, it is the newest that takes a step. -/
theorem newest_of_loopTakes {last : LoopPc} (ended : Ended older)
    (at_ : (older ++ [last])[thread]? = some pc) (takes : LoopTakes c pc event c' pc' calls) :
    pc = last ∧ (older ++ [last]).set thread pc' = older ++ [pc'] := by
  rcases Nat.lt_trichotomy thread older.length with old | rfl | beyond
  · rw [List.getElem?_append_left old] at at_
    exact absurd takes (not_loopTakes_of_ended ended at_)
  · rw [List.getElem?_concat_length] at at_
    refine ⟨(Option.some.inj at_).symm, ?_⟩
    rw [List.set_append_right _ _ (Nat.le_refl _), Nat.sub_self, List.set_cons_zero]
  · have length : (older ++ [last]).length ≤ thread := by simpa using Nat.succ_le_of_lt beyond
    rw [List.getElem?_eq_none length] at at_
    cases at_

/-- A piece of a listening thread leaves the slot of the thread alone, and clears the
flag only as it ends by an exception. -/
theorem loopTakes_frame (takes : LoopTakes c pc event c' pc' calls) :
    c'.listeningThread = c.listeningThread ∧
      ((event = .catchAll ∧ pc' = .finished ∧ c'.listening = false) ∨
        (event ≠ .catchAll ∧ c'.listening = c.listening ∧
          (c.listening = true → pc' ≠ .finished))) := by
  cases takes with
  | again listening => exact ⟨rfl, Or.inr ⟨nofun, rfl, fun _ => nofun⟩⟩
  | leave stopped =>
    refine ⟨rfl, Or.inr ⟨nofun, rfl, fun listening => ?_⟩⟩
    rw [stopped] at listening
    cases listening
  | nothing => exact ⟨rfl, Or.inr ⟨nofun, rfl, fun _ => nofun⟩⟩
  | received nonempty => exact ⟨rfl, Or.inr ⟨nofun, rfl, fun _ => nofun⟩⟩
  | receiveThrew => exact ⟨rfl, Or.inr ⟨nofun, rfl, fun _ => nofun⟩⟩
  | dispatched returned => exact ⟨rfl, Or.inr ⟨nofun, rfl, fun _ => nofun⟩⟩
  | dispatchThrew threw => exact ⟨rfl, Or.inr ⟨nofun, rfl, fun _ => nofun⟩⟩
  | ended => exact ⟨rfl, Or.inl ⟨rfl, rfl, rfl⟩⟩

/-! ## The lifecycle -/

/-- `died`: a loop has ended by an exception and no `stopListen()` has returned since.
`unjoined`: that was so when `listen()` was called last. `started`: the loops started
by that call. `stopped`: `stopListen()` has returned and `listen()` was not called
since. -/
structure History where
  died : Bool := false
  unjoined : Bool := false
  started : Nat := 0
  stopped : Bool := false
  deriving DecidableEq

def History.update (h : History) : LifecycleAction H → History
  | .listen => { h with unjoined := h.died, started := 0, stopped := false }
  | .construct => { h with started := h.started + 1 }
  | .join => { h with died := false, stopped := true }
  | .loop _ .catchAll => { h with died := true }
  | _ => h

/-- The system with its history. -/
abbrev historyStep : Lifecycle H × History → LifecycleAction H → Option (Lifecycle H × History) :=
  withGhost step fun _ action _ h => h.update action

/-- What is left to do in a call of `listen()`. -/
def ControlPc.next : ControlPc → Option (LifecycleAction H)
  | .storing => some .setListening
  | .constructing => some .construct
  | .assigning _ => some .assign
  | _ => none

/-- One step of a lifecycle that can be restarted. -/
structure Restartable (s : Lifecycle H × History) (action : LifecycleAction H)
    (s' : Lifecycle H × History) : Prop where
  /-- `listen()` throws, and does nothing else, exactly if the loop is listening -/
  refuses : action = .listen →
    s'.1 = if s.1.connector.listening then { s.1 with raised := some .listeningLoopAlreadyActive }
      else { s.1 with raised := none, control := .storing }
  /-- a call that has not thrown is not held up -/
  proceeds : ∀ next, ControlPc.next s'.1.control = some next → (step s'.1 next).isSome = true
  /-- and has started one loop when it returns -/
  starts : action = .assign → s.2.started = 1
  /-- no thread is assigned over a joinable one -/
  survives : s'.1.terminated = false
  single : running s'.1.threads ≤ 1
  /-- no handler is called between `stopListen()` and `listen()` -/
  quiet : s.2.stopped = true → s'.1.delivered = s.1.delivered

/-- The flag, the slot, the threads and the history at each point of the controlling
thread, where no thread was assigned over a joinable one. -/
inductive Phase : Bool → Option Nat → ControlPc → List LoopPc → History → Prop
  | off {threads : List LoopPc} {unjoined stopped : Bool} {started : Nat}
      (ended : Ended threads) :
    Phase false none .idle threads ⟨false, unjoined, started, stopped⟩
  | on {older : List LoopPc} {pc : LoopPc} {unjoined : Bool} {started : Nat}
      (ended : Ended older) (alive : pc ≠ .finished) :
    Phase true (some older.length) .idle (older ++ [pc]) ⟨false, unjoined, started, false⟩
  | dead {older : List LoopPc} {unjoined : Bool} {started : Nat} (ended : Ended older) :
    Phase false (some older.length) .idle (older ++ [.finished]) ⟨true, unjoined, started, false⟩
  | storing {slot : Option Nat} {threads : List LoopPc} (ended : Ended threads) :
    Phase false slot .storing threads ⟨slot.isSome, slot.isSome, 0, false⟩
  | constructing {slot : Option Nat} {threads : List LoopPc} (ended : Ended threads) :
    Phase true slot .constructing threads ⟨slot.isSome, slot.isSome, 0, false⟩
  | assigning {slot : Option Nat} {older : List LoopPc} {pc : LoopPc} (ended : Ended older)
      (alive : pc ≠ .finished) :
    Phase true slot (.assigning older.length) (older ++ [pc]) ⟨slot.isSome, slot.isSome, 1, false⟩
  | assigningDead {slot : Option Nat} {older : List LoopPc} (ended : Ended older) :
    Phase false slot (.assigning older.length) (older ++ [.finished]) ⟨true, slot.isSome, 1, false⟩
  | joiningOff {threads : List LoopPc} {unjoined stopped : Bool} {started : Nat}
      (ended : Ended threads) :
    Phase false none .joining threads ⟨false, unjoined, started, stopped⟩
  | joining {older : List LoopPc} {pc : LoopPc} {died unjoined : Bool} {started : Nat}
      (ended : Ended older) :
    Phase false (some older.length) .joining (older ++ [pc]) ⟨died, unjoined, started, false⟩

/-- The invariant of a process that has not been terminated. -/
structure Inv (s : Lifecycle H × History) : Prop where
  alive : s.1.terminated = false
  phase : Phase s.1.connector.listening s.1.connector.listeningThread s.1.control s.1.threads s.2

theorem Phase.running_le {listening : Bool} {slot : Option Nat} {control : ControlPc} {h : History}
    (phase : Phase listening slot control threads h) : running threads ≤ 1 := by
  cases phase with
  | off ended => exact running_le_of_ended ended
  | on ended _ => exact running_append_le ended _
  | dead ended => exact running_append_le ended _
  | storing ended => exact running_le_of_ended ended
  | constructing ended => exact running_le_of_ended ended
  | assigning ended _ => exact running_append_le ended _
  | assigningDead ended => exact running_append_le ended _
  | joiningOff ended => exact running_le_of_ended ended
  | joining ended => exact running_append_le ended _

/-- Once stopped, every thread has ended. -/
theorem Phase.ended_of_stopped {listening : Bool} {slot : Option Nat} {control : ControlPc}
    {h : History} (phase : Phase listening slot control threads h) (stopped : h.stopped = true) :
    Ended threads := by
  cases phase with
  | off ended => exact ended
  | joiningOff ended => exact ended
  | _ => cases stopped

theorem History.update_of_ne_catchAll (h : History) (thread : Nat) (other : event ≠ .catchAll) :
    h.update (.loop thread event) = h := by
  cases event with
  | catchAll => exact absurd rfl other
  | _ => rfl

/-- When `listen()` comes to its assignment, it has started one loop, and the slot is
joinable if a loop had died unjoined before the call. -/
theorem Phase.of_assigning {listening : Bool} {slot : Option Nat} {h : History}
    (phase : Phase listening slot (.assigning thread) threads h) :
    h.started = 1 ∧ h.unjoined = slot.isSome := by
  cases phase <;> exact ⟨rfl, rfl⟩

/-- What a thread does keeps the phase: it ends one that is on by its exception. -/
theorem Phase.loop {control : ControlPc} {h : History}
    (phase : Phase c.listening c.listeningThread control threads h)
    (at_ : threads[thread]? = some pc) (takes : LoopTakes c pc event c' pc' calls) :
    Phase c'.listening c'.listeningThread control (threads.set thread pc')
      (h.update (.loop thread event)) := by
  have newest := fun {older : List LoopPc} {last : LoopPc} (ended : Ended older)
    (at_ : (older ++ [last])[thread]? = some pc) => (newest_of_loopTakes ended at_ takes).2
  have refused := fun {threads : List LoopPc} (ended : Ended threads)
    (at_ : threads[thread]? = some pc) => not_loopTakes_of_ended ended at_ takes
  have kept : event ≠ .catchAll → h.update (.loop thread event) = h :=
    h.update_of_ne_catchAll thread
  obtain ⟨slot_, ends⟩ := loopTakes_frame takes
  rw [slot_]
  generalize c.listening = listening at phase ends
  generalize c.listeningThread = slot at phase
  cases phase with
  | on ended _ =>
    rw [newest ended at_]
    rcases ends with ⟨rfl, rfl, clear⟩ | ⟨other, flag, stays⟩
    · rw [clear]
      exact .dead ended
    · rw [flag, kept other]
      exact .on ended (stays rfl)
  | assigning ended _ =>
    rw [newest ended at_]
    rcases ends with ⟨rfl, rfl, clear⟩ | ⟨other, flag, stays⟩
    · rw [clear]
      exact .assigningDead ended
    · rw [flag, kept other]
      exact .assigning ended (stays rfl)
  | joining ended =>
    rw [newest ended at_]
    rcases ends with ⟨rfl, rfl, clear⟩ | ⟨other, flag, _⟩
    · rw [clear]
      exact .joining ended
    · rw [flag, kept other]
      exact .joining ended
  | off ended => exact (refused ended at_).elim
  | dead ended => exact (refused ended.append_finished at_).elim
  | storing ended => exact (refused ended at_).elim
  | constructing ended => exact (refused ended at_).elim
  | assigningDead ended => exact (refused ended.append_finished at_).elim
  | joiningOff ended => exact (refused ended at_).elim

/-- A call of `listen()` gets to its assignment only if every loop that had ended by an
exception was joined by `stopListen()` before the call. -/
def JoinedFirst (s : Lifecycle H × History) (action : LifecycleAction H) : Prop :=
  action = .assign → s.2.unjoined = false

/-- A call of `listen()` that has passed its test is never held up. -/
theorem step_isSome_of_next (s : Lifecycle H) (alive : s.terminated = false)
    (next : LifecycleAction H) (left : ControlPc.next s.control = some next) :
    (step s next).isSome = true := by
  rw [step, guarded, if_pos alive]
  cases at_ : s.control with
  | storing =>
    rw [at_] at left
    cases left
    simp only [piece, at_, Option.isSome_some]
  | constructing =>
    rw [at_] at left
    cases left
    simp only [piece, at_, Option.isSome_some]
  | assigning thread =>
    rw [at_] at left
    cases left
    simp only [piece, at_]
    split <;> rfl
  | idle => rw [at_] at left; cases left
  | joining => rw [at_] at left; cases left

variable {s s' : Lifecycle H} {h : History} {action : LifecycleAction H}

/-- A step that does not overwrite a joinable thread keeps the invariant. -/
theorem Inv.of_takes (inv : Inv (s, h)) (takes : Takes s action s')
    (joinedFirst : JoinedFirst (s, h) action) : Inv (s', h.update action) := by
  rcases s with ⟨⟨normal, exclusive, sniffer, listening, slot⟩, control, raised, threads,
    delivered, terminated⟩
  obtain ⟨alive, phase⟩ := inv
  dsimp only at alive phase
  cases takes with
  | refused idle listening_ =>
    cases idle
    cases listening_
    refine ⟨alive, ?_⟩
    cases phase with
    | on ended running_ => exact .on ended running_
  | passed idle clear =>
    cases idle
    cases clear
    refine ⟨alive, ?_⟩
    cases phase with
    | off ended => exact .storing ended
    | dead ended => exact .storing ended.append_finished
  | stored at_ =>
    cases at_
    refine ⟨alive, ?_⟩
    cases phase with
    | storing ended => exact .constructing ended
  | constructed at_ =>
    cases at_
    refine ⟨alive, ?_⟩
    cases phase with
    | constructing ended => exact .assigning ended nofun
  | overwrote at_ joinable =>
    cases at_
    have unjoined := phase.of_assigning.2.symm.trans (joinedFirst rfl)
    cases joinable.symm.trans unjoined
  | assigned at_ empty =>
    cases at_
    cases empty
    refine ⟨alive, ?_⟩
    cases phase with
    | assigning ended running_ => exact .on ended running_
    | assigningDead ended => exact .dead ended
  | stopping idle =>
    cases idle
    refine ⟨alive, ?_⟩
    cases phase with
    | off ended => exact .joiningOff ended
    | on ended _ => exact .joining ended
    | dead ended => exact .joining ended
  | notJoinable at_ empty =>
    cases at_
    cases empty
    refine ⟨alive, ?_⟩
    cases phase with
    | joiningOff ended => exact .off ended
  | joined at_ joinable ended_ =>
    cases at_
    cases joinable
    refine ⟨alive, ?_⟩
    cases phase with
    | joining ended =>
      rw [List.getElem?_concat_length] at ended_
      have same := Option.some.inj ended_
      subst same
      exact .off ended.append_finished
  | looped at_ takes => exact ⟨alive, phase.loop at_ takes⟩
  | registered handler access =>
    refine ⟨alive, ?_⟩
    dsimp only
    rw [(IConnector.registerResponseHandler_loop _ _ _).1,
      (IConnector.registerResponseHandler_loop _ _ _).2]
    exact phase
  | unregistered token =>
    refine ⟨alive, ?_⟩
    dsimp only
    rw [(IConnector.unregisterResponseHandler_loop _ _).1,
      (IConnector.unregisterResponseHandler_loop _ _).2]
    exact phase

theorem Inv.of_assigning (inv : Inv (s, h)) (at_ : s.control = .assigning thread) :
    h.started = 1 ∧ h.unjoined = s.connector.listeningThread.isSome := by
  have phase := inv.phase
  dsimp only at phase
  rw [at_] at phase
  exact phase.of_assigning

/-- No step delivers anything when every thread has ended. -/
theorem delivered_of_ended (ended : Ended s.threads) (takes : Takes s action s') :
    s'.delivered = s.delivered := by
  cases takes with
  | looped at_ takes => exact absurd takes (not_loopTakes_of_ended ended at_)
  | _ => rfl

/-- A call of `listen()` throws or goes on. -/
theorem listen_of_takes (takes : Takes s .listen s') :
    s' = if s.connector.listening then { s with raised := some .listeningLoopAlreadyActive }
      else { s with raised := none, control := .storing } := by
  cases takes with
  | refused _ listening => rw [if_pos listening]
  | passed _ clear => rw [if_neg (Bool.eq_false_iff.mp clear)]

/-- A step after which the invariant still holds is one of a lifecycle that can be
restarted. -/
theorem restartable_of_inv (inv : Inv (s, h)) (takes : Takes s action s') {h' : History}
    (inv' : Inv (s', h')) : Restartable (s, h) action (s', h') where
  refuses := by
    intro eq
    subst eq
    exact listen_of_takes takes
  proceeds := step_isSome_of_next s' inv'.alive
  starts := by
    intro eq
    subst eq
    cases takes with
    | overwrote at_ _ => exact (inv.of_assigning at_).1
    | assigned at_ _ => exact (inv.of_assigning at_).1
  survives := inv'.alive
  single := inv'.phase.running_le
  quiet stopped := delivered_of_ended (inv.phase.ended_of_stopped stopped) takes

/-- A thread is assigned over a joinable one if a loop died unjoined before the call. -/
theorem joinedFirst_of_survives (inv : Inv (s, h)) (takes : Takes s action s')
    (survives : s'.terminated = false) : JoinedFirst (s, h) action := by
  intro eq
  subst eq
  cases takes with
  | overwrote at_ _ => cases survives
  | assigned at_ empty =>
    have unjoined := (inv.of_assigning at_).2
    rw [empty] at unjoined
    exact unjoined

/-- Before each step, being restartable and having joined first are the same, and both
keep the invariant. -/
theorem restartable_iff_joinedFirst {s s' : Lifecycle H × History} (inv : Inv s)
    (taken : historyStep s action = some s') :
    (Restartable s action s' ↔ JoinedFirst s action) ∧ (JoinedFirst s action → Inv s') := by
  obtain ⟨step_, ghost⟩ := withGhost_eq_some taken
  have takes := takes_of_piece (guarded_eq_some step_).2
  have keeps : JoinedFirst s action → Inv s' := fun joinedFirst => by
    have inv' := inv.of_takes takes joinedFirst
    rw [← ghost] at inv'
    exact inv'
  exact ⟨⟨fun restartable => joinedFirst_of_survives inv takes restartable.survives,
    fun joinedFirst => restartable_of_inv inv takes (keeps joinedFirst)⟩, keeps⟩

theorem inv_init : Inv (({} : Lifecycle H), ({} : History)) := ⟨rfl, .off nofun⟩

/-- Over every order of the two threads' steps, with loops that end by exceptions at any
point: the lifecycle can be restarted throughout exactly if no call of `listen()` gets
to its assignment when a loop had ended by an exception and `stopListen()` had not
joined it before the call. -/
theorem restartable_iff (actions : List (LifecycleAction H)) :
    Always historyStep Restartable (({} : Lifecycle H), ({} : History)) actions ↔
      Always historyStep (fun s action _ => JoinedFirst s action)
        (({} : Lifecycle H), ({} : History)) actions :=
  always_iff_of_invariant
    (fun _ _ _ inv taken => (restartable_iff_joinedFirst inv taken).1)
    (fun _ _ _ inv taken restartable =>
      have ⟨agree, keeps⟩ := restartable_iff_joinedFirst inv taken
      keeps (agree.mp restartable))
    inv_init

/-- `receive()` throws in the first loop; the next `listen()` terminates the process. -/
theorem not_restartable :
    ¬ ∀ actions : List (LifecycleAction Nat),
      Always historyStep Restartable (({} : Lifecycle Nat), ({} : History)) actions := by
  intro restartable
  have always := always_iff_forall_split.mp (restartable
    ([.listen, .setListening, .construct, .assign, .loop 0 .check, .loop 0 (.receive none),
      .loop 0 .catchAll, .listen, .setListening, .construct] ++ [.assign]))
  exact absurd (always _ _ [] _ _ rfl rfl rfl).survives (by decide)

end Lifecycle

end Iqrf.Connector
