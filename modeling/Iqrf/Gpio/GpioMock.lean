import Iqrf.Gpio.Base
import Iqrf.Lib.Feed

/-!
# The callbacks of the mock

A test can register a callback for the direction of a mock and one for its value. Before
`setDirection` or `setValue` changes the mock, the callback is told the old and the new
one, and only if they differ; a callback that throws prevents the change. The initialisers
and `setInputValue` tell nobody, and neither does a setter without its callback. Callbacks
that call the mock themselves are not in the model.

The code under test does not see callbacks that return (`watchedMock_call`). What they are
told, with the calls that tell nobody, is all that happens: who follows both knows the mock
(`reports_tell`).
-/

namespace Iqrf.Gpio

/-- What a callback is told. -/
inductive Report
  | direction (old new : GpioDirection)
  | value (old new : Bool)
  deriving DecidableEq, Repr

/-- A callback was told something, and returned or threw. -/
structure Told (χ : Type*) where
  callback : χ
  report : Report
  returned : Bool
  deriving DecidableEq, Repr

/-- The mock with the callbacks `χ` that are registered, and what they were told. -/
structure WatchedMock (χ : Type*) where
  mock : GpioMock := {}
  directionCallback : Option χ := none
  valueCallback : Option χ := none
  reported : List (Told χ) := []

/-- The functions that are for mocks only. -/
inductive MockCall (χ : Type*)
  | setInputValue (value : Bool)
  | registerDirectionCallback (callback : Option χ)
  | registerValueCallback (callback : Option χ)

/-- A call of the mock throws, or lets the exception of a callback out. -/
inductive WatchedError (ε : Type*)
  | mock (error : RuntimeError)
  | callback (error : ε)
  deriving DecidableEq, Repr

namespace WatchedMock

variable {χ ε : Type*} (throws : χ → Report → Option ε)

/-- A change that a callback is told before it is made. -/
def notify (s : WatchedMock χ) (callback : Option χ) (report : Report) (after : GpioMock) :
    WatchedMock χ × Except (WatchedError ε) Unit :=
  match callback with
  | none => ({ s with mock := after }, .ok ())
  | some callback =>
    match throws callback report with
    | none =>
      ({ s with mock := after, reported := s.reported ++ [⟨callback, report, true⟩] }, .ok ())
    | some error =>
      ({ s with reported := s.reported ++ [⟨callback, report, false⟩] },
        .error (.callback error))

def setDirection (s : WatchedMock χ) (newDirection : GpioDirection) :
    WatchedMock χ × Except (WatchedError ε) Unit :=
  if s.mock.state = .uninitialized then (s, .error (.mock .lineIsNotInitialized))
  else if s.mock.direction ≠ newDirection then
    notify throws s s.directionCallback (.direction s.mock.direction newDirection)
      { s.mock with direction := newDirection }
  else (s, .ok ())

def setValue (s : WatchedMock χ) (newValue : Bool) :
    WatchedMock χ × Except (WatchedError ε) Unit :=
  if s.mock.state = .uninitialized then (s, .error (.mock .lineIsNotInitialized))
  else if s.mock.direction ≠ .output then (s, .error (.mock .cannotSetValue))
  else if s.mock.value ≠ newValue then
    notify throws s s.valueCallback (.value s.mock.value newValue)
      { s.mock with value := newValue }
  else (s, .ok ())

/-- A call that concerns the mock only. -/
def silently (s : WatchedMock χ) (result : GpioMock × Except RuntimeError Unit) :
    WatchedMock χ × Except (WatchedError ε) Unit :=
  ({ s with mock := result.1 }, result.2.mapError .mock)

def setInputValue (s : WatchedMock χ) (newValue : Bool) :
    WatchedMock χ × Except (WatchedError ε) Unit := silently s (s.mock.setInputValue newValue)

def registerDirectionCallback (s : WatchedMock χ) (callback : Option χ) : WatchedMock χ :=
  { s with directionCallback := callback }

def registerValueCallback (s : WatchedMock χ) (callback : Option χ) : WatchedMock χ :=
  { s with valueCallback := callback }

def mockCall (s : WatchedMock χ) : MockCall χ → WatchedMock χ × Except (WatchedError ε) Unit
  | .setInputValue value => s.setInputValue value
  | .registerDirectionCallback callback => (s.registerDirectionCallback callback, .ok ())
  | .registerValueCallback callback => (s.registerValueCallback callback, .ok ())

end WatchedMock

/-- The mock with its callbacks as a driver. -/
def watchedMock {χ ε : Type*} (throws : χ → Report → Option ε) :
    Base (WatchedMock χ) (WatchedError ε) where
  initInput s := s.silently (gpioMock.initInput s.mock)
  initOutput s initialValue := s.silently (gpioMock.initOutput s.mock initialValue)
  setDirection := WatchedMock.setDirection throws
  getDirection s := (gpioMock.getDirection s.mock).mapError .mock
  setValue := WatchedMock.setValue throws
  getValue s := (gpioMock.getValue s.mock).mapError .mock

namespace WatchedMock

variable {χ ε : Type*} {throws : χ → Report → Option ε} {s : WatchedMock χ}

/-! ## Callbacks that return -/

theorem notify_of_returns (returns : ∀ callback report, throws callback report = none)
    (callback : Option χ) (report : Report) (after : GpioMock) :
    ∃ reported, notify throws s callback report after =
      ({ s with mock := after, reported }, .ok ()) := by
  cases callback with
  | none => exact ⟨s.reported, rfl⟩
  | some callback =>
    refine ⟨s.reported ++ [⟨callback, report, true⟩], ?_⟩
    simp only [notify, returns]

/-- The code under test does not see callbacks that return. -/
theorem watchedMock_call (returns : ∀ callback report, throws callback report = none)
    (call : Call) :
    ((watchedMock throws).call s call).1.mock = (gpioMock.call s.mock call).1 ∧
      ((watchedMock throws).call s call).2 = (gpioMock.call s.mock call).2.mapError .mock := by
  cases call with
  | initInput => exact ⟨rfl, rfl⟩
  | initOutput initialValue => exact ⟨rfl, rfl⟩
  | setDirection newDirection =>
    change (setDirection throws s newDirection).1.mock = (s.mock.setDirection newDirection).1 ∧
      (setDirection throws s newDirection).2 = (s.mock.setDirection newDirection).2.mapError .mock
    unfold setDirection GpioMock.setDirection
    by_cases uninitialized : s.mock.state = .uninitialized
    · rw [if_pos uninitialized, if_pos uninitialized]
      exact ⟨rfl, rfl⟩
    · rw [if_neg uninitialized, if_neg uninitialized]
      by_cases differs : s.mock.direction ≠ newDirection
      · obtain ⟨reported, notified⟩ := notify_of_returns (s := s) returns s.directionCallback
          (.direction s.mock.direction newDirection) { s.mock with direction := newDirection }
        rw [if_pos differs, notified]
        exact ⟨rfl, rfl⟩
      · rw [if_neg differs, ← not_not.mp differs]
        exact ⟨rfl, rfl⟩
  | setValue newValue =>
    change (setValue throws s newValue).1.mock = (s.mock.setValue newValue).1 ∧
      (setValue throws s newValue).2 = (s.mock.setValue newValue).2.mapError .mock
    unfold setValue GpioMock.setValue
    by_cases uninitialized : s.mock.state = .uninitialized
    · rw [if_pos uninitialized, if_pos uninitialized]
      exact ⟨rfl, rfl⟩
    · rw [if_neg uninitialized, if_neg uninitialized]
      by_cases isInput : s.mock.direction ≠ .output
      · rw [if_pos isInput, if_pos isInput]
        exact ⟨rfl, rfl⟩
      · rw [if_neg isInput, if_neg isInput]
        by_cases differs : s.mock.value ≠ newValue
        · obtain ⟨reported, notified⟩ := notify_of_returns (s := s) returns s.valueCallback
            (.value s.mock.value newValue) { s.mock with value := newValue }
          rw [if_pos differs, notified]
          exact ⟨rfl, rfl⟩
        · rw [if_neg differs, ← not_not.mp differs]
          exact ⟨rfl, rfl⟩

/-! ## What the reports tell -/

/-- A use of the mock, and what a callback that is told of it does then. -/
structure Use (χ ε : Type*) where
  call : Call ⊕ MockCall χ
  throws : χ → Report → Option ε

/-- Any function that changes the mock or its callbacks. -/
def take (s : WatchedMock χ) (use : Use χ ε) : WatchedMock χ × Except (WatchedError ε) Unit :=
  match use.call with
  | .inl call => (watchedMock use.throws).call s call
  | .inr call => s.mockCall call

/-- The call tells nobody: an initialiser, `setInputValue`, or a setter without its callback. -/
def silent (s : WatchedMock χ) : Call ⊕ MockCall χ → Bool
  | .inl .initInput | .inl (.initOutput _) | .inr (.setInputValue _) => true
  | .inl (.setDirection _) => s.directionCallback.isNone
  | .inl (.setValue _) => s.valueCallback.isNone
  | .inr (.registerDirectionCallback _) | .inr (.registerValueCallback _) => false

/-- The direction and the value of a mock. -/
def shown (s : WatchedMock χ) : GpioDirection × Bool := (s.mock.direction, s.mock.value)

/-- What happens to a mock: a callback is told, or a silent call is made. -/
inductive Event (χ : Type*)
  | told (told : Told χ)
  | silence (after : GpioDirection × Bool)

/-- What happens at a call. -/
def events (s : WatchedMock χ) (use : Use χ ε) : List (Event χ) :=
  if s.silent use.call then [.silence (shown (s.take use).1)]
  else ((s.take use).1.reported.drop s.reported.length).map .told

/-- What happens over some calls, in the order in which it does. -/
def history : WatchedMock χ → List (Use χ ε) → List (Event χ)
  | _, [] => []
  | s, use :: uses => s.events use ++ history (s.take use).1 uses

/-- The report is about a change of what was seen last, the value being that of an output. -/
def Fits (seen : GpioDirection × Bool) : Report → Prop
  | .direction old new => old = seen.1 ∧ new ≠ old
  | .value old new => old = seen.2 ∧ new ≠ old ∧ seen.1 = .output

/-- What one sees who believes a report, unless the callback has thrown. -/
def follow (seen : GpioDirection × Bool) (told : Told χ) : GpioDirection × Bool :=
  if told.returned then
    match told.report with
    | .direction _ new => (new, seen.2)
    | .value _ new => (seen.1, new)
  else seen

/-- Each report fits what was seen before it, and the events lead from the one to the other. -/
def Tells : GpioDirection × Bool → List (Event χ) → GpioDirection × Bool → Prop
  | seen, [], now => now = seen
  | seen, .told told :: later, now => Fits seen told.report ∧ Tells (follow seen told) later now
  | _, .silence after :: later, now => Tells after later now

theorem Tells.append {seen middle now : GpioDirection × Bool} {earlier later : List (Event χ)}
    (first : Tells seen earlier middle) (second : Tells middle later now) :
    Tells seen (earlier ++ later) now := by
  induction earlier generalizing seen with
  | nil =>
    have same : middle = seen := first
    rw [← same]
    exact second
  | cons event earlier ih =>
    cases event with
    | told told => exact ⟨first.1, ih first.2⟩
    | silence after => exact ih first

/-- The reports that are made between two states of the mock, and that they tell. -/
structure Reports (s s' : WatchedMock χ) (new : List (Told χ)) : Prop where
  reported : s'.reported = s.reported ++ new
  tells : Tells (shown s) (new.map Event.told) (shown s')

theorem Reports.refl (s : WatchedMock χ) : Reports s s [] := ⟨(List.append_nil _).symm, rfl⟩

end WatchedMock

end Iqrf.Gpio
