import Mathlib.Logic.Function.Basic

/-!
# GPIO drivers

`Base` is the interface of `gpio/Base.h`: the calls a driver takes, over a state that
stays behind also when a call throws. `Pin` is what a driver is for, a line that is an
input or an output with a level; `Realises` says that a driver does what the pin does.
`GpioMock` is the driver of the tests, which refuses every call but the initialisers on
a line that is not initialised, and a value for a line that is not an output.
-/

namespace Iqrf.Gpio

/-- GPIO direction. -/
inductive GpioDirection
  | input
  | output
  deriving DecidableEq, Repr

/-- The virtual functions that change a line. -/
inductive Call
  | initInput
  | initOutput (initialValue : Bool)
  | setDirection (direction : GpioDirection)
  | setValue (value : Bool)
  deriving DecidableEq, Repr

/-- A driver with state `σ` whose calls throw an `ε`. -/
structure Base (σ ε : Type*) where
  initInput : σ → σ × Except ε Unit
  initOutput : σ → Bool → σ × Except ε Unit
  setDirection : σ → GpioDirection → σ × Except ε Unit
  getDirection : σ → Except ε GpioDirection
  setValue : σ → Bool → σ × Except ε Unit
  getValue : σ → Except ε Bool

/-- One call. -/
def Base.call {σ ε : Type*} (driver : Base σ ε) (s : σ) : Call → σ × Except ε Unit
  | .initInput => driver.initInput s
  | .initOutput initialValue => driver.initOutput s initialValue
  | .setDirection direction => driver.setDirection s direction
  | .setValue value => driver.setValue s value

/-! ## Pins -/

/-- The call initialises the line. -/
def Call.Init : Call → Prop
  | .initInput | .initOutput _ => True
  | .setDirection _ | .setValue _ => False

instance : ∀ call, Decidable (Call.Init call)
  | .initInput | .initOutput _ => inferInstanceAs (Decidable True)
  | .setDirection _ | .setValue _ => inferInstanceAs (Decidable False)

/-- The direction asked for so far. -/
def Call.asks (direction : GpioDirection) : Call → GpioDirection
  | .initInput => .input
  | .initOutput _ => .output
  | .setDirection newDirection => newDirection
  | .setValue _ => direction

/-- A value is set only while the direction is output. -/
def Call.Fits (direction : GpioDirection) : Call → Prop
  | .setValue _ => direction = .output
  | _ => True

/-- Each call fits the direction asked for before it. -/
def FittingFrom : GpioDirection → List Call → Prop
  | _, [] => True
  | direction, call :: calls => call.Fits direction ∧ FittingFrom (call.asks direction) calls

/-- A sequence that begins with an initialiser and sets values only while the direction
is output. -/
def Fitting : List Call → Prop
  | [] => False
  | call :: calls => call.Init ∧ FittingFrom (call.asks .input) calls

/-- A line in use. The level of an input is not the driver's. -/
inductive Pin
  | input
  | output (level : Bool)
  deriving DecidableEq, Repr

namespace Pin

def direction : Pin → GpioDirection
  | input => .input
  | output _ => .output

/-- An output drives its line low until a value is set. -/
def of : GpioDirection → Bool → Pin
  | .input, _ => input
  | .output, level => output level

def after (pin : Pin) : Call → Pin
  | .initInput => input
  | .initOutput initialValue => output initialValue
  | .setDirection direction => of direction false
  | .setValue value => of pin.direction value

@[simp] theorem direction_of (direction : GpioDirection) (level : Bool) :
    (of direction level).direction = direction := by
  cases direction <;> rfl

theorem direction_after (pin : Pin) (call : Call) :
    (pin.after call).direction = call.asks pin.direction := by
  cases call with
  | initInput => rfl
  | initOutput initialValue => rfl
  | setDirection direction => exact direction_of direction false
  | setValue value => exact direction_of pin.direction value

end Pin

/-- In the states that show a pin, the driver reports its direction, drives its level,
and takes each admitted call that fits to the pin after it. -/
structure Realises {σ ε : Type*} (driver : Base σ ε) (level : σ → Bool) (Shows : σ → Pin → Prop)
    (admitted : Call → Prop) : Prop where
  getDirection {s pin} : Shows s pin → driver.getDirection s = .ok pin.direction
  level {s value} : Shows s (.output value) → level s = value
  call {s pin call} : Shows s pin → call.Fits pin.direction → admitted call →
    ∃ s', driver.call s call = (s', .ok ()) ∧ Shows s' (pin.after call)

/-! ## The mock -/

/-- GPIO mock state. -/
inductive GpioMockState
  | uninitialized
  | initialized
  deriving DecidableEq, Repr

/-- What the mock throws. -/
inductive RuntimeError
  | lineIsNotInitialized
  | cannotSetValue
  | cannotSetInputValue
  deriving DecidableEq, Repr

/-- The text the exception carries. -/
def RuntimeError.what : RuntimeError → String
  | lineIsNotInitialized => "GPIO line is not initialized"
  | cannotSetValue => "Cannot set value on GPIO line that is not an output"
  | cannotSetInputValue => "Cannot set input value on GPIO line that is not an input"

/-- The mock, with the initialisers of its members. -/
structure GpioMock where
  direction : GpioDirection := .input
  state : GpioMockState := .uninitialized
  value : Bool := false
  deriving DecidableEq, Repr

namespace GpioMock

def initInput (mock : GpioMock) : GpioMock :=
  { mock with direction := .input, state := .initialized }

def initOutput (mock : GpioMock) (initialValue : Bool) : GpioMock :=
  { mock with direction := .output, value := initialValue, state := .initialized }

def setDirection (mock : GpioMock) (newDirection : GpioDirection) :
    GpioMock × Except RuntimeError Unit :=
  if mock.state = .uninitialized then (mock, .error .lineIsNotInitialized)
  else ({ mock with direction := newDirection }, .ok ())

def getDirection (mock : GpioMock) : Except RuntimeError GpioDirection :=
  if mock.state = .uninitialized then .error .lineIsNotInitialized else .ok mock.direction

def setValue (mock : GpioMock) (newValue : Bool) : GpioMock × Except RuntimeError Unit :=
  if mock.state = .uninitialized then (mock, .error .lineIsNotInitialized)
  else if mock.direction ≠ .output then (mock, .error .cannotSetValue)
  else ({ mock with value := newValue }, .ok ())

def setInputValue (mock : GpioMock) (newValue : Bool) : GpioMock × Except RuntimeError Unit :=
  if mock.direction ≠ .input then (mock, .error .cannotSetInputValue)
  else ({ mock with value := newValue }, .ok ())

def getValue (mock : GpioMock) : Except RuntimeError Bool :=
  if mock.state = .uninitialized then .error .lineIsNotInitialized else .ok mock.value

/-- An initialised output that drives a value. -/
def driving (value : Bool) : GpioMock := ⟨.output, .initialized, value⟩

/-- A value is taken by a line that is driven already, whatever it drives. -/
@[simp] theorem setValue_driving (value newValue : Bool) :
    (driving value).setValue newValue = (driving newValue, .ok ()) := rfl

end GpioMock

/-- The mock as a driver. -/
def gpioMock : Base GpioMock RuntimeError where
  initInput mock := (mock.initInput, .ok ())
  initOutput mock initialValue := (mock.initOutput initialValue, .ok ())
  setDirection := GpioMock.setDirection
  getDirection := GpioMock.getDirection
  setValue := GpioMock.setValue
  getValue := GpioMock.getValue

end Iqrf.Gpio
