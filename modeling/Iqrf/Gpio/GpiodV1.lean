import Iqrf.Gpio.Base

/-!
# The driver on libgpiod 1

`Line` stands for the library's line object: the operations the driver calls, over the
line in the kernel, and the level that the line drives. `Documented` is what the library
says about them for a line that nobody else holds.
-/

namespace Iqrf.Gpio.GpiodV1

/-- `::gpiod::line` over the states `κ` of a line in the kernel; `ε` are its system
errors. `request` and `setDirectionOutput` leave the output value at its default. -/
structure Line (κ ε : Type*) where
  isRequested : κ → Bool
  release : κ → κ
  request : κ → GpioDirection → κ × Except ε Unit
  setDirectionInput : κ → κ × Except ε Unit
  setDirectionOutput : κ → κ × Except ε Unit
  direction : κ → Option GpioDirection
  setValue : κ → Bool → κ × Except ε Unit
  getValue : κ → Except ε Bool
  level : κ → Bool

/-- What a call throws. -/
inductive Error (ε : Type*)
  | system (error : ε)
  | unknownDirection
  deriving DecidableEq, Repr

variable {κ ε : Type*} (line : Line κ ε)

/-- A call of the library, whose errors the driver lets out. -/
def throwing (result : κ × Except ε Unit) : κ × Except (Error ε) Unit :=
  (result.1, result.2.mapError .system)

/-- The line is released if it was already initialised. -/
def freed (s : κ) : κ := if line.isRequested s then line.release s else s

def initInput (s : κ) : κ × Except (Error ε) Unit :=
  throwing (line.request (freed line s) .input)

def setValue (s : κ) (value : Bool) : κ × Except (Error ε) Unit :=
  throwing (line.setValue s value)

def initOutput (s : κ) (initialValue : Bool) : κ × Except (Error ε) Unit :=
  match line.request (freed line s) .output with
  | (s', .ok ()) => setValue line s' initialValue
  | (s', .error error) => (s', .error (.system error))

def setDirection (s : κ) : GpioDirection → κ × Except (Error ε) Unit
  | .output => throwing (line.setDirectionOutput s)
  | .input => throwing (line.setDirectionInput s)

def getDirection (s : κ) : Except (Error ε) GpioDirection :=
  match line.direction s with
  | some direction => .ok direction
  | none => .error .unknownDirection

def getValue (s : κ) : Except (Error ε) Bool := (line.getValue s).mapError .system

/-- The driver. -/
def gpiod : Base κ (Error ε) where
  initInput := initInput line
  initOutput := initOutput line
  setDirection := setDirection line
  getDirection := getDirection line
  setValue := setValue line
  getValue := getValue line

/-- The destructor. -/
def destroy (s : κ) : κ := freed line s

/-! ## What the library says -/

/-- The line is requested in a direction. -/
def Held (s : κ) (direction : GpioDirection) : Prop :=
  line.isRequested s = true ∧ line.direction s = some direction

/-- What libgpiod 1 documents about a line that nobody else holds. -/
structure Documented : Prop where
  release {s} : line.isRequested s = true → line.isRequested (line.release s) = false
  request {s} (direction : GpioDirection) : line.isRequested s = false →
    ∃ s', line.request s direction = (s', .ok ()) ∧ Held line s' direction
  setDirectionInput {s} : line.isRequested s = true →
    ∃ s', line.setDirectionInput s = (s', .ok ()) ∧ Held line s' .input
  setDirectionOutput {s} : line.isRequested s = true →
    ∃ s', line.setDirectionOutput s = (s', .ok ()) ∧ Held line s' .output ∧
      line.level s' = false
  setValue {s} (value : Bool) : Held line s .output →
    ∃ s', line.setValue s value = (s', .ok ()) ∧ Held line s' .output ∧ line.level s' = value

/-- The line is held and does what the pin does. -/
def Shows (s : κ) (pin : Pin) : Prop :=
  Held line s pin.direction ∧ ∀ level, pin = .output level → line.level s = level

variable {line} {s : κ} {pin : Pin}

theorem Shows.requested (shows_ : Shows line s pin) : line.isRequested s = true := shows_.1.1

theorem shows_input (held : Held line s .input) : Shows line s .input :=
  ⟨held, fun _ => nofun⟩

theorem shows_output {level : Bool} (held : Held line s .output) (drives : line.level s = level) :
    Shows line s (.output level) := by
  refine ⟨held, fun level' same => ?_⟩
  cases same
  exact drives

theorem isRequested_freed (documented : Documented line) (s : κ) :
    line.isRequested (freed line s) = false := by
  unfold freed
  split
  · rename_i requested
    exact documented.release requested
  · rename_i free
    exact eq_false_of_ne_true free

/-- The driver is gone and the line is free again. -/
theorem isRequested_destroy (documented : Documented line) (s : κ) :
    line.isRequested (destroy line s) = false := isRequested_freed documented s

theorem setValue_shows (documented : Documented line) (held : Held line s .output)
    (value : Bool) :
    ∃ s', setValue line s value = (s', .ok ()) ∧ Shows line s' (.output value) := by
  obtain ⟨s', set, held', drives⟩ := documented.setValue value held
  refine ⟨s', ?_, shows_output held' drives⟩
  rw [setValue, set]
  rfl

/-- An initialiser works in every state, since the line is released first. -/
theorem init_shows (documented : Documented line) (s : κ) (pin : Pin) {call : Call}
    (init : call.Init) :
    ∃ s', (gpiod line).call s call = (s', .ok ()) ∧ Shows line s' (pin.after call) := by
  have free := isRequested_freed documented s
  cases call with
  | initInput =>
    obtain ⟨s', granted, held⟩ := documented.request .input free
    refine ⟨s', ?_, shows_input held⟩
    change initInput line s = _
    rw [initInput, granted]
    rfl
  | initOutput initialValue =>
    obtain ⟨s', granted, held⟩ := documented.request .output free
    obtain ⟨s'', set, shows_⟩ := setValue_shows documented held initialValue
    refine ⟨s'', ?_, shows_⟩
    change initOutput line s initialValue = _
    rw [initOutput, granted]
    exact set
  | setDirection direction => exact init.elim
  | setValue value => exact init.elim

/-- The driver does what a pin does, initialised again or not. -/
theorem gpiod_realises (documented : Documented line) :
    Realises (gpiod line) line.level (Shows line) fun _ => True where
  getDirection {s pin} shows_ := by
    change getDirection line s = _
    rw [getDirection, shows_.1.2]
  level shows_ := shows_.2 _ rfl
  call {s pin call} shows_ fits _ := by
    cases call with
    | initInput => exact init_shows documented s pin trivial
    | initOutput initialValue => exact init_shows documented s pin trivial
    | setDirection direction =>
      cases direction with
      | input =>
        obtain ⟨s', set, held⟩ := documented.setDirectionInput shows_.requested
        refine ⟨s', ?_, shows_input held⟩
        change throwing (line.setDirectionInput s) = _
        rw [set]
        rfl
      | output =>
        obtain ⟨s', set, held, low⟩ := documented.setDirectionOutput shows_.requested
        refine ⟨s', ?_, shows_output held low⟩
        change throwing (line.setDirectionOutput s) = _
        rw [set]
        rfl
    | setValue value =>
      have output : pin.direction = .output := fits
      have held := shows_.1
      rw [output] at held
      obtain ⟨s', set, shows'⟩ := setValue_shows documented held value
      refine ⟨s', set, ?_⟩
      rw [Pin.after, output]
      exact shows'

end Iqrf.Gpio.GpiodV1
