import Iqrf.Gpio.Base

/-!
# The driver on libgpiod 2

`Chip` stands for the library's chip and request objects. The driver keeps the request
it was granted; an initialiser asks for a new request first and destroys the one it
replaces afterwards, so a second one asks for a line that is still held.
-/

namespace Iqrf.Gpio.GpiodV2

/-- `::gpiod::chip` with the `::gpiod::line_request` objects `ρ` that it grants, over the
states `κ` of a line in the kernel; `ε` are its system errors. `doRequest` takes the line
settings, the output value if one is given; `holder` is the request that holds the line
and `level` what the line drives. -/
structure Chip (κ ρ ε : Type*) where
  doRequest : κ → GpioDirection → Option Bool → κ × Except ε ρ
  destroy : κ → ρ → κ
  reconfigureLines : κ → ρ → GpioDirection → κ × Except ε Unit
  lineInfoDirection : κ → Option GpioDirection
  setValue : κ → ρ → Bool → κ × Except ε Unit
  getValue : κ → ρ → Except ε Bool
  holder : κ → Option ρ
  level : κ → Bool
  busy : ε

/-- What a call throws. A call through the null pointer is undefined in the source and
fails here. -/
inductive Error (ε : Type*)
  | system (error : ε)
  | unknownDirection
  | nullRequest
  deriving DecidableEq, Repr

/-- The driver, without the chip and the names of the line and of its consumer. -/
structure Gpiod (κ ρ : Type*) where
  kernel : κ
  request : Option ρ := none
  deriving DecidableEq

variable {κ ρ ε : Type*} (chip : Chip κ ρ ε)

/-- What becomes of the line when the driver gives a request up. -/
def dropRequest (k : κ) : Option ρ → κ
  | some request => chip.destroy k request
  | none => k

/-- The assignment to `request`: the new one is made before the old one is destroyed. -/
def replaceRequest (s : Gpiod κ ρ) (direction : GpioDirection) (value : Option Bool) :
    Gpiod κ ρ × Except (Error ε) Unit :=
  match chip.doRequest s.kernel direction value with
  | (k, .ok request) => (⟨dropRequest chip k s.request, some request⟩, .ok ())
  | (k, .error error) => ({ s with kernel := k }, .error (.system error))

def initInput (s : Gpiod κ ρ) : Gpiod κ ρ × Except (Error ε) Unit :=
  replaceRequest chip s .input none

def initOutput (s : Gpiod κ ρ) (initialValue : Bool) : Gpiod κ ρ × Except (Error ε) Unit :=
  replaceRequest chip s .output (some initialValue)

/-- A call through `request`. -/
def onRequest (s : Gpiod κ ρ) (call : κ → ρ → κ × Except ε Unit) :
    Gpiod κ ρ × Except (Error ε) Unit :=
  match s.request with
  | some request =>
    let result := call s.kernel request
    ({ s with kernel := result.1 }, result.2.mapError .system)
  | none => (s, .error .nullRequest)

def setDirection (s : Gpiod κ ρ) (direction : GpioDirection) :
    Gpiod κ ρ × Except (Error ε) Unit :=
  onRequest s fun k request => chip.reconfigureLines k request direction

def getDirection (s : Gpiod κ ρ) : Except (Error ε) GpioDirection :=
  match chip.lineInfoDirection s.kernel with
  | some direction => .ok direction
  | none => .error .unknownDirection

def setValue (s : Gpiod κ ρ) (value : Bool) : Gpiod κ ρ × Except (Error ε) Unit :=
  onRequest s fun k request => chip.setValue k request value

def getValue (s : Gpiod κ ρ) : Except (Error ε) Bool :=
  match s.request with
  | some request => (chip.getValue s.kernel request).mapError .system
  | none => .error .nullRequest

/-- The driver. -/
def gpiod : Base (Gpiod κ ρ) (Error ε) where
  initInput := initInput chip
  initOutput := initOutput chip
  setDirection := setDirection chip
  getDirection := getDirection chip
  setValue := setValue chip
  getValue := getValue chip

/-- The destructor, which destroys the request with the other members. -/
def destroy (s : Gpiod κ ρ) : κ := dropRequest chip s.kernel s.request

/-! ## What the library says -/

/-- A request holds the line in a direction. -/
def Held (k : κ) (request : ρ) (direction : GpioDirection) : Prop :=
  chip.holder k = some request ∧ chip.lineInfoDirection k = some direction

/-- What libgpiod 2 documents about a line that nobody else holds. -/
structure Documented : Prop where
  busy {k request} (direction : GpioDirection) (value : Option Bool) :
    chip.holder k = some request → chip.doRequest k direction value = (k, .error chip.busy)
  doRequest {k} (direction : GpioDirection) (value : Option Bool) : chip.holder k = none →
    ∃ k' request, chip.doRequest k direction value = (k', .ok request) ∧
      Held chip k' request direction ∧ (direction = .output → chip.level k' = value.getD false)
  destroy {k request} : chip.holder k = some request →
    chip.holder (chip.destroy k request) = none
  reconfigureLines {k request} (direction : GpioDirection) : chip.holder k = some request →
    ∃ k', chip.reconfigureLines k request direction = (k', .ok ()) ∧
      Held chip k' request direction ∧ (direction = .output → chip.level k' = false)
  setValue {k request} (value : Bool) : Held chip k request .output →
    ∃ k', chip.setValue k request value = (k', .ok ()) ∧ Held chip k' request .output ∧
      chip.level k' = value

/-- The driver's request holds the line, which does what the pin does. -/
def Shows (s : Gpiod κ ρ) (pin : Pin) : Prop :=
  (∃ request, s.request = some request ∧ Held chip s.kernel request pin.direction) ∧
    ∀ level, pin = .output level → chip.level s.kernel = level

variable {chip} {s : Gpiod κ ρ} {pin : Pin} {k : κ} {request : ρ}

theorem shows_of {direction : GpioDirection} {value : Bool} (held : Held chip k request direction)
    (drives : direction = .output → chip.level k = value) :
    Shows chip ⟨k, some request⟩ (.of direction value) := by
  refine ⟨⟨request, rfl, ?_⟩, fun level same => ?_⟩
  · rw [Pin.direction_of]
    exact held
  · cases direction with
    | input => cases same
    | output =>
      cases same
      exact drives rfl

theorem onRequest_of_ok {k' : κ} {call : κ → ρ → κ × Except ε Unit}
    (kept : s.request = some request) (taken : call s.kernel request = (k', .ok ())) :
    onRequest s call = (⟨k', some request⟩, .ok ()) := by
  rw [onRequest, kept]
  simp only [taken]
  rfl

theorem setDirection_of_ok {k' : κ} {direction : GpioDirection} (kept : s.request = some request)
    (taken : chip.reconfigureLines s.kernel request direction = (k', .ok ())) :
    setDirection chip s direction = (⟨k', some request⟩, .ok ()) := by
  rw [setDirection]
  exact onRequest_of_ok kept taken

theorem setValue_of_ok {k' : κ} {value : Bool} (kept : s.request = some request)
    (taken : chip.setValue s.kernel request value = (k', .ok ())) :
    setValue chip s value = (⟨k', some request⟩, .ok ()) := by
  rw [setValue]
  exact onRequest_of_ok kept taken

/-- The driver is gone and the line is free again. -/
theorem holder_destroy (documented : Documented chip) (shows_ : Shows chip s pin) :
    chip.holder (destroy chip s) = none := by
  obtain ⟨⟨request, kept, held⟩, -⟩ := shows_
  rw [destroy, kept]
  exact documented.destroy held.1

/-- The first request of a driver. -/
theorem replaceRequest_shows (documented : Documented chip) (free : chip.holder k = none)
    (direction : GpioDirection) (value : Option Bool) :
    ∃ s', replaceRequest chip ⟨k, none⟩ direction value = (s', .ok ()) ∧
      Shows chip s' (.of direction (value.getD false)) := by
  obtain ⟨k', request, granted, held, drives⟩ := documented.doRequest direction value free
  refine ⟨⟨k', some request⟩, ?_, shows_of held drives⟩
  rw [replaceRequest, granted]
  rfl

/-- A further request finds the line held by the one before it. -/
theorem replaceRequest_busy (documented : Documented chip) (shows_ : Shows chip s pin)
    (direction : GpioDirection) (value : Option Bool) :
    replaceRequest chip s direction value = (s, .error (.system chip.busy)) := by
  obtain ⟨⟨request, kept, held⟩, -⟩ := shows_
  rw [replaceRequest, documented.busy direction value held.1]

theorem init_shows (documented : Documented chip) (free : chip.holder k = none) (pin : Pin)
    {call : Call} (init : call.Init) :
    ∃ s', (gpiod chip).call ⟨k, none⟩ call = (s', .ok ()) ∧ Shows chip s' (pin.after call) := by
  cases call with
  | initInput => exact replaceRequest_shows documented free .input none
  | initOutput initialValue =>
    exact replaceRequest_shows documented free .output (some initialValue)
  | setDirection direction => exact init.elim
  | setValue value => exact init.elim

theorem init_busy (documented : Documented chip) (shows_ : Shows chip s pin) {call : Call}
    (init : call.Init) : (gpiod chip).call s call = (s, .error (.system chip.busy)) := by
  cases call with
  | initInput => exact replaceRequest_busy documented shows_ .input none
  | initOutput initialValue =>
    exact replaceRequest_busy documented shows_ .output (some initialValue)
  | setDirection direction => exact init.elim
  | setValue value => exact init.elim

/-- The driver does what a pin does until it is initialised again. -/
theorem gpiod_realises (documented : Documented chip) :
    Realises (gpiod chip) (fun s => chip.level s.kernel) (Shows chip) fun call => ¬ call.Init where
  getDirection {s pin} shows_ := by
    obtain ⟨⟨request, -, held⟩, -⟩ := shows_
    change getDirection chip s = _
    rw [getDirection, held.2]
  level shows_ := shows_.2 _ rfl
  call {s pin call} shows_ fits again := by
    obtain ⟨⟨request, kept, held⟩, -⟩ := shows_
    cases call with
    | initInput => exact absurd trivial again
    | initOutput initialValue => exact absurd trivial again
    | setDirection direction =>
      obtain ⟨k', set, held', drives⟩ := documented.reconfigureLines direction held.1
      exact ⟨⟨k', some request⟩, setDirection_of_ok kept set, shows_of held' drives⟩
    | setValue value =>
      have output : pin.direction = .output := fits
      rw [output] at held
      obtain ⟨k', set, held', drives⟩ := documented.setValue value held
      refine ⟨⟨k', some request⟩, setValue_of_ok kept set, ?_⟩
      rw [Pin.after, output]
      exact shows_of held' fun _ => drives

end Iqrf.Gpio.GpiodV2
