import Iqrf.Gpio.Base
import Iqrf.Gpio.Config
import Iqrf.Lib.Feed

/-!
# The driver on FreeBSD

`Device` stands for the GPIO controllers of the system, which are opened as files and
driven by `ioctl`; `Documented` is what the system says about them. A pin that is turned
into an output keeps what its latch holds, so the driver does what a pin does as long as
outputs are set up by `initOutput` only.

The driver owns a file descriptor, and its constructor may throw before or after it is
opened. `descriptors_lifecycle` says that it is closed once on every path.
-/

namespace Iqrf.Gpio.FreeBsd

/-- `struct gpio_pin`. -/
structure GpioPin where
  gpPin : UInt32
  gpName : Name := []
  gpCaps : UInt32 := 0
  gpFlags : UInt32 := 0
  deriving DecidableEq

def gpioPinInput : UInt32 := 0x0001

def gpioPinOutput : UInt32 := 0x0002

def gpioMaxName : Nat := 64

/-- The controllers over the states `κ` of the system; `ε` are its error numbers. A file is
known by its descriptor. `descriptors` are those that are open; `hasPin` says that the file
is open and is a controller with such a pin, and `level` is what the pin drives. -/
structure Device (κ ε : Type*) where
  openFile : κ → Name → κ × Except ε Nat
  close : κ → Nat → κ
  gpioSetName : κ → Nat → GpioPin → κ × Except ε Unit
  gpioGetConfig : κ → Nat → UInt32 → Except ε GpioPin
  gpioSetConfig : κ → Nat → GpioPin → κ × Except ε Unit
  gpioSet : κ → Nat → UInt32 → UInt32 → κ × Except ε Unit
  gpioGet : κ → Nat → UInt32 → Except ε UInt32
  descriptors : κ → List Nat
  hasPin : κ → Nat → UInt32 → Bool
  level : κ → Nat → UInt32 → Bool

/-- What the driver throws: an argument that it refuses, or what the system reports. -/
inductive Error (ε : Type*)
  | emptyChipName
  | failedToOpen (error : ε)
  | failedToSetConsumerName (error : ε)
  | failedToGetConfiguration (error : ε)
  | failedToSetDirection (error : ε)
  | failedToSetValue (error : ε)
  | failedToGetValue (error : ε)
  deriving DecidableEq, Repr

/-- The text the exception carries. -/
def Error.what {ε : Type*} : Error ε → String
  | emptyChipName => "GPIO chip name cannot be empty"
  | failedToOpen _ => "Failed to open GPIO chip"
  | failedToSetConsumerName _ => "Failed to set GPIO consumer name"
  | failedToGetConfiguration _ => "Failed to get GPIO pin configuration"
  | failedToSetDirection _ => "Failed to set GPIO direction"
  | failedToSetValue _ => "Failed to set GPIO value"
  | failedToGetValue _ => "Failed to get GPIO value"

/-- The driver, once its constructor has returned. -/
structure GpioFreeBsd (κ : Type*) where
  kernel : κ
  fd : Nat
  line : UInt32

variable {κ ε : Type*} (device : Device κ ε)

/-- An `ioctl` that may change the system. -/
def control (s : GpioFreeBsd κ) (result : κ × Except ε Unit) (wrap : ε → Error ε) :
    GpioFreeBsd κ × Except (Error ε) Unit :=
  ({ s with kernel := result.1 }, result.2.mapError wrap)

def getPinConfig (s : GpioFreeBsd κ) : Except (Error ε) GpioPin :=
  (device.gpioGetConfig s.kernel s.fd s.line).mapError .failedToGetConfiguration

/-- The flags of a direction. -/
def directionFlags : GpioDirection → UInt32
  | .input => gpioPinInput
  | .output => gpioPinOutput

def setDirection (s : GpioFreeBsd κ) (direction : GpioDirection) :
    GpioFreeBsd κ × Except (Error ε) Unit :=
  match getPinConfig device s with
  | .error e => (s, .error e)
  | .ok pin =>
    control s (device.gpioSetConfig s.kernel s.fd { pin with gpFlags := directionFlags direction })
      .failedToSetDirection

/-- Whatever is not an input is reported as an output. -/
def getDirection (s : GpioFreeBsd κ) : Except (Error ε) GpioDirection :=
  (getPinConfig device s).map fun pin =>
    if pin.gpFlags &&& gpioPinInput ≠ 0 then .input else .output

def setValue (s : GpioFreeBsd κ) (value : Bool) : GpioFreeBsd κ × Except (Error ε) Unit :=
  control s (device.gpioSet s.kernel s.fd s.line (if value then 1 else 0)) .failedToSetValue

def getValue (s : GpioFreeBsd κ) : Except (Error ε) Bool :=
  ((device.gpioGet s.kernel s.fd s.line).mapError .failedToGetValue).map fun value =>
    decide (value ≠ 0)

def initInput (s : GpioFreeBsd κ) : GpioFreeBsd κ × Except (Error ε) Unit :=
  setDirection device s .input

def initOutput (s : GpioFreeBsd κ) (initialValue : Bool) :
    GpioFreeBsd κ × Except (Error ε) Unit :=
  match setDirection device s .output with
  | (s, .ok ()) => setValue device s initialValue
  | (s, .error e) => (s, .error e)

/-- The driver. -/
def gpioFreeBsd : Base (GpioFreeBsd κ) (Error ε) where
  initInput := initInput device
  initOutput := initOutput device
  setDirection := setDirection device
  getDirection := getDirection device
  setValue := setValue device
  getValue := getValue device

/-! ## Its life -/

/-- `GpioFreeBsd::setConsumerName`: the name is cut to what fits, and the file is closed
before the exception. -/
def setConsumerName (k : κ) (fd : Nat) (line : UInt32) (name : Name) :
    κ × Except (Error ε) Unit :=
  match device.gpioSetName k fd { gpPin := line, gpName := name.take (gpioMaxName - 1) } with
  | (k, .ok ()) => (k, .ok ())
  | (k, .error e) => (device.close k fd, .error (.failedToSetConsumerName e))

def devPrefix : Name := ['/', 'd', 'e', 'v', '/']

/-- The file of a chip. -/
def path (chip : Name) : Name := if chip.take 5 = devPrefix then chip else devPrefix ++ chip

/-- `GpioFreeBsd::GpioFreeBsd`: the system it leaves, and the object unless it throws. The
line is cut to 32 bits. -/
def construct (config : GpioConfig) (k : κ) : κ × Except (Error ε) (GpioFreeBsd κ) :=
  if config.chip.isEmpty then (k, .error .emptyChipName)
  else
    match device.openFile k (path config.chip) with
    | (k, .error e) => (k, .error (.failedToOpen e))
    | (k, .ok fd) =>
      if config.consumerName.isEmpty then (k, .ok ⟨k, fd, .ofNat config.line⟩)
      else
        match setConsumerName device k fd (.ofNat config.line) config.consumerName with
        | (k, .error e) => (k, .error e)
        | (k, .ok ()) => (k, .ok ⟨k, fd, .ofNat config.line⟩)

/-- `GpioFreeBsd::~GpioFreeBsd`. -/
def destroy (s : GpioFreeBsd κ) : κ := device.close s.kernel s.fd

/-! ## What the system says -/

/-- What FreeBSD documents about files: `close` is what closes an open one. -/
structure Files : Prop where
  openFile {k k' path fd} : device.openFile k path = (k', .ok fd) →
    device.descriptors k' = fd :: device.descriptors k
  openFile_error {k k' path e} : device.openFile k path = (k', .error e) →
    device.descriptors k' = device.descriptors k
  close (k fd) : device.descriptors (device.close k fd) = (device.descriptors k).erase fd
  gpioSetName (k fd pin) :
    device.descriptors (device.gpioSetName k fd pin).1 = device.descriptors k
  gpioSetConfig (k fd pin) :
    device.descriptors (device.gpioSetConfig k fd pin).1 = device.descriptors k
  gpioSet (k fd line value) :
    device.descriptors (device.gpioSet k fd line value).1 = device.descriptors k

/-- The pin is there and has the flags. -/
def Flagged (k : κ) (fd : Nat) (line flags : UInt32) : Prop :=
  device.hasPin k fd line = true ∧
    ∃ pin, device.gpioGetConfig k fd line = .ok pin ∧ pin.gpPin = line ∧ pin.gpFlags = flags

/-- What FreeBSD documents about a pin: it has the flags it was given last, and an output
drives the value it was given last. -/
structure Documented : Prop where
  gpioGetConfig {k fd line} : device.hasPin k fd line = true →
    ∃ flags, Flagged device k fd line flags
  gpioSetConfig {k fd pin} : device.hasPin k fd pin.gpPin = true →
    ∃ k', device.gpioSetConfig k fd pin = (k', .ok ()) ∧ Flagged device k' fd pin.gpPin pin.gpFlags
  gpioSet {k fd line} (value : UInt32) : Flagged device k fd line gpioPinOutput →
    ∃ k', device.gpioSet k fd line value = (k', .ok ()) ∧
      Flagged device k' fd line gpioPinOutput ∧ device.level k' fd line = decide (value ≠ 0)

/-- The pin is configured like the abstract one and drives what that drives. -/
def Shows (s : GpioFreeBsd κ) (pin : Pin) : Prop :=
  Flagged device s.kernel s.fd s.line (directionFlags pin.direction) ∧
    ∀ level, pin = .output level → device.level s.kernel s.fd s.line = level

variable {device} {s : GpioFreeBsd κ} {k : κ} {pin : Pin}

/-! ## It does what a pin does -/

theorem direction_of_flags (direction : GpioDirection) :
    (if directionFlags direction &&& gpioPinInput ≠ 0 then GpioDirection.input else .output) =
      direction := by
  cases direction <;> decide

theorem setDirection_flagged (documented : Documented device)
    (present : device.hasPin s.kernel s.fd s.line = true) (direction : GpioDirection) :
    ∃ s', setDirection device s direction = (s', .ok ()) ∧ s'.fd = s.fd ∧ s'.line = s.line ∧
      Flagged device s'.kernel s.fd s.line (directionFlags direction) := by
  obtain ⟨flags, -, pin, config, same, -⟩ := documented.gpioGetConfig present
  have there : device.hasPin s.kernel s.fd
      { pin with gpFlags := directionFlags direction }.gpPin = true := by rwa [same]
  obtain ⟨k', set, flagged⟩ := documented.gpioSetConfig there
  refine ⟨{ s with kernel := k' }, ?_, rfl, rfl, ?_⟩
  · have reported : getPinConfig device s = .ok pin := by
      rw [getPinConfig, config]
      rfl
    simp only [setDirection, reported, set]
    rfl
  · rw [← same]
    exact flagged

theorem setValue_shows (documented : Documented device)
    (output : Flagged device s.kernel s.fd s.line gpioPinOutput) (value : Bool) :
    ∃ s', setValue device s value = (s', .ok ()) ∧ Shows device s' (.output value) := by
  obtain ⟨k', set, flagged, drives⟩ := documented.gpioSet (if value then 1 else 0) output
  refine ⟨{ s with kernel := k' }, ?_, flagged, fun level same => ?_⟩
  · rw [setValue, set]
    rfl
  · cases same
    rw [drives]
    cases value <;> rfl

/-- An initialiser works on every pin that is there. -/
theorem init_shows (documented : Documented device)
    (present : device.hasPin s.kernel s.fd s.line = true) (pin : Pin) {call : Call}
    (init : call.Init) :
    ∃ s', (gpioFreeBsd device).call s call = (s', .ok ()) ∧ Shows device s' (pin.after call) := by
  cases call with
  | initInput =>
    obtain ⟨s', set, fd, line, flagged⟩ := setDirection_flagged documented present .input
    refine ⟨s', set, ?_, fun _ => nofun⟩
    rw [fd, line]
    exact flagged
  | initOutput initialValue =>
    obtain ⟨s', set, fd, line, flagged⟩ := setDirection_flagged documented present .output
    rw [← fd, ← line] at flagged
    obtain ⟨s'', valued, shows_⟩ := setValue_shows documented flagged initialValue
    refine ⟨s'', ?_, shows_⟩
    change initOutput device s initialValue = _
    rw [initOutput, set]
    exact valued
  | setDirection direction => exact init.elim
  | setValue value => exact init.elim

/-- The driver does what a pin does, but for the level of an input that is turned into an
output. -/
theorem gpioFreeBsd_realises (documented : Documented device) :
    Realises (gpioFreeBsd device) (fun s => device.level s.kernel s.fd s.line) (Shows device)
      fun call => call ≠ .setDirection .output where
  getDirection {s pin} shows_ := by
    obtain ⟨⟨-, config, found, -, flags⟩, -⟩ := shows_
    change getDirection device s = _
    have reported : getPinConfig device s = .ok config := by
      rw [getPinConfig, found]
      rfl
    rw [getDirection, reported, ← direction_of_flags pin.direction, ← flags]
    rfl
  level shows_ := shows_.2 _ rfl
  call {s pin call} shows_ fits admits := by
    cases call with
    | initInput => exact init_shows documented shows_.1.1 pin trivial
    | initOutput initialValue => exact init_shows documented shows_.1.1 pin trivial
    | setDirection direction =>
      cases direction with
      | input =>
        obtain ⟨s', set, fd, line, flagged⟩ := setDirection_flagged documented shows_.1.1 .input
        refine ⟨s', set, ?_, fun _ => nofun⟩
        rw [fd, line]
        exact flagged
      | output => exact absurd rfl admits
    | setValue value =>
      have output : pin.direction = .output := fits
      have flagged := shows_.1
      rw [output] at flagged
      obtain ⟨s', set, shows'⟩ := setValue_shows documented flagged value
      refine ⟨s', set, ?_⟩
      rw [Pin.after, output]
      exact shows'

/-! ## The descriptor is closed -/

/-- The same files are open, and the driver has the same one. -/
def SameFiles (device : Device κ ε) (s s' : GpioFreeBsd κ) : Prop :=
  device.descriptors s'.kernel = device.descriptors s.kernel ∧ s'.fd = s.fd

theorem SameFiles.trans {s s' s'' : GpioFreeBsd κ} (first : SameFiles device s s')
    (second : SameFiles device s' s'') : SameFiles device s s'' :=
  ⟨second.1.trans first.1, second.2.trans first.2⟩

section Files

variable (files : Files device)
include files

theorem sameFiles_setDirection (s : GpioFreeBsd κ) (direction : GpioDirection) :
    SameFiles device s (setDirection device s direction).1 := by
  rcases reported : getPinConfig device s with e | pin
  · have thrown : setDirection device s direction = (s, .error e) := by
      simp only [setDirection, reported]
    rw [thrown]
    exact ⟨rfl, rfl⟩
  · simp only [setDirection, reported]
    exact ⟨files.gpioSetConfig .., rfl⟩

theorem sameFiles_setValue (s : GpioFreeBsd κ) (value : Bool) :
    SameFiles device s (setValue device s value).1 := ⟨files.gpioSet .., rfl⟩

/-- No call of the driver opens or closes a file, whether it returns or throws. -/
theorem sameFiles_call (s : GpioFreeBsd κ) (call : Call) :
    SameFiles device s ((gpioFreeBsd device).call s call).1 := by
  cases call with
  | initInput => exact sameFiles_setDirection files s .input
  | initOutput initialValue =>
    change SameFiles device s (initOutput device s initialValue).1
    have directed := sameFiles_setDirection files s .output
    unfold initOutput
    rcases set : setDirection device s .output with ⟨s', e | ⟨⟩⟩ <;> rw [set] at directed
    · exact directed
    · exact directed.trans (sameFiles_setValue files s' initialValue)
  | setDirection direction => exact sameFiles_setDirection files s direction
  | setValue value => exact sameFiles_setValue files s value

/-- The name is set, or the file is closed. -/
theorem descriptors_setConsumerName (k : κ) (fd : Nat) (line : UInt32) (name : Name) :
    (∀ k' e, setConsumerName device k fd line name = (k', .error e) →
      device.descriptors k' = (device.descriptors k).erase fd) ∧
    ∀ k', setConsumerName device k fd line name = (k', .ok ()) →
      device.descriptors k' = device.descriptors k := by
  have kept := files.gpioSetName k fd { gpPin := line, gpName := name.take (gpioMaxName - 1) }
  unfold setConsumerName
  rcases set : device.gpioSetName k fd { gpPin := line, gpName := name.take (gpioMaxName - 1) } with
    ⟨k₁, e | ⟨⟩⟩ <;> rw [set] at kept
  · refine ⟨fun k' e thrown => ?_, fun k' returned => ?_⟩
    · cases thrown
      rw [files.close, kept]
    · cases returned
  · refine ⟨fun k' e thrown => ?_, fun k' returned => ?_⟩
    · cases thrown
    · cases returned
      exact kept

/-- A constructor that throws leaves the files as they were, one that returns has opened
the file of its object. -/
theorem descriptors_construct (config : GpioConfig) (k : κ) :
    (∀ k' e, construct device config k = (k', .error e) →
      device.descriptors k' = device.descriptors k) ∧
    ∀ k' s, construct device config k = (k', .ok s) →
      device.descriptors s.kernel = s.fd :: device.descriptors k := by
  unfold construct
  split
  · refine ⟨fun k' e thrown => ?_, fun k' s returned => ?_⟩
    · cases thrown
      rfl
    · cases returned
  · rcases opened : device.openFile k (path config.chip) with ⟨k₁, e | fd⟩
    · refine ⟨fun k' e thrown => ?_, fun k' s returned => ?_⟩
      · cases thrown
        exact files.openFile_error opened
      · cases returned
    · have more := files.openFile opened
      dsimp only
      split
      · refine ⟨fun k' e thrown => ?_, fun k' s returned => ?_⟩
        · cases thrown
        · cases returned
          exact more
      · obtain ⟨closed, kept⟩ :=
          descriptors_setConsumerName files k₁ fd (.ofNat config.line) config.consumerName
        rcases named : setConsumerName device k₁ fd (.ofNat config.line) config.consumerName with
          ⟨k₂, e | ⟨⟩⟩
        · refine ⟨fun k' e thrown => ?_, fun k' s returned => ?_⟩
          · cases thrown
            rw [closed _ _ named, more, List.erase_cons_head]
          · cases returned
        · refine ⟨fun k' e thrown => ?_, fun k' s returned => ?_⟩
          · cases thrown
          · cases returned
            exact (kept _ named).trans more

/-- **The file is closed once.** Whatever the system answers, a constructor that throws
leaves the open files as they were; one that returns has opened one file, and after any
calls of the object, the failed ones included, the destructor leaves the open files as
they were before. -/
theorem descriptors_lifecycle (config : GpioConfig) (k : κ) :
    (∀ k' e, construct device config k = (k', .error e) →
      device.descriptors k' = device.descriptors k) ∧
    ∀ k' s, construct device config k = (k', .ok s) →
      device.descriptors s.kernel = s.fd :: device.descriptors k ∧
      ∀ calls : List Call, device.descriptors
        (destroy device (Feed.caught (gpioFreeBsd device).call s calls)) =
          device.descriptors k := by
  obtain ⟨threw, returns⟩ := descriptors_construct files config k
  refine ⟨threw, fun k' s returned => ⟨returns k' s returned, fun calls => ?_⟩⟩
  have kept : SameFiles device s (Feed.caught (gpioFreeBsd device).call s calls) :=
    Feed.caught_invariant (P := SameFiles device s)
      (fun s' call same => same.trans (sameFiles_call files s' call)) ⟨rfl, rfl⟩ calls
  rw [destroy, files.close, kept.1, kept.2, returns k' s returned, List.erase_cons_head]

end Files

/-! ## A system with one controller -/

/-- Open files, and the flags and levels of the pins. -/
structure Controller where
  descriptors : List Nat := []
  flags : UInt32 → UInt32 := fun _ => 0
  level : UInt32 → Bool := fun _ => false

inductive Errno
  | ebadf
  deriving DecidableEq, Repr

/-- A controller with a pin under every number. A file is opened under a number that no open
file has. -/
def controller : Device Controller Errno where
  openFile s _ :=
    let fd := s.descriptors.foldl (· + ·) 1
    ({ s with descriptors := fd :: s.descriptors }, .ok fd)
  close s fd := { s with descriptors := s.descriptors.erase fd }
  gpioSetName s fd _ := (s, if fd ∈ s.descriptors then .ok () else .error .ebadf)
  gpioGetConfig s fd line :=
    if fd ∈ s.descriptors then .ok { gpPin := line, gpFlags := s.flags line } else .error .ebadf
  gpioSetConfig s fd pin :=
    if fd ∈ s.descriptors then
      ({ s with flags := Function.update s.flags pin.gpPin pin.gpFlags }, .ok ())
    else (s, .error .ebadf)
  gpioSet s fd line value :=
    if fd ∈ s.descriptors then
      ({ s with level := Function.update s.level line (decide (value ≠ 0)) }, .ok ())
    else (s, .error .ebadf)
  gpioGet s fd line :=
    if fd ∈ s.descriptors then .ok (if s.level line then 1 else 0) else .error .ebadf
  descriptors := Controller.descriptors
  hasPin s fd _ := decide (fd ∈ s.descriptors)
  level s _ line := s.level line

theorem files_controller : Files controller where
  openFile opened := by
    cases opened
    rfl
  openFile_error opened := by cases opened
  close _ _ := rfl
  gpioSetName _ _ _ := rfl
  gpioSetConfig k fd pin := by
    by_cases open_ : fd ∈ k.descriptors <;> simp [controller, open_]
  gpioSet k fd line value := by
    by_cases open_ : fd ∈ k.descriptors <;> simp [controller, open_]

theorem flagged_controller {k : Controller} {fd : Nat} {line : UInt32}
    (open_ : fd ∈ k.descriptors) : Flagged controller k fd line (k.flags line) :=
  ⟨decide_eq_true open_, _, if_pos open_, rfl, rfl⟩

theorem documented_controller : Documented controller where
  gpioGetConfig present := ⟨_, flagged_controller (of_decide_eq_true present)⟩
  gpioSetConfig {k fd pin} present := by
    have open_ : fd ∈ k.descriptors := of_decide_eq_true present
    refine ⟨{ k with flags := Function.update k.flags pin.gpPin pin.gpFlags }, if_pos open_, ?_⟩
    have flagged : Flagged controller
        { k with flags := Function.update k.flags pin.gpPin pin.gpFlags } fd pin.gpPin
        (Function.update k.flags pin.gpPin pin.gpFlags pin.gpPin) := flagged_controller open_
    rwa [Function.update_self] at flagged
  gpioSet {k fd line} value output := by
    have open_ : fd ∈ k.descriptors := of_decide_eq_true output.1
    obtain ⟨-, pin, config, same, flags⟩ := output
    refine ⟨{ k with level := Function.update k.level line (decide (value ≠ 0)) }, if_pos open_,
      ⟨decide_eq_true open_, pin, config, same, flags⟩, ?_⟩
    exact Function.update_self ..

/-- A chip whose file is opened, named, and closed again. -/
theorem descriptors_lifecycle_controller :
    controller.descriptors (destroy controller (Feed.caught (gpioFreeBsd controller).call
      ⟨{ descriptors := [4, 3] }, 4, 7⟩ [.initOutput true, .setValue false])) = [3] :=
  ((descriptors_lifecycle files_controller { chip := ['g', 'p', 'i', 'o', 'c', '0'], line := 7 }
    { descriptors := [3] }).2 _ _ rfl).2 [.initOutput true, .setValue false]

end Iqrf.Gpio.FreeBsd
