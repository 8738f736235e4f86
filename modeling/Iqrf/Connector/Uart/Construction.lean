import Iqrf.Connector.BusSwitcher
import Iqrf.Connector.Uart.UartConnector

/-!
# Construction of the UART connector

The constructor drives the GPIO lines, looks the port up, opens it and sets it up. What
it acquires on the way is explicit: the board, and what the system keeps for the port.
The system may refuse a GPIO call, and each call of libserialport may report an error;
either throws.

What has been acquired is given back by `~UartConnector`, which does not run for an object
whose constructor has thrown. Unwinding destroys the members only, and of these only the
bus switcher does something: it drives its lines low. So only a failed look-up of the port
leaves nothing behind, and only if the power is not on a line of its own
(`leaves_nothing_iff`).
-/

namespace Iqrf.Connector.Uart

open Iqrf.Gpio BusSwitcher

variable {G : Type*}

/-- IQRF UART connector configuration. -/
structure UartConfig (G : Type*) extends BusSwitcherConfig G where
  device : String
  baudRate : UInt32 := 115200
  powerEnableGpio : Option G := none
  pgmSwitchGpio : Option G := none
  trModuleReset : Bool := true
  disablePowerOnShutdown : Bool := true
  deriving DecidableEq

/-- What the system keeps for a port: the structure that `sp_get_port_by_name` allocates,
and whether the port is open. -/
structure SerialPort where
  allocated : Bool := false
  opened : Bool := false
  deriving DecidableEq, Repr

/-- The calls of libserialport in the constructor whose result is checked. -/
inductive SerialCall
  | getPortByName (portname : String)
  | openReadWrite
  | setBaudrate (baudrate : Int32)
  | setBits (bits : Nat)
  | setParityNone
  | setStopbits (stopbits : Nat)
  | setFlowcontrolNone
  deriving DecidableEq

/-- What a call changes when it succeeds. -/
def SerialCall.effect (port : SerialPort) : SerialCall → SerialPort
  | getPortByName _ => { port with allocated := true }
  | openReadWrite => { port with opened := true }
  | _ => port

/-- The destructor closes and frees a port that has been looked up. -/
def SerialPort.release (port : SerialPort) : SerialPort := if port.allocated then {} else port

/-- The text of the last error. -/
def SerialError.lastErrorMessage : SerialError → String
  | fail lastErrorMessage => lastErrorMessage
  | _ => ""

/-- What the constructor throws. -/
inductive ConstructError
  | gpioRefused
  | gpio (error : Gpio.RuntimeError)
  | serial (error : SendError)
  deriving DecidableEq, Repr

/-- How a constructor or a destructor ends. -/
inductive Outcome
  | returned
  | thrown (error : ConstructError)
  | terminated
  deriving DecidableEq, Repr

/-- What a connector acquires. -/
structure System (G : Type*) where
  board : G → GpioMock
  serialPort : SerialPort := {}

namespace UartConnector

/-- The calls of `UartConnector::resetTr`. -/
def resetTr (config : UartConfig G) : List (G × Gpio.Call) :=
  match config.powerEnableGpio with
  | none => []
  | some gpio => [(gpio, .setValue false), (gpio, .setValue true)]

/-- The calls of `UartConnector::initGpio`. -/
def initGpio (config : UartConfig G) : List (G × Gpio.Call) :=
  (config.pgmSwitchGpio.toList.map fun gpio => (gpio, .initOutput false)) ++
    (config.powerEnableGpio.toList.map fun gpio => (gpio, .initOutput true)) ++
    init config.toBusSwitcherConfig ++
    (if config.trModuleReset then resetTr config else []) ++
    toggleUart config.toBusSwitcherConfig true

/-- The GPIO calls in the body of `UartConnector::~UartConnector`. -/
def shutdown (config : UartConfig G) : List (G × Gpio.Call) :=
  (if config.disablePowerOnShutdown then
      config.powerEnableGpio.toList.map fun gpio => (gpio, .setValue false)
    else []) ++
    toggleUart config.toBusSwitcherConfig false ++
    (config.pgmSwitchGpio.toList.map fun gpio => (gpio, .setValue false))

/-- The calls of libserialport in the constructor. -/
def serialCalls (config : UartConfig G) : List SerialCall :=
  [.getPortByName config.device, .openReadWrite, .setBaudrate config.baudRate.toInt32, .setBits 8,
    .setParityNone, .setStopbits 1, .setFlowcontrolNone]

/-- One call and the check of its result, given what libserialport reports. -/
def serialStep (reports : SerialCall → Option SerialError) (port : SerialPort)
    (call : SerialCall) : SerialPort × Except SendError Unit :=
  match reports call with
  | none => (call.effect port, .ok ())
  | some error =>
    match checkSerialResult error.lastErrorMessage error.code with
    | .error e => (port, .error e)
    | .ok _ => (port, .ok ())

section

variable [DecidableEq G]

/-- The GPIO calls up to one that the system refuses, if it does. A refused call throws
and leaves its line as it was. -/
def attempt (refused : Option Nat) (calls : List (G × Gpio.Call)) (board : G → GpioMock) :
    (G → GpioMock) × Except ConstructError Unit :=
  match Feed.strict perform board (refused.elim calls calls.take) with
  | (board, .error e) => (board, .error (.gpio e))
  | (board, .ok ()) =>
    if refused.any (· < calls.length) then (board, .error .gpioRefused) else (board, .ok ())

/-- An exception destroys the bus switcher and goes on to the caller, unless the
destructor throws. -/
def unwind (config : UartConfig G) (system : System G) (error : ConstructError) :
    System G × Outcome :=
  match Feed.strict perform system.board (BusSwitcher.destroy config.toBusSwitcherConfig) with
  | (board, .ok ()) => ({ system with board }, .thrown error)
  | (board, .error _) => ({ system with board }, .terminated)

/-- `UartConnector::UartConnector`. -/
def construct (config : UartConfig G) (refused : Option Nat)
    (reports : SerialCall → Option SerialError) (system : System G) : System G × Outcome :=
  match attempt refused (initGpio config) system.board with
  | (board, .error e) => unwind config { system with board } e
  | (board, .ok ()) =>
    match Feed.strict (serialStep reports) system.serialPort (serialCalls config) with
    | (serialPort, .error e) => unwind config ⟨board, serialPort⟩ (.serial e)
    | (serialPort, .ok ()) => (⟨board, serialPort⟩, .returned)

/-- `UartConnector::~UartConnector`, and the destructor of the bus switcher after it. -/
def destroy (config : UartConfig G) (system : System G) : System G × Outcome :=
  match Feed.strict perform system.board (shutdown config) with
  | (board, .error _) => ({ system with board }, .terminated)
  | (board, .ok ()) =>
    match Feed.strict perform board (BusSwitcher.destroy config.toBusSwitcherConfig) with
    | (board, .error _) => (⟨board, system.serialPort.release⟩, .terminated)
    | (board, .ok ()) => (⟨board, system.serialPort.release⟩, .returned)

end

/-! ## The lines -/

/-- The lines of a connector. -/
def gpios (config : UartConfig G) : List G :=
  config.pgmSwitchGpio.toList ++ config.powerEnableGpio.toList ++
    enableLines config.toBusSwitcherConfig

/-- The levels at which `initGpio` initialises the lines. -/
def initLevels (config : UartConfig G) : List (G × Bool) :=
  low config.pgmSwitchGpio.toList ++ (config.powerEnableGpio.toList.map fun gpio => (gpio, true)) ++
    low (enableLines config.toBusSwitcherConfig)

/-- The levels to which `resetTr` sets the power. -/
def resetLevels (config : UartConfig G) : List (G × Bool) :=
  config.powerEnableGpio.toList.flatMap fun gpio => [(gpio, false), (gpio, true)]

/-- The levels to which `initGpio` sets the lines afterwards. -/
def startLevels (config : UartConfig G) : List (G × Bool) :=
  (if config.trModuleReset then resetLevels config else []) ++
    toggleLevels config.toBusSwitcherConfig false false true

/-- The lines that the destructor drives low. -/
def shutdownLines (config : UartConfig G) : List G :=
  (if config.disablePowerOnShutdown then config.powerEnableGpio.toList else []) ++
    enableLines config.toBusSwitcherConfig ++ config.pgmSwitchGpio.toList

theorem initGpio_eq (config : UartConfig G) :
    initGpio config = initOutputs (initLevels config) ++ setValues (startLevels config) := by
  have reset : resetTr config = setValues (resetLevels config) := by
    unfold resetTr resetLevels
    cases config.powerEnableGpio <;> rfl
  unfold initGpio initLevels startLevels
  rw [toggleUart, toggle_eq, init_eq, reset]
  cases config.trModuleReset <;>
    simp [initOutputs, setValues, low, List.append_assoc, Function.comp_def]

theorem shutdown_eq (config : UartConfig G) :
    shutdown config = setValues (low (shutdownLines config)) := by
  unfold shutdown shutdownLines
  rw [toggleUart, toggle_eq, toggleLevels_low]
  cases config.disablePowerOnShutdown <;>
    simp [setValues, low, Function.comp_def]

theorem map_fst_initLevels (config : UartConfig G) :
    (initLevels config).map Prod.fst = gpios config := by
  unfold initLevels gpios
  rw [List.map_append, List.map_append, map_fst_low, map_fst_low, List.map_map]
  simp only [Function.comp_def, List.map_id']

theorem mem_gpios_of_enable {config : UartConfig G} {gpio : G}
    (enable : gpio ∈ enableLines config.toBusSwitcherConfig) : gpio ∈ gpios config :=
  List.mem_append_right _ enable

theorem mem_gpios_of_power {config : UartConfig G} {gpio : G}
    (power : config.powerEnableGpio = some gpio) : gpio ∈ gpios config :=
  List.mem_append_left _ (List.mem_append_right _ (Option.mem_toList.mpr power))

/-- What is set after the initialisation is the power or a line of the switcher. -/
theorem mem_startLevels {config : UartConfig G} {level : G × Bool}
    (member : level ∈ startLevels config) :
    config.powerEnableGpio = some level.1 ∨ level.1 ∈ enableLines config.toBusSwitcherConfig := by
  unfold startLevels at member
  rcases List.mem_append.mp member with reset | toggled
  · left
    split at reset
    · obtain ⟨power, isPower, pair⟩ := List.mem_flatMap.mp reset
      have same : level.1 = power := by
        rcases List.mem_pair.mp pair with first | second
        · exact congrArg Prod.fst first
        · exact congrArg Prod.fst second
      rw [same]
      exact Option.mem_toList.mp isPower
    · cases reset
  · right
    rw [← map_fst_toggleLevels config.toBusSwitcherConfig false false true]
    exact List.mem_map_of_mem toggled

theorem mem_gpios_of_mem_startLevels {config : UartConfig G} {gpio : G}
    (member : gpio ∈ (startLevels config).map Prod.fst) : gpio ∈ gpios config := by
  obtain ⟨level, among, same⟩ := List.mem_map.mp member
  subst same
  exact (mem_startLevels among).elim mem_gpios_of_power mem_gpios_of_enable

/-! ## The port -/

variable {config : UartConfig G} {reports : SerialCall → Option SerialError}

theorem serialStep_of_none {call : SerialCall} (succeeds : reports call = none)
    (port : SerialPort) : serialStep reports port call = (call.effect port, .ok ()) := by
  rw [serialStep, succeeds]

/-- Every error that is reported is thrown, and changes nothing. -/
theorem serialStep_of_some {call : SerialCall} {error : SerialError}
    (fails : reports call = some error) (port : SerialPort) :
    ∃ e, serialStep reports port call = (port, .error e) := by
  obtain ⟨e, thrown⟩ := checkSerialResult_of_failed error.lastErrorMessage error
  exact ⟨e, by simp only [serialStep, fails, thrown]⟩

/-- No call frees the port. -/
theorem allocated_serialStep (port : SerialPort) (call : SerialCall)
    (allocated : port.allocated = true) : (serialStep reports port call).1.allocated = true := by
  cases report : reports call with
  | none =>
    rw [serialStep_of_none report]
    cases call <;> first | rfl | exact allocated
  | some error =>
    obtain ⟨e, thrown⟩ := serialStep_of_some report port
    rw [thrown]
    exact allocated

/-- A port that has been looked up stays allocated, whatever fails later. -/
theorem allocated_of_lookup (succeeds : reports (.getPortByName config.device) = none) :
    (Feed.strict (serialStep reports) {} (serialCalls config)).1.allocated = true := by
  unfold serialCalls
  rw [Feed.strict_cons_of_ok (serialStep_of_none succeeds {})]
  exact Feed.strict_invariant allocated_serialStep rfl _

/-- A failed look-up is the last call. -/
theorem strict_serialCalls_of_lookup {error : SerialError}
    (fails : reports (.getPortByName config.device) = some error) :
    (Feed.strict (serialStep reports) {} (serialCalls config)).1 = {} := by
  obtain ⟨e, thrown⟩ := serialStep_of_some fails {}
  unfold serialCalls
  rw [Feed.strict_cons_of_error thrown]

/-- A call that fails is thrown, unless an earlier one is. -/
theorem strict_serialCalls_of_fails (fails : ∃ call ∈ serialCalls config, reports call ≠ none) :
    ∃ port e, Feed.strict (serialStep reports) {} (serialCalls config) = (port, .error e) := by
  obtain ⟨call, member, reported⟩ := fails
  obtain ⟨error, report⟩ := Option.ne_none_iff_exists'.mp reported
  refine Feed.strict_error_of_mem (fun port => ?_) member ({} : SerialPort)
  obtain ⟨e, thrown⟩ := serialStep_of_some report port
  exact ⟨port, e, thrown⟩

/-! ## The board -/

variable [DecidableEq G] {board : G → GpioMock}

/-- The board after `initGpio`. -/
def ready (config : UartConfig G) (board : G → GpioMock) : G → GpioMock :=
  driven (initLevels config ++ startLevels config) board

theorem isOutput_ready {gpio : G} (member : gpio ∈ gpios config) :
    (ready config board gpio).IsOutput := by
  refine (isOutput_driven_iff _ _ gpio).mpr (.inr ?_)
  rw [List.map_append, map_fst_initLevels]
  exact List.mem_append_left _ member

theorem strict_initGpio (config : UartConfig G) (board : G → GpioMock) :
    Feed.strict perform board (initGpio config) = (ready config board, .ok ()) := by
  have outputs : ∀ gpio ∈ (startLevels config).map Prod.fst,
      (driven (initLevels config) board gpio).IsOutput := by
    intro gpio member
    refine (isOutput_driven_iff _ _ gpio).mpr (.inr ?_)
    rw [map_fst_initLevels]
    exact mem_gpios_of_mem_startLevels member
  rw [initGpio_eq, Feed.strict_append_of_ok (strict_initOutputs _ board), strict_setValues outputs,
    ready, driven_append]

theorem attempt_initGpio (config : UartConfig G) (board : G → GpioMock) :
    attempt none (initGpio config) board = (ready config board, .ok ()) := by
  simp only [attempt, Option.elim_none, strict_initGpio, Option.any_none, Bool.false_eq_true,
    if_false]

/-- Lines of the connector can be driven low once it is set up. -/
theorem strict_low_ready (board : G → GpioMock) {lines : List G}
    (among : ∀ gpio ∈ lines, gpio ∈ gpios config) :
    Feed.strict perform (ready config board) (setValues (low lines)) =
      (driven (low lines) (ready config board), .ok ()) := by
  refine strict_setValues fun gpio member => ?_
  rw [map_fst_low] at member
  exact isOutput_ready (among gpio member)

theorem ready_of_not_mem {gpio : G} (other : gpio ∉ gpios config) :
    ready config board gpio = board gpio := by
  refine driven_of_not_mem fun member => other ?_
  rw [List.map_append, map_fst_initLevels, List.mem_append] at member
  exact member.elim id mem_gpios_of_mem_startLevels

/-- `initGpio` leaves the power on. -/
theorem ready_powerEnableGpio {gpio : G} (power : config.powerEnableGpio = some gpio)
    (alone : gpio ∉ enableLines config.toBusSwitcherConfig) :
    ready config board gpio = .driving true := by
  have toggled : gpio ∉
      (toggleLevels config.toBusSwitcherConfig false false true).map Prod.fst := by
    rw [map_fst_toggleLevels]
    exact alone
  have enables : gpio ∉ (low (enableLines config.toBusSwitcherConfig) ++
      toggleLevels config.toBusSwitcherConfig false false true).map Prod.fst := by
    rw [List.map_append, map_fst_low, List.mem_append]
    exact fun member => member.elim alone toggled
  unfold ready initLevels startLevels resetLevels
  rw [power]
  cases config.trModuleReset with
  | true =>
    have last := driven_of_last (low config.pgmSwitchGpio.toList ++ [(gpio, true)] ++
      low (enableLines config.toBusSwitcherConfig) ++ [(gpio, false)]) board true toggled
    simpa using last
  | false =>
    have last := driven_of_last (low config.pgmSwitchGpio.toList) board true enables
    simpa using last

/-- The switcher drives every line low that `initGpio` leaves high, but for the power. -/
theorem ready_low {gpio : G} (member : gpio ∈ gpios config)
    (alone : gpio ∉ enableLines config.toBusSwitcherConfig)
    (power : config.powerEnableGpio ≠ some gpio) : ready config board gpio = .driving false := by
  have driven_ : gpio ∈ (initLevels config ++ startLevels config).map Prod.fst := by
    rw [List.map_append, map_fst_initLevels]
    exact List.mem_append_left _ member
  obtain ⟨value, among, shows_⟩ := driven_of_mem board driven_
  have isLow : value = false := by
    have lowered : ∀ {lines : List G}, (gpio, value) ∈ low lines → value = false := by
      intro lines isLow
      obtain ⟨_, -, same⟩ := List.mem_map.mp isLow
      exact (Prod.mk.inj same).2.symm
    unfold initLevels at among
    simp only [List.mem_append] at among
    rcases among with ((pgm | powered) | enabled) | started
    · exact lowered pgm
    · obtain ⟨other, isPower, same⟩ := List.mem_map.mp powered
      rw [(Prod.mk.inj same).1] at isPower
      exact absurd (Option.mem_toList.mp isPower) power
    · exact lowered enabled
    · exact ((mem_startLevels started).elim power alone).elim
  rw [ready, shows_, isLow]

/-! ## A failed construction -/

/-- A failed construction drives the lines of the switcher low, and lets the port be. -/
theorem construct_of_fails (board : G → GpioMock)
    (fails : ∃ call ∈ serialCalls config, reports call ≠ none) :
    ∃ e, construct config none reports ⟨board, {}⟩ =
      (⟨driven (low (enableLines config.toBusSwitcherConfig)) (ready config board),
        (Feed.strict (serialStep reports) {} (serialCalls config)).1⟩, .thrown (.serial e)) := by
  obtain ⟨port, e, thrown⟩ := strict_serialCalls_of_fails fails
  have among : ∀ gpio ∈ enableLines config.toBusSwitcherConfig, gpio ∈ gpios config :=
    fun _ => mem_gpios_of_enable
  have unwound := strict_low_ready board among
  refine ⟨e, ?_⟩
  simp only [construct, attempt_initGpio, thrown, unwind, destroy_eq, unwound]

/-- A successful one leaves the board ready and the port open. -/
theorem construct_of_succeeds (config : UartConfig G) (board : G → GpioMock) :
    construct config none (fun _ => none) ⟨board, {}⟩ =
      (⟨ready config board, ⟨true, true⟩⟩, .returned) := by
  have opened : Feed.strict (serialStep fun _ => none) {} (serialCalls config) =
      (⟨true, true⟩, .ok ()) := rfl
  simp only [construct, attempt_initGpio, opened]

/-- The destructor drives all lines low, and frees the port. -/
theorem destroy_ready (disable : config.disablePowerOnShutdown = true) (port : SerialPort) :
    destroy config ⟨ready config board, port⟩ =
      (⟨driven (low (gpios config)) board, port.release⟩, .returned) := by
  have among : ∀ gpio, gpio ∈ shutdownLines config ↔ gpio ∈ gpios config := by
    intro gpio
    unfold shutdownLines gpios
    rw [if_pos disable]
    simp only [List.mem_append]
    apply Iff.intro
    · intro given
      rcases given with (power | enable) | pgm
      · exact .inl (.inr power)
      · exact .inr enable
      · exact .inl (.inl pgm)
    · intro given
      rcases given with (pgm | power) | enable
      · exact .inr pgm
      · exact .inl (.inl power)
      · exact .inl (.inr enable)
  have body := strict_low_ready board fun gpio => (among gpio).mp
  have outputs : ∀ gpio ∈ (low (enableLines config.toBusSwitcherConfig)).map Prod.fst,
      (driven (low (shutdownLines config)) (ready config board) gpio).IsOutput := by
    intro gpio member
    rw [map_fst_low] at member
    exact (isOutput_driven_iff _ _ gpio).mpr (.inl (isOutput_ready (mem_gpios_of_enable member)))
  have board_eq : driven (low (enableLines config.toBusSwitcherConfig))
      (driven (low (shutdownLines config)) (ready config board)) =
        driven (low (gpios config)) board := by
    funext gpio
    rw [driven_low, driven_low, driven_low]
    by_cases member : gpio ∈ gpios config
    · rw [if_pos member, if_pos ((among gpio).mpr member), ite_self]
    · have enable : gpio ∉ enableLines config.toBusSwitcherConfig :=
        fun enable => member (mem_gpios_of_enable enable)
      rw [if_neg member, if_neg enable, if_neg (mt (among gpio).mp member),
        ready_of_not_mem member]
  simp only [destroy, shutdown_eq, body, destroy_eq, strict_setValues outputs, board_eq]

/-- A constructor that fails although no GPIO call is refused leaves nothing behind: the
exception reaches the caller, and all is as after a construction that succeeds and a
destruction. -/
structure LeavesNothing (config : UartConfig G) (reports : SerialCall → Option SerialError)
    (board : G → GpioMock) : Prop where
  thrown : ∃ error, (construct config none reports ⟨board, {}⟩).2 = .thrown error
  freed : (construct config none reports ⟨board, {}⟩).1.serialPort.allocated = false
  closed : (construct config none reports ⟨board, {}⟩).1.serialPort.opened = false
  isLow : ∀ gpio ∈ gpios config,
    ((construct config none reports ⟨board, {}⟩).1.board gpio).value = false
  asDestroyed : (construct config none reports ⟨board, {}⟩).1 =
    (destroy config (construct config none (fun _ => none) ⟨board, {}⟩).1).1

/-- Without a power enable line of its own, the switcher drives all lines low. -/
theorem driven_low_ready
    (switched : ∀ gpio, config.powerEnableGpio = some gpio →
      gpio ∈ enableLines config.toBusSwitcherConfig) :
    driven (low (enableLines config.toBusSwitcherConfig)) (ready config board) =
      driven (low (gpios config)) board := by
  funext gpio
  rw [driven_low, driven_low]
  by_cases enable : gpio ∈ enableLines config.toBusSwitcherConfig
  · rw [if_pos enable, if_pos (mem_gpios_of_enable enable)]
  · rw [if_neg enable]
    by_cases member : gpio ∈ gpios config
    · rw [if_pos member]
      exact ready_low member enable fun power => enable (switched gpio power)
    · rw [if_neg member, ready_of_not_mem member]

/-- **When a failed construction leaves nothing behind.** Where the power is to be disabled
on shutdown and some call of libserialport reports an error, exactly if the failing call
is the look-up of the port, and there is no power enable line but one of the switcher's. -/
theorem leaves_nothing_iff (config : UartConfig G) (disable : config.disablePowerOnShutdown = true)
    (board : G → GpioMock) (reports : SerialCall → Option SerialError)
    (fails : ∃ call ∈ serialCalls config, reports call ≠ none) :
    LeavesNothing config reports board ↔
      reports (.getPortByName config.device) ≠ none ∧
        ∀ gpio, config.powerEnableGpio = some gpio →
          gpio ∈ enableLines config.toBusSwitcherConfig := by
  obtain ⟨e, constructed⟩ := construct_of_fails board fails
  apply Iff.intro
  · intro leaves
    refine ⟨fun succeeds => ?_, fun gpio power => ?_⟩
    · have freed := leaves.freed
      rw [constructed, allocated_of_lookup succeeds] at freed
      cases freed
    · by_contra alone
      have isLow := leaves.isLow gpio (mem_gpios_of_power power)
      rw [constructed] at isLow
      simp only [driven_low, if_neg alone, ready_powerEnableGpio power alone] at isLow
      cases isLow
  · intro given
    obtain ⟨lookup, switched⟩ := given
    obtain ⟨error, report⟩ := Option.ne_none_iff_exists'.mp lookup
    rw [strict_serialCalls_of_lookup report, driven_low_ready switched] at constructed
    refine ⟨⟨.serial e, by rw [constructed]⟩, by rw [constructed], by rw [constructed],
      fun gpio member => ?_, ?_⟩
    · rw [constructed]
      simp only [driven_low, if_pos member]
      rfl
    · rw [constructed, construct_of_succeeds, destroy_ready disable]
      rfl

/-- The look-up fails, and the only line is one of the switcher. -/
theorem leaves_nothing_of_lookup :
    LeavesNothing { device := "/dev/ttyS0", uartEnableGpio := some 4 }
      (fun call => if call = .getPortByName "/dev/ttyS0" then some .arg else none) fun _ => {} :=
  (leaves_nothing_iff { device := "/dev/ttyS0", uartEnableGpio := some 4 } rfl _ _
    ⟨.getPortByName "/dev/ttyS0", List.mem_cons_self, by decide⟩).mpr ⟨by decide, nofun⟩

/-- Where the port cannot be opened, its structure is never freed. -/
theorem not_leaves_nothing :
    ¬ ∀ (config : UartConfig Nat), config.disablePowerOnShutdown = true →
      ∀ (board : Nat → GpioMock) (reports : SerialCall → Option SerialError),
        (∃ call ∈ serialCalls config, reports call ≠ none) →
        LeavesNothing config reports board := by
  intro leaves
  have freed := (leaves { device := "/dev/ttyS0" } rfl (fun _ => {})
    (fun call => if call = .openReadWrite then some (.fail "Permission denied") else none)
    ⟨.openReadWrite, by decide, by decide⟩).freed
  revert freed
  decide

end UartConnector

end Iqrf.Connector.Uart
