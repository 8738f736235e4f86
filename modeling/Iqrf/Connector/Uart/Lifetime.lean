import Iqrf.Connector.Drivers
import Iqrf.Connector.Uart.Construction

/-!
# The lines of a UART connector

From its constructor to its destructor a UART connector drives the line of the programming
switch, the power of the TR module, and the lines of its bus switcher; in between, `resetTr`
turns the power off and on again. Whatever the driver of the lines is, none of them is ever
high but the power and the line that selects the UART, and these two are high while the
connector is in use.
-/

namespace Iqrf.Connector.Uart

open Iqrf.Gpio BusSwitcher UartConnector

variable {G : Type*}

/-- The GPIO calls of the constructor and of some calls of `resetTr`. -/
def inUse (config : UartConfig G) (resets : Nat) : List (G × Gpio.Call) :=
  initGpio config ++ (List.replicate resets (resetTr config)).flatten

/-- The GPIO calls of a connector, the destructor of its bus switcher included. -/
def lifetime (config : UartConfig G) (resets : Nat) : List (G × Gpio.Call) :=
  inUse config resets ++ (shutdown config ++ BusSwitcher.destroy config.toBusSwitcherConfig)

/-- The line that is high while the bus of the UART is selected. -/
def uartLine (config : UartConfig G) : Option G := config.busEnableGpio.or config.uartEnableGpio

/-- The levels that are set after those of `initGpio`. -/
def resetsLevels (config : UartConfig G) (resets : Nat) : List (G × Bool) :=
  (List.replicate resets (resetLevels config)).flatten

theorem resetTr_eq (config : UartConfig G) : resetTr config = setValues (resetLevels config) := by
  unfold resetTr resetLevels
  cases config.powerEnableGpio <;> rfl

theorem inUse_eq (config : UartConfig G) (resets : Nat) :
    inUse config resets = initOutputs (initLevels config) ++
      setValues (startLevels config ++ resetsLevels config resets) := by
  unfold inUse resetsLevels setValues
  rw [initGpio_eq, resetTr_eq, List.map_append, List.map_flatten, List.map_replicate,
    List.append_assoc]
  rfl

theorem lifetime_eq (config : UartConfig G) (resets : Nat) :
    lifetime config resets = initOutputs (initLevels config) ++
      setValues (startLevels config ++ resetsLevels config resets ++ low (shutdownLines config) ++
        low (enableLines config.toBusSwitcherConfig)) := by
  unfold lifetime
  rw [inUse_eq, shutdown_eq, destroy_eq]
  simp only [setValues, List.map_append, List.append_assoc]

theorem isDriving_lifetime (config : UartConfig G) (resets : Nat) :
    ∀ call ∈ lifetime config resets, IsDriving call.2 := by
  intro call member
  rw [lifetime_eq, List.mem_append] at member
  rcases member with init | set
  · obtain ⟨level, -, same⟩ := List.mem_map.mp init
    subst same
    trivial
  · obtain ⟨level, -, same⟩ := List.mem_map.mp set
    subst same
    trivial

theorem initialised_inUse (config : UartConfig G) (resets : Nat) :
    initialised (inUse config resets) = gpios config := by
  rw [inUse_eq, initialised_append, initialised_initOutputs, initialised_setValues,
    List.append_nil, map_fst_initLevels]

theorem initialised_lifetime (config : UartConfig G) (resets : Nat) :
    initialised (lifetime config resets) = gpios config := by
  rw [lifetime_eq, initialised_append, initialised_initOutputs, initialised_setValues,
    List.append_nil, map_fst_initLevels]

/-! ## The levels that are set -/

variable {config : UartConfig G} {resets : Nat} {gpio : G} {value : Bool}

theorem mem_resetsLevels {level : G × Bool} (member : level ∈ resetsLevels config resets) :
    config.powerEnableGpio = some level.1 := by
  obtain ⟨reset, several, among⟩ := List.mem_flatten.mp member
  rw [List.eq_of_mem_replicate several] at among
  obtain ⟨power, isPower, pair⟩ := List.mem_flatMap.mp among
  have same : level.1 = power := by
    rcases List.mem_pair.mp pair with first | second
    · exact congrArg Prod.fst first
    · exact congrArg Prod.fst second
  rw [same]
  exact Option.mem_toList.mp isPower

theorem mem_gpios_of_mem_shutdownLines (member : gpio ∈ shutdownLines config) :
    gpio ∈ gpios config := by
  unfold shutdownLines at member
  simp only [List.mem_append, Option.mem_toList] at member
  rcases member with (power | enable) | pgm
  · split at power
    · exact mem_gpios_of_power (Option.mem_toList.mp power)
    · cases power
  · exact mem_gpios_of_enable enable
  · exact List.mem_append_left _ (List.mem_append_left _ (Option.mem_toList.mpr pgm))

/-- There are calls on the lines of the connector only. -/
theorem mem_gpios_of_lifetime (member : gpio ∈ (lifetime config resets).map Prod.fst) :
    gpio ∈ gpios config := by
  rw [lifetime_eq, initOutputs, setValues, List.map_append, List.map_map, List.map_map,
    List.mem_append] at member
  rcases member with init | set
  · rw [← map_fst_initLevels]
    exact init
  · change gpio ∈ List.map Prod.fst _ at set
    simp only [List.map_append, map_fst_low, List.mem_append] at set
    rcases set with ((start | reset) | down) | enable
    · exact mem_gpios_of_mem_startLevels start
    · obtain ⟨level, among, same⟩ := List.mem_map.mp reset
      subst same
      exact mem_gpios_of_power (mem_resetsLevels among)
    · exact mem_gpios_of_mem_shutdownLines down
    · exact mem_gpios_of_enable enable

/-- Of the lines of the switcher only the one of the UART is toggled high. -/
theorem mem_toggleLevels (member : (gpio, value) ∈ toggleLevels config.toBusSwitcherConfig
    false false true) : value = true → uartLine config = some gpio := by
  intro high
  subst high
  unfold toggleLevels at member
  unfold uartLine
  cases bus : config.busEnableGpio with
  | some line =>
    rw [bus] at member
    obtain ⟨same, -⟩ := Prod.mk.inj (List.mem_singleton.mp member)
    rw [same]
    rfl
  | none =>
    rw [bus] at member
    simp only [List.mem_append, List.mem_map, Option.mem_toList, Prod.mk.injEq] at member
    rcases member with (⟨_, _, _, same⟩ | ⟨_, _, _, same⟩) | ⟨line, uart, same, -⟩
    · cases same
    · cases same
    · rw [← same]
      exact uart

theorem mem_low {lines : List G} (member : (gpio, value) ∈ low lines) : value = false := by
  obtain ⟨_, -, same⟩ := List.mem_map.mp member
  exact (Prod.mk.inj same).2.symm

/-- Only the power and the line of the UART are ever set high. -/
theorem high_of_mem_lifetime
    (member : (gpio, .initOutput true) ∈ lifetime config resets ∨
      (gpio, .setValue true) ∈ lifetime config resets) :
    config.powerEnableGpio = some gpio ∨ uartLine config = some gpio := by
  have levels : (gpio, true) ∈ initLevels config ∨ (gpio, true) ∈ startLevels config ++
      resetsLevels config resets ++ low (shutdownLines config) ++
        low (enableLines config.toBusSwitcherConfig) := by
    rw [lifetime_eq] at member
    simp only [initOutputs, setValues, List.mem_append, List.mem_map] at member ⊢
    simpa using member
  simp only [initLevels, startLevels, List.mem_append] at levels
  rcases levels with ((pgm | power) | enable) | ((((reset | toggled) | again) | down) | last)
  · cases mem_low pgm
  · obtain ⟨line, isPower, same⟩ := List.mem_map.mp power
    rw [← (Prod.mk.inj same).1]
    exact .inl (Option.mem_toList.mp isPower)
  · cases mem_low enable
  · have once : (gpio, true) ∈ resetsLevels config 1 := by
      unfold resetsLevels
      split at reset
      · rw [List.replicate_one, List.flatten_singleton]
        exact reset
      · cases reset
    exact .inl (mem_resetsLevels once)
  · exact .inr (mem_toggleLevels toggled rfl)
  · exact .inl (mem_resetsLevels again)
  · cases mem_low down
  · cases mem_low last

theorem toggled_of_uartLine (uart : uartLine config = some gpio) :
    (gpio, true) ∈ toggleLevels config.toBusSwitcherConfig false false true := by
  unfold uartLine at uart
  unfold toggleLevels
  cases bus : config.busEnableGpio with
  | some line =>
    rw [bus] at uart
    rw [Option.some.inj uart]
    exact List.mem_singleton_self _
  | none =>
    rw [bus, Option.none_or] at uart
    exact List.mem_append_right _ (List.mem_map_of_mem (Option.mem_toList.mpr uart))

theorem mem_enableLines_of_uartLine (uart : uartLine config = some gpio) :
    gpio ∈ enableLines config.toBusSwitcherConfig := by
  rw [← map_fst_toggleLevels config.toBusSwitcherConfig false false true]
  exact List.mem_map_of_mem (toggled_of_uartLine uart)

/-! ## The board of mocks -/

variable [DecidableEq G]

/-- The level of a line while the connector is in use. -/
def usedLevel (config : UartConfig G) (gpio : G) : Bool :=
  config.powerEnableGpio = some gpio ∨ uartLine config = some gpio

/-- The level of a line once the connector is destroyed. -/
def leftLevel (config : UartConfig G) (gpio : G) : Bool :=
  config.powerEnableGpio = some gpio ∧ config.disablePowerOnShutdown = false

variable {board : G → GpioMock}

omit [DecidableEq G] in
theorem not_enable_of_power (nodup : (gpios config).Nodup)
    (power : config.powerEnableGpio = some gpio) :
    gpio ∉ enableLines config.toBusSwitcherConfig := by
  intro enable
  have early := List.mem_append_right config.pgmSwitchGpio.toList (Option.mem_toList.mpr power)
  exact (List.nodup_append.mp nodup).2.2 gpio early gpio enable rfl

/-- The switcher selects the UART. -/
theorem ready_enable (nodup : (gpios config).Nodup)
    (enable : gpio ∈ enableLines config.toBusSwitcherConfig) :
    ready config board gpio = .driving (uartLine config = some gpio) := by
  have lines := map_fst_toggleLevels config.toBusSwitcherConfig false false true
  have toggled := enable
  rw [← lines] at toggled
  unfold ready startLevels
  rw [← List.append_assoc, driven_append]
  obtain ⟨value, among, shows_⟩ := driven_of_mem _ toggled
  rw [shows_]
  by_cases uart : uartLine config = some gpio
  · have keys := (List.nodup_append.mp nodup).2.1
    rw [← lines] at keys
    have same := List.inj_on_of_nodup_map keys among (toggled_of_uartLine uart) rfl
    rw [(Prod.mk.inj same).2, decide_eq_true uart]
  · have isLow : value = false :=
      eq_false_of_ne_true fun high => uart (mem_toggleLevels among high)
    rw [isLow, decide_eq_false uart]

/-- Once `initGpio` has returned, exactly the power and the line of the UART are high. -/
theorem ready_of_mem (nodup : (gpios config).Nodup) (member : gpio ∈ gpios config) :
    ready config board gpio = .driving (usedLevel config gpio) := by
  unfold usedLevel
  by_cases power : config.powerEnableGpio = some gpio
  · rw [ready_powerEnableGpio power (not_enable_of_power nodup power),
      decide_eq_true (.inl power)]
  · rw [decide_eq_decide.mpr (or_iff_right power)]
    by_cases enable : gpio ∈ enableLines config.toBusSwitcherConfig
    · exact ready_enable nodup enable
    · rw [ready_low member enable power,
        decide_eq_false fun uart => enable (mem_enableLines_of_uartLine uart)]

/-- A reset changes nothing in the end. -/
theorem strict_resetTr (nodup : (gpios config).Nodup) :
    Feed.strict perform (ready config board) (resetTr config) = (ready config board, .ok ()) := by
  cases power : config.powerEnableGpio with
  | none =>
    rw [resetTr, power]
    rfl
  | some line =>
    have on : ready config board line = .driving true :=
      ready_powerEnableGpio power (not_enable_of_power nodup power)
    have output : ∀ gpio ∈ [(line, false), (line, true)].map Prod.fst,
        (ready config board gpio).IsOutput := by
      intro gpio member
      have same : gpio = line := by simpa using member
      rw [same, on]
      exact GpioMock.isOutput_driving true
    have levels : resetTr config = setValues [(line, false), (line, true)] := by
      rw [resetTr, power]
      rfl
    rw [levels, strict_setValues output]
    change (Function.update (Function.update (ready config board) line (.driving false)) line
      (.driving true), _) = _
    rw [Function.update_idem, ← on, Function.update_eq_self]

theorem strict_inUse (nodup : (gpios config).Nodup) (resets : Nat) (board : G → GpioMock) :
    Feed.strict perform board (inUse config resets) = (ready config board, .ok ()) := by
  rw [inUse, Feed.strict_append_of_ok (strict_initGpio config board)]
  induction resets with
  | zero => rfl
  | succ resets ih =>
    rw [List.replicate_succ, List.flatten_cons, Feed.strict_append_of_ok (strict_resetTr nodup), ih]

theorem mem_shutdownLines_iff (nodup : (gpios config).Nodup) (member : gpio ∈ gpios config) :
    gpio ∈ shutdownLines config ↔ leftLevel config gpio = false := by
  have split_ := member
  unfold gpios at split_
  simp only [List.mem_append, Option.mem_toList] at split_
  unfold shutdownLines leftLevel
  simp only [List.mem_append, Option.mem_toList, decide_eq_false_iff_not, not_and,
    Bool.not_eq_false]
  by_cases power : config.powerEnableGpio = some gpio
  · have notPgm : config.pgmSwitchGpio ≠ some gpio := fun pgm =>
      (List.nodup_append.mp (List.nodup_append.mp nodup).1).2.2 gpio (Option.mem_toList.mpr pgm)
        gpio (Option.mem_toList.mpr power) rfl
    cases config.disablePowerOnShutdown <;>
      simp [power, notPgm, not_enable_of_power nodup power]
  · rcases split_ with (pgm | isPower) | enable
    · simp [power, pgm]
    · exact absurd isPower power
    · simp [power, enable]

/-- Once the connector is destroyed, all its lines are low but for a power that is to stay. -/
theorem left_of_mem (nodup : (gpios config).Nodup) (member : gpio ∈ gpios config) :
    driven (low (enableLines config.toBusSwitcherConfig))
      (driven (low (shutdownLines config)) (ready config board)) gpio =
        .driving (leftLevel config gpio) := by
  rw [driven_low, driven_low]
  by_cases down : gpio ∈ shutdownLines config
  · rw [if_pos down, ite_self, (mem_shutdownLines_iff nodup member).mp down]
  · have stays : leftLevel config gpio = true :=
      eq_true_of_ne_false fun isLow => down ((mem_shutdownLines_iff nodup member).mpr isLow)
    have power : config.powerEnableGpio = some gpio := (of_decide_eq_true stays).1
    have alone := not_enable_of_power nodup power
    rw [if_neg alone, if_neg down, ready_powerEnableGpio power alone, stays]

/-- What the calls of a lifetime do on a board of mocks. -/
theorem strict_lifetime (nodup : (gpios config).Nodup) (resets : Nat) (board : G → GpioMock) :
    Feed.strict perform board (lifetime config resets) =
      (driven (low (enableLines config.toBusSwitcherConfig)) (driven (low (shutdownLines config))
        (ready config board)), .ok ()) := by
  have among : ∀ gpio ∈ shutdownLines config, gpio ∈ gpios config :=
    fun _ => mem_gpios_of_mem_shutdownLines
  have outputs : ∀ gpio ∈ (low (enableLines config.toBusSwitcherConfig)).map Prod.fst,
      (driven (low (shutdownLines config)) (ready config board) gpio).IsOutput := by
    intro gpio member
    rw [map_fst_low] at member
    exact (isOutput_driven_iff _ _ gpio).mpr (.inl (isOutput_ready (mem_gpios_of_enable member)))
  rw [lifetime, Feed.strict_append_of_ok (strict_inUse nodup resets board), shutdown_eq, destroy_eq,
    Feed.strict_append_of_ok (strict_low_ready board among), strict_setValues outputs]

/-! ## On any driver -/

variable {σ ε : Type*} {driver : Base σ ε} {level : σ → Bool} {Fresh : σ → Prop}
  {Shows : σ → Pin → Prop}

/-- **The lines of a UART connector.** With a fresh line for each purpose, all GPIO calls of
a connector go through on every driver, from the constructor to the destructor of its bus
switcher. At every point only the power and the line of the UART can be high; both are
while the connector is in use, whatever has been reset; and in the end all lines are
low, but for a power that is to stay, and the other lines as they were. -/
theorem lifetime_lines (drives : Drives driver level Fresh Shows) (config : UartConfig G)
    (nodup : (gpios config).Nodup) {board : G → σ}
    (fresh : ∀ gpio ∈ gpios config, Fresh (board gpio)) (resets : Nat) :
    (∀ before later, lifetime config resets = before ++ later → ∃ board',
      Feed.strict (drive driver) board before = (board', .ok ()) ∧
      ∀ gpio ∈ initialised before, level (board' gpio) = true →
        config.powerEnableGpio = some gpio ∨ uartLine config = some gpio) ∧
    (∃ board', Feed.strict (drive driver) board (inUse config resets) = (board', .ok ()) ∧
      ∀ gpio ∈ gpios config, level (board' gpio) = usedLevel config gpio) ∧
    ∃ board', Feed.strict (drive driver) board (lifetime config resets) = (board', .ok ()) ∧
      (∀ gpio ∈ gpios config, level (board' gpio) = leftLevel config gpio) ∧
      ∀ gpio ∉ gpios config, board' gpio = board gpio := by
  have lines := initialised_lifetime config resets
  have isDriving := isDriving_lifetime config resets
  have fresh' : ∀ gpio ∈ initialised (lifetime config resets), Fresh (board gpio) :=
    fun gpio member => fresh gpio (lines ▸ member)
  have sound := drives.follows_mocks isDriving (.inr (lines ▸ nodup)) fresh'
    (strict_lifetime nodup resets _)
  refine ⟨fun before later parts => ?_, ?_, ?_⟩
  · obtain ⟨mocks, board', reached, taken, levels, -⟩ := sound before later parts
    refine ⟨board', taken, fun gpio member high => ?_⟩
    rw [levels gpio member] at high
    have isDriving' : ∀ call ∈ before, IsDriving call.2 := fun call among =>
      isDriving call (parts ▸ List.mem_append_left later among)
    rcases shown_of_run isDriving' reached gpio with same | ⟨value, shows_, among⟩
    · rw [same] at high
      cases high
    · rw [shows_] at high
      have isHigh : value = true := high
      subst isHigh
      have among' : (gpio, .initOutput true) ∈ lifetime config resets ∨
          (gpio, .setValue true) ∈ lifetime config resets := by
        rw [parts]
        exact among.imp (List.mem_append_left later) (List.mem_append_left later)
      exact high_of_mem_lifetime among'
  · obtain ⟨mocks, board', reached, taken, levels, -⟩ := sound (inUse config resets) _ rfl
    refine ⟨board', taken, fun gpio member => ?_⟩
    rw [strict_inUse nodup] at reached
    cases reached
    rw [levels gpio (initialised_inUse config resets ▸ member), ready_of_mem nodup member]
    rfl
  · obtain ⟨mocks, board', reached, taken, levels, others⟩ :=
      sound (lifetime config resets) [] (List.append_nil _).symm
    rw [strict_lifetime nodup] at reached
    cases reached
    refine ⟨board', taken, fun gpio member => ?_, fun gpio other => ?_⟩
    · rw [levels gpio (lines ▸ member), left_of_mem nodup member]
      rfl
    · refine others gpio fun member => other ?_
      exact mem_gpios_of_lifetime member

/-- A connector with three lines of libgpiod 2, reset twice. -/
theorem lifetime_lines_kernelChip :
    let config : UartConfig Nat :=
      { device := "/dev/ttyS0", pgmSwitchGpio := some 1, powerEnableGpio := some 2,
        uartEnableGpio := some 4 }
    ∃ board', Feed.strict (drive (GpiodV2.gpiod Gpiod.kernelChip)) (fun _ => ⟨{}, none⟩)
        (inUse config 2) = (board', .ok ()) ∧
      ∀ gpio ∈ gpios config, (board' gpio).kernel.level = usedLevel config gpio :=
  (lifetime_lines (drives_gpiodV2 Gpiod.documented_kernelChip)
    { device := "/dev/ttyS0", pgmSwitchGpio := some 1, powerEnableGpio := some 2,
      uartEnableGpio := some 4 } (by decide) (fun _ _ => ⟨rfl, rfl⟩) 2).2.1

end Iqrf.Connector.Uart
