import Iqrf.Connector.Uart.Construction

/-!
# Destroying a bus switcher

`BusSwitcher::~BusSwitcher` writes to every line that the switcher uses. A line that was
never initialised throws there, and an exception that leaves a destructor terminates
the program. Whether it does depends on what happened before: `init` may never have been
called, one of its calls may have been refused, or the switcher is destroyed because the
constructor of its connector has thrown before it came that far. A refused call throws and
leaves its line as it was, so a `Lifecycle` is told by the calls that returned.
-/

namespace Iqrf.Connector.BusSwitcher

open Iqrf.Gpio Uart

variable {G : Type*}

/-- The calls of some toggles, each given by the levels of the buses. -/
def toggles (config : BusSwitcherConfig G) (values : List (Bus → Bool)) : List (G × Gpio.Call) :=
  values.flatMap fun value => toggle config (value .i2c) (value .spi) (value .uart)

/-- What happens to a switcher between its construction and its destruction: `init` is not
called, returns, or is interrupted when the system refuses one of its calls, and
toggles follow; or the constructor of a UART connector is unwound after the system has
refused one of the calls of `initGpio`. -/
inductive Lifecycle (G : Type*)
  | notCalled (config : BusSwitcherConfig G) (values : List (Bus → Bool))
  | returned (config : BusSwitcherConfig G) (values : List (Bus → Bool))
  | interrupted (config : BusSwitcherConfig G) (refused : Nat) (values : List (Bus → Bool))
  | unwound (config : UartConfig G) (refused : Nat)

namespace Lifecycle

def config : Lifecycle G → BusSwitcherConfig G
  | notCalled config _ | returned config _ | interrupted config _ _ => config
  | unwound config _ => config.toBusSwitcherConfig

/-- The calls that return. -/
def calls : Lifecycle G → List (G × Gpio.Call)
  | notCalled config values => toggles config values
  | returned config values => init config ++ toggles config values
  | interrupted config refused values => (init config).take refused ++ toggles config values
  | unwound config refused => (UartConnector.initGpio config).take refused

/-- The lines that are to be initialised, in this order. -/
def lines : Lifecycle G → List G
  | notCalled config _ | returned config _ | interrupted config _ _ => enableLines config
  | unwound config _ => UartConnector.gpios config

/-- The lines whose initialiser returns. -/
def initialised : Lifecycle G → List G
  | notCalled _ _ => []
  | returned config _ => enableLines config
  | interrupted config refused _ => (enableLines config).take refused
  | unwound config refused => (UartConnector.gpios config).take refused

/-- `init` is called and returns. -/
def InitReturns : Lifecycle G → Prop
  | notCalled _ _ => False
  | returned _ _ => True
  | interrupted config refused _ => (enableLines config).length ≤ refused
  | unwound config refused => (UartConnector.gpios config).length ≤ refused

end Lifecycle

variable [DecidableEq G]

/-- The calls return on lines that nobody else has initialised. -/
def Lifecycle.Reaches (lifecycle : Lifecycle G) (board : G → GpioMock) : Prop :=
  Feed.strict perform (fun _ => {}) lifecycle.calls = (board, .ok ())

/-- The destructor sets the value of initialised outputs only, and lets no exception
escape. -/
def Destroyable (config : BusSwitcherConfig G) (board : G → GpioMock) : Prop :=
  Feed.Taken perform (fun board call => (board call.1).IsOutput) board (destroy config) ∧
    (Feed.strict perform board (destroy config)).2 = .ok ()

variable {config : BusSwitcherConfig G} {board after : G → GpioMock} {levels : List (G × Bool)}

/-! ## The destructor -/

theorem taken_setValues (outputs : ∀ gpio ∈ levels.map Prod.fst, (board gpio).IsOutput) :
    Feed.Taken perform (fun board call => (board call.1).IsOutput) board (setValues levels) := by
  induction levels generalizing board with
  | nil => trivial
  | cons level levels ih =>
    rw [List.map_cons, List.forall_mem_cons] at outputs
    have step := perform_setValue_of_isOutput outputs.1 level.2
    rw [setValues, List.map_cons, ← setValues, Feed.taken_cons_iff step]
    refine ⟨outputs.1, ih fun gpio member => ?_⟩
    exact (isOutput_driven_iff [level] board gpio).mpr (.inl (outputs.2 gpio member))

theorem strict_destroy_iff (config : BusSwitcherConfig G) (board : G → GpioMock) :
    (Feed.strict perform board (destroy config)).2 = .ok () ↔
      ∀ gpio ∈ enableLines config, (board gpio).IsOutput := by
  rw [destroy_eq, strict_setValues_iff, map_fst_low]

/-- The destructor goes through exactly if each line of the switcher is an initialised
output. -/
theorem destroyable_iff_isOutput :
    Destroyable config board ↔ ∀ gpio ∈ enableLines config, (board gpio).IsOutput := by
  rw [Destroyable, strict_destroy_iff, destroy_eq]
  refine ⟨fun given => given.2, fun outputs => ⟨taken_setValues ?_, outputs⟩⟩
  rw [map_fst_low]
  exact outputs

/-! ## What has been initialised -/

/-- Writes that go through initialise nothing. -/
theorem isOutput_of_setValues {gpio : G}
    (run : Feed.strict perform board (setValues levels) = (after, .ok ())) :
    (after gpio).IsOutput ↔ (board gpio).IsOutput := by
  have ok : (Feed.strict perform board (setValues levels)).2 = .ok () := by rw [run]
  have outputs := strict_setValues_iff.mp ok
  rw [strict_setValues outputs] at run
  obtain ⟨same, -⟩ := Prod.mk.inj run
  subst same
  rw [isOutput_driven_iff]
  exact or_iff_left_of_imp (outputs gpio)

/-- Initialisers, and then writes that go through. -/
theorem isOutput_of_run {gpio : G} {later : List (G × Bool)}
    (run : Feed.strict perform (fun _ => {}) (initOutputs levels ++ setValues later) =
      (board, .ok ())) : (board gpio).IsOutput ↔ gpio ∈ levels.map Prod.fst := by
  rw [Feed.strict_append_of_ok (strict_initOutputs levels _)] at run
  rw [isOutput_of_setValues run, isOutput_driven_iff]
  exact or_iff_right GpioMock.not_isOutput_blank

omit [DecidableEq G] in
theorem toggles_eq (config : BusSwitcherConfig G) (values : List (Bus → Bool)) :
    ∃ levels, toggles config values = setValues levels := by
  refine ⟨values.flatMap fun value =>
    toggleLevels config (value .i2c) (value .spi) (value .uart), ?_⟩
  unfold toggles setValues
  rw [List.map_flatMap]
  exact List.flatMap_congr fun value _ => toggle_eq config ..

omit [DecidableEq G] in
/-- A lifecycle initialises some lines and then sets values. -/
theorem Lifecycle.calls_eq (lifecycle : Lifecycle G) :
    ∃ levels later, lifecycle.calls = initOutputs levels ++ setValues later ∧
      levels.map Prod.fst = lifecycle.initialised := by
  cases lifecycle with
  | notCalled config values =>
    obtain ⟨later, toggled⟩ := toggles_eq config values
    exact ⟨[], later, toggled, rfl⟩
  | returned config values =>
    obtain ⟨later, toggled⟩ := toggles_eq config values
    exact ⟨low (enableLines config), later, by rw [calls, init_eq, toggled], map_fst_low _⟩
  | interrupted config refused values =>
    obtain ⟨later, toggled⟩ := toggles_eq config values
    refine ⟨low ((enableLines config).take refused), later, ?_, map_fst_low _⟩
    rw [calls, init_eq, toggled, initOutputs, low, ← List.map_take, ← List.map_take]
    rfl
  | unwound config refused =>
    refine ⟨(UartConnector.initLevels config).take refused,
      (UartConnector.startLevels config).take
        (refused - (initOutputs (UartConnector.initLevels config)).length), ?_, ?_⟩
    · rw [calls, UartConnector.initGpio_eq, List.take_append, initOutputs, setValues,
        ← List.map_take, ← List.map_take]
      rfl
    · rw [List.map_take, UartConnector.map_fst_initLevels]
      rfl

/-- The initialised outputs are the lines whose initialiser has returned. -/
theorem Lifecycle.Reaches.isOutput_iff {lifecycle : Lifecycle G}
    (reached : lifecycle.Reaches board) {gpio : G} :
    (board gpio).IsOutput ↔ gpio ∈ lifecycle.initialised := by
  obtain ⟨levels, later, calls, lines⟩ := lifecycle.calls_eq
  rw [Lifecycle.Reaches, calls] at reached
  rw [isOutput_of_run reached, lines]

/-! ## Lines of their own -/

omit [DecidableEq G] in
/-- Of different lines, the first few contain the ones at the end only if they are all. -/
theorem forall_mem_take_iff (earlier : List G) {lines : List G} {count : Nat}
    (nodup : (earlier ++ lines).Nodup) :
    (∀ gpio ∈ lines, gpio ∈ (earlier ++ lines).take count) ↔
      (earlier ++ lines).length ≤ count ∨ lines = [] := by
  apply Iff.intro
  · intro among
    rcases List.eq_nil_or_concat lines with none_ | ⟨before, last, same⟩
    · exact Or.inr none_
    · left
      subst same
      rw [List.concat_eq_append, ← List.append_assoc] at nodup among ⊢
      by_contra short
      rw [List.length_append, List.length_singleton] at short
      have early := among last (List.mem_append_right _ (List.mem_singleton_self last))
      rw [List.take_append_of_le_length (by omega)] at early
      exact (List.nodup_append.mp nodup).2.2 last (List.mem_of_mem_take early) last
        (List.mem_singleton_self last) rfl
  · intro given gpio member
    rcases given with all | none_
    · rw [List.take_of_length_le all]
      exact List.mem_append_right _ member
    · rw [none_] at member
      cases member

omit [DecidableEq G] in
/-- With a line for each purpose, all lines of the switcher are initialised exactly if
`init` returns. -/
theorem Lifecycle.initialised_iff {lifecycle : Lifecycle G} (nodup : lifecycle.lines.Nodup) :
    (∀ gpio ∈ enableLines lifecycle.config, gpio ∈ lifecycle.initialised) ↔
      lifecycle.InitReturns ∨ enableLines lifecycle.config = [] := by
  cases lifecycle with
  | notCalled config values =>
    rw [List.eq_nil_iff_forall_not_mem]
    exact ⟨fun among => .inr fun gpio member => List.not_mem_nil (among gpio member),
      fun given gpio member => (given.resolve_left id gpio member).elim⟩
  | returned config values => exact iff_of_true (fun _ member => member) (.inl trivial)
  | interrupted config refused values => exact forall_mem_take_iff [] nodup
  | unwound config refused => exact forall_mem_take_iff _ nodup

/-- **When a bus switcher can be destroyed.** At the end of a lifecycle the destructor goes
through exactly if each line of the switcher is among those whose initialiser has
returned. With a line for each purpose that is so exactly if `init` was called and returned,
or if the switcher has no line. -/
theorem destroyable_iff (lifecycle : Lifecycle G) {board : G → GpioMock}
    (reached : lifecycle.Reaches board) :
    (Destroyable lifecycle.config board ↔
      ∀ gpio ∈ enableLines lifecycle.config, gpio ∈ lifecycle.initialised) ∧
    (lifecycle.lines.Nodup →
      (Destroyable lifecycle.config board ↔
        lifecycle.InitReturns ∨ enableLines lifecycle.config = [])) := by
  have destroyable : Destroyable lifecycle.config board ↔
      ∀ gpio ∈ enableLines lifecycle.config, gpio ∈ lifecycle.initialised := by
    rw [destroyable_iff_isOutput]
    exact forall₂_congr fun gpio _ => reached.isOutput_iff
  exact ⟨destroyable, fun nodup => destroyable.trans (Lifecycle.initialised_iff nodup)⟩

/-- The lines of the unit test, after `init` and two toggles. -/
theorem destroyable_testConfig :
    ∃ board, (Lifecycle.returned testConfig
        [fun bus => bus = .i2c, fun bus => bus = .uart]).Reaches board ∧
      Destroyable testConfig board :=
  ⟨_, rfl, ((destroyable_iff (.returned testConfig
    [fun bus => bus = .i2c, fun bus => bus = .uart]) rfl).2 (by decide)).mpr (.inl trivial)⟩

/-- The PGM switch line is refused, so the bus switcher never gets to its line. -/
theorem not_destroyable :
    ¬ ∀ (lifecycle : Lifecycle Nat) (board : Nat → GpioMock), lifecycle.lines.Nodup →
      lifecycle.Reaches board → Destroyable lifecycle.config board := by
  intro destroyable
  have ok := (destroyable
    (.unwound { device := "/dev/ttyS0", pgmSwitchGpio := some 1, uartEnableGpio := some 4 } 0)
    (fun _ => {}) (by decide) rfl).2
  cases ok

/-! ## The constructor of the connector -/

/-- Unwinding terminates the program exactly if an exception escapes from the destructor of
the switcher. -/
theorem unwind_terminated_iff (config : UartConfig G) (system : Uart.System G)
    (error : ConstructError) :
    (UartConnector.unwind config system error).2 = .terminated ↔
      (Feed.strict perform system.board (destroy config.toBusSwitcherConfig)).2 ≠ .ok () := by
  unfold UartConnector.unwind
  rcases Feed.strict perform system.board (destroy config.toBusSwitcherConfig) with
    ⟨board, e | ⟨⟩⟩
  · exact iff_of_true rfl fun ok => by cases ok
  · exact iff_of_false (fun thrown => by cases thrown) fun escapes => escapes rfl

/-- The calls of `initGpio` before one that is refused, while they still initialise. -/
theorem attempt_refused (config : UartConfig G) (board : G → GpioMock) {refused : Nat}
    (early : refused < (UartConnector.gpios config).length) :
    UartConnector.attempt (some refused) (UartConnector.initGpio config) board =
      (driven ((UartConnector.initLevels config).take refused) board, .error .gpioRefused) := by
  have length : (initOutputs (UartConnector.initLevels config)).length =
      (UartConnector.gpios config).length := by
    rw [← UartConnector.map_fst_initLevels, initOutputs, List.length_map, List.length_map]
  have returned : (UartConnector.initGpio config).take refused =
      initOutputs ((UartConnector.initLevels config).take refused) := by
    rw [UartConnector.initGpio_eq, List.take_append_of_le_length (by omega), initOutputs,
      initOutputs, List.map_take]
  have more : refused < (UartConnector.initGpio config).length := by
    rw [UartConnector.initGpio_eq, List.length_append]
    omega
  simp only [UartConnector.attempt, Option.elim_some, returned, strict_initOutputs,
    Option.any_some, more, decide_true, if_true]

/-- Where the system refuses a line in the constructor of a UART connector, the program is
terminated exactly if the switcher has a line that was not reached. -/
theorem construct_terminated_iff (config : UartConfig G) {refused : Nat}
    (early : refused < (UartConnector.gpios config).length)
    (reports : SerialCall → Option SerialError) :
    (UartConnector.construct config (some refused) reports ⟨fun _ => {}, {}⟩).2 = .terminated ↔
      ∃ gpio ∈ enableLines config.toBusSwitcherConfig,
        gpio ∉ (UartConnector.gpios config).take refused := by
  have outputs : ∀ gpio, (driven ((UartConnector.initLevels config).take refused)
      (fun _ => {}) gpio).IsOutput ↔ gpio ∈ (UartConnector.gpios config).take refused := by
    intro gpio
    rw [isOutput_driven_iff, List.map_take, UartConnector.map_fst_initLevels]
    exact or_iff_right GpioMock.not_isOutput_blank
  simp only [UartConnector.construct, attempt_refused config _ early]
  rw [unwind_terminated_iff, ne_eq, strict_destroy_iff]
  simp only [outputs, not_forall, exists_prop]

end Iqrf.Connector.BusSwitcher
