import Iqrf.Connector.Driving
import Mathlib.Data.Fintype.Option
import Mathlib.Data.List.Chain

/-!
# The bus switcher

`BusSwitcher::init` and `BusSwitcher::toggle` are straight sequences of calls on the
enable lines that are configured, so they are modelled as the list of these calls;
`perform` makes one after another and lets the first exception out. `toggle` writes
the lines always in the same order, I2C before SPI before UART, and the destructor is the
toggle to low of them all. The states of a run are the boards after each prefix of its
calls.

`mixes` are what the lines show in the middle of a toggle: the new levels on the lines
already written, the old ones on the rest. At most one line is high throughout
exactly if the bus that goes low does not come after the bus that goes high.
-/

namespace Iqrf.Connector

open Iqrf.Gpio

/-- Bus switch configuration; `G` are the GPIO lines. -/
structure BusSwitcherConfig (G : Type*) where
  busEnableGpio : Option G := none
  i2cEnableGpio : Option G := none
  spiEnableGpio : Option G := none
  uartEnableGpio : Option G := none
  deriving DecidableEq

variable {G : Type*}

namespace BusSwitcher

/-- The calls of `BusSwitcher::init`. -/
def init (config : BusSwitcherConfig G) : List (G × Call) :=
  match config.busEnableGpio with
  | some gpio => [(gpio, .initOutput false)]
  | none =>
    (config.i2cEnableGpio.toList.map fun gpio => (gpio, .initOutput false)) ++
      (config.spiEnableGpio.toList.map fun gpio => (gpio, .initOutput false)) ++
      (config.uartEnableGpio.toList.map fun gpio => (gpio, .initOutput false))

/-- The calls of `BusSwitcher::toggle`. -/
def toggle (config : BusSwitcherConfig G) (i2c spi uart : Bool) : List (G × Call) :=
  match config.busEnableGpio with
  | some gpio => [(gpio, .setValue (i2c || spi || uart))]
  | none =>
    (config.i2cEnableGpio.toList.map fun gpio => (gpio, .setValue i2c)) ++
      (config.spiEnableGpio.toList.map fun gpio => (gpio, .setValue spi)) ++
      (config.uartEnableGpio.toList.map fun gpio => (gpio, .setValue uart))

def toggleI2c (config : BusSwitcherConfig G) (enable : Bool) : List (G × Call) :=
  toggle config enable false false

def toggleSpi (config : BusSwitcherConfig G) (enable : Bool) : List (G × Call) :=
  toggle config false enable false

def toggleUart (config : BusSwitcherConfig G) (enable : Bool) : List (G × Call) :=
  toggle config false false enable

/-- A call of one of the three. -/
inductive ToggleCall
  | toggleI2c (enable : Bool)
  | toggleSpi (enable : Bool)
  | toggleUart (enable : Bool)
  deriving DecidableEq, Repr

def ToggleCall.calls (config : BusSwitcherConfig G) : ToggleCall → List (G × Call)
  | toggleI2c enable => BusSwitcher.toggleI2c config enable
  | toggleSpi enable => BusSwitcher.toggleSpi config enable
  | toggleUart enable => BusSwitcher.toggleUart config enable

/-! ## The lines and their levels -/

/-- The lines that a switcher uses. -/
def enableLines (config : BusSwitcherConfig G) : List G :=
  match config.busEnableGpio with
  | some gpio => [gpio]
  | none =>
    config.i2cEnableGpio.toList ++ config.spiEnableGpio.toList ++ config.uartEnableGpio.toList

/-- The levels to which `toggle` sets them. -/
def toggleLevels (config : BusSwitcherConfig G) (i2c spi uart : Bool) : List (G × Bool) :=
  match config.busEnableGpio with
  | some gpio => [(gpio, i2c || spi || uart)]
  | none =>
    (config.i2cEnableGpio.toList.map fun gpio => (gpio, i2c)) ++
      (config.spiEnableGpio.toList.map fun gpio => (gpio, spi)) ++
      (config.uartEnableGpio.toList.map fun gpio => (gpio, uart))

/-- The calls of `BusSwitcher::~BusSwitcher`. -/
def destroy (config : BusSwitcherConfig G) : List (G × Call) := toggle config false false false

theorem init_eq (config : BusSwitcherConfig G) :
    init config = initOutputs (low (enableLines config)) := by
  unfold init enableLines
  cases config.busEnableGpio with
  | some gpio => rfl
  | none => simp only [initOutputs, low, List.map_append, List.map_map, Function.comp_def]

theorem toggle_eq (config : BusSwitcherConfig G) (i2c spi uart : Bool) :
    toggle config i2c spi uart = setValues (toggleLevels config i2c spi uart) := by
  unfold toggle toggleLevels
  cases config.busEnableGpio with
  | some gpio => rfl
  | none => simp only [setValues, List.map_append, List.map_map, Function.comp_def]

theorem map_fst_toggleLevels (config : BusSwitcherConfig G) (i2c spi uart : Bool) :
    (toggleLevels config i2c spi uart).map Prod.fst = enableLines config := by
  unfold toggleLevels enableLines
  cases config.busEnableGpio with
  | some gpio => rfl
  | none => simp only [List.map_append, List.map_map, Function.comp_def, List.map_id']

theorem toggleLevels_low (config : BusSwitcherConfig G) :
    toggleLevels config false false false = low (enableLines config) := by
  unfold toggleLevels enableLines
  cases config.busEnableGpio with
  | some gpio => rfl
  | none => simp only [low, List.map_append]

theorem destroy_eq (config : BusSwitcherConfig G) :
    destroy config = setValues (low (enableLines config)) := by
  rw [destroy, toggle_eq, toggleLevels_low]

/-! ## Buses and levels -/

inductive Bus
  | i2c
  | spi
  | uart
  deriving DecidableEq, Repr

namespace Bus

/-- The buses in the order in which `toggle` writes their lines. -/
def all : List Bus := [i2c, spi, uart]

instance : Fintype Bus := ⟨⟨all, by decide⟩, fun bus => by cases bus <;> decide⟩

def index : Bus → Nat
  | i2c => 0
  | spi => 1
  | uart => 2

end Bus

/-- The line of a bus. -/
def line (config : BusSwitcherConfig G) : Bus → Option G
  | .i2c => config.i2cEnableGpio
  | .spi => config.spiEnableGpio
  | .uart => config.uartEnableGpio

theorem mem_enableLines {config : BusSwitcherConfig G} (single : config.busEnableGpio = none)
    {bus : Bus} {gpio : G} (line_ : line config bus = some gpio) : gpio ∈ enableLines config := by
  unfold enableLines
  rw [single]
  simp only [List.mem_append, Option.mem_toList]
  cases bus with
  | i2c => exact .inl (.inl line_)
  | spi => exact .inl (.inr line_)
  | uart => exact .inr line_

/-- No line is configured for two buses. -/
def Distinct (config : BusSwitcherConfig G) : Prop :=
  ∀ bus bus' gpio, line config bus = some gpio → line config bus' = some gpio → bus = bus'

namespace ToggleCall

def bus : ToggleCall → Bus
  | toggleI2c _ => .i2c
  | toggleSpi _ => .spi
  | toggleUart _ => .uart

def enable : ToggleCall → Bool
  | toggleI2c enable | toggleSpi enable | toggleUart enable => enable

end ToggleCall

/-- The bus that a call sets high, if it has a line. -/
def raises (config : BusSwitcherConfig G) (call : ToggleCall) : Option Bus :=
  if call.enable ∧ (line config call.bus).isSome then some call.bus else none

/-- From one enabled bus to one that `toggle` writes before it. -/
def Backward : Option Bus → Option Bus → Prop
  | some bus, some bus' => bus'.index < bus.index
  | _, _ => False

instance : ∀ before after, Decidable (Backward before after)
  | some bus, some bus' => inferInstanceAs (Decidable (bus'.index < bus.index))
  | none, _ => inferInstanceAs (Decidable False)
  | some _, none => inferInstanceAs (Decidable False)

/-- The levels with one bus high, or none. -/
def level (high : Option Bus) (bus : Bus) : Bool := high = some bus

/-- The levels on the way from `levels` to `values`, bus by bus. -/
def mixes (levels values : Bus → Bool) : List Bus → List (Bus → Bool)
  | [] => [levels]
  | bus :: buses => levels :: mixes (Function.update levels bus (values bus)) values buses

/-- At most one bus is high. -/
def AtMostOne (levels : Bus → Bool) : Prop :=
  ∀ bus bus', levels bus = true → levels bus' = true → bus = bus'

instance (levels : Bus → Bool) : Decidable (AtMostOne levels) :=
  inferInstanceAs (Decidable (∀ _ _, _ → _ → _))

/-- The order of the writes decides: never are two buses high exactly if the switch is
not backward. -/
theorem atMostOne_mixes_iff (before after : Option Bus) :
    (∀ levels ∈ mixes (level before) (level after) Bus.all, AtMostOne levels) ↔
      ¬ Backward before after := by
  revert before after
  decide

/-! ## A board of lines -/

variable [DecidableEq G]

/-- Each enable line is an initialised output that drives its level; a bus without a
line counts as low. -/
def Shows (config : BusSwitcherConfig G) (board : G → GpioMock) (levels : Bus → Bool) : Prop :=
  (∀ bus gpio, line config bus = some gpio → board gpio = .driving (levels bus)) ∧
    ∀ bus, line config bus = none → levels bus = false

/-- At most one of the enable lines is high. -/
def AtMostOneHigh (config : BusSwitcherConfig G) (board : G → GpioMock) : Prop :=
  ∀ bus bus' gpio gpio', line config bus = some gpio → line config bus' = some gpio' →
    (board gpio).value = true → (board gpio').value = true → bus = bus'

variable {config : BusSwitcherConfig G} {board : G → GpioMock} {levels values : Bus → Bool}

omit [DecidableEq G] in
theorem atMostOneHigh_iff (shows_ : Shows config board levels) :
    AtMostOneHigh config board ↔ AtMostOne levels := by
  have present : ∀ {bus}, levels bus = true → ∃ gpio, line config bus = some gpio := by
    intro bus high
    by_contra absent
    have low := shows_.2 bus (Option.eq_none_iff_forall_ne_some.mpr fun gpio some_ =>
      absent ⟨gpio, some_⟩)
    rw [high] at low
    cases low
  apply Iff.intro
  · intro one bus bus' high high'
    obtain ⟨gpio, some_⟩ := present high
    obtain ⟨gpio', some_'⟩ := present high'
    refine one bus bus' gpio gpio' some_ some_' ?_ ?_
    · rw [shows_.1 bus gpio some_]
      exact high
    · rw [shows_.1 bus' gpio' some_']
      exact high'
  · intro one bus bus' gpio gpio' some_ some_' high high'
    rw [shows_.1 bus gpio some_] at high
    rw [shows_.1 bus' gpio' some_'] at high'
    exact one bus bus' high high'

/-- One call that leaves a line driving a value. -/
theorem Shows.perform {bus : Bus} {gpio : G} {call : Call} {value : Bool}
    (distinct : Distinct config) (shows_ : Shows config board levels)
    (line_ : line config bus = some gpio)
    (drives : gpioMock.call (board gpio) call = (.driving value, .ok ())) :
    BusSwitcher.perform board (gpio, call) =
        (Function.update board gpio (.driving value), .ok ()) ∧
      Shows config (Function.update board gpio (.driving value))
        (Function.update levels bus value) := by
  refine ⟨by rw [BusSwitcher.perform, drives], fun bus' gpio' line' => ?_, fun bus' absent => ?_⟩
  · by_cases same : bus' = bus
    · subst same
      have gpios : gpio' = gpio := Option.some.inj (line'.symm.trans line_)
      subst gpios
      rw [Function.update_self, Function.update_self]
    · have other : gpio' ≠ gpio := by
        intro gpios
        subst gpios
        exact same (distinct bus' bus gpio' line' line_)
      rw [Function.update_of_ne other, Function.update_of_ne same, shows_.1 bus' gpio' line']
  · have other : bus' ≠ bus := by
      intro same
      subst same
      rw [line_] at absent
      cases absent
    rw [Function.update_of_ne other, shows_.2 bus' absent]

/-! ## One toggle -/

/-- One call for each bus that has a line, in the order of the buses. -/
def onLines (config : BusSwitcherConfig G) (call : Bus → Call) (buses : List Bus) :
    List (G × Call) :=
  buses.flatMap fun bus => (line config bus).toList.map fun gpio => (gpio, call bus)

/-- The writes of some values to the lines of some buses. -/
def writes (config : BusSwitcherConfig G) (values : Bus → Bool) (buses : List Bus) :
    List (G × Call) := onLines config (fun bus => .setValue (values bus)) buses

/-- The levels after the writes. -/
def written (levels values : Bus → Bool) (buses : List Bus) (bus : Bus) : Bool :=
  if bus ∈ buses then values bus else levels bus

omit [DecidableEq G] in
theorem onLines_cons (call : Bus → Call) (bus : Bus) (buses : List Bus) :
    onLines config call (bus :: buses) =
      ((line config bus).toList.map fun gpio => (gpio, call bus)) ++ onLines config call buses :=
  List.flatMap_cons

theorem mem_mixes_self (levels values : Bus → Bool) (buses : List Bus) :
    levels ∈ mixes levels values buses := by
  cases buses <;> exact List.mem_cons_self

theorem written_update (bus : Bus) (buses : List Bus) :
    written (Function.update levels bus (values bus)) values buses =
      written levels values (bus :: buses) := by
  funext bus'
  unfold written
  by_cases later : bus' ∈ buses
  · rw [if_pos later, if_pos (List.mem_cons_of_mem bus later)]
  · rw [if_neg later]
    by_cases same : bus' = bus
    · subst same
      rw [Function.update_self, if_pos List.mem_cons_self]
    · rw [Function.update_of_ne same, if_neg fun member =>
        (List.mem_cons.mp member).elim same later]

/-- The writes go through, and the lines show one mix of levels after the other. -/
theorem writes_throughout (distinct : Distinct config) (shows_ : Shows config board levels)
    (absent : ∀ bus, line config bus = none → values bus = false) (buses : List Bus) :
    (Feed.Throughout perform (AtMostOneHigh config) board (writes config values buses) ↔
      ∀ mix ∈ mixes levels values buses, AtMostOne mix) ∧
    ∃ after, Feed.strict perform board (writes config values buses) = (after, .ok ()) ∧
      Shows config after (written levels values buses) := by
  induction buses generalizing board levels with
  | nil =>
    refine ⟨?_, board, rfl, shows_⟩
    rw [mixes, List.forall_mem_singleton]
    exact atMostOneHigh_iff shows_
  | cons bus buses ih =>
    rw [writes, onLines_cons, ← writes, mixes, List.forall_mem_cons, ← written_update]
    rcases line_ : line config bus with _ | gpio
    · -- a bus without a line was low and stays so
      have still : Function.update levels bus (values bus) = levels := by
        rw [absent bus line_, ← shows_.2 bus line_, Function.update_eq_self]
      obtain ⟨throughout, reached⟩ := ih shows_
      rw [Option.toList_none, List.map_nil, List.nil_append, still]
      refine ⟨throughout.trans (and_iff_right_of_imp fun each => ?_).symm, reached⟩
      exact each levels (mem_mixes_self levels values buses)
    · have taken : gpioMock.call (board gpio) (.setValue (values bus)) =
          (.driving (values bus), .ok ()) := by
        rw [shows_.1 bus gpio line_]
        exact GpioMock.setValue_driving (levels bus) (values bus)
      obtain ⟨step, shows'⟩ := shows_.perform distinct line_ taken
      obtain ⟨throughout, reached⟩ := ih shows'
      rw [Option.toList_some, List.map_singleton, List.singleton_append,
        Feed.throughout_cons_iff step, Feed.strict_cons_of_ok step]
      exact ⟨and_congr (atMostOneHigh_iff shows_) throughout, reached⟩

omit [DecidableEq G] in
/-- Without a line for all buses, `toggle` writes the lines in their order. -/
theorem toggle_eq_writes (single : config.busEnableGpio = none) (values : Bus → Bool) :
    toggle config (values .i2c) (values .spi) (values .uart) = writes config values Bus.all := by
  rw [toggle, single]
  simp only [writes, onLines, Bus.all, line, List.flatMap_cons, List.flatMap_nil, List.append_nil,
    List.append_assoc]

omit [DecidableEq G] in
theorem writes_congr {values' : Bus → Bool}
    (same : ∀ bus gpio, line config bus = some gpio → values bus = values' bus) :
    writes config values Bus.all = writes config values' Bus.all := by
  unfold writes onLines
  refine List.flatMap_congr fun bus _ => ?_
  rcases line_ : line config bus with _ | gpio
  · rfl
  · simp only [same bus gpio line_]

omit [DecidableEq G] in
theorem level_raises (call : ToggleCall) (bus : Bus) :
    level (raises config call) bus =
      (call.enable && decide (bus = call.bus) && (line config bus).isSome) := by
  by_cases same : bus = call.bus
  · subst same
    unfold level raises
    cases call.enable <;> cases (line config call.bus).isSome <;> simp
  · have other : some call.bus ≠ some bus := fun buses => same (Option.some.inj buses).symm
    unfold level raises
    split <;> simp [same, other]

omit [DecidableEq G] in
/-- A call writes high what it raises and low everything else. -/
theorem calls_eq_writes (single : config.busEnableGpio = none) (call : ToggleCall) :
    call.calls config = writes config (level (raises config call)) Bus.all := by
  have toggled : call.calls config =
      writes config (fun bus => call.enable && decide (bus = call.bus)) Bus.all := by
    rw [← toggle_eq_writes single]
    rcases call with (_ | _) | (_ | _) | (_ | _) <;> rfl
  rw [toggled]
  refine writes_congr fun bus gpio line_ => ?_
  rw [level_raises, line_, Option.isSome_some, Bool.and_true]

/-! ## Runs -/

/-- Toggles from a board that shows one bus high, or none: nothing is thrown and the
lines never overlap exactly if no switch is backward. -/
theorem toggles_throughout_iff (single : config.busEnableGpio = none)
    (distinct : Distinct config) {high : Option Bus} (shows_ : Shows config board (level high))
    (calls : List ToggleCall) :
    Feed.Throughout perform (AtMostOneHigh config) board (calls.flatMap (·.calls config)) ↔
      (∀ call ∈ calls.head?, ¬ Backward high (raises config call)) ∧
        calls.IsChain fun before after =>
          ¬ Backward (raises config before) (raises config after) := by
  induction calls generalizing board high with
  | nil =>
    have one : AtMostOne (level high) := by
      intro bus bus' isHigh isHigh'
      have same : some bus = some bus' :=
        (of_decide_eq_true isHigh).symm.trans (of_decide_eq_true isHigh')
      exact Option.some.inj same
    exact iff_of_true ((atMostOneHigh_iff shows_).mpr one) ⟨nofun, .nil⟩
  | cons call calls ih =>
    have absent : ∀ bus, line config bus = none → level (raises config call) bus = false := by
      intro bus none_
      rw [level_raises, none_, Option.isSome_none, Bool.and_false]
    obtain ⟨throughout, after, reached, shows'⟩ := writes_throughout distinct shows_ absent Bus.all
    have whole : written (level high) (level (raises config call)) Bus.all =
        level (raises config call) := by
      funext bus
      exact if_pos (Finset.mem_univ bus)
    rw [whole] at shows'
    rw [List.flatMap_cons, calls_eq_writes single, Feed.throughout_append_iff reached, throughout,
      atMostOne_mixes_iff, ih shows', List.isChain_cons]
    simp

/-- After `init` every enable line is low, whatever the board was before. -/
theorem shows_of_init (single : config.busEnableGpio = none) (board : G → GpioMock) :
    ∃ ready, Feed.strict perform board (init config) = (ready, .ok ()) ∧
      Shows config ready (level none) := by
  refine ⟨driven (low (enableLines config)) board, ?_, fun bus gpio line_ => ?_, fun _ _ => rfl⟩
  · rw [init_eq, strict_initOutputs]
  · rw [driven_low, if_pos (mem_enableLines single line_)]
    rfl

/-- **When two buses are never enabled together.** For a switcher without a line for
all buses: after `init`, every sequence of toggles goes through with at most one enable
line high in every state exactly if no bus is enabled right after one whose line is
written later. -/
theorem never_together_iff (config : BusSwitcherConfig G) (single : config.busEnableGpio = none)
    (distinct : Distinct config) (board : G → GpioMock) (calls : List ToggleCall) :
    (∃ ready, Feed.strict perform board (init config) = (ready, .ok ()) ∧
      Feed.Throughout perform (AtMostOneHigh config) ready (calls.flatMap (·.calls config))) ↔
        calls.IsChain fun before after =>
          ¬ Backward (raises config before) (raises config after) := by
  obtain ⟨ready, reached, shows_⟩ := shows_of_init single board
  have throughout := toggles_throughout_iff single distinct shows_ calls
  have first : ∀ call ∈ calls.head?, ¬ Backward none (raises config call) :=
    fun _ _ backward => backward
  rw [and_iff_right first] at throughout
  rw [← throughout]
  apply Iff.intro
  · intro given
    obtain ⟨ready', reached', throughout'⟩ := given
    rw [reached] at reached'
    cases reached'
    exact throughout'
  · intro throughout'
    exact ⟨ready, reached, throughout'⟩

/-- The lines of the unit test. -/
def testConfig : BusSwitcherConfig Nat :=
  { i2cEnableGpio := some 2, spiEnableGpio := some 3, uartEnableGpio := some 4 }

theorem distinct_testConfig : Distinct testConfig := by
  intro bus bus' gpio line_ line'
  rw [← line'] at line_
  revert line_
  cases bus <;> cases bus' <;> decide

/-- I2C, then SPI, then UART, as in the unit test. -/
theorem never_together_forward :
    ∃ ready, Feed.strict perform (fun _ => {}) (init testConfig) = (ready, .ok ()) ∧
      Feed.Throughout perform (AtMostOneHigh testConfig) ready
        ([ToggleCall.toggleI2c true, .toggleSpi true, .toggleUart true, .toggleUart false].flatMap
          (·.calls testConfig)) :=
  (never_together_iff testConfig rfl distinct_testConfig _ _).mpr (by decide)

/-- From SPI to I2C, the I2C line goes high while the SPI line still is. -/
theorem not_never_together :
    ¬ ∀ calls : List ToggleCall,
      ∃ ready, Feed.strict perform (fun _ => {}) (init testConfig) = (ready, .ok ()) ∧
        Feed.Throughout perform (AtMostOneHigh testConfig) ready
          (calls.flatMap (·.calls testConfig)) := by
  intro never
  obtain ⟨ready, reached, throughout⟩ := never [.toggleSpi true, .toggleI2c true]
  have single : testConfig.busEnableGpio = none := rfl
  obtain ⟨ready', reached', shows_⟩ := shows_of_init single fun _ => {}
  rw [reached] at reached'
  cases reached'
  have forward := ((toggles_throughout_iff single distinct_testConfig shows_ _).mp throughout).2
  revert forward
  decide

end BusSwitcher

end Iqrf.Connector
