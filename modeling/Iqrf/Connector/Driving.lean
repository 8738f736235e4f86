import Iqrf.Gpio.Base
import Iqrf.Lib.Feed

/-!
# Driving lines

A board is a line of `GpioMock` for each GPIO. The connectors make two calls on their
lines, `initOutput` and `setValue`. A line takes the first whatever its state is and the
second only as an initialised output; either leaves it driving the level that was asked
for. `driven` is the board after such calls.
-/

namespace Iqrf.Gpio.GpioMock

/-- The line has been initialised as an output. -/
def IsOutput (mock : GpioMock) : Prop := mock.state = .initialized ∧ mock.direction = .output

theorem isOutput_driving (value : Bool) : (driving value).IsOutput := ⟨rfl, rfl⟩

theorem not_isOutput_blank : ¬ ({} : GpioMock).IsOutput := fun output => nomatch output.1

/-- A value is taken by an initialised output. -/
theorem setValue_of_isOutput {mock : GpioMock} (output : mock.IsOutput) (newValue : Bool) :
    mock.setValue newValue = (driving newValue, .ok ()) := by
  obtain ⟨direction, state, value⟩ := mock
  obtain ⟨initialized, isOutput⟩ := output
  subst initialized isOutput
  exact setValue_driving value newValue

/-- Any other line throws. -/
theorem setValue_of_not_isOutput {mock : GpioMock} (not : ¬ mock.IsOutput) (newValue : Bool) :
    ∃ e, mock.setValue newValue = (mock, .error e) := by
  unfold setValue
  by_cases uninitialized : mock.state = .uninitialized
  · exact ⟨_, if_pos uninitialized⟩
  · have initialized : mock.state = .initialized := by
      cases state : mock.state with
      | uninitialized => exact absurd state uninitialized
      | initialized => rfl
    have isInput : mock.direction ≠ .output := fun output => not ⟨initialized, output⟩
    exact ⟨_, by rw [if_neg uninitialized, if_pos isInput]⟩

end Iqrf.Gpio.GpioMock

namespace Iqrf.Connector

open Iqrf.Gpio

variable {G : Type*}

/-- An initialiser for each level. -/
def initOutputs (levels : List (G × Bool)) : List (G × Gpio.Call) :=
  levels.map fun level => (level.1, .initOutput level.2)

/-- A write of each level. -/
def setValues (levels : List (G × Bool)) : List (G × Gpio.Call) :=
  levels.map fun level => (level.1, .setValue level.2)

/-- Lines with the low level. -/
def low (lines : List G) : List (G × Bool) := lines.map fun gpio => (gpio, false)

theorem map_fst_low (lines : List G) : (low lines).map Prod.fst = lines := by
  unfold low
  rw [List.map_map]
  exact List.map_id lines

variable [DecidableEq G]

/-- The board after lines have been driven to some levels, one after the other. -/
def driven (levels : List (G × Bool)) (board : G → GpioMock) : G → GpioMock :=
  levels.foldl (fun board level => Function.update board level.1 (.driving level.2)) board

variable {levels : List (G × Bool)} {board : G → GpioMock} {gpio : G} {value : Bool}

theorem driven_append (levels later : List (G × Bool)) (board : G → GpioMock) :
    driven (levels ++ later) board = driven later (driven levels board) := List.foldl_append

/-- The other lines are as they were. -/
theorem driven_of_not_mem (other : gpio ∉ levels.map Prod.fst) :
    driven levels board gpio = board gpio := by
  induction levels generalizing board with
  | nil => rfl
  | cons level levels ih =>
    rw [List.map_cons, List.mem_cons, not_or] at other
    exact (ih other.2).trans (Function.update_of_ne other.1 ..)

/-- A line shows the last level it was driven to. -/
theorem driven_of_last (levels : List (G × Bool)) (board : G → GpioMock) (value : Bool)
    {later : List (G × Bool)} (last : gpio ∉ later.map Prod.fst) :
    driven (levels ++ (gpio, value) :: later) board gpio = .driving value := by
  rw [driven_append]
  exact (driven_of_not_mem last).trans (Function.update_self ..)

/-- A line that was driven shows one of its levels. -/
theorem driven_of_mem (board : G → GpioMock) (member : gpio ∈ levels.map Prod.fst) :
    ∃ value, (gpio, value) ∈ levels ∧ driven levels board gpio = .driving value := by
  induction levels generalizing board with
  | nil => cases member
  | cons level levels ih =>
    by_cases later : gpio ∈ levels.map Prod.fst
    · obtain ⟨value, among, shows_⟩ := ih (Function.update board level.1 (.driving level.2)) later
      exact ⟨value, List.mem_cons_of_mem level among, shows_⟩
    · have same : gpio = level.1 := (List.mem_cons.mp member).resolve_right later
      subst same
      exact ⟨level.2, List.mem_cons_self, driven_of_last [] board level.2 later⟩

/-- Lines that are driven low are low, and the others as they were. -/
theorem driven_low (lines : List G) (board : G → GpioMock) (gpio : G) :
    driven (low lines) board gpio = if gpio ∈ lines then .driving false else board gpio := by
  by_cases among : gpio ∈ lines
  · have member : gpio ∈ (low lines).map Prod.fst := by
      rw [map_fst_low]
      exact among
    obtain ⟨value, isLow, shows_⟩ := driven_of_mem board member
    obtain ⟨_, -, same⟩ := List.mem_map.mp isLow
    rw [if_pos among, shows_, ← (Prod.mk.inj same).2]
  · rw [if_neg among]
    refine driven_of_not_mem ?_
    rw [map_fst_low]
    exact among

/-- The initialised outputs are those from before and the lines that were driven. -/
theorem isOutput_driven_iff (levels : List (G × Bool)) (board : G → GpioMock) (gpio : G) :
    (driven levels board gpio).IsOutput ↔ (board gpio).IsOutput ∨ gpio ∈ levels.map Prod.fst := by
  by_cases member : gpio ∈ levels.map Prod.fst
  · obtain ⟨value, -, shows_⟩ := driven_of_mem board member
    rw [shows_]
    exact iff_of_true (GpioMock.isOutput_driving value) (Or.inr member)
  · rw [driven_of_not_mem member]
    exact (or_iff_left member).symm

namespace BusSwitcher

/-- One call on one line of a board. -/
def perform (board : G → GpioMock) (call : G × Gpio.Call) :
    (G → GpioMock) × Except RuntimeError Unit :=
  let result := gpioMock.call (board call.1) call.2
  (Function.update board call.1 result.1, result.2)

/-- Initialisers go through on every board. -/
theorem strict_initOutputs (levels : List (G × Bool)) (board : G → GpioMock) :
    Feed.strict perform board (initOutputs levels) = (driven levels board, .ok ()) := by
  induction levels generalizing board with
  | nil => rfl
  | cons level levels ih =>
    have step : perform board (level.1, .initOutput level.2) =
        (Function.update board level.1 (.driving level.2), .ok ()) := rfl
    rw [initOutputs, List.map_cons, Feed.strict_cons_of_ok step, ← initOutputs, ih]
    rfl

theorem perform_setValue_of_isOutput (output : (board gpio).IsOutput) (value : Bool) :
    perform board (gpio, .setValue value) =
      (Function.update board gpio (.driving value), .ok ()) := by
  have taken : gpioMock.call (board gpio) (.setValue value) = (.driving value, .ok ()) :=
    GpioMock.setValue_of_isOutput output value
  rw [perform, taken]

theorem perform_setValue_of_not_isOutput (not : ¬ (board gpio).IsOutput) (value : Bool) :
    ∃ e, perform board (gpio, .setValue value) = (board, .error e) := by
  obtain ⟨e, thrown⟩ := GpioMock.setValue_of_not_isOutput not value
  have thrown' : gpioMock.call (board gpio) (.setValue value) = (board gpio, .error e) := thrown
  exact ⟨e, by rw [perform, thrown', Function.update_eq_self]⟩

/-- Writes to initialised outputs go through. -/
theorem strict_setValues (outputs : ∀ gpio ∈ levels.map Prod.fst, (board gpio).IsOutput) :
    Feed.strict perform board (setValues levels) = (driven levels board, .ok ()) := by
  induction levels generalizing board with
  | nil => rfl
  | cons level levels ih =>
    rw [List.map_cons, List.forall_mem_cons] at outputs
    have step := perform_setValue_of_isOutput outputs.1 level.2
    rw [setValues, List.map_cons, Feed.strict_cons_of_ok step, ← setValues, ih]
    · rfl
    · intro gpio member
      exact (isOutput_driven_iff [level] board gpio).mpr (.inl (outputs.2 gpio member))

/-- Writes go through only on initialised outputs: the first one that is not throws. -/
theorem strict_setValues_iff :
    (Feed.strict perform board (setValues levels)).2 = .ok () ↔
      ∀ gpio ∈ levels.map Prod.fst, (board gpio).IsOutput := by
  refine ⟨fun ok => ?_, fun outputs => by rw [strict_setValues outputs]⟩
  induction levels generalizing board with
  | nil => exact fun _ member => absurd member List.not_mem_nil
  | cons level levels ih =>
    rw [setValues, List.map_cons, ← setValues] at ok
    by_cases output : (board level.1).IsOutput
    · rw [Feed.strict_cons_of_ok (perform_setValue_of_isOutput output level.2)] at ok
      rw [List.map_cons, List.forall_mem_cons]
      refine ⟨output, fun gpio member => ?_⟩
      have later := ih ok gpio member
      rcases (isOutput_driven_iff [level] board gpio).mp later with before | same
      · exact before
      · rw [List.map_singleton, List.mem_singleton] at same
        subst same
        exact output
    · obtain ⟨e, thrown⟩ := perform_setValue_of_not_isOutput output level.2
      rw [Feed.strict_cons_of_error thrown] at ok
      cases ok

end BusSwitcher

end Iqrf.Connector
