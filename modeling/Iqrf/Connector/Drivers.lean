import Iqrf.Connector.Driving
import Iqrf.Gpio.Gpiod
import Iqrf.Gpio.GpioFreeBsd

/-!
# From the mock to the drivers

The connectors call their lines through `Base`, so what they do is the same on every
driver. `drive` makes their calls on a board of lines of any driver; on the mock it is
`perform`. `Drives` is what a driver has to do for an output, and the three drivers do it.
The difference between them is `Fresh`: a line of libgpiod 1 can be initialised in every
state, one of libgpiod 2 only while nobody holds it, also not the driver itself, and one of
FreeBSD while its controller has the pin.

`mock_sound` says what a run on the mock is worth: what goes through there goes through on
the driver, with the same levels at every point of the run.
-/

namespace Iqrf.Connector

open Iqrf.Gpio BusSwitcher

variable {G σ ε : Type*}

/-- What a driver does for an output: in the states that are fresh it can be initialised,
and then it shows each value that is set. -/
structure Drives (driver : Base σ ε) (level : σ → Bool) (Fresh : σ → Prop)
    (Shows : σ → Pin → Prop) : Prop where
  initOutput {s} (value : Bool) : Fresh s →
    ∃ s', driver.initOutput s value = (s', .ok ()) ∧ Shows s' (.output value)
  setValue {s old} (value : Bool) : Shows s (.output old) →
    ∃ s', driver.setValue s value = (s', .ok ()) ∧ Shows s' (.output value)
  level {s value} : Shows s (.output value) → level s = value

/-- A driver that does what a pin does can be driven once it is initialised. -/
theorem Drives.of_realises {driver : Base σ ε} {level : σ → Bool} {Fresh : σ → Prop}
    {Shows : σ → Pin → Prop} {admitted : Gpio.Call → Prop}
    (realises : Realises driver level Shows admitted) (admits : ∀ value, admitted (.setValue value))
    (initOutput : ∀ s value, Fresh s →
      ∃ s', driver.initOutput s value = (s', .ok ()) ∧ Shows s' (.output value)) :
    Drives driver level Fresh Shows where
  initOutput value fresh := initOutput _ value fresh
  setValue {_ old} value shows_ :=
    have fits : (Gpio.Call.setValue value).Fits (Pin.output old).direction := rfl
    realises.call shows_ fits (admits value)
  level := realises.level

theorem drives_gpiodV1 {κ ε : Type*} {line : GpiodV1.Line κ ε}
    (documented : GpiodV1.Documented line) :
    Drives (GpiodV1.gpiod line) line.level (fun _ => True) (GpiodV1.Shows line) :=
  .of_realises (GpiodV1.gpiod_realises documented) (fun _ => trivial) fun s value _ =>
    have init : (Gpio.Call.initOutput value).Init := trivial
    GpiodV1.init_shows documented s .input init

/-- The driver has no request, and nobody else has one. -/
def Unheld {κ ρ ε : Type*} (chip : GpiodV2.Chip κ ρ ε) (s : GpiodV2.Gpiod κ ρ) : Prop :=
  s.request = none ∧ chip.holder s.kernel = none

theorem drives_gpiodV2 {κ ρ ε : Type*} {chip : GpiodV2.Chip κ ρ ε}
    (documented : GpiodV2.Documented chip) :
    Drives (GpiodV2.gpiod chip) (fun s => chip.level s.kernel) (Unheld chip)
      (GpiodV2.Shows chip) := by
  refine .of_realises (GpiodV2.gpiod_realises documented) (fun _ init => init) ?_
  intro s value fresh
  obtain ⟨kernel, request⟩ := s
  obtain ⟨none_, free⟩ := fresh
  subst none_
  have init : (Gpio.Call.initOutput value).Init := trivial
  exact GpiodV2.init_shows documented free .input init

theorem drives_gpioFreeBsd {κ ε : Type*} {device : FreeBsd.Device κ ε}
    (documented : FreeBsd.Documented device) :
    Drives (FreeBsd.gpioFreeBsd device) (fun s => device.level s.kernel s.fd s.line)
      (fun s => device.hasPin s.kernel s.fd s.line = true) (FreeBsd.Shows device) := by
  refine .of_realises (FreeBsd.gpioFreeBsd_realises documented) (fun _ same => by cases same) ?_
  intro s value present
  have init : (Gpio.Call.initOutput value).Init := trivial
  exact FreeBsd.init_shows documented present .input init

/-- The calls that the connectors make. -/
def IsDriving : Gpio.Call → Prop
  | .initOutput _ | .setValue _ => True
  | .initInput | .setDirection _ => False

/-- The lines that some calls initialise, one after the other. -/
def initialised (calls : List (G × Gpio.Call)) : List G :=
  (calls.filter fun call => decide call.2.Init).map Prod.fst

theorem initialised_append (calls later : List (G × Gpio.Call)) :
    initialised (calls ++ later) = initialised calls ++ initialised later := by
  unfold initialised
  rw [List.filter_append, List.map_append]

theorem initialised_initOutputs (levels : List (G × Bool)) :
    initialised (initOutputs levels) = levels.map Prod.fst := by
  have all : ∀ call ∈ initOutputs levels, decide call.2.Init = true := by
    intro call member
    obtain ⟨level, -, same⟩ := List.mem_map.mp member
    subst same
    rfl
  unfold initialised
  rw [List.filter_eq_self.mpr all, initOutputs, List.map_map]
  rfl

theorem initialised_setValues (levels : List (G × Bool)) : initialised (setValues levels) = [] := by
  have none_ : ∀ call ∈ setValues levels, ¬ decide call.2.Init = true := by
    intro call member
    obtain ⟨level, -, same⟩ := List.mem_map.mp member
    subst same
    exact Bool.false_ne_true
  unfold initialised
  rw [List.filter_eq_nil_iff.mpr none_]
  rfl

variable [DecidableEq G]

/-- One call on one line of a board whose lines have a driver. -/
def drive (driver : Base σ ε) (board : G → σ) (call : G × Gpio.Call) :
    (G → σ) × Except ε Unit :=
  let result := driver.call (board call.1) call.2
  (Function.update board call.1 result.1, result.2)

theorem drive_gpioMock : (drive gpioMock : (G → GpioMock) → _) = perform := rfl

theorem drive_of_ok {driver : Base σ ε} {board : G → σ} {call : G × Gpio.Call} {s : σ}
    (taken : driver.call (board call.1) call.2 = (s, .ok ())) :
    drive driver board call = (Function.update board call.1 s, .ok ()) := by
  rw [drive, taken]

/-! ## On the mock -/

theorem isOutput_eq_driving {mock : GpioMock} (output : mock.IsOutput) :
    mock = .driving mock.value := by
  obtain ⟨direction, state, value⟩ := mock
  obtain ⟨initialized, isOutput⟩ := output
  subst initialized isOutput
  rfl

/-- What a call of a connector that goes through is, and what it does. -/
theorem perform_cases {mocks mocks' : G → GpioMock} {call : G × Gpio.Call}
    (isDriving : IsDriving call.2) (taken : perform mocks call = (mocks', .ok ())) :
    ∃ value, (call.2 = .initOutput value ∨ call.2 = .setValue value ∧ (mocks call.1).IsOutput) ∧
      mocks' = Function.update mocks call.1 (.driving value) := by
  obtain ⟨gpio, request⟩ := call
  cases request with
  | initInput => exact isDriving.elim
  | setDirection direction => exact isDriving.elim
  | initOutput value => exact ⟨value, .inl rfl, (Prod.mk.inj taken).1.symm⟩
  | setValue value =>
    by_cases output : (mocks gpio).IsOutput
    · rw [perform_setValue_of_isOutput output] at taken
      exact ⟨value, .inr ⟨rfl, output⟩, (Prod.mk.inj taken).1.symm⟩
    · obtain ⟨e, thrown⟩ := perform_setValue_of_not_isOutput output value
      rw [thrown] at taken
      cases taken

section

variable {mocks after : G → GpioMock} {calls : List (G × Gpio.Call)} {gpio : G}

/-- The outputs are those from before and the lines that were initialised. -/
theorem isOutput_iff_initialised (isDriving : ∀ call ∈ calls, IsDriving call.2)
    (run : Feed.strict perform mocks calls = (after, .ok ())) :
    (after gpio).IsOutput ↔ (mocks gpio).IsOutput ∨ gpio ∈ initialised calls := by
  induction calls generalizing mocks with
  | nil =>
    cases run
    exact (or_iff_left List.not_mem_nil).symm
  | cons call calls ih =>
    rw [List.forall_mem_cons] at isDriving
    rcases taken : perform mocks call with ⟨mocks', e | ⟨⟩⟩
    · rw [Feed.strict_cons_of_error taken] at run
      cases run
    · rw [Feed.strict_cons_of_ok taken] at run
      obtain ⟨value, kind, reached⟩ := perform_cases isDriving.1 taken
      have lines : (mocks' gpio).IsOutput ↔ (mocks gpio).IsOutput ∨ gpio = call.1 := by
        rw [reached]
        have one := isOutput_driven_iff [(call.1, value)] mocks gpio
        rwa [List.map_singleton, List.mem_singleton] at one
      rw [ih isDriving.2 run, lines, ← List.singleton_append, initialised_append, List.mem_append]
      obtain ⟨line, request⟩ := call
      rcases kind with init | ⟨set, output⟩
      · cases init
        rw [or_assoc, show initialised [(line, .initOutput value)] = [line] from rfl,
          List.mem_singleton]
      · cases set
        have none_ : gpio ∉ initialised [(line, .setValue value)] := List.not_mem_nil
        have before : gpio = line → (mocks gpio).IsOutput := by
          intro same
          subst same
          exact output
        rw [or_iff_right none_, or_iff_left_of_imp before]

/-- A line shows what it did before or a level that one of the calls is about. -/
theorem shown_of_run (isDriving : ∀ call ∈ calls, IsDriving call.2)
    (run : Feed.strict perform mocks calls = (after, .ok ())) (gpio : G) :
    after gpio = mocks gpio ∨ ∃ value, after gpio = .driving value ∧
      ((gpio, .initOutput value) ∈ calls ∨ (gpio, .setValue value) ∈ calls) := by
  induction calls generalizing mocks with
  | nil =>
    cases run
    exact .inl rfl
  | cons call calls ih =>
    rw [List.forall_mem_cons] at isDriving
    rcases taken : perform mocks call with ⟨mocks', e | ⟨⟩⟩
    · rw [Feed.strict_cons_of_error taken] at run
      cases run
    · rw [Feed.strict_cons_of_ok taken] at run
      obtain ⟨value, kind, reached⟩ := perform_cases isDriving.1 taken
      rcases ih isDriving.2 run with same | ⟨value', shows_, among⟩
      · by_cases line : gpio = call.1
        · obtain ⟨line', request⟩ := call
          subst line
          right
          refine ⟨value, by rw [same, reached]; exact Function.update_self .., ?_⟩
          rcases kind with init | ⟨set, -⟩
          · cases init
            exact .inl List.mem_cons_self
          · cases set
            exact .inr List.mem_cons_self
        · left
          rw [same, reached]
          exact Function.update_of_ne line ..
      · exact .inr ⟨value', shows_, among.imp (List.mem_cons_of_mem call)
          (List.mem_cons_of_mem call)⟩

end

/-! ## Next to the mock -/

/-- A board of the driver next to one of the mock, with some calls still to come. -/
structure Tracks (Fresh : σ → Prop) (Shows : σ → Pin → Prop) (mocks : G → GpioMock) (board : G → σ)
    (calls : List (G × Gpio.Call)) : Prop where
  shows_ {gpio value} : mocks gpio = .driving value → Shows (board gpio) (.output value)
  fresh {gpio} : gpio ∈ initialised calls → Fresh (board gpio)
  isDriving {call} : call ∈ calls → IsDriving call.2
  once : (∀ s, Fresh s) ∨
    (initialised calls).Nodup ∧ ∀ gpio ∈ initialised calls, ¬ (mocks gpio).IsOutput

variable {driver : Base σ ε} {level : σ → Bool} {Fresh : σ → Prop} {Shows : σ → Pin → Prop}
  {mocks mocks' after : G → GpioMock} {board : G → σ} {call : G × Gpio.Call}
  {calls : List (G × Gpio.Call)}

omit [DecidableEq G] in
theorem mem_initialised_cons {gpio : G} (member : gpio ∈ initialised calls) :
    gpio ∈ initialised (call :: calls) := by
  rw [← List.singleton_append, initialised_append]
  exact List.mem_append_right _ member

/-- The line of a call is driven, and not initialised later unless that is fine. -/
theorem Tracks.update {s : σ} {value : Bool}
    (tracks : Tracks Fresh Shows mocks board (call :: calls)) (shows_ : Shows s (.output value))
    (later : (∀ s, Fresh s) ∨ call.1 ∉ initialised calls) :
    Tracks Fresh Shows (Function.update mocks call.1 (.driving value))
      (Function.update board call.1 s) calls where
  shows_ {gpio value'} shown := by
    by_cases same : gpio = call.1
    · subst same
      rw [Function.update_self] at shown ⊢
      cases shown
      exact shows_
    · rw [Function.update_of_ne same] at shown ⊢
      exact tracks.shows_ shown
  fresh {gpio} member := by
    rcases later with always | never
    · exact always _
    · have other : gpio ≠ call.1 := fun same => never (same ▸ member)
      rw [Function.update_of_ne other]
      exact tracks.fresh (mem_initialised_cons member)
  isDriving member := tracks.isDriving (List.mem_cons_of_mem call member)
  once := by
    rcases tracks.once with always | ⟨nodup, blank⟩
    · exact .inl always
    · rcases later with always | never
      · exact .inl always
      · rw [← List.singleton_append, initialised_append] at nodup
        refine .inr ⟨(List.nodup_append.mp nodup).2.1, fun gpio member => ?_⟩
        have other : gpio ≠ call.1 := fun same => never (same ▸ member)
        rw [Function.update_of_ne other]
        exact blank gpio (mem_initialised_cons member)

/-- What the mock takes the driver takes too. -/
theorem Tracks.step (drives : Drives driver level Fresh Shows)
    (tracks : Tracks Fresh Shows mocks board (call :: calls))
    (taken : perform mocks call = (mocks', .ok ())) :
    ∃ board', drive driver board call = (board', .ok ()) ∧
      Tracks Fresh Shows mocks' board' calls := by
  obtain ⟨value, kind, reached⟩ := perform_cases (tracks.isDriving List.mem_cons_self) taken
  obtain ⟨gpio, request⟩ := call
  subst reached
  rcases kind with init | ⟨set, output⟩
  · cases init
    have first : gpio ∈ initialised ((gpio, .initOutput value) :: calls) := List.mem_cons_self
    obtain ⟨s, set, shows_⟩ := drives.initOutput value (tracks.fresh first)
    refine ⟨Function.update board gpio s, drive_of_ok set, tracks.update shows_ ?_⟩
    exact tracks.once.imp_right fun given => (List.nodup_cons.mp given.1).1
  · cases set
    obtain ⟨s, set, shows_⟩ := drives.setValue value (tracks.shows_ (isOutput_eq_driving output))
    refine ⟨Function.update board gpio s, drive_of_ok set, tracks.update shows_ ?_⟩
    exact tracks.once.imp_right fun given member =>
      given.2 gpio (mem_initialised_cons member) output

/-- Whatever the calls answer, they leave the lines alone that they are not about. -/
theorem drive_of_not_mem {gpio : G} {after : G → σ} (driver : Base σ ε)
    (other : gpio ∉ calls.map Prod.fst)
    (run : Feed.strict (drive driver) board calls = (after, .ok ())) : after gpio = board gpio := by
  induction calls generalizing board with
  | nil =>
    cases run
    rfl
  | cons call calls ih =>
    rw [List.map_cons, List.mem_cons, not_or] at other
    rcases taken : drive driver board call with ⟨board', e | ⟨⟩⟩
    · rw [Feed.strict_cons_of_error taken] at run
      cases run
    · rw [Feed.strict_cons_of_ok taken] at run
      obtain ⟨reached, -⟩ := Prod.mk.inj taken
      rw [ih other.2 run, ← reached]
      exact Function.update_of_ne other.1 ..

/-- A board of lines that are driven follows the mocks, call by call. -/
theorem Drives.follows_mocks (drives : Drives driver level Fresh Shows)
    (isDriving : ∀ call ∈ calls, IsDriving call.2)
    (once : (∀ s, Fresh s) ∨ (initialised calls).Nodup)
    (fresh : ∀ gpio ∈ initialised calls, Fresh (board gpio))
    (run : Feed.strict perform (fun _ => {}) calls = (after, .ok ())) :
    ∀ before later, calls = before ++ later → ∃ mocks board',
      Feed.strict perform (fun _ => {}) before = (mocks, .ok ()) ∧
      Feed.strict (drive driver) board before = (board', .ok ()) ∧
      (∀ gpio ∈ initialised before, level (board' gpio) = (mocks gpio).value) ∧
      ∀ gpio ∉ before.map Prod.fst, board' gpio = board gpio := by
  intro before later parts
  subst parts
  rw [initialised_append] at once fresh
  have isDriving' : ∀ call ∈ before, IsDriving call.2 :=
    fun call member => isDriving call (List.mem_append_left _ member)
  have tracks : Tracks Fresh Shows (fun _ : G => {}) board before :=
    { shows_ := fun shown => by cases shown
      fresh := fun member => fresh _ (List.mem_append_left _ member)
      isDriving := isDriving' _
      once := once.imp_right fun nodup =>
        ⟨(List.nodup_append.mp nodup).1, fun _ _ => GpioMock.not_isOutput_blank⟩ }
  obtain ⟨mocks, reached⟩ := Feed.strict_ok_of_append run
  obtain ⟨board', taken, tracks'⟩ := Feed.strict_of_simulation
    (R := fun mocks board calls => Tracks Fresh Shows mocks board calls)
    (fun _ _ _ _ _ tracks taken => tracks.step drives taken) tracks reached
  refine ⟨mocks, board', reached, taken, fun gpio member => ?_, fun gpio other => ?_⟩
  · have output := (isOutput_iff_initialised isDriving' reached).mpr (.inr member)
    exact drives.level (tracks'.shows_ (isOutput_eq_driving output))
  · exact drive_of_not_mem driver other taken

/-- **What a run on the mock is worth.** Calls that go through on a board of mocks of which none
was initialised go through on every driver, if its lines are fresh and, unless they always
are, none of them is initialised twice. At every point of the run each line that has been
initialised has the level of its mock, and the lines without a call are as they were. -/
theorem mock_sound (drives : Drives driver level Fresh Shows)
    (isDriving : ∀ call ∈ calls, IsDriving call.2)
    (once : (∀ s, Fresh s) ∨ (initialised calls).Nodup)
    (fresh : ∀ gpio ∈ initialised calls, Fresh (board gpio))
    (run : Feed.strict perform (fun _ => {}) calls = (after, .ok ())) :
    ∀ before later, calls = before ++ later → ∃ mocks board',
      Feed.strict perform (fun _ => {}) before = (mocks, .ok ()) ∧
      Feed.strict (drive driver) board before = (board', .ok ()) ∧
      (∀ gpio ∈ initialised before, level (board' gpio) = (mocks gpio).value) ∧
      ∀ gpio ∉ before.map Prod.fst, board' gpio = board gpio :=
  drives.follows_mocks isDriving once fresh run

/-- Two lines of libgpiod 2, of which the first is driven high in the end. -/
theorem mock_sound_kernelChip :
    ∃ mocks board' : Nat → _,
      Feed.strict perform (fun _ => {})
        [(2, .initOutput false), (3, .initOutput true), (2, .setValue true)] = (mocks, .ok ()) ∧
      Feed.strict (drive (GpiodV2.gpiod Gpiod.kernelChip)) (fun _ => ⟨{}, none⟩)
        [(2, .initOutput false), (3, .initOutput true), (2, .setValue true)] = (board', .ok ()) ∧
      (∀ gpio ∈ [2, 3], (board' gpio).kernel.level = (mocks gpio).value) ∧
      ∀ gpio ∉ [2, 3, 2], board' gpio = ⟨{}, none⟩ :=
  mock_sound (drives_gpiodV2 Gpiod.documented_kernelChip) (by simp [IsDriving])
    (.inr (by decide)) (fun _ _ => ⟨rfl, rfl⟩) rfl _ [] rfl

end Iqrf.Connector
