import Iqrf.Gpio.GpiodV1
import Iqrf.Gpio.GpiodV2
import Iqrf.Lib.Runs

/-!
# The two builds of `Gpiod`

Both builds do what a pin does, so they behave alike as long as both do. They part at
a repeated initialisation: on libgpiod 1 the driver releases the line before it asks for
it again, on libgpiod 2 the new request finds the line held by the old one.
-/

namespace Iqrf.Gpio.Gpiod

section SideBySide

variable {σ τ ε ε' : Type*} (driver : Base σ ε) (driver' : Base τ ε')

/-- The same call under both drivers, each of which goes on after an exception. -/
def both (s : σ × τ) (call : Call) : Option (σ × τ) :=
  some ((driver.call s.1 call).1, (driver'.call s.2 call).1)

/-- A call succeeds under both drivers or under neither, and after it they report the
same direction and, while that is output, drive the same level. -/
def Alike (level : σ → Bool) (level' : τ → Bool) (s : σ × τ) (call : Call) (s' : σ × τ) : Prop :=
  (driver.call s.1 call).2.isOk = (driver'.call s.2 call).2.isOk ∧
    (driver.getDirection s'.1).toOption = (driver'.getDirection s'.2).toOption ∧
    ((driver.getDirection s'.1).toOption = some .output → level s'.1 = level' s'.2)

variable {driver driver'} {level : σ → Bool} {level' : τ → Bool} {Shows : σ → Pin → Prop}
  {Shows' : τ → Pin → Prop} {admitted admitted' : Call → Prop} {s t : σ × τ} {pin : Pin}
  {call : Call}

theorem both_eq_some (h : both driver driver' s call = some t) :
    t = ((driver.call s.1 call).1, (driver'.call s.2 call).1) := (Option.some.inj h).symm

/-- Calls that both end in states that show one pin. -/
theorem alike_of_shows (realises : Realises driver level Shows admitted)
    (realises' : Realises driver' level' Shows' admitted')
    (taken : driver.call s.1 call = (t.1, .ok ())) (taken' : driver'.call s.2 call = (t.2, .ok ()))
    (shows_ : Shows t.1 pin) (shows' : Shows' t.2 pin) :
    Alike driver driver' level level' s call t := by
  refine ⟨by rw [taken, taken']; rfl, ?_, fun output => ?_⟩
  · rw [realises.getDirection shows_, realises'.getDirection shows']
    rfl
  · rw [realises.getDirection shows_] at output
    cases pin with
    | input => cases output
    | output value => rw [realises.level shows_, realises'.level shows']

/-- A call that both drivers admit. -/
theorem alike_of_realises (realises : Realises driver level Shows admitted)
    (realises' : Realises driver' level' Shows' admitted') (shows_ : Shows s.1 pin)
    (shows' : Shows' s.2 pin) (fits : call.Fits pin.direction) (admits : admitted call)
    (admits' : admitted' call) (h : both driver driver' s call = some t) :
    Alike driver driver' level level' s call t ∧ Shows t.1 (pin.after call) ∧
      Shows' t.2 (pin.after call) := by
  obtain ⟨u, taken, next⟩ := realises.call shows_ fits admits
  obtain ⟨u', taken', next'⟩ := realises'.call shows' fits admits'
  have ends : t = (u, u') := by
    rw [both_eq_some h, taken, taken']
  subst ends
  exact ⟨alike_of_shows realises realises' taken taken' next next', next, next'⟩

end SideBySide

variable {κ κ' ρ ε ε' : Type*} {line : GpiodV1.Line κ ε} {chip : GpiodV2.Chip κ' ρ ε'}

/-- The two builds side by side. -/
abbrev builds (line : GpiodV1.Line κ ε) (chip : GpiodV2.Chip κ' ρ ε') :
    κ × GpiodV2.Gpiod κ' ρ → Call → Option (κ × GpiodV2.Gpiod κ' ρ) :=
  both (GpiodV1.gpiod line) (GpiodV2.gpiod chip)

/-- A call is taken alike by the two builds. -/
abbrev BuildsAlike (line : GpiodV1.Line κ ε) (chip : GpiodV2.Chip κ' ρ ε') :
    κ × GpiodV2.Gpiod κ' ρ → Call → κ × GpiodV2.Gpiod κ' ρ → Prop :=
  Alike (GpiodV1.gpiod line) (GpiodV2.gpiod chip) line.level fun s => chip.level s.kernel

/-- The builds behave alike over a run from a line `k` of the one library and a line `k'`
of the other, where the second driver has no request yet. -/
def BehaveAlike (line : GpiodV1.Line κ ε) (chip : GpiodV2.Chip κ' ρ ε') (k : κ) (k' : κ')
    (calls : List Call) : Prop :=
  Runs.Always (builds line chip) (BuildsAlike line chip) (k, ⟨k', none⟩) calls

/-- Both builds show one pin, which the calls to come fit. -/
def Matched (line : GpiodV1.Line κ ε) (chip : GpiodV2.Chip κ' ρ ε')
    (s : κ × GpiodV2.Gpiod κ' ρ) (calls : List Call) : Prop :=
  ∃ pin, GpiodV1.Shows line s.1 pin ∧ GpiodV2.Shows chip s.2 pin ∧
    FittingFrom pin.direction calls

variable (documented : GpiodV1.Documented line) (documented' : GpiodV2.Documented chip)
include documented documented'

/-- In matched states a call that does not initialise is taken alike. -/
theorem Matched.step {s t : κ × GpiodV2.Gpiod κ' ρ} {call : Call} {calls : List Call}
    (matched : Matched line chip s (call :: calls)) (again : ¬ call.Init)
    (h : builds line chip s call = some t) :
    BuildsAlike line chip s call t ∧ Matched line chip t calls := by
  obtain ⟨pin, shows_, shows', fits, rest⟩ := matched
  obtain ⟨alike, next, next'⟩ := alike_of_realises (GpiodV1.gpiod_realises documented)
    (GpiodV2.gpiod_realises documented') shows_ shows' fits trivial again h
  exact ⟨alike, pin.after call, next, next', by rwa [Pin.direction_after]⟩

/-- In matched states an initialiser is taken by the first build only. -/
theorem Matched.not_alike_of_init {s t : κ × GpiodV2.Gpiod κ' ρ} {call : Call}
    {calls : List Call} (matched : Matched line chip s (call :: calls)) (init : call.Init) :
    ¬ BuildsAlike line chip s call t := by
  obtain ⟨pin, -, shows', -⟩ := matched
  intro alike
  obtain ⟨u, taken, -⟩ := GpiodV1.init_shows documented s.1 pin init
  have same := alike.1
  rw [taken, GpiodV2.init_busy documented' shows' init] at same
  cases same

/-- The first call takes both builds from a free line to matched states. -/
theorem init_matched {k : κ} {k' : κ'} (free : chip.holder k' = none) {call : Call}
    {calls : List Call} (init : call.Init) (fitting : FittingFrom (call.asks .input) calls)
    {t : κ × GpiodV2.Gpiod κ' ρ} (h : builds line chip (k, ⟨k', none⟩) call = some t) :
    BuildsAlike line chip (k, ⟨k', none⟩) call t ∧ Matched line chip t calls := by
  obtain ⟨u, taken, next⟩ := GpiodV1.init_shows documented k .input init
  obtain ⟨u', taken', next'⟩ := GpiodV2.init_shows documented' free .input init
  have ends : t = (u, u') := by
    rw [both_eq_some h, taken, taken']
  subst ends
  refine ⟨alike_of_shows (GpiodV1.gpiod_realises documented) (GpiodV2.gpiod_realises documented')
    taken taken' next next', Pin.after .input call, next, next', ?_⟩
  rw [Pin.direction_after]
  exact fitting

/-- From matched states on. -/
theorem always_alike_iff {s : κ × GpiodV2.Gpiod κ' ρ} {calls : List Call}
    (matched : Matched line chip s calls) :
    Runs.Always (builds line chip) (BuildsAlike line chip) s calls ↔
      ∀ call ∈ calls, ¬ call.Init := by
  have actions : Runs.Always (builds line chip) (fun _ call _ => ¬ call.Init) s calls ↔
      ∀ call ∈ calls, ¬ call.Init := Runs.always_action_iff fun _ _ => ⟨_, rfl⟩
  rw [← actions]
  refine Runs.always_iff_of_invariant_rest (I := Matched line chip) ?_ ?_ matched
  · intro s call calls t matched taken
    refine ⟨fun alike init => ?_, fun again => ?_⟩
    · exact matched.not_alike_of_init documented documented' init alike
    · exact (matched.step documented documented' again taken).1
  · intro s call calls t matched taken alike
    refine (matched.step documented documented' (fun init => ?_) taken).2
    exact matched.not_alike_of_init documented documented' init alike

/-- **When the two builds behave alike.** On a line that nobody holds, a sequence that
begins with an initialiser and sets values only while the direction is output is taken
alike exactly if no later call of it is an initialiser. -/
theorem behaveAlike_iff (k : κ) (k' : κ') (free : chip.holder k' = none) (calls : List Call)
    (fitting : Fitting calls) :
    BehaveAlike line chip k k' calls ↔ ∀ call ∈ calls.tail, ¬ call.Init := by
  cases calls with
  | nil => exact fitting.elim
  | cons call calls =>
    obtain ⟨init, rest⟩ := fitting
    apply Iff.intro
    · intro alike
      obtain ⟨-, later⟩ := alike _ rfl
      obtain ⟨-, matched⟩ := init_matched documented documented' (k := k) free init rest rfl
      exact (always_alike_iff documented documented' matched).mp later
    · intro again t taken
      obtain ⟨alike, matched⟩ := init_matched documented documented' free init rest taken
      exact ⟨alike, (always_alike_iff documented documented' matched).mpr again⟩

omit documented documented'

/-! ## A line in the kernel -/

inductive Errno
  | ebusy
  | eperm
  deriving DecidableEq, Repr

/-- A line with the number of the request that holds it. -/
structure KernelLine where
  holder : Option Nat := none
  granted : Nat := 0
  direction : GpioDirection := .input
  level : Bool := false
  deriving DecidableEq

namespace KernelLine

def request (s : KernelLine) (direction : GpioDirection) (value : Option Bool) :
    KernelLine × Except Errno Nat :=
  if s.holder.isSome then (s, .error .ebusy)
  else (⟨some s.granted, s.granted + 1, direction, value.getD false⟩, .ok s.granted)

def reconfigure (s : KernelLine) (direction : GpioDirection) : KernelLine × Except Errno Unit :=
  if s.holder.isSome then ({ s with direction := direction, level := false }, .ok ())
  else (s, .error .eperm)

def setValue (s : KernelLine) (value : Bool) : KernelLine × Except Errno Unit :=
  if s.holder.isSome ∧ s.direction = .output then ({ s with level := value }, .ok ())
  else (s, .error .eperm)

def getValue (s : KernelLine) : Except Errno Bool :=
  if s.holder.isSome then .ok s.level else .error .eperm

end KernelLine

/-- The line as libgpiod 1 hands it out. -/
def kernelLine : GpiodV1.Line KernelLine Errno where
  isRequested s := s.holder.isSome
  release s := { s with holder := none }
  request s direction :=
    ((s.request direction none).1, (s.request direction none).2.map fun _ => ())
  setDirectionInput s := s.reconfigure .input
  setDirectionOutput s := s.reconfigure .output
  direction s := some s.direction
  setValue := KernelLine.setValue
  getValue := KernelLine.getValue
  level := KernelLine.level

/-- The line as libgpiod 2 hands it out. -/
def kernelChip : GpiodV2.Chip KernelLine Nat Errno where
  doRequest := KernelLine.request
  destroy s request := if s.holder = some request then { s with holder := none } else s
  reconfigureLines s _ direction := s.reconfigure direction
  lineInfoDirection s := some s.direction
  setValue s _ value := s.setValue value
  getValue s _ := s.getValue
  holder := KernelLine.holder
  level := KernelLine.level
  busy := .ebusy

namespace KernelLine

variable {s : KernelLine}

theorem request_of_free (direction : GpioDirection) (value : Option Bool)
    (free : s.holder.isNone) :
    s.request direction value =
      (⟨some s.granted, s.granted + 1, direction, value.getD false⟩, .ok s.granted) := by
  rw [request, Option.isNone_iff_eq_none.mp free]
  rfl

theorem reconfigure_of_held (direction : GpioDirection) (held : s.holder.isSome) :
    s.reconfigure direction = ({ s with direction := direction, level := false }, .ok ()) :=
  if_pos held

theorem setValue_of_held (value : Bool) (held : s.holder.isSome) (output : s.direction = .output) :
    s.setValue value = ({ s with level := value }, .ok ()) := if_pos ⟨held, output⟩

end KernelLine

theorem documented_kernelLine : GpiodV1.Documented kernelLine where
  release _ := rfl
  request {s} direction free := by
    have granted := KernelLine.request_of_free direction none (Option.isSome_eq_false_iff.mp free)
    refine ⟨⟨some s.granted, s.granted + 1, direction, false⟩, ?_, rfl, rfl⟩
    change ((s.request direction none).1, (s.request direction none).2.map _) = _
    rw [granted]
    rfl
  setDirectionInput held := ⟨_, KernelLine.reconfigure_of_held .input held, held, rfl⟩
  setDirectionOutput held := ⟨_, KernelLine.reconfigure_of_held .output held, ⟨held, rfl⟩, rfl⟩
  setValue value held :=
    ⟨_, KernelLine.setValue_of_held value held.1 (Option.some.inj held.2), held, rfl⟩

theorem documented_kernelChip : GpiodV2.Documented kernelChip where
  busy {k request} direction value holds := by
    have held : k.holder.isSome := Option.isSome_of_eq_some holds
    exact if_pos held
  doRequest direction value free :=
    ⟨_, _, KernelLine.request_of_free direction value (Option.isNone_iff_eq_none.mpr free),
      ⟨rfl, rfl⟩, fun _ => rfl⟩
  destroy {k request} holds := by
    have dropped : kernelChip.destroy k request = { k with holder := none } := if_pos holds
    rw [dropped]
    rfl
  reconfigureLines direction holds :=
    ⟨_, KernelLine.reconfigure_of_held direction (Option.isSome_of_eq_some holds), ⟨holds, rfl⟩,
      fun _ => rfl⟩
  setValue value held :=
    ⟨_, KernelLine.setValue_of_held value (Option.isSome_of_eq_some held.1)
      (Option.some.inj held.2), held, rfl⟩

/-- An output that is turned into an input and back. -/
theorem behaveAlike_turned :
    BehaveAlike kernelLine kernelChip {} {}
      [.initOutput true, .setDirection .input, .setDirection .output, .setValue true] :=
  (behaveAlike_iff documented_kernelLine documented_kernelChip {} {} rfl
    [.initOutput true, .setDirection .input, .setDirection .output, .setValue true]
    ⟨trivial, trivial, trivial, rfl, trivial⟩).mpr (by decide)

/-- A line that is initialised as an input and then as an output. -/
theorem not_behaveAlike :
    ¬ ∀ calls, Fitting calls → BehaveAlike kernelLine kernelChip {} {} calls := by
  intro alike
  have fitting : Fitting [.initInput, .initOutput true] := ⟨trivial, trivial, trivial⟩
  -- the second call succeeds on libgpiod 1 and fails on libgpiod 2
  have same := ((alike _ fitting _ rfl).2 _ rfl).1.1
  cases same

end Iqrf.Gpio.Gpiod
