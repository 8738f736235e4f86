import Iqrf.Gpio.Gpiod
import Iqrf.Gpio.GpioFreeBsd

/-!
# The driver of a platform

The objects of a driver share the host they run on: two of them may be for the same line,
and a line that the destructor of the one gives up can be taken by the other. `Platform` is a
driver with its host apart from its objects, and with the calls that C++ leaves undefined:
on libgpiod 2, those through a request that is not there yet.
-/

namespace Iqrf.Gpio

/-- A driver whose objects `σ` share a host `κ`. A call without an outcome is undefined. -/
structure Platform (κ σ δ : Type*) where
  construct : κ → GpioConfig → κ × Except δ σ
  destroy : κ → σ → κ
  call : κ → σ → Call → Option (κ × σ × Except δ Unit)
  getDirection : κ → σ → Option (Except δ GpioDirection)
  getValue : κ → σ → Option (Except δ Bool)

namespace Platform

/-- Every call that changes something has an outcome. -/
def Total {κ σ δ : Type*} (platform : Platform κ σ δ) : Prop :=
  ∀ host s call, platform.call host s call ≠ none

section Lines

variable {L κ τ ρ α ε : Type*} [DecidableEq L] (opens : GpioConfig → Except α L)

/-- `Gpiod` on libgpiod 1, over lines of the host. An object has the line that its
constructor has found, and what its `::gpiod::line` knows about that, at first `fresh`. -/
def gpiodV1 (line : GpiodV1.Line (κ × τ) ε) (fresh : τ) :
    Platform (L → κ) (L × τ) (α ⊕ GpiodV1.Error ε) where
  construct host config := (host, ((opens config).map fun l => (l, fresh)).mapError .inl)
  destroy host s := Function.update host s.1 (GpiodV1.destroy line (host s.1, s.2)).1
  call host s call :=
    let result := (GpiodV1.gpiod line).call (host s.1, s.2) call
    some (Function.update host s.1 result.1.1, (s.1, result.1.2), result.2.mapError .inr)
  getDirection host s := some (((GpiodV1.gpiod line).getDirection (host s.1, s.2)).mapError .inr)
  getValue host s := some (((GpiodV1.gpiod line).getValue (host s.1, s.2)).mapError .inr)

/-- `Gpiod` on libgpiod 2. An object has its line and, once an initialiser has made one, a
request; without a request the setters and `getValue` are calls through a null pointer. -/
def gpiodV2 (chip : GpiodV2.Chip κ ρ ε) :
    Platform (L → κ) (L × Option ρ) (α ⊕ GpiodV2.Error ε) where
  construct host config := (host, ((opens config).map fun l => (l, none)).mapError .inl)
  destroy host s := Function.update host s.1 (GpiodV2.destroy chip ⟨host s.1, s.2⟩)
  call host s call :=
    if s.2.isNone ∧ ¬ call.Init then none
    else
      let result := (GpiodV2.gpiod chip).call ⟨host s.1, s.2⟩ call
      some (Function.update host s.1 result.1.kernel, (s.1, result.1.request),
        result.2.mapError .inr)
  getDirection host s :=
    some (((GpiodV2.gpiod chip).getDirection ⟨host s.1, s.2⟩).mapError .inr)
  getValue host s :=
    if s.2.isNone then none
    else some (((GpiodV2.gpiod chip).getValue ⟨host s.1, s.2⟩).mapError .inr)

variable {opens}

theorem total_gpiodV1 {line : GpiodV1.Line (κ × τ) ε} {fresh : τ} :
    (gpiodV1 opens line fresh).Total :=
  fun _ _ _ => Option.some_ne_none _

end Lines

/-- `GpioFreeBsd`: an object has the descriptor of its controller and a line of it. -/
def gpioFreeBsd {κ ε : Type*} (device : FreeBsd.Device κ ε) :
    Platform κ (Nat × UInt32) (FreeBsd.Error ε) where
  construct host config :=
    ((FreeBsd.construct device config host).1,
      (FreeBsd.construct device config host).2.map fun s => (s.fd, s.line))
  destroy host s := FreeBsd.destroy device ⟨host, s.1, s.2⟩
  call host s call :=
    let result := (FreeBsd.gpioFreeBsd device).call ⟨host, s.1, s.2⟩ call
    some (result.1.kernel, (result.1.fd, result.1.line), result.2)
  getDirection host s := some ((FreeBsd.gpioFreeBsd device).getDirection ⟨host, s.1, s.2⟩)
  getValue host s := some ((FreeBsd.gpioFreeBsd device).getValue ⟨host, s.1, s.2⟩)

theorem total_gpioFreeBsd {κ ε : Type*} {device : FreeBsd.Device κ ε} :
    (gpioFreeBsd device).Total :=
  fun _ _ _ => Option.some_ne_none _

end Platform

end Iqrf.Gpio
