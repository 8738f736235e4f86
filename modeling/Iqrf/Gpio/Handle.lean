import Iqrf.Gpio.GpioMock
import Iqrf.Gpio.Platform
import Iqrf.Lib.SharedPtr

/-!
# Handles

A `Gpio` is a shared pointer to a driver, and a flag that says whether the driver is a mock.
Handles are copied, moved, swapped and destroyed; the destructor of the driver runs when its
last handle goes, on the host that the drivers share. A handle that was moved from points to
nothing but keeps its flag, and a call through it is undefined, as is a call of something
that is no handle, and one that the driver does not define.

`step` is one action of a program on its handles, over any memory: with use counts, or with
one that looks for the handles that are left. `reference_counts_invisible` says that the
counts do what the other one does.
-/

set_option linter.dupNamespace false

namespace Iqrf.Gpio

open Runs SharedPtr

/-- GPIO pin. -/
structure Gpio where
  impl : Option Nat
  isMock : Bool := false
  deriving DecidableEq, Repr

def MockCall.name {χ : Type*} : MockCall χ → String
  | setInputValue _ => "setInputValue"
  | registerDirectionCallback _ => "registerDirectionCallback"
  | registerValueCallback _ => "registerValueCallback"

/-- What a call throws. -/
inductive HandleError (δ ε : Type*)
  | platform (error : δ)
  | mock (error : WatchedError ε)
  | onlyForMock (function : String)
  deriving DecidableEq, Repr

/-- The text of the exception that the handle itself throws. -/
def HandleError.what {δ ε : Type*} : HandleError δ ε → Option String
  | onlyForMock function => some (function ++ " is only available for mock GPIO")
  | _ => none

namespace Handles

/-- What a handle points to: a mock, or a driver of the platform. -/
inductive Driver (σ χ : Type*)
  | mock (mock : WatchedMock χ)
  | platform (state : σ)

/-- What a call answers. -/
inductive Answer (δ ε : Type*)
  | returned
  | direction (direction : GpioDirection)
  | value (value : Bool)
  | threw (error : HandleError δ ε)
  deriving DecidableEq, Repr

/-- What a program does with its handles. -/
inductive Action (V χ : Type*)
  | construct (v : V) (config : GpioConfig)
  | copy (v other : V)
  | move (v other : V)
  | swap (first second : V)
  | destroy (v : V)
  | call (v : V) (call : Call)
  | getDirection (v : V)
  | getValue (v : V)
  | mockCall (v : V) (call : MockCall χ)

/-- The handles of a program, its drivers and the host they share, and the answers so far. -/
structure System (κ M V δ ε : Type*) where
  host : κ
  handles : V → Option Gpio
  drivers : M
  answers : List (Answer δ ε) := []

/-- What the handles point to. -/
def owner {V : Type*} (handles : V → Option Gpio) (v : V) : Option Nat :=
  (handles v).bind Gpio.impl

section

variable {κ M V σ χ δ ε : Type*} (platform : Platform κ σ δ) (throws : χ → Report → Option ε)

def Answer.ofCall (result : Except (HandleError δ ε) Unit) : Answer δ ε :=
  match result with
  | .ok () => .returned
  | .error error => .threw error

/-- What a driver makes of a call: the host, the driver and the answer, if it is defined. -/
abbrev Outcome (κ σ χ δ ε : Type*) := Option (κ × Driver σ χ × Answer δ ε)

/-- A call of a driver. -/
def Driver.call (driver : Driver σ χ) (host : κ) (call : Call) : Outcome κ σ χ δ ε :=
  match driver with
  | .mock m =>
    let result := (watchedMock throws).call m call
    some (host, .mock result.1, .ofCall (result.2.mapError .mock))
  | .platform s =>
    match platform.call host s call with
    | none => none
    | some (host, s, result) => some (host, .platform s, .ofCall (result.mapError .platform))

def Driver.getDirection (driver : Driver σ χ) (host : κ) : Outcome κ σ χ δ ε :=
  match driver with
  | .mock m =>
    match (watchedMock throws).getDirection m with
    | .ok direction => some (host, driver, .direction direction)
    | .error error => some (host, driver, .threw (.mock error))
  | .platform s =>
    match platform.getDirection host s with
    | none => none
    | some (.ok direction) => some (host, driver, .direction direction)
    | some (.error error) => some (host, driver, .threw (.platform error))

def Driver.getValue (driver : Driver σ χ) (host : κ) : Outcome κ σ χ δ ε :=
  match driver with
  | .mock m =>
    match (watchedMock throws).getValue m with
    | .ok value => some (host, driver, .value value)
    | .error error => some (host, driver, .threw (.mock error))
  | .platform s =>
    match platform.getValue host s with
    | none => none
    | some (.ok value) => some (host, driver, .value value)
    | some (.error error) => some (host, driver, .threw (.platform error))

/-- A call of the mock behind a driver; there is none if the cast fails. -/
def Driver.mockCall (driver : Driver σ χ) (host : κ) (call : MockCall χ) : Outcome κ σ χ δ ε :=
  match driver with
  | .mock m =>
    let result : WatchedMock χ × Except (WatchedError ε) Unit := m.mockCall call
    some (host, .mock result.1, .ofCall (result.2.mapError .mock))
  | .platform _ => none

def Driver.isMock : Driver σ χ → Bool
  | .mock _ => true
  | .platform _ => false

/-- The destructor of a driver, if one has to be destroyed. -/
def destroyed (host : κ) : Option (Driver σ χ) → κ
  | some (.platform s) => platform.destroy host s
  | some (.mock _) | none => host

variable (memory : Memory M (Driver σ χ)) [DecidableEq V]

/-- A call through a handle, if the handle points to a driver that takes it. -/
def System.through (s : System κ M V δ ε) (gpio : Gpio)
    (call : Driver σ χ → κ → Outcome κ σ χ δ ε) : Option (System κ M V δ ε) :=
  match gpio.impl with
  | none => none
  | some p =>
    match (memory.object s.drivers p).bind fun driver => call driver s.host with
    | none => none
    | some (host, driver, answer) =>
      some { s with
        host
        drivers := memory.put s.drivers p driver
        answers := s.answers ++ [answer] }

/-- The driver that the constructor of a handle makes. -/
def made (host : κ) (config : GpioConfig) : κ × Except δ (Driver σ χ) :=
  if config.useMock then (host, .ok (.mock {}))
  else
    match platform.construct host config with
    | (host, .ok s) => (host, .ok (.platform s))
    | (host, .error error) => (host, .error error)

/-- One action. A new handle takes a variable that holds none. -/
def step (s : System κ M V δ ε) : Action V χ → Option (System κ M V δ ε)
  | .construct v config =>
    match s.handles v with
    | some _ => none
    | none =>
      match made platform s.host config with
      | (host, .error error) =>
        some { s with host, answers := s.answers ++ [.threw (.platform error)] }
      | (host, .ok driver) =>
        let made := memory.make s.drivers driver
        some { s with
          host
          handles := Function.update s.handles v (some ⟨some made.2, config.useMock⟩)
          drivers := made.1 }
  | .copy v other =>
    match s.handles v, s.handles other with
    | none, some gpio =>
      some { s with
        handles := Function.update s.handles v (some gpio)
        drivers := memory.copy s.drivers gpio.impl }
    | _, _ => none
  | .move v other =>
    match s.handles v, s.handles other with
    | none, some gpio =>
      some { s with
        handles := Function.update (Function.update s.handles v (some gpio)) other
          (some { gpio with impl := none }) }
    | _, _ => none
  | .swap first second =>
    match s.handles first, s.handles second with
    | some gpio, some gpio' =>
      some { s with
        handles := Function.update (Function.update s.handles first (some gpio')) second
          (some gpio) }
    | _, _ => none
  | .destroy v =>
    match s.handles v with
    | none => none
    | some gpio =>
      let handles := Function.update s.handles v none
      let released := memory.drop s.drivers (fun p => ∃ w, owner handles w = some p) gpio.impl
      some { s with
        host := destroyed platform s.host released.2
        handles
        drivers := released.1 }
  | .call v call =>
    match s.handles v with
    | none => none
    | some gpio => s.through memory gpio fun driver host => driver.call platform throws host call
  | .getDirection v =>
    match s.handles v with
    | none => none
    | some gpio => s.through memory gpio fun driver host => driver.getDirection platform throws host
  | .getValue v =>
    match s.handles v with
    | none => none
    | some gpio => s.through memory gpio fun driver host => driver.getValue platform throws host
  | .mockCall v call =>
    match s.handles v with
    | none => none
    | some gpio =>
      if gpio.isMock then s.through memory gpio fun driver host => driver.mockCall host call
      else some { s with answers := s.answers ++ [.threw (.onlyForMock call.name)] }

end

/-! ## The handles own the drivers -/

variable {κ V σ χ δ ε : Type*} {handles : V → Option Gpio} {v : V} {gpio : Gpio}

theorem owner_eq (holds : handles v = some gpio) : owner handles v = gpio.impl := by
  rw [owner, holds, Option.bind_some]

theorem owner_none (free : handles v = none) : owner handles v = none := by
  rw [owner, free, Option.bind_none]

theorem owner_update [DecidableEq V] (handles : V → Option Gpio) (v : V) (handle : Option Gpio) :
    owner (Function.update handles v handle) =
      Function.update (owner handles) v (handle.bind Gpio.impl) := by
  funext w
  by_cases same : w = v
  · subst same
    rw [owner, Function.update_self, Function.update_self]
  · rw [owner, Function.update_of_ne same, Function.update_of_ne same, owner]

/-- A program with use counts next to the same program on drivers that are there as long as they
have handles. The use counts count the handles, and a flag says what its driver is. -/
structure Related (s : System κ (Heap (Driver σ χ)) V δ ε)
    (t : System κ (Collected (Driver σ χ)) V δ ε) : Prop where
  host : s.host = t.host
  handles : s.handles = t.handles
  answers : s.answers = t.answers
  agrees : Agrees s.drivers t.drivers
  counted : Counted s.drivers (owner t.handles)
  flagged {v gpio p} : t.handles v = some gpio → gpio.impl = some p →
    ∃ driver, t.drivers.objects p = some driver ∧ driver.isMock = gpio.isMock

/-- The program has no handles yet. -/
def start {M : Type*} (V δ ε : Type*) (host : κ) (drivers : M) : System κ M V δ ε :=
  { host, handles := fun _ => none, drivers }

variable {platform : Platform κ σ δ} {throws : χ → Report → Option ε} {host : κ}
  {s : System κ (Heap (Driver σ χ)) V δ ε} {t : System κ (Collected (Driver σ χ)) V δ ε}

theorem related_start (host : κ) :
    Related (start V δ ε host ({} : Heap (Driver σ χ))) (start V δ ε host {}) where
  host := rfl
  handles := rfl
  answers := rfl
  agrees := agrees_empty
  counted := counted_empty
  flagged holds := by cases holds

/-- A call keeps what kind of driver it is made of. -/
def KeepsKind (call : Driver σ χ → κ → Outcome κ σ χ δ ε) : Prop :=
  ∀ driver host host' driver' answer, call driver host = some (host', driver', answer) →
    driver'.isMock = driver.isMock

theorem Driver.keepsKind_call (call : Call) :
    KeepsKind fun driver host => Driver.call platform throws driver host call := by
  intro driver host host' driver' answer taken
  cases driver with
  | mock m =>
    cases taken
    rfl
  | platform s =>
    unfold Driver.call at taken
    dsimp only at taken
    split at taken
    · cases taken
    · cases taken
      rfl

theorem Driver.keepsKind_getDirection :
    KeepsKind fun driver host => Driver.getDirection platform throws driver host := by
  intro driver host host' driver' answer taken
  cases driver with
  | mock m =>
    unfold Driver.getDirection at taken
    dsimp only at taken
    split at taken <;> cases taken <;> rfl
  | platform s =>
    unfold Driver.getDirection at taken
    dsimp only at taken
    split at taken <;> cases taken <;> rfl

theorem Driver.keepsKind_getValue :
    KeepsKind fun driver host => Driver.getValue platform throws driver host := by
  intro driver host host' driver' answer taken
  cases driver with
  | mock m =>
    unfold Driver.getValue at taken
    dsimp only at taken
    split at taken <;> cases taken <;> rfl
  | platform s =>
    unfold Driver.getValue at taken
    dsimp only at taken
    split at taken <;> cases taken <;> rfl

theorem Driver.keepsKind_mockCall (call : MockCall χ) :
    KeepsKind (κ := κ) (σ := σ) (δ := δ) (ε := ε) fun driver host => driver.mockCall host call := by
  intro driver host host' driver' answer taken
  cases driver with
  | mock m =>
    cases taken
    rfl
  | platform s => cases taken

theorem Related.answered (related : Related s t) (host : κ) (answer : Answer δ ε) :
    Related { s with host, answers := s.answers ++ [answer] }
      { t with host, answers := t.answers ++ [answer] } :=
  { related with host := rfl, answers := congrArg (· ++ [answer]) related.answers }

/-- A call through a handle ends alike. -/
theorem Related.through (related : Related s t) (holds : t.handles v = some gpio)
    {call : Driver σ χ → κ → Outcome κ σ χ δ ε} (keeps : KeepsKind call) :
    Option.Rel Related (s.through counting gpio call) (t.through collecting gpio call) := by
  unfold System.through
  rcases impl : gpio.impl with _ | p
  · exact .none
  · have owns : owner t.handles v = some p := (owner_eq holds).trans impl
    obtain ⟨driver, here, there⟩ := related.agrees.object_eq related.counted owns
    simp only [here, there, Option.bind_some, related.host]
    rcases called : call driver t.host with _ | ⟨host, driver', answer⟩
    · exact .none
    · have agrees := related.agrees.put p driver'
      refine .some ⟨rfl, related.handles, congrArg (· ++ [answer]) related.answers, agrees,
        related.counted.put p driver', fun {w gpio' q} holds' impl' => ?_⟩
      obtain ⟨before, exists_, kind⟩ := related.flagged holds' impl'
      change ∃ driver, (collecting.put t.drivers p driver').objects q = some driver ∧ _
      have written : (collecting.put t.drivers p driver').objects =
          Function.update t.drivers.objects p (some driver') := by
        have found : t.drivers.objects p = some driver := there
        simp only [collecting, found]
      rw [written]
      by_cases same : q = p
      · subst same
        have same' : before = driver := Option.some.inj (exists_.symm.trans there)
        refine ⟨driver', Function.update_self .., ?_⟩
        rw [keeps driver t.host host driver' answer called, ← same', kind]
      · exact ⟨before, (Function.update_of_ne same ..).trans exists_, kind⟩

section

variable [DecidableEq V]

theorem Related.construct (related : Related s t) (free : t.handles v = none) (host : κ)
    (driver : Driver σ χ) :
    Related
      { s with
        host
        handles := Function.update s.handles v
          (some ⟨some (counting.make s.drivers driver).2, driver.isMock⟩)
        drivers := (counting.make s.drivers driver).1 }
      { t with
        host
        handles := Function.update t.handles v
          (some ⟨some (collecting.make t.drivers driver).2, driver.isMock⟩)
        drivers := (collecting.make t.drivers driver).1 } := by
  obtain ⟨agrees, number⟩ := related.agrees.make driver
  refine ⟨rfl, ?_, related.answers, agrees, ?_, fun {w gpio p} holds impl => ?_⟩
  · rw [related.handles, number]
  · rw [owner_update, ← number]
    exact related.counted.make (owner_none free) driver
  · change ∃ driver', Function.update t.drivers.objects t.drivers.next (some driver) p =
      some driver' ∧ _
    by_cases same : w = v
    · subst same
      dsimp only at holds
      rw [Function.update_self] at holds
      cases holds
      cases impl
      exact ⟨driver, Function.update_self .., rfl⟩
    · dsimp only at holds
      rw [Function.update_of_ne same] at holds
      have made : p < s.drivers.next :=
        (related.counted.not_destroyed_of_owned ((owner_eq holds).trans impl)).1
      rw [related.agrees.next] at made
      rw [Function.update_of_ne (Nat.ne_of_lt made)]
      exact related.flagged holds impl

theorem Related.copy (related : Related s t) {w : V} (free : t.handles v = none)
    (holds : t.handles w = some gpio) :
    Related
      { s with
        handles := Function.update s.handles v (some gpio)
        drivers := counting.copy s.drivers gpio.impl }
      { t with
        handles := Function.update t.handles v (some gpio)
        drivers := collecting.copy t.drivers gpio.impl } := by
  have kept : collecting.copy t.drivers gpio.impl = t.drivers := by
    cases gpio.impl <;> rfl
  have points := owner_eq holds
  refine ⟨related.host, ?_, related.answers, related.agrees.copy gpio.impl, ?_,
    fun {w' gpio' p} holds' impl => ?_⟩
  · rw [related.handles]
  · rw [owner_update, Option.bind_some, ← points]
    exact related.counted.copy (owner_none free) w
  · rw [kept]
    by_cases same : w' = v
    · subst same
      dsimp only at holds'
      rw [Function.update_self] at holds'
      cases holds'
      exact related.flagged holds impl
    · dsimp only at holds'
      rw [Function.update_of_ne same] at holds'
      exact related.flagged holds' impl

/-- What a pointer to something else keeps there is kept. -/
theorem objects_drop {memory : Collected (Driver σ χ)} {left : Nat → Prop} {pointer : Option Nat}
    {p : Nat} (owned : left p) :
    (collecting.drop memory left pointer).1.objects p = memory.objects p := by
  rcases pointer with _ | q
  · rfl
  · unfold Memory.drop collecting
    dsimp only
    split
    · rfl
    · rename_i unowned
      have other : p ≠ q := by
        intro same
        subst same
        exact unowned owned
      exact Function.update_of_ne other ..

/-- A handle goes, and with the last one the driver. -/
theorem Related.destroy (related : Related s t) (platform : Platform κ σ δ)
    (holds : t.handles v = some gpio) {left : Nat → Prop} (remain : left = fun p => ∃ w,
      owner (Function.update t.handles v none) w = some p) :
    Related
      { s with
        host := destroyed platform s.host (counting.drop s.drivers left gpio.impl).2
        handles := Function.update s.handles v none
        drivers := (counting.drop s.drivers left gpio.impl).1 }
      { t with
        host := destroyed platform t.host (collecting.drop t.drivers left gpio.impl).2
        handles := Function.update t.handles v none
        drivers := (collecting.drop t.drivers left gpio.impl).1 } := by
  have points := owner_eq holds
  have owners : owner (Function.update t.handles v none) =
      Function.update (owner t.handles) v none := by
    rw [owner_update, Option.bind_none]
  rw [owners] at remain
  obtain ⟨agrees, same⟩ := related.agrees.drop related.counted v
  rw [← remain, points] at agrees same
  refine ⟨?_, ?_, related.answers, agrees, ?_, fun {w gpio' p} holds' impl => ?_⟩
  · rw [related.host, same]
  · rw [related.handles]
  · rw [owners, ← points]
    exact related.counted.drop v left
  · have owned : left p := by
      rw [remain, ← owners]
      exact ⟨w, (owner_eq holds').trans impl⟩
    dsimp only at holds'
    have other : w ≠ v := by
      intro same
      subst same
      rw [Function.update_self] at holds'
      cases holds'
    rw [Function.update_of_ne other] at holds'
    dsimp only
    rw [objects_drop owned]
    exact related.flagged holds' impl

omit [DecidableEq V] in
/-- Handles exchange what they point to, and each that points to something is one of before. -/
theorem Related.exchange (related : Related s t) (exchange : Equiv.Perm V)
    {handles : V → Option Gpio} (exchanged : owner handles = owner t.handles ∘ exchange)
    (kinds : ∀ v gpio, handles v = some gpio → gpio.impl ≠ none →
      t.handles (exchange v) = some gpio) :
    Related { s with handles } { t with handles } where
  host := related.host
  handles := rfl
  answers := related.answers
  agrees := related.agrees
  counted := by
    rw [exchanged]
    exact related.counted.permute exchange
  flagged {v gpio p} holds impl := by
    have points : gpio.impl ≠ none := by
      rw [impl]
      exact Option.some_ne_none p
    exact related.flagged (kinds v gpio holds points) impl

theorem Related.move (related : Related s t) {w : V} (free : t.handles v = none)
    (holds : t.handles w = some gpio) :
    Related
      { s with
        handles := Function.update (Function.update s.handles v (some gpio)) w
          (some { gpio with impl := none }) }
      { t with
        handles := Function.update (Function.update t.handles v (some gpio)) w
          (some { gpio with impl := none }) } := by
  rw [related.handles]
  refine related.exchange (Equiv.swap w v) ?_ fun w' gpio' holds' points => ?_
  · rw [Equiv.comp_swap_eq_update, owner_update, owner_update, owner_none free, owner_eq holds]
    rfl
  · by_cases first : w' = w
    · subst first
      rw [Function.update_self] at holds'
      cases holds'
      exact absurd rfl points
    · rw [Function.update_of_ne first] at holds'
      by_cases second : w' = v
      · subst second
        rw [Function.update_self] at holds'
        rw [Equiv.swap_apply_right, holds]
        exact holds'
      · rw [Function.update_of_ne second] at holds'
        rw [Equiv.swap_apply_of_ne_of_ne first second]
        exact holds'

theorem Related.swap (related : Related s t) {w : V} {gpio' : Gpio}
    (holds : t.handles v = some gpio) (holds' : t.handles w = some gpio') :
    Related
      { s with
        handles := Function.update (Function.update s.handles v (some gpio')) w (some gpio) }
      { t with
        handles := Function.update (Function.update t.handles v (some gpio')) w (some gpio) } := by
  have swapped : Function.update (Function.update t.handles v (some gpio')) w (some gpio) =
      t.handles ∘ Equiv.swap w v := by
    rw [Equiv.comp_swap_eq_update, holds, holds']
  rw [related.handles, swapped]
  exact related.exchange (Equiv.swap w v) rfl fun _ _ given _ => given

/-- The flag of a new handle says what its driver is. -/
theorem isMock_of_made {host' : κ} {config : GpioConfig} {driver : Driver σ χ}
    (constructed : made platform host config = (host', .ok driver)) :
    driver.isMock = config.useMock := by
  unfold made at constructed
  cases mock : config.useMock with
  | true =>
    rw [mock, if_pos rfl] at constructed
    cases constructed
    rfl
  | false =>
    rw [mock, if_neg Bool.false_ne_true] at constructed
    split at constructed <;> cases constructed
    rfl

/-- Each action is answered alike, or is undefined on either side. -/
theorem Related.step (related : Related s t) (action : Action V χ) :
    Option.Rel Related (step platform throws counting s action)
      (step platform throws collecting t action) := by
  cases action with
  | construct v config =>
    simp only [Handles.step, related.handles, related.host]
    rcases free : t.handles v with _ | gpio
    · dsimp only
      rcases constructed : made platform t.host config with ⟨host, error | driver⟩
      · have after := related.answered host (.threw (.platform error))
        rw [related.handles] at after
        exact .some after
      · have after := related.construct free host driver
        rw [related.handles, isMock_of_made constructed] at after
        exact .some after
    · exact .none
  | copy v w =>
    simp only [Handles.step, related.handles]
    rcases free : t.handles v with _ | gpio
    · rcases holds : t.handles w with _ | gpio
      · exact .none
      · have after := related.copy free holds
        rw [related.handles] at after
        exact .some after
    · exact .none
  | move v w =>
    simp only [Handles.step, related.handles]
    rcases free : t.handles v with _ | gpio
    · rcases holds : t.handles w with _ | gpio
      · exact .none
      · have after := related.move free holds
        rw [related.handles] at after
        exact .some after
    · exact .none
  | swap v w =>
    simp only [Handles.step, related.handles]
    rcases holds : t.handles v with _ | gpio
    · exact .none
    · rcases holds' : t.handles w with _ | gpio'
      · exact .none
      · have after := related.swap holds holds'
        rw [related.handles] at after
        exact .some after
  | destroy v =>
    simp only [Handles.step, related.handles]
    rcases holds : t.handles v with _ | gpio
    · exact .none
    · have after := related.destroy platform holds rfl
      rw [related.handles] at after
      exact .some after
  | call v call =>
    simp only [Handles.step, related.handles]
    rcases holds : t.handles v with _ | gpio
    · exact .none
    · exact related.through holds (Driver.keepsKind_call call)
  | getDirection v =>
    simp only [Handles.step, related.handles]
    rcases holds : t.handles v with _ | gpio
    · exact .none
    · exact related.through holds Driver.keepsKind_getDirection
  | getValue v =>
    simp only [Handles.step, related.handles]
    rcases holds : t.handles v with _ | gpio
    · exact .none
    · exact related.through holds Driver.keepsKind_getValue
  | mockCall v call =>
    simp only [Handles.step, related.handles]
    rcases holds : t.handles v with _ | gpio
    · exact .none
    · dsimp only
      split
      · exact related.through holds (Driver.keepsKind_mockCall call)
      · have after := related.answered s.host (.threw (.onlyForMock call.name))
        rw [related.handles] at after
        rw [← related.host]
        exact .some after

/-! ## Runs -/

theorem related_run (platform : Platform κ σ δ) (throws : χ → Report → Option ε) (host : κ)
    (actions : List (Action V χ)) :
    Option.Rel Related (run (step platform throws counting) (start V δ ε host {}) actions)
      (run (step platform throws collecting) (start V δ ε host {}) actions) :=
  rel_run (fun _ _ action related => related.step action) (related_start host) actions

theorem exists_related {actions : List (Action V χ)}
    (reached : run (step platform throws counting) (start V δ ε host {}) actions = some s) :
    ∃ t, run (step platform throws collecting) (start V δ ε host {}) actions = some t ∧
      Related s t := by
  have runs := related_run platform throws host actions
  rw [reached] at runs
  generalize run (step platform throws collecting) (start V δ ε host {}) actions = t at runs
  cases runs with
  | some related => exact ⟨_, rfl, related⟩

/-- **The use counts cannot be seen.** A program on handles goes as it would if each driver were
destroyed at the moment when no handle points to it any more, by whatever means that is found
out: it is defined as far, its handles point to the same drivers, which are there exactly as
long as they have handles, and it gets the same answers from the same host, on which the
destructors ran at the same points. -/
theorem reference_counts_invisible (platform : Platform κ σ δ) (throws : χ → Report → Option ε)
    (host : κ) (actions : List (Action V χ)) :
    Option.Rel
      (fun s t => s.handles = t.handles ∧ s.host = t.host ∧ s.answers = t.answers ∧
        ∀ p, counting.object s.drivers p = collecting.object t.drivers p ∧
          (collecting.object t.drivers p ≠ none ↔ ∃ v, owner t.handles v = some p))
      (run (step platform throws counting) (start V δ ε host {}) actions)
      (run (step platform throws collecting) (start V δ ε host {}) actions) := by
  have runs := related_run platform throws host actions (ε := ε)
  revert runs
  generalize run (step platform throws counting) (start V δ ε host {}) actions = s
  generalize run (step platform throws collecting) (start V δ ε host {}) actions = t
  intro runs
  cases runs with
  | none => exact .none
  | some related =>
    exact .some ⟨related.handles, related.host, related.answers, fun p =>
      ⟨related.agrees.objects p, related.agrees.ne_none_iff related.counted⟩⟩

/-- **Drivers are destroyed once.** After any run, a driver that was made and has no handle
any more has been destroyed once, and one that has a handle is there. -/
theorem drivers_destroyed_once {actions : List (Action V χ)}
    (reached : run (step platform throws counting) (start V δ ε host {}) actions = some s)
    (p : Nat) :
    (p < s.drivers.next → (∀ v gpio, s.handles v = some gpio → gpio.impl ≠ some p) →
      s.drivers.destroyed.count p = 1) ∧
    ∀ v gpio, s.handles v = some gpio → gpio.impl = some p →
      p < s.drivers.next ∧ s.drivers.destroyed.count p = 0 ∧
        ∃ driver, counting.object s.drivers p = some driver ∧ driver.isMock = gpio.isMock := by
  obtain ⟨t, -, related⟩ := exists_related reached
  rw [related.handles]
  refine ⟨fun made unowned => related.counted.destroyed_of_unowned made fun v owns => ?_,
    fun v gpio holds impl => ?_⟩
  · rcases holds : t.handles v with _ | gpio
    · rw [owner_none holds] at owns
      cases owns
    · exact unowned v gpio holds ((owner_eq holds).symm.trans owns)
  · have owns : owner t.handles v = some p := (owner_eq holds).trans impl
    obtain ⟨made, kept⟩ := related.counted.not_destroyed_of_owned owns
    obtain ⟨driver, exists_, there⟩ := related.agrees.object_eq related.counted owns
    obtain ⟨driver', there', kind⟩ := related.flagged holds impl
    have same : driver = driver' := Option.some.inj (there.symm.trans there')
    exact ⟨made, kept, driver, exists_, same ▸ kind⟩

/-- Lines of libgpiod 2, known by their offsets, and callbacks that return. -/
abbrev Lines := Nat → Gpiod.KernelLine

abbrev LineError := Empty ⊕ GpiodV2.Error Gpiod.Errno

abbrev LineSystem :=
  System Lines (Heap (Driver (Nat × Option Nat) Unit)) (Fin 3) LineError Unit

def lineStep (s : LineSystem) : Action (Fin 3) Unit → Option LineSystem :=
  step (Platform.gpiodV2 (fun config => .ok config.line) Gpiod.kernelChip) (fun _ _ => none)
    counting s

def lineStart : LineSystem := start (Fin 3) LineError Unit (fun _ => {}) {}

/-- The line that two handles share is free for a third one when both are gone. -/
example :
    (run lineStep lineStart
        [.construct 0 {}, .call 0 (.initOutput true), .copy 1 0, .construct 2 {}, .destroy 0,
          .call 2 .initInput, .destroy 1, .call 2 .initInput]).map System.answers =
      some [.returned, .threw (.platform (.inr (.system .ebusy))), .returned] := by
  rfl

/-- A driver with two handles, which are destroyed one after the other. -/
theorem drivers_destroyed_once_two :
    ∃ s, run lineStep lineStart
        [.construct 0 {}, .copy 1 0, .destroy 0, .destroy 1] = some s ∧
      s.drivers.destroyed.count 0 = 1 := by
  have reached : run lineStep lineStart
      [.construct 0 {}, .copy 1 0, .destroy 0, .destroy 1] = some _ :=
    rfl
  refine ⟨_, reached, (drivers_destroyed_once reached 0).1 (by decide) fun v gpio holds => ?_⟩
  rcases v with ⟨_ | _ | _ | v, bound⟩
  · cases holds
  · cases holds
  · cases holds
  · omega

omit [DecidableEq V] in
/-- A mock takes every call, as does a driver on a platform that does. -/
theorem Driver.call_ne_none (total : platform.Total) (driver : Driver σ χ) (host : κ)
    (call : Call) : (driver.call platform throws host call : Outcome κ σ χ δ ε) ≠ none := by
  cases driver with
  | mock m => exact Option.some_ne_none _
  | platform s =>
    rw [Driver.call]
    rcases taken : platform.call host s call with _ | ⟨host', s', result⟩
    · exact absurd taken (total host s call)
    · exact Option.some_ne_none _

/-- What a handle points to, if anything, takes the call. -/
def Takes (s : System κ (Heap (Driver σ χ)) V δ ε) (gpio : Gpio)
    (call : Driver σ χ → κ → Outcome κ σ χ δ ε) : Prop :=
  ∃ p, gpio.impl = some p ∧
    ∀ driver, counting.object s.drivers p = some driver → call driver s.host ≠ none

/-- An action that C++ defines: a new handle in a variable that holds none, handles that are
there, and calls through pointers that are not null, of drivers that take them. -/
def WellUsed (platform : Platform κ σ δ) (throws : χ → Report → Option ε)
    (s : System κ (Heap (Driver σ χ)) V δ ε) : Action V χ → Prop
  | .construct v _ => s.handles v = none
  | .copy v other | .move v other => s.handles v = none ∧ s.handles other ≠ none
  | .swap first second => s.handles first ≠ none ∧ s.handles second ≠ none
  | .destroy v => s.handles v ≠ none
  | .call v call => ∃ gpio, s.handles v = some gpio ∧
    Takes s gpio fun driver host => driver.call platform throws host call
  | .getDirection v => ∃ gpio, s.handles v = some gpio ∧
    Takes s gpio fun driver host => driver.getDirection platform throws host
  | .getValue v => ∃ gpio, s.handles v = some gpio ∧
    Takes s gpio fun driver host => driver.getValue platform throws host
  | .mockCall v _ => ∃ gpio, s.handles v = some gpio ∧ (gpio.isMock = true → gpio.impl ≠ none)

omit [DecidableEq V] in
/-- Where the driver takes every call, only null pointers are not to be called through. -/
theorem wellUsed_call_iff (total : platform.Total) {s : System κ (Heap (Driver σ χ)) V δ ε}
    (holds : s.handles v = some gpio) (call : Call) :
    WellUsed platform throws s (.call v call) ↔ gpio.impl ≠ none := by
  apply Iff.intro
  · rintro ⟨gpio', holds', p, points, -⟩
    cases holds.symm.trans holds'
    rw [points]
    exact Option.some_ne_none p
  · intro points
    obtain ⟨p, points⟩ := Option.ne_none_iff_exists'.mp points
    exact ⟨gpio, holds, p, points, fun driver _ => Driver.call_ne_none total driver s.host call⟩

end

end Handles

end Iqrf.Gpio
