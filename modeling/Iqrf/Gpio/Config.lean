import Iqrf.Gpio.GpioResolver
import Iqrf.Lib.Runs

/-!
# GPIO configurations

A configuration names a line by its chip and offset, by its chip and name, or by a pin
number that a resolver looks up when the configuration is made. `GetResolver` has two
overloads, and each has an object of its own that is made at the first call and kept: the
one without an argument reads the map of the system, the other one takes the map it is
given. Reading the map may throw; then the object is not made, the call throws, and the
next one reads again. `results_of_run` says which maps are ever used, in any order of calls.
-/

namespace Iqrf.Gpio

open Runs

/-- Default consumer name for better identification. -/
def defaultConsumerName : Name := ['l', 'i', 'b', 'i', 'q', 'r', 'f']

/-- GPIO configuration, with the values of the default constructor. The line is a
`size_t`, and `0` is a valid line number. -/
structure GpioConfig where
  chip : Name := []
  line : Nat := 0
  lineName : Name := []
  pin : Int64 := -1
  consumerName : Name := defaultConsumerName
  useMock : Bool := false
  deriving DecidableEq

namespace GpioConfig

def ofLine (chip : Name) (line : Nat) (consumerName : Name := defaultConsumerName) : GpioConfig :=
  { chip, line, consumerName }

def ofLineName (chip lineName : Name) (consumerName : Name := defaultConsumerName) : GpioConfig :=
  { chip, lineName, consumerName }

/-- A line by its pin number, which the map of the resolver turns into chip and offset. -/
def ofPin (gpioMap : GpioMap) (pin : Int64) (consumerName : Name := defaultConsumerName) :
    Except GpioResolver.ResolveError GpioConfig :=
  match GpioResolver.resolveGpioPin gpioMap pin with
  | .error e => .error e
  | .ok (chip, line) => .ok { chip, line, pin, consumerName }

/-- The text of a configuration; the name of the line and the pin are not in it. -/
def toString (config : GpioConfig) : String :=
  "GPIO configuration: chip=" ++ String.ofList config.chip ++ ", line=" ++
    ToString.toString config.line ++ ", consumer_name=" ++ String.ofList config.consumerName

end GpioConfig

/-! ## The resolvers -/

/-- The two function-local static objects, each made at the first call of its overload that
does not throw. -/
structure Resolvers where
  system : Option GpioMap := none
  custom : Option GpioMap := none

/-- A call that gets at a resolver; `now` is what `getGpioMap()` would do, return a map or
throw. -/
inductive ResolverCall (δ : Type*)
  | getResolver (now : Except δ GpioMap)
  | getResolverOf (map : GpioMap)
  | gpioConfig (now : Except δ GpioMap) (pin : Int64) (consumerName : Name)

/-- What a call gets: the map of a resolver, a configuration, or what `getGpioMap()` threw. -/
inductive ResolverResult (δ : Type*)
  | resolver (map : GpioMap)
  | config (result : Except GpioResolver.ResolveError GpioConfig)
  | threw (error : δ)

variable {δ : Type*}

namespace Resolvers

/-- `GpioResolver::GetResolver()`. -/
def getResolver (s : Resolvers) (now : Except δ GpioMap) : Resolvers × Except δ GpioMap :=
  match s.system with
  | some map => (s, .ok map)
  | none =>
    match now with
    | .ok map => ({ s with system := some map }, .ok map)
    | .error e => (s, .error e)

/-- `GpioResolver::GetResolver(map)`. -/
def getResolverOf (s : Resolvers) (map : GpioMap) : Resolvers × GpioMap :=
  match s.custom with
  | some kept => (s, kept)
  | none => ({ s with custom := some map }, map)

def step (s : Resolvers) : ResolverCall δ → Resolvers × ResolverResult δ
  | .getResolver now =>
    match s.getResolver now with
    | (s', .ok map) => (s', .resolver map)
    | (s', .error e) => (s', .threw e)
  | .getResolverOf map => ((s.getResolverOf map).1, .resolver (s.getResolverOf map).2)
  | .gpioConfig now pin consumerName =>
    match s.getResolver now with
    | (s', .ok map) => (s', .config (GpioConfig.ofPin map pin consumerName))
    | (s', .error e) => (s', .threw e)

/-- What the calls of a run get. -/
def results : Resolvers → List (ResolverCall δ) → List (ResolverResult δ)
  | _, [] => []
  | s, call :: calls => (s.step call).2 :: results (s.step call).1 calls

end Resolvers

namespace ResolverCall

/-- The map of the system that the call would read, if it can. -/
def now : ResolverCall δ → Option GpioMap
  | getResolver now | gpioConfig now _ _ => now.toOption
  | getResolverOf _ => none

/-- The map that the call brings. -/
def brought : ResolverCall δ → Option GpioMap
  | getResolverOf map => some map
  | getResolver _ | gpioConfig _ _ _ => none

/-- What the call gets from the resolvers that exist when it returns or throws. -/
def answer (system custom : Option GpioMap) : ResolverCall δ → ResolverResult δ
  | getResolver now =>
    match system.elim now .ok with
    | .ok map => .resolver map
    | .error e => .threw e
  | getResolverOf map => .resolver (custom.getD map)
  | gpioConfig now pin consumerName =>
    match system.elim now .ok with
    | .ok map => .config (GpioConfig.ofPin map pin consumerName)
    | .error e => .threw e

end ResolverCall

namespace Resolvers

variable (s : Resolvers) (call : ResolverCall δ) (calls : List (ResolverCall δ))

/-- The resolvers that exist after some calls: those of before, or else the first that the
calls read or brought. -/
def after : Resolvers :=
  ⟨s.system.or (calls.findSome? ResolverCall.now),
    s.custom.or (calls.findSome? ResolverCall.brought)⟩

theorem step_eq :
    s.step call = (s.after [call],
      call.answer (s.after [call]).system (s.after [call]).custom) := by
  rcases s with ⟨_ | system, _ | custom⟩ <;>
    rcases call with ⟨_ | now⟩ | ⟨map⟩ | ⟨_ | now, pin, consumerName⟩ <;> rfl

theorem findSome?_cons_eq_or {α β : Type*} (f : α → Option β) (a : α) (as : List α) :
    (a :: as).findSome? f = ([a].findSome? f).or (as.findSome? f) := by
  rw [List.findSome?_cons, List.findSome?_cons, List.findSome?_nil]
  cases f a <;> rfl

theorem after_cons : s.after (call :: calls) = (s.after [call]).after calls := by
  unfold after
  rw [findSome?_cons_eq_or, findSome?_cons_eq_or _ call calls, Option.or_assoc, Option.or_assoc]

theorem results_append (later : List (ResolverCall δ)) :
    s.results (calls ++ later) = s.results calls ++ (s.after calls).results later := by
  induction calls generalizing s with
  | nil =>
    have same : s.after ([] : List (ResolverCall δ)) = s := by
      unfold after
      rw [List.findSome?_nil, List.findSome?_nil, Option.or_none, Option.or_none]
    rw [same]
    rfl
  | cons call calls ih =>
    rw [List.cons_append, results, results, ih, step_eq, after_cons s call calls]
    rfl

@[simp] theorem length_results : (s.results calls).length = calls.length := by
  induction calls generalizing s with
  | nil => rfl
  | cons call calls ih => rw [results, List.length_cons, ih, List.length_cons]

/-- Whatever the order of the calls and whenever the system can be read, a call without a
map, and so each configuration, uses the first map of the system that it or a call before it
has read, and throws what `getGpioMap()` throws if there is none yet; a call that brings a
map gets the first one that was brought. -/
theorem results_of_run (later : List (ResolverCall δ)) :
    (({} : Resolvers).results (calls ++ call :: later))[calls.length]? =
      some (call.answer ((calls ++ [call]).findSome? ResolverCall.now)
        ((calls ++ [call]).findSome? ResolverCall.brought)) := by
  have first : (({} : Resolvers).after calls).after [call] =
      ⟨(calls ++ [call]).findSome? ResolverCall.now,
        (calls ++ [call]).findSome? ResolverCall.brought⟩ := by
    unfold after
    rw [List.findSome?_append, List.findSome?_append, Option.none_or, Option.none_or]
  rw [results_append, List.getElem?_append_right (by rw [length_results]), length_results,
    Nat.sub_self, results, List.getElem?_cons_zero, step_eq, first]

end Resolvers

end Iqrf.Gpio
