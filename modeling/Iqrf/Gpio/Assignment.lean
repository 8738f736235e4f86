import Iqrf.Gpio.Handle

/-!
# Assignment of handles

`Gpio::operator=` takes its parameter by value, swaps it with the handle that is assigned
to, and lets its destructor give up what that one pointed to. `assign_keeps` says what comes
of it in any program, for a parameter that is copied and for one that is moved, and for a
handle that is assigned to itself.
-/

namespace Iqrf.Gpio.Handles

open Runs SharedPtr

variable {κ V σ χ δ ε : Type*} [DecidableEq V] {platform : Platform κ σ δ}
  {throws : χ → Report → Option ε} {host : κ} {s : System κ (Heap (Driver σ χ)) V δ ε}
  {t : System κ (Collected (Driver σ χ)) V δ ε} {v : V} {gpio : Gpio}

/-- `Gpio::operator=`, whose parameter is copied from the other handle. -/
def assign (v other param : V) : List (Action V χ) :=
  [.copy param other, .swap v param, .destroy param]

/-- `Gpio::operator=`, whose parameter is moved from the other handle. -/
def assignMoved (v other param : V) : List (Action V χ) :=
  [.move param other, .swap v param, .destroy param]

/-- Two runs of the same actions end alike. -/
theorem related_of_run {s' : System κ (Heap (Driver σ χ)) V δ ε}
    {t' : System κ (Collected (Driver σ χ)) V δ ε} {actions : List (Action V χ)}
    (related : Related s t) (reached : run (step platform throws counting) s actions = some s')
    (reached' : run (step platform throws collecting) t actions = some t') : Related s' t' := by
  have runs : Option.Rel Related (run (step platform throws counting) s actions)
      (run (step platform throws collecting) t actions) :=
    rel_run (fun _ _ action related => related.step action) related actions
  rw [reached, reached'] at runs
  cases runs with
  | some related' => exact related'

section Assign

variable {M : Type*} {memory : Memory M (Driver σ χ)} {r : System κ M V δ ε} {w param : V}
  {gpio' : Gpio}

/-- The parameter goes, and with it what it points to by then. -/
def System.released (platform : Platform κ σ δ) (memory : Memory M (Driver σ χ))
    (r : System κ M V δ ε) (handles : V → Option Gpio) (pointer : Option Nat) :
    System κ M V δ ε :=
  let released := memory.drop r.drivers (fun p => ∃ w, owner handles w = some p) pointer
  { r with
    host := destroyed platform r.host released.2
    handles
    drivers := released.1 }

theorem run_assign (platform : Platform κ σ δ) (throws : χ → Report → Option ε)
    (holds : r.handles v = some gpio) (holds' : r.handles w = some gpio')
    (free : r.handles param = none) :
    run (step platform throws memory) r (assign v w param) =
      some (System.released platform memory
        { r with drivers := memory.copy r.drivers gpio'.impl }
        (Function.update r.handles v (some gpio')) gpio.impl) := by
  have other : v ≠ param := by
    intro same
    rw [same, free] at holds
    cases holds
  have final : Function.update (Function.update (Function.update
      (Function.update r.handles param (some gpio')) v (some gpio')) param (some gpio)) param none =
        Function.update r.handles v (some gpio') := by
    rw [Function.update_idem]
    funext u
    by_cases first : u = param
    · subst first
      rw [Function.update_self, Function.update_of_ne other.symm, free]
    · rw [Function.update_of_ne first]
      by_cases second : u = v
      · subst second
        rw [Function.update_self, Function.update_self]
      · rw [Function.update_of_ne second, Function.update_of_ne first, Function.update_of_ne second]
  simp only [assign, run_cons, run_nil, Handles.step, free, holds', Option.bind_some,
    Function.update_self, Function.update_of_ne other, holds, final, System.released]

theorem run_assignMoved (platform : Platform κ σ δ) (throws : χ → Report → Option ε)
    (holds : r.handles v = some gpio) (holds' : r.handles w = some gpio')
    (free : r.handles param = none) :
    run (step platform throws memory) r (assignMoved v w param) =
      some (System.released platform memory r
        (Function.update
          (Function.update r.handles w (some { gpio' with impl := none })) v (some gpio'))
        (if v = w then none else gpio.impl)) := by
  have other : v ≠ param := by
    intro same
    rw [same, free] at holds
    cases holds
  have other' : w ≠ param := by
    intro same
    rw [same, free] at holds'
    cases holds'
  have final : ∀ handle, Function.update (Function.update (Function.update
      (Function.update (Function.update r.handles param (some gpio')) w
        (some { gpio' with impl := none })) v (some gpio')) param handle) param none =
        Function.update (Function.update r.handles w (some { gpio' with impl := none })) v
          (some gpio') := by
    intro handle
    rw [Function.update_idem]
    funext u
    by_cases first : u = param
    · subst first
      rw [Function.update_self, Function.update_of_ne other.symm, Function.update_of_ne other'.symm,
        free]
    · rw [Function.update_of_ne first]
      by_cases second : u = v
      · subst second
        rw [Function.update_self, Function.update_self]
      · rw [Function.update_of_ne second, Function.update_of_ne second]
        by_cases third : u = w
        · subst third
          rw [Function.update_self, Function.update_self]
        · rw [Function.update_of_ne third, Function.update_of_ne third, Function.update_of_ne first]
  by_cases same : v = w
  · subst same
    simp only [assignMoved, run_cons, run_nil, Handles.step, free, holds', Option.bind_some,
      Function.update_self, Function.update_of_ne other.symm, final, if_true, System.released]
  · simp only [assignMoved, run_cons, run_nil, Handles.step, free, holds, holds', Option.bind_some,
      Function.update_self, Function.update_of_ne other, Function.update_of_ne other'.symm,
      Function.update_of_ne same, final, if_neg same, System.released]

omit [DecidableEq V] in
/-- What has a handle is as it was, if only what has none may have gone. -/
theorem Related.object_eq {s' : System κ (Heap (Driver σ χ)) V δ ε}
    {t' : System κ (Collected (Driver σ χ)) V δ ε} (related : Related s t)
    (related' : Related s' t')
    (kept : ∀ p, (∃ u, owner t'.handles u = some p) → t'.drivers.objects p = t.drivers.objects p)
    {u : V} {handle : Gpio} {p : Nat} (points : s'.handles u = some handle)
    (impl : handle.impl = some p) :
    counting.object s'.drivers p = counting.object s.drivers p := by
  rw [related'.handles] at points
  have owns : owner t'.handles u = some p := (owner_eq points).trans impl
  calc counting.object s'.drivers p
      = t'.drivers.objects p := related'.agrees.objects p
    _ = t.drivers.objects p := kept p ⟨u, owns⟩
    _ = counting.object s.drivers p := (related.agrees.objects p).symm

end Assign

/-- **Assignment.** After any run a handle can be assigned, also to itself, from a copy or from
a handle that is moved from: it points to what the other one did, which points to nothing
if it was moved from and is not the same, and every driver that still has a handle is as
it was. -/
theorem assign_keeps {actions : List (Action V χ)}
    (reached : run (step platform throws counting) (start V δ ε host {}) actions = some s)
    {w param : V} {gpio' : Gpio} (holds : s.handles v = some gpio)
    (holds' : s.handles w = some gpio') (free : s.handles param = none) :
    (∃ s', run (step platform throws counting) s (assign v w param) = some s' ∧
      s'.handles = Function.update s.handles v (some gpio') ∧ s'.answers = s.answers ∧
      ∀ u handle p, s'.handles u = some handle → handle.impl = some p →
        counting.object s'.drivers p = counting.object s.drivers p) ∧
    ∃ s', run (step platform throws counting) s (assignMoved v w param) = some s' ∧
      s'.handles = Function.update
        (Function.update s.handles w (some { gpio' with impl := none })) v (some gpio') ∧
      s'.answers = s.answers ∧
      ∀ u handle p, s'.handles u = some handle → handle.impl = some p →
        counting.object s'.drivers p = counting.object s.drivers p := by
  obtain ⟨t, -, related⟩ := exists_related reached
  have there : t.handles v = some gpio := related.handles ▸ holds
  have there' : t.handles w = some gpio' := related.handles ▸ holds'
  have gone : t.handles param = none := related.handles ▸ free
  refine ⟨⟨_, run_assign platform throws holds holds' free, rfl, rfl,
      fun u handle p points impl => ?_⟩,
    _, run_assignMoved platform throws holds holds' free, rfl, rfl,
      fun u handle p points impl => ?_⟩
  · have related' := related_of_run related (run_assign platform throws holds holds' free)
      (run_assign platform throws there there' gone)
    refine related.object_eq related' (fun q owned => ?_) points impl
    have copied : (collecting.copy t.drivers gpio'.impl).objects q = t.drivers.objects q := by
      cases gpio'.impl <;> rfl
    rw [← copied]
    exact objects_drop owned
  · have related' := related_of_run related (run_assignMoved platform throws holds holds' free)
      (run_assignMoved platform throws there there' gone)
    exact related.object_eq related' (fun q owned => objects_drop owned) points impl

/-- A handle that is assigned to itself. -/
theorem assign_keeps_self :
    ∃ s, run lineStep lineStart [.construct 0 {}, .call 0 (.initOutput true)] = some s ∧
      ∃ s', run lineStep s (assign 0 0 1) = some s' ∧
        s'.handles = Function.update s.handles 0 (some ⟨some 0, false⟩) ∧
        s'.answers = s.answers ∧
        ∀ u handle p, s'.handles u = some handle → handle.impl = some p →
          counting.object s'.drivers p = counting.object s.drivers p := by
  have reached : run lineStep lineStart [.construct 0 {}, .call 0 (.initOutput true)] = some _ :=
    rfl
  exact ⟨_, reached, (assign_keeps reached rfl rfl rfl).1⟩

end Iqrf.Gpio.Handles
