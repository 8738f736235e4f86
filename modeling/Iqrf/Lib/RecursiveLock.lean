import Iqrf.Lib.Runs
import Mathlib.Logic.Function.Basic

/-!
# Operations under one recursive lock

A `Program` takes and releases a lock and makes one access to the shared state at a
time. It is `Balanced` if it releases what it takes, as code does that takes the lock by
scope; a `Guarded` operation is a balanced program run within one more such scope, so
that operations may call each other.

`Machine` is any number of threads that run operations, a piece at a time and in any
order; `Atomic` runs each operation at once. `Machine.refines_atomic` says that the
threads cannot tell the two apart: every run of the first shows the calls and returns of
one of the second, with the same results. `Machine.always_change` carries what an
operation does to the state when it runs alone over to every interleaving, and
`Machine.exists_return` says that no operation is ever stuck for good.
-/

namespace RecursiveLock

open Runs Function

/-- The pieces of an operation. An access reads the state and changes it. -/
inductive Program (σ ρ : Type*)
  | done (result : ρ)
  | lock (next : Program σ ρ)
  | unlock (next : Program σ ρ)
  | access (change : σ → σ) (next : σ → Program σ ρ)

namespace Program

variable {σ ρ τ : Type*}

/-- The program followed by another one that gets its result. -/
def bind : Program σ ρ → (ρ → Program σ τ) → Program σ τ
  | .done result, f => f result
  | .lock next, f => .lock (next.bind f)
  | .unlock next, f => .unlock (next.bind f)
  | .access change next, f => .access change fun s => (next s).bind f

/-- What the program does if no other thread comes in between. -/
def eval : Program σ ρ → σ → σ × ρ
  | .done result, s => (s, result)
  | .lock next, s => next.eval s
  | .unlock next, s => next.eval s
  | .access change next, s => (next s).eval (change s)

/-- Every change the program makes, run alone from a state, is in `G`. -/
def Throughout (G : σ → σ → Prop) : Program σ ρ → σ → Prop
  | .done _, _ => True
  | .lock next, s => next.Throughout G s
  | .unlock next, s => next.Throughout G s
  | .access change next, s => G s (change s) ∧ (next s).Throughout G (change s)

/-- Within as many scopes as given, the program leaves each of them and no other. -/
inductive Balanced : Nat → Program σ ρ → Prop
  | done (result : ρ) : Balanced 0 (.done result)
  | lock {depth : Nat} {next : Program σ ρ} (inner : Balanced (depth + 1) next) :
    Balanced depth (.lock next)
  | unlock {depth : Nat} {next : Program σ ρ} (outer : Balanced depth next) :
    Balanced (depth + 1) (.unlock next)
  | access {depth : Nat} {change : σ → σ} {next : σ → Program σ ρ}
    (each : ∀ s, Balanced depth (next s)) : Balanced depth (.access change next)

/-- The end of a scope. -/
def release (result : ρ) : Program σ ρ := .unlock (.done result)

/-- The program within a scope that holds the lock. -/
def guarded (p : Program σ ρ) : Program σ ρ := .lock (p.bind release)

variable {p : Program σ ρ} {f : ρ → Program σ τ} {G : σ → σ → Prop} {s : σ} {depth : Nat}

@[simp] theorem eval_done (result : ρ) : (Program.done result).eval s = (s, result) := rfl

theorem eval_bind (p : Program σ ρ) (f : ρ → Program σ τ) (s : σ) :
    (p.bind f).eval s = (f (p.eval s).2).eval (p.eval s).1 := by
  induction p generalizing s with
  | done result => rfl
  | lock next ih => exact ih s
  | unlock next ih => exact ih s
  | access change next ih => exact ih s (change s)

/-- A scope changes nothing about what a program does alone. -/
@[simp] theorem eval_guarded (p : Program σ ρ) (s : σ) : p.guarded.eval s = p.eval s := by
  rw [guarded, eval, eval_bind]
  rfl

theorem throughout_bind : (p.bind f).Throughout G s ↔
    p.Throughout G s ∧ (f (p.eval s).2).Throughout G (p.eval s).1 := by
  induction p generalizing s with
  | done result => exact ⟨fun given => ⟨trivial, given⟩, And.right⟩
  | lock next ih => exact ih
  | unlock next ih => exact ih
  | access change next ih => exact (and_congr_right fun _ => ih s).trans and_assoc.symm

@[simp] theorem throughout_guarded : p.guarded.Throughout G s ↔ p.Throughout G s :=
  throughout_bind.trans (and_iff_left trivial)

theorem throughout_true (p : Program σ ρ) (s : σ) : p.Throughout (fun _ _ => True) s := by
  induction p generalizing s with
  | done result => trivial
  | lock next ih => exact ih s
  | unlock next ih => exact ih s
  | access change next ih => exact ⟨trivial, ih s (change s)⟩

/-- A program within some scopes, followed by one within others. -/
theorem Balanced.bind {outer : Nat} (balanced : Balanced depth p)
    (each : ∀ result, Balanced outer (f result)) : Balanced (depth + outer) (p.bind f) := by
  induction balanced with
  | done result => exact (Nat.zero_add outer).symm ▸ each result
  | lock _ ih => exact .lock ((Nat.succ_add_eq_add_succ _ outer) ▸ ih)
  | unlock _ ih => exact (Nat.succ_add_eq_add_succ _ outer) ▸ .unlock ih
  | access _ ih => exact .access ih

theorem Balanced.andThen (balanced : Balanced 0 p) (each : ∀ result, Balanced 0 (f result)) :
    Balanced 0 (p.bind f) :=
  balanced.bind each

theorem Balanced.guarded (balanced : Balanced 0 p) : Balanced 0 p.guarded :=
  .lock (balanced.bind fun result => .unlock (.done result))

/-- The end of a scope is still to come, so the program is not over. -/
theorem bind_release_ne_done (p : Program σ ρ) (result : ρ) : p.bind release ≠ .done result := by
  cases p <;> exact fun same => by cases same

end Program

/-- An operation that runs within one scope. -/
structure Guarded (σ ρ : Type*) where
  body : Program σ ρ
  balanced : body.Balanced 0

/-- Run alone from a state in `I`, the operation changes the state within `G` and leaves
it in `I`. -/
def Guarded.Keeps {σ ρ : Type*} (o : Guarded σ ρ) (I : σ → Prop) (G : σ → σ → Prop) : Prop :=
  ∀ s, I s → o.body.Throughout G s ∧ I (o.body.eval s).1

theorem Guarded.keeps_true {σ ρ : Type*} (o : Guarded σ ρ) :
    o.Keeps (fun _ => True) fun _ _ => True :=
  fun s _ => ⟨o.body.throughout_true s, trivial⟩

/-! ## Threads, and operations at once -/

/-- What can happen next: a thread calls an operation, goes on by one piece, or returns. -/
inductive Action (T ι : Type*)
  | call (thread : T) (operation : ι)
  | proceed (thread : T)
  | return_ (thread : T)

/-- Calls and returns can be seen from outside. -/
def Action.shown {T ι : Type*} : Action T ι → Option (Action T ι)
  | .proceed _ => none
  | a => some a

/-- The state that the threads share, the lock, and what each thread still has to run. -/
structure Machine (T σ ρ : Type*) where
  shared : σ
  owner : Option T := none
  depth : Nat := 0
  running : T → Option (Program σ ρ) := fun _ => none
  returned : List (T × ρ) := []

/-- An operation that was called takes effect, and then returns. -/
inductive Stage (ι ρ : Type*)
  | called (operation : ι)
  | decided (result : ρ)

/-- The state that the threads share, where an operation has no pieces. -/
structure Atomic (T ι σ ρ : Type*) where
  shared : σ
  running : T → Option (Stage ι ρ) := fun _ => none
  returned : List (T × ρ) := []

section Steps

variable {T ι σ ρ : Type*} (operation : ι → Guarded σ ρ) (effect : ι → σ → σ × ρ)

/-- One piece. A thread waits for a lock that another one owns. -/
def Machine.step [DecidableEq T] (m : Machine T σ ρ) : Action T ι → Option (Machine T σ ρ)
  | .call t i =>
    match m.running t with
    | none => some { m with running := update m.running t (some (operation i).body.guarded) }
    | some _ => none
  | .proceed t =>
    match m.running t with
    | some (.lock next) =>
      if m.owner = none ∨ m.owner = some t then
        some { m with
          owner := some t
          depth := m.depth + 1
          running := update m.running t (some next) }
      else none
    | some (.unlock next) =>
      if m.owner = some t then
        some { m with
          owner := if m.depth = 1 then none else some t
          depth := m.depth - 1
          running := update m.running t (some next) }
      else none
    | some (.access change next) =>
      some { m with
        shared := change m.shared
        running := update m.running t (some (next m.shared)) }
    | _ => none
  | .return_ t =>
    match m.running t with
    | some (.done result) =>
      some { m with
        running := update m.running t none
        returned := m.returned ++ [(t, result)] }
    | _ => none

/-- The same where the effect of an operation comes at once. -/
def Atomic.step [DecidableEq T] (a : Atomic T ι σ ρ) : Action T ι → Option (Atomic T ι σ ρ)
  | .call t i =>
    match a.running t with
    | none => some { a with running := update a.running t (some (.called i)) }
    | some _ => none
  | .proceed t =>
    match a.running t with
    | some (.called i) =>
      let outcome := effect i a.shared
      some { a with
        shared := outcome.1
        running := update a.running t (some (.decided outcome.2)) }
    | _ => none
  | .return_ t =>
    match a.running t with
    | some (.decided result) =>
      some { a with
        running := update a.running t none
        returned := a.returned ++ [(t, result)] }
    | _ => none

/-- What one piece of the machine can be. -/
inductive Takes [DecidableEq T] (m : Machine T σ ρ) : Action T ι → Machine T σ ρ → Prop
  | call {t : T} (i : ι) (idle : m.running t = none) : Takes m (.call t i)
    { m with running := update m.running t (some (operation i).body.guarded) }
  | lock {t : T} {next : Program σ ρ} (runs : m.running t = some (.lock next))
    (mine : m.owner = none ∨ m.owner = some t) : Takes m (.proceed t)
    { m with owner := some t, depth := m.depth + 1, running := update m.running t (some next) }
  | unlock {t : T} {next : Program σ ρ} (runs : m.running t = some (.unlock next))
    (mine : m.owner = some t) : Takes m (.proceed t)
    { m with
      owner := if m.depth = 1 then none else some t
      depth := m.depth - 1
      running := update m.running t (some next) }
  | access {t : T} {change : σ → σ} {next : σ → Program σ ρ}
    (runs : m.running t = some (.access change next)) : Takes m (.proceed t)
    { m with
      shared := change m.shared
      running := update m.running t (some (next m.shared)) }
  | return_ {t : T} {result : ρ} (runs : m.running t = some (.done result)) :
    Takes m (.return_ t)
    { m with running := update m.running t none, returned := m.returned ++ [(t, result)] }

variable {operation} {effect} {m m' : Machine T σ ρ} {action : Action T ι}

theorem Machine.step_eq_some_iff [DecidableEq T] :
    m.step operation action = some m' ↔ Takes operation m action m' := by
  apply Iff.intro
  · intro taken
    cases action with
    | call t i =>
      rcases runs : m.running t with _ | p <;> simp only [step, runs] at taken <;> cases taken
      exact .call i runs
    | proceed t =>
      rcases runs : m.running t with _ | p
      · simp only [step, runs] at taken
        cases taken
      · cases p with
        | done result =>
          simp only [step, runs] at taken
          cases taken
        | lock next =>
          simp only [step, runs] at taken
          split at taken <;> cases taken
          exact .lock runs ‹_›
        | unlock next =>
          simp only [step, runs] at taken
          split at taken <;> cases taken
          exact .unlock runs ‹_›
        | access change next =>
          simp only [step, runs] at taken
          cases taken
          exact .access runs
    | return_ t =>
      rcases runs : m.running t with _ | p
      · simp only [step, runs] at taken
        cases taken
      · cases p <;> simp only [step, runs] at taken <;> cases taken
        exact .return_ runs
  · intro takes
    cases takes with
    | call i idle => simp only [step, idle]
    | lock runs mine => simp only [step, runs, if_pos mine]
    | unlock runs mine => simp only [step, runs, if_pos mine]
    | access runs => simp only [step, runs]
    | return_ runs => simp only [step, runs]

/-! ## The threads cannot tell the two apart -/

/-- A thread that is not inside its operation. -/
inductive AtRest (operation : ι → Guarded σ ρ) :
    Option (Program σ ρ) → Option (Stage ι ρ) → Prop
  | idle : AtRest operation none none
  | called (i : ι) : AtRest operation (some (operation i).body.guarded) (some (.called i))
  | decided (result : ρ) : AtRest operation (some (.done result)) (some (.decided result))

/-- What the machine has done, against operations that take effect as they end. Nobody is
inside an operation and the shared states agree, or one thread is inside: it will do from
here what its operation does alone from the state it began in. All its changes to come
are in `G`, and it leaves a state in `I`. -/
inductive Refines (operation : ι → Guarded σ ρ) (I : σ → Prop) (G : σ → σ → Prop) :
    Machine T σ ρ → Atomic T ι σ ρ → Prop
  | free {shared : σ} {running : T → Option (Program σ ρ)} {stages : T → Option (Stage ι ρ)}
    {returned : List (T × ρ)} (resting : ∀ t, AtRest operation (running t) (stages t))
    (settled : I shared) :
    Refines operation I G ⟨shared, none, 0, running, returned⟩ ⟨shared, stages, returned⟩
  | held {shared before : σ} {running : T → Option (Program σ ρ)}
    {stages : T → Option (Stage ι ρ)} {returned : List (T × ρ)} {t : T} {i : ι} {depth : Nat}
    {inner : Program σ ρ} (resting : ∀ u, u ≠ t → AtRest operation (running u) (stages u))
    (called : stages t = some (.called i))
    (inside : running t = some (inner.bind Program.release)) (balanced : inner.Balanced depth)
    (result : inner.eval shared = (operation i).body.eval before)
    (within : inner.Throughout G shared) (settles : I (inner.eval shared).1) :
    Refines operation I G ⟨shared, some t, depth + 1, running, returned⟩
      ⟨before, stages, returned⟩

variable {I : σ → Prop} {G : σ → σ → Prop} {a : Atomic T ι σ ρ} {running : T → Option (Program σ ρ)}
  {stages : T → Option (Stage ι ρ)}

theorem AtRest.of_none {stage : Option (Stage ι ρ)} (rest : AtRest operation none stage) :
    stage = none := by
  cases rest
  rfl

/-- A thread at rest is before the scope of its operation or past it. -/
theorem AtRest.of_some {p : Program σ ρ} {stage : Option (Stage ι ρ)}
    (rest : AtRest operation (some p) stage) :
    (∃ i, p = .lock ((operation i).body.bind Program.release) ∧ stage = some (.called i)) ∨
      ∃ result, p = .done result ∧ stage = some (.decided result) := by
  generalize eq : some p = running at rest
  cases rest with
  | idle => cases eq
  | called i => exact Or.inl ⟨i, Option.some.inj eq, rfl⟩
  | decided result => exact Or.inr ⟨result, Option.some.inj eq, rfl⟩

section Running

variable [DecidableEq T]

/-- A thread that comes to rest joins those that are. -/
theorem AtRest.update {others : T → Prop} {t : T} {p : Option (Program σ ρ)}
    {stage : Option (Stage ι ρ)} (next : AtRest operation p stage)
    (resting : ∀ u, others u → u ≠ t → AtRest operation (running u) (stages u)) (u : T)
    (other : others u) :
    AtRest operation (Function.update running t p u) (Function.update stages t stage u) := by
  by_cases same : u = t
  · subst same
    rwa [update_self, update_self]
  · rw [update_of_ne same, update_of_ne same]
    exact resting u other same

/-- A piece of the machine, with what the atomic one answers: the state changes as the
operation changes it alone, and the same is shown. -/
def Answered (operation : ι → Guarded σ ρ) (I : σ → Prop) (G : σ → σ → Prop)
    (m : Machine T σ ρ) (a : Atomic T ι σ ρ) (action : Action T ι) (m' : Machine T σ ρ) : Prop :=
  (m'.shared = m.shared ∨ G m.shared m'.shared) ∧
    ∃ bs a', run (Atomic.step fun i => (operation i).body.eval) a bs = some a' ∧
      bs.filterMap Action.shown = action.shown.toList ∧ Refines operation I G m' a'

/-- The piece that a thread takes within its operation: the last one makes the operation
take effect. -/
theorem Refines.inside {shared before : σ} {returned : List (T × ρ)} {t : T} {i : ι} {depth : Nat}
    {inner : Program σ ρ} (resting : ∀ u, u ≠ t → AtRest operation (running u) (stages u))
    (called : stages t = some (.called i))
    (inside : running t = some (inner.bind Program.release)) (balanced : inner.Balanced depth)
    (result : inner.eval shared = (operation i).body.eval before)
    (within : inner.Throughout G shared) (settles : I (inner.eval shared).1) :
    ∃ m', Machine.step operation ⟨shared, some t, depth + 1, running, returned⟩ (.proceed t) =
        some m' ∧
      Answered operation I G ⟨shared, some t, depth + 1, running, returned⟩
        ⟨before, stages, returned⟩ (.proceed t) m' := by
  have others : ∀ p u, u ≠ t → AtRest operation (update running t p u) (stages u) := by
    intro p u other
    rw [update_of_ne other]
    exact resting u other
  cases balanced with
  | done r =>
    -- the scope of the operation itself ends
    refine ⟨_, Machine.step_eq_some_iff.mpr (.unlock inside rfl), Or.inl rfl, [.proceed t],
      ⟨shared, update stages t (some (.decided r)), returned⟩, ?_, rfl, ?_⟩
    · rw [run_cons_of_step, run_nil]
      simp only [Atomic.step, called, ← result, Program.eval_done]
    · have joined := AtRest.update (.decided r) fun u (_ : True) => resting u
      exact .free (fun u => joined u trivial) settles
  | lock scope =>
    refine ⟨_, Machine.step_eq_some_iff.mpr (.lock inside (Or.inr rfl)), Or.inl rfl, [], _, rfl,
      rfl, .held (others _) called (update_self ..) scope result within settles⟩
  | @unlock d next outer =>
    have still : Refines operation I G
        ⟨shared, some t, d + 1, update running t (some (next.bind Program.release)), returned⟩
        ⟨before, stages, returned⟩ :=
      .held (others _) called (update_self ..) outer result within settles
    exact ⟨_, Machine.step_eq_some_iff.mpr (.unlock inside rfl), Or.inl rfl, [], _, rfl, rfl, still⟩
  | access each =>
    exact ⟨_, Machine.step_eq_some_iff.mpr (.access inside), Or.inr within.1, [], _, rfl, rfl,
      .held (others _) called (update_self ..) (each shared) result within.2 settles⟩

omit [DecidableEq T] in
theorem Refines.atRest (related : Refines operation I G m a) {t : T} (other : m.owner ≠ some t) :
    AtRest operation (m.running t) (a.running t) := by
  cases related with
  | free resting settled => exact resting t
  | @held _ _ _ _ _ owner _ _ _ resting called inside balanced result within settles =>
    exact resting t fun same => other (congrArg some same.symm)

omit [DecidableEq T] in
/-- The thread that owns the lock is inside its operation. -/
theorem Refines.inside_of_owner (related : Refines operation I G m a) {t : T}
    (mine : m.owner = some t) :
    ∃ inner : Program σ ρ, m.running t = some (inner.bind Program.release) := by
  cases related with
  | free resting settled => cases mine
  | held resting called inside balanced result within settles =>
    cases mine
    exact ⟨_, inside⟩

/-- A thread outside of its operation may go from one rest to another. -/
theorem Refines.update (related : Refines operation I G m a) {t : T} (other : m.owner ≠ some t)
    {p : Option (Program σ ρ)} {stage : Option (Stage ι ρ)} (next : AtRest operation p stage)
    (more : List (T × ρ)) :
    Refines operation I G
      { m with running := Function.update m.running t p, returned := m.returned ++ more }
      { a with running := Function.update a.running t stage, returned := a.returned ++ more } := by
  cases related with
  | free resting settled =>
    have joined := next.update fun u (_ : True) (_ : u ≠ t) => resting u
    exact .free (fun u => joined u trivial) settled
  | @held _ _ _ _ _ owner _ _ _ resting called inside balanced result within settles =>
    have apart : owner ≠ t := fun same => other (congrArg some same)
    refine .held (next.update fun u away _ => resting u away) ?_ ?_ balanced result within settles
    · exact (update_of_ne apart ..).trans called
    · exact (update_of_ne apart ..).trans inside

/-- The piece in which a thread enters its operation. -/
theorem Refines.enter (sound : ∀ i, (operation i).Keeps I G)
    (related : Refines operation I G m a) {t : T} {next : Program σ ρ} (free : m.owner = none)
    (runs : m.running t = some (.lock next)) :
    Refines operation I G { m with
      owner := some t, depth := m.depth + 1, running := Function.update m.running t (some next) }
      a := by
  have rest := related.atRest (t := t) (by rw [free]; exact fun same => by cases same)
  rw [runs] at rest
  rcases rest.of_some with ⟨i, same, called⟩ | ⟨result, same, -⟩
  · cases same
    cases related with
    | free resting settled =>
      obtain ⟨within, settles⟩ := sound i _ settled
      refine .held (fun u other => ?_) called (update_self ..) (operation i).balanced rfl within
        settles
      rw [update_of_ne other]
      exact resting u
    | held resting called inside balanced result within settles => cases free
  · cases same

/-- Each piece of the machine is answered by the atomic one. -/
theorem Refines.answers (sound : ∀ i, (operation i).Keeps I G)
    (related : Refines operation I G m a) (taken : m.step operation action = some m') :
    Answered operation I G m a action m' := by
  have within : ∀ t, action = .proceed t → m.owner = some t →
      Answered operation I G m a action m' := by
    intro t same mine
    subst same
    cases related with
    | free resting settled => cases mine
    | held resting called inside balanced result within settles =>
      cases mine
      obtain ⟨m'', taken', answered⟩ :=
        Refines.inside resting called inside balanced result within settles
      cases taken.symm.trans taken'
      exact answered
  cases Machine.step_eq_some_iff.mp taken with
  | @call t i idle =>
    have other : m.owner ≠ some t := by
      intro mine
      obtain ⟨inner, inside⟩ := related.inside_of_owner mine
      rw [inside] at idle
      cases idle
    have rest := related.atRest other
    rw [idle] at rest
    have next := related.update other (.called i) []
    rw [List.append_nil, List.append_nil] at next
    refine ⟨Or.inl rfl, [.call t i], _, ?_, rfl, next⟩
    rw [run_cons_of_step, run_nil]
    simp only [Atomic.step, rest.of_none]
  | @lock t next runs mine =>
    rcases mine with free | mine
    · exact ⟨Or.inl rfl, [], a, rfl, rfl, related.enter sound free runs⟩
    · exact within t rfl mine
  | unlock runs mine => exact within _ rfl mine
  | @access t change next runs =>
    by_cases mine : m.owner = some t
    · exact within t rfl mine
    · -- outside of its operation a thread leaves the shared state alone
      have rest := related.atRest mine
      rw [runs] at rest
      rcases rest.of_some with ⟨i, same, -⟩ | ⟨result, same, -⟩ <;> cases same
  | @return_ t result runs =>
    have other : m.owner ≠ some t := by
      intro mine
      obtain ⟨inner, inside⟩ := related.inside_of_owner mine
      exact inner.bind_release_ne_done result (Option.some.inj (inside.symm.trans runs))
    have rest := related.atRest other
    rw [runs] at rest
    rcases rest.of_some with ⟨i, same, -⟩ | ⟨result', same, decided⟩ <;> cases same
    refine ⟨Or.inl rfl, [.return_ t], _, ?_, rfl, related.update other .idle [(t, result)]⟩
    rw [run_cons_of_step, run_nil]
    simp only [Atomic.step, decided]

theorem Refines.exists_of_step (sound : ∀ i, (operation i).Keeps I G)
    (given : ∃ a, Refines operation I G m a) (taken : m.step operation action = some m') :
    ∃ a, Refines operation I G m' a := by
  obtain ⟨a, related⟩ := given
  obtain ⟨-, -, a', -, -, related'⟩ := related.answers sound taken
  exact ⟨a', related'⟩

/-! ## Whole runs -/

variable {shared : σ} {actions : List (Action T ι)}

omit [DecidableEq T] in
theorem Refines.init (operation : ι → Guarded σ ρ) (G : σ → σ → Prop) (settled : I shared) :
    Refines operation I G ({ shared := shared } : Machine T σ ρ) { shared := shared } :=
  .free (fun _ => .idle) settled

/-- Every run of the threads shows the calls and returns of a run in which each operation
takes effect at once, with the same results, and leaves the same shared state whenever
nobody is inside an operation. -/
theorem Machine.refines_atomic (same : ∀ i s, (operation i).body.eval s = effect i s)
    (reached : run (Machine.step operation) { shared := shared } actions = some m) :
    ∃ atomically a, run (Atomic.step effect) { shared := shared } atomically = some a ∧
      atomically.filterMap Action.shown = actions.filterMap Action.shown ∧
      a.returned = m.returned ∧ (m.owner = none → a.shared = m.shared) := by
  have effects : effect = fun i => (operation i).body.eval :=
    funext fun i => funext fun s => (same i s).symm
  subst effects
  have answers : ∀ (m : Machine T σ ρ) (a : Atomic T ι σ ρ) action m',
      Refines operation (fun _ => True) (fun _ _ => True) m a →
      Machine.step operation m action = some m' →
      ∃ bs a', run (Atomic.step fun i => (operation i).body.eval) a bs = some a' ∧
        bs.filterMap Action.shown = action.shown.toList ∧
        Refines operation (fun _ => True) (fun _ _ => True) m' a' :=
    fun m a action m' related taken =>
      (related.answers (fun i => (operation i).keeps_true) taken).2
  obtain ⟨atomically, a, reached', shown, related⟩ :=
    exists_run_of_simulation answers (Refines.init operation _ trivial) reached
  refine ⟨atomically, a, reached', shown, ?_⟩
  cases related with
  | free resting settled => exact ⟨rfl, fun _ => rfl⟩
  | held resting called inside balanced result within settles =>
    exact ⟨rfl, fun free => by cases free⟩

/-- What each operation keeps to when it runs alone, every piece of every run keeps to. -/
theorem Machine.always_change (sound : ∀ i, (operation i).Keeps I G) (settled : I shared)
    (actions : List (Action T ι)) :
    Always (Machine.step operation)
      (fun m _ m' => m'.shared = m.shared ∨ G m.shared m'.shared) { shared := shared } actions := by
  refine always_of_invariant (I := fun m => ∃ a, Refines operation I G m a) ?_ ?_
    ⟨_, Refines.init operation G settled⟩
  · exact fun m action m' => Refines.exists_of_step sound
  · intro m action m' given taken
    obtain ⟨a, related⟩ := given
    exact (related.answers sound taken).1

/-- A property of the shared state that every change in `G` brings about holds throughout. -/
theorem Machine.during (sound : ∀ i, (operation i).Keeps I G) (settled : I shared)
    {D : σ → Prop} (init : D shared) (brings : ∀ s s', G s s' → D s')
    (reached : run (Machine.step operation) { shared := shared } actions = some m) :
    D m.shared := by
  refine (always_change sound settled actions).invariant_run (I := fun m => D m.shared) ?_ init
    reached
  intro m action m' holds taken changes
  rcases changes with same | changed
  · rwa [same]
  · exact brings _ _ changed

/-- Whenever nobody is inside an operation, the shared state is one that operations leave. -/
theorem Machine.settled_of_free (sound : ∀ i, (operation i).Keeps I G) (settled : I shared)
    (reached : run (Machine.step operation) { shared := shared } actions = some m)
    (free : m.owner = none) : I m.shared := by
  obtain ⟨a, related⟩ := invariant_run (I := fun m => ∃ a, Refines operation I G m a)
    (fun m action m' => Refines.exists_of_step sound) ⟨_, Refines.init operation G settled⟩ reached
  cases related with
  | free resting settled => exact settled
  | held resting called inside balanced result within settles => cases free

/-- Some pieces of the threads, and no call and no return, make the thread leave its
operation; the other threads stay where they are. -/
def Machine.Leaves (operation : ι → Guarded σ ρ) (m : Machine T σ ρ) (t : T) : Prop :=
  ∃ pieces m' result, run (Machine.step operation) m pieces = some m' ∧
    (∀ action ∈ pieces, ∃ u, action = .proceed u) ∧ m'.owner = none ∧
    m'.running t = some (.done result) ∧ m'.returned = m.returned ∧
    ∀ u, u ≠ t → m'.running u = m.running u

theorem Machine.Leaves.of_step {t : T} {p : Program σ ρ}
    (taken : m.step operation (.proceed t) = some m') (leaves : m'.Leaves operation t)
    (moved : m'.running = update m.running t (some p)) (same : m'.returned = m.returned) :
    m.Leaves operation t := by
  obtain ⟨pieces, m'', result, reached, each, free, finished, returned, others⟩ := leaves
  refine ⟨.proceed t :: pieces, m'', result, ?_, ?_, free, finished, returned.trans same, ?_⟩
  · rw [run_cons_of_step taken, reached]
  · exact List.forall_mem_cons.mpr ⟨⟨t, rfl⟩, each⟩
  · intro u other
    rw [others u other, moved, update_of_ne other]

/-- A thread inside its operation comes to the end of it by its own pieces. -/
theorem Machine.leaves_of_inside {t : T} {depth : Nat} {inner : Program σ ρ}
    (balanced : inner.Balanced depth) (mine : m.owner = some t) (within : m.depth = depth + 1)
    (inside : m.running t = some (inner.bind Program.release)) : m.Leaves operation t := by
  induction balanced generalizing m with
  | done r =>
    refine ⟨[.proceed t], _, r, run_cons_of_step (step_eq_some_iff.mpr (.unlock inside mine)), ?_,
      if_pos within, update_self .., rfl, fun u other => update_of_ne other ..⟩
    exact fun action member => ⟨t, List.mem_singleton.mp member⟩
  | lock scope ih =>
    refine .of_step (step_eq_some_iff.mpr (.lock inside (Or.inr mine))) ?_ rfl rfl
    exact ih rfl (congrArg Nat.succ within) (update_self ..)
  | @unlock depth _ outer ih =>
    refine .of_step (step_eq_some_iff.mpr (.unlock inside mine)) ?_ rfl rfl
    refine ih (if_neg ?_) (congrArg Nat.pred within) (update_self ..)
    omega
  | access each ih =>
    refine .of_step (step_eq_some_iff.mpr (.access inside)) ?_ rfl rfl
    exact ih m.shared mine within (update_self ..)

/-- Some pieces of the threads bring the thread to its return, with no other call or
return in between. -/
def Machine.Returns (operation : ι → Guarded σ ρ) (m : Machine T σ ρ) (t : T) : Prop :=
  ∃ pieces m' result, run (Machine.step operation) m (pieces ++ [.return_ t]) = some m' ∧
    (∀ action ∈ pieces, ∃ u, action = .proceed u) ∧ m'.returned = m.returned ++ [(t, result)]

theorem Machine.returns_of_done {t : T} {result : ρ}
    (finished : m.running t = some (.done result)) : m.Returns operation t :=
  ⟨[], _, result, run_cons_of_step (step_eq_some_iff.mpr (.return_ finished)),
    fun _ member => absurd member List.not_mem_nil, rfl⟩

theorem Machine.Returns.of_run {t : T} {before : List (Action T ι)}
    (reached : run (Machine.step operation) m before = some m')
    (each : ∀ action ∈ before, ∃ u, action = .proceed u) (same : m'.returned = m.returned)
    (returns : m'.Returns operation t) : m.Returns operation t := by
  obtain ⟨pieces, m'', result, reached', each', returned⟩ := returns
  refine ⟨before ++ pieces, m'', result, ?_, ?_, by rw [returned, same]⟩
  · rw [List.append_assoc, run_append, reached, Option.bind_some, reached']
  · exact List.forall_mem_append.mpr ⟨each, each'⟩

theorem Machine.Leaves.returns {t : T} (leaves : m.Leaves operation t) : m.Returns operation t := by
  obtain ⟨pieces, m', result, reached, each, -, finished, returned, -⟩ := leaves
  exact .of_run reached each returned (returns_of_done finished)

/-- With nobody inside an operation, a thread that has called one goes through it. -/
theorem Refines.returns_of_free (related : Refines operation I G m a) (free : m.owner = none)
    {t : T} (busy : m.running t ≠ none) : m.Returns operation t := by
  have rest := related.atRest (t := t) (by rw [free]; exact fun same => by cases same)
  have depth : m.depth = 0 := by
    cases related with
    | free resting settled => rfl
    | held resting called inside balanced result within settles => cases free
  rcases runs : m.running t with _ | p
  · exact absurd runs busy
  · rw [runs] at rest
    rcases rest.of_some with ⟨i, same, -⟩ | ⟨result, same, -⟩
    · subst same
      have entered : m.step operation (.proceed t) = some _ :=
        Machine.step_eq_some_iff.mpr (.lock runs (Or.inl free))
      exact (Machine.leaves_of_inside (operation i).balanced rfl (congrArg Nat.succ depth)
        (update_self ..)).of_step entered rfl rfl |>.returns
    · subst same
      exact Machine.returns_of_done runs

/-- No operation is stuck for good: from every state that a run reaches, some more pieces
of the threads bring a thread that has called an operation to its return. -/
theorem Machine.exists_return
    (reached : run (Machine.step operation) { shared := shared } actions = some m) {t : T}
    (busy : m.running t ≠ none) : m.Returns operation t := by
  have keeps : ∀ (m : Machine T σ ρ) action m',
      (∃ a, Refines operation (fun _ => True) (fun _ _ => True) m a) →
      m.step operation action = some m' →
      ∃ a, Refines operation (fun _ => True) (fun _ _ => True) m' a :=
    fun m action m' => Refines.exists_of_step fun i => (operation i).keeps_true
  obtain ⟨a, related⟩ := invariant_run keeps ⟨_, Refines.init operation _ trivial⟩ reached
  rcases owned : m.owner with _ | owner
  · exact related.returns_of_free owned busy
  · -- the thread inside its operation leaves first
    have leaves : m.Leaves operation owner := by
      cases related with
      | free resting settled => cases owned
      | held resting called inside balanced result within settles =>
        cases owned
        exact Machine.leaves_of_inside balanced rfl rfl inside
    by_cases same : t = owner
    · subst same
      exact leaves.returns
    · obtain ⟨pieces, m', result, reached', each, free, -, returned, others⟩ := leaves
      obtain ⟨a', related'⟩ := invariant_run keeps ⟨a, related⟩ reached'
      refine .of_run reached' each returned (related'.returns_of_free free ?_)
      rwa [others t same]

end Running

end Steps

end RecursiveLock
