import Mathlib.Data.List.Basic

/-!
# Runs of a partial step function

A system is a step function that refuses an action it cannot take. `Runs.run`
takes a list of actions, `Runs.Always` says that a property holds of every
transition of the run. The rules:

* `always_iff_of_invariant` proves two properties of transitions equivalent over
  whole runs when they are equivalent in each state where both held so far,
  `always_iff_of_invariant_on` does so for runs of admitted actions, and
  `always_iff_of_invariant_rest` where the invariant looks at the actions to come;
* `always_iff_forall_split` picks one transition out of a run, and
  `Always.invariant_run` says what holds where a run ends;
* `withGhost` adds a history variable that the step cannot see (`run_withGhost`);
* `guarded` refuses further actions;
* `run_filter` drops the actions that an observer cannot see, `run_eq_of_filter_eq`
  compares two runs that differ in such actions only;
* `exists_run_of_simulation` turns a simulation of single steps into one of whole runs, and
  `rel_run` goes over from one system to another that takes the same actions.
-/

namespace Runs

variable {σ α γ : Type*} (step : σ → α → Option σ)

/-- The state after a list of actions, if each one could be taken. -/
def run : σ → List α → Option σ
  | s, [] => some s
  | s, a :: as => (step s a).bind fun s' => run s' as

/-- Every transition of the run from `s`, as far as it goes, is in `P`. -/
def Always (P : σ → α → σ → Prop) : σ → List α → Prop
  | _, [] => True
  | s, a :: as => ∀ s', step s a = some s' → P s a s' ∧ Always P s' as

variable {step} {P Q Inv : σ → α → σ → Prop} {s t : σ} {a : α} {as bs : List α}

@[simp] theorem run_nil : run step s [] = some s := rfl

theorem run_cons : run step s (a :: as) = (step s a).bind fun s' => run step s' as := rfl

theorem run_cons_of_step (h : step s a = some t) : run step s (a :: as) = run step t as := by
  rw [run_cons, h, Option.bind_some]

/-- `Always` speaks about each transition that the run takes. -/
theorem always_iff_forall_split : Always step P s as ↔
    ∀ pre a post t t', as = pre ++ a :: post → run step s pre = some t →
      step t a = some t' → P t a t' := by
  induction as generalizing s with
  | nil =>
    refine ⟨fun _ pre a post t t' eq => ?_, fun _ => trivial⟩
    simp at eq
  | cons b as ih =>
    apply Iff.intro
    · intro always pre a post t t' eq reached taken
      rcases pre with _ | ⟨b', pre⟩
      · obtain ⟨rfl, rfl⟩ := List.cons.inj eq
        cases reached
        exact (always t' taken).1
      · obtain ⟨rfl, rfl⟩ := List.cons.inj eq
        obtain ⟨s', first, rest⟩ := Option.bind_eq_some_iff.mp reached
        exact ih.mp (always s' first).2 pre a post t t' rfl rest taken
    · intro each s' first
      refine ⟨each [] b as s s' rfl rfl first, ih.mpr ?_⟩
      intro pre a post t t' eq reached taken
      exact each (b :: pre) a post t t' (by rw [eq, List.cons_append])
        (by rw [run_cons_of_step first, reached]) taken

/-- Two properties of transitions agree over a run when they agree in each state of an
invariant, and a transition that has them keeps it. The invariant may speak about the
actions that are still to come. -/
theorem always_iff_of_invariant_rest {I : σ → List α → Prop}
    (agree : ∀ s a as s', I s (a :: as) → step s a = some s' → (P s a s' ↔ Q s a s'))
    (keeps : ∀ s a as s', I s (a :: as) → step s a = some s' → P s a s' → I s' as)
    (init : I s as) : Always step P s as ↔ Always step Q s as := by
  induction as generalizing s with
  | nil => rfl
  | cons a as ih =>
    apply Iff.intro
    · intro always s' taken
      obtain ⟨property, rest⟩ := always s' taken
      have next := keeps s a as s' init taken property
      exact ⟨(agree s a as s' init taken).mp property, (ih next).mp rest⟩
    · intro always s' taken
      obtain ⟨property, rest⟩ := always s' taken
      have property := (agree s a as s' init taken).mpr property
      exact ⟨property, (ih (keeps s a as s' init taken property)).mpr rest⟩

/-- The same rule for runs of admitted actions. -/
theorem always_iff_of_invariant_on {I : σ → Prop} {admitted : α → Prop}
    (agree : ∀ s a s', admitted a → I s → step s a = some s' → (P s a s' ↔ Q s a s'))
    (keeps : ∀ s a s', admitted a → I s → step s a = some s' → P s a s' → I s') (init : I s)
    (all : ∀ a ∈ as, admitted a) : Always step P s as ↔ Always step Q s as := by
  refine always_iff_of_invariant_rest (I := fun s as => I s ∧ ∀ b ∈ as, admitted b)
    (fun s a as s' given taken => ?_) (fun s a as s' given taken property => ?_) ⟨init, all⟩
  · exact agree s a s' (given.2 a List.mem_cons_self) given.1 taken
  · exact ⟨keeps s a s' (given.2 a List.mem_cons_self) given.1 taken property,
      fun b member => given.2 b (List.mem_cons_of_mem a member)⟩

/-- The same rule where every action is admitted. -/
theorem always_iff_of_invariant {I : σ → Prop}
    (agree : ∀ s a s', I s → step s a = some s' → (P s a s' ↔ Q s a s'))
    (keeps : ∀ s a s', I s → step s a = some s' → P s a s' → I s') (init : I s) :
    Always step P s as ↔ Always step Q s as :=
  always_iff_of_invariant_on (fun s a s' (_ : True) => agree s a s')
    (fun s a s' (_ : True) => keeps s a s') init fun _ _ => trivial

/-- An invariant that the transitions in `P` keep holds where such a run ends. -/
theorem Always.invariant_run {I : σ → Prop}
    (keeps : ∀ s a s', I s → step s a = some s' → P s a s' → I s') (init : I s)
    (always : Always step P s as) (reached : run step s as = some t) : I t := by
  induction as generalizing s with
  | nil => cases reached; exact init
  | cons a as ih =>
    obtain ⟨s', taken, rest⟩ := Option.bind_eq_some_iff.mp reached
    obtain ⟨property, always'⟩ := always s' taken
    exact ih (keeps s a s' init taken property) always' rest

/-- Where no action is refused, a property of the actions holds of a run exactly if it
holds of its actions. -/
theorem always_action_iff {p : α → Prop} (total : ∀ s a, ∃ s', step s a = some s') :
    Always step (fun _ a _ => p a) s as ↔ ∀ a ∈ as, p a := by
  induction as generalizing s with
  | nil => exact iff_of_true trivial fun _ member => absurd member List.not_mem_nil
  | cons a as ih =>
    rw [List.forall_mem_cons]
    apply Iff.intro
    · intro always
      obtain ⟨s', taken⟩ := total s a
      exact ⟨(always s' taken).1, ih.mp (always s' taken).2⟩
    · intro given s' taken
      exact ⟨given.1, ih.mpr given.2⟩

/-! ## History variables and guards -/

/-- The step together with a history variable that it cannot see. -/
def withGhost (step : σ → α → Option σ) (update : σ → α → σ → γ → γ) :
    σ × γ → α → Option (σ × γ) :=
  fun s a => (step s.1 a).map fun s' => (s', update s.1 a s' s.2)

theorem withGhost_eq_some {update : σ → α → σ → γ → γ} {s t : σ × γ}
    (h : withGhost step update s a = some t) :
    step s.1 a = some t.1 ∧ t.2 = update s.1 a t.1 s.2 := by
  obtain ⟨s', taken, same⟩ := Option.map_eq_some_iff.mp h
  subst same
  exact ⟨taken, rfl⟩

/-- A history variable has no part in where a run ends. -/
theorem run_withGhost {update : σ → α → σ → γ → γ} {g : γ} :
    (run (withGhost step update) (s, g) as).map Prod.fst = run step s as := by
  induction as generalizing s g with
  | nil => rfl
  | cons a as ih =>
    rcases taken : step s a with _ | s'
    · simp [run_cons, withGhost, taken]
    · have ghost : withGhost step update (s, g) a = some (s', update s a s' g) := by
        simp [withGhost, taken]
      rw [run_cons_of_step ghost, run_cons_of_step taken, ih]

/-- A history variable that sees the actions only. -/
theorem run_withGhost_foldl {f : γ → α → γ} {g : γ} (reached : run step s as = some t) :
    run (withGhost step fun _ a _ g => f g a) (s, g) as = some (t, as.foldl f g) := by
  induction as generalizing s g with
  | nil =>
    cases reached
    rfl
  | cons a as ih =>
    obtain ⟨s', taken, rest⟩ := Option.bind_eq_some_iff.mp reached
    have ghost : withGhost step (fun _ a _ g => f g a) (s, g) a = some (s', f g a) := by
      rw [withGhost, taken, Option.map_some]
    rw [run_cons_of_step ghost, ih rest, List.foldl_cons]

/-- The step, refusing what the guard does not allow. -/
def guarded (step : σ → α → Option σ) (allowed : σ → α → Prop) [∀ s a, Decidable (allowed s a)] :
    σ → α → Option σ :=
  fun s a => if allowed s a then step s a else none

theorem guarded_eq_some {allowed : σ → α → Prop} [∀ s a, Decidable (allowed s a)]
    (h : guarded step allowed s a = some t) : allowed s a ∧ step s a = some t := by
  unfold guarded at h
  split at h
  · exact ⟨‹_›, h⟩
  · cases h

/-! ## What an observer sees of a run -/

section View

variable {β : Type*} {view : σ → β} {visible : α → Bool} {admitted : α → Prop}

/-- Actions that leave the view as it is can be dropped from a run, if what a further
action does to the view depends on the view only. -/
theorem run_filter (silent : ∀ s a, visible a = false → (step s a).map view = some (view s))
    (consistent : ∀ s t a, visible a = true → admitted a → view s = view t →
      (step s a).map view = (step t a).map view)
    (same : view s = view t) (all : ∀ a ∈ as, admitted a) :
    (run step s as).map view = (run step t (as.filter visible)).map view := by
  induction as generalizing s t with
  | nil => rw [run_nil, List.filter_nil, run_nil, Option.map_some, Option.map_some, same]
  | cons a as ih =>
    have tail : ∀ b ∈ as, admitted b := fun b member => all b (List.mem_cons_of_mem a member)
    cases seen : visible a with
    | false =>
      obtain ⟨s', taken, same'⟩ := Option.map_eq_some_iff.mp (silent s a seen)
      rw [List.filter_cons_of_neg (by rw [seen]; decide), run_cons_of_step taken]
      exact ih (same'.trans same) tail
    | true =>
      have step_ := consistent s t a seen (all a List.mem_cons_self) same
      rw [List.filter_cons_of_pos seen, run_cons, run_cons]
      rcases takenS : step s a with _ | s' <;> rcases takenT : step t a with _ | t' <;>
        rw [takenS, takenT] at step_
      · rfl
      · cases step_
      · cases step_
      · exact ih (Option.some.inj step_) tail

/-- Two runs that differ only in actions that leave the view as it is end in the same
view, or both end early. -/
theorem run_eq_of_filter_eq
    (silent : ∀ s a, visible a = false → (step s a).map view = some (view s))
    (consistent : ∀ s t a, visible a = true → admitted a → view s = view t →
      (step s a).map view = (step t a).map view)
    (same : view s = view t) (allA : ∀ a ∈ as, admitted a) (allB : ∀ b ∈ bs, admitted b)
    (agree : as.filter visible = bs.filter visible) :
    (run step s as).map view = (run step t bs).map view := by
  rw [run_filter silent consistent same allA, agree]
  exact (run_filter silent consistent rfl allB).symm

end View

/-! ## Simulation -/

theorem run_append (as bs : List α) :
    run step s (as ++ bs) = (run step s as).bind fun t => run step t bs := by
  induction as generalizing s with
  | nil => rfl
  | cons a as ih =>
    rw [List.cons_append, run_cons, run_cons]
    rcases step s a with _ | s'
    · rfl
    · exact ih

/-- An invariant of every step holds where a run ends. -/
theorem invariant_run {I : σ → Prop} (keeps : ∀ s a s', I s → step s a = some s' → I s')
    (init : I s) (reached : run step s as = some t) : I t := by
  induction as generalizing s with
  | nil => cases reached; exact init
  | cons a as ih =>
    obtain ⟨s', taken, rest⟩ := Option.bind_eq_some_iff.mp reached
    exact ih (keeps s a s' init taken) rest

/-- What each step does from a state of an invariant, every transition of a run does. -/
theorem always_of_invariant {I : σ → Prop} (keeps : ∀ s a s', I s → step s a = some s' → I s')
    (does : ∀ s a s', I s → step s a = some s' → P s a s') (init : I s) : Always step P s as := by
  induction as generalizing s with
  | nil => trivial
  | cons a as ih =>
    intro s' taken
    exact ⟨does s a s' init taken, ih (keeps s a s' init taken)⟩

section Rank

variable {I : σ → Prop} {rank : σ → Nat} {once : α → Bool} {n : Nat}

/-- Where each step lowers the rank, no run has more steps than the rank it starts with,
and an action that is only taken at one rank is taken once at most. -/
theorem length_run_le_of_rank
    (lowers : ∀ s a t, I s → step s a = some t → I t ∧ rank t < rank s)
    (only : ∀ s a t, I s → step s a = some t → once a = true → rank s = n)
    (init : I s) (reached : run step s as = some t) :
    as.length ≤ rank s ∧ as.countP once ≤ if n ≤ rank s then 1 else 0 := by
  induction as generalizing s with
  | nil => exact ⟨Nat.zero_le _, Nat.zero_le _⟩
  | cons a as ih =>
    obtain ⟨s', taken, rest⟩ := Option.bind_eq_some_iff.mp reached
    obtain ⟨init', lower⟩ := lowers s a s' init taken
    obtain ⟨length, count⟩ := ih init' rest
    have at_ := only s a s' init taken
    rw [List.length_cons, List.countP_cons]
    refine ⟨Nat.succ_le_of_lt (Nat.lt_of_le_of_lt length lower), ?_⟩
    by_cases takes : once a = true
    · have here := at_ takes
      rw [if_neg (show ¬ n ≤ rank s' by omega)] at count
      rw [if_pos takes, if_pos (Nat.le_of_eq here.symm)]
      exact Nat.succ_le_succ count
    · rw [if_neg takes]
      split at count <;> split <;> omega

end Rank

section Simulation

variable {τ β δ : Type*} {step' : τ → β → Option τ} {R : σ → τ → Prop} {seen : α → Option δ}
  {seen' : β → Option δ} {t₁ : τ}

/-- If each step of one system is answered by steps of another that show the same, so is
each run. -/
theorem exists_run_of_simulation
    (answers : ∀ s t a s', R s t → step s a = some s' → ∃ bs t',
      run step' t bs = some t' ∧ bs.filterMap seen' = (seen a).toList ∧ R s' t')
    (related : R s t₁) (reached : run step s as = some t) : ∃ bs t',
      run step' t₁ bs = some t' ∧ bs.filterMap seen' = as.filterMap seen ∧ R t t' := by
  induction as generalizing s t₁ with
  | nil =>
    cases reached
    exact ⟨[], t₁, rfl, rfl, related⟩
  | cons a as ih =>
    obtain ⟨s', taken, rest⟩ := Option.bind_eq_some_iff.mp reached
    obtain ⟨first, t₂, reached₁, shown₁, related₁⟩ := answers s t₁ a s' related taken
    obtain ⟨later, t₃, reached₂, shown₂, related₂⟩ := ih related₁ rest
    refine ⟨first ++ later, t₃, ?_, ?_, related₂⟩
    · rw [run_append, reached₁, Option.bind_some, reached₂]
    · rw [List.filterMap_append, shown₁, shown₂, List.filterMap_cons]
      cases seen a <;> rfl

/-- Two systems that take the same actions, step by step, take the same runs. -/
theorem rel_run {step' : τ → α → Option τ}
    (answers : ∀ s t a, R s t → Option.Rel R (step s a) (step' t a)) (related : R s t₁)
    (as : List α) : Option.Rel R (run step s as) (run step' t₁ as) := by
  induction as generalizing s t₁ with
  | nil => exact .some related
  | cons a as ih =>
    have answered := answers s t₁ a related
    rw [run_cons, run_cons]
    generalize step s a = s' at answered ⊢
    generalize step' t₁ a = t' at answered ⊢
    cases answered with
    | none => exact .none
    | some related' => exact ih related'

end Simulation

end Runs
