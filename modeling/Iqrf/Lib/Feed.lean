import Mathlib.Data.List.Basic

/-!
# Feeding a machine that may throw

A step takes the state and one symbol and leaves a state in any case, together
with the way it ended. There are two ways to feed it a list: `Feed.strict` lets
the first exception out and reads nothing after it, `Feed.caught` catches each
exception and goes on with the state the throwing step left behind. As long as
nothing is thrown they agree (`Feed.caught_of_strict`). `Feed.outcomes` lists how
each step of the second way ended, `Feed.Throughout` says that nothing is thrown and
that every state on the way has a property, and `Feed.Taken` that each step taken in
the first way has one. `strict_of_simulation` goes over from one machine to another
that is fed alike.
-/

namespace Feed

variable {σ α ε : Type*} (step : σ → α → σ × Except ε Unit)

/-- Feed a list and catch every exception. -/
def caught (s : σ) (as : List α) : σ := as.foldl (fun s a => (step s a).1) s

/-- Feed a list up to the first exception. -/
def strict : σ → List α → σ × Except ε Unit
  | s, [] => (s, .ok ())
  | s, a :: as =>
    match step s a with
    | (s', .ok ()) => strict s' as
    | (s', .error e) => (s', .error e)

/-- Feed a list, catch every exception, and note how each step ended. -/
def outcomes : σ → List α → List (Except ε Unit)
  | _, [] => []
  | s, a :: as => (step s a).2 :: outcomes (step s a).1 as

/-- Nothing is thrown, and each state from the first to the last is in `P`. -/
def Throughout (P : σ → Prop) : σ → List α → Prop
  | s, [] => P s
  | s, a :: as => P s ∧ ∃ t, step s a = (t, .ok ()) ∧ Throughout P t as

/-- Each step that is taken before the first exception, and the one that throws it, is
in `P`. -/
def Taken (P : σ → α → Prop) : σ → List α → Prop
  | _, [] => True
  | s, a :: as => P s a ∧ ∀ t, step s a = (t, .ok ()) → Taken P t as

variable {step}

theorem outcomes_cons_of_ok {s t : σ} {a : α} (h : step s a = (t, .ok ())) (as : List α) :
    outcomes step s (a :: as) = .ok () :: outcomes step t as := by
  simp only [outcomes, h]

@[simp] theorem caught_nil (s : σ) : caught step s [] = s := rfl

@[simp] theorem caught_cons (s : σ) (a : α) (as : List α) :
    caught step s (a :: as) = caught step (step s a).1 as := rfl

@[simp] theorem caught_append (s : σ) (as bs : List α) :
    caught step s (as ++ bs) = caught step (caught step s as) bs := List.foldl_append

@[simp] theorem strict_nil (s : σ) : strict step s [] = (s, .ok ()) := rfl

theorem strict_cons_of_ok {s t : σ} {a : α} (h : step s a = (t, .ok ())) (as : List α) :
    strict step s (a :: as) = strict step t as := by
  simp only [strict, h]

theorem strict_cons_of_error {s t : σ} {a : α} {e : ε} (h : step s a = (t, .error e))
    (as : List α) : strict step s (a :: as) = (t, .error e) := by
  simp only [strict, h]

theorem strict_append_of_ok {s t : σ} {as : List α} (h : strict step s as = (t, .ok ()))
    (bs : List α) : strict step s (as ++ bs) = strict step t bs := by
  induction as generalizing s with
  | nil => cases h; rfl
  | cons a as ih =>
    rcases hs : step s a with ⟨s', ⟨⟩ | ⟨⟩⟩
    · rw [strict_cons_of_error hs] at h
      cases h
    · rw [strict_cons_of_ok hs] at h
      rw [List.cons_append, strict_cons_of_ok hs, ih h]

theorem strict_append_of_error {s t : σ} {as : List α} {e : ε}
    (h : strict step s as = (t, .error e)) (bs : List α) :
    strict step s (as ++ bs) = (t, .error e) := by
  induction as generalizing s with
  | nil => cases h
  | cons a as ih =>
    rcases hs : step s a with ⟨s', ⟨⟩ | ⟨⟩⟩
    · rw [strict_cons_of_error hs] at h
      rw [List.cons_append, strict_cons_of_error hs, h]
    · rw [strict_cons_of_ok hs] at h
      rw [List.cons_append, strict_cons_of_ok hs, ih h]

/-- What is fed without an exception was so from its beginning. -/
theorem strict_ok_of_append {s t : σ} {as bs : List α}
    (h : strict step s (as ++ bs) = (t, .ok ())) : ∃ t', strict step s as = (t', .ok ()) := by
  rcases run : strict step s as with ⟨t', e | ⟨⟩⟩
  · rw [strict_append_of_error run] at h
    cases h
  · exact ⟨t', rfl⟩

/-- A symbol that throws in every state ends the feeding. -/
theorem strict_error_of_mem {a : α} (throws : ∀ s, ∃ t e, step s a = (t, .error e)) {as : List α}
    (member : a ∈ as) (s : σ) : ∃ t e, strict step s as = (t, .error e) := by
  induction as generalizing s with
  | nil => cases member
  | cons b as ih =>
    rcases hs : step s b with ⟨s', ⟨⟩ | ⟨⟩⟩
    · exact ⟨_, _, strict_cons_of_error hs as⟩
    · rcases List.mem_cons.mp member with same | later
      · subst same
        obtain ⟨t, e, thrown⟩ := throws s
        rw [hs] at thrown
        cases thrown
      · rw [strict_cons_of_ok hs]
        exact ih later s'

/-- Where nothing is thrown the two ways of feeding agree. -/
theorem caught_of_strict {s t : σ} {as : List α} (h : strict step s as = (t, .ok ())) :
    caught step s as = t := by
  induction as generalizing s with
  | nil => cases h; rfl
  | cons a as ih =>
    rcases hs : step s a with ⟨s', ⟨⟩ | ⟨⟩⟩
    · rw [strict_cons_of_error hs] at h
      cases h
    · rw [strict_cons_of_ok hs] at h
      rw [caught_cons, hs, ih h]

theorem taken_cons_iff {P : σ → α → Prop} {s t : σ} {a : α} (h : step s a = (t, .ok ()))
    (as : List α) : Taken step P s (a :: as) ↔ P s a ∧ Taken step P t as := by
  refine and_congr_right fun _ => ⟨fun later => later t h, fun later t' taken => ?_⟩
  rw [h] at taken
  cases taken
  exact later

theorem throughout_cons_iff {P : σ → Prop} {s t : σ} {a : α} (h : step s a = (t, .ok ()))
    (as : List α) : Throughout step P s (a :: as) ↔ P s ∧ Throughout step P t as := by
  refine and_congr_right fun _ => ⟨fun later => ?_, fun later => ⟨t, h, later⟩⟩
  obtain ⟨t', taken, rest⟩ := later
  rw [h] at taken
  cases taken
  exact rest

/-- What is fed without an exception can be looked at in two parts. -/
theorem throughout_append_iff {P : σ → Prop} {s t : σ} {as : List α}
    (h : strict step s as = (t, .ok ())) (bs : List α) :
    Throughout step P s (as ++ bs) ↔ Throughout step P s as ∧ Throughout step P t bs := by
  induction as generalizing s with
  | nil =>
    cases h
    refine (and_iff_right_of_imp fun later => ?_).symm
    cases bs with
    | nil => exact later
    | cons b bs => exact later.1
  | cons a as ih =>
    rcases hs : step s a with ⟨s', ⟨⟩ | ⟨⟩⟩
    · rw [strict_cons_of_error hs] at h
      cases h
    · rw [strict_cons_of_ok hs] at h
      rw [List.cons_append, throughout_cons_iff hs, throughout_cons_iff hs, ih h, and_assoc]

/-- An invariant of one step, thrown or not, is an invariant of feeding. -/
theorem caught_invariant {P : σ → Prop} (preserved : ∀ s a, P s → P (step s a).1) {s : σ}
    (h : P s) (as : List α) : P (caught step s as) := by
  induction as generalizing s with
  | nil => exact h
  | cons a as ih => exact ih (preserved s a h)

theorem strict_invariant {P : σ → Prop} (preserved : ∀ s a, P s → P (step s a).1) {s : σ}
    (h : P s) (as : List α) : P (strict step s as).1 := by
  induction as generalizing s with
  | nil => exact h
  | cons a as ih =>
    have after := preserved s a h
    rcases hs : step s a with ⟨s', ⟨⟩ | ⟨⟩⟩
    · rw [hs] at after
      rw [strict_cons_of_error hs]
      exact after
    · rw [hs] at after
      rw [strict_cons_of_ok hs]
      exact ih after

/-! ## Two machines -/

section Simulation

variable {τ ε' : Type*} {step' : τ → α → τ × Except ε' Unit} {R : σ → τ → List α → Prop}
  {s t : σ} {u : τ} {as : List α}

/-- What the first machine takes without an exception the second one takes too, if it does
so step by step. The relation may speak about what is still to be fed. -/
theorem strict_of_simulation
    (answers : ∀ s u a as t, R s u (a :: as) → step s a = (t, .ok ()) →
      ∃ v, step' u a = (v, .ok ()) ∧ R t v as)
    (related : R s u as) (h : strict step s as = (t, .ok ())) :
    ∃ v, strict step' u as = (v, .ok ()) ∧ R t v [] := by
  induction as generalizing s u with
  | nil =>
    cases h
    exact ⟨u, rfl, related⟩
  | cons a as ih =>
    rcases hs : step s a with ⟨s', ⟨⟩ | ⟨⟩⟩
    · rw [strict_cons_of_error hs] at h
      cases h
    · rw [strict_cons_of_ok hs] at h
      obtain ⟨u', taken, related'⟩ := answers s u a as s' related hs
      rw [strict_cons_of_ok taken]
      exact ih related' h

end Simulation

end Feed
