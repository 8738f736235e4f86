import Mathlib.Algebra.Group.Nat.Even
import Mathlib.Data.List.Basic

/-!
# Byte stuffing over an arbitrary alphabet

A stuffing discipline keeps one symbol, the flag, out of a body: each flag and
each escape symbol in the payload becomes the escape symbol followed by its
flipped form. Nothing here knows what the symbols are.

* `Stuffing.stuff` writes a payload, `Stuffing.unstuff` reads a body back and
  refuses a broken escape, and the two are inverse to each other on flag-free
  bodies (`unstuff_stuff`, `stuff_of_unstuff`).
* `Stuffing.salvage` is what a reader keeps that drops broken escapes instead of
  refusing them, `Stuffing.Dangling` says that a body ends inside an escape.
* `Stuffing.framing_induction` walks a stream flag by flag, two flags at a time;
  `Stuffing.exists_open_frame` and `Stuffing.exists_last_frame` find the frame a
  stream ends in or ended with, by the parity of its flags.
-/

/-- A flag, an escape symbol and the involution applied to an escaped symbol. -/
structure Stuffing (α : Type*) where
  flag : α
  esc : α
  flip : α → α
  flag_ne_esc : flag ≠ esc
  flip_flip : ∀ a, flip (flip a) = a
  flip_flag_ne_flag : flip flag ≠ flag
  flip_flag_ne_esc : flip flag ≠ esc
  flip_esc_ne_esc : flip esc ≠ esc

namespace Stuffing

variable {α : Type*} (S : Stuffing α)

/-- The symbols that may not stand in a body for themselves. -/
def Reserved (a : α) : Prop := a = S.flag ∨ a = S.esc

instance [DecidableEq α] (a : α) : Decidable (S.Reserved a) :=
  inferInstanceAs (Decidable (_ ∨ _))

theorem flip_injective {a b : α} (h : S.flip a = S.flip b) : a = b := by
  rw [← S.flip_flip a, h, S.flip_flip]

theorem flip_esc_ne_flag : S.flip S.esc ≠ S.flag := by
  intro h
  exact S.flip_flag_ne_esc (by rw [← h, S.flip_flip])

/-- The flipped form of a reserved symbol is an ordinary symbol. -/
theorem not_reserved_flip {a : α} (reserved : S.Reserved a) : ¬ S.Reserved (S.flip a) := by
  rcases reserved with rfl | rfl
  · intro given
    rcases given with h | h
    · exact S.flip_flag_ne_flag h
    · exact S.flip_flag_ne_esc h
  · intro given
    rcases given with h | h
    · exact S.flip_esc_ne_flag h
    · exact S.flip_esc_ne_esc h

variable [DecidableEq α]

/-! ## Writing a body -/

/-- One symbol on the wire. -/
def stuffOne (a : α) : List α :=
  if S.Reserved a then [S.esc, S.flip a] else [a]

/-- A payload on the wire. -/
def stuff (p : List α) : List α := p.flatMap S.stuffOne

@[simp] theorem stuff_nil : S.stuff [] = [] := rfl

@[simp] theorem stuff_cons (a : α) (p : List α) :
    S.stuff (a :: p) = S.stuffOne a ++ S.stuff p := List.flatMap_cons

@[simp] theorem stuff_append (p q : List α) : S.stuff (p ++ q) = S.stuff p ++ S.stuff q :=
  List.flatMap_append

theorem stuff_singleton (a : α) : S.stuff [a] = S.stuffOne a := List.append_nil _

theorem stuffOne_of_reserved {a : α} (reserved : S.Reserved a) :
    S.stuffOne a = [S.esc, S.flip a] := if_pos reserved

theorem stuffOne_of_not_reserved {a : α} (ordinary : ¬ S.Reserved a) :
    S.stuffOne a = [a] := if_neg ordinary

theorem flag_notMem_stuffOne (a : α) : S.flag ∉ S.stuffOne a := by
  by_cases reserved : S.Reserved a
  · rw [S.stuffOne_of_reserved reserved]
    intro h
    rcases List.mem_pair.mp h with h | h
    · exact S.flag_ne_esc h
    · exact S.not_reserved_flip reserved (Or.inl h.symm)
  · rw [S.stuffOne_of_not_reserved reserved]
    intro h
    exact reserved (Or.inl (List.mem_singleton.mp h).symm)

/-- A written body never contains the flag. -/
theorem flag_notMem_stuff (p : List α) : S.flag ∉ S.stuff p := by
  intro h
  obtain ⟨a, -, ha⟩ := List.mem_flatMap.mp h
  exact S.flag_notMem_stuffOne a ha

/-- Nor does one that an ordinary symbol follows. -/
theorem flag_notMem_stuff_concat (p : List α) {a : α} (ordinary : ¬ S.Reserved a) :
    S.flag ∉ S.stuff p ++ [a] := by
  intro h
  rcases List.mem_append.mp h with h | h
  · exact S.flag_notMem_stuff p h
  · exact ordinary (Or.inl (List.mem_singleton.mp h).symm)

/-- The last symbol of a written body is never the escape symbol. -/
theorem esc_ne_last_of_stuff {p front : List α} {a : α} (h : S.stuff p = front ++ [a]) :
    a ≠ S.esc := by
  rcases List.eq_nil_or_concat p with rfl | ⟨q, x, rfl⟩
  · simp at h
  · rw [List.concat_eq_append, stuff_append, stuff_singleton] at h
    by_cases reserved : S.Reserved x
    · rw [S.stuffOne_of_reserved reserved, ← List.singleton_append, ← List.append_assoc] at h
      have last : S.flip x = a := by simpa using (List.append_inj' h rfl).2
      intro he
      exact S.not_reserved_flip reserved (Or.inr (last.trans he))
    · rw [S.stuffOne_of_not_reserved reserved] at h
      have last : x = a := by simpa using (List.append_inj' h rfl).2
      intro he
      exact reserved (Or.inr (last.trans he))

/-! ## Reading a body -/

/-- Read a body back; `none` when an escape is not followed by the flipped form
of a reserved symbol. -/
def unstuff : List α → Option (List α)
  | [] => some []
  | a :: rest =>
    if a = S.esc then
      match rest with
      | [] => none
      | x :: rest =>
        if S.Reserved (S.flip x) then (unstuff rest).map (S.flip x :: ·) else none
    else (unstuff rest).map (a :: ·)

/-- What a reader keeps of a body when it drops each broken escape. -/
def salvage : List α → List α
  | [] => []
  | a :: rest =>
    if a = S.esc then
      match rest with
      | [] => []
      | x :: rest => if S.Reserved (S.flip x) then S.flip x :: salvage rest else salvage rest
    else a :: salvage rest

/-- The body ends right after an escape symbol that is still open. -/
def Dangling : List α → Bool
  | [] => false
  | a :: rest =>
    if a = S.esc then
      match rest with
      | [] => true
      | _ :: rest => Dangling rest
    else Dangling rest

@[simp] theorem unstuff_nil : S.unstuff [] = some [] := rfl

@[simp] theorem salvage_nil : S.salvage [] = [] := rfl

@[simp] theorem dangling_nil : S.Dangling [] = false := rfl

theorem unstuff_cons_of_ne {a : α} (ne : a ≠ S.esc) (rest : List α) :
    S.unstuff (a :: rest) = (S.unstuff rest).map (a :: ·) := by
  cases rest <;> simp only [unstuff, ne, if_false]

@[simp] theorem unstuff_esc : S.unstuff [S.esc] = none := by
  rw [unstuff, if_pos rfl]

theorem unstuff_esc_cons (x : α) (rest : List α) :
    S.unstuff (S.esc :: x :: rest) =
      if S.Reserved (S.flip x) then (S.unstuff rest).map (S.flip x :: ·) else none := by
  rw [unstuff, if_pos rfl]

theorem salvage_cons_of_ne {a : α} (ne : a ≠ S.esc) (rest : List α) :
    S.salvage (a :: rest) = a :: S.salvage rest := by
  cases rest <;> simp only [salvage, ne, if_false]

@[simp] theorem salvage_esc : S.salvage [S.esc] = [] := by
  rw [salvage, if_pos rfl]

theorem salvage_esc_cons (x : α) (rest : List α) :
    S.salvage (S.esc :: x :: rest) =
      if S.Reserved (S.flip x) then S.flip x :: S.salvage rest else S.salvage rest := by
  rw [salvage, if_pos rfl]

theorem dangling_cons_of_ne {a : α} (ne : a ≠ S.esc) (rest : List α) :
    S.Dangling (a :: rest) = S.Dangling rest := by
  cases rest <;> simp only [Dangling, ne, if_false]

@[simp] theorem dangling_esc : S.Dangling [S.esc] = true := by
  rw [Dangling, if_pos rfl]

theorem dangling_esc_cons (x : α) (rest : List α) :
    S.Dangling (S.esc :: x :: rest) = S.Dangling rest := by
  rw [Dangling, if_pos rfl]

/-- Bodies are read one ordinary symbol or one escape pair at a time. -/
theorem body_induction {motive : List α → Prop} (nil : motive [])
    (plain : ∀ a rest, a ≠ S.esc → motive rest → motive (a :: rest))
    (open_ : motive [S.esc])
    (pair : ∀ x rest, motive rest → motive (S.esc :: x :: rest)) (b : List α) : motive b := by
  induction hn : b.length using Nat.strongRecOn generalizing b with
  | ind n ih =>
    subst hn
    rcases b with _ | ⟨a, rest⟩
    · exact nil
    by_cases he : a = S.esc
    · subst he
      rcases rest with _ | ⟨x, rest⟩
      · exact open_
      · exact pair x rest (ih _ (by simp only [List.length_cons]; omega) rest rfl)
    · exact plain a rest he (ih _ (by simp) rest rfl)

theorem unstuff_stuffOne_append (a : α) (rest : List α) :
    S.unstuff (S.stuffOne a ++ rest) = (S.unstuff rest).map (a :: ·) := by
  by_cases reserved : S.Reserved a
  · rw [S.stuffOne_of_reserved reserved, List.cons_append, List.singleton_append,
      unstuff_esc_cons, S.flip_flip, if_pos reserved]
  · rw [S.stuffOne_of_not_reserved reserved, List.singleton_append]
    exact S.unstuff_cons_of_ne (fun h => reserved (Or.inr h)) rest

/-- Reading back a written payload in front of anything. -/
theorem unstuff_stuff_append (p rest : List α) :
    S.unstuff (S.stuff p ++ rest) = (S.unstuff rest).map (p ++ ·) := by
  induction p with
  | nil => simp
  | cons a p ih =>
    rw [stuff_cons, List.append_assoc, unstuff_stuffOne_append, ih, Option.map_map]
    rfl

/-- What is written is read back. -/
@[simp] theorem unstuff_stuff (p : List α) : S.unstuff (S.stuff p) = some p := by
  simpa using S.unstuff_stuff_append p []

/-- An ordinary symbol after a written body is read as itself. -/
theorem unstuff_stuff_concat (p : List α) {a : α} (ordinary : ¬ S.Reserved a) :
    S.unstuff (S.stuff p ++ [a]) = some (p ++ [a]) := by
  have ne : a ≠ S.esc := fun same => ordinary (Or.inr same)
  rw [unstuff_stuff_append, S.unstuff_cons_of_ne ne, unstuff_nil]
  rfl

/-- What is read from a flag-free body is written back as that body: a payload
has one wire form. -/
theorem stuff_of_unstuff {b p : List α} (free : S.flag ∉ b) (h : S.unstuff b = some p) :
    S.stuff p = b := by
  induction b using S.body_induction generalizing p with
  | nil => cases h; rfl
  | plain a rest ne ih =>
    rw [S.unstuff_cons_of_ne ne] at h
    obtain ⟨q, hq, same⟩ := Option.map_eq_some_iff.mp h
    subst same
    have ordinary : ¬ S.Reserved a := by
      intro given
      rcases given with ha | ha
      · exact free (ha ▸ List.mem_cons_self)
      · exact ne ha
    rw [stuff_cons, S.stuffOne_of_not_reserved ordinary,
      ih (fun hm => free (List.mem_cons_of_mem a hm)) hq, List.singleton_append]
  | open_ => simp at h
  | pair x rest ih =>
    rw [unstuff_esc_cons] at h
    split at h
    · rename_i reserved
      obtain ⟨q, hq, same⟩ := Option.map_eq_some_iff.mp h
      subst same
      have free' : S.flag ∉ rest := fun hm =>
        free (List.mem_cons_of_mem _ (List.mem_cons_of_mem _ hm))
      rw [stuff_cons, S.stuffOne_of_reserved reserved, ih free' hq, S.flip_flip]
      rfl
    · cases h

/-- A body that can be read loses nothing to a reader that drops broken escapes. -/
theorem salvage_of_unstuff {b p : List α} (h : S.unstuff b = some p) : S.salvage b = p := by
  induction b using S.body_induction generalizing p with
  | nil => cases h; rfl
  | plain a rest ne ih =>
    rw [S.unstuff_cons_of_ne ne] at h
    obtain ⟨q, hq, same⟩ := Option.map_eq_some_iff.mp h
    subst same
    rw [S.salvage_cons_of_ne ne, ih hq]
  | open_ => simp at h
  | pair x rest ih =>
    rw [unstuff_esc_cons] at h
    split at h
    · rename_i reserved
      obtain ⟨q, hq, same⟩ := Option.map_eq_some_iff.mp h
      subst same
      rw [salvage_esc_cons, if_pos reserved, ih hq]
    · cases h

/-- A body that can be read does not end inside an escape. -/
theorem not_dangling_of_unstuff {b p : List α} (h : S.unstuff b = some p) :
    S.Dangling b = false := by
  induction b using S.body_induction generalizing p with
  | nil => rfl
  | plain a rest ne ih =>
    rw [S.unstuff_cons_of_ne ne] at h
    obtain ⟨q, hq, -⟩ := Option.map_eq_some_iff.mp h
    rw [S.dangling_cons_of_ne ne, ih hq]
  | open_ => simp at h
  | pair x rest ih =>
    rw [unstuff_esc_cons] at h
    split at h
    · obtain ⟨q, hq, -⟩ := Option.map_eq_some_iff.mp h
      rw [dangling_esc_cons, ih hq]
    · cases h

/-! ## Walking a stream flag by flag -/

/-- A stream is junk, or junk and a frame that is still open, or junk, a closed
frame and a further stream. -/
theorem framing_induction {motive : List α → Prop}
    (junk : ∀ j, S.flag ∉ j → motive j)
    (open_ : ∀ j b, S.flag ∉ j → S.flag ∉ b → motive (j ++ S.flag :: b))
    (frame : ∀ j b rest, S.flag ∉ j → S.flag ∉ b → motive rest →
      motive (j ++ S.flag :: (b ++ S.flag :: rest))) (s : List α) : motive s := by
  induction hn : s.length using Nat.strongRecOn generalizing s with
  | ind n ih =>
    subst hn
    by_cases hs : S.flag ∈ s
    · obtain ⟨j, tail, rfl, hj⟩ := List.eq_append_cons_of_mem hs
      by_cases ht : S.flag ∈ tail
      · obtain ⟨b, rest, rfl, hb⟩ := List.eq_append_cons_of_mem ht
        refine frame j b rest hj hb (ih _ ?_ rest rfl)
        simp only [List.length_append, List.length_cons]
        omega
      · exact open_ j tail hj ht
    · exact junk s hs

omit [DecidableEq α] in
/-- The last flag of a stream that has one. -/
theorem exists_last_flag {s : List α} (mem : S.flag ∈ s) :
    ∃ pre post, s = pre ++ S.flag :: post ∧ S.flag ∉ post := by
  obtain ⟨post, pre, eq, free⟩ := List.eq_append_cons_of_mem (List.mem_reverse.mpr mem)
  refine ⟨pre.reverse, post.reverse, ?_, fun h => free (List.mem_reverse.mp h)⟩
  rw [← List.reverse_reverse s, eq]
  simp

omit [DecidableEq α] in
theorem last_flag_unique {pre pre' post post' : List α} (free : S.flag ∉ post)
    (free' : S.flag ∉ post') (eq : pre ++ S.flag :: post = pre' ++ S.flag :: post') :
    pre = pre' ∧ post = post' := by
  have reversed := congrArg List.reverse eq
  simp only [List.reverse_append, List.reverse_cons, List.append_assoc,
    List.singleton_append] at reversed
  rcases List.append_eq_append_iff.mp reversed with ⟨c, h, h'⟩ | ⟨c, h, h'⟩
  · rcases c with _ | ⟨x, c⟩
    · exact ⟨List.reverse_injective (List.cons.inj h').2,
        List.reverse_injective (by simpa using h.symm)⟩
    · have : S.flag ∈ post'.reverse := by
        rw [h, (List.cons.inj h').1]
        simp
      exact absurd (List.mem_reverse.mp this) free'
  · rcases c with _ | ⟨x, c⟩
    · exact ⟨List.reverse_injective (List.cons.inj h').2.symm,
        List.reverse_injective (by simpa using h)⟩
    · have : S.flag ∈ post.reverse := by
        rw [h, (List.cons.inj h').1]
        simp
      exact absurd (List.mem_reverse.mp this) free

theorem count_flag_append_cons {pre post : List α} (free : S.flag ∉ post) :
    (pre ++ S.flag :: post).count S.flag = pre.count S.flag + 1 := by
  rw [List.count_append, List.count_cons_self, List.count_eq_zero_of_not_mem free]

/-- A stream with an odd number of flags ends inside a frame. -/
theorem exists_open_frame {s : List α} (odd : ¬ Even (s.count S.flag)) :
    ∃ pre body, s = pre ++ S.flag :: body ∧ Even (pre.count S.flag) ∧ S.flag ∉ body := by
  have mem : S.flag ∈ s := by
    by_contra free
    exact odd (by simp [List.count_eq_zero_of_not_mem free])
  obtain ⟨pre, body, rfl, free⟩ := S.exists_last_flag mem
  rw [S.count_flag_append_cons free, Nat.even_add_one, not_not] at odd
  exact ⟨pre, body, rfl, odd, free⟩

/-- A stream with an even number of flags has none, or its last frame is closed. -/
theorem exists_last_frame {s : List α} (even : Even (s.count S.flag)) :
    S.flag ∉ s ∨ ∃ pre body post, s = pre ++ S.flag :: (body ++ S.flag :: post) ∧
      Even (pre.count S.flag) ∧ S.flag ∉ body ∧ S.flag ∉ post := by
  by_cases mem : S.flag ∈ s
  · obtain ⟨front, post, rfl, freePost⟩ := S.exists_last_flag mem
    rw [S.count_flag_append_cons freePost, Nat.even_add_one] at even
    obtain ⟨pre, body, rfl, evenPre, freeBody⟩ := S.exists_open_frame even
    exact Or.inr ⟨pre, body, post, by simp, evenPre, freeBody, freePost⟩
  · exact Or.inl mem

omit [DecidableEq α] in
/-- The last closed frame of a stream is determined by the stream. -/
theorem last_frame_unique {pre pre' body body' post post' : List α} (freeBody : S.flag ∉ body)
    (freeBody' : S.flag ∉ body') (freePost : S.flag ∉ post) (freePost' : S.flag ∉ post')
    (eq : pre ++ S.flag :: (body ++ S.flag :: post) =
      pre' ++ S.flag :: (body' ++ S.flag :: post')) :
    pre = pre' ∧ body = body' ∧ post = post' := by
  have split_ : ∀ pre body post : List α, pre ++ S.flag :: (body ++ S.flag :: post) =
      (pre ++ S.flag :: body) ++ S.flag :: post := by simp
  rw [split_, split_] at eq
  obtain ⟨fronts, same⟩ := S.last_flag_unique freePost freePost' eq
  subst same
  obtain ⟨rfl, rfl⟩ := S.last_flag_unique freeBody freeBody' fronts
  exact ⟨rfl, rfl, rfl⟩

end Stuffing
