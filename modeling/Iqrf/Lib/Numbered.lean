import Mathlib.Data.List.Nodup
import Mathlib.Data.Set.Pairwise.List
import Mathlib.Logic.Function.Basic

/-!
# Numbering with a counter

Items get the numbers `0`, `1`, … in the order in which they come: `add` puts an item
into a map under the number of a running counter. After a loop whose turns add items, the
list of all of them is under its own positions (`foldl_ofList`). What is numbered are
often the places of some blocks, one block after the other; `blocks` is the list of
them. A block without places leaves no trace in it, and up to these it determines the
blocks (`blocks_eq_iff`).
-/

/-- The next number, and what is under the numbers. -/
structure Numbered (α : Type*) where
  next : Nat := 0
  map : Nat → Option α := fun _ => none

namespace Numbered

variable {α β γ : Type*}

/-- Put an item under the next number. -/
def add (numbered : Numbered α) (item : α) : Numbered α where
  next := numbered.next + 1
  map := Function.update numbered.map numbered.next (some item)

/-- The items under their positions. -/
def ofList (items : List α) : Numbered α where
  next := items.length
  map n := items[n]?

@[simp] theorem ofList_next (items : List α) : (ofList items).next = items.length := rfl

@[simp] theorem ofList_map (items : List α) (n : Nat) : (ofList items).map n = items[n]? := rfl

theorem add_ofList (items : List α) (item : α) :
    (ofList items).add item = ofList (items ++ [item]) := by
  have map : ∀ n, Function.update (ofList items).map items.length (some item) n =
      (items ++ [item])[n]? := by
    intro n
    rcases Nat.lt_trichotomy n items.length with before | at_ | after
    · rw [Function.update_of_ne (by omega), ofList_map, List.getElem?_append_left before]
    · subst at_
      rw [Function.update_self, List.getElem?_append_right (Nat.le_refl _), Nat.sub_self]
      rfl
    · have beyond : (items ++ [item]).length ≤ n := by
        rw [List.length_append, List.length_singleton]
        omega
      rw [Function.update_of_ne (by omega), ofList_map, List.getElem?_eq_none (by omega),
        List.getElem?_eq_none beyond]
  unfold add
  rw [ofList_next, funext map, ← List.length_singleton (a := item), ← List.length_append]
  rfl

/-- A loop of which each turn adds some items. -/
theorem foldl_ofList {turn : Numbered α → β → Numbered α} {added : β → List α}
    (adds : ∀ items b, turn (ofList items) b = ofList (items ++ added b)) (items : List α)
    (bs : List β) : bs.foldl turn (ofList items) = ofList (items ++ bs.flatMap added) := by
  induction bs generalizing items with
  | nil => rw [List.foldl_nil, List.flatMap_nil, List.append_nil]
  | cons b bs ih => rw [List.foldl_cons, adds, ih, List.flatMap_cons, List.append_assoc]

theorem foldl_add_ofList (items later : List α) :
    later.foldl add (ofList items) = ofList (items ++ later) := by
  rw [foldl_ofList add_ofList, List.flatMap_singleton']

/-- The numbers in use are an initial segment. -/
theorem isSome_ofList_iff (items : List α) (n : Nat) :
    ((ofList items).map n).isSome ↔ n < items.length := by
  simp only [ofList_map, isSome_getElem?]

/-- Each item of a list is under one number exactly if none occurs twice. -/
theorem nodup_iff_existsUnique {items : List α} :
    items.Nodup ↔ ∀ item ∈ items, ∃! n, (ofList items).map n = some item := by
  rw [List.nodup_iff_injective_getElem]
  apply Iff.intro
  · intro injective item member
    obtain ⟨n, bound, same⟩ := List.getElem_of_mem member
    refine ⟨n, List.getElem?_eq_some_iff.mpr ⟨bound, same⟩, fun n' found => ?_⟩
    obtain ⟨bound', same'⟩ := List.getElem?_eq_some_iff.mp found
    have indices := @injective ⟨n', bound'⟩ ⟨n, bound⟩ (same'.trans same.symm)
    exact congrArg Fin.val indices
  · intro unique i j same
    have at_ : items[i.1]? = some items[i] := List.getElem?_eq_getElem i.2
    have at_' : items[j.1]? = some items[i] :=
      (List.getElem?_eq_getElem j.2).trans (congrArg some same.symm)
    exact Fin.ext ((unique items[i] (List.getElem_mem i.2)).unique at_ at_')

/-! ## Blocks -/

/-- The places of some blocks, one block after the other. -/
def blocks (size : β → Nat) (bs : List β) : List (β × Nat) :=
  bs.flatMap fun b => (List.range (size b)).map fun place => (b, place)

variable {size : β → Nat}

theorem blocks_nil : blocks size [] = [] := List.flatMap_nil

theorem blocks_cons (b : β) (bs : List β) :
    blocks size (b :: bs) = ((List.range (size b)).map fun place => (b, place)) ++ blocks size bs :=
  List.flatMap_cons

theorem mem_blocks {bs : List β} {b : β} {place : Nat} :
    (b, place) ∈ blocks size bs ↔ b ∈ bs ∧ place < size b := by
  simp only [blocks, List.mem_flatMap, List.mem_map, List.mem_range, Prod.mk.injEq]
  apply Iff.intro
  · intro given
    obtain ⟨b', member, place', bound, same, same'⟩ := given
    subst same same'
    exact ⟨member, bound⟩
  · intro given
    exact ⟨b, given.1, place, given.2, rfl, rfl⟩

/-- Blocks under other names. -/
theorem blocks_map (f : γ → β) (cs : List γ) :
    blocks size (cs.map f) = (blocks (fun c => size (f c)) cs).map fun c => (f c.1, c.2) := by
  unfold blocks
  rw [List.flatMap_map, List.map_flatMap]
  refine List.flatMap_congr fun c _ => ?_
  rw [List.map_map]
  rfl

theorem blocks_flatMap (f : γ → List β) (cs : List γ) :
    blocks size (cs.flatMap f) = cs.flatMap fun c => blocks size (f c) := List.flatMap_assoc

/-- Blocks without places leave no trace. -/
theorem blocks_filter (bs : List β) :
    blocks size (bs.filter fun b => 0 < size b) = blocks size bs := by
  induction bs with
  | nil => rfl
  | cons b bs ih =>
    by_cases places : 0 < size b
    · rw [List.filter_cons_of_pos (by simpa using places), blocks_cons, ih, blocks_cons]
    · have empty : size b = 0 := by omega
      rw [List.filter_cons_of_neg (by simpa using empty), ih, blocks_cons, empty]
      rfl

/-- The first place of each block that has one. -/
theorem map_fst_filter_blocks (bs : List β) :
    ((blocks size bs).filter fun c => c.2 = 0).map Prod.fst = bs.filter fun b => 0 < size b := by
  induction bs with
  | nil => rfl
  | cons b bs ih =>
    have first : (((List.range (size b)).map fun place => (b, place)).filter
        fun c => c.2 = 0).map Prod.fst = if 0 < size b then [b] else [] := by
      rcases size b with _ | places
      · rfl
      · rw [List.range_succ_eq_map, List.map_cons, List.filter_cons_of_pos (by simp)]
        simp
    rw [blocks_cons, List.filter_append, List.map_append, ih, first]
    by_cases places : 0 < size b
    · rw [if_pos places, List.filter_cons_of_pos (by simpa using places), List.singleton_append]
    · rw [if_neg places, List.filter_cons_of_neg (by simpa using places), List.nil_append]

/-- The places tell the blocks that have one, and their order. -/
theorem blocks_eq_iff {bs bs' : List β} :
    blocks size bs = blocks size bs' ↔
      (bs.filter fun b => 0 < size b) = bs'.filter fun b => 0 < size b := by
  apply Iff.intro
  · intro same
    rw [← map_fst_filter_blocks, same, map_fst_filter_blocks]
  · intro same
    rw [← blocks_filter bs, same, blocks_filter]

/-- No place occurs twice exactly if no block that has one does. -/
theorem nodup_blocks_iff {bs : List β} :
    (blocks size bs).Nodup ↔ (bs.filter fun b => 0 < size b).Nodup := by
  apply Iff.intro
  · intro nodup
    rw [← map_fst_filter_blocks]
    refine (nodup.filter _).map_on fun c member c' member' same => Prod.ext same ?_
    have first := (List.mem_filter.mp member).2
    have first' := (List.mem_filter.mp member').2
    exact (of_decide_eq_true first).trans (of_decide_eq_true first').symm
  · intro nodup
    rw [← blocks_filter, blocks, List.nodup_flatMap]
    refine ⟨fun b _ => List.nodup_range.map fun i j same => (Prod.mk.inj same).2, ?_⟩
    refine nodup.imp fun {b b'} other c member member' => other ?_
    obtain ⟨place, -, same⟩ := List.mem_map.mp member
    obtain ⟨place', -, same'⟩ := List.mem_map.mp member'
    exact congrArg Prod.fst (same.trans same'.symm)

/-- Next to a place of a block is the next place of it. -/
theorem getElem?_blocks_succ {bs : List β} {n : Nat} {b : β} {place : Nat}
    (found : (blocks size bs)[n]? = some (b, place)) (more : place + 1 < size b) :
    (blocks size bs)[n + 1]? = some (b, place + 1) := by
  induction bs generalizing n with
  | nil => cases found
  | cons b' bs ih =>
    rw [blocks_cons] at found ⊢
    have length : ((List.range (size b')).map fun place => (b', place)).length = size b' := by
      rw [List.length_map, List.length_range]
    by_cases within : n < size b'
    · rw [List.getElem?_append_left (by omega), List.getElem?_map,
        List.getElem?_range within] at found
      obtain ⟨same, same'⟩ := Prod.mk.inj (Option.some.inj found)
      subst same same'
      rw [List.getElem?_append_left (by omega), List.getElem?_map, List.getElem?_range more]
      rfl
    · rw [List.getElem?_append_right (by omega), length] at found
      rw [List.getElem?_append_right (by omega), length,
        show n + 1 - size b' = n - size b' + 1 by omega]
      exact ih found

/-- The places are in the order of their blocks. -/
theorem pairwise_blocks {R : β → β → Prop} (refl : ∀ b, R b b) {bs : List β}
    (ordered : bs.Pairwise R) : (blocks size bs).Pairwise fun c c' => R c.1 c'.1 := by
  induction ordered with
  | nil => exact .nil
  | @cons b bs before _ ih =>
    rw [blocks_cons, List.pairwise_append]
    refine ⟨List.pairwise_of_forall_mem_list fun c member c' member' => ?_, ih,
      fun c member c' member' => ?_⟩
    · obtain ⟨place, -, same⟩ := List.mem_map.mp member
      obtain ⟨place', -, same'⟩ := List.mem_map.mp member'
      subst same same'
      exact refl b
    · obtain ⟨place, -, same⟩ := List.mem_map.mp member
      subst same
      exact before c'.1 (mem_blocks.mp member').1

/-! ## Lists without a repetition -/

/-- What is made of a list without a repetition has none exactly if nothing in it is made
of two items. -/
theorem nodup_filterMap_iff {f : α → Option β} {as : List α} (nodup : as.Nodup) :
    (as.filterMap f).Nodup ↔
      ∀ a ∈ as, ∀ a' ∈ as, ∀ b, f a = some b → f a' = some b → a = a' := by
  have symm : ∀ a a', (∀ b, f a = some b → ∀ b', f a' = some b' → b ≠ b') →
      ∀ b, f a' = some b → ∀ b', f a = some b' → b ≠ b' :=
    fun a a' apart b made b' made' same => apart b' made' b made same.symm
  have : Std.Symm fun a a' => ∀ b, f a = some b → ∀ b', f a' = some b' → b ≠ b' := ⟨symm⟩
  rw [List.Nodup, List.pairwise_filterMap, ← List.Nodup.pairwise_coe nodup]
  apply Iff.intro
  · intro apart a member a' member' b made made'
    by_contra other
    exact apart member member' other b made b made' rfl
  · intro one a member a' member' other b made b' made' same
    subst same
    exact other (one a member a' member' b made made')

end Numbered
