import Mathlib.Data.Finset.Card
import Mathlib.Logic.Equiv.Basic

/-!
# Shared pointers

Objects that several variables own together. A `Heap` has a use count next to each object and
gives the object up when the count falls to zero; `Collected` has no counts and gives an
object up when no variable points to it any more. Both are a `Memory`, so that one program
can be run on either, and both say which object has to be destroyed, so that the program
can run its destructor. `owner` says which object a variable points to, if any.

`Counted` is the invariant of a heap: the use counts count the owners. It is kept by what a
program does with its pointers (`Counted.make`, `Counted.share`, `Counted.permute`,
`Counted.release`, `Counted.put`), and two things follow from it. No pointer dangles
(`Counted.exists_cell`), and the counts do what they are for: the heap has the objects of
the other memory and gives up the same ones (`Agrees.release`). And every object is
destroyed once, when its last owner goes (`Counted.destroyed_of_unowned`).
-/

namespace SharedPtr

/-- What a program does with shared objects. `make` tells the number of the new object;
`release` is told whether a pointer to the object is left, and tells what to destroy. -/
structure Memory (M σ : Type*) where
  make : M → σ → M × Nat
  share : M → Nat → M
  release : M → Nat → Prop → M × Option σ
  object : M → Nat → Option σ
  put : M → Nat → σ → M

/-- Objects with their use counts, and the numbers of those that were destroyed. No number
is given out twice. -/
structure Heap (σ : Type*) where
  next : Nat := 0
  cells : Nat → Option (σ × Nat) := fun _ => none
  destroyed : List Nat := []

/-- Objects that are there as long as something points to them. -/
structure Collected (σ : Type*) where
  next : Nat := 0
  objects : Nat → Option σ := fun _ => none

variable {σ V : Type*}

namespace Heap

def make (heap : Heap σ) (object : σ) : Heap σ :=
  { heap with
    next := heap.next + 1
    cells := Function.update heap.cells heap.next (some (object, 1)) }

def share (heap : Heap σ) (p : Nat) : Heap σ :=
  match heap.cells p with
  | some (object, count) =>
    { heap with cells := Function.update heap.cells p (some (object, count + 1)) }
  | none => heap

def release (heap : Heap σ) (p : Nat) : Heap σ × Option σ :=
  match heap.cells p with
  | some (object, count + 2) =>
    ({ heap with cells := Function.update heap.cells p (some (object, count + 1)) }, none)
  | some (object, _) =>
    ({ heap with
       cells := Function.update heap.cells p none
       destroyed := heap.destroyed ++ [p] }, some object)
  | none => (heap, none)

def put (heap : Heap σ) (p : Nat) (object : σ) : Heap σ :=
  match heap.cells p with
  | some (_, count) => { heap with cells := Function.update heap.cells p (some (object, count)) }
  | none => heap

end Heap

def counting : Memory (Heap σ) σ where
  make heap object := (heap.make object, heap.next)
  share := Heap.share
  release heap p _ := heap.release p
  object heap p := (heap.cells p).map Prod.fst
  put := Heap.put

open Classical in
noncomputable def collecting : Memory (Collected σ) σ where
  make memory object :=
    ({ next := memory.next + 1
       objects := Function.update memory.objects memory.next (some object) }, memory.next)
  share memory _ := memory
  release memory p left :=
    if left then (memory, none)
    else ({ memory with objects := Function.update memory.objects p none }, memory.objects p)
  object memory := memory.objects
  put memory p object :=
    match memory.objects p with
    | some _ => { memory with objects := Function.update memory.objects p (some object) }
    | none => memory

/-- A pointer that may be null is copied. -/
def Memory.copy {M : Type*} (memory : Memory M σ) (m : M) : Option Nat → M
  | some p => memory.share m p
  | none => m

/-- A pointer that may be null is given up; `left` says what is still pointed to. -/
def Memory.drop {M : Type*} (memory : Memory M σ) (m : M) (left : Nat → Prop) :
    Option Nat → M × Option σ
  | some p => memory.release m p (left p)
  | none => (m, none)

/-! ## The use counts -/

/-- Some variables, as many as `count`, are the owners of an object. -/
def Owners (owner : V → Option Nat) (p count : Nat) : Prop :=
  ∃ owners : Finset V, owners.card = count ∧ ∀ v, v ∈ owners ↔ owner v = some p

/-- The use counts count the owners, and what is owned is there. -/
structure Tallied (cells : Nat → Option (σ × Nat)) (owner : V → Option Nat) : Prop where
  owners {p object count} : cells p = some (object, count) → 0 < count ∧ Owners owner p count
  alive {p v} : owner v = some p → cells p ≠ none

/-- What is there was made, and what was made and is not there was destroyed once. -/
structure Counted (heap : Heap σ) (owner : V → Option Nat) : Prop extends
    Tallied heap.cells owner where
  made {p} : heap.next ≤ p → heap.cells p = none
  gone {p} : p < heap.next → heap.cells p = none → heap.destroyed.count p = 1
  kept {p} : heap.next ≤ p ∨ heap.cells p ≠ none → heap.destroyed.count p = 0

theorem counted_empty : Counted ({} : Heap σ) fun _ : V => none where
  owners exists_ := by cases exists_
  alive owns := by cases owns
  made _ := rfl
  gone before := absurd before (Nat.not_lt_zero _)
  kept _ := rfl

variable {cells : Nat → Option (σ × Nat)} {heap : Heap σ} {owner owner' : V → Option Nat} {v w : V}
  {p count : Nat} {object : σ}

theorem Owners.congr (owners : Owners owner p count)
    (same : ∀ v, owner' v = some p ↔ owner v = some p) : Owners owner' p count := by
  obtain ⟨owners, card, mem⟩ := owners
  exact ⟨owners, card, fun v => (mem v).trans (same v).symm⟩

/-- An object is there exactly if it has an owner. -/
theorem Tallied.ne_none_iff (tallied : Tallied cells owner) :
    cells p ≠ none ↔ ∃ v, owner v = some p := by
  refine ⟨fun exists_ => ?_, fun given => ?_⟩
  · obtain ⟨⟨object, count⟩, cell⟩ := Option.ne_none_iff_exists'.mp exists_
    obtain ⟨positive, owners, card, mem⟩ := tallied.owners cell
    rw [← card] at positive
    obtain ⟨v, member⟩ := Finset.card_pos.mp positive
    exact ⟨v, (mem v).mp member⟩
  · obtain ⟨v, owns⟩ := given
    exact tallied.alive owns

/-- One object changes, and who owns it. -/
theorem Tallied.update {cell : Option (σ × Nat)} (tallied : Tallied cells owner)
    (others : ∀ q ≠ p, ∀ v, owner' v = some q ↔ owner v = some q)
    (owners : ∀ object count, cell = some (object, count) → 0 < count ∧ Owners owner' p count)
    (alive : ∀ v, owner' v = some p → cell ≠ none) :
    Tallied (Function.update cells p cell) owner' where
  owners {q object count} here := by
    by_cases same : q = p
    · subst same
      rw [Function.update_self] at here
      exact owners object count here
    · rw [Function.update_of_ne same] at here
      obtain ⟨positive, counted⟩ := tallied.owners here
      exact ⟨positive, counted.congr (others q same)⟩
  alive {q v} owns := by
    by_cases same : q = p
    · subst same
      rw [Function.update_self]
      exact alive v owns
    · rw [Function.update_of_ne same]
      exact tallied.alive ((others q same v).mp owns)

/-- No pointer dangles. -/
theorem Counted.exists_cell (counted : Counted heap owner) (owns : owner v = some p) :
    ∃ object count, heap.cells p = some (object, count + 1) := by
  obtain ⟨⟨object, count⟩, cell⟩ := Option.ne_none_iff_exists'.mp (counted.alive owns)
  obtain ⟨positive, -⟩ := counted.owners cell
  obtain ⟨count, same⟩ := Nat.exists_eq_add_of_lt positive
  rw [Nat.zero_add] at same
  exact ⟨object, count, by rw [cell, same]⟩

/-- An object has been destroyed, and once, if it was made and nobody owns it. -/
theorem Counted.destroyed_of_unowned (counted : Counted heap owner) (made : p < heap.next)
    (unowned : ∀ v, owner v ≠ some p) : heap.destroyed.count p = 1 := by
  refine counted.gone made (not_not.mp fun exists_ => ?_)
  obtain ⟨v, owns⟩ := counted.ne_none_iff.mp exists_
  exact unowned v owns

theorem Counted.not_destroyed_of_owned (counted : Counted heap owner) (owns : owner v = some p) :
    p < heap.next ∧ heap.destroyed.count p = 0 :=
  ⟨not_le.mp fun unmade => counted.alive owns (counted.made unmade),
    counted.kept (.inr (counted.alive owns))⟩

/-- A change to an object that stays keeps the rest of the invariant. -/
theorem Counted.recount (counted : Counted heap owner) (exists_ : heap.cells p ≠ none)
    (tallied : Tallied (Function.update heap.cells p (some (object, count))) owner') :
    Counted { heap with cells := Function.update heap.cells p (some (object, count)) } owner' := by
  have cells : ∀ q, Function.update heap.cells p (some (object, count)) q = none ↔
      heap.cells q = none := by
    intro q
    by_cases same : q = p
    · subst same
      rw [Function.update_self]
      exact iff_of_false (Option.some_ne_none _) exists_
    · rw [Function.update_of_ne same]
  exact
    { toTallied := tallied
      made := fun unmade => (cells _).mpr (counted.made unmade)
      gone := fun made none_ => counted.gone made ((cells _).mp none_)
      kept := fun given => counted.kept (given.imp_right (mt (cells _).mpr)) }

/-- The variables may exchange what they point to. -/
theorem Counted.permute (counted : Counted heap owner) (exchange : Equiv.Perm V) :
    Counted heap (owner ∘ exchange) where
  owners exists_ := by
    obtain ⟨positive, owners, card, mem⟩ := counted.owners exists_
    refine ⟨positive, owners.map exchange.symm.toEmbedding, ?_, fun v => ?_⟩
    · rw [Finset.card_map, card]
    · rw [Finset.mem_map_equiv, Equiv.symm_symm, mem]
      rfl
  alive owns := counted.alive owns
  made := counted.made
  gone := counted.gone
  kept := counted.kept

theorem Counted.put (counted : Counted heap owner) (p : Nat) (object : σ) :
    Counted (heap.put p object) owner := by
  unfold Heap.put
  rcases cell : heap.cells p with _ | ⟨before, count⟩
  · exact counted
  · have exists_ : heap.cells p ≠ none := by
      rw [cell]
      exact Option.some_ne_none _
    refine counted.recount exists_ (counted.toTallied.update (fun _ _ _ => Iff.rfl) ?_ ?_)
    · intro object' count' same
      cases same
      exact counted.owners cell
    · exact fun _ _ => Option.some_ne_none _

/-! ## Owners come and go -/

section

variable [DecidableEq V]

theorem Owners.cons (owners : Owners owner p count) (free : owner v = none) :
    Owners (Function.update owner v (some p)) p (count + 1) := by
  obtain ⟨owners, card, mem⟩ := owners
  have absent : v ∉ owners := fun member => by
    rw [mem, free] at member
    cases member
  refine ⟨insert v owners, ?_, fun w => ?_⟩
  · rw [Finset.card_insert_of_notMem absent, card]
  · rw [Finset.mem_insert]
    by_cases same : w = v
    · subst same
      rw [Function.update_self]
      exact iff_of_true (.inl rfl) rfl
    · rw [Function.update_of_ne same, mem]
      exact or_iff_right same

theorem Owners.erase (owners : Owners owner p count) (owns : owner v = some p) :
    Owners (Function.update owner v none) p (count - 1) := by
  obtain ⟨owners, card, mem⟩ := owners
  refine ⟨owners.erase v, ?_, fun w => ?_⟩
  · rw [Finset.card_erase_of_mem ((mem v).mpr owns), card]
  · rw [Finset.mem_erase]
    by_cases same : w = v
    · subst same
      rw [Function.update_self]
      exact iff_of_false (fun given => given.1 rfl) fun owns' => by cases owns'
    · rw [Function.update_of_ne same, mem]
      exact and_iff_right same

/-- The owners of other objects are the same. -/
theorem update_owner_iff {pointer : Option Nat} {q : Nat} (before : owner v ≠ some q)
    (after : pointer ≠ some q) (w : V) :
    Function.update owner v pointer w = some q ↔ owner w = some q := by
  by_cases same : w = v
  · subst same
    rw [Function.update_self]
    exact iff_of_false after before
  · rw [Function.update_of_ne same]

theorem Counted.make (counted : Counted heap owner) (free : owner v = none) (object : σ) :
    Counted (heap.make object) (Function.update owner v (some heap.next)) := by
  have absent : heap.cells heap.next = none := counted.made le_rfl
  have unowned : ∀ w, owner w ≠ some heap.next := fun w owns => counted.alive owns absent
  have tallied : Tallied (Function.update heap.cells heap.next (some (object, 1)))
      (Function.update owner v (some heap.next)) := by
    refine counted.toTallied.update ?_ ?_ ?_
    · intro q other
      refine update_owner_iff ?_ fun same => other (Option.some.inj same).symm
      rw [free]
      exact (Option.some_ne_none _).symm
    · intro object' count same
      cases same
      have none_ : Owners owner heap.next 0 :=
        ⟨∅, rfl, fun w => iff_of_false (Finset.notMem_empty w) (unowned w)⟩
      exact ⟨Nat.one_pos, none_.cons free⟩
    · exact fun _ _ => Option.some_ne_none _
  refine { toTallied := tallied, made := fun {q} unmade => ?_, gone := fun {q} made none_ => ?_,
           kept := fun {q} given => ?_ }
  · have later : heap.next + 1 ≤ q := unmade
    have other : q ≠ heap.next := by omega
    exact (Function.update_of_ne other ..).trans (counted.made (by omega))
  · have here : Function.update heap.cells heap.next (some (object, 1)) q = none := none_
    have bound : q < heap.next + 1 := made
    have other : q ≠ heap.next := by
      intro same
      subst same
      rw [Function.update_self] at here
      cases here
    rw [Function.update_of_ne other] at here
    exact counted.gone (by omega) here
  · refine counted.kept ?_
    by_cases same : q = heap.next
    · exact .inl same.ge
    · refine given.imp (fun unmade => ?_) fun exists_ => ?_
      · have later : heap.next + 1 ≤ q := unmade
        omega
      · have here : Function.update heap.cells heap.next (some (object, 1)) q ≠ none := exists_
        rwa [Function.update_of_ne same] at here

theorem Counted.share (counted : Counted heap owner) (free : owner v = none)
    (owns : owner w = some p) :
    Counted (heap.share p) (Function.update owner v (some p)) := by
  obtain ⟨object, count, cell⟩ := counted.exists_cell owns
  unfold Heap.share
  rw [cell]
  refine counted.recount (counted.alive owns) (counted.toTallied.update ?_ ?_ ?_)
  · intro q other
    refine update_owner_iff ?_ fun same => other (Option.some.inj same).symm
    rw [free]
    exact (Option.some_ne_none _).symm
  · intro object' count' same
    cases same
    exact ⟨Nat.succ_pos _, (counted.owners cell).2.cons free⟩
  · exact fun _ _ => Option.some_ne_none _

theorem Counted.release (counted : Counted heap owner) (owns : owner v = some p) :
    Counted (heap.release p).1 (Function.update owner v none) := by
  obtain ⟨object, count, cell⟩ := counted.exists_cell owns
  have left := (counted.owners cell).2.erase owns
  have others : ∀ q ≠ p, ∀ w, Function.update owner v none w = some q ↔ owner w = some q := by
    intro q other
    refine update_owner_iff (fun same => ?_) (Option.some_ne_none q).symm
    rw [owns] at same
    exact other (Option.some.inj same).symm
  unfold Heap.release
  rw [cell]
  cases count with
  | succ count =>
    refine counted.recount (counted.alive owns) (counted.toTallied.update others ?_ ?_)
    · intro object' count' same
      cases same
      exact ⟨Nat.succ_pos _, left⟩
    · exact fun _ _ => Option.some_ne_none _
  | zero =>
    obtain ⟨owners, card, mem⟩ := left
    have tallied : Tallied (Function.update heap.cells p none) (Function.update owner v none) := by
      refine counted.toTallied.update others (fun _ _ same => by cases same) fun w owns' => ?_
      rw [← mem, Finset.card_eq_zero.mp card] at owns'
      exact absurd owns' (Finset.notMem_empty w)
    have made : p < heap.next := (counted.not_destroyed_of_owned owns).1
    have before : heap.destroyed.count p = 0 := (counted.not_destroyed_of_owned owns).2
    have counts : ∀ q ≠ p, (heap.destroyed ++ [p]).count q = heap.destroyed.count q := by
      intro q other
      rw [List.count_append, List.count_singleton, beq_eq_false_iff_ne.mpr other.symm]
      rfl
    refine { toTallied := tallied, made := fun {q} unmade => ?_, gone := fun {q} made none_ => ?_,
             kept := fun {q} given => ?_ }
    · have other : q ≠ p := fun same => absurd (same ▸ unmade) (not_le.mpr made)
      exact (Function.update_of_ne other ..).trans (counted.made unmade)
    · by_cases same : q = p
      · subst same
        change (heap.destroyed ++ [q]).count q = 1
        rw [List.count_append, before, List.count_singleton_self]
      · have here : Function.update heap.cells p none q = none := none_
        rw [Function.update_of_ne same] at here
        exact (counts q same).trans (counted.gone made here)
    · have other : q ≠ p := by
        intro same
        subst same
        rcases given with unmade | exists_
        · exact absurd unmade (not_le.mpr made)
        · exact exists_ (Function.update_self ..)
      refine (counts q other).trans (counted.kept (given.imp_right fun exists_ => ?_))
      have here : Function.update heap.cells p none q ≠ none := exists_
      rwa [Function.update_of_ne other] at here

theorem Counted.copy (counted : Counted heap owner) (free : owner v = none) (w : V) :
    Counted (counting.copy heap (owner w)) (Function.update owner v (owner w)) := by
  rcases owns : owner w with _ | p
  · have still : Function.update owner v none = owner := by
      rw [← free, Function.update_eq_self]
    rw [still]
    exact counted
  · exact counted.share free owns

theorem Counted.drop (counted : Counted heap owner) (v : V) (left : Nat → Prop) :
    Counted (counting.drop heap left (owner v)).1 (Function.update owner v none) := by
  rcases owns : owner v with _ | p
  · have still : Function.update owner v none = owner := by
      rw [← owns, Function.update_eq_self]
    rw [still]
    exact counted
  · exact counted.release owns

end

/-! ## Next to a memory without counts -/

/-- The same objects are there. -/
structure Agrees (heap : Heap σ) (memory : Collected σ) : Prop where
  next : heap.next = memory.next
  objects (p : Nat) : (heap.cells p).map Prod.fst = memory.objects p

variable {memory : Collected σ}

theorem agrees_empty : Agrees ({} : Heap σ) {} where
  next := rfl
  objects _ := rfl

/-- A pointer points to the same object. -/
theorem Agrees.object_eq (agrees : Agrees heap memory) (counted : Counted heap owner)
    (owns : owner v = some p) :
    ∃ object, counting.object heap p = some object ∧ collecting.object memory p = some object := by
  obtain ⟨object, count, cell⟩ := counted.exists_cell owns
  have here : (heap.cells p).map Prod.fst = some object := by
    rw [cell]
    rfl
  exact ⟨object, here, (agrees.objects p).symm.trans here⟩

/-- An object is there exactly if it has an owner. -/
theorem Agrees.ne_none_iff (agrees : Agrees heap memory) (counted : Counted heap owner) :
    collecting.object memory p ≠ none ↔ ∃ v, owner v = some p := by
  have same : (heap.cells p).map Prod.fst = collecting.object memory p := agrees.objects p
  rw [← same, ← counted.ne_none_iff]
  exact Option.map_eq_none_iff.not

/-- An object that changes in both, or leaves both. -/
theorem Agrees.update (agrees : Agrees heap memory) (cell : Option (σ × Nat)) (p q : Nat) :
    (Function.update heap.cells p cell q).map Prod.fst =
      Function.update memory.objects p (cell.map Prod.fst) q := by
  by_cases same : q = p
  · subst same
    rw [Function.update_self, Function.update_self]
  · rw [Function.update_of_ne same, Function.update_of_ne same]
    exact agrees.objects q

/-- Only the count of an object changes. -/
theorem Agrees.recount (agrees : Agrees heap memory) {object : σ} {count count' : Nat}
    (cell : heap.cells p = some (object, count)) :
    Agrees { heap with cells := Function.update heap.cells p (some (object, count')) } memory := by
  refine ⟨agrees.next, fun q => (agrees.update _ p q).trans ?_⟩
  have here : memory.objects p = some object := by
    rw [← agrees.objects, cell]
    rfl
  have still : Function.update memory.objects p (some object) = memory.objects := by
    rw [← here, Function.update_eq_self]
  exact congrFun still q

theorem Agrees.make (agrees : Agrees heap memory) (object : σ) :
    Agrees (counting.make heap object).1 (collecting.make memory object).1 ∧
      (counting.make heap object).2 = (collecting.make memory object).2 := by
  refine ⟨⟨congrArg (· + 1) agrees.next, fun q => (agrees.update _ _ q).trans ?_⟩, agrees.next⟩
  rw [agrees.next]
  rfl

theorem Agrees.share (agrees : Agrees heap memory) (p : Nat) :
    Agrees (heap.share p) memory := by
  unfold Heap.share
  rcases cell : heap.cells p with _ | ⟨object, count⟩
  · exact agrees
  · exact agrees.recount cell

/-- The count of an object falls to zero when nothing points to it any more. -/
theorem Agrees.release [DecidableEq V] (agrees : Agrees heap memory)
    (counted : Counted heap owner) (owns : owner v = some p) :
    Agrees (heap.release p).1
        (collecting.release memory p (∃ w, Function.update owner v none w = some p)).1 ∧
      (heap.release p).2 =
        (collecting.release memory p (∃ w, Function.update owner v none w = some p)).2 := by
  obtain ⟨object, count, cell⟩ := counted.exists_cell owns
  obtain ⟨owners, card, mem⟩ := (counted.owners cell).2.erase owns
  unfold Heap.release collecting
  rw [cell]
  cases count with
  | zero =>
    have unowned : ¬ ∃ w, Function.update owner v none w = some p := by
      rintro ⟨w, owns'⟩
      rw [← mem, Finset.card_eq_zero.mp card] at owns'
      exact absurd owns' (Finset.notMem_empty w)
    dsimp only
    rw [if_neg unowned]
    refine ⟨⟨agrees.next, fun q => agrees.update none p q⟩, ?_⟩
    rw [← agrees.objects, cell]
    rfl
  | succ count =>
    have owned : ∃ w, Function.update owner v none w = some p := by
      have positive : 0 < owners.card := by omega
      obtain ⟨w, member⟩ := Finset.card_pos.mp positive
      exact ⟨w, (mem w).mp member⟩
    dsimp only
    rw [if_pos owned]
    exact ⟨agrees.recount cell, rfl⟩

theorem Agrees.copy (agrees : Agrees heap memory) (pointer : Option Nat) :
    Agrees (counting.copy heap pointer) (collecting.copy memory pointer) := by
  cases pointer with
  | none => exact agrees
  | some p => exact agrees.share p

theorem Agrees.drop [DecidableEq V] (agrees : Agrees heap memory) (counted : Counted heap owner)
    (v : V) :
    Agrees
        (counting.drop heap (fun p => ∃ w, Function.update owner v none w = some p) (owner v)).1
        (collecting.drop memory (fun p => ∃ w, Function.update owner v none w = some p)
          (owner v)).1 ∧
      (counting.drop heap (fun p => ∃ w, Function.update owner v none w = some p) (owner v)).2 =
        (collecting.drop memory (fun p => ∃ w, Function.update owner v none w = some p)
          (owner v)).2 := by
  rcases owns : owner v with _ | p
  · exact ⟨agrees, rfl⟩
  · exact agrees.release counted owns

theorem Agrees.put (agrees : Agrees heap memory) (p : Nat) (object : σ) :
    Agrees (counting.put heap p object) (collecting.put memory p object) := by
  have here := agrees.objects p
  change Agrees (heap.put p object) _
  unfold Heap.put collecting
  dsimp only
  rcases cell : heap.cells p with _ | ⟨before, count⟩
  · rw [cell] at here
    rw [← here]
    exact agrees
  · rw [cell] at here
    rw [← here]
    exact ⟨agrees.next, fun q => agrees.update _ p q⟩

end SharedPtr
