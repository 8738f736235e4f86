import Iqrf.Lib.Numbered
import Mathlib.Data.List.Sort

/-!
# The map of the pins

`getGpioMap` numbers the lines of all GPIO chips with one counter, so a map is a list
of chip names and line offsets under its positions (`getGpioMap_eq`, one for each
build). There are three builds of it: libgpiod 1 takes the chips as the library
iterates them, libgpiod 2 and FreeBSD scan `/dev`. What the system answers about an
entry of `/dev` is in `Dev`.

The libgpiod 2 build sorts the chips by the number in their name, so the order in which
the directory is enumerated does not matter to it; FreeBSD takes the chips as they come.
-/

namespace Iqrf.Gpio

/-- A file name in `/dev`, or the name of a chip. -/
abbrev Name := List Char

/-- Map of GPIO pin numbers and chip names / line offsets. -/
abbrev GpioMap := Nat → Option (Name × Nat)

/-- The pin numbers are those below some number. -/
def Contiguous (gpioMap : GpioMap) : Prop := ∃ count, ∀ n, (gpioMap n).isSome ↔ n < count

/-! ## Numbers in file names -/

/-- What `std::stoul` throws. -/
inductive StoulError
  | invalidArgument
  | outOfRange
  deriving DecidableEq, Repr

/-- The largest `unsigned long`, of 64 bits. -/
def ulongMax : Nat := 0xFFFFFFFFFFFFFFFF

/-- `isspace` in the C locale. -/
def isspace (c : Char) : Bool := c = ' ' || (9 ≤ c.toNat && c.toNat ≤ 13)

/-- The value of decimal digits. -/
def ofDigits (digits : Name) : Nat :=
  digits.foldl (fun value digit => 10 * value + (digit.toNat - 48)) 0

/-- `std::stoul`: white space, a sign and digits; what follows is ignored. A negative
number wraps around. -/
def stoul (str : Name) : Except StoulError Nat :=
  let (negative, rest) :=
    match str.dropWhile isspace with
    | '-' :: rest => (true, rest)
    | '+' :: rest => (false, rest)
    | rest => (false, rest)
  let digits := rest.takeWhile Char.isDigit
  if digits.isEmpty then .error .invalidArgument
  else if ulongMax < ofDigits digits then .error .outOfRange
  else .ok (if negative then (ulongMax + 1 - ofDigits digits) % (ulongMax + 1) else ofDigits digits)

/-- The number behind a prefix, if the name has the prefix and the rest can be parsed. -/
def suffix (chipPrefix filename : Name) : Option Nat :=
  if chipPrefix.isPrefixOf filename then (stoul (filename.drop chipPrefix.length)).toOption
  else none

/-- No two entries have the same number behind the prefix. -/
def DistinctSuffixes (chipPrefix : Name) (listing : List Name) : Prop :=
  ∀ path ∈ listing, ∀ path' ∈ listing, ∀ ordinal,
    suffix chipPrefix path = some ordinal → suffix chipPrefix path' = some ordinal → path = path'

/-! ## Numbering lines -/

/-- `map.insert_or_assign` for each line of a chip. -/
def addLines (numbered : Numbered (Name × Nat)) (chipName : Name) (numLines : Nat) :
    Numbered (Name × Nat) :=
  (List.range numLines).foldl (fun numbered line => numbered.add (chipName, line)) numbered

theorem addLines_ofList (entries : List (Name × Nat)) (chipName : Name) (numLines : Nat) :
    addLines (.ofList entries) chipName numLines =
      .ofList (entries ++ (List.range numLines).map fun line => (chipName, line)) := by
  rw [addLines, ← Numbered.foldl_add_ofList, List.foldl_map]

/-! ## libgpiod 1 -/

namespace Libgpiod1

/-- A chip with the offsets of its lines, as the iterators of libgpiod 1 show it. -/
structure Chip where
  name : Name
  offsets : List Nat
  deriving DecidableEq, Repr

/-- One turn of the loop over the chips. -/
def addChip (numbered : Numbered (Name × Nat)) (chip : Chip) : Numbered (Name × Nat) :=
  chip.offsets.foldl (fun numbered offset => numbered.add (chip.name, offset)) numbered

/-- `getGpioMap` on libgpiod 1. -/
def getGpioMap (chips : List Chip) : GpioMap := (chips.foldl addChip {}).map

/-- The lines of the chips, in the order of the iterators. -/
theorem getGpioMap_eq (chips : List Chip) :
    getGpioMap chips =
      (Numbered.ofList (chips.flatMap fun chip =>
        chip.offsets.map fun offset => (chip.name, offset))).map := by
  have adds : ∀ entries chip, addChip (.ofList entries) chip = .ofList (entries ++
      chip.offsets.map fun offset => (chip.name, offset)) := by
    intro entries chip
    rw [addChip, ← Numbered.foldl_add_ofList, List.foldl_map]
  exact congrArg Numbered.map (Numbered.foldl_ofList adds [] chips)

end Libgpiod1

/-! ## libgpiod 2 -/

namespace Libgpiod2

def gpioChipPrefix : Name := ['g', 'p', 'i', 'o', 'c', 'h', 'i', 'p']

/-- What `get_info` returns. -/
structure ChipInfo where
  name : Name
  numLines : Nat
  deriving DecidableEq, Repr

/-- What libgpiod 2 makes of the entries of `/dev`. It follows symbolic links, so two
entries may be the same chip; a chip is known by the kernel's name of it, and has a
number of lines. -/
structure Dev where
  isGpiochipDevice : Name → Bool
  chip : Name → Option Name
  numLines : Name → Nat

/-- `gpiod::chip(path).get_info()`, or nothing if the chip fails to open. -/
def Dev.getInfo (dev : Dev) (path : Name) : Option ChipInfo :=
  (dev.chip path).map fun name => ⟨name, dev.numLines name⟩

/-- The number under which an entry is listed: its name begins with `gpiochip`, it is a
GPIO device, and the rest of its name can be parsed. -/
def Dev.ordinal (dev : Dev) (path : Name) : Option Nat :=
  if dev.isGpiochipDevice path then suffix gpioChipPrefix path else none

/-- The chips that are listed, as the directory is enumerated. -/
def Dev.chips (dev : Dev) (listing : List Name) : List (Nat × Name) :=
  listing.filterMap fun path => (dev.ordinal path).map fun ordinal => (ordinal, path)

/-- What `std::sort` promises of the chips by ordinal number. Chips with the same number
may come in any order. -/
structure Sorts (sort : List (Nat × Name) → List (Nat × Name)) : Prop where
  perm : ∀ chips, (sort chips).Perm chips
  sorted : ∀ chips, (sort chips).Pairwise fun chip chip' => chip.1 ≤ chip'.1

/-- One turn of the loop over the sorted chips; the failed ones are ignored. -/
def addChip (dev : Dev) (numbered : Numbered (Name × Nat)) (chip : Nat × Name) :
    Numbered (Name × Nat) :=
  match dev.getInfo chip.2 with
  | none => numbered
  | some chipInfo => addLines numbered chipInfo.name chipInfo.numLines

/-- `getGpioMap` on libgpiod 2. -/
def getGpioMap (dev : Dev) (sort : List (Nat × Name) → List (Nat × Name)) (listing : List Name) :
    GpioMap :=
  ((sort (dev.chips listing)).foldl (addChip dev) {}).map

/-- The chips that open, with the kernel's names of them. -/
def Dev.opened (dev : Dev) (chips : List (Nat × Name)) : List (Nat × Name) :=
  chips.filterMap fun chip => (dev.chip chip.2).map fun name => (chip.1, name)

variable {dev : Dev} {sort : List (Nat × Name) → List (Nat × Name)}

/-- A chip that opens adds its lines, and any other nothing. -/
theorem addChip_ofList (dev : Dev) (entries : List (Name × Nat)) (chip : Nat × Name) :
    addChip dev (.ofList entries) chip =
      .ofList (entries ++ Numbered.blocks dev.numLines (dev.chip chip.2).toList) := by
  unfold addChip Dev.getInfo
  cases dev.chip chip.2 with
  | none => exact congrArg Numbered.ofList (List.append_nil entries).symm
  | some name =>
    rw [Option.toList_some, Numbered.blocks_cons]
    exact (addLines_ofList ..).trans (by rw [Numbered.blocks_nil, List.append_nil])

theorem map_snd_opened (dev : Dev) (chips : List (Nat × Name)) :
    (dev.opened chips).map Prod.snd = chips.flatMap fun chip => (dev.chip chip.2).toList := by
  rw [Dev.opened, List.map_filterMap, List.filterMap_eq_flatMap_toList]
  simp only [Option.map_map, Function.comp_def, Option.map_id']

/-- The lines of the chips that open, in the order of the sorted chips. -/
theorem getGpioMap_eq (dev : Dev) (sort : List (Nat × Name) → List (Nat × Name))
    (listing : List Name) :
    getGpioMap dev sort listing =
      (Numbered.ofList (Numbered.blocks dev.numLines
        ((dev.opened (sort (dev.chips listing))).map Prod.snd))).map := by
  rw [map_snd_opened, Numbered.blocks_flatMap]
  exact congrArg Numbered.map (Numbered.foldl_ofList (addChip_ofList dev) [] _)

/-- The chips with pairwise different numbers are sorted in one way. -/
theorem sort_chips_eq (sorts : Sorts sort) {listing listing' : List Name}
    (perm : listing.Perm listing') (distinct : DistinctSuffixes gpioChipPrefix listing) :
    sort (dev.chips listing) = sort (dev.chips listing') := by
  have same : (dev.chips listing).Perm (dev.chips listing') := perm.filterMap _
  have permuted : (sort (dev.chips listing)).Perm (sort (dev.chips listing')) :=
    (sorts.perm _).trans (same.trans (sorts.perm _).symm)
  have listed : ∀ chip ∈ dev.chips listing,
      chip.2 ∈ listing ∧ suffix gpioChipPrefix chip.2 = some chip.1 := by
    intro chip member
    obtain ⟨path, member', made⟩ := List.mem_filterMap.mp member
    obtain ⟨ordinal, isOrdinal, pair⟩ := Option.map_eq_some_iff.mp made
    subst pair
    unfold Dev.ordinal at isOrdinal
    split at isOrdinal
    · exact ⟨member', isOrdinal⟩
    · cases isOrdinal
  refine permuted.eq_of_pairwise (fun chip chip' member member' le le' => ?_)
    (sorts.sorted _) (sorts.sorted _)
  have ordinals : chip.1 = chip'.1 := Nat.le_antisymm le le'
  obtain ⟨path, number⟩ := listed chip ((sorts.perm _).mem_iff.mp member)
  obtain ⟨path', number'⟩ :=
    listed chip' (same.mem_iff.mpr ((sorts.perm _).mem_iff.mp member'))
  rw [← ordinals] at number'
  exact Prod.ext ordinals (distinct _ path _ path' _ number number')

/-- A sort by insertion. -/
def sortByOrdinal (chips : List (Nat × Name)) : List (Nat × Name) :=
  chips.insertionSort fun chip chip' => chip.1 ≤ chip'.1

theorem sorts_sortByOrdinal : Sorts sortByOrdinal where
  perm := List.perm_insertionSort _
  sorted chips := by
    have total : Std.Total fun chip chip' : Nat × Name => chip.1 ≤ chip'.1 :=
      ⟨fun chip chip' => Nat.le_total chip.1 chip'.1⟩
    have trans : IsTrans (Nat × Name) fun chip chip' => chip.1 ≤ chip'.1 :=
      ⟨fun _ _ _ => Nat.le_trans⟩
    exact List.pairwise_insertionSort _ chips

end Libgpiod2

/-! ## FreeBSD -/

namespace FreeBsd

def gpioChipPrefix : Name := ['g', 'p', 'i', 'o', 'c']

/-- What FreeBSD answers about the entries of `/dev`: whether `open` succeeds, and the
pin count of `ioctl` with `GPIOMAXPIN` where that succeeds. -/
structure Dev where
  opens : Name → Bool
  gpioMaxPin : Name → Option Int

/-- One turn of the loop over the directory. -/
def addEntry (dev : Dev) (numbered : Numbered (Name × Nat)) (filename : Name) :
    Numbered (Name × Nat) :=
  if gpioChipPrefix.isPrefixOf filename then
    if dev.opens filename then
      match dev.gpioMaxPin filename with
      | some pinCount => addLines numbered filename pinCount.toNat
      | none => numbered
    else numbered
  else numbered

/-- `getGpioMap` on FreeBSD. -/
def getGpioMap (dev : Dev) (listing : List Name) : GpioMap :=
  (listing.foldl (addEntry dev) {}).map

/-- How many pins an entry brings into the map. -/
def Dev.pins (dev : Dev) (filename : Name) : Nat :=
  if gpioChipPrefix.isPrefixOf filename ∧ dev.opens filename then
    ((dev.gpioMaxPin filename).map Int.toNat).getD 0
  else 0

variable {dev : Dev}

theorem addEntry_eq (dev : Dev) (numbered : Numbered (Name × Nat)) (filename : Name) :
    addEntry dev numbered filename = addLines numbered filename (dev.pins filename) := by
  unfold addEntry Dev.pins
  by_cases named : gpioChipPrefix.isPrefixOf filename
  · by_cases opens : dev.opens filename
    · rw [if_pos named, if_pos opens, if_pos ⟨named, opens⟩]
      cases dev.gpioMaxPin filename with
      | none => rfl
      | some pinCount => rfl
    · rw [if_pos named, if_neg opens, if_neg fun both => opens both.2]
      rfl
  · rw [if_neg named, if_neg fun both => named both.1]
    rfl

/-- The pins of the entries, in the order of the directory. -/
theorem getGpioMap_eq (dev : Dev) (listing : List Name) :
    getGpioMap dev listing = (Numbered.ofList (Numbered.blocks dev.pins listing)).map := by
  have adds : ∀ entries filename, addEntry dev (.ofList entries) filename = .ofList (entries ++
      (List.range (dev.pins filename)).map fun line => (filename, line)) := by
    intro entries filename
    rw [addEntry_eq, addLines_ofList]
  exact congrArg Numbered.map (Numbered.foldl_ofList adds [] listing)

/-- The map tells the entries that have pins, and their order. -/
theorem getGpioMap_eq_iff {listing listing' : List Name} :
    getGpioMap dev listing = getGpioMap dev listing' ↔
      (listing.filter fun path => 0 < dev.pins path) =
        listing'.filter fun path => 0 < dev.pins path := by
  rw [getGpioMap_eq, getGpioMap_eq, ← Numbered.blocks_eq_iff]
  exact ⟨fun same => List.ext_getElem? fun n => congrFun same n, fun same => by rw [same]⟩

/-- Every order of the directory gives the same map exactly if at most one entry has
pins. -/
theorem getGpioMap_every_order_iff {listing : List Name} (nodup : listing.Nodup) :
    (∀ listing', listing.Perm listing' →
      getGpioMap dev listing = getGpioMap dev listing') ↔
        (listing.filter fun path => 0 < dev.pins path).length ≤ 1 := by
  apply Iff.intro
  · intro every
    have backwards := every listing.reverse (List.reverse_perm listing).symm
    rw [getGpioMap_eq_iff, List.filter_reverse] at backwards
    have distinct := nodup.filter fun path => decide (0 < dev.pins path)
    generalize (listing.filter fun path => decide (0 < dev.pins path)) = entries at *
    by_contra more
    -- the first entry would be the last one, too
    have first : entries[0]? = entries[entries.length - 1]? := by
      have reversed : entries.reverse[0]? = entries[entries.length - 1 - 0]? :=
        List.getElem?_reverse (by omega)
      rw [← backwards] at reversed
      exact reversed
    have some_ : 0 < entries.length := by omega
    have indices : 0 = entries.length - 1 := (List.getElem?_inj some_ distinct).mp first
    omega
  · intro few listing' perm
    rw [getGpioMap_eq_iff]
    have entries := perm.filter fun path => decide (0 < dev.pins path)
    rcases none_ : listing.filter fun path => decide (0 < dev.pins path) with _ | ⟨path, rest⟩
    · rw [none_] at entries
      exact (List.nil_perm.mp entries).symm
    · rw [none_, List.length_cons] at few
      rw [none_] at entries
      have one : rest = [] := List.length_eq_zero_iff.mp (by omega)
      subst one
      exact List.singleton_perm.mp entries

end FreeBsd

/-- In each of the builds the pin numbers have no gap. -/
theorem contiguous_getGpioMap (chips : List Libgpiod1.Chip) (linux : Libgpiod2.Dev)
    (sort : List (Nat × Name) → List (Nat × Name)) (freeBsd : FreeBsd.Dev) (listing : List Name) :
    Contiguous (Libgpiod1.getGpioMap chips) ∧
      Contiguous (Libgpiod2.getGpioMap linux sort listing) ∧
      Contiguous (FreeBsd.getGpioMap freeBsd listing) := by
  rw [Libgpiod1.getGpioMap_eq, Libgpiod2.getGpioMap_eq, FreeBsd.getGpioMap_eq]
  exact ⟨⟨_, Numbered.isSome_ofList_iff _⟩, ⟨_, Numbered.isSome_ofList_iff _⟩,
    ⟨_, Numbered.isSome_ofList_iff _⟩⟩

/-! ## The order of the directory -/

/-- **When the order of the directory does not matter.** With pairwise different
numbers of the chips it never does on libgpiod 2. On FreeBSD two orders give the same map
exactly if the entries that open and have pins come in the same order in both, and all
orders do exactly if there is at most one such entry. -/
theorem order_independent_iff {sort : List (Nat × Name) → List (Nat × Name)}
    (sorts : Libgpiod2.Sorts sort) {chips chips' : List Name} (perm : chips.Perm chips')
    (distinct : DistinctSuffixes Libgpiod2.gpioChipPrefix chips) (linux : Libgpiod2.Dev)
    (freeBsd : FreeBsd.Dev) (controllers controllers' : List Name) :
    Libgpiod2.getGpioMap linux sort chips = Libgpiod2.getGpioMap linux sort chips' ∧
      (FreeBsd.getGpioMap freeBsd controllers = FreeBsd.getGpioMap freeBsd controllers' ↔
        (controllers.filter fun path => 0 < freeBsd.pins path) =
          controllers'.filter fun path => 0 < freeBsd.pins path) ∧
      (controllers.Nodup → ((∀ order, controllers.Perm order →
          FreeBsd.getGpioMap freeBsd controllers = FreeBsd.getGpioMap freeBsd order) ↔
        (controllers.filter fun path => 0 < freeBsd.pins path).length ≤ 1)) := by
  refine ⟨?_, FreeBsd.getGpioMap_eq_iff, FreeBsd.getGpioMap_every_order_iff⟩
  unfold Libgpiod2.getGpioMap
  rw [Libgpiod2.sort_chips_eq sorts perm distinct]

/-- Two chips in both orders, and two controllers of which one has no pins. -/
theorem order_independent_of_two :
    Libgpiod2.getGpioMap ⟨fun _ => true, some, fun _ => 1⟩ Libgpiod2.sortByOrdinal
          [Libgpiod2.gpioChipPrefix ++ ['1'], Libgpiod2.gpioChipPrefix ++ ['0']] =
        Libgpiod2.getGpioMap ⟨fun _ => true, some, fun _ => 1⟩ Libgpiod2.sortByOrdinal
          [Libgpiod2.gpioChipPrefix ++ ['0'], Libgpiod2.gpioChipPrefix ++ ['1']] ∧
      ∀ order, [FreeBsd.gpioChipPrefix ++ ['0'], FreeBsd.gpioChipPrefix ++ ['1']].Perm order →
        FreeBsd.getGpioMap ⟨fun path => path = FreeBsd.gpioChipPrefix ++ ['0'], fun _ => some 2⟩
            [FreeBsd.gpioChipPrefix ++ ['0'], FreeBsd.gpioChipPrefix ++ ['1']] =
          FreeBsd.getGpioMap ⟨fun path => path = FreeBsd.gpioChipPrefix ++ ['0'], fun _ => some 2⟩
            order := by
  have orders := order_independent_iff Libgpiod2.sorts_sortByOrdinal
    (.swap (Libgpiod2.gpioChipPrefix ++ ['0']) (Libgpiod2.gpioChipPrefix ++ ['1']) [])
    (by unfold DistinctSuffixes; decide +kernel) ⟨fun _ => true, some, fun _ => 1⟩
    ⟨fun path => path = FreeBsd.gpioChipPrefix ++ ['0'], fun _ => some 2⟩
    [FreeBsd.gpioChipPrefix ++ ['0'], FreeBsd.gpioChipPrefix ++ ['1']] []
  exact ⟨orders.1, (orders.2.2 (by decide)).mpr (by decide +kernel)⟩

/-- Two controllers with one pin each get their numbers in the order of the directory. -/
theorem not_order_independent :
    ¬ ∀ (dev : FreeBsd.Dev) (listing listing' : List Name), listing.Nodup →
      listing.Perm listing' → DistinctSuffixes FreeBsd.gpioChipPrefix listing →
      FreeBsd.getGpioMap dev listing = FreeBsd.getGpioMap dev listing' := by
  intro independent
  have same := independent ⟨fun _ => true, fun _ => some 1⟩
    [FreeBsd.gpioChipPrefix ++ ['0'], FreeBsd.gpioChipPrefix ++ ['1']]
    [FreeBsd.gpioChipPrefix ++ ['1'], FreeBsd.gpioChipPrefix ++ ['0']]
    (by decide) (.swap _ _ _) (by unfold DistinctSuffixes; decide +kernel)
  rw [FreeBsd.getGpioMap_eq_iff] at same
  revert same
  decide +kernel

end Iqrf.Gpio
