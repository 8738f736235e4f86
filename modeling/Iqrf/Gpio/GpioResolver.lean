import Iqrf.Gpio.GpioMap

/-!
# Resolving a pin

`GpioResolver::resolveGpioPin` looks a pin number up in the map. On libgpiod 2 the map
is meant to give each line of an accessible chip one number (`NumbersOnce`). It does
exactly if no chip with lines is listed twice: a symbolic link to a chip that has a
valid number itself is an entry like any other, so the lines behind it get a second number
each, and the numbers of all later chips move.
-/

namespace Iqrf.Gpio

namespace GpioResolver

/-- What `resolveGpioPin` throws. -/
inductive ResolveError
  | noChipAndLineFound (pin : Int64)
  deriving DecidableEq

/-- The text the exception carries. -/
def ResolveError.what : ResolveError → String
  | noChipAndLineFound pin => "No chip and line found for pin no. " ++ toString pin.toInt

/-- `GpioResolver::resolveGpioPin`; the map is searched for the pin number as a `size_t`
of 64 bits. -/
def resolveGpioPin (gpioMap : GpioMap) (pin : Int64) : Except ResolveError (Name × Nat) :=
  match gpioMap pin.toUInt64.toNat with
  | none => .error (.noChipAndLineFound pin)
  | some record => .ok record

theorem resolveGpioPin_eq_ok_iff {gpioMap : GpioMap} {pin : Int64} {record : Name × Nat} :
    resolveGpioPin gpioMap pin = .ok record ↔ gpioMap pin.toUInt64.toNat = some record := by
  unfold resolveGpioPin
  cases gpioMap pin.toUInt64.toNat <;> simp

/-- Different pin numbers are different as a `size_t`. -/
theorem pin_eq_of_toNat_eq {pin pin' : Int64}
    (same : pin.toUInt64.toNat = pin'.toUInt64.toNat) : pin = pin' := by
  have words : pin.toUInt64 = pin'.toUInt64 := UInt64.toNat_inj.mp same
  exact congrArg Int64.ofUInt64 words

end GpioResolver

namespace Libgpiod2

/-- An entry that is listed under a number, and whose chip opens. -/
structure Dev.Accessible (dev : Dev) (listing : List Name) (path : Name) (ordinal : Nat)
    (chipInfo : ChipInfo) : Prop where
  listed : path ∈ listing
  ordinal : dev.ordinal path = some ordinal
  opens : dev.getInfo path = some chipInfo

/-- The map numbers the lines of the accessible chips: without a gap, each line once, chip
after chip in the order of their ordinal numbers, line after line within a chip. -/
structure NumbersOnce (dev : Dev) (listing : List Name) (gpioMap : GpioMap) : Prop where
  keys : Contiguous gpioMap
  once {path ordinal chipInfo line} : dev.Accessible listing path ordinal chipInfo →
    line < chipInfo.numLines → ∃! n, gpioMap n = some (chipInfo.name, line)
  ordered {path ordinal chipInfo path' ordinal' chipInfo' n line n' line'} :
    dev.Accessible listing path ordinal chipInfo →
    dev.Accessible listing path' ordinal' chipInfo' → ordinal < ordinal' →
    gpioMap n = some (chipInfo.name, line) → gpioMap n' = some (chipInfo'.name, line') → n < n'
  consecutive {path ordinal chipInfo n line} : dev.Accessible listing path ordinal chipInfo →
    gpioMap n = some (chipInfo.name, line) → line + 1 < chipInfo.numLines →
    gpioMap (n + 1) = some (chipInfo.name, line + 1)

/-- No two accessible entries are one chip, unless it has no lines. -/
def Unaliased (dev : Dev) (listing : List Name) : Prop :=
  ∀ {path ordinal chipInfo path' ordinal' chipInfo'},
    dev.Accessible listing path ordinal chipInfo →
    dev.Accessible listing path' ordinal' chipInfo' → chipInfo.name = chipInfo'.name →
    0 < chipInfo.numLines → path = path'

variable {dev : Dev} {sort : List (Nat × Name) → List (Nat × Name)} {listing : List Name}

/-! ## The chips in the map -/

theorem getInfo_eq_some_iff {path : Name} {chipInfo : ChipInfo} :
    dev.getInfo path = some chipInfo ↔
      dev.chip path = some chipInfo.name ∧ dev.numLines chipInfo.name = chipInfo.numLines := by
  rw [Dev.getInfo, Option.map_eq_some_iff]
  apply Iff.intro
  · intro opened
    obtain ⟨name, isName, same⟩ := opened
    subst same
    exact ⟨isName, rfl⟩
  · intro known
    obtain ⟨name, numLines⟩ := chipInfo
    exact ⟨name, known.1, congrArg (ChipInfo.mk name) known.2⟩

/-- The chips that open are those of the accessible entries. -/
theorem mem_opened_iff (sorts : Sorts sort) {ordinal : Nat} {name : Name} :
    (ordinal, name) ∈ dev.opened (sort (dev.chips listing)) ↔
      ∃ path, dev.Accessible listing path ordinal ⟨name, dev.numLines name⟩ := by
  unfold Dev.opened Dev.chips
  simp only [List.mem_filterMap, (sorts.perm _).mem_iff, Option.map_eq_some_iff]
  apply Iff.intro
  · intro given
    obtain ⟨chip, ⟨path, listed, ordinal', isOrdinal, pair⟩, name', isName, pair'⟩ := given
    subst pair
    obtain ⟨same, same'⟩ := Prod.mk.inj pair'
    subst same same'
    exact ⟨path, listed, isOrdinal, getInfo_eq_some_iff.mpr ⟨isName, rfl⟩⟩
  · intro given
    obtain ⟨path, listed, isOrdinal, opens⟩ := given
    exact ⟨(ordinal, path), ⟨path, listed, ordinal, isOrdinal, rfl⟩, name,
      (getInfo_eq_some_iff.mp opens).1, rfl⟩

/-- A chip with lines is in the map once exactly if it is listed once. -/
theorem nodup_opened_iff (sorts : Sorts sort) (nodup : listing.Nodup) :
    (((dev.opened (sort (dev.chips listing))).map Prod.snd).filter
      fun name => 0 < dev.numLines name).Nodup ↔ Unaliased dev listing := by
  -- the chip with lines behind an entry
  let lined path := ((dev.ordinal path).bind fun _ => dev.chip path).filter
    fun name => 0 < dev.numLines name
  have lined_iff : ∀ {path name}, lined path = some name ↔
      ∃ ordinal, dev.ordinal path = some ordinal ∧ dev.chip path = some name ∧
        0 < dev.numLines name := by
    intro path name
    simp only [lined, Option.filter_eq_some_iff, Option.bind_eq_some_iff, decide_eq_true_eq]
    apply Iff.intro
    · intro given
      obtain ⟨⟨ordinal, isOrdinal, isName⟩, lines⟩ := given
      exact ⟨ordinal, isOrdinal, isName, lines⟩
    · intro given
      obtain ⟨ordinal, isOrdinal, isName, lines⟩ := given
      exact ⟨⟨ordinal, isOrdinal, isName⟩, lines⟩
  have perm : (((dev.opened (sort (dev.chips listing))).map Prod.snd).filter
      fun name => 0 < dev.numLines name).Perm (listing.filterMap lined) := by
    have opened : ((dev.opened (dev.chips listing)).map Prod.snd).filter
        (fun name => 0 < dev.numLines name) = listing.filterMap lined := by
      unfold Dev.opened Dev.chips
      rw [List.filterMap_filterMap, List.map_filterMap, List.filter_filterMap]
      refine List.filterMap_congr fun path _ => ?_
      cases isOrdinal : dev.ordinal path <;> cases isName : dev.chip path <;>
        simp [lined, isOrdinal, isName]
    rw [← opened]
    exact (((sorts.perm _).filterMap _).map _).filter _
  rw [perm.nodup_iff, Numbered.nodup_filterMap_iff nodup]
  apply Iff.intro
  · intro one path ordinal chipInfo path' ordinal' chipInfo' entry entry' same lines
    obtain ⟨isName, numLines⟩ := getInfo_eq_some_iff.mp entry.opens
    obtain ⟨isName', numLines'⟩ := getInfo_eq_some_iff.mp entry'.opens
    rw [← numLines] at lines
    rw [← same] at isName'
    exact one path entry.listed path' entry'.listed chipInfo.name
      (lined_iff.mpr ⟨ordinal, entry.ordinal, isName, lines⟩)
      (lined_iff.mpr ⟨ordinal', entry'.ordinal, isName', lines⟩)
  · intro unaliased path listed path' listed' name isLined isLined'
    obtain ⟨ordinal, isOrdinal, isName, lines⟩ := lined_iff.mp isLined
    obtain ⟨ordinal', isOrdinal', isName', -⟩ := lined_iff.mp isLined'
    have entry : dev.Accessible listing path ordinal ⟨name, dev.numLines name⟩ :=
      ⟨listed, isOrdinal, getInfo_eq_some_iff.mpr ⟨isName, rfl⟩⟩
    have entry' : dev.Accessible listing path' ordinal' ⟨name, dev.numLines name⟩ :=
      ⟨listed', isOrdinal', getInfo_eq_some_iff.mpr ⟨isName', rfl⟩⟩
    exact unaliased entry entry' rfl lines

/-! ## Each line once -/

/-- The lines of the chips that open, each with the ordinal number of its chip. -/
def places (dev : Dev) (chips : List (Nat × Name)) : List ((Nat × Name) × Nat) :=
  Numbered.blocks (fun chip => dev.numLines chip.2) (dev.opened chips)

theorem getElem?_map_iff {chips : List (Nat × Name)} {n : Nat} {name : Name} {line : Nat} :
    (Numbered.blocks dev.numLines ((dev.opened chips).map Prod.snd))[n]? = some (name, line) ↔
      ∃ ordinal, (places dev chips)[n]? = some ((ordinal, name), line) := by
  rw [Numbered.blocks_map, List.getElem?_map, Option.map_eq_some_iff, places]
  apply Iff.intro
  · intro given
    obtain ⟨⟨⟨ordinal, name'⟩, line'⟩, found, pair⟩ := given
    obtain ⟨same, same'⟩ := Prod.mk.inj pair
    subst same same'
    exact ⟨ordinal, found⟩
  · intro given
    obtain ⟨ordinal, found⟩ := given
    exact ⟨((ordinal, name), line), found, rfl⟩

/-- The lines are in the order of the ordinal numbers. -/
theorem ordinal_le_of_le (sorts : Sorts sort) {n n' : Nat} {chip chip' : Nat × Name}
    {line line' : Nat} (found : (places dev (sort (dev.chips listing)))[n]? = some (chip, line))
    (found' : (places dev (sort (dev.chips listing)))[n']? = some (chip', line')) (le : n ≤ n') :
    chip.1 ≤ chip'.1 := by
  have opened : (dev.opened (sort (dev.chips listing))).Pairwise fun chip chip' =>
      chip.1 ≤ chip'.1 := by
    unfold Dev.opened
    refine List.Pairwise.filterMap _ (fun chip chip' le named isNamed named' isNamed' => ?_)
      (sorts.sorted _)
    obtain ⟨name, -, same⟩ := Option.map_eq_some_iff.mp isNamed
    obtain ⟨name', -, same'⟩ := Option.map_eq_some_iff.mp isNamed'
    subst same same'
    exact le
  have ordered : (places dev (sort (dev.chips listing))).Pairwise fun place place' =>
      place.1.1 ≤ place'.1.1 :=
    Numbered.pairwise_blocks (R := fun chip chip' : Nat × Name => chip.1 ≤ chip'.1)
      (fun chip => Nat.le_refl chip.1) opened
  rcases Nat.eq_or_lt_of_le le with same | before
  · subst same
    rw [found] at found'
    cases found'
    exact Nat.le_refl _
  · obtain ⟨bound, at_⟩ := List.getElem?_eq_some_iff.mp found
    obtain ⟨bound', at_'⟩ := List.getElem?_eq_some_iff.mp found'
    have ordinals := List.pairwise_iff_getElem.mp ordered n n' bound bound' before
    rw [at_, at_'] at ordinals
    exact ordinals

/-- Where no chip is listed twice, its lines are under its own ordinal number. -/
theorem ordinal_of_found (sorts : Sorts sort) (unaliased : Unaliased dev listing)
    {path : Name} {ordinal ordinal' n line : Nat} {chipInfo : ChipInfo}
    (entry : dev.Accessible listing path ordinal chipInfo)
    (found : (places dev (sort (dev.chips listing)))[n]? =
      some ((ordinal', chipInfo.name), line)) : ordinal' = ordinal := by
  obtain ⟨opened, bound⟩ := Numbered.mem_blocks.mp (List.mem_of_getElem? found)
  obtain ⟨path', entry'⟩ := (mem_opened_iff sorts).mp opened
  have lines : 0 < dev.numLines chipInfo.name := Nat.zero_lt_of_lt bound
  have same := unaliased entry' entry rfl lines
  subst same
  exact Option.some.inj (entry'.ordinal.symm.trans entry.ordinal)

/-- Where no chip is listed twice, the map numbers each line once. -/
theorem numbersOnce_of_unaliased (sorts : Sorts sort) (nodup : listing.Nodup)
    (unaliased : Unaliased dev listing) :
    NumbersOnce dev listing (getGpioMap dev sort listing) := by
  rw [getGpioMap_eq]
  have once := Numbered.nodup_iff_existsUnique.mp
    (Numbered.nodup_blocks_iff.mpr ((nodup_opened_iff sorts nodup).mpr unaliased))
  refine ⟨⟨_, Numbered.isSome_ofList_iff _⟩, fun {path ordinal chipInfo line} entry bound => ?_,
    fun {path ordinal chipInfo path' ordinal' chipInfo' n line n' line'} entry entry' less
      found found' => ?_, fun {path ordinal chipInfo n line} entry found more => ?_⟩
  · obtain ⟨-, numLines⟩ := getInfo_eq_some_iff.mp entry.opens
    have opened : (ordinal, chipInfo.name) ∈ dev.opened (sort (dev.chips listing)) := by
      refine (mem_opened_iff sorts).mpr ⟨path, ?_⟩
      rw [numLines]
      exact entry
    refine once (chipInfo.name, line) (Numbered.mem_blocks.mpr ⟨?_, by omega⟩)
    exact List.mem_map_of_mem opened
  · obtain ⟨k, at_⟩ := getElem?_map_iff.mp found
    obtain ⟨k', at_'⟩ := getElem?_map_iff.mp found'
    have isOrdinal := ordinal_of_found sorts unaliased entry at_
    have isOrdinal' := ordinal_of_found sorts unaliased entry' at_'
    by_contra after
    have le : k' ≤ k := ordinal_le_of_le sorts at_' at_ (by omega)
    omega
  · obtain ⟨-, numLines⟩ := getInfo_eq_some_iff.mp entry.opens
    exact Numbered.getElem?_blocks_succ found (by omega)

/-- Where a chip is listed twice, its first line has two numbers. -/
theorem unaliased_of_numbersOnce (sorts : Sorts sort) (nodup : listing.Nodup)
    (once : NumbersOnce dev listing (getGpioMap dev sort listing)) : Unaliased dev listing := by
  rw [← nodup_opened_iff sorts nodup, ← Numbered.nodup_blocks_iff,
    Numbered.nodup_iff_existsUnique, ← getGpioMap_eq]
  intro item member
  obtain ⟨name, line⟩ := item
  obtain ⟨named, bound⟩ := Numbered.mem_blocks.mp member
  obtain ⟨⟨ordinal, name'⟩, opened, same⟩ := List.mem_map.mp named
  subst same
  obtain ⟨path, entry⟩ := (mem_opened_iff sorts).mp opened
  exact once.once entry bound

/-- **When the pin map numbers each line once.** The map of libgpiod 2 gives each line of
an accessible chip exactly one number, in order and without a gap, and no two pins
are resolved to one line, exactly if no chip with lines is listed twice. A `size_t` and
an `unsigned long` have 64 bits; where they have 32, pins that differ by a multiple of
`2 ^ 32` are resolved to the same line. -/
theorem numbers_once_iff {sort : List (Nat × Name) → List (Nat × Name)} (sorts : Sorts sort)
    (dev : Dev) {listing : List Name} (nodup : listing.Nodup) :
    (NumbersOnce dev listing (getGpioMap dev sort listing) ∧
      ∀ pin pin' record,
        GpioResolver.resolveGpioPin (getGpioMap dev sort listing) pin = .ok record →
        GpioResolver.resolveGpioPin (getGpioMap dev sort listing) pin' = .ok record →
        pin = pin') ↔ Unaliased dev listing := by
  apply Iff.intro
  · intro given
    exact unaliased_of_numbersOnce sorts nodup given.1
  · intro unaliased
    have once := numbersOnce_of_unaliased sorts nodup unaliased
    refine ⟨once, fun pin pin' record resolved resolved' => ?_⟩
    rw [GpioResolver.resolveGpioPin_eq_ok_iff] at resolved resolved'
    obtain ⟨name, line⟩ := record
    have at_ := resolved
    rw [getGpioMap_eq] at at_
    obtain ⟨ordinal, found⟩ := getElem?_map_iff.mp at_
    obtain ⟨opened, bound⟩ := Numbered.mem_blocks.mp (List.mem_of_getElem? found)
    obtain ⟨path, entry⟩ := (mem_opened_iff sorts).mp opened
    exact GpioResolver.pin_eq_of_toNat_eq ((once.once entry bound).unique resolved resolved')

/-- Two chips with two lines each, and an entry without a number. -/
theorem numbers_once_of_two :
    NumbersOnce ⟨fun _ => true, some, fun _ => 2⟩
      [gpioChipPrefix ++ ['1'], gpioChipPrefix ++ ['x'], gpioChipPrefix ++ ['0']]
      (getGpioMap ⟨fun _ => true, some, fun _ => 2⟩ sortByOrdinal
        [gpioChipPrefix ++ ['1'], gpioChipPrefix ++ ['x'], gpioChipPrefix ++ ['0']]) := by
  refine ((numbers_once_iff sorts_sortByOrdinal ⟨fun _ => true, some, fun _ => 2⟩
    (by decide)).mpr ?_).1
  intro path ordinal chipInfo path' ordinal' chipInfo' entry entry' same _
  have name := (getInfo_eq_some_iff.mp entry.opens).1
  have name' := (getInfo_eq_some_iff.mp entry'.opens).1
  rw [← same] at name'
  exact Option.some.inj (name.trans name'.symm)

/-- `gpiochip4` is a symbolic link to `gpiochip0`, and both are listed. -/
theorem not_numbers_once :
    ¬ ∀ (sort : List (Nat × Name) → List (Nat × Name)), Sorts sort →
      ∀ (dev : Dev) (listing : List Name), listing.Nodup →
        NumbersOnce dev listing (getGpioMap dev sort listing) ∧
          ∀ pin pin' record,
            GpioResolver.resolveGpioPin (getGpioMap dev sort listing) pin = .ok record →
            GpioResolver.resolveGpioPin (getGpioMap dev sort listing) pin' = .ok record →
            pin = pin' := by
  intro once
  have resolved := (once sortByOrdinal sorts_sortByOrdinal
    ⟨fun _ => true, fun _ => some (gpioChipPrefix ++ ['0']), fun _ => 1⟩
    [gpioChipPrefix ++ ['0'], gpioChipPrefix ++ ['4']] (by decide)).2 0 1
    (gpioChipPrefix ++ ['0'], 0) (by decide +kernel) (by decide +kernel)
  revert resolved
  decide

end Libgpiod2

end Iqrf.Gpio
