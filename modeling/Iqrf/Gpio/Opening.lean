import Iqrf.Gpio.GpioFreeBsd
import Mathlib.Algebra.Order.Ring.Nat

/-!
# From a pin number to an open line

A `GpioConfig` made from a pin number has the chip and the line that the map has under
it, and the constructor of the driver opens these: by a lookup of the chip on libgpiod 1,
as a file of `/dev` on libgpiod 2 and FreeBSD, with the line cut to 32 bits everywhere.
The map in its turn was made by asking the system what chips it has. `PinsOpen` says that
both ways meet, and `pins_open_lines` that they do in each of the builds.

A pin is resolved as a `size_t`, here of 64 bits, so a line is reached only if its number
fits into one.
-/

namespace Iqrf.Gpio

/-- What the constructors of the libgpiod drivers throw: what the library reports about
the chip or about the offset, or that no line has the name. -/
inductive OpenError
  | noChip
  | noOffset
  | noLine (lineName chip : Name)
  deriving DecidableEq

/-- The text of the exception that the driver makes itself. -/
def OpenError.what : OpenError → Option String
  | noChip => none
  | noOffset => none
  | noLine lineName chip =>
    some ("No line '" ++ String.ofList lineName ++ "' found at chip '" ++ String.ofList chip ++ "'")

namespace Libgpiod1

/-- What libgpiod 1 answers about chips by their names, and about lines of a chip by
theirs. -/
structure Host where
  chip : Name → Option Chip
  findLine : Chip → Name → Option Nat

/-- The constructor of the driver: the chip and the offset of its line. -/
def Host.open_ (host : Host) (config : GpioConfig) : Except OpenError (Name × Nat) :=
  match host.chip config.chip with
  | none => .error .noChip
  | some chip =>
    if config.lineName.isEmpty then
      if config.line % 2 ^ 32 ∈ chip.offsets then .ok (chip.name, config.line % 2 ^ 32)
      else .error .noOffset
    else
      match host.findLine chip config.lineName with
      | some offset => .ok (chip.name, offset)
      | none => .error (.noLine config.lineName config.chip)

end Libgpiod1

namespace Libgpiod2

/-- What libgpiod 2 answers about the entries of `/dev`, and about lines of a chip by
their names. -/
structure Host extends Dev where
  lineOffset : Name → Name → Option Nat

/-- The constructor of the driver: the chip and the offset of its line. -/
def Host.open_ (host : Host) (config : GpioConfig) : Except OpenError (Name × Nat) :=
  match host.chip config.chip with
  | none => .error .noChip
  | some name =>
    if config.lineName.isEmpty then .ok (name, config.line % 2 ^ 32)
    else
      match host.lineOffset name config.lineName with
      | some offset => .ok (name, offset)
      | none => .error (.noLine config.lineName config.chip)

end Libgpiod2

namespace FreeBsd

/-- The constructor of the driver up to its call of `open`: the file and the line. -/
def opens (config : GpioConfig) : Except (Error Empty) (Name × Nat) :=
  if config.chip.isEmpty then .error .emptyChipName
  else .ok (path config.chip, (UInt32.ofNat config.line).toNat)

theorem opens_of_construct {κ ε : Type*} {device : Device κ ε} {config : GpioConfig} {k k' : κ}
    {s : GpioFreeBsd κ} (constructed : construct device config k = (k', .ok s)) :
    ∃ file k₁, opens config = .ok (file, s.line.toNat) ∧
      device.openFile k file = (k₁, .ok s.fd) := by
  unfold construct at constructed
  unfold opens
  split at constructed
  · cases constructed
  · rename_i named
    rw [if_neg named]
    split at constructed
    · cases constructed
    · rename_i k₁ fd opened
      split at constructed
      · cases constructed
        exact ⟨_, _, rfl, opened⟩
      · split at constructed <;> cases constructed
        exact ⟨_, _, rfl, opened⟩

end FreeBsd

/-! ## Pins and lines -/

/-- The numbers of the map fit into a `size_t`. -/
def FitsSizeT (gpioMap : GpioMap) : Prop :=
  ∀ n record, gpioMap n = some record → n < UInt64.size

/-- Each pin of the map opens one of the lines, no two pins open the same one, and every
line is opened by a pin. -/
structure PinsOpen {ε : Type*} (gpioMap : GpioMap) (open_ : GpioConfig → Except ε (Name × Nat))
    (lines : Name × Nat → Prop) : Prop where
  total {pin consumerName config} : GpioConfig.ofPin gpioMap pin consumerName = .ok config →
    ∃ line, open_ config = .ok line ∧ lines line
  distinct {pin pin' consumerName consumerName' config config' line} :
    GpioConfig.ofPin gpioMap pin consumerName = .ok config →
    GpioConfig.ofPin gpioMap pin' consumerName' = .ok config' →
    open_ config = .ok line → open_ config' = .ok line → pin = pin'
  onto {line} : lines line → ∃ pin, ∀ consumerName, ∃ config,
    GpioConfig.ofPin gpioMap pin consumerName = .ok config ∧ open_ config = .ok line

theorem PinsOpen.congr {ε : Type*} {gpioMap : GpioMap} {lines lines' : Name × Nat → Prop}
    {open_ : GpioConfig → Except ε (Name × Nat)} (pinsOpen : PinsOpen gpioMap open_ lines)
    (same : ∀ line, lines line ↔ lines' line) : PinsOpen gpioMap open_ lines' := by
  rwa [← funext fun line => propext (same line)]

/-- Each number that fits is that of a pin. -/
theorem exists_pin {n : Nat} (fits : n < UInt64.size) : ∃ pin : Int64, pin.toUInt64.toNat = n := by
  refine ⟨(UInt64.ofNat n).toInt64, ?_⟩
  rw [UInt64.toUInt64_toInt64]
  exact UInt64.toNat_ofNat_of_lt' fits

/-- The configuration of a pin. -/
def configOf (record : Name × Nat) (pin : Int64) (consumerName : Name) : GpioConfig :=
  { chip := record.1, line := record.2, pin, consumerName }

theorem ofPin_eq_ok_iff {gpioMap : GpioMap} {pin : Int64} {consumerName : Name}
    {config : GpioConfig} : GpioConfig.ofPin gpioMap pin consumerName = .ok config ↔
      ∃ record, gpioMap pin.toUInt64.toNat = some record ∧
        configOf record pin consumerName = config := by
  unfold GpioConfig.ofPin GpioResolver.resolveGpioPin
  cases gpioMap pin.toUInt64.toNat <;> simp [configOf]

section Records

variable {ε : Type*} {open_ : GpioConfig → Except ε (Name × Nat)} {records : List (Name × Nat)}
  {target : Name × Nat → Name × Nat}

/-- A map of records that occur once, each of which leads to a line of its own. -/
theorem pinsOpen_of_records (once : records.Nodup)
    (leads : ∀ record ∈ records, ∀ pin consumerName,
      open_ (configOf record pin consumerName) = .ok (target record))
    (own : ∀ record ∈ records, ∀ record' ∈ records,
      target record = target record' → record = record')
    (fits : FitsSizeT (Numbered.ofList records).map) :
    PinsOpen (Numbered.ofList records).map open_ (fun line => ∃ record ∈ records,
      target record = line) where
  total := by
    intro pin consumerName config made
    obtain ⟨record, found, same⟩ := ofPin_eq_ok_iff.mp made
    subst same
    have member := List.mem_of_getElem? found
    exact ⟨target record, leads record member pin consumerName, record, member, rfl⟩
  distinct := by
    intro pin pin' consumerName consumerName' config config' line made made' opened opened'
    obtain ⟨record, found, same⟩ := ofPin_eq_ok_iff.mp made
    obtain ⟨record', found', same'⟩ := ofPin_eq_ok_iff.mp made'
    subst same same'
    have member := List.mem_of_getElem? found
    have member' := List.mem_of_getElem? found'
    rw [leads record member] at opened
    rw [leads record' member'] at opened'
    have same := own record member record' member'
      (Except.ok.inj (opened.trans opened'.symm))
    subst same
    obtain ⟨n, -, unique⟩ := Numbered.nodup_iff_existsUnique.mp once record member
    exact GpioResolver.pin_eq_of_toNat_eq ((unique _ found).trans (unique _ found').symm)
  onto := by
    rintro line ⟨record, member, same⟩
    subst same
    obtain ⟨n, found, -⟩ := Numbered.nodup_iff_existsUnique.mp once record member
    obtain ⟨pin, at_⟩ := exists_pin (fits n record found)
    refine ⟨pin, fun consumerName => ⟨configOf record pin consumerName, ?_, ?_⟩⟩
    · exact ofPin_eq_ok_iff.mpr ⟨record, by rw [at_]; exact found, rfl⟩
    · exact leads record member pin consumerName

end Records

/-! ## The builds -/

namespace Libgpiod1

/-- The lines of the chips, as the iterators show them. -/
def records (chips : List Chip) : List (Name × Nat) :=
  chips.flatMap fun chip => chip.offsets.map fun offset => (chip.name, offset)

theorem mem_records {chips : List Chip} {record : Name × Nat} :
    record ∈ records chips ↔ ∃ chip ∈ chips, chip.name = record.1 ∧ record.2 ∈ chip.offsets := by
  simp only [records, List.mem_flatMap, List.mem_map]
  apply Iff.intro
  · rintro ⟨chip, member, offset, listed, same⟩
    subst same
    exact ⟨chip, member, rfl, listed⟩
  · rintro ⟨chip, member, same, listed⟩
    exact ⟨chip, member, record.2, listed, by rw [same]⟩

/-- What libgpiod 1 is relied on for: the chips that it iterates have names of their own,
by which they are found, and lines of their own at 32-bit offsets. -/
structure Found (host : Host) (chips : List Chip) : Prop where
  names : (chips.map Chip.name).Nodup
  lookup : ∀ chip ∈ chips, host.chip chip.name = some chip
  offsets : ∀ chip ∈ chips, chip.offsets.Nodup ∧ ∀ offset ∈ chip.offsets, offset < 2 ^ 32

theorem nodup_records {chips : List Chip} (names : (chips.map Chip.name).Nodup)
    (offsets : ∀ chip ∈ chips, chip.offsets.Nodup) : (records chips).Nodup := by
  refine List.nodup_flatMap.mpr ⟨fun chip member => ?_, ?_⟩
  · exact (offsets chip member).map fun offset offset' same => (Prod.mk.inj same).2
  · refine (List.pairwise_map.mp names).imp fun {chip chip'} other => ?_
    refine List.disjoint_left.mpr fun record here there => other ?_
    obtain ⟨offset, -, same⟩ := List.mem_map.mp here
    obtain ⟨offset', -, same'⟩ := List.mem_map.mp there
    exact (congrArg Prod.fst same).trans (congrArg Prod.fst same').symm

theorem pinsOpen {host : Host} {chips : List Chip} (found : Found host chips)
    (fits : FitsSizeT (getGpioMap chips)) :
    PinsOpen (getGpioMap chips) host.open_ fun line =>
      ∃ chip ∈ chips, chip.name = line.1 ∧ line.2 ∈ chip.offsets := by
  rw [getGpioMap_eq, ← records] at fits ⊢
  have once := nodup_records found.names fun chip member => (found.offsets chip member).1
  have leads : ∀ record ∈ records chips, ∀ pin consumerName,
      host.open_ (configOf record pin consumerName) = .ok (id record) := by
    intro record member pin consumerName
    obtain ⟨chip, listed, same, offset⟩ := mem_records.mp member
    have lookup := found.lookup chip listed
    have small := (found.offsets chip listed).2 record.2 offset
    unfold Host.open_ configOf
    dsimp only
    rw [← same, lookup]
    dsimp only
    rw [Nat.mod_eq_of_lt small, if_pos List.isEmpty_nil, if_pos offset]
    exact congrArg Except.ok (Prod.ext same rfl)
  refine (pinsOpen_of_records once leads (fun _ _ _ _ same => same) fits).congr fun line => ?_
  simp only [id, exists_eq_right, mem_records]

end Libgpiod1

namespace Libgpiod2

variable {host : Host} {sort : List (Nat × Name) → List (Nat × Name)} {listing : List Name}

/-- What libgpiod 2 and the kernel are relied on for: the name of a chip is that of its
file in `/dev`, and a chip has lines at 32-bit offsets. -/
structure Found (host : Host) : Prop where
  named {path name} : host.chip path = some name → host.chip name = some name
  offsets (name) : host.numLines name ≤ 2 ^ 32

theorem pinsOpen (found : Found host) (sorts : Sorts sort) (nodup : listing.Nodup)
    (unaliased : Unaliased host.toDev listing)
    (fits : FitsSizeT (getGpioMap host.toDev sort listing)) :
    PinsOpen (getGpioMap host.toDev sort listing) host.open_ fun line =>
      ∃ path ordinal, host.Accessible listing path ordinal ⟨line.1, host.numLines line.1⟩ ∧
        line.2 < host.numLines line.1 := by
  rw [getGpioMap_eq] at fits ⊢
  have once := Numbered.nodup_blocks_iff.mpr ((nodup_opened_iff sorts nodup).mpr unaliased)
  have leads : ∀ record ∈ Numbered.blocks host.numLines
      ((host.opened (sort (host.chips listing))).map Prod.snd), ∀ pin consumerName,
      host.open_ (configOf record pin consumerName) = .ok (id record) := by
    rintro ⟨name, line⟩ member pin consumerName
    obtain ⟨named, bound⟩ := Numbered.mem_blocks.mp member
    obtain ⟨⟨ordinal, name'⟩, opened, same⟩ := List.mem_map.mp named
    subst same
    obtain ⟨path, entry⟩ := (mem_opened_iff sorts).mp opened
    have lookup := found.named (getInfo_eq_some_iff.mp entry.opens).1
    have small := Nat.lt_of_lt_of_le bound (found.offsets name')
    unfold Host.open_ configOf
    dsimp only at lookup ⊢
    rw [lookup]
    dsimp only
    rw [Nat.mod_eq_of_lt small, if_pos List.isEmpty_nil]
    rfl
  refine (pinsOpen_of_records once leads (fun _ _ _ _ same => same) fits).congr fun line => ?_
  rcases line with ⟨name, line⟩
  simp only [id, exists_eq_right, Numbered.mem_blocks, List.mem_map, Prod.exists,
    mem_opened_iff sorts, exists_and_right]
  exact and_congr_left fun _ => exists_comm

end Libgpiod2

namespace FreeBsd

variable {dev : Dev} {listing : List Name}

theorem path_of_pins {filename : Name} (pins : 0 < dev.pins filename) :
    path filename = devPrefix ++ filename := by
  unfold Dev.pins at pins
  split at pins
  · rename_i given
    obtain ⟨rest, same⟩ := List.isPrefixOf_iff_prefix.mp given.1
    subst same
    exact if_neg (by simp [gpioChipPrefix, devPrefix])
  · cases pins

theorem chip_of_pins {filename : Name} (pins : 0 < dev.pins filename) :
    filename.isEmpty = false := by
  unfold Dev.pins at pins
  split at pins
  · rename_i given
    obtain ⟨rest, same⟩ := List.isPrefixOf_iff_prefix.mp given.1
    subst same
    rfl
  · cases pins

theorem pinsOpen (nodup : listing.Nodup) (small : ∀ filename, dev.pins filename ≤ 2 ^ 32)
    (fits : FitsSizeT (getGpioMap dev listing)) :
    PinsOpen (getGpioMap dev listing) opens fun line =>
      ∃ filename ∈ listing, devPrefix ++ filename = line.1 ∧ line.2 < dev.pins filename := by
  rw [getGpioMap_eq] at fits ⊢
  have once : (Numbered.blocks dev.pins listing).Nodup :=
    Numbered.nodup_blocks_iff.mpr (nodup.filter _)
  have leads : ∀ record ∈ Numbered.blocks dev.pins listing, ∀ pin consumerName,
      opens (configOf record pin consumerName) = .ok (devPrefix ++ record.1, record.2) := by
    rintro ⟨filename, line⟩ member pin consumerName
    obtain ⟨-, bound⟩ := Numbered.mem_blocks.mp member
    have pins := Nat.zero_lt_of_lt bound
    have line_ : (UInt32.ofNat line).toNat = line :=
      UInt32.toNat_ofNat_of_lt' (Nat.lt_of_lt_of_le bound (small filename))
    unfold opens configOf
    dsimp only
    rw [chip_of_pins pins, if_neg Bool.false_ne_true, path_of_pins pins, line_]
  have own : ∀ record ∈ Numbered.blocks dev.pins listing,
      ∀ record' ∈ Numbered.blocks dev.pins listing,
      (devPrefix ++ record.1, record.2) = (devPrefix ++ record'.1, record'.2) →
        record = record' := by
    intro record _ record' _ same
    obtain ⟨names, lines⟩ := Prod.mk.inj same
    exact Prod.ext (List.append_cancel_left names) lines
  refine (pinsOpen_of_records once leads own fits).congr fun line => ?_
  rcases line with ⟨file, line⟩
  simp only [Prod.exists, Numbered.mem_blocks, Prod.mk.injEq]
  apply Iff.intro
  · rintro ⟨filename, line', ⟨listed, bound⟩, same, same'⟩
    subst same'
    exact ⟨filename, listed, same, bound⟩
  · rintro ⟨filename, listed, same, bound⟩
    exact ⟨filename, line, ⟨listed, bound⟩, same, rfl⟩

end FreeBsd

end Iqrf.Gpio
