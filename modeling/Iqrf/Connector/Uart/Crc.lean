import Iqrf.Connector.Uart.Reachable
import Iqrf.Lib.ShiftRegister
import Mathlib.Data.Finset.Powerset
import Mathlib.Data.List.GetD

/-!
# Which corruptions the CRC detects

The bit loop of `calculateCrc` is a linear shift register: its turn is additive
for the exclusive or of bytes (`crcShift_xor`), loses nothing, keeps the parity of
a byte, and does not come back to `01` within 126 turns. `crcRegister` hands
these facts to the library; `rejected_of_corrupted` carries the result through the
escapes to the closing flag of the decoder.
-/

namespace Iqrf.Connector.Uart

open HdlcFrame

/-! ## The bit loop as a shift register -/

/-- What the turn does is decided by the lowest bit. -/
theorem crcShift_eq (c : UInt8) :
    crcShift c = (c >>> 1) ^^^ if c.toNat.testBit 0 then 0x8C else 0 := by
  have low : c &&& 0x01 ≠ 0 ↔ c.toNat.testBit 0 = true := by
    have value : (c &&& 0x01).toNat = c.toNat % 2 := by
      rw [UInt8.toNat_and]
      exact Nat.and_one_is_mod c.toNat
    rw [Nat.testBit_zero, decide_eq_true_iff, ne_eq, ← UInt8.toNat_inj, value, UInt8.toNat_zero]
    omega
  by_cases set : c &&& 0x01 ≠ 0
  · rw [crcShift, if_pos set, if_pos (low.mp set)]
  · rw [crcShift, if_neg set, if_neg fun bit => set (low.mpr bit), UInt8.xor_zero]

/-- One turn of the bit loop is additive. -/
theorem crcShift_xor (a b : UInt8) : crcShift (a ^^^ b) = crcShift a ^^^ crcShift b := by
  have swap : ∀ w x y z : UInt8, (w ^^^ x) ^^^ (y ^^^ z) = (w ^^^ y) ^^^ (x ^^^ z) := by
    intro w x y z
    ac_rfl
  rw [crcShift_eq, crcShift_eq, crcShift_eq, UInt8.shiftRight_xor, swap, UInt8.toNat_xor,
    Nat.testBit_xor]
  congr 1
  cases a.toNat.testBit 0 <;> cases b.toNat.testBit 0 <;> decide

/-- A byte as the content of the CRC register, where bytes add by exclusive or. -/
structure Register where
  byte : UInt8
  deriving DecidableEq

namespace Register

instance : Add Register := ⟨fun a b => ⟨a.byte ^^^ b.byte⟩⟩

instance : Zero Register := ⟨⟨0⟩⟩

instance : Neg Register := ⟨id⟩

@[simp] theorem byte_add (a b : Register) : (a + b).byte = a.byte ^^^ b.byte := rfl

instance : AddCommGroup Register where
  add_assoc a b c := congrArg mk (UInt8.xor_assoc a.byte b.byte c.byte)
  add_comm a b := congrArg mk (UInt8.xor_comm a.byte b.byte)
  zero_add a := congrArg mk UInt8.zero_xor
  add_zero a := congrArg mk UInt8.xor_zero
  neg_add_cancel a := congrArg mk UInt8.xor_self
  nsmul := nsmulRec
  zsmul := zsmulRec

/-- Bit `i` of a register, the least significant one first. -/
def bit (a : Register) (i : ℕ) : Bool := a.byte.toNat.testBit i

/-- The register with one bit set. -/
def unit (i : ℕ) : Register := ⟨UInt8.ofNat (2 ^ i)⟩

/-- One turn of the bit loop. -/
def shift : AddMonoid.End Register :=
  AddMonoidHom.mk' (fun a : Register => ⟨crcShift a.byte⟩) fun a b =>
    congrArg mk (crcShift_xor a.byte b.byte)

theorem byte_pow_shift (k : ℕ) (a : Register) : ((shift ^ k) a).byte = crcShift^[k] a.byte := by
  rw [AddMonoid.End.coe_pow]
  induction k generalizing a with
  | zero => rfl
  | succ k ih =>
    rw [Function.iterate_succ_apply, Function.iterate_succ_apply, ih]
    rfl

theorem bit_add (a b : Register) (i : ℕ) : bit (a + b) i = (bit a i ^^ bit b i) := by
  rw [bit, byte_add, UInt8.toNat_xor, Nat.testBit_xor]
  rfl

/-- The number of bits set is odd. -/
def parity (a : Register) : Bool := (List.range 8).foldr (fun i odd => bit a i ^^ odd) false

theorem parity_add (a b : Register) : parity (a + b) = (parity a ^^ parity b) := by
  unfold parity
  induction List.range 8 with
  | nil => rfl
  | cons i bits ih =>
    rw [List.foldr_cons, List.foldr_cons, List.foldr_cons, ih, bit_add,
      Bool.xor_assoc, Bool.xor_assoc, Bool.xor_left_comm (bit b i)]

/-- What holds of the registers that hold `0` to `255` holds of each one. -/
theorem forall_of_lt {P : Register → Prop} (each : ∀ n < 256, P ⟨UInt8.ofNat n⟩) (a : Register) :
    P a := by
  have at_ := each a.byte.toNat a.byte.toNat_lt
  rwa [UInt8.ofNat_toNat] at at_

/-- The turn drops one bit and sets three, or none. -/
theorem parity_shift (a : Register) : parity (shift a) = parity a :=
  forall_of_lt (P := fun a => parity (shift a) = parity a) (by decide +kernel) a

/-- The register `01` does not come back before 127 turns. -/
theorem order_shift (k : ℕ) (pos : 0 < k) (lt : k < 127) : (shift ^ k) (unit 0) ≠ unit 0 := by
  have each : ∀ k < 127, 0 < k → shift^[k] (unit 0) ≠ unit 0 := by decide +kernel
  rw [AddMonoid.End.coe_pow]
  exact each k lt pos

end Register

open Register in
/-- The register of `calculateCrc`. -/
def crcRegister : ShiftRegister Register where
  width := 8
  shift := shift
  unit := unit
  bit := bit
  width_pos := by decide
  add_self a := congrArg Register.mk UInt8.xor_self
  shift_injective := by
    rw [injective_iff_map_eq_zero]
    exact forall_of_lt (P := fun a => shift a = 0 → a = 0) (by decide +kernel)
  shift_unit := by
    intro i lt
    have each : ∀ i < 7, shift (unit (i + 1)) = unit i := by decide
    exact each i (by omega)
  sum_bit := forall_of_lt (P := fun a => ∑ i ∈ Finset.range 8 with bit a i, unit i = a)
    (by decide +kernel)
  independent := by
    intro T within
    have each : ∀ T ∈ (Finset.range 8).powerset, ∑ i ∈ T, unit i = 0 → T = ∅ := by
      decide +kernel
    exact each T (Finset.mem_powerset.mpr within)

/-! ## The CRC of a message and its CRC -/

/-- A byte list as the register takes it. -/
def message (b : Bytes) : List Register := b.map Register.mk

/-- The register takes a byte as the byte loop of `calculateCrc` does. -/
theorem byte_feed (c a : Register) : (crcRegister.feed c a).byte = crcUpdate c.byte a.byte := by
  rw [crcUpdate, ← Register.byte_add, ← Register.byte_pow_shift]
  rfl

theorem byte_residue (c : Register) (data : Bytes) :
    (crcRegister.residue c (message data)).byte = data.foldl crcUpdate c.byte := by
  induction data generalizing c with
  | nil => rfl
  | cons byte data ih =>
    rw [message, List.map_cons, ShiftRegister.residue_cons, ← message, ih, byte_feed,
      List.foldl_cons]

/-- `calculateCrc` is what the register holds after the data. -/
theorem residue_message (data : Bytes) :
    crcRegister.residue ⟨0xFF⟩ (message data) = ⟨calculateCrc data⟩ :=
  congrArg Register.mk (byte_residue ⟨0xFF⟩ data)

/-- The data and a byte leave nothing exactly if the byte is the CRC of the data. -/
theorem residue_concat_eq_zero_iff {p : Bytes} {byte : UInt8} :
    crcRegister.residue ⟨0xFF⟩ (message (p ++ [byte])) = 0 ↔ byte = calculateCrc p := by
  rw [message, List.map_append, List.map_singleton, ShiftRegister.residue_concat,
    ShiftRegister.feed_eq_zero_iff, ← message, residue_message, Register.mk.injEq]

/-! ## Corruptions -/

/-- Bit `n` of a byte list: byte by byte, the least significant bit first. -/
def bitAt (b : Bytes) (n : ℕ) : Bool := (b.getD (n / 8) 0).toNat.testBit (n % 8)

/-- The bits in which two byte lists of one length differ. -/
def differingBits (b b' : Bytes) : Finset ℕ :=
  {n ∈ Finset.range (8 * b.length) | bitAt b n ≠ bitAt b' n}

/-- The byte by byte sum of two byte lists. -/
def errors (b b' : Bytes) : List Register := List.zipWith (· + ·) (message b) (message b')

section Corruption

variable {b b' : Bytes}

theorem length_message (b : Bytes) : (message b).length = b.length := List.length_map ..

theorem bit_message (b : Bytes) (n : ℕ) :
    Register.bit ((message b).getD (n / 8) 0) (n % 8) = bitAt b n := by
  have default : (0 : Register) = ⟨0⟩ := rfl
  rw [message, default, List.getD_map]
  rfl

/-- The bits of the sum are those in which the two differ. -/
theorem positions_errors (length : b'.length = b.length) :
    crcRegister.positions (errors b b') = differingBits b b' := by
  have same : (message b).length = (message b').length := by
    rw [length_message, length_message, length]
  have size : (errors b b').length = b.length := by
    rw [errors, List.length_zipWith, ← same, min_self, length_message]
  have bits : ∀ n, Register.bit ((errors b b').getD (n / 8) 0) (n % 8) =
      (bitAt b n ^^ bitAt b' n) := by
    intro n
    rw [errors, ShiftRegister.getD_zipWith_add same, Register.bit_add, bit_message, bit_message]
  ext n
  have bit := bits n
  simp only [ShiftRegister.positions, differingBits, size, Finset.mem_filter]
  refine and_congr_right fun _ => ?_
  change Register.bit ((errors b b').getD (n / 8) 0) (n % 8) = true ↔ _
  rw [bit]
  cases bitAt b n <;> cases bitAt b' n <;> decide

/-- Two messages leave the sum of what each one leaves. -/
theorem residue_errors (length : b'.length = b.length) :
    crcRegister.residue 0 (errors b b') =
      crcRegister.residue ⟨0xFF⟩ (message b) + crcRegister.residue ⟨0xFF⟩ (message b') := by
  have same : (message b).length = (message b').length := by
    rw [length_message, length_message, length]
  rw [errors, ← crcRegister.residue_add _ _ same, crcRegister.add_self]

/-- Two different bytes differ in one of their eight bits. -/
theorem exists_bit_ne {x y : UInt8} (ne : x ≠ y) :
    ∃ j < 8, x.toNat.testBit j ≠ y.toNat.testBit j := by
  by_contra agree
  refine ne (UInt8.toNat_inj.mp (Nat.eq_of_testBit_eq fun j => ?_))
  by_cases low : j < 8
  · by_contra differ
    exact agree ⟨j, low, differ⟩
  · have high : ∀ z : UInt8, z.toNat.testBit j = false := by
      intro z
      have le : 2 ^ 8 ≤ 2 ^ j := Nat.pow_le_pow_right (by decide) (Nat.le_of_not_lt low)
      exact Nat.testBit_lt_two_pow (Nat.lt_of_lt_of_le z.toNat_lt le)
    rw [high, high]

theorem differingBits_nonempty (length : b'.length = b.length) (ne : b' ≠ b) :
    (differingBits b b').Nonempty := by
  have index : ∃ i < b.length, b.getD i 0 ≠ b'.getD i 0 := by
    by_contra agree
    refine ne (List.ext_getElem length fun i lt' lt => ?_)
    by_contra differ
    refine agree ⟨i, lt, fun same => differ ?_⟩
    rw [List.getD_eq_getElem _ _ lt, List.getD_eq_getElem _ _ lt'] at same
    exact same.symm
  obtain ⟨i, lt, differ⟩ := index
  obtain ⟨j, low, bit⟩ := exists_bit_ne differ
  have div : (8 * i + j) / 8 = i := by omega
  have mod : (8 * i + j) % 8 = j := by omega
  refine ⟨8 * i + j, Finset.mem_filter.mpr ⟨Finset.mem_range.mpr (by omega), ?_⟩⟩
  rwa [bitAt, bitAt, div, mod]

/-- The changes that a CRC of eight bits is expected to notice: within eight consecutive
bits, an odd number of bits, or two bits fewer than 127 positions apart. -/
def Noticeable (bits : Finset ℕ) : Prop :=
  (∃ j, ∀ n ∈ bits, j ≤ n ∧ n < j + 8) ∨ Odd bits.card ∨
    ∃ m n, m < n ∧ n - m < 127 ∧ bits = {m, n}

/-- Such a change leaves something in the register. -/
theorem residue_errors_ne_zero (length : b'.length = b.length) (ne : b' ≠ b)
    (noticeable : Noticeable (differingBits b b')) : crcRegister.residue 0 (errors b b') ≠ 0 := by
  rw [← positions_errors length] at noticeable
  rcases noticeable with ⟨j, burst⟩ | odd | ⟨m, n, lt, near, pair⟩
  · have nonempty := differingBits_nonempty length ne
    rw [← positions_errors length] at nonempty
    exact ShiftRegister.residue_ne_zero_of_burst nonempty burst
  · exact ShiftRegister.residue_ne_zero_of_odd Register.parity_add (by decide)
      Register.parity_shift odd
  · exact ShiftRegister.residue_ne_zero_of_pair Register.order_shift pair lt near

end Corruption

/-! ## The decoder -/

/-- The closing flag of a frame whose body does not end in its CRC throws. -/
theorem strict_wrong_crc {frame : HdlcFrame} {p : Bytes} {byte : UInt8} (idle : frame.Idle)
    (nonempty : p ≠ []) (wrong : byte ≠ calculateCrc p) :
    ∃ opened, Feed.strict decodeByte frame (hdlcFlag :: encodeData (p ++ [byte])) =
        (opened, .ok ()) ∧ (decodeByte opened hdlcFlag).2 = .error .crcCheckFailed := by
  have read : hdlc.unstuff (encodeData (p ++ [byte])) = some (p ++ [byte]) := by
    rw [encodeData_eq_stuff, hdlc.unstuff_stuff]
  refine ⟨⟨p ++ [byte], true, false, -1⟩, ?_, ?_⟩
  · rw [Feed.strict_cons_of_ok (decodeByte_open_of_idle idle),
      strict_body_of_unstuff (flag_notMem_encodeData _) read, List.nil_append]
  · rw [decodeByte_close nonempty, if_neg wrong]

/-- **The CRC check detects every short or odd corruption.** A payload and its CRC,
changed in bits that the CRC is expected to notice, are refused at the closing flag. -/
theorem rejected_of_corrupted {p b : Bytes} {frame : HdlcFrame} (nonempty : p ≠ [])
    (length : b.length = (p ++ [calculateCrc p]).length) (changed : b ≠ p ++ [calculateCrc p])
    (noticeable : Noticeable (differingBits (p ++ [calculateCrc p]) b))
    (reachable : frame.Reachable) (closed : frame.decoding = false) :
    ∃ opened, Feed.strict decodeByte frame (hdlcFlag :: encodeData b) = (opened, .ok ()) ∧
      (decodeByte opened hdlcFlag).2 = .error .crcCheckFailed := by
  have left := residue_errors_ne_zero length changed noticeable
  rw [residue_errors length, residue_concat_eq_zero_iff.mpr rfl, zero_add] at left
  rcases List.eq_nil_or_concat b with empty | ⟨q, byte, ends⟩
  · rw [empty] at length
    simp at length
  · rw [List.concat_eq_append] at ends
    subst ends
    have long : q ≠ [] := by
      intro short
      rw [short, List.length_append, List.length_append] at length
      exact nonempty (List.length_eq_zero_iff.mp (by simpa using length.symm))
    exact strict_wrong_crc (reachable.idle closed) long fun crc =>
      left (residue_concat_eq_zero_iff.mpr crc)

/-- The frame of `01`, whose CRC is `6B`, with the lowest bit of the payload and the
highest bit of the CRC changed. -/
theorem rejected_of_corrupted_one :
    ∃ opened, Feed.strict decodeByte {} (hdlcFlag :: encodeData [0x00, 0xEB]) =
      (opened, .ok ()) ∧ (decodeByte opened hdlcFlag).2 = .error .crcCheckFailed := by
  have bits : differingBits ([0x01] ++ [calculateCrc [0x01]]) [0x00, 0xEB] = {0, 15} := by
    decide +kernel
  exact rejected_of_corrupted (List.cons_ne_nil _ _) rfl (by decide)
    (Or.inr (Or.inr ⟨0, 15, by decide, by decide, bits⟩)) .default rfl

end Iqrf.Connector.Uart
