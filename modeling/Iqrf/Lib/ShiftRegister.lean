import Mathlib.Algebra.BigOperators.Group.Finset.Basic
import Mathlib.Algebra.Ring.Parity

/-!
# Checksums by a linear shift register

A register takes a symbol by adding it and shifting once for each of its bits.
The shift is additive, so the residue of a message is a sum with one term for
each bit set in it (`residue_eq_sum`), and the residues of two messages add up to
the residue of their sum (`residue_add`): which changes of a message a register
notices depends on the bits changed and on nothing else.

* `residue_ne_zero_of_burst`: all changed bits within the width of the register,
  because the shift loses nothing;
* `residue_ne_zero_of_odd`: an odd number of changed bits, if the shift keeps a
  parity;
* `residue_ne_zero_of_pair`: two changed bits that are closer than the period of
  the shift.
-/

/-- A register of `width` bits over symbols of as many bits. The symbol that is taken
bit by bit, lowest first, is the sum of its unit symbols. -/
structure ShiftRegister (A : Type*) [AddCommGroup A] where
  width : ℕ
  shift : AddMonoid.End A
  unit : ℕ → A
  bit : A → ℕ → Bool
  width_pos : 0 < width
  add_self : ∀ a : A, a + a = 0
  shift_injective : Function.Injective shift
  shift_unit : ∀ i, i + 1 < width → shift (unit (i + 1)) = unit i
  sum_bit : ∀ a, ∑ i ∈ Finset.range width with bit a i, unit i = a
  independent : ∀ T ⊆ Finset.range width, ∑ i ∈ T, unit i = 0 → T = ∅

namespace ShiftRegister

open Finset

variable {A : Type*} [AddCommGroup A] (R : ShiftRegister A)

/-- Take one symbol. -/
def feed (c a : A) : A := (R.shift ^ R.width) (c + a)

/-- What is in the register after a message. -/
def residue (c : A) (m : List A) : A := m.foldl R.feed c

/-- The bits set in a message, numbered symbol by symbol. -/
def positions (m : List A) : Finset ℕ :=
  {n ∈ range (R.width * m.length) | R.bit (m.getD (n / R.width) 0) (n % R.width)}

@[simp] theorem residue_nil (c : A) : R.residue c [] = c := rfl

@[simp] theorem residue_cons (c a : A) (m : List A) :
    R.residue c (a :: m) = R.residue (R.feed c a) m := rfl

theorem residue_concat (c a : A) (m : List A) :
    R.residue c (m ++ [a]) = R.feed (R.residue c m) a := by
  rw [residue, List.foldl_append]
  rfl

theorem pow_shift_injective (k : ℕ) : Function.Injective (R.shift ^ k) := by
  rw [AddMonoid.End.coe_pow]
  exact R.shift_injective.iterate k

theorem pow_shift_eq_zero_iff {k : ℕ} {a : A} : (R.shift ^ k) a = 0 ↔ a = 0 :=
  map_eq_zero_iff _ (R.pow_shift_injective k)

theorem pow_shift_add (j k : ℕ) (a : A) :
    (R.shift ^ (j + k)) a = (R.shift ^ j) ((R.shift ^ k) a) := by
  rw [pow_add]
  rfl

/-- A symbol taken into an equal register leaves nothing, any other leaves something. -/
theorem feed_eq_zero_iff {c a : A} : R.feed c a = 0 ↔ a = c := by
  rw [feed, pow_shift_eq_zero_iff]
  apply Iff.intro
  · intro cancel
    have both := cancel.trans (R.add_self c).symm
    exact add_left_cancel both
  · intro same
    rw [same, R.add_self]

/-! ## Linearity -/

/-- The residue of a sum is the sum of the residues. -/
theorem residue_add (c c' : A) {m m' : List A} (length : m.length = m'.length) :
    R.residue (c + c') (List.zipWith (· + ·) m m') = R.residue c m + R.residue c' m' := by
  induction m generalizing c c' m' with
  | nil =>
    obtain rfl : m' = [] := List.length_eq_zero_iff.mp length.symm
    rfl
  | cons a m ih =>
    obtain ⟨a', m', rfl⟩ := List.exists_of_length_succ m' length.symm
    have step : R.feed (c + c') (a + a') = R.feed c a + R.feed c' a' := by
      rw [feed, feed, feed, ← map_add, add_add_add_comm]
    rw [List.zipWith_cons_cons, residue_cons, residue_cons, residue_cons, step,
      ih _ _ (Nat.succ.inj length)]

omit R in
/-- The symbols of a sum, with zeros after the end. -/
theorem getD_zipWith_add {m m' : List A} (length : m.length = m'.length) (i : ℕ) :
    (List.zipWith (· + ·) m m').getD i 0 = m.getD i 0 + m'.getD i 0 := by
  induction m generalizing m' i with
  | nil =>
    obtain rfl : m' = [] := List.length_eq_zero_iff.mp length.symm
    simp
  | cons a m ih =>
    obtain ⟨a', m', rfl⟩ := List.exists_of_length_succ m' length.symm
    cases i with
    | zero => rfl
    | succ i => exact ih (Nat.succ.inj length) i

/-- A unit symbol reaches the lowest bit after as many shifts as its number. -/
theorem pow_shift_unit {i k : ℕ} (lt : i < R.width) (le : i ≤ k) :
    (R.shift ^ k) (R.unit i) = (R.shift ^ (k - i)) (R.unit 0) := by
  induction i generalizing k with
  | zero => rfl
  | succ i ih =>
    obtain ⟨k, rfl⟩ := Nat.exists_eq_add_of_le' le
    rw [← Nat.add_assoc, pow_shift_add, pow_one, R.shift_unit i lt,
      ih (Nat.lt_of_succ_lt lt) (Nat.le_add_left i k)]
    congr 2
    omega

/-- The bits of a message are those of its first symbol and, later, those of the rest. -/
theorem sum_positions_cons (a : A) (m : List A) (f : ℕ → A) :
    ∑ n ∈ R.positions (a :: m), f n =
      (∑ i ∈ range R.width with R.bit a i, f i) + ∑ n ∈ R.positions m, f (R.width + n) := by
  have width : R.width * (a :: m).length = R.width + R.width * m.length := by
    rw [List.length_cons, Nat.mul_succ, Nat.add_comm]
  rw [positions, positions, sum_filter, sum_filter, sum_filter, width, sum_range_add]
  congr 1
  · refine sum_congr rfl fun i member => ?_
    rw [Nat.div_eq_of_lt (mem_range.mp member), Nat.mod_eq_of_lt (mem_range.mp member),
      List.getD_cons_zero]
  · refine sum_congr rfl fun n _ => ?_
    rw [Nat.add_div_left _ R.width_pos, Nat.add_mod_left, List.getD_cons_succ]

/-- **One term for each bit set.** A bit is shifted as often as there are bits from
it to the end of the message. -/
theorem residue_eq_sum (c : A) (m : List A) :
    R.residue c m = (R.shift ^ (R.width * m.length)) c +
      ∑ n ∈ R.positions m, (R.shift ^ (R.width * m.length - n)) (R.unit 0) := by
  induction m generalizing c with
  | nil => simp [positions]
  | cons a m ih =>
    have width : R.width * (a :: m).length = R.width * m.length + R.width := by
      rw [List.length_cons, Nat.mul_succ]
    have first : (R.shift ^ (R.width * m.length + R.width)) a =
        ∑ i ∈ range R.width with R.bit a i,
          (R.shift ^ (R.width * m.length + R.width - i)) (R.unit 0) := by
      conv_lhs => rw [← R.sum_bit a, map_sum]
      refine sum_congr rfl fun i member => ?_
      have lt := mem_range.mp (mem_filter.mp member).1
      exact R.pow_shift_unit lt (by omega)
    have later : ∀ n, R.width * m.length + R.width - (R.width + n) = R.width * m.length - n := by
      intro n
      omega
    rw [residue_cons, ih, feed, ← pow_shift_add, map_add, sum_positions_cons, width, first,
      add_assoc]
    simp only [later]

/-! ## What a register notices -/

section Detection

variable {R} {e : List A}

theorem lt_of_mem_positions {n : ℕ} (member : n ∈ R.positions e) : n < R.width * e.length :=
  mem_range.mp (mem_filter.mp member).1

theorem residue_zero_eq_sum (e : List A) :
    R.residue 0 e = ∑ n ∈ R.positions e, (R.shift ^ (R.width * e.length - n)) (R.unit 0) := by
  rw [residue_eq_sum, map_zero, zero_add]

/-- Bits within the width of the register cannot cancel. -/
theorem residue_ne_zero_of_burst {j : ℕ} (nonempty : (R.positions e).Nonempty)
    (burst : ∀ n ∈ R.positions e, j ≤ n ∧ n < j + R.width) : R.residue 0 e ≠ 0 := by
  intro cancel
  -- shifted past the burst, the residue is what the burst alone would leave
  have moved : (R.shift ^ (j + R.width)) (R.residue 0 e) =
      (R.shift ^ (R.width * e.length)) ((R.shift ^ R.width)
        (∑ n ∈ R.positions e, R.unit (n - j))) := by
    rw [residue_zero_eq_sum, map_sum, map_sum, map_sum]
    refine sum_congr rfl fun n member => ?_
    have inside := burst n member
    have bound := lt_of_mem_positions member
    have below : n - j < R.width := by omega
    rw [R.pow_shift_unit below below.le, ← pow_shift_add, ← pow_shift_add]
    congr 2
    omega
  rw [cancel, map_zero, eq_comm, pow_shift_eq_zero_iff, pow_shift_eq_zero_iff] at moved
  have separate : Set.InjOn (· - j) (R.positions e : Set ℕ) := by
    intro n member n' member' same
    have inside := burst n member
    have inside' := burst n' member'
    dsimp only at same
    omega
  rw [← sum_image (f := R.unit) separate] at moved
  have within : (R.positions e).image (· - j) ⊆ range R.width := by
    intro i shifted
    obtain ⟨n, member, rfl⟩ := mem_image.mp shifted
    have inside := burst n member
    exact mem_range.mpr (by omega)
  have none_ := R.independent _ within moved
  exact nonempty.ne_empty (image_eq_empty.mp none_)

omit R in
/-- A parity tells whether the number of terms is odd. -/
theorem parity_sum_iff {parity : A → Bool} (add : ∀ a b, parity (a + b) = (parity a ^^ parity b))
    {f : ℕ → A} {s : Finset ℕ} (one : ∀ n ∈ s, parity (f n) = true) :
    parity (∑ n ∈ s, f n) = true ↔ Odd s.card := by
  induction s using Finset.cons_induction with
  | empty =>
    have zero : parity 0 = false := by
      rw [← add_zero (0 : A), add, Bool.xor_self]
    rw [sum_empty, zero, card_empty]
    decide
  | cons n s outside ih =>
    rw [sum_cons, add, one n (mem_cons_self n s), card_cons, Nat.odd_add_one,
      ← ih fun m member => one m (mem_cons_of_mem member), Bool.true_xor, Bool.not_eq_true',
      Bool.not_eq_true]

/-- An odd number of bits cannot cancel where the shift keeps a parity. -/
theorem residue_ne_zero_of_odd {parity : A → Bool}
    (add : ∀ a b, parity (a + b) = (parity a ^^ parity b)) (one : parity (R.unit 0) = true)
    (keeps : ∀ a, parity (R.shift a) = parity a) (odd : Odd (R.positions e).card) :
    R.residue 0 e ≠ 0 := by
  intro cancel
  have keeps_pow : ∀ k a, parity ((R.shift ^ k) a) = parity a := by
    intro k a
    induction k with
    | zero => rfl
    | succ k ih =>
      rw [Nat.add_comm, pow_shift_add, pow_one, keeps, ih]
  have count := (parity_sum_iff add (s := R.positions e)
    (fun n _ => (keeps_pow (R.width * e.length - n) (R.unit 0)).trans one)).mpr odd
  rw [← residue_zero_eq_sum, cancel, ← add_zero (0 : A), add, Bool.xor_self] at count
  cases count

/-- Two bits cancel only at a multiple of the period. -/
theorem residue_ne_zero_of_pair {m n period : ℕ}
    (order : ∀ k, 0 < k → k < period → (R.shift ^ k) (R.unit 0) ≠ R.unit 0)
    (pair : R.positions e = {m, n}) (lt : m < n) (near : n - m < period) :
    R.residue 0 e ≠ 0 := by
  intro cancel
  have bound : n < R.width * e.length :=
    lt_of_mem_positions (by rw [pair]; exact mem_insert_of_mem (mem_singleton_self n))
  have apart : R.width * e.length - m = (R.width * e.length - n) + (n - m) := by omega
  rw [residue_zero_eq_sum, pair, sum_pair lt.ne, apart, pow_shift_add, ← map_add,
    pow_shift_eq_zero_iff] at cancel
  have same := add_right_cancel (cancel.trans (R.add_self (R.unit 0)).symm)
  exact order (n - m) (by omega) near same

end Detection

end ShiftRegister
