import Iqrf.Connector.Uart.Crc
import Iqrf.Lib.PolynomialRemainder
import Mathlib

/-!
# The CRC as a remainder

A byte of the CRC register is read with its least significant bit as the coefficient
of `x^7`. So read, a turn of the bit loop multiplies by `x` modulo `x^8 + x^5 + x^4 + 1`
(`reflected_crcShift`): the shift to the right drops the coefficient of `x^7`, and `0x8C`
is what is left of the divisor without its highest term.
-/

namespace Iqrf.Connector.Uart

open HdlcFrame Polynomial PolynomialRemainder

/-- The bits of a byte, the least significant one first. -/
def bits (byte : UInt8) : List (ZMod 2) :=
  (List.range 8).map fun i => if byte.toNat.testBit i then 1 else 0

/-- A byte with its least significant bit as the coefficient of `x^7`. -/
noncomputable def reflected (byte : UInt8) : (ZMod 2)[X] :=
  ∑ i ∈ Finset.range 8, if byte.toNat.testBit i then X ^ (7 - i) else 0

/-- The divisor `x^8 + x^5 + x^4 + 1`. -/
noncomputable def crcPolynomial : (ZMod 2)[X] := X ^ 8 + X ^ 5 + X ^ 4 + 1

/-- The polynomial whose coefficients from the highest degree down are the bits of the
data, byte by byte and in each byte the least significant bit first. -/
noncomputable def messagePolynomial (data : Bytes) : (ZMod 2)[X] :=
  ofCoeffs (data.flatMap bits)

/-- The polynomial of degree 7 with all coefficients one. -/
noncomputable def initialPolynomial : (ZMod 2)[X] := ∑ i ∈ Finset.range 8, X ^ i

/-! ## Bytes as polynomials -/

theorem length_bits (byte : UInt8) : (bits byte).length = 8 := by
  rw [bits, List.length_map, List.length_range]

theorem reflected_eq_ofCoeffs (byte : UInt8) : reflected byte = ofCoeffs (bits byte) := by
  simp [reflected, bits, List.range_succ, Finset.sum_range_succ]
  ring

theorem bits_xor (a b : UInt8) : bits (a ^^^ b) = List.zipWith (· + ·) (bits a) (bits b) := by
  unfold bits
  rw [List.zipWith_map_left, List.zipWith_map_right, List.zipWith_self]
  refine List.map_congr_left fun i _ => ?_
  rw [UInt8.toNat_xor, Nat.testBit_xor]
  cases a.toNat.testBit i <;> cases b.toNat.testBit i <;> decide

theorem reflected_xor (a b : UInt8) : reflected (a ^^^ b) = reflected a + reflected b := by
  have same : (bits a).length = (bits b).length := by rw [length_bits, length_bits]
  rw [reflected_eq_ofCoeffs, bits_xor, ofCoeffs_zipWith_add same, reflected_eq_ofCoeffs,
    reflected_eq_ofCoeffs]

theorem degree_reflected_lt (byte : UInt8) : (reflected byte).degree < 8 := by
  have bound := degree_ofCoeffs_lt (bits byte)
  rw [length_bits] at bound
  rw [reflected_eq_ofCoeffs]
  exact bound

/-- The shift drops the coefficient of `x^7` and multiplies the rest by `x`. -/
theorem reflected_shiftRight (a : UInt8) :
    reflected (a >>> 1) + (if a.toNat.testBit 0 then X ^ 8 else 0) = X * reflected a := by
  have next : ∀ i, (a >>> 1).toNat.testBit i = a.toNat.testBit (i + 1) := by
    intro i
    rw [UInt8.toNat_shiftRight, Nat.add_comm]
    exact Nat.testBit_shiftRight ..
  have top : a.toNat.testBit 8 = false := Nat.testBit_lt_two_pow a.toNat_lt
  have times : ∀ i < 8, X * (if a.toNat.testBit i then X ^ (7 - i) else 0 : (ZMod 2)[X]) =
      if a.toNat.testBit i then X ^ (8 - i) else 0 := by
    intro i lt
    rw [mul_ite, mul_zero, ← pow_succ', show 7 - i + 1 = 8 - i by omega]
  have product : X * reflected a =
      ∑ i ∈ Finset.range 8, if a.toNat.testBit i then (X : (ZMod 2)[X]) ^ (8 - i) else 0 := by
    rw [reflected, Finset.mul_sum]
    exact Finset.sum_congr rfl fun i member => times i (Finset.mem_range.mp member)
  rw [product, Finset.sum_range_succ', reflected, Finset.sum_range_succ]
  simp only [next, top, Bool.false_eq_true, if_false, add_zero, Nat.sub_zero]
  congr 1

theorem reflected_0x8C : reflected 0x8C = X ^ 5 + X ^ 4 + 1 := by
  have constant : bits 0x8C = [0, 0, 1, 1, 0, 0, 0, 1] := by decide
  rw [reflected_eq_ofCoeffs, constant]
  simp [add_assoc]

theorem degree_crcPolynomial : crcPolynomial.degree = 8 := by
  unfold crcPolynomial
  compute_degree!

theorem monic_crcPolynomial : crcPolynomial.Monic := by
  unfold crcPolynomial
  monicity!

/-- One turn of the bit loop. -/
theorem reflected_crcShift (a : UInt8) :
    reflected (crcShift a) = (X * reflected a) %ₘ crcPolynomial := by
  have two : (2 : (ZMod 2)[X]) = 0 := CharTwo.two_eq_zero
  have zero : reflected 0 = 0 := by simp [reflected]
  have divided : reflected (crcShift a) +
      crcPolynomial * (if a.toNat.testBit 0 then 1 else 0) = X * reflected a := by
    rw [← reflected_shiftRight, crcShift_eq, reflected_xor, crcPolynomial]
    by_cases low : a.toNat.testBit 0
    · rw [if_pos low, if_pos low, if_pos low, reflected_0x8C]
      linear_combination (X ^ 5 + X ^ 4 + 1) * two
    · rw [if_neg low, if_neg low, if_neg low, zero]
      ring
  have small : (reflected (crcShift a)).degree < crcPolynomial.degree := by
    rw [degree_crcPolynomial]
    exact degree_reflected_lt (crcShift a)
  exact (div_modByMonic_unique _ _ monic_crcPolynomial ⟨divided, small⟩).2.symm

theorem crcDivider : Divider crcPolynomial reflected crcShift where
  monic := monic_crcPolynomial
  reduced a := by
    rw [degree_crcPolynomial]
    exact degree_reflected_lt a
  turn := reflected_crcShift

theorem reflected_0xFF : reflected 0xFF = initialPolynomial := by
  have constant : bits 0xFF = [1, 1, 1, 1, 1, 1, 1, 1] := by decide
  rw [reflected_eq_ofCoeffs, constant, initialPolynomial]
  simp [Finset.sum_range_succ]
  ring

/-- **`calculateCrc` is polynomial division.** -/
theorem calculateCrc_eq_remainder (data : Bytes) :
    reflected (calculateCrc data) =
      (messagePolynomial data * X ^ 8 + initialPolynomial * X ^ (8 * data.length)) %ₘ
        crcPolynomial := by
  have updated (crc byte : UInt8) : reflected (crcUpdate crc byte) =
      (X ^ 8 * (reflected crc + ofCoeffs (bits byte))) %ₘ crcPolynomial := by
    rw [crcUpdate, crcDivider.iterate, reflected_xor, reflected_eq_ofCoeffs byte]
  rw [calculateCrc, crcDivider.foldl length_bits updated, reflected_0xFF, messagePolynomial]

end Iqrf.Connector.Uart
