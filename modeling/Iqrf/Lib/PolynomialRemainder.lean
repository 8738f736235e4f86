import Mathlib.Algebra.Polynomial.Div
import Mathlib.Data.List.GetD

/-!
# Remainders by a shift register

`ofCoeffs` reads a list of coefficients from the highest degree down. A register whose
turn multiplies its polynomial by `X` modulo a monic one (`Divider`) computes
remainders: `Divider.iterate` for some turns, `Divider.foldl` for a message that is taken
symbol by symbol, each added to the register before the turns for its digits.
-/

namespace PolynomialRemainder

open Polynomial

variable {R : Type*} [CommRing R]

/-- The polynomial with the given coefficients, the one of the highest degree first. -/
noncomputable def ofCoeffs : List R → R[X]
  | [] => 0
  | c :: cs => C c * X ^ cs.length + ofCoeffs cs

@[simp] theorem ofCoeffs_nil : ofCoeffs ([] : List R) = 0 := rfl

@[simp] theorem ofCoeffs_cons (c : R) (cs : List R) :
    ofCoeffs (c :: cs) = C c * X ^ cs.length + ofCoeffs cs := rfl

theorem ofCoeffs_append (cs ds : List R) :
    ofCoeffs (cs ++ ds) = ofCoeffs cs * X ^ ds.length + ofCoeffs ds := by
  induction cs with
  | nil => rw [List.nil_append, ofCoeffs_nil, zero_mul, zero_add]
  | cons c cs ih =>
    rw [List.cons_append, ofCoeffs_cons, ofCoeffs_cons, ih, List.length_append, pow_add]
    ring

/-- Coefficient `k` stands in place `k` from the end. -/
theorem coeff_ofCoeffs (cs : List R) (k : ℕ) : (ofCoeffs cs).coeff k = cs.reverse.getD k 0 := by
  induction cs with
  | nil => rw [ofCoeffs_nil, coeff_zero, List.reverse_nil, List.getD_nil]
  | cons c cs ih =>
    rw [ofCoeffs_cons, coeff_add, coeff_C_mul_X_pow, ih, List.reverse_cons]
    rcases Nat.lt_trichotomy k cs.length with inside | last | outside
    · have within : k < cs.reverse.length := by rwa [List.length_reverse]
      rw [if_neg inside.ne, zero_add, List.getD_append _ _ _ _ within]
    · subst last
      have past : cs.reverse.length ≤ cs.length := by rw [List.length_reverse]
      rw [if_pos rfl, List.getD_eq_default _ _ past, add_zero,
        List.getD_append_right _ _ _ _ past, List.length_reverse, Nat.sub_self]
      rfl
    · have past : cs.reverse.length ≤ k := by rw [List.length_reverse]; omega
      have pastLast : (cs.reverse ++ [c]).length ≤ k := by
        rw [List.length_append, List.length_reverse, List.length_singleton]
        omega
      rw [if_neg outside.ne', zero_add, List.getD_eq_default _ _ past,
        List.getD_eq_default _ _ pastLast]

theorem degree_ofCoeffs_lt (cs : List R) : (ofCoeffs cs).degree < cs.length := by
  refine (degree_lt_iff_coeff_zero _ _).mpr fun k past => ?_
  rw [coeff_ofCoeffs, List.getD_eq_default]
  rwa [List.length_reverse]

/-- Coefficients are added place by place. -/
theorem ofCoeffs_zipWith_add {cs ds : List R} (same : cs.length = ds.length) :
    ofCoeffs (List.zipWith (· + ·) cs ds) = ofCoeffs cs + ofCoeffs ds := by
  induction cs generalizing ds with
  | nil =>
    rw [List.length_nil, eq_comm, List.length_eq_zero_iff] at same
    rw [same, List.zipWith_nil_left, ofCoeffs_nil, add_zero]
  | cons c cs ih =>
    cases ds with
    | nil => cases same
    | cons d ds =>
      have rest := Nat.succ.inj same
      have length : (List.zipWith (· + ·) cs ds).length = ds.length := by
        rw [List.length_zipWith, rest, Nat.min_self]
      rw [List.zipWith_cons_cons, ofCoeffs_cons, ofCoeffs_cons, ofCoeffs_cons, ih rest, length,
        rest, C_add]
      ring

/-- A factor may be reduced before it is multiplied. -/
theorem mul_modByMonic_add {G : R[X]} (monic : G.Monic) (p q r : R[X]) :
    (p * (q %ₘ G) + r) %ₘ G = (p * q + r) %ₘ G := by
  refine modByMonic_eq_of_dvd_sub monic ?_
  have difference : p * (q %ₘ G) + r - (p * q + r) = p * (q %ₘ G - q) := by ring
  rw [difference]
  exact Dvd.dvd.mul_left (dvd_modByMonic_sub q G) p

/-- A register, read as a polynomial, one turn of which multiplies by `X` modulo `G`. -/
structure Divider {A : Type*} (G : R[X]) (poly : A → R[X]) (shift : A → A) : Prop where
  monic : G.Monic
  reduced : ∀ a, (poly a).degree < G.degree
  turn : ∀ a, poly (shift a) = (X * poly a) %ₘ G

namespace Divider

variable {A S : Type*} {G : R[X]} {poly : A → R[X]} {shift : A → A} (divider : Divider G poly shift)
include divider

theorem modByMonic_poly [Nontrivial R] (a : A) : poly a %ₘ G = poly a :=
  (modByMonic_eq_self_iff divider.monic).mpr (divider.reduced a)

theorem iterate [Nontrivial R] (k : ℕ) (a : A) : poly (shift^[k] a) = (X ^ k * poly a) %ₘ G := by
  induction k with
  | zero =>
    rw [Function.iterate_zero_apply, pow_zero, one_mul, divider.modByMonic_poly]
  | succ k ih =>
    have reduce := mul_modByMonic_add divider.monic X (X ^ k * poly a) 0
    rw [add_zero, add_zero] at reduce
    rw [Function.iterate_succ_apply', divider.turn, ih, reduce, pow_succ', mul_assoc]

/-- What the register holds after a message, of which each symbol has `width` digits. -/
theorem foldl [Nontrivial R] {update : A → S → A} {digits : S → List R} {width : ℕ}
    (length : ∀ s, (digits s).length = width)
    (updated : ∀ a s, poly (update a s) = (X ^ width * (poly a + ofCoeffs (digits s))) %ₘ G)
    (message : List S) (a : A) :
    poly (message.foldl update a) =
      (ofCoeffs (message.flatMap digits) * X ^ width + poly a * X ^ (width * message.length)) %ₘ
        G := by
  induction message generalizing a with
  | nil =>
    rw [List.foldl_nil, List.flatMap_nil, ofCoeffs_nil, List.length_nil, Nat.mul_zero, pow_zero,
      zero_mul, zero_add, mul_one, divider.modByMonic_poly]
  | cons s message ih =>
    have rest : (message.flatMap digits).length = width * message.length := by
      rw [List.length_flatMap]
      simp only [length, List.map_const', List.sum_replicate, smul_eq_mul, Nat.mul_comm]
    rw [List.foldl_cons, ih, updated, List.flatMap_cons, ofCoeffs_append, rest, List.length_cons,
      add_comm, mul_comm (_ %ₘ G), mul_modByMonic_add divider.monic, Nat.mul_succ, pow_add]
    congr 1
    ring

end Divider

end PolynomialRemainder
