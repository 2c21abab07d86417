import Mathlib.Algebra.Field.ZMod
import Mathlib.Data.Nat.Bitwise
import Mathlib.RingTheory.AdjoinRoot

/-!
# Bits as polynomials

A number read as a polynomial over the field of two elements, its bit `i` the coefficient of `X ^
i`. Exclusive or is addition and doubling is multiplication by `X`, so a shift register is
arithmetic in the quotient by its polynomial, and a register that is as wide as the polynomial's
degree holds the remainder (`eq_modByMonic`).

## Numbers on one side, polynomials on the other

A program works on numbers below a power of two, with shifts and exclusive or; the theory of cyclic
codes works in `(ZMod 2)[X]`. `ofNat` is the translation, and the lemmas are its homomorphism
properties: exclusive or to addition, doubling to multiplication by `X`, concatenation of bit fields
to a shifted sum, and the size of a number to the degree.

It is defined by its coefficients, as a sum over more powers than can matter, since that makes
`coeff_ofNat` the one lemma from which the others follow by comparing coefficients. It is
irreducible, so that nothing unfolds the sum by accident.

`eq_modByMonic` is about any polynomial ring. Two facts make a remainder, the degree and the class
in the quotient. A register gives the degree by its width, and the class is what an invariant of the
loop is about. So the division algorithm never has to be run or compared with.

Nothing is said about irreducible polynomials or about the order of `X`, which the quality of a code
depends on.
-/

open Polynomial

namespace BitPolynomial

/-- The polynomial whose coefficients are the bits of a number. -/
@[irreducible]
noncomputable def ofNat (n : ℕ) : (ZMod 2)[X] :=
  ∑ i ∈ Finset.range n, if n.testBit i then X ^ i else 0

/-- A coefficient is a bit. -/
theorem coeff_ofNat (n k : ℕ) : (ofNat n).coeff k = if n.testBit k then 1 else 0 := by
  have hterm : ∀ i, (if n.testBit i then X ^ i else 0 : (ZMod 2)[X]).coeff k =
      if k = i then if n.testBit k then 1 else 0 else 0 := by
    intro i
    by_cases hk : k = i
    · subst hk
      split <;> simp
    · rw [if_neg hk]
      split
      · rw [coeff_X_pow, if_neg hk]
      · exact coeff_zero k
  rw [ofNat, finsetSum_coeff, Finset.sum_congr rfl fun i _ ↦ hterm i, Finset.sum_ite_eq]
  -- no bit is set at a position that the number itself does not reach
  split_ifs with hrange hbit hbit
  · rfl
  · rfl
  · have hlow : k < n := lt_of_lt_of_le Nat.lt_two_pow_self (Nat.ge_two_pow_of_testBit hbit)
    exact absurd (Finset.mem_range.2 hlow) hrange
  · rfl

@[simp]
theorem ofNat_zero : ofNat 0 = 0 := by
  rw [ofNat, Finset.range_zero, Finset.sum_empty]

/-- **Exclusive or is addition.** -/
theorem ofNat_xor (m n : ℕ) : ofNat (m ^^^ n) = ofNat m + ofNat n := by
  have hbit : ∀ a b : Bool, (if a ^^ b then 1 else 0 : ZMod 2) =
      (if a then 1 else 0) + if b then 1 else 0 := by decide
  ext k
  rw [coeff_add, coeff_ofNat, coeff_ofNat, coeff_ofNat, Nat.testBit_xor, hbit]

/-- **Two numbers side by side**: the upper one is multiplied. -/
theorem ofNat_two_pow_mul_add (m : ℕ) {n k : ℕ} (h : n < 2 ^ k) :
    ofNat (2 ^ k * m + n) = X ^ k * ofNat m + ofNat n := by
  ext i
  rw [coeff_add, coeff_ofNat, coeff_ofNat, coeff_X_pow_mul', Nat.testBit_two_pow_mul_add m h]
  by_cases hi : i < k
  · rw [if_pos hi, if_neg (Nat.not_le.2 hi), zero_add]
  · have hout : n.testBit i = false :=
      Nat.testBit_lt_two_pow (lt_of_lt_of_le h (Nat.pow_le_pow_right (by decide) (Nat.not_lt.1 hi)))
    rw [if_neg hi, if_pos (Nat.not_lt.1 hi), hout, coeff_ofNat]
    simp

/-- **Doubling is multiplication by `X`.** -/
theorem ofNat_two_mul (n : ℕ) : ofNat (2 * n) = X * ofNat n := by
  have h := ofNat_two_pow_mul_add n (n := 0) (k := 1) (by decide)
  rwa [pow_one, pow_one, Nat.add_zero, ofNat_zero, add_zero] at h

theorem ofNat_two_pow (k : ℕ) : ofNat (2 ^ k) = X ^ k := by
  have hone : ofNat 1 = 1 := by simp [ofNat]
  have h := ofNat_two_pow_mul_add 1 (n := 0) (Nat.two_pow_pos k)
  rwa [Nat.mul_one, Nat.add_zero, ofNat_zero, add_zero, hone, mul_one] at h

theorem degree_ofNat_lt {n k : ℕ} (h : n < 2 ^ k) : (ofNat n).degree < k := by
  rw [degree_lt_iff_coeff_zero]
  intro i hi
  have hout : n.testBit i = false :=
    Nat.testBit_lt_two_pow (lt_of_lt_of_le h (Nat.pow_le_pow_right (by decide) hi))
  rw [coeff_ofNat, hout]
  rfl

/-- **A register holds the remainder**: a polynomial of low degree that agrees with another one in
the quotient is what division leaves of it. -/
theorem eq_modByMonic {R : Type*} [CommRing R] [Nontrivial R] {g p q : R[X]} (hg : g.Monic)
    (hdegree : p.degree < g.degree) (h : AdjoinRoot.mk g p = AdjoinRoot.mk g q) : p = q %ₘ g := by
  rw [← modByMonic_eq_of_dvd_sub hg (AdjoinRoot.mk_eq_mk.1 h)]
  exact ((modByMonic_eq_self_iff hg).2 hdegree).symm

end BitPolynomial
