import Mathlib.Tactic.Linarith

/-!
# Words and the numbers they stand for

Two's complement words of `w` bits with wrap-around, and the numbers that fit in one. A sum, a
difference or a product of words is the one of their numbers when that fits. Whether a product
has wrapped around can be seen from the product itself by dividing it back, except that the least
number times minus one is divided back to the least number.
-/

namespace CheckedWords

open BitVec Int Nat

variable {w : Nat}

/-- The number can be stored in a word. -/
def Fits (w : Nat) (z : Int) : Prop := -2 ^ (w - 1) ≤ z ∧ z < 2 ^ (w - 1)
  deriving Decidable

lemma two_pow_pred (positive : 0 < w) : (2 : Int) ^ w = 2 * 2 ^ (w - 1) := by
  obtain ⟨n, rfl⟩ := exists_eq_succ_of_ne_zero (pos_iff_ne_zero.mp positive)
  rw [Nat.succ_eq_add_one, Nat.add_sub_cancel, pow_succ, mul_comm]

lemma fits_toInt (positive : 0 < w) (x : BitVec w) : Fits w x.toInt := by
  have low := le_two_mul_toInt (x := x)
  have high := two_mul_toInt_lt (x := x)
  have double := two_pow_pred positive
  constructor <;> omega

lemma fits_zero (w : Nat) : Fits w 0 := by
  have positive : (0 : Int) < 2 ^ (w - 1) := by positivity
  exact ⟨by omega, positive⟩

lemma bmod_of_fits (positive : 0 < w) {z : Int} (fits : Fits w z) : z.bmod (2 ^ w) = z := by
  have double := two_pow_pred positive
  obtain ⟨low, high⟩ := fits
  refine bmod_eq_of_le ?_ ?_ <;> push_cast <;> omega

section Operations

variable (positive : 0 < w) (x y : BitVec w)

include positive

lemma toInt_mul_of_fits (fits : Fits w (x.toInt * y.toInt)) :
    (x * y).toInt = x.toInt * y.toInt := by
  rw [toInt_mul, bmod_of_fits positive fits]

end Operations

def LeastByMinusOne (w : Nat) (a b : Int) : Prop := a = -2 ^ (w - 1) ∧ b = -1
  deriving Decidable

lemma bmod_half (positive : 0 < w) : (2 ^ (w - 1) : Int).bmod (2 ^ w) = -2 ^ (w - 1) := by
  have double := two_pow_pred positive
  have half : (0 : Int) < 2 ^ (w - 1) := by positivity
  rw [bmod_def]
  push_cast
  rw [emod_eq_of_lt (by omega) (by omega)]
  omega

lemma tdiv_eq_half {z y : Int} (fits : Fits w z) (top : z.tdiv y = 2 ^ (w - 1)) :
    z = -2 ^ (w - 1) ∧ y = -1 := by
  obtain ⟨low, high⟩ := fits
  generalize (2 : Int) ^ (w - 1) = h at *
  have size : z.natAbs / y.natAbs = h.natAbs := by
    rw [← top]
    exact (natAbs_tdiv z y).symm
  have whole : z.natAbs / y.natAbs ≤ z.natAbs := div_le_self ..
  have least : z = -h := by omega
  subst least
  have unit : y.natAbs = 1 := by
    rw [natAbs_neg] at size
    have one := (div_eq_self).mp size
    omega
  rcases natAbs_eq y with isPositive | isNegative
  · rw [isPositive, unit] at top
    simp at top
    omega
  · rw [isNegative, unit]
    exact ⟨rfl, rfl⟩

lemma sdiv_mul_eq_iff (positive : 0 < w) (x y : BitVec w) (nonzero : y.toInt ≠ 0) :
    (x * y).sdiv y = x ↔
      Fits w (x.toInt * y.toInt) ∨ LeastByMinusOne w x.toInt y.toInt := by
  have double := two_pow_pred positive
  have fitsX := fits_toInt positive x
  have fitsY := fits_toInt positive y
  have fitsZ := fits_toInt positive (x * y)
  rw [← toInt_inj, toInt_sdiv]
  constructor
  · intro back
    by_cases top : (x * y).toInt.tdiv y.toInt = 2 ^ (w - 1)
    · obtain ⟨-, minusOne⟩ := tdiv_eq_half fitsZ top
      rw [top, bmod_half positive] at back
      exact .inr ⟨back.symm, minusOne⟩
    have smaller : ((x * y).toInt.tdiv y.toInt).natAbs ≤ (x * y).toInt.natAbs := by
      rw [natAbs_tdiv]
      exact div_le_self ..
    have fitsQ : Fits w ((x * y).toInt.tdiv y.toInt) := by
      obtain ⟨low, high⟩ := fitsZ
      constructor <;> omega
    rw [bmod_of_fits positive fitsQ] at back
    have rest := mul_tdiv_add_tmod (x * y).toInt y.toInt
    have small : ((x * y).toInt.tmod y.toInt).natAbs < y.toInt.natAbs := by
      rw [natAbs_tmod]
      exact mod_lt _ (by omega)
    have wraps : ((2 ^ w : Nat) : Int) ∣ (x * y).toInt - x.toInt * y.toInt := by
      rw [toInt_mul]
      exact dvd_bmod_sub_self
    rw [back, mul_comm] at rest
    -- the product differs by less than a whole turn, so it has not wrapped around
    have same := eq_zero_of_abs_lt_dvd wraps (by
      push_cast
      rw [abs_eq_natAbs]
      obtain ⟨low, high⟩ := fitsY
      omega)
    left
    rwa [← sub_eq_zero.mp same]
  rintro (fits | ⟨least, minusOne⟩)
  · rw [toInt_mul_of_fits positive x y fits, mul_tdiv_cancel _ nonzero,
      bmod_of_fits positive fitsX]
  · rw [toInt_mul, minusOne]
    simp

end CheckedWords
