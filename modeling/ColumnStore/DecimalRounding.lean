import ColumnStore.DecimalExactness
import Mathlib.Algebra.Order.Ring.Abs
import Mathlib.Data.BitVec
import Mathlib.Tactic.Ring

/-!
# Multiplication with fewer digits

When the scale of the result is smaller than the sum of the scales of the factors, the digits to
be dropped are divided among the factors. `multiplicationExecute` rounds each factor before it
forms the product, so a factor that loses half a unit changes the result by half of the other
factor. The product stays within a unit as long as what each factor has beyond a multiple of its
divisor is small against the other factor. The quotients are read as exact numbers, without the
error of `float128_t`.
-/

namespace DecimalArithmetic

open CheckedWords
open BitVec (ofNat toInt)

/-- `v / m` with half a unit more, or less if it is not positive, cut off to an integer. -/
def nearest (v m : Int) : Int :=
  if 0 < v then (2 * v + m).tdiv (2 * m) else (2 * v - m).tdiv (2 * m)

def exactQuotients : RoundedQuotients where
  quotient64 v m := BitVec.ofInt 64 (nearest v.toInt m)
  quotient128 v m := BitVec.ofInt 128 (nearest v.toInt m.toInt)

/-- How far `v` is from a multiple of `m`. -/
def off (v m : Int) : Int := min (v % m) (m - v % m)

/-- The digits dropped from a product, and the powers of ten that the factors are divided by. -/
def dropped (l r result : Decimal) : Nat := l.scale + r.scale - result.scale

def divisorL (l r result : Decimal) : Int := 10 ^ (dropped l r result / 2)

def divisorR (l r result : Decimal) : Int :=
  10 ^ (dropped l r result - dropped l r result / 2)

/-- An overflow, or a number that differs by at most one from the product without the digits. -/
def WithinUnit (l r result : Decimal) : Except Stop Int → Prop
  | .ok z =>
    |z * 10 ^ dropped l r result - l.integer * r.integer| ≤ 10 ^ dropped l r result
  | .error stop => stop = .overflow

/-- A factor is zero, or the second one is at least half its divisor, the first one is not the least
number, and what they are off a multiple of their divisors, times the other factor, is together not
more than a unit. -/
def Accurate (l r result : Decimal) : Prop :=
  let a := divisorL l r result
  let b := divisorR l r result
  l.integer = 0 ∨ r.integer = 0 ∨
    b ≤ 2 * |r.integer| ∧ l.integer ≠ -2 ^ 127 ∧
    off l.integer a * |r.integer| + off r.integer b * (|l.integer| + off l.integer a) ≤ a * b

variable {v m : Int}

lemma nearest_sign (v : Int) (positive : 0 < m) :
    (0 < v → 0 ≤ nearest v m) ∧ (v ≤ 0 → nearest v m ≤ 0) := by
  unfold nearest
  split
  case isTrue isPositive =>
    have nonneg := Int.tdiv_nonneg (by omega : 0 ≤ 2 * v + m) (by omega : 0 ≤ 2 * m)
    omega
  case isFalse =>
    have nonneg := Int.tdiv_nonneg (by omega : 0 ≤ m - 2 * v) (by omega : 0 ≤ 2 * m)
    rw [← Int.neg_sub, Int.neg_tdiv]
    omega

lemma natAbs_nearest (v : Int) (positive : 0 < m) :
    (nearest v m).natAbs = (2 * v.natAbs + m.natAbs) / (2 * m.natAbs) := by
  unfold nearest
  split <;> refine (Int.natAbs_tdiv ..).trans (congrArg₂ Nat.div ?_ ?_) <;> omega

lemma nearest_eq_zero_iff (positive : 0 < m) : nearest v m = 0 ↔ ¬ m ≤ 2 * |v| := by
  rw [← Int.natAbs_eq_zero, natAbs_nearest v positive, Nat.div_eq_zero_iff_lt (by omega),
    Int.abs_eq_natAbs]
  omega

lemma natAbs_nearest_le (v : Int) (positive : 0 < m) : (nearest v m).natAbs ≤ v.natAbs := by
  have divisor : 0 < m.natAbs := Int.natAbs_pos.mpr positive.ne'
  have grows := Nat.le_mul_of_pos_right v.natAbs divisor
  rw [natAbs_nearest v positive, ← Nat.lt_add_one_iff, Nat.div_lt_iff_lt_mul (by omega)]
  nlinarith

lemma fits_nearest (positive : 0 < m) (fits : Fits 128 v) : Fits 128 (nearest v m) := by
  have smaller := natAbs_nearest_le v positive
  have sign := nearest_sign v positive
  obtain ⟨low, high⟩ := fits
  constructor <;> omega

lemma two_mul_abs_sub_nearest_le (v : Int) (positive : 0 < m) : 2 * |v - m * nearest v m| ≤ m := by
  obtain ⟨M, rfl⟩ := Int.eq_ofNat_of_zero_le positive.le
  have size := natAbs_nearest v positive
  have rest := Nat.mod_lt (2 * v.natAbs + M) (by omega : 0 < 2 * M)
  have parts := Nat.div_add_mod (2 * v.natAbs + M) (2 * M)
  rw [Int.natAbs_natCast] at size
  rw [← size, Nat.mul_assoc] at parts
  have sign := nearest_sign v positive
  rw [Int.abs_eq_natAbs]
  generalize nearest v M = n at *
  rcases lt_or_ge 0 v with isPositive | notPositive
  · have multiple : (M : Int) * n = M * n.natAbs := congrArg _ (by omega)
    omega
  · have multiple : (M : Int) * n = M * -n.natAbs := congrArg _ (by omega)
    rw [mul_neg] at multiple
    omega

/-- Rounding changes a number by what it is off. -/
lemma abs_sub_nearest (v : Int) (positive : 0 < m) : |v - m * nearest v m| = off v m := by
  have half := two_mul_abs_sub_nearest_le v positive
  have same : (v - m * nearest v m) % m = v % m := Int.sub_mul_emod_self_left ..
  generalize v - m * nearest v m = rest at *
  rw [off, ← same]
  rcases le_or_gt 0 rest with nonneg | negative
  · rw [abs_of_nonneg nonneg] at half ⊢
    rw [Int.emod_eq_of_lt nonneg (by omega)]
    omega
  · rw [abs_of_neg negative] at half ⊢
    rw [← Int.add_emod_right, Int.emod_eq_of_lt (by omega) (by omega)]
    omega

/-- A multiple is not changed. -/
lemma mul_nearest_of_dvd (positive : 0 < m) (multiple : m ∣ v) :
    m * nearest v m = v ∧ off v m = 0 := by
  obtain ⟨k, rfl⟩ := multiple
  have exact : off (m * k) m = 0 := by simp [off, positive.le]
  have difference := abs_sub_nearest (m * k) positive
  rw [exact, abs_eq_zero] at difference
  exact ⟨by omega, exact⟩

/-- Rounded factors have a product that can be stored if the factors have. -/
lemma fits_nearest_mul_nearest {x y a b : Int} (positiveA : 0 < a) (positiveB : 0 < b)
    (stored : |x * y| < 2 ^ 127) : Fits Storage.int128.bits (nearest x a * nearest y b) := by
  have size := Nat.mul_le_mul (natAbs_nearest_le x positiveA) (natAbs_nearest_le y positiveB)
  rw [← Int.natAbs_mul, ← Int.natAbs_mul] at size
  rw [Int.abs_eq_natAbs] at stored
  constructor <;> simp only [Storage.bits] <;> omega

variable {l r result : Decimal}

lemma divisors (l r result : Decimal) : 0 < divisorL l r result ∧ 0 < divisorR l r result ∧
    divisorL l r result * divisorR l r result = 10 ^ dropped l r result := by
  refine ⟨by unfold divisorL; positivity, by unfold divisorR; positivity, ?_⟩
  rw [divisorL, divisorR, ← pow_add]
  congr 1
  omega

/-- A factor divided by a power of ten of the table. -/
lemma quotient128_toInt (d : Decimal) {n : Nat} (inside : n ≤ 38) :
    (exactQuotients.quotient128 (wideValue d) (ofNat 128 (10 ^ n))).toInt =
      nearest d.integer (10 ^ n) := by
  have power : (ofNat 128 (10 ^ n)).toInt = 10 ^ n := factor128 inside
  have fits : Fits 128 (nearest d.integer (10 ^ n)) :=
    fits_nearest (by positivity) (fits_operand .int128 d)
  simp only [exactQuotients, power, wideValue_toInt]
  exact BitVec.toInt_ofInt_eq_self (by decide) fits.1 fits.2

/-- The function on numbers. -/
lemma multiplication128_dropping (fewer : result.scale < l.scale + r.scale) :
    (multiplication128 exactQuotients l r result).map toInt =
      if l.integer = 0 ∨ r.integer = 0 then .ok 0
      else if nearest r.integer (divisorR l r result) = 0 then .error .divisionByZero
      else productPassed .int128 (nearest l.integer (divisorL l r result))
        (nearest r.integer (divisorR l r result)) := by
  have isZero : ∀ d, wideValue d = 0 ↔ d.integer = 0 := fun d => by
    rw [← wideValue_toInt, ← BitVec.toInt_inj]
    rfl
  have scales := And.intro l.scale_le r.scale_le
  have insideL : dropped l r result / 2 ≤ 38 := by unfold dropped; omega
  have insideR : dropped l r result - dropped l r result / 2 ≤ 38 := by unfold dropped; omega
  have quotientL := quotient128_toInt l insideL
  have quotientR := quotient128_toInt r insideR
  simp only [multiplication128, isZero, if_neg (Nat.not_le.mpr fewer)]
  split
  · rfl
  rw [← dropped, getScaleDivisor_eq insideL, getScaleDivisor_eq insideR]
  unfold divisorL divisorR
  rw [← quotientL, ← quotientR]
  split
  case isTrue zero =>
    have noFactor := BitVec.eq_of_toInt_eq (zero.trans BitVec.toInt_zero.symm)
    simp only [bind, Except.bind, noFactor]
    rfl
  case isFalse nonzero => exact multiplication_numbers (T := .int128) rfl _ _ nonzero

/-- A product of rounded factors differs from the exact one by what the first is off, times the
second, and what the second is off, times the rounded first. -/
lemma rounded_sub (x y a b : Int) :
    nearest x a * nearest y b * (a * b) - x * y =
      -((x - a * nearest x a) * y + (y - b * nearest y b) * (a * nearest x a)) := by
  ring

lemma abs_rounded_sub_le (x y : Int) {a b : Int} (positiveA : 0 < a) (positiveB : 0 < b) :
    |nearest x a * nearest y b * (a * b) - x * y| ≤ off x a * |y| + off y b * (|x| + off x a) := by
  have rounded : |a * nearest x a| ≤ |x| + off x a := by
    rw [← abs_sub_nearest x positiveA]
    simpa using abs_sub x (x - a * nearest x a)
  have nonneg := abs_nonneg (y - b * nearest y b)
  rw [rounded_sub, abs_neg, ← abs_sub_nearest y positiveB, ← abs_sub_nearest x positiveA] at *
  refine (abs_add_le ..).trans ?_
  rw [abs_mul, abs_mul]
  exact Int.add_le_add_left (mul_le_mul_of_nonneg_left rounded nonneg) _

/-- Rounding makes no least number. -/
lemma not_leastByMinusOne_nearest (notLeast : l.integer ≠ -2 ^ 127) (positive : 0 < m) (y : Int) :
    ¬ LeastByMinusOne Storage.int128.bits (nearest l.integer m) y := by
  rintro ⟨least, -⟩
  have smaller := natAbs_nearest_le l.integer positive
  obtain ⟨low, high⟩ := fits_operand .int128 l
  simp only [operand, Storage.bits] at low high least
  omega

/-- With fewer digits than the factors have, a product of accurate factors is refused or differs by
at most one from the exact one. If the second factor loses nothing and the integers have a product
that can be stored, this holds for no others. -/
theorem multiplication128_withinUnit (fewer : result.scale < l.scale + r.scale) :
    (Accurate l r result →
      WithinUnit l r result ((multiplication128 exactQuotients l r result).map BitVec.toInt)) ∧
    (divisorR l r result ∣ r.integer → |l.integer * r.integer| < 2 ^ 127 →
      WithinUnit l r result ((multiplication128 exactQuotients l r result).map BitVec.toInt) →
        Accurate l r result) := by
  obtain ⟨positiveL, positiveR, product⟩ := divisors l r result
  have bound := abs_rounded_sub_le l.integer r.integer positiveL positiveR
  rw [multiplication128_dropping fewer]
  simp only [Accurate]
  rw [← or_assoc]
  by_cases zero : l.integer = 0 ∨ r.integer = 0
  · have isProduct : l.integer * r.integer = 0 := by
      rcases zero with isZero | isZero <;> simp [isZero]
    simp [zero, WithinUnit, isProduct]
  simp only [if_neg zero, or_iff_right zero, nearest_eq_zero_iff positiveR]
  constructor
  · rintro ⟨large, notLeast, small⟩
    rw [if_neg (not_not_intro large), productPassed,
      if_neg (not_leastByMinusOne_nearest notLeast positiveL _), fitted]
    split
    · exact (product ▸ bound).trans (product ▸ small)
    · rfl
  intro multiple stored within
  obtain ⟨nonzeroL, nonzeroR⟩ := not_or.mp zero
  obtain ⟨quotient, exact⟩ := mul_nearest_of_dvd positiveR multiple
  have large : divisorR l r result ≤ 2 * |r.integer| := by
    have whole := Int.le_of_dvd (abs_pos.mpr nonzeroR) ((dvd_abs ..).mpr multiple)
    omega
  have sizeL : |l.integer| ≤ |l.integer * r.integer| := by
    rw [abs_mul]
    exact le_mul_of_one_le_right (abs_nonneg _) (Int.one_le_abs nonzeroR)
  have notLeast : l.integer ≠ -2 ^ 127 := by
    intro least
    have small := sizeL.trans_lt stored
    rw [least] at small
    exact absurd small (by decide)
  have fits := fits_nearest_mul_nearest positiveL positiveR stored
  rw [if_neg (not_not_intro large), productPassed,
    if_neg (not_leastByMinusOne_nearest notLeast positiveL _), fitted, if_pos fits,
    WithinUnit, ← product, rounded_sub, quotient, sub_self, zero_mul, add_zero, abs_neg, abs_mul,
    abs_sub_nearest _ positiveL] at within
  exact ⟨large, notLeast, by rw [exact, zero_mul, add_zero]; exact within⟩

/-- `12.5 * 2.0` with one digit. -/
theorem multiplication128_withinUnit_tenths :
    let tenths := fun v => wideDecimal v 1 (by decide)
    WithinUnit (tenths 125) (tenths 20) (tenths 0)
      ((multiplication128 exactQuotients (tenths 125) (tenths 20) (tenths 0)).map
        toInt) := by
  exact (multiplication128_withinUnit (by decide)).1 (.inr (.inr (by decide)))

/-- The factors 0.4 and 10^29 with a digit each, without digits: 0. The factors 10 and 0.4:
a division by zero. The least number and -1, with one digit and without: the least number. -/
theorem multiplication128_not_withinUnit :
    let tenths := fun v => wideDecimal v 1 (by decide)
    let whole := wideDecimal 0 0 (by decide)
    (multiplication128 exactQuotients (tenths 4) (tenths (10 ^ 30)) whole).map toInt =
      .ok 0 ∧
    (multiplication128 exactQuotients (tenths 100) (tenths 4) whole).map toInt =
      .error .divisionByZero ∧
    (multiplication128 exactQuotients (wideDecimal (BitVec.intMin 128) 0 (by decide)) (tenths (-10))
      whole).map toInt = .ok (-2 ^ 127) ∧
    ¬ WithinUnit (tenths 4) (tenths (10 ^ 30)) whole (.ok 0) := by
  simp [WithinUnit]
  decide

end DecimalArithmetic
