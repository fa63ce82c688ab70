import ColumnStore.DecimalExactness
import Mathlib.Tactic.LinearCombination

/-!
# Comparison of decimals

Model of `Decimal::compare`, `decimalComp` and `cmpOperatorTemplate` with the operators made from
it. Decimals of the same scale are compared by their integers. Otherwise the integral parts are
compared, and if these are the same, the remainders after division, of which one is brought to the
larger scale. For decimals within their precision nothing wraps around, and the operators are those
of the rational numbers.
-/

namespace DecimalComparison

open DecimalArithmetic CheckedWords

/-- The functors that the operators pass, for words of both sizes. -/
inductive Op where
  | equalTo | greater | greaterEqual

def Op.apply {α : Type} [LinearOrder α] : Op → α → α → Bool
  | .equalTo, a, b => decide (a = b)
  | .greater, a, b => decide (a > b)
  | .greaterEqual, a, b => decide (a ≥ b)

def order (a b : Int) : Int := if a > b then 1 else if a < b then -1 else 0

/-- The body of `decimalComp` and `compare`, for words of `bits` bits. Division cuts off, and a
remainder has the sign of the value. -/
def compareParts (bits : Nat) (power : Nat → Except Stop Int) (l r : Int) (lScale rScale : Nat) :
    Except Stop Int := do
  let divisorL ← power lScale
  let divisorR ← power rScale
  if l.tdiv divisorL ≠ r.tdiv divisorR then
    return order (l.tdiv divisorL) (r.tdiv divisorR)
  else if lScale < rScale then
    let divisor ← power (rScale - lScale)
    return order ((l.tmod divisorL * divisor).bmod (2 ^ bits)) (r.tmod divisorR)
  else
    let divisor ← power (lScale - rScale)
    return order (l.tmod divisorL) ((r.tmod divisorR * divisor).bmod (2 ^ bits))

def decimalComp (l r : Decimal) : Except Stop Int :=
  compareParts 64 (fun n => (readTable mcsPow10 n).map fun power => (BitVec.ofNat 64 power).toInt)
    l.value.toInt r.value.toInt l.scale r.scale

/-- `Decimal::compare`, for decimals of which a narrow one has been widened. -/
def compare (l r : Decimal) : Except Stop Int :=
  compareParts 128 (fun n => (getScaleDivisor (BitVec.ofNat 8 n)).map BitVec.toInt)
    l.integer r.integer l.scale r.scale

def cmpOperatorTemplate (op : Op) (l r : Decimal) : Except Stop Bool :=
  if 18 < l.precision ∨ 18 < r.precision then
    if l.scale = r.scale then .ok (op.apply l.integer r.integer)
    else (compare l r).map (op.apply · 0)
  else if l.scale = r.scale then .ok (op.apply l.value.toInt r.value.toInt)
  else (decimalComp l r).map (op.apply · 0)

def eq (l r : Decimal) : Except Stop Bool := cmpOperatorTemplate .equalTo l r

def gt (l r : Decimal) : Except Stop Bool := cmpOperatorTemplate .greater l r

def ge (l r : Decimal) : Except Stop Bool := cmpOperatorTemplate .greaterEqual l r

def lt (l r : Decimal) : Except Stop Bool := (ge l r).map (!·)

def le (l r : Decimal) : Except Stop Bool := (gt l r).map (!·)

def ne (l r : Decimal) : Except Stop Bool := (eq l r).map (!·)

/-- The number that a decimal stands for. -/
def toRat (d : Decimal) : ℚ := d.integer / 10 ^ d.scale

lemma Op.apply_congr {α β : Type} [LinearOrder α] [LinearOrder β] (op : Op) {a b : α} {x y : β}
    (lt : a < b ↔ x < y) (gt : b < a ↔ y < x) : op.apply a b = op.apply x y := by
  cases op <;> simp [apply, le_antisymm_iff, ← not_lt, lt, gt]

lemma Op.apply_order (op : Op) (a b : Int) : op.apply (order a b) 0 = op.apply a b := by
  refine op.apply_congr ?_ ?_ <;> (unfold order; split_ifs <;> omega)

lemma order_congr {a b x y : Int} (lt : a < b ↔ x < y) (gt : b < a ↔ y < x) :
    order a b = order x y := by
  simp only [order, gt_iff_lt, lt, gt]

lemma order_of_sub {a b x y k : Int} (positive : 0 < k) (difference : x - y = k * (a - b)) :
    order a b = order x y := by
  refine order_congr ⟨fun less => ?_, fun less => ?_⟩ ⟨fun less => ?_, fun less => ?_⟩ <;> nlinarith

variable {bits p : Nat} {power : Nat → Except Stop Int} {l r : Int} {m n : Nat}

/-- Integral parts that differ are ordered as the numbers. -/
lemma order_tdiv (differ : l.tdiv (10 ^ m) ≠ r.tdiv (10 ^ n)) :
    order (l.tdiv (10 ^ m)) (r.tdiv (10 ^ n)) = order (l * 10 ^ n) (r * 10 ^ m) := by
  have powers (k : Nat) : (0 : Int) < 10 ^ k := by positivity
  have left : (l * 10 ^ n).tdiv (10 ^ m * 10 ^ n) = l.tdiv (10 ^ m) :=
    Int.mul_tdiv_mul_of_pos_left _ _ (powers n)
  have right : (r * 10 ^ m).tdiv (10 ^ m * 10 ^ n) = r.tdiv (10 ^ n) := by
    rw [mul_comm (10 ^ m) (10 ^ n), Int.mul_tdiv_mul_of_pos_left _ _ (powers m)]
  rw [← left, ← right] at differ ⊢
  have mono {x y : Int} (le : x ≤ y) : x.tdiv (10 ^ m * 10 ^ n) ≤ y.tdiv (10 ^ m * 10 ^ n) :=
    Int.tdiv_le_tdiv (mul_pos (powers m) (powers n)) le
  refine order_congr ⟨fun less => ?_, fun less => ?_⟩ ⟨fun less => ?_, fun less => ?_⟩
  · exact lt_of_not_ge fun ge => less.not_ge (mono ge)
  · exact (mono less.le).lt_of_ne differ
  · exact lt_of_not_ge fun ge => less.not_ge (mono ge)
  · exact (mono less.le).lt_of_ne differ.symm

lemma pow_split (le : m ≤ n) : (10 : Int) ^ n = 10 ^ m * 10 ^ (n - m) := by
  rw [← pow_add, Nat.add_sub_of_le le]

/-- With the same integral part the remainders decide. -/
lemma sub_eq_of_tdiv_eq (le : m ≤ n) (same : l.tdiv (10 ^ m) = r.tdiv (10 ^ n)) :
    l * 10 ^ n - r * 10 ^ m =
      10 ^ m * (l.tmod (10 ^ m) * 10 ^ (n - m) - r.tmod (10 ^ n)) := by
  have partsL := Int.tdiv_mul_add_tmod l (10 ^ m)
  have partsR := Int.tdiv_mul_add_tmod r (10 ^ n)
  rw [← same] at partsR
  linear_combination (-(10 ^ n)) * partsL + 10 ^ m * partsR + l.tmod (10 ^ m) * pow_split le

section Words

variable (wide : 0 < bits) (small : (10 : Int) ^ p < 2 ^ (bits - 1))

include wide small

/-- A remainder that is brought to a larger scale fits. -/
lemma bmod_rem (le : m ≤ n) (inside : n ≤ p) :
    (l.tmod (10 ^ m) * 10 ^ (n - m)).bmod (2 ^ bits) = l.tmod (10 ^ m) * 10 ^ (n - m) := by
  have high := Int.tmod_lt_of_pos l (show (0 : Int) < 10 ^ m by positivity)
  have low := Int.lt_tmod_of_pos l (show (0 : Int) < 10 ^ m by positivity)
  have factor : (0 : Int) < 10 ^ (n - m) := by positivity
  have most : (10 : Int) ^ n ≤ 10 ^ p := pow_le_pow_right₀ (by decide) inside
  rw [pow_split le] at most
  exact bmod_of_fits wide ⟨by nlinarith, by nlinarith⟩

lemma compareParts_eq (table : ∀ k ≤ p, power k = .ok (10 ^ k)) (lScale : m ≤ p)
    (rScale : n ≤ p) :
    compareParts bits power l r m n = .ok (order (l * 10 ^ n) (r * 10 ^ m)) := by
  simp only [compareParts, table m lScale, table n rScale, bind, Except.bind, pure, Except.pure]
  split_ifs with differ less
  · rw [order_tdiv differ]
  · rw [table _ (by omega)]
    simp only [bmod_rem wide small less.le rScale]
    rw [order_of_sub (by positivity) (sub_eq_of_tdiv_eq less.le (not_not.mp differ))]
  rw [not_lt] at less
  have difference := sub_eq_of_tdiv_eq less (not_not.mp differ).symm
  rw [table _ (by omega)]
  simp only [bmod_rem wide small less lScale]
  exact congrArg _ (order_of_sub (k := 10 ^ n) (by positivity) (by linarith))

end Words

lemma lt_toRat_iff (l r : Decimal) :
    l.integer * 10 ^ r.scale < r.integer * 10 ^ l.scale ↔ toRat l < toRat r := by
  rw [toRat, toRat, div_lt_div_iff₀ (by positivity) (by positivity)]
  exact_mod_cast Iff.rfl

lemma cmpOperatorTemplate_exact (op : Op) {l r : Decimal} (lScale : l.scale ≤ l.precision)
    (rScale : r.scale ≤ r.precision) :
    cmpOperatorTemplate op l r = .ok (op.apply (toRat l) (toRat r)) := by
  have exact : op.apply (l.integer * 10 ^ r.scale) (r.integer * 10 ^ l.scale) =
      op.apply (toRat l) (toRat r) := op.apply_congr (lt_toRat_iff l r) (lt_toRat_iff r l)
  have same (equal : l.scale = r.scale) :
      op.apply l.integer r.integer = op.apply (toRat l) (toRat r) := by
    rw [← exact, equal]
    exact op.apply_congr (by simp) (by simp)
  unfold cmpOperatorTemplate
  by_cases wide : 18 < l.precision ∨ 18 < r.precision
  · rw [if_pos wide]
    split_ifs with equal
    · rw [same equal]
    rw [compare, compareParts_eq (p := 38) (by decide) (by decide) _ l.scale_le r.scale_le]
    · simp [Except.map, Op.apply_order, exact]
    · intro k inside
      rw [getScaleDivisor_eq inside, Except.map, factor128 inside, factor, if_neg (by simp)]
  have narrow (d : Decimal) (few : d.precision ≤ 18) : d.value.toInt = d.integer := by
    rw [Decimal.integer, isWideDecimalTypeByPrecision, if_neg (by simp; omega)]
  rw [if_neg wide, decimalComp, narrow l (by omega), narrow r (by omega)]
  split_ifs with equal
  · rw [same equal]
  rw [compareParts_eq (p := 18) (by decide) (by decide) _ (by omega) (by omega)]
  · simp [Except.map, Op.apply_order, exact]
  · intro k inside
    rw [readTable_eq, if_pos (by omega), Except.map, factor64 (by omega), factor,
      if_neg (by omega)]

/-- The operators are those of the rational numbers, whatever the integers. -/
theorem operators_exact (l r : Decimal) (lScale : l.scale ≤ l.precision)
    (rScale : r.scale ≤ r.precision) :
    eq l r = .ok (decide (toRat l = toRat r)) ∧ ne l r = .ok (decide (toRat l ≠ toRat r)) ∧
      lt l r = .ok (decide (toRat l < toRat r)) ∧ le l r = .ok (decide (toRat l ≤ toRat r)) ∧
      gt l r = .ok (decide (toRat l > toRat r)) ∧ ge l r = .ok (decide (toRat l ≥ toRat r)) := by
  simp only [eq, ne, lt, le, gt, ge, cmpOperatorTemplate_exact _ lScale rScale, Except.map,
    Op.apply, ← decide_not, ge_iff_le, gt_iff_lt, not_le, not_lt, and_self]

/-- 0.5 in 64 bits and 0.50 in 128 bits. -/
theorem operators_exact_half :
    let half : Decimal := ⟨5, 0, 1, 18, by decide, by decide⟩
    let wideHalf : Decimal := ⟨0, 50, 2, 19, by decide, by decide⟩
    ge half wideHalf = .ok (decide (toRat half ≥ toRat wideHalf)) :=
  (operators_exact _ _ (by decide) (by decide)).2.2.2.2.2

end DecimalComparison
