import ColumnStore.NumberReading

/-!
# Rounding of literals

A literal that `number_int_value` accepts should be stored as its value times the scale of the
column, rounded half away from zero and limited to the column's range, with a warning exactly if
that changes it, and without an operation that wraps. This module says for which literals this is
so. It is not for those that round to minus one: the sign is taken from the integer part, which is
zero. It is not where the integer part is at the end of the range of the type, or beyond it for
128 bits, and not for a long fraction in 128 bits.
-/

namespace NumberConversion

open DecimalText IntType ColumnTypes Int

lemma true_eq_or_decide {b : Bool} {p : Prop} [Decidable p] (holds : p) :
    true = (b || decide p) := by
  simp [holds]

/-- One check against a range, where the upper end need not be checked if it is not exceeded. -/
lemma Converted.limit_eq (c : Converted) {low top : Int} {high : Option Int} (order : low ≤ top)
    (isTop : high = some top ∨ high = none ∧ c.intVal ≤ top) :
    (c.limit low high).intVal = max low (min top c.intVal) ∧
      (c.limit low high).pushwarning =
        (c.pushwarning || decide ((c.limit low high).intVal ≠ c.intVal)) ∧
      (c.limit low high).wrapped = c.wrapped := by
  by_cases below : c.intVal < low
  · unfold Converted.limit
    simp only [if_pos below]
    exact ⟨by omega, true_eq_or_decide (by omega), trivial⟩
  unfold Converted.limit
  simp only [if_neg below]
  rcases isTop with rfl | ⟨rfl, inside⟩
  · by_cases above : c.intVal > top
    · simp only [if_pos above]
      exact ⟨by omega, true_eq_or_decide (by omega), trivial⟩
    · simp only [if_neg above]
      exact ⟨by omega, by simp, trivial⟩
  · simp only
    exact ⟨by omega, by simp, trivial⟩

/-- A signed integer or DECIMAL column. -/
structure Target where
  typeCode : ColDataType
  ct : TypeAttributes
  listed : typeCode ∈ [.tinyint, .smallint, .medint, .int, .bigint, .decimal, .udecimal]
  widths : typeCode = .decimal ∨ typeCode = .udecimal → ct.colWidth ∈ [1, 2, 4, 8, 16]

namespace Target

/-- The integer type that the callers take for a column. -/
def intType (t : Target) : IntType :=
  if (t.typeCode = .decimal ∨ t.typeCode = .udecimal) ∧ t.ct.colWidth = 16 then .int128 else .int64

def checksPrecision (t : Target) : Prop :=
  t.typeCode = .decimal ∨ t.typeCode = .udecimal ∨ t.ct.scale > 0

instance (t : Target) : Decidable t.checksPrecision := instDecidableOr

/-- The number of digits, if it is checked. -/
def precision (t : Target) : Int :=
  if t.ct.precision = magicPrecisionForCountAgg then 38 else t.ct.precision

def typeRange (t : Target) : Int × Int :=
  match typeLimits t.typeCode t.ct.colWidth with
  | some (low, high) => (low, high.getD t.intType.max)
  | none => (0, 0)

def lowest (t : Target) : Int :=
  if t.checksPrecision then max t.typeRange.1 (-(10 ^ t.precision.toNat - 1)) else t.typeRange.1

def highest (t : Target) : Int :=
  if t.checksPrecision then min t.typeRange.2 (10 ^ t.precision.toNat - 1) else t.typeRange.2

/-- A number limited to the range of the column. -/
def limit (t : Target) (n : Int) : Int := max t.lowest (min t.highest n)

/-- What is to be stored for a number. -/
def stored (t : Target) (x : ℚ) : Int := t.limit (roundAway x)

variable (t : Target)

lemma typeLimits_eq : ∃ low high, typeLimits t.typeCode t.ct.colWidth = some (low, high) ∧
    t.typeRange = (low, high.getD t.intType.max) ∧ t.intType.min ≤ low ∧ low < 0 ∧
    0 < high.getD t.intType.max ∧ high.getD t.intType.max ≤ t.intType.max := by
  have known : ∃ low high, typeLimits t.typeCode t.ct.colWidth = some (low, high) ∧
      t.intType.min ≤ low ∧ low < 0 ∧ 0 < high.getD t.intType.max ∧
      high.getD t.intType.max ≤ t.intType.max := by
    have listed := t.listed
    have widths := t.widths
    simp only [List.mem_cons, List.not_mem_nil, or_false] at listed widths
    rw [intType]
    rcases listed with code | code | code | code | code | code | code <;> rw [code] at widths ⊢
    iterate 5
      · simp only [reduceCtorEq, or_self, false_and]
        exact ⟨_, _, rfl, by decide⟩
    · rcases widths (.inl rfl) with width | width | width | width | width <;> rw [width] <;>
        exact ⟨_, _, rfl, by decide⟩
    · rcases widths (.inr rfl) with width | width | width | width | width <;> rw [width] <;>
        exact ⟨_, _, rfl, by decide⟩
  obtain ⟨low, high, limits, bounds⟩ := known
  exact ⟨low, high, limits, by rw [typeRange, limits], bounds⟩

/-- A precision that is checked in 64 bits has at most 18 digits. A column of more digits is
16 bytes wide. -/
def Narrow : Prop :=
  t.checksPrecision → ¬((t.typeCode = .decimal ∨ t.typeCode = .udecimal) ∧ t.ct.colWidth = 16) →
    t.ct.precision ≤ 18

/-- The precision is one that the code accepts. -/
def Accepts : Prop := t.checksPrecision → 0 ≤ t.precision ∧ t.precision ≤ 38

variable {t}

lemma decimalRangeUp_eq (narrow : t.Narrow) (accepts : t.Accepts) (checks : t.checksPrecision) :
    decimalRangeUp t.intType t.precision = 10 ^ t.precision.toNat - 1 ∧
      0 ≤ (10 : Int) ^ t.precision.toNat - 1 ∧
      (10 : Int) ^ t.precision.toNat - 1 ≤ t.intType.max ∧
      t.intType.min ≤ -((10 : Int) ^ t.precision.toNat - 1) := by
  obtain ⟨-, high⟩ := accepts checks
  have positive : (1 : Int) ≤ 10 ^ t.precision.toNat := one_le_pow₀ (by norm_num)
  have bounds : (10 : Int) ^ t.precision.toNat - 1 ≤ t.intType.max ∧
      t.intType.min ≤ -((10 : Int) ^ t.precision.toNat - 1) := by
    by_cases wide : (t.typeCode = .decimal ∨ t.typeCode = .udecimal) ∧ t.ct.colWidth = 16
    · have limit : (10 : Int) ^ t.precision.toNat ≤ 10 ^ 38 :=
        pow_le_pow_right₀ (by norm_num) (by omega)
      rw [intType, if_pos wide, max_eq.2, min_eq.2]
      omega
    have short := narrow checks wide
    have plain : t.precision = t.ct.precision := by
      rw [precision, magicPrecisionForCountAgg, if_neg (by omega)]
    have limit : (10 : Int) ^ t.precision.toNat ≤ 10 ^ 18 :=
      pow_le_pow_right₀ (by norm_num) (by omega)
    rw [intType, if_neg wide, max_eq.1, min_eq.1]
    omega
  have low : t.intType.min ≤ (10 : Int) ^ t.precision.toNat - 1 := by omega
  exact ⟨wrap_eq low bounds.1, by omega, bounds.1, bounds.2⟩

lemma range_bounds (narrow : t.Narrow) (accepts : t.Accepts) :
    t.intType.min ≤ t.lowest ∧ t.lowest ≤ 0 ∧ 0 ≤ t.highest ∧
      t.highest ≤ t.intType.max ∧ (t.highest = 0 → t.lowest = 0) := by
  obtain ⟨low, high, -, range, lowMin, negative, positive, highMax⟩ := t.typeLimits_eq
  by_cases checks : t.checksPrecision
  · obtain ⟨-, digits, -, -⟩ := decimalRangeUp_eq narrow accepts checks
    rw [lowest, highest, if_pos checks, if_pos checks, range]
    simp only
    omega
  · rw [lowest, highest, if_neg checks, if_neg checks, range]
    simp only
    omega

lemma limits_eq_ok {c r : Converted} (narrow : t.Narrow) (high : c.intVal ≤ t.intType.max)
    (done : limitPrecision t.intType t.typeCode t.ct
      (match typeLimits t.typeCode t.ct.colWidth with
        | some (low, high) => c.limit low high
        | none => c) = .ok r) :
    t.Accepts ∧ r.intVal = t.limit c.intVal ∧
      r.pushwarning = (c.pushwarning || decide (r.intVal ≠ c.intVal)) ∧ r.wrapped = c.wrapped := by
  obtain ⟨typeLow, typeHigh, limits, range, -, negative, positive, highMax⟩ := t.typeLimits_eq
  rw [limits] at done
  simp only at done
  have isTop : typeHigh = some (typeHigh.getD t.intType.max) ∨
      typeHigh = none ∧ c.intVal ≤ typeHigh.getD t.intType.max := by
    cases typeHigh with
    | none => exact .inr ⟨rfl, high⟩
    | some top => exact .inl rfl
  have first := c.limit_eq (by omega : typeLow ≤ typeHigh.getD t.intType.max) isTop
  generalize c.limit typeLow typeHigh = c₁ at first done
  obtain ⟨value₁, warning₁, wrapped₁⟩ := first
  rw [limit, lowest, highest, range]
  by_cases checks : t.checksPrecision
  · have checked : t.typeCode = .decimal ∨ t.typeCode = .udecimal ∨ t.ct.scale > 0 := checks
    rw [limitPrecision, if_pos checked] at done
    simp only at done
    rw [← precision] at done
    split at done
    · cases done
    rename_i within
    have accepts : t.Accepts := fun _ => by omega
    obtain ⟨rangeUp, nonneg, upMax, upMin⟩ := decimalRangeUp_eq narrow accepts checks
    rw [rangeUp, wrap_eq upMin (by omega)] at done
    rw [if_pos checks, if_pos checks]
    refine ⟨accepts, ?_⟩
    split at done
    · cases done
      exact ⟨by simp only; omega, true_eq_or_decide (by simp only; omega), wrapped₁⟩
    split at done
    · cases done
      exact ⟨by simp only; omega, true_eq_or_decide (by simp only; omega), wrapped₁⟩
    · cases done
      exact ⟨by simp only; omega, warning₁, wrapped₁⟩
  have unchecked : ¬(t.typeCode = .decimal ∨ t.typeCode = .udecimal ∨ t.ct.scale > 0) := checks
  rw [limitPrecision, if_neg unchecked] at done
  cases done
  rw [if_neg checks, if_neg checks]
  exact ⟨fun checks' => absurd checks' checks, value₁, warning₁, wrapped₁⟩

end Target

/-- What a conversion should give for the scaled value `x` of a literal. -/
structure Correct (t : Target) (x : ℚ) (r : Converted) : Prop where
  value_eq : r.intVal = t.stored x
  noWrap : r.wrapped = false
  warning : r.pushwarning = true ↔ (r.intVal : ℚ) ≠ x

/-- The scale is applied, exponents are read in full and the limits of the precision are numbers
of the type. -/
structure Fits (t : Target) (l : Literal) : Prop where
  scale : 0 ≤ t.ct.scale
  power : t.intType = .int128 → -2 ^ 63 ≤ l.power ∧ l.power < 2 ^ 63
  narrow : t.Narrow

/-- The scaled value of a literal. -/
def scaledValue (t : Target) (l : Literal) : ℚ := l.toRat * 10 ^ t.ct.scale

/-- The scaled value without its sign. -/
def size (t : Target) (l : Literal) : ℚ := l.numeral.magnitude * 10 ^ (l.power + t.ct.scale)

/-- What is added to the integer part. -/
def roundingOf (x : ℚ) : Int := if 1 / 2 ≤ Int.fract x then 1 else 0

/-- A number that rounds to minus one has the integer part zero. -/
def NegativeHalf (t : Target) (l : Literal) : Prop :=
  l.numeral.sign = .minus ∧ 1 / 2 ≤ size t l ∧ size t l < 1 ∧ 1 ≤ t.highest

/-- The rounded number is not in the range of the type. For 64 bits the integer part alone is
limited to that range. -/
def Overflows (t : Target) (l : Literal) : Prop :=
  (t.intType.bound l.numeral.sign.negative : Int) < ⌊size t l⌋ + roundingOf (size t l) ∧
    (t.intType = .int128 ∨ roundingOf (size t l) = 1)

/-- The digits behind the point are not in the range of 128 bits. -/
def LongFraction (t : Target) (l : Literal) : Prop :=
  t.intType = .int128 ∧ (2 : ℚ) ^ 127 ≤ Int.fract (size t l) *
    10 ^ (l.numeral.fraction.length - l.power - t.ct.scale).toNat

/-- The same about the numeral whose point was moved. -/
structure Harmless (t : Target) (n : Numeral) : Prop where
  negativeHalf : ¬(n.sign.negative = true ∧ value n.int = 0 ∧ RoundsUp n.fraction ∧ 1 ≤ t.highest)
  overflows : ¬(t.intType.bound n.sign.negative < n.rounded ∧
    (t.intType = .int128 ∨ RoundsUp n.fraction))
  longFraction : ¬(t.intType = .int128 ∧ int128.bound false < value n.fraction)

lemma fract_magnitude (n : Numeral) :
    fract n.magnitude = value n.fraction / 10 ^ n.fraction.length := by
  rw [fract, n.floor_magnitude, Numeral.magnitude]
  push_cast
  ring

section Moved

variable {t : Target} {l : Literal} {n : Numeral}

variable (fits : Fits t l) (read : Read l t.ct.scale.toNat n)
include fits read

lemma magnitude_eq_size : n.magnitude = size t l := by
  rw [read.magnitude, size, toNat_of_nonneg fits.scale]

lemma scaledValue_eq : scaledValue t l = n.toRat := by
  rw [read.toRat_eq, scaledValue, ← zpow_natCast, toNat_of_nonneg fits.scale]

lemma roundsUp_iff_size : RoundsUp n.fraction ↔ 1 / 2 ≤ fract (size t l) := by
  rw [roundsUp_iff, ← fract_magnitude, magnitude_eq_size fits read]

lemma rounded_eq_size : (n.rounded : Int) = ⌊size t l⌋ + roundingOf (size t l) := by
  rw [Numeral.rounded, roundingOf, ← magnitude_eq_size fits read, n.floor_magnitude,
    magnitude_eq_size fits read]
  by_cases up : RoundsUp n.fraction
  · rw [if_pos up, if_pos ((roundsUp_iff_size fits read).mp up)]
    push_cast
    ring
  · rw [if_neg up, if_neg (mt (roundsUp_iff_size fits read).mpr up)]
    push_cast
    ring

lemma harmless_iff : Harmless t n ↔ ¬NegativeHalf t l ∧ ¬Overflows t l ∧ ¬LongFraction t l := by
  have up := roundsUp_iff_size fits read
  have floor : ⌊size t l⌋ = value n.int := by
    rw [← magnitude_eq_size fits read, n.floor_magnitude]
  have half : (n.sign.negative ∧ value n.int = 0 ∧ RoundsUp n.fraction ∧ 1 ≤ t.highest) ↔
      NegativeHalf t l := by
    have isMinus : n.sign.negative ↔ l.numeral.sign = .minus := by
      rw [read.sign_eq]
      cases l.numeral.sign <;> decide
    have below : (1 / 2 ≤ size t l ∧ size t l < 1) ↔ value n.int = 0 ∧ RoundsUp n.fraction := by
      have parts := floor_add_fract (size t l)
      rw [floor] at parts
      push_cast at parts
      rw [up]
      constructor
      · rintro ⟨low, high⟩
        have zero : ⌊size t l⌋ = 0 := floor_eq_zero_iff.mpr ⟨by linarith, high⟩
        have zero' : value n.int = 0 := by omega
        rw [zero', Nat.cast_zero] at parts
        exact ⟨zero', by linarith⟩
      · rintro ⟨zero, low⟩
        rw [zero, Nat.cast_zero] at parts
        have high := fract_lt_one (size t l)
        exact ⟨by linarith, by linarith⟩
    rw [NegativeHalf, isMinus, ← and_assoc (a := 1 / 2 ≤ size t l), below]
    tauto
  have exceeds : (t.intType.bound n.sign.negative < n.rounded ∧
      (t.intType = .int128 ∨ RoundsUp n.fraction)) ↔ Overflows t l := by
    have isOne : RoundsUp n.fraction ↔ roundingOf (size t l) = 1 := by
      rw [up, roundingOf]
      split <;> simp_all
    rw [Overflows, ← rounded_eq_size fits read, isOne, read.sign_eq, ofNat_lt]
  have long : (t.intType = .int128 ∧ int128.bound false < value n.fraction) ↔
      LongFraction t l := by
    have length : (l.numeral.fraction.length - l.power - t.ct.scale).toNat = n.fraction.length := by
      rw [read.fraction, toNat_of_nonneg fits.scale]
    have digits : fract (size t l) * 10 ^ n.fraction.length = value n.fraction := by
      rw [← magnitude_eq_size fits read, fract_magnitude]
      field_simp
    have limit : int128.bound false = 2 ^ 127 - 1 := by decide
    rw [LongFraction, length, digits, limit]
    refine and_congr_right fun _ => ⟨fun large => ?_, fun large => ?_⟩
    · have large' : 2 ^ 127 ≤ value n.fraction := by omega
      exact_mod_cast large'
    · have large' : 2 ^ 127 ≤ value n.fraction := by exact_mod_cast large
      omega
  rw [← half, ← exceeds, ← long]
  exact ⟨fun h => ⟨h.1, h.2, h.3⟩, fun ⟨a, b, c⟩ => ⟨a, b, c⟩⟩

end Moved

section Converted

variable {t : Target} {n : Numeral} {c r : Converted}

/-- The result of the checks on a number that was read in full. -/
structure Limited (t : Target) (c r : Converted) : Prop where
  accepts : t.Accepts
  value_eq : r.intVal = t.limit c.intVal
  warning : r.pushwarning = (c.pushwarning || decide (r.intVal ≠ c.intVal))
  wrapped : r.wrapped = c.wrapped

lemma roundup_eq (n : Numeral) : value n.int + roundup false n = n.rounded := by
  simp [roundup, Numeral.rounded]

lemma correct_of_exact (limited : Limited t c r)
    (exact : c.intVal = n.sign.apply (n.rounded : Int))
    (warning : c.pushwarning = decide (value n.fraction ≠ 0)) (noWrap : c.wrapped = false) :
    Correct t n.toRat r := by
  have rounds := n.roundAway_toRat
  refine ⟨?_, by rw [limited.wrapped, noWrap], ?_⟩
  · rw [limited.value_eq, Target.stored, rounds, exact]
  rw [limited.warning, warning, Bool.or_eq_true, decide_eq_true_eq, decide_eq_true_eq]
  by_cases zero : value n.fraction = 0
  · have noRound : ¬RoundsUp n.fraction := by
      rw [roundsUp_iff, zero]
      norm_num
    have isInt : n.toRat = (c.intVal : ℚ) := by
      rw [exact, Numeral.toRat, n.magnitude_eq_int zero, Numeral.rounded, if_neg noRound,
        Nat.add_zero, Sign.apply, Sign.apply]
      split <;> push_cast <;> rfl
    rw [isInt, Ne, Ne, Ne, Int.cast_inj]
    simp [zero]
  · exact ⟨fun _ same => n.toRat_ne_int zero _ same.symm, fun _ => .inl zero⟩

lemma not_correct_of_wrapped {x : ℚ} (limited : Limited t c r) (wrapped : c.wrapped) :
    ¬Correct t x r := fun correct => by
  have noWrap := correct.noWrap
  rw [limited.wrapped, wrapped] at noWrap
  cases noWrap

/-- The number rounds to zero or to minus one, and is rounded to zero or to one. -/
lemma correct_iff_of_zero (narrow : t.Narrow) (limited : Limited t c r)
    (negative : n.sign.negative) (zero : value n.int = 0)
    (read : c = ⟨roundup false n, decide (value n.fraction ≠ 0), false, false⟩) :
    Correct t n.toRat r ↔ ¬(RoundsUp n.fraction ∧ 1 ≤ t.highest) := by
  obtain ⟨-, low, high, -, both⟩ := Target.range_bounds narrow limited.accepts
  by_cases up : RoundsUp n.fraction
  · have one : roundup false n = 1 := by rw [roundup, if_pos ⟨rfl, up⟩]
    have rounded : n.rounded = 1 := by rw [Numeral.rounded, zero, if_pos up]
    have stored : t.stored n.toRat = t.limit (-1) := by
      rw [Target.stored, n.roundAway_toRat, rounded, Sign.apply, negative]
      rfl
    have value : r.intVal = t.limit 1 := by
      rw [limited.value_eq, read, one]
      rfl
    rw [and_iff_right up]
    by_cases top : 1 ≤ t.highest
    · refine iff_of_false (fun correct => ?_) (not_not.mpr top)
      have same := correct.value_eq
      rw [stored, value, Target.limit, Target.limit] at same
      omega
    refine iff_of_true ⟨?_, by rw [limited.wrapped, read], ?_⟩ top
    · rw [stored, value, Target.limit, Target.limit]
      omega
    have nonzero : DecimalText.value n.fraction ≠ 0 := by
      intro exact
      rw [roundsUp_iff, exact] at up
      norm_num at up
    rw [limited.warning, read]
    simp only [nonzero, ne_eq, not_false_eq_true, decide_true, Bool.true_or, true_iff]
    exact fun same => n.toRat_ne_int nonzero _ same.symm
  have kept : roundup false n = 0 := by rw [roundup, if_neg fun h => up h.2]
  have rounded : n.rounded = 0 := by rw [Numeral.rounded, zero, if_neg up]
  refine iff_of_true (correct_of_exact limited ?_ (by rw [read]) (by rw [read])) fun h => up h.1
  rw [read, kept, rounded, Sign.apply, negative]
  rfl

lemma correct_iff_of_inRange (narrow : t.Narrow)
    (conversion : Conversion t.intType false false n c) (limited : Limited t c r)
    (small : value n.int ≤ t.intType.bound n.sign.negative) :
    Correct t n.toRat r ↔ Harmless t n := by
  obtain ⟨parsed, frnWrapped, sum, sum_eq, read, inRange, -, frnWrapped_iff⟩ := conversion
  obtain rfl := inRange small
  simp only [Bool.false_or] at sum_eq read
  cases frnWrapped with
  | true =>
    refine iff_of_false (not_correct_of_wrapped limited (by rw [read, Bool.or_true])) ?_
    exact fun harmless => harmless.longFraction (frnWrapped_iff.mp rfl)
  | false =>
    have shortFraction : ¬(t.intType = .int128 ∧ int128.bound false < value n.fraction) :=
      fun long => Bool.false_ne_true (frnWrapped_iff.mpr long)
    rw [Bool.or_false] at read
    have rounded := roundup_eq n
    by_cases negZero : n.sign.negative ∧ value n.int = 0
    · obtain ⟨negative, zero⟩ := negZero
      rw [negative, zero] at sum_eq
      have sumRound : sum = roundup false n := by
        rw [sum_eq, signed]
        simp
      have fits : t.intType.fits sum := by
        rw [sumRound, show (roundup false n : Int) = signed false (roundup false n) from rfl,
          fits_signed]
        have atMost : roundup false n ≤ 1 := by rw [roundup]; split <;> omega
        exact atMost.trans (by cases t.intType <;> decide)
      rw [fits, wrap_eq (fits_iff.mp fits).1 (fits_iff.mp fits).2, sumRound] at read
      rw [correct_iff_of_zero narrow limited negative zero read]
      constructor
      · intro noHalf
        refine ⟨fun h => noHalf h.2.2, fun h => ?_, shortFraction⟩
        have : n.rounded ≤ 1 := by rw [Numeral.rounded]; split <;> omega
        have atLeast : 1 ≤ t.intType.bound n.sign.negative := by
          rw [negative]
          cases t.intType <;> decide
        omega
      · exact fun harmless h => harmless.negativeHalf ⟨negative, zero, h⟩
    have sumRounded : sum = signed n.sign.negative n.rounded := by
      rw [sum_eq, ← rounded, signed, signed]
      cases negative : n.sign.negative with
      | true =>
        have positive : value n.int ≠ 0 := fun zero => negZero ⟨negative, zero⟩
        rw [if_pos rfl, if_pos rfl, if_neg (by omega)]
        push_cast
        ring
      | false =>
        simp only [Bool.false_eq_true, if_false]
        rw [if_pos (by omega)]
        push_cast
        rfl
    by_cases within : n.rounded ≤ t.intType.bound n.sign.negative
    · have fits : t.intType.fits sum := by rw [sumRounded, fits_signed]; exact within
      rw [fits, wrap_eq (fits_iff.mp fits).1 (fits_iff.mp fits).2, sumRounded] at read
      refine iff_of_true (correct_of_exact limited (by rw [read]; rfl) (by rw [read])
        (by rw [read]; rfl)) ⟨fun h => negZero ⟨h.1, h.2.1⟩, fun h => ?_, shortFraction⟩
      omega
    have unfit : t.intType.fits sum = false := by
      rw [sumRounded, ← Bool.not_eq_true, fits_signed]
      exact within
    have up : RoundsUp n.fraction := by
      by_contra down
      rw [Numeral.rounded, if_neg down] at within
      exact within small
    refine iff_of_false (not_correct_of_wrapped limited (by rw [read, unfit]; rfl)) ?_
    exact fun harmless => harmless.overflows ⟨Nat.not_le.mp within, .inr up⟩

lemma correct_iff_of_beyond (narrow : t.Narrow)
    (conversion : Conversion t.intType false false n c) (limited : Limited t c r)
    (large : t.intType.bound n.sign.negative < value n.int) :
    Correct t n.toRat r ↔ Harmless t n := by
  obtain ⟨parsed, frnWrapped, sum, sum_eq, read, -, beyond, frnWrapped_iff⟩ := conversion
  have rounded := roundup_eq n
  have exceeds : t.intType.bound n.sign.negative < n.rounded := by omega
  rcases beyond large with ⟨isInt64, rfl⟩ | ⟨isInt128, wrapped, -⟩
  · obtain rfl : frnWrapped = false := by
      rw [← Bool.not_eq_true, frnWrapped_iff, isInt64]
      simp
    simp only [Bool.true_or, Bool.or_false] at sum_eq read
    obtain ⟨lowMin, low, high, highMax, -⟩ := Target.range_bounds narrow limited.accepts
    rw [isInt64] at read large lowMin highMax
    rw [min_eq.1] at sum_eq lowMin
    rw [max_eq.1] at sum_eq highMax
    have bounds : int64.bound true = 9223372036854775808 ∧
      int64.bound false = 9223372036854775807 := by decide
    by_cases up : RoundsUp n.fraction
    · -- one more than the end of the range
      have one : roundup false n = 1 := by rw [roundup, if_pos ⟨rfl, up⟩]
      rw [one] at sum_eq
      have unfit : int64.fits sum = false := by
        rw [← Bool.not_eq_true, fits_iff, min_eq.1, max_eq.1]
        cases n.sign.negative <;> simp at sum_eq <;> omega
      refine iff_of_false (not_correct_of_wrapped limited (by rw [read, unfit]; rfl)) ?_
      exact fun harmless => harmless.overflows ⟨exceeds, .inr up⟩
    have kept : roundup false n = 0 := by rw [roundup, if_neg fun h => up h.2]
    rw [kept] at sum_eq rounded
    have fits : int64.fits sum := by
      rw [fits_iff, min_eq.1, max_eq.1]
      cases n.sign.negative <;> simp at sum_eq <;> omega
    rw [fits, wrap_eq (fits_iff.mp fits).1 (fits_iff.mp fits).2] at read
    have value : r.intVal = t.limit sum := by rw [limited.value_eq, read]
    have magnitude : (DecimalText.value n.int : ℚ) ≤ n.magnitude := by
      rw [← cast_natCast, ← n.floor_magnitude]
      exact floor_le _
    have apart : (r.intVal : ℚ) ≠ n.toRat := by
      rw [Numeral.toRat, Sign.apply]
      cases negative : n.sign.negative with
      | true =>
        rw [negative] at large
        have inside : -(DecimalText.value n.int : Int) < r.intVal := by
          rw [value, Target.limit]
          omega
        have inside' : -(DecimalText.value n.int : ℚ) < r.intVal := by exact_mod_cast inside
        rw [if_pos rfl]
        exact ne_of_gt (by linarith)
      | false =>
        rw [negative] at large
        have inside : r.intVal < DecimalText.value n.int := by
          rw [value, Target.limit]
          omega
        have inside' : (r.intVal : ℚ) < DecimalText.value n.int := by exact_mod_cast inside
        simp only [Bool.false_eq_true, if_false]
        exact ne_of_lt (by linarith)
    refine iff_of_true ⟨?_, by rw [limited.wrapped, read]; rfl, ?_⟩
      ⟨fun h => ?_, fun h => ?_, fun h => ?_⟩
    · rw [value, Target.stored, n.roundAway_toRat, Target.limit, Target.limit, apply_eq_signed,
        signed]
      cases negative : n.sign.negative with
      | true | false =>
        rw [negative] at sum_eq large
        simp at sum_eq ⊢
        omega
    · rw [limited.warning, read]
      simp only [Bool.true_or, true_iff]
      exact apart
    · omega
    · rw [isInt64] at h
      exact h.2.elim (by simp) up
    · rw [isInt64] at h
      exact absurd h.1 (by simp)
  · refine iff_of_false (not_correct_of_wrapped limited (by rw [read, wrapped]; simp)) ?_
    exact fun harmless => harmless.overflows ⟨exceeds, .inl isInt128⟩

end Converted

/-- Of the literals that are accepted, exactly these are stored as they should be: those with a
value that does not round to minus one, that rounds to a number of the type or, in 64 bits, has an
integer part outside of it and rounds down, and in 128 bits has no long fraction. -/
theorem literal_rounded_iff {t : Target} {m : Memory} {l : Literal} {r : Converted}
    (fits : Fits t l)
    (accepted : numberIntValue t.intType m l.text t.typeCode t.ct false = .ok r) :
    Correct t (scaledValue t l) r ↔ ¬NegativeHalf t l ∧ ¬Overflows t l ∧ ¬LongFraction t l := by
  have noParentheses : removeParentheses l.text.length l.text = .ok l.text :=
    removeParentheses_text
      (not_mem_literal (by decide) (by decide) (by decide) (by decide) (by decide) (by decide) l)
      (not_mem_literal (by decide) (by decide) (by decide) (by decide) (by decide) (by decide) l) _
  obtain ⟨n, c, read, ⟨conversion⟩, done⟩ :=
    numberIntValue_eq_ok noParentheses fits.scale fits.power accepted
  have below : c.intVal ≤ t.intType.max := by
    rw [conversion.result]
    exact (wrap_le _ _).2
  obtain ⟨accepts, value_eq, warning, wrapped⟩ := Target.limits_eq_ok fits.narrow below done
  have limited : Limited t c r := ⟨accepts, value_eq, warning, wrapped⟩
  rw [scaledValue_eq fits read, ← harmless_iff fits read]
  rcases Nat.lt_or_ge (t.intType.bound n.sign.negative) (value n.int) with large | small
  · exact correct_iff_of_beyond fits.narrow conversion limited large
  · exact correct_iff_of_inRange fits.narrow conversion limited small

def decimal41 : Target := ⟨.decimal, ⟨2, 1, 4⟩, by decide, fun _ => by decide⟩

/-- -25.467e1 is stored as -254.7. -/
def longLiteral : Literal :=
  ⟨⟨.minus, [2, 5], some [4, 6, 7]⟩, some (false, .none, [1]), by decide, by simp⟩

lemma size_longLiteral : size decimal41 longLiteral = 25467 / 10 := by
  have int : value longLiteral.numeral.int = 25 := rfl
  have frac : value longLiteral.numeral.fraction = 467 := rfl
  have length : longLiteral.numeral.fraction.length = 3 := rfl
  have power : longLiteral.power + decimal41.ct.scale = 2 := rfl
  rw [size, Numeral.magnitude, int, frac, length, power]
  norm_num

theorem literal_rounded_decimal41 :
    numberIntValue decimal41.intType ⟨100, by decide⟩ longLiteral.text decimal41.typeCode
        decimal41.ct false = .ok ⟨-2547, true, false, false⟩ ∧
      Correct decimal41 (scaledValue decimal41 longLiteral) ⟨-2547, true, false, false⟩ := by
  have accepted : numberIntValue decimal41.intType ⟨100, by decide⟩ longLiteral.text
      decimal41.typeCode decimal41.ct false = .ok ⟨-2547, true, false, false⟩ := by decide +kernel
  have narrow : decimal41.Narrow := fun _ _ => by decide
  have floor : ⌊(25467 / 10 : ℚ)⌋ = 2546 := by rw [floor_eq_iff]; norm_num
  have limit : (decimal41.intType.bound longLiteral.numeral.sign.negative : Int) =
    9223372036854775808 := by decide
  have least : roundingOf (25467 / 10) ≤ 1 := by rw [roundingOf]; split <;> omega
  have fits : Fits decimal41 longLiteral :=
    ⟨by decide, fun wide => absurd wide (by decide), narrow⟩
  refine ⟨accepted, (literal_rounded_iff fits accepted).mpr ⟨?_, ?_, ?_⟩⟩
  · rintro ⟨-, -, below, -⟩
    rw [size_longLiteral] at below
    norm_num at below
  · rintro ⟨exceeds, -⟩
    rw [size_longLiteral, floor, limit] at exceeds
    omega
  · rintro ⟨wide, -⟩
    exact absurd wide (by decide)

def bigint : Target := ⟨.bigint, ⟨8, 0, 19⟩, by decide, nofun⟩

def minusHalf : Literal := ⟨⟨.minus, [0], some [5]⟩, none, by decide, nofun⟩

/-- The literal -0.5 is stored as 1. -/
theorem minus_half_stored_as_one :
    minusHalf.text = "-0.5".toList ∧
      numberIntValue .int64 ⟨100, by decide⟩ minusHalf.text bigint.typeCode bigint.ct false =
        .ok ⟨1, true, false, false⟩ ∧ bigint.stored (scaledValue bigint minusHalf) = -1 := by
  have int : value minusHalf.numeral.int = 0 := rfl
  have frac : value minusHalf.numeral.fraction = 5 := rfl
  have exact : scaledValue bigint minusHalf = -1 / 2 := by
    have magnitude : minusHalf.numeral.magnitude = 1 / 2 := by
      rw [Numeral.magnitude, int, frac]
      norm_num [minusHalf, Numeral.fraction]
    rw [scaledValue, Literal.toRat, Numeral.toRat, magnitude]
    norm_num [minusHalf, Sign.apply, Sign.negative, Literal.power, bigint]
  rw [exact, Target.stored, roundAway, if_neg (by norm_num)]
  norm_num
  decide

end NumberConversion
