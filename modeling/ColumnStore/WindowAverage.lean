import ColumnStore.DecimalAverage

/-!
# The average of a window function

Model of `WF_sum_avg::calculateAvg` for decimals. The quotient is truncated; then a half is added to
it as `double`, and the sum is truncated again. Whether a product has overflowed is tested by
dividing it back, which a compiler may take to be true of every product. Of a `double` that is not a
number of 128 bits the low bits are kept.
-/

namespace WindowAverage

open CheckedWords DecimalArithmetic

/-- A number rounded to its `bits` significant bits after the first one. -/
def significant (bits m : Nat) : Nat := AggSum.nearest (2 ^ (m.log2 - bits)) m

/-- `m + 0.5` as `double`, truncated; twice the sum is an integer. -/
def halved (m : Nat) : Nat := significant 52 (2 * significant 52 m + 1) / 2

/-- `avg += (avg < 0) ? (-0.5) : (0.5)`. The signs of the half and of `avg` are the same. -/
def addHalf (avg : Int) : Int := AggSum.int128 (avg.sign * halved avg.natAbs)

/-- `(a * factor) / factor == a`; in a build that is not `tested` the division is cancelled. -/
def dividesBack (tested : Bool) (a factor : Int) : Bool :=
  !tested || (AggSum.int128 (a * factor)).tdiv factor == a

/-- `calculateAvg`, without a value the error `ERR_WF_OVERFLOW`. -/
def calculateAvg (tested : Bool) (sum : BitVec 128) (count : BitVec 64) (scale : Nat) :
    Option Int :=
  let factor : Int := 10 ^ scale
  let avg := sum.toInt.tdiv count.toNat
  if scale > 0 then
    if dividesBack tested sum.toInt factor then
      some (addHalf ((AggSum.int128 (sum.toInt * factor)).tdiv count.toNat))
    else if !dividesBack tested avg factor then none
    else some (addHalf (AggSum.int128 (avg * factor)))
  else some (addHalf avg)

/-- The average is refused, or it is the nearest integer and that of the aggregate function, if that
has one. -/
def AveragesRight (tested : Bool) (sum : BitVec 128) (count : BitVec 64) (scale : Nat) : Prop :=
  let v := sum.toInt * 10 ^ scale
  ∀ avg, calculateAvg tested sum count scale = some avg →
    Nearest v count.toNat avg ∧ (Fits 128 v → avg = roundedQuotient v count.toNat)

/-- Adding a half to `m` gives `m + k`. A quotient below 2^52 is not changed by it. -/
def HalfAdds (m k : Nat) : Prop := if m < 2 ^ 52 then k = 0 else halved m = m + k
  deriving Decidable

/-- `x / n`, rounded. -/
def rounded (x n : Nat) : Nat := (2 * x + n) / (2 * n)

/-- The numerator is `n * m + x`. Adding the half to `m` makes up for `x`, and the result fits. -/
def Rounds (sign : Int) (m x n : Nat) : Prop :=
  HalfAdds m (rounded x n) ∧ Fits 128 (sign * (m + rounded x n : Nat))
  deriving Decidable

/-- If the product fits, it is divided. If not, then the test must be there, and the quotient, which
is multiplied instead, does not fit either or can still be rounded. -/
def Right (tested : Bool) (sum : BitVec 128) (count : BitVec 64) (scale : Nat) : Prop :=
  let n := count.toNat
  let s := sum.toInt
  let v := s.natAbs * 10 ^ scale
  if Fits 128 (s * 10 ^ scale) then Rounds s.sign (v / n) (v % n) n
  else tested ∧ (¬Fits 128 (s.tdiv n * 10 ^ scale) ∨
    Rounds s.sign (s.natAbs / n * 10 ^ scale) (s.natAbs % n * 10 ^ scale) n)
  deriving Decidable

lemma significant_of_small {m : Nat} (small : m < 2 ^ 53) : significant 52 m = m := by
  have few : m.log2 - 52 = 0 := by
    rcases Nat.eq_zero_or_pos m with rfl | positive
    · rfl
    · have below := (Nat.log2_lt positive.ne').mpr small
      omega
  rw [significant, few, pow_zero, (AggSum.nearest_eq_iff Nat.one_pos).mpr (Nat.one_dvd _)]

lemma significant_le (m : Nat) : significant 52 m ≤ m + m / 2 ^ 52 := by
  rcases Nat.lt_or_ge m (2 ^ 53) with small | large
  · rw [significant_of_small small]
    omega
  have near := AggSum.nearest_near (a := m) (Nat.two_pow_pos (m.log2 - 52))
  have unit : 2 ^ (m.log2 - 52) ≤ m / 2 ^ 52 := by
    rw [Nat.le_div_iff_mul_le (by decide), ← pow_add,
      Nat.sub_add_cancel ((Nat.le_log2 (by omega)).mpr (by omega))]
    exact Nat.log2_self_le (by omega)
  rw [significant]
  omega

lemma halved_le (m : Nat) : halved m ≤ m + m / 2 ^ 50 + 1 := by
  have first := significant_le m
  have second := significant_le (2 * significant 52 m + 1)
  rw [halved]
  omega

lemma halved_iff (m k : Nat) : halved m = m + k ↔ HalfAdds m k := by
  rw [HalfAdds]
  split
  · rw [halved, significant_of_small (m := m) (by omega), significant_of_small (by omega)]
    omega
  · rfl

lemma addHalf_sign (v : Int) (m : Nat) :
    addHalf (v.sign * m) = AggSum.int128 (v.sign * halved m) := by
  have zero : halved 0 = 0 := by decide
  rcases Nat.eq_zero_or_pos m with rfl | positive
  · simp [addHalf, zero]
  obtain negative | rfl | above := lt_trichotomy v 0
  · simp [addHalf, Int.sign_eq_neg_one_of_neg negative, Int.sign_natCast_of_ne_zero positive.ne']
  · simp [addHalf]
  · simp [addHalf, Int.sign_eq_one_of_pos above, Int.sign_natCast_of_ne_zero positive.ne']

lemma tdiv_eq_sign_mul (v : Int) (n : Nat) : v.tdiv n = v.sign * (v.natAbs / n : Nat) := by
  nth_rewrite 1 [← Int.sign_mul_natAbs v]
  obtain negative | rfl | positive := lt_trichotomy v 0
  · rw [Int.sign_eq_neg_one_of_neg negative, neg_one_mul, neg_one_mul, Int.neg_tdiv]
    rfl
  · simp
  · rw [Int.sign_eq_one_of_pos positive, one_mul, one_mul]
    rfl

lemma rounded_zero (n : Nat) : rounded 0 n = 0 := by
  rw [rounded, Nat.div_eq_zero_iff]
  omega

section Nearest

variable {n : Nat} (positive : 0 < n)
include positive

lemma rounded_bounds (a : Nat) :
    2 * (n * rounded a n) ≤ 2 * a + n ∧ 2 * a + n < 2 * (n * rounded a n) + 2 * n := by
  have parts := Nat.div_add_mod (2 * a + n) (2 * n)
  have less := Nat.mod_lt (2 * a + n) (show 0 < 2 * n by omega)
  rw [Nat.mul_assoc] at parts
  unfold rounded
  omega

lemma nearest_natCast (a : Nat) (z : Int) : Nearest a n z ↔ z = rounded a n := by
  have bounds := rounded_bounds positive a
  have product : (n : Int) * rounded a n = (n * rounded a n : Nat) := by push_cast; rfl
  constructor
  · rintro ⟨near, away⟩
    obtain below | same | above := lt_trichotomy z (rounded a n)
    · have less : (n : Int) * z ≤ n * (rounded a n - 1) := by gcongr; omega
      rw [Int.mul_sub, Int.mul_one] at less
      -- of the other middle a negative multiple is too far
      have apart : z < 0 → (n : Int) * z ≤ -n := fun negative => by nlinarith
      have sign : 0 ≤ z → 0 ≤ (n : Int) * z := fun nonneg => by positivity
      omega
    · exact same
    · have more : (n : Int) * (rounded a n + 1) ≤ n * z := by gcongr; omega
      rw [Int.mul_add, Int.mul_one] at more
      omega
  · rintro rfl
    unfold Nearest
    rw [product]
    omega

lemma nearest_iff (v z : Int) : Nearest v n z ↔ z = v.sign * rounded v.natAbs n := by
  obtain ⟨a, rfl | rfl⟩ := v.eq_nat_or_neg
  · rw [nearest_natCast positive, Int.natAbs_natCast]
    rcases Nat.eq_zero_or_pos a with rfl | above
    · simp [rounded_zero]
    · rw [Int.sign_eq_one_of_pos (Int.natCast_pos.mpr above), one_mul]
  · have opposite : Nearest (-a) n z ↔ Nearest a n (-z) := by
      unfold Nearest
      rw [show n * z - -a = -(n * -z - a) by ring, Int.natAbs_neg, Int.natAbs_neg,
        show (n : Int) * -z = -(n * z) by ring, Int.natAbs_neg]
    rw [opposite, nearest_natCast positive, Int.natAbs_neg, Int.natAbs_natCast, Int.sign_neg]
    rcases Nat.eq_zero_or_pos a with rfl | above
    · simp [rounded_zero]
    · rw [Int.sign_eq_one_of_pos (Int.natCast_pos.mpr above)]
      omega

lemma nearest_addHalf {v : Int} {m x : Nat} (parts : v.natAbs = n * m + x) (small : m ≤ 2 ^ 127) :
    Nearest v n (addHalf (v.sign * m)) ↔ Rounds v.sign m x n := by
  have whole : rounded v.natAbs n = m + rounded x n := by
    rw [rounded, rounded, parts, show 2 * (n * m + x) + n = 2 * x + n + 2 * n * m by ring,
      Nat.add_mul_div_left _ _ (by omega), Nat.add_comm]
  rw [nearest_iff positive, addHalf_sign, Rounds, ← halved_iff, whole]
  constructor
  · intro same
    have fits := fits_int128 (v.sign * halved m)
    have congruent : AggSum.int128 (v.sign * halved m) % (2 ^ 128 : Nat) =
        v.sign * halved m % (2 ^ 128 : Nat) := Int.bmod_emod
    rw [same] at fits congruent
    refine ⟨?_, fits⟩
    have size := halved_le m
    unfold Fits at fits
    obtain negative | rfl | above := lt_trichotomy v 0
    · rw [Int.sign_eq_neg_one_of_neg negative] at fits congruent
      omega
    · obtain rfl : m = 0 := by
        have := Nat.mul_le_mul_right m positive
        simp at parts
        omega
      rw [← whole, Int.natAbs_zero, rounded_zero]
      decide
    · rw [Int.sign_eq_one_of_pos above] at fits congruent
      omega
  · rintro ⟨same, fits⟩
    rw [same]
    exact bmod_of_fits (by decide) fits

/-- A product that has wrapped around is far from the one meant. -/
lemma not_nearest_wrapped {v : Int} (tooLarge : ¬Fits 128 v) (small : n < 2 ^ 64) :
    ¬Nearest v n (addHalf ((AggSum.int128 v).tdiv n)) := by
  have fits := fits_int128 v
  have congruent : AggSum.int128 v % (2 ^ 128 : Nat) = v % (2 ^ 128 : Nat) := Int.bmod_emod
  generalize AggSum.int128 v = w at *
  rw [tdiv_eq_sign_mul, addHalf_sign]
  rintro ⟨near, -⟩
  have stored := fits_int128 (w.sign * halved (w.natAbs / n))
  obtain rfl | several : n = 1 ∨ 2 ≤ n := by omega
  · rw [Int.natCast_one, one_mul] at near
    generalize AggSum.int128 _ = z at near stored
    obtain rfl : z = v := by omega
    exact tooLarge stored
  have size := halved_le (w.natAbs / n)
  have half : w.natAbs / n ≤ w.natAbs / 2 := Nat.div_le_div_left several Nat.two_pos
  have quotient := Nat.mul_div_le w.natAbs n
  have product : n * halved (w.natAbs / n) ≤ n * (2 * (w.natAbs / n) + 1) := by gcongr; omega
  rw [Nat.mul_add, Nat.mul_one, Nat.mul_left_comm] at product
  unfold Fits at *
  obtain negative | rfl | above := lt_trichotomy w 0
  · rw [Int.sign_eq_neg_one_of_neg negative, AggSum.int128_eq (by unfold AggSum.null; omega)
      (by omega), neg_one_mul, Int.mul_neg, ← Int.natCast_mul] at near
    omega
  · rw [Int.sign_zero, Int.zero_mul, show AggSum.int128 0 = 0 by decide, Int.mul_zero] at near
    omega
  · rw [Int.sign_eq_one_of_pos above, AggSum.int128_eq (by unfold AggSum.null; omega)
      (by omega), one_mul, ← Int.natCast_mul] at near
    omega

end Nearest

lemma dividesBack_iff {a : Int} {scale : Nat} (within : scale ≤ 38) :
    dividesBack true a (10 ^ scale) ↔ Fits 128 (a * 10 ^ scale) := by
  have positive : (0 : Int) < 10 ^ scale := by positivity
  have bound : (10 : Int) ^ scale ≤ 10 ^ 38 := by gcongr; decide
  simp only [dividesBack, Bool.not_true, Bool.false_or, beq_iff_eq]
  constructor
  · intro same
    obtain ⟨parts, rest, -⟩ := quotient_and_remainder (v := AggSum.int128 (a * 10 ^ scale)) positive
    have congruent : AggSum.int128 (a * 10 ^ scale) % (2 ^ 128 : Nat) =
        a * 10 ^ scale % (2 ^ 128 : Nat) := Int.bmod_emod
    have fits := fits_int128 (a * 10 ^ scale)
    rw [same, mul_comm] at parts
    generalize AggSum.int128 (a * 10 ^ scale) = w at *
    obtain rfl : w = a * 10 ^ scale := by omega
    exact fits
  · intro fits
    rw [AggSum.int128, bmod_of_fits (by decide) fits, Int.mul_tdiv_cancel _ positive.ne']

section

variable {tested : Bool} {sum : BitVec 128} {count : BitVec 64} {scale : Nat}

lemma calculateAvg_of_fits (within : scale ≤ 38) (fits : Fits 128 (sum.toInt * 10 ^ scale)) :
    calculateAvg tested sum count scale =
      some (addHalf ((sum.toInt * 10 ^ scale).tdiv count.toNat)) := by
  have passes : dividesBack tested sum.toInt (10 ^ scale) := by
    cases tested with
    | false => rfl
    | true => exact (dividesBack_iff within).mpr fits
  have same : AggSum.int128 (sum.toInt * 10 ^ scale) = sum.toInt * 10 ^ scale :=
    bmod_of_fits (by decide) fits
  simp only [calculateAvg, if_pos passes, same]
  split
  · rfl
  · obtain rfl : scale = 0 := by omega
    rw [pow_zero, mul_one]

end

end WindowAverage
