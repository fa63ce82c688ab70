import Mathlib.Tactic.FieldSimp
import Mathlib.Tactic.Linarith
import Mathlib.Tactic.LinearCombination
import Mathlib.Tactic.Positivity
import Mathlib.Tactic.Ring

/-!
# The running statistics of VARIANCE and STDDEV

`RowAggregation::doStatistics` folds one value into a row, and two functions combine rows:
`RowAggregationUMP2::doStatistics` those of the first phase, `mergeStatistics` those of two
generations of one storage. The three columns are read as rationals; rounding is not modelled, and
neither are NULLs, which all three functions pass over.
-/

namespace AggStatistics

open List

structure Statistics where
  count : ℚ
  mean : ℚ
  scaledMomentum2 : ℚ
  deriving DecidableEq

def zero : Statistics := ⟨0, 0, 0⟩

def doStatistics (row : Statistics) (valIn : ℚ) : Statistics :=
  let count := row.count + 1
  let delta := valIn - row.mean
  let mean := row.mean + delta / count
  ⟨count, mean, row.scaledMomentum2 + delta * (valIn - mean)⟩

def doStatisticsUMP2 (row block : Statistics) : Statistics :=
  let nextCount := row.count + block.count
  if nextCount = 0 then ⟨nextCount, 0, 0⟩
  else
    let delta := row.mean - block.mean
    ⟨nextCount, (row.mean * row.count + block.mean * block.count) / nextCount,
      row.scaledMomentum2 + block.scaledMomentum2 +
        delta * delta * (row.count * block.count / nextCount)⟩

def mergeStatistics (row rowIn : Statistics) : Statistics :=
  ⟨row.count + rowIn.count, row.mean + rowIn.mean, row.scaledMomentum2 + rowIn.scaledMomentum2⟩

/-- A tree of partial rows: the values of a part, and the two ways to combine. -/
inductive Combination
  | part (values : List ℚ)
  | phases (row block : Combination)
  | generations (row rowIn : Combination)

namespace Combination

def values : Combination → List ℚ
  | part values => values
  | phases row block => row.values ++ block.values
  | generations row rowIn => row.values ++ rowIn.values

def eval : Combination → Statistics
  | part values => values.foldl doStatistics zero
  | phases row block => doStatisticsUMP2 row.eval block.eval
  | generations row rowIn => mergeStatistics row.eval rowIn.eval

end Combination

/-- The statistics a list of values has. -/
def exact (values : List ℚ) : Statistics :=
  let mean := values.sum / values.length
  ⟨values.length, mean, (values.map fun x => (x - mean) ^ 2).sum⟩

/-- The statistics of `n` values with the sum `s` and the sum of squares `q`. -/
def ofSums (n s q : ℚ) : Statistics := ⟨n, s / n, q - s ^ 2 / n⟩

def squares (values : List ℚ) : ℚ := (values.map (· ^ 2)).sum

variable (values : List ℚ)

lemma sum_deviations (m : ℚ) : (values.map fun x => (x - m) ^ 2).sum =
    squares values - 2 * m * values.sum + values.length * m ^ 2 := by
  induction values with
  | nil => simp [squares]
  | cons x values ih =>
    simp only [squares] at ih ⊢
    simp only [map_cons, sum_cons, length_cons, ih, Nat.cast_add, Nat.cast_one]
    ring

lemma exact_eq :
    exact values = ofSums values.length values.sum (squares values) := by
  simp only [exact, ofSums, sum_deviations, Statistics.mk.injEq, true_and]
  rcases eq_or_ne (values.length : ℚ) 0 with empty | nonempty
  · simp [empty]
  · field_simp
    ring

variable (values values' : List ℚ)

lemma exact_append : exact (values ++ values') =
    ofSums (values.length + values'.length) (values.sum + values'.sum)
      (squares values + squares values') := by
  rw [exact_eq]
  simp [squares]

lemma length_pos {values : List ℚ} (nonempty : values ≠ []) : (0 : ℚ) < values.length := by
  exact_mod_cast length_pos_iff.mpr nonempty

lemma doStatistics_exact (x : ℚ) :
    doStatistics (exact values) x = exact (values ++ [x]) := by
  rcases eq_or_ne values [] with rfl | nonempty
  · simp [doStatistics, exact]
  have positive := length_pos nonempty
  rw [exact_append, exact_eq]
  simp only [doStatistics, ofSums, squares, map_singleton, sum_singleton,
    length_singleton, Nat.cast_one, Statistics.mk.injEq, true_and]
  constructor
  · field_simp
    ring
  · field_simp
    ring

lemma doStatisticsUMP2_exact :
    doStatisticsUMP2 (exact values) (exact values') = exact (values ++ values') := by
  rcases eq_or_ne values [] with rfl | nonempty
  · rcases eq_or_ne values' [] with rfl | nonempty'
    · simp [doStatisticsUMP2, exact]
    · have positive := length_pos nonempty'
      simp [doStatisticsUMP2, exact, positive.ne']
  have positive := length_pos nonempty
  have total : (values.length : ℚ) + values'.length ≠ 0 := by positivity
  rcases eq_or_ne values' [] with rfl | nonempty'
  · simp [doStatisticsUMP2, exact, positive.ne']
  have positive' := length_pos nonempty'
  rw [exact_append, exact_eq, exact_eq]
  simp only [doStatisticsUMP2, ofSums, total, if_false, Statistics.mk.injEq, true_and]
  constructor
  · field_simp
  · field_simp
    ring

/-- The sums of two means and of two second moments are those of the whole only in these cases. -/
lemma mergeStatistics_exact_iff :
    mergeStatistics (exact values) (exact values') = exact (values ++ values') ↔
      values = [] ∨ values' = [] ∨ values.sum = 0 ∧ values'.sum = 0 := by
  rcases eq_or_ne values [] with rfl | nonempty
  · simp [mergeStatistics, exact]
  rcases eq_or_ne values' [] with rfl | nonempty'
  · simp [mergeStatistics, exact]
  have positive := length_pos nonempty
  have positive' := length_pos nonempty'
  rw [exact_append, exact_eq, exact_eq]
  simp only [mergeStatistics, ofSums, nonempty, nonempty', false_or, Statistics.mk.injEq, true_and]
  constructor
  · rintro ⟨mean, moment⟩
    generalize (values.length : ℚ) = n at *
    generalize (values'.length : ℚ) = n' at *
    field_simp at mean moment
    have apart : (n' * values.sum - n * values'.sum) ^ 2 = 0 := by
      linear_combination (-1) * moment
    have same : n' * values.sum = n * values'.sum := by
      linarith [pow_eq_zero_iff (two_ne_zero) |>.mp apart]
    have zero' : values'.sum = 0 := by
      have product : n * (n + n') * values'.sum = 0 := by
        linear_combination mean - n' * same
      exact (mul_eq_zero.mp product).resolve_left (by positivity)
    have zero : n' * values.sum = 0 := by rw [same, zero', mul_zero]
    exact ⟨(mul_eq_zero.mp zero).resolve_left positive'.ne', zero'⟩
  · rintro ⟨zero, zero'⟩
    simp [zero, zero']

namespace Combination

/-- The row has the statistics of its values, in whatever order they came. -/
def Exact (t : Combination) : Prop := ∀ values, values.Perm t.values → t.eval = exact values

/-- Every row of the tree is exact. -/
def AllExact : Combination → Prop
  | part values => (part values).Exact
  | phases row block => row.AllExact ∧ block.AllExact ∧ (phases row block).Exact
  | generations row rowIn => row.AllExact ∧ rowIn.AllExact ∧ (generations row rowIn).Exact

/-- Where generations are merged, one of the two has no values or both have the mean zero. -/
def Centred : Combination → Prop
  | part _ => True
  | phases row block => row.Centred ∧ block.Centred
  | generations row rowIn => row.Centred ∧ rowIn.Centred ∧
    (row.values = [] ∨ rowIn.values = [] ∨ row.values.sum = 0 ∧ rowIn.values.sum = 0)

lemma exact_iff (t : Combination) : t.Exact ↔ t.eval = exact t.values :=
  ⟨fun all => all t.values (Perm.refl _), fun one _ same => by
    rw [one, exact, exact, same.sum_eq, same.length_eq, (same.map _).sum_eq]⟩

lemma AllExact.eval_eq {t : Combination} (all : t.AllExact) : t.eval = exact t.values := by
  cases t with
  | part values => exact (exact_iff _).mp all
  | phases row block | generations row rowIn => exact (exact_iff _).mp all.2.2

lemma eval_part (values : List ℚ) : (part values).eval = exact values := by
  induction values using reverseRecOn with
  | nil => simp [eval, exact, zero]
  | append_singleton values x ih =>
    rw [← doStatistics_exact, ← ih]
    simp [eval]

/-- The rows of the second phase are exact; merged generations are exactly if they are centred. -/
theorem allExact_iff (t : Combination) : t.AllExact ↔ t.Centred := by
  induction t with
  | part values => simp [AllExact, Centred, exact_iff, eval_part, Combination.values]
  | phases row block ihRow ihBlock =>
    rw [AllExact, Centred, ← ihRow, ← ihBlock]
    refine ⟨fun all => ⟨all.1, all.2.1⟩, fun both => ⟨both.1, both.2, (exact_iff _).mpr ?_⟩⟩
    rw [eval, both.1.eval_eq, both.2.eval_eq, doStatisticsUMP2_exact, Combination.values]
  | generations row rowIn ihRow ihIn =>
    rw [AllExact, Centred, ← ihRow, ← ihIn]
    refine and_congr_right fun left => and_congr_right fun right => ?_
    rw [exact_iff, eval, left.eval_eq, right.eval_eq, Combination.values, mergeStatistics_exact_iff]

/-- Two generations with the value 1 each are merged to the mean 2. -/
theorem means_added : ¬ (generations (part [1]) (part [1])).Exact := by
  rw [exact_iff]
  decide +kernel

end Combination

end AggStatistics
