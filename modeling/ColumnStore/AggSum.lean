import Mathlib.Tactic.Ring

/-!
# SUM and the running sum of AVG

`doSum` and `doAvg` of `RowAggregation` fold the rows of a group into a field of 128 bits; the same
`doSum` and the `doAvg` of `RowAggregationUMP2` combine the fields of two rows. Integers are added
as `long double`, wide decimals as 128-bit integers, and nothing is checked. `long double` is an
integer rounded to 64 significant bits; of a sum outside 128 bits the low bits are kept. DOUBLE,
FLOAT and narrow DECIMAL columns, whose sums are `long double`, are not modelled.
-/

namespace AggSum

open List Int

/-- The multiple of `unit` next to a number, at the middle the even one. -/
def nearest (unit a : Nat) : Nat :=
  (if unit < 2 * (a % unit) ∨ unit = 2 * (a % unit) ∧ a / unit % 2 = 1 then a / unit + 1
    else a / unit) * unit

/-- An integer as `long double`, which has 64 significant bits. -/
def longDouble (n : Int) : Int := n.sign * nearest (2 ^ (n.natAbs.log2 - 63)) n.natAbs

def int128 (n : Int) : Int := n.bmod (2 ^ 128)

def null : Int := -2 ^ 127

inductive Func
  | sum
  | avg

inductive Column
  | integer
  | wide

/-- A value that is not NULL. -/
structure Value (column : Column) where
  val : Int
  valid : match column with
    | .integer => -2 ^ 63 ≤ val ∧ val < 2 ^ 64
    | .wide => null < val ∧ val < 2 ^ 127

/-- The output fields of a group; SUM has no count. -/
structure Group where
  sum : Int
  count : Nat

/-- `isNull` of the sum for SUM, no `notFirstValue` for AVG. -/
def Group.isFirst (g : Group) : Func → Bool
  | .sum => g.sum = null
  | .avg => g.count = 0

/-- The last step of all the functions: `valIn` of `count` rows goes into the fields. -/
def Group.add (func : Func) (column : Column) (g : Group) (valIn : Int) (count : Nat) : Group where
  sum := match column with
    | .integer =>
      if g.isFirst func then int128 (longDouble valIn)
      else int128 (longDouble (longDouble g.sum + longDouble valIn))
    | .wide => if g.isFirst func then valIn else int128 (g.sum + valIn)
  count := match func with
    | .sum => g.count
    | .avg => (g.count + count) % 2 ^ 64

/-- `RowAggregation::doSum` and `RowAggregation::doAvg`. -/
def update (func : Func) {column : Column} (g : Group) : Option (Value column) → Group
  | none => g
  | some v => g.add func column v.val 1

/-- `doSum` and `RowAggregationUMP2::doAvg` on a partial row, whose sum is a wide decimal. -/
def combine (func : Func) (g row : Group) : Group :=
  if row.sum = null then g else g.add func .wide row.sum row.count

/-- What is read from the field of the sum. -/
def Group.result (g : Group) : Option Int := if g.sum = null then none else some g.sum

/-- What should be read. -/
def total (values : List Int) : Option Int := if values = [] then none else some values.sum

/-- Partial rows: the rows of a part, the last one first, and two rows combined. -/
inductive Partial (column : Column)
  | part (rows : List (Option (Value column)))
  | combined (left right : Partial column)

namespace Partial

variable {column : Column} (func : Func)

def values : Partial column → List Int
  | part rows => rows.filterMap (Option.map Value.val)
  | combined left right => left.values ++ right.values

def eval : Partial column → Group
  | part rows => rows.foldr (fun v g => update func g v) ⟨null, 0⟩
  | combined left right => combine func (left.eval) (right.eval)

/-- The field holds the sum of the values, or NULL if there is none. -/
def Exact (p : Partial column) : Prop := (p.eval func).result = total p.values

/-- After every row the field is exact. -/
def RowsExact : List (Option (Value column)) → Prop
  | [] => True
  | v :: rows => RowsExact rows ∧ Exact func (part (v :: rows))

/-- After every row and every combination the field is exact. -/
def AllExact : Partial column → Prop
  | part rows => RowsExact func rows
  | combined left right => left.AllExact ∧ right.AllExact ∧ Exact func (combined left right)

end Partial

/-- The bits below the 64 highest ones are zero. -/
def Representable (n : Int) : Prop := 2 ^ (n.natAbs.log2 - 63) ∣ n.natAbs

/-- What a sum must fulfil: a number of 128 bits that is not the NULL mark, for integers one of at
most 64 significant bits. -/
def Fits : Column → Int → Prop
  | .integer, n => (null < n ∧ n < 2 ^ 127) ∧ Representable n
  | .wide, n => null < n ∧ n < 2 ^ 127

/-- The count of AVG is 64 bits, and zero stands for no value. -/
def CountFits (func : Func) (values : List Int) : Prop :=
  func = .avg → 2 ^ 64 ∣ values.length → values.sum = 0

namespace Partial

variable {column : Column} (func : Func)

/-- The sum fits after every row that is not NULL. -/
def RowsFit : List (Option (Value column)) → Prop
  | [] => True
  | none :: rows => RowsFit rows
  | some v :: rows => RowsFit rows ∧ CountFits func (part rows).values ∧
    Fits column ((part rows).values.sum + v.val)

/-- Every sum on the way fits. -/
def AllFit : Partial column → Prop
  | part rows => RowsFit func rows
  | combined left right => left.AllFit ∧ right.AllFit ∧ (right.values = [] ∨
    CountFits func left.values ∧ Fits .wide (left.values.sum + right.values.sum))

end Partial

lemma nearest_eq_iff {unit a : Nat} (positive : 0 < unit) : nearest unit a = a ↔ unit ∣ a := by
  unfold nearest
  constructor
  · intro same
    exact ⟨_, same.symm.trans (Nat.mul_comm _ _)⟩
  · intro multiple
    have noRest : a % unit = 0 := Nat.mod_eq_zero_of_dvd multiple
    simp [noRest, positive.ne', Nat.div_mul_cancel multiple]

lemma nearest_near {unit a : Nat} (positive : 0 < unit) :
    nearest unit a ≤ a + unit ∧ a ≤ nearest unit a + unit := by
  have parts := Nat.div_add_mod' a unit
  have less := Nat.mod_lt a positive
  unfold nearest
  split
  · rw [Nat.add_mul]
    omega
  · omega

lemma nearest_mono {unit a b : Nat} (le : a ≤ b) : nearest unit a ≤ nearest unit b := by
  have parts := Nat.div_add_mod a unit
  have parts' := Nat.div_add_mod b unit
  refine Nat.mul_le_mul_right unit ?_
  obtain same | less := (Nat.div_le_div_right (c := unit) le).eq_or_lt
  · rw [same] at parts ⊢
    split_ifs <;> omega
  · split_ifs <;> omega

lemma longDouble_eq_iff (n : Int) : longDouble n = n ↔ Representable n := by
  rw [Representable, ← nearest_eq_iff (Nat.two_pow_pos _), longDouble]
  rcases eq_or_ne n 0 with rfl | nonzero
  · simp [nearest]
  · have sign : n.sign ≠ 0 := sign_eq_zero_iff_zero.not.mpr nonzero
    nth_rewrite 4 [← sign_mul_natAbs n]
    rw [mul_right_inj' sign, natCast_inj]

lemma longDouble_near (n : Int) : -n.natAbs ≤ longDouble n - n ∧ longDouble n - n ≤ n.natAbs := by
  rcases eq_or_ne n 0 with rfl | nonzero
  · simp [longDouble]
  have near := nearest_near (a := n.natAbs) (Nat.two_pow_pos (n.natAbs.log2 - 63))
  have unit : 2 ^ (n.natAbs.log2 - 63) ≤ n.natAbs :=
    (Nat.pow_le_pow_right (by decide) (Nat.sub_le _ _)).trans
      (Nat.log2_self_le (natAbs_ne_zero.mpr nonzero))
  unfold longDouble
  generalize nearest (2 ^ (n.natAbs.log2 - 63)) n.natAbs = m at *
  rcases lt_or_gt_of_ne nonzero with negative | positive
  · rw [sign_eq_neg_one_of_neg negative]
    omega
  · rw [sign_eq_one_of_pos positive]
    omega

lemma Value.fits {column : Column} (v : Value column) : Fits column v.val := by
  obtain ⟨v, valid⟩ := v
  cases column with
  | wide => exact valid
  | integer =>
    have small : v.natAbs.log2 - 63 = 0 := by
      rcases eq_or_ne v.natAbs 0 with zero | nonzero
      · simp [zero]
      · have := (Nat.log2_lt nonzero).mpr (show v.natAbs < 2 ^ 64 by omega)
        omega
    refine ⟨?_, ?_⟩
    · unfold null
      dsimp only
      omega
    rw [Representable, small]
    exact one_dvd _

lemma int128_eq {n : Int} (low : null ≤ n) (high : n < 2 ^ 127) : int128 n = n := by
  unfold null at low
  exact bmod_eq_of_le (by omega) (by omega)

lemma int128_iff (n : Int) : int128 n = n ∧ n ≠ null ↔ Fits .wide n := by
  constructor
  · rintro ⟨same, known⟩
    have low : -((2 ^ 128 : Nat) : Int) / 2 ≤ int128 n := le_bmod (by decide)
    have high : int128 n < ((2 ^ 128 : Nat) + 1 : Int) / 2 := bmod_lt (by decide)
    unfold Fits null at *
    omega
  · rintro ⟨low, high⟩
    exact ⟨int128_eq low.le high, low.ne'⟩

lemma int128_longDouble_iff {n : Int} (bound : n.natAbs < 2 ^ 128) :
    int128 (longDouble n) = n ∧ n ≠ null ↔ Fits .integer n := by
  constructor
  · rintro ⟨same, known⟩
    have inside : int128 n = n := by
      conv_rhs => rw [← same]
      conv_lhs => rw [← same]
      exact bmod_bmod
    refine ⟨(int128_iff n).mp ⟨inside, known⟩, (longDouble_eq_iff n).mp ?_⟩
    -- both are the same number modulo 2^128, and less than that apart
    have near := longDouble_near n
    have congruent : int128 (longDouble n) % (2 ^ 128 : Nat) = longDouble n % (2 ^ 128 : Nat) :=
      bmod_emod
    omega
  · rintro ⟨inside, representable⟩
    rw [(longDouble_eq_iff n).mpr representable]
    exact (int128_iff n).mpr inside

section Steps

variable {func : Func} {column : Column} {g : Group} {values : List Int} {v : Int} {n : Nat}

lemma result_eq_some {x : Int} : g.result = some x ↔ g.sum = x ∧ x ≠ null := by
  unfold Group.result
  split
  · next isNull => simp [isNull, eq_comm]
  · next known =>
    rw [Option.some_inj]
    exact ⟨fun same => ⟨same, same ▸ known⟩, And.left⟩

lemma add_first (first : g.isFirst func) (fits : Fits column v) :
    (g.add func column v n).sum = v := by
  cases column with
  | wide => simp [Group.add, first]
  | integer =>
    simp only [Group.add, first, (longDouble_eq_iff v).mpr fits.2]
    exact int128_eq fits.1.1.le fits.1.2

lemma add_exact_iff (result : g.result = total values)
    (count : func = .avg → g.count = values.length % 2 ^ 64)
    (known : values ≠ [] → Fits column values.sum) (fits : Fits column v) :
    (g.add func column v n).result = some (values.sum + v) ↔
      CountFits func values ∧ Fits column (values.sum + v) := by
  have range : ∀ {x}, Fits column x → null < x ∧ x < 2 ^ 127 := fun {x} ok => by
    cases column with
    | integer => exact ok.1
    | wide => exact ok
  by_cases first : g.isFirst func
  · have zero : values.sum = 0 ↔ CountFits func values := by
      cases func with
      | sum =>
        have isNull : g.sum = null := by simpa [Group.isFirst] using first
        have empty : values = [] := by simpa [Group.result, isNull, total] using result
        simp [CountFits, empty]
      | avg =>
        have isZero : g.count = 0 := by simpa [Group.isFirst] using first
        have whole : 2 ^ 64 ∣ values.length := by
          have := count rfl
          omega
        exact ⟨fun isZero _ _ => isZero, fun counted => counted rfl whole⟩
    rw [result_eq_some, add_first first fits, ← zero]
    constructor
    · rintro ⟨same, -⟩
      have noSum : values.sum = 0 := by omega
      rw [noSum, zero_add]
      exact ⟨rfl, fits⟩
    · rintro ⟨noSum, -⟩
      rw [noSum, zero_add]
      exact ⟨rfl, (range fits).1.ne'⟩
  have nonempty : values ≠ [] := by
    rintro rfl
    cases func with
    | sum => exact first (by simpa [Group.isFirst, Group.result, total] using result)
    | avg => exact first (by simpa [Group.isFirst] using count rfl)
  have counted : CountFits func values := by
    rintro rfl whole
    exact absurd (count rfl) fun zero => first (by simp [Group.isFirst]; omega)
  have isSum : g.sum = values.sum := (result_eq_some.mp (result.trans (if_neg nonempty))).1
  have bounds := range (known nonempty)
  have bounds' := range fits
  rw [and_iff_right counted, result_eq_some]
  unfold null at bounds bounds'
  cases column with
  | wide =>
    simp only [Group.add, first, isSum]
    exact int128_iff _
  | integer =>
    simp only [Group.add, first, isSum, (longDouble_eq_iff _).mpr fits.2, (longDouble_eq_iff
      _).mpr (known nonempty).2]
    exact int128_longDouble_iff (by omega)

end Steps

namespace Partial

variable {func : Func} {column : Column}

lemma values_cons (v : Value column) (rows : List (Option (Value column))) :
    (part (some v :: rows)).values = v.val :: (part rows).values := rfl

variable {rows : List (Option (Value column))}

lemma RowsFit.fits (fit : RowsFit func rows) (nonempty : (part rows).values ≠ []) :
    Fits column (part rows).values.sum := by
  induction rows with
  | nil => exact absurd rfl nonempty
  | cons v rows ih =>
    cases v with
    | none => exact ih fit nonempty
    | some v =>
      rw [values_cons, sum_cons, add_comm]
      exact fit.2.2

variable {p : Partial column}

lemma AllFit.fits (fit : p.AllFit func) (nonempty : p.values ≠ []) : Fits .wide p.values.sum := by
  induction p with
  | part rows =>
    have fits := RowsFit.fits fit nonempty
    cases column with
    | integer => exact fits.1
    | wide => exact fits
  | combined left right ih _ =>
    obtain ⟨fitLeft, -, empty | ⟨-, fits⟩⟩ := fit
    · simp only [values, empty, append_nil] at nonempty ⊢
      exact ih fitLeft nonempty
    · rwa [values, sum_append]

lemma RowsExact.exact (exact : RowsExact func rows) : (part rows).Exact func := by
  cases rows with
  | nil => rfl
  | cons v rows => exact exact.2

lemma AllExact.exact (exact : p.AllExact func) : p.Exact func := by
  cases p with
  | part rows => exact RowsExact.exact exact
  | combined left right => exact exact.2.2

lemma count_add {g : Group} {v : Int} {n : Nat} (avg : func = .avg) :
    (g.add func column v n).count = (g.count + n) % 2 ^ 64 := by
  subst avg
  rfl

lemma eval_combined (left right : Partial column) (exact : right.Exact func) :
    (combined left right).eval func = if right.values = [] then left.eval func else
      (left.eval func).add func .wide right.values.sum (right.eval func).count := by
  rw [eval, combine]
  by_cases empty : right.values = []
  · have isNull : (right.eval func).sum = null := by
      simpa [Exact, Group.result, total, empty] using exact
    rw [if_pos isNull, if_pos empty]
  · have known := result_eq_some.mp (Eq.trans exact (if_neg empty))
    rw [known.1, if_neg known.2, if_neg empty]

lemma count_part (avg : func = .avg) :
    ((part rows).eval func).count = (part rows).values.length % 2 ^ 64 := by
  induction rows with
  | nil => rfl
  | cons v rows ih =>
    cases v with
    | none => exact ih
    | some v =>
      have step : ((part (some v :: rows)).eval func).count =
        (((part rows).eval func).count + 1) % 2 ^ 64 := count_add avg
      rw [step, ih, values_cons, length_cons, Nat.mod_add_mod]

lemma AllExact.count (exact : p.AllExact func) (avg : func = .avg) :
    (p.eval func).count = p.values.length % 2 ^ 64 := by
  induction p with
  | part rows => exact count_part avg
  | combined left right ihLeft ihRight =>
    rw [eval_combined left right exact.2.1.exact, values, length_append]
    split
    · next empty => rw [ihLeft exact.1, empty, length_nil, Nat.add_zero]
    · rw [count_add avg, ihLeft exact.1, ihRight exact.2.1, ← Nat.add_mod]

lemma rowsExact_iff (rows : List (Option (Value column))) :
    RowsExact func rows ↔ RowsFit func rows := by
  induction rows with
  | nil => exact Iff.rfl
  | cons v rows ih =>
    cases v with
    | none => exact ⟨fun exact => ih.mp exact.1, fun fit => ⟨ih.mpr fit, (ih.mpr fit).exact⟩⟩
    | some v =>
      rw [RowsFit, ← ih]
      refine and_congr_right fun exact => ?_
      have step := add_exact_iff (n := 1) exact.exact count_part (ih.mp exact).fits v.fits
      rw [← step, add_comm]
      rfl

/-- Every field on the way is exact if and only if every sum on the way fits. -/
theorem sums_exact_iff (p : Partial column) : p.AllExact func ↔ p.AllFit func := by
  induction p with
  | part rows => exact rowsExact_iff rows
  | combined left right ihLeft ihRight =>
    rw [AllFit, ← ihLeft, ← ihRight]
    refine and_congr_right fun exactLeft => and_congr_right fun exactRight => ?_
    rw [Exact, eval_combined left right exactRight.exact, values]
    by_cases empty : right.values = []
    · simp only [empty, true_or, iff_true, append_nil]
      exact exactLeft.exact
    have step := add_exact_iff (n := (right.eval func).count) exactLeft.exact exactLeft.count
      (ihLeft.mp exactLeft).fits ((ihRight.mp exactRight).fits empty)
    rw [if_neg empty, or_iff_right empty, ← step, total, if_neg (by simp [empty]),
      sum_append]

def twoRows : Partial .integer := part [some ⟨4, by decide⟩, some ⟨2 ^ 64 - 3, by decide⟩]

/-- The BIGINT UNSIGNED values 2^64 - 3 and 4 have the sum 2^64. -/
theorem last_bit_lost : ¬ twoRows.Exact .sum := by
  unfold Exact
  decide +kernel

end Partial

end AggSum
