import ColumnStore.AggSum
import ColumnStore.DecimalExactness
import Mathlib.Tactic.IntervalCases

/-!
# The average of wide decimals

Model of what `RowAggregationUM::calculateAvgColumns` stores in a row for a column of wide
decimals. The sum is brought to a larger scale, divided by the count, and the quotient is rounded by
the remainder. An average that does not fit is refused when the sum is brought to the scale. The
average of the least word, as the only value with the scale 38, would be the marker of NULL; but
that word is the marker itself, and `doAvg` has left it out of the sum.
-/

namespace DecimalArithmetic

open CheckedWords

/-- `setScalePrecision4Avg`: the precision and the scale with up to four digits more. -/
def setScalePrecision4Avg (precision scale : Nat) : Nat × Nat :=
  (precision + (if 4 ≤ 38 - precision then 4 else 38 - precision),
    scale + (if 4 ≤ 38 - scale then 4 else 38 - scale))

/-- The digits that a sum is brought up by. -/
def scaleDiff (precision scale : Nat) : Nat := (setScalePrecision4Avg precision scale).2 - scale

/-- The quotient rounded by the remainder, in words of 128 bits. -/
def roundLastDigit (quot rem cnt : Int) : Int :=
  if cnt ≤ (rem.natAbs * 2 : Int).bmod (2 ^ 128) then
    (if rem < 0 then quot - 1 else quot + 1).bmod (2 ^ 128)
  else quot

/-- The quotient and the remainder of `lldiv128`, and the rounding. -/
def roundedQuotient (sum cnt : Int) : Int := roundLastDigit (sum.tdiv cnt) (sum.tmod cnt) cnt

/-- The sum with `scaleDiff` digits more, with the check of the product. -/
def scaledSum (sumPnt : BitVec 128) (scaleDiff : Nat) : Except Stop (BitVec 128) := do
  if 0 < scaleDiff then
    let power ← readTable mcsPow10 scaleDiff
    multiplicationOverflowCheck sumPnt (BitVec.ofNat 128 power)
  else return sumPnt

/-- The value stored for a sum and a count. -/
def calculateAvgColumn (precision scale : Nat) (sumPnt : BitVec 128) (cnt : BitVec 64) :
    Except Stop Int :=
  if cnt = 0 then .ok sumPnt.toInt
  else (scaledSum sumPnt (scaleDiff precision scale)).map fun sum =>
    roundedQuotient sum.toInt cnt.toNat

/-- The integer nearest to `v / n`, of two the one farther from zero. -/
def Nearest (v n z : Int) : Prop :=
  2 * (n * z - v).natAbs ≤ n ∧ (2 * (n * z - v).natAbs = n → v.natAbs < (n * z).natAbs)

/-- A sum is refused only if it does not fit. Otherwise the average is the nearest integer, the
remainder can be doubled, and the average is not the marker of NULL. -/
def AveragesRight (precision scale : Nat) (sum : BitVec 128) (cnt : BitVec 64) : Prop :=
  let v := sum.toInt * 10 ^ scaleDiff precision scale
  match calculateAvgColumn precision scale sum cnt with
  | .error stop => stop = .overflow ∧ ¬ Fits 128 v.natAbs
  | .ok avg => Fits 128 v ∧ Nearest v cnt.toNat avg ∧ Fits 128 ((v.tmod cnt.toNat).natAbs * 2) ∧
    avg ≠ -2 ^ 127

lemma scaleDiff_eq (precision scale : Nat) : scaleDiff precision scale = min 4 (38 - scale) := by
  simp only [scaleDiff, setScalePrecision4Avg]
  split <;> omega

lemma scaledSum_numbers (sum : BitVec 128) {d : Nat} (few : d ≤ 4) :
    (scaledSum sum d).map BitVec.toInt = fitted .int128 (sum.toInt * 10 ^ d) := by
  unfold scaledSum
  split
  case isTrue =>
    rw [readTable_eq, if_pos (by omega)]
    refine (scaleUp128 sum (by omega)).trans ?_
    simp [scaled, InTable, factor]
  case isFalse zero =>
    obtain rfl : d = 0 := by omega
    rw [pow_zero, mul_one]
    exact (fitted_toInt (T := .int128) rfl sum).symm

lemma quotient_and_remainder {v n : Int} (positive : 0 < n) : n * v.tdiv n + v.tmod n = v ∧
    (v.tmod n).natAbs < n ∧ (n * v.tdiv n).natAbs + (v.tmod n).natAbs = v.natAbs := by
  refine ⟨Int.mul_tdiv_add_tmod v n, ?_, ?_⟩
  · rw [Int.natAbs_tmod]
    have := Nat.mod_lt v.natAbs (Int.natAbs_pos.mpr positive.ne')
    omega
  -- the quotient and the remainder have the sign of the sum
  · rw [Int.natAbs_mul, Int.natAbs_tdiv, Int.natAbs_tmod]
    exact Nat.div_add_mod ..

lemma roundedQuotient_spec {v n : Int} (fits : Fits 128 v) (positive : 0 < n)
    (small : n < 2 ^ 64) :
    Nearest v n (roundedQuotient v n) ∧ Fits 128 ((v.tmod n).natAbs * 2) ∧
      (roundedQuotient v n = -2 ^ 127 ↔ v = -2 ^ 127 ∧ n = 1) := by
  obtain ⟨whole, remainder, sizes⟩ := quotient_and_remainder (v := v) positive
  unfold roundedQuotient roundLastDigit Nearest
  generalize v.tdiv n = q at *
  generalize v.tmod n = r at *
  have doubled : Fits 128 (r.natAbs * 2) := ⟨by omega, by omega⟩
  have halved : n ≠ 1 → 2 * q.natAbs ≤ (n * q).natAbs := fun several => by
    rw [Int.natAbs_mul]
    exact Nat.mul_le_mul_right _ (by omega)
  have up : n * (q + 1) = n * q + n := by rw [Int.mul_add, Int.mul_one]
  have down : n * (q - 1) = n * q - n := by rw [Int.mul_sub, Int.mul_one]
  have bounds : -2 ^ 127 ≤ v ∧ v < 2 ^ 127 := fits
  rw [bmod_of_fits (by decide) doubled, and_left_comm, and_iff_right doubled]
  split
  · have next : Fits 128 (if r < 0 then q - 1 else q + 1) := by
      split <;> constructor <;> omega
    rw [bmod_of_fits (by decide) next]
    split <;> omega
  · by_cases one : n = 1
    · subst one
      omega
    · omega

/-- Every average is refused or right, unless it is the only value, the least number, and stored
with the scale 38. -/
lemma averagesRight_iff {precision scale : Nat} {sum : BitVec 128} {cnt : BitVec 64}
    (within : scale ≤ 38) (positive : 0 < cnt.toNat) :
    AveragesRight precision scale sum cnt ↔
      ¬ (sum = BitVec.intMin 128 ∧ cnt = 1 ∧ scale = 38) := by
  have digits := scaleDiff_eq precision scale
  have numbers := scaledSum_numbers sum (d := scaleDiff precision scale) (by omega)
  have nonzero : cnt ≠ 0 := fun zero => by simp [zero] at positive
  have least : sum.toInt * 10 ^ scaleDiff precision scale = -2 ^ 127 ∧ (cnt.toNat : Int) = 1 ↔
      sum = BitVec.intMin 128 ∧ cnt = 1 ∧ scale = 38 := by
    rw [← BitVec.toInt_inj, ← BitVec.toNat_inj]
    have isLeast : (BitVec.intMin 128).toInt = -2 ^ 127 := by decide
    have one : (1 : BitVec 64).toNat = 1 := rfl
    rw [isLeast, one]
    generalize scaleDiff precision scale = d at *
    have few : d ≤ 4 := by omega
    interval_cases d <;> omega
  unfold AveragesRight calculateAvgColumn
  rw [if_neg nonzero, ← least]
  generalize sum.toInt * 10 ^ scaleDiff precision scale = v at *
  rw [fitted] at numbers
  cases outcome : scaledSum sum (scaleDiff precision scale) with
  | error stop =>
    rw [outcome] at numbers
    split at numbers
    · cases numbers
    rename_i tooLarge
    cases numbers
    simp only [Fits, Storage.bits] at tooLarge
    refine iff_of_true ⟨rfl, fun fits => ?_⟩ ?_
    · obtain ⟨low, high⟩ := fits
      omega
    · omega
  | ok x =>
    rw [outcome] at numbers
    split at numbers
    · rename_i fits
      obtain rfl : x.toInt = v := Except.ok.inj numbers
      obtain ⟨rounded, doubled, isNull⟩ := roundedQuotient_spec fits
        (Int.natCast_pos.mpr positive) (Int.ofNat_lt.mpr cnt.isLt)
      rw [← isNull]
      exact ⟨fun right => right.2.2.2, fun other => ⟨fits, rounded, doubled, other⟩⟩
    · cases numbers

/-- In a group of `AggSum` with at most `limit` values the sum of none is NULL, and that of a single
one is not. -/
structure Counted (g : AggSum.Group) (limit : Nat) : Prop where
  fits : Fits 128 g.sum
  count : g.count ≤ limit
  empty : g.count = 0 → g.sum = AggSum.null
  single : g.count = 1 → g.sum ≠ AggSum.null

lemma fits_int128 (n : Int) : Fits 128 (AggSum.int128 n) := by
  have low : -((2 ^ 128 : Nat) : Int) / 2 ≤ AggSum.int128 n := Int.le_bmod (by decide)
  have high : AggSum.int128 n < ((2 ^ 128 : Nat) + 1 : Int) / 2 := Int.bmod_lt (by decide)
  constructor <;> omega

lemma Counted.add {g : AggSum.Group} {limit more n : Nat} (counted : Counted g limit)
    {column : AggSum.Column} {v : Int} (value : AggSum.Fits column v) (positive : 0 < n)
    (within : n ≤ more) (room : limit + more < 2 ^ 64) :
    Counted (g.add .avg column v n) (limit + more) := by
  have total : (g.add .avg column v n).count = g.count + n :=
    Nat.mod_eq_of_lt (by have := counted.count; omega)
  have known : AggSum.null < v ∧ v < 2 ^ 127 := by
    cases column with
    | integer => exact value.1
    | wide => exact value
  refine ⟨?_, by have := counted.count; omega, by omega, fun one => ?_⟩
  · unfold AggSum.Group.add
    cases column with
    | integer => dsimp only; split <;> exact fits_int128 _
    | wide =>
      dsimp only
      split
      exacts [⟨known.1.le, known.2⟩, fits_int128 _]
  · rw [AggSum.add_first (by simp [AggSum.Group.isFirst]; omega) value]
    exact known.1.ne'

open AggSum.Partial in
lemma counted_eval {column : AggSum.Column} (p : AggSum.Partial column)
    (room : p.values.length < 2 ^ 64) : Counted (p.eval .avg) p.values.length := by
  induction p with
  | part rows =>
    induction rows with
    | nil => exact ⟨show Fits 128 AggSum.null by decide, le_refl 0, fun _ => rfl, nofun⟩
    | cons v rows ih =>
      cases v with
      | none => exact ih room
      | some v =>
        rw [values_cons, List.length_cons] at room ⊢
        exact (ih (by omega)).add v.fits Nat.one_pos le_rfl room
  | combined left right ih ih' =>
    simp only [AggSum.Partial.values, List.length_append] at room ⊢
    have counted := ih (by omega)
    have counted' := ih' (by omega)
    rw [eval, AggSum.combine]
    split
    · exact ⟨counted.fits, by have := counted.count; omega, counted.empty, counted.single⟩
    rename_i known
    have bounds := counted'.fits
    refine counted.add ⟨lt_of_le_of_ne bounds.1 (Ne.symm known), bounds.2⟩ ?_ counted'.count room
    exact Nat.pos_of_ne_zero fun zero => known (counted'.empty zero)

/-- Every average of a sum and a count that `doAvg` has made is refused or right. -/
theorem calculateAvgColumn_right {column : AggSum.Column} (p : AggSum.Partial column)
    {precision scale : Nat} (within : scale ≤ 38) (positive : 0 < (p.eval .avg).count)
    (room : p.values.length < 2 ^ 64) :
    AveragesRight precision scale (BitVec.ofInt 128 (p.eval .avg).sum)
      (BitVec.ofNat 64 (p.eval .avg).count) := by
  obtain ⟨fits, count, -, single⟩ := counted_eval p room
  generalize p.eval .avg = g at *
  have sum : (BitVec.ofInt 128 g.sum).toInt = g.sum := by
    rw [BitVec.toInt_ofInt, bmod_of_fits (by decide) fits]
  have cnt : (BitVec.ofNat 64 g.count).toNat = g.count := by
    rw [BitVec.toNat_ofNat, Nat.mod_eq_of_lt (by omega)]
  refine (averagesRight_iff within (by rwa [cnt])).mpr ?_
  rintro ⟨least, one, -⟩
  refine single (by rw [← cnt, one]; rfl) ?_
  rw [← sum, least]
  rfl

/-- 1, NULL and 2, and another row with 7. -/
def tenOfThree : AggSum.Partial .wide :=
  .combined (.part [some ⟨2, by decide⟩, none, some ⟨1, by decide⟩]) (.part [some ⟨7, by decide⟩])

theorem calculateAvgColumn_right_ten :
    tenOfThree.eval .avg = ⟨10, 3⟩ ∧ AveragesRight 19 0 10 3 ∧
      calculateAvgColumn 19 0 10 3 = .ok 33333 :=
  ⟨rfl, calculateAvgColumn_right tenOfThree (by decide) (by decide) (by decide), by decide⟩

end DecimalArithmetic
