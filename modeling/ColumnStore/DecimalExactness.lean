import ColumnStore.DecimalArithmetic

/-!
# Where decimal arithmetic is exact

First the operations are brought from words to numbers: what each of them ends with, as a
function of the numbers in the members it reads. There the differences from exact arithmetic
can be read off. The table of powers for words of 64 bits has an entry that does not fit in such
a word and no entries after it, the product of the least number and minus one is taken for
exact, a product with zero is divided by zero, and the functions for words of 64 bits read the
member `value` of a wide decimal too.
-/

namespace DecimalArithmetic

open CheckedWords BitVec Except

lemma bits_pos (T : Storage) : 0 < T.bits := by cases T <;> decide

/-- There is an entry for `d` digits. -/
def InTable (T : Storage) (d : Nat) : Prop := T = .int64 → d < 20
  deriving Decidable

/-- The number that a word of the table stands for. -/
def factor (T : Storage) (d : Nat) : Int :=
  if T = .int64 ∧ d = 19 then 10 ^ 19 - 2 ^ 64 else 10 ^ d

/-- A number brought up by `d` digits. -/
def scaled (T : Storage) (a : Int) (d : Nat) : Except Stop Int :=
  if InTable T d then fitted T (a * factor T d) else .error .outOfTable

/-- A product as the check lets it pass. -/
def productPassed (T : Storage) (a b : Int) : Except Stop Int :=
  if LeastByMinusOne T.bits a b then .ok a else fitted T (a * b)

/-- What an operation ends with, for the numbers in the members that it reads. -/
def ends (T : Storage) (o : Operation) (a b : Int) (l r result : Decimal) : Except Stop Int :=
  match o with
  | .addition => do
      let a ← scaled T a (result.scale - l.scale)
      let b ← scaled T b (result.scale - r.scale)
      fitted T (a + b)
  | .subtraction => do
      let a ← scaled T a (result.scale - l.scale)
      let b ← scaled T b (result.scale - r.scale)
      fitted T (a - b)
  | .multiplication =>
    if T = .int64 ∧ b = 0 then .error .divisionByZero
    else do
      let product ← productPassed T a b
      scaled T product (result.scale - (l.scale + r.scale))

lemma factor_ne_zero (T : Storage) (d : Nat) : factor T d ≠ 0 := by
  unfold factor
  split
  · decide
  · positivity

lemma factor_ne_minus_one (T : Storage) (d : Nat) : factor T d ≠ -1 := by
  have positive : (0 : Int) < 10 ^ d := by positivity
  unfold factor
  split
  · decide
  · omega

variable {w : Nat} {T : Storage}

lemma fitted_toInt (bits : w = T.bits) (x : BitVec w) : fitted T x.toInt = .ok x.toInt := by
  subst bits
  exact if_pos (fits_toInt (bits_pos T) x)

section Words

variable {w : Nat} {T : Storage} (bits : w = T.bits)

include bits

variable (x y : BitVec w)

lemma addition_numbers :
    (do additionOverflowCheck x y; pure (x + y) : Except Stop (BitVec w)).map BitVec.toInt =
      fitted T (x.toInt + y.toInt) := by
  subst bits
  obtain ⟨low, high⟩ := fits_toInt (bits_pos T) x
  unfold additionOverflowCheck fitted
  by_cases fits : Fits T.bits (x.toInt + y.toInt)
  · rw [if_pos fits, if_neg]
    · exact congrArg ok (by rw [toInt_add, bmod_of_fits (bits_pos T) fits])
    · obtain ⟨low', high'⟩ := fits
      omega
  · rw [if_neg fits, if_pos]
    · rfl
    · unfold Fits at fits
      omega

lemma subtraction_numbers :
    (do subtractionOverflowCheck x y; pure (x - y) : Except Stop (BitVec w)).map BitVec.toInt =
      fitted T (x.toInt - y.toInt) := by
  subst bits
  obtain ⟨low, high⟩ := fits_toInt (bits_pos T) x
  unfold subtractionOverflowCheck fitted
  by_cases fits : Fits T.bits (x.toInt - y.toInt)
  · rw [if_pos fits, if_neg]
    · exact congrArg ok (by rw [toInt_sub, bmod_of_fits (bits_pos T) fits])
    · obtain ⟨low', high'⟩ := fits
      omega
  · rw [if_neg fits, if_pos]
    · rfl
    · unfold Fits at fits
      omega

lemma multiplication_numbers (nonzero : y.toInt ≠ 0) :
    (multiplicationOverflowCheck x y).map BitVec.toInt = productPassed T x.toInt y.toInt := by
  subst bits
  have isNonzero : y ≠ 0 := by
    rintro rfl
    exact nonzero toInt_zero
  have divided := sdiv_mul_eq_iff (bits_pos T) x y nonzero
  simp only [multiplicationOverflowCheck, if_neg isNonzero, ne_eq, divided, productPassed, fitted]
  by_cases least : LeastByMinusOne T.bits x.toInt y.toInt
  · rw [if_neg (not_not_intro (.inr least)), if_pos least]
    refine congrArg ok ?_
    rw [toInt_mul, least.1, least.2]
    simp [bmod_half (bits_pos T)]
  rw [if_neg least]
  by_cases fits : Fits T.bits (x.toInt * y.toInt)
  · rw [if_neg (not_not_intro (.inl fits)), if_pos fits]
    exact congrArg ok (toInt_mul_of_fits (bits_pos T) x y fits)
  · rw [if_pos (not_or.mpr ⟨fits, least⟩), if_neg fits]
    rfl

end Words

lemma bind_numbers {v : Nat} {run : Except Stop (BitVec w)} {numbers : Except Stop Int}
    (first : run.map BitVec.toInt = numbers) {next : BitVec w → Except Stop (BitVec v)}
    {nextNumbers : Int → Except Stop Int}
    (rest : ∀ x, (next x).map BitVec.toInt = nextNumbers x.toInt) :
    (run >>= next).map BitVec.toInt = numbers >>= nextNumbers := by
  subst first
  cases run with
  | error stop => rfl
  | ok x => exact rest x

lemma pure_numbers (x : BitVec w) :
    (pure x : Except Stop (BitVec w)).map BitVec.toInt = .ok x.toInt := rfl

lemma ok_bind (a : Int) (next : Int → Except Stop Int) : (.ok a >>= next) = next a := rfl

lemma readTable_eq (d : Nat) :
    readTable mcsPow10 d = if d < 20 then .ok (10 ^ d) else .error .outOfTable := by
  unfold readTable mcsPow10
  by_cases inside : d < 20 <;> simp [inside]

variable {d : Nat}

lemma factor64 (inside : d < 20) : (BitVec.ofNat 64 (10 ^ d)).toInt = factor .int64 d := by
  have all : ∀ d < 20, (BitVec.ofNat 64 (10 ^ d)).toInt = factor .int64 d := by decide
  exact all d inside

lemma getScaleDivisor_eq (inside : d ≤ 38) :
    getScaleDivisor (BitVec.ofNat 8 d) = .ok (BitVec.ofNat 128 (10 ^ d)) := by
  have all : ∀ d < 39, getScaleDivisor (BitVec.ofNat 8 d) = .ok (BitVec.ofNat 128 (10 ^ d)) := by
    decide
  exact all d (Nat.lt_succ_of_le inside)

lemma factor128 (inside : d ≤ 38) : (BitVec.ofNat 128 (10 ^ d)).toInt = factor .int128 d := by
  have all : ∀ d < 39, (BitVec.ofNat 128 (10 ^ d)).toInt = factor .int128 d := by decide
  exact all d (Nat.lt_succ_of_le inside)

/-- Multiplying with an entry of the table is never the product that the check gets wrong. -/
lemma productPassed_factor (T : Storage) (a : Int) (d : Nat) :
    productPassed T a (factor T d) = fitted T (a * factor T d) :=
  if_neg fun least => factor_ne_minus_one T d least.2

lemma scaleUp64 (v : BitVec 64) (d : Nat) :
    (do let power ← readTable mcsPow10 d
        multiplicationOverflowCheck v (BitVec.ofNat 64 power) :
      Except Stop (BitVec 64)).map BitVec.toInt = scaled .int64 v.toInt d := by
  rw [readTable_eq]
  by_cases inside : d < 20
  · have isFactor := factor64 inside
    have entry : InTable .int64 d := fun _ => inside
    rw [if_pos inside, scaled, if_pos entry, ← productPassed_factor, ← isFactor]
    exact multiplication_numbers (T := .int64) rfl v _ (isFactor ▸ factor_ne_zero _ _)
  · rw [if_neg inside, scaled, if_neg (by simpa [InTable] using inside)]
    rfl

lemma scaleUp128 (v : BitVec 128) (inside : d ≤ 38) :
    (multiplicationOverflowCheck v (BitVec.ofNat 128 (10 ^ d))).map BitVec.toInt =
      scaled .int128 v.toInt d := by
  have isFactor := factor128 inside
  rw [scaled, ← productPassed_factor, ← isFactor]
  exact multiplication_numbers (T := .int128) rfl v _ (isFactor ▸ factor_ne_zero _ _)

lemma scaled_zero (bits : w = T.bits) (v : BitVec w) : scaled T v.toInt 0 = .ok v.toInt := by
  have inside : InTable T 0 := by simp [InTable]
  have one : factor T 0 = 1 := by simp [factor]
  rw [scaled, if_pos inside, one, Int.mul_one, fitted_toInt bits]

lemma multiplicationOverflowCheck_bind (x y : BitVec w) :
    (do let _ ← multiplicationOverflowCheck x y; pure (x * y) : Except Stop (BitVec w)) =
      multiplicationOverflowCheck x y := by
  unfold multiplicationOverflowCheck
  by_cases zero : y = 0
  · simp only [if_pos zero]
    rfl
  · simp only [if_neg zero]
    split <;> rfl

variable {resultScale : Nat}

variable (f : RoundedQuotients)

lemma rescale64_numbers (v : BitVec 64) {scale : Nat}
    (roomy : scale ≤ resultScale) :
    (rescale64 f v scale resultScale).map BitVec.toInt =
      scaled .int64 v.toInt (resultScale - scale) := by
  unfold rescale64
  rcases Nat.lt_or_eq_of_le roomy with less | rfl
  · rw [if_pos less]
    exact scaleUp64 v _
  · rw [Nat.sub_self, if_neg (Nat.lt_irrefl _), if_neg (Nat.lt_irrefl _)]
    exact (scaled_zero (T := .int64) rfl v).symm

lemma rescale128_numbers (v : BitVec 128) {scale : Nat}
    (roomy : scale ≤ resultScale) (inside : resultScale ≤ 38) :
    (rescale128 f v scale resultScale).map BitVec.toInt =
      scaled .int128 v.toInt (resultScale - scale) := by
  unfold rescale128
  rcases Nat.lt_or_eq_of_le roomy with less | rfl
  · rw [if_pos less, getScaleDivisor_eq (by omega), ← scaleUp128 v (by omega),
      ← multiplicationOverflowCheck_bind]
    rfl
  · rw [Nat.sub_self, if_neg (Nat.lt_irrefl _), if_neg (Nat.lt_irrefl _)]
    exact (scaled_zero (T := .int128) rfl v).symm

section Sums

variable {w : Nat} {T : Storage} (bits : w = T.bits)
  {rescale : BitVec w → Nat → Nat → Except Stop (BitVec w)}
  {op : BitVec w → BitVec w → BitVec w} {opOverflowCheck : BitVec w → BitVec w → Except Stop Unit}
  {sum : Int → Int → Int}

include bits

lemma addSubtract_numbers {lScale rScale : Nat}
    (rescaled : ∀ v scale, scale = lScale ∨ scale = rScale →
      (rescale v scale resultScale).map BitVec.toInt = scaled T v.toInt (resultScale - scale))
    (checked : ∀ x y, (do opOverflowCheck x y; pure (op x y) : Except Stop (BitVec w)).map
      BitVec.toInt = fitted T (sum x.toInt y.toInt))
    (lValue rValue : BitVec w) :
    (addSubtract rescale op opOverflowCheck lValue rValue lScale rScale resultScale).map
        BitVec.toInt =
      (do
        let a ← scaled T lValue.toInt (resultScale - lScale)
        let b ← scaled T rValue.toInt (resultScale - rScale)
        fitted T (sum a b)) := by
  unfold addSubtract
  split
  case isTrue same =>
    rw [checked, ← same.1, ← same.2, Nat.sub_self, scaled_zero bits, scaled_zero bits]
    rfl
  case isFalse =>
    refine bind_numbers (rescaled _ _ (.inl rfl)) fun x => ?_
    exact bind_numbers (rescaled _ _ (.inr rfl)) fun y => checked x y

end Sums

/-- The member that an operation reads. -/
def operand (T : Storage) (d : Decimal) : Int :=
  match T with
  | .int64 => d.value.toInt
  | .int128 => d.integer

lemma wideValue_toInt (d : Decimal) : (wideValue d).toInt = d.integer := by
  unfold wideValue Decimal.integer
  split
  · rfl
  · exact toInt_signExtend_of_le (by decide)

variable {l r result : Decimal}

lemma multiplication64_numbers (roomy : l.scale + r.scale ≤ result.scale) :
    (multiplication64 f l r result).map BitVec.toInt =
      ends .int64 .multiplication l.value.toInt r.value.toInt l r result := by
  rw [multiplication64, if_pos roomy, ends]
  by_cases zero : r.value.toInt = 0
  · have isZero : r.value = 0 := eq_of_toInt_eq (by rw [zero]; exact toInt_zero.symm)
    rw [isZero]
    rfl
  · rw [if_neg fun both => zero both.2]
    exact bind_numbers (multiplication_numbers (T := .int64) rfl _ _ zero) fun product =>
      scaleUp64 product _

lemma fitted_zero (T : Storage) : fitted T 0 = .ok 0 := if_pos (fits_zero _)

variable {a b : Int}

lemma productPassed_zero (product : a * b = 0) : productPassed T a b = .ok 0 := by
  have notLeast : ¬ LeastByMinusOne T.bits a b := by
    rintro ⟨rfl, rfl⟩
    have positive : (0 : Int) < 2 ^ (T.bits - 1) := by positivity
    omega
  rw [productPassed, if_neg notLeast, product, fitted_zero]

lemma multiplication128_numbers (roomy : l.scale + r.scale ≤ result.scale) :
    (multiplication128 f l r result).map BitVec.toInt =
      ends .int128 .multiplication l.integer r.integer l r result := by
  have inside : result.scale - (l.scale + r.scale) ≤ 38 := by
    have := result.scale_le
    omega
  have wide : ¬ (Storage.int128 = Storage.int64 ∧ r.integer = 0) := nofun
  rw [multiplication128, ends, if_neg wide, if_pos roomy, getScaleDivisor_eq inside,
    ← wideValue_toInt l, ← wideValue_toInt r]
  by_cases zero : wideValue l = 0 ∨ wideValue r = 0
  · have product : (wideValue l).toInt * (wideValue r).toInt = 0 := by
      rcases zero with isZero | isZero <;> simp [isZero]
    have isZero : (0 : BitVec 128).toInt = 0 := toInt_zero
    have entry : InTable .int128 (result.scale - (l.scale + r.scale)) := nofun
    rw [if_pos zero, productPassed_zero product, pure_numbers, isZero, ok_bind,
      scaled, if_pos entry, Int.zero_mul, fitted_zero]
  rw [if_neg zero]
  have nonzero : (wideValue r).toInt ≠ 0 := fun isZero => zero (.inr
    (eq_of_toInt_eq (by rw [isZero]; exact toInt_zero.symm)))
  exact bind_numbers (multiplication_numbers (T := .int128) rfl _ _ nonzero) fun product =>
    scaleUp128 product inside

lemma execute_eq (T : Storage) (o : Operation) (roomy : Roomy o l r result) :
    execute f T o l r result = ends T o (operand T l) (operand T r) l r result := by
  have inside := result.scale_le
  have up64 : ∀ v scale, scale ≤ result.scale →
      (rescale64 f v scale result.scale).map BitVec.toInt =
        scaled .int64 v.toInt (result.scale - scale) :=
    fun v _ room => rescale64_numbers f v room
  have up128 : ∀ v scale, scale ≤ result.scale →
      (rescale128 f v scale result.scale).map BitVec.toInt =
        scaled .int128 v.toInt (result.scale - scale) :=
    fun v _ room => rescale128_numbers f v room inside
  have room : o ≠ .multiplication → ∀ scale, scale = l.scale ∨ scale = r.scale →
      scale ≤ result.scale := by
    rintro isSum scale isScale
    cases o with
    | multiplication => exact absurd rfl isSum
    | addition | subtraction =>
      obtain ⟨left, right⟩ := roomy
      rcases isScale with rfl | rfl
      · exact left
      · exact right
  cases T <;> cases o
  · exact addSubtract_numbers (T := .int64) rfl
      (fun v scale isScale => up64 v scale (room nofun scale isScale)) (addition_numbers rfl) _ _
  · exact addSubtract_numbers (T := .int64) rfl
      (fun v scale isScale => up64 v scale (room nofun scale isScale)) (subtraction_numbers rfl) _ _
  · exact multiplication64_numbers f roomy
  · have sum := addSubtract_numbers (w := 128) (T := .int128) rfl
      (fun v scale isScale => up128 v scale (room nofun scale isScale)) (addition_numbers rfl)
      (wideValue l) (wideValue r)
    rwa [wideValue_toInt, wideValue_toInt] at sum
  · have difference := addSubtract_numbers (w := 128) (T := .int128) rfl
      (fun v scale isScale => up128 v scale (room nofun scale isScale)) (subtraction_numbers rfl)
      (wideValue l) (wideValue r)
    rwa [wideValue_toInt, wideValue_toInt] at difference
  · exact multiplication128_numbers f roomy

/-- Where a sum or difference of the numbers `a` and `b` is exact. The first operand is brought up
by an entry of the table, and unless that overflows the second one too; unless then something
overflows, the entries must have been the powers of ten. -/
def ExactSum (T : Storage) (sum : Int → Int → Int) (a b : Int) (dl dr : Nat) : Prop :=
  InTable T dl ∧ (Fits T.bits (a * factor T dl) →
    InTable T dr ∧ (Fits T.bits (b * factor T dr) →
      Fits T.bits (sum (a * factor T dl) (b * factor T dr)) →
        a * factor T dl = a * 10 ^ dl ∧ b * factor T dr = b * 10 ^ dr))
  deriving Decidable

/-- Where a product of the numbers `a` and `b` is exact. Words of 64 bits are not multiplied by
zero, the least number is multiplied by minus one only to be brought up to an overflow, and a
product that fits is brought up by an entry of the table that is the power of ten or leads to
an overflow. -/
def ExactProduct (T : Storage) (a b : Int) (d : Nat) : Prop :=
  (T = .int64 → b ≠ 0) ∧
  (LeastByMinusOne T.bits a b → InTable T d ∧ ¬ Fits T.bits (a * factor T d)) ∧
  (Fits T.bits (a * b) → InTable T d ∧
    (Fits T.bits (a * b * factor T d) → a * b * factor T d = a * b * 10 ^ d))
  deriving Decidable

/-- Where an operation is exact whose members hold the operands. -/
def Exact (T : Storage) (o : Operation) (a b : Int) (l r result : Decimal) : Prop :=
  match o with
  | .addition => ExactSum T (· + ·) a b (result.scale - l.scale) (result.scale - r.scale)
  | .subtraction => ExactSum T (· - ·) a b (result.scale - l.scale) (result.scale - r.scale)
  | .multiplication => ExactProduct T a b (result.scale - (l.scale + r.scale))

instance (T : Storage) (o : Operation) (a b : Int) (l r result : Decimal) :
    Decidable (Exact T o a b l r result) :=
  match o with
  | .addition | .subtraction => inferInstanceAs (Decidable (ExactSum ..))
  | .multiplication => inferInstanceAs (Decidable (ExactProduct ..))

lemma wrong_factor (wrong : factor T d ≠ 10 ^ d) {x : Int} (fits : Fits T.bits (x * 10 ^ d)) :
    x = 0 := by
  unfold factor at wrong
  split at wrong
  case isFalse => exact absurd rfl wrong
  case isTrue last =>
    obtain ⟨rfl, rfl⟩ := last
    obtain ⟨low, high⟩ := fits
    simp only [Storage.bits] at low high
    omega

/-- A number that fits after it was brought up exactly also fits with the entry of the table,
and they are the same number. -/
lemma factor_of_fits {x : Int} (fits : Fits T.bits (x * 10 ^ d)) :
    x * factor T d = x * 10 ^ d := by
  by_cases right : factor T d = 10 ^ d
  · rw [right]
  · rw [wrong_factor right fits, Int.zero_mul, Int.zero_mul]

lemma fits_of_mul_pow {z : Int} (fits : Fits w (z * 10 ^ d)) : Fits w z := by
  have one : (1 : Int) ≤ 10 ^ d := one_le_pow₀ (by decide)
  obtain ⟨low, high⟩ := fits
  constructor <;> nlinarith

lemma fitted_bind (T : Storage) (z : Int) (next : Int → Except Stop Int) :
    (fitted T z >>= next) = if Fits T.bits z then next z else .error .overflow := by
  unfold fitted
  split <;> rfl

lemma scaled_bind (T : Storage) (a : Int) (d : Nat) (next : Int → Except Stop Int) :
    (scaled T a d >>= next) =
      if InTable T d then
        if Fits T.bits (a * factor T d) then next (a * factor T d) else .error .overflow
      else .error .outOfTable := by
  unfold scaled
  split
  · exact fitted_bind T _ next
  · rfl

lemma sum_exact_iff (T : Storage) (sum : Int → Int → Int) (a b : Int) (dl dr : Nat) :
    (do let x ← scaled T a dl; let y ← scaled T b dr; fitted T (sum x y) : Except Stop Int) =
      (do let x ← fitted T (a * 10 ^ dl); let y ← fitted T (b * 10 ^ dr); fitted T (sum x y)) ↔
    ExactSum T sum a b dl dr := by
  have exactA : Fits T.bits (a * 10 ^ dl) → a * factor T dl = a * 10 ^ dl := factor_of_fits
  have exactB : Fits T.bits (b * 10 ^ dr) → b * factor T dr = b * 10 ^ dr := factor_of_fits
  simp only [scaled_bind, fitted_bind, ExactSum]
  generalize a * factor T dl = a' at *
  generalize b * factor T dr = b' at *
  generalize a * 10 ^ dl = x at *
  generalize b * 10 ^ dr = y at *
  by_cases fitsA : Fits T.bits x
  · obtain rfl := exactA fitsA
    by_cases fitsB : Fits T.bits y
    · obtain rfl := exactB fitsB
      by_cases entryA : InTable T dl <;> by_cases entryB : InTable T dr <;>
        by_cases fits : Fits T.bits (sum a' b') <;> simp [fitsA, fitsB, entryB, fitted, fits]
    have differs : Fits T.bits b' → b' ≠ y := fun fits same => fitsB (same ▸ fits)
    by_cases fitsB' : Fits T.bits b' <;> by_cases entryA : InTable T dl <;>
      by_cases entryB : InTable T dr <;> by_cases fits : Fits T.bits (sum a' b') <;>
      simp_all [fitted]
  · have differs : Fits T.bits a' → a' ≠ x := fun fits same => fitsA (same ▸ fits)
    by_cases fitsA' : Fits T.bits a' <;> by_cases fitsB' : Fits T.bits b' <;>
      by_cases entryA : InTable T dl <;> by_cases entryB : InTable T dr <;>
      by_cases fits : Fits T.bits (sum a' b') <;> simp_all [fitted]

lemma product_exact_iff (T : Storage) (d : Nat) (fitsA : Fits T.bits a) (fitsB : Fits T.bits b) :
    (if T = .int64 ∧ b = 0 then .error .divisionByZero
      else do let product ← productPassed T a b; scaled T product d : Except Stop Int) =
      (do let x ← fitted T a; let y ← fitted T b; fitted T (x * y * 10 ^ d)) ↔
    ExactProduct T a b d := by
  have exact : Fits T.bits (a * b * 10 ^ d) → a * b * factor T d = a * b * 10 ^ d := factor_of_fits
  rw [fitted_bind, if_pos fitsA, fitted_bind, if_pos fitsB]
  unfold ExactProduct
  by_cases trap : T = .int64 ∧ b = 0
  · rw [if_pos trap]
    simp only [trap.1, trap.2]
    unfold fitted
    split <;> simp
  have noTrap : T = .int64 → b ≠ 0 := fun narrow zero => trap ⟨narrow, zero⟩
  rw [if_neg trap, and_iff_right noTrap]
  by_cases least : LeastByMinusOne T.bits a b
  · have tooLarge : ¬ Fits T.bits (a * b) := by
      rw [least.1, least.2]
      exact fun fits => absurd fits.2 (by simp)
    have tooLarge' : ¬ Fits T.bits (a * b * 10 ^ d) := fun fits => tooLarge (fits_of_mul_pow fits)
    rw [productPassed, if_pos least, ok_bind, scaled, fitted, fitted, if_neg tooLarge']
    by_cases entry : InTable T d <;> by_cases fits : Fits T.bits (a * factor T d) <;>
      simp [least, tooLarge, entry]
  rw [productPassed, if_neg least, fitted_bind]
  by_cases fits : Fits T.bits (a * b)
  · rw [scaled]
    by_cases fitsExact : Fits T.bits (a * b * 10 ^ d)
    · rw [exact fitsExact]
      by_cases entry : InTable T d <;> simp [least, fits, fitted, fitsExact]
    have differs : Fits T.bits (a * b * factor T d) →
        a * b * factor T d ≠ a * b * 10 ^ d := fun fits' same => fitsExact (same ▸ fits')
    by_cases entry : InTable T d <;> by_cases fits' : Fits T.bits (a * b * factor T d) <;>
      simp_all [fitted]
  · have tooLarge : ¬ Fits T.bits (a * b * 10 ^ d) := fun fits' => fits (fits_of_mul_pow fits')
    simp [least, fits, fitted, tooLarge]

/-- The members that an operation reads hold its operands. Only the functions for words of 64
bits can be given wide decimals, whose integers are in the other member. -/
def HoldOperands (T : Storage) (l r : Decimal) : Prop :=
  operand T l = l.integer ∧ operand T r = r.integer
  deriving Decidable

lemma fits_operand (T : Storage) (d : Decimal) : Fits T.bits (operand T d) := by
  cases T with
  | int64 => exact fits_toInt (by decide) d.value
  | int128 =>
    rw [operand, ← wideValue_toInt]
    exact fits_toInt (by decide) (wideValue d)

lemma ends_eq_exactly_iff (T : Storage) (o : Operation) (l r result : Decimal)
    (fitsA : Fits T.bits a) (fitsB : Fits T.bits b) :
    ends T o a b l r result = exactly T o a b l r result ↔ Exact T o a b l r result := by
  cases o with
  | addition => exact sum_exact_iff T (· + ·) a b _ _
  | subtraction => exact sum_exact_iff T (· - ·) a b _ _
  | multiplication => exact product_exact_iff T _ fitsA fitsB

/-- With room for all digits, an operation whose members hold the operands ends with the exact
result, or with an overflow when that or a rescaled operand does not fit, exactly where `Exact`
says so. -/
theorem execute_exactly_iff (f : RoundedQuotients) (T : Storage) (o : Operation)
    {l r result : Decimal} (roomy : Roomy o l r result) (held : HoldOperands T l r) :
    execute f T o l r result = exactly T o l.integer r.integer l r result ↔
      Exact T o l.integer r.integer l r result := by
  rw [execute_eq f T o roomy, held.1, held.2]
  exact ends_eq_exactly_iff T o l r result (held.1 ▸ fits_operand T l) (held.2 ▸ fits_operand T r)

/-- Quotients that are never needed with enough room. -/
def noQuotients : RoundedQuotients := ⟨fun v _ => v, fun v _ => v⟩

/-- A decimal of at most 18 digits. -/
def narrowDecimal (value : BitVec 64) (scale : Nat) (scale_le : scale ≤ 38) : Decimal :=
  ⟨value, 0, scale, 18, scale_le, by decide⟩

/-- A decimal of up to 38 digits. -/
def wideDecimal (value : BitVec 128) (scale : Nat) (scale_le : scale ≤ 38) : Decimal :=
  ⟨0, value, scale, 38, scale_le, by decide⟩

/-- `1.5 + 2.25` with two digits after the point. -/
theorem execute_exactly_sum :
    execute noQuotients .int64 .addition (narrowDecimal 15 1 (by decide))
      (narrowDecimal 225 2 (by decide)) (narrowDecimal 0 2 (by decide)) = .ok 375 :=
  ((execute_exactly_iff noQuotients .int64 .addition (by decide) (by decide)).mpr
    (by decide)).trans (by decide)

/-- With words of 64 bits `5 * 0` divides by zero, the least number times minus one is itself, 1
with nineteen digits more is a negative number, with twenty it is read from outside the table, and
the sum of the wide decimals 1 and 2 is 0. With words of 128 bits the least number times minus one
is itself too. -/
theorem execute_not_exactly :
    let integer64 := fun v => narrowDecimal v 0 (by decide)
    let integer128 := fun v => wideDecimal v 0 (by decide)
    execute noQuotients .int64 .multiplication (integer64 5) (integer64 0) (integer64 0) =
      .error .divisionByZero ∧
    execute noQuotients .int64 .multiplication (integer64 (intMin 64)) (integer64 (-1))
      (integer64 0) = .ok (-2 ^ 63) ∧
    execute noQuotients .int64 .addition (integer64 1) (integer64 0)
      (narrowDecimal 0 19 (by decide)) = .ok (10 ^ 19 - 2 ^ 64) ∧
    execute noQuotients .int64 .addition (integer64 0) (integer64 0)
      (narrowDecimal 0 20 (by decide)) = .error .outOfTable ∧
    execute noQuotients .int64 .addition (integer128 1) (integer128 2) (integer64 0) = .ok 0 ∧
    execute noQuotients .int128 .multiplication (integer128 (intMin 128)) (integer128 (-1))
      (integer128 0) = .ok (-2 ^ 127) := by
  decide

end DecimalArithmetic
