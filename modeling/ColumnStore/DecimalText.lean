import Mathlib.Data.Rat.Floor

/-!
# Decimal numerals

A numeral is a sign, the digits before the point and, if there is a point, the digits behind it.
This module has its text, the rational number it denotes, and how that number changes when digits
are moved over the point. A literal is a numeral with an optional exponent.
-/

namespace DecimalText

open List Nat

abbrev Digit := Fin 10

instance ten_ne_zero : NeZero 10 := ⟨by decide⟩

def digitChar (d : Digit) : Char := Char.ofNat (48 + d.val)

def chars (digits : List Digit) : List Char := digits.map digitChar

/-- The number with the given decimal digits, most significant first. -/
def value (digits : List Digit) : Nat := digits.foldl (fun n d => 10 * n + d.val) 0

variable (d : Digit)

lemma digitChar_toNat : (digitChar d).toNat = 48 + d.val := by
  revert d
  decide

lemma digitChar_isDigit : (digitChar d).isDigit := by
  revert d
  decide

variable (digits : List Digit)

@[simp] lemma length_chars : (chars digits).length = digits.length :=
  length_map _

@[simp] lemma chars_nil : chars [] = [] := rfl

@[simp] lemma chars_append (a b : List Digit) : chars (a ++ b) = chars a ++ chars b :=
  map_append

variable (n : Nat)

lemma chars_take (digits : List Digit) : chars (digits.take n) = (chars digits).take n :=
  map_take

lemma chars_drop (digits : List Digit) : chars (digits.drop n) = (chars digits).drop n :=
  map_drop

lemma chars_replicate : chars (replicate n 0) = replicate n '0' :=
  map_replicate

lemma chars_eq_nil {digits : List Digit} : chars digits = [] ↔ digits = [] :=
  map_eq_nil_iff

lemma isDigit_of_mem {c : Char} {digits : List Digit} (member : c ∈ chars digits) :
    c.isDigit := by
  obtain ⟨d, -, rfl⟩ := mem_map.mp member
  exact digitChar_isDigit d

lemma not_mem_chars {c : Char} (other : c.isDigit = false) (digits : List Digit) :
    c ∉ chars digits := fun member => by
  rw [isDigit_of_mem member] at other
  cases other

@[simp] lemma value_nil : value [] = 0 := rfl

lemma foldl_value :
    digits.foldl (fun n d => 10 * n + d.val) n = n * 10 ^ digits.length + value digits := by
  induction digits generalizing n with
  | nil => simp
  | cons d rest later =>
    have first : value (d :: rest) = (10 * 0 + d.val) * 10 ^ rest.length + value rest :=
      later (10 * 0 + d.val)
    rw [foldl_cons, later, first, length_cons]
    ring

lemma value_append (a b : List Digit) : value (a ++ b) = value a * 10 ^ b.length + value b := by
  rw [value, foldl_append, foldl_value]
  rfl

lemma value_cons (rest : List Digit) :
    value (d :: rest) = d.val * 10 ^ rest.length + value rest := by
  rw [value, foldl_cons, foldl_value, mul_zero, zero_add]

@[simp] lemma value_replicate_zero : value (replicate n 0) = 0 := by
  induction n with
  | zero => rfl
  | succ n earlier => rw [replicate_succ, value_cons, earlier]; simp

lemma value_lt : value digits < 10 ^ digits.length := by
  induction digits with
  | nil => decide
  | cons d rest later =>
    rw [value_cons, length_cons, pow_succ]
    have digit := d.isLt
    nlinarith

inductive Sign where
  | none | plus | minus
  deriving DecidableEq, Repr

namespace Sign

def text : Sign → List Char
  | none => []
  | plus => ['+']
  | minus => ['-']

def negative : Sign → Bool
  | minus => true
  | _ => false

/-- The number with a sign and a magnitude. -/
def apply {R : Type} [Neg R] (sign : Sign) (magnitude : R) : R :=
  if sign.negative then -magnitude else magnitude

end Sign

structure Numeral where
  sign : Sign
  int : List Digit
  frac : Option (List Digit)
  deriving DecidableEq, Repr

namespace Numeral

def fraction (n : Numeral) : List Digit := n.frac.getD []

def text (n : Numeral) : List Char :=
  n.sign.text ++ chars n.int ++ n.frac.elim [] fun f => '.' :: chars f

/-- The number without its sign. -/
def magnitude (n : Numeral) : ℚ :=
  value n.int + value n.fraction / 10 ^ n.fraction.length

def toRat (n : Numeral) : ℚ := n.sign.apply n.magnitude

lemma fraction_lt_one (digits : List Digit) : (value digits : ℚ) / 10 ^ digits.length < 1 := by
  rw [div_lt_one (by positivity)]
  exact_mod_cast value_lt digits

lemma magnitude_eq (n : Numeral) :
    n.magnitude = value (n.int ++ n.fraction) / 10 ^ n.fraction.length := by
  rw [magnitude, value_append]
  push_cast
  field_simp

lemma magnitude_nonneg (n : Numeral) : 0 ≤ n.magnitude := by
  unfold magnitude
  positivity

end Numeral

/-- The first digit behind the point is at least 5. -/
def RoundsUp (digits : List Digit) : Prop := ∃ d ∈ digits.head?, 5 ≤ d.val

instance (digits : List Digit) : Decidable (RoundsUp digits) :=
  match digits with
  | [] => isFalse fun ⟨_, member, _⟩ => by cases member
  | d :: _ => decidable_of_iff (5 ≤ d.val) (by simp [RoundsUp])

lemma roundsUp_iff :
    RoundsUp digits ↔ (1 / 2 : ℚ) ≤ value digits / 10 ^ digits.length := by
  rw [le_div_iff₀ (by positivity)]
  cases digits with
  | nil => simp [RoundsUp]
  | cons d rest =>
    have tail : (value rest : ℚ) < 10 ^ rest.length := by exact_mod_cast value_lt rest
    simp only [RoundsUp, head?_cons, Option.mem_def, Option.some.injEq, exists_eq_left']
    rw [value_cons, length_cons, pow_succ]
    push_cast
    constructor
    · intro five
      have five' : (5 : ℚ) ≤ (d.val : ℚ) := by exact_mod_cast five
      nlinarith
    intro half
    by_contra less
    have less' : (d.val : ℚ) ≤ 4 := by exact_mod_cast le_of_lt_succ (not_le.mp less)
    nlinarith

/-- Rounding to the nearest integer, a half away from zero. -/
def roundAway (x : ℚ) : Int := if 0 ≤ x then ⌊x + 1 / 2⌋ else -⌊-x + 1 / 2⌋

namespace Numeral

variable (n : Numeral)

lemma floor_magnitude : ⌊n.magnitude⌋ = value n.int := by
  rw [Int.floor_eq_iff, magnitude]
  have below := fraction_lt_one n.fraction
  have nonneg : (0 : ℚ) ≤ value n.fraction / 10 ^ n.fraction.length := by positivity
  push_cast
  constructor <;> linarith

/-- The magnitude after rounding. -/
def rounded (n : Numeral) : Nat := value n.int + if RoundsUp n.fraction then 1 else 0

lemma floor_add_half : ⌊n.magnitude + 1 / 2⌋ = n.rounded := by
  have below := fraction_lt_one n.fraction
  have nonneg : (0 : ℚ) ≤ value n.fraction / 10 ^ n.fraction.length := by positivity
  rw [Int.floor_eq_iff, magnitude, rounded]
  by_cases up : RoundsUp n.fraction
  · have half := (roundsUp_iff _).mp up
    rw [if_pos up]
    push_cast
    constructor <;> linarith
  · have half := mt (roundsUp_iff _).mpr up
    rw [if_neg up]
    push_cast
    constructor <;> linarith

lemma roundAway_toRat : roundAway n.toRat = n.sign.apply (n.rounded : Int) := by
  have nonneg := n.magnitude_nonneg
  rw [toRat, roundAway, Sign.apply, Sign.apply]
  cases n.sign.negative with
  | false =>
    simp only [Bool.false_eq_true, if_false]
    rw [if_pos nonneg, floor_add_half]
  | true =>
    simp only [if_true]
    by_cases zero : n.magnitude = 0
    · have noDigits : n.rounded = 0 := by
        have := floor_add_half n
        rw [zero] at this
        norm_num at this
        omega
      rw [zero, noDigits]
      norm_num
    · have positive : 0 < n.magnitude := lt_of_le_of_ne nonneg (Ne.symm zero)
      rw [if_neg (by linarith), neg_neg, floor_add_half]

lemma magnitude_eq_int (zero : value n.fraction = 0) :
    n.magnitude = value n.int := by
  rw [magnitude, zero, cast_zero, zero_div, add_zero]

lemma toRat_ne_int (nonzero : value n.fraction ≠ 0) (k : Int) : n.toRat ≠ k := by
  have positive : (0 : ℚ) < value n.fraction / 10 ^ n.fraction.length :=
    div_pos (by exact_mod_cast pos_of_ne_zero nonzero) (by positivity)
  -- an integer equal to the magnitude would be its own floor
  have notInt : ∀ j : Int, n.magnitude ≠ j := by
    intro j same
    have floor := n.floor_magnitude
    rw [same, Int.floor_intCast] at floor
    rw [magnitude, floor] at same
    push_cast at same
    linarith
  rw [toRat, Sign.apply]
  split
  · intro same
    refine notInt (-k) ?_
    push_cast
    linarith
  · exact notInt k

end Numeral

/-- A numeral with at least one digit and an exponent: its letter, its sign and its digits. -/
structure Literal where
  numeral : Numeral
  exponent : Option (Bool × Sign × List Digit)
  hasDigits : numeral.int ++ numeral.fraction ≠ []
  exponentDigits : ∀ e ∈ exponent, e.2.2 ≠ []

namespace Literal

/-- A numeral alone. -/
def plain (numeral : Numeral) (hasDigits : numeral.int ++ numeral.fraction ≠ []) : Literal :=
  ⟨numeral, none, hasDigits, by simp⟩

def exponentText : Bool × Sign × List Digit → List Char
  | (upper, sign, digits) => (if upper then 'E' else 'e') :: (sign.text ++ chars digits)

def text (l : Literal) : List Char := l.numeral.text ++ l.exponent.elim [] exponentText

/-- The number in the exponent. -/
def power (l : Literal) : Int := l.exponent.elim 0 fun e => e.2.1.apply (value e.2.2 : Int)

def toRat (l : Literal) : ℚ := l.numeral.toRat * 10 ^ l.power

end Literal

end DecimalText
