import ColumnStore.DecimalText
import ColumnStore.NumberConversion
import Mathlib.Data.Fintype.Basic
import Mathlib.Tactic.FinCases

/-!
# Reading integers

What `string_to_ll` does with the text of an integer: digits are converted to the number they
denote as long as it is in the range of the type. Beyond the range the number is limited for 64
bits; for 128 bits an operation wraps, whether the code notices it or not.
-/

namespace NumberConversion

open DecimalText List Int

variable {c : Char}

lemma find_eq_none {s : List Char} (absent : c ∉ s) : find c s = none := by
  rw [find, findIdx?_eq_none_iff]
  intro x member
  exact beq_false_of_ne fun same => absent (same ▸ member)

lemma find_append {before after : List Char} (absent : c ∉ before) :
    find c (before ++ c :: after) = some before.length := by
  rw [find, findIdx?_append, ← find, find_eq_none absent, findIdx?_cons]
  simp

lemma eraseIdx_append (before after : List Char) (c : Char) :
    (before ++ c :: after).eraseIdx before.length = before ++ after := by
  rw [eraseIdx_append_of_length_le (Nat.le_refl _), Nat.sub_self]
  rfl

lemma cStr_eq {s : List Char} (absent : '\x00' ∉ s) : cStr s = s := by
  refine takeWhile_eq_self_iff.mpr fun c member => ?_
  refine decide_eq_true fun same => absent ?_
  rw [← same]
  exact member

variable (digits : List Digit)

lemma foldl_chars :
    (chars digits).foldl (fun (n : Nat) c => 10 * n + digitValue c) 0 = value digits := by
  rw [chars, foldl_map]
  simp only [digitValue, digitChar_toNat, Nat.add_sub_cancel_left]
  rfl

lemma foldl_chars_int :
    (chars digits).foldl (fun (n : Int) c => 10 * n + digitValue c) 0 = value digits := by
  rw [← foldl_chars]
  generalize chars digits = s
  suffices ∀ n : Nat, s.foldl (fun (n : Int) c => 10 * n + digitValue c) n =
      (s.foldl (fun (n : Nat) c => 10 * n + digitValue c) n : Nat) from this 0
  intro n
  induction s generalizing n with
  | nil => rfl
  | cons c rest later =>
    rw [foldl_cons, foldl_cons, ← later]
    rfl

lemma takeWhile_isDigit :
    (chars digits).takeWhile Char.isDigit = chars digits :=
  takeWhile_eq_self_iff.mpr fun _ => isDigit_of_mem

lemma dropWhile_isDigit : (chars digits).dropWhile Char.isDigit = [] :=
  dropWhile_eq_nil_iff.mpr fun _ => isDigit_of_mem

lemma dropWhile_digits {p : Char → Bool} (other : ∀ d, p (digitChar d) = false)
    (digits : List Digit) : (chars digits).dropWhile p = chars digits := by
  cases digits with
  | nil => rfl
  | cons d rest => exact dropWhile_cons_of_neg (by simp [other d])

lemma digitChar_ne (other : c.isDigit = false) (d : Digit) : digitChar d ≠ c := by
  rintro rfl
  rw [digitChar_isDigit] at other
  cases other

variable {sign : Sign}

lemma mem_sign (member : c ∈ sign.text) : c = '+' ∨ c = '-' := by
  cases sign with
  | none => cases member
  | plus => exact .inl (mem_singleton.mp member)
  | minus => exact .inr (mem_singleton.mp member)

lemma not_mem_signed (notDigit : c.isDigit = false) (notPlus : c ≠ '+') (notMinus : c ≠ '-')
    (sign : Sign) (digits : List Digit) : c ∉ sign.text ++ chars digits := by
  intro member
  rcases mem_append.mp member with inSign | inDigits
  · rcases mem_sign inSign with rfl | rfl
    · exact notPlus rfl
    · exact notMinus rfl
  · exact not_mem_chars notDigit digits inDigits

lemma cStr_signed (sign : Sign) (digits : List Digit) :
    cStr (sign.text ++ chars digits) = sign.text ++ chars digits :=
  cStr_eq (not_mem_signed (by decide) (by decide) (by decide) sign digits)

/-- A number limited to 64 bits. -/
def limited (n : Int) : Int := max IntType.int64.min (min n IntType.int64.max)

lemma takeSign_signed (sign : Sign) (digits : List Digit) :
    takeSign (sign.text ++ chars digits) = (sign.negative, chars digits) := by
  cases sign with
  | plus | minus => rfl
  | none =>
    cases digits with
    | nil => rfl
    | cons d rest => fin_cases d <;> rfl

lemma dropWhile_signed {p : Char → Bool} (other : ∀ d, p (digitChar d) = false)
    (plus : p '+' = false) (minus : p '-' = false) (sign : Sign) (digits : List Digit) :
    (sign.text ++ chars digits).dropWhile p = sign.text ++ chars digits := by
  cases sign with
  | none => exact dropWhile_digits other digits
  | plus => exact dropWhile_cons_of_neg (by simp [plus])
  | minus => exact dropWhile_cons_of_neg (by simp [minus])

variable {digits : List Digit}

lemma strtoll_signed (sign : Sign) (nonempty : digits ≠ []) :
    strtoll (sign.text ++ chars digits) =
      some (limited (sign.apply (value digits : Int)),
        decide (limited (sign.apply (value digits : Int)) ≠ sign.apply (value digits : Int)),
        []) := by
  have nonempty' : chars digits ≠ [] := fun empty => nonempty (chars_eq_nil.mp empty)
  unfold strtoll
  rw [dropWhile_signed (by decide) (by decide) (by decide), takeSign_signed]
  simp only [takeWhile_isDigit, dropWhile_isDigit, foldl_chars_int, if_neg nonempty']
  rfl

lemma stringToLl_int64 (sign : Sign) (nonempty : digits ≠ []) :
    stringToLl .int64 (sign.text ++ chars digits) = .ok
      ⟨limited (sign.apply (value digits : Int)),
        decide (limited (sign.apply (value digits : Int)) ≠ sign.apply (value digits : Int)),
        false⟩ := by
  simp only [stringToLl, cStr_signed, strtoll_signed sign nonempty]
  rfl

lemma strtoull_digits (nonempty : digits ≠ []) :
    strtoull (sign.text ++ chars digits) = some (min (value digits) (2 ^ 64 - 1),
      decide (min (value digits) (2 ^ 64 - 1) ≠ value digits), []) := by
  have nonempty' : chars digits ≠ [] := fun empty => nonempty (chars_eq_nil.mp empty)
  unfold strtoull
  rw [dropWhile_signed (by decide) (by decide) (by decide), takeSign_signed]
  simp only [takeWhile_isDigit, dropWhile_isDigit, foldl_chars, if_neg nonempty']

variable {t : IntType}

namespace IntType

/-- A number with a sign, given by its magnitude. -/
def signed (isNeg : Bool) (n : Nat) : Int := if isNeg then -n else n

/-- The largest magnitude with a sign. -/
def bound (t : IntType) (isNeg : Bool) : Nat :=
  if isNeg then 2 ^ (t.bits - 1) else 2 ^ (t.bits - 1) - 1

lemma max_eq : int64.max = 9223372036854775807 ∧
    int128.max = 170141183460469231731687303715884105727 := by decide

lemma min_eq : int64.min = -9223372036854775808 ∧
    int128.min = -170141183460469231731687303715884105728 := by decide

lemma wrap_eq {x : Int} (low : t.min ≤ x) (high : x ≤ t.max) : t.wrap x = x := by
  cases t with
  | int64 =>
    rw [min_eq.1] at low
    rw [max_eq.1] at high
    rw [wrap, bmod_def, bits]
    omega
  | int128 =>
    rw [min_eq.2] at low
    rw [max_eq.2] at high
    rw [wrap, bmod_def, bits]
    omega

lemma wrap_le (t : IntType) (x : Int) : t.min ≤ t.wrap x ∧ t.wrap x ≤ t.max := by
  cases t with
  | int64 =>
    rw [min_eq.1, max_eq.1, wrap, bmod_def, bits]
    omega
  | int128 =>
    rw [min_eq.2, max_eq.2, wrap, bmod_def, bits]
    omega

lemma fits_iff {x : Int} : t.fits x ↔ t.min ≤ x ∧ x ≤ t.max := by
  rw [fits, Bool.and_eq_true, decide_eq_true_eq, decide_eq_true_eq]

lemma fits_signed (t : IntType) (isNeg : Bool) (n : Nat) :
    t.fits (signed isNeg n) ↔ n ≤ t.bound isNeg := by
  rw [fits_iff]
  cases t with
  | int64 =>
    rw [min_eq.1, max_eq.1, signed, bound, bits]
    cases isNeg <;> simp
  | int128 =>
    rw [min_eq.2, max_eq.2, signed, bound, bits]
    cases isNeg <;> simp

lemma wrap_signed {isNeg : Bool} {n : Nat} (small : n ≤ t.bound isNeg) :
    t.wrap (signed isNeg n) = signed isNeg n := by
  obtain ⟨low, high⟩ := fits_iff.mp ((fits_signed t isNeg n).mpr small)
  exact wrap_eq low high

end IntType

section Digits128

variable {isNeg : Bool}

open IntType

variable (n : Nat)

variable (d : Digit)

lemma op128_signed :
    op128 isNeg (signed isNeg (10 * n)) d.val = signed isNeg (10 * n + d.val) := by
  cases isNeg <;> simp only [op128, signed] <;>
    push_cast <;> ring

lemma signed_mul : signed isNeg n * 10 = signed isNeg (10 * n) := by
  cases isNeg <;> simp only [signed] <;> push_cast <;> ring

lemma digitValue_digitChar : digitValue (digitChar d) = d.val := by
  rw [digitValue, digitChar_toNat, Nat.add_sub_cancel_left]

lemma digits128_cons (rest : List Digit) (res : Int) (wrapped : Bool) :
    digits128 isNeg (chars (d :: rest)) res wrapped =
      let sum := op128 isNeg (int128.wrap (res * 10)) d.val
      let wrapped := wrapped || (!int128.fits (res * 10) || !int128.fits sum)
      if compare128 isNeg (int128.wrap sum) res then
        (⟨if isNeg then int128.min else int128.max, true, wrapped⟩, [])
      else digits128 isNeg (chars rest) (int128.wrap sum) wrapped := by
  have first : chars (d :: rest) = digitChar d :: chars rest := rfl
  rw [first, digits128, if_pos (digitChar_isDigit d), digitValue_digitChar, dropWhile_isDigit]
  simp only [Bool.or_assoc]

lemma digits128_step {n : Nat} {d : Digit} (small : 10 * n + d.val ≤ int128.bound isNeg)
    (rest : List Digit) (wrapped : Bool) :
    digits128 isNeg (chars (d :: rest)) (signed isNeg n) wrapped =
      digits128 isNeg (chars rest) (signed isNeg (10 * n + d.val)) wrapped := by
  have product : 10 * n ≤ int128.bound isNeg := by omega
  have grows : ¬compare128 isNeg (signed isNeg (10 * n + d.val)) (signed isNeg n) := by
    cases isNeg <;> simp only [compare128, signed, if_true, Bool.false_eq_true, if_false,
      decide_eq_true_eq] <;> omega
  rw [digits128_cons]
  simp only [signed_mul, wrap_signed product, op128_signed, wrap_signed small,
    (fits_signed _ _ _).mpr product, (fits_signed _ _ _).mpr small, Bool.not_true, Bool.or_false]
  rw [if_neg grows]

lemma value_step (rest : List Digit) :
    n * 10 ^ (d :: rest).length + value (d :: rest) =
      (10 * n + d.val) * 10 ^ rest.length + value rest := by
  rw [value_cons, length_cons]
  ring

lemma digits128_exact (digits : List Digit) (wrapped : Bool)
    (small : n * 10 ^ digits.length + value digits ≤ int128.bound isNeg) :
    digits128 isNeg (chars digits) (signed isNeg n) wrapped =
      (⟨signed isNeg (n * 10 ^ digits.length + value digits), false, wrapped⟩, []) := by
  induction digits generalizing n with
  | nil => simp [digits128]
  | cons d rest later =>
    rw [value_step] at small ⊢
    have step : 10 * n + d.val ≤ int128.bound isNeg :=
      (Nat.le_mul_of_pos_right _ (by positivity)).trans ((Nat.le_add_right _ _).trans small)
    rw [digits128_step step]
    exact later _ small

lemma digits128_wrapped (digits : List Digit) (res : Int) :
    ∃ v s, digits128 isNeg (chars digits) res true = (⟨v, s, true⟩, []) := by
  induction digits generalizing res with
  | nil => exact ⟨res, false, rfl⟩
  | cons d rest later =>
    rw [digits128_cons]
    simp only [Bool.true_or]
    split
    · exact ⟨_, _, rfl⟩
    · exact later _

/-- Beyond the range an operation wraps. -/
lemma digits128_over (digits : List Digit) (wrapped : Bool)
    (start : n ≤ int128.bound isNeg)
    (large : int128.bound isNeg < n * 10 ^ digits.length + value digits) :
    ∃ v s, digits128 isNeg (chars digits) (signed isNeg n) wrapped = (⟨v, s, true⟩, []) := by
  induction digits generalizing n wrapped with
  | nil =>
    rw [value_nil, length_nil] at large
    omega
  | cons d rest later =>
    rw [value_step] at large
    by_cases step : 10 * n + d.val ≤ int128.bound isNeg
    · rw [digits128_step step]
      exact later _ _ step large
    have overflow : (!int128.fits (signed isNeg n * 10) || !int128.fits
        (op128 isNeg (int128.wrap (signed isNeg n * 10)) d.val)) := by
      rw [signed_mul, Bool.or_eq_true, Bool.not_eq_true', Bool.not_eq_true',
        ← Bool.not_eq_true, ← Bool.not_eq_true, fits_signed]
      by_cases product : 10 * n ≤ int128.bound isNeg
      · rw [wrap_signed product, op128_signed, fits_signed]
        exact .inr step
      · exact .inl product
    rw [digits128_cons]
    simp only [overflow, Bool.or_true]
    split
    · exact ⟨_, _, rfl⟩
    · exact digits128_wrapped rest _

/-- Without a sign, a number that is not zero stays above zero, even if an operation wraps. -/
lemma digits128_pos (digits : List Digit) {res : Int} (positive : 0 < res) (wrapped : Bool) :
    0 < (digits128 false (chars digits) res wrapped).1.value := by
  induction digits generalizing res wrapped with
  | nil => exact positive
  | cons d rest later =>
    rw [digits128_cons]
    simp only
    split
    · have positiveMax : (0 : Int) < int128.max := by decide
      exact positiveMax
    rename_i noticed
    refine later ?_ _
    simp only [compare128, Bool.false_eq_true, if_false, decide_eq_true_eq] at noticed
    omega

lemma digits128_eq_zero (digits : List Digit) (wrapped : Bool) :
    (digits128 false (chars digits) 0 wrapped).1.value = 0 ↔ value digits = 0 := by
  induction digits generalizing wrapped with
  | nil => exact ⟨fun _ => rfl, fun _ => rfl⟩
  | cons d rest later =>
    have small : 10 * 0 + d.val ≤ int128.bound false := by
      have room : 10 ≤ int128.bound false := by decide
      omega
    have step : digits128 false (chars (d :: rest)) 0 wrapped =
        digits128 false (chars rest) (signed false (10 * 0 + d.val)) wrapped :=
      digits128_step small rest wrapped
    rw [step, value_cons]
    by_cases isZero : d.val = 0
    · simp only [isZero, Nat.zero_mul, Nat.zero_add]
      exact later wrapped
    have positive : 0 < signed false (10 * 0 + d.val) := by
      rw [signed, if_neg (by decide)]
      omega
    have := digits128_pos rest positive wrapped
    have tens : 0 < 10 ^ rest.length := by positivity
    have := Nat.mul_pos (Nat.pos_of_ne_zero isZero) tens
    omega

/-- No digit of the number makes it smaller, or larger with a minus sign, in 128 bits. -/
def Unnoticed (isNeg : Bool) (n : Nat) : Prop :=
  ∀ k, compare128 isNeg (int128.wrap (signed isNeg (n / 10 ^ k)))
    (int128.wrap (signed isNeg (n / 10 ^ (k + 1)))) = false

lemma wrap_step (isNeg : Bool) (n : Nat) (d : Digit) :
    int128.wrap (op128 isNeg (int128.wrap (int128.wrap (signed isNeg n) * 10)) d.val) =
      int128.wrap (signed isNeg (10 * n + d.val)) := by
  have inner : ∀ x, int128.wrap (int128.wrap x * 10) = int128.wrap (x * 10) := fun x =>
    bmod_mul_bmod
  rw [inner]
  cases isNeg with
  | true =>
    have outer : ∀ x y, int128.wrap (int128.wrap x - y) = int128.wrap (x - y) := fun x y =>
      bmod_sub_bmod
    simp only [op128, signed, if_true]
    rw [outer]
    congr 1
    push_cast
    ring
  | false =>
    have outer : ∀ x y, int128.wrap (int128.wrap x + y) = int128.wrap (x + y) := fun x y =>
      bmod_add_bmod
    simp only [op128, signed, Bool.false_eq_true, if_false]
    rw [outer]
    congr 1
    push_cast
    ring

/-- The loop ends early with the end of the range, or gives the number reduced to 128 bits. -/
lemma digits128_reduced (digits : List Digit) (wrapped : Bool)
    (total : Nat) (isTotal : total = n * 10 ^ digits.length + value digits) :
    let parsed := (digits128 isNeg (chars digits) (int128.wrap (signed isNeg n)) wrapped).1
    ((∀ k < digits.length, compare128 isNeg (int128.wrap (signed isNeg (total / 10 ^ k)))
        (int128.wrap (signed isNeg (total / 10 ^ (k + 1)))) = false) ∧
      parsed.value = int128.wrap (signed isNeg total) ∧ parsed.saturate = false) ∨
    ((∃ k < digits.length, compare128 isNeg (int128.wrap (signed isNeg (total / 10 ^ k)))
        (int128.wrap (signed isNeg (total / 10 ^ (k + 1))))) ∧
      parsed.value = (if isNeg then int128.min else int128.max) ∧ parsed.saturate) := by
  induction digits generalizing n wrapped with
  | nil =>
    refine .inl ⟨fun k short => absurd short (Nat.not_lt_zero k), ?_⟩
    rw [isTotal, length_nil, Nat.pow_zero, Nat.mul_one]
    exact ⟨rfl, rfl⟩
  | cons d rest later =>
    rw [value_step] at isTotal
    have small := value_lt rest
    have positive : 0 < 10 ^ rest.length := by positivity
    -- the number before and after this digit
    have after : total / 10 ^ rest.length = 10 * n + d.val := by
      rw [isTotal, Nat.mul_comm, Nat.mul_add_div positive, Nat.div_eq_of_lt small, Nat.add_zero]
    have before : total / 10 ^ (rest.length + 1) = n := by
      rw [Nat.pow_succ, ← Nat.div_div_eq_div_mul]
      omega
    rw [digits128_cons]
    simp only [wrap_step]
    by_cases noticed : compare128 isNeg (int128.wrap (signed isNeg (10 * n + d.val)))
        (int128.wrap (signed isNeg n))
    · refine .inr ⟨⟨rest.length, by simp, by rw [after, before]; exact noticed⟩, ?_⟩
      rw [if_pos noticed]
      exact ⟨rfl, rfl⟩
    rw [if_neg noticed]
    rcases later (10 * n + d.val) _ isTotal with ⟨zero, result⟩ | ⟨⟨k, short, lost⟩, result⟩
    · refine .inl ⟨fun k short => ?_, result⟩
      rcases Nat.lt_succ_iff_lt_or_eq.mp short with inRest | rfl
      · exact zero k inRest
      · rw [after, before]
        exact Bool.not_eq_true _ ▸ noticed
    · exact .inr ⟨⟨k, Nat.lt_succ_of_lt short, lost⟩, result⟩

/-- What is read for a number that is not in the range of 128 bits. -/
def Overflowed (isNeg : Bool) (n : Nat) (parsed : Parsed) : Prop :=
  parsed.wrapped = true ∧
    (Unnoticed isNeg n ∧ parsed.value = int128.wrap (signed isNeg n) ∧ parsed.saturate = false ∨
      ¬Unnoticed isNeg n ∧ parsed.value = (if isNeg then int128.min else int128.max) ∧
        parsed.saturate = true)

lemma overflowed_digits (large : int128.bound isNeg < value digits) :
    Overflowed isNeg (value digits) (digits128 isNeg (chars digits) 0 false).1 := by
  have sum : value digits = 0 * 10 ^ digits.length + value digits := by
    rw [Nat.zero_mul, Nat.zero_add]
  have zero : (0 : Int) = signed isNeg 0 := by
    rw [signed]
    split <;> rfl
  have zero' : (0 : Int) = int128.wrap (signed isNeg 0) := by rw [← zero]; decide
  refine ⟨?_, ?_⟩
  · obtain ⟨v, s, wrapped⟩ := digits128_over 0 digits false (Nat.zero_le _) (large.trans_eq sum)
    rw [zero, wrapped]
  rw [zero']
  rcases digits128_reduced 0 digits false _ sum with ⟨zero, result⟩ | ⟨⟨k, -, lost⟩, result⟩
  · refine .inl ⟨fun k => ?_, result⟩
    by_cases short : k < digits.length
    · exact zero k short
    -- there are no digits left
    have digitsLt := (value_lt digits).trans_le
      (Nat.pow_le_pow_right (by decide : 0 < 10) (Nat.not_lt.mp short))
    have nextLt := digitsLt.trans_le
      (Nat.pow_le_pow_right (by decide : 0 < 10) (Nat.le_succ k))
    rw [Nat.div_eq_of_lt digitsLt, Nat.div_eq_of_lt nextLt]
    cases isNeg <;> decide
  · refine .inr ⟨fun zero => ?_, result⟩
    rw [zero k] at lost
    cases lost

lemma digits128_rest (digits : List Digit) (res : Int) (wrapped : Bool) :
    (digits128 isNeg (chars digits) res wrapped).2 = [] := by
  induction digits generalizing res wrapped with
  | nil => rfl
  | cons d rest later =>
    rw [digits128_cons]
    simp only
    split
    · rfl
    · exact later _ _

end Digits128

lemma takeMinus_signed (noPlus : sign ≠ .plus) (digits : List Digit) :
    takeMinus (sign.text ++ chars digits) = (sign.negative, chars digits) := by
  cases sign with
  | plus => exact absurd rfl noPlus
  | minus => rfl
  | none =>
    cases digits with
    | nil => rfl
    | cons d rest => fin_cases d <;> rfl

lemma stringToLl_int128 (noPlus : sign ≠ .plus) (nonempty : digits ≠ []) :
    stringToLl .int128 (sign.text ++ chars digits) =
      .ok (digits128 sign.negative (chars digits) 0 false).1 := by
  have length : ([] : List Char).length ≠ (sign.text ++ chars digits).length := by
    have := length_pos_iff.mpr nonempty
    rw [length_append, length_chars, length_nil]
    omega
  simp only [stringToLl, cStr_signed, strtoll128]
  rw [dropWhile_signed (by decide) (by decide) (by decide), takeMinus_signed noPlus]
  simp only [digits128_rest]
  rw [if_neg (by rw [not_or]; exact ⟨length, by simp⟩)]

lemma stringToLl_plus :
    stringToLl .int128 (Sign.plus.text ++ chars digits) = .error notNumerical := by
  exact if_pos (.inl rfl)

open IntType

lemma apply_eq_signed (sign : Sign) (n : Nat) : sign.apply (n : Int) = signed sign.negative n := rfl

lemma limited_signed (isNeg : Bool) (n : Nat) : limited (signed isNeg n) =
    if n ≤ int64.bound isNeg then signed isNeg n else if isNeg then int64.min else int64.max := by
  rw [limited, min_eq.1, max_eq.1, signed, bound, bits]
  cases isNeg <;> simp <;> split <;> omega

/-- The conversion of digits with a sign: exact in the range of the type; beyond it the number is
limited for 64 bits, and for 128 bits an operation wraps. -/
lemma stringToLl_signed {parsed : Parsed} (nonempty : digits ≠ [])
    (read : stringToLl t (sign.text ++ chars digits) = .ok parsed) :
    (value digits ≤ t.bound sign.negative →
        parsed = ⟨signed sign.negative (value digits), false, false⟩) ∧
      (t.bound sign.negative < value digits →
        t = .int64 ∧ parsed = ⟨if sign.negative then int64.min else int64.max, true, false⟩ ∨
          t = .int128 ∧ Overflowed sign.negative (value digits) parsed) := by
  cases t with
  | int64 =>
    rw [stringToLl_int64 sign nonempty, apply_eq_signed, limited_signed] at read
    cases read
    constructor
    · intro small
      simp [if_pos small]
    intro large
    refine .inl ⟨rfl, ?_⟩
    have changed : (if sign.negative then int64.min else int64.max) ≠
        signed sign.negative (value digits) := by
      rw [min_eq.1, max_eq.1, signed]
      rw [bound, bits] at large
      cases negative : sign.negative <;> simp [negative] at large ⊢ <;> omega
    simp only [if_neg (Nat.not_le.mpr large), decide_eq_true changed]
  | int128 =>
    by_cases plus : sign = .plus
    · rw [plus, stringToLl_plus] at read
      cases read
    rw [stringToLl_int128 plus nonempty] at read
    cases read
    have zero : (0 : Int) = signed sign.negative 0 := by
      rw [signed]
      split <;> rfl
    constructor
    · intro small
      have sum : 0 * 10 ^ digits.length + value digits = value digits := by
        rw [Nat.zero_mul, Nat.zero_add]
      rw [zero, digits128_exact 0 digits false (sum.le.trans small), sum]
    · intro large
      exact .inr ⟨rfl, overflowed_digits large⟩

end NumberConversion
