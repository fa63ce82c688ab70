import ColumnStore.NumberRounding
import Mathlib.Data.Nat.Log

/-!
# Constants of filters

Model of `convertValueNum` of `dbcon/joblist/jlf_execplantojoblist.cpp` for integers and decimals,
with `StringToSDecimal` and `StringToUDecimal`: the literal of a filter becomes an integer that is
cut to the scale and the range of the column, and a rounding flag that says on which side of the
integer the literal is. `colCompare_` compares a column value with both.

The results of the comparisons are compared with those of the numbers themselves. They differ for
a zero with a minus sign if the column is an unsigned integer, which is flagged as too small, and
for a literal that is not in the range of 128 bits and is read as a smaller number without notice.
The types besides integers and decimals are not modelled.
-/

namespace FilterConstants

open ColumnTypes NumberConversion DecimalText BlockFilter IntType Int Except Prod
open Bool (false_eq_true or_eq_true)
open List (mem_cons not_mem_nil cons_append count_eq_zero append_assoc append_nil)

def integerBits : ColDataType → Nat
  | .tinyint | .utinyint => 8
  | .smallint | .usmallint => 16
  | .medint | .umedint | .int | .uint => 32
  | _ => 64

/-- A cast to a signed type. -/
def castTo (bits : Nat) (v : Int) : Int := v.bmod (2 ^ bits)

/-- A negative number is no value of UDECIMAL, unless it is one of the two marks. -/
def withoutNegative (bits : Nat) (v : Int) (pushWarning : Bool) : Int × Bool :=
  if v < 0 ∧ v ≠ -2 ^ (bits - 1) ∧ v ≠ -2 ^ (bits - 1) + 1 then (0, true) else (v, pushWarning)

/-- `convertColumnData`, with `noRoundup`. -/
def convertColumnData (m : Memory) (typeCode : ColDataType) (ct : TypeAttributes)
    (data : List Char) : Except Fault (Int × Bool) := do
  match typeCode with
  | .tinyint | .smallint | .medint | .int | .bigint =>
    let r ← numberIntValue .int64 m data typeCode ct true
    return (castTo (integerBits typeCode) r.intVal, r.pushwarning)
  | .utinyint | .usmallint | .umedint | .uint | .ubigint =>
    let (v, pushWarning) ← numberUintValue m data typeCode
    return ((v % 2 ^ integerBits typeCode : Nat), pushWarning)
  | .decimal =>
    if ct.colWidth ∈ [1, 2, 4, 8, 16] then
      let t := if ct.colWidth = 16 then IntType.int128 else .int64
      let r ← numberIntValue t m data typeCode ct true
      return (castTo (8 * ct.colWidth) r.intVal, r.pushwarning)
    else return (0, false)
  | .udecimal =>
    if ct.colWidth ∈ [1, 2, 4, 8, 16] then
      let t := if ct.colWidth = 16 then IntType.int128 else .int64
      let r ← numberIntValue t m data typeCode ct true
      return withoutNegative (8 * ct.colWidth) (castTo (8 * ct.colWidth) r.intVal) r.pushwarning
    else return (0, false)
  | _ => .error (.queryData "convertColumnData: unknown column data type." .dataTypeErr)

/-- `convertValueNum`: the constant and the rounding flag. -/
def convertValueNum (m : Memory) (typeCode : ColDataType) (ct : TypeAttributes)
    (str : List Char) : Except Fault (Int × BitVec 8) := do
  let (v, pushWarning) ← convertColumnData m typeCode ct str
  if pushWarning then
    let data := str.filter fun c => !(c == ' ' || c == '\t' || c == '(' || c == ')')
    return (v, if data.head? = some '-' then roundNeg else roundPos)
  else return (v, 0)

/-- A column of a number type. -/
inductive Column where
  | signed (t : Target)
  | unsigned (typeCode : ColDataType) (ct : TypeAttributes) (high : Nat)
      (limit : unsignedLimit typeCode = some high)

namespace Column

def typeCode : Column → ColDataType
  | signed t => t.typeCode
  | unsigned typeCode _ _ _ => typeCode

def ct : Column → TypeAttributes
  | signed t => t.ct
  | unsigned _ ct _ _ => ct

/-- The smallest value of a column. -/
def lowest : Column → Int
  | signed t => if t.typeCode = .udecimal then 0 else t.lowest
  | unsigned _ _ _ _ => 0

/-- The largest value of a column. -/
def highest : Column → Int
  | signed t => t.highest
  | unsigned _ _ high _ => high

end Column

/-- What an operator of a filter means. -/
def holds (x y : ℚ) : Cop → Prop
  | .lt => x < y
  | .le => x ≤ y
  | .eq => x = y
  | .ne => x ≠ y
  | .ge => x ≥ y
  | .gt => x > y
  | _ => False

/-- The operators of filters on numbers. -/
def operators : List Cop := [.lt, .le, .eq, .ne, .ge, .gt]

/-- Comparing a value of the column with a constant gives the same as comparing it with the
number `q`. -/
def KeepsMeaning (col : Column) (q : ℚ) (v : Int) (rf : BitVec 8) : Prop :=
  ∀ c : Int, col.lowest ≤ c → c ≤ col.highest → ∀ cop ∈ operators,
    (colCompare_ c v cop rf = true ↔ holds (c * 10 ^ (-col.ct.scale)) q cop)

/-- The number `x` is the constant, or on the side of it that the flag says, with no value of the
range between both. -/
def Placed (low high : Int) (x : ℚ) (v : Int) (rf : BitVec 8) : Prop :=
  rf = 0 ∧ x = v ∨
    rf = roundPos ∧ v < x ∧ (x < v + 1 ∨ v = high) ∨
    rf = roundNeg ∧ x < v ∧ (v - 1 < x ∨ v = low)

lemma holds_scaled (c : Int) (q : ℚ) (scale : Int) (cop : Cop) :
    holds (c * 10 ^ (-scale)) q cop ↔ holds c (q * 10 ^ scale) cop := by
  have positive : (0 : ℚ) < 10 ^ scale := zpow_pos (by norm_num) _
  have shift : (c : ℚ) * 10 ^ (-scale) = c / 10 ^ scale := by rw [zpow_neg, div_eq_mul_inv]
  rw [shift]
  cases cop <;>
    simp [holds, div_lt_iff₀ positive, div_le_iff₀ positive, lt_div_iff₀ positive,
      le_div_iff₀ positive, div_eq_iff positive.ne']

/-- What an operator answers for a value below, above or at a number. -/
def answer (below above : Prop) : Cop → Prop
  | .lt => below
  | .le => ¬above
  | .eq => ¬below ∧ ¬above
  | .ne => below ∨ above
  | .ge => ¬below
  | .gt => above
  | _ => False

lemma holds_iff (x y : ℚ) (cop : Cop) : holds x y cop ↔ answer (x < y) (y < x) cop := by
  cases cop <;> simp only [holds, answer, not_lt]
  · exact ⟨fun same => ⟨same.ge, same.le⟩, fun both => le_antisymm both.2 both.1⟩
  · exact ne_iff_lt_or_gt

variable {rf : BitVec 8}

/-- With a flag the constant itself is below or above the number. -/
lemma colCompare_iff (c v : Int) {cop : Cop} (listed : cop ∈ operators)
    (flag : rf = 0 ∨ rf = roundPos ∨ rf = roundNeg) : colCompare_ c v cop rf ↔
      answer (c < v ∨ c = v ∧ rf = roundPos) (v < c ∨ c = v ∧ rf = roundNeg) cop := by
  simp only [operators, mem_cons, not_mem_nil, or_false] at listed
  rcases flag with rfl | rfl | rfl <;> rcases listed with rfl | rfl | rfl | rfl | rfl | rfl <;>
    simp [colCompare_, answer, roundPos, roundNeg] <;> omega

lemma compare_iff_sides (c v : Int) (x : ℚ) (flag : rf = 0 ∨ rf = roundPos ∨ rf = roundNeg) :
    (∀ cop ∈ operators, (colCompare_ c v cop rf ↔ holds c x cop)) ↔
      (c < v ∨ c = v ∧ rf = roundPos ↔ (c : ℚ) < x) ∧
        (v < c ∨ c = v ∧ rf = roundNeg ↔ x < (c : ℚ)) := by
  constructor
  · intro same
    exact ⟨(colCompare_iff c v (by decide) flag).symm.trans (same .lt (by decide)),
      (colCompare_iff c v (by decide) flag).symm.trans (same .gt (by decide))⟩
  · rintro ⟨below, above⟩ cop listed
    rw [colCompare_iff c v listed flag, holds_iff, propext below, propext above]

variable {v : Int}

lemma forall_compare_iff {low high : Int} {x : ℚ} (lowV : low ≤ v) (highV : v ≤ high)
    (flag : rf = 0 ∨ rf = roundPos ∨ rf = roundNeg) :
    (∀ c : Int, low ≤ c → c ≤ high → ∀ cop ∈ operators,
      (colCompare_ c v cop rf ↔ holds c x cop)) ↔ Placed low high x v rf := by
  simp only [compare_iff_sides _ v x flag]
  have zeroPos : (0 : BitVec 8) ≠ roundPos := by decide
  have zeroNeg : (0 : BitVec 8) ≠ roundNeg := by decide
  have posNeg : roundPos ≠ roundNeg := by decide
  constructor
  · intro same
    obtain ⟨above, below⟩ := same v lowV highV
    simp only [lt_irrefl, false_or, true_and] at above below
    rcases flag with rfl | rfl | rfl
    · simp only [zeroPos, zeroNeg, false_iff, not_lt] at above below
      exact .inl ⟨rfl, le_antisymm above below⟩
    · refine .inr (.inl ⟨rfl, above.mp rfl, ?_⟩)
      by_cases last : v = high
      · exact .inr last
      · have next := (same (v + 1) (by omega) (by omega)).2.mp (.inl (by omega))
        push_cast at next
        exact .inl next
    refine .inr (.inr ⟨rfl, below.mp rfl, ?_⟩)
    by_cases first : v = low
    · exact .inr first
    · have previous := (same (v - 1) (by omega) (by omega)).1.mp (.inl (by omega))
      push_cast at previous
      exact .inl previous
  intro placed c lowC highC
  have next : v < c → (v : ℚ) + 1 ≤ c := fun h => by exact_mod_cast h
  have previous : c < v → (c : ℚ) ≤ v - 1 := fun h => by exact_mod_cast le_sub_one_of_lt h
  rcases lt_trichotomy c v with less | rfl | more
  · have apart := previous less
    have side : (c : ℚ) < x := by
      rcases placed with ⟨-, rfl⟩ | ⟨-, above, -⟩ | ⟨-, -, near | rfl⟩
      · linarith
      · linarith
      · linarith
      · omega
    simp [less, less.asymm, less.ne, side, side.le]
  · rcases placed with ⟨rfl, rfl⟩ | ⟨rfl, above, -⟩ | ⟨rfl, below, -⟩
    · simp [roundPos, roundNeg]
    · simp [posNeg, above, above.le]
    · simp [posNeg.symm, below, below.le]
  have apart := next more
  have side : x < (c : ℚ) := by
    rcases placed with ⟨-, rfl⟩ | ⟨-, -, near | rfl⟩ | ⟨-, below, -⟩
    · linarith
    · linarith
    · omega
    · linarith
  simp [more, more.asymm, more.ne', side, side.le]

/-- The number of open parentheses behind a text, if none is closed that is not open. -/
def depth : Nat → List Char → Option Nat
  | d, [] => some d
  | d, c :: rest =>
    if c = '(' then depth (d + 1) rest
    else if c = ')' then if d = 0 then none else depth (d - 1) rest
    else depth d rest

def Balanced (s : List Char) : Prop := depth 0 s = some 0
  deriving Decidable

def withoutParentheses (s : List Char) : List Char := s.filter fun c => !(c == '(' || c == ')')

lemma depth_append {a : List Char} (unclosed : ')' ∉ a) (d : Nat) (rest : List Char) :
    depth d (a ++ rest) = depth (d + a.count '(') rest := by
  induction a generalizing d with
  | nil => rfl
  | cons c a later =>
    obtain ⟨isOther, behind⟩ := not_or.mp (mem_cons.not.mp unclosed)
    rw [cons_append, depth]
    by_cases isOpen : c = '('
    · subst isOpen
      rw [if_pos rfl, later behind, List.count_cons_self, Nat.add_right_comm, Nat.add_assoc]
    · rw [if_neg isOpen, if_neg (Ne.symm isOther), later behind, List.count_cons_of_ne isOpen]

/-- In a balanced text the first parenthesis is an opening one. -/
lemma Balanced.not_mem_of_not_mem {a rest : List Char} (balanced : Balanced (a ++ rest))
    (noneOpen : '(' ∉ a) : ')' ∉ a := by
  intro closed
  obtain ⟨before, after, rfl, unclosed⟩ := List.eq_append_cons_of_mem closed
  have noOpen : before.count '(' = 0 :=
    count_eq_zero.mpr fun member => noneOpen (List.mem_append_left _ member)
  rw [Balanced, append_assoc, depth_append unclosed, noOpen, cons_append,
    depth] at balanced
  simp at balanced

/-- Removing the first opening and the first closing parenthesis again and again leaves the text
without parentheses. -/
lemma removeParentheses_balanced (fuel : Nat) {s : List Char} (enough : s.length ≤ fuel)
    (balanced : Balanced s) : removeParentheses fuel s = .ok (withoutParentheses s) := by
  induction fuel generalizing s with
  | zero =>
    obtain rfl := List.eq_nil_of_length_eq_zero (Nat.le_zero.mp enough)
    rfl
  | succ fuel later =>
    by_cases opening : '(' ∈ s
    · obtain ⟨a, b, rfl, noneOpen⟩ := List.eq_append_cons_of_mem opening
      have noneClosed := balanced.not_mem_of_not_mem noneOpen
      have inner : depth 1 b = some 0 := by
        rw [Balanced, depth_append noneClosed, count_eq_zero.mpr noneOpen] at balanced
        exact balanced
      have closing : ')' ∈ b := by
        by_contra unclosed
        have open' := depth_append unclosed 1 []
        rw [append_nil, inner, depth, Option.some_inj] at open'
        omega
      obtain ⟨b₁, b₂, rfl, unclosed⟩ := List.eq_append_cons_of_mem closing
      have rest : Balanced (a ++ b₁ ++ b₂) := by
        have step : 1 + b₁.count '(' ≠ 0 := by omega
        rw [depth_append unclosed, depth, if_neg step, Nat.add_sub_cancel_left] at inner
        rw [Balanced, append_assoc, depth_append noneClosed,
          count_eq_zero.mpr noneOpen, depth_append unclosed, Nat.zero_add]
        exact inner
      have notBefore : ')' ∉ a ++ '(' :: b₁ := by
        simp only [List.mem_append, mem_cons, not_or]
        exact ⟨noneClosed, by decide, unclosed⟩
      have regroup : a ++ '(' :: (b₁ ++ ')' :: b₂) = (a ++ '(' :: b₁) ++ ')' :: b₂ := by simp
      have erased : ((a ++ '(' :: (b₁ ++ ')' :: b₂)).eraseIdx (a ++ '(' :: b₁).length).eraseIdx
          a.length = a ++ b₁ ++ b₂ := by
        rw [regroup, eraseIdx_append, append_assoc, cons_append, eraseIdx_append,
          append_assoc]
      rw [removeParentheses, find_append noneOpen, regroup, find_append notBefore, ← regroup]
      simp only [erased]
      rw [later (by simp only [List.length_append, List.length_cons] at enough ⊢; omega) rest]
      simp [withoutParentheses]
    have closing : ')' ∉ s := by
      have whole : Balanced (s ++ []) := by rwa [append_nil]
      exact whole.not_mem_of_not_mem opening
    rw [removeParentheses_text opening closing]
    congr 1
    refine (List.filter_eq_self.mpr fun c member => ?_).symm
    rw [Bool.not_eq_true', Bool.or_eq_false_iff, beq_eq_false_iff_ne, beq_eq_false_iff_ne]
    exact ⟨fun h => opening (h ▸ member), fun h => closing (h ▸ member)⟩

variable {data : List Char} {l : Literal}

/-- The first character that the flag is taken from is the sign of the literal. -/
lemma head_filter (isLiteral : withoutParentheses data = l.text) :
    (data.filter fun c => !(c == ' ' || c == '\t' || c == '(' || c == ')')).head? = some '-' ↔
      l.numeral.sign.negative := by
  have blanks : (data.filter fun c => !(c == ' ' || c == '\t' || c == '(' || c == ')')) =
      l.text := by
    have split : (data.filter fun c => !(c == ' ' || c == '\t' || c == '(' || c == ')')) =
        (withoutParentheses data).filter fun c => !(c == ' ' || c == '\t') := by
      rw [withoutParentheses, List.filter_filter]
      refine List.filter_congr fun c _ => ?_
      rw [← Bool.not_or, Bool.or_assoc]
    rw [split, isLiteral, List.filter_eq_self]
    intro c member
    have noBlank : ' ' ∉ l.text := not_mem_literal (by decide) (by decide) (by decide) (by decide)
      (by decide) (by decide) l
    have noTab : '\t' ∉ l.text := not_mem_literal (by decide) (by decide) (by decide) (by decide)
      (by decide) (by decide) l
    rw [Bool.not_eq_true', Bool.or_eq_false_iff, beq_eq_false_iff_ne, beq_eq_false_iff_ne]
    exact ⟨fun h => noBlank (h ▸ member), fun h => noTab (h ▸ member)⟩
  rw [blanks, Literal.text, Numeral.text]
  obtain ⟨⟨sign, int, frac⟩, -, hasDigits, -⟩ := l
  cases sign with
  | minus | plus => simp [Sign.text, Sign.negative]
  | none =>
    simp only [Sign.text, Sign.negative]
    cases int with
    | cons d rest =>
      have other : digitChar d ≠ '-' := digitChar_ne (by decide) d
      simpa [chars] using other
    | nil =>
      cases frac with
      | none => exact absurd rfl hasDigits
      | some f => simp

lemma stringToUll_signed (sign : Sign) {digits : List Digit} (nonempty : digits ≠ []) :
    stringToUll (sign.text ++ chars digits) = .ok (if sign.negative then (0, true) else
      (min (value digits) (2 ^ 64 - 1),
        decide (min (value digits) (2 ^ 64 - 1) ≠ value digits))) := by
  have noMinus : sign.negative = false → '-' ∉ sign.text ++ chars digits := by
    intro notNegative member
    rcases List.mem_append.mp member with inSign | inDigits
    · cases sign <;> simp [Sign.text, Sign.negative] at inSign notNegative
    · exact not_mem_chars (by decide) digits inDigits
  cases negative : sign.negative with
  | true =>
    obtain rfl : sign = .minus := by
      cases sign <;> simp [Sign.negative] at negative ⊢
    rfl
  | false =>
    rw [stringToUll, find_eq_none (noMinus negative), cStr_signed, strtoull_digits nonempty]
    rfl

/-- The value and the warning that an unsigned integer gets for a numeral. -/
structure Clipped (n : Numeral) (high v : Nat) (warning : Bool) : Prop where
  negative : n.sign.negative = true → v = 0 ∧ warning = true
  nonneg : n.sign.negative = false →
    v = min high (value n.int) ∧ (warning = true ↔ value n.fraction ≠ 0 ∨ high < value n.int)

variable {high : Nat} {warning : Bool}

lemma clipped_of_parts {n : Numeral} {frnVal : Nat} {digits : List Digit} {uint : Nat × Bool}
    (room : high < 2 ^ 64 - 1) (sameValue : value digits = value n.int)
    (isFraction : frnVal ≠ 0 ↔ value n.fraction ≠ 0)
    (isUint : uint = if n.sign.negative then (0, true) else (min (value digits) (2 ^ 64 - 1),
      decide (min (value digits) (2 ^ 64 - 1) ≠ value digits)))
    {v : Nat} (result : (if uint.1 > high then (high, true) else (uint.1, uint.2 || frnVal != 0)) =
      (v, warning)) : Clipped n high v warning := by
  constructor
  · intro negative
    rw [negative, if_pos rfl] at isUint
    simp only [isUint, Nat.not_lt_zero, if_false, mk.injEq] at result
    exact ⟨result.1.symm, result.2.symm⟩
  intro nonneg
  simp only [nonneg, false_eq_true, if_false] at isUint
  rw [isUint] at result
  split at result
  · obtain ⟨rfl, rfl⟩ := mk.inj result
    refine ⟨by omega, iff_of_true rfl (.inr (by omega))⟩
  · obtain ⟨rfl, rfl⟩ := mk.inj result
    rw [or_eq_true, decide_eq_true_eq, bne_iff_ne]
    omega

variable {typeCode : ColDataType}

lemma unsignedLimit_lt (limit : unsignedLimit typeCode = some high) :
    high < 2 ^ 64 - 1 ∧ high < 2 ^ integerBits typeCode := by
  cases typeCode <;> simp only [unsignedLimit, Option.some.injEq, reduceCtorEq] at limit <;>
    subst limit <;> decide

variable {m : Memory}

lemma numberUintValue_eq_ok {v : Nat} (limit : unsignedLimit typeCode = some high)
    (isLiteral : removeParentheses data.length data = .ok l.text)
    (done : numberUintValue m data typeCode = .ok (v, warning)) :
    ∃ n, Read l 0 n ∧ Clipped n high v warning := by
  rw [numberUintValue, copy] at done
  split at done
  · cases done
  rename_i short
  have fits : l.text.length ≤ m.maxSize :=
    (length_removeParentheses isLiteral).trans (Nat.not_lt.mp short)
  simp only [bind, Except.bind, isLiteral] at done
  obtain ⟨⟨s, wrapped⟩, expand, done⟩ := bind_eq_ok done
  obtain ⟨-, n, rfl, isExpanded⟩ :=
    expandExponent_eq_ok fits (fun isInt128 => by cases isInt128) expand
  refine ⟨n, ⟨isExpanded.sign_eq, ?_, ?_⟩, ?_⟩
  · rw [isExpanded.magnitude, Nat.cast_zero, add_zero]
  · rw [isExpanded.fraction, Nat.cast_zero, sub_zero]
  have room := (unsignedLimit_lt limit).1
  obtain ⟨digits, nonempty, sameValue, withDigits⟩ := withDigit_signed n.sign n.int
  cases point : n.frac with
  | none =>
    have noFraction := fraction_none point
    have hasDigits := isExpanded.hasDigits
    rw [HasDigits, noFraction, append_nil] at hasDigits
    have noPoint := find_eq_none (point_not_mem n)
    simp only [text_none point, noPoint, stringToUll_signed n.sign hasDigits, List.length_nil,
      Nat.lt_irrefl, if_false, limit, pure, Except.pure, Except.ok.injEq] at done
    have isFraction : (0 : Nat) ≠ 0 ↔ value n.fraction ≠ 0 := by
      rw [noFraction]
      rfl
    exact clipped_of_parts room rfl isFraction rfl done
  | some f =>
    have isFraction := fraction_some point
    have isPoint : find '.' ((n.sign.text ++ chars n.int) ++ '.' :: chars f) =
        some (n.sign.text ++ chars n.int).length := find_append (point_not_mem n)
    simp only [text_some point, isPoint, List.take_left, drop_point, withDigits,
      stringToUll_signed n.sign nonempty] at done
    cases f with
    | nil =>
      simp only [chars_nil, List.length_nil, Nat.lt_irrefl, if_false, limit, pure, Except.pure,
        Except.ok.injEq] at done
      have isZero : (0 : Nat) ≠ 0 ↔ value n.fraction ≠ 0 := by
        rw [isFraction]
        rfl
      exact clipped_of_parts room sameValue isZero rfl done
    | cons d rest =>
      have digitsBehind := stringToUll_signed .none (List.cons_ne_nil d rest)
      simp only [Sign.text, List.nil_append, Sign.negative, false_eq_true,
        if_false] at digitsBehind
      simp only [length_chars, List.length_cons, Nat.succ_pos, if_true, digitsBehind, limit, pure,
        Except.pure, Except.ok.injEq] at done
      refine clipped_of_parts room sameValue ?_ rfl done
      rw [isFraction]
      omega

/-- The flag for a warning and a sign. -/
def flagOf (warning negative : Bool) : BitVec 8 :=
  if warning then if negative then roundNeg else roundPos else 0

section Placement

variable {n : Numeral} {low high v : Int} {warning : Bool}

lemma toRat_nonneg (nonneg : n.sign.negative = false) : n.toRat = n.magnitude := by
  rw [Numeral.toRat, Sign.apply, nonneg]
  rfl

lemma toRat_negative (negative : n.sign.negative) : n.toRat = -n.magnitude := by
  rw [Numeral.toRat, Sign.apply, negative]
  rfl

lemma int_le_magnitude (n : Numeral) : (value n.int : ℚ) ≤ n.magnitude := by
  rw [← cast_natCast, ← n.floor_magnitude]
  exact floor_le _

lemma magnitude_lt (n : Numeral) : n.magnitude < (value n.int : ℚ) + 1 := by
  rw [← cast_natCast, ← n.floor_magnitude]
  exact lt_floor_add_one _

lemma int_lt_magnitude (n : Numeral) (nonzero : value n.fraction ≠ 0) :
    (value n.int : ℚ) < n.magnitude := by
  refine lt_of_le_of_ne (int_le_magnitude n) fun same => ?_
  refine n.toRat_ne_int nonzero (n.sign.apply (value n.int : Int)) ?_
  rw [Numeral.toRat, ← same, Sign.apply, Sign.apply]
  split <;> push_cast <;> rfl

/-- With the sign the order and the flags are reversed. -/
lemma placed_neg {x : ℚ} : Placed low high (-x) v (flagOf warning true) ↔
    Placed (-high) (-low) x (-v) (flagOf warning false) := by
  cases warning
  · simp [Placed, flagOf, roundPos, roundNeg, neg_eq_iff_eq_neg]
  · have near : (v : ℚ) - 1 < -x ↔ x < -v + 1 := by constructor <;> intro h <;> linarith
    simp [Placed, flagOf, roundPos, roundNeg, near, neg_lt]

lemma placed_of_magnitude (isValue : v = min high (value n.int))
    (isWarning : warning ↔ value n.fraction ≠ 0 ∨ high < value n.int) :
    Placed low high n.magnitude v (flagOf warning false) := by
  have least := int_le_magnitude n
  rcases Int.lt_or_le high (value n.int) with large | small
  · obtain rfl : v = high := by omega
    rw [isWarning.mpr (.inr large)]
    have large' : (v : ℚ) < (value n.int : ℚ) := by exact_mod_cast large
    exact .inr (.inl ⟨rfl, by linarith, .inr rfl⟩)
  obtain rfl : v = value n.int := by omega
  by_cases zero : value n.fraction = 0
  · obtain rfl : warning = false := by
      rw [← Bool.not_eq_true, isWarning]
      omega
    exact .inl ⟨rfl, by rw [n.magnitude_eq_int zero]; push_cast; rfl⟩
  · rw [isWarning.mpr (.inl zero)]
    refine .inr (.inl ⟨rfl, ?_, .inl ?_⟩)
    · exact_mod_cast int_lt_magnitude n zero
    · exact_mod_cast magnitude_lt n

lemma placed_of_nonneg (nonneg : n.sign.negative = false) (isValue : v = min high (value n.int))
    (isWarning : warning ↔ value n.fraction ≠ 0 ∨ high < value n.int) :
    Placed low high n.toRat v (flagOf warning n.sign.negative) := by
  rw [toRat_nonneg nonneg, nonneg]
  exact placed_of_magnitude isValue isWarning

lemma placed_of_negative (negative : n.sign.negative)
    (isValue : v = max low (-(value n.int : Int)))
    (isWarning : warning ↔ value n.fraction ≠ 0 ∨ -(value n.int : Int) < low) :
    Placed low high n.toRat v (flagOf warning n.sign.negative) := by
  rw [toRat_negative negative, negative, placed_neg]
  exact placed_of_magnitude (by omega) (isWarning.trans (by omega))

lemma placed_beyond (inside : v ≤ high) (large : high < value n.int) :
    Placed low high n.magnitude v (flagOf warning false) ↔ v = high ∧ warning := by
  have least := int_le_magnitude n
  have large' : ((high + 1 : Int) : ℚ) ≤ (value n.int : ℚ) := by exact_mod_cast large
  have inside' : (v : ℚ) ≤ high := by exact_mod_cast inside
  push_cast at large'
  constructor
  · rintro (⟨-, same⟩ | ⟨isPos, -, near | last⟩ | ⟨-, less, -⟩)
    · linarith
    · linarith
    · refine ⟨last, ?_⟩
      cases warning
      · exact absurd isPos (by decide)
      · rfl
    · linarith
  · rintro ⟨rfl, rfl⟩
    exact .inr (.inl ⟨rfl, by linarith, .inr rfl⟩)

lemma sign_eq_minus (negative : n.sign.negative) : n.sign = .minus := by
  cases sign : n.sign <;> rw [sign] at negative <;> first | rfl | cases negative

end Placement

/-- A number that is reduced without notice keeps its sign. -/
lemma unnoticed_sign {isNeg : Bool} {k : Nat} (unnoticed : Unnoticed isNeg k) (positive : 0 < k) :
    if isNeg then int128.wrap (signed isNeg k) < 0 else 0 < int128.wrap (signed isNeg k) := by
  have nonzero : k ≠ 0 := by omega
  -- the first digit of the number
  have first : 1 ≤ k / 10 ^ Nat.log 10 k ∧ k / 10 ^ Nat.log 10 k < 10 := by
    constructor
    · exact Nat.div_pos (Nat.pow_log_le_self 10 nonzero) (by positivity)
    · rw [Nat.div_lt_iff_lt_mul (by positivity), Nat.mul_comm, ← Nat.pow_succ]
      exact Nat.lt_pow_succ_log_self (by decide) k
  have start : int128.wrap (signed isNeg (k / 10 ^ Nat.log 10 k)) =
      signed isNeg (k / 10 ^ Nat.log 10 k) := by
    refine wrap_signed (first.2.le.trans ?_)
    cases isNeg <;> decide
  have zero : k / 10 ^ 0 = k := by rw [Nat.pow_zero, Nat.div_one]
  have steps : Antitone fun j => signed isNeg 1 * int128.wrap (signed isNeg (k / 10 ^ j)) := by
    refine antitone_nat_of_succ_le fun j => ?_
    have step := unnoticed j
    cases isNeg <;> simp [compare128, signed] at step ⊢ <;> omega
  have last := steps (Nat.zero_le (Nat.log 10 k))
  simp only [zero, start] at last
  cases isNeg <;> simp only [signed, if_true, false_eq_true, if_false] at last ⊢ <;> omega

def columnBits (t : Target) : Nat :=
  if t.typeCode = .decimal ∨ t.typeCode = .udecimal then 8 * t.ct.colWidth
  else integerBits t.typeCode

lemma typeRange_bits (t : Target) :
    -2 ^ (columnBits t - 1) + 2 ≤ t.typeRange.1 ∧ t.typeRange.2 < 2 ^ (columnBits t - 1) := by
  have listed := t.listed
  have widths := t.widths
  simp only [mem_cons, not_mem_nil, or_false] at listed widths
  rw [Target.typeRange, Target.intType, columnBits]
  rcases listed with code | code | code | code | code | code | code <;> rw [code] at widths ⊢
  iterate 5
    · simp only [typeLimits, reduceCtorEq, or_self, false_and, if_false]
      decide
  · rcases widths (.inl rfl) with width | width | width | width | width <;> rw [width] <;> decide
  · rcases widths (.inr rfl) with width | width | width | width | width <;> rw [width] <;> decide

lemma castTo_eq {bits : Nat} (positive : 0 < bits) (low : -2 ^ (bits - 1) ≤ v)
    (high : v < 2 ^ (bits - 1)) : castTo bits v = v := by
  obtain ⟨k, rfl⟩ : ∃ k, bits = k + 1 := ⟨bits - 1, by omega⟩
  rw [Nat.add_sub_cancel] at low high
  have half : ((2 : Int) ^ (k + 1)) = 2 * 2 ^ k := by rw [pow_succ]; ring
  refine bmod_eq_of_le ?_ ?_ <;> push_cast <;> rw [half] <;> omega

variable {t : Target} {w : Bool}

lemma convertColumnData_signed (done : convertColumnData m t.typeCode t.ct data = .ok (v, w)) :
    ∃ r, numberIntValue t.intType m data t.typeCode t.ct true = .ok r ∧
      (v, w) = if t.typeCode = .udecimal then
          withoutNegative (columnBits t) (castTo (columnBits t) r.intVal) r.pushwarning
        else (castTo (columnBits t) r.intVal, r.pushwarning) := by
  have unfolded : convertColumnData m t.typeCode t.ct data = (do
      let r ← numberIntValue t.intType m data t.typeCode t.ct true
      return if t.typeCode = .udecimal then
          withoutNegative (columnBits t) (castTo (columnBits t) r.intVal) r.pushwarning
        else (castTo (columnBits t) r.intVal, r.pushwarning)) := by
    have listed := t.listed
    have widths := t.widths
    simp only [mem_cons, not_mem_nil, or_false] at listed
    rw [Target.intType, columnBits]
    rcases listed with code | code | code | code | code | code | code <;> rw [code] at widths ⊢ <;>
      simp only [convertColumnData, reduceCtorEq, or_self, or_true, true_or, true_and, false_and,
        if_true, if_false]
    · rw [if_pos (widths (.inl rfl))]
    · rw [if_pos (widths (.inr rfl))]
  rw [unfolded] at done
  obtain ⟨r, read, done⟩ := bind_eq_ok done
  exact ⟨r, read, (ok.inj done).symm⟩

/-- A literal beyond 128 bits is read as a number of the column, with nothing that shows it. -/
def UnnoticedWrap (t : Target) (l : Literal) : Prop :=
  let wrapped := int128.wrap (signed l.numeral.sign.negative ⌊size t l⌋.toNat)
  t.intType = .int128 ∧ ¬(t.typeCode = .udecimal ∧ l.numeral.sign = .minus) ∧
    int128.bound l.numeral.sign.negative < ⌊size t l⌋.toNat ∧
    Unnoticed l.numeral.sign.negative ⌊size t l⌋.toNat ∧
    t.lowest ≤ wrapped ∧ wrapped ≤ t.highest ∧
    (Int.fract (size t l) = 0 ∨ t.lowest < wrapped ∧ wrapped < t.highest)

/-- The same about the numeral whose point was moved. -/
def WrapsUnnoticed (t : Target) (n : Numeral) : Prop :=
  let wrapped := int128.wrap (signed n.sign.negative (value n.int))
  t.intType = .int128 ∧ ¬(t.typeCode = .udecimal ∧ n.sign = .minus) ∧
    int128.bound n.sign.negative < value n.int ∧ Unnoticed n.sign.negative (value n.int) ∧
    t.lowest ≤ wrapped ∧ wrapped ≤ t.highest ∧
    (value n.fraction = 0 ∨ t.lowest < wrapped ∧ wrapped < t.highest)

lemma wrapsUnnoticed_iff {n : Numeral} (fits : Fits t l) (read : Read l t.ct.scale.toNat n) :
    WrapsUnnoticed t n ↔ UnnoticedWrap t l := by
  have floor : ⌊size t l⌋.toNat = value n.int := by
    rw [← magnitude_eq_size fits read, n.floor_magnitude, toNat_natCast]
  have fraction : fract (size t l) = 0 ↔ value n.fraction = 0 := by
    have positive : (10 : ℚ) ^ n.fraction.length ≠ 0 := by positivity
    rw [← magnitude_eq_size fits read, fract_magnitude, div_eq_zero_iff, or_iff_left positive,
      Nat.cast_eq_zero]
  rw [WrapsUnnoticed, UnnoticedWrap, floor, fraction, read.sign_eq]

section Signed

variable {t : Target} {n : Numeral} {c r : Converted}

/-- What the code makes of the number that it read, before a negative UDECIMAL is set to zero. -/
structure Outcome (t : Target) (n : Numeral) (r : Converted) (k : Int) (saturate : Bool) :
    Prop where
  value_eq : r.intVal = t.limit k
  warning : r.pushwarning = true ↔ saturate = true ∨ value n.fraction ≠ 0 ∨ r.intVal ≠ k

lemma outcome_of_conversion (conversion : Conversion t.intType true false n c)
    (limited : Limited t c r) :
    Outcome t n r conversion.parsed.value conversion.parsed.saturate := by
  obtain ⟨parsed, frnWrapped, sum, sum_eq, rfl, inRange, beyond, -⟩ := conversion
  have noRound : roundup true n = 0 := rfl
  have isSum : sum = parsed.value := by
    rw [sum_eq, noRound]
    simp
  have range : t.intType.min ≤ parsed.value ∧ parsed.value ≤ t.intType.max := by
    rcases Nat.lt_or_ge (t.intType.bound n.sign.negative) (value n.int) with large | small
    · rcases beyond large with ⟨isInt64, rfl⟩ | ⟨isInt128, -, ⟨-, isValue, -⟩ | ⟨-, isValue, -⟩⟩
      · rw [isInt64]
        cases n.sign.negative <;> decide
      · rw [isInt128, isValue]
        exact wrap_le _ _
      · rw [isInt128, isValue]
        cases n.sign.negative <;> decide
    · rw [inRange small]
      exact fits_iff.mp ((fits_signed _ _ _).mpr small)
  have isRead := wrap_eq range.1 range.2
  obtain ⟨-, value_eq, warning, -⟩ := limited
  rw [isSum, isRead] at value_eq warning
  refine ⟨value_eq, ?_⟩
  rw [warning, or_eq_true, or_eq_true, decide_eq_true_eq, decide_eq_true_eq, or_assoc]

lemma column_bounds (narrow : t.Narrow) (accepts : t.Accepts) :
    (Column.signed t).lowest ≤ 0 ∧ 0 ≤ (Column.signed t).highest ∧
      t.lowest ≤ (Column.signed t).lowest := by
  obtain ⟨-, low, high, -, -⟩ := Target.range_bounds narrow accepts
  simp only [Column.lowest, Column.highest]
  split <;> omega

/-- A negative UDECIMAL is zero. -/
lemma result_eq (inside : t.lowest ≤ r.intVal ∧ r.intVal ≤ t.highest)
    (result : (v, w) = if t.typeCode = .udecimal then
        withoutNegative (columnBits t) (castTo (columnBits t) r.intVal) r.pushwarning
      else (castTo (columnBits t) r.intVal, r.pushwarning)) :
    v = max (Column.signed t).lowest r.intVal ∧
      (w ↔ r.pushwarning ∨ r.intVal < (Column.signed t).lowest) := by
  obtain ⟨lowBits, highBits⟩ := typeRange_bits t
  have range : t.typeRange.1 ≤ t.lowest ∧ t.highest ≤ t.typeRange.2 := by
    rw [Target.lowest, Target.highest]
    split <;> omega
  have positive : 0 < columnBits t := by
    by_contra zero
    have empty : columnBits t = 0 := by omega
    obtain ⟨_, _, -, isRange, -, -, above, -⟩ := t.typeLimits_eq
    rw [empty, isRange] at highBits
    omega
  have same : castTo (columnBits t) r.intVal = r.intVal := by
    refine castTo_eq positive ?_ ?_ <;> omega
  rw [same] at result
  simp only [Column.lowest]
  split at result
  · rename_i isUdecimal
    rw [if_pos isUdecimal]
    rw [withoutNegative] at result
    split at result
    · rename_i negative
      obtain ⟨rfl, rfl⟩ := mk.inj result
      exact ⟨by omega, iff_of_true rfl (.inr negative.1)⟩
    · obtain ⟨rfl, rfl⟩ := mk.inj result
      exact ⟨by omega, (or_iff_left (by omega)).symm⟩
  · rename_i other
    obtain ⟨rfl, rfl⟩ := mk.inj result
    rw [if_neg other]
    exact ⟨by omega, (or_iff_left (by omega)).symm⟩

lemma placed_signed_iff (narrow : t.Narrow) (conversion : Conversion t.intType true false n c)
    (limited : Limited t c r) (isValue : v = max (Column.signed t).lowest r.intVal)
    (isWarning : w ↔ r.pushwarning ∨ r.intVal < (Column.signed t).lowest) :
    Placed (Column.signed t).lowest t.highest n.toRat v (flagOf w n.sign.negative) ↔
      ¬WrapsUnnoticed t n := by
  have outcome := outcome_of_conversion conversion limited
  obtain ⟨minLow, low, high, highMax, -⟩ := Target.range_bounds narrow limited.accepts
  obtain ⟨value_eq, warning⟩ := outcome
  rw [Target.limit] at value_eq
  rw [warning] at isWarning
  have ends : t.intType.min = -(t.intType.bound true : Int) ∧
      t.intType.max = t.intType.bound false := by
    cases t.intType <;> decide
  have isLow : (Column.signed t).lowest = if t.typeCode = .udecimal then 0 else t.lowest := rfl
  generalize (Column.signed t).lowest = colLowest at *
  -- a number that is read exactly or limited to the range of the type
  have exact : ∀ k saturate, conversion.parsed.value = k → conversion.parsed.saturate = saturate →
      (saturate = false ∧ k = signed n.sign.negative (value n.int) ∨
        saturate ∧ t.intType.bound n.sign.negative < value n.int ∧
          k = if n.sign.negative then t.intType.min else t.intType.max) →
      Placed colLowest t.highest n.toRat v (flagOf w n.sign.negative) := by
    rintro k saturate isRead isSaturate cases
    rw [isSaturate] at isWarning
    cases negative : n.sign.negative <;> rw [negative] at cases <;>
      simp only [signed, false_eq_true, if_false, if_true] at cases <;> rw [← negative]
    · refine placed_of_nonneg negative (by omega) (isWarning.trans ?_)
      rcases cases with ⟨rfl, rfl⟩ | ⟨rfl, large, rfl⟩ <;>
        simp only [false_eq_true, false_or, true_or, true_iff] <;> omega
    · refine placed_of_negative negative (by omega) (isWarning.trans ?_)
      rcases cases with ⟨rfl, rfl⟩ | ⟨rfl, large, rfl⟩ <;>
        simp only [false_eq_true, false_or, true_or, true_iff] <;> omega
  rcases Nat.lt_or_ge (t.intType.bound n.sign.negative) (value n.int) with large | small
  · rcases conversion.beyond large with
      ⟨isInt64, isParsed⟩ |
      ⟨isInt128, -, ⟨unnoticed, isRead, isSaturate⟩ | ⟨noticed, isRead, isSaturate⟩⟩
    · refine iff_of_true (exact _ _ rfl rfl (.inr ?_)) fun wraps => ?_
      · rw [isParsed, isInt64]
        exact ⟨rfl, isInt64 ▸ large, rfl⟩
      · have isInt128 := wraps.1
        rw [isInt64] at isInt128
        cases isInt128
    · -- reduced without notice: only the end of the range with a warning is right
      have keepsSign := unnoticed_sign unnoticed (by omega)
      rw [isRead] at value_eq isWarning
      rw [isSaturate] at isWarning
      simp only [false_eq_true, false_or] at isWarning
      rw [WrapsUnnoticed]
      simp only [isInt128, unnoticed]
      rw [isInt128] at large
      simp only [large, true_and]
      rw [isInt128] at ends minLow highMax
      cases negative : n.sign.negative with
      | false =>
        rw [negative] at keepsSign large
        simp only [false_eq_true, if_false] at keepsSign
        have notMinus : ¬(t.typeCode = .udecimal ∧ n.sign = .minus) := by
          rintro ⟨-, isMinus⟩
          rw [isMinus] at negative
          cases negative
        rw [toRat_nonneg negative, placed_beyond (by omega) (by omega), isWarning, ← negative]
        rw [← negative] at keepsSign
        simp only [notMinus, not_false_eq_true, true_and]
        generalize int128.wrap (signed n.sign.negative (value n.int)) = k at *
        omega
      | true =>
        rw [negative] at keepsSign large
        simp only [if_true] at keepsSign
        have isMinus := sign_eq_minus negative
        rw [toRat_negative negative, placed_neg, placed_beyond (by omega) (by omega), isWarning,
          ← negative]
        rw [← negative] at keepsSign
        simp only [isMinus, and_true]
        rw [isMinus] at keepsSign value_eq
        generalize int128.wrap (signed Sign.minus.negative (value n.int)) = k at *
        by_cases isUdecimal : t.typeCode = .udecimal
        · rw [if_pos isUdecimal] at isLow
          simp only [isUdecimal, not_true_eq_false, false_and, not_false_eq_true, iff_true]
          omega
        · rw [if_neg isUdecimal] at isLow
          simp only [isUdecimal, not_false_eq_true, true_and]
          omega
    · refine iff_of_true (exact _ _ rfl rfl (.inr ?_)) fun wraps => noticed wraps.2.2.2.1
      rw [isRead, isSaturate, isInt128]
      exact ⟨rfl, isInt128 ▸ large, rfl⟩
  refine iff_of_true (exact _ _ rfl rfl (.inl ?_)) fun wraps => ?_
  · rw [conversion.inRange small]
    exact ⟨rfl, rfl⟩
  · obtain ⟨isInt128, -, large, -⟩ := wraps
    rw [isInt128] at small
    omega

end Signed

/-- The scale is applied, exponents are read in full and the limits of the precision are numbers
of the type; unsigned integers have no scale. -/
def Column.Fits : Column → Literal → Prop
  | signed t, l => NumberConversion.Fits t l
  | unsigned _ ct _ _, _ => ct.scale = 0

/-- The literals whose constant is wrong: for an unsigned integer a zero with a minus sign, for a
decimal of 128 bits a literal that is reduced without notice. -/
def Misread : Column → Literal → Prop
  | .signed t, l => UnnoticedWrap t l
  | .unsigned _ _ _ _, l => l.numeral.sign = .minus ∧ l.numeral.magnitude = 0

lemma keepsMeaning_iff {col : Column} {q : ℚ} {negative : Bool} (low : col.lowest ≤ v)
    (high : v ≤ col.highest) :
    KeepsMeaning col q v (flagOf warning negative) ↔
      Placed col.lowest col.highest (q * 10 ^ col.ct.scale) v (flagOf warning negative) := by
  rw [← forall_compare_iff low high (by cases warning <;> cases negative <;> decide), KeepsMeaning]
  simp only [holds_scaled]

lemma keepsMeaning_unsigned_iff {ct : TypeAttributes} {limit : unsignedLimit typeCode = some high}
    (noScale : ct.scale = 0) (isLiteral : removeParentheses data.length data = .ok l.text)
    (done : convertColumnData m typeCode ct data = .ok (v, w)) :
    KeepsMeaning (.unsigned typeCode ct high limit) l.toRat v
        (flagOf w l.numeral.sign.negative) ↔
      ¬(l.numeral.sign = .minus ∧ l.numeral.magnitude = 0) := by
  obtain ⟨vNat, read, isV⟩ : ∃ vNat, numberUintValue m data typeCode = .ok (vNat, w) ∧
      v = ((vNat % 2 ^ integerBits typeCode : Nat) : Int) := by
    have unfolded : convertColumnData m typeCode ct data = (do
        let (v, pushWarning) ← numberUintValue m data typeCode
        return ((v % 2 ^ integerBits typeCode : Nat), pushWarning)) := by
      cases typeCode <;> first | rfl | cases limit
    rw [unfolded] at done
    obtain ⟨pair, read, done⟩ := bind_eq_ok done
    obtain ⟨isV, rfl⟩ := mk.inj (ok.inj done)
    exact ⟨pair.1, read, isV.symm⟩
  obtain ⟨n, isRead, clipped⟩ := numberUintValue_eq_ok limit isLiteral read
  have atMost : vNat ≤ high := by
    cases negative : n.sign.negative with
    | true =>
      rw [(clipped.negative negative).1]
      exact Nat.zero_le _
    | false =>
      rw [(clipped.nonneg negative).1]
      exact Nat.min_le_left _ _
  obtain rfl : v = vNat := by
    rw [isV, Nat.mod_eq_of_lt (atMost.trans_lt (unsignedLimit_lt limit).2)]
  have exact : l.toRat * 10 ^ ct.scale = n.toRat := by
    rw [isRead.toRat_eq, noScale, zpow_zero, pow_zero]
  have magnitude : n.magnitude = l.numeral.magnitude * 10 ^ (l.power + ((0 : Nat) : Int)) :=
    isRead.magnitude
  rw [keepsMeaning_iff (natCast_nonneg vNat) (ofNat_le.mpr atMost)]
  simp only [Column.ct, Column.highest]
  rw [exact, ← isRead.sign_eq]
  cases negative : n.sign.negative with
  | false =>
    obtain ⟨isMin, warning⟩ := clipped.nonneg negative
    refine iff_of_true ?_ fun minusZero => ?_
    · rw [← negative]
      exact placed_of_nonneg negative (by rw [isMin]; push_cast; rfl)
        (by rw [warning, ofNat_lt])
    · rw [minusZero.1] at negative
      cases negative
  | true =>
    obtain ⟨rfl, rfl⟩ := clipped.negative negative
    have isMinus := sign_eq_minus negative
    have positive : (10 : ℚ) ^ (l.power + ((0 : Nat) : Int)) ≠ 0 := zpow_ne_zero _ (by norm_num)
    have zero : l.numeral.magnitude = 0 ↔ n.magnitude = 0 := by
      rw [magnitude, mul_eq_zero, or_iff_left positive]
    have nonneg := n.magnitude_nonneg
    rw [isMinus, zero, toRat_negative negative, and_iff_right rfl]
    constructor
    · rintro (⟨isFlag, -⟩ | ⟨isFlag, -⟩ | ⟨-, less, -⟩) isZero
      · exact absurd isFlag (by decide)
      · exact absurd isFlag (by decide)
      · rw [isZero] at less
        norm_num at less
    intro nonzero
    refine .inr (.inr ⟨rfl, ?_, .inr rfl⟩)
    have isPositive := lt_of_le_of_ne nonneg (Ne.symm nonzero)
    push_cast
    linarith

lemma keepsMeaning_signed_iff (fits : Fits t l)
    (isLiteral : removeParentheses data.length data = .ok l.text)
    (done : convertColumnData m t.typeCode t.ct data = .ok (v, w)) :
    KeepsMeaning (.signed t) l.toRat v (flagOf w l.numeral.sign.negative) ↔ ¬UnnoticedWrap t l := by
  obtain ⟨r, converted, result⟩ := convertColumnData_signed done
  obtain ⟨n, c, read, ⟨conversion⟩, limits⟩ :=
    numberIntValue_eq_ok isLiteral fits.scale fits.power converted
  have below : c.intVal ≤ t.intType.max := by
    rw [conversion.result]
    exact (wrap_le _ _).2
  obtain ⟨accepts, value_eq, warning, wrapped⟩ := Target.limits_eq_ok fits.narrow below limits
  obtain ⟨-, low, high, -, -⟩ := Target.range_bounds fits.narrow accepts
  obtain ⟨colLow, colHigh, -⟩ := column_bounds fits.narrow accepts
  have inside : t.lowest ≤ r.intVal ∧ r.intVal ≤ t.highest := by
    rw [value_eq, Target.limit]
    omega
  obtain ⟨isValue, isWarning⟩ := result_eq inside result
  have isHigh : (Column.signed t).highest = t.highest := rfl
  have limited : Limited t c r := ⟨accepts, value_eq, warning, wrapped⟩
  rw [keepsMeaning_iff (by omega) (by omega), ← read.sign_eq, isHigh,
    ← wrapsUnnoticed_iff fits read,
    ← placed_signed_iff fits.narrow conversion limited isValue isWarning]
  have exact : l.toRat * 10 ^ (Column.signed t).ct.scale = n.toRat := scaledValue_eq fits read
  rw [exact]

/-- Comparing a column value with the constant and the flag that are made of a literal gives what
comparing it with the number gives, for all values of the column and all operators, exactly if the
literal is not one of those that are misread. -/
theorem filter_constant_exact_iff {col : Column} {m : Memory} {data : List Char} {l : Literal}
    {v : Int} {rf : BitVec 8} (balanced : Balanced data)
    (isLiteral : withoutParentheses data = l.text) (fits : col.Fits l)
    (accepted : convertValueNum m col.typeCode col.ct data = .ok (v, rf)) :
    KeepsMeaning col l.toRat v rf ↔ ¬Misread col l := by
  have removed := removeParentheses_balanced data.length (Nat.le_refl _) balanced
  rw [isLiteral] at removed
  cases convert : convertColumnData m col.typeCode col.ct data with
  | error fault =>
    rw [convertValueNum, convert] at accepted
    cases accepted
  | ok pair =>
    obtain ⟨v', w⟩ := pair
    have isConstant : v = v' ∧ rf = flagOf w l.numeral.sign.negative := by
      rw [convertValueNum, convert] at accepted
      cases w with
      | false =>
        obtain ⟨rfl, rfl⟩ := mk.inj (ok.inj accepted)
        exact ⟨rfl, rfl⟩
      | true =>
        simp only [head_filter isLiteral] at accepted
        obtain ⟨rfl, rfl⟩ := mk.inj (ok.inj accepted)
        exact ⟨rfl, rfl⟩
    obtain ⟨rfl, rfl⟩ := isConstant
    cases col with
    | signed t => exact keepsMeaning_signed_iff fits removed convert
    | unsigned typeCode ct high limit => exact keepsMeaning_unsigned_iff fits removed convert

theorem filter_constant_exact_decimal41 :
    convertValueNum ⟨100, by decide⟩ .decimal ⟨2, 1, 4⟩ "(-25.467e1)".toList =
        .ok (-2546, roundNeg) ∧
      KeepsMeaning (.signed decimal41) longLiteral.toRat (-2546) roundNeg := by
  have accepted : convertValueNum ⟨100, by decide⟩ .decimal ⟨2, 1, 4⟩ "(-25.467e1)".toList =
    .ok (-2546, roundNeg) := by decide +kernel
  have fits : (Column.signed decimal41).Fits longLiteral :=
    ⟨by decide, fun wide => absurd wide (by decide), fun _ _ => by decide⟩
  refine ⟨accepted, (filter_constant_exact_iff (by decide) (by decide) fits
    accepted).mpr ?_⟩
  rintro ⟨wide, -⟩
  exact absurd wide (by decide)

/-- The number 2^128 + 2^126. -/
def wideLiteral : Literal :=
  .plain ⟨.none, [4, 2, 5, 3, 5, 2, 9, 5, 8, 6, 5, 1, 1, 7, 3, 0, 7, 9, 3, 2, 9, 2, 1, 8, 2, 5, 9,
    2, 8, 9, 7, 1, 0, 2, 6, 4, 3, 2, 0], none⟩ (by decide)

/-- In a DECIMAL(38) column 2^126 is found equal to 2^128 + 2^126. -/
theorem wide_literal_equal_to_other_value :
    convertValueNum ⟨100, by decide⟩ .decimal ⟨16, 0, 38⟩ wideLiteral.text = .ok (2 ^ 126, 0) ∧
      colCompare_ (2 ^ 126 : Int) (2 ^ 126) .eq 0 = true ∧ (2 : Int) ^ 126 ≤ 10 ^ 38 - 1 ∧
      wideLiteral.toRat = 2 ^ 128 + 2 ^ 126 := by
  refine ⟨by decide +kernel, by decide, by decide, ?_⟩
  have int : value wideLiteral.numeral.int = 2 ^ 128 + 2 ^ 126 := by decide +kernel
  have magnitude : wideLiteral.numeral.magnitude = 2 ^ 128 + 2 ^ 126 := by
    rw [Numeral.magnitude_eq_int _ rfl, int]
    norm_num
  have noPower : wideLiteral.power = 0 := rfl
  rw [Literal.toRat, noPower, zpow_zero, mul_one, toRat_nonneg rfl, magnitude]

-- the constant for an unsigned integer is less than zero, for every value of the column
example : convertValueNum ⟨100, by decide⟩ .uint ⟨4, 0, 10⟩ "-0".toList = .ok (0, roundNeg) := by
  decide +kernel

end FilterConstants
