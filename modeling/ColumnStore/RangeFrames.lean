import ColumnStore.WindowAverage
import ColumnStore.WindowPartitions

/-!
# The keys of a RANGE frame

`FrameBoundConstantRange::getValue` reads the ORDER BY key of a row with `getIntField`, whatever its
type, and converts the number to the type that `parseFrameBoundRange` has chosen. The values are
compared with the order in which the comparators of `compileRules` have sorted the rows. How far
a frame reaches is not modelled.
-/

namespace RangeFrames

open ColumnTypes WindowAverage WindowPartitions

/-- The template types of `FrameBoundConstantRange`. -/
inductive ValueType
  | int64
  | uint64
  | float
  | double

/-- The switch of `parseFrameBoundRange`; other types are refused. -/
def valueType : ColDataType → Option ValueType
  | .tinyint | .smallint | .medint | .int | .bigint | .decimal => some .int64
  | .double | .udouble => some .double
  | .float | .ufloat => some .float
  | .utinyint | .usmallint | .umedint | .uint | .ubigint | .udecimal | .date | .datetime | .time
  | .timestamp => some .uint64
  | _ => none

/-- The comparator that `compileRules` makes for a type accepted. -/
def kind (ct : ColType) : Kind :=
  match ct.colDataType with
  | .float | .ufloat => .floating .float
  | .double | .udouble => .floating .double
  | .time => .time
  | .tinyint | .smallint | .medint | .int | .bigint | .decimal | .udecimal => .int (8 * ct.colWidth)
  | _ => .uint (8 * ct.colWidth)

variable (ct : ColType)

/-- The column in ascending order. -/
def column : Column := ⟨kind ct, 0, true, true⟩

def row (field : Nat) : Row := ⟨fun _ => field, fun _ => none⟩

/-- `Row::getIntField`, which throws for other widths. -/
def getIntField (field : Nat) : Option Int :=
  if ct.colWidth ∈ [1, 2, 4, 8] then some (toSigned (8 * ct.colWidth) field) else none

/-- An integer as a floating number with `bits` significant bits after the first one. -/
def floating (bits : Nat) (n : Int) : Int := n.sign * significant bits n.natAbs

/-- The conversion of an `int64_t`. -/
def ValueType.convert : ValueType → Int → Int
  | int64, v => v
  | uint64, v => v % 2 ^ 64
  | float, v => floating 23 v
  | double, v => floating 52 v

/-- `getValue` for a key that is not NULL. -/
def getValue (type : ValueType) (field : Nat) : Option Int :=
  (getIntField ct field).map type.convert

/-- The fields of a column that are not NULL; an UDECIMAL is not negative. -/
structure IsValue (field : Nat) : Prop where
  lt : field < 2 ^ (8 * ct.colWidth)
  notNull : (column ct).isNull (row field) = false
  unsigned : ct.colDataType = .udecimal → field < 2 ^ (8 * ct.colWidth - 1)

/-- The values are read, and they are in the order of the comparator. -/
def Agrees (type : ValueType) (a b : Nat) : Prop :=
  ((getValue ct type a).bind fun v => (getValue ct type b).map fun w => three (v > w) (v < w)) =
    some ((column ct).compare (row a) (row b))
  deriving Decidable

/-- What two fields have to fulfil. The bits of two TIMEs must not be negative. Those of a FLOAT or
DOUBLE are rounded: two numbers must not become equal, and they are in reverse if both are
negative. A NaN is equal to everything. -/
def InOrder (type : ValueType) (a b : Nat) : Prop :=
  ct.colWidth ≤ 8 ∧ match kind ct with
    | .time => a = b ∨ a < 2 ^ 63 ∧ b < 2 ^ 63
    | .floating f =>
      if f.isNaN a || f.isNaN b then getValue ct type a = getValue ct type b
      else a = b ∨ f.rank a ≠ f.rank b ∧ (a < 2 ^ (f.bits - 1) ∨ b < 2 ^ (f.bits - 1)) ∧
        getValue ct type a ≠ getValue ct type b
    | _ => True

lemma significant_mono {bits m n : Nat} (le : m ≤ n) :
    significant bits m ≤ significant bits n := by
  rcases Nat.eq_zero_or_pos m with rfl | positive
  · simp [significant, AggSum.nearest]
  have logs : m.log2 ≤ n.log2 :=
    (Nat.le_log2 (by omega)).mpr ((Nat.log2_self_le positive.ne').trans le)
  obtain same | less := logs.eq_or_lt
  · rw [significant, same]
    exact AggSum.nearest_mono le
  -- a power of two is between them
  have fixed : ∀ e ≤ n.log2, AggSum.nearest (2 ^ (e - bits)) (2 ^ n.log2) = 2 ^ n.log2 :=
    fun e below => (AggSum.nearest_eq_iff (Nat.two_pow_pos _)).mpr (pow_dvd_pow 2 (by omega))
  calc significant bits m ≤ AggSum.nearest (2 ^ (m.log2 - bits)) (2 ^ n.log2) :=
        AggSum.nearest_mono (Nat.lt_log2_self.le.trans (Nat.pow_le_pow_right Nat.two_pos less))
    _ = AggSum.nearest (2 ^ (n.log2 - bits)) (2 ^ n.log2) :=
      (fixed _ logs).trans (fixed _ le_rfl).symm
    _ ≤ significant bits n := AggSum.nearest_mono (Nat.log2_self_le (by omega))

lemma floating_eq (bits : Nat) (x : Int) : floating bits x =
    if x < 0 then -(significant bits x.natAbs : Int) else significant bits x.natAbs := by
  rw [floating]
  obtain negative | rfl | positive := lt_trichotomy x 0
  · rw [if_pos negative, Int.sign_eq_neg_one_of_neg negative, neg_one_mul]
  · simp [significant, AggSum.nearest]
  · rw [if_neg (by omega), Int.sign_eq_one_of_pos positive, one_mul]

lemma floating_mono {bits : Nat} {x y : Int} (le : x ≤ y) : floating bits x ≤ floating bits y := by
  have up := @significant_mono bits x.natAbs y.natAbs
  have down := @significant_mono bits y.natAbs x.natAbs
  rw [floating_eq, floating_eq]
  split_ifs <;> omega

lemma floating_neg_iff (bits : Nat) (x : Int) : floating bits x < 0 ↔ x < 0 := by
  have one : significant bits 1 = 1 := by
    simp [significant, AggSum.nearest, show Nat.log2 1 = 0 by decide]
  have positive := @significant_mono bits 1 x.natAbs
  rw [floating_eq]
  split_ifs <;> omega

variable {ct} {type : ValueType} {a b : Nat}

lemma uint64_order {bits : Nat} (known : bits ∈ [8, 16, 32, 64]) (first : a < 2 ^ bits)
    (second : b < 2 ^ bits) : toSigned bits a % 2 ^ 64 < toSigned bits b % 2 ^ 64 ↔ a < b := by
  simp only [List.mem_cons, List.not_mem_nil, or_false] at known
  rcases known with rfl | rfl | rfl | rfl
  all_goals
    unfold toSigned
    split_ifs <;> omega

lemma three_eq_iff {gt lt gt' lt' : Bool} (apart : gt = true → lt = false)
    (apart' : gt' = true → lt' = false) :
    three gt lt = three gt' lt' ↔ (gt = true ↔ gt' = true) ∧ (lt = true ↔ lt' = true) := by
  unfold three
  cases gt <;> cases lt <;> cases gt' <;> cases lt' <;> simp_all

/-- Two numbers that are read from their bits. -/
lemma floating_order {f : Format} (known : f.bits ∈ [32, 64]) (first : a < 2 ^ f.bits)
    (second : b < 2 ^ f.bits) (bits : Nat) :
    let x := floating bits (toSigned f.bits a)
    let y := floating bits (toSigned f.bits b)
    (x > y ↔ f.rank a > f.rank b) ∧ (x < y ↔ f.rank a < f.rank b) ↔
      a = b ∨ f.rank a ≠ f.rank b ∧ (a < 2 ^ (f.bits - 1) ∨ b < 2 ^ (f.bits - 1)) ∧ x ≠ y := by
  intro x y
  have up : toSigned f.bits a ≤ toSigned f.bits b → x ≤ y := floating_mono
  have down : toSigned f.bits b ≤ toSigned f.bits a → y ≤ x := floating_mono
  have negative : x < 0 ↔ _ := floating_neg_iff bits (toSigned f.bits a)
  have negative' : y < 0 ↔ _ := floating_neg_iff bits (toSigned f.bits b)
  have same : a = b → x = y := by rintro rfl; rfl
  clear_value x y
  obtain ⟨width, inf, null, null_ok⟩ := f
  simp only [List.mem_cons, List.not_mem_nil, or_false] at known
  unfold Format.rank
  unfold toSigned at *
  rcases known with rfl | rfl
  all_goals
    dsimp only at *
    split_ifs at * <;> constructor <;> intro <;> omega

/-- The comparators with the types and widths that they go with. -/
lemma kind_cases (accepted : valueType ct.colDataType = some type) :
    (kind ct = .int (8 * ct.colWidth) ∧
      (type = .int64 ∨ type = .uint64 ∧ ct.colDataType = .udecimal)) ∨
    (kind ct = .uint (8 * ct.colWidth) ∧ type = .uint64) ∨
    (kind ct = .time ∧ type = .uint64 ∧ ct.colWidth = 8) ∨
    (kind ct = .floating .float ∧ type = .float ∧ ct.colWidth = 4) ∨
    kind ct = .floating .double ∧ type = .double ∧ ct.colWidth = 8 := by
  have known := ct.width_ok
  unfold kind
  cases data : ct.colDataType <;> rw [data] at known accepted <;>
    simp_all [valueType, ColDataType.widths]

section

variable (first : IsValue ct a) (second : IsValue ct b)
include first second

lemma agrees_iff (width : ct.colWidth ∈ [1, 2, 4, 8]) {v w : Int}
    (isV : type.convert (toSigned (8 * ct.colWidth) a) = v)
    (isW : type.convert (toSigned (8 * ct.colWidth) b) = w) :
    Agrees ct type a b ↔ three (v > w) (v < w) = (column ct).order (row a) (row b) := by
  have compared : (column ct).compare (row a) (row b) = (column ct).order (row a) (row b) := by
    rw [Column.compare, first.notNull, second.notNull]
    exact Int.one_mul _
  simp [Agrees, compared, getValue, getIntField, width, isV, isW]

/-- The bits of an integer, a date or a decimal are in its order. -/
lemma agrees_plain (bits : 8 * ct.colWidth ∈ [8, 16, 32, 64]) (width : ct.colWidth ∈ [1, 2, 4, 8])
    (plain : kind ct = .int (8 * ct.colWidth) ∧
        (type = .int64 ∨ type = .uint64 ∧ ct.colDataType = .udecimal) ∨
      kind ct = .uint (8 * ct.colWidth) ∧ type = .uint64) : Agrees ct type a b := by
  have below := uint64_order bits first.lt second.lt
  have above := uint64_order bits second.lt first.lt
  rw [agrees_iff first second width rfl rfl]
  simp only [Column.order, column, Column.get, row]
  obtain ⟨isInt, rfl | ⟨rfl, isDecimal⟩⟩ | ⟨isUint, rfl⟩ := plain
  · simp only [isInt, Nat.mod_eq_of_lt first.lt, Nat.mod_eq_of_lt second.lt, ValueType.convert]
    rfl
  · simp only [isInt, Nat.mod_eq_of_lt first.lt, Nat.mod_eq_of_lt second.lt, ValueType.convert,
      gt_iff_lt, below, above]
    simp only [toSigned, if_pos (first.unsigned isDecimal), if_pos (second.unsigned isDecimal),
      Nat.cast_lt]
  · simp only [isUint, Nat.mod_eq_of_lt first.lt, Nat.mod_eq_of_lt second.lt, ValueType.convert,
      gt_iff_lt, below, above]

/-- A negative TIME is read as a large number, and two of them are in reverse. -/
lemma agrees_time (isTime : kind ct = .time) (eight : ct.colWidth = 8) :
    Agrees ct .uint64 a b ↔ a = b ∨ a < 2 ^ 63 ∧ b < 2 ^ 63 := by
  have small := first.lt
  have small' := second.lt
  rw [agrees_iff first second (by simp [eight]) rfl rfl]
  rw [eight] at small small' ⊢
  simp only [Column.order, column, isTime, Column.get, row, Nat.mod_eq_of_lt small,
    Nat.mod_eq_of_lt small', ValueType.convert, toSigned]
  split_ifs
  all_goals
    rw [three_eq_iff (by simp; omega) (by simp; omega)]
    simp only [decide_eq_true_eq]
    constructor <;> intro <;> omega

/-- The numbers of a floating column, which is read with `bits` significant bits after the first. -/
lemma agrees_floating {f : Format} {bits : Nat} (isKind : kind ct = .floating f)
    (isType : type.convert = floating bits) (isBits : f.bits = 8 * ct.colWidth)
    (known : f.bits ∈ [32, 64]) : Agrees ct type a b ↔ InOrder ct type a b := by
  have width : ct.colWidth ∈ [1, 2, 4, 8] ∧ ct.colWidth ≤ 8 := by
    simp only [List.mem_cons, List.not_mem_nil, or_false] at known ⊢
    omega
  have small := first.lt
  have small' := second.lt
  rw [← isBits] at small small'
  have order := floating_order known small small' bits
  rw [agrees_iff first second width.1 rfl rfl, InOrder, and_iff_right width.2]
  simp only [Column.order, column, isKind, Column.get, row, Nat.mod_eq_of_lt small,
    Nat.mod_eq_of_lt small', getValue, getIntField, if_pos width.1, isType, Option.map_some,
    Option.some.injEq, ne_eq, ← isBits]
  rw [three_eq_iff (by simp; omega) (by simp; omega)]
  cases f.isNaN a <;> cases f.isNaN b
  case false.false => simpa using order
  all_goals
    simp
    omega

end

end RangeFrames
