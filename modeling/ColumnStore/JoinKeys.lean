import Mathlib.Data.BitVec

/-!
# Integer join keys

The key field of a row as the joins read it: a field of 1, 2, 4 or 8 bytes that holds a signed or
an unsigned number or the NULL pattern of its type, and its widening to 64 bits. Model of
`Row::getIntField`, `Row::getUintField`, `Row::isNullValue` and `getSignedNullValue` for integer
types, and of the flags of a join type.
-/

namespace JoinKeys

open BitVec

/-- The widths of integer columns. -/
inductive Width where
  | one | two | four | eight
  deriving DecidableEq, Repr

def Width.bytes : Width → Nat
  | one => 1
  | two => 2
  | four => 4
  | eight => 8

structure KeyType where
  width : Width
  isUnsigned : Bool
  deriving DecidableEq, Repr

namespace KeyType

def bits (t : KeyType) : Nat := 8 * t.width.bytes

/-- The bytes of the key in a row. -/
abbrev Field (t : KeyType) : Type := BitVec t.bits

variable (t : KeyType)

/-- The NULL pattern: `0x80..` for a signed and `0xFF..FE` for an unsigned type. -/
def nullValue : t.Field :=
  if t.isUnsigned then BitVec.allOnes t.bits - 1 else BitVec.intMin t.bits

def isNullValue (x : t.Field) : Bool := x == t.nullValue

def getIntField (x : t.Field) : BitVec 64 := x.signExtend 64

def getUintField (x : t.Field) : BitVec 64 := x.setWidth 64

/-- The field widened as its type says. -/
def widened (x : t.Field) : BitVec 64 :=
  if t.isUnsigned then t.getUintField x else t.getIntField x

def getSignedNullValue : BitVec 64 := t.nullValue.signExtend 64

/-- The number that a field without NULL holds. -/
def number (x : t.Field) : Int := if t.isUnsigned then x.toNat else x.toInt

end KeyType

def bigintNull : BitVec 64 := 0x8000000000000000

/-- The flags of `JoinType`. -/
structure JoinType where
  largeOuter : Bool
  semi : Bool
  anti : Bool
  scalar : Bool
  matchNulls : Bool
  withFcnExp : Bool
  deriving DecidableEq, Repr

variable {t t' : KeyType}

lemma bits_cases (t : KeyType) :
    t.width = .eight ∧ t.bits = 64 ∨ t.width ≠ .eight ∧ 8 ≤ t.bits ∧ t.bits ≤ 32 := by
  rw [KeyType.bits]
  cases t.width <;> simp [Width.bytes]

lemma bits_le (t : KeyType) : t.bits ≤ 64 := by
  have := bits_cases t
  omega

variable (x : t.Field)

lemma toNat_getUintField : (t.getUintField x).toNat = x.toNat := by
  rw [KeyType.getUintField, toNat_setWidth]
  exact Nat.mod_eq_of_lt (x.isLt.trans_le (Nat.pow_le_pow_right (by decide) (bits_le t)))

lemma toInt_getIntField : (t.getIntField x).toInt = x.toInt :=
  toInt_signExtend_of_le (bits_le t)

lemma isNullValue_iff : t.isNullValue x ↔ x = t.nullValue := beq_iff_eq

section Unsigned

variable (unsigned : t.isUnsigned) (x : t.Field)
include unsigned

lemma widened_unsigned : t.widened x = t.getUintField x := by
  rw [KeyType.widened, unsigned, if_pos rfl]

lemma number_unsigned : t.number x = x.toNat := by
  rw [KeyType.number, unsigned, if_pos rfl]

lemma getSignedNullValue_unsigned : t.getSignedNullValue = 0xFFFFFFFFFFFFFFFE := by
  obtain ⟨width, sign⟩ := t
  obtain rfl : sign := unsigned
  cases width <;> decide

lemma toNat_nullValue : t.nullValue.toNat = 2 ^ t.bits - 2 := by
  obtain ⟨width, sign⟩ := t
  obtain rfl : sign := unsigned
  cases width <;> decide

/-- The NULL pattern of an unsigned type is widened with zeros and the NULL value with ones. -/
lemma widened_eq_null_unsigned :
    t.widened x = t.getSignedNullValue ↔ t.width = .eight ∧ x.toNat = 2 ^ t.bits - 2 := by
  have below := x.isLt
  have literal : (0xFFFFFFFFFFFFFFFE : BitVec 64).toNat = 2 ^ 64 - 2 := by decide
  rw [getSignedNullValue_unsigned unsigned, ← toNat_inj, widened_unsigned unsigned,
    toNat_getUintField, literal]
  rcases bits_cases t with ⟨eight, bits⟩ | ⟨narrow, -, high⟩
  · generalize x.toNat = number at *
    rw [bits, and_iff_right eight]
  · have small := Nat.pow_le_pow_right (by decide : 0 < 2) high
    generalize x.toNat = number at *
    exact ⟨fun same => by omega, fun both => absurd both.1 narrow⟩

end Unsigned

section Signed

variable (signed : t.isUnsigned = false) (x : t.Field)
include signed

lemma widened_signed : t.widened x = t.getIntField x := by
  rw [KeyType.widened, signed]
  rfl

lemma number_signed : t.number x = x.toInt := by
  rw [KeyType.number, signed]
  rfl

lemma toInt_nullValue : t.nullValue.toInt = -2 ^ (t.bits - 1) := by
  obtain ⟨width, sign⟩ := t
  obtain rfl : sign = false := signed
  cases width <;> decide

lemma isNullValue_signed : t.isNullValue x ↔ x.toInt = -2 ^ (t.bits - 1) := by
  rw [isNullValue_iff, ← toInt_nullValue signed, toInt_inj]

/-- A signed field without NULL is not widened to `BIGINTNULL`. -/
lemma widened_ne_bigintNull {x : t.Field}
    (nonNull : t.isNullValue x = false) : t.widened x ≠ bigintNull := by
  intro same
  have isInt : x.toInt = -2 ^ 63 := by
    rw [← toInt_getIntField, ← widened_signed signed, same]
    decide
  have least := le_two_mul_toInt (x := x)
  have notNull := mt (isNullValue_signed signed x).mpr (by rw [nonNull]; decide)
  generalize x.toInt = number at isInt least notNull
  rcases bits_cases t with ⟨-, bits⟩ | ⟨-, -, high⟩
  · rw [bits] at notNull
    exact notNull isInt
  · have small : (2 : Int) ^ t.bits ≤ 2 ^ 32 := by
      exact_mod_cast Nat.pow_le_pow_right (by decide : 0 < 2) high
    omega

end Signed

lemma widened_inj (same : t.isUnsigned = t'.isUnsigned) (x : t.Field) (y : t'.Field) :
    t.widened x = t'.widened y ↔ t.number x = t'.number y := by
  cases unsigned : t.isUnsigned with
  | true =>
    have unsigned' : t'.isUnsigned := same ▸ unsigned
    rw [widened_unsigned unsigned, widened_unsigned unsigned', number_unsigned unsigned,
      number_unsigned unsigned', ← toNat_inj, toNat_getUintField, toNat_getUintField,
      Int.natCast_inj]
  | false =>
    have signed' : t'.isUnsigned = false := same ▸ unsigned
    rw [widened_signed unsigned, widened_signed signed', number_signed unsigned,
      number_signed signed', ← toInt_inj, toInt_getIntField, toInt_getIntField]

lemma widened_eq_null_signed (signed : t.isUnsigned = false) (x : t.Field) :
    t.widened x = t.getSignedNullValue ↔ t.isNullValue x := by
  have nullField : t.getSignedNullValue = t.widened t.nullValue := by
    rw [widened_signed signed]
    rfl
  rw [nullField, widened_inj rfl, number_signed signed, number_signed signed, toInt_inj,
    isNullValue_iff]

/-- An unsigned field with the highest bit set is widened as if it were signed. -/
lemma toNat_getIntField :
    (t.getIntField x).toNat = x.toNat + if x.msb then 2 ^ 64 - 2 ^ t.bits else 0 := by
  rw [KeyType.getIntField, toNat_signExtend, ← KeyType.getUintField, toNat_getUintField]

end JoinKeys
