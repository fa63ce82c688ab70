import ColumnStore.ByteStrings

/-!
# Column types, stored values and their NULL patterns

Both evaluators of a column filter, the range test of the job list and the block
scan of the primitive processor, start from the same column type and the same
stored bit patterns. This module has the type predicates of
`datatypes/mcs_datatype.h`, the NULL patterns of `joblisttypes.h`, the two
functions that recognise them, and the collation a text column is compared with.

The collation routines belong to the server library. A `Charset` is any
comparison with the laws of a collation; nothing is said about a particular one.
-/

namespace ColumnTypes

open ByteStrings

/-- `SystemCatalog::ColDataType`, up to the end of the storable types. -/
inductive ColDataType where
  | bit | tinyint | char | smallint | decimal | medint | int | float | date | bigint
  | double | datetime | varchar | varbinary | clob | blob | utinyint | usmallint
  | udecimal | umedint | uint | ufloat | ubigint | udouble | text | time | timestamp
  deriving DecidableEq, Repr

namespace ColDataType

/-- The storage widths a column step can carry: the string widths are rounded up
and dictionary columns are set to eight bytes when the step is built. -/
def widths : ColDataType → List Nat
  | bit | tinyint | utinyint => [1]
  | smallint | usmallint => [2]
  | medint | umedint | int | uint | float | ufloat | date => [4]
  | bigint | ubigint | double | udouble | datetime | time | timestamp => [8]
  | varbinary | clob | blob | text => [8]
  | decimal | udecimal => [1, 2, 4, 8, 16]
  | char | varchar => [1, 2, 4, 8]

def isUnsignedInteger : ColDataType → Bool
  | utinyint | usmallint | umedint | uint | ubigint => true
  | _ => false

def isUnsigned (type : ColDataType) : Bool :=
  type.isUnsignedInteger ||
    match type with
    | char | varchar | text | varbinary => true
    | _ => false

def isCharType : ColDataType → Bool
  | varchar | char | blob | text => true
  | _ => false

end ColDataType

/-- A column type with a width its data type can be stored in. -/
structure ColType where
  colDataType : ColDataType
  colWidth : Nat
  width_ok : colWidth ∈ colDataType.widths

namespace ColType

def isWideDecimalType (ct : ColType) : Bool :=
  (ct.colDataType == .decimal || ct.colDataType == .udecimal) && ct.colWidth == 16

lemma colWidth_mem (ct : ColType) : ct.colWidth ∈ [1, 2, 4, 8, 16] := by
  have listed := ct.width_ok
  cases h : ct.colDataType <;> simp [h, ColDataType.widths] at listed ⊢ <;> omega

end ColType

/-- A stored column value: the bytes of one slot of a block. -/
abbrev Value (ct : ColType) := BitVec (8 * ct.colWidth)

/-- `getNullValue<T>` of the primitive processor, by the width of `T`. -/
def nullPattern (type : ColDataType) (width : Nat) : Nat :=
  match width with
  | 16 => 2 ^ 127
  | 8 =>
    match type with
    | .double | .udouble => 0xFFFAAAAAAAAAAAAA
    | .char | .varchar | .date | .datetime | .timestamp | .time | .varbinary | .blob
    | .text => 0xFEFFFFFFFFFFFFFF
    | .ubigint => 0xFFFFFFFFFFFFFFFE
    | _ => 0x8000000000000000
  | 4 =>
    match type with
    | .float | .ufloat => 0xFFAAAAAA
    | .char | .varchar | .blob | .text => 0xFEFFFFFF
    | .date | .datetime | .timestamp | .time => 0xFFFFFFFE
    | .uint | .umedint => 0xFFFFFFFE
    | _ => 0x80000000
  | 2 =>
    match type with
    | .char | .varchar | .blob | .text | .date | .datetime | .timestamp | .time => 0xFEFF
    | .usmallint => 0xFFFE
    | _ => 0x8000
  | _ =>
    match type with
    | .char | .varchar | .blob | .text | .date | .datetime | .timestamp | .time => 0xFE
    | .utinyint => 0xFE
    | _ => 0x80

def getNullValue (ct : ColType) : Value ct :=
  BitVec.ofNat _ (nullPattern ct.colDataType ct.colWidth)

/-- `execplan::isNull(int64_t, ColType)`, on a constant widened to 64 bits. -/
def isNull (val : BitVec 64) (ct : ColType) : Bool :=
  match ct.colDataType with
  | .tinyint => val == (0x80#8).signExtend 64
  | .varchar | .char =>
    if ct.colWidth == 1 && val.setWidth 8 == 0xFE#8 then true
    else if ct.colWidth == 2 && val.setWidth 16 == 0xFEFF#16 then true
    else if decide (ct.colWidth < 5) && val.setWidth 32 == 0xFEFFFFFF#32 then true
    else val == 0xFEFFFFFFFFFFFFFF#64
  | .smallint => val == (0x8000#16).signExtend 64
  | .decimal | .udecimal =>
    match ct.colWidth with
    | 1 => val == (0x80#8).signExtend 64
    | 2 => val == (0x8000#16).signExtend 64
    | 4 => val == (0x80000000#32).signExtend 64
    | _ => val == 0x8000000000000000#64
  | .double | .udouble => val == 0xFFFAAAAAAAAAAAAA#64
  | .medint | .int => val == (0x80000000#32).signExtend 64
  | .float | .ufloat => val == (0xFFAAAAAA#32).signExtend 64
  | .date => val == (0xFFFFFFFE#32).signExtend 64
  | .bigint => val == 0x8000000000000000#64
  | .datetime | .timestamp => val == 0xFFFFFFFFFFFFFFFE#64
  | .utinyint => val.setWidth 8 == 0xFE#8
  | .usmallint => val.setWidth 16 == 0xFFFE#16
  | .umedint | .uint => val.setWidth 32 == 0xFFFFFFFE#32
  | .ubigint => val == 0xFFFFFFFFFFFFFFFE#64
  | _ => false

/-- `execplan::isNull(int128_t, ColType)`. -/
def isNullWide (val : BitVec 128) : Bool :=
  val == BitVec.ofNat 128 (2 ^ 127)

/-- `order_swap`: the eight bytes of a word in the opposite order. -/
def orderSwap (x : BitVec 64) : Nat :=
  bigEndian (bytes 8 x)

/-- A collation: `strnncollsp` compares two strings, `like` is the negation of
`wildcmp`, `maxStr` and `minStr` fill a word of the given number of bytes, and `nopadBin`
says that `MY_CS_BINSORT` and `MY_CS_NOPAD` are both set. -/
structure Charset where
  strnncollsp : List Byte → List Byte → Int
  like : List Byte → List Byte → Bool
  maxStr : (width : Nat) → BitVec (8 * width)
  minStr : (width : Nat) → BitVec (8 * width)
  nopadBin : Bool
  refl : ∀ a, strnncollsp a a = 0
  swap : ∀ a b, strnncollsp a b ≤ 0 ↔ 0 ≤ strnncollsp b a
  trans : ∀ a b c, strnncollsp a b ≤ 0 → strnncollsp b c ≤ 0 → strnncollsp a c ≤ 0
  binsort : nopadBin = true → ∀ a b, strnncollsp a b < 0 ↔ a < b

end ColumnTypes
