import ColumnStore.BlockFilter

/-!
# Reading numbers

Model of `number_int_value` and `number_uint_value` of `utils/dataconvert/dataconvert.cpp` with
`string_to_ll`, `string_to_ull` and `strtoll128` of `dataconvert.h`: a number in text form is
brought to fixed-point notation, the point is moved by the scale of the column, and the digits
before the point are converted to an integer that is rounded and limited to the column's range.

Strings are lists of characters, integers are numbers reduced to the range of their type after
each operation, and a result also says whether an operation of the type `T` left that range. The
longest string that memory holds is left open; a longer one is the fault `noMemory`.
-/

namespace NumberConversion

open ColumnTypes

/-- The error codes used. -/
inductive ErrCode where
  | formatErr | dataTypeErr
  deriving DecidableEq, Repr

/-- A `QueryDataExcept` or an exception of the string class. -/
inductive Fault where
  | queryData (text : String) (code : ErrCode)
  | outOfRange
  | noMemory
  deriving DecidableEq, Repr

/-- The type parameter `T`. -/
inductive IntType where
  | int64 | int128
  deriving DecidableEq, Repr

namespace IntType

def bits : IntType → Nat
  | int64 => 64
  | int128 => 128

def max (t : IntType) : Int := 2 ^ (t.bits - 1) - 1

def min (t : IntType) : Int := -2 ^ (t.bits - 1)

/-- The value in the type. -/
def wrap (t : IntType) (x : Int) : Int := x.bmod (2 ^ t.bits)

/-- The value is in the range of the type. -/
def fits (t : IntType) (x : Int) : Bool := decide (t.min ≤ x) && decide (x ≤ t.max)

end IntType

def toSize (x : Int) : Nat := (x % 2 ^ 64).toNat

/-- The longest string that memory holds; `max_size` is less than 2^63. -/
structure Memory where
  maxSize : Nat
  maxSize_lt : maxSize < 2 ^ 63

def find (c : Char) (s : List Char) : Option Nat := s.findIdx? (· == c)

/-- A copy of a string. -/
def copy (m : Memory) (s : List Char) : Except Fault (List Char) :=
  if m.maxSize < s.length then .error .noMemory else .ok s

def resize (m : Memory) (s : List Char) (n : Nat) : Except Fault (List Char) :=
  if m.maxSize < n then .error .noMemory else .ok (s.take n ++ List.replicate (n - s.length) '0')

def insert (m : Memory) (s : List Char) (pos : Nat) (new : List Char) :
    Except Fault (List Char) :=
  if s.length < pos then .error .outOfRange
  else if m.maxSize < s.length + new.length then .error .noMemory
  else .ok (s.take pos ++ new ++ s.drop pos)

def insertZeros (m : Memory) (s : List Char) (pos count : Nat) : Except Fault (List Char) :=
  if s.length < pos then .error .outOfRange
  else if m.maxSize < s.length + count then .error .noMemory
  else .ok (s.take pos ++ List.replicate count '0' ++ s.drop pos)

/-- The string up to its first NUL. -/
def cStr (s : List Char) : List Char := s.takeWhile (· ≠ '\x00')

def isSpace (c : Char) : Bool := c ∈ [' ', '\t', '\n', '\x0b', '\x0c', '\r']

def digitValue (c : Char) : Nat := c.toNat - 48

/-- What the conversion of a string to an integer gives. -/
structure Parsed where
  value : Int
  saturate : Bool
  wrapped : Bool
  deriving DecidableEq, Repr

def notNumerical : Fault := .queryData "value is not numerical." .formatErr

/-- The optional sign of a number: whether it is a minus, and the rest of the string. -/
def takeSign : List Char → Bool × List Char
  | '-' :: rest => (true, rest)
  | '+' :: rest => (false, rest)
  | s => (false, s)

/-- The library function `strtoll` in base 10: the number, limited to 64 bits, whether it had to be
limited, and the rest of the string; nothing if there are no digits. -/
def strtoll (s : List Char) : Option (Int × Bool × List Char) :=
  let (negative, s) := takeSign (s.dropWhile isSpace)
  let digits := s.takeWhile Char.isDigit
  if digits = [] then none
  else
    let n : Int := digits.foldl (fun n c => 10 * n + digitValue c) 0
    let n := if negative then -n else n
    let limited := max IntType.int64.min (min n IntType.int64.max)
    some (limited, limited ≠ n, s.dropWhile Char.isDigit)

/-- The library function `strtoull` in base 10, for a string without a minus sign. -/
def strtoull (s : List Char) : Option (Nat × Bool × List Char) :=
  let (_, s) := takeSign (s.dropWhile isSpace)
  let digits := s.takeWhile Char.isDigit
  if digits = [] then none
  else
    let n := digits.foldl (fun n c => 10 * n + digitValue c) 0
    let limited := min n (2 ^ 64 - 1)
    some (limited, limited ≠ n, s.dropWhile Char.isDigit)

/-- `add128` or `subtract128`. -/
def op128 (isNeg : Bool) (a b : Int) : Int := if isNeg then a - b else a + b

/-- `lessThan128` or `greaterThan128`. -/
def compare128 (isNeg : Bool) (a b : Int) : Bool := if isNeg then decide (a > b) else decide (a < b)

/-- The loop of `strtoll128`. A digit is taken unless the result gets smaller, or larger with a
minus sign. -/
def digits128 (isNeg : Bool) : List Char → Int → Bool → Parsed × List Char
  | [], res, wrapped => (⟨res, false, wrapped⟩, [])
  | c :: rest, res, wrapped =>
    if c.isDigit then
      let product := IntType.int128.wrap (res * 10)
      let sum := op128 isNeg product (digitValue c)
      let tmp := IntType.int128.wrap sum
      let wrapped := wrapped || !IntType.int128.fits (res * 10) || !IntType.int128.fits sum
      if compare128 isNeg tmp res then
        (⟨if isNeg then IntType.int128.min else IntType.int128.max, true, wrapped⟩,
          rest.dropWhile Char.isDigit)
      else digits128 isNeg rest tmp wrapped
    else (⟨res, false, wrapped⟩, c :: rest)

/-- The minus sign of a number; a plus is not known here. -/
def takeMinus : List Char → Bool × List Char
  | '-' :: rest => (true, rest)
  | s => (false, s)

/-- `strtoll128`: the number and the rest of the string. -/
def strtoll128 (s : List Char) : Parsed × List Char :=
  let (isNeg, s) := takeMinus (s.dropWhile fun c => c == ' ' || c == '\t' || c == '\n')
  digits128 isNeg s 0 false

def stringToLl (t : IntType) (data : List Char) : Except Fault Parsed :=
  let str := cStr data
  match t with
  | .int64 =>
    match strtoll str with
    | none => .error notNumerical
    | some (value, limited, rest) =>
      if rest ≠ [] then .error notNumerical else .ok ⟨value, limited, false⟩
  | .int128 =>
    let (parsed, rest) := strtoll128 str
    if rest.length = str.length ∨ rest ≠ [] then .error notNumerical else .ok parsed

/-- `string_to_ull`: zero for every negative number. -/
def stringToUll (data : List Char) : Except Fault (Nat × Bool) :=
  if (find '-' data).isSome then .ok (0, true)
  else
    match strtoull (cStr data) with
    | none => .error notNumerical
    | some (value, limited, rest) =>
      if rest ≠ [] then .error notNumerical else .ok (value, limited)

/-- The loop that removes the parentheses. -/
def removeParentheses : Nat → List Char → Except Fault (List Char)
  | 0, valStr => .ok valStr
  | fuel + 1, valStr =>
    match find '(' valStr, find ')' valStr with
    | some x, some y => removeParentheses fuel ((valStr.eraseIdx y).eraseIdx x)
    | some _, none => .error (.queryData "'(' is not matched." .formatErr)
    | none, some _ => .error (.queryData "')' is not matched." .formatErr)
    | none, none => .ok valStr

/-- The coefficient with its point moved by the exponent; the point was removed before. -/
def movePoint (m : Memory) (coef : List Char) (exponent : Int) : Except Fault (List Char) := do
  if 0 ≤ exponent then resize m coef (toSize (coef.length + exponent))
  else
    let bpos := (coef.findIdx? Char.isDigit).getD (2 ^ 64 - 1)
    let epos := coef.length
    let mpos := toSize (-exponent)
    let dpos := toSize (epos - mpos)
    let padding := IntType.int64.wrap
      (IntType.int64.wrap mpos - IntType.int64.wrap (toSize (epos - bpos)))
    if padding > 0 then
      let coef ← insertZeros m coef bpos padding.toNat
      insert m coef bpos ['.']
    else insert m coef dpos ['.']

/-- The conversion of scientific to fixed-point notation, and whether the exponent wrapped. -/
def expandExponent (t : IntType) (m : Memory) (valStr : List Char) :
    Except Fault (List Char × Bool) := do
  match (find 'E' valStr).or (find 'e' valStr) with
  | none => return (valStr, false)
  | some epos =>
    let coef := valStr.take epos
    let exponent ← stringToLl t (valStr.drop (epos + 1))
    if exponent.saturate then .error (.queryData "value is invalid." .formatErr)
    else
      match find '.' coef with
      | none => return (← movePoint m coef exponent.value, exponent.wrapped)
      | some dpos =>
        let coef := coef.eraseIdx dpos
        let lower := exponent.value - (coef.length - dpos : Nat)
        return (← movePoint m coef (t.wrap lower), exponent.wrapped || !t.fits lower)

/-- `valStr = intPart` with the rest behind a point, if there is any. -/
def joinParts (intPart leftStr : List Char) : List Char :=
  if leftStr.length > 0 then intPart ++ '.' :: leftStr else intPart

/-- The scale of the column is applied. -/
def applyScale (m : Memory) (scale : Int) (valStr : List Char) : Except Fault (List Char) := do
  if scale = 0 then return valStr
  else
    let digits := scale.natAbs
    match find '.' valStr with
    | some dpos =>
      let intPart := valStr.take dpos
      let behind := valStr.drop (dpos + 1)
      if 0 < scale then
        let frnStr := behind.take digits
        let frnStr ← if frnStr.length < digits then resize m frnStr digits else .ok frnStr
        return joinParts (intPart ++ frnStr) (behind.drop digits)
      else return joinParts intPart behind
    | none => if 0 < scale then resize m valStr (valStr.length + digits) else return valStr

/-- `intStr` after the point was cut off. -/
def withDigit (intStr : List Char) : List Char :=
  if intStr = [] then ['0']
  else if intStr = ['+'] ∨ intStr = ['-'] then intStr ++ ['0']
  else intStr

structure TypeAttributes where
  colWidth : Nat
  scale : Int
  precision : Int
  deriving DecidableEq, Repr

structure Converted where
  intVal : Int
  pushwarning : Bool
  saturate : Bool
  wrapped : Bool
  deriving DecidableEq, Repr

/-- The smallest value, and the largest if it is checked. -/
def typeLimits (typeCode : ColDataType) (colWidth : Nat) : Option (Int × Option Int) :=
  match typeCode with
  | .tinyint => some (-126, some 127)
  | .smallint => some (-32766, some 32767)
  | .medint => some (-8388608, some 8388607)
  | .int => some (-2147483646, some 2147483647)
  | .bigint => some (-9223372036854775806, none)
  | .decimal | .udecimal =>
    match colWidth with
    | 16 => some (-2 ^ 127 + 2, none)
    | 8 => some (-9223372036854775806, none)
    | 4 => some (-2147483646, some 2147483647)
    | 2 => some (-32766, some 32767)
    | 1 => some (-126, some 127)
    | _ => none
  | _ => none

/-- One of the checks against a range. -/
def Converted.limit (c : Converted) (low : Int) (high : Option Int) : Converted :=
  if c.intVal < low then { c with intVal := low, pushwarning := true, saturate := true }
  else
    match high with
    | some high =>
      if c.intVal > high then { c with intVal := high, pushwarning := true, saturate := true }
      else c
    | none => c

def magicPrecisionForCountAgg : Int := 9999

/-- `decimalRangeUp<T>`; both tables have the largest number with so many digits. -/
def decimalRangeUp (t : IntType) (precision : Int) : Int := t.wrap (10 ^ precision.toNat - 1)

/-- The check against the precision of a decimal. -/
def limitPrecision (t : IntType) (typeCode : ColDataType) (ct : TypeAttributes) (c : Converted) :
    Except Fault Converted :=
  if typeCode = .decimal ∨ typeCode = .udecimal ∨ ct.scale > 0 then
    let precision := if ct.precision = magicPrecisionForCountAgg then 38 else ct.precision
    if precision > 38 ∨ precision < 0 then
      .error (.queryData ("Unsupported precision " ++ toString precision ++ " converting DECIMAL ")
        .dataTypeErr)
    else
      let rangeUp := decimalRangeUp t precision
      let rangeLow := t.wrap (-rangeUp)
      if c.intVal > rangeUp then
        .ok { c with intVal := rangeUp, pushwarning := true, saturate := true }
      else if c.intVal < rangeLow then
        .ok { c with intVal := rangeLow, pushwarning := true, saturate := true }
      else .ok c
  else .ok c

/-- The digits before and behind the point, and 1 if the first one behind it rounds up. -/
def splitPoint (noRoundup : Bool) (valStr : List Char) :
    Except Fault (List Char × List Char × Int) := do
  match find '.' valStr with
  | none => return (valStr, [], 0)
  | some dp =>
    let frac1 ← stringToLl .int64 ((valStr.drop (dp + 1)).take 1)
    let roundup := if !noRoundup && decide (frac1.value ≥ 5) then 1 else 0
    return (withDigit (valStr.take dp), valStr.drop (dp + 1), roundup)

/-- The number in fixed-point notation is converted and rounded. -/
def convertDigits (t : IntType) (noRoundup : Bool) (valStr : List Char) (wrapped : Bool) :
    Except Fault Converted := do
  let (intStr, frnStr, roundup) ← splitPoint noRoundup valStr
  let parsed ← stringToLl t intStr
  let sum := parsed.value + if parsed.value ≥ 0 then roundup else -roundup
  let frnVal ← if frnStr.length > 0 then stringToLl t frnStr else .ok ⟨0, false, false⟩
  return {
    intVal := t.wrap sum
    pushwarning := parsed.saturate || frnVal.value != 0
    saturate := false
    wrapped := wrapped || parsed.wrapped || !t.fits sum || frnVal.wrapped }

def iequals (s : List Char) (word : String) : Bool := s.map Char.toLower == word.toList

/-- `number_int_value<T>`, with no warning before. -/
def numberIntValue (t : IntType) (m : Memory) (data : List Char) (typeCode : ColDataType)
    (ct : TypeAttributes) (noRoundup : Bool) : Except Fault Converted := do
  let valStr ← removeParentheses data.length (← copy m data)
  if iequals valStr "true" then return ⟨1, false, false, false⟩
  else if iequals valStr "false" then return ⟨0, false, false, false⟩
  else
    let (valStr, wrapped) ← expandExponent t m valStr
    let valStr ← applyScale m ct.scale valStr
    let converted ← convertDigits t noRoundup valStr wrapped
    limitPrecision t typeCode ct
      (match typeLimits typeCode ct.colWidth with
        | some (low, high) => converted.limit low high
        | none => converted)

/-- The largest value of an unsigned integer type. -/
def unsignedLimit : ColDataType → Option Nat
  | .utinyint => some 253
  | .usmallint => some 65533
  | .umedint => some 16777215
  | .uint => some 4294967293
  | .ubigint => some 18446744073709551613
  | _ => none

/-- `number_uint_value`: the value and the warning. -/
def numberUintValue (m : Memory) (data : List Char) (typeCode : ColDataType) :
    Except Fault (Nat × Bool) := do
  let valStr ← removeParentheses data.length (← copy m data)
  let (valStr, _) ← expandExponent .int64 m valStr
  let (intStr, frnStr) := match find '.' valStr with
    | none => (valStr, [])
    | some dp => (withDigit (valStr.take dp), valStr.drop (dp + 1))
  let (uintVal, saturated) ← stringToUll intStr
  let (frnVal, _) ← if frnStr.length > 0 then stringToUll frnStr else .ok (0, false)
  let pushwarning := saturated || frnVal != 0
  return match unsignedLimit typeCode with
    | some high => if uintVal > high then (high, true) else (uintVal, pushwarning)
    | none => (uintVal, pushwarning)

end NumberConversion
