import ColumnStore.CheckedWords

/-!
# Checked decimal arithmetic

Model of `Decimal::addition`, `subtraction` and `multiplication` of `datatypes/mcs_decimal.cpp`
with the overflow check, for the storage types `int64_t` and `int128_t`. A decimal is an integer
and a scale. The integer of a wide decimal is its member `s128Value`, that of another one its
member `value`; both members always exist. The scales and precisions are those the source states
for these members, 0 to 38.

Words wrap around. The quotients that are rounded through floating point numbers, when the scale
of the result is smaller than the scales it is made from, are parameters.
-/

namespace DecimalArithmetic

open CheckedWords

/-- What an operation ends with besides a result: an `OperationOverflowExcept`, another exception
(`std::invalid_argument`), a read past the end of a table, a division by zero. -/
inductive Stop where
  | overflow | invalidArgument | outOfTable | divisionByZero
  deriving DecidableEq, Repr

structure Decimal where
  value : BitVec 64
  s128Value : BitVec 128
  scale : Nat
  precision : Nat
  scale_le : scale ≤ 38
  precision_le : precision ≤ 38

def isWideDecimalTypeByPrecision (precision : Nat) : Bool :=
  decide (18 < precision ∧ precision ≤ 38)

/-- The quotients rounded through `double` and `float128_t`. -/
structure RoundedQuotients where
  quotient64 : BitVec 64 → Nat → BitVec 64
  quotient128 : BitVec 128 → BitVec 128 → BitVec 128

def mcsPow10 : List Nat := (List.range 20).map (10 ^ ·)

def mcsPow10Wide : List Nat := (List.range 20).map fun i => 10 ^ (19 + i)

def readTable (table : List Nat) (i : Nat) : Except Stop Nat :=
  match table[i]? with
  | some power => .ok power
  | none => .error .outOfTable

def scaleDivisor (scale : Nat) : Except Stop (BitVec 128) :=
  if scale < 19 then (readTable mcsPow10 scale).map (BitVec.ofNat 128)
  else if 39 < scale then .error .invalidArgument
  else (readTable mcsPow10Wide (scale - 19)).map (BitVec.ofNat 128)

/-- `getScaleDivisor`, whose argument is an `int8_t`. -/
def getScaleDivisor (scale : BitVec 8) : Except Stop (BitVec 128) :=
  if scale.toInt < 0 then .error .invalidArgument else scaleDivisor scale.toNat

section Checks

variable {w : Nat}

def additionOverflowCheck (x y : BitVec w) : Except Stop Unit :=
  if (0 < y.toInt ∧ 2 ^ (w - 1) - 1 - y.toInt < x.toInt) ∨
      (y.toInt < 0 ∧ x.toInt < -2 ^ (w - 1) - y.toInt) then .error .overflow
  else .ok ()

def subtractionOverflowCheck (x y : BitVec w) : Except Stop Unit :=
  if (0 < y.toInt ∧ x.toInt < -2 ^ (w - 1) + y.toInt) ∨
      (y.toInt < 0 ∧ 2 ^ (w - 1) - 1 + y.toInt < x.toInt) then .error .overflow
  else .ok ()

/-- `MultiplicationOverflowCheck`, which divides the product back. -/
def multiplicationOverflowCheck (x y : BitVec w) : Except Stop (BitVec w) :=
  let z := x * y
  if y = 0 then .error .divisionByZero
  else if z.sdiv y ≠ x then .error .overflow
  else .ok z

end Checks

/-- An operand brought to the scale of the result, with words of 128 bits. -/
def rescale128 (f : RoundedQuotients) (v : BitVec 128) (scale resultScale : Nat) :
    Except Stop (BitVec 128) :=
  if scale < resultScale then do
    let scaleMultiplier ← getScaleDivisor (BitVec.ofNat 8 (resultScale - scale))
    let _ ← multiplicationOverflowCheck v scaleMultiplier
    pure (v * scaleMultiplier)
  else if resultScale < scale then do
    let scaleMultiplier ← getScaleDivisor (BitVec.ofNat 8 (scale - resultScale))
    pure (f.quotient128 v scaleMultiplier)
  else pure v

/-- An operand brought to the scale of the result, with words of 64 bits. -/
def rescale64 (f : RoundedQuotients) (v : BitVec 64) (scale resultScale : Nat) :
    Except Stop (BitVec 64) :=
  if scale < resultScale then do
    let power ← readTable mcsPow10 (resultScale - scale)
    multiplicationOverflowCheck v (BitVec.ofNat 64 power)
  else if resultScale < scale then do
    let power ← readTable mcsPow10 (scale - resultScale)
    pure (f.quotient64 v power)
  else pure v

/-- `addSubtractExecute`, and the body that the two functions for words of 64 bits share. -/
def addSubtract {w : Nat} (rescale : BitVec w → Nat → Nat → Except Stop (BitVec w))
    (op : BitVec w → BitVec w → BitVec w) (opOverflowCheck : BitVec w → BitVec w → Except Stop Unit)
    (lValue rValue : BitVec w) (lScale rScale resultScale : Nat) : Except Stop (BitVec w) :=
  if resultScale = lScale ∧ resultScale = rScale then do
    opOverflowCheck lValue rValue
    pure (op lValue rValue)
  else do
    let lValue ← rescale lValue lScale resultScale
    let rValue ← rescale rValue rScale resultScale
    opOverflowCheck lValue rValue
    pure (op lValue rValue)

/-- The integer of a decimal, as the functions for words of 128 bits read it. -/
def wideValue (d : Decimal) : BitVec 128 :=
  if isWideDecimalTypeByPrecision d.precision then d.s128Value else d.value.signExtend 128

def addition128 (f : RoundedQuotients) (l r result : Decimal) : Except Stop (BitVec 128) :=
  addSubtract (rescale128 f) (· + ·) additionOverflowCheck (wideValue l) (wideValue r)
    l.scale r.scale result.scale

def subtraction128 (f : RoundedQuotients) (l r result : Decimal) : Except Stop (BitVec 128) :=
  addSubtract (rescale128 f) (· - ·) subtractionOverflowCheck (wideValue l) (wideValue r)
    l.scale r.scale result.scale

def addition64 (f : RoundedQuotients) (l r result : Decimal) : Except Stop (BitVec 64) :=
  addSubtract (rescale64 f) (· + ·) additionOverflowCheck l.value r.value
    l.scale r.scale result.scale

def subtraction64 (f : RoundedQuotients) (l r result : Decimal) : Except Stop (BitVec 64) :=
  addSubtract (rescale64 f) (· - ·) subtractionOverflowCheck l.value r.value
    l.scale r.scale result.scale

/-- `multiplication<int128_t, true>`, which is `multiplicationExecute`. -/
def multiplication128 (f : RoundedQuotients) (l r result : Decimal) : Except Stop (BitVec 128) :=
  let lValue := wideValue l
  let rValue := wideValue r
  if lValue = 0 ∨ rValue = 0 then pure 0
  else if l.scale + r.scale ≤ result.scale then do
    let scaleMultiplier ← getScaleDivisor (BitVec.ofNat 8 (result.scale - (l.scale + r.scale)))
    let product ← multiplicationOverflowCheck lValue rValue
    multiplicationOverflowCheck product scaleMultiplier
  else do
    let diff := l.scale + r.scale - result.scale
    let scaleMultiplierL ← getScaleDivisor (BitVec.ofNat 8 (diff / 2))
    let scaleMultiplierR ← getScaleDivisor (BitVec.ofNat 8 (diff - diff / 2))
    multiplicationOverflowCheck (f.quotient128 lValue scaleMultiplierL)
      (f.quotient128 rValue scaleMultiplierR)

def multiplication64 (f : RoundedQuotients) (l r result : Decimal) : Except Stop (BitVec 64) :=
  if l.scale + r.scale ≤ result.scale then do
    let product ← multiplicationOverflowCheck l.value r.value
    let power ← readTable mcsPow10 (result.scale - (l.scale + r.scale))
    multiplicationOverflowCheck product (BitVec.ofNat 64 power)
  else do
    let product ← multiplicationOverflowCheck l.value r.value
    let power ← readTable mcsPow10 (l.scale + r.scale - result.scale)
    pure (f.quotient64 product power)

/-- The template argument `T`. -/
inductive Storage where
  | int64 | int128
  deriving DecidableEq, Repr

def Storage.bits : Storage → Nat
  | .int64 => 64
  | .int128 => 128

inductive Operation where
  | addition | subtraction | multiplication
  deriving DecidableEq, Repr

/-- The integer left in the result. -/
def execute (f : RoundedQuotients) (T : Storage) (o : Operation) (l r result : Decimal) :
    Except Stop Int :=
  match T, o with
  | .int64, .addition => (addition64 f l r result).map BitVec.toInt
  | .int64, .subtraction => (subtraction64 f l r result).map BitVec.toInt
  | .int64, .multiplication => (multiplication64 f l r result).map BitVec.toInt
  | .int128, .addition => (addition128 f l r result).map BitVec.toInt
  | .int128, .subtraction => (subtraction128 f l r result).map BitVec.toInt
  | .int128, .multiplication => (multiplication128 f l r result).map BitVec.toInt

/-- The integer that a decimal stands for. -/
def Decimal.integer (d : Decimal) : Int :=
  if isWideDecimalTypeByPrecision d.precision then d.s128Value.toInt else d.value.toInt

/-- A number if it fits in the storage type, an overflow otherwise. -/
def fitted (T : Storage) (z : Int) : Except Stop Int :=
  if Fits T.bits z then .ok z else .error .overflow

/-- The exact result at the scale of `result`, or an overflow when it or one of the rescaled
operands does not fit; `a` and `b` are the integers of the operands. -/
def exactly (T : Storage) (o : Operation) (a b : Int) (l r result : Decimal) : Except Stop Int :=
  match o with
  | .addition => do
      let a ← fitted T (a * 10 ^ (result.scale - l.scale))
      let b ← fitted T (b * 10 ^ (result.scale - r.scale))
      fitted T (a + b)
  | .subtraction => do
      let a ← fitted T (a * 10 ^ (result.scale - l.scale))
      let b ← fitted T (b * 10 ^ (result.scale - r.scale))
      fitted T (a - b)
  | .multiplication => do
      let a ← fitted T a
      let b ← fitted T b
      fitted T (a * b * 10 ^ (result.scale - (l.scale + r.scale)))

/-- The scale of the result has room for the digits of the operands. -/
def Roomy (o : Operation) (l r result : Decimal) : Prop :=
  match o with
  | .multiplication => l.scale + r.scale ≤ result.scale
  | _ => l.scale ≤ result.scale ∧ r.scale ≤ result.scale

instance (o : Operation) (l r result : Decimal) : Decidable (Roomy o l r result) :=
  match o with
  | .multiplication => Nat.decLe ..
  | .addition | .subtraction => instDecidableAnd

end DecimalArithmetic
