import Mathlib.Algebra.Order.Ring.Int
import ColumnStore.BlockFilter

/-!
# Casual-partition elimination

Model of `LBIDList::CasualPartitionPredicate`: a filter message is tested against
the value range of an extent, and a negative answer removes the extent from the
scan. The results compare that answer with the block scan of `BlockFilter`.

The test reads each constant on its own and in its own way; `Overlooked` lists the
places where the two readings part. Elimination is sound when no value that the extent
can hold is at such a place of a constant that is ruled out.
-/

namespace CasualPartition

open ByteStrings ColumnTypes BlockFilter List BitVec

def casualPartitionDataType (type : ColDataType) (size : Nat) : Bool :=
  match type with
  | .char => decide (size < 9)
  | .varchar | .blob | .text => decide (size ≤ 8)
  | .tinyint | .smallint | .medint | .int | .bigint | .decimal | .date | .datetime | .time
  | .timestamp | .utinyint | .usmallint | .udecimal | .umedint | .uint | .ubigint => true
  | _ => false

/-- The two unions of `EMCasualPartition_struct`. -/
structure CPRange where
  bigLoVal : BitVec 128
  bigHiVal : BitVec 128
  deriving DecidableEq

def CPRange.loVal (range : CPRange) : BitVec 64 := range.bigLoVal.setWidth 64
def CPRange.hiVal (range : CPRange) : BitVec 64 := range.bigHiVal.setWidth 64

def compareVal {T : Type} [LinearOrder T] (Min Max value : T) (op : Cop) (lcf : BitVec 8) : Bool :=
  match op with
  | .lt | .nge => !decide (value ≤ Min)
  | .le | .ngt => !decide (value < Min)
  | .gt | .nle => !decide (Max ≤ value)
  | .ge | .nlt => !decide (Max < value)
  | .eq => !(decide (value < Min) || decide (Max < value) || decide (0 < lcf))
  | .ne => !(decide (value = Min) && decide (value = Max) && lcf == 0)
  | _ => true

def compareStr (cs : Charset) (Min Max value : List Byte) (op : Cop) (lcf : BitVec 8) : Bool :=
  match op with
  | .lt | .nge => decide (0 < cs.strnncollsp value Min)
  | .le | .ngt => decide (0 ≤ cs.strnncollsp value Min)
  | .gt | .nle => decide (cs.strnncollsp value Max < 0)
  | .ge | .nlt => decide (cs.strnncollsp value Max ≤ 0)
  | .eq => decide (0 ≤ cs.strnncollsp value Min) && decide (cs.strnncollsp value Max ≤ 0) &&
      decide (lcf ≤ 0)
  | .ne => decide (cs.strnncollsp value Min ≠ 0) || decide (cs.strnncollsp value Max ≠ 0) ||
      lcf != 0
  | _ => false

/-- The order in which an extent range is kept. -/
inductive RangeOrder where
  | text | unsigned | signed
  deriving DecidableEq, Repr

/-- `bIsChar` and `bIsUnsigned`. -/
def rangeOrder (ct : ColType) (isDict : Bool) : RangeOrder :=
  if !isDict && ct.colDataType.isCharType then .text
  else if isDict || ct.colDataType.isUnsigned then .unsigned
  else .signed

section Predicate

variable {ct : ColType}

/-- The 64-bit constant; a 16-byte constant is not loaded into it. -/
def constant (isDict : Bool) (val : Value ct) : BitVec 64 :=
  if ct.colWidth = 16 then 0
  else if isDict || ct.colDataType.isUnsigned then val.setWidth 64
  else val.signExtend 64

/-- The 128-bit constant, loaded for signed 16-byte columns only. -/
def bigConstant (isDict : Bool) (val : Value ct) : BitVec 128 :=
  if ct.colWidth = 16 ∧ (isDict || ct.colDataType.isUnsigned) = false then val.signExtend 128
  else 0

/-- The constant is a NULL, on which the loop continues with `scan` still true. -/
def skipped (isDict : Bool) (arg : ColArgs ct) : Bool :=
  if ct.isWideDecimalType && isNullWide (bigConstant isDict arg.val) then true
  else isNull (constant isDict arg.val) ct

/-- The test of one constant that is not NULL. -/
def compareArg (cs : Charset) (range : CPRange) (isDict : Bool) (arg : ColArgs ct) : Bool :=
  match rangeOrder ct isDict with
  | .text =>
    compareStr cs (rtrimZero (bytes ct.colWidth range.loVal))
      (rtrimZero (bytes ct.colWidth range.hiVal))
      (rtrimZero (bytes ct.colWidth (constant isDict arg.val))) arg.cop arg.rf
  | .unsigned =>
    compareVal range.loVal.toNat range.hiVal.toNat (constant isDict arg.val).toNat arg.cop arg.rf
  | .signed =>
    if ct.colWidth ≠ 16 then
      compareVal range.loVal.toInt range.hiVal.toInt (constant isDict arg.val).toInt
        arg.cop arg.rf
    else
      compareVal range.bigLoVal.toInt range.bigHiVal.toInt (bigConstant isDict arg.val).toInt
        arg.cop arg.rf

/-- The loop of `CasualPartitionPredicate`: `nops` elements are still expected and `scan` is
the answer of the previous one. A message that ends early keeps the extent. -/
def predicateLoop (cs : Charset) (range : CPRange) (bop : Bop) (isDict : Bool) :
    Nat → Bool → List (ColArgs ct) → Bool
  | 0, scan, _ => scan
  | _ + 1, _, [] => true
  | nops + 1, _, arg :: rest =>
    if skipped isDict arg then predicateLoop cs range bop isDict nops true rest
    else
      let scan := compareArg cs range isDict arg
      if bop = .and ∧ scan = false then scan
      else if bop = .or ∧ scan = true then scan
      else predicateLoop cs range bop isDict nops scan rest

def casualPartitionPredicate (cs : Charset) (range : CPRange) (bs : List (ColArgs ct))
    (nops : Nat) (bop : Bop) (isDict : Bool) : Bool :=
  predicateLoop cs range bop isDict nops true bs

/-- The range test of this constant alone removes the extent. -/
def RuledOut (cs : Charset) (range : CPRange) (isDict : Bool) (arg : ColArgs ct) : Prop :=
  skipped isDict arg = false ∧ compareArg cs range isDict arg = false

lemma predicateLoop_and (cs : Charset) (range : CPRange) (isDict scan : Bool)
    (bs : List (ColArgs ct)) :
    predicateLoop cs range .and isDict bs.length scan bs = false ↔
      bs = [] ∧ scan = false ∨ ∃ arg ∈ bs, RuledOut cs range isDict arg := by
  induction bs generalizing scan with
  | nil => simp [predicateLoop]
  | cons arg rest ih =>
    by_cases null : skipped isDict arg
    · simp [predicateLoop, null, ih, RuledOut]
    have known : skipped isDict arg = false := by simpa using null
    by_cases out : compareArg cs range isDict arg = false
    · simp [predicateLoop, known, out, RuledOut]
    · have kept : compareArg cs range isDict arg := by simpa using out
      simp [predicateLoop, kept, ih, RuledOut]

/-- A disjunction removes the extent when every constant that is not NULL does, and the
last constant is not NULL. -/
lemma predicateLoop_or (cs : Charset) (range : CPRange) (isDict scan : Bool)
    (bs : List (ColArgs ct)) :
    predicateLoop cs range .or isDict bs.length scan bs = false ↔
      bs = [] ∧ scan = false ∨
        (∀ arg ∈ bs, skipped isDict arg ∨ RuledOut cs range isDict arg) ∧
          ∃ last, bs.getLast? = some last ∧ skipped isDict last = false := by
  induction bs generalizing scan with
  | nil => simp [predicateLoop]
  | cons arg rest ih =>
    by_cases null : skipped isDict arg
    · have continues : predicateLoop cs range .or isDict (arg :: rest).length scan (arg :: rest) =
          predicateLoop cs range .or isDict rest.length true rest := by
        simp [predicateLoop, null]
      rw [continues, ih]
      cases rest <;> simp [null]
    have known : skipped isDict arg = false := by simpa using null
    by_cases out : compareArg cs range isDict arg = false
    · have continues : predicateLoop cs range .or isDict (arg :: rest).length scan (arg :: rest) =
          predicateLoop cs range .or isDict rest.length false rest := by
        simp [predicateLoop, known, out]
      rw [continues, ih]
      cases rest <;> simp [known, out, RuledOut]
    · have kept : compareArg cs range isDict arg := by simpa using out
      simp [predicateLoop, known, kept, RuledOut]

variable {cop : Cop}

/-- A number inside the range that passes a test the range fails can only be the constant
itself, through a rounding flag the range test does not read. -/
lemma eq_of_compareVal_eq_false {T : Type} [LinearOrder T] {lo hi v c : T} {rf : BitVec 8}
    (above : lo ≤ v) (below : v ≤ hi) (out : compareVal lo hi c cop rf = false)
    (passes : colCompare_ v c cop rf) :
    v = c ∧ (cop = .lt ∧ rf &&& 0x01 ≠ 0 ∨ cop = .gt ∧ rf &&& 0x80 ≠ 0) := by
  cases cop <;> simp [compareVal, colCompare_] at out passes ⊢
  case lt =>
    rcases passes with less | ⟨rfl, rounded⟩
    · exact absurd (lt_of_lt_of_le less out) (not_lt_of_ge above)
    · exact ⟨rfl, rounded⟩
  case gt =>
    rcases passes with more | ⟨rfl, rounded⟩
    · exact absurd (lt_of_le_of_lt out more) (not_lt_of_ge below)
    · exact ⟨rfl, rounded⟩
  case eq =>
    obtain ⟨rfl, unrounded⟩ := passes
    simp [unrounded, not_lt_of_ge above, not_lt_of_ge below] at out
  case ne =>
    obtain ⟨⟨rfl, rfl⟩, unrounded⟩ := out
    exact (passes.resolve_right (by simp [unrounded])) (le_antisymm below above)
  case le =>
    rcases passes with less | ⟨rfl, -⟩
    · exact absurd (lt_trans less out) (not_lt_of_ge above)
    · exact absurd out (not_lt_of_ge above)
  case ge =>
    rcases passes with more | ⟨rfl, -⟩
    · exact absurd (lt_trans out more) (not_lt_of_ge below)
    · exact absurd out (not_lt_of_ge below)

variable {cs : Charset}

lemma colCompareStr_of_compareStr_eq_false {lo hi v c : List Byte}
    (above : 0 ≤ cs.strnncollsp v lo) (below : cs.strnncollsp v hi ≤ 0)
    (out : compareStr cs lo hi c cop 0 = false) (plain : cop.isLike = false)
    (notNull : cop ≠ .nulleq) : colCompareStr cs cop (some v) (some c) = false := by
  have lo_le_v : cs.strnncollsp lo v ≤ 0 := (cs.swap lo v).mpr above
  cases cop <;> simp [compareStr, colCompareStr, Cop.isLike] at out plain notNull ⊢
  case lt => exact (cs.swap c v).mp (cs.trans c lo v out lo_le_v)
  case eq =>
    intro same
    have v_le_c : cs.strnncollsp v c ≤ 0 := same.le
    have c_le_v : cs.strnncollsp c v ≤ 0 := (cs.swap c v).mpr same.ge
    have fromLo := (cs.swap lo c).mp (cs.trans lo v c lo_le_v v_le_c)
    have toHi := cs.trans c v hi c_le_v below
    omega
  case le =>
    by_contra passes
    have fromLo := (cs.swap lo c).mp (cs.trans lo v c lo_le_v (by omega))
    omega
  case gt => exact cs.trans v hi c below ((cs.swap hi c).mpr out)
  case ne =>
    have c_le_v := (cs.swap c v).mp (cs.trans c lo v out.1.le lo_le_v)
    have v_le_c := cs.trans v hi c below ((cs.swap hi c).mpr out.2.ge)
    omega
  case ge =>
    by_contra passes
    have toHi := cs.trans c v hi ((cs.swap c v).mpr (by omega)) below
    omega

/-- With a binary collation without padding the swapped words compare like the strings. -/
lemma orderSwap_lt_iff (binary : cs.nopadBin) (narrow : ct.colWidth ≤ 8) (v c : Value ct) :
    orderSwap (v.setWidth 64) < orderSwap (c.setWidth 64) ↔
      cs.strnncollsp (rtrimZero (bytes ct.colWidth v)) (rtrimZero (bytes ct.colWidth c)) < 0 := by
  rw [cs.binsort binary, orderSwap, orderSwap, bigEndian_lt_iff_rtrimZero_lt (by simp)]
  rw [rtrimZero_bytes_setWidth v narrow, rtrimZero_bytes_setWidth c narrow]

lemma colCompareNoRound_orderSwap (binary : cs.nopadBin) (narrow : ct.colWidth ≤ 8)
    (v c : Value ct) (plain : cop.isLike = false) (notNull : cop ≠ .nulleq) :
    colCompareNoRound_ (orderSwap (v.setWidth 64)) (orderSwap (c.setWidth 64)) cop =
      colCompareStr cs cop (some (rtrimZero (bytes ct.colWidth v)))
        (some (rtrimZero (bytes ct.colWidth c))) := by
  have less := orderSwap_lt_iff binary narrow v c
  have more := orderSwap_lt_iff binary narrow c v
  have swap := cs.swap (rtrimZero (bytes ct.colWidth v)) (rtrimZero (bytes ct.colWidth c))
  rw [Bool.eq_iff_iff]
  cases cop <;>
    simp [colCompareNoRound_, colCompareStr, Cop.isLike] at plain notNull ⊢ <;> omega

/-- The range is kept in the order in which the scan compares. -/
def ordersAgree (ct : ColType) (isDict : Bool) : Bool :=
  match rangeOrder ct isDict, kind ct with
  | .text, .text | .unsigned, .unsigned | .signed, .default => true
  | _, _ => false

/-- The places where the test of one constant says nothing about a stored value. -/
inductive Overlooked (isDict : Bool) (mode : ColumnFilterMode) (arg : ColArgs ct) (v : Value ct) :
    Prop where
  | otherOrder (differ : ordersAgree ct isDict = false)
  | unknownNull (null : arg.val = getNullValue ct)
  | roundedUp (op : arg.cop = .lt) (flag : arg.rf &&& roundPos ≠ 0) (boundary : v = arg.val)
  | roundedDown (op : arg.cop = .gt) (flag : arg.rf &&& roundNeg ≠ 0) (boundary : v = arg.val)
  | roundedList (list : mode = .oneOfValuesInArray) (flag : arg.rf ≠ 0) (member : v = arg.val)
  | rawText (text : kind ct = .text)
      (raw : arg.rf ≠ 0 ∨ arg.cop.isLike = true ∨ arg.cop = .nulleq ∨
        mode = .noneOfValuesInArray ∨ mode = .noneOfValuesInSet)

/-- A value counted in the range of the extent. -/
def InRange (cs : Charset) (range : CPRange) (isDict : Bool) (v : Value ct) : Prop :=
  match rangeOrder ct isDict with
  | .text =>
    0 ≤ cs.strnncollsp (rtrimZero (bytes ct.colWidth v))
      (rtrimZero (bytes ct.colWidth range.loVal)) ∧
      cs.strnncollsp (rtrimZero (bytes ct.colWidth v))
        (rtrimZero (bytes ct.colWidth range.hiVal)) ≤ 0
  | .unsigned => range.loVal.toNat ≤ v.toNat ∧ v.toNat ≤ range.hiVal.toNat
  | .signed =>
    if ct.colWidth ≠ 16 then range.loVal.toInt ≤ v.toInt ∧ v.toInt ≤ range.hiVal.toInt
    else range.bigLoVal.toInt ≤ v.toInt ∧ v.toInt ≤ range.bigHiVal.toInt

/-- What a slot of the extent can hold: NULL is never counted in the range. -/
def Storable (cs : Charset) (range : CPRange) (isDict : Bool) (v : Value ct) : Prop :=
  v = getNullValue ct ∨ InRange cs range isDict v

/-- The operation a list mode was chosen for. -/
def ListCop (mode : ColumnFilterMode) (cop : Cop) : Prop :=
  match mode with
  | .oneOfValuesInArray | .oneOfValuesInSet => cop = .eq
  | .noneOfValuesInArray | .noneOfValuesInSet => cop = .ne
  | _ => True

variable {ct : ColType}

/-- Text and unsigned numbers fit into a word. -/
lemma kind_word (word : kind ct = .text ∨ kind ct = .unsigned) :
    ct.colDataType.isUnsigned ∧ ct.colWidth ≤ 8 := by
  have listed := ct.width_ok
  cases type : ct.colDataType <;>
    simp [kind, type, ColDataType.isUnsigned, ColDataType.isUnsignedInteger] at word ⊢ <;>
    simp [type, ColDataType.widths] at listed <;> omega

variable {isDict : Bool}

lemma rangeOrder_signed (signed : rangeOrder ct isDict = .signed) :
    (isDict || ct.colDataType.isUnsigned) = false := by
  unfold rangeOrder at signed
  split at signed
  · cases signed
  · split at signed
    · cases signed
    · simp_all

variable {mode : ColumnFilterMode} {arg : ColArgs ct}

lemma argMatches_null (passes : argMatches cs mode (getNullValue ct) arg) :
    arg.val = getNullValue ct := by
  by_contra known
  have other : getNullValue ct ≠ arg.val := fun h => known h.symm
  cases mode <;> simp [argMatches, colCompare, colCompareNull, known, other] at passes

variable {v : Value ct}

/-- Against numbers, an element is the comparison `colCompare_`, except for a rounded
constant in a short list of admitted values. -/
lemma colCompare_of_argMatches {T : Type} [BEq T] [LawfulBEq T] [LT T] [LE T] [DecidableLT T]
    [DecidableLE T] (num : Value ct → T) (injective : Function.Injective num)
    (present : v ≠ getNullValue ct) (known : arg.val ≠ getNullValue ct)
    (listed : ListCop mode arg.cop)
    (dispatched : colCompareDispatcher cs v arg.val arg.cop arg.rf =
      colCompare_ (num v) (num arg.val) arg.cop arg.rf)
    (passes : argMatches cs mode v arg) :
    (mode = .oneOfValuesInArray ∧ arg.rf ≠ 0 ∧ v = arg.val) ∨
      colCompare_ (num v) (num arg.val) arg.cop arg.rf := by
  have compared : colCompare cs (v == getNullValue ct) v arg.val (prestoredCop arg) arg.rf →
      colCompare_ (num v) (num arg.val) arg.cop arg.rf := by
    intro h
    rw [prestoredCop_of_ne_null known, colCompare, beq_eq_false_iff_ne.mpr present, dispatched] at h
    by_cases nil : arg.cop = .nil
    · simp [nil] at h
    · simpa [nil] using h
  cases mode with
  | oneOfValuesInArray =>
    have same : v = arg.val := by simpa [argMatches] using passes
    by_cases unrounded : arg.rf = 0
    · exact .inr (by simp [show arg.cop = .eq from listed, colCompare_, same, unrounded])
    · exact .inl ⟨rfl, unrounded, same⟩
  | oneOfValuesInSet =>
    obtain ⟨unrounded, same⟩ : arg.rf = 0 ∧ v = arg.val := by simpa [argMatches] using passes
    exact .inr (by simp [show arg.cop = .eq from listed, colCompare_, same, unrounded])
  | noneOfValuesInArray =>
    have differs : v ≠ arg.val := by
      simp only [argMatches, Bool.and_eq_true, bne_iff_ne] at passes
      exact passes.2
    have apart : num v ≠ num arg.val := fun h => differs (injective h)
    exact .inr (by simp [show arg.cop = .ne from listed, colCompare_, apart])
  | noneOfValuesInSet =>
    have differs : arg.rf ≠ 0 ∨ v ≠ arg.val := by
      simp only [argMatches, Bool.and_eq_true, Bool.or_eq_true, bne_iff_ne] at passes
      exact passes.2
    have apart : num v ≠ num arg.val ∨ arg.rf ≠ 0 :=
      differs.symm.imp_left fun h same => h (injective same)
    exact .inr (by simpa [show arg.cop = .ne from listed, colCompare_] using apart)
  | alwaysTrue | singleComparison | anyComparisonTrue | allComparisonsTrue | xorComparisons =>
    exact .inr (compared passes)

/-- Numbers: a stored value passes a ruled out element only through its rounding flag. -/
lemma overlooked_of_compareVal {T : Type} [LinearOrder T] {lo hi : T}
    (num : Value ct → T) (injective : Function.Injective num)
    (present : v ≠ getNullValue ct) (known : arg.val ≠ getNullValue ct)
    (listed : ListCop mode arg.cop)
    (dispatched : colCompareDispatcher cs v arg.val arg.cop arg.rf =
      colCompare_ (num v) (num arg.val) arg.cop arg.rf)
    (above : lo ≤ num v) (below : num v ≤ hi)
    (out : compareVal lo hi (num arg.val) arg.cop arg.rf = false)
    (passes : argMatches cs mode v arg) : Overlooked isDict mode arg v := by
  rcases colCompare_of_argMatches num injective present known listed dispatched passes with
    ⟨list, flag, member⟩ | compared
  · exact .roundedList list flag member
  · obtain ⟨same, ⟨op, flag⟩ | ⟨op, flag⟩⟩ := eq_of_compareVal_eq_false above below out compared
    · exact .roundedUp op flag (injective same)
    · exact .roundedDown op flag (injective same)

/-- Text: a stored value passes a ruled out element only where the scan leaves the collation. -/
lemma overlooked_of_compareStr {lo hi : List Byte} (text : kind ct = .text)
    (present : v ≠ getNullValue ct) (known : arg.val ≠ getNullValue ct)
    (listed : ListCop mode arg.cop)
    (above : 0 ≤ cs.strnncollsp (rtrimZero (bytes ct.colWidth v)) lo)
    (below : cs.strnncollsp (rtrimZero (bytes ct.colWidth v)) hi ≤ 0)
    (out : compareStr cs lo hi (rtrimZero (bytes ct.colWidth arg.val)) arg.cop arg.rf = false)
    (passes : argMatches cs mode v arg) : Overlooked isDict mode arg v := by
  by_contra seen
  have unrounded : arg.rf = 0 := by
    by_contra flag
    exact seen (.rawText text (.inl flag))
  have plain : arg.cop.isLike = false := by
    by_contra like
    exact seen (.rawText text (.inr (.inl (by simpa using like))))
  have notNull : arg.cop ≠ .nulleq := fun h => seen (.rawText text (.inr (.inr (.inl h))))
  rw [unrounded] at out
  have fails := colCompareStr_of_compareStr_eq_false above below out plain notNull
  have admitted : arg.cop = .eq → v ≠ arg.val := by
    intro op same
    simp [op, colCompareStr, Cop.isLike, same, cs.refl] at fails
  have scanned :
      colCompare cs (v == getNullValue ct) v arg.val (prestoredCop arg) arg.rf = false := by
    rw [prestoredCop_of_ne_null known, colCompare, beq_eq_false_iff_ne.mpr present]
    by_cases nil : arg.cop = .nil
    · simp [nil]
    have raw := fun binary : cs.nopadBin =>
      colCompareNoRound_orderSwap binary (kind_word (.inl text)).2 v arg.val plain notNull
    by_cases binary : cs.nopadBin
    · simp [nil, colCompareDispatcher, text, plain, unrounded, binary, raw binary, fails]
    · simp [colCompareDispatcher, text, unrounded, binary, constString, present, known, fails]
  cases mode with
  | oneOfValuesInArray => exact admitted listed (by simpa [argMatches] using passes)
  | oneOfValuesInSet =>
    simp only [argMatches, Bool.and_eq_true, beq_iff_eq] at passes
    exact admitted listed passes.2
  | noneOfValuesInArray | noneOfValuesInSet => exact seen (.rawText text (by simp))
  | alwaysTrue | singleComparison | anyComparisonTrue | allComparisonsTrue | xorComparisons =>
    exact absurd (show colCompare cs _ v arg.val (prestoredCop arg) arg.rf from passes)
      (by simp [scanned])

lemma ordersAgree_cases (agree : ordersAgree ct isDict) :
    (rangeOrder ct isDict = .text ∧ kind ct = .text) ∨
      (rangeOrder ct isDict = .unsigned ∧ kind ct = .unsigned) ∨
      (rangeOrder ct isDict = .signed ∧ kind ct = .default) := by
  unfold ordersAgree at agree
  cases order : rangeOrder ct isDict <;> cases scan : kind ct <;> simp_all

lemma constant_word (word : kind ct = .text ∨ kind ct = .unsigned) (val : Value ct) :
    constant isDict val = val.setWidth 64 := by
  obtain ⟨unsigned, narrow⟩ := kind_word word
  simp [constant, unsigned]
  omega

lemma constant_text (text : kind ct = .text) (val : Value ct) :
    bytes ct.colWidth (constant isDict val) = bytes ct.colWidth val := by
  have narrow := (kind_word (.inl text)).2
  rw [constant_word (.inl text)]
  apply map_congr_left
  intro i inside
  have bound : i < ct.colWidth := mem_range.mp inside
  apply eq_of_getLsbD_eq
  intro j small
  have loadedBit : 8 * i + j < 64 := by omega
  simp [loadedBit]

lemma constant_unsigned (scan : kind ct = .unsigned) (val : Value ct) :
    (constant isDict val).toNat = val.toNat := by
  have narrow := (kind_word (.inr scan)).2
  rw [constant_word (.inr scan), toNat_setWidth_of_le (by omega)]

lemma constant_signed (signed : rangeOrder ct isDict = .signed) (narrow : ct.colWidth ≠ 16)
    (val : Value ct) : (constant isDict val).toInt = val.toInt := by
  have bound := ct.colWidth_mem
  simp only [mem_cons, not_mem_nil, or_false] at bound
  rw [constant, if_neg narrow, if_neg (by simp [rangeOrder_signed signed]),
    toInt_signExtend_of_le (by omega)]

lemma bigConstant_signed (signed : rangeOrder ct isDict = .signed) (wide : ct.colWidth = 16)
    (val : Value ct) : (bigConstant isDict val).toInt = val.toInt := by
  rw [bigConstant, if_pos ⟨wide, rangeOrder_signed signed⟩, toInt_signExtend_of_le (by omega)]

lemma overlooked_of_ruledOut {range : CPRange} (listed : ListCop mode (prestoredCop arg))
    (out : RuledOut cs range isDict arg) (stored : Storable cs range isDict v)
    (passes : argMatches cs mode v arg) : Overlooked isDict mode arg v := by
  by_cases known : arg.val = getNullValue ct
  · exact .unknownNull known
  by_cases agree : ordersAgree ct isDict
  swap
  · exact .otherOrder (by simpa using agree)
  have present : v ≠ getNullValue ct := by
    rintro rfl
    exact known (argMatches_null passes)
  rw [prestoredCop_of_ne_null known] at listed
  have inRange := stored.resolve_left present
  have compared := out.2
  unfold InRange at inRange
  unfold compareArg at compared
  rcases ordersAgree_cases agree with ⟨order, scan⟩ | ⟨order, scan⟩ | ⟨order, scan⟩
  · simp only [order, constant_text scan] at inRange compared
    exact overlooked_of_compareStr scan present known listed inRange.1 inRange.2 compared passes
  · simp only [order, constant_unsigned scan] at inRange compared
    refine overlooked_of_compareVal BitVec.toNat (fun _ _ => BitVec.eq_of_toNat_eq) present known
      listed ?_ inRange.1 inRange.2 compared passes
    simp [colCompareDispatcher, scan, known]
  have dispatched : colCompareDispatcher cs v arg.val arg.cop arg.rf =
      colCompare_ v.toInt arg.val.toInt arg.cop arg.rf := by
    simp [colCompareDispatcher, scan, known]
  by_cases narrow : ct.colWidth = 16
  · simp only [order, narrow, ne_eq, not_true_eq_false, if_false,
      bigConstant_signed order narrow] at inRange compared
    exact overlooked_of_compareVal BitVec.toInt (fun _ _ => BitVec.eq_of_toInt_eq) present known
      listed dispatched inRange.1 inRange.2 compared passes
  · simp only [order, narrow, ne_eq, constant_signed order narrow] at inRange compared
    exact overlooked_of_compareVal BitVec.toInt (fun _ _ => BitVec.eq_of_toInt_eq) present known
      listed dispatched inRange.1 inRange.2 compared passes

/-- What keeps the two sides together: no value that a slot can hold is at an overlooked place of
an element that is ruled out, and a disjunction that ends with such an element has no NULL
constant. -/
structure Clear (cs : Charset) (range : CPRange) (isDict : Bool) (bs : List (ColArgs ct))
    (bop : Bop) : Prop where
  places : ∀ arg ∈ bs, RuledOut cs range isDict arg → ∀ v, Storable cs range isDict v →
    ¬Overlooked isDict (filterMode bs bop) arg v
  nulls : bop = .or → ∀ last, bs.getLast? = some last → RuledOut cs range isDict last →
    ∀ arg ∈ bs, skipped isDict arg = false

lemma listCop_filterMode {bs : List (ColArgs ct)} {bop : Bop}
    (combining : bop = .and ∨ bop = .or) (member : arg ∈ bs) :
    ListCop (filterMode bs bop) (prestoredCop arg) := by
  have nonempty := ne_nil_of_mem member
  rcases combining with rfl | rfl
  · rcases filterMode_and nonempty with ⟨_, _, mode⟩ | mode | ⟨all, mode | mode⟩ <;> rw [mode]
    exacts [trivial, trivial, all arg member, all arg member]
  · rcases filterMode_or nonempty with ⟨_, _, mode⟩ | mode | ⟨all, mode | mode⟩ <;> rw [mode]
    exacts [trivial, trivial, all arg member, all arg member]

/-- The elimination by a filter is sound: a removed extent holds no value that the scan selects. -/
def Sound (cs : Charset) (range : CPRange) (isDict : Bool) (bs : List (ColArgs ct)) (bop : Bop) :
    Prop :=
  casualPartitionPredicate cs range bs bs.length bop isDict = false →
    ∀ v, Storable cs range isDict v → scanMatches cs bs bop v = false

variable {range : CPRange}

lemma Clear.sound {bs : List (ColArgs ct)} {bop : Bop} (clear : Clear cs range isDict bs bop)
    (combining : bop = .and ∨ bop = .or) : Sound cs range isDict bs bop := by
  intro removed v stored
  have fails : ∀ arg ∈ bs, RuledOut cs range isDict arg →
      argMatches cs (filterMode bs bop) v arg = false := by
    intro arg member out
    by_contra passes
    exact clear.places arg member out v stored (overlooked_of_ruledOut
      (listCop_filterMode combining member) out stored (by simpa using passes))
  by_contra selected
  rw [Bool.not_eq_false] at selected
  rcases combining with rfl | rfl
  · rcases (predicateLoop_and cs range isDict true bs).mp removed with ⟨-, not⟩ | ⟨arg, member, out⟩
    · cases not
    have passes := (scanMatches_and cs (ne_nil_of_mem member) v).mp selected arg member
    simp [fails arg member out] at passes
  rcases (predicateLoop_or cs range isDict true bs).mp removed with
    ⟨-, not⟩ | ⟨others, last, ends, known⟩
  · cases not
  have lastOut := (others last (mem_of_getLast? ends)).resolve_left (by simp [known])
  obtain ⟨arg, member, passes⟩ :=
    (scanMatches_or cs (ne_nil_of_mem (mem_of_getLast? ends)) v).mp selected
  have out := (others arg member).resolve_left
    (by simp [clear.nulls rfl last ends lastOut arg member])
  simp [fails arg member out] at passes

/-- The boundary of a rounded constant is selected by the scan. -/
lemma scanMatches_boundary (cs : Charset) {bop : Bop} (combining : bop = .and ∨ bop = .or)
    (number : kind ct = .unsigned ∨ kind ct = .default) (known : arg.val ≠ getNullValue ct)
    (rounded : arg.cop = .lt ∧ arg.rf &&& roundPos ≠ 0 ∨ arg.cop = .gt ∧ arg.rf &&& roundNeg ≠ 0) :
    scanMatches cs [arg] bop arg.val = true := by
  have single : scanMatches cs [arg] bop arg.val =
      colCompare cs false arg.val arg.val arg.cop arg.rf := by
    rw [scanMatches_eq cs [arg] (by rcases combining with rfl | rfl <;> decide)]
    rw [beq_eq_false_iff_ne.mpr known]
    simp [filterMode, chooseMode, matchingColValue, prestoredCop_of_ne_null known]
  rw [single]
  rcases number with scan | scan <;> rcases rounded with ⟨op, flag⟩ | ⟨op, flag⟩ <;>
    simpa [colCompare, colCompareDispatcher, scan, known, op, colCompare_, roundPos, roundNeg]
      using flag

end Predicate

/-- Strings collated by the number they spell; it stands in where no text is compared. -/
def numberCharset : Charset where
  strnncollsp a b := (bigEndian a : Int) - bigEndian b
  like _ _ := false
  maxStr width := BitVec.allOnes (8 * width)
  minStr _ := 0
  nopadBin := false
  refl a := by simp
  swap a b := by omega
  trans a b c := by omega
  binsort h := by simp at h

def intColumn : ColType := ⟨.int, 4, by decide⟩

/-- An extent whose smallest value is 5. -/
def fiveToNine : CPRange := ⟨5, 9⟩

end CasualPartition
