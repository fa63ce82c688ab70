import ColumnStore.CasualPartition

/-!
# Collecting the value range of an extent

A query that scans an extent receives the bounds of every block and merges them
with `LBIDList::UpdateMinMax`. The bounds of one block are taken to be the least
and the greatest value in it that is not NULL; the loop of the primitive that
finds them is not modelled.

The merge keeps what was covered before, except on text columns: there the
words `UINT64_MAX` and 0 stand for "nothing collected yet", and 0 is also the
empty string.
-/

namespace ExtentRange

open ByteStrings ColumnTypes BlockFilter CasualPartition BitVec List

section Cells

variable {ct : ColType}

/-- A value as it is stored in a bound. -/
def cell (v : Value ct) : BitVec 128 :=
  if ct.colDataType.isUnsigned then v.setWidth 128 else v.signExtend 128

/-- The comparison of two bounds in `UpdateMinMax`; column scans pass `dictScan` as false. -/
def cellBefore (cs : Charset) (ct : ColType) (a b : BitVec 128) : Bool :=
  match rangeOrder ct false with
  | .text =>
    decide (cs.strnncollsp (rtrimZero (bytes ct.colWidth (a.setWidth 64)))
      (rtrimZero (bytes ct.colWidth (b.setWidth 64))) < 0)
  | .unsigned => decide ((a.setWidth 64).toNat < (b.setWidth 64).toNat)
  | .signed =>
    if ct.colWidth ≠ 16 then decide ((a.setWidth 64).toInt < (b.setWidth 64).toInt)
    else decide (a.toInt < b.toInt)

lemma cellBefore_trans {cs : Charset} {a b c : BitVec 128} (first : cellBefore cs ct a b = false)
    (second : cellBefore cs ct b c = false) : cellBefore cs ct a c = false := by
  unfold cellBefore at *
  cases order : rangeOrder ct false with
  | text =>
    simp only [order, decide_eq_false_iff_not, not_lt] at first second ⊢
    exact (cs.swap _ _).mp (cs.trans _ _ _ ((cs.swap _ _).mpr second) ((cs.swap _ _).mpr first))
  | unsigned =>
    simp only [order, decide_eq_false_iff_not] at first second ⊢
    omega
  | signed =>
    simp only [order] at first second ⊢
    split at first <;> simp_all only [decide_eq_false_iff_not, ne_eq, ite_true, ite_false,
      not_false_eq_true] <;> omega

lemma cellBefore_asymm {cs : Charset} {a b : BitVec 128} (before : cellBefore cs ct a b) :
    cellBefore cs ct b a = false := by
  by_contra both
  have back : cellBefore cs ct b a := by simpa using both
  unfold cellBefore at before back
  cases order : rangeOrder ct false with
  | text =>
    simp only [order, decide_eq_true_eq] at before back
    have := (cs.swap _ _).mp before.le
    omega
  | unsigned =>
    simp only [order, decide_eq_true_eq] at before back
    omega
  | signed =>
    simp only [order] at before back
    split at before <;> simp_all only [decide_eq_true_eq, ne_eq, ite_true, ite_false,
      not_false_eq_true] <;> omega

lemma cellBefore_irrefl (cs : Charset) (a : BitVec 128) : cellBefore cs ct a a = false := by
  by_contra before
  have := cellBefore_asymm (by simpa using before : cellBefore cs ct a a)
  exact before this

lemma bytes_cell (narrow : ct.colWidth ≤ 8) (v : Value ct) :
    bytes ct.colWidth ((cell v).setWidth 64) = bytes ct.colWidth v := by
  apply map_congr_left
  intro i inside
  have bound : i < ct.colWidth := mem_range.mp inside
  apply eq_of_getLsbD_eq
  intro j small
  have low : 8 * i + j < 64 := by omega
  have own : 8 * i + j < 8 * ct.colWidth := by omega
  unfold cell
  split
  · simp [low]
  · simp [low, own, getElem_signExtend, show 8 * i + j < 128 by omega]

lemma cell_unsigned (order : rangeOrder ct false = .unsigned) (v : Value ct) :
    ((cell v).setWidth 64).toNat = v.toNat := by
  have unsigned : ct.colDataType.isUnsigned := by
    unfold rangeOrder at order
    split at order
    · cases order
    · by_contra signed
      simp [signed] at order
  have narrow : ct.colWidth ≤ 8 := by
    have listed := ct.width_ok
    cases type : ct.colDataType <;>
      simp [type, ColDataType.isUnsigned, ColDataType.isUnsignedInteger] at unsigned <;>
      simp [type, ColDataType.widths] at listed <;> omega
  rw [cell, if_pos unsigned, setWidth_setWidth_of_le v (by omega),
    toNat_setWidth_of_le (by omega)]

lemma cell_signed (order : rangeOrder ct false = .signed) (narrow : ct.colWidth ≠ 16)
    (v : Value ct) : ((cell v).setWidth 64).toInt = v.toInt := by
  have signed : ct.colDataType.isUnsigned = false := by simpa using rangeOrder_signed order
  have bound := ct.colWidth_mem
  simp only [mem_cons, not_mem_nil, or_false] at bound
  rw [cell, if_neg (by simp [signed])]
  have same : (v.signExtend 128).setWidth 64 = v.signExtend 64 := by
    apply eq_of_getLsbD_eq
    intro i small
    simp [getElem_signExtend, small, show i < 128 by omega]
  rw [same, toInt_signExtend_of_le (by omega)]

lemma cell_wide (order : rangeOrder ct false = .signed) (wide : ct.colWidth = 16)
    (v : Value ct) : (cell v).toInt = v.toInt := by
  have signed : ct.colDataType.isUnsigned = false := by simpa using rangeOrder_signed order
  rw [cell, if_neg (by simp [signed]), toInt_signExtend_of_le (by omega)]

lemma text_narrow (order : rangeOrder ct false = .text) : ct.colWidth ≤ 8 := by
  have listed := ct.width_ok
  cases type : ct.colDataType <;>
    simp [rangeOrder, type, ColDataType.isCharType, ColDataType.isUnsigned,
      ColDataType.isUnsignedInteger] at order <;>
    simp [type, ColDataType.widths] at listed <;> omega

lemma inRange_iff (cs : Charset) (range : CPRange) (v : Value ct) :
    InRange cs range false v ↔
      cellBefore cs ct (cell v) range.bigLoVal = false ∧
        cellBefore cs ct range.bigHiVal (cell v) = false := by
  unfold InRange cellBefore
  cases order : rangeOrder ct false with
  | text =>
    simp only [CPRange.loVal, CPRange.hiVal, bytes_cell (text_narrow order),
      decide_eq_false_iff_not, not_lt]
    rw [← cs.swap, ← cs.swap]
  | unsigned =>
    simp [CPRange.loVal, CPRange.hiVal, cell_unsigned order]
  | signed =>
    by_cases wide : ct.colWidth = 16
    · simp [wide, cell_wide order wide]
    · simp [wide, CPRange.loVal, CPRange.hiVal, cell_signed order wide]

/-- Every value of a list that is not NULL lies in the range. -/
def Covers (cs : Charset) (range : CPRange) (values : List (Value ct)) : Prop :=
  ∀ v ∈ values, v ≠ getNullValue ct → InRange cs range false v

end Cells

section Block

variable {ct : ColType}

/-- The bounds a block scan starts from. -/
def initialBounds (cs : Charset) (ct : ColType) : CPRange :=
  match kind ct with
  | .text => ⟨(cs.maxStr ct.colWidth).setWidth 128, (cs.minStr ct.colWidth).setWidth 128⟩
  | .unsigned => ⟨(BitVec.allOnes (8 * ct.colWidth)).setWidth 128, 0⟩
  | _ => ⟨(BitVec.intMax (8 * ct.colWidth)).signExtend 128,
      (BitVec.intMin (8 * ct.colWidth)).signExtend 128⟩

/-- Extend the bounds by one value. -/
def includeValue (cs : Charset) (range : CPRange) (v : Value ct) : CPRange :=
  if v = getNullValue ct then range
  else
    ⟨if cellBefore cs ct (cell v) range.bigLoVal then cell v else range.bigLoVal,
      if cellBefore cs ct range.bigHiVal (cell v) then cell v else range.bigHiVal⟩

/-- Least and greatest value of a block. -/
def blockBounds (cs : Charset) (values : List (Value ct)) : CPRange :=
  values.foldl (includeValue cs) (initialBounds cs ct)

/-- One range contains another. -/
def Within (cs : Charset) (ct : ColType) (inner outer : CPRange) : Prop :=
  cellBefore cs ct inner.bigLoVal outer.bigLoVal = false ∧
    cellBefore cs ct outer.bigHiVal inner.bigHiVal = false

lemma Within.inRange {cs : Charset} {inner outer : CPRange} {v : Value ct}
    (within : Within cs ct inner outer) (inside : InRange cs inner false v) :
    InRange cs outer false v := by
  rw [inRange_iff] at inside ⊢
  exact ⟨cellBefore_trans inside.1 within.1, cellBefore_trans within.2 inside.2⟩

variable (cs : Charset)

variable (range : CPRange)

lemma Within.refl : Within cs ct range range :=
  ⟨cellBefore_irrefl cs _, cellBefore_irrefl cs _⟩

lemma Within.trans {cs : Charset} {a b c : CPRange} (first : Within cs ct a b)
    (second : Within cs ct b c) : Within cs ct a c :=
  ⟨cellBefore_trans first.1 second.1, cellBefore_trans second.2 first.2⟩

lemma cellBefore_min (a b : BitVec 128) :
    cellBefore cs ct a (if cellBefore cs ct b a then b else a) = false ∧
      cellBefore cs ct b (if cellBefore cs ct b a then b else a) = false := by
  split
  case isTrue before => exact ⟨cellBefore_asymm before, cellBefore_irrefl cs b⟩
  case isFalse after => exact ⟨cellBefore_irrefl cs a, by simpa using after⟩

lemma cellBefore_max (a b : BitVec 128) :
    cellBefore cs ct (if cellBefore cs ct a b then b else a) a = false ∧
      cellBefore cs ct (if cellBefore cs ct a b then b else a) b = false := by
  split
  case isTrue before => exact ⟨cellBefore_asymm before, cellBefore_irrefl cs b⟩
  case isFalse after => exact ⟨cellBefore_irrefl cs a, by simpa using after⟩

lemma within_includeValue (v : Value ct) :
    Within cs ct range (includeValue cs range v) := by
  unfold includeValue
  split
  · exact Within.refl cs range
  · exact ⟨(cellBefore_min cs _ _).1, (cellBefore_max cs _ _).1⟩

lemma covers_foldl_includeValue (values : List (Value ct)) :
    Within cs ct range (values.foldl (includeValue cs) range) ∧
      Covers cs (values.foldl (includeValue cs) range) values := by
  induction values generalizing range with
  | nil => exact ⟨Within.refl cs range, by simp [Covers]⟩
  | cons v rest ih =>
    obtain ⟨within, covers⟩ := ih (includeValue cs range v)
    refine ⟨(within_includeValue cs range v).trans within, ?_⟩
    intro u member present
    rcases mem_cons.mp member with rfl | tail
    · refine within.inRange ?_
      rw [inRange_iff, includeValue, if_neg present]
      exact ⟨(cellBefore_min cs _ _).2, (cellBefore_max cs _ _).2⟩
    · exact covers u tail present

/-- The merge in `LBIDList::UpdateMinMax`. -/
def mergeBounds (cs : Charset) (ct : ColType) (mmp block : CPRange) : CPRange :=
  match rangeOrder ct false with
  | .text =>
    ⟨if cellBefore cs ct block.bigLoVal mmp.bigLoVal ∨ mmp.loVal = BitVec.allOnes 64 then
        block.bigLoVal else mmp.bigLoVal,
      if cellBefore cs ct mmp.bigHiVal block.bigHiVal ∨ mmp.hiVal = 0 then
        block.bigHiVal else mmp.bigHiVal⟩
  | _ =>
    ⟨if cellBefore cs ct block.bigLoVal mmp.bigLoVal then block.bigLoVal else mmp.bigLoVal,
      if cellBefore cs ct mmp.bigHiVal block.bigHiVal then block.bigHiVal else mmp.bigHiVal⟩

/-- A collected bound that is one of the two reserved words would be replaced by a
narrower one. Only text columns have reserved words. -/
def ForgetsBound (cs : Charset) (ct : ColType) (mmp block : CPRange) : Prop :=
  rangeOrder ct false = .text ∧
    (mmp.loVal = BitVec.allOnes 64 ∧ cellBefore cs ct mmp.bigLoVal block.bigLoVal = true ∨
      mmp.hiVal = 0 ∧ cellBefore cs ct block.bigHiVal mmp.bigHiVal = true)
  deriving Decidable

lemma within_mergeBounds_block (mmp block : CPRange) :
    Within cs ct block (mergeBounds cs ct mmp block) := by
  unfold mergeBounds
  split
  · constructor
    · split
      · exact cellBefore_irrefl cs _
      · rename_i kept
        simpa using fun h => kept (.inl h)
    simp only
    split
    · exact cellBefore_irrefl cs _
    · rename_i kept
      simpa using fun h => kept (.inl h)
  · exact ⟨(cellBefore_min cs _ _).2, (cellBefore_max cs _ _).2⟩

lemma within_mergeBounds_mmp {cs : Charset} {mmp block : CPRange}
    (remembers : ¬ForgetsBound cs ct mmp block) :
    Within cs ct mmp (mergeBounds cs ct mmp block) := by
  unfold mergeBounds
  cases order : rangeOrder ct false with
  | unsigned | signed => exact ⟨(cellBefore_min cs _ _).1, (cellBefore_max cs _ _).1⟩
  | text =>
    constructor
    · simp only
      split
      case isTrue replaced =>
        rcases replaced with before | reserved
        · exact cellBefore_asymm before
        · by_contra later
          exact remembers ⟨order, .inl ⟨reserved, by simpa using later⟩⟩
      case isFalse => exact cellBefore_irrefl cs _
    simp only
    split
    case isTrue replaced =>
      rcases replaced with before | reserved
      · exact cellBefore_asymm before
      · by_contra later
        exact remembers ⟨order, .inr ⟨reserved, by simpa using later⟩⟩
    case isFalse => exact cellBefore_irrefl cs _

end Block

end ExtentRange
