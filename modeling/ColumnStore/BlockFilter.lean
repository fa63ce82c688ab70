import ColumnStore.ColumnTypes

/-!
# The column filter as the block scan evaluates it

Model of the scalar path of `primitives/linux-port/column.cpp`: a filter message
is parsed into a `ParsedColumnFilter` (`_parseColumnFilter`), which fixes one of
several evaluation modes, and every value of a block is tested against it by
`matchingColValue`. A slot that holds the NULL pattern takes the answer computed
once for NULL. The rows of a block, the slots that are skipped and the vectorised
path are in the modules on the scan.
-/

namespace BlockFilter

open ByteStrings ColumnTypes List

/-- The `COMPARE_*` codes of `primitivemsg.h`. -/
inductive Cop where
  | nil | lt | eq | le | gt | ne | ge | nulleq | not | nlt | nle | ngt | nge | like | nlike
  deriving DecidableEq, Repr

/-- `COP & COMPARE_LIKE`. -/
def Cop.isLike : Cop → Bool
  | .like | .nlike => true
  | _ => false

/-- `COP & COMPARE_NOT`. -/
def Cop.isNot : Cop → Bool
  | .not | .nlt | .nle | .ngt | .nge | .nlike => true
  | _ => false

inductive Bop where
  | none | and | or | xor
  deriving DecidableEq, Repr

/-- `ROUND_POS`: the real constant is larger or longer than the stored one. -/
def roundPos : BitVec 8 := 0x01

/-- `ROUND_NEG`: the real constant is less than the stored one. -/
def roundNeg : BitVec 8 := 0x80

/-- One element of a filter message: operation, rounding flag and constant. -/
structure ColArgs (ct : ColType) where
  cop : Cop
  rf : BitVec 8
  val : Value ct
  deriving DecidableEq

section Comparison

variable {T : Type} [BEq T] [LT T] [LE T] [DecidableLT T] [DecidableLE T]

/-- `colCompare_` without a rounding flag. -/
def colCompareNoRound_ (val1 val2 : T) : Cop → Bool
  | .lt => decide (val1 < val2)
  | .eq => val1 == val2
  | .le => decide (val1 ≤ val2)
  | .gt => decide (val2 < val1)
  | .ne => !(val1 == val2)
  | .ge => decide (val2 ≤ val1)
  | .nulleq => val1 == val2
  | _ => false

/-- `colCompare_` with a rounding flag. -/
def colCompare_ (val1 val2 : T) (cop : Cop) (rf : BitVec 8) : Bool :=
  match cop with
  | .lt => decide (val1 < val2) || (val1 == val2 && rf &&& 0x01 != 0)
  | .le => decide (val1 < val2) || (val1 == val2 && rf ^^^ 0x80 != 0)
  | .eq => val1 == val2 && rf == 0
  | .ne => !(val1 == val2) || rf != 0
  | .ge => decide (val2 < val1) || (val1 == val2 && rf ^^^ 0x01 != 0)
  | .gt => decide (val2 < val1) || (val1 == val2 && rf &&& 0x80 != 0)
  | .nulleq => val1 == val2 && rf == 0
  | _ => false

end Comparison

/-- `colStrCompare_`, on words already swapped to byte order. -/
def colStrCompare_ (val1 val2 : Nat) (cop : Cop) (rf : BitVec 8) : Bool :=
  match cop with
  | .lt => decide (val1 < val2) || (val1 == val2 && rf != 0)
  | .le => decide (val1 ≤ val2)
  | .eq => val1 == val2 && rf == 0
  | .ne => !(val1 == val2) || rf != 0
  | .ge => decide (val2 < val1) || (val1 == val2 && rf == 0)
  | .gt => decide (val2 < val1)
  | .nulleq => val1 == val2 && rf == 0
  | _ => false

/-- The NULL-aware `ConstString` constructor followed by `rtrimZero`. -/
def constString {ct : ColType} (v : Value ct) : Option (List Byte) :=
  if v = getNullValue ct then none else some (rtrimZero (bytes ct.colWidth v))

/-- `StringComparator::op`; an unknown operation sets the error flag, on which
`colCompareStr` returns false. A NULL string collates as the empty one. -/
def colCompareStr (cs : Charset) (cop : Cop) (str1 str2 : Option (List Byte)) : Bool :=
  let s1 := str1.getD []
  let s2 := str2.getD []
  if cop.isLike then
    if cop.isNot then !cs.like s1 s2 else cs.like s1 s2
  else
    match cop with
    | .nulleq => str1.isNone == str2.isNone
    | .lt => decide (cs.strnncollsp s1 s2 < 0)
    | .eq => decide (cs.strnncollsp s1 s2 = 0)
    | .le => decide (cs.strnncollsp s1 s2 ≤ 0)
    | .gt => decide (0 < cs.strnncollsp s1 s2)
    | .ne => decide (cs.strnncollsp s1 s2 ≠ 0)
    | .ge => decide (0 ≤ cs.strnncollsp s1 s2)
    | _ => false

/-- `ENUM_KIND`. -/
inductive Kind where
  | default | unsigned | text | float
  deriving DecidableEq, Repr

def isDictTokenScan (ct : ColType) : Bool :=
  match ct.colDataType with
  | .char => decide (8 < ct.colWidth)
  | .varchar | .blob | .text => decide (7 < ct.colWidth)
  | _ => false

/-- `scanAndFilterTypeDispatcher`: which instance of the scan serves a column. -/
def kind (ct : ColType) : Kind :=
  if ct.colDataType = .float ∨ ct.colDataType = .double then .float
  else if ct.colWidth = 16 then .default
  else if (ct.colDataType = .char ∨ ct.colDataType = .varchar ∨ ct.colDataType = .text) ∧
      isDictTokenScan ct = false then .text
  else if ct.colDataType.isUnsigned then .unsigned
  else .default

section Dispatch

variable {ct : ColType}

/-- `colCompareDispatcherT` for a NULL column value: only NULL constants are compared. -/
def colCompareNull (filterValue : Value ct) (cop : Cop) (rf : BitVec 8) : Bool :=
  if filterValue = getNullValue ct then
    match kind ct with
    | .unsigned => colCompare_ (getNullValue ct).toNat filterValue.toNat cop rf
    | _ => colCompare_ (getNullValue ct).toInt filterValue.toInt cop rf
  else false

/-- `colCompareDispatcherT` for a non-NULL column value, by kind. -/
def colCompareDispatcher (cs : Charset) (columnValue filterValue : Value ct) (cop : Cop)
    (rf : BitVec 8) : Bool :=
  match kind ct with
  | .float =>
    if ct.colWidth = 4 then
      colCompareNoRound_ (Float32.ofBits ⟨columnValue.setWidth 32⟩)
        (Float32.ofBits ⟨filterValue.setWidth 32⟩) cop
    else
      colCompareNoRound_ (Float.ofBits ⟨columnValue.setWidth 64⟩)
        (Float.ofBits ⟨filterValue.setWidth 64⟩) cop
  | .text =>
    if cop.isLike then
      colCompareStr cs cop (constString columnValue) (constString filterValue)
    else if rf = 0 then
      if cs.nopadBin then
        colCompareNoRound_ (orderSwap (columnValue.setWidth 64))
          (orderSwap (filterValue.setWidth 64)) cop
      else colCompareStr cs cop (constString columnValue) (constString filterValue)
    else
      colStrCompare_ (orderSwap (columnValue.setWidth 64))
        (orderSwap (filterValue.setWidth 64)) cop rf
  | .unsigned =>
    if filterValue = getNullValue ct then
      if cop = .ne then colCompare_ columnValue.toNat filterValue.toNat cop rf else false
    else colCompare_ columnValue.toNat filterValue.toNat cop rf
  | .default =>
    if filterValue = getNullValue ct then
      if cop = .ne then colCompare_ columnValue.toInt filterValue.toInt cop rf else false
    else colCompare_ columnValue.toInt filterValue.toInt cop rf

def colCompare (cs : Charset) (isNull : Bool) (columnValue filterValue : Value ct) (cop : Cop)
    (rf : BitVec 8) : Bool :=
  if cop = .nil then false
  else if isNull then colCompareNull filterValue cop rf
  else colCompareDispatcher cs columnValue filterValue cop rf

end Dispatch

inductive ColumnFilterMode where
  | alwaysTrue | singleComparison | anyComparisonTrue | allComparisonsTrue | xorComparisons
  | oneOfValuesInSet | noneOfValuesInSet | oneOfValuesInArray | noneOfValuesInArray
  deriving DecidableEq, Repr

/-- A filter compiled for scanning; the prestored set is the constants with a zero flag. -/
structure ParsedColumnFilter (ct : ColType) where
  columnFilterMode : ColumnFilterMode
  args : List (ColArgs ct)

def noSetFilterThreshold : Nat := 8

section Parse

variable {ct : ColType}

/-- `IS NULL` arrives as an equality with the NULL pattern and gets its own code. -/
def prestoredCop (arg : ColArgs ct) : Cop :=
  if arg.cop = .eq ∧ arg.val = getNullValue ct then .nulleq else arg.cop

def parseArg (arg : ColArgs ct) : ColArgs ct :=
  { arg with cop := prestoredCop arg }

/-- The operation every element must have for the value list to be used. -/
def listCop : Bop → Option Cop
  | .or => some .eq
  | .and => some .ne
  | _ => none

/-- The evaluation mode; `none` is the failed assertion on `BOP_NONE` with several elements. -/
def chooseMode (args : List (ColArgs ct)) (bop : Bop) : Option ColumnFilterMode :=
  match args with
  | [] => some .alwaysTrue
  | [_] => some .singleComparison
  | _ =>
    let isList := args.all fun arg => some arg.cop = listCop bop
    let isShort := decide (args.length ≤ noSetFilterThreshold)
    match bop with
    | .none => none
    | .or =>
      some (if isList then if isShort then .oneOfValuesInArray else .oneOfValuesInSet
        else .anyComparisonTrue)
    | .and =>
      some (if isList then if isShort then .noneOfValuesInArray else .noneOfValuesInSet
        else .allComparisonsTrue)
    | .xor => some .xorComparisons

def parseColumnFilter (filterString : List (ColArgs ct)) (bop : Bop) :
    Option (ParsedColumnFilter ct) :=
  (chooseMode (filterString.map parseArg) bop).map fun mode => ⟨mode, filterString.map parseArg⟩

def matchingColValue (cs : Charset) (isNull : Bool) (curValue : Value ct)
    (filter : ParsedColumnFilter ct) : Bool :=
  let compare (arg : ColArgs ct) := colCompare cs isNull curValue arg.val arg.cop arg.rf
  match filter.columnFilterMode with
  | .alwaysTrue => true
  | .singleComparison => (filter.args.head?.map compare).getD false
  | .anyComparisonTrue => filter.args.any compare
  | .allComparisonsTrue => filter.args.all compare
  | .xorComparisons => filter.args.foldl (fun result arg => result ^^ compare arg) false
  | .oneOfValuesInArray => filter.args.any fun arg => curValue == arg.val
  | .noneOfValuesInArray => !isNull && filter.args.all fun arg => curValue != arg.val
  | .oneOfValuesInSet => (filter.args.filter fun arg => arg.rf == 0).any fun arg =>
      curValue == arg.val
  | .noneOfValuesInSet =>
    !isNull && !(filter.args.filter fun arg => arg.rf == 0).any fun arg => curValue == arg.val

/-- What the scan loop decides for one slot that is not empty. -/
def slotMatches (cs : Charset) (filter : ParsedColumnFilter ct) (curValue : Value ct) : Bool :=
  if curValue = getNullValue ct then matchingColValue cs true (getNullValue ct) filter
  else matchingColValue cs false curValue filter

/-- Parse a message and test one slot; a message that cannot be parsed selects nothing. -/
def scanMatches (cs : Charset) (filterString : List (ColArgs ct)) (bop : Bop)
    (curValue : Value ct) : Bool :=
  match parseColumnFilter filterString bop with
  | some filter => slotMatches cs filter curValue
  | none => false

/-- The mode chosen for a message. -/
def filterMode (filterString : List (ColArgs ct)) (bop : Bop) : ColumnFilterMode :=
  (chooseMode (filterString.map parseArg) bop).getD .alwaysTrue

/-- The part one element plays in `matchingColValue`. -/
def argMatches (cs : Charset) (mode : ColumnFilterMode) (curValue : Value ct) (arg : ColArgs ct) :
    Bool :=
  match mode with
  | .oneOfValuesInArray => curValue == arg.val
  | .noneOfValuesInArray => curValue != getNullValue ct && curValue != arg.val
  | .oneOfValuesInSet => arg.rf == 0 && curValue == arg.val
  | .noneOfValuesInSet => curValue != getNullValue ct && (arg.rf != 0 || curValue != arg.val)
  | _ => colCompare cs (curValue == getNullValue ct) curValue arg.val (prestoredCop arg) arg.rf

variable (arg : ColArgs ct)

@[simp] lemma parseArg_val : (parseArg arg).val = arg.val := rfl
@[simp] lemma parseArg_rf : (parseArg arg).rf = arg.rf := rfl
@[simp] lemma parseArg_cop : (parseArg arg).cop = prestoredCop arg := rfl

lemma cop_of_prestored {arg : ColArgs ct} {cop : Cop} (isCop : prestoredCop arg = cop)
    (plain : cop ≠ .nulleq) : arg.cop = cop := by
  unfold prestoredCop at isCop
  split at isCop
  · exact absurd isCop.symm plain
  · exact isCop

lemma prestoredCop_of_ne_null {arg : ColArgs ct} (known : arg.val ≠ getNullValue ct) :
    prestoredCop arg = arg.cop := by
  simp [prestoredCop, known]

/-- Only `BOP_NONE` can fail to parse. -/
lemma parseColumnFilter_eq (bs : List (ColArgs ct)) {bop : Bop} (combining : bop ≠ .none) :
    parseColumnFilter bs bop = some ⟨filterMode bs bop, bs.map parseArg⟩ := by
  have chosen : chooseMode (bs.map parseArg) bop = some (filterMode bs bop) := by
    rcases bs with _ | ⟨-, _ | ⟨-, -⟩⟩
    · rfl
    · rfl
    · cases bop with
      | none => exact absurd rfl combining
      | and | or | xor => rfl
  simp [parseColumnFilter, chosen]

variable (cs : Charset)

lemma slotMatches_eq (filter : ParsedColumnFilter ct) (v : Value ct) :
    slotMatches cs filter v = matchingColValue cs (v == getNullValue ct) v filter := by
  unfold slotMatches
  split
  case isTrue null => simp [null]
  case isFalse known => rw [beq_eq_false_iff_ne.mpr known]

lemma scanMatches_eq (bs : List (ColArgs ct)) {bop : Bop}
    (combining : bop ≠ .none) (v : Value ct) :
    scanMatches cs bs bop v =
      matchingColValue cs (v == getNullValue ct) v ⟨filterMode bs bop, bs.map parseArg⟩ := by
  rw [scanMatches, parseColumnFilter_eq bs combining]
  exact slotMatches_eq cs _ v

variable {bs : List (ColArgs ct)}

lemma filterMode_cases {bop : Bop} {cop : Cop} {few many plain : ColumnFilterMode}
    (several : ∀ first second rest, chooseMode (first :: second :: rest : List (ColArgs ct)) bop =
      some (if (first :: second :: rest).all fun arg => some arg.cop = some cop then
        if decide ((first :: second :: rest).length ≤ noSetFilterThreshold) then few else many
        else plain)) (nonempty : bs ≠ []) :
    (∃ arg, bs = [arg] ∧ filterMode bs bop = .singleComparison) ∨ filterMode bs bop = plain ∨
      (∀ arg ∈ bs, prestoredCop arg = cop) ∧
        (filterMode bs bop = few ∨ filterMode bs bop = many) := by
  rcases bs with _ | ⟨first, _ | ⟨-, -⟩⟩
  · exact absurd rfl nonempty
  · exact .inl ⟨first, rfl, rfl⟩
  refine .inr ?_
  simp only [filterMode, map_cons, several]
  split
  case isTrue same =>
    refine .inr ⟨?_, ?_⟩
    · intro arg mem
      simpa using all_eq_true.mp same _ (mem_map_of_mem mem)
    · split <;> simp
  case isFalse => exact .inl rfl

variable (nonempty : bs ≠ [])
include nonempty

lemma filterMode_and :
    (∃ arg, bs = [arg] ∧ filterMode bs .and = .singleComparison) ∨
      filterMode bs .and = .allComparisonsTrue ∨
      (∀ arg ∈ bs, prestoredCop arg = .ne) ∧
        (filterMode bs .and = .noneOfValuesInArray ∨ filterMode bs .and = .noneOfValuesInSet) :=
  filterMode_cases (fun _ _ _ => rfl) nonempty

lemma filterMode_or :
    (∃ arg, bs = [arg] ∧ filterMode bs .or = .singleComparison) ∨
      filterMode bs .or = .anyComparisonTrue ∨
      (∀ arg ∈ bs, prestoredCop arg = .eq) ∧
        (filterMode bs .or = .oneOfValuesInArray ∨ filterMode bs .or = .oneOfValuesInSet) :=
  filterMode_cases (fun _ _ _ => rfl) nonempty

lemma scanMatches_and (v : Value ct) :
    scanMatches cs bs .and v ↔ ∀ arg ∈ bs, argMatches cs (filterMode bs .and) v arg := by
  rw [scanMatches_eq cs bs (by decide)]
  obtain ⟨first, member⟩ := exists_mem_of_ne_nil bs nonempty
  rcases filterMode_and nonempty with ⟨arg, rfl, mode⟩ | mode | ⟨-, mode | mode⟩ <;>
    simp only [matchingColValue, argMatches, mode]
  · simp
  · simp
  · simp only [Bool.and_eq_true, all_eq_true, forall_mem_map]
    constructor
    · rintro ⟨known, others⟩ arg mem
      exact ⟨by simpa using known, others arg mem⟩
    · intro all
      exact ⟨by simpa using (all first member).1, fun arg mem => (all arg mem).2⟩
  simp only [Bool.and_eq_true, Bool.not_eq_true', any_eq_false, mem_filter, Bool.or_eq_true,
    and_imp, forall_mem_map]
  constructor
  · rintro ⟨known, others⟩ arg mem
    refine ⟨by simpa using known, ?_⟩
    by_cases unrounded : arg.rf = 0
    · exact .inr (by simpa using others arg mem (by simpa using unrounded))
    · exact .inl (by simpa using unrounded)
  intro all
  refine ⟨by simpa using (all first member).1, ?_⟩
  intro arg mem unrounded
  rcases (all arg mem).2 with rounded | differs
  · simp_all
  · simpa using differs

lemma scanMatches_or (v : Value ct) :
    scanMatches cs bs .or v ↔ ∃ arg ∈ bs, argMatches cs (filterMode bs .or) v arg := by
  rw [scanMatches_eq cs bs (by decide)]
  rcases filterMode_or nonempty with ⟨arg, rfl, mode⟩ | mode | ⟨-, mode | mode⟩ <;>
    simp only [matchingColValue, argMatches, mode]
  · simp
  · simp
  · simp
  · simp

end Parse

end BlockFilter
