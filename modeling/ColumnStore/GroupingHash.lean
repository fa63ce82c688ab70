import Mathlib.Data.List.Forall2
import ColumnStore.ByteReaders
import ColumnStore.ColumnTypes

/-!
# The hash and the equality of grouping keys

Model of `hashRow` of `utils/rowgroup/rowstorage.cpp` and of `Row::equals` of
`utils/rowgroup/rowgroup.cpp`, over the key columns of a row. A string is stored in its field or
in the string table of its row group. Short strings are hashed by their collation weights, which
`strnxfrm` computes for the string without trailing spaces, long ones by `hash_sort`, and the
untrimmed length decides. Equality compares the bytes of whole rows, or column by column with
the collation.

Of the collation library only what is stated in `Collation` is known. That keys which are equal
have the same hash is proved under conditions on the lengths and the weights of the strings; a
converse does not hold, since different strings can have the same hash.
-/

namespace GroupingHash

open ByteStrings ByteReaders ColumnTypes List

def rtrimSpaces (s : List Byte) : List Byte := s.rdropWhile (· == 0x20)

/-- A collation: what it compares as equal has the same `hash_sort` and, for a PAD SPACE
collation, the same weights without trailing spaces. -/
structure Collation where
  strnncollsp : List Byte → List Byte → Int
  hashSort : List Byte → BitVec 64 × BitVec 64 → BitVec 64 × BitVec 64
  weights : List Byte → List (List Byte)
  padSpace : Bool
  hashSort_eq : ∀ s t, strnncollsp s t = 0 → hashSort s = hashSort t
  weights_eq : padSpace = true → ∀ s t, strnncollsp s t = 0 →
    weights (rtrimSpaces s) = weights (rtrimSpaces t)

/-- `Charset::strnxfrm` without padding: at most `nweights` weights, in a buffer of `dstlen`. -/
def Collation.strnxfrm (cs : Collation) (dstlen nweights : Nat) (src : List Byte) : List Byte :=
  ((cs.weights src).take nweights).flatten.take dstlen

def isString : ColDataType → Bool
  | .char | .varchar | .blob | .text => true
  | _ => false

def typeHasCollation : ColDataType → Bool
  | .char | .varchar | .text => true
  | _ => false

def isWideDecimalType (type : ColDataType) (width : Nat) : Bool :=
  decide (width = 16) && (type == .decimal || type == .udecimal)

/-- A key column. Other columns than strings have one of the widths of the storage types, and the
widths of short strings are rounded up to one. -/
structure Column where
  type : ColDataType
  width : Nat
  collation : Collation
  numberWidth : isString type = false → width ∈ [1, 2, 4, 8] ∨ isWideDecimalType type width = true
  stringWidth : isString type = true → width ≤ 8 → width ∈ [1, 2, 4, 8]

/-- A field: its bytes in the row with the NULL mark, or a string in the string table. -/
inductive Field where
  | inside (bytes : List Byte) (nullMark : Bool)
  | stored (content : Option (List Byte))
  deriving DecidableEq

/-- The bytes of a field in the row. -/
def Field.data : Field → List Byte
  | .inside bytes _ => bytes
  | .stored _ => []

/-- A field can belong to a column. -/
def Column.Holds (column : Column) : Field → Prop
  | .inside bytes _ => bytes.length = column.width
  | .stored _ => isString column.type = true

/-- The fields of a row with the given columns. -/
structure Row (columns : List Column) where
  fields : List Field
  useStringTable : Bool
  shaped : List.Forall₂ Column.Holds columns fields
  insideOnly : useStringTable = false → ∀ field ∈ fields, ∃ bytes mark, field = .inside bytes mark

/-- The patterns `CHAR1NULL`, `CHAR2NULL`, `CHAR4NULL` and `CHAR8NULL`; wider strings have a
mark. -/
def isNullInside (width : Nat) (bytes : List Byte) (nullMark : Bool) : Bool :=
  match width with
  | 1 => littleEndian bytes == 0xFE
  | 2 => littleEndian bytes == 0xFEFF
  | 4 => littleEndian bytes == 0xFEFFFFFF
  | 8 => littleEndian bytes == 0xFEFFFFFFFFFFFFFF
  | _ => nullMark

/-- `Row::getConstString`; a string in the row ends at the first zero byte. -/
def getConstString (column : Column) : Field → Option (List Byte)
  | .inside bytes nullMark =>
    if isNullInside column.width bytes nullMark then none else some (bytes.takeWhile (· != 0))
  | .stored content => content

/-- The characters of a string, of which NULL has none. -/
def characters (column : Column) (field : Field) : List Byte :=
  (getConstString column field).getD []

/-- The multiplier of `Hasher64_r`. -/
def hasherM : BitVec 64 := 0xc6a4a7935bd1e995

def mix (k : BitVec 64) : BitVec 64 :=
  let k := k * hasherM
  let k := k ^^^ (k >>> 47)
  k * hasherM

/-- `Hasher64_r::operator()`. -/
def columnHasher (data : List Byte) (x : BitVec 64) : BitVec 64 :=
  let nBlocks := data.length / 8
  let h := 0xe17a1465 ^^^ (BitVec.ofNat 64 data.length * hasherM)
  let h := if x = 0 then h else (h ^^^ mix x) * hasherM
  let h := (List.range nBlocks).foldl (fun h i =>
    (h ^^^ mix (BitVec.ofNat 64 (littleEndian ((data.drop (8 * i)).take 8)))) * hasherM) h
  let rest := data.drop (8 * nBlocks)
  if rest = [] then h
  else rest.zipIdx.foldl (fun h (b, i) => h ^^^ (b.setWidth 64 <<< (8 * i))) h * hasherM

def hasherFinalize (h : BitVec 64) : BitVec 64 :=
  let h := h ^^^ (h >>> 47)
  let h := h * hasherM
  h ^^^ (h >>> 47)

def maxConstStrSize : Nat := 2048

def maxConstStrBufSize : Nat := 4096

/-- `ret`, the parts of the `MariaDBHasher` and `strHashUsed`. -/
structure HashState where
  ret : BitVec 64
  parts : BitVec 64 × BitVec 64
  strHashUsed : Bool
  deriving DecidableEq

/-- The body of the loop of `hashRow`. -/
def hashColumn (state : HashState) (column : Column) (field : Field) : HashState :=
  if isString column.type then
    let strColValue := characters column field
    if maxConstStrSize < strColValue.length then
      { state with
        parts := column.collation.hashSort strColValue state.parts
        strHashUsed := true }
    else
      { state with
        ret := columnHasher (column.collation.strnxfrm maxConstStrBufSize strColValue.length
          (rtrimSpaces strColValue)) state.ret }
  else { state with ret := columnHasher field.data state.ret }

def hashRow {columns : List Column} (r : Row columns) (lastCol : Nat) : BitVec 64 :=
  if columns.length ≤ lastCol then 0
  else
    let state := ((columns.zip r.fields).take (lastCol + 1)).foldl
      (fun state key => hashColumn state key.1 key.2) ⟨0, (1, 4), false⟩
    let ret :=
      if state.strHashUsed then
        columnHasher (bytes 8 (state.parts.1.setWidth 32)) state.ret
      else state.ret
    hasherFinalize ret

def constStringEq (s t : Option (List Byte)) : Bool :=
  match s with
  | none => t.isNone
  | some s => s == t.getD []

/-- One column of `Row::equals`, with `getUintField` and `getTSInt128Field`. -/
def equalsColumn (column : Column) (field1 field2 : Field) : Bool :=
  if typeHasCollation column.type then
    decide (column.collation.strnncollsp (characters column field1) (characters column field2) = 0)
  else if column.type = .blob then
    constStringEq (getConstString column field1) (getConstString column field2)
  else littleEndian field1.data == littleEndian field2.data

def equals {columns : List Column} (r1 r2 : Row columns) (lastCol : Nat) : Bool :=
  if columns.length ≤ lastCol then true
  else if !columns.any (fun column => typeHasCollation column.type) && !r1.useStringTable &&
      !r2.useStringTable then
    ((r1.fields.take (lastCol + 1)).map Field.data).flatten ==
      ((r2.fields.take (lastCol + 1)).map Field.data).flatten
  else
    ((columns.zip (r1.fields.zip r2.fields)).take (lastCol + 1)).all fun key =>
      equalsColumn key.1 key.2.1 key.2.2

/-- Two strings compared by a collation are hashed in the same way: both are long, or both are
short, have the same weights once they are trimmed (with PAD SPACE that follows from being equal),
and neither length cuts off weights that the other leaves. -/
def TextAgrees (cs : Collation) (a b : List Byte) : Prop :=
  (maxConstStrSize < a.length ↔ maxConstStrSize < b.length) ∧
  (a.length ≤ maxConstStrSize →
    (cs.padSpace = false → cs.weights (rtrimSpaces a) = cs.weights (rtrimSpaces b)) ∧
    (a.length = b.length ∨
      (cs.weights (rtrimSpaces a)).length ≤ a.length ∧
        (cs.weights (rtrimSpaces b)).length ≤ b.length))

/-- Two BLOB fields in rows with the same bytes are both NULL or both not, unless the bytes are
those of an empty string. -/
def BlobAgrees (column : Column) (field1 field2 : Field) : Prop :=
  match field1, field2 with
  | .inside bytes mark1, .inside bytes' mark2 =>
    bytes = bytes' → 8 < column.width → mark1 = mark2 ∨ bytes.takeWhile (· != 0) = []
  | _, _ => True

/-- What two equal fields need for the same hash. -/
def Agrees (column : Column) (field1 field2 : Field) : Prop :=
  if typeHasCollation column.type then
    TextAgrees column.collation (characters column field1) (characters column field2)
  else if column.type = .blob then BlobAgrees column field1 field2
  else True

section Columns

variable {column : Column} {field1 field2 : Field}

lemma isString_iff (type : ColDataType) :
    isString type ↔ typeHasCollation type ∨ type = .blob := by
  cases type <;> decide

lemma hashColumn_characters (string : isString column.type)
    (same : characters column field1 = characters column field2) (state : HashState) :
    hashColumn state column field1 = hashColumn state column field2 := by
  simp [hashColumn, string, same]

lemma hashColumn_number (number : isString column.type = false)
    (same : field1.data = field2.data) (state : HashState) :
    hashColumn state column field1 = hashColumn state column field2 := by
  simp [hashColumn, number, same]

lemma strnxfrm_eq {cs : Collation} {a b : List Byte} (equal : cs.strnncollsp a b = 0)
    (agrees : TextAgrees cs a b) (short : a.length ≤ maxConstStrSize) :
    cs.strnxfrm maxConstStrBufSize a.length (rtrimSpaces a) =
      cs.strnxfrm maxConstStrBufSize b.length (rtrimSpaces b) := by
  obtain ⟨noPad, lengths⟩ := agrees.2 short
  have same : cs.weights (rtrimSpaces a) = cs.weights (rtrimSpaces b) := by
    cases pad : cs.padSpace with
    | false => exact noPad pad
    | true => exact cs.weights_eq pad a b equal
  unfold Collation.strnxfrm
  rcases lengths with sameLength | ⟨all, all'⟩
  · rw [same, sameLength]
  · rw [take_of_length_le all, take_of_length_le all', same]

lemma hashColumn_text (collated : typeHasCollation column.type)
    (equal : column.collation.strnncollsp (characters column field1) (characters column field2) = 0)
    (agrees : TextAgrees column.collation (characters column field1) (characters column field2))
    (state : HashState) : hashColumn state column field1 = hashColumn state column field2 := by
  simp only [hashColumn, (isString_iff _).mpr (.inl collated), if_true]
  by_cases long : maxConstStrSize < (characters column field1).length
  · rw [if_pos long, if_pos (agrees.1.mp long), column.collation.hashSort_eq _ _ equal]
  · rw [if_neg long, if_neg fun long' => long (agrees.1.mpr long'),
      strnxfrm_eq equal agrees (Nat.le_of_not_lt long)]

lemma characters_of_constStringEq
    (equal : constStringEq (getConstString column field1) (getConstString column field2)) :
    characters column field1 = characters column field2 := by
  unfold characters
  cases first : getConstString column field1 with
  | none =>
    rw [first] at equal
    rw [Option.isNone_iff_eq_none.mp equal]
  | some s =>
    rw [first] at equal
    exact beq_iff_eq.mp equal

/-- Bytes determine the characters, except for a NULL mark. -/
lemma characters_of_data {bytes : List Byte} {mark1 mark2 : Bool} (string : isString column.type)
    (agrees : BlobAgrees column (.inside bytes mark1) (.inside bytes mark2)) :
    characters column (.inside bytes mark1) = characters column (.inside bytes mark2) := by
  by_cases wide : 8 < column.width
  · rcases agrees rfl wide with same | empty
    · rw [same]
    · simp only [characters, getConstString, empty]
      split <;> split <;> rfl
  have width := column.stringWidth string (Nat.le_of_not_lt wide)
  have same : isNullInside column.width bytes mark1 = isNullInside column.width bytes mark2 := by
    simp only [mem_cons, not_mem_nil, or_false] at width
    rcases width with width | width | width | width <;> rw [width] <;> rfl
  simp only [characters, getConstString, same]

lemma data_of_littleEndian {s t : List Byte} (lengths : s.length = t.length)
    (same : littleEndian s = littleEndian t) : s = t := by
  induction s generalizing t with
  | nil => exact (eq_nil_of_length_eq_zero lengths.symm).symm
  | cons b s later =>
    obtain ⟨c, t, rfl⟩ := exists_cons_of_length_eq_add_one lengths.symm
    simp only [littleEndian] at same
    have heads : b.toNat = c.toNat := by omega
    rw [BitVec.eq_of_toNat_eq heads, later (Nat.succ_injective lengths) (by omega)]

lemma hashColumn_of_equals (holds1 : column.Holds field1) (holds2 : column.Holds field2)
    (equal : equalsColumn column field1 field2) (agrees : Agrees column field1 field2)
    (state : HashState) : hashColumn state column field1 = hashColumn state column field2 := by
  unfold equalsColumn at equal
  unfold Agrees at agrees
  by_cases collated : typeHasCollation column.type
  · rw [if_pos collated] at equal agrees
    exact hashColumn_text collated (of_decide_eq_true equal) agrees state
  rw [if_neg collated] at equal
  by_cases blob : column.type = .blob
  · rw [if_pos blob] at equal
    exact hashColumn_characters (by rw [blob]; rfl) (characters_of_constStringEq equal) state
  rw [if_neg blob] at equal
  have number : isString column.type = false :=
    Bool.eq_false_iff.mpr fun string => ((isString_iff _).mp string).elim collated blob
  refine hashColumn_number number (data_of_littleEndian ?_ (beq_iff_eq.mp equal)) state
  cases field1 <;> cases field2 <;> simp_all [Column.Holds, Field.data]

lemma hashColumn_of_data {bytes : List Byte} {mark1 mark2 : Bool}
    (plain : typeHasCollation column.type = false)
    (agrees : Agrees column (.inside bytes mark1) (.inside bytes mark2)) (state : HashState) :
    hashColumn state column (.inside bytes mark1) =
      hashColumn state column (.inside bytes mark2) := by
  cases string : isString column.type with
  | false =>
    have same : (Field.inside bytes mark1).data = (Field.inside bytes mark2).data := rfl
    exact hashColumn_number string same state
  | true =>
    have blob : column.type = .blob := ((isString_iff _).mp string).resolve_left (by simp [plain])
    rw [Agrees, if_neg (by rw [plain]; decide), if_pos blob] at agrees
    exact hashColumn_characters string (characters_of_data string agrees) state

end Columns

variable (columns : List Column)

variable (fields1 fields2 : List Field)

lemma hash_run (n : Nat) (state : HashState)
    (sameLength : fields1.length = fields2.length)
    (alike : ∀ key ∈ (columns.zip (fields1.zip fields2)).take n,
      ∀ state, hashColumn state key.1 key.2.1 = hashColumn state key.1 key.2.2) :
    ((columns.zip fields1).take n).foldl (fun state key => hashColumn state key.1 key.2) state =
      ((columns.zip fields2).take n).foldl
        (fun state key => hashColumn state key.1 key.2) state := by
  induction columns generalizing fields1 fields2 n state with
  | nil => rfl
  | cons column columns later =>
    cases fields1 with
    | nil =>
      obtain rfl := eq_nil_of_length_eq_zero sameLength.symm
      rfl
    | cons field1 fields1 =>
      obtain ⟨field2, fields2, rfl⟩ := exists_cons_of_length_eq_add_one sameLength.symm
      cases n with
      | zero => rfl
      | succ n =>
        simp only [zip_cons_cons, take_succ_cons, mem_cons, forall_eq_or_imp, foldl_cons] at alike ⊢
        rw [alike.1 state]
        exact later fields1 fields2 n _ (Nat.succ_injective sameLength) alike.2

lemma data_of_flatten (n : Nat)
    (widths1 : Forall₂ (fun column (field : Field) => field.data.length = column.width)
      columns fields1)
    (widths2 : Forall₂ (fun column (field : Field) => field.data.length = column.width)
      columns fields2)
    (same : ((fields1.take n).map Field.data).flatten = ((fields2.take n).map Field.data).flatten) :
    ∀ key ∈ (columns.zip (fields1.zip fields2)).take n, key.2.1.data = key.2.2.data := by
  induction widths1 generalizing fields2 n with
  | nil => simp
  | cons width1 _ later =>
    cases widths2 with
    | cons width2 widths2 =>
      cases n with
      | zero => simp
      | succ n =>
        obtain ⟨first, rest⟩ := append_inj same (width1.trans width2.symm)
        simp only [zip_cons_cons, take_succ_cons, mem_cons, forall_eq_or_imp]
        exact ⟨first, later _ n widths2 rest⟩

namespace Row

variable {columns : List Column}

lemma length_fields (r : Row columns) : columns.length = r.fields.length := r.shaped.length_eq

lemma widths (r : Row columns) (noTable : r.useStringTable = false) :
    Forall₂ (fun column (field : Field) => field.data.length = column.width)
      columns r.fields := by
  obtain ⟨lengths, shaped⟩ := forall₂_iff_zip.mp r.shaped
  refine forall₂_iff_zip.mpr ⟨lengths, fun {column field} member => ?_⟩
  obtain ⟨bytes, mark, rfl⟩ := r.insideOnly noTable field (of_mem_zip member).2
  exact shaped member

lemma holds (r1 r2 : Row columns) {key : Column × Field × Field}
    (member : key ∈ columns.zip (r1.fields.zip r2.fields)) :
    key.1.Holds key.2.1 ∧ key.1.Holds key.2.2 := by
  obtain ⟨i, within, rfl⟩ := mem_iff_getElem.mp member
  simp only [length_zip, Nat.lt_min] at within
  simp only [getElem_zip]
  exact ⟨r1.shaped.get within.1 within.2.1, r2.shaped.get within.1 within.2.2⟩

theorem hashRow_of_equals (r1 r2 : Row columns) (lastCol : Nat)
    (equal : equals r1 r2 lastCol = true)
    (agree : ∀ key ∈ (columns.zip (r1.fields.zip r2.fields)).take (lastCol + 1),
      Agrees key.1 key.2.1 key.2.2) :
    hashRow r1 lastCol = hashRow r2 lastCol := by
  unfold equals at equal
  unfold hashRow
  by_cases outside : columns.length ≤ lastCol
  · rw [if_pos outside, if_pos outside]
  rw [if_neg outside] at equal
  have sameLength : r1.fields.length = r2.fields.length :=
    r1.length_fields.symm.trans r2.length_fields
  have alike : ∀ key ∈ (columns.zip (r1.fields.zip r2.fields)).take (lastCol + 1),
      ∀ state, hashColumn state key.1 key.2.1 = hashColumn state key.1 key.2.2 := by
    intro key member
    have inZip := mem_of_mem_take member
    split at equal
    case isFalse =>
      exact hashColumn_of_equals (holds r1 r2 inZip).1 (holds r1 r2 inZip).2
        (all_eq_true.mp equal key member) (agree key member)
    case isTrue whole =>
      simp only [Bool.and_eq_true, Bool.not_eq_true'] at whole
      obtain ⟨⟨noCollation, noTable1⟩, noTable2⟩ := whole
      have data := data_of_flatten columns r1.fields r2.fields (lastCol + 1) (r1.widths noTable1)
        (r2.widths noTable2) (beq_iff_eq.mp equal) key member
      have plain : typeHasCollation key.1.type = false :=
        Bool.eq_false_iff.mpr (any_eq_false.mp noCollation _ (of_mem_zip inZip).1)
      obtain ⟨column, field1, field2⟩ := key
      have inFields := of_mem_zip (of_mem_zip inZip).2
      obtain ⟨bytes1, mark1, rfl⟩ := r1.insideOnly noTable1 field1 inFields.1
      obtain ⟨bytes2, mark2, rfl⟩ := r2.insideOnly noTable2 field2 inFields.2
      obtain rfl : bytes1 = bytes2 := data
      exact hashColumn_of_data plain (agree _ member)
  rw [hash_run columns r1.fields r2.fields (lastCol + 1) _ sameLength alike]

end Row

lemma rtrimSpaces_eq {s t : List Byte}
    (equal : (if rtrimSpaces s = rtrimSpaces t then 0 else 1 : Int) = 0) :
    rtrimSpaces s = rtrimSpaces t := by
  by_contra differ
  rw [if_neg differ] at equal
  cases equal

/-- The binary collation with padding: trailing spaces do not count. -/
def paddedBinary : Collation where
  strnncollsp s t := if rtrimSpaces s = rtrimSpaces t then 0 else 1
  hashSort s parts := (rtrimSpaces s).foldl (fun parts b =>
    ((parts.1 + b.setWidth 64) * 31, parts.2 + 3)) parts
  weights s := s.map fun b => [b]
  padSpace := true
  hashSort_eq s t equal := by
    funext parts
    rw [rtrimSpaces_eq equal]
  weights_eq _ s t equal := by
    rw [rtrimSpaces_eq equal]

/-- A key column of long strings. -/
def textColumn : Column := ⟨.text, 4000, paddedBinary, by decide, by decide⟩

/-- A row with the string of one letter and some spaces in the string table. -/
def letterRow (spaces : Nat) : Row [textColumn] :=
  { fields := [.stored (some (0x78 :: List.replicate spaces 0x20))]
    useStringTable := true
    shaped := .cons rfl .nil
    insideOnly := nofun }

/-- A letter with one space and with none. -/
theorem hashRow_padded :
    equals (letterRow 1) (letterRow 0) 0 = true ∧
      hashRow (letterRow 1) 0 = hashRow (letterRow 0) 0 := by
  have equal : equals (letterRow 1) (letterRow 0) 0 := by decide
  refine ⟨equal, Row.hashRow_of_equals (letterRow 1) (letterRow 0) 0 equal ?_⟩
  intro key member
  obtain rfl : key = (textColumn, .stored (some [0x78, 0x20]), .stored (some [0x78])) :=
    mem_singleton.mp member
  exact ⟨by decide, fun _ => ⟨nofun, .inr (by decide)⟩⟩

/-- A letter with 2047 spaces and with 2048: the strings are equal, but only the first is short
enough to be hashed by its weights. -/
theorem hashRow_straddles :
    equals (letterRow 2047) (letterRow 2048) 0 = true ∧
      hashRow (letterRow 2047) 0 ≠ hashRow (letterRow 2048) 0 := by
  decide +kernel

end GroupingHash
