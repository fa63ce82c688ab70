import ColumnStore.StringTable

/-!
# Row groups that are dumped to disk

Model of `RowGroupStorage` of `utils/rowgroup/rowstorage.cpp` with the parts of `RowGroup`,
`RGData` and `Row` it works on. The rows of a storage lie in row groups of `fMaxRows` rows. A row
group is a buffer with a header, which begins with the number of rows, and a string table. It is
dumped to a file and loaded again when one of its rows is read.

A file gives back the bytes written to it and the compressor is lossless. Whether the memory
manager grants memory is left open in each step. Of the writes to a row the model has those of a
string to a column in the string table and those of a field of the row itself with exactly its
width; user data of aggregate functions is left out.
-/

namespace RowSpill

open ByteStrings ByteReaders ByteBuffers StringTable

structure Column where
  width : Nat
  forceInline : Bool
  deriving DecidableEq, Repr

structure RowGroup where
  columns : List Column
  sTableThreshold : Nat
  stringTable : Bool
  deriving DecidableEq, Repr

def headerSize : Nat := 18

namespace RowGroup

variable (rg : RowGroup)

/-- The column is wide enough for the string table. -/
def isLong (column : Column) : Bool :=
  decide (rg.sTableThreshold ≤ column.width) && !column.forceInline

def usesStringTable : Bool := rg.stringTable && rg.columns.any rg.isLong

/-- `inStringTable`, for rows with a string table. -/
def inStringTable (column : Column) : Bool := rg.usesStringTable && rg.isLong column

/-- The bytes a column takes in a row: an offset if its strings are in the table. -/
def fieldWidth (column : Column) : Nat := if rg.inStringTable column then 8 else column.width

/-- `offsets`: the fields follow a RID of two bytes. -/
def offset (col : Nat) : Nat := 2 + ((rg.columns.take col).map rg.fieldWidth).sum

def getInternalSize : Nat := rg.offset rg.columns.length

/-- `getRowSize`: a NULL mark for each column follows the fields. -/
def getRowSize : Nat := rg.getInternalSize + rg.columns.length

def getDataSize (n : Nat) : Nat := headerSize + n * rg.getRowSize

/-- The place of row `rid` in the buffer. -/
def rowPlace (rid : Nat) : Nat := headerSize + rid * rg.getRowSize

end RowGroup

structure RGData where
  rowData : List Byte
  strings : Option StringStore
  deriving DecidableEq, Repr

/-- The value of a column: the bytes of its field, or its string or NULL. -/
inductive Value where
  | inside (field : List Byte)
  | stored (string : Option (List Byte))
  deriving DecidableEq, Repr

namespace RGData

variable (rg : RowGroup)

/-- An empty row group for `n` rows. -/
def new (n : Nat) : RGData :=
  ⟨List.replicate (rg.getDataSize n) 0, if rg.usesStringTable then some .new else none⟩

def getRowCount (rgd : RGData) : Nat := littleEndian (slice rgd.rowData 0 4)

def incRowCount (rgd : RGData) : RGData :=
  { rgd with rowData := splice rgd.rowData 0 (bytes 4 (BitVec.ofNat 32 (rgd.getRowCount + 1))) }

def getField (rgd : RGData) (rid col : Nat) (column : Column) : List Byte :=
  slice rgd.rowData (rg.rowPlace rid + rg.offset col) (rg.fieldWidth column)

/-- The setters of fixed width: they write a field of the row itself. -/
def setField (rgd : RGData) (rid col : Nat) (field : List Byte) : RGData :=
  { rgd with rowData := splice rgd.rowData (rg.rowPlace rid + rg.offset col) field }

def setNullMark (rgd : RGData) (rid col : Nat) (isNull : Bool) : RGData :=
  { rgd with
    rowData := splice rgd.rowData (rg.rowPlace rid + rg.getInternalSize + col)
      (bytes 1 (BitVec.ofBool isNull)) }

/-- `setStringField` and `setVarBinaryField` on a column in the string table: the string is cut to
the width of the column. -/
def setStringField (rgd : RGData) (rid col : Nat) (column : Column) (str : Option (List Byte)) :
    Option RGData := do
  let marked := rgd.setNullMark rg rid col str.isNone
  let store ← marked.strings
  let (off, store) ← store.storeString (str.map (·.take column.width))
  return { marked.setField rg rid col (bytes 8 (BitVec.ofNat 64 off)) with strings := some store }

/-- The value of a column of a row. A row reads its strings with `StringStore::getConstString`;
`read` is that function, or `StringStore::getString`. -/
def getColumn (read : StringStore → Nat → Option (List Byte)) (rgd : RGData) (rid col : Nat)
    (column : Column) : Value :=
  let field := rgd.getField rg rid col column
  match rg.inStringTable column, rgd.strings with
  | true, some store => .stored (read store (littleEndian field))
  | _, _ => .inside field

def sig : BitVec 32 := 0xffffffff

/-- `serialize`, of the first `amount` bytes of the rows. -/
def serialize (rgd : RGData) (amount : Nat) : ByteStream :=
  let strings := rgd.strings.map StringStore.serialize
  ⟨bytes 4 sig ++ (bytes 4 (BitVec.ofNat 32 amount) ++ (rgd.rowData.take amount ++
      (bytes 1 (BitVec.ofBool strings.isSome) ++
        ((strings.elim [] ByteStream.buffer) ++ bytes 1 (0 : BitVec 8))))),
    strings.elim [] ByteStream.longStrings⟩

end RGData

/-- What a storage is made with: the row group, the rows in each, the compressor, and what a
newly allocated buffer holds. The size of a row group fits into the 32 bits it is kept in. -/
structure Setting where
  rowGroupOut : RowGroup
  fMaxRows : Nat
  compress : List Byte → List Byte
  uncompress : List Byte → List Byte
  fresh : Nat → List Byte
  lossless : ∀ buffer, uncompress (compress buffer) = buffer
  length_fresh : ∀ n, (fresh n).length = n
  someRows : 0 < fMaxRows
  fits : rowGroupOut.getDataSize fMaxRows < 2 ^ 32

/-- `RGData::deserialize` from a stream with the given long strings. A buffer without the
signature and one with user data are not read. -/
def RGData.deserialize (cfg : Setting) (longStrings : List MemChunk) (defAmount : Nat) :
    Reader RGData := do
  let sig ← word 4
  let amount ← word 4
  let rows ← raw amount.toNat
  let tmp8 ← word 1
  let strings ← if tmp8 != 0 then some <$> StringStore.deserialize longStrings else pure none
  let userData ← word 1
  if sig != RGData.sig || userData != 0 then fun _ => none
  else return ⟨rows ++ cfg.fresh (max amount.toNat defAmount - amount.toNat), strings⟩

/-- `LRU`, oldest first; the interface without an implementation keeps nothing. -/
structure LRU where
  keeps : Bool
  list : List Nat
  deriving DecidableEq, Repr

def LRU.add (lru : LRU) (rgid : Nat) : LRU :=
  if lru.keeps then { lru with list := lru.list.erase rgid ++ [rgid] } else lru

def LRU.remove (lru : LRU) (rgid : Nat) : LRU := { lru with list := lru.list.erase rgid }

structure Storage where
  fRGDatas : List (Option RGData)
  fCurRgid : Nat
  fLRU : LRU
  files : Nat → Option (List Byte)

variable (cfg : Setting)

namespace Storage

/-- The constructor. -/
def new (keeps : Bool) : Storage :=
  ⟨[some (.new cfg.rowGroupOut cfg.fMaxRows)], 0, ⟨keeps, []⟩, fun _ => none⟩

/-- The row group in memory. -/
def inMemory (s : Storage) (rgid : Nat) : Option RGData := s.fRGDatas[rgid]?.join

/-- The bytes that reach the file of a row group. -/
def dumped (rgd : RGData) : List Byte :=
  cfg.compress (rgd.serialize (cfg.rowGroupOut.getDataSize rgd.getRowCount)).buffer

def saveRG (s : Storage) (rgid : Nat) : Storage :=
  match s.inMemory rgid with
  | none => s
  | some rgd =>
    { s with
      fRGDatas := s.fRGDatas.set rgid none
      fLRU := s.fLRU.remove rgid
      files := fun i => if i = rgid then some (dumped cfg rgd) else s.files i }

/-- The row group that `loadRG` makes of a file. -/
def readFile (s : Storage) (rgid : Nat) : Option RGData := do
  let data ← s.files rgid
  let bs := ByteStream.ofBuffer (cfg.uncompress data)
  let (rgd, _) ← (RGData.deserialize cfg bs.longStrings
    (cfg.rowGroupOut.getDataSize cfg.fMaxRows)).run bs.buffer
  return rgd

/-- `loadRG`. The row group is in its place also where the memory is then not granted and the
function throws; a file that cannot be read is an error without a successor. -/
def loadRG (s : Storage) (rgid : Nat) : Option Storage :=
  match s.fRGDatas[rgid]? with
  | none => none
  | some (some _) => some s
  | some none => (s.readFile cfg rgid).map fun rgd =>
      { s with fRGDatas := s.fRGDatas.set rgid (some rgd) }

/-- `getRow`: the storage, and whether the function returns. -/
def getRow (s : Storage) (idx : Nat) (granted : Bool) : Option (Storage × Bool) :=
  let rgid := idx / cfg.fMaxRows
  match s.fRGDatas[rgid]? with
  | none => none
  | some (some _) => some ({ s with fLRU := s.fLRU.add rgid }, true)
  | some none =>
    (s.loadRG cfg rgid).map fun s =>
      if granted then ({ s with fLRU := s.fLRU.add rgid }, true) else (s, false)

/-- The row group has room for a row and is in memory. -/
def hasRoom (s : Storage) (rgid : Nat) : Bool :=
  (s.inMemory rgid).any fun rgd => decide (rgd.getRowCount < cfg.fMaxRows)

/-- The row group that `putRow` takes if it makes no new one. -/
def chosen (s : Storage) : Option Nat :=
  if s.hasRoom cfg s.fCurRgid then some s.fCurRgid else s.fLRU.list.reverse.find? (s.hasRoom cfg)

/-- The row of a row group that is handed out, and the group with it. -/
def place (s : Storage) (rgid : Nat) (rgd : RGData) : Storage × Nat :=
  ({ s with
      fRGDatas := s.fRGDatas.set rgid (some rgd.incRowCount)
      fCurRgid := rgid
      fLRU := s.fLRU.add rgid }, rgid * cfg.fMaxRows + rgd.getRowCount)

/-- `putRow`: the storage, and the index of the row unless the memory is not granted. -/
def putRow (s : Storage) (granted : Bool) : Storage × Option Nat :=
  match s.chosen cfg with
  | some rgid =>
    match s.inMemory rgid with
    | none => (s, none)
    | some rgd => ((s.place cfg rgid rgd).1, some (s.place cfg rgid rgd).2)
  | none =>
    if granted then
      let curRG := RGData.new cfg.rowGroupOut cfg.fMaxRows
      let s := { s with fRGDatas := s.fRGDatas ++ [some curRG] }
      let put := s.place cfg (s.fRGDatas.length - 1) curRG
      (put.1, some put.2)
    else (s, none)

/-- The loop of `dump`: the list of the cache is a queue from which each row group is removed, or
moved to the end, until one is saved. -/
def dumpLoop (s : Storage) (moved : Nat) : Storage :=
  match _queue : s.fLRU.list with
  | [] => s
  | rgid :: rest =>
    if s.fLRU.list.length ≤ 2 then s
    else
      match s.inMemory rgid with
      | none => dumpLoop { s with fLRU := { s.fLRU with list := rest } } moved
      | some rgd =>
        if moved ≤ 2 ∧ rgd.getRowCount < cfg.fMaxRows then
          dumpLoop { s with fLRU := { s.fLRU with list := rest ++ [rgid] } } (moved + 1)
        else s.saveRG cfg rgid
  termination_by s.fLRU.list.length + (3 - moved)
  decreasing_by
    · simp only [_queue, List.length_cons]
      omega
    · simp only [_queue, List.length_append, List.length_cons, List.length_nil]
      omega

def dump (s : Storage) : Storage := s.dumpLoop cfg 0

/-- `dumpAll`: the row groups stay in memory. -/
def dumpAll (s : Storage) : Storage :=
  { s with
    files := fun i =>
      match s.inMemory i with
      | none => s.files i
      | some rgd => some (dumped cfg rgd) }

end Storage

end RowSpill
