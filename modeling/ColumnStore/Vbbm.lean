import Mathlib.Data.Int.Basic
import ColumnStore.Vss

/-!
# The version buffer block map

`VBBM` maps a block version to the place in a version buffer file that holds its image, and hands
out space in those files. The map is a chained table keyed by LBID and hashed on LBID and version
together. A version buffer file is used as a ring; the space handed out next starts at
`nextOffset`.

The undo records of the table and those of the file descriptors are kept in two lists: they
describe disjoint regions of the segment, so the order between them does not matter. The
configured file size is an argument wherever the source reads the configuration.
-/

namespace Vbbm

open ChainedTable Vss

structure VBBMData where
  verID : Ver
  vbOID : Nat
  vbFBO : Nat
  deriving DecidableEq

structure VBFileMetadata where
  OID : Nat
  fileSize : Nat
  nextOffset : Nat
  deriving DecidableEq

structure VBRange where
  vbOID : Nat
  vbFBO : Nat
  size : Nat
  deriving DecidableEq

structure VBBM where
  table : Table LBID VBBMData Unit
  files : List VBFileMetadata
  fileUndo : List (Nat × VBFileMetadata)

def storageInitialCount : Nat := 100000

def storageIncrementCount : Nat := 10000

def tableInitialCount : Nat := 25000

def tableIncrement : Nat := 2500

def chunkSize : Nat := 100

def blockSize : Nat := 8192

/-- The value of a 32-bit signed integer assigned from a wider one. -/
def int32 (n : Int) : Int :=
  n.bmod (2 ^ 32)

/-- The value of a 32-bit unsigned integer assigned from a wider or signed one. -/
def uint32 (n : Int) : Nat :=
  (n % 2 ^ 32).toNat

def blank : VBBMData := ⟨0, 0, 0⟩

def initShmseg : VBBM where
  table := Table.empty
    { capacity := storageInitialCount, currentSize := 0, lowWater := 0,
      numBuckets := tableInitialCount, extra := () }
    blank []
  files := []
  fileUndo := []

section Operations

variable (hasher : LBID → Ver → Nat)

/-- The bytes that are hashed: LBID and version. -/
def hashOf (lbid : LBID) (d : VBBMData) : Nat :=
  hasher lbid d.verID

def grownHeader (t : Table LBID VBBMData Unit) (addAFile : Bool) : Header Unit :=
  { t.header with
    capacity := if addAFile then t.header.capacity else t.header.capacity + storageIncrementCount
    numBuckets := if addAFile then t.header.numBuckets else t.header.numBuckets + tableIncrement
    lowWater := 0 }

/-- Copy into a new segment, with one more file descriptor or with a larger table. Only the first
`vbCurrentSize` slots are copied. The undo records are dropped. -/
def growVBBM (b : VBBM) (addAFile : Bool) : VBBM where
  table := b.table.copyUsed (hashOf hasher) 0 b.table.header.currentSize
    (Table.empty (grownHeader b.table addAFile) blank [])
  files := if addAFile then b.files ++ [⟨0, 0, 0⟩] else b.files
  fileUndo := []

def roomFor (b : VBBM) : VBBM :=
  if b.table.header.currentSize = b.table.header.capacity then growVBBM hasher b false else b

def insert_ (t : Table LBID VBBMData Unit) (loading : Bool) (lbid : LBID) (d : VBBMData) :
    Table LBID VBBMData Unit :=
  t.insertFree (hashOf hasher) 0 loading lbid d

def insert (b : VBBM) (lbid : LBID) (d : VBBMData) (loading : Bool) : VBBM :=
  let b₁ := roomFor hasher b
  let t₁ := insert_ hasher b₁.table loading lbid d
  let t₂ := if loading then t₁ else t₁.makeUndoRecord (.currentSize t₁.header.currentSize)
  { b₁ with
    table := t₂.setHeader { t₂.header with currentSize := t₂.header.currentSize + 1 } }

def bucketOf (t : Table LBID VBBMData Unit) (lbid : LBID) (verID : Ver) : Nat :=
  hasher lbid verID % t.header.numBuckets

def getIndex (t : Table LBID VBBMData Unit) (lbid : LBID) (verID : Ver) :
    Option (Option Nat × Nat) :=
  findWithPrev (fun i => (t.slots i).key = some lbid ∧ (t.slots i).data.verID = verID) none
    (t.visited (bucketOf hasher t lbid verID))

def lookup (b : VBBM) (lbid : LBID) (verID : Ver) : Option (Nat × Nat) :=
  (getIndex hasher b.table lbid verID).map fun found =>
    ((b.table.slots found.2).data.vbOID, (b.table.slots found.2).data.vbFBO)

def removeFromTable (t : Table LBID VBBMData Unit) (lbid : LBID) (verID : Ver) :
    Table LBID VBBMData Unit :=
  match getIndex hasher t lbid verID with
  | none => t
  | some (prev, index) =>
    let t₁ := t.unlink (bucketOf hasher t lbid verID) prev index
    (t₁.makeUndoRecord (.header t₁.header)).discount (fun _ x => x) index

def removeEntry (b : VBBM) (lbid : LBID) (verID : Ver) : VBBM :=
  { b with table := removeFromTable hasher b.table lbid verID }

def makeFileUndoRecord (b : VBBM) (fileIndex : Nat) : VBBM :=
  { b with fileUndo := (fileIndex, b.files.getD fileIndex ⟨0, 0, 0⟩) :: b.fileUndo }

def setFile (b : VBBM) (fileIndex : Nat) (file : VBFileMetadata) : VBBM :=
  { b with files := b.files.set fileIndex file }

/-- The index of the file, which is added with the configured size when it is new. -/
def addVBFileIfNotExists (b : VBBM) (currentFileSize vbOID : Nat) : VBBM × Nat :=
  let i := b.files.findIdx fun f => f.OID = vbOID
  if i = b.files.length then (setFile (growVBBM hasher b true) i ⟨vbOID, currentFileSize, 0⟩, i)
  else (b, i)

/-- Grow until `num` more entries fit. -/
def growFor (num : Int) : Nat → VBBM → VBBM
  | 0, b => b
  | n + 1, b =>
    if (b.table.header.capacity : Int) < b.table.header.currentSize + num then
      growFor num n (growVBBM hasher b false)
    else b

/-- Take ranges from the ring until `num` blocks are gathered; `none` when the loop runs on for
ever, which takes a file whose block count does not fit `int`. -/
def gather (fileIndex : Nat) (num : Int) :
    Nat → Int → VBBM → List VBRange → Option (VBBM × List VBRange)
  | 0, _, _, _ => none
  | n + 1, blocksGathered, b, freeRanges =>
    if blocksGathered < num then
      let file := b.files.getD fileIndex ⟨0, 0, 0⟩
      let blocksLeftInFile := int32 ((file.fileSize - file.nextOffset) / blockSize : Nat)
      let blocksLeft := num - blocksGathered
      let size :=
        uint32 (if blocksLeft ≤ blocksLeftInFile then blocksLeft else blocksLeftInFile)
      let nextOffset :=
        if size = uint32 blocksLeftInFile then 0 else file.nextOffset + size * blockSize
      gather fileIndex num n (int32 (blocksGathered + size))
        (setFile (makeFileUndoRecord b fileIndex) fileIndex { file with nextOffset := nextOffset })
        (freeRanges ++ [⟨file.OID, uint32 (file.nextOffset / blockSize : Nat), size⟩])
    else some (b, freeRanges)

/-- The blocks `[first, last]` whose entries make way for a range: whole chunks, from the first
chunk boundary inside the range on; none when the range stays inside a chunk begun before. -/
def agedBlocks (fileSize : Nat) (range : VBRange) : Option (Nat × Nat) :=
  let firstFBO := range.vbFBO
  let lastFBO := uint32 ((range.vbFBO : Int) + range.size - 1)
  let firstChunk := firstFBO / chunkSize
  let lastChunk := lastFBO / chunkSize
  if firstFBO % chunkSize ≠ 0 ∧ firstChunk = lastChunk then none
  else
    let first := if firstFBO % chunkSize ≠ 0 then uint32 ((firstChunk + 1) * chunkSize : Nat)
      else firstFBO
    let last := uint32 ((lastChunk + 1) * chunkSize - 1 : Nat)
    some (first, if fileSize / blockSize < last then uint32 (fileSize / blockSize : Nat) else last)

variable (vssHasher : LBID → Nat)

/-- What the loop that ages entries out has done so far. -/
structure Aging where
  table : Table LBID VBBMData Unit
  vss : VSS
  flushList : List LBID

/-- Walk the whole table for entries in `[first, last]` of the file. The LBID of a locked entry
ends the loop. -/
def ageBlocks (vbOID first last : Nat) : List Nat → Aging → Aging × Option LBID
  | [], s => (s, none)
  | i :: rest, s =>
    match (s.table.slots i).key with
    | none => ageBlocks vbOID first last rest s
    | some lbid =>
      let d := (s.table.slots i).data
      if d.vbOID = vbOID ∧ first ≤ d.vbFBO ∧ d.vbFBO ≤ last then
        if isEntryLocked vssHasher s.vss lbid d.verID then (s, some lbid)
        else
          let removed := Vss.removeEntry vssHasher s.vss lbid d.verID s.flushList
          ageBlocks vbOID first last rest
            ⟨removeFromTable hasher s.table lbid d.verID, removed.1, removed.2⟩
      else ageBlocks vbOID first last rest s

def lockedMessage (num : Int) (vbOID first last : Nat) (lbid : LBID) : String :=
  "VBBM::getBlocks(): version buffer overflow. Increase VersionBufferFileSize. Overflow " ++
    "occurred in aged blocks. Requested NumBlocks:VbOid:vbFBO:lastFBO = " ++ toString num ++ ":" ++
    toString vbOID ++ ":" ++ toString first ++ ":" ++ toString last ++ " lbid locked is " ++
    toString lbid ++ "\n"

def ageRanges (num : Int) (fileSize : Nat) : List VBRange → Aging → Aging × Option String
  | [], s => (s, none)
  | range :: rest, s =>
    match agedBlocks fileSize range with
    | none => ageRanges num fileSize rest s
    | some (first, last) =>
      match ageBlocks hasher vssHasher range.vbOID first last
          (List.range s.table.header.capacity) s with
      | (s', some lbid) => (s', some (lockedMessage num range.vbOID first last lbid))
      | (s', none) => ageRanges num fileSize rest s'

inductive Blocks
  | granted (freeRanges : List VBRange) (flushList : List LBID)
  | overflow (message : String)
  deriving DecidableEq

/-- More turns than any run of the gathering loop takes that ends at all. -/
def gatherTurns : Nat := 2 ^ 34

/-- The space for `num` blocks, with the entries that occupied it aged out of both tables. The
tables are returned also where the source throws, as they stand then; `none` is a call that does
not return. -/
def getBlocks (b : VBBM) (v : VSS) (currentFileSize : Nat) (requested : Int) (vbOID : Nat) :
    Option (VBBM × VSS × Blocks) :=
  let num := int32 requested
  let added := addVBFileIfNotExists hasher b currentFileSize vbOID
  let file := added.1.files.getD added.2 ⟨0, 0, 0⟩
  if file.fileSize / blockSize < uint32 num then
    some (added.1, v,
      .overflow "VBBM::getBlocks(): num is larger than the size of the version buffer")
  else
    let grown := growFor hasher num
      (added.1.table.header.currentSize + num.toNat) added.1
    (gather added.2 num gatherTurns 0 grown []).map fun gathered =>
      match ageRanges hasher vssHasher num file.fileSize gathered.2
          ⟨gathered.1.table, v, []⟩ with
      | (s, some message) => ({ gathered.1 with table := s.table }, s.vss, .overflow message)
      | (s, none) =>
        ({ gathered.1 with table := s.table }, s.vss, .granted gathered.2 s.flushList)

def undoFiles (b : VBBM) : List VBFileMetadata :=
  b.fileUndo.foldl (fun files r => files.set r.1 r.2) b.files

def undoChanges (b : VBBM) : VBBM :=
  { table := b.table.undoChanges, files := undoFiles b, fileUndo := [] }

def confirmChanges (b : VBBM) : VBBM :=
  { b with table := b.table.confirmChanges, fileUndo := [] }

end Operations

end Vbbm
