import ColumnStore.ExtentIndex
import ColumnStore.LbidFreeList
import ColumnStore.OrderedTable
import ColumnStore.Procedures
import ColumnStore.RangeProtocol

/-!
# The extent map

The tree of extents by their first LBID, the index into it and the free list, with
the operations that create and delete extents. Every operation is a procedure on
the whole map: it may throw, and what it has done before the throw stays until
`undoChanges`. An iterator into the tree is the key it stands at, and using one
whose entry is gone is `undefinedBehaviour`, as are the other accesses past the
end of a container.

The locks, the shared memory segments and their keys, and the log messages are
left out; growing a segment never fails. `getExtentRows` and
`getExtentsPerSegmentFile` are constants of the code.
-/

namespace ExtentMap

open LbidFreeList OrderedTable ExtentIndex ColumnTypes CasualPartition RangeProtocol

deriving instance DecidableEq for CPEntry

/-- `EXTENTAVAILABLE`, `EXTENTUNAVAILABLE`, `EXTENTOUTOFSERVICE`. -/
inductive ExtentStatus where
  | available | unavailable | outOfService
  deriving DecidableEq, Repr

structure EMEntry where
  range : InlineLBIDRange
  fileID : Int
  blockOffset : Nat
  hwm : Nat
  partitionNum : Nat
  segmentNum : Nat
  dbRoot : Nat
  colWid : Nat
  status : ExtentStatus
  cprange : CPEntry
  deriving DecidableEq

def EMEntry.indexKey (e : EMEntry) : IndexKey := ⟨e.dbRoot, e.fileID, e.partitionNum⟩

inductive UndoRecordType where
  | insert | delete | default
  deriving DecidableEq, Repr

abbrev Tree := Table Nat EMEntry

/-- The extent map of a worker. `treeCurrentSize` counts the nodes in `currentSize` of
`fEMRBTreeShminfo`. -/
structure EM where
  tree : Tree
  index : ExtentMapIndex
  freeList : FreeList
  treeCurrentSize : Int
  undoRecords : List ImageDelta
  undoRecordsRBTree : List (UndoRecordType × EMEntry)

/-- The map in new shared memory segments. -/
def EM.initial : EM := ⟨.empty, [], .initial, 0, [], []⟩

/-- What an operation throws. -/
inductive EMError where
  /-- "ExtentMap::getLBIDsFromFreeList(): out of LBID space" -/
  | outOfLBIDSpace
  /-- "ExtentMap::markInvalid(): lbid isn't allocated" -/
  | lbidNotAllocated
  /-- "ExtentMap::deleteOID(): There are no extent entries for OID " -/
  | noExtentEntries (oid : Int)
  /-- "ExtentMap::createStripeColumnExtents(): Inconsistent segment extent creation: " -/
  | inconsistentStripe
  /-- `ERR_PARTITION_NOT_EXIST` -/
  | partitionNotExist
  /-- `WARN_NO_PARTITION_PERFORMED` -/
  | noPartitionPerformed
  /-- The assertion `emNumElements > 0` of `loadVersion4or5`. -/
  | emptyImage
  | undefinedBehaviour
  deriving DecidableEq, Repr

/-- A member function of `ExtentMap`. -/
abbrev Op := EStateM EMError EM

/-- The configuration the placement of extents depends on. -/
structure Config where
  filesPerColumnPartition : Nat
  dbRootCount : Nat
  dbRoots : List Nat

/-- `findByLBID`, without a check that the entry before `lbid` contains it. -/
def findByLBID (tree : Tree) (lbid : Nat) : Option (Nat × EMEntry) :=
  match tree.lowerBound lbid with
  | none =>
    tree.entries.getLast?.filter fun last =>
      last.1 ≤ lbid ∧ lbid < last.1 + last.2.range.size * 1024
  | some e =>
    if e.1 = lbid then some e else (tree.entries.takeWhile fun e => e.1 < lbid).getLast?

def getEmIdentsByLbids (em : EM) (lbids : List Nat) : Option (List EMEntry) :=
  lbids.mapM fun lbid => (findByLBID em.tree lbid).map (·.2)

def getEmIteratorsByLbids (em : EM) (lbids : List Nat) : Option (List Nat) :=
  lbids.mapM fun lbid => (findByLBID em.tree lbid).map (·.1)

def orThrow {α : Type} (e : EMError) : Option α → Op α
  | some a => pure a
  | none => throw e

/-- The iterators to the extents with these LBIDs. -/
def iterators (lbids : List Nat) : Op (List Nat) := do
  orThrow .lbidNotAllocated (getEmIteratorsByLbids (← get) lbids)

def getLBIDsFromFreeList (size : Nat) : Op Nat := do
  let em ← get
  match em.freeList.getLBIDsFromFreeList size with
  | none => throw .outOfLBIDSpace
  | some (lbid, freeList, records) =>
    set { em with freeList := freeList, undoRecords := em.undoRecords ++ records }
    pure lbid

/-- The end of each function that creates an extent: into the tree, then into the index. -/
def EM.withExtent (em : EM) (e : EMEntry) : EM :=
  { em with
    tree := em.tree.insert e.range.start e
    index := em.index.insert e.indexKey e.range.start
    treeCurrentSize := em.treeCurrentSize + 1
    undoRecords := em.undoRecords ++ [.treeShminfo em.treeCurrentSize]
    undoRecordsRBTree := em.undoRecordsRBTree ++ [(.insert, e)] }

def insertExtent (e : EMEntry) : Op Unit := do
  let em ← get
  set (em.withExtent e)

/-- The map after `deleteExtent` has found what becomes of the free list and the index. -/
def EM.withoutExtent (em : EM) (key : Nat) (e : EMEntry) (freeList : FreeList)
    (records : List ImageDelta) (index : ExtentMapIndex) : EM :=
  { em with
    tree := em.tree.erase key
    index := index
    freeList := freeList
    treeCurrentSize := em.treeCurrentSize - 1
    undoRecords := em.undoRecords ++ records ++ [.pointer]
    undoRecordsRBTree := em.undoRecordsRBTree ++ [(.delete, e)] }

def deleteExtent (key : Nat) (clearEMIndex : Bool) : Op Unit := do
  let em ← get
  let e ← orThrow .undefinedBehaviour (em.tree.find? key)
  let freed ← orThrow .undefinedBehaviour (em.freeList.release e.range)
  let index ← orThrow .undefinedBehaviour
    (if clearEMIndex then em.index.deleteEMEntry e.indexKey key else some em.index)
  set (em.withoutExtent key e freed.1 freed.2 index)

/-- An entry is changed in place, after a record of what it was. -/
def EM.withUpdate (em : EM) (key : Nat) (e : EMEntry) (change : EMEntry → EMEntry) : EM :=
  { em with
    tree := em.tree.update key change
    undoRecordsRBTree := em.undoRecordsRBTree ++ [(.default, e)] }

def updateEntry (key : Nat) (change : EMEntry → EMEntry) : Op Unit := do
  let em ← get
  let e ← orThrow .undefinedBehaviour (em.tree.find? key)
  set (em.withUpdate key e change)

def getExtentRows : Nat := 0x800000

def getExtentsPerSegmentFile : Nat := 2

def blockSize : Nat := 8192

/-- The size of an extent in blocks, in the 32-bit arithmetic of the code. -/
def extentSize (colWidth : Nat) : Nat := getExtentRows * colWidth % 2 ^ 32 / blockSize

def dictColWidth : Nat := 8

/-- The value range a column extent is created with. -/
def initialRange (colDataType : ColDataType) (colWidth : Nat) : CPRange :=
  if colDataType.isUnsigned then
    if colWidth ≠ 16 then ⟨(BitVec.allOnes 64).setWidth 128, 0⟩ else ⟨BitVec.allOnes 128, 0⟩
  else if colWidth ≠ 16 then ⟨(BitVec.intMax 64).setWidth 128, (BitVec.intMin 64).setWidth 128⟩
  else ⟨BitVec.intMax 128, BitVec.intMin 128⟩

/-- Where a new extent goes. -/
structure Place where
  partitionNum : Nat
  segmentNum : Nat
  blockOffset : Nat
  deriving DecidableEq, Repr

/-- The entry of a new column extent. -/
def columnEntry (startLBID size : Nat) (oid : Int) (colWidth dbRoot : Nat)
    (colDataType : ColDataType) (place : Place) : EMEntry where
  range := ⟨startLBID, size⟩
  fileID := oid
  blockOffset := place.blockOffset
  hwm := 0
  partitionNum := place.partitionNum
  segmentNum := place.segmentNum
  dbRoot := dbRoot
  colWid := colWidth % 2 ^ 16
  status := .unavailable
  cprange := ⟨initialRange colDataType colWidth, 0, .invalid⟩

/-- The scan for the HWM extent of a DBRoot: the last in the order of partition, block offset and
segment, compared with zeros as long as there is none. -/
def laterExtent (last : Option EMEntry) (e : EMEntry) : Option EMEntry :=
  let highestPartNum := (last.map (·.partitionNum)).getD 0
  let highestOffset := (last.map (·.blockOffset)).getD 0
  let highestSegNum := (last.map (·.segmentNum)).getD 0
  if highestPartNum < e.partitionNum ∨
      e.partitionNum = highestPartNum ∧ highestOffset < e.blockOffset ∨
      e.partitionNum = highestPartNum ∧ e.blockOffset = highestOffset ∧
        highestSegNum ≤ e.segmentNum then some e
  else last

/-- The highest segment number seen so far. -/
def higherSeg (high : Option Nat) (e : EMEntry) : Option Nat :=
  match high with
  | none => some e.segmentNum
  | some h => if h < e.segmentNum then some e.segmentNum else some h

/-- `targetDbRootSegs`: each segment file of the last partition with the highest offset in it. -/
abbrev TargetSegs := AList fun _ : Nat => Nat

def trackSeg (segs : TargetSegs) (e : EMEntry) : TargetSegs :=
  match segs.lookup e.segmentNum with
  | none => segs.insert e.segmentNum e.blockOffset
  | some offset =>
    if offset < e.blockOffset then segs.insert e.segmentNum e.blockOffset else segs

/-- `firstTargetSeg`, `lastTargetSeg` and `nextTargetSeg`. -/
structure SegBounds where
  first : Nat
  last : Nat
  next : Option Nat

def SegBounds.visit (lastSeg : Nat) (b : SegBounds) (seg : Nat) : SegBounds where
  first := if seg < b.first then seg else b.first
  last := if seg < b.first then b.last else if b.last < seg then seg else b.last
  next :=
    if lastSeg < seg then
      match b.next with
      | none => some seg
      | some n => if seg < n then some seg else some n
    else b.next

/-- What the second scan collects for a DBRoot that has extents of the OID. -/
structure PartitionScan where
  segsOutOfService : Bool
  partHighSeg : Nat
  partHighSegNext : Option Nat
  targetSegs : TargetSegs

/-- The second scan: `own` are the extents of the DBRoot in the last partition, `others` those
of the other DBRoots there, `othersNext` those of the other DBRoots in the next partition. -/
def scanPartition (last : EMEntry) (own others othersNext : List EMEntry) : PartitionScan where
  segsOutOfService := own.any fun e => e.status = .outOfService
  partHighSeg := ((own ++ others).foldl higherSeg (some last.segmentNum)).getD 0
  partHighSegNext := othersNext.foldl higherSeg none
  targetSegs := own.foldl trackSeg (AList.singleton last.segmentNum last.blockOffset)

/-- The number that follows, in the width of the field it is stored in. -/
def nextPartition (partitionNum : Nat) : Nat := (partitionNum + 1) % 2 ^ 32

def nextSegment (segmentNum : Nat) : Nat := (segmentNum + 1) % 2 ^ 16

/-- The place of the first extent in the next partition. -/
def newPartitionPlace (last : EMEntry) (scan : PartitionScan) : Place :=
  ⟨nextPartition last.partitionNum, (scan.partHighSegNext.map nextSegment).getD 0, 0⟩

/-- The third step of `_createColumnExtent_DBroot` for a DBRoot with extents. -/
def nextPlace (cfg : Config) (colWidth : Nat) (last : EMEntry) (scan : PartitionScan) : Place :=
  let filesPerDBRootPerPartition := cfg.filesPerColumnPartition / cfg.dbRootCount
  let segs := scan.targetSegs
  let bounds := segs.keys.foldl (SegBounds.visit last.segmentNum)
    ⟨last.segmentNum, last.segmentNum, none⟩
  let fileCount := segs.keys.length
  -- 2a, 2b: out of service, or not layered as expected
  if scan.segsOutOfService ∨
      fileCount < filesPerDBRootPerPartition ∧ segs.entries.any (fun e => 0 < e.2) then
    newPartitionPlace last scan
  else if filesPerDBRootPerPartition ≤ fileCount then
    if last.segmentNum = bounds.last then
      if last.blockOffset = (getExtentsPerSegmentFile - 1) * extentSize colWidth % 2 ^ 32 then
        newPartitionPlace last scan
      -- wrap-around: the next stripe starts in the first file
      else
        ⟨last.partitionNum, bounds.first,
          (last.range.size * 1024 + last.blockOffset) % 2 ^ 32⟩
    else
      let seg := bounds.next.getD last.segmentNum
      ⟨last.partitionNum, seg,
        if last.blockOffset = 0 ∧ bounds.first < seg then 0 else last.blockOffset⟩
  else
    let seg := nextSegment scan.partHighSeg
    ⟨last.partitionNum, seg,
      if last.blockOffset = 0 ∧ bounds.first < seg then 0 else last.blockOffset⟩

/-- The entries found under several keys of the index. -/
def entriesAt (em : EM) (keys : List IndexKey) : Option (List EMEntry) :=
  getEmIdentsByLbids em (keys.flatMap em.index.find)

/-- Steps one to three of `_createColumnExtent_DBroot`; `none` when the index names an LBID that
the tree does not have. -/
def choosePlace (cfg : Config) (em : EM) (oid : Int) (colWidth dbRoot partitionNum : Nat) :
    Option Place := do
  let own ← getEmIdentsByLbids em (em.index.findOID dbRoot oid)
  let others := cfg.dbRoots.filter (· ≠ dbRoot)
  match own.foldl laterExtent none with
  | none =>
    let there ← entriesAt em (others.map (⟨·, oid, partitionNum⟩))
    pure ⟨partitionNum, ((there.foldl higherSeg none).map nextSegment).getD 0, 0⟩
  | some last =>
    let here := cfg.dbRoots.filter (· = dbRoot)
    let ownLast ← entriesAt em (here.map (⟨·, oid, last.partitionNum⟩))
    let othersNext ← entriesAt em (others.map (⟨·, oid, nextPartition last.partitionNum⟩))
    let othersLast ← entriesAt em (others.map (⟨·, oid, last.partitionNum⟩))
    pure (nextPlace cfg colWidth last (scanPartition last ownLast othersLast othersNext))

/-- `createColumnExtent_DBroot`: returns the first LBID and the place. -/
def createColumnExtentDBroot (cfg : Config) (oid : Int) (colWidth dbRoot : Nat)
    (colDataType : ColDataType) (partitionNum : Nat) : Op (Nat × Place) := do
  let size := extentSize colWidth / 1024
  let startLBID ← getLBIDsFromFreeList size
  let em ← get
  let place ← orThrow .lbidNotAllocated (choosePlace cfg em oid colWidth dbRoot partitionNum)
  insertExtent (columnEntry startLBID size oid colWidth dbRoot colDataType place)
  pure (startLBID, place)

/-- One column of `createStripeColumnExtents`. -/
structure StripeColumn where
  oid : Int
  width : Nat
  colDataType : ColDataType

/-- `createStripeColumnExtents`. The partition chosen for a column is the one requested for the
next; each column has to get the partition and segment of the first. -/
def createStripeColumnExtents (cfg : Config) (cols : List StripeColumn)
    (dbRoot partitionNum : Nat) :
    Op Unit := do
  let _ ← cols.foldlM (fun (carried : Nat × Option Place) col => do
    let (_, place) ← createColumnExtentDBroot cfg col.oid col.width dbRoot col.colDataType carried.1
    match carried.2 with
    | none => pure (place.partitionNum, some place)
    | some baseline =>
      if place.segmentNum ≠ baseline.segmentNum ∨ place.partitionNum ≠ baseline.partitionNum then
        throw .inconsistentStripe
      else pure (place.partitionNum, some baseline)) (partitionNum, none)

/-- The last extent of a segment file among the entries of its partition. -/
def lastOfSegment (segmentNum : Nat) (entries : List EMEntry) : Option EMEntry :=
  entries.foldl (fun last e =>
    if e.segmentNum = segmentNum ∧ (last.map (·.blockOffset)).getD 0 ≤ e.blockOffset then some e
    else last) none

/-- The block offset after an extent of the file. -/
def offsetAfter (last : Option EMEntry) : Nat :=
  (last.map fun e => (e.range.size * 1024 + e.blockOffset) % 2 ^ 32).getD 0

def createColumnExtentExactFile (oid : Int) (colWidth dbRoot partitionNum segmentNum : Nat)
    (colDataType : ColDataType) : Op Nat := do
  let size := extentSize colWidth / 1024
  let startLBID ← getLBIDsFromFreeList size
  let em ← get
  let entries ← orThrow .lbidNotAllocated (entriesAt em [⟨dbRoot, oid, partitionNum⟩])
  let offset := offsetAfter (lastOfSegment segmentNum entries)
  insertExtent (columnEntry startLBID size oid colWidth dbRoot colDataType
    ⟨partitionNum, segmentNum, offset⟩)
  pure startLBID

/-- `createDictStoreExtent`. A later extent of a file takes the fields of the last one. -/
def createDictStoreExtent (oid : Int) (dbRoot partitionNum segmentNum : Nat) : Op Nat := do
  let size := extentSize dictColWidth / 1024
  let startLBID ← getLBIDsFromFreeList size
  let em ← get
  let entries ← orThrow .lbidNotAllocated (entriesAt em [⟨dbRoot, oid, partitionNum⟩])
  let last := lastOfSegment segmentNum entries
  insertExtent
    { range := ⟨startLBID, size⟩
      fileID := oid
      blockOffset := offsetAfter last
      hwm := 0
      partitionNum := (last.map (·.partitionNum)).getD partitionNum
      segmentNum := (last.map (·.segmentNum)).getD segmentNum
      dbRoot := (last.map (·.dbRoot)).getD dbRoot
      colWid := (last.map (·.colWid)).getD 0
      status := .unavailable
      cprange := ⟨⟨BitVec.intMax 128, BitVec.intMin 128⟩, 0, .invalid⟩ }
  pure startLBID

/-- Delete the extents an OID has on a DBRoot; the index is cleaned up at once. -/
def deleteOIDFrom (dbRoot : Nat) (oid : Int) : Op Bool := do
  let em ← get
  let keys ← iterators (em.index.findOID dbRoot oid)
  keys.forM (deleteExtent · false)
  modify fun em => { em with index := em.index.deleteOID dbRoot oid }
  pure (!keys.isEmpty)

/-- `deleteOID`. What is reported is whether the last DBRoot had extents. -/
def deleteOID (cfg : Config) (oid : Int) : Op Unit := do
  let oidExists ← cfg.dbRoots.foldlM (fun _ dbRoot => deleteOIDFrom dbRoot oid) false
  if oidExists then pure () else throw (.noExtentEntries oid)

def deleteOIDs (cfg : Config) (oids : List Int) : Op Unit :=
  cfg.dbRoots.forM fun dbRoot => oids.forM fun oid => do
    let _ ← deleteOIDFrom dbRoot oid

structure LogicalPartition where
  dbroot : Nat
  pp : Nat
  seg : Nat
  deriving DecidableEq, Repr

def EMEntry.logicalPartition (e : EMEntry) : LogicalPartition :=
  ⟨e.dbRoot, e.partitionNum, e.segmentNum⟩

/-- Delete the extents of an OID in one segment file, adding what was found to a set. -/
def deleteSegment (oid : Int) (partition : LogicalPartition)
    (foundPartitions : List LogicalPartition) : Op (List LogicalPartition) := do
  let em ← get
  let keys ← iterators (em.index.find ⟨partition.dbroot, oid, partition.pp⟩)
  keys.foldlM (fun found key => do
    let em ← get
    let e ← orThrow .undefinedBehaviour (em.tree.find? key)
    if e.segmentNum ≠ partition.seg then pure found
    else do
      deleteExtent key true
      pure (found.insert e.logicalPartition)) foundPartitions

/-- `deletePartition`; both arguments are sets. -/
def deletePartition (oids : List Int) (partitionNums : List LogicalPartition) : Op Unit := do
  if oids = [] then pure ()
  else do
    let foundPartitions ← oids.foldlM (fun found oid =>
      partitionNums.foldlM (fun found partition => deleteSegment oid partition found) found) []
    if foundPartitions = [] then throw .noPartitionPerformed
    else if foundPartitions.length ≠ partitionNums.length then throw .partitionNotExist
    else pure ()

def deleteDBRoot (dbRoot : Nat) : Op Unit := do
  let em ← get
  let keys := (em.tree.entries.filter fun e => e.2.dbRoot = dbRoot).map (·.1)
  keys.forM (deleteExtent · true)
  modify fun em => { em with index := em.index.deleteDbRoot dbRoot }

end ExtentMap
