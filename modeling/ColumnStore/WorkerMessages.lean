import ColumnStore.ByteReaders
import Mathlib.Data.Finset.Dedup

/-!
# Requests to the workers

Model of the requests that the methods of `versioning/BRM/dbrm.cpp` write for the workers and of
the `SlaveComm::do_*` functions of `slavecomm.cpp` that read them. A request is a call of a
method of `DBRM`; `Request.written` is the byte stream of its message. The decoders end with a
call of `SlaveDBRMNode`, and `Request.call` is that call with the values of the request.

Integers are bit patterns of their width, whatever their sign. A vector of plain structures is
written as its memory, so these structures have the bytes that alignment leaves unused as fields.
The vectors and sets that become maps and sets on the way are lists in a request; in a call a
map is a function, and of several entries for a key it has the last one. Replies, the
printing of a journal and the extra flags `firstSlave` and `standalone` are left out.
-/

namespace WorkerMessages

open ByteStrings ByteReaders

abbrev OID := BitVec 32
abbrev LBID := BitVec 64
abbrev HWM := BitVec 32
abbrev VER := BitVec 32

/-- `CalpontSystemCatalog::ColDataType`: 31 enumerators, so the values of the type are those of
five bits. -/
abbrev ColDataType := BitVec 5

structure CreateStripeColumnExtentsArgIn where
  oid : OID
  width : BitVec 32
  colDataType : ColDataType
  deriving DecidableEq

structure BulkSetHWMArg where
  oid : OID
  partNum : BitVec 32
  segNum : BitVec 16
  unused : BitVec 16
  hwm : HWM
  deriving DecidableEq

structure BulkUpdateDBRootArg where
  startLBID : LBID
  dbRoot : BitVec 16
  unused : BitVec 48
  deriving DecidableEq

structure CPInfo where
  firstLbid : LBID
  max : BitVec 64
  min : BitVec 64
  seqNum : BitVec 32
  unused : BitVec 32
  bigMax : BitVec 128
  bigMin : BitVec 128
  isBinaryColumn : Bool
  unusedEnd : BitVec 120
  deriving DecidableEq

structure CPInfoMerge where
  startLbid : LBID
  max : BitVec 64
  min : BitVec 64
  seqNum : BitVec 32
  type : ColDataType
  colWidth : BitVec 32
  newExtent : Bool
  unused : BitVec 88
  bigMax : BitVec 128
  bigMin : BitVec 128
  deriving DecidableEq

/-- The map entries of `setExtentsMaxMin`. -/
structure CPMaxMin where
  max : BitVec 64
  min : BitVec 64
  seqNum : BitVec 32
  bigMax : BitVec 128
  bigMin : BitVec 128
  isBinaryColumn : Bool
  deriving DecidableEq

/-- The map entries of `mergeExtentsMaxMin`. -/
structure CPMaxMinMerge where
  max : BitVec 64
  min : BitVec 64
  seqNum : BitVec 32
  type : ColDataType
  colWidth : BitVec 32
  newExtent : Bool
  bigMax : BitVec 128
  bigMin : BitVec 128
  deriving DecidableEq

structure ExtentInfo where
  oid : OID
  partitionNum : BitVec 32
  segmentNum : BitVec 16
  dbRoot : BitVec 16
  hwm : HWM
  newFile : Bool
  deriving DecidableEq

structure LogicalPartition where
  dbroot : BitVec 16
  pp : BitVec 32
  seg : BitVec 16
  deriving DecidableEq

structure LBIDRange where
  start : LBID
  size : BitVec 32
  deriving DecidableEq

/-- What `ExtentMap::setExtentsMaxMin` reads of an entry: `isBinaryColumn` chooses between the
two pairs of bounds. -/
inductive CPBounds where
  | narrow (seqNum : BitVec 32) (max min : BitVec 64)
  | wide (seqNum : BitVec 32) (bigMax bigMin : BitVec 128)
  deriving DecidableEq

def CPMaxMin.bounds (cp : CPMaxMin) : CPBounds :=
  if cp.isBinaryColumn then .wide cp.seqNum cp.bigMax cp.bigMin
  else .narrow cp.seqNum cp.max cp.min

def CPInfo.bounds (info : CPInfo) : CPBounds :=
  if info.isBinaryColumn then .wide info.seqNum info.bigMax info.bigMin
  else .narrow info.seqNum info.max info.min

def CPInfoMerge.entry (info : CPInfoMerge) : CPMaxMinMerge :=
  ⟨info.max, info.min, info.seqNum, info.type, info.colWidth, info.newExtent, info.bigMax,
    info.bigMin⟩

inductive Call where
  | createStripeColumnExtents (cols : List CreateStripeColumnExtentsArgIn) (dbRoot : BitVec 16)
      (partitionNum : BitVec 32)
  | createColumnExtentDBroot (oid : OID) (colWidth : BitVec 32) (dbRoot : BitVec 16)
      (colDataType : ColDataType) (partitionNum : BitVec 32) (segmentNum : BitVec 16)
  | createColumnExtentExactFile (oid : OID) (colWidth : BitVec 32) (dbRoot : BitVec 16)
      (partitionNum : BitVec 32) (segmentNum : BitVec 16) (colDataType : ColDataType)
  | createDictStoreExtent (oid : OID) (dbRoot : BitVec 16) (partitionNum : BitVec 32)
      (segmentNum : BitVec 16)
  | rollbackColumnExtentsDBroot (oid : OID) (bDeleteAll : Bool) (dbRoot : BitVec 16)
      (partitionNum : BitVec 32) (segmentNum : BitVec 16) (hwm : HWM)
  | rollbackDictStoreExtentsDBroot (oid : OID) (dbRoot : BitVec 16) (partitionNum : BitVec 32)
      (segNums : List (BitVec 16)) (hwms : List HWM)
  | deleteEmptyColExtents (extentsInfo : OID → Option ExtentInfo)
  | deleteEmptyDictStoreExtents (extentsInfo : OID → Option ExtentInfo)
  | deleteOID (oid : OID)
  | deleteOIDs (oids : Finset OID)
  | setLocalHWM (oid : OID) (partitionNum : BitVec 32) (segmentNum : BitVec 16) (hwm : HWM)
  | bulkSetHWM (args : List BulkSetHWMArg) (transID : VER)
  | bulkSetHWMAndCP (hwmArgs : List BulkSetHWMArg) (setCPDataArgs : List CPInfo)
      (mergeCPDataArgs : List CPInfoMerge) (transID : VER)
  | bulkUpdateDBRoot (args : List BulkUpdateDBRootArg)
  | markExtentInvalid (lbid : LBID) (colDataType : ColDataType)
  | markExtentsInvalid (lbids : List LBID) (colDataTypes : List ColDataType)
  | setExtentMaxMin (lbid : LBID) (max min : BitVec 64) (seqNum : BitVec 32)
  | setExtentsMaxMin (cpMap : LBID → Option CPBounds)
  | mergeExtentsMaxMin (cpMap : LBID → Option CPMaxMinMerge)
  | deletePartition (oids : Finset OID) (partitionNums : Finset LogicalPartition)
  | markPartitionForDeletion (oids : Finset OID) (partitionNums : Finset LogicalPartition)
  | markAllPartitionForDeletion (oids : Finset OID)
  | restorePartition (oids : Finset OID) (partitionNums : Finset LogicalPartition)
  | deleteDBRoot (dbroot : BitVec 16)
  | writeVBEntry (transID : VER) (lbid : LBID) (vbOID : OID) (vbFBO : BitVec 32)
  | bulkWriteVBEntry (transID : VER) (lbids : List LBID) (vbOID : OID) (vbFBOs : List (BitVec 32))
  | beginVBCopy (transID : VER) (dbRoot : BitVec 16) (ranges : List LBIDRange)
  | endVBCopy (transID : VER) (ranges : List LBIDRange)
  | vbRollbackRanges (transID : VER) (lbidList : List LBIDRange)
  | vbRollback (transID : VER) (lbidList : List LBID)
  | vbCommit (transID : VER)
  | dmlLockLBIDRanges (ranges : List LBIDRange) (txnID : BitVec 32)
  | dmlReleaseLBIDRanges (ranges : List LBIDRange)

/-- The methods with their input arguments. -/
inductive Request where
  | createStripeColumnExtents (cols : List CreateStripeColumnExtentsArgIn) (dbRoot : BitVec 16)
      (partitionNum : BitVec 32)
  | createColumnExtentDBroot (oid : OID) (colWidth : BitVec 32) (dbRoot : BitVec 16)
      (partitionNum : BitVec 32) (segmentNum : BitVec 16) (colDataType : ColDataType)
  | createColumnExtentExactFile (oid : OID) (colWidth : BitVec 32) (dbRoot : BitVec 16)
      (partitionNum : BitVec 32) (segmentNum : BitVec 16) (colDataType : ColDataType)
  | createDictStoreExtent (oid : OID) (dbRoot : BitVec 16) (partitionNum : BitVec 32)
      (segmentNum : BitVec 16)
  | rollbackColumnExtentsDBroot (oid : OID) (bDeleteAll : Bool) (dbRoot : BitVec 16)
      (partitionNum : BitVec 32) (segmentNum : BitVec 16) (hwm : HWM)
  | rollbackDictStoreExtentsDBroot (oid : OID) (dbRoot : BitVec 16) (partitionNum : BitVec 32)
      (segNums : List (BitVec 16)) (hwms : List HWM)
  | deleteEmptyColExtents (extentsInfo : List ExtentInfo)
  | deleteEmptyDictStoreExtents (extentsInfo : List ExtentInfo)
  | deleteOID (oid : OID)
  | deleteOIDs (oids : List OID)
  | setLocalHWM (oid : OID) (partitionNum : BitVec 32) (segmentNum : BitVec 16) (hwm : HWM)
  | bulkSetHWM (args : List BulkSetHWMArg) (transID : VER)
  | bulkSetHWMAndCP (hwmArgs : List BulkSetHWMArg) (setCPDataArgs : List CPInfo)
      (mergeCPDataArgs : List CPInfoMerge) (transID : VER)
  | bulkUpdateDBRoot (args : List BulkUpdateDBRootArg)
  | markExtentInvalid (lbid : LBID) (colDataType : ColDataType)
  | markExtentsInvalid (lbids : List LBID) (colDataTypes : List ColDataType)
  | setExtentMaxMin (lbid : LBID) (max min : BitVec 64) (seqNum : BitVec 32)
  | setExtentsMaxMin (cpInfos : List CPInfo)
  | mergeExtentsMaxMin (cpInfos : List CPInfoMerge)
  | deletePartition (oids : List OID) (partitionNums : List LogicalPartition)
  | markPartitionForDeletion (oids : List OID) (partitionNums : List LogicalPartition)
  | markAllPartitionForDeletion (oids : List OID)
  | restorePartition (oids : List OID) (partitionNums : List LogicalPartition)
  | deleteDBRoot (dbroot : BitVec 16)
  | writeVBEntry (transID : VER) (lbid : LBID) (vbOID : OID) (vbFBO : BitVec 32)
  | bulkWriteVBEntry (transID : VER) (lbids : List LBID) (vbOID : OID) (vbFBOs : List (BitVec 32))
  | beginVBCopy (transID : VER) (dbRoot : BitVec 16) (ranges : List LBIDRange)
  | endVBCopy (transID : VER) (ranges : List LBIDRange)
  | vbRollbackRanges (transID : VER) (lbidList : List LBIDRange)
  | vbRollback (transID : VER) (lbidList : List LBID)
  | vbCommit (transID : VER)
  | dmlLockLBIDRanges (ranges : List LBIDRange) (txnID : BitVec 32)
  | dmlReleaseLBIDRanges (ranges : List LBIDRange)
  deriving DecidableEq

/-- The last of the items with a key. -/
def lastWith {K α : Type} [DecidableEq K] (key : α → K) (list : List α) (k : K) : Option α :=
  list.reverse.find? fun a => decide (key a = k)

/-- The call of `SlaveDBRMNode` with the values of a request. -/
def Request.call : Request → Call
  | .createStripeColumnExtents cols dbRoot partitionNum =>
    .createStripeColumnExtents cols dbRoot partitionNum
  | .createColumnExtentDBroot oid colWidth dbRoot partitionNum segmentNum colDataType =>
    .createColumnExtentDBroot oid colWidth dbRoot colDataType partitionNum segmentNum
  | .createColumnExtentExactFile oid colWidth dbRoot partitionNum segmentNum colDataType =>
    .createColumnExtentExactFile oid colWidth dbRoot partitionNum segmentNum colDataType
  | .createDictStoreExtent oid dbRoot partitionNum segmentNum =>
    .createDictStoreExtent oid dbRoot partitionNum segmentNum
  | .rollbackColumnExtentsDBroot oid bDeleteAll dbRoot partitionNum segmentNum hwm =>
    .rollbackColumnExtentsDBroot oid bDeleteAll dbRoot partitionNum segmentNum hwm
  | .rollbackDictStoreExtentsDBroot oid dbRoot partitionNum segNums hwms =>
    .rollbackDictStoreExtentsDBroot oid dbRoot partitionNum segNums hwms
  | .deleteEmptyColExtents extentsInfo =>
    .deleteEmptyColExtents (lastWith ExtentInfo.oid extentsInfo)
  | .deleteEmptyDictStoreExtents extentsInfo =>
    .deleteEmptyDictStoreExtents (lastWith ExtentInfo.oid extentsInfo)
  | .deleteOID oid => .deleteOID oid
  | .deleteOIDs oids => .deleteOIDs oids.toFinset
  | .setLocalHWM oid partitionNum segmentNum hwm => .setLocalHWM oid partitionNum segmentNum hwm
  | .bulkSetHWM args transID => .bulkSetHWM args transID
  | .bulkSetHWMAndCP hwmArgs setCPDataArgs mergeCPDataArgs transID =>
    .bulkSetHWMAndCP hwmArgs setCPDataArgs mergeCPDataArgs transID
  | .bulkUpdateDBRoot args => .bulkUpdateDBRoot args
  | .markExtentInvalid lbid colDataType => .markExtentInvalid lbid colDataType
  | .markExtentsInvalid lbids colDataTypes => .markExtentsInvalid lbids colDataTypes
  | .setExtentMaxMin lbid max min seqNum => .setExtentMaxMin lbid max min seqNum
  | .setExtentsMaxMin cpInfos =>
    .setExtentsMaxMin fun lbid => (lastWith CPInfo.firstLbid cpInfos lbid).map CPInfo.bounds
  | .mergeExtentsMaxMin cpInfos =>
    .mergeExtentsMaxMin fun lbid =>
      (lastWith CPInfoMerge.startLbid cpInfos lbid).map CPInfoMerge.entry
  | .deletePartition oids partitionNums => .deletePartition oids.toFinset partitionNums.toFinset
  | .markPartitionForDeletion oids partitionNums =>
    .markPartitionForDeletion oids.toFinset partitionNums.toFinset
  | .markAllPartitionForDeletion oids => .markAllPartitionForDeletion oids.toFinset
  | .restorePartition oids partitionNums => .restorePartition oids.toFinset partitionNums.toFinset
  | .deleteDBRoot dbroot => .deleteDBRoot dbroot
  | .writeVBEntry transID lbid vbOID vbFBO => .writeVBEntry transID lbid vbOID vbFBO
  | .bulkWriteVBEntry transID lbids vbOID vbFBOs => .bulkWriteVBEntry transID lbids vbOID vbFBOs
  | .beginVBCopy transID dbRoot ranges => .beginVBCopy transID dbRoot ranges
  | .endVBCopy transID ranges => .endVBCopy transID ranges
  | .vbRollbackRanges transID lbidList => .vbRollbackRanges transID lbidList
  | .vbRollback transID lbidList => .vbRollback transID lbidList
  | .vbCommit transID => .vbCommit transID
  | .dmlLockLBIDRanges ranges txnID => .dmlLockLBIDRanges ranges txnID
  | .dmlReleaseLBIDRanges ranges => .dmlReleaseLBIDRanges ranges

/-- A `bool` in a message or in memory. -/
def boolByte (b : Bool) : List Byte := [if b then 1 else 0]

/-- The four bytes of an enumerator. -/
def typeBytes (type : ColDataType) : List Byte := bytes 4 (type.setWidth 32)

/-- The memory of the structures. -/
def CreateStripeColumnExtentsArgIn.memory (a : CreateStripeColumnExtentsArgIn) : List Byte :=
  bytes 4 a.oid ++ (bytes 4 a.width ++ typeBytes a.colDataType)

@[inherit_doc CreateStripeColumnExtentsArgIn.memory]
def BulkSetHWMArg.memory (a : BulkSetHWMArg) : List Byte :=
  bytes 4 a.oid ++ (bytes 4 a.partNum ++ (bytes 2 a.segNum ++ (bytes 2 a.unused ++ bytes 4 a.hwm)))

@[inherit_doc CreateStripeColumnExtentsArgIn.memory]
def BulkUpdateDBRootArg.memory (a : BulkUpdateDBRootArg) : List Byte :=
  bytes 8 a.startLBID ++ (bytes 2 a.dbRoot ++ bytes 6 a.unused)

@[inherit_doc CreateStripeColumnExtentsArgIn.memory]
def CPInfo.memory (a : CPInfo) : List Byte :=
  bytes 8 a.firstLbid ++ (bytes 8 a.max ++ (bytes 8 a.min ++ (bytes 4 a.seqNum ++
    (bytes 4 a.unused ++ (bytes 16 a.bigMax ++ (bytes 16 a.bigMin ++
      (boolByte a.isBinaryColumn ++ bytes 15 a.unusedEnd)))))))

@[inherit_doc CreateStripeColumnExtentsArgIn.memory]
def CPInfoMerge.memory (a : CPInfoMerge) : List Byte :=
  bytes 8 a.startLbid ++ (bytes 8 a.max ++ (bytes 8 a.min ++ (bytes 4 a.seqNum ++
    (typeBytes a.type ++ (bytes 4 a.colWidth ++ (boolByte a.newExtent ++ (bytes 11 a.unused ++
      (bytes 16 a.bigMax ++ bytes 16 a.bigMin))))))))

def rangeV2Magic : BitVec 64 := 0x80000000ffff0000

def LBIDRange.serialize (r : LBIDRange) : List Byte :=
  bytes 8 rangeV2Magic ++ (bytes 8 r.start ++ bytes 4 r.size)

def LogicalPartition.serialize (p : LogicalPartition) : List Byte :=
  bytes 2 p.dbroot ++ (bytes 4 p.pp ++ bytes 2 p.seg)

/-- `serializeVector`, `serializeInlineVector` and `serializeSet`: the number of elements in eight
bytes and the elements. -/
def serializeVector {α : Type} (write : α → List Byte) (v : List α) : List Byte :=
  bytes 8 (BitVec.ofNat 64 v.length) ++ v.flatMap write

/-- The number of elements in four bytes and the elements. -/
def counted {α : Type} (write : α → List Byte) (v : List α) : List Byte :=
  bytes 4 (BitVec.ofNat 32 v.length) ++ v.flatMap write

/-- What a method writes. `markExtentsInvalid` reads past the end of a vector of types that is
too short, and `setExtentsMaxMin` sends nothing for an empty list. -/
inductive Written where
  | outOfBounds
  | nothing
  | message (bytes : List Byte)
  deriving DecidableEq

def writeColExtent (info : ExtentInfo) : List Byte :=
  bytes 4 info.oid ++ (bytes 4 info.partitionNum ++ (bytes 2 info.segmentNum ++
    (bytes 2 info.dbRoot ++ bytes 4 info.hwm)))

def writeDictExtent (info : ExtentInfo) : List Byte :=
  bytes 4 info.oid ++ (bytes 4 info.partitionNum ++ (bytes 2 info.segmentNum ++
    (bytes 2 info.dbRoot ++ (bytes 4 info.hwm ++ boolByte info.newFile))))

def writeCPInfo (info : CPInfo) : List Byte :=
  if info.isBinaryColumn then
    [1] ++ (bytes 8 info.firstLbid ++ (bytes 16 info.bigMax ++ (bytes 16 info.bigMin ++
      bytes 4 info.seqNum)))
  else
    [0] ++ (bytes 8 info.firstLbid ++ (bytes 8 info.max ++ (bytes 8 info.min ++
      bytes 4 info.seqNum)))

def writeCPInfoMerge (info : CPInfoMerge) : List Byte :=
  bytes 8 info.startLbid ++ (bytes 8 info.max ++ (bytes 8 info.min ++ (bytes 4 info.seqNum ++
    (typeBytes info.type ++ bytes 4 (BitVec.ofNat 32 info.newExtent.toNat)))))

/-- The partitions and the OIDs of the partition commands. -/
def writePartitions (oids : List OID) (partitionNums : List LogicalPartition) : List Byte :=
  serializeVector LogicalPartition.serialize partitionNums ++ counted (bytes 4) oids

/-- The function identifiers. -/
inductive Command where
  | deleteOID | writeVBEntry | beginVBCopy | endVBCopy | vbRollback1 | vbRollback2 | vbCommit
  | markExtentInvalid | markManyExtentsInvalid | setExtentMaxMin | deleteEmptyColExtents
  | deleteEmptyDictStoreExtents | setManyExtentsMaxMin | createDictStoreExtent | setLocalHWM
  | deleteOIDs | mergeManyExtentsMaxMin | deletePartition | markPartitionForDeletion
  | restorePartition | createColumnExtentDBroot | bulkSetHWM | rollbackColumnExtentsDBroot
  | rollbackDictStoreExtentsDBroot | bulkSetHWMAndCP | markAllPartitionForDeletion
  | createColumnExtentExactFile | deleteDBRoot | createStripeColumnExtents
  | lockLBIDRanges | releaseLBIDRanges | bulkUpdateDBRoot | bulkWriteVBEntry
  deriving DecidableEq, Repr

def Command.code : Command → Byte
  | .deleteOID => 1
  | .writeVBEntry => 3
  | .beginVBCopy => 4
  | .endVBCopy => 5
  | .vbRollback1 => 6
  | .vbRollback2 => 7
  | .vbCommit => 8
  | .markExtentInvalid => 18
  | .markManyExtentsInvalid => 19
  | .setExtentMaxMin => 21
  | .deleteEmptyColExtents => 24
  | .deleteEmptyDictStoreExtents => 25
  | .setManyExtentsMaxMin => 26
  | .createDictStoreExtent => 28
  | .setLocalHWM => 29
  | .deleteOIDs => 30
  | .mergeManyExtentsMaxMin => 32
  | .deletePartition => 33
  | .markPartitionForDeletion => 34
  | .restorePartition => 35
  | .createColumnExtentDBroot => 36
  | .bulkSetHWM => 37
  | .rollbackColumnExtentsDBroot => 38
  | .rollbackDictStoreExtentsDBroot => 39
  | .bulkSetHWMAndCP => 40
  | .markAllPartitionForDeletion => 41
  | .createColumnExtentExactFile => 42
  | .deleteDBRoot => 43
  | .createStripeColumnExtents => 44
  | .lockLBIDRanges => 90
  | .releaseLBIDRanges => 91
  | .bulkUpdateDBRoot => 100
  | .bulkWriteVBEntry => 102

/-- A message is the identifier and the arguments. -/
def command (id : Command) (arguments : List Byte) : Written := .message (id.code :: arguments)

/-- What the methods of `DBRM` send. -/
def Request.written : Request → Written
  | .createStripeColumnExtents cols dbRoot partitionNum =>
    command .createStripeColumnExtents
      (serializeVector CreateStripeColumnExtentsArgIn.memory cols ++ (bytes 2 dbRoot ++
        bytes 4 partitionNum))
  | .createColumnExtentDBroot oid colWidth dbRoot partitionNum segmentNum colDataType =>
    -- the variable tmp8 has the type uint32_t
    command .createColumnExtentDBroot
      (bytes 4 oid ++ (bytes 4 colWidth ++ (bytes 2 dbRoot ++ (bytes 4 partitionNum ++
        (bytes 2 segmentNum ++ bytes 4 ((colDataType.setWidth 8).setWidth 32))))))
  | .createColumnExtentExactFile oid colWidth dbRoot partitionNum segmentNum colDataType =>
    command .createColumnExtentExactFile
      (bytes 4 oid ++ (bytes 4 colWidth ++ (bytes 2 dbRoot ++ (bytes 4 partitionNum ++
        (bytes 2 segmentNum ++ bytes 1 (colDataType.setWidth 8))))))
  | .createDictStoreExtent oid dbRoot partitionNum segmentNum =>
    command .createDictStoreExtent
      (bytes 4 oid ++ (bytes 2 dbRoot ++ (bytes 4 partitionNum ++ bytes 2 segmentNum)))
  | .rollbackColumnExtentsDBroot oid bDeleteAll dbRoot partitionNum segmentNum hwm =>
    command .rollbackColumnExtentsDBroot
      (bytes 4 oid ++ (boolByte bDeleteAll ++ (bytes 2 dbRoot ++ (bytes 4 partitionNum ++
        (bytes 2 segmentNum ++ bytes 4 hwm)))))
  | .rollbackDictStoreExtentsDBroot oid dbRoot partitionNum segNums hwms =>
    command .rollbackDictStoreExtentsDBroot
      (bytes 4 oid ++ (bytes 2 dbRoot ++ (bytes 4 partitionNum ++
        (serializeVector (bytes 2) segNums ++ serializeVector (bytes 4) hwms))))
  | .deleteEmptyColExtents extentsInfo =>
    command .deleteEmptyColExtents (counted writeColExtent extentsInfo)
  | .deleteEmptyDictStoreExtents extentsInfo =>
    command .deleteEmptyDictStoreExtents (counted writeDictExtent extentsInfo)
  | .deleteOID oid => command .deleteOID (bytes 4 oid)
  | .deleteOIDs oids => command .deleteOIDs (counted (bytes 4) oids)
  | .setLocalHWM oid partitionNum segmentNum hwm =>
    command .setLocalHWM
      (bytes 4 oid ++ (bytes 4 partitionNum ++ (bytes 2 segmentNum ++ bytes 4 hwm)))
  | .bulkSetHWM args transID =>
    command .bulkSetHWM (serializeVector BulkSetHWMArg.memory args ++ bytes 4 transID)
  | .bulkSetHWMAndCP hwmArgs setCPDataArgs mergeCPDataArgs transID =>
    command .bulkSetHWMAndCP
      (serializeVector BulkSetHWMArg.memory hwmArgs ++
        (serializeVector CPInfo.memory setCPDataArgs ++
        (serializeVector CPInfoMerge.memory mergeCPDataArgs ++ bytes 4 transID)))
  | .bulkUpdateDBRoot args =>
    command .bulkUpdateDBRoot (serializeVector BulkUpdateDBRootArg.memory args)
  | .markExtentInvalid lbid colDataType =>
    command .markExtentInvalid (bytes 8 lbid ++ typeBytes colDataType)
  | .markExtentsInvalid lbids colDataTypes =>
    if colDataTypes.length < lbids.length then .outOfBounds
    else
      command .markManyExtentsInvalid
        (bytes 4 (BitVec.ofNat 32 lbids.length) ++
          (lbids.zip colDataTypes).flatMap fun (lbid, type) => bytes 8 lbid ++ typeBytes type)
  | .setExtentMaxMin lbid max min seqNum =>
    command .setExtentMaxMin
      (bytes 8 lbid ++ (bytes 8 max ++ (bytes 8 min ++ bytes 8 (seqNum.signExtend 64))))
  | .setExtentsMaxMin cpInfos =>
    if cpInfos = [] then .nothing
    else command .setManyExtentsMaxMin (counted writeCPInfo cpInfos)
  | .mergeExtentsMaxMin cpInfos =>
    command .mergeManyExtentsMaxMin (counted writeCPInfoMerge cpInfos)
  | .deletePartition oids partitionNums =>
    command .deletePartition (writePartitions oids partitionNums)
  | .markPartitionForDeletion oids partitionNums =>
    command .markPartitionForDeletion (writePartitions oids partitionNums)
  | .markAllPartitionForDeletion oids =>
    command .markAllPartitionForDeletion (counted (bytes 4) oids)
  | .restorePartition oids partitionNums =>
    command .restorePartition (writePartitions oids partitionNums)
  | .deleteDBRoot dbroot => command .deleteDBRoot (bytes 4 (dbroot.setWidth 32))
  | .writeVBEntry transID lbid vbOID vbFBO =>
    command .writeVBEntry (bytes 4 transID ++ (bytes 8 lbid ++ (bytes 4 vbOID ++ bytes 4 vbFBO)))
  | .bulkWriteVBEntry transID lbids vbOID vbFBOs =>
    command .bulkWriteVBEntry
      (bytes 4 transID ++ (serializeVector (bytes 8) lbids ++ (bytes 4 vbOID ++
        serializeVector (bytes 4) vbFBOs)))
  | .beginVBCopy transID dbRoot ranges =>
    command .beginVBCopy
      (bytes 4 transID ++ (bytes 2 dbRoot ++ serializeVector LBIDRange.serialize ranges))
  | .endVBCopy transID ranges =>
    command .endVBCopy (bytes 4 transID ++ serializeVector LBIDRange.serialize ranges)
  | .vbRollbackRanges transID lbidList =>
    command .vbRollback1 (bytes 4 transID ++ serializeVector LBIDRange.serialize lbidList)
  | .vbRollback transID lbidList =>
    command .vbRollback2 (bytes 4 transID ++ serializeVector (bytes 8) lbidList)
  | .vbCommit transID => command .vbCommit (bytes 4 transID)
  | .dmlLockLBIDRanges ranges txnID =>
    command .lockLBIDRanges (serializeVector LBIDRange.serialize ranges ++ bytes 4 txnID)
  | .dmlReleaseLBIDRanges ranges =>
    command .releaseLBIDRanges (serializeVector LBIDRange.serialize ranges)

def u8 : Reader (BitVec 8) := word 1
def u16 : Reader (BitVec 16) := word 2
def u32 : Reader (BitVec 32) := word 4
def u64 : Reader (BitVec 64) := word 8
def u128 : Reader (BitVec 128) := word 16

/-- A byte taken as a `bool`. -/
def readBool : Reader Bool := do return (← u8) != 0

/-- An enumerator in four bytes. -/
def readType : Reader ColDataType := do return (← u32).setWidth 5

/-- `deserializeVector` and `deserializeInlineVector`. -/
def deserializeVector {α : Type} (item : Reader α) : Reader (List α) := do
  let size ← u64
  items item size.toNat

/-- The number of elements in four bytes and the elements. -/
def readCounted {α : Type} (item : Reader α) : Reader (List α) := do
  let size ← u32
  items item size.toNat

def CreateStripeColumnExtentsArgIn.read : Reader CreateStripeColumnExtentsArgIn := do
  let oid ← u32
  let width ← u32
  let colDataType ← readType
  return ⟨oid, width, colDataType⟩

def BulkSetHWMArg.read : Reader BulkSetHWMArg := do
  let oid ← u32
  let partNum ← u32
  let segNum ← u16
  let unused ← u16
  let hwm ← u32
  return ⟨oid, partNum, segNum, unused, hwm⟩

def BulkUpdateDBRootArg.read : Reader BulkUpdateDBRootArg := do
  let startLBID ← u64
  let dbRoot ← u16
  let unused ← word 6
  return ⟨startLBID, dbRoot, unused⟩

def CPInfo.read : Reader CPInfo := do
  let firstLbid ← u64
  let max ← u64
  let min ← u64
  let seqNum ← u32
  let unused ← u32
  let bigMax ← u128
  let bigMin ← u128
  let isBinaryColumn ← readBool
  let unusedEnd ← word 15
  return ⟨firstLbid, max, min, seqNum, unused, bigMax, bigMin, isBinaryColumn, unusedEnd⟩

def CPInfoMerge.read : Reader CPInfoMerge := do
  let startLbid ← u64
  let max ← u64
  let min ← u64
  let seqNum ← u32
  let type ← readType
  let colWidth ← u32
  let newExtent ← readBool
  let unused ← word 11
  let bigMax ← u128
  let bigMin ← u128
  return ⟨startLbid, max, min, seqNum, type, colWidth, newExtent, unused, bigMax, bigMin⟩

/-- `LBIDRange::deserialize`, with the two 32-bit numbers of version 1. -/
def LBIDRange.deserialize : Reader LBIDRange := do
  let tmp ← u64
  if tmp = rangeV2Magic then do
    let start ← u64
    let size ← u32
    return ⟨start, size⟩
  else return ⟨(tmp.setWidth 32).setWidth 64, (tmp >>> 32).setWidth 32⟩

def LogicalPartition.unserialize : Reader LogicalPartition := do
  let dbroot ← u16
  let pp ← u32
  let seg ← u16
  return ⟨dbroot, pp, seg⟩

/-- What the local variables that are not initialised hold. -/
structure Locals where
  cpMaxMin : CPMaxMin
  cpMaxMinMerge : CPMaxMinMerge

/-- The variable `tmp32` has the type `uint16_t`. -/
def doCreateStripeColumnExtents : Reader Call := do
  let cols ← deserializeVector CreateStripeColumnExtentsArgIn.read
  let dbRoot ← u16
  let tmp32 ← u16
  return .createStripeColumnExtents cols dbRoot (tmp32.setWidth 32)

def doCreateColumnExtentDBroot : Reader Call := do
  let oid ← u32
  let colWidth ← u32
  let dbRoot ← u16
  let partitionNum ← u32
  let segmentNum ← u16
  let tmp8 ← u8
  return .createColumnExtentDBroot oid colWidth dbRoot (tmp8.setWidth 5) partitionNum segmentNum

def doCreateColumnExtentExactFile : Reader Call := do
  let oid ← u32
  let colWidth ← u32
  let dbRoot ← u16
  let partitionNum ← u32
  let segmentNum ← u16
  let tmp8 ← u8
  return .createColumnExtentExactFile oid colWidth dbRoot partitionNum segmentNum (tmp8.setWidth 5)

def doCreateDictStoreExtent : Reader Call := do
  let oid ← u32
  let dbRoot ← u16
  let partitionNum ← u32
  let segmentNum ← u16
  return .createDictStoreExtent oid dbRoot partitionNum segmentNum

def doRollbackColumnExtentsDBroot : Reader Call := do
  let oid ← u32
  let bDeleteAll ← readBool
  let dbRoot ← u16
  let partitionNum ← u32
  let segmentNum ← u16
  let hwm ← u32
  return .rollbackColumnExtentsDBroot oid bDeleteAll dbRoot partitionNum segmentNum hwm

def doRollbackDictStoreExtentsDBroot : Reader Call := do
  let oid ← u32
  let dbRoot ← u16
  let partitionNum ← u32
  let segNums ← deserializeVector u16
  let hwms ← deserializeVector u32
  return .rollbackDictStoreExtentsDBroot oid dbRoot partitionNum segNums hwms

/-- One round of `do_deleteEmptyColExtents`: the fields of `extentsInfoMap[oid]` are set, except
`newFile`, which is false in an entry that the map makes. -/
def readColExtent (extentsInfoMap : OID → Option ExtentInfo) :
    Reader (OID → Option ExtentInfo) := do
  let oid ← u32
  let partitionNum ← u32
  let segmentNum ← u16
  let dbRoot ← u16
  let hwm ← u32
  let newFile := ((extentsInfoMap oid).map ExtentInfo.newFile).getD false
  return Function.update extentsInfoMap oid
    (some ⟨oid, partitionNum, segmentNum, dbRoot, hwm, newFile⟩)

def doDeleteEmptyColExtents : Reader Call := do
  let size ← u32
  let extentsInfoMap ← loop readColExtent size.toNat fun _ => none
  return .deleteEmptyColExtents extentsInfoMap

def readDictExtent (extentsInfoMap : OID → Option ExtentInfo) :
    Reader (OID → Option ExtentInfo) := do
  let oid ← u32
  let partitionNum ← u32
  let segmentNum ← u16
  let dbRoot ← u16
  let hwm ← u32
  let newFile ← readBool
  return Function.update extentsInfoMap oid
    (some ⟨oid, partitionNum, segmentNum, dbRoot, hwm, newFile⟩)

def doDeleteEmptyDictStoreExtents : Reader Call := do
  let size ← u32
  let extentsInfoMap ← loop readDictExtent size.toNat fun _ => none
  return .deleteEmptyDictStoreExtents extentsInfoMap

def doDeleteOID : Reader Call := do
  let oid ← u32
  return .deleteOID oid

def doDeleteOIDs : Reader Call := do
  let oids ← readCounted u32
  return .deleteOIDs oids.toFinset

def doSetLocalHWM : Reader Call := do
  let oid ← u32
  let partitionNum ← u32
  let segmentNum ← u16
  let hwm ← u32
  return .setLocalHWM oid partitionNum segmentNum hwm

def doBulkSetHWM : Reader Call := do
  let args ← deserializeVector BulkSetHWMArg.read
  let transID ← u32
  return .bulkSetHWM args transID

def doBulkSetHWMAndCP : Reader Call := do
  let hwmArgs ← deserializeVector BulkSetHWMArg.read
  let setCPDataArgs ← deserializeVector CPInfo.read
  let mergeCPDataArgs ← deserializeVector CPInfoMerge.read
  let transID ← u32
  return .bulkSetHWMAndCP hwmArgs setCPDataArgs mergeCPDataArgs transID

def doBulkUpdateDBRoot : Reader Call := do
  let args ← deserializeVector BulkUpdateDBRootArg.read
  return .bulkUpdateDBRoot args

def doMarkInvalid : Reader Call := do
  let lbid ← u64
  let colDataType ← readType
  return .markExtentInvalid lbid colDataType

def doMarkManyExtentsInvalid : Reader Call := do
  let pairs ← readCounted do
    let lbid ← u64
    let colDataType ← readType
    return (lbid, colDataType)
  return .markExtentsInvalid (pairs.map Prod.fst) (pairs.map Prod.snd)

def doSetExtentMaxMin : Reader Call := do
  let lbid ← u64
  let max ← u64
  let min ← u64
  let sequence ← u32
  return .setExtentMaxMin lbid max min sequence

/-- One round of `do_setExtentsMaxMin`. The variable `cpMaxMin` keeps the bounds that the round
does not set. -/
def readCPInfo (state : (LBID → Option CPMaxMin) × CPMaxMin) :
    Reader ((LBID → Option CPMaxMin) × CPMaxMin) := do
  let (cpMap, cpMaxMin) := state
  let isBinaryColumn ← readBool
  let lbid ← u64
  if isBinaryColumn then do
    let bigMax ← u128
    let bigMin ← u128
    let seqNum ← u32
    let cpMaxMin := { cpMaxMin with isBinaryColumn, bigMax, bigMin, seqNum }
    return (Function.update cpMap lbid (some cpMaxMin), cpMaxMin)
  else do
    let max ← u64
    let min ← u64
    let seqNum ← u32
    let cpMaxMin := { cpMaxMin with isBinaryColumn, max, min, seqNum }
    return (Function.update cpMap lbid (some cpMaxMin), cpMaxMin)

/-- The counts of the two functions on bounds are taken as signed numbers. -/
def doSetExtentsMaxMin (locals : Locals) : Reader Call := do
  let updateCount ← u32
  let (cpMap, _) ← loop readCPInfo updateCount.toInt.toNat (fun _ => none, locals.cpMaxMin)
  return .setExtentsMaxMin fun lbid => (cpMap lbid).map CPMaxMin.bounds

/-- One round of `do_mergeExtentsMaxMin`. -/
def readCPInfoMerge (state : (LBID → Option CPMaxMinMerge) × CPMaxMinMerge) :
    Reader ((LBID → Option CPMaxMinMerge) × CPMaxMinMerge) := do
  let (cpMap, cpMaxMin) := state
  let startLbid ← u64
  let max ← u64
  let min ← u64
  let seqNum ← u32
  let type ← readType
  let newExtent ← u32
  let cpMaxMin := { cpMaxMin with max, min, seqNum, type, newExtent := newExtent != 0 }
  return (Function.update cpMap startLbid (some cpMaxMin), cpMaxMin)

def doMergeExtentsMaxMin (locals : Locals) : Reader Call := do
  let mergeCount ← u32
  let (cpMap, _) ← loop readCPInfoMerge mergeCount.toInt.toNat (fun _ => none, locals.cpMaxMinMerge)
  return .mergeExtentsMaxMin cpMap

/-- The partitions and the OIDs of the partition commands. -/
def readPartitions (call : Finset OID → Finset LogicalPartition → Call) : Reader Call := do
  let partitionNums ← deserializeVector LogicalPartition.unserialize
  let oids ← readCounted u32
  return call oids.toFinset partitionNums.toFinset

def doDeletePartition : Reader Call := readPartitions .deletePartition

def doMarkPartitionForDeletion : Reader Call := readPartitions .markPartitionForDeletion

def doRestorePartition : Reader Call := readPartitions .restorePartition

def doMarkAllPartitionForDeletion : Reader Call := do
  let oids ← readCounted u32
  return .markAllPartitionForDeletion oids.toFinset

def doDeleteDBRoot : Reader Call := do
  let q ← u32
  return .deleteDBRoot (q.setWidth 16)

def doWriteVBEntry : Reader Call := do
  let transID ← u32
  let lbid ← u64
  let vbOID ← u32
  let vbFBO ← u32
  return .writeVBEntry transID lbid vbOID vbFBO

def doBulkWriteVBEntry : Reader Call := do
  let transID ← u32
  let lbids ← deserializeVector u64
  let vbOID ← u32
  let vbFBOs ← deserializeVector u32
  return .bulkWriteVBEntry transID lbids vbOID vbFBOs

def doBeginVBCopy : Reader Call := do
  let transID ← u32
  let dbRoot ← u16
  let ranges ← deserializeVector LBIDRange.deserialize
  return .beginVBCopy transID dbRoot ranges

def doEndVBCopy : Reader Call := do
  let transID ← u32
  let ranges ← deserializeVector LBIDRange.deserialize
  return .endVBCopy transID ranges

def doVbRollback1 : Reader Call := do
  let transID ← u32
  let lbidList ← deserializeVector LBIDRange.deserialize
  return .vbRollbackRanges transID lbidList

def doVbRollback2 : Reader Call := do
  let transID ← u32
  let lbidList ← deserializeVector u64
  return .vbRollback transID lbidList

def doVbCommit : Reader Call := do
  let transID ← u32
  return .vbCommit transID

def doDmlLockLBIDRanges : Reader Call := do
  let ranges ← deserializeVector LBIDRange.deserialize
  let txnID ← u32
  return .dmlLockLBIDRanges ranges txnID

def doDmlReleaseLBIDRanges : Reader Call := do
  let ranges ← deserializeVector LBIDRange.deserialize
  return .dmlReleaseLBIDRanges ranges

/-- The decoder of a command. -/
def Command.decoder (locals : Locals) : Command → Reader Call
  | .deleteOID => doDeleteOID
  | .writeVBEntry => doWriteVBEntry
  | .beginVBCopy => doBeginVBCopy
  | .endVBCopy => doEndVBCopy
  | .vbRollback1 => doVbRollback1
  | .vbRollback2 => doVbRollback2
  | .vbCommit => doVbCommit
  | .markExtentInvalid => doMarkInvalid
  | .markManyExtentsInvalid => doMarkManyExtentsInvalid
  | .setExtentMaxMin => doSetExtentMaxMin
  | .deleteEmptyColExtents => doDeleteEmptyColExtents
  | .deleteEmptyDictStoreExtents => doDeleteEmptyDictStoreExtents
  | .setManyExtentsMaxMin => doSetExtentsMaxMin locals
  | .createDictStoreExtent => doCreateDictStoreExtent
  | .setLocalHWM => doSetLocalHWM
  | .deleteOIDs => doDeleteOIDs
  | .mergeManyExtentsMaxMin => doMergeExtentsMaxMin locals
  | .deletePartition => doDeletePartition
  | .markPartitionForDeletion => doMarkPartitionForDeletion
  | .restorePartition => doRestorePartition
  | .createColumnExtentDBroot => doCreateColumnExtentDBroot
  | .bulkSetHWM => doBulkSetHWM
  | .rollbackColumnExtentsDBroot => doRollbackColumnExtentsDBroot
  | .rollbackDictStoreExtentsDBroot => doRollbackDictStoreExtentsDBroot
  | .bulkSetHWMAndCP => doBulkSetHWMAndCP
  | .markAllPartitionForDeletion => doMarkAllPartitionForDeletion
  | .createColumnExtentExactFile => doCreateColumnExtentExactFile
  | .deleteDBRoot => doDeleteDBRoot
  | .createStripeColumnExtents => doCreateStripeColumnExtents
  | .lockLBIDRanges => doDmlLockLBIDRanges
  | .releaseLBIDRanges => doDmlReleaseLBIDRanges
  | .bulkUpdateDBRoot => doBulkUpdateDBRoot
  | .bulkWriteVBEntry => doBulkWriteVBEntry

/-- The commands, in the order of the `switch`. -/
def Command.all : List Command :=
  [.createStripeColumnExtents, .createColumnExtentDBroot, .createColumnExtentExactFile,
    .createDictStoreExtent, .rollbackColumnExtentsDBroot, .rollbackDictStoreExtentsDBroot,
    .deleteEmptyColExtents, .deleteEmptyDictStoreExtents, .deleteOID, .deleteOIDs, .setLocalHWM,
    .bulkSetHWM, .bulkSetHWMAndCP, .writeVBEntry, .bulkWriteVBEntry, .beginVBCopy, .endVBCopy,
    .vbRollback1, .vbRollback2, .vbCommit, .markExtentInvalid, .markManyExtentsInvalid,
    .setExtentMaxMin, .setManyExtentsMaxMin, .mergeManyExtentsMaxMin, .deletePartition,
    .markPartitionForDeletion, .markAllPartitionForDeletion, .restorePartition, .lockLBIDRanges,
    .releaseLBIDRanges, .deleteDBRoot, .bulkUpdateDBRoot]

/-- `processCommand`, for the commands with arguments. -/
def processCommand (locals : Locals) : Reader Call := do
  let cmd ← u8
  match Command.all.find? fun c => c.code = cmd with
  | some c => c.decoder locals
  | none => failure

end WorkerMessages
