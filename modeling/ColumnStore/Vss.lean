import ColumnStore.ChainedTable
import ColumnStore.Runs

/-!
# The version substitution structure

`VSS` says, for every logical block with more than one version, which versions exist, which of
them lie in the version buffer and which are locked by a running transaction. It is a chained
table keyed by LBID; the hash function is a parameter. A slot whose `lbid` is `-1` in shared
memory is a slot without key here, and a link or bucket of `-1` is `none`.

Locks, segment keys and the text of the log are left out. The checks compiled under `BRM_DEBUG`
are the types: an LBID and a version are natural numbers.
-/

namespace Vss

open ChainedTable ChainedTable.Table

abbrev LBID := Nat

abbrev Ver := Nat

structure VSSData where
  verID : Ver
  vbFlag : Bool
  locked : Bool
  deriving DecidableEq

/-- The shared segment; the extra header field is `lockedEntryCount`. -/
abbrev VSS := Table LBID VSSData Nat

structure LBIDRange where
  start : LBID
  size : Nat
  deriving DecidableEq

def LBIDRange.blocks (range : LBIDRange) : List LBID :=
  List.range' range.start range.size

/-- The snapshot a query reads under. -/
structure QueryContext where
  currentScn : Ver
  txns : List Ver

def storageInitialCount : Nat := 200000

def storageIncrementCount : Nat := 20000

def tableInitialCount : Nat := 50000

def tableIncrement : Nat := 5000

def blank : VSSData := ⟨0, false, false⟩

def initShmseg : VSS :=
  Table.empty
    { capacity := storageInitialCount, currentSize := 0, lowWater := 0,
      numBuckets := tableInitialCount, extra := 0 }
    blank []

/-- `lockedEntryCount` after an entry has gone. -/
def releaseLock (d : VSSData) (lockedEntryCount : Nat) : Nat :=
  if d.locked && 0 < lockedEntryCount then lockedEntryCount - 1 else lockedEntryCount

section Operations

variable (hasher : LBID → Nat)

def bucketOf (v : VSS) (lbid : LBID) : Nat :=
  hasher lbid % v.header.numBuckets

def insert_ (v : VSS) (loading : Bool) (lbid : LBID) (d : VSSData) : VSS :=
  v.insertFree (fun lbid _ => hasher lbid) 1 loading lbid d

def grownHeader (v : VSS) : Header Nat :=
  { v.header with
    capacity := v.header.capacity + storageIncrementCount
    numBuckets := v.header.numBuckets + tableIncrement
    lowWater := 0 }

/-- Copy into a larger segment. Only the first `currentSize` slots are copied, and the undo
records keep pointing into the old segment. -/
def growVSS (v : VSS) : VSS :=
  v.copyUsed (fun lbid _ => hasher lbid) 1 v.header.currentSize
    (Table.empty (grownHeader v) blank v.strandedUndo)

/-- The table an insert works on: a full one grows first. -/
def roomFor (v : VSS) : VSS :=
  if v.header.currentSize = v.header.capacity then growVSS hasher v else v

def insert (v : VSS) (lbid : LBID) (d : VSSData) (loading : Bool) : VSS :=
  let v₁ := insert_ hasher (roomFor hasher v) loading lbid d
  let v₂ := if loading then v₁ else v₁.makeUndoRecord (.currentSize v₁.header.currentSize)
  v₂.setHeader
    { v₂.header with
      currentSize := v₂.header.currentSize + 1
      extra := if d.locked then v₂.header.extra + 1 else v₂.header.extra }

def getIndex (v : VSS) (lbid : LBID) (verID : Ver) : Option (Option Nat × Nat) :=
  findWithPrev (fun i => (v.slots i).key = some lbid ∧ (v.slots i).data.verID = verID) none
    (v.visited (bucketOf hasher v lbid))

/-- Remove one version and, when no version of the block is in the version buffer or locked any
more, all that remain; the block then joins the flush list. -/
def removeEntry (v : VSS) (lbid : LBID) (verID : Ver) (flushList : List LBID) :
    VSS × List LBID :=
  match getIndex hasher v lbid verID with
  | none => (v, flushList)
  | some (prev, index) =>
    let bucket := bucketOf hasher v lbid
    let v₁ := v.unlink bucket prev index
    let v₂ := (v₁.makeUndoRecord (.header v₁.header)).discount releaseLock index
    if (v₂.visited bucket).any fun i =>
        (v₂.slots i).key = some lbid && ((v₂.slots i).data.vbFlag || (v₂.slots i).data.locked)
    then (v₂, flushList)
    else
      ((removeKey releaseLock (fun _ a => a) lbid bucket v₂.header.capacity none
        (v₂.heads bucket) (v₂, ())).1, flushList ++ [lbid])

/-- Remove all versions of the blocks of a range. `dropVB` is what is done to the version
buffer map for each removed version of a block. -/
def removeEntriesFromDB {A : Type} (v : VSS) (range : LBIDRange)
    (dropVB : LBID → VSSData → A → A) (vbbm : A) : VSS × A :=
  range.blocks.foldl
    (fun s lbid =>
      removeKey releaseLock (dropVB lbid) lbid (bucketOf hasher s.1 lbid) s.1.header.capacity none
        (s.1.heads (bucketOf hasher s.1 lbid)) s)
    (v.makeUndoRecord (.header v.header), vbbm)

def setVBFlag (v : VSS) (lbid : LBID) (verID : Ver) (vbFlag : Bool) : Except String VSS :=
  match getIndex hasher v lbid verID with
  | none =>
    .error ("VSS::setVBFlag(): that entry doesn't exist lbid=" ++ toString lbid ++ " ver=" ++
      toString verID)
  | some (_, index) =>
    .ok ((v.makeUndoRecord (.slot index (v.slots index))).setSlot index
      { v.slots index with data := { (v.slots index).data with vbFlag := vbFlag } })

/-- One turn of the loop of `commit`. The header is written without a record of it. -/
def commitSlot (txnID : Ver) (v : VSS) (i : Nat) : VSS :=
  if (v.slots i).key.isSome ∧ (v.slots i).data.verID = txnID then
    let v₁ := (v.makeUndoRecord (.slot i (v.slots i))).setSlot i
      { v.slots i with data := { (v.slots i).data with locked := false } }
    v₁.setHeader
      { v₁.header with
        extra := if 0 < v₁.header.extra then v₁.header.extra - 1 else v₁.header.extra }
  else v

def commit (v : VSS) (txnID : Ver) : VSS :=
  (List.range v.header.capacity).foldl (commitSlot txnID) v

/-- A new segment; records of the old one are not thrown away. -/
def clear (v : VSS) : VSS :=
  { initShmseg with undo := v.strandedUndo }

/-- At least the initial count, rounded up to the next increment point. -/
def loadCapacity (elementCount : Nat) : Nat :=
  let atLeast := if elementCount < storageInitialCount then storageInitialCount else elementCount
  if atLeast % storageIncrementCount ≠ 0 then
    (atLeast / storageIncrementCount + 1) * storageIncrementCount
  else atLeast

def growForLoad (elementCount : Nat) : VSS :=
  Table.empty
    { capacity := loadCapacity elementCount, currentSize := 0, lowWater := 0,
      numBuckets := loadCapacity elementCount / 4, extra := 0 }
    blank []

/-- Load the entries of a saved image, whatever the table held before. -/
def load (loaded : List (LBID × VSSData)) : VSS :=
  loaded.foldl (fun v e => insert hasher v e.1 e.2 true) (growForLoad loaded.length)

/-- The versions of a block, in the order its chain lists them. -/
def versions (v : VSS) (lbid : LBID) : List VSSData :=
  (v.visited (bucketOf hasher v lbid)).filterMap fun i =>
    if (v.slots i).key = some lbid then some (v.slots i).data else none

inductive Lookup
  | found (outVer : Ver) (vbFlag : Bool)
  | snapshotTooOld
  | notFound
  deriving DecidableEq

/-- The loop of `lookup`, with the best entry so far and the least version seen so far. -/
def lookupLoop (verInfo : QueryContext) (txnID : Ver) (vbOnly : Bool) :
    List VSSData → Option VSSData → Option Ver → Lookup
  | [], some maxEntry, _ => .found maxEntry.verID maxEntry.vbFlag
  | [], none, some minVersion =>
    if verInfo.currentScn < minVersion then .snapshotTooOld else .notFound
  | [], none, none => .notFound
  | d :: rest, maxEntry, minVersion =>
    if vbOnly && !d.vbFlag then lookupLoop verInfo txnID vbOnly rest maxEntry minVersion
    -- part of another transaction that was running when the query took its snapshot
    else if txnID ≠ d.verID ∧ d.verID ∈ verInfo.txns then
      lookupLoop verInfo txnID vbOnly rest maxEntry minVersion
    else if verInfo.currentScn = d.verID then .found d.verID d.vbFlag
    else
      lookupLoop verInfo txnID vbOnly rest
        (if d.verID < verInfo.currentScn ∧ maxEntry.all (fun m => m.verID < d.verID)
          then some d else maxEntry)
        (if minVersion.all (fun m => d.verID < m) then some d.verID else minVersion)

def lookup (v : VSS) (lbid : LBID) (verInfo : QueryContext) (txnID : Ver) (vbOnly : Bool) :
    Lookup :=
  lookupLoop verInfo txnID vbOnly (versions hasher v lbid) none none

def getCurrentVersion (v : VSS) (lbid : LBID) : Ver × Bool :=
  match (versions hasher v lbid).find? fun d => !d.vbFlag with
  | some d => (d.verID, d.locked)
  | none => (0, false)

def getHighestVerInVB (v : VSS) (lbid : LBID) (max : Ver) : Option Ver :=
  (versions hasher v lbid).foldl
    (fun ret d =>
      if d.vbFlag ∧ d.verID ≤ max ∧ ret.all (fun r => r < d.verID) then some d.verID else ret)
    none

/-- The first locked entry met decides: one of the caller's own ends the search. -/
def isLockedLoop (v : VSS) (transID : Ver) : List LBID → Bool
  | [] => false
  | lbid :: rest =>
    match (versions hasher v lbid).find? fun d => d.locked with
    | some d => d.verID ≠ transID
    | none => isLockedLoop v transID rest

def isLocked (v : VSS) (range : LBIDRange) (transID : Ver) : Bool :=
  isLockedLoop hasher v transID range.blocks

/-- The version a rollback would return to, while the block is locked. -/
def isEntryLocked (v : VSS) (lbid : LBID) (verID : Ver) : Bool :=
  let listed := versions hasher v lbid
  let rollbackVersion := listed.foldl
    (fun r d => if d.locked then r else if r < d.verID then d.verID else r) 0
  listed.any (fun d => d.locked) && verID == rollbackVersion

def size (v : VSS) : Except String Nat :=
  let actual := ((List.range v.header.capacity).filter fun i => (v.slots i).key.isSome).length
  if actual ≠ v.header.currentSize then
    .error ("VSS: actual size & recorded size disagree.  actual size = " ++ toString actual ++
      " recorded size = " ++ toString v.header.currentSize)
  else .ok actual

end Operations

end Vss
