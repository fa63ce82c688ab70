import ColumnStore.ByteBuffers
import ColumnStore.RobinHood

/-!
# The hash map of an aggregation

Model of `RowAggStorage` of `utils/rowgroup/rowstorage.cpp` without disk generations: a hash map
from keys to row indices that finds or creates the row of a key. An array of info bytes describes
the slots; a byte is zero for an empty slot, otherwise it holds the distance of the entry from its
home slot and some bits of its hash. A second array has the hash and the row of each entry. If
memory is short and disk aggregation is off, a new generation with empty arrays is started and the
older ones are only searched.

The rows are the list of their keys, by row index; a caller that is given a new row writes its key
there. What the memory manager answers is left open. A read outside an array is the fault
`undefined`; the other faults are the errors of the storage, after which the query ends. Sizes are
numbers without a bound: a table with 2^58 slots does not fit into memory.
-/

namespace RowAggStorage

open ByteBuffers

/-- The errors of the storage, and undefined behaviour. -/
inductive Fault where
  | aggregationTooBig | diskaggOverflow1 | diskaggOverflow2 | diskaggError | undefined
  deriving DecidableEq, Repr

structure RowPosHash where
  hash : BitVec 64
  idx : Nat
  deriving DecidableEq, Repr

structure Data where
  fHashes : List RowPosHash
  fInfo : List Nat
  fSize : Nat
  fMask : Nat
  fMaxSize : Nat
  hashMultiplier : BitVec 64
  fInfoInc : Nat
  fInfoHashShift : Nat
  deriving DecidableEq, Repr

def initSize : Nat := 8

def initInfoBits : Nat := 5

def initInfoInc : Nat := 1 <<< initInfoBits

def infoMask : BitVec 64 := 31

def maxInmemoryGens : Nat := 4

def calcMaxSize (elems : Nat) : Nat :=
  if elems ≤ (2 ^ 64 - 1) / 100 then elems * 80 / 100 else elems / 100 * 80

def calcSizeWithBuffer (elems : Nat) : Nat := elems + min (calcMaxSize elems) 0xFF

def calcBytes (elems : Nat) : Nat := elems + 8

/-- An access to an array. -/
def access {α : Type} : Option α → Except Fault α
  | some a => .ok a
  | none => .error .undefined

/-- The mixed hash of `rowHashToIdx`. -/
def mix (h hashMultiplier : BitVec 64) : BitVec 64 :=
  let h := h * hashMultiplier
  h ^^^ (h >>> 33)

namespace Data

def new (fHashes : List RowPosHash) : Data :=
  ⟨fHashes, [], 0, 0, 0, 0xc4ceb9fe1a85ec53, initInfoInc, 0⟩

/-- `rowHashToIdx`: the info and the slot where the search for a hash begins. -/
def rowHashToIdx (d : Data) (hash : BitVec 64) : Nat × Nat :=
  let h := mix hash d.hashMultiplier
  (d.fInfoInc + (h &&& infoMask).toNat >>> d.fInfoHashShift,
    (h >>> initInfoBits).toNat &&& d.fMask)

end Data

/-- `nextWhileLess`, over the info bytes from slot `idx` on. -/
def nextWhileLess (infoInc : Nat) : Nat → Nat → List Nat → Except Fault (Nat × Nat)
  | _, _, [] => .error .undefined
  | info, idx, b :: rest =>
    if info < b then nextWhileLess infoInc (info + infoInc) (idx + 1) rest else .ok (info, idx)

/-- The loop over the slots with the info searched for: the row found, or where the loop ends. -/
def whileEqual (infoInc : Nat) (check : Nat → Except Fault (Option Nat)) :
    Nat → Nat → List Nat → Except Fault (Nat ⊕ Nat × Nat)
  | _, _, [] => .error .undefined
  | info, idx, b :: rest =>
    if info = b then do
      match ← check idx with
      | some row => .ok (.inl row)
      | none => whileEqual infoInc check (info + infoInc) (idx + 1) rest
    else .ok (.inr (info, idx))

/-- The loop to an empty slot. -/
def findEmpty : Nat → List Nat → Except Fault Nat
  | _, [] => .error .undefined
  | idx, b :: rest => if b ≠ 0 then findEmpty (idx + 1) rest else .ok idx

/-- The loop of `insertSwap` past the infos that are not smaller. -/
def nextWhileLessOrEqual (infoInc : Nat) : Nat → Nat → List Nat → Except Fault (Nat × Nat)
  | _, _, [] => .error .undefined
  | info, idx, b :: rest =>
    if info ≤ b then nextWhileLessOrEqual infoInc (info + infoInc) (idx + 1) rest
    else .ok (info, idx)

namespace Data

/-- The loop of `shiftUp` over `count` info bytes from `idx` down. -/
def shiftInfo (infoInc : Nat) : Nat → Nat → List Nat × Nat → List Nat × Nat
  | 0, _, state => state
  | count + 1, idx, (info, maxSize) =>
    let b := (info.getD (idx - 1) 0 + infoInc) % 256
    shiftInfo infoInc count (idx - 1)
      (info.set idx b, if b + infoInc > 0xFF then 0 else maxSize)

def shiftUp (d : Data) (startIdx insIdx : Nat) : Data :=
  let (info, maxSize) := shiftInfo d.fInfoInc (startIdx - insIdx) startIdx (d.fInfo, d.fMaxSize)
  { d with
    fInfo := info
    fMaxSize := maxSize
    fHashes := splice d.fHashes (insIdx + 1) (slice d.fHashes insIdx (startIdx - insIdx)) }

/-- The end of `getTargetRow` and `insertSwap`: the entry is put where the search ended. -/
def place (d : Data) (insIdx insInfo : Nat) (pos : RowPosHash) : Except Fault Data := do
  let d := if insInfo + d.fInfoInc > 0xFF then { d with fMaxSize := 0 } else d
  let idx ← findEmpty insIdx (d.fInfo.drop insIdx)
  if d.fHashes.length ≤ idx then .error .undefined
  else
    let d := d.shiftUp idx insIdx
    return { d with
      fHashes := d.fHashes.set insIdx pos
      fInfo := d.fInfo.set insIdx (insInfo % 256)
      fSize := d.fSize + 1 }

/-- `tryIncreaseInfo`; the bytes are halved in groups of eight. -/
def tryIncreaseInfo (d : Data) : Option Data :=
  if d.fInfoInc ≤ 2 then none
  else
    let elems := calcSizeWithBuffer (d.fMask + 1)
    let bytes := (elems + 7) / 8 * 8
    some { d with
      fInfoInc := d.fInfoInc >>> 1
      fInfoHashShift := d.fInfoHashShift + 1
      fInfo := ((d.fInfo.take bytes).map (· >>> 1) ++ d.fInfo.drop bytes).set elems 1
      fMaxSize := calcMaxSize (d.fMask + 1) }

def initData (d : Data) (elems : Nat) (granted : Bool) : Except Fault Data :=
  if granted then
    .ok { d with
      fSize := 0
      fMask := elems - 1
      fMaxSize := calcMaxSize elems
      fHashes := List.replicate (elems + 0xFF) ⟨0, 0⟩
      fInfo := (List.replicate (calcBytes (calcSizeWithBuffer elems)) 0).set
        (calcSizeWithBuffer elems) 1
      fInfoInc := initInfoInc
      fInfoHashShift := 0 }
  else .error .aggregationTooBig

/-- `insertSwap`, for the entry at a slot of the old arrays. -/
def insertSwap (d : Data) (pos : RowPosHash) : Except Fault Data := do
  let d ←
    if d.fMaxSize = 0 then
      match d.tryIncreaseInfo with
      | some d => .ok d
      | none => .error .diskaggOverflow1
    else .ok d
  let (info, idx) := d.rowHashToIdx pos.hash
  let (info, idx) ← nextWhileLessOrEqual d.fInfoInc info idx (d.fInfo.drop idx)
  d.place idx (info % 256) pos

/-- The loop of `rehashPowerOfTwo` over the slots of the old arrays. -/
def reinsert (old : Data) : List Nat → Data → Except Fault Data
  | [], d => .ok d
  | i :: rest, d => do
      let b ← access old.fInfo[i]?
      if b ≠ 0 then
        let pos ← access old.fHashes[i]?
        reinsert old rest (← d.insertSwap pos)
      else reinsert old rest d

def rehashPowerOfTwo (d : Data) (elems : Nat) (granted : Bool) : Except Fault Data := do
  let oldSz := calcSizeWithBuffer (d.fMask + 1)
  let new ← d.initData elems granted
  if oldSz > 1 then reinsert d (List.range oldSz) new else return new

/-- The loop of `reserve`: the first size, doubled from `INIT_SIZE`, that is large enough. -/
def reserveSize (minElementsAllowed : Nat) : Option Nat :=
  ((List.range 61).map fun k => initSize * 2 ^ k).find? fun newSize =>
    decide (minElementsAllowed ≤ calcMaxSize newSize)

def reserve (d : Data) (c : Nat) (granted : Bool) : Except Fault Data :=
  match reserveSize (max c d.fSize) with
  | none => .error .diskaggError
  | some newSize => if newSize > d.fMask + 1 then d.rehashPowerOfTwo newSize granted else .ok d

end Data

/-- What a storage is made for: keys that are compared by `Row::equals` and hashed. Equal keys
have equal hashes. -/
structure Keys where
  Key : Type
  equals : Key → Key → Bool
  hash : Key → BitVec 64
  refl : ∀ k, equals k k = true
  symm : ∀ k l, equals k l = true → equals l k = true
  trans : ∀ k l m, equals k l = true → equals l m = true → equals k m = true
  hash_eq : ∀ k l, equals k l = true → hash k = hash l

/-- What the memory manager answers in a call: there is plenty of memory, memory for the arrays is
granted, and memory for a row. -/
structure Memory where
  plenty : Bool
  granted : Bool
  rowGranted : Bool
  deriving DecidableEq, Repr

variable (keys : Keys)

/-- The generations before the current one, oldest first, and the rows of all. -/
structure Storage where
  fEnabledDiskAggregation : Bool
  fInitialized : Bool
  fGens : List Data
  fCurData : Data
  rows : List keys.Key

variable {keys}

namespace Storage

/-- The constructor. -/
def new (fEnabledDiskAggregation : Bool) : Storage keys :=
  ⟨fEnabledDiskAggregation, false, [], .new [], []⟩

def getMaxRows (s : Storage keys) : Nat := if s.fEnabledDiskAggregation then 8192 else 256

/-- `startNewGeneration` without disk aggregation. -/
def startNewGeneration (s : Storage keys) (granted : Bool) : Except Fault (Storage keys) := do
  if granted then
    let data ← (Data.new (List.replicate 0xFF ⟨0, 0⟩)).reserve s.getMaxRows granted
    return { s with fGens := s.fGens ++ [s.fCurData], fCurData := data }
  else .error .aggregationTooBig

def increaseSize (s : Storage keys) (memory : Memory) : Except Fault (Storage keys) := do
  let d ← if s.fCurData.fMask = 0 then s.fCurData.initData initSize memory.granted
    else .ok s.fCurData
  let maxSize := calcMaxSize (d.fMask + 1)
  match if d.fSize < maxSize then d.tryIncreaseInfo else none with
  | some d => return { s with fCurData := d }
  | none =>
    if d.fSize * 2 ^ 31 < maxSize then .error .diskaggOverflow2
    else if s.fEnabledDiskAggregation || memory.plenty then
      if d.fSize * 2 < maxSize then
        let d := { d with hashMultiplier := d.hashMultiplier + 0xc4ceb9fe1a85ec54 }
        return { s with fCurData := ← d.rehashPowerOfTwo (d.fMask + 1) memory.granted }
      else
        return { s with fCurData := ← d.rehashPowerOfTwo ((d.fMask + 1) * 2) memory.granted }
    else if s.fGens.length < maxInmemoryGens - 1 then s.startNewGeneration memory.granted
    else .error .aggregationTooBig

/-- The comparison with the entry in a slot: its row, if it has the key. -/
def check (s : Storage keys) (row : keys.Key) (fHashes : List RowPosHash) (idx : Nat) :
    Except Fault (Option Nat) := do
  let pos ← access fHashes[idx]?
  if pos.hash = keys.hash row then
    let keyRow ← access s.rows[pos.idx]?
    return if keys.equals row keyRow then some pos.idx else none
  else return none

/-- The search in the older generations, newest first. The entry that is compared is the one in
slot `idx`, where the search in the current generation ended. -/
def searchOlder (s : Storage keys) (row : keys.Key) (idx : Nat) :
    List Data → Except Fault (Option Nat)
  | [] => .ok none
  | genData :: rest => do
      let (ginfo, gidx) := genData.rowHashToIdx (keys.hash row)
      let (ginfo, gidx) ← nextWhileLess genData.fInfoInc ginfo gidx (genData.fInfo.drop gidx)
      match ← whileEqual genData.fInfoInc (fun _ => s.check row genData.fHashes idx) ginfo gidx
          (genData.fInfo.drop gidx) with
      | .inl found => .ok (some found)
      | .inr _ => searchOlder s row idx rest

/-- The growth at the beginning of `getTargetRow`. -/
def grow (s : Storage keys) (memory : Memory) : Except Fault (Storage keys) := do
  if !s.fInitialized then
    return { s with
      fInitialized := true
      fCurData := ← s.fCurData.reserve s.getMaxRows memory.granted }
  else if s.fCurData.fSize ≥ s.fCurData.fMaxSize then s.increaseSize memory
  else return s

/-- A new row for the key. -/
def insertRow (s : Storage keys) (row : keys.Key) (insIdx insInfo : Nat) (rowGranted : Bool) :
    Except Fault (Storage keys × Bool × Nat) := do
  let data ← s.fCurData.place insIdx insInfo ⟨keys.hash row, s.rows.length⟩
  if rowGranted then
    return ({ s with fCurData := data, rows := s.rows ++ [row] }, true, s.rows.length)
  else .error .aggregationTooBig

/-- `getTargetRow`: the storage, whether the row is new, and its index. -/
def getTargetRow (s : Storage keys) (row : keys.Key) (memory : Memory) :
    Except Fault (Storage keys × Bool × Nat) := do
  let s ← s.grow memory
  let d := s.fCurData
  let (info, idx) := d.rowHashToIdx (keys.hash row)
  let (info, idx) ← nextWhileLess d.fInfoInc info idx (d.fInfo.drop idx)
  match ← whileEqual d.fInfoInc (s.check row d.fHashes) info idx (d.fInfo.drop idx) with
  | .inl found => return (s, false, found)
  | .inr (info, idx) =>
    match ← if s.fEnabledDiskAggregation then .ok none
      else s.searchOlder row idx s.fGens.reverse with
    | some found => return (s, false, found)
    | none => s.insertRow row idx info memory.rowGranted

end Storage

end RowAggStorage
