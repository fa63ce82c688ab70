import ColumnStore.ExtentMap

/-!
# Rolling extents back and loading the extent map

The operations that bring extents back to what they were before a failed load, the
reassignment of extents to other DBRoots, and loading a saved image. Rolling back
decides for each extent of the OID whether it stays, gets its HWM back or goes.
`deleteEmptyColExtents` and `deleteEmptyDictStoreExtents` decide in the same way
but change a copy of the entry, so that only their deletions have an effect.
-/

namespace ExtentMap

open LbidFreeList

/-- What becomes of an extent that is rolled back. -/
inductive Decision where
  | keep
  | resetHWM (hwm : Nat)
  | delete
  deriving DecidableEq, Repr

/-- `fboLo`, `fboHi` and `fboLoPreviousStripe`. -/
structure Stripe where
  lo : Nat
  hi : Nat
  loPrevious : Nat
  deriving DecidableEq, Repr

/-- The stripe that contains the HWM, computed from the first extent met; `none` is a division
by zero. -/
def Stripe.compute (stripe : Stripe) (hwm : Nat) (e : EMEntry) : Option Stripe :=
  if stripe.hi = 0 then
    let range := e.range.size * 1024 % 2 ^ 32
    if range = 0 then none
    else
      let lo := hwm - hwm % range
      some ⟨lo, (lo + range - 1) % 2 ^ 32, if 0 < lo then lo - range else stripe.loPrevious⟩
  else some stripe

/-- The cases of `rollbackColumnExtents_DBroot` and `deleteEmptyColExtents`. -/
def columnDecision (partitionNum segmentNum hwm : Nat) (stripe : Stripe) (e : EMEntry) : Decision :=
  if partitionNum < e.partitionNum then .delete  -- case 1
  else if e.partitionNum = partitionNum then
    if stripe.hi < e.blockOffset then .delete  -- case 2
    else if e.blockOffset < stripe.lo then
      if stripe.loPrevious ≤ e.blockOffset ∧ segmentNum < e.segmentNum ∧
          e.hwm ≠ stripe.lo - 1 then .resetHWM (stripe.lo - 1)  -- case 3A
      else .keep
    else if segmentNum < e.segmentNum then .delete  -- case 4A
    else if e.segmentNum < segmentNum then
      if e.hwm ≠ stripe.hi then .resetHWM stripe.hi else .keep  -- case 4B
    else if e.hwm ≠ hwm then .resetHWM hwm else .keep  -- case 4C
  else .keep

/-- The HWM is set back and the extent can be queried again. -/
def EMEntry.reset (hwm : Nat) (e : EMEntry) : EMEntry := { e with hwm := hwm, status := .available }

/-- Carry out a decision on the entry at the iterator. -/
def carryOut (key : Nat) : Decision → Op Unit
  | .keep => pure ()
  | .resetHWM hwm => updateEntry key (EMEntry.reset hwm)
  | .delete => deleteExtent key true

/-- Carry out a decision where the entry is a copy: of a reset only the undo record remains. -/
def carryOutOnCopy (key : Nat) : Decision → Op Unit
  | .resetHWM _ => updateEntry key id
  | decision => carryOut key decision

def rollbackColumnExtentsDBroot (oid : Int) (bDeleteAll : Bool)
    (dbRoot partitionNum segmentNum hwm : Nat) : Op Unit := do
  let em ← get
  let keys ← iterators (em.index.findOID dbRoot oid)
  let _ ← keys.foldlM (fun stripe key => do
    let em ← get
    let e ← orThrow .undefinedBehaviour (em.tree.find? key)
    if e.status = .outOfService then pure stripe
    else if bDeleteAll then do
      carryOut key .delete
      pure stripe
    else do
      let stripe ← orThrow .undefinedBehaviour (stripe.compute hwm e)
      carryOut key (columnDecision partitionNum segmentNum hwm stripe e)
      pure stripe) (⟨0, 0, 0⟩ : Stripe)

/-- `segToHwmMap`: segment number to HWM and first block of the stripe it is in. -/
abbrev SegToHwm := AList fun _ : Nat => Nat × Nat

/-- Filled from the first extent met; `none` is a division by zero or an access past the end of
`segNums`. -/
def computeSegToHwm (segToHwm : SegToHwm) (segNums hwms : List Nat) (e : EMEntry) :
    Option SegToHwm :=
  if segToHwm.keys.length = 0 then
    let range := e.range.size * 1024 % 2 ^ 32
    if range = 0 ∨ segNums.length < hwms.length then none
    else some ((segNums.zip hwms).foldl
      (fun m (seg, hwm) => m.insert seg (hwm, hwm - hwm % range)) ∅)
  else some segToHwm

/-- The cases of `rollbackDictStoreExtents_DBroot`. -/
def dictDecision (partitionNum : Nat) (segToHwm : SegToHwm) (e : EMEntry) : Decision :=
  if partitionNum < e.partitionNum then .delete  -- case 1
  else if e.partitionNum = partitionNum then
    match segToHwm.lookup e.segmentNum with
    | none => .delete  -- case 2
    | some (hwm, fboLo) =>
      if e.blockOffset < fboLo then .keep  -- case 3A
      else if e.blockOffset = fboLo then
        if e.hwm ≠ hwm then .resetHWM hwm else .keep  -- case 3B
      else .delete  -- case 3C
  else .keep

def rollbackDictStoreExtentsDBroot (oid : Int) (dbRoot partitionNum : Nat)
    (segNums hwms : List Nat) : Op Unit := do
  let em ← get
  let keys ← iterators (em.index.findOID dbRoot oid)
  let _ ← keys.foldlM (fun segToHwm key => do
    let em ← get
    let e ← orThrow .undefinedBehaviour (em.tree.find? key)
    if e.status = .outOfService then pure segToHwm
    else if hwms = [] then do
      carryOut key .delete
      pure segToHwm
    else do
      let segToHwm ← orThrow .undefinedBehaviour (computeSegToHwm segToHwm segNums hwms e)
      carryOut key (dictDecision partitionNum segToHwm e)
      pure segToHwm) (∅ : SegToHwm)

/-- `ExtentInfo` with the OID it is given for. -/
structure ExtentInfo where
  oid : Int
  dbRoot : Nat
  partitionNum : Nat
  segmentNum : Nat
  hwm : Nat
  newFile : Bool
  deriving DecidableEq, Repr

/-- `deleteEmptyColExtents`. The stripe computed for the first OID serves for all of them. -/
def deleteEmptyColExtents (extentsInfo : List ExtentInfo) : Op Unit := do
  let _ ← extentsInfo.foldlM (fun stripe info => do
    let em ← get
    let keys ← iterators (em.index.find ⟨info.dbRoot, info.oid, info.partitionNum⟩)
    keys.foldlM (fun stripe key => do
      let em ← get
      let e ← orThrow .undefinedBehaviour (em.tree.find? key)
      if e.status = .outOfService then pure stripe
      else do
        let stripe ← orThrow .undefinedBehaviour (stripe.compute info.hwm e)
        carryOutOnCopy key (columnDecision info.partitionNum info.segmentNum info.hwm stripe e)
        pure stripe) stripe) (⟨0, 0, 0⟩ : Stripe)

/-- The cases of `deleteEmptyDictStoreExtents` for files that existed before. -/
def emptyDictDecision (info : ExtentInfo) (stripe : Stripe) (e : EMEntry) : Decision :=
  if info.partitionNum < e.partitionNum then .delete  -- case 1
  else if e.partitionNum = info.partitionNum ∧ e.segmentNum = info.segmentNum then
    if e.blockOffset < stripe.lo then .keep  -- case 2A
    else if e.blockOffset = stripe.lo then
      if e.hwm ≠ info.hwm then .resetHWM info.hwm else .keep  -- case 2B
    else .delete  -- case 2C
  else .keep

/-- `deleteEmptyDictStoreExtents`; an empty map is dereferenced at its end. -/
def deleteEmptyDictStoreExtents (extentsInfo : List ExtentInfo) : Op Unit := do
  let first ← orThrow .undefinedBehaviour extentsInfo.head?
  let _ ← extentsInfo.foldlM (fun stripe info => do
    let em ← get
    let keys ← iterators (em.index.find ⟨info.dbRoot, info.oid, info.partitionNum⟩)
    keys.foldlM (fun stripe key => do
      let em ← get
      let e ← orThrow .undefinedBehaviour (em.tree.find? key)
      if first.newFile then do
        carryOut key (if e.segmentNum = info.segmentNum then .delete else .keep)
        pure stripe
      else if e.status = .outOfService then pure stripe
      else do
        let stripe ← orThrow .undefinedBehaviour (stripe.compute info.hwm e)
        carryOutOnCopy key (emptyDictDecision info stripe e)
        pure stripe) stripe) (⟨0, 0, 0⟩ : Stripe)

/-- `bulkUpdateDBRoot`: the entry is changed in the tree only, and without a record. -/
def bulkUpdateDBRoot (args : List (Nat × Nat)) : Op Unit :=
  args.forM fun (startLBID, dbRoot) => do
    let em ← get
    let it ← orThrow .undefinedBehaviour (findByLBID em.tree startLBID)
    set { em with tree := em.tree.update it.1 fun e => { e with dbRoot := dbRoot } }

/-- `save`: the entries in the order of the tree. -/
def EM.image (em : EM) : List EMEntry := em.tree.entries.map (·.2)

/-- The free list at the start of `loadVersion4or5`. -/
def FreeList.cleared (fl : FreeList) : FreeList :=
  ⟨⟨0, 2 ^ 26⟩ :: List.replicate (fl.allocdSize - 1) unused, 1⟩

/-- The tree of the loaded entries; an entry whose LBID is already there is dropped. -/
def loadedTree (image : List EMEntry) : Tree :=
  image.foldl (fun tree e => tree.insert e.range.start e) .empty

/-- `loadVersion4or5`. The tree and the free list are made new, the index is added to. -/
def loadVersion4or5 (image : List EMEntry) : Op Unit := do
  if image = [] then throw .emptyImage
  else do
    modify fun em => { em with
      tree := loadedTree image
      freeList := FreeList.cleared em.freeList
      treeCurrentSize := image.length }
    (loadedTree image).entries.forM fun (key, e) => do
      let em ← get
      let reserved ← orThrow .undefinedBehaviour
        (em.freeList.reserveLBIDRange e.range.start e.range.size)
      set { em with
        freeList := reserved.1
        undoRecords := em.undoRecords ++ reserved.2
        index := em.index.insert e.indexKey key }

def growFLShmseg : Op Unit :=
  modify fun em => { em with freeList := em.freeList.growFLShmseg }

end ExtentMap
