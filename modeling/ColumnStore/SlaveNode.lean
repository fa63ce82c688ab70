import ColumnStore.CopyLocks

/-!
# The commands of a slave node on the version tables

A `SlaveDBRMNode` runs the commands that the controller sends it one after the other, each followed
by `confirmChanges` or `undoChanges`. A command takes the write lock of every table it may change,
so the flags that say which tables are locked are left out: a table that is not locked has no undo
records. Return values are the source's codes; a command that throws away an exception keeps the
changes made before it.

Between two attempts to lock a range the node gives up its locks for a while. What other processes
do to the copy locks meanwhile is an argument.
-/

namespace SlaveNode

open Vss (LBID Ver VSS LBIDRange)
open Vbbm (VBBM VBRange)
open CopyLock (CopyLocks)

structure Node where
  vss : VSS
  vbbm : VBBM
  copylocks : CopyLocks

def initial : Node :=
  ⟨Vss.initShmseg, Vbbm.initShmseg, CopyLock.initial⟩

def errVbbmOverflow : Int := 8

def errOldTxnOverwritingNewTxn : Int := 17

/-- A wait of 50 ms between attempts, for one minute. -/
def maxRetries : Nat := 1200

section Locking

variable (transID : Ver)

/-- One pass over the ranges, with a flag for each that says whether this call holds it. A forced
pass releases the locks of others first. The last component tells that a lock could not be entered,
which ends the pass. -/
def lockPass (force : Bool) :
    List (LBIDRange × Bool) → CopyLocks → CopyLocks × List (LBIDRange × Bool) × Bool
  | [], c => (c, [], false)
  | (range, true) :: rest, c =>
    let p := lockPass force rest c
    (p.1, (range, true) :: p.2.1, p.2.2)
  | (range, false) :: rest, c =>
    if !force && CopyLock.isLocked c range then
      let p := lockPass force rest c
      (p.1, (range, false) :: p.2.1, p.2.2)
    else
      let released := if force then CopyLock.forceRelease c range else c
      match CopyLock.lockRange released range transID with
      | none => (released, (range, false) :: rest, true)
      | some c' =>
        let p := lockPass force rest c'
        (p.1, (range, true) :: p.2.1, p.2.2)

/-- Attempt to lock all ranges, at last by force. -/
def lockLoop (meanwhile : Nat → CopyLocks → CopyLocks) :
    Nat → List (LBIDRange × Bool) → CopyLocks → CopyLocks × List (LBIDRange × Bool) × Bool
  | 0, ranges, c => lockPass transID true ranges c
  | left + 1, ranges, c =>
    let p := lockPass transID false ranges c
    if p.2.2 || p.2.1.all (fun r => r.2) then p
    else lockLoop meanwhile left p.2.1 (meanwhile left p.1)

def lockRanges (meanwhile : Nat → CopyLocks → CopyLocks) (ranges : List LBIDRange)
    (c : CopyLocks) : CopyLocks × List (LBIDRange × Bool) × Bool :=
  lockLoop transID meanwhile maxRetries (ranges.map fun r => (r, false)) c

end Locking

def releaseRanges (ranges : List LBIDRange) (c : CopyLocks) : CopyLocks :=
  ranges.foldl CopyLock.releaseRange c

def heldRanges (ranges : List (LBIDRange × Bool)) : List LBIDRange :=
  (ranges.filter fun r => r.2).map Prod.fst

def sizeSum (ranges : List LBIDRange) : Int :=
  (ranges.map fun r => r.size).sum

def endVBCopy (n : Node) (ranges : List LBIDRange) : Node × Int :=
  ({ n with copylocks := releaseRanges ranges n.copylocks }, 0)

def dmlReleaseLBIDRanges (n : Node) (ranges : List LBIDRange) : Node × Int :=
  ({ n with copylocks := releaseRanges ranges n.copylocks }, 0)

def dmlLockLBIDRanges (n : Node) (meanwhile : Nat → CopyLocks → CopyLocks)
    (ranges : List LBIDRange) (txnID : Ver) : Node × Int :=
  match lockRanges txnID meanwhile ranges n.copylocks with
  | (c, _, false) => ({ n with copylocks := c }, 0)
  | (c, held, true) => ({ n with copylocks := releaseRanges (heldRanges held) c }, -1)

def vbCommit (n : Node) (transID : Ver) : Node × Int :=
  ({ n with vss := Vss.commit n.vss transID }, 0)

section Commands

variable (hasher : LBID → Ver → Nat) (vssHasher : LBID → Nat)

def writeVBEntry (n : Node) (transID : Ver) (lbid : LBID) (vbOID vbFBO : Nat) : Node × Int :=
  let oldVerID := (Vss.getCurrentVersion vssHasher n.vss lbid).1
  if oldVerID = transID then (n, 0)
  else if transID < oldVerID then (n, errOldTxnOverwritingNewTxn)
  else
    let n₁ := { n with vbbm := Vbbm.insert hasher n.vbbm lbid ⟨oldVerID, vbOID, vbFBO⟩ false }
    let flagged :=
      if 0 < oldVerID then Vss.setVBFlag vssHasher n.vss lbid oldVerID true
      else .ok (Vss.insert vssHasher n.vss lbid ⟨oldVerID, true, false⟩ false)
    match flagged with
    | .error _ => (n₁, -1)
    | .ok v => ({ n₁ with vss := Vss.insert vssHasher v lbid ⟨transID, false, true⟩ false }, 0)

/-- The two vectors of the source are one list of pairs. An element that fails ends the loop; the
elements before it stay written. -/
def bulkWriteVBEntry (transID : Ver) (vbOID : Nat) : List (LBID × Nat) → Node → Node × Int
  | [], n => (n, 0)
  | (lbid, vbFBO) :: rest, n =>
    let r := writeVBEntry hasher vssHasher n transID lbid vbOID vbFBO
    if r.2 = 0 then bulkWriteVBEntry transID vbOID rest r.1 else r

/-- `none` is a call that does not return. -/
def beginVBCopy (n : Node) (meanwhile : Nat → CopyLocks → CopyLocks) (currentFileSize : Nat)
    (transID : Ver) (vbOID : Nat) (ranges : List LBIDRange) :
    Option (Node × Int × List VBRange) :=
  if ranges.any fun range => Vss.isLocked vssHasher n.vss range transID then some (n, -1, [])
  else
    match lockRanges transID meanwhile ranges n.copylocks with
    | (c, held, true) => some ({ n with copylocks := releaseRanges (heldRanges held) c }, -1, [])
    | (c, held, false) =>
      (Vbbm.getBlocks hasher vssHasher n.vbbm n.vss currentFileSize (sizeSum ranges) vbOID).map fun
        | (b, v, .granted freeList _) => (⟨v, b, c⟩, 0, freeList)
        | (b, v, .overflow _) =>
          (⟨v, b, releaseRanges (heldRanges held) c⟩, errVbbmOverflow, [])

/-- Make the newest version in the buffer that the transaction could have replaced the current one
again; `false` where the source throws. -/
def restoreOldVersion (n : Node) (transID : Ver) (lbid : LBID) : Node × Bool :=
  match Vss.getHighestVerInVB vssHasher n.vss lbid transID with
  | none => (n, true)
  | some oldVerID =>
    let n₁ := { n with vbbm := Vbbm.removeEntry hasher n.vbbm lbid oldVerID }
    match Vss.setVBFlag vssHasher n.vss lbid oldVerID false with
    | .error _ => (n₁, false)
    | .ok v => ({ n₁ with vss := v }, true)

def rollbackBlocks (transID : Ver) :
    List LBID → Node × List LBID → (Node × List LBID) × Int
  | [], s => (s, 0)
  | lbid :: rest, (n, flushList) =>
    match restoreOldVersion hasher vssHasher n transID lbid with
    | (n₁, false) => ((n₁, flushList), -1)
    | (n₁, true) =>
      let removed := Vss.removeEntry vssHasher n₁.vss lbid transID flushList
      rollbackBlocks transID rest ({ n₁ with vss := removed.1 }, removed.2)

/-- The form for a list of blocks; the flush list goes to the block cache. -/
def vbRollback (n : Node) (transID : Ver) (lbidList : List LBID) : Node × Int :=
  let r := rollbackBlocks hasher vssHasher transID lbidList
    ({ n with copylocks := CopyLock.rollback n.copylocks transID }, [])
  (r.1.1, r.2)

/-- The form for a list of ranges. -/
def vbRollbackRanges (n : Node) (transID : Ver) (lbidList : List LBIDRange) : Node × Int :=
  vbRollback hasher vssHasher n transID (lbidList.flatMap LBIDRange.blocks)

def dropVB (lbid : LBID) (d : Vss.VSSData) (b : VBBM) : VBBM :=
  if d.vbFlag then Vbbm.removeEntry hasher b lbid d.verID else b

def removeEntriesFromDB (n : Node) (range : LBIDRange) : Node :=
  let r := Vss.removeEntriesFromDB vssHasher n.vss range (dropVB hasher) n.vbbm
  { n with vss := r.1, vbbm := r.2 }

/-- `lbids` are the ranges of the object, `none` when the extent map does not know it, and
`deleted` tells whether the extent map then deleted it without an exception. -/
def deleteOID (n : Node) (lbids : Option (List LBIDRange)) (deleted : Bool) : Node × Int :=
  match lbids with
  | none => (n, -1)
  | some [] => (n, -1)
  | some ranges =>
    (ranges.foldl (removeEntriesFromDB hasher vssHasher) n, if deleted then 0 else -1)

end Commands

def confirmChanges (n : Node) : Node :=
  { vss := n.vss.confirmChanges
    vbbm := Vbbm.confirmChanges n.vbbm
    copylocks := CopyLock.confirmChanges n.copylocks }

def undoChanges (n : Node) : Node :=
  { vss := n.vss.undoChanges
    vbbm := Vbbm.undoChanges n.vbbm
    copylocks := CopyLock.undoChanges n.copylocks }

end SlaveNode
