import ColumnStore.Vbbm

/-!
# Copy locks

Ranges of blocks are locked while their images are copied to the version buffer. The lock table
is an array of entries; one of size zero is free. `currentSize` counts the entries in use, where
the source counts their bytes. An entry keeps the size of its range as a signed 32-bit integer.
-/

namespace CopyLock

open Vss (LBID Ver LBIDRange)

structure CopyLockEntry where
  start : LBID
  size : Int
  txnID : Int
  deriving DecidableEq

/-- An undo record: an entry, or the size in the master segment table. -/
inductive Image
  | entry (index : Nat) (old : CopyLockEntry)
  | currentSize (old : Int)
  deriving DecidableEq

structure CopyLocks where
  entries : List CopyLockEntry
  currentSize : Int
  undo : List Image
  deriving DecidableEq

def blank : CopyLockEntry := ⟨0, 0, 0⟩

def increment : Nat := 50

def initial : CopyLocks := ⟨List.replicate increment blank, 0, []⟩

/-- A larger segment; the undo records are dropped. -/
def growCL (c : CopyLocks) : CopyLocks :=
  { c with entries := c.entries ++ List.replicate increment blank, undo := [] }

def lastBlock (l : LBIDRange) : Int :=
  l.start + l.size - 1

def intersects (l : LBIDRange) (e : CopyLockEntry) : Bool :=
  l.start ≤ e.start + e.size - 1 ∧ (e.start : Int) ≤ lastBlock l

def isLocked (c : CopyLocks) (l : LBIDRange) : Bool :=
  c.entries.any fun e => e.size ≠ 0 && intersects l e

/-- The table a lock is entered in: a full one grows first. -/
def roomFor (c : CopyLocks) : CopyLocks :=
  if c.currentSize = c.entries.length then growCL c else c

/-- Lock a range, whether or not it is locked already; `none` where the source throws because no
entry is free. -/
def lockRange (c : CopyLocks) (l : LBIDRange) (txnID : Int) : Option CopyLocks :=
  let c₁ := roomFor c
  let i := c₁.entries.findIdx fun e => e.size = 0
  if i < c₁.entries.length then
    some
      { entries := c₁.entries.set i ⟨l.start, Vbbm.int32 l.size, txnID⟩
        currentSize := c₁.currentSize + 1
        undo := .currentSize c₁.currentSize :: .entry i (c₁.entries.getD i blank) :: c₁.undo }
  else none

def releaseEntry (p : CopyLockEntry → Bool) (c : CopyLocks) (i : Nat) : CopyLocks :=
  let e := c.entries.getD i blank
  if e.size ≠ 0 ∧ p e then
    { entries := c.entries.set i { e with size := 0 }
      currentSize := c.currentSize - 1
      undo := .currentSize c.currentSize :: .entry i e :: c.undo }
  else c

/-- The loop over the table that three functions of the source share. -/
def releaseWhere (p : CopyLockEntry → Bool) (c : CopyLocks) : CopyLocks :=
  (List.range c.entries.length).foldl (releaseEntry p) c

def releaseRange (c : CopyLocks) (l : LBIDRange) : CopyLocks :=
  releaseWhere (intersects l) c

def forceRelease (c : CopyLocks) (l : LBIDRange) : CopyLocks :=
  releaseWhere (intersects l) c

def rollback (c : CopyLocks) (txnID : Int) : CopyLocks :=
  releaseWhere (fun e => e.txnID = txnID) c

def apply (c : CopyLocks) : Image → CopyLocks
  | .entry index old => { c with entries := c.entries.set index old }
  | .currentSize old => { c with currentSize := old }

def undoChanges (c : CopyLocks) : CopyLocks :=
  { c.undo.foldl apply c with undo := [] }

def confirmChanges (c : CopyLocks) : CopyLocks :=
  { c with undo := [] }

end CopyLock
