import Mathlib.Data.BitVec

/-!
# Chunk shifting

Model of `ChunkManager::reallocateChunks` and `swapTmpFile`, over the files with the name of a data
file and a suffix. The chunks are written to a new file, which is put in the place of the data
file, and verified there. `swapTmpFile` removes the original file that the roll-back needs, and the
roll-back also runs when no file has been moved yet. A rename that fails changes nothing, and in
the roll-back a rename fails only for want of a file.
-/

namespace ChunkShifting

open Function

/-- A data file and the suffixes `.tmp`, `.rlc`, `.orig`, `.tmp.orig` and that of a failed file. -/
inductive Name where
  | data | tmp | rlc | orig | tmpOrig | debug
  deriving DecidableEq

abbrev Content := List (BitVec 8)

abbrev Files := Name → Option Content

/-- `rename`: whether it worked, and the files. -/
def rename (works : Bool) (src dest : Name) (files : Files) : Bool × Files :=
  match files src with
  | some content =>
    if works then (true, update (update files src none) dest (some content)) else (false, files)
  | none => (false, files)

/-- What a call meets: the chunks as they are written, up to one that cannot be read, compressed
or written, and which of the other steps work. -/
structure Run where
  fIsHdfs : Bool
  prepared : Bool
  chunks : List (Option Content)
  headerWritten : Bool
  sizeMatches : Bool
  sourceSize : Bool
  renamedOrig : Bool
  renamedRlc : Bool
  removedOrig : Bool
  verified : Bool

/-- `swapTmpFile` for the new file. -/
def swapTmpFile (run : Run) (dest saved : Name) (files : Files) : Bool × Files :=
  if files .rlc = none then (true, files)
  else if !run.sourceSize then (false, files)
  else
    match rename run.renamedOrig dest saved (update files saved none) with
    | (false, files) => (false, files)
    | (true, files) =>
      match rename run.renamedRlc .rlc dest files with
      | (false, files) => (false, files)
      | (true, files) => if run.removedOrig then (true, update files saved none) else (false, files)

/-- The new file can be written. -/
def Run.writes (run : Run) : Bool := run.chunks.all Option.isSome && run.headerWritten

/-- `reallocateChunks`: whether it returns without an error, and the files. -/
def reallocateChunks (run : Run) (files : Files) : Bool × Files :=
  if !run.prepared then (false, files)
  else
    let written := (run.chunks.takeWhile Option.isSome).flatMap (Option.getD · [])
    let files := update files .rlc (some written)
    if !run.writes then (false, (rename true .rlc .debug files).2)
    else
      let (rc, files) :=
        if !run.sizeMatches then (false, files)
        else if run.fIsHdfs then swapTmpFile run .tmp .tmpOrig files
        else swapTmpFile run .data .orig files
      let rc := rc && run.verified
      if run.fIsHdfs then (rc, files)
      else if rc then (true, update files .orig none)
      else
        let files := (rename true .data .rlc files).2
        let files := (rename true .orig .data files).2
        (false, (rename true .rlc .debug files).2)

/-- The roll-back loses the data file: no file was moved and there is no copy of it, or the copy
has been removed. -/
def Loses (run : Run) (files : Files) : Prop :=
  run.fIsHdfs = false ∧ run.prepared ∧ run.writes ∧
    if run.sizeMatches && run.sourceSize then
      run.renamedOrig = false ∨ run.renamedRlc ∧ run.removedOrig ∧ run.verified = false
    else files .orig ≠ files .data
  deriving Decidable

/-- After an error the data file is the one before. -/
theorem reallocateChunks_keeps_iff {run : Run} {files : Files} (opened : files .data ≠ none) :
    ((reallocateChunks run files).1 = false → (reallocateChunks run files).2 .data = files .data) ↔
      ¬ Loses run files := by
  obtain ⟨content, there⟩ := Option.ne_none_iff_exists'.mp opened
  unfold reallocateChunks Loses swapTmpFile rename
  cases run.prepared
  · simp
  cases run.writes
  · simp
  cases run.fIsHdfs
  · cases run.sizeMatches
    · cases saved : files .orig <;> simp [there, saved]
    cases run.sourceSize
    · cases saved : files .orig <;> simp [there, saved]
    cases run.renamedOrig
    · simp [there]
    cases run.renamedRlc
    · simp [there]
    cases run.removedOrig <;> cases run.verified <;> simp [there]
  cases run.sizeMatches
  · simp
  cases run.sourceSize
  · simp
  cases run.renamedOrig <;> cases run.renamedRlc <;> cases run.removedOrig <;>
    cases temporary : files .tmp <;> simp [temporary]

/-- The step at which a call on a file system with only the data file fails. -/
def failing (sizeMatches renamedRlc verified : Bool) : Run :=
  ⟨false, true, [some [1]], true, sizeMatches, true, true, renamedRlc, true, verified⟩

def oneFile : Files := fun name => if name = .data then some [0] else none

/-- The new file cannot be renamed. -/
theorem reallocateChunks_keeps_unrenamed :
    (reallocateChunks (failing true false true) oneFile).1 = false ∧
      (reallocateChunks (failing true false true) oneFile).2 .data = oneFile .data :=
  ⟨by decide, (reallocateChunks_keeps_iff (by decide)).mpr (by decide) (by decide)⟩

/-- The new file does not have the right size, or it is not verified: the data file is gone. -/
theorem reallocateChunks_loses :
    (reallocateChunks (failing false true true) oneFile).1 = false ∧
      (reallocateChunks (failing false true true) oneFile).2 .data = none ∧
      (reallocateChunks (failing true true false) oneFile).1 = false ∧
      (reallocateChunks (failing true true false) oneFile).2 .data = none := by
  decide

end ChunkShifting
