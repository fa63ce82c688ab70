import ColumnStore.CopyLockUndo
import ColumnStore.VersionAnswers
import ColumnStore.VersionInvariant
import ColumnStore.WriteUndo

/-!
# When undoing a command restores the version tables

A slave node runs a command and then confirms or undoes it. After undoing, the version tables
answer as before the command exactly when the command has not made a table grow after its first
change of it, has not added a version buffer file or lost entries by growing the VBBM for new
space, and has not counted down the locked entries by a commit.
-/

namespace CommandUndo

open BlockHistory List Multiset Option VssInvariant VbbmInvariant VersionBufferSpace
open ChainedTable.Table hiding undoChanges
open Vss (LBID Ver VSS VSSData LBIDRange)
open Vbbm (VBBM int32 uint32)
open SlaveNode VersionHistory VersionUndo WriteUndo CopyLockUndo
open VersionInvariant (NotLocked Written notHeld_of_notLocked vbRollback_tracks)

inductive Command
  | writeVBEntry (transID : Ver) (lbid : LBID) (vbOID vbFBO : Nat)
  | bulkWriteVBEntry (transID : Ver) (vbOID : Nat) (blocks : List (LBID × Nat))
  | beginVBCopy (currentFileSize : Nat) (transID : Ver) (vbOID : Nat) (ranges : List LBIDRange)
  | endVBCopy (ranges : List LBIDRange)
  | vbCommit (transID : Ver)
  | vbRollback (transID : Ver) (lbidList : List LBID)
  | vbRollbackRanges (transID : Ver) (lbidList : List LBIDRange)
  | deleteOID (lbids : Option (List LBIDRange)) (deleted : Bool)
  | dmlLockLBIDRanges (ranges : List LBIDRange) (txnID : Ver)
  | dmlReleaseLBIDRanges (ranges : List LBIDRange)

/-- The tables when the command returns, whatever code it returns. Nobody else touches the copy
locks meanwhile. -/
def run (hasher : LBID → Ver → Nat) (vssHasher : LBID → Nat) (n : Node) : Command → Option Node
  | .writeVBEntry transID lbid vbOID vbFBO =>
    some (writeVBEntry hasher vssHasher n transID lbid vbOID vbFBO).1
  | .bulkWriteVBEntry transID vbOID blocks =>
    some (bulkWriteVBEntry hasher vssHasher transID vbOID blocks n).1
  | .beginVBCopy currentFileSize transID vbOID ranges =>
    (beginVBCopy hasher vssHasher n (fun _ c => c) currentFileSize transID vbOID
      ranges).map fun r =>
      r.1
  | .endVBCopy ranges => some (endVBCopy n ranges).1
  | .vbCommit transID => some (vbCommit n transID).1
  | .vbRollback transID lbidList => some (vbRollback hasher vssHasher n transID lbidList).1
  | .vbRollbackRanges transID lbidList =>
    some (vbRollbackRanges hasher vssHasher n transID lbidList).1
  | .deleteOID lbids deleted => some (deleteOID hasher vssHasher n lbids deleted).1
  | .dmlLockLBIDRanges ranges txnID => some (dmlLockLBIDRanges n (fun _ c => c) ranges txnID).1
  | .dmlReleaseLBIDRanges ranges => some (dmlReleaseLBIDRanges n ranges).1

/-- The queries on the three tables. -/
structure SameAnswers (hasher : LBID → Ver → Nat) (vssHasher : LBID → Nat) (n m : Node) : Prop where
  lookup : ∀ lbid verInfo txnID vbOnly, Vss.lookup vssHasher n.vss lbid verInfo txnID vbOnly =
    Vss.lookup vssHasher m.vss lbid verInfo txnID vbOnly
  isLocked : ∀ range transID,
    Vss.isLocked vssHasher n.vss range transID = Vss.isLocked vssHasher m.vss range transID
  size : Vss.size n.vss = Vss.size m.vss
  currentSize : n.vss.header.currentSize = m.vss.header.currentSize
  lockedEntryCount : n.vss.header.extra = m.vss.header.extra
  place : ∀ lbid verID, Vbbm.lookup hasher n.vbbm lbid verID = Vbbm.lookup hasher m.vbbm lbid verID
  files : n.vbbm.files = m.vbbm.files
  copyLocked : ∀ l, CopyLock.isLocked n.copylocks l = CopyLock.isLocked m.copylocks l
  copyLocks : n.copylocks.currentSize = m.copylocks.currentSize

section Conditions

variable (hasher : LBID → Ver → Nat) (vssHasher : LBID → Nat) (n : Node)

/-- The writes of a command fit into both tables. -/
def WritesFit (transID : Ver) (lbids : List LBID) : Prop :=
  VssFits n.vss (written vssHasher n.vss transID [] lbids) ∧
    VbbmFits n.vbbm (written vssHasher n.vss transID [] lbids)

/-- The file is known and the VBBM need not grow for the request, or grows without losing an
entry: growing copies the first `vbCurrentSize` slots. -/
def SpaceFits (requested : Int) (vbOID : Nat) : Prop :=
  ∃ file, n.vbbm.files.find? (fun f => f.OID = vbOID) = some file ∧
    (file.fileSize / Vbbm.blockSize < uint32 (int32 requested) ∨
      n.vbbm.table.header.currentSize + int32 requested ≤ n.vbbm.table.header.capacity ∨
      Compact n.vbbm.table)

/-- The condition under which undoing the command restores the tables. -/
def Restorable : Command → Prop
  | .writeVBEntry transID lbid _ _ => WritesFit vssHasher n transID [lbid]
  | .bulkWriteVBEntry transID _ blocks => WritesFit vssHasher n transID (blocks.map Prod.fst)
  | .beginVBCopy _ transID vbOID ranges =>
    (ranges.any fun range => Vss.isLocked vssHasher n.vss range transID) = true ∨
      LocksFit transID ranges n.copylocks ∧ SpaceFits n (sizeSum ranges) vbOID
  | .vbCommit transID =>
    n.vss.header.extra = 0 ∨ ∀ e ∈ n.vss.entries, e.2.verID ≠ transID
  | .dmlLockLBIDRanges ranges txnID => LocksFit txnID ranges n.copylocks
  | .endVBCopy _ | .vbRollback _ _ | .vbRollbackRanges _ _ | .deleteOID _ _
  | .dmlReleaseLBIDRanges _ => True

/-- Blocks are written that no other transaction has locked, as `beginVBCopy` has checked. -/
def WritesFree : Command → Prop
  | .writeVBEntry transID lbid _ _ => NotLocked n transID lbid
  | .bulkWriteVBEntry transID _ blocks => ∀ e ∈ blocks, NotLocked n transID e.1
  | _ => True

/-- What the callers of a command see to, and that growing the VBBM loses no entry. -/
def Proper (c : Command) : Prop :=
  WritesFree n c ∧
    match c with
    | .beginVBCopy currentFileSize _ vbOID ranges =>
      GrowthKeeps hasher n.vbbm currentFileSize (sizeSum ranges) vbOID
    | .vbRollback transID lbidList => Written n transID lbidList
    | .vbRollbackRanges transID lbidList =>
      Written n transID (lbidList.flatMap LBIDRange.blocks)
    | _ => True

end Conditions

section Commands

variable {hasher : LBID → Ver → Nat} {vssHasher : LBID → Nat} {n m n' : Node} {transID : Ver}

/-- Between two commands the tables tell a history and hold no undo records. -/
structure Steady (hasher : LBID → Ver → Nat) (vssHasher : LBID → Nat) (n : Node) : Prop where
  tracks : ∃ hist, Tracks hasher vssHasher n.vss n.vbbm.table hist
  vssUndo : n.vss.undo = []
  vbbmUndo : n.vbbm.table.undo = []
  fileUndo : n.vbbm.fileUndo = []
  lockUndo : n.copylocks.undo = []
  regular : Regular n.copylocks

section

variable (steady : Steady hasher vssHasher n)
include steady

lemma Steady.settled : Settled hasher n.vbbm := by
  obtain ⟨hist, tracks⟩ := steady.tracks
  exact ⟨tracks.vbbm, steady.vbbmUndo, steady.fileUndo⟩

lemma Steady.undoChanges_vss : n.vss.undoChanges = n.vss :=
  (Logged.refl _).undoChanges_eq steady.vssUndo

lemma Steady.undoChanges_eq : undoChanges n = n := by
  unfold undoChanges
  rw [steady.undoChanges_vss, steady.settled.undoChanges_eq, undoChanges_of_settled steady.lockUndo]

end

lemma steady_initial : Steady hasher vssHasher initial :=
  ⟨⟨_, tracks_initial⟩, rfl, rfl, rfl, rfl, regular_initial⟩

lemma undoChanges_restoreOldVersion (n : Node) (transID : Ver) (lbid : LBID) :
    undoChanges (restoreOldVersion hasher vssHasher n transID lbid).1 = undoChanges n := by
  unfold restoreOldVersion
  split
  · rfl
  case h_2 oldVerID _ =>
    split
    · simp only [undoChanges, undoChanges_removeEntry]
    case h_2 v flagged =>
      simp only [undoChanges, undoChanges_removeEntry, (logged_setVBFlag flagged).undoChanges]

/-- What neither of the two steps for a block changes is as before the rollback. -/
lemma rollbackBlocks_keeps {α : Type} (f : Node → α)
    (restore : ∀ n lbid, f (restoreOldVersion hasher vssHasher n transID lbid).1 = f n)
    (remove : ∀ n lbid flushList,
      f { n with vss := (Vss.removeEntry vssHasher n.vss lbid transID flushList).1 } = f n)
    (lbids : List LBID) (s : Node × List LBID) :
    f (rollbackBlocks hasher vssHasher transID lbids s).1.1 = f s.1 := by
  fun_induction rollbackBlocks hasher vssHasher transID lbids s with
  | case1 s => rfl
  | case2 lbid rest n flushList n₁ restored =>
    have back := restore n lbid
    rwa [restored] at back
  | case3 lbid rest n flushList n₁ restored removed ih =>
    have back := restore n lbid
    rw [restored] at back
    exact (ih.trans (remove n₁ lbid flushList)).trans back

lemma undoChanges_vbRollback (n : Node) (transID : Ver) (lbids : List LBID) :
    undoChanges (vbRollback hasher vssHasher n transID lbids).1 = undoChanges n := by
  refine (rollbackBlocks_keeps undoChanges
    (fun n lbid => undoChanges_restoreOldVersion n transID lbid)
    (fun n lbid flushList => ?_) lbids _).trans ?_
  · simp only [undoChanges, (logged_removeEntry ..).undoChanges]
  · simp only [undoChanges, CopyLock.rollback, undoChanges_releaseWhere]

lemma undoChanges_dropVB (entries : List (LBID × VSSData)) (b : VBBM) :
    Vbbm.undoChanges (entries.foldl (fun b e => dropVB hasher e.1 e.2 b) b) =
      Vbbm.undoChanges b := by
  induction entries generalizing b with
  | nil => rfl
  | cons e entries ih =>
    refine (ih _).trans ?_
    show Vbbm.undoChanges (dropVB hasher e.1 e.2 b) = _
    unfold dropVB
    split_ifs
    · exact undoChanges_removeEntry hasher b e.1 e.2.verID
    · rfl

lemma undoChanges_removeEntriesFromDB (hasher : LBID → Ver → Nat)
    (sound : Sound vssHasher n.vss) (range : LBIDRange) :
    Sound vssHasher (removeEntriesFromDB hasher vssHasher n range).vss ∧
      undoChanges (removeEntriesFromDB hasher vssHasher n range) = undoChanges n := by
  obtain ⟨sound', -, removed, -, result⟩ :=
    removeEntriesFromDB_spec sound range (dropVB hasher) n.vbbm
  refine ⟨sound', ?_⟩
  unfold undoChanges removeEntriesFromDB
  dsimp only
  rw [(logged_removeEntriesFromDB vssHasher n.vss range (dropVB hasher) n.vbbm).undoChanges, result,
    undoChanges_dropVB]

lemma deleteOID_keeps {P : Node → Prop}
    (step : ∀ n range, P n → P (removeEntriesFromDB hasher vssHasher n range)) (holds : P n)
    (lbids : Option (List LBIDRange)) (deleted : Bool) :
    P (deleteOID hasher vssHasher n lbids deleted).1 := by
  rcases lbids with _ | (_ | ⟨range, ranges⟩)
  · exact holds
  · exact holds
  · exact foldlRecOn (range :: ranges) _ holds fun n holds range _ => step n range holds

lemma undoChanges_deleteOID (sound : Sound vssHasher n.vss)
    (lbids : Option (List LBIDRange)) (deleted : Bool) :
    undoChanges (deleteOID hasher vssHasher n lbids deleted).1 = undoChanges n := by
  refine (deleteOID_keeps (P := fun m => Sound vssHasher m.vss ∧ undoChanges m = undoChanges n)
    (fun m range holds => ?_) ⟨sound, rfl⟩ lbids deleted).2
  obtain ⟨sound', undone⟩ := undoChanges_removeEntriesFromDB hasher holds.1 range
  exact ⟨sound', undone.trans holds.2⟩

/-- The tables are as before, but for the size of their segments. -/
structure Restored (hasher : LBID → Ver → Nat) (vssHasher : LBID → Nat) (n m : Node) : Prop where
  vssSound : Sound vssHasher m.vss
  versions : m.vss.entries = n.vss.entries
  lockedEntryCount : m.vss.header.extra = n.vss.header.extra
  vssUndo : m.vss.undo = []
  settled : Settled hasher m.vbbm
  places : m.vbbm.table.entries = n.vbbm.table.entries
  files : m.vbbm.files = n.vbbm.files
  copylocks : m.copylocks = n.copylocks ∨ m.copylocks = CopyLock.growCL n.copylocks

variable {hist : History}

section

variable (restored : Restored hasher vssHasher n m)
include restored

lemma Restored.tracks
    (tracks : Tracks hasher vssHasher n.vss n.vbbm.table hist) :
    Tracks hasher vssHasher m.vss m.vbbm.table hist := by
  refine ⟨restored.vssSound, restored.settled.sound, fun lbid => ?_⟩
  rw [restored.versions, restored.places]
  exact tracks.shows lbid

lemma Restored.steady
    (steady : Steady hasher vssHasher n) : Steady hasher vssHasher m := by
  obtain ⟨hist, tracks⟩ := steady.tracks
  refine ⟨⟨hist, restored.tracks tracks⟩, restored.vssUndo, restored.settled.undo,
    restored.settled.fileUndo, ?_, ?_⟩
  · rcases restored.copylocks with same | grown
    · exact same ▸ steady.lockUndo
    · rw [grown]
      rfl
  · rcases restored.copylocks with same | grown
    · exact same ▸ steady.regular
    · exact grown ▸ steady.regular.growCL

lemma Restored.sameAnswers
    (steady : Steady hasher vssHasher n) : SameAnswers hasher vssHasher n m := by
  obtain ⟨hist, tracks⟩ := steady.tracks
  have tracks' := restored.tracks tracks
  have currentSize : n.vss.header.currentSize = m.vss.header.currentSize := by
    rw [tracks.vss.sized, restored.vssSound.sized, restored.versions]
  refine ⟨VersionAnswers.lookup_eq tracks tracks', VersionAnswers.isLocked_eq tracks tracks', ?_,
    currentSize, restored.lockedEntryCount.symm,
    lookup_congr tracks.vbbm tracks'.vbbm tracks.vbbm_unique restored.places,
    restored.files.symm, ?_, ?_⟩
  · rw [VersionAnswers.size_eq tracks.vss, VersionAnswers.size_eq restored.vssSound, currentSize]
  · intro l
    rcases restored.copylocks with same | grown
    · rw [same]
    · rw [grown, growCL_isLocked]
  · rcases restored.copylocks with same | grown
    · rw [same]
    · rw [grown]
      rfl

end

lemma Steady.restored_self (steady : Steady hasher vssHasher n) :
    Restored hasher vssHasher n n := by
  obtain ⟨hist, tracks⟩ := steady.tracks
  exact ⟨tracks.vss, rfl, rfl, steady.vssUndo, steady.settled, rfl, rfl, .inl rfl⟩

lemma growVSS_restores {v : VSS} (sound : Sound vssHasher v) (full : Full v) :
    let u := (Vss.growVSS vssHasher v).confirmChanges
    Sound vssHasher u ∧ u.entries = v.entries ∧ u.header.extra = v.header.extra := by
  obtain ⟨sound', entries, -⟩ := growVSS_spec sound full
  have header := (growVSS_copied sound full).header
  refine ⟨⟨sound'.threaded.congr rfl rfl rfl rfl rfl, sound'.sized⟩, entries, ?_⟩
  change (Vss.growVSS vssHasher v).header.extra = v.header.extra
  rw [header]
  rfl

lemma Steady.restored_of_writes {writes : List (LBID × Ver)} (steady : Steady hasher vssHasher n)
    (done : Writes hasher vssHasher transID n writes n')
    (vssFits : VssFits n.vss writes) (vbbmFits : VbbmFits n.vbbm writes) :
    Restored hasher vssHasher n (undoChanges n') := by
  obtain ⟨hist, tracks⟩ := steady.tracks
  have vss : Sound vssHasher n'.vss.undoChanges ∧
      n'.vss.undoChanges.entries = n.vss.entries ∧
      n'.vss.undoChanges.header.extra = n.vss.header.extra := by
    rcases (done.vss_outcome tracks.vss steady.vssUndo).1 vssFits with same | ⟨full, grown⟩
    · rw [same]
      exact ⟨tracks.vss, rfl, rfl⟩
    · rw [grown]
      exact growVSS_restores tracks.vss full
  have vbbm : Settled hasher (Vbbm.undoChanges n'.vbbm) ∧
      (Vbbm.undoChanges n'.vbbm).table.entries = n.vbbm.table.entries ∧
      (Vbbm.undoChanges n'.vbbm).files = n.vbbm.files := by
    rcases (done.vbbm_outcome steady.settled).1 vbbmFits with same | ⟨full, grown⟩
    · rw [same]
      exact ⟨steady.settled, rfl, rfl⟩
    · rw [grown]
      exact ⟨(settled_growVBBM steady.settled false).1,
        (growVBBM_of_full steady.settled.sound full).2, rfl⟩
  refine ⟨vss.1, vss.2.1, vss.2.2, rfl, vbbm.1, vbbm.2.1, vbbm.2.2, .inl ?_⟩
  show CopyLock.undoChanges n'.copylocks = n.copylocks
  rw [done.copylocks_eq, undoChanges_of_settled steady.lockUndo]

lemma lookup_of_slice {v : VSS} {lbid : LBID} {d : VSSData} {rest : Multiset VSSData}
    (sound : Sound vssHasher v) (here : slice lbid v.entries = d ::ₘ rest)
    (unique : ∀ e ∈ rest, e.verID ≠ d.verID) :
    Vss.lookup vssHasher v lbid ⟨d.verID, []⟩ 0 false = .found d.verID d.vbFlag := by
  refine VersionAnswers.lookupLoop_exact ((mem_versions sound).mpr
    (mem_slice.mp (by simp [here]))) (fun e listed version => ?_) none none
  have mem := (mem_versions sound).mp listed
  rw [← mem_slice, here] at mem
  exact (mem_cons.mp mem).resolve_right fun other => unique e other version

lemma lookup_ne_of_flagged {v₁ : VSS} {lbid : LBID} {old : Ver}
    (tracks : Tracks hasher vssHasher n.vss n.vbbm.table hist)
    (current : old = currentVersion (hist lbid)) (pos : 0 < old)
    (flagged : Vss.setVBFlag vssHasher n.vss lbid old true = .ok v₁) (full : Full v₁) :
    Vss.lookup vssHasher n.vss lbid ⟨old, []⟩ 0 false ≠
      Vss.lookup vssHasher (Vss.growVSS vssHasher v₁).confirmChanges lbid ⟨old, []⟩ 0 false := by
  cases known : hist lbid with
  | none =>
    rw [known] at current
    exact absurd current (ne_of_gt pos)
  | some b =>
    rw [known] at current
    obtain rfl : old = b.current := current
    obtain ⟨inVSS, -⟩ : Shows (some b) _ _ := known ▸ tracks.shows lbid
    obtain ⟨v, done, sound₁, here, -⟩ :=
      setVBFlag_slice tracks.vss true inVSS (version_ne_of_mem_older b)
    obtain rfl : v₁ = v := Except.ok.inj (flagged.symm.trans done)
    obtain ⟨sound', entries, -⟩ := growVSS_restores sound₁ full
    have before := lookup_of_slice tracks.vss inVSS (version_ne_of_mem_older b)
    have after := lookup_of_slice sound' (here ▸ congrArg (slice lbid) entries)
      (version_ne_of_mem_older b)
    rw [before, after]
    simp

lemma Steady.trace_of_writes {lbids : List LBID} (steady : Steady hasher vssHasher n)
    (done : Writes hasher vssHasher transID n (written vssHasher n.vss transID [] lbids) n')
    (late : ¬ WritesFit vssHasher n transID lbids) :
    ¬ SameAnswers hasher vssHasher n (undoChanges n') := by
  intro same
  obtain ⟨hist, tracks⟩ := steady.tracks
  have current : ∀ w ∈ written vssHasher n.vss transID [] lbids, w.2 = currentVersion (hist w.1) :=
    fun w mem => (mem_written mem).trans (tracks.currentVersion w.1)
  by_cases vssFits : VssFits n.vss (written vssHasher n.vss transID [] lbids)
  · have vbbmLate : ¬ VbbmFits n.vbbm (written vssHasher n.vss transID [] lbids) :=
      fun fits => late ⟨vssFits, fits⟩
    obtain ⟨sound, w, first, d, version, mapped⟩ :=
      (done.vbbm_outcome steady.settled).2 vbbmLate
    have none_before : Vbbm.lookup hasher n.vbbm w.1 w.2 = none := by
      refine (lookup_eq_none tracks.vbbm).mpr fun d mem version => ?_
      obtain ⟨b, known, old⟩ := tracks.mapped_iff.mp ⟨d, mem, version⟩
      rw [current w (mem_of_mem_head? first), known] at old
      exact b.current_notMem_older old
    have some_after : Vbbm.lookup hasher (Vbbm.undoChanges n'.vbbm) w.1 w.2 ≠ none := fun absent =>
      (lookup_eq_none sound).mp absent d mapped version
    exact some_after ((same.place w.1 w.2).symm.trans none_before)
  rcases (done.vss_outcome tracks.vss steady.vssUndo).2 vssFits with
    size | ⟨w, v₁, first, pos, flagged, full, undone⟩
  · exact size same.currentSize.symm
  have differ := lookup_ne_of_flagged tracks (current w (mem_of_mem_head? first)) pos
    flagged full
  rw [← undone] at differ
  exact differ (same.lookup w.1 ⟨w.2, []⟩ 0 false)

/-- The map that a request for space leaves behind when it is undone. -/
def keptVBBM (hasher : LBID → Ver → Nat) (b : VBBM) (currentFileSize : Nat) (requested : Int)
    (vbOID : Nat) : VBBM :=
  let added := Vbbm.addVBFileIfNotExists hasher b currentFileSize vbOID
  if (added.1.files.getD added.2 ⟨0, 0, 0⟩).fileSize / Vbbm.blockSize <
      uint32 (int32 requested) then added.1
  else afterGrowth hasher b currentFileSize requested vbOID

variable {currentFileSize vbOID : Nat} {ranges : List LBIDRange}

lemma undoChanges_beginVBCopy (steady : Steady hasher vssHasher n)
    (free : ¬ (ranges.any fun range => Vss.isLocked vssHasher n.vss range transID))
    (done : run hasher vssHasher n (.beginVBCopy currentFileSize transID vbOID ranges) = some n') :
    undoChanges n' = ⟨n.vss, keptVBBM hasher n.vbbm currentFileSize (sizeSum ranges) vbOID,
      CopyLock.undoChanges (lockRanges transID (fun _ c => c) ranges n.copylocks).1⟩ := by
  obtain ⟨r, began, rfl⟩ := map_eq_some_iff.mp done
  rw [beginVBCopy, if_neg free] at began
  have complete := (steady.regular.lockRanges transID ranges).2
  cases locking : lockRanges transID (fun _ c => c) ranges n.copylocks with
  | mk c rest =>
    obtain ⟨held, failed⟩ := rest
    rw [locking] at began complete
    obtain rfl : failed = false := complete
    obtain ⟨⟨b, v, out⟩, request, final⟩ := map_eq_some_iff.mp began
    obtain ⟨vss, vbbm⟩ := undoChanges_getBlocks steady.settled request
    have vss' : v.undoChanges = n.vss := vss.trans steady.undoChanges_vss
    cases out with
    | granted freeList flushList =>
      cases final
      simp only [undoChanges, vss', vbbm]
      rfl
    | overflow message =>
      cases final
      simp only [undoChanges, vss', vbbm, undoChanges_releaseRanges]
      rfl

section Space

variable {b : VBBM} {currentFileSize vbOID : Nat} {requested : Int} {file : Vbbm.VBFileMetadata}

lemma addVBFileIfNotExists_of_known (hasher : LBID → Ver → Nat) (currentFileSize : Nat)
    (known : b.files.find? (fun f => f.OID = vbOID) = some file) :
    (Vbbm.addVBFileIfNotExists hasher b currentFileSize vbOID).1 = b := by
  have inside : b.files.findIdx (fun f => f.OID = vbOID) < b.files.length := by
    refine findIdx_lt_length_of_exists ⟨file, mem_of_find?_eq_some known, ?_⟩
    simpa using find?_some known
  simp [Vbbm.addVBFileIfNotExists, inside.ne]

lemma keptVBBM_of_known (currentFileSize : Nat) (requested : Int) (settled : Settled hasher b)
    (known : b.files.find? (fun f => f.OID = vbOID) = some file) :
    keptVBBM hasher b currentFileSize requested vbOID =
      if file.fileSize / Vbbm.blockSize < uint32 (int32 requested) then b
      else Vbbm.growFor hasher (int32 requested)
        (b.table.header.currentSize + (int32 requested).toNat) b := by
  obtain ⟨-, -, -, -, -, here⟩ :=
    addVBFileIfNotExists_spec settled currentFileSize vbOID
  have file_eq : fileFor b currentFileSize vbOID = file := by
    rw [fileFor, known, getD_some]
  unfold keptVBBM afterGrowth
  dsimp only
  rw [here, file_eq, addVBFileIfNotExists_of_known hasher currentFileSize known]

lemma keptVBBM_restored (currentFileSize : Nat) (settled : Settled hasher n.vbbm)
    (fits : SpaceFits n requested vbOID) :
    let kept := keptVBBM hasher n.vbbm currentFileSize requested vbOID
    Settled hasher kept ∧ kept.table.entries = n.vbbm.table.entries ∧
      kept.files = n.vbbm.files := by
  obtain ⟨file, known, small⟩ := fits
  intro kept
  rw [show kept = _ from keptVBBM_of_known currentFileSize requested settled known]
  split_ifs with tooLarge
  · exact ⟨settled, rfl, rfl⟩
  obtain ⟨grown, -, files⟩ := growFor_spec (int32 requested)
    (n.vbbm.table.header.currentSize + (int32 requested).toNat) settled
  refine ⟨grown, ?_, files⟩
  rcases small.resolve_left tooLarge with room | compact
  · rw [growFor_of_fits _ room]
  · exact growFor_of_compact _ _ settled compact

lemma keptVBBM_of_unknown (settled : Settled hasher b)
    (unknown : b.files.find? (fun f => f.OID = vbOID) = none) :
    (keptVBBM hasher b currentFileSize requested vbOID).files ≠ b.files := by
  obtain ⟨settled₁, -, files, -⟩ :=
    addVBFileIfNotExists_spec settled currentFileSize vbOID
  have absent : b.files.findIdx (fun f => f.OID = vbOID) = b.files.length :=
    findIdx_eq_length.mpr fun f mem => by simpa using find?_eq_none.mp unknown f mem
  rw [filesWith, if_pos absent] at files
  have kept : (keptVBBM hasher b currentFileSize requested vbOID).files =
      b.files ++ [⟨vbOID, currentFileSize, 0⟩] := by
    unfold keptVBBM
    dsimp only
    split_ifs
    · exact files
    · exact (growFor_spec _ _ settled₁).2.2.trans files
  rw [kept]
  simp

end Space

section

variable (steady : Steady hasher vssHasher n)
include steady

lemma Steady.locks_restored (fits : LocksFit transID ranges n.copylocks) :
    let undone := CopyLock.undoChanges (lockRanges transID (fun _ c => c) ranges n.copylocks).1
    undone = n.copylocks ∨ undone = CopyLock.growCL n.copylocks := by
  rw [undoChanges_lockRanges steady.lockUndo steady.regular.bounded fits, atFirstLock]
  split_ifs
  · exact .inr rfl
  · exact .inl rfl

section

variable (free : ¬ (ranges.any fun range => Vss.isLocked vssHasher n.vss range transID))
  (done : run hasher vssHasher n (.beginVBCopy currentFileSize transID vbOID ranges) = some n')
include free done

lemma Steady.restored_of_copy (locks : LocksFit transID ranges n.copylocks)
    (space : SpaceFits n (sizeSum ranges) vbOID) :
    Restored hasher vssHasher n (undoChanges n') := by
  obtain ⟨hist, tracks⟩ := steady.tracks
  obtain ⟨settled, places, files⟩ :=
    keptVBBM_restored currentFileSize steady.settled space
  rw [undoChanges_beginVBCopy steady free done]
  refine ⟨tracks.vss, rfl, rfl, steady.vssUndo, settled, places, files, ?_⟩
  exact steady.locks_restored locks

lemma Steady.trace_of_copy
    (late : ¬ (LocksFit transID ranges n.copylocks ∧ SpaceFits n (sizeSum ranges) vbOID)) :
    ¬ SameAnswers hasher vssHasher n (undoChanges n') := by
  rw [undoChanges_beginVBCopy steady free done]
  intro same
  obtain ⟨hist, tracks⟩ := steady.tracks
  by_cases locks : LocksFit transID ranges n.copylocks
  · have noSpace : ¬ SpaceFits n (sizeSum ranges) vbOID := fun space => late ⟨locks, space⟩
    cases known : n.vbbm.files.find? (fun f => f.OID = vbOID) with
    | none => exact keptVBBM_of_unknown steady.settled known same.files.symm
    | some file =>
      have small : ¬ file.fileSize / Vbbm.blockSize < uint32 (int32 (sizeSum ranges)) :=
        fun tooLarge => noSpace ⟨file, known, .inl tooLarge⟩
      have exceeds : ¬ n.vbbm.table.header.currentSize + int32 (sizeSum ranges) ≤
          n.vbbm.table.header.capacity := fun room => noSpace ⟨file, known, .inr (.inl room)⟩
      have gaps : ¬ Compact n.vbbm.table := fun compact =>
        noSpace ⟨file, known, .inr (.inr compact)⟩
      obtain ⟨lbid, d, mem, lost⟩ :=
        growVBBM_loses steady.settled.sound tracks.vbbm_unique gaps false
      have kept := keptVBBM_of_known currentFileSize (sizeSum ranges) steady.settled known
      rw [if_neg small] at kept
      have after : Vbbm.lookup hasher
          (keptVBBM hasher n.vbbm currentFileSize (sizeSum ranges) vbOID) lbid d.verID = none := by
        rw [kept]
        exact (lookup_eq_none (growFor_spec _ _ steady.settled).1.sound).mpr
          fun d' kept => lost d'
            (mem_of_le (growFor_le steady.settled (not_le.mp exceeds)) kept)
      have before := (same.place lbid d.verID).trans after
      rw [tracks.lookup_eq mem] at before
      cases before
  · rcases trace_of_not_locksFit steady.regular.bounded locks with size | ⟨l, locked⟩
    · exact size same.copyLocks.symm
    · exact locked (same.copyLocked l).symm

end

variable (transID : Ver)

lemma Steady.undoChanges_vbCommit :
    undoChanges (vbCommit n transID).1 =
      { n with
        vss := n.vss.setHeader
          { n.vss.header with
            extra := n.vss.header.extra -
              (n.vss.entries.filter fun e => e.2.verID = transID).card } } := by
  simp [undoChanges, vbCommit, undoChanges_commit transID steady.vssUndo,
    steady.settled.undoChanges_eq, undoChanges_of_settled steady.lockUndo]

lemma Steady.undone_lockedEntryCount :
    (undoChanges (vbCommit n transID).1).vss.header.extra = n.vss.header.extra -
      (n.vss.entries.filter fun e => e.2.verID = transID).card := by
  rw [steady.undoChanges_vbCommit]
  rfl

variable (ranges : List LBIDRange)

lemma Steady.dmlLock_eq (txnID : Ver) :
    (dmlLockLBIDRanges n (fun _ c => c) ranges txnID).1 =
      { n with copylocks := (lockRanges txnID (fun _ c => c) ranges n.copylocks).1 } := by
  have complete := (steady.regular.lockRanges txnID ranges).2
  unfold dmlLockLBIDRanges
  split
  case h_1 c held locking => rw [locking]
  case h_2 c held locking =>
    rw [locking] at complete
    cases complete

lemma Steady.undoChanges_dmlLock (txnID : Ver) :
    undoChanges (dmlLockLBIDRanges n (fun _ c => c) ranges txnID).1 =
      { n with
        copylocks :=
          CopyLock.undoChanges (lockRanges txnID (fun _ c => c) ranges n.copylocks).1 } := by
  simp [steady.dmlLock_eq, undoChanges, steady.undoChanges_vss, steady.settled.undoChanges_eq]

lemma Steady.writes (vbOID : Nat)
    (blocks : List (LBID × Nat)) (free : ∀ e ∈ blocks, NotLocked n transID e.1) :
    Writes hasher vssHasher transID n
      (written vssHasher n.vss transID [] (blocks.map Prod.fst))
      (bulkWriteVBEntry hasher vssHasher transID vbOID blocks n).1 := by
  obtain ⟨hist, tracks⟩ := steady.tracks
  exact writes_of_bulkWriteVBEntry vbOID blocks [] tracks
    (fun e mem => notHeld_of_notLocked tracks (free e mem)) (by simp)
    fun l _ => tracks.currentVersion l

end

lemma writeVBEntry_eq_bulk (lbid : LBID) (vbOID vbFBO : Nat) :
    (writeVBEntry hasher vssHasher n transID lbid vbOID vbFBO).1 =
      (bulkWriteVBEntry hasher vssHasher transID vbOID [(lbid, vbFBO)] n).1 := by
  simp only [bulkWriteVBEntry]
  split_ifs <;> rfl

lemma Steady.restored_of_undoChanges (steady : Steady hasher vssHasher n)
    (undone : undoChanges n' = undoChanges n) : Restored hasher vssHasher n (undoChanges n') := by
  rw [undone, steady.undoChanges_eq]
  exact steady.restored_self

variable {c : Command}

/-- Undoing a restorable command restores the tables. -/
lemma Steady.restored (steady : Steady hasher vssHasher n) (free : WritesFree n c)
    (restorable : Restorable vssHasher n c) (done : run hasher vssHasher n c = some n') :
    Restored hasher vssHasher n (undoChanges n') := by
  obtain ⟨hist, tracks⟩ := steady.tracks
  cases c with
  | writeVBEntry transID lbid vbOID vbFBO =>
    cases done
    rw [writeVBEntry_eq_bulk]
    have wrote := steady.writes transID vbOID [(lbid, vbFBO)] (forall_mem_singleton.mpr free)
    exact steady.restored_of_writes wrote restorable.1 restorable.2
  | bulkWriteVBEntry transID vbOID blocks =>
    cases done
    exact steady.restored_of_writes (steady.writes transID vbOID blocks free)
      restorable.1 restorable.2
  | beginVBCopy currentFileSize transID vbOID ranges =>
    by_cases held : (ranges.any fun range => Vss.isLocked vssHasher n.vss range transID)
    · simp only [run, beginVBCopy, if_pos held, map_some, some.injEq] at done
      exact steady.restored_of_undoChanges (by rw [done])
    · obtain ⟨locks, space⟩ := restorable.resolve_left held
      exact steady.restored_of_copy held done locks space
  | endVBCopy ranges =>
    cases done
    refine steady.restored_of_undoChanges ?_
    simp only [undoChanges, endVBCopy, undoChanges_releaseRanges]
  | vbCommit transID =>
    cases done
    have kept : n.vss.header.extra - (n.vss.entries.filter fun e => e.2.verID = transID).card =
        n.vss.header.extra := by
      rcases restorable with zero | untouched
      · rw [zero, Nat.zero_sub]
      · rw [filter_eq_nil.mpr untouched, card_zero, Nat.sub_zero]
    rw [steady.undoChanges_vbCommit, kept]
    exact steady.restored_self
  | vbRollback transID lbidList =>
    cases done
    exact steady.restored_of_undoChanges (undoChanges_vbRollback n transID lbidList)
  | vbRollbackRanges transID lbidList =>
    cases done
    exact steady.restored_of_undoChanges (undoChanges_vbRollback n transID _)
  | deleteOID lbids deleted =>
    cases done
    exact steady.restored_of_undoChanges (undoChanges_deleteOID tracks.vss lbids deleted)
  | dmlLockLBIDRanges ranges txnID =>
    cases done
    rw [steady.undoChanges_dmlLock]
    refine ⟨tracks.vss, rfl, rfl, steady.vssUndo, steady.settled, rfl, rfl, ?_⟩
    exact steady.locks_restored restorable
  | dmlReleaseLBIDRanges ranges =>
    cases done
    refine steady.restored_of_undoChanges ?_
    simp only [undoChanges, dmlReleaseLBIDRanges, undoChanges_releaseRanges]

/-- Undoing any other command leaves a trace. -/
lemma Steady.trace (steady : Steady hasher vssHasher n) (free : WritesFree n c)
    (late : ¬ Restorable vssHasher n c) (done : run hasher vssHasher n c = some n') :
    ¬ SameAnswers hasher vssHasher n (undoChanges n') := by
  cases c with
  | writeVBEntry transID lbid vbOID vbFBO =>
    cases done
    rw [writeVBEntry_eq_bulk]
    have wrote := steady.writes transID vbOID [(lbid, vbFBO)] (forall_mem_singleton.mpr free)
    exact steady.trace_of_writes wrote late
  | bulkWriteVBEntry transID vbOID blocks =>
    cases done
    exact steady.trace_of_writes (steady.writes transID vbOID blocks free) late
  | beginVBCopy currentFileSize transID vbOID ranges =>
    obtain ⟨notHeld, notFits⟩ := not_or.mp late
    exact steady.trace_of_copy notHeld done notFits
  | vbCommit transID =>
    cases done
    intro same
    obtain ⟨locked, mine⟩ := not_or.mp late
    have counted : 0 < (n.vss.entries.filter fun e => e.2.verID = transID).card := by
      rw [card_pos]
      exact fun untouched => mine (filter_eq_nil.mp untouched)
    have kept := same.lockedEntryCount
    rw [steady.undone_lockedEntryCount] at kept
    omega
  | dmlLockLBIDRanges ranges txnID =>
    cases done
    rw [steady.undoChanges_dmlLock]
    intro same
    rcases trace_of_not_locksFit steady.regular.bounded late with size | ⟨l, locked⟩
    · exact size same.copyLocks.symm
    · exact locked (same.copyLocked l).symm
  | endVBCopy _ | vbRollback _ _ | vbRollbackRanges _ _ | deleteOID _ _
  | dmlReleaseLBIDRanges _ => exact absurd trivial late

lemma steady_confirmChanges (tracks : Tracks hasher vssHasher n.vss n.vbbm.table hist)
    (regular : Regular n.copylocks) : Steady hasher vssHasher (confirmChanges n) :=
  ⟨⟨hist, tracks_confirmChanges tracks⟩, rfl, rfl, rfl, rfl, regular.bounded, regular.counted⟩

lemma restoreOldVersion_copylocks (n : Node) (lbid : LBID) :
    (restoreOldVersion hasher vssHasher n transID lbid).1.copylocks = n.copylocks := by
  unfold restoreOldVersion
  split
  · rfl
  · split <;> rfl

lemma vbRollback_regular (regular : Regular n.copylocks) (transID : Ver) (lbids : List LBID) :
    Regular (vbRollback hasher vssHasher n transID lbids).1.copylocks := by
  rw [vbRollback, rollbackBlocks_keeps Node.copylocks restoreOldVersion_copylocks fun _ _ _ => rfl]
  exact regular.releaseWhere _

lemma beginVBCopy_regular {r : Node × Int × List Vbbm.VBRange} (regular : Regular n.copylocks)
    (done : beginVBCopy hasher vssHasher n (fun _ c => c) currentFileSize transID vbOID ranges =
      some r) : Regular r.1.copylocks := by
  unfold beginVBCopy at done
  split_ifs at done with held
  · cases done
    exact regular
  have locked := (regular.lockRanges transID ranges).1
  split at done
  case h_1 c held locking =>
    rw [locking] at locked
    cases done
    exact locked.releaseRanges _
  case h_2 c held locking =>
    rw [locking] at locked
    obtain ⟨⟨b, v, out⟩, -, final⟩ := map_eq_some_iff.mp done
    cases out with
    | granted free flushList =>
      cases final
      exact locked
    | overflow message =>
      cases final
      exact locked.releaseRanges _

lemma deleteOID_spec (tracks : Tracks hasher vssHasher n.vss n.vbbm.table hist)
    (lbids : Option (List LBIDRange)) (deleted : Bool) :
    (deleteOID hasher vssHasher n lbids deleted).1.copylocks = n.copylocks ∧
      ∃ hist', Tracks hasher vssHasher (deleteOID hasher vssHasher n lbids deleted).1.vss
        (deleteOID hasher vssHasher n lbids deleted).1.vbbm.table hist' := by
  refine deleteOID_keeps (P := fun m => m.copylocks = n.copylocks ∧
    ∃ hist', Tracks hasher vssHasher m.vss m.vbbm.table hist') ?_ ⟨rfl, hist, tracks⟩ lbids deleted
  rintro m range ⟨locks, hist', tracks'⟩
  exact ⟨locks, _, removeEntriesFromDB_tracks tracks' range⟩

lemma Steady.confirmed (steady : Steady hasher vssHasher n) (proper : Proper hasher n c)
    (done : run hasher vssHasher n c = some n') : Steady hasher vssHasher (confirmChanges n') := by
  obtain ⟨hist, tracks⟩ := steady.tracks
  have regular := steady.regular
  obtain ⟨free, proper⟩ := proper
  cases c with
  | writeVBEntry transID lbid vbOID vbFBO =>
    cases done
    obtain ⟨hist', tracks', -⟩ := writeVBEntry_tracks tracks
      (notHeld_of_notLocked tracks free) vbOID vbFBO
    refine steady_confirmChanges tracks' ?_
    have wrote := steady.writes transID vbOID [(lbid, vbFBO)] (forall_mem_singleton.mpr free)
    rw [writeVBEntry_eq_bulk, wrote.copylocks_eq]
    exact regular
  | bulkWriteVBEntry transID vbOID blocks =>
    cases done
    obtain ⟨hist', tracks'⟩ := bulkWriteVBEntry_tracks tracks vbOID blocks
      fun e mem => notHeld_of_notLocked tracks (free e mem)
    refine steady_confirmChanges tracks' ?_
    rw [(steady.writes transID vbOID blocks free).copylocks_eq]
    exact regular
  | beginVBCopy currentFileSize transID vbOID ranges =>
    obtain ⟨⟨n₁, code, freeList⟩, began, rfl⟩ := map_eq_some_iff.mp done
    have regular' := beginVBCopy_regular regular began
    rcases beginVBCopy_cases began with ⟨vss, vbbm, -⟩ | ⟨out, request, -⟩
    · have same : Tracks hasher vssHasher n₁.vss n₁.vbbm.table hist := by rwa [vss, vbbm]
      exact steady_confirmChanges same regular'
    · obtain ⟨-, hist', tracks', -⟩ := getBlocks_tracks (fun _ _ => True) steady.settled tracks
        proper (fun _ _ _ _ => trivial) request
      exact steady_confirmChanges tracks' regular'
  | endVBCopy ranges =>
    cases done
    exact steady_confirmChanges tracks (regular.releaseRanges ranges)
  | vbCommit transID =>
    cases done
    exact steady_confirmChanges (vbCommit_tracks tracks transID) regular
  | vbRollback transID lbidList =>
    cases done
    obtain ⟨hist', tracks'⟩ := vbRollback_tracks tracks proper
    exact steady_confirmChanges tracks' (vbRollback_regular regular transID lbidList)
  | vbRollbackRanges transID lbidList =>
    cases done
    obtain ⟨hist', tracks'⟩ := vbRollback_tracks tracks proper
    exact steady_confirmChanges tracks' (vbRollback_regular regular transID _)
  | deleteOID lbids deleted =>
    cases done
    obtain ⟨locks, hist', tracks'⟩ := deleteOID_spec tracks lbids deleted
    exact steady_confirmChanges tracks' (locks ▸ regular)
  | dmlLockLBIDRanges ranges txnID =>
    cases done
    rw [steady.dmlLock_eq]
    exact steady_confirmChanges tracks
      (regular.lockRanges txnID ranges).1
  | dmlReleaseLBIDRanges ranges =>
    cases done
    exact steady_confirmChanges tracks
      (regular.releaseRanges ranges)

/-- A command and whether its changes are confirmed. -/
structure Event where
  command : Command
  confirmed : Bool

def step (hasher : LBID → Ver → Nat) (vssHasher : LBID → Nat) (n : Node) (e : Event) :
    Option Node :=
  (run hasher vssHasher n e.command).map fun n' =>
    if e.confirmed then confirmChanges n' else undoChanges n'

def Allowed (hasher : LBID → Ver → Nat) (vssHasher : LBID → Nat) (n : Node) (e : Event) : Prop :=
  if e.confirmed then Proper hasher n e.command
  else WritesFree n e.command ∧ Restorable vssHasher n e.command

lemma Steady.step {e : Event} (steady : Steady hasher vssHasher n)
    (allowed : Allowed hasher vssHasher n e) (taken : step hasher vssHasher n e = some n') :
    Steady hasher vssHasher n' := by
  obtain ⟨c, confirmed⟩ := e
  obtain ⟨n₁, done, rfl⟩ := map_eq_some_iff.mp taken
  cases confirmed with
  | true => exact steady.confirmed allowed done
  | false =>
    obtain ⟨free, restorable⟩ := allowed
    exact (steady.restored free restorable done).steady steady

lemma steady_of_reaches
    (reached : Runs.Reaches (step hasher vssHasher) (Allowed hasher vssHasher) initial n) :
    Steady hasher vssHasher n :=
  reached.invariant steady_initial fun _ _ _ steady allowed taken => steady.step allowed taken

/-- In every state reached, undoing a command makes all queries answer as before it exactly when
the command is restorable there. -/
theorem undone_sameAnswers_iff {c : Command}
    (reached : Runs.Reaches (step hasher vssHasher) (Allowed hasher vssHasher) initial n)
    (free : WritesFree n c) (done : run hasher vssHasher n c = some n') :
    SameAnswers hasher vssHasher n (undoChanges n') ↔ Restorable vssHasher n c := by
  have steady := steady_of_reaches reached
  constructor
  · intro same
    by_contra late
    exact steady.trace free late done same
  · intro restorable
    exact (steady.restored free restorable done).sameAnswers steady

/-- Block 7 is written by transaction 1. -/
def blockWritten : Node :=
  confirmChanges (writeVBEntry (fun lbid verID => lbid + verID) id initial 1 7 9 0).1

lemma blockWritten_reached :
    Runs.Reaches (step (fun lbid verID => lbid + verID) id)
      (Allowed (fun lbid verID => lbid + verID) id) initial blockWritten :=
  .next (a := ⟨.writeVBEntry 1 7 9 0, true⟩) .here
    ⟨VersionInvariant.notLocked_initial 1 7, trivial⟩ rfl

lemma blockWritten_entry : (7, ⟨1, false, true⟩) ∈ blockWritten.vss.entries :=
  mem_entries.mpr ⟨1, by decide, rfl, rfl⟩

/-- The write has counted its lock and entered its version. -/
lemma not_restorable_blockWritten : ¬ Restorable id blockWritten (.vbCommit 1) := by
  rintro (uncounted | absent)
  · exact absurd uncounted (by decide)
  · exact absent _ blockWritten_entry rfl

/-- Undoing the commit leaves the locked entry uncounted. -/
theorem undone_commit_loses_count :
    ∃ n c n',
      Runs.Reaches (step (fun lbid verID => lbid + verID) id)
        (Allowed (fun lbid verID => lbid + verID) id) initial n ∧
      WritesFree n c ∧ run (fun lbid verID => lbid + verID) id n c = some n' ∧
      n.vss.header.extra = 1 ∧ (undoChanges n').vss.header.extra = 0 ∧
      ¬ SameAnswers (fun lbid verID => lbid + verID) id n (undoChanges n') := by
  have steady := steady_of_reaches blockWritten_reached
  have done : run (fun lbid verID => lbid + verID) id blockWritten (.vbCommit 1) =
      some (vbCommit blockWritten 1).1 := rfl
  refine ⟨blockWritten, .vbCommit 1, _, blockWritten_reached, trivial, done, by decide, ?_,
    steady.trace (c := .vbCommit 1) trivial not_restorable_blockWritten done⟩
  rw [steady.undone_lockedEntryCount]
  have counted : 0 < (blockWritten.vss.entries.filter fun e => e.2.verID = 1).card :=
    card_pos_iff_exists_mem.mpr
      ⟨_, Multiset.mem_filter.mpr ⟨blockWritten_entry, rfl⟩⟩
  have one : blockWritten.vss.header.extra = 1 := by decide
  omega

/-- The write is undone without a trace, its rollback too, and its commit is not. -/
theorem undone_first_write :
    SameAnswers (fun lbid verID => lbid + verID) id initial
        (undoChanges (writeVBEntry (fun lbid verID => lbid + verID) id initial 1 7 9 0).1) ∧
      SameAnswers (fun lbid verID => lbid + verID) id blockWritten
        (undoChanges (vbRollback (fun lbid verID => lbid + verID) id blockWritten 1 [7]).1) ∧
      ¬ SameAnswers (fun lbid verID => lbid + verID) id blockWritten
        (undoChanges (vbCommit blockWritten 1).1) := by
  have fits : WritesFit id initial 1 [7] := ⟨.inl (by decide), .inl (by decide)⟩
  refine ⟨?_, ?_, fun same => not_restorable_blockWritten ?_⟩
  · exact (undone_sameAnswers_iff (c := .writeVBEntry 1 7 9 0) .here
      (VersionInvariant.notLocked_initial 1 7) rfl).mpr fits
  · exact (undone_sameAnswers_iff (c := .vbRollback 1 [7]) blockWritten_reached trivial rfl).mpr
      trivial
  · exact (undone_sameAnswers_iff (c := .vbCommit 1) blockWritten_reached trivial rfl).mp same

end Commands

end CommandUndo
