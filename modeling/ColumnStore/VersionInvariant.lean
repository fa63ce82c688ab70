import ColumnStore.VersionHistory

/-!
# The version invariant over whole runs

Runs of the commands of a slave node that touch the version tables, from empty tables. A write may
name any place in the version buffer, so nothing here depends on how space is handed out; that is
the subject of `SpaceReuse`.
-/

namespace VersionInvariant

open ChainedTable.Table BlockHistory Option
open Vss (LBID Ver VSS VSSData LBIDRange)
open Vbbm (VBBM VBBMData)
open CopyLock (CopyLocks)
open SlaveNode VersionHistory

variable {hasher : LBID → Ver → Nat} {vssHasher : LBID → Nat} {n : Node} {hist : History}

inductive Action
  | beginVBCopy (meanwhile : Nat → CopyLocks → CopyLocks) (currentFileSize : Nat) (transID : Ver)
      (vbOID : Nat) (ranges : List LBIDRange)
  | writeVBEntry (transID : Ver) (lbid : LBID) (vbOID vbFBO : Nat)
  | bulkWriteVBEntry (transID : Ver) (vbOID : Nat) (blocks : List (LBID × Nat))
  | endVBCopy (ranges : List LBIDRange)
  | vbCommit (transID : Ver)
  | vbRollback (transID : Ver) (lbidList : List LBID)
  | vbRollbackRanges (transID : Ver) (lbidList : List LBIDRange)
  | removeEntriesFromDB (range : LBIDRange)

/-- One command, whatever code it returns, and the confirmation of its changes. -/
def step (hasher : LBID → Ver → Nat) (vssHasher : LBID → Nat) (n : Node) : Action → Option Node
  | .beginVBCopy meanwhile currentFileSize transID vbOID ranges =>
    (beginVBCopy hasher vssHasher n meanwhile currentFileSize transID vbOID ranges).map fun r =>
      confirmChanges r.1
  | .writeVBEntry transID lbid vbOID vbFBO =>
    some (confirmChanges (writeVBEntry hasher vssHasher n transID lbid vbOID vbFBO).1)
  | .bulkWriteVBEntry transID vbOID blocks =>
    some (confirmChanges (bulkWriteVBEntry hasher vssHasher transID vbOID blocks n).1)
  | .endVBCopy ranges => some (confirmChanges (endVBCopy n ranges).1)
  | .vbCommit transID => some (confirmChanges (vbCommit n transID).1)
  | .vbRollback transID lbidList =>
    some (confirmChanges (vbRollback hasher vssHasher n transID lbidList).1)
  | .vbRollbackRanges transID lbidList =>
    some (confirmChanges (vbRollbackRanges hasher vssHasher n transID lbidList).1)
  | .removeEntriesFromDB range =>
    some (confirmChanges (removeEntriesFromDB hasher vssHasher n range))

/-- No entry of the block is locked by a transaction other than `transID`. -/
def NotLocked (n : Node) (transID : Ver) (lbid : LBID) : Prop :=
  ∀ d, (lbid, d) ∈ n.vss.entries → d.locked → d.verID = transID

/-- The list names exactly the blocks with an entry of the transaction, each once. -/
def Written (n : Node) (transID : Ver) (lbids : List LBID) : Prop :=
  lbids.Nodup ∧ ∀ lbid, lbid ∈ lbids ↔ ∃ d, (lbid, d) ∈ n.vss.entries ∧ d.verID = transID

/-- What the callers of a command see to. -/
def Proper (hasher : LBID → Ver → Nat) (n : Node) : Action → Prop
  | .beginVBCopy _ currentFileSize _ vbOID ranges =>
    GrowthKeeps hasher n.vbbm currentFileSize (sizeSum ranges) vbOID
  | .writeVBEntry transID lbid _ _ => NotLocked n transID lbid
  | .bulkWriteVBEntry transID _ blocks => ∀ e ∈ blocks, NotLocked n transID e.1
  | .endVBCopy _ => True
  | .vbCommit _ => True
  | .vbRollback transID lbidList => Written n transID lbidList
  | .vbRollbackRanges transID lbidList => Written n transID (lbidList.flatMap LBIDRange.blocks)
  | .removeEntriesFromDB _ => True

/-- The invariant of the two tables. -/
structure VersionsOk (hasher : LBID → Ver → Nat) (n : Node) : Prop where
  vss_unique : (n.vss.entries.map fun e => (e.1, e.2.verID)).Nodup
  vbbm_unique : (n.vbbm.table.entries.map fun e => (e.1, e.2.verID)).Nodup
  one_current : ∀ lbid, (n.vss.entries.filter fun e => e.1 = lbid ∧ e.2.vbFlag = false).card ≤ 1
  in_buffer_iff : ∀ lbid verID,
    (∃ d, (lbid, d) ∈ n.vss.entries ∧ d.verID = verID ∧ d.vbFlag = true) ↔
      (Vbbm.lookup hasher n.vbbm lbid verID).isSome
  locked_newest : ∀ lbid d, (lbid, d) ∈ n.vss.entries → d.locked = true →
    d.vbFlag = false ∧ ∀ d', (lbid, d') ∈ n.vss.entries → d' ≠ d → d'.verID < d.verID

section

variable (tracks : Tracks hasher vssHasher n.vss n.vbbm.table hist)
include tracks

/-- Tables that tell a history satisfy the invariant. -/
lemma versionsOk_of_tracks : VersionsOk hasher n := by
  refine ⟨tracks.vss_unique, tracks.vbbm_unique, fun lbid => ?_, fun lbid verID => ?_,
    fun lbid d mem held => ?_⟩
  · rw [card_filter_key lbid fun d : VSSData => d.vbFlag = false]
    have shown := tracks.shows lbid
    cases known : hist lbid with
    | none =>
      rw [known] at shown
      simp [shown.1]
    | some b =>
      rw [known] at shown
      have buffered : (b.older.val.map older).filter (fun d => d.vbFlag = false) = 0 := by
        simp [older]
      rw [shown.1, listed, Multiset.filter_cons_of_pos _ (by rfl), buffered]
      simp
  · have mapped : (Vbbm.lookup hasher n.vbbm lbid verID).isSome ↔
        ∃ d, (lbid, d) ∈ n.vbbm.table.entries ∧ d.verID = verID := by
      rw [Vbbm.lookup, isSome_map, isSome_iff_ne_none, Ne, VbbmInvariant.getIndex_none tracks.vbbm]
      push Not
      rfl
    rw [mapped, tracks.mapped_iff]
    constructor
    · rintro ⟨d, mem, rfl, flagged⟩
      obtain ⟨b, known, here⟩ := tracks.mem_vss_iff.mp mem
      rcases mem_listed.mp here with rfl | ⟨w, old, rfl⟩
      · cases flagged
      · exact ⟨b, known, old⟩
    · rintro ⟨b, known, old⟩
      exact ⟨older verID, tracks.mem_vss_iff.mpr ⟨b, known, mem_listed.mpr (.inr ⟨_, old, rfl⟩)⟩,
        rfl, rfl⟩
  obtain ⟨b, known, here⟩ := tracks.mem_vss_iff.mp mem
  rcases mem_listed.mp here with rfl | ⟨w, -, rfl⟩
  · refine ⟨rfl, fun d' mem' other => ?_⟩
    obtain ⟨b', known', here'⟩ := tracks.mem_vss_iff.mp mem'
    obtain rfl : b = b' := some.inj (known.symm.trans known')
    rcases mem_listed.mp here' with same | ⟨w, old, rfl⟩
    · exact absurd same other
    · exact b.older_lt w old
  · cases held

/-- Between two commands the tables tell a history and have no undo records. -/
structure Consistent (hasher : LBID → Ver → Nat) (vssHasher : LBID → Nat) (n : Node) : Prop where
  tracks : ∃ hist, Tracks hasher vssHasher n.vss n.vbbm.table hist
  undo : n.vbbm.table.undo = []
  fileUndo : n.vbbm.fileUndo = []

lemma consistent_confirmChanges : Consistent hasher vssHasher (confirmChanges n) :=
  ⟨⟨hist, tracks_confirmChanges tracks⟩, rfl, rfl⟩

lemma notHeld_of_notLocked {transID : Ver} {lbid : LBID} (free : NotLocked n transID lbid) :
    NotHeld hist transID lbid :=
  fun b known held =>
    free ⟨b.current, false, b.locked⟩
      (tracks.mem_vss_iff.mpr ⟨b, known, mem_listed.mpr (.inl rfl)⟩) held

lemma vbRollback_tracks {transID : Ver} {lbids : List LBID} (written : Written n transID lbids) :
    ∃ hist', Tracks hasher vssHasher (vbRollback hasher vssHasher n transID lbids).1.vss
      (vbRollback hasher vssHasher n transID lbids).1.vbbm.table hist' := by
  obtain ⟨nodup, exactly⟩ := written
  have mine : ∀ l ∈ lbids, ∃ b, hist l = some b ∧ (b.current = transID ∨ transID ∈ b.older) := by
    intro l mem
    obtain ⟨d, entry, rfl⟩ := (exactly l).mp mem
    obtain ⟨b, known, here⟩ := tracks.mem_vss_iff.mp entry
    refine ⟨b, known, ?_⟩
    rcases mem_listed.mp here with rfl | ⟨w, old, rfl⟩
    · exact .inl rfl
    · exact .inr old
  obtain ⟨-, -, tracks'⟩ := rollbackBlocks_tracks
    (n := { n with copylocks := CopyLock.rollback n.copylocks transID }) tracks lbids nodup mine []
  exact ⟨_, tracks'⟩

end

lemma Consistent.step {n' : Node} {a : Action} (consistent : Consistent hasher vssHasher n)
    (proper : Proper hasher n a) (taken : step hasher vssHasher n a = some n') :
    Consistent hasher vssHasher n' := by
  obtain ⟨⟨hist, tracks⟩, undo, fileUndo⟩ := consistent
  cases a with
  | beginVBCopy meanwhile currentFileSize transID vbOID ranges =>
    obtain ⟨⟨n₁, code, freeList⟩, done, rfl⟩ := map_eq_some_iff.mp taken
    rcases beginVBCopy_cases done with ⟨vss, vbbm, -⟩ | ⟨out, request, -⟩
    · have same : Tracks hasher vssHasher n₁.vss n₁.vbbm.table hist := by rwa [vss, vbbm]
      exact consistent_confirmChanges same
    · obtain ⟨-, hist', tracks', -⟩ := getBlocks_tracks (fun _ _ => True)
        ⟨tracks.vbbm, undo, fileUndo⟩ tracks proper (fun _ _ _ _ => trivial) request
      exact consistent_confirmChanges tracks'
  | writeVBEntry transID lbid vbOID vbFBO =>
    cases taken
    obtain ⟨hist', tracks', -⟩ :=
      writeVBEntry_tracks tracks (notHeld_of_notLocked tracks proper) vbOID vbFBO
    exact consistent_confirmChanges tracks'
  | bulkWriteVBEntry transID vbOID blocks =>
    cases taken
    obtain ⟨hist', tracks'⟩ := bulkWriteVBEntry_tracks tracks vbOID blocks
      fun e mem => notHeld_of_notLocked tracks (proper e mem)
    exact consistent_confirmChanges tracks'
  | endVBCopy ranges =>
    cases taken
    exact consistent_confirmChanges tracks
  | vbCommit transID =>
    cases taken
    exact consistent_confirmChanges (vbCommit_tracks tracks transID)
  | vbRollback transID lbidList | vbRollbackRanges transID lbidList =>
    cases taken
    obtain ⟨hist', tracks'⟩ := vbRollback_tracks tracks proper
    exact consistent_confirmChanges tracks'
  | removeEntriesFromDB range =>
    cases taken
    exact consistent_confirmChanges (removeEntriesFromDB_tracks tracks range)

lemma consistent_initial : Consistent hasher vssHasher initial :=
  ⟨⟨_, tracks_initial⟩, rfl, rfl⟩

/-- Every state of every run of the commands satisfies the version invariant. -/
theorem versionsOk_of_run
    (reached : Runs.Reaches (step hasher vssHasher) (Proper hasher) initial n) :
    VersionsOk hasher n := by
  have consistent : Consistent hasher vssHasher n :=
    reached.invariant consistent_initial fun _ _ _ consistent proper taken =>
      consistent.step proper taken
  obtain ⟨hist, tracks⟩ := consistent.tracks
  exact versionsOk_of_tracks tracks

lemma notLocked_initial (transID : Ver) (lbid : LBID) : NotLocked initial transID lbid := by
  intro d mem
  rw [show initial.vss.entries = 0 from entries_empty _ _ _] at mem
  exact absurd mem (Multiset.notMem_zero _)

/-- A block is written for the first time and the transaction commits. -/
theorem versionsOk_after_commit :
    let h : LBID → Ver → Nat := fun lbid verID => lbid + verID
    let written := confirmChanges (writeVBEntry h id initial 3 7 1 0).1
    VersionsOk h (confirmChanges (vbCommit written 3).1) := by
  intro h written
  have first : Runs.Reaches (step h id) (Proper h) initial written :=
    .next (a := .writeVBEntry 3 7 1 0) .here (notLocked_initial 3 7) rfl
  exact versionsOk_of_run (.next (a := .vbCommit 3) first trivial rfl)

end VersionInvariant
