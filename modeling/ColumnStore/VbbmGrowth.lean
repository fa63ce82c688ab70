import ColumnStore.VersionUndo

/-!
# Growing the version buffer block map

A growth copies the first `vbCurrentSize` slots and no more. Since a removal leaves its slot free
wherever it is, this is everything only as long as no used slot lies behind them. An insertion
grows a full table, where that is so; adding a file and making room for a request do not look.

The runs take the calls one by one, a load as the new segment and its insertions. An insertion is
of a pair of LBID and version that is not there, as every caller makes it.
-/

namespace VbbmGrowth

open ChainedTable ChainedTable.Table Vbbm VbbmInvariant VersionUndo Multiset
open Vss (LBID Ver)

variable {hasher : LBID → Ver → Nat} {t : Table LBID VBBMData Unit} {b b' : VBBM}

/-- At least the initial count, rounded up to the next increment point. -/
def loadCapacity (count : Nat) : Nat :=
  let atLeast := if count < storageInitialCount then storageInitialCount else count
  if atLeast % storageIncrementCount ≠ 0 then
    (atLeast / storageIncrementCount + 1) * storageIncrementCount
  else atLeast

def growForLoad (count : Nat) (files : List VBFileMetadata) : VBBM where
  table := Table.empty
    { capacity := loadCapacity count, currentSize := 0, lowWater := 0,
      numBuckets := loadCapacity count / 4, extra := () }
    blank []
  files := files
  fileUndo := []

/-- A new segment with the files at their start; records of the old one are not thrown away. -/
def clear (b : VBBM) (currentFileSize : Nat) : VBBM where
  table := { initShmseg.table with undo := b.table.strandedUndo }
  files := b.files.map fun f => ⟨f.OID, currentFileSize, 0⟩
  fileUndo := []

inductive Operation
  | insert (lbid : LBID) (d : VBBMData) (loading : Bool)
  | removeEntry (lbid : LBID) (verID : Ver)
  | makeFileUndoRecord (fileIndex : Nat)
  | setFile (fileIndex : Nat) (file : VBFileMetadata)
  | growVBBM (addAFile : Bool)
  | growForLoad (count : Nat) (files : List VBFileMetadata)
  | clear (currentFileSize : Nat)
  | confirmChanges
  | undoChanges

def step (hasher : LBID → Ver → Nat) (b : VBBM) : Operation → Option VBBM
  | .insert lbid d loading => some (insert hasher b lbid d loading)
  | .removeEntry lbid verID => some (removeEntry hasher b lbid verID)
  | .makeFileUndoRecord fileIndex => some (makeFileUndoRecord b fileIndex)
  | .setFile fileIndex file => some (setFile b fileIndex file)
  | .growVBBM addAFile => some (growVBBM hasher b addAFile)
  | .growForLoad count files => some (growForLoad count files)
  | .clear currentFileSize => some (clear b currentFileSize)
  | .confirmChanges => some (Vbbm.confirmChanges b)
  | .undoChanges => some (Vbbm.undoChanges b)

/-- New pairs are inserted, without records only while there are none, and only a table without
gaps is grown. -/
def Allowed (hasher : LBID → Ver → Nat) (b : VBBM) : Operation → Prop
  | .insert lbid d loading =>
    Vbbm.lookup hasher b lbid d.verID = none ∧ (loading = true → b.table.undo = [])
  | .growVBBM _ => Compact b.table
  | _ => True

/-- Every pair is found where it was, the count is that of the used slots and the known files are
as they were. -/
structure Keeps (hasher : LBID → Ver → Nat) (b b' : VBBM) : Prop where
  places : ∀ lbid verID, Vbbm.lookup hasher b lbid verID = Vbbm.lookup hasher b' lbid verID
  counted : b'.table.header.currentSize =
    ((Finset.range b'.table.header.capacity).filter fun i => (b'.table.slots i).key.isSome).card
  files : b.files <+: b'.files

/-- The count is exact, which `Sound` leaves open, and the keys are distinct. -/
structure Exact (hasher : LBID → Ver → Nat) (t : Table LBID VBBMData Unit) : Prop where
  sound : Sound hasher t
  unique : UniqueKeys t
  counted : t.header.currentSize = t.entries.card

lemma exact_empty (h : Header Unit) (undo : List (Image LBID VBBMData Unit))
    (buckets : 0 < h.numBuckets) (low : h.lowWater = 0) (size : h.currentSize = 0) :
    Exact hasher (Table.empty h blank undo) :=
  ⟨⟨threaded_empty h blank undo buckets low, by simp, by simp [empty, size]⟩, by simp [UniqueKeys],
    by rw [entries_empty]; exact size⟩

lemma exact_initial (undo : List (Image LBID VBBMData Unit)) :
    Exact hasher { initShmseg.table with undo := undo } :=
  exact_empty initShmseg.table.header undo (by decide) rfl rfl

lemma Exact.confirmChanges (exact : Exact hasher t) : Exact hasher t.confirmChanges :=
  ⟨exact.sound.confirmChanges, exact.unique, exact.counted⟩

section

variable (exact : Exact hasher b.table)
include exact

lemma Exact.growVBBM (compact : Compact b.table) (addAFile : Bool) :
    Exact hasher (growVBBM hasher b addAFile).table := by
  have same := growVBBM_entries_of_compact exact.sound compact addAFile
  refine ⟨(growVBBM_spec exact.sound addAFile).1, by rw [UniqueKeys, same]; exact exact.unique, ?_⟩
  rw [same, ← exact.counted, (growVBBM_copied exact.sound addAFile).header]
  rfl

lemma Exact.roomFor_keeps :
    (roomFor hasher b).table.header.currentSize = b.table.header.currentSize ∧
      (b.table.undo = [] → (roomFor hasher b).table.undo = []) := by
  unfold roomFor
  split
  · have copied := growVBBM_copied exact.sound false
    exact ⟨by rw [copied.header]; rfl, fun _ => copied.undo⟩
  · exact ⟨rfl, id⟩

lemma Exact.insert {lbid : LBID} {d : VBBMData}
    (new : lookup hasher b lbid d.verID = none) (loading : Bool) :
    Exact hasher (insert hasher b lbid d loading).table := by
  obtain ⟨sound, entries, -⟩ := insert_spec exact.sound lbid d loading
  refine ⟨sound, ?_, ?_⟩
  · rw [UniqueKeys, entries, map_cons, nodup_cons]
    refine ⟨fun mem => ?_, exact.unique⟩
    obtain ⟨⟨k, e⟩, old, key⟩ := mem_map.mp mem
    obtain ⟨rfl, version⟩ : k = lbid ∧ e.verID = d.verID := by simpa using key
    exact (lookup_eq_none exact.sound).mp new e old version
  · rw [entries, card_cons, ← exact.counted, ← exact.roomFor_keeps.1]
    cases loading <;> rfl

lemma Exact.removeEntry (lbid : LBID) (verID : Ver) :
    Exact hasher (removeEntry hasher b lbid verID).table := by
  have less := removeFromTable_le exact.sound lbid verID
  obtain ⟨sound, ⟨-, same⟩ | ⟨d, -, entries, size⟩⟩ := removeFromTable_spec exact.sound lbid verID
  · exact (congrArg (Exact hasher) same).mpr exact
  refine ⟨sound, VersionBufferSpace.nodup_map_of_le _ exact.unique less, ?_⟩
  have counted := exact.counted
  rw [entries] at counted
  exact size.trans (Nat.sub_eq_of_eq_add counted)

end

/-- Both the table and the one an undo would leave. -/
def Inv (hasher : LBID → Ver → Nat) (b : VBBM) : Prop :=
  Exact hasher b.table ∧ Exact hasher b.table.undoChanges

lemma Exact.inv (exact : Exact hasher b.table) (clean : b.table.undo = []) : Inv hasher b :=
  ⟨exact, by rwa [(Logged.refl b.table).undoChanges_eq clean]⟩

lemma Inv.step {op : Operation} (inv : Inv hasher b) (allowed : Allowed hasher b op)
    (taken : step hasher b op = some b') : Inv hasher b' := by
  cases op <;> cases taken
  case insert lbid d loading =>
    obtain ⟨new, clean⟩ := allowed
    have exact := inv.1.insert new loading
    cases loading with
    | true => exact exact.inv (inv.1.roomFor_keeps.2 (clean rfl))
    | false =>
      refine ⟨exact, ?_⟩
      have undone := congrArg VBBM.table (undoChanges_insert hasher inv.1.sound lbid d)
      change (insert hasher b lbid d false).table.undoChanges = _ at undone
      rw [undone]
      split
      · rename_i full
        exact inv.1.growVBBM (fun _ inside _ => full ▸ inside) false
      · exact inv.2
  case removeEntry lbid verID =>
    exact ⟨inv.1.removeEntry lbid verID,
      (logged_removeFromTable b.table lbid verID).undoChanges ▸ inv.2⟩
  case makeFileUndoRecord => exact inv
  case setFile => exact inv
  case growVBBM addAFile =>
    exact (inv.1.growVBBM allowed addAFile).inv (growVBBM_copied inv.1.sound addAFile).undo
  case growForLoad count files =>
    refine (exact_empty _ [] (Nat.div_pos ?_ (by decide)) rfl rfl).inv rfl
    have rounded (n : Nat) (large : 4 ≤ n) : 4 ≤ if n % storageIncrementCount ≠ 0 then
        (n / storageIncrementCount + 1) * storageIncrementCount else n := by
      unfold storageIncrementCount
      split <;> omega
    exact rounded _ (by unfold storageInitialCount; split <;> omega)
  case clear =>
    refine ⟨exact_initial _, ?_⟩
    rw [undoChanges_of_stranded rfl]
    exact (exact_initial _).confirmChanges
  case confirmChanges => exact inv.1.confirmChanges.inv rfl
  case undoChanges => exact inv.2.inv rfl

/-- In every run that inserts new pairs and grows no table with gaps, a growth loses nothing exactly
where no used slot lies behind the first `vbCurrentSize`. -/
theorem growth_keeps_iff (reached : Runs.Reaches (step hasher) (Allowed hasher) initShmseg b)
    (addAFile : Bool) :
    Keeps hasher b (Vbbm.growVBBM hasher b addAFile) ↔ Compact b.table := by
  obtain ⟨exact, -⟩ : Inv hasher b :=
    reached.invariant ((exact_initial []).inv rfl) fun _ _ _ inv allowed taken =>
      inv.step allowed taken
  constructor
  · intro keeps
    by_contra gaps
    obtain ⟨lbid, d, mem, lost⟩ := growVBBM_loses exact.sound exact.unique gaps addAFile
    have found := keeps.places lbid d.verID
    rw [lookup_of_mem exact.sound exact.unique mem,
      (lookup_eq_none (growVBBM_spec exact.sound addAFile).1).mpr lost] at found
    cases found
  intro compact
  have grown := exact.growVBBM compact addAFile
  refine ⟨lookup_congr exact.sound grown.sound exact.unique
    (growVBBM_entries_of_compact exact.sound compact addAFile), ?_, ?_⟩
  · rw [← card_entries]
    exact grown.counted
  · cases addAFile
    · exact List.prefix_rfl
    · exact List.prefix_append _ _

/-- The second of two entries is removed. -/
theorem growth_keeps_first_entry :
    ∃ b, Runs.Reaches (step fun _ _ => 0) (Allowed fun _ _ => 0) initShmseg b ∧
      Keeps (fun _ _ => 0) b (Vbbm.growVBBM (fun _ _ => 0) b true) ∧
      Vbbm.lookup (fun _ _ => 0) (Vbbm.growVBBM (fun _ _ => 0) b true) 7 3 = some (1, 0) := by
  have reached : Runs.Reaches (step fun _ _ => 0) (Allowed fun _ _ => 0) initShmseg _ :=
    .next (a := .removeEntry 8 4) (.next (a := .insert 8 ⟨4, 1, 1⟩ false)
      (.next (a := .insert 7 ⟨3, 1, 0⟩ false) .here ⟨by decide +kernel, by simp⟩ rfl)
      ⟨by decide +kernel, by simp⟩ rfl) trivial rfl
  refine ⟨_, reached, (growth_keeps_iff reached true).mpr fun i _ used => ?_, by decide +kernel⟩
  obtain _ | _ | i := i
  · decide +kernel
  · exact absurd used (by decide +kernel)
  · cases used

/-- The first of two entries is removed; adding a file then loses the second, and counts it. -/
theorem growth_loses_entry :
    ∃ b, Runs.Reaches (step fun _ _ => 0) (fun _ _ => True) initShmseg b ∧
      Vbbm.lookup (fun _ _ => 0) b 8 4 = some (1, 1) ∧
      Vbbm.lookup (fun _ _ => 0) (Vbbm.growVBBM (fun _ _ => 0) b true) 8 4 = none ∧
      (Vbbm.growVBBM (fun _ _ => 0) b true).table.header.currentSize = 1 :=
  ⟨_, .next (a := .removeEntry 7 3) (.next (a := .insert 8 ⟨4, 1, 1⟩ false)
    (.next (a := .insert 7 ⟨3, 1, 0⟩ false) .here trivial rfl) trivial rfl) trivial rfl,
    by decide +kernel, by decide +kernel, by decide +kernel⟩

end VbbmGrowth
