import ColumnStore.VersionBufferSpace

/-!
# Undoing changes of the version tables

What `undoChanges` gives after each operation on the VSS and the VBBM. Most operations record all
they overwrite. An insert into a full table first copies the table into a larger segment, which
strands the records of the VSS and drops those of the VBBM; and a commit writes the header of the
VSS without a record.
-/

namespace VersionUndo

open ChainedTable ChainedTable.Table List Vbbm VbbmInvariant VersionBufferSpace
open Vss (LBID Ver VSS VSSData LBIDRange)
open Vbbm (VBBM VBBMData VBRange)

section Substitution

variable {hasher : LBID → Nat} {v v' : VSS}

/-- The table has no room for another entry. -/
def Full (v : VSS) : Prop :=
  v.header.currentSize = v.header.capacity

lemma logged_insert (hasher : LBID → Nat) (room : ¬ Full v) (lbid : LBID) (d : VSSData) :
    Logged v (Vss.insert hasher v lbid d false) := by
  have same : Vss.roomFor hasher v = v := if_neg room
  unfold Vss.insert Vss.insert_ insertFree
  rw [same]
  exact logged_place v ..

lemma undoChanges_insert_of_full (sound : VssInvariant.Sound hasher v) (full : Full v)
    (lbid : LBID) (d : VSSData) :
    (Vss.insert hasher v lbid d false).undoChanges = (Vss.growVSS hasher v).confirmChanges := by
  have grown : Vss.roomFor hasher v = Vss.growVSS hasher v := if_pos full
  have logged : Logged (Vss.growVSS hasher v) (Vss.insert hasher v lbid d false) := by
    unfold Vss.insert Vss.insert_ insertFree
    rw [grown]
    exact logged_place (Vss.growVSS hasher v) ..
  exact logged.undoChanges.trans
    (undoChanges_of_stranded (VssInvariant.growVSS_copied sound full).undo)

lemma logged_setVBFlag {lbid : LBID} {verID : Ver} {vbFlag : Bool}
    (done : Vss.setVBFlag hasher v lbid verID vbFlag = .ok v') : Logged v v' := by
  unfold Vss.setVBFlag at done
  split at done
  · cases done
  · cases done
    exact logged_setSlot v ..

lemma logged_removeEntry (hasher : LBID → Nat) (v : VSS) (lbid : LBID) (verID : Ver)
    (flushList : List LBID) : Logged v (Vss.removeEntry hasher v lbid verID flushList).1 := by
  unfold Vss.removeEntry
  cases Vss.getIndex hasher v lbid verID with
  | none => exact .refl v
  | some place =>
    obtain ⟨prev, index⟩ := place
    dsimp only
    split_ifs
    · exact logged_discount_unlink v ..
    -- one record of the header covers the removal of the remaining versions
    refine (logged_unlink v (Vss.bucketOf hasher v lbid) prev index).trans
      (LoggedBody.after_header ?_)
    exact (loggedBody_setHeader _ _).trans (loggedBody_removeKey ..)

lemma logged_removeEntriesFromDB {A : Type} (hasher : LBID → Nat) (v : VSS) (range : LBIDRange)
    (dropVB : LBID → VSSData → A → A) (a : A) :
    Logged v (Vss.removeEntriesFromDB hasher v range dropVB a).1 := by
  refine LoggedBody.after_header ?_
  unfold Vss.removeEntriesFromDB
  generalize v.makeUndoRecord (.header v.header) = start
  induction range.blocks generalizing start a with
  | nil => exact .refl start
  | cons lbid rest ih =>
    refine (loggedBody_removeKey Vss.releaseLock (dropVB lbid) lbid
      (Vss.bucketOf hasher start lbid) start.header.capacity none
      (start.heads (Vss.bucketOf hasher start lbid)) start a).trans ?_
    exact ih _ _

variable (txnID : Ver)
include txnID

lemma commitSlot_header (v : VSS) (i : Nat) :
    (Vss.commitSlot txnID v i).header =
      { v.header with
        extra := v.header.extra -
          if (v.slots i).key.isSome ∧ (v.slots i).data.verID = txnID then 1 else 0 } := by
  unfold Vss.commitSlot
  split_ifs with hit
  · simp only [setHeader, setSlot, makeUndoRecord]
    congr 1
    by_cases positive : 0 < v.header.extra
    · exact if_pos positive
    · exact (if_neg positive).trans (by omega)
  · rfl

lemma commitSlot_slot (v : VSS) (i j : Nat) :
    ((Vss.commitSlot txnID v i).slots j).key = (v.slots j).key ∧
      ((Vss.commitSlot txnID v i).slots j).data.verID = (v.slots j).data.verID := by
  unfold Vss.commitSlot
  split_ifs
  · by_cases here : j = i
    · subst here
      simp [setHeader, setSlot]
    · simp [setHeader, setSlot, makeUndoRecord, here]
  · exact ⟨rfl, rfl⟩

/-- Each slot of the transaction costs one count, locked or not. -/
lemma commitSlots_header (indices : List Nat) (v : VSS) :
    (indices.foldl (Vss.commitSlot txnID) v).header =
      { v.header with
        extra := v.header.extra -
          indices.countP fun i => (v.slots i).key.isSome ∧ (v.slots i).data.verID = txnID } := by
  induction indices generalizing v with
  | nil => rfl
  | cons i indices ih =>
    rw [foldl_cons, ih, commitSlot_header]
    simp only [commitSlot_slot, countP_cons, decide_eq_true_eq]
    rw [Nat.sub_sub, Nat.add_comm]

/-- The records of a commit restore the slots and leave the header alone. -/
lemma restore_commitSlots (indices : List Nat) (v : VSS) :
    ∃ records, (indices.foldl (Vss.commitSlot txnID) v).undo = records ++ v.undo ∧
      SameBody (restore records (indices.foldl (Vss.commitSlot txnID) v)) v ∧
      ∀ u : VSS, (restore records u).header = u.header := by
  induction indices generalizing v with
  | nil => exact ⟨[], rfl, ⟨rfl, rfl⟩, fun _ => rfl⟩
  | cons i indices ih =>
    obtain ⟨later, undo, body, header⟩ := ih (Vss.commitSlot txnID v i)
    rw [foldl_cons]
    by_cases hit : (v.slots i).key.isSome ∧ (v.slots i).data.verID = txnID
    · have taken : Vss.commitSlot txnID v i = _ := if_pos hit
      refine ⟨later ++ [.slot i (v.slots i)], ?_, ?_, fun u => ?_⟩
      · rw [undo, taken]
        simp [setHeader, setSlot, makeUndoRecord]
      · rw [restore_append]
        obtain ⟨heads, slots⟩ := body.restore [.slot i (v.slots i)]
        refine ⟨heads.trans ?_, slots.trans ?_⟩ <;> rw [taken] <;>
          simp [restore, apply, setHeader, setSlot, makeUndoRecord]
      · rw [restore_append]
        exact header u
    · have kept : Vss.commitSlot txnID v i = v := if_neg hit
      rw [kept] at undo body ⊢
      exact ⟨later, undo, body, header⟩

lemma undoChanges_commit (settled : v.undo = []) :
    (Vss.commit v txnID).undoChanges = v.setHeader
      { v.header with
        extra := v.header.extra - (v.entries.filter fun e => e.2.verID = txnID).card } := by
  obtain ⟨records, undo, body, header⟩ :=
    restore_commitSlots txnID (range v.header.capacity) v
  rw [settled, append_nil] at undo
  have count : (v.entries.filter fun e => e.2.verID = txnID).card =
      (range v.header.capacity).countP fun i =>
        (v.slots i).key.isSome ∧ (v.slots i).data.verID = txnID := by
    rw [← Multiset.countP_eq_card_filter, entries, ← Multiset.coe_range, Multiset.filterMap_coe,
      Multiset.coe_countP, countP_filterMap]
    refine countP_congr fun i _ => ?_
    cases key : (v.slots i).key <;> simp [Slot.entry, key]
  rw [count, ← commitSlots_header]
  exact undoChanges_of_slots settled undo body (header _)

end Substitution

section BlockMap

variable {hasher : LBID → Ver → Nat} {b b' : VBBM}

lemma undoChanges_insert (hasher : LBID → Ver → Nat) (sound : Sound hasher b.table)
    (lbid : LBID) (d : VBBMData) :
    undoChanges (insert hasher b lbid d false) =
      if b.table.header.currentSize = b.table.header.capacity then growVBBM hasher b false
      else undoChanges b := by
  have logged : Logged (roomFor hasher b).table (insert hasher b lbid d false).table :=
    logged_place (roomFor hasher b).table ..
  have undone : undoChanges (insert hasher b lbid d false) =
      undoChanges (roomFor hasher b) := by
    unfold Vbbm.undoChanges
    rw [logged.undoChanges]
    rfl
  rw [undone, roomFor]
  split_ifs
  · have clean := (growVBBM_copied sound false).undo
    unfold Vbbm.undoChanges
    rw [(Logged.refl _).undoChanges_eq clean]
    rfl
  · rfl

lemma undoChanges_removeEntry (hasher : LBID → Ver → Nat) (b : VBBM) (lbid : LBID) (verID : Ver) :
    undoChanges (removeEntry hasher b lbid verID) = undoChanges b := by
  unfold Vbbm.undoChanges Vbbm.removeEntry
  rw [(logged_removeFromTable b.table lbid verID).undoChanges]
  rfl

variable (vssHasher : LBID → Nat)

lemma logged_ageBlocks (hasher : LBID → Ver → Nat) (vbOID first last : Nat) (indices : List Nat)
    (s : Aging) :
    Logged s.table (ageBlocks hasher vssHasher vbOID first last indices s).1.table ∧
      Logged s.vss (ageBlocks hasher vssHasher vbOID first last indices s).1.vss := by
  fun_induction ageBlocks hasher vssHasher vbOID first last indices s with
  | case1 s => exact ⟨.refl _, .refl _⟩
  | case2 i rest s free ih => exact ih
  | case3 i rest s lbid key d hit locked => exact ⟨.refl _, .refl _⟩
  | case4 i rest s lbid key d hit free removed ih =>
    exact ⟨(logged_removeFromTable s.table lbid d.verID).trans ih.1,
      (logged_removeEntry vssHasher s.vss lbid d.verID s.flushList).trans ih.2⟩
  | case5 i rest s lbid key d miss ih => exact ih

lemma logged_ageRanges (hasher : LBID → Ver → Nat) (num : Int) (fileSize : Nat)
    (ranges : List VBRange) (s : Aging) :
    Logged s.table (ageRanges hasher vssHasher num fileSize ranges s).1.table ∧
      Logged s.vss (ageRanges hasher vssHasher num fileSize ranges s).1.vss := by
  fun_induction ageRanges hasher vssHasher num fileSize ranges s with
  | case1 s => exact ⟨.refl _, .refl _⟩
  | case2 range rest s inside ih => exact ih
  | case3 range rest s first last bounds s' lbid aged =>
    have logged := logged_ageBlocks vssHasher hasher range.vbOID first last
      (List.range s.table.header.capacity) s
    rw [aged] at logged
    exact logged
  | case4 range rest s first last bounds s' aged ih =>
    have logged := logged_ageBlocks vssHasher hasher range.vbOID first last
      (List.range s.table.header.capacity) s
    rw [aged] at logged
    exact ⟨logged.1.trans ih.1, logged.2.trans ih.2⟩

/-- Undoing a request leaves the table as it was after the file was added and the table grown. -/
lemma undoChanges_getBlocks {vssHasher : LBID → Nat} {v v' : VSS} {currentFileSize vbOID : Nat}
    {requested : Int} {out : Blocks}
    (settled : Settled hasher b)
    (done : getBlocks hasher vssHasher b v currentFileSize requested vbOID =
      some (b', v', out)) :
    v'.undoChanges = v.undoChanges ∧ undoChanges b' =
      let added := addVBFileIfNotExists hasher b currentFileSize vbOID
      let num := int32 requested
      if (added.1.files.getD added.2 ⟨0, 0, 0⟩).fileSize / blockSize < uint32 num then
        added.1
      else growFor hasher num (added.1.table.header.currentSize + num.toNat) added.1 := by
  obtain ⟨settled₁, -⟩ :=
    addVBFileIfNotExists_spec settled currentFileSize vbOID
  obtain ⟨settled₂, -, -⟩ := growFor_spec (int32 requested)
    ((addVBFileIfNotExists hasher b currentFileSize vbOID).1.table.header.currentSize +
      (int32 requested).toNat) settled₁
  unfold getBlocks at done
  dsimp only at done ⊢
  split_ifs at done ⊢ with tooLarge
  · cases done
    exact ⟨rfl, settled₁.undoChanges_eq⟩
  obtain ⟨⟨b₁, ranges⟩, gathered, result⟩ := Option.map_eq_some_iff.mp done
  have table := gather_table gathered
  have files := undoFiles_gather gathered
  have aged := logged_ageRanges vssHasher hasher (int32 requested)
    ((addVBFileIfNotExists hasher b currentFileSize vbOID).1.files.getD
      (addVBFileIfNotExists hasher b currentFileSize vbOID).2 ⟨0, 0, 0⟩).fileSize ranges
    ⟨b₁.table, v, []⟩
  set aging := ageRanges hasher vssHasher (int32 requested)
    ((addVBFileIfNotExists hasher b currentFileSize vbOID).1.files.getD
      (addVBFileIfNotExists hasher b currentFileSize vbOID).2 ⟨0, 0, 0⟩).fileSize ranges
    ⟨b₁.table, v, []⟩ with aging_eq
  have tables : b' = { b₁ with table := aging.1.table } ∧ v' = aging.1.vss := by
    obtain ⟨s, found⟩ := aging
    cases found <;> cases result <;> exact ⟨rfl, rfl⟩
  rw [tables.1, tables.2, ← settled₂.undoChanges_eq]
  refine ⟨aged.2.undoChanges, ?_⟩
  unfold Vbbm.undoChanges
  rw [aged.1.undoChanges, ← files, ← table]
  rfl

/-- No entry lies beyond the slots that growing copies. -/
def Compact (t : Table LBID VBBMData Unit) : Prop :=
  ∀ i < t.header.capacity, (t.slots i).key.isSome → i < t.header.currentSize

lemma growVBBM_compact (sound : Sound hasher b.table) :
    Compact (growVBBM hasher b false).table := by
  have copied := growVBBM_copied sound false
  intro i _ used
  have below := copied.below 0 (by simp [empty]) i used
  rw [copied.header]
  simpa [empty, grownHeader] using below

lemma growVBBM_entries_of_compact (sound : Sound hasher b.table)
    (compact : Compact b.table) (addAFile : Bool) :
    (growVBBM hasher b addAFile).table.entries = b.table.entries := by
  rw [growVBBM_entries sound addAFile, entries]
  obtain ⟨rest, capacity⟩ := Nat.exists_eq_add_of_le sound.size_le
  have free : ((Multiset.range rest).map (b.table.header.currentSize + ·)).filterMap
      (fun i => (b.table.slots i).entry) = 0 := by
    refine Multiset.eq_zero_of_forall_notMem fun e mem => ?_
    obtain ⟨i, inside, here⟩ := (Multiset.mem_filterMap _ _).mp mem
    obtain ⟨j, less, rfl⟩ := Multiset.mem_map.mp inside
    have used : (b.table.slots (b.table.header.currentSize + j)).key.isSome := by
      simpa [Slot.entry] using congrArg Option.isSome here
    have := compact _ (by rw [Multiset.mem_range] at less; omega) used
    omega
  rw [capacity, Multiset.range_add, Multiset.filterMap_add, free, add_zero]

/-- Growing a table with gaps loses the entries behind the first `vbCurrentSize` slots. -/
lemma growVBBM_loses (sound : Sound hasher b.table)
    (unique : UniqueKeys b.table) (gaps : ¬ Compact b.table) (addAFile : Bool) :
    ∃ lbid d, (lbid, d) ∈ b.table.entries ∧ ∀ d',
      (lbid, d') ∈ (growVBBM hasher b addAFile).table.entries → d'.verID ≠ d.verID := by
  unfold Compact at gaps
  push Not at gaps
  obtain ⟨i, inside, used, behind⟩ := gaps
  obtain ⟨lbid, key⟩ := Option.isSome_iff_exists.mp used
  refine ⟨lbid, (b.table.slots i).data, mem_entries.mpr ⟨i, inside, key, rfl⟩,
    fun d' copied version => ?_⟩
  rw [growVBBM_entries sound addAFile] at copied
  obtain ⟨j, less, here⟩ := (Multiset.mem_filterMap _ _).mp copied
  rw [Multiset.mem_range] at less
  obtain ⟨keyJ, data⟩ : (b.table.slots j).key = some lbid ∧ (b.table.slots j).data = d' := by
    simpa [Slot.entry] using here
  have same := slot_unique unique inside key (less.trans_le sound.size_le) keyJ
    (by rw [data, version])
  omega

lemma growFor_of_compact (num : Int) (k : Nat) (settled : Settled hasher b)
    (compact : Compact b.table) :
    (growFor hasher num k b).table.entries = b.table.entries := by
  induction k generalizing b with
  | zero => rfl
  | succ k ih =>
    unfold growFor
    split
    · obtain ⟨grown, -⟩ := settled_growVBBM settled false
      exact (ih grown (growVBBM_compact settled.sound)).trans
        (growVBBM_entries_of_compact settled.sound compact false)
    · rfl

lemma growFor_of_fits {num : Int} (k : Nat)
    (fits : b.table.header.currentSize + num ≤ b.table.header.capacity) :
    growFor hasher num k b = b := by
  cases k with
  | zero => rfl
  | succ k => exact if_neg (by omega)

/-- A table that has to grow keeps at most what the first copy takes over. -/
lemma growFor_le {num : Int} (settled : Settled hasher b)
    (exceeds : (b.table.header.capacity : Int) < b.table.header.currentSize + num) :
    (growFor hasher num (b.table.header.currentSize + num.toNat) b).table.entries ≤
      (growVBBM hasher b false).table.entries := by
  obtain ⟨k, fuel⟩ : ∃ k, b.table.header.currentSize + num.toNat = k + 1 :=
    Nat.exists_eq_succ_of_ne_zero (by omega)
  rw [fuel, growFor, if_pos exceeds]
  exact (growFor_spec num k
    (settled_growVBBM settled false).1).2.1

end BlockMap

end VersionUndo
