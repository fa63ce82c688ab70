import ColumnStore.TableUndo
import ColumnStore.Vbbm

/-!
# What the VBBM operations do to the table

The chains of the map are right in the sense of the table library, and `vbCurrentSize` is at least
the number of entries. It can be more: a growth copies the first `vbCurrentSize` slots and keeps
the old count, so an entry in a later slot is lost without being discounted.
-/

namespace VbbmInvariant

open ChainedTable ChainedTable.Table Vbbm Multiset
open Vss (LBID Ver VSS VSSData)

variable {hasher : LBID → Ver → Nat} {t : Table LBID VBBMData Unit} {b : VBBM}

structure Sound (hasher : LBID → Ver → Nat) (t : Table LBID VBBMData Unit) : Prop where
  threaded : Threaded (hashOf hasher) t
  card_le : t.entries.card ≤ t.header.currentSize
  size_le : t.header.currentSize ≤ t.header.capacity

/-- An LBID and version name at most one slot. -/
def UniqueKeys (t : Table LBID VBBMData Unit) : Prop :=
  (t.entries.map fun e => (e.1, e.2.verID)).Nodup

/-- Two entries never refer to the same place in a version buffer file. -/
def UniquePlaces (t : Table LBID VBBMData Unit) : Prop :=
  (t.entries.map fun e => (e.2.vbOID, e.2.vbFBO)).Nodup

lemma Sound.buckets_pos (sound : Sound hasher t) : 0 < t.header.numBuckets := by
  obtain ⟨chains, linked⟩ := sound.threaded.linked
  exact linked.buckets_pos

lemma Sound.bucketOf_lt (sound : Sound hasher t) (lbid : LBID) (verID : Ver) :
    bucketOf hasher t lbid verID < t.header.numBuckets :=
  Nat.mod_lt _ sound.buckets_pos

lemma Sound.confirmChanges (sound : Sound hasher t) : Sound hasher t.confirmChanges :=
  ⟨sound.threaded.congr rfl rfl rfl rfl rfl, sound.card_le, sound.size_le⟩

lemma sound_initShmseg : Sound hasher initShmseg.table :=
  ⟨threaded_empty _ _ _ (by simp [tableInitialCount]) rfl, by simp [initShmseg],
    by simp [initShmseg, empty]⟩

section

variable (sound : Sound hasher b.table)
include sound

variable (addAFile : Bool)

lemma growVBBM_copied :
    Copied (hashOf hasher) b.table b.table.header.currentSize
      (Table.empty (grownHeader b.table addAFile) blank []) (growVBBM hasher b addAFile).table := by
  have buckets : 0 < (grownHeader b.table addAFile).numBuckets := by
    have := sound.buckets_pos
    simp only [grownHeader]
    split <;> omega
  refine copyUsed_spec (threaded_empty _ _ _ buckets rfl) (Nat.zero_le 1) _ ?_
  have := sound.size_le
  rw [entries_empty]
  simp only [card_zero, empty, grownHeader]
  split <;> omega

lemma growVBBM_entries :
    (growVBBM hasher b addAFile).table.entries =
      (range b.table.header.currentSize).filterMap fun i => (b.table.slots i).entry := by
  rw [(growVBBM_copied sound addAFile).entries, entries_empty, add_zero]

lemma growVBBM_spec :
    Sound hasher (growVBBM hasher b addAFile).table ∧
      (growVBBM hasher b addAFile).table.entries ≤ b.table.entries := by
  have copied := growVBBM_copied sound addAFile
  have header := copied.header
  have size : (growVBBM hasher b addAFile).table.header.currentSize =
      b.table.header.currentSize := by
    rw [header]
    rfl
  have capacity : b.table.header.capacity ≤
      (growVBBM hasher b addAFile).table.header.capacity := by
    rw [header]
    simp only [empty, grownHeader]
    split <;> omega
  have le : (growVBBM hasher b addAFile).table.entries ≤ b.table.entries := by
    rw [growVBBM_entries sound addAFile]
    exact filterMap_le_filterMap _ (range_le.mpr sound.size_le)
  refine ⟨⟨copied.threaded, ?_, ?_⟩, le⟩
  · rw [size]
    exact (card_le_card le).trans sound.card_le
  · rw [size]
    exact sound.size_le.trans capacity

lemma roomFor_spec :
    Sound hasher (roomFor hasher b).table ∧
      (roomFor hasher b).table.entries = b.table.entries ∧
      (roomFor hasher b).table.header.currentSize < (roomFor hasher b).table.header.capacity ∧
      (roomFor hasher b).files = b.files := by
  unfold roomFor
  split
  case isTrue full =>
    refine ⟨(growVBBM_spec sound false).1, ?_, ?_, rfl⟩
    · rw [growVBBM_entries sound false, full]
      rfl
    · rw [(growVBBM_copied sound false).header]
      simp [empty, grownHeader, full, storageIncrementCount]
  case isFalse room => exact ⟨sound, rfl, lt_of_le_of_ne sound.size_le room, rfl⟩

lemma insert_spec (lbid : LBID) (d : VBBMData) (loading : Bool) :
    Sound hasher (insert hasher b lbid d loading).table ∧
      (insert hasher b lbid d loading).table.entries = (lbid, d) ::ₘ b.table.entries ∧
      (insert hasher b lbid d loading).files = b.files := by
  obtain ⟨sound', same, room, files⟩ := roomFor_spec sound
  have fits := lt_of_le_of_lt sound'.card_le room
  have threaded := sound'.threaded.insertFree (Nat.zero_le 1) loading lbid d fits
  have entries := sound'.threaded.entries_insertFree 0 loading lbid d fits
  have entries' : (insert hasher b lbid d loading).table.entries =
      (lbid, d) ::ₘ b.table.entries := by
    rw [← same, ← entries]
    cases loading <;> rfl
  have size : (insert hasher b lbid d loading).table.header.currentSize =
      (roomFor hasher b).table.header.currentSize + 1 := by
    cases loading <;> rfl
  have capacity : (insert hasher b lbid d loading).table.header.capacity =
      (roomFor hasher b).table.header.capacity := by
    cases loading <;> rfl
  refine ⟨⟨?_, ?_, ?_⟩, entries', files⟩
  · cases loading <;> exact threaded.congr rfl rfl rfl rfl rfl
  · rw [entries', size, ← same]
    exact Nat.succ_le_succ sound'.card_le
  · rw [size, capacity]
    exact room

end

lemma insert_header (hasher : LBID → Ver → Nat)
    (room : b.table.header.currentSize ≠ b.table.header.capacity) (lbid : LBID) (d : VBBMData)
    (loading : Bool) :
    (insert hasher b lbid d loading).table.header.currentSize = b.table.header.currentSize + 1 ∧
      (insert hasher b lbid d loading).table.header.capacity = b.table.header.capacity := by
  have same : roomFor hasher b = b := if_neg room
  unfold Vbbm.insert
  rw [same]
  cases loading <;> exact ⟨rfl, rfl⟩

lemma getIndex_some (sound : Sound hasher t) {lbid : LBID} {verID : Ver} {prev : Option Nat}
    {i : Nat} (found : getIndex hasher t lbid verID = some (prev, i)) :
    Found (hashOf hasher) t (bucketOf hasher t lbid verID) lbid (·.verID = verID) prev i :=
  sound.threaded.found (sound.bucketOf_lt lbid verID) found

lemma getIndex_none (sound : Sound hasher t) {lbid : LBID} {verID : Ver} :
    getIndex hasher t lbid verID = none ↔ ∀ d, (lbid, d) ∈ t.entries → d.verID ≠ verID := by
  refine sound.threaded.notFound_iff (p := (·.verID = verID)) (sound.bucketOf_lt lbid verID) ?_
  rintro d rfl
  rfl

lemma lookup_eq_none (sound : Sound hasher b.table) {lbid : LBID} {verID : Ver} :
    lookup hasher b lbid verID = none ↔ ∀ d, (lbid, d) ∈ b.table.entries → d.verID ≠ verID := by
  rw [lookup, Option.map_eq_none_iff, getIndex_none sound]

lemma lookup_of_mem (sound : Sound hasher b.table) (unique : UniqueKeys b.table) {lbid : LBID}
    {d : VBBMData} (mem : (lbid, d) ∈ b.table.entries) :
    lookup hasher b lbid d.verID = some (d.vbOID, d.vbFBO) := by
  unfold lookup
  cases found : getIndex hasher b.table lbid d.verID with
  | none => exact absurd rfl ((getIndex_none sound).mp found d mem)
  | some place =>
    obtain ⟨prev, i⟩ := place
    obtain ⟨key, version, inside, -⟩ := getIndex_some sound found
    have same := inj_on_of_nodup_map unique _ (mem_entries.mpr ⟨i, inside, key, rfl⟩) _ mem
      (by rw [version])
    simp_all

/-- What is looked up depends on the entries alone. -/
lemma lookup_congr {b' : VBBM} (sound : Sound hasher b.table) (sound' : Sound hasher b'.table)
    (unique : UniqueKeys b.table) (same : b'.table.entries = b.table.entries) (lbid : LBID)
    (verID : Ver) : lookup hasher b lbid verID = lookup hasher b' lbid verID := by
  by_cases mapped : ∃ d, (lbid, d) ∈ b.table.entries ∧ d.verID = verID
  · obtain ⟨d, mem, rfl⟩ := mapped
    rw [lookup_of_mem sound unique mem,
      lookup_of_mem sound' (by rwa [UniqueKeys, same]) (same ▸ mem)]
  · rw [(lookup_eq_none sound).mpr fun d mem eq => mapped ⟨d, mem, eq⟩,
      (lookup_eq_none sound').mpr fun d mem eq => mapped ⟨d, same ▸ mem, eq⟩]

lemma removeFromTable_spec (sound : Sound hasher t) (lbid : LBID) (verID : Ver) :
    Sound hasher (removeFromTable hasher t lbid verID) ∧
      ((∀ d, (lbid, d) ∈ t.entries → d.verID ≠ verID) ∧ removeFromTable hasher t lbid verID = t ∨
        ∃ d, d.verID = verID ∧
          t.entries = (lbid, d) ::ₘ (removeFromTable hasher t lbid verID).entries ∧
          (removeFromTable hasher t lbid verID).header.currentSize =
            t.header.currentSize - 1) := by
  unfold removeFromTable
  cases found : getIndex hasher t lbid verID with
  | none => exact ⟨sound, .inl ⟨(getIndex_none sound).mp found, rfl⟩⟩
  | some place =>
    obtain ⟨prev, i⟩ := place
    obtain ⟨key, version, inside, freed⟩ := getIndex_some sound found
    dsimp only
    set t₁ := t.unlink (bucketOf hasher t lbid verID) prev i with t₁_eq
    set t₂ := (t₁.makeUndoRecord (.header t₁.header)).discount (fun _ x => x) i with t₂_eq
    have entries : t.entries = (lbid, (t.slots i).data) ::ₘ t₂.entries :=
      entries_unlink inside key
    have size : t₂.header.currentSize = t.header.currentSize - 1 := by
      simp [t₂_eq, t₁_eq, makeUndoRecord]
    have capacity : t₂.header.capacity = t.header.capacity := by
      simp [t₂_eq, t₁_eq, makeUndoRecord]
    have card := sound.card_le
    rw [entries, card_cons] at card
    have le := sound.size_le
    exact ⟨⟨freed .., by omega, by omega⟩, .inr ⟨_, version, entries, size⟩⟩

lemma removeFromTable_le (sound : Sound hasher t) (lbid : LBID) (verID : Ver) :
    (removeFromTable hasher t lbid verID).entries ≤ t.entries := by
  obtain ⟨-, ⟨-, same⟩ | ⟨d, -, entries, -⟩⟩ := removeFromTable_spec sound lbid verID
  · rw [same]
  · rw [entries]
    exact le_cons_self _ _

section

variable (t) (lbid : LBID) (verID : Ver)
include t lbid verID

lemma logged_removeFromTable : Logged t (removeFromTable hasher t lbid verID) := by
  unfold removeFromTable
  split
  · exact .refl t
  · exact logged_discount_unlink t _ _ _ _ _

lemma removeFromTable_capacity :
    (removeFromTable hasher t lbid verID).header.capacity = t.header.capacity := by
  unfold removeFromTable
  split
  · rfl
  · simp [makeUndoRecord]

lemma removeFromTable_slot (j : Nat) :
    ((removeFromTable hasher t lbid verID).slots j).entry = none ∨
      ((removeFromTable hasher t lbid verID).slots j).entry = (t.slots j).entry := by
  unfold removeFromTable
  split
  · exact .inr rfl
  case h_2 prev index found =>
    by_cases same : j = index
    · exact .inl (by simp [Slot.entry, makeUndoRecord, same])
    · exact .inr (by simp [Slot.entry, makeUndoRecord, same])

end

end VbbmInvariant
