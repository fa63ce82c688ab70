import ColumnStore.Vss

/-!
# What the VSS operations do to the table

The representation invariant says that every bucket's chain is finite and lists exactly the used
slots that hash to it, that `currentSize` counts the used slots and that no free slot lies below
the low-water mark. Every operation keeps it, and each has one lemma that says what it does to
the multiset of entries. Later modules use these lemmas and no chains.
-/

namespace VssInvariant

open ChainedTable ChainedTable.Table Vss List

variable {hasher : LBID → Nat} {v : VSS}

structure Sound (hasher : LBID → Nat) (v : VSS) : Prop where
  threaded : Threaded (fun lbid _ => hasher lbid) v
  sized : v.header.currentSize = v.entries.card

lemma Sound.buckets_pos (sound : Sound hasher v) : 0 < v.header.numBuckets := by
  obtain ⟨chains, linked⟩ := sound.threaded.linked
  exact linked.buckets_pos

lemma Sound.bucketOf_lt (sound : Sound hasher v) (lbid : LBID) :
    bucketOf hasher v lbid < v.header.numBuckets :=
  Nat.mod_lt _ sound.buckets_pos

lemma Sound.size_le (sound : Sound hasher v) : v.header.currentSize ≤ v.header.capacity := by
  rw [sound.sized, card_entries]
  exact (Finset.card_filter_le _ _).trans (by simp)

lemma sound_empty (h : Header Nat) (undo : List (Image LBID VSSData Nat))
    (buckets : 0 < h.numBuckets) (low : h.lowWater = 0) (size : h.currentSize = 0) :
    Sound hasher (empty h blank undo) :=
  ⟨threaded_empty h blank undo buckets low, by rw [entries_empty]; exact size⟩

lemma sound_initShmseg : Sound hasher initShmseg :=
  sound_empty _ _ (by simp [tableInitialCount]) rfl rfl

variable {lbid : LBID} {verID : Ver} {i : Nat}

section

variable (sound : Sound hasher v)
include sound

lemma growVSS_copied (full : v.header.currentSize = v.header.capacity) :
    Copied (fun lbid _ => hasher lbid) v v.header.currentSize
      (Table.empty (grownHeader v) blank v.strandedUndo) (growVSS hasher v) := by
  have fresh : Threaded (fun lbid (_ : VSSData) => hasher lbid)
      (Table.empty (grownHeader v) blank v.strandedUndo) :=
    threaded_empty _ _ _ (Nat.add_pos_left sound.buckets_pos tableIncrement) rfl
  exact copyUsed_spec fresh (le_refl 1) _ (by rw [entries_empty]; simp [full, empty, grownHeader])

lemma growVSS_spec (full : v.header.currentSize = v.header.capacity) :
    Sound hasher (growVSS hasher v) ∧ (growVSS hasher v).entries = v.entries ∧
      (growVSS hasher v).header.capacity = v.header.capacity + storageIncrementCount := by
  have copied := growVSS_copied sound full
  have same : (growVSS hasher v).entries = v.entries := by
    refine copied.entries.trans ?_
    rw [entries_empty, full, add_zero]
    rfl
  have header := copied.header
  refine ⟨⟨copied.threaded, ?_⟩, same, ?_⟩
  · rw [same, ← sound.sized]
    exact (congrArg Header.currentSize header).trans rfl
  · exact congrArg Header.capacity header

lemma roomFor_spec :
    Sound hasher (roomFor hasher v) ∧ (roomFor hasher v).entries = v.entries ∧
      (roomFor hasher v).entries.card < (roomFor hasher v).header.capacity := by
  unfold roomFor
  split
  case isTrue full =>
    obtain ⟨grown, same, capacity⟩ := growVSS_spec sound full
    refine ⟨grown, same, ?_⟩
    rw [same, capacity, ← sound.sized, full]
    simp [storageIncrementCount]
  case isFalse room =>
    refine ⟨sound, rfl, ?_⟩
    rw [← sound.sized]
    exact lt_of_le_of_ne sound.size_le room

lemma insert_spec (lbid : LBID) (d : VSSData) (loading : Bool) :
    Sound hasher (insert hasher v lbid d loading) ∧
      (insert hasher v lbid d loading).entries = (lbid, d) ::ₘ v.entries := by
  obtain ⟨sound', same, room⟩ := roomFor_spec sound
  have threaded := sound'.threaded.insertFree (le_refl 1) loading lbid d room
  have entries := sound'.threaded.entries_insertFree 1 loading lbid d room
  have entries' : (insert hasher v lbid d loading).entries = (lbid, d) ::ₘ v.entries := by
    rw [← same, ← entries]
    cases loading <;> rfl
  refine ⟨⟨?_, ?_⟩, entries'⟩
  · cases loading <;> exact threaded.congr rfl rfl rfl rfl rfl
  · rw [entries', Multiset.card_cons, ← same, ← sound'.sized]
    cases loading <;> rfl

lemma getIndex_some {prev : Option Nat} (found : getIndex hasher v lbid verID = some (prev, i)) :
    Found (fun lbid _ => hasher lbid) v (bucketOf hasher v lbid) lbid (·.verID = verID) prev i :=
  sound.threaded.found (sound.bucketOf_lt lbid) found

lemma getIndex_none :
    getIndex hasher v lbid verID = none ↔ ∀ d, (lbid, d) ∈ v.entries → d.verID ≠ verID :=
  sound.threaded.notFound_iff (p := (·.verID = verID)) (sound.bucketOf_lt lbid) fun _ _ => rfl

lemma mem_versions {d : VSSData} : d ∈ versions hasher v lbid ↔ (lbid, d) ∈ v.entries := by
  obtain ⟨chains, linked⟩ := sound.threaded.linked
  have bucket := sound.bucketOf_lt lbid
  rw [versions, linked.visited_eq bucket, mem_entries, mem_filterMap]
  constructor
  · rintro ⟨i, hi, listed⟩
    obtain ⟨key, data⟩ := Option.ite_none_right_eq_some.mp listed
    exact ⟨i, ((linked.mem_iff _ bucket i).mp hi).1, key, Option.some.inj data⟩
  · rintro ⟨i, inside, key, rfl⟩
    exact ⟨i, (linked.mem_iff _ bucket i).mpr ⟨inside, lbid, key, rfl⟩, by simp [key]⟩

/-- The loop over a block's bucket removes all its versions, and nothing else. -/
lemma removeVersions_spec {A : Type} (lbid : LBID) (visit : VSSData → A → A) (a : A) :
    let r := removeKey releaseLock visit lbid (bucketOf hasher v lbid) v.header.capacity none
      (v.heads (bucketOf hasher v lbid)) (v, a)
    Sound hasher r.1 ∧ r.1.entries = v.entries.filter (fun e => e.1 ≠ lbid) ∧
      ∃ removed : List VSSData,
        v.entries = ↑(removed.map fun d => (lbid, d)) + r.1.entries ∧
        r.2 = removed.foldl (fun a d => visit d a) a := by
  intro r
  obtain ⟨chains, linked⟩ := sound.threaded.linked
  have bucket := sound.bucketOf_lt lbid
  have start : v.heads (bucketOf hasher v lbid) = (chains (bucketOf hasher v lbid)).head? :=
    (linked.chain _ bucket).head_eq
  have spec : KeyRemoved (fun lbid _ => hasher lbid) visit lbid (bucketOf hasher v lbid) v a r := by
    have whole : chains (bucketOf hasher v lbid) = [] ++ chains (bucketOf hasher v lbid) := rfl
    have pass := removeKey_spec releaseLock visit lbid a linked sound.threaded.low bucket whole
      (by simp) (linked.length_le bucket)
    rw [← start] at pass
    exact pass
  obtain ⟨removed, split, visited⟩ := spec.entries
  obtain ⟨chains', linked', clean⟩ := spec.linked
  have gone : ∀ e ∈ r.1.entries, e.1 ≠ lbid := by
    rintro ⟨k, d⟩ mem same
    obtain ⟨i, inside, key, rfl⟩ := mem_entries.mp mem
    replace key : (r.1.slots i).key = some lbid := same ▸ key
    refine clean i ((linked'.mem_iff _ ?_ i).mpr ⟨inside, lbid, key, ?_⟩) key
    · rw [spec.numBuckets]
      exact bucket
    · rw [spec.numBuckets]
      rfl
  refine ⟨⟨⟨⟨chains', linked'⟩, spec.low⟩, ?_⟩, ?_, removed, split, visited⟩
  · exact spec.sized 0 sound.sized
  have dropped : (Multiset.filter (fun e : LBID × VSSData => e.1 ≠ lbid)
      ↑(removed.map fun d => (lbid, d))) = 0 := by
    simp
  rw [split, Multiset.filter_add, dropped, zero_add, Multiset.filter_eq_self.mpr gone]

/-- What `removeEntry` makes of `rest`, the entries without the requested one: the other versions
of the block stay exactly while one of them is in the version buffer or locked. -/
def Purged (lbid : LBID) (rest result : Multiset (LBID × VSSData)) : Prop :=
  ((∃ d, (lbid, d) ∈ rest ∧ (d.vbFlag ∨ d.locked)) ∧ result = rest) ∨
    ((∀ d, (lbid, d) ∈ rest → ¬ (d.vbFlag ∨ d.locked)) ∧
      result = rest.filter fun e => e.1 ≠ lbid)

lemma removeEntry_spec (lbid : LBID) (verID : Ver) (flushList : List LBID) :
    Sound hasher (removeEntry hasher v lbid verID flushList).1 ∧
      ((∀ d, (lbid, d) ∈ v.entries → d.verID ≠ verID) ∧
          (removeEntry hasher v lbid verID flushList).1 = v ∨
        ∃ d rest, d.verID = verID ∧ v.entries = (lbid, d) ::ₘ rest ∧
          Purged lbid rest (removeEntry hasher v lbid verID flushList).1.entries) := by
  unfold removeEntry
  cases found : getIndex hasher v lbid verID with
  | none => exact ⟨sound, .inl ⟨(getIndex_none sound).mp found, rfl⟩⟩
  | some place =>
    obtain ⟨prev, i⟩ := place
    obtain ⟨key, version, inside, freed⟩ := getIndex_some sound found
    dsimp only
    set v₁ := v.unlink (bucketOf hasher v lbid) prev i with v₁_eq
    set v₂ := (v₁.makeUndoRecord (.header v₁.header)).discount releaseLock i with v₂_eq
    have split_entries : v.entries = (lbid, (v.slots i).data) ::ₘ v₂.entries :=
      entries_unlink inside key
    have sound₂ : Sound hasher v₂ := by
      refine ⟨freed .., ?_⟩
      have sized := sound.sized
      rw [split_entries, Multiset.card_cons] at sized
      have dropped : v₂.header.currentSize = v.header.currentSize - 1 := by
        simp [v₂_eq, v₁_eq, makeUndoRecord]
      omega
    have here : bucketOf hasher v lbid = bucketOf hasher v₂ lbid := by
      simp [bucketOf, v₂_eq, v₁_eq, makeUndoRecord]
    have scan : ((v₂.visited (bucketOf hasher v lbid)).any fun j =>
          (v₂.slots j).key = some lbid && ((v₂.slots j).data.vbFlag || (v₂.slots j).data.locked)) =
        true ↔ ∃ d, (lbid, d) ∈ v₂.entries ∧ (d.vbFlag ∨ d.locked) := by
      have listed : ∀ d, d ∈ versions hasher v₂ lbid ↔ (lbid, d) ∈ v₂.entries :=
        fun d => mem_versions sound₂
      simp only [versions, mem_filterMap, Option.ite_none_right_eq_some, ← here] at listed
      simp only [any_eq_true, Bool.and_eq_true, decide_eq_true_eq, Bool.or_eq_true]
      constructor
      · rintro ⟨j, hj, hkey, kept⟩
        exact ⟨_, (listed _).mp ⟨j, hj, hkey, rfl⟩, kept⟩
      · rintro ⟨d, mem, kept⟩
        obtain ⟨j, hj, hkey, hd⟩ := (listed d).mpr mem
        exact ⟨j, hj, hkey, by rwa [Option.some.inj hd]⟩
    split_ifs with kept
    · exact ⟨sound₂, .inr ⟨_, _, version, split_entries, .inl ⟨scan.mp kept, rfl⟩⟩⟩
    obtain ⟨sound₃, rest, -⟩ := removeVersions_spec sound₂ lbid (fun _ (a : Unit) => a) ()
    rw [← here] at sound₃ rest
    refine ⟨sound₃, .inr ⟨_, _, version, split_entries, .inr ⟨?_, rest⟩⟩⟩
    exact fun d mem flagged => kept (scan.mpr ⟨d, mem, flagged⟩)

lemma removeEntriesFromDB_spec {A : Type} (range : LBIDRange) (dropVB : LBID → VSSData → A → A)
    (vbbm : A) :
    let r := removeEntriesFromDB hasher v range dropVB vbbm
    Sound hasher r.1 ∧ r.1.entries = v.entries.filter (fun e => e.1 ∉ range.blocks) ∧
      ∃ removed : List (LBID × VSSData),
        ↑removed = v.entries.filter (fun e => e.1 ∈ range.blocks) ∧
        r.2 = removed.foldl (fun a e => dropVB e.1 e.2 a) vbbm := by
  have loop : ∀ (blocks : List LBID) (s : VSS × A), Sound hasher s.1 →
      let r := blocks.foldl (fun s lbid =>
        removeKey releaseLock (dropVB lbid) lbid (bucketOf hasher s.1 lbid) s.1.header.capacity
          none (s.1.heads (bucketOf hasher s.1 lbid)) s) s
      Sound hasher r.1 ∧ r.1.entries = s.1.entries.filter (fun e => e.1 ∉ blocks) ∧
        ∃ removed : List (LBID × VSSData),
          ↑removed = s.1.entries.filter (fun e => e.1 ∈ blocks) ∧
          r.2 = removed.foldl (fun a e => dropVB e.1 e.2 a) s.2 := by
    intro blocks
    induction blocks with
    | nil => exact fun s sound => ⟨sound, by simp, [], by simp, rfl⟩
    | cons lbid blocks ih =>
      intro s sound
      obtain ⟨sound', left, here, split, visited⟩ :=
        removeVersions_spec sound lbid (dropVB lbid) s.2
      obtain ⟨final, entries, later, taken, dropped⟩ := ih _ sound'
      refine ⟨final, ?_, here.map (fun d => (lbid, d)) ++ later, ?_, ?_⟩
      · refine entries.trans ?_
        rw [left]
        simp [and_comm]
      · rw [← Multiset.coe_add, taken, left, Multiset.filter_filter]
        conv_rhs => rw [split, left, Multiset.filter_add, Multiset.filter_filter]
        congr 1
        · exact (Multiset.filter_eq_self.mpr (by simp)).symm
        · exact Multiset.filter_congr fun e _ => by
            by_cases same : e.1 = lbid <;> simp [same]
      · rw [foldl_append, foldl_map, ← visited]
        exact dropped
  exact loop range.blocks _ ⟨sound.threaded.congr rfl rfl rfl rfl rfl, sound.sized⟩

/-- Replacing the data of a used slot keeps the invariant, whatever undo record precedes it. -/
lemma setData_spec (d : VSSData) (inside : i < v.header.capacity)
    (key : (v.slots i).key = some lbid) :
    Sound hasher (v.setSlot i { v.slots i with data := d }) ∧
      ∃ rest, v.entries = (lbid, (v.slots i).data) ::ₘ rest ∧
        (v.setSlot i { v.slots i with data := d }).entries = (lbid, d) ::ₘ rest := by
  obtain ⟨rest, old, new⟩ := entries_setSlot inside key
  refine ⟨⟨sound.threaded.setData fun _ => rfl, ?_⟩, rest, old, new⟩
  rw [new, Multiset.card_cons, ← Multiset.card_cons (lbid, (v.slots i).data), ← old]
  exact sound.sized

lemma setVBFlag_ok {vbFlag : Bool} {v' : VSS}
    (done : setVBFlag hasher v lbid verID vbFlag = .ok v') :
    Sound hasher v' ∧ ∃ d rest, d.verID = verID ∧ v.entries = (lbid, d) ::ₘ rest ∧
      v'.entries = (lbid, { d with vbFlag := vbFlag }) ::ₘ rest := by
  unfold setVBFlag at done
  cases found : getIndex hasher v lbid verID with
  | none => simp [found] at done
  | some place =>
    obtain ⟨prev, i⟩ := place
    obtain ⟨key, version, inside, -⟩ := getIndex_some sound found
    rw [found] at done
    cases done
    obtain ⟨⟨threaded, sized⟩, rest, old, new⟩ :=
      setData_spec sound { (v.slots i).data with vbFlag := vbFlag } inside key
    exact ⟨⟨threaded.congr rfl rfl rfl rfl rfl, sized⟩, _, rest, version, old, new⟩

lemma setVBFlag_isOk {d : VSSData} (vbFlag : Bool) (mem : (lbid, d) ∈ v.entries) :
    ∃ v', setVBFlag hasher v lbid d.verID vbFlag = .ok v' := by
  unfold setVBFlag
  cases found : getIndex hasher v lbid d.verID with
  | none => exact absurd rfl ((getIndex_none sound).mp found d mem)
  | some place => exact ⟨_, rfl⟩

/-- The entry after its transaction has been committed. -/
def committed (txnID : Ver) (e : LBID × VSSData) : LBID × VSSData :=
  if e.2.verID = txnID then (e.1, { e.2 with locked := false }) else e

lemma sound_commitSlot (txnID : Ver) (inside : i < v.header.capacity) :
    Sound hasher (commitSlot txnID v i) := by
  unfold commitSlot
  split
  case isTrue hit =>
    obtain ⟨lbid, key⟩ := Option.isSome_iff_exists.mp hit.1
    obtain ⟨⟨threaded, sized⟩, -⟩ :=
      setData_spec sound { (v.slots i).data with locked := false } inside key
    exact ⟨threaded.congr rfl rfl rfl rfl rfl, sized⟩
  case isFalse => exact sound

end

lemma commitSlot_capacity (txnID : Ver) (i : Nat) :
    (commitSlot txnID v i).header.capacity = v.header.capacity := by
  unfold commitSlot
  split <;> rfl

lemma commitSlot_entry (txnID : Ver) (i j : Nat) :
    ((commitSlot txnID v i).slots j).entry =
      if j = i then ((v.slots j).entry).map (committed txnID) else (v.slots j).entry := by
  unfold commitSlot
  split
  case isTrue hit =>
    obtain ⟨lbid, key⟩ := Option.isSome_iff_exists.mp hit.1
    by_cases slot : j = i
    · subst slot
      simp [setSlot, setHeader, Slot.entry, key, committed, hit.2]
    · simp [setSlot, setHeader, makeUndoRecord, slot]
  case isFalse miss =>
    by_cases slot : j = i
    · subst slot
      cases key : (v.slots j).key with
      | none => simp [Slot.entry, key]
      | some lbid =>
        have other : (v.slots j).data.verID ≠ txnID := fun same => miss ⟨by simp [key], same⟩
        simp [Slot.entry, key, committed, other]
    · simp [slot]

lemma commit_spec (sound : Sound hasher v) (txnID : Ver) :
    Sound hasher (commit v txnID) ∧ (commit v txnID).entries = v.entries.map (committed txnID) := by
  have loop : ∀ n ≤ v.header.capacity,
      let r := (range n).foldl (commitSlot txnID) v
      Sound hasher r ∧ r.header.capacity = v.header.capacity ∧
        ∀ j, (r.slots j).entry =
          if j < n then ((v.slots j).entry).map (committed txnID) else (v.slots j).entry := by
    intro n
    induction n with
    | zero => exact fun _ => ⟨sound, rfl, fun j => by simp⟩
    | succ n ih =>
      intro le
      obtain ⟨sound', capacity, slots⟩ := ih (by omega)
      rw [range_succ, foldl_append, foldl_cons, foldl_nil]
      refine ⟨sound_commitSlot sound' txnID (by omega), ?_, fun j => ?_⟩
      · rw [commitSlot_capacity, capacity]
      rw [commitSlot_entry, slots]
      rcases Nat.lt_trichotomy j n with before | rfl | after
      · simp [before, Nat.lt_succ_of_lt before, Nat.ne_of_lt before]
      · simp
      · have : ¬ j < n + 1 := by omega
        simp [this, Nat.ne_of_gt after, Nat.not_lt_of_gt after]
  obtain ⟨sound', capacity, slots⟩ := loop v.header.capacity (le_refl _)
  refine ⟨sound', ?_⟩
  show (Multiset.range (commit v txnID).header.capacity).filterMap _ = _
  rw [show (commit v txnID).header.capacity = v.header.capacity from capacity, Table.entries,
    Multiset.map_filterMap]
  refine filterMap_congr_on fun j hj => ?_
  rw [show ((commit v txnID).slots j).entry = _ from slots j, if_pos (Multiset.mem_range.mp hj)]

lemma le_loadCapacity (elementCount : Nat) : storageInitialCount ≤ loadCapacity elementCount := by
  have rounded : ∀ n, storageInitialCount ≤ n → storageInitialCount ≤
      if n % storageIncrementCount ≠ 0 then (n / storageIncrementCount + 1) * storageIncrementCount
      else n := by
    intro n le
    split_ifs
    · simp only [storageIncrementCount] at *
      omega
    · exact le
  exact rounded _ (by split <;> omega)

lemma sound_growForLoad (elementCount : Nat) : Sound hasher (growForLoad elementCount) := by
  refine sound_empty _ _ ?_ rfl rfl
  have large := le_loadCapacity elementCount
  simp only [storageInitialCount] at large ⊢
  omega

lemma sound_load (loaded : List (LBID × VSSData)) : Sound hasher (load hasher loaded) := by
  have start : Sound hasher (growForLoad loaded.length) := sound_growForLoad loaded.length
  unfold load
  generalize growForLoad loaded.length = v at start
  induction loaded generalizing v with
  | nil => exact start
  | cons e loaded ih => exact ih _ (insert_spec start e.1 e.2 true).1

lemma sound_clear : Sound hasher (clear v) :=
  ⟨sound_initShmseg.threaded.congr rfl rfl rfl rfl rfl, (entries_empty _ _ _ ▸ rfl)⟩

inductive Action
  | insert (lbid : LBID) (d : VSSData) (loading : Bool)
  | removeEntry (lbid : LBID) (verID : Ver)
  | removeEntriesFromDB (range : LBIDRange)
  | setVBFlag (lbid : LBID) (verID : Ver) (vbFlag : Bool)
  | commit (txnID : Ver)
  | clear
  | growForLoad (elementCount : Nat)
  | load (loaded : List (LBID × VSSData))

/-- One operation on the table. A `setVBFlag` that throws has changed nothing. A load is also
split into its `growForLoad` and its inserts, so that a run passes through every state inside it. -/
def step (hasher : LBID → Nat) (v : VSS) : Action → Option VSS
  | .insert lbid d loading => some (insert hasher v lbid d loading)
  | .removeEntry lbid verID => some (removeEntry hasher v lbid verID []).1
  | .removeEntriesFromDB range => some (removeEntriesFromDB hasher v range (fun _ _ a => a) ()).1
  | .setVBFlag lbid verID vbFlag =>
    match setVBFlag hasher v lbid verID vbFlag with
    | .ok v' => some v'
    | .error _ => some v
  | .commit txnID => some (commit v txnID)
  | .clear => some (clear v)
  | .growForLoad elementCount => some (growForLoad elementCount)
  | .load loaded => some (load hasher loaded)

lemma Sound.step {v' : VSS} {a : Action} (sound : Sound hasher v)
    (taken : step hasher v a = some v') : Sound hasher v' := by
  cases a with
  | insert lbid d loading =>
    cases taken
    exact (insert_spec sound lbid d loading).1
  | removeEntry lbid verID =>
    cases taken
    exact (removeEntry_spec sound lbid verID []).1
  | removeEntriesFromDB range =>
    cases taken
    exact (removeEntriesFromDB_spec sound range (fun _ _ a => a) ()).1
  | setVBFlag lbid verID vbFlag =>
    simp only [VssInvariant.step] at taken
    split at taken
    · cases taken
      exact (setVBFlag_ok sound ‹_›).1
    · cases taken
      exact sound
  | commit txnID =>
    cases taken
    exact (commit_spec sound txnID).1
  | clear =>
    cases taken
    exact sound_clear
  | growForLoad elementCount =>
    cases taken
    exact sound_growForLoad elementCount
  | load loaded =>
    cases taken
    exact sound_load loaded

/-- The representation invariant in terms of the shared segment. -/
structure Represents (hasher : LBID → Nat) (v : VSS) : Prop where
  /-- From each bucket a finite chain reaches each used slot that hashes there exactly once, and
  no other slot. -/
  chains : ∀ b < v.header.numBuckets, ∃ reached : List Nat,
    Chain v.slots (v.heads b) reached ∧ reached.Nodup ∧
      ∀ i, i ∈ reached ↔ i < v.header.capacity ∧
        ∃ lbid, (v.slots i).key = some lbid ∧ bucketOf hasher v lbid = b
  currentSize_eq : v.header.currentSize =
    ((Finset.range v.header.capacity).filter fun i => (v.slots i).key.isSome).card
  used_below : ∀ i < v.header.lowWater, i < v.header.capacity ∧ (v.slots i).key.isSome
  /-- The slot the next insert takes, after a full table has grown. -/
  insert_fits : let w := roomFor hasher v
    w.header.lowWater ≤ w.freeSlot ∧ w.freeSlot < w.header.capacity ∧
      (w.slots w.freeSlot).key = none

lemma Sound.represents (sound : Sound hasher v) : Represents hasher v := by
  obtain ⟨chains, linked⟩ := sound.threaded.linked
  obtain ⟨le, used⟩ := sound.threaded.low
  obtain ⟨sound', -, room⟩ := roomFor_spec sound
  obtain ⟨above, inside, free, -⟩ := sound'.threaded.freeSlot_spec room
  refine ⟨?_, ?_, ?_, above, inside, free⟩
  · intro b hb
    exact ⟨chains b, linked.chain b hb, linked.nodup b hb, linked.mem_iff b hb⟩
  · rw [sound.sized, card_entries]
  · exact fun i hi => ⟨lt_of_lt_of_le hi le, used i hi⟩

/-- Every state of every run of the VSS operations satisfies the representation invariant. -/
theorem represents_of_run {v : VSS}
    (reached : Runs.Reaches (step hasher) (fun _ _ => True) initShmseg v) :
    Represents hasher v := by
  have sound : Sound hasher v :=
    reached.invariant sound_initShmseg fun _ _ _ sound _ taken => sound.step taken
  exact sound.represents

/-- Two versions of one block; the second commits and the first is aged out. -/
theorem represents_after_aging :
    let h : LBID → Nat := fun lbid => lbid
    let written := insert h (insert h initShmseg 7 ⟨3, true, false⟩ false) 7 ⟨9, false, true⟩ false
    Represents h (removeEntry h (commit written 9) 7 3 []).1 :=
  represents_of_run <|
    .next (a := .removeEntry 7 3)
      (.next (a := .commit 9)
        (.next (a := .insert 7 ⟨9, false, true⟩ false)
          (.next (a := .insert 7 ⟨3, true, false⟩ false) .here trivial rfl) trivial rfl)
        trivial rfl)
      trivial rfl

end VssInvariant
