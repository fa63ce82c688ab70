import ColumnStore.VersionBufferSpace

/-!
# When version buffer space is shared

Runs of requests, inserts into places a request returned, and removals. A request that throws is
undone. A place is `returned` from the request that hands it out to the insert that uses it; it is
`current` while no later request has aged its chunk out.

Aging clears a chunk when it is entered and counts on the rest of it staying vacant. Three things
break that: an insert into a place whose chunk was entered again in the meantime, a request that
wraps around and stops in the chunk it started in, and a second entry under the key of an older
one, which makes aging remove the wrong slot. Without them, and on files whose block count fits
`int`, no place is ever used twice.
-/

namespace SpaceReuse

open ChainedTable ChainedTable.Table Vbbm VbbmInvariant VersionBufferSpace List
open Vss (LBID Ver VSS VSSData)

/-- What the last request returned, and the file it was made on. -/
structure Grant where
  num : Int
  file : VBFileMetadata
  ranges : List VBRange

structure State where
  vbbm : VBBM
  returned : List (Nat × Nat)
  current : List (Nat × Nat)
  latest : Option Grant

inductive Action
  | getBlocks (vss : VSS) (currentFileSize : Nat) (num : Int) (vbOID : Nat)
  | insert (lbid : LBID) (verID : Ver) (vbOID vbFBO : Nat)
  | removeEntry (lbid : LBID) (verID : Ver)

def start : State := ⟨initShmseg, [], [], none⟩

section Model

variable (hasher : LBID → Ver → Nat) (vssHasher : LBID → Nat)

/-- One call. The version table a request looks locks up in is whatever it is at that time. -/
def step (s : State) : Action → Option State
  | .getBlocks vss currentFileSize num vbOID =>
    match getBlocks hasher vssHasher s.vbbm vss currentFileSize num vbOID with
    | none => none
    | some (b, _, .overflow _) => some { s with vbbm := Vbbm.undoChanges b, latest := none }
    | some (b, _, .granted ranges _) =>
      let file := fileFor s.vbbm currentFileSize vbOID
      some
        { vbbm := Vbbm.confirmChanges b
          returned := places ranges ++ s.returned
          current := places ranges ++ s.current.filter fun p => !expires file.fileSize ranges p
          latest := some ⟨int32 num, file, ranges⟩ }
  | .insert lbid verID vbOID vbFBO =>
    if (vbOID, vbFBO) ∈ s.returned then
      some
        { vbbm := Vbbm.confirmChanges (insert hasher s.vbbm lbid ⟨verID, vbOID, vbFBO⟩ false)
          returned := s.returned.filter fun p => p ≠ (vbOID, vbFBO)
          current := s.current.filter fun p => p ≠ (vbOID, vbFBO)
          latest := none }
    else none
  | .removeEntry lbid verID =>
    some
      { s with
        vbbm := Vbbm.confirmChanges (removeEntry hasher s.vbbm lbid verID)
        latest := none }

/-- A request on a file whose block count fits `int` that does not come back to its own chunk; an
insert into a place that is still current, under a key that is not in the map. -/
def Careful (s : State) : Action → Prop
  | .getBlocks _ currentFileSize num vbOID =>
    let file := fileFor s.vbbm currentFileSize vbOID
    blockCount file < 2 ^ 31 ∧ ¬ comesBack (blockCount file) (position file) (int32 num).toNat
  | .insert lbid verID vbOID vbFBO =>
    (vbOID, vbFBO) ∈ s.current ∧ Vbbm.lookup hasher s.vbbm lbid verID = none
  | .removeEntry _ _ => True

end Model

/-- The ranges have the requested total size, are disjoint, lie inside the file, and no entry refers
to a place in them. -/
structure GrantOk (t : Table LBID VBBMData Unit) (g : Grant) : Prop where
  total : ((g.ranges.map VBRange.size).sum : Int) = g.num
  disjoint : g.ranges.Pairwise fun r r' => ∀ fbo,
    ¬ ((r.vbFBO ≤ fbo ∧ fbo < r.vbFBO + r.size) ∧ (r'.vbFBO ≤ fbo ∧ fbo < r'.vbFBO + r'.size))
  inside : ∀ r ∈ g.ranges, r.vbOID = g.file.OID ∧ r.vbFBO + r.size ≤ blockCount g.file
  vacant : ∀ place ∈ places g.ranges, Vacant t place

/-- Two entries never share a place, and what was just returned can be used. -/
structure SpaceOk (s : State) : Prop where
  unique : UniquePlaces s.vbbm.table
  latest : ∀ g, s.latest = some g → GrantOk s.vbbm.table g

structure Inv (hasher : LBID → Ver → Nat) (s : State) : Prop where
  settled : Settled hasher s.vbbm
  keys : UniqueKeys s.vbbm.table
  ok : SpaceOk s
  files_nodup : (s.vbbm.files.map VBFileMetadata.OID).Nodup
  files_ok : ∀ file ∈ s.vbbm.files, FileOk file
  vacant : ∀ place ∈ s.current, Vacant s.vbbm.table place
  /-- The rest of a chunk already entered is vacant and nobody may insert there. -/
  tail : ∀ file ∈ s.vbbm.files, ∀ fbo, InTail (blockCount file) (position file) fbo →
    (file.OID, fbo) ∉ s.current ∧ Vacant s.vbbm.table (file.OID, fbo)

variable {hasher : LBID → Ver → Nat} {vssHasher : LBID → Nat} {s : State}

lemma inv_start : Inv hasher start where
  settled := ⟨sound_initShmseg, rfl, rfl⟩
  keys := by simp [UniqueKeys, start, initShmseg]
  ok := ⟨by simp [UniquePlaces, start, initShmseg], by simp [start]⟩
  files_nodup := by simp [start, initShmseg]
  files_ok := by simp [start, initShmseg]
  vacant := by simp [start]
  tail := by simp [start, initShmseg]

lemma fileFor_OID (b : VBBM) (currentFileSize vbOID : Nat) :
    (fileFor b currentFileSize vbOID).OID = vbOID := by
  unfold fileFor
  cases found : b.files.find? fun f => f.OID = vbOID with
  | none => rfl
  | some f => simpa using find?_some found

lemma fileFor_cases (b : VBBM) (currentFileSize vbOID : Nat) :
    fileFor b currentFileSize vbOID ∈ b.files ∨
      fileFor b currentFileSize vbOID = ⟨vbOID, currentFileSize, 0⟩ := by
  unfold fileFor
  cases found : b.files.find? fun f => f.OID = vbOID with
  | none => exact .inr rfl
  | some f => exact .inl (mem_of_find?_eq_some found)

variable {currentFileSize vbOID : Nat}

lemma Inv.fileFor_ok (inv : Inv hasher s)
    (small : blockCount (fileFor s.vbbm currentFileSize vbOID) < 2 ^ 31) :
    FileOk (fileFor s.vbbm currentFileSize vbOID) := by
  rcases fileFor_cases s.vbbm currentFileSize vbOID with known | new
  · exact inv.files_ok _ known
  · refine ⟨small, ?_, ?_⟩ <;> simp [new, position]

lemma Inv.fileFor_tail (inv : Inv hasher s) {fbo : Nat}
    (tail : InTail (blockCount (fileFor s.vbbm currentFileSize vbOID))
      (position (fileFor s.vbbm currentFileSize vbOID)) fbo) :
    (vbOID, fbo) ∉ s.current ∧ Vacant s.vbbm.table (vbOID, fbo) := by
  rcases fileFor_cases s.vbbm currentFileSize vbOID with known | new
  · have := inv.tail _ known fbo tail
    rwa [fileFor_OID] at this
  · simp [new, position, InTail] at tail

/-- The descriptors after a request are those before, with a new one at most; their file
identifiers stay distinct. -/
lemma filesWith_cases (b : VBBM) (currentFileSize vbOID : Nat) :
    filesWith b currentFileSize vbOID = b.files ∨
      (∀ f ∈ b.files, f.OID ≠ vbOID) ∧
        filesWith b currentFileSize vbOID = b.files ++ [⟨vbOID, currentFileSize, 0⟩] := by
  unfold filesWith
  split
  case isTrue absent =>
    exact .inr ⟨fun f hf => by simpa using findIdx_eq_length.mp absent f hf, rfl⟩
  case isFalse => exact .inl rfl

variable {b : VBBM}

lemma filesWith_nodup (nodup : (b.files.map VBFileMetadata.OID).Nodup)
    (currentFileSize vbOID : Nat) :
    ((filesWith b currentFileSize vbOID).map VBFileMetadata.OID).Nodup := by
  rcases filesWith_cases b currentFileSize vbOID with same | ⟨new, extended⟩
  · rwa [same]
  rw [extended, map_append, nodup_append]
  refine ⟨nodup, by simp, ?_⟩
  intro oid mem oid' mem'
  obtain ⟨f, hf, rfl⟩ := mem_map.mp mem
  rw [mem_singleton.mp mem']
  exact new f hf

/-- Fewer entries, no new place to insert into, and descriptors that are old or at their start. -/
lemma Inv.shrink (inv : Inv hasher s) (settled : Settled hasher b)
    (le : b.table.entries ≤ s.vbbm.table.entries)
    (files : b.files = filesWith s.vbbm currentFileSize vbOID)
    (small : blockCount (fileFor s.vbbm currentFileSize vbOID) < 2 ^ 31) :
    Inv hasher { s with vbbm := b, latest := none } := by
  have members : ∀ f ∈ b.files, f ∈ s.vbbm.files ∨
      f = ⟨vbOID, currentFileSize, 0⟩ ∧ f = fileFor s.vbbm currentFileSize vbOID := by
    intro f hf
    rw [files] at hf
    rcases filesWith_cases s.vbbm currentFileSize vbOID with same | ⟨new, extended⟩
    · exact .inl (same ▸ hf)
    rw [extended] at hf
    rcases mem_append.mp hf with old | added
    · exact .inl old
    have missing : s.vbbm.files.find? (fun f => f.OID = vbOID) = none := by
      rw [find?_eq_none]
      exact fun f hf => by simpa using new f hf
    obtain rfl := mem_singleton.mp added
    exact .inr ⟨rfl, by simp [fileFor, missing]⟩
  refine ⟨settled, nodup_map_of_le _ inv.keys le, ⟨nodup_map_of_le _ inv.ok.unique le, by simp⟩, ?_,
    ?_, fun place mem => (inv.vacant place mem).mono le, ?_⟩
  · rw [files]
    exact filesWith_nodup inv.files_nodup currentFileSize vbOID
  · intro f hf
    rcases members f hf with old | ⟨-, rfl⟩
    · exact inv.files_ok f old
    · exact inv.fileFor_ok small
  · intro f hf fbo tail
    rcases members f hf with old | ⟨rfl, -⟩
    · exact ⟨(inv.tail f old fbo tail).1, (inv.tail f old fbo tail).2.mono le⟩
    · simp [position, InTail] at tail

section Grant

variable {oid blocks position num : Nat}

lemma ringRanges_total : ((ringRanges oid blocks position num).map VBRange.size).sum = num := by
  unfold ringRanges
  split_ifs <;> simp <;> omega

lemma ringRanges_disjoint (le : num ≤ blocks) :
    (ringRanges oid blocks position num).Pairwise fun r r' => ∀ fbo,
      ¬ ((r.vbFBO ≤ fbo ∧ fbo < r.vbFBO + r.size) ∧
        (r'.vbFBO ≤ fbo ∧ fbo < r'.vbFBO + r'.size)) := by
  unfold ringRanges
  split_ifs
  · exact .nil
  · exact pairwise_singleton _ _
  · simp only [pairwise_cons, mem_singleton, forall_eq, not_mem_nil,
      IsEmpty.forall_iff, implies_true, Pairwise.nil, and_true]
    omega

lemma ringRanges_inside (inside : position < blocks ∨ position = 0) (le : num ≤ blocks) :
    ∀ r ∈ ringRanges oid blocks position num, r.vbOID = oid ∧ r.vbFBO + r.size ≤ blocks := by
  unfold ringRanges
  split_ifs
  · simp
  · simp only [mem_singleton, forall_eq, true_and]
    omega
  · simp only [mem_cons, not_mem_nil, or_false, forall_eq_or_imp, forall_eq, true_and]
    omega

end Grant

variable {num : Nat}

/-- The descriptor after `num` blocks were given. -/
def advanced (file : VBFileMetadata) (num : Nat) : VBFileMetadata :=
  { file with nextOffset := (position file + num) % blockCount file * blockSize }

lemma position_advanced (file : VBFileMetadata) (num : Nat) :
    position (advanced file num) = (position file + num) % blockCount file := by
  simp [position, advanced, blockSize]

lemma fileOk_advanced {file : VBFileMetadata} (ok : FileOk file) (le : num ≤ blockCount file) :
    FileOk (advanced file num) := by
  refine ⟨ok.small, ?_, ?_⟩
  · rw [position_advanced]
    rfl
  rw [position_advanced]
  rcases Nat.eq_zero_or_pos (blockCount file) with zero | pos
  · rcases ok.inside with lt | start
    · omega
    · have none : num = 0 := by omega
      exact .inr (by simp [start, none])
  · exact .inl (Nat.mod_lt _ pos)

section

variable (inv : Inv hasher s)
include inv

/-- The descriptors after a grant: the file's own has advanced, the others are old. -/
lemma Inv.files_granted {file : VBFileMetadata}
    (known : fileFor s.vbbm currentFileSize vbOID = file)
    (files : b.files = (filesWith s.vbbm currentFileSize vbOID).set
      (s.vbbm.files.findIdx fun f => f.OID = vbOID) (advanced file num)) :
    (b.files.map VBFileMetadata.OID).Nodup ∧
      ∀ f ∈ b.files, f = advanced file num ∨ f.OID ≠ vbOID ∧ f ∈ s.vbbm.files := by
  obtain ⟨-, -, withFile, index, inRange, here⟩ :=
    addVBFileIfNotExists_spec inv.settled currentFileSize vbOID
  rw [withFile, index] at inRange here
  rw [known] at here
  have oid : file.OID = vbOID := known ▸ fileFor_OID _ _ _
  have nodup : (b.files.map VBFileMetadata.OID).Nodup := by
    have whole := filesWith_nodup inv.files_nodup currentFileSize vbOID
    have same : b.files.map VBFileMetadata.OID =
        (filesWith s.vbbm currentFileSize vbOID).map VBFileMetadata.OID := by
      rw [files, map_set]
      refine ext_getElem (by simp) fun j hj hj' => ?_
      rw [getElem_set]
      split
      · rename_i at_j
        subst at_j
        rw [getElem_map, ← getD_eq_getElem _ ⟨0, 0, 0⟩ inRange, here]
        rfl
      · rfl
    rwa [same]
  refine ⟨nodup, fun f hf => ?_⟩
  by_cases owner : f.OID = vbOID
  · have member : advanced file num ∈ b.files := by
      rw [files]
      exact mem_set inRange _
    exact .inl (inj_on_of_nodup_map nodup hf member (by rw [owner, ← oid]; rfl))
  rw [files] at hf
  rcases mem_or_eq_of_mem_set hf with old | new
  · refine .inr ⟨owner, ?_⟩
    rcases filesWith_cases s.vbbm currentFileSize vbOID with same | ⟨-, extended⟩
    · exact same ▸ old
    rw [extended] at old
    rcases mem_append.mp old with old | added
    · exact old
    · exact absurd (by rw [mem_singleton.mp added]) owner
  · exact absurd (by rw [new]; exact oid) owner

lemma Inv.granted {file : VBFileMetadata} {ranges : List VBRange}
    (known : fileFor s.vbbm currentFileSize vbOID = file)
    (ring : ranges = ringRanges vbOID (blockCount file) (position file) num)
    (small : blockCount file < 2 ^ 31) (le : num ≤ blockCount file)
    (forward : ¬ comesBack (blockCount file) (position file) num)
    (sound : Sound hasher b.table) (entries_le : b.table.entries ≤ s.vbbm.table.entries)
    (files : b.files = (filesWith s.vbbm currentFileSize vbOID).set
      (s.vbbm.files.findIdx fun f => f.OID = vbOID) (advanced file num))
    (cleared : ∀ place, expires file.fileSize ranges place → Vacant b.table place) :
    Inv hasher
      { vbbm := confirmChanges b
        returned := places ranges ++ s.returned
        current := places ranges ++ s.current.filter fun p => !expires file.fileSize ranges p
        latest := some ⟨num, file, ranges⟩ } := by
  have ok : FileOk file := known ▸ inv.fileFor_ok (known ▸ small)
  have oid : file.OID = vbOID := known ▸ fileFor_OID _ _ _
  have oldTail : ∀ fbo, InTail (blockCount file) (position file) fbo →
      (vbOID, fbo) ∉ s.current ∧ Vacant s.vbbm.table (vbOID, fbo) :=
    fun fbo tail => inv.fileFor_tail (known.symm ▸ tail)
  have owned : ∀ r ∈ ranges, r.vbOID = vbOID ∧ r.vbFBO + r.size ≤ blockCount file :=
    ring ▸ ringRanges_inside ok.inside le
  obtain ⟨nodup, others⟩ := inv.files_granted known files
  have usable : ∀ place ∈ places ranges, Vacant b.table place := by
    rintro ⟨o, fbo⟩ mem
    have same : vbOID = o := by
      obtain ⟨r, hr, owner, -⟩ := mem_places.mp mem
      rw [← (owned r hr).1, owner]
    subst same
    rw [ring] at mem
    rcases (ring_places small le mem).2 with gone | tail
    · exact cleared _ (ring ▸ gone)
    · exact (oldTail fbo tail).2.mono entries_le
  refine ⟨⟨sound.confirmChanges, rfl, rfl⟩,
    nodup_map_of_le _ inv.keys entries_le, ⟨nodup_map_of_le _ inv.ok.unique entries_le, ?_⟩, nodup,
    ?_, ?_, ?_⟩
  · rintro g same
    cases same
    refine ⟨?_, ring ▸ ringRanges_disjoint le, ?_, usable⟩
    · exact congrArg Nat.cast (ring ▸ ringRanges_total)
    · rw [oid]
      exact owned
  · intro f hf
    rcases others f hf with rfl | ⟨-, old⟩
    · exact fileOk_advanced ok le
    · exact inv.files_ok f old
  · intro place mem
    rcases mem_append.mp mem with new | old
    · exact usable place new
    · exact (inv.vacant place (mem_of_mem_filter old)).mono entries_le
  intro f hf fbo tail
  rcases others f hf with rfl | ⟨owner, old⟩
  · rw [position_advanced] at tail
    obtain ⟨left, notTaken⟩ := ring_tail vbOID small ok.inside le forward tail
    rw [← blockCount, ← ring] at left notTaken
    rw [show (advanced file num).OID = vbOID from oid]
    rcases left with gone | before
    · refine ⟨fun mem => ?_, cleared _ gone⟩
      rcases mem_append.mp mem with new | kept
      · exact notTaken new
      · have stays := (mem_filter.mp kept).2
        rw [gone] at stays
        cases stays
    · refine ⟨fun mem => ?_, (oldTail fbo before).2.mono entries_le⟩
      rcases mem_append.mp mem with new | kept
      · exact notTaken new
      · exact (oldTail fbo before).1 (mem_of_mem_filter kept)
  obtain ⟨free, vacant⟩ := inv.tail f old fbo tail
  refine ⟨fun mem => ?_, vacant.mono entries_le⟩
  rcases mem_append.mp mem with new | kept
  · obtain ⟨r, hr, same, -⟩ := mem_places.mp new
    exact owner (same.symm.trans (owned r hr).1)
  · exact free (mem_of_mem_filter kept)

lemma Inv.insert {lbid : LBID} {verID : Ver} {vbFBO : Nat}
    (current : (vbOID, vbFBO) ∈ s.current) (new : lookup hasher s.vbbm lbid verID = none) :
    Inv hasher
      { vbbm := confirmChanges (insert hasher s.vbbm lbid ⟨verID, vbOID, vbFBO⟩ false)
        returned := s.returned.filter fun p => p ≠ (vbOID, vbFBO)
        current := s.current.filter fun p => p ≠ (vbOID, vbFBO)
        latest := none } := by
  obtain ⟨sound, entries, files⟩ :=
    insert_spec inv.settled.sound lbid ⟨verID, vbOID, vbFBO⟩ false
  have absent : ∀ d, (lbid, d) ∈ s.vbbm.table.entries → d.verID ≠ verID :=
    (lookup_eq_none inv.settled.sound).mp new
  have here := inv.vacant _ current
  generalize Vbbm.insert hasher s.vbbm lbid ⟨verID, vbOID, vbFBO⟩ false = b at sound entries files ⊢
  have vacant : ∀ place, place ≠ (vbOID, vbFBO) → Vacant s.vbbm.table place →
      Vacant b.table place := by
    intro place ne vacant e mem
    rw [entries] at mem
    rcases Multiset.mem_cons.mp mem with rfl | old
    · exact ne.symm
    · exact vacant e old
  refine ⟨⟨sound.confirmChanges, rfl, rfl⟩, ?_, ⟨?_, by simp⟩, ?_, ?_, ?_, ?_⟩
  · change (Multiset.map _ b.table.entries).Nodup
    rw [entries, Multiset.map_cons, Multiset.nodup_cons]
    refine ⟨?_, inv.keys⟩
    rintro mem
    obtain ⟨⟨k, d⟩, old, same⟩ := Multiset.mem_map.mp mem
    obtain ⟨rfl, version⟩ : k = lbid ∧ d.verID = verID := by simpa using same
    exact absent d old version
  · change (Multiset.map _ b.table.entries).Nodup
    rw [entries, Multiset.map_cons, Multiset.nodup_cons]
    refine ⟨?_, inv.ok.unique⟩
    rintro mem
    obtain ⟨e, old, same⟩ := Multiset.mem_map.mp mem
    exact here e old same
  · change (List.map _ b.files).Nodup
    rw [files]
    exact inv.files_nodup
  · change ∀ file ∈ b.files, FileOk file
    rw [files]
    exact inv.files_ok
  · intro place mem
    obtain ⟨mem, ne⟩ := List.mem_filter.mp mem
    exact vacant place (by simpa using ne) (inv.vacant place mem)
  change ∀ file ∈ b.files, _
  rw [files]
  intro file hf fbo tail
  obtain ⟨free, before⟩ := inv.tail file hf fbo tail
  exact ⟨fun mem => free (List.mem_of_mem_filter mem),
    vacant _ (fun same => free (same ▸ current)) before⟩

lemma Inv.removeEntry (lbid : LBID) (verID : Ver) :
    Inv hasher
      { s with vbbm := confirmChanges (removeEntry hasher s.vbbm lbid verID),
               latest := none } := by
  have sound := (removeFromTable_spec inv.settled.sound lbid verID).1
  have le := removeFromTable_le inv.settled.sound lbid verID
  refine ⟨⟨sound.confirmChanges, rfl, rfl⟩,
    nodup_map_of_le _ inv.keys le, ⟨nodup_map_of_le _ inv.ok.unique le, by simp⟩, inv.files_nodup,
    inv.files_ok, fun place mem => (inv.vacant place mem).mono le, ?_⟩
  intro file hf fbo tail
  exact ⟨(inv.tail file hf fbo tail).1, (inv.tail file hf fbo tail).2.mono le⟩

lemma Inv.getBlocks {s' : State} {vss : VSS} {num : Int}
    (careful : Careful hasher s (.getBlocks vss currentFileSize num vbOID))
    (taken : step hasher vssHasher s (.getBlocks vss currentFileSize num vbOID) = some s') :
    Inv hasher s' := by
  obtain ⟨small, forward⟩ := careful
  simp only [step] at taken
  rcases getBlocks_spec vssHasher vss num inv.settled inv.keys (inv.fileFor_ok small) with
    ⟨b, v, message, result, settled, le, files⟩ |
    ⟨b, v, flushList, count, count_eq, count_le, result, sound, le, files, cleared⟩
  · rw [result] at taken
    cases taken
    exact inv.shrink settled le files small
  rw [result] at taken
  cases taken
  rw [count_eq] at forward ⊢
  rw [fileFor_OID] at cleared ⊢
  exact inv.granted rfl rfl small count_le forward sound le files cleared

lemma Inv.step {a : Action} {s' : State} (careful : Careful hasher s a)
    (taken : step hasher vssHasher s a = some s') : Inv hasher s' := by
  cases a with
  | getBlocks vss currentFileSize num vbOID => exact inv.getBlocks careful taken
  | insert lbid verID vbOID vbFBO =>
    simp only [SpaceReuse.step] at taken
    split at taken
    · cases taken
      exact inv.insert careful.1 careful.2
    · cases taken
  | removeEntry lbid verID =>
    cases taken
    exact inv.removeEntry lbid verID

end

/-- In every run of careful steps each request returns disjoint vacant ranges inside the file, and
no two entries ever share a place. -/
theorem space_ok_of_careful_run {s : State}
    (reached : Runs.Reaches (step hasher vssHasher) (Careful hasher) start s) : SpaceOk s := by
  have inv : Inv hasher s :=
    reached.invariant inv_start fun _ _ _ inv careful taken => inv.step careful taken
  exact inv.ok

/-- A request that finds its space vacant takes it from the ring and changes nothing else. -/
lemma step_getBlocks_of_vacant {added : VBBM} {v : VSS} {i : Nat} {file : VBFileMetadata}
    (add : addVBFileIfNotExists hasher s.vbbm currentFileSize vbOID = (added, i))
    (inRange : i < added.files.length) (here : added.files.getD i ⟨0, 0, 0⟩ = file)
    (ok : FileOk file) (le : num ≤ blockCount file)
    (room : added.table.header.currentSize + num ≤ added.table.header.capacity)
    (vacant : ∀ place, expires file.fileSize
      (ringRanges file.OID (blockCount file) (position file) num) place →
      Vacant added.table place) :
    ∃ s', step hasher vssHasher s (.getBlocks v currentFileSize num vbOID) = some s' ∧
      s'.vbbm.table = added.table.confirmChanges ∧
      s'.vbbm.files = added.files.set i
        { file with nextOffset := (position file + num) % blockCount file * blockSize } ∧
      (∀ place ∈ places (ringRanges file.OID (blockCount file) (position file) num),
        place ∈ s'.returned ∧ place ∈ s'.current) ∧
      ∀ place ∈ s.returned, place ∈ s'.returned := by
  obtain ⟨b, result, table, files⟩ :=
    getBlocks_of_vacant vssHasher v add inRange here ok le room vacant
  set ranges := ringRanges file.OID (blockCount file) (position file) num
  have taken : step hasher vssHasher s (.getBlocks v currentFileSize num vbOID) =
      some
        { vbbm := confirmChanges b
          returned := places ranges ++ s.returned
          current := places ranges ++ s.current.filter fun p =>
            !expires (fileFor s.vbbm currentFileSize vbOID).fileSize ranges p
          latest := some ⟨int32 num, fileFor s.vbbm currentFileSize vbOID, ranges⟩ } := by
    rw [step, result]
  refine ⟨_, taken, ?_, files, ?_, ?_⟩
  · exact congrArg Table.confirmChanges table
  · exact fun place mem => ⟨mem_append_left _ mem, mem_append_left _ mem⟩
  · exact fun place mem => mem_append_right _ mem

/-- A version buffer file of 150 blocks: one full chunk and half of another. -/
def halfChunkFile (position : Nat) : VBFileMetadata := ⟨1, 150 * blockSize, position * blockSize⟩

lemma halfChunkFile_blocks (n : Nat) :
    blockCount (halfChunkFile n) = 150 ∧ position (halfChunkFile n) = n := by
  simp [blockCount, position, halfChunkFile, blockSize]

lemma halfChunkFile_ok {position : Nat} (inside : position < 150) :
    FileOk (halfChunkFile position) := by
  obtain ⟨count, start⟩ := halfChunkFile_blocks position
  exact ⟨by omega, by rw [start]; rfl, by omega⟩

/-- A request on a known file of 150 blocks, in a table with little in it. -/
lemma step_halfChunk (hasher : LBID → Ver → Nat) (vssHasher : LBID → Nat) (v : VSS)
    {position : Nat} (known : s.vbbm.files = [halfChunkFile position]) (inside : position < 150)
    (le : num ≤ 150)
    (room : s.vbbm.table.header.currentSize + num ≤ s.vbbm.table.header.capacity)
    (vacant : ∀ place, expires (150 * blockSize) (ringRanges 1 150 position num) place →
      Vacant s.vbbm.table place) :
    ∃ s', step hasher vssHasher s (.getBlocks v 0 num 1) = some s' ∧
      s'.vbbm.table = s.vbbm.table.confirmChanges ∧
      s'.vbbm.files = [halfChunkFile ((position + num) % 150)] ∧
      ∀ place ∈ places (ringRanges 1 150 position num),
        place ∈ s'.returned ∧ place ∈ s'.current := by
  obtain ⟨count, start⟩ := halfChunkFile_blocks position
  have add : addVBFileIfNotExists hasher s.vbbm 0 1 = (s.vbbm, 0) := by
    simp [addVBFileIfNotExists, known, halfChunkFile]
  have here : s.vbbm.files.getD 0 ⟨0, 0, 0⟩ = halfChunkFile position := by simp [known]
  have owner : (halfChunkFile position).OID = 1 := rfl
  obtain ⟨s', taken, table, files, returned, -⟩ := step_getBlocks_of_vacant add
    (by simp [known]) here (halfChunkFile_ok inside) (by rw [count]; exact le) room
    (by rw [count, start]; exact vacant)
  rw [count, start] at returned
  refine ⟨s', taken, table, ?_, returned⟩
  rw [files, known, count, start]
  rfl

/-- The first request for a file of 150 blocks, in an empty map. -/
lemma step_newHalfChunk (hasher : LBID → Ver → Nat) (vssHasher : LBID → Nat) (v : VSS)
    (le : num ≤ 150) :
    ∃ s', step hasher vssHasher start (.getBlocks v (150 * blockSize) num 1) = some s' ∧
      s'.vbbm.table = (initShmseg).table ∧
      s'.vbbm.files = [halfChunkFile (num % 150)] ∧
      ∀ place ∈ places (ringRanges 1 150 0 num), place ∈ s'.returned ∧ place ∈ s'.current := by
  have add : addVBFileIfNotExists hasher start.vbbm (150 * blockSize) 1 =
      (setFile (growVBBM hasher initShmseg true) 0 (halfChunkFile 0), 0) := rfl
  obtain ⟨count, begin⟩ := halfChunkFile_blocks 0
  have here : (setFile (growVBBM hasher initShmseg true) 0 (halfChunkFile 0)).files.getD 0
      ⟨0, 0, 0⟩ = halfChunkFile 0 := rfl
  obtain ⟨s', taken, table, files, returned, -⟩ := step_getBlocks_of_vacant add
    Nat.one_pos here (halfChunkFile_ok (by omega)) (by rw [count]; exact le)
    (show 0 + num ≤ storageInitialCount by simp only [storageInitialCount]; omega)
    (fun place _ => vacant_of_entries_eq_zero (entries_empty _ _ _) place)
  refine ⟨s', taken, table, ?_, returned⟩
  rw [files, begin, Nat.zero_add]
  rfl

/-- An insert into a place that was returned. -/
lemma step_insert (vssHasher : LBID → Nat) (sound : Sound hasher s.vbbm.table) {vbFBO : Nat}
    (returned : (vbOID, vbFBO) ∈ s.returned) (lbid : LBID) (verID : Ver) :
    ∃ s', step hasher vssHasher s (.insert lbid verID vbOID vbFBO) = some s' ∧
      Sound hasher s'.vbbm.table ∧
      s'.vbbm.table.entries = (lbid, ⟨verID, vbOID, vbFBO⟩) ::ₘ s.vbbm.table.entries ∧
      s'.vbbm.files = s.vbbm.files ∧
      (s.vbbm.table.header.currentSize ≠ s.vbbm.table.header.capacity →
        s'.vbbm.table.header.currentSize = s.vbbm.table.header.currentSize + 1 ∧
          s'.vbbm.table.header.capacity = s.vbbm.table.header.capacity) := by
  obtain ⟨sound', entries, files⟩ := insert_spec sound lbid ⟨verID, vbOID, vbFBO⟩ false
  exact ⟨_, by rw [step, if_pos returned], sound'.confirmChanges, entries, files,
    fun room => insert_header hasher room lbid ⟨verID, vbOID, vbFBO⟩ false⟩

/-- Two requests go round a file of 150 blocks: the second starts at block 120 and stops at 110.
An entry is written into block 130, which it returned. The third request returns blocks 110 to 139
without looking at the chunk, and block 130 gets a second entry. -/
theorem wrapped_request_shares_place :
    ∃ s, Runs.Reaches (step (fun _ _ => 0) fun _ => 0) (fun _ _ => True) start s ∧ ¬ SpaceOk s := by
  generalize (fun _ _ => 0 : LBID → Ver → Nat) = hasher
  generalize (fun _ => 0 : LBID → Nat) = vssHasher
  obtain ⟨s₁, taken₁, table₁, files₁, -⟩ :=
    step_newHalfChunk hasher vssHasher Vss.initShmseg (show 120 ≤ 150 by omega)
  have empty : initShmseg.table.entries = 0 := entries_empty _ _ _
  obtain ⟨s₂, taken₂, table₂, files₂, returned₂⟩ := step_halfChunk hasher vssHasher
    Vss.initShmseg files₁ (by omega) (show 140 ≤ 150 by omega)
    (by rw [table₁]; exact show 0 + 140 ≤ 100000 by omega)
    (fun place _ => vacant_of_entries_eq_zero (by rw [table₁, empty]) place)
  rw [table₁] at table₂
  -- the entry for block 130 goes in
  obtain ⟨s₃, taken₃, sound₃, entries₃, files₃, header₃⟩ := step_insert vssHasher
    (table₂ ▸ sound_initShmseg : Sound hasher s₂.vbbm.table)
    (returned₂ (1, 130) (by decide)).1 7 3
  obtain ⟨size, capacity⟩ := header₃ (by rw [table₂]; decide)
  -- blocks 110 to 139 lie inside one chunk, so nothing is aged out
  obtain ⟨s₄, taken₄, table₄, -, returned₄⟩ := step_halfChunk hasher vssHasher
    Vss.initShmseg (files₃.trans files₂) (by omega) (show 30 ≤ 150 by omega)
    (by rw [size, capacity, table₂]; decide)
    (fun place gone => by
      have skipped : agedBlocks (150 * blockSize) ⟨1, 110, 30⟩ = none := by decide
      simp [expires, ringRanges, skipped] at gone)
  obtain ⟨s₅, taken₅, -, entries₅, -⟩ := step_insert vssHasher
    (table₄ ▸ sound₃.confirmChanges : Sound hasher s₄.vbbm.table)
    (returned₄ (1, 130) (by decide)).1 8 4
  refine ⟨s₅, .next (.next (.next (.next (.next .here trivial taken₁) trivial taken₂) trivial
    taken₃) trivial taken₄) trivial taken₅, fun ok => ?_⟩
  have shared : s₅.vbbm.table.entries = (8, ⟨4, 1, 130⟩) ::ₘ (7, ⟨3, 1, 130⟩) ::ₘ 0 := by
    rw [entries₅, table₄, ← empty]
    exact congrArg _ (entries₃.trans (by rw [table₂]; rfl))
  have unique := ok.unique
  rw [UniquePlaces, shared] at unique
  simp at unique

/-- Requests for 80 and then 60 blocks, with an insert after each, are careful steps. The second
request enters the half chunk, where nothing is, and leaves the entry in the first alone. -/
theorem space_ok_after_second_write :
    ∃ s, SpaceOk s ∧ s.vbbm.table.entries = (8, ⟨4, 1, 120⟩) ::ₘ (7, ⟨3, 1, 5⟩) ::ₘ 0 := by
  let hasher : LBID → Ver → Nat := fun _ _ => 0
  let vssHasher : LBID → Nat := fun _ => 0
  obtain ⟨s₁, taken₁, table₁, files₁, returned₁⟩ :=
    step_newHalfChunk hasher vssHasher Vss.initShmseg (show 80 ≤ 150 by omega)
  have empty₁ : s₁.vbbm.table.entries = 0 := table₁ ▸ entries_empty _ _ _
  have sound₁ : Sound hasher s₁.vbbm.table := table₁ ▸ sound_initShmseg
  obtain ⟨s₂, taken₂, sound₂, entries₂, files₂, header₂⟩ :=
    step_insert vssHasher sound₁ (returned₁ (1, 5) (by decide)).1 7 3
  rw [empty₁] at entries₂
  obtain ⟨size₂, capacity₂⟩ := header₂ (by rw [table₁]; decide)
  have known₂ := files₂.trans files₁
  obtain ⟨s₃, taken₃, table₃, -, returned₃⟩ := step_halfChunk hasher vssHasher Vss.initShmseg
    known₂ (by omega) (show 60 ≤ 150 by omega) (by rw [size₂, capacity₂, table₁]; decide)
    (fun place gone d member stands => by
      obtain rfl : d = (7, ⟨3, 1, 5⟩) := by simpa [entries₂] using member
      obtain rfl : place = (1, 5) := stands.symm
      revert gone
      decide)
  have sound₃ : Sound hasher s₃.vbbm.table := table₃ ▸ sound₂.confirmChanges
  have entries₃ : s₃.vbbm.table.entries = (7, ⟨3, 1, 5⟩) ::ₘ 0 := by
    rw [table₃]
    exact entries₂
  obtain ⟨s₄, taken₄, -, entries₄, -⟩ :=
    step_insert vssHasher sound₃ (returned₃ (1, 120) (by decide)).1 8 4
  have careful₁ : Careful hasher start (.getBlocks Vss.initShmseg (150 * blockSize) 80 1) :=
    ⟨by decide, by decide⟩
  have careful₂ : Careful hasher s₁ (.insert 7 3 1 5) :=
    ⟨(returned₁ (1, 5) (by decide)).2,
      (lookup_eq_none sound₁).mpr fun d mem => by simp [empty₁] at mem⟩
  have careful₃ : Careful hasher s₂ (.getBlocks Vss.initShmseg 0 60 1) := by
    have file : fileFor s₂.vbbm 0 1 = halfChunkFile 80 := by
      simp [fileFor, known₂, halfChunkFile]
    simp only [Careful, file]
    decide
  have careful₄ : Careful hasher s₃ (.insert 8 4 1 120) :=
    ⟨(returned₃ (1, 120) (by decide)).2,
      (lookup_eq_none sound₃).mpr fun d mem => by simp [entries₃] at mem⟩
  refine ⟨s₄, space_ok_of_careful_run (.next (.next (.next (.next .here careful₁ taken₁) careful₂
    taken₂) careful₃ taken₃) careful₄ taken₄), ?_⟩
  rw [entries₄, entries₃]

end SpaceReuse
