import ColumnStore.SnapshotInvariant

/-!
# What keeps a query on its snapshot

As long as the version buffer does not give away the place of the version the query reads, every
read returns the image that was committed when the query fixed its snapshot. Once it does, the
tables may forget the block altogether, and the query takes the newer image in the main file for
the one it has to see.
-/

namespace SnapshotSafety

open ChainedTable ChainedTable.Table BlockHistory List Vbbm VbbmInvariant VersionBufferSpace Runs
open Vss (LBID Ver VSS LBIDRange QueryContext)
open CopyLock (CopyLocks initial lockRange)
open SlaveNode VersionHistory SnapshotRead SnapshotInvariant
open VssInvariant (Sound)

section Runs

variable {Image : Type} {hasher : LBID → Ver → Nat} {vssHasher : LBID → Nat} {reader : Ver}
  {s : State Image}

/-- The tables tell a history under which the query is safe. -/
def Safe (hasher : LBID → Ver → Nat) (vssHasher : LBID → Nat) (reader : Ver) (s : State Image) :
    Prop :=
  ∃ hist, Inv hasher vssHasher reader s hist

/-- In every run whose steps all are careful, every read of the query that does not fail returns
the image that was committed when the query fixed its snapshot. -/
theorem reads_snapshot {main : LBID → Image} {vb : Nat × Nat → Image}
    (reached : Runs.Reaches (step hasher vssHasher)
      (fun s a => Protocol hasher vssHasher reader s a ∧ Careful hasher vssHasher reader s a)
      (start main vb) s)
    {c : QueryContext} {images : LBID → Image} (fixed : s.snapshot = some (c, images))
    {lbid : LBID} {image : Image}
    (got : readBlock hasher vssHasher reader s c lbid = some image) : image = images lbid := by
  obtain ⟨hist, inv⟩ : Safe hasher vssHasher reader s :=
    reached.invariant ⟨_, inv_start main vb⟩ fun _ _ _ ⟨_, inv⟩ allowed taken =>
      inv_step inv allowed.1 allowed.2 taken
  have answer := inv.readBlock_eq lbid
  simp only [context, expected, fixed] at answer
  rw [got] at answer
  exact Option.some.inj answer

end Runs

/-! ## A place given away

What a request does when no block is locked. -/

variable {b : VBBM} {currentFileSize vbOID : Nat}

section Unlocked

variable {hasher : LBID → Ver → Nat} {vssHasher : LBID → Nat} {v : VSS}

section

variable (sound : Sound vssHasher v) (unlocked : ∀ l d, (l, d) ∈ v.entries → d.locked = false)
include sound unlocked

lemma versions_unlocked (l : LBID) :
    (Vss.versions vssHasher v l).any (fun d => d.locked) = false := by
  rw [any_eq_false]
  intro d mem
  simp [unlocked l d ((VssInvariant.mem_versions sound).mp mem)]

lemma isLocked_of_unlocked (range : LBIDRange) (transID : Ver) :
    Vss.isLocked vssHasher v range transID = false := by
  unfold Vss.isLocked
  induction range.blocks with
  | nil => rfl
  | cons l rest ih =>
    have free : (Vss.versions vssHasher v l).find? (fun d => d.locked) = none :=
      find?_eq_none.mpr (any_eq_false.mp (versions_unlocked sound unlocked l))
    simp only [Vss.isLockedLoop, free]
    exact ih

end

lemma ageBlocks_of_unlocked (hasher : LBID → Ver → Nat) (vbOID first last : Nat)
    (indices : List Nat) {s : Aging} (sound : Sound vssHasher s.vss)
    (unlocked : ∀ l d, (l, d) ∈ s.vss.entries → d.locked = false) :
    let r := ageBlocks hasher vssHasher vbOID first last indices s
    r.2 = none ∧ Sound vssHasher r.1.vss ∧
      ∀ l d, (l, d) ∈ r.1.vss.entries → d.locked = false := by
  induction indices generalizing s with
  | nil => exact ⟨rfl, sound, unlocked⟩
  | cons i indices ih =>
    have skip := ih sound unlocked
    simp only [ageBlocks]
    split
    · exact skip
    case h_2 lbid key =>
      have free : ¬ Vss.isEntryLocked vssHasher s.vss lbid (s.table.slots i).data.verID := by
        simp [Vss.isEntryLocked, versions_unlocked sound unlocked lbid]
      split_ifs with hit
      · obtain ⟨sound', outcome⟩ := VssInvariant.removeEntry_spec sound lbid
          (s.table.slots i).data.verID s.flushList
        refine ih sound' fun l d mem => unlocked l d ?_
        rcases outcome with ⟨-, same⟩ | ⟨e, rest, -, before, ⟨-, after⟩ | ⟨-, after⟩⟩
        · exact same ▸ mem
        · rw [before]
          exact Multiset.mem_cons_of_mem (after ▸ mem)
        · rw [before]
          exact Multiset.mem_cons_of_mem (Multiset.mem_of_mem_filter (after ▸ mem))
      · exact skip

lemma ageRanges_of_unlocked (hasher : LBID → Ver → Nat) (num : Int) (fileSize : Nat)
    (ranges : List VBRange) {s : Aging} (sound : Sound vssHasher s.vss)
    (unlocked : ∀ l d, (l, d) ∈ s.vss.entries → d.locked = false) :
    (ageRanges hasher vssHasher num fileSize ranges s).2 = none := by
  induction ranges generalizing s with
  | nil => rfl
  | cons range ranges ih =>
    simp only [ageRanges]
    cases bounds : agedBlocks fileSize range with
    | none => exact ih sound unlocked
    | some firstLast =>
      obtain ⟨first, last⟩ := firstLast
      obtain ⟨done, sound', unlocked'⟩ := ageBlocks_of_unlocked hasher range.vbOID first last
        (List.range s.table.header.capacity) sound unlocked
      dsimp only
      cases result : ageBlocks hasher vssHasher range.vbOID first last
          (List.range s.table.header.capacity) s with
      | mk s' found =>
        rw [result] at done sound' unlocked'
        obtain rfl : found = none := done
        exact ih sound' unlocked'

lemma getBlocks_ne_overflow {b' : VBBM} {v' : VSS} {requested : Int} {message : String}
    (sound : Sound vssHasher v) (unlocked : ∀ l d, (l, d) ∈ v.entries → d.locked = false)
    (fits : ¬ ((addVBFileIfNotExists hasher b currentFileSize vbOID).1.files.getD
      (addVBFileIfNotExists hasher b currentFileSize vbOID).2 ⟨0, 0, 0⟩).fileSize / blockSize <
        uint32 (int32 requested)) :
    getBlocks hasher vssHasher b v currentFileSize requested vbOID ≠
      some (b', v', .overflow message) := by
  intro done
  unfold getBlocks at done
  dsimp only at done
  rw [if_neg fits] at done
  obtain ⟨⟨b₁, ranges⟩, -, result⟩ := Option.map_eq_some_iff.mp done
  have finished := ageRanges_of_unlocked hasher (int32 requested)
    ((addVBFileIfNotExists hasher b currentFileSize vbOID).1.files.getD
      (addVBFileIfNotExists hasher b currentFileSize vbOID).2 ⟨0, 0, 0⟩).fileSize ranges
    (s := ⟨b₁.table, v, []⟩) sound unlocked
  split at result
  · rename_i aging
    rw [aging] at finished
    cases finished
  · cases result

lemma beginVBCopy_granted {n : Node} {meanwhile : Nat → CopyLocks → CopyLocks} {transID : Ver}
    {range : LBIDRange} {c : CopyLocks} {v' : VSS} {freeList : List VBRange} {flushList : List LBID}
    (sound : Sound vssHasher n.vss) (unlocked : ∀ l d, (l, d) ∈ n.vss.entries → d.locked = false)
    (copyable : CopyLock.isLocked n.copylocks range = false)
    (locks : lockRange n.copylocks range transID = some c)
    (request : getBlocks hasher vssHasher n.vbbm n.vss currentFileSize (sizeSum [range]) vbOID =
      some (b, v', .granted freeList flushList)) :
    beginVBCopy hasher vssHasher n meanwhile currentFileSize transID vbOID [range] =
      some (⟨v', b, c⟩, 0, freeList) := by
  have pass :
      lockPass transID false [(range, false)] n.copylocks = (c, [(range, true)], false) := by
    simp [lockPass, copyable, locks]
  have first : lockRanges transID meanwhile [range] n.copylocks = (c, [(range, true)], false) := by
    change lockLoop transID meanwhile (1199 + 1) [(range, false)] n.copylocks = _
    rw [lockLoop, pass]
    rfl
  simp [beginVBCopy, isLocked_of_unlocked sound unlocked, first, request]

end Unlocked

section GivenAway

variable (hasher : LBID → Ver → Nat) (vssHasher : LBID → Nat)

/-- A version buffer file of one block. -/
def oneBlockFile : VBFileMetadata := ⟨9, blockSize, 0⟩

lemma oneBlockFile_ok : FileOk oneBlockFile :=
  ⟨by decide, by decide, by decide⟩

/-- The copy locks when block 7 has been locked. -/
def sevenLocked : CopyLocks :=
  CopyLock.confirmChanges
    ((lockRange initial ⟨7, 1⟩ 1).getD initial)

lemma step_beginVBCopy {Image : Type} {hasher : LBID → Ver → Nat} {vssHasher : LBID → Nat}
    {s : State Image} {n : Node} {meanwhile : Nat → CopyLocks → CopyLocks}
    {transID : Ver} {ranges : List LBIDRange} {freeList : List VBRange}
    (granted : beginVBCopy hasher vssHasher s.node meanwhile currentFileSize transID vbOID ranges =
      some (n, 0, freeList)) :
    step hasher vssHasher s (.beginVBCopy meanwhile currentFileSize transID vbOID ranges) =
      some { s with
        node := confirmChanges n
        granted :=
          (places freeList).map (fun p => (transID, p)) ++ s.granted } := by
  simp only [step, granted]

/-- The first transaction has asked for the one place of the version buffer. -/
def askedState (b : VBBM) : State Nat :=
  { start (fun _ => 0) (fun _ => 0) with
    node := ⟨Vss.initShmseg, Vbbm.confirmChanges b, sevenLocked⟩
    sessions := ⟨1, [(1, 1)]⟩
    granted := [(1, (9, 0))] }

lemma growthKeeps_of_room (num : Nat) {added : VBBM} {i : Nat}
    (add : addVBFileIfNotExists hasher b currentFileSize vbOID = (added, i))
    (same : added.table.entries = b.table.entries) (small : num < 2 ^ 31)
    (room : added.table.header.currentSize + num ≤ added.table.header.capacity) :
    GrowthKeeps hasher b currentFileSize num vbOID := by
  refine ⟨by rw [add]; exact same, ?_⟩
  rw [afterGrowth, add, int32_of_lt small]
  rw [growFor_of_room hasher _ room]
  exact same

/-- A transaction starts and is granted the one place of a new file. -/
lemma asked_reached : ∃ b : VBBM,
    Reaches (step hasher vssHasher)
        (fun s a => Protocol hasher vssHasher 0 s a ∧ Careful hasher vssHasher 0 s a)
        (start (fun _ => 0) (fun _ => 0)) (askedState b) ∧
      b.table = initShmseg.table ∧ b.files = [oneBlockFile] := by
  have add : addVBFileIfNotExists hasher initShmseg blockSize 9 =
      (setFile (growVBBM hasher initShmseg true) 0 oneBlockFile, 0) := rfl
  have here : (setFile (growVBBM hasher initShmseg true) 0 oneBlockFile).files.getD 0
      ⟨0, 0, 0⟩ = oneBlockFile := rfl
  have room : 0 + 1 ≤ storageInitialCount := by decide
  have noVersions : ∀ l d, (l, d) ∉ Vss.initShmseg.entries := fun l d mem => by
    rw [show Vss.initShmseg.entries = 0 from entries_empty _ _ _] at mem
    exact Multiset.notMem_zero _ mem
  have noPlaces : ∀ l d, (l, d) ∉ initShmseg.table.entries := fun l d mem => by
    rw [show initShmseg.table.entries = 0 from entries_empty _ _ _] at mem
    exact Multiset.notMem_zero _ mem
  obtain ⟨b, request, table, files⟩ := getBlocks_of_vacant vssHasher
    Vss.initShmseg add Nat.one_pos here oneBlockFile_ok (by decide) room
    fun place _ => vacant_of_entries_eq_zero (entries_empty _ _ _) place
  have granted : beginVBCopy hasher vssHasher initial (fun _ c => c) blockSize 1 9 [⟨7, 1⟩] =
      some (⟨Vss.initShmseg, b, (lockRange initial ⟨7, 1⟩ 1).getD initial⟩, 0, [⟨9, 0, 1⟩]) :=
    beginVBCopy_granted VssInvariant.sound_initShmseg (fun l d mem => absurd mem (noVersions l d))
      (by decide) rfl request
  refine ⟨b, ?_, table, files⟩
  refine .next (a := .beginVBCopy (fun _ c => c) blockSize 1 9 [⟨7, 1⟩])
    (.next (a := .newTxnID 1) .here ⟨trivial, trivial⟩ rfl) ⟨?_, ?_, ?_⟩ ?_
  · exact mem_singleton.mpr rfl
  · exact growthKeeps_of_room hasher 1 add rfl (by decide) room
  · exact fun l d mem => absurd mem (noPlaces l d)
  · exact (step_beginVBCopy granted).trans rfl

/-- Then a query fixes its snapshot and the image of block 7 goes to the place. -/
def copiedState (b : VBBM) : State Nat :=
  { askedState b with
    vb := Function.update (fun _ => 0) (9, 0) 0
    granted := []
    copied := [⟨1, 7, (9, 0)⟩]
    snapshot := some (⟨1, [1]⟩, fun _ => 0) }

lemma copied_reached : ∃ b : VBBM,
    Reaches (step hasher vssHasher)
        (fun s a => Protocol hasher vssHasher 0 s a ∧ Careful hasher vssHasher 0 s a)
        (start (fun _ => 0) (fun _ => 0)) (copiedState b) ∧
      Inv hasher vssHasher 0 (copiedState b) (fun _ => none) ∧
      b.table = initShmseg.table ∧ b.files = [oneBlockFile] := by
  obtain ⟨b, reached, table, files⟩ := asked_reached hasher vssHasher
  have inv₀ : Inv hasher vssHasher 0 (askedState b) fun _ => none :=
    inv_aged (n := ⟨Vss.initShmseg, b, _⟩) (inv_newTxnID (inv_start (fun _ => 0) fun _ => 0) 1)
      (fun _ _ => False)
      (show Tracks hasher vssHasher Vss.initShmseg b.table _ by rw [table]; exact tracks_initial)
      (by rw [table]; exact le_rfl) (fun _ => .same) (fun _ _ _ gone => gone) [(1, (9, 0))]
  set s₁ : State Nat := { askedState b with snapshot := some (⟨1, [1]⟩, fun _ => 0) } with s₁_eq
  have inv₁ : Inv hasher vssHasher 0 s₁ fun _ => none := inv_fixSnapshot inv₀ rfl
  have nothingCopied : s₁.copied = [] := rfl
  have careful : Careful hasher vssHasher 0 s₁ (.copyImage 1 7 (9, 0)) := by
    refine ⟨fun l d mem => ?_, by simp [nothingCopied]⟩
    obtain ⟨_, known, -⟩ := inv₁.tracks.mapped_iff.mp ⟨d, mem, rfl⟩
    cases known
  have freeFor : FreeFor vssHasher s₁ 1 7 := fun held => by
    cases held
  have protocol : Protocol hasher vssHasher 0 s₁ (.copyImage 1 7 (9, 0)) :=
    ⟨mem_singleton.mpr rfl, mem_singleton.mpr rfl, freeFor, by simp [nothingCopied]⟩
  have fixed : Reaches _ _ _ s₁ :=
    reached.next (a := Action.fixSnapshot) ⟨trivial, trivial⟩ rfl
  exact ⟨b, fixed.next (a := Action.copyImage 1 7 (9, 0)) ⟨protocol, careful⟩ rfl,
    inv_copyImage inv₁ careful _, table, files⟩

/-- The place is entered in the tables, block 7 is overwritten and the transaction commits. -/
lemma committed_reached : ∃ (s : State Nat) (hist : History),
    Reaches (step hasher vssHasher)
        (fun s a => Protocol hasher vssHasher 0 s a ∧ Careful hasher vssHasher 0 s a)
        (start (fun _ => 0) (fun _ => 0)) s ∧
      Inv hasher vssHasher 0 s hist ∧ s.snapshot = some (⟨1, [1]⟩, fun _ => 0) ∧ s.main 7 = 5 ∧
      s.sessions = ⟨1, []⟩ ∧ s.node.copylocks = sevenLocked ∧
      s.node.vbbm.files = [oneBlockFile] ∧
      s.node.vbbm.table.entries = {(7, ⟨0, 9, 0⟩)} ∧
      s.node.vbbm.table.header.currentSize + 1 ≤ s.node.vbbm.table.header.capacity ∧
      (∀ l ≠ 7, hist l = none) ∧ ∃ b, hist 7 = some b ∧ b.locked = false ∧ b.older = {0} := by
  obtain ⟨b, reached, inv, table, files⟩ := copied_reached hasher vssHasher
  set s₂ := copiedState b with s₂_eq
  have newer : currentVersion (none : Option (Block Ver)) < (1 : Ver) := Nat.one_pos
  have current : Vss.getCurrentVersion vssHasher s₂.node.vss 7 = (0, false) :=
    getCurrentVersion_none inv.tracks.vss (inv.tracks.shows 7).1
  have freeFor : FreeFor vssHasher s₂ 1 7 := fun held => by simp [current] at held
  have protocol : Protocol hasher vssHasher 0 s₂ (.writeVBEntry 1 7 (9, 0)) :=
    ⟨mem_singleton.mpr rfl, Nat.one_ne_zero, mem_singleton.mpr rfl, freeFor⟩
  obtain ⟨v, wrote⟩ : ∃ v, writeVBEntry hasher vssHasher s₂.node 1 7 9 0 =
      ({ s₂.node with vss := v, vbbm := insert hasher s₂.node.vbbm 7 ⟨0, 9, 0⟩ false }, 0) := by
    obtain ⟨v, wrote, -⟩ := writeVBEntry_newer inv.tracks newer (by simp) 9 0
    exact ⟨v, wrote⟩
  set s₃ : State Nat := { s₂ with
    node := confirmChanges { s₂.node with
      vss := v
      vbbm := insert hasher s₂.node.vbbm 7 ⟨0, 9, 0⟩ false }
    copied := s₂.copied.filter fun c => c.place ≠ (9, 0)
    taken := (1, 7) :: s₂.taken } with s₃_eq
  have inv₃ : Inv hasher vssHasher 0 s₃ _ :=
    inv_writeVBEntry_newer inv protocol newer (congrArg Prod.fst wrote)
  have taken : step hasher vssHasher s₂ (.writeVBEntry 1 7 (9, 0)) = some s₃ := by
    simp only [step]
    rw [wrote, if_pos rfl, current, if_neg (by decide)]
  have mine : (1, 7) ∈ s₃.taken := mem_cons_self ..
  have uncopied : ∀ c ∈ s₃.copied, c.lbid ≠ 7 := by simp [s₃_eq, s₂_eq, copiedState]
  have running : (1 : Ver) ∈ s₃.sessions.active := mem_singleton.mpr rfl
  have inv₅ := inv_commit (inv_setMain inv₃ mine uncopied 5) running
  have reached₃ := reached.next ⟨protocol, trivial⟩ taken
  have reached₄ := reached₃.next (a := Action.overwrite 1 7 5) ⟨⟨mine, uncopied⟩, trivial⟩ rfl
  have reached₅ := reached₄.next (a := Action.commit 1) ⟨running, trivial⟩ rfl
  obtain ⟨-, entries', files'⟩ := insert_spec inv.tracks.vbbm 7 ⟨0, 9, 0⟩ false
  have before : s₂.node.vbbm.table.entries = 0 :=
    (congrArg entries (congrArg (fun t => { t with undo := [] }) table)).trans
      (entries_empty _ _ _)
  have header : s₂.node.vbbm.table.header = initShmseg.table.header :=
    (congrArg Table.header table : b.table.header = _)
  obtain ⟨size, capacity⟩ := insert_header hasher
    (by rw [header]; decide) 7 ⟨0, 9, 0⟩ false
  refine ⟨_, _, reached₅, inv₅, rfl, Function.update_self (7 : LBID) 5 s₃.main, rfl, rfl,
    files'.trans files, entries'.trans (congrArg _ before), ?_, ?_, ?_⟩
  · refine (Nat.add_le_add_right size.le 1).trans (le_of_le_of_eq ?_ capacity.symm)
    rw [header]
    decide
  · intro l other
    simp [Function.update_of_ne other, commit]
  · refine ⟨(overwrite none 1 newer).unlock, ?_, rfl, rfl⟩
    simp [commit]

/-- A second transaction asks for a place for another block. It is given the place of the version
the query reads, and the version buffer forgets block 7. -/
lemma given_away : ∃ s : State Nat,
    Reaches (step hasher vssHasher) (Protocol hasher vssHasher 0)
        (start (fun _ => 0) (fun _ => 0)) s ∧
      s.snapshot = some (⟨1, [1]⟩, fun _ => 0) ∧ s.main 7 = 5 ∧
      Vss.lookup vssHasher s.node.vss 7 ⟨1, [1]⟩ 0 false = .notFound := by
  obtain ⟨s, hist, reached, inv, snapshot, main, sessions, copylocks, files, entries, room, others,
    block, known, free, older⟩ := committed_reached hasher vssHasher
  have unlocked : ∀ l d, (l, d) ∈ s.node.vss.entries → d.locked = false := by
    intro l d mem
    obtain ⟨b, here, listed⟩ := inv.tracks.mem_vss_iff.mp mem
    by_cases seven : l = 7
    · rw [seven, known] at here
      cases here
      rcases mem_listed.mp listed with rfl | ⟨_, -, rfl⟩
      · exact free
      · rfl
    · rw [others l seven] at here
      cases here
  have add : addVBFileIfNotExists hasher s.node.vbbm blockSize 9 = (s.node.vbbm, 0) := by
    simp [addVBFileIfNotExists, files, oneBlockFile]
  have file : fileFor s.node.vbbm blockSize 9 = oneBlockFile := by
    simp [fileFor, files, oneBlockFile]
  have unique : UniqueKeys s.node.vbbm.table := by
    simp [UniqueKeys, entries]
  have settled : Settled hasher s.node.vbbm :=
    ⟨inv.tracks.vbbm, inv.undo, inv.fileUndo⟩
  obtain ⟨b', v', flushList, request, vacant⟩ : ∃ b' v' flushList,
      getBlocks hasher vssHasher s.node.vbbm s.node.vss blockSize (sizeSum [⟨8, 1⟩]) 9 =
        some (b', v', .granted [⟨9, 0, 1⟩] flushList) ∧
      Vacant b'.table (9, 0) := by
    have outcome := getBlocks_spec vssHasher s.node.vss (sizeSum [⟨8, 1⟩])
      settled unique (file ▸ oneBlockFile_ok)
    rw [file] at outcome
    rcases outcome with ⟨b', v', message, overflow, -⟩ |
      ⟨b', v', flushList, num, one, -, request, -, -, -, vacant⟩
    · refine absurd overflow (getBlocks_ne_overflow inv.tracks.vss unlocked ?_)
      rw [add, files]
      dsimp only
      decide
    · obtain rfl : num = 1 := by
        have : int32 (sizeSum [⟨8, 1⟩]) = 1 := by decide
        omega
      exact ⟨b', v', flushList, request, vacant (9, 0) (by decide)⟩
  -- every version of block 7 is gone: its only place is vacant, and no transaction holds its lock
  obtain ⟨less, hist', tracks, aged⟩ := getBlocks_tracks (fun _ _ => True) settled inv.tracks
    (growthKeeps_of_room hasher 1 add rfl (by decide) room) (fun _ _ _ _ => trivial) request
  have forgotten : hist' 7 = none := by
    have aged := aged 7
    rw [known] at aged
    cases left : hist' 7 with
    | none => rfl
    | some b =>
      rw [left] at aged
      obtain ⟨_, same, -, locked, -⟩ := aged.some_of_some
      cases same
      obtain ⟨w, old⟩ := aged.older_nonempty (older ▸ Finset.singleton_nonempty 0)
        (locked.trans free)
      obtain ⟨d, mem, -⟩ := tracks.mapped_iff.mpr ⟨b, left, old⟩
      have only := Multiset.mem_of_le less mem
      rw [entries, Multiset.mem_singleton] at only
      exact absurd (congrArg (fun e => (e.2.vbOID, e.2.vbFBO)) only) (vacant _ mem)
  have granted : beginVBCopy hasher vssHasher s.node (fun _ c => c) blockSize 2 9 [⟨8, 1⟩] =
      some (⟨v', b', (lockRange sevenLocked ⟨8, 1⟩ 2).getD sevenLocked⟩, 0, [⟨9, 0, 1⟩]) :=
    beginVBCopy_granted inv.tracks.vss unlocked (by rw [copylocks]; decide) (by rw [copylocks]; rfl)
      request
  have reached' := reached.mono fun _ _ => And.left
  have started := reached'.next (a := Action.newTxnID 2) trivial rfl
  refine ⟨_, started.next ?_ (step_beginVBCopy granted), snapshot, main,
    lookup_of_unchanged (tracks_confirmChanges tracks) forgotten⟩
  show 2 ∈ (s.sessions.newTxnID 2).active
  rw [sessions]
  decide

end GivenAway

/-- The query then reads the newer image without an error. -/
theorem reused_place_shows_newer_image : ∃ s : State Nat,
    Runs.Reaches (step (fun l v => l + v) id) (Protocol (fun l v => l + v) id 0)
        (start (fun _ => 0) (fun _ => 0)) s ∧
      ∃ c images, s.snapshot = some (c, images) ∧
        readBlock (fun l v => l + v) id 0 s c 7 = some 5 ∧ images 7 = 0 := by
  obtain ⟨s, reached, snapshot, main, forgotten⟩ := given_away (fun l v => l + v) id
  refine ⟨s, reached, _, _, snapshot, ?_, rfl⟩
  rw [readBlock, forgotten, main]

/-- As long as the place is not given away, the query reads block 7 as it was before the commit. -/
theorem reads_overwritten_block : ∃ (s : State Nat) (c : QueryContext) (images : LBID → Nat)
    (image : Nat), s.snapshot = some (c, images) ∧ s.main 7 ≠ images 7 ∧
      readBlock (fun l v => l + v) id 0 s c 7 = some image ∧ image = images 7 := by
  obtain ⟨s, hist, reached, inv, snapshot, main, -⟩ := committed_reached (fun l v => l + v) id
  have got := inv.readBlock_eq 7
  simp only [context, snapshot] at got
  refine ⟨s, _, _, _, snapshot, ?_, got, reads_snapshot reached snapshot got⟩
  rw [main]
  decide

end SnapshotSafety
