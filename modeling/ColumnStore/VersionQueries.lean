import ColumnStore.VersionAnswers

/-!
# Locked blocks and snapshots that are too old

`VSS::isLocked` lets the first locked block of a range decide, and `VSS::isTooOld` looks for a
minimum below its starting value 0. Of `DBRM::lookupLocal` the fields that only the extent map
fills are left out.
-/

namespace VersionQueries

open ChainedTable.Table List VssInvariant
open Vss (LBID Ver VSS VSSData LBIDRange QueryContext versions lookupLoop
  isLockedLoop)
open CopyLock (CopyLocks)
open SlaveNode

variable {hasher : LBID → Ver → Nat} {vssHasher : LBID → Nat} {n : Node} {lbid : LBID}

section Locks

variable (v : VSS) (transID : Ver)

def Own (lbid : LBID) : Prop := ∃ d, (lbid, d) ∈ v.entries ∧ d.locked = true ∧ d.verID = transID

def Foreign (lbid : LBID) : Prop := ∃ d, (lbid, d) ∈ v.entries ∧ d.locked = true ∧ d.verID ≠ transID

def OneLock : Prop :=
  ∀ lbid d d', (lbid, d) ∈ v.entries → (lbid, d') ∈ v.entries → d.locked = true →
    d'.locked = true → d = d'

/-- The first locked block is the caller's own, and a later one is not. -/
def Mixed : List LBID → Prop
  | [] => False
  | lbid :: rest =>
    Own v transID lbid ∧ (∃ b ∈ rest, Foreign v transID b) ∨
      ¬Own v transID lbid ∧ ¬Foreign v transID lbid ∧ Mixed rest

variable {v transID}

lemma isLockedLoop_iff (sound : Sound vssHasher v) (one : OneLock v) (blocks : List LBID) :
    (isLockedLoop vssHasher v transID blocks ↔ ∃ b ∈ blocks, Foreign v transID b) ↔
      ¬Mixed v transID blocks := by
  induction blocks with
  | nil => simp [isLockedLoop, Mixed]
  | cons lbid rest later =>
    rw [isLockedLoop, Mixed]
    cases found : (versions vssHasher v lbid).find? fun d => d.locked with
    | none =>
      have unlocked : ∀ d, (lbid, d) ∈ v.entries → d.locked ≠ true := fun d entered =>
        find?_eq_none.mp found d ((mem_versions sound).mpr entered)
      have notOwn : ¬Own v transID lbid := by
        rintro ⟨d, entered, locked, -⟩
        exact unlocked d entered locked
      have notForeign : ¬Foreign v transID lbid := by
        rintro ⟨d, entered, locked, -⟩
        exact unlocked d entered locked
      simpa [notOwn, notForeign] using later
    | some d =>
      have entered := (mem_versions sound).mp (mem_of_find?_eq_some found)
      have locked : d.locked := find?_some found
      by_cases own : d.verID = transID
      · have isOwn : Own v transID lbid := ⟨d, entered, locked, own⟩
        have notForeign : ¬Foreign v transID lbid := by
          rintro ⟨d', entered', locked', other⟩
          rw [one lbid d d' entered entered' locked locked'] at own
          exact other own
        simp [own, isOwn, notForeign]
      have isForeign : Foreign v transID lbid := ⟨d, entered, locked, own⟩
      have notOwn : ¬Own v transID lbid := by
        rintro ⟨d', entered', locked', own'⟩
        rw [← one lbid d d' entered entered' locked locked'] at own'
        exact own own'
      simp [own, isForeign, notOwn]

end Locks

/-- `isLocked` is exact, and `beginVBCopy` grants no space for blocks another transaction holds. -/
structure LocksRespected (hasher : LBID → Ver → Nat) (vssHasher : LBID → Nat) (n : Node)
    (meanwhile : Nat → CopyLocks → CopyLocks) (currentFileSize : Nat) (transID : Ver) (vbOID : Nat)
    (ranges : List LBIDRange) : Prop where
  exact : ∀ range ∈ ranges, (Vss.isLocked vssHasher n.vss range transID = true ↔
    ∃ b ∈ range.blocks, Foreign n.vss transID b)
  granted : ∀ n' freeList,
    beginVBCopy hasher vssHasher n meanwhile currentFileSize transID vbOID ranges =
      some (n', 0, freeList) → ∀ range ∈ ranges, ∀ b ∈ range.blocks, ¬Foreign n.vss transID b

theorem locksRespected_iff (sound : Sound vssHasher n.vss) (one : OneLock n.vss)
    (meanwhile : Nat → CopyLocks → CopyLocks) (currentFileSize : Nat) (transID : Ver) (vbOID : Nat)
    (ranges : List LBIDRange) :
    LocksRespected hasher vssHasher n meanwhile currentFileSize transID vbOID ranges ↔
      ∀ range ∈ ranges, ¬Mixed n.vss transID range.blocks := by
  have loop : (∀ range ∈ ranges, (Vss.isLocked vssHasher n.vss range transID ↔
      ∃ b ∈ range.blocks, Foreign n.vss transID b)) ↔
      ∀ range ∈ ranges, ¬Mixed n.vss transID range.blocks :=
    forall₂_congr fun range _ => isLockedLoop_iff sound one range.blocks
  refine ⟨fun respected => loop.mp respected.exact, fun separate => ?_⟩
  have exact := loop.mpr separate
  refine ⟨exact, fun n' freeList done range member b inside foreign => ?_⟩
  have held : (ranges.any fun range => Vss.isLocked vssHasher n.vss range transID) :=
    any_eq_true.mpr ⟨range, member, (exact range member).mpr ⟨b, inside, foreign⟩⟩
  rw [beginVBCopy, if_pos held] at done
  simp at done

/-- Block 0 is locked by transaction 5 and block 1 by transaction 7. -/
def twoOwners : VSS :=
  Vss.insert id (Vss.insert id Vss.initShmseg 0 ⟨5, false, true⟩ false) 1 ⟨7, false, true⟩ false

lemma twoOwners_spec : Sound id twoOwners ∧ OneLock twoOwners ∧
    twoOwners.entries = {(1, ⟨7, false, true⟩), (0, ⟨5, false, true⟩)} := by
  obtain ⟨sound, entries⟩ := insert_spec sound_initShmseg 0 ⟨5, false, true⟩ false
  obtain ⟨sound', entries'⟩ := insert_spec sound 1 ⟨7, false, true⟩ false
  have listed : twoOwners.entries = {(1, ⟨7, false, true⟩), (0, ⟨5, false, true⟩)} := by
    rw [twoOwners, entries', entries, show Vss.initShmseg.entries = 0 from entries_empty ..]
    rfl
  refine ⟨sound', fun lbid d d' entered entered' => ?_, listed⟩
  rw [listed] at entered entered'
  simp only [Multiset.insert_eq_cons, Multiset.mem_cons, Multiset.mem_singleton] at entered entered'
  grind

/-- For transaction 7 the first locked block is another transaction's. -/
theorem locksRespected_twoOwners :
    LocksRespected (fun _ _ => 0) id { initial with vss := twoOwners } (fun _ c => c) 8192 7 0
      [⟨0, 2⟩] ∧ Vss.isLocked id twoOwners ⟨0, 2⟩ 7 = true := by
  obtain ⟨sound, one, listed⟩ := twoOwners_spec
  have foreign : Foreign twoOwners 7 0 := ⟨⟨5, false, true⟩, by simp [listed], rfl, by decide⟩
  have notOwn : ¬Own twoOwners 7 0 := by
    rintro ⟨d, entered, -, owner⟩
    simp [listed] at entered
    simp [entered] at owner
  refine ⟨(locksRespected_iff (n := { initial with vss := twoOwners }) sound one ..).mpr
    fun range member => ?_, by decide +kernel⟩
  rw [List.mem_singleton.mp member]
  rintro (⟨own, -⟩ | ⟨-, notForeign, -⟩)
  exacts [notOwn own, notForeign foreign]

theorem foreign_lock_overlooked : Sound id twoOwners ∧ OneLock twoOwners ∧ Foreign twoOwners 5 1 ∧
    Vss.isLocked id twoOwners ⟨0, 2⟩ 5 = false := by
  obtain ⟨sound, one, listed⟩ := twoOwners_spec
  exact ⟨sound, one, ⟨⟨7, false, true⟩, by simp [listed], rfl, by decide⟩, by decide +kernel⟩

section TooOld

variable (hasher : LBID → Ver → Nat) (vssHasher : LBID → Nat)

def errSnapshotTooOld : Int := 15

def isTooOld (v : VSS) (lbid : LBID) (verID : Ver) : Bool :=
  verID < (versions vssHasher v lbid).foldl
    (fun minVer d => if d.verID < minVer then d.verID else minVer) 0

/-- `DBRM::lookupLocal`, with the answer of the extent map, which is asked without `vbFlag`. -/
def lookupLocal (em : LBID → Int × Option (Nat × Nat)) (n : Node) (lbid : LBID) (verid : Ver)
    (vbFlag : Bool) : Int × Option (Nat × Nat) :=
  if !vbFlag then em lbid
  else match Vbbm.lookup hasher n.vbbm lbid verid with
    | some place => (0, some place)
    | none => (if isTooOld vssHasher n.vss lbid verid then errSnapshotTooOld else -1, none)

def Visible (verInfo : QueryContext) (txnID : Ver) (vbOnly : Bool) (d : VSSData) : Prop :=
  ¬((vbOnly && !d.vbFlag) = true ∨ txnID ≠ d.verID ∧ d.verID ∈ verInfo.txns)

/-- Both functions report exactly the snapshots that are older than all that is kept. -/
structure TooOldExact (em : LBID → Int × Option (Nat × Nat)) (n : Node) (lbid : LBID)
    (verid : Ver) :
    Prop where
  inBuffer : (lookupLocal hasher vssHasher em n lbid verid true).1 = errSnapshotTooOld ↔
    Vbbm.lookup hasher n.vbbm lbid verid = none ∧ (∃ d, (lbid, d) ∈ n.vss.entries) ∧
      ∀ d, (lbid, d) ∈ n.vss.entries → verid < d.verID
  query : ∀ verInfo txnID vbOnly,
    Vss.lookup vssHasher n.vss lbid verInfo txnID vbOnly = .snapshotTooOld ↔
      (∀ d, (lbid, d) ∈ n.vss.entries → Visible verInfo txnID vbOnly d →
        verInfo.currentScn < d.verID) ∧
      ∃ d, (lbid, d) ∈ n.vss.entries ∧ Visible verInfo txnID vbOnly d

variable {hasher vssHasher}

lemma isTooOld_eq_false (v : VSS) (verID : Ver) : isTooOld vssHasher v lbid verID = false := by
  have zero : ∀ l : List VSSData,
      l.foldl (fun minVer d => if d.verID < minVer then d.verID else minVer) 0 = 0 := by
    intro l
    induction l with
    | nil => rfl
    | cons d l later => exact later
  simp [isTooOld, zero]

/-- The loop has met no version up to the snapshot's, and the least one, if any, is newer. -/
lemma lookupLoop_tooOld_iff {verInfo : QueryContext} {txnID : Ver} {vbOnly : Bool}
    (l : List VSSData) (maxEntry : Option VSSData) (minVersion : Option Ver)
    (newer : ∀ m ∈ minVersion, maxEntry = none → verInfo.currentScn < m) :
    lookupLoop verInfo txnID vbOnly l maxEntry minVersion = .snapshotTooOld ↔
      maxEntry = none ∧
      (∀ d ∈ l, Visible verInfo txnID vbOnly d → verInfo.currentScn < d.verID) ∧
      (minVersion.isSome ∨ ∃ d ∈ l, Visible verInfo txnID vbOnly d) := by
  induction l generalizing maxEntry minVersion with
  | nil => cases maxEntry <;> cases minVersion <;> simp_all [lookupLoop]
  | cons d l later =>
    rw [VersionAnswers.lookupLoop_cons]
    split_ifs with hidden same
    · have invisible : ¬Visible verInfo txnID vbOnly d := not_not_intro hidden
      simp [later maxEntry minVersion newer, invisible]
    · have visible : Visible verInfo txnID vbOnly d := hidden
      simp [same, visible]
    have visible : Visible verInfo txnID vbOnly d := hidden
    rw [later]
    · cases maxEntry <;> cases minVersion <;>
        grind [VersionAnswers.newest, VersionAnswers.least]
    · cases maxEntry <;> cases minVersion <;>
        grind [VersionAnswers.newest, VersionAnswers.least]

end TooOld

theorem tooOldExact_iff (sound : Sound vssHasher n.vss) (em : LBID → Int × Option (Nat × Nat))
    (verid : Ver) :
    TooOldExact hasher vssHasher em n lbid verid ↔
      Vbbm.lookup hasher n.vbbm lbid verid ≠ none ∨
        ∀ d, (lbid, d) ∈ n.vss.entries → ∃ d', (lbid, d') ∈ n.vss.entries ∧ d'.verID ≤ verid := by
  have never : (lookupLocal hasher vssHasher em n lbid verid true).1 ≠ errSnapshotTooOld := by
    simp only [lookupLocal, isTooOld_eq_false]
    cases Vbbm.lookup hasher n.vbbm lbid verid <;> simp [errSnapshotTooOld]
  constructor
  · rintro ⟨inBuffer, -⟩
    by_contra kept
    push Not at kept
    obtain ⟨absent, d, entered, least⟩ := kept
    exact never (inBuffer.mpr ⟨absent, ⟨d, entered⟩, least⟩)
  intro kept
  refine ⟨iff_of_false never ?_, fun verInfo txnID vbOnly => ?_⟩
  · rintro ⟨absent, ⟨d, entered⟩, least⟩
    obtain ⟨d', entered', old⟩ := kept.resolve_left (not_not_intro absent) d entered
    exact absurd (least d' entered') (Nat.not_lt.mpr old)
  · rw [Vss.lookup, lookupLoop_tooOld_iff _ _ _ (by simp)]
    simp [mem_versions sound]

/-- Block 0 has versions 3 and 9. -/
theorem tooOldExact_two_versions :
    let v := Vss.insert id (Vss.insert id Vss.initShmseg 0 ⟨3, true, false⟩ false) 0
      ⟨9, false, false⟩ false
    TooOldExact (fun _ _ => 0) id (fun _ => (-1, none)) { initial with vss := v } 0 5 := by
  obtain ⟨sound, entries⟩ := insert_spec sound_initShmseg 0 ⟨3, true, false⟩ false
  obtain ⟨sound', entries'⟩ := insert_spec sound 0 ⟨9, false, false⟩ false
  exact (tooOldExact_iff sound' _ 5).mpr
    (.inr fun _ _ => ⟨⟨3, true, false⟩, by simp [entries', entries], by decide⟩)

/-- Block 0 has only version 9. -/
theorem old_snapshot_unreported :
    let n : Node := { initial with vss := Vss.insert id Vss.initShmseg 0 ⟨9, false, false⟩ false }
    n.vss.entries = {(0, ⟨9, false, false⟩)} ∧
      Vbbm.lookup (fun _ _ => 0) n.vbbm 0 5 = none ∧
      lookupLocal (fun _ _ => 0) id (fun _ => (-1, none)) n 0 5 true = (-1, none) := by
  refine ⟨?_, by decide +kernel, ?_⟩
  · obtain ⟨-, entries⟩ := insert_spec sound_initShmseg 0
      ⟨9, false, false⟩ false
    rw [entries, show Vss.initShmseg.entries = 0 from entries_empty ..]
    rfl
  · rfl

end VersionQueries
