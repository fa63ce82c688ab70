import Mathlib.Algebra.Order.Sub.Basic
import Mathlib.Data.Multiset.OrderedMonoid
import ColumnStore.BlockHistory
import ColumnStore.SlaveNode
import ColumnStore.VersionBufferSpace

/-!
# The two version tables tell one history

For every block the VSS and the VBBM together describe a history: the current version is the one
VSS entry whose `vbFlag` is clear, the older versions are the entries with `vbFlag` set, and these
are exactly the versions the VBBM maps. Every command of a slave node performs an operation of
`BlockHistory` on each block it touches.

`growVBBM` may drop entries when it adds a file descriptor. What is said here about a request for
version buffer space assumes that it did not; nothing else is assumed about growth.
-/

namespace VersionHistory

open Multiset (map_zero map_eq_zero map_id mem_cons mem_map map_congr cons_coe mem_of_le)
open ChainedTable ChainedTable.Table BlockHistory List Vbbm VssInvariant VbbmInvariant
open VersionBufferSpace Function Option SlaveNode
open Vss (LBID Ver VSS VSSData LBIDRange getCurrentVersion getHighestVerInVB versions)
open CopyLock (CopyLocks)

abbrev History := LBID → Option (Block Ver)

def older (w : Ver) : VSSData :=
  ⟨w, true, false⟩

/-- The VSS entries of a history. -/
def listed (b : Block Ver) : Multiset VSSData :=
  ⟨b.current, false, b.locked⟩ ::ₘ b.older.val.map older

/-- What the VSS and the VBBM hold for one block. -/
def Shows : Option (Block Ver) → Multiset VSSData → Multiset VBBMData → Prop
  | none, inVSS, inVBBM => inVSS = 0 ∧ inVBBM = 0
  | some b, inVSS, inVBBM => inVSS = listed b ∧ inVBBM.map VBBMData.verID = b.older.val

variable {b : Block Ver}

lemma mem_listed {d : VSSData} :
    d ∈ listed b ↔ d = ⟨b.current, false, b.locked⟩ ∨ ∃ w ∈ b.older, older w = d := by
  simp [listed]

variable {h : Option (Block Ver)} {M : Multiset VSSData} {N : Multiset VBBMData}

lemma Shows.congr {N' : Multiset VBBMData} (shown : Shows h M N)
    (same : N'.map VBBMData.verID = N.map VBBMData.verID) : Shows h M N' := by
  cases h with
  | none =>
    obtain ⟨empty, empty'⟩ := shown
    rw [empty', map_zero, map_eq_zero] at same
    exact ⟨empty, same⟩
  | some b => exact ⟨shown.1, same.trans shown.2⟩

section

variable (shown : Shows h M N)
include shown

lemma Shows.mem_vss_iff {d : VSSData} : d ∈ M ↔ ∃ b, h = some b ∧ d ∈ listed b := by
  cases h <;> simp [shown.1]

lemma Shows.mapped_iff {w : Ver} : w ∈ N.map VBBMData.verID ↔ ∃ b, h = some b ∧ w ∈ b.older := by
  cases h <;> simp [shown.2]

lemma Shows.vss_nodup : (M.map VSSData.verID).Nodup := by
  cases h with
  | none => simp [shown.1]
  | some b =>
    have versions : (listed b).map VSSData.verID = b.current ::ₘ b.older.val := by
      rw [listed, Multiset.map_cons, Multiset.map_map]
      exact congrArg _ (map_id _)
    rw [shown.1, versions, Multiset.nodup_cons]
    exact ⟨b.current_notMem_older, b.older.nodup⟩

lemma Shows.vbbm_nodup : (N.map VBBMData.verID).Nodup := by
  cases h with
  | none => simp [shown.2]
  | some b =>
    rw [shown.2]
    exact b.older.nodup

end

variable {hasher : LBID → Ver → Nat} {vssHasher : LBID → Nat}

section Queries

variable {v : VSS} {lbid : LBID} {M : Multiset VSSData} {N : Multiset VBBMData}

lemma getCurrentVersion_none (sound : Sound vssHasher v)
    (empty : slice lbid v.entries = 0) : getCurrentVersion vssHasher v lbid = (0, false) := by
  have missing : (versions vssHasher v lbid).find? (fun d => !d.vbFlag) = none := by
    rw [find?_eq_none]
    intro d mem
    rw [mem_versions sound, ← mem_slice, empty] at mem
    exact absurd mem (Multiset.notMem_zero d)
  simp [getCurrentVersion, missing]

lemma getCurrentVersion_some (sound : Sound vssHasher v)
    (here : slice lbid v.entries = listed b) :
    getCurrentVersion vssHasher v lbid = (b.current, b.locked) := by
  have mem : ∀ d, d ∈ versions vssHasher v lbid ↔
      d = ⟨b.current, false, b.locked⟩ ∨ ∃ w ∈ b.older, older w = d := by
    intro d
    rw [mem_versions sound, ← mem_slice, here, mem_listed]
  unfold getCurrentVersion
  cases found : (versions vssHasher v lbid).find? fun d => !d.vbFlag with
  | none =>
    have current := find?_eq_none.mp found _ ((mem _).mpr (.inl rfl))
    simp at current
  | some d =>
    rcases (mem d).mp (mem_of_find?_eq_some found) with rfl | ⟨w, -, rfl⟩
    · rfl
    · simpa [older] using find?_some found

lemma getHighestVerInVB_spec (vssHasher : LBID → Nat) (v : VSS) (lbid : LBID) (max : Ver) :
    (∀ r, getHighestVerInVB vssHasher v lbid max = some r →
        r ≤ max ∧ ∃ d ∈ versions vssHasher v lbid, d.vbFlag ∧ d.verID = r) ∧
      ∀ d ∈ versions vssHasher v lbid, d.vbFlag → d.verID ≤ max →
        ∃ r, getHighestVerInVB vssHasher v lbid max = some r ∧ d.verID ≤ r := by
  suffices loop : ∀ before : List VSSData,
      let r := before.foldl
        (fun ret d =>
          if d.vbFlag ∧ d.verID ≤ max ∧ ret.all (fun r => r < d.verID) then some d.verID else ret)
        none
      (∀ w, r = some w → w ≤ max ∧ ∃ d ∈ before, d.vbFlag ∧ d.verID = w) ∧
        ∀ d ∈ before, d.vbFlag → d.verID ≤ max → ∃ w, r = some w ∧ d.verID ≤ w from loop _
  intro before
  induction before using reverseRecOn with
  | nil => simp
  | append_singleton before d ih =>
    rw [foldl_concat]
    generalize before.foldl _ none = ret at ih
    obtain ⟨origin, covers⟩ := ih
    by_cases taken : d.vbFlag ∧ d.verID ≤ max ∧ ret.all (fun r => r < d.verID)
    · rw [if_pos taken]
      refine ⟨?_, fun e mem flagged small => ⟨d.verID, rfl, ?_⟩⟩
      · rintro _ ⟨⟩
        exact ⟨taken.2.1, d, by simp, taken.1, rfl⟩
      rcases mem_append.mp mem with earlier | last
      · obtain ⟨w, rfl, le⟩ := covers e earlier flagged small
        exact le.trans (by simpa using taken.2.2 : w < d.verID).le
      · rw [mem_singleton.mp last]
    rw [if_neg taken]
    refine ⟨fun w here => ?_, fun e mem flagged small => ?_⟩
    · obtain ⟨small, e, mem, same⟩ := origin w here
      exact ⟨small, e, by simp [mem], same⟩
    rcases mem_append.mp mem with earlier | last
    · exact covers e earlier flagged small
    obtain rfl := mem_singleton.mp last
    cases ret with
    | none => exact absurd ⟨flagged, small, rfl⟩ taken
    | some w => exact ⟨w, rfl, Nat.le_of_not_lt fun lt =>
        taken ⟨flagged, small, by simpa using lt⟩⟩

end Queries

section Slices

variable {v : VSS} {t : Table LBID VBBMData Unit} {lbid : LBID} {d : VSSData}
  {rest : Multiset VSSData}

lemma cons_eq_of_version {e : VSSData} {left : Multiset VSSData}
    (split : e ::ₘ left = d ::ₘ rest) (version : e.verID = d.verID)
    (unique : ∀ e ∈ rest, e.verID ≠ d.verID) : e = d ∧ left = rest := by
  have listed : e ∈ d ::ₘ rest := by simp [← split]
  rcases mem_cons.mp listed with rfl | other
  · exact ⟨rfl, (Multiset.cons_inj_right e).mp split⟩
  · exact absurd version (unique e other)

lemma setVBFlag_slice (sound : Sound vssHasher v) (vbFlag : Bool)
    (here : slice lbid v.entries = d ::ₘ rest) (unique : ∀ e ∈ rest, e.verID ≠ d.verID) :
    ∃ v', Vss.setVBFlag vssHasher v lbid d.verID vbFlag = .ok v' ∧
      Sound vssHasher v' ∧
      slice lbid v'.entries = { d with vbFlag := vbFlag } ::ₘ rest ∧
      ∀ l ≠ lbid, slice l v'.entries = slice l v.entries := by
  have mem : (lbid, d) ∈ v.entries := mem_slice.mp (by simp [here])
  obtain ⟨v', done⟩ := setVBFlag_isOk sound vbFlag mem
  obtain ⟨sound', e, left, version, before, after⟩ := setVBFlag_ok sound done
  obtain ⟨rfl, remaining⟩ := cons_eq_of_version (by rw [← here, before, slice_cons_self]) version
    unique
  refine ⟨v', done, sound', ?_, fun l other => ?_⟩
  · rw [after, slice_cons_self, remaining]
  · rw [after, before, slice_cons_of_ne other.symm, slice_cons_of_ne other.symm]

open Classical in
/-- With one entry for the version, `removeEntry` removes that entry, and all others of the block
if none of them is in the version buffer or locked. -/
lemma removeEntry_slice (sound : Sound vssHasher v) (flushList : List LBID)
    (here : slice lbid v.entries = d ::ₘ rest) (unique : ∀ e ∈ rest, e.verID ≠ d.verID) :
    let r := (Vss.removeEntry vssHasher v lbid d.verID flushList).1
    Sound vssHasher r ∧
      slice lbid r.entries = (if ∃ e ∈ rest, e.vbFlag ∨ e.locked then rest else 0) ∧
      ∀ l ≠ lbid, slice l r.entries = slice l v.entries := by
  obtain ⟨sound', ⟨missing, -⟩ | ⟨e, left, version, before, purged⟩⟩ :=
    removeEntry_spec sound lbid d.verID flushList
  · exact absurd rfl (missing d (mem_slice.mp (by simp [here])))
  obtain ⟨rfl, remaining⟩ := cons_eq_of_version (by rw [← here, before, slice_cons_self]) version
    unique
  have flagged : ∀ e', (lbid, e') ∈ left ↔ e' ∈ rest := fun e' => by rw [← remaining, mem_slice]
  have others : ∀ l ≠ lbid, slice l left = slice l v.entries := fun l other => by
    rw [before, slice_cons_of_ne other.symm]
  refine ⟨sound', ?_, ?_⟩
  · rcases purged with ⟨⟨e', mem, kept⟩, result⟩ | ⟨gone, result⟩
    · rw [if_pos ⟨e', (flagged e').mp mem, kept⟩, result, remaining]
    · rw [if_neg, result, slice_filter_key (fun l => l ≠ lbid), if_neg (by simp)]
      rintro ⟨e', mem, kept⟩
      exact gone e' ((flagged e').mpr mem) kept
  · intro l other
    rcases purged with ⟨-, result⟩ | ⟨-, result⟩
    · rw [result, others l other]
    · rw [result, slice_filter_key (fun l => l ≠ lbid), if_pos other, others l other]

lemma removeFromTable_slice (sound : Sound hasher t) (lbid : LBID) (verID : Ver) :
    let r := removeFromTable hasher t lbid verID
    Sound hasher r ∧
      (slice lbid r.entries).map VBBMData.verID =
        ((slice lbid t.entries).map VBBMData.verID).erase verID ∧
      ∀ l ≠ lbid, slice l r.entries = slice l t.entries := by
  intro r
  obtain ⟨sound', ⟨missing, same⟩ | ⟨d, version, before, -⟩⟩ :=
    removeFromTable_spec sound lbid verID
  · refine ⟨sound', ?_, fun l _ => by rw [show r = t from same]⟩
    rw [show r = t from same, Multiset.erase_of_notMem]
    rintro listed
    obtain ⟨d, mem, version⟩ := Multiset.mem_map.mp listed
    exact missing d (mem_slice.mp mem) version
  · refine ⟨sound', ?_, fun l other => ?_⟩
    · rw [before, slice_cons_self, Multiset.map_cons, version, Multiset.erase_cons_head]
    · rw [before, slice_cons_of_ne other.symm]

end Slices

/-- The two tables are well-formed and tell the history `hist`. -/
structure Tracks (hasher : LBID → Ver → Nat) (vssHasher : LBID → Nat) (v : VSS)
    (t : Table LBID VBBMData Unit) (hist : History) : Prop where
  vss : VssInvariant.Sound vssHasher v
  vbbm : VbbmInvariant.Sound hasher t
  shows : ∀ lbid, Shows (hist lbid) (slice lbid v.entries) (slice lbid t.entries)

variable {w : Ver}

section Blocks

variable {v v' : VSS} {t t' : Table LBID VBBMData Unit} {hist : History} {lbid : LBID}

section

variable (tracks : Tracks hasher vssHasher v t hist)
include tracks

lemma Tracks.update (vss : Sound vssHasher v') (vbbm : Sound hasher t')
    (here : Shows h (slice lbid v'.entries) (slice lbid t'.entries))
    (vssElse : ∀ l ≠ lbid, slice l v'.entries = slice l v.entries)
    (vbbmElse : ∀ l ≠ lbid, slice l t'.entries = slice l t.entries) :
    Tracks hasher vssHasher v' t' (update hist lbid h) := by
  refine ⟨vss, vbbm, fun l => ?_⟩
  by_cases same : l = lbid
  · subst same
    rwa [update_self]
  · rw [update_of_ne same, vssElse l same, vbbmElse l same]
    exact tracks.shows l

lemma Tracks.mem_vss_iff {d : VSSData} :
    (lbid, d) ∈ v.entries ↔ ∃ b, hist lbid = some b ∧ d ∈ listed b := by
  rw [← mem_slice]
  exact (tracks.shows lbid).mem_vss_iff

/-- The versions the VBBM maps are the older versions of the history. -/
lemma Tracks.mapped_iff :
    (∃ d, (lbid, d) ∈ t.entries ∧ d.verID = w) ↔ ∃ b, hist lbid = some b ∧ w ∈ b.older := by
  simp only [← mem_slice]
  rw [← Multiset.mem_map]
  exact (tracks.shows lbid).mapped_iff

lemma Tracks.vss_unique : (v.entries.map fun e => (e.1, e.2.verID)).Nodup :=
  nodup_of_slices fun lbid => by
    rw [slice_map_data VSSData.verID]
    exact (tracks.shows lbid).vss_nodup

lemma Tracks.vbbm_unique : UniqueKeys t :=
  nodup_of_slices fun lbid => by
    rw [slice_map_data VBBMData.verID]
    exact (tracks.shows lbid).vbbm_nodup

end

lemma Tracks.lookup_eq {b : VBBM} (tracks : Tracks hasher vssHasher v b.table hist)
    {d : VBBMData} (mem : (lbid, d) ∈ b.table.entries) :
    lookup hasher b lbid d.verID = some (d.vbOID, d.vbFBO) :=
  lookup_of_mem tracks.vbbm tracks.vbbm_unique mem

lemma Tracks.currentVersion (tracks : Tracks hasher vssHasher v t hist) (lbid : LBID) :
    (getCurrentVersion vssHasher v lbid).1 = currentVersion (hist lbid) := by
  have shown := tracks.shows lbid
  cases known : hist lbid with
  | none =>
    rw [known] at shown
    rw [getCurrentVersion_none tracks.vss shown.1]
    rfl
  | some b =>
    rw [known] at shown
    rw [getCurrentVersion_some tracks.vss shown.1]
    rfl

lemma listed_eq_cons_older (mem : w ∈ b.older) :
    listed b = older w ::ₘ ⟨b.current, false, b.locked⟩ ::ₘ (b.older.erase w).val.map older := by
  have split : b.older.val = w ::ₘ (b.older.erase w).val := by
    rw [Finset.erase_val, Multiset.cons_erase mem]
  rw [listed, Multiset.cons_swap, ← Multiset.map_cons, ← split]

lemma version_ne_of_mem_erase (mem : w ∈ b.older) (locked : Bool) :
    ∀ e ∈ (⟨b.current, false, locked⟩ : VSSData) ::ₘ (b.older.erase w).val.map older,
      e.verID ≠ w := by
  intro e listed
  rcases mem_cons.mp listed with rfl | old
  · exact (b.older_lt w mem).ne'
  · obtain ⟨w', mem', rfl⟩ := mem_map.mp old
    exact Finset.ne_of_mem_erase mem'

lemma version_ne_of_mem_older (b : Block Ver) :
    ∀ e ∈ b.older.val.map older, e.verID ≠ b.current := by
  intro e listed
  obtain ⟨w, mem, rfl⟩ := mem_map.mp listed
  exact (b.older_lt w mem).ne

/-- A current version is kept for the sake of an older one or of its own lock. -/
lemma kept_iff {c : Ver} {locked : Bool} {s : Finset Ver} :
    (∃ e ∈ (⟨c, false, locked⟩ : VSSData) ::ₘ s.val.map older, e.vbFlag ∨ e.locked) ↔
      s.Nonempty ∨ locked := by
  simp [older, Finset.Nonempty, or_comm]

/-- The entries that remain of a block when an older version has been removed. -/
lemma shows_age (slot : M = if (b.older.erase w).Nonempty ∨ b.locked
      then ⟨b.current, false, b.locked⟩ ::ₘ (b.older.erase w).val.map older else 0)
    (mapped : N.map VBBMData.verID = (b.older.erase w).val) : Shows (b.age w) M N := by
  unfold Block.age
  split_ifs with last
  · rw [if_neg (by simp [last])] at slot
    rw [last.1, Finset.empty_val, map_eq_zero] at mapped
    exact ⟨slot, mapped⟩
  · rw [if_pos (by simpa [imp_iff_or_not, or_comm, Finset.nonempty_iff_ne_empty] using last)]
      at slot
    exact ⟨slot, mapped⟩

lemma Tracks.age (tracks : Tracks hasher vssHasher v t hist) (known : hist lbid = some b)
    (mem : w ∈ b.older) (flushList : List LBID) :
    Tracks hasher vssHasher (Vss.removeEntry vssHasher v lbid w flushList).1
      (removeFromTable hasher t lbid w) (Function.update hist lbid (b.age w)) := by
  obtain ⟨inVSS, inVBBM⟩ : Shows (some b) _ _ := known ▸ tracks.shows lbid
  obtain ⟨vss, slot, vssElse⟩ := removeEntry_slice tracks.vss flushList
    (inVSS.trans (listed_eq_cons_older mem)) (version_ne_of_mem_erase mem _)
  obtain ⟨vbbm, mapped, vbbmElse⟩ := removeFromTable_slice tracks.vbbm lbid w
  rw [inVBBM, ← Finset.erase_val] at mapped
  simp only [kept_iff] at slot
  exact tracks.update vss vbbm (shows_age slot mapped) vssElse vbbmElse

end Blocks

section Commands

variable {n : Node} {hist : History} {lbid : LBID} {transID : Ver}

variable {v : VSS}

/-- The old version moves to the version buffer and the new one is entered as locked. -/
lemma vss_overwrite (sound : Sound vssHasher v)
    (shown : Shows h (slice lbid v.entries) N) (newer : currentVersion h < transID)
    (free : ∀ b, h = some b → b.locked = false) :
    ∃ v₁,
      (if 0 < currentVersion h then Vss.setVBFlag vssHasher v lbid (currentVersion h) true
        else .ok (Vss.insert vssHasher v lbid ⟨currentVersion h, true, false⟩ false)) = .ok v₁ ∧
      Sound vssHasher (Vss.insert vssHasher v₁ lbid ⟨transID, false, true⟩ false) ∧
      slice lbid (Vss.insert vssHasher v₁ lbid ⟨transID, false, true⟩ false).entries =
        listed (overwrite h transID newer) ∧
      ∀ l ≠ lbid, slice l (Vss.insert vssHasher v₁ lbid ⟨transID, false, true⟩ false).entries =
        slice l v.entries := by
  cases h with
  | none =>
    obtain ⟨sound₁, entered⟩ := insert_spec sound lbid ⟨0, true, false⟩ false
    obtain ⟨sound₂, entered'⟩ := insert_spec sound₁ lbid ⟨transID, false, true⟩ false
    refine ⟨_, rfl, sound₂, ?_, fun l other => ?_⟩
    · refine (congrArg (slice lbid) entered').trans ?_
      rw [slice_cons_self, entered, slice_cons_self, shown.1]
      rfl
    · refine (congrArg (slice l) entered').trans ?_
      rw [slice_cons_of_ne other.symm, entered, slice_cons_of_ne other.symm]
  | some b =>
    have here : slice lbid v.entries = ⟨b.current, false, false⟩ ::ₘ b.older.val.map older := by
      rw [shown.1, listed, free b rfl]
    obtain ⟨v₁, done, sound₁, flagged, others⟩ :=
      setVBFlag_slice sound true here (version_ne_of_mem_older b)
    obtain ⟨sound₂, entered⟩ := insert_spec sound₁ lbid ⟨transID, false, true⟩ false
    refine ⟨v₁, ?_, sound₂, ?_, fun l other => ?_⟩
    · rw [if_pos (show 0 < currentVersion (some b) from b.current_pos)]
      exact done
    · rw [entered, slice_cons_self, flagged]
      change _ = (⟨transID, false, true⟩ : VSSData) ::ₘ (insert b.current b.older).val.map older
      rw [Finset.insert_val_of_notMem b.current_notMem_older, Multiset.map_cons]
      rfl
    · rw [entered, slice_cons_of_ne other.symm, others l other]

lemma older_overwrite (shown : Shows h M N) (newer : currentVersion h < transID) :
    (overwrite h transID newer).older.val = currentVersion h ::ₘ N.map VBBMData.verID := by
  cases h with
  | none =>
    rw [shown.2]
    rfl
  | some b =>
    rw [shown.2]
    exact Finset.insert_val_of_notMem b.current_notMem_older

/-- A write to a block nobody holds adds a version above the current one. -/
lemma writeVBEntry_newer (tracks : Tracks hasher vssHasher n.vss n.vbbm.table hist)
    (newer : currentVersion (hist lbid) < transID)
    (free : ∀ b, hist lbid = some b → b.locked = false) (vbOID vbFBO : Nat) :
    ∃ v, writeVBEntry hasher vssHasher n transID lbid vbOID vbFBO =
        ({ n with
            vss := v
            vbbm := insert hasher n.vbbm lbid
              ⟨currentVersion (hist lbid), vbOID, vbFBO⟩ false }, 0) ∧
      Tracks hasher vssHasher v
        (insert hasher n.vbbm lbid ⟨currentVersion (hist lbid), vbOID, vbFBO⟩ false).table
        (update hist lbid (some (overwrite (hist lbid) transID newer))) := by
  obtain ⟨vbbm, mapped, -⟩ := insert_spec tracks.vbbm lbid
    ⟨currentVersion (hist lbid), vbOID, vbFBO⟩ false
  obtain ⟨v₁, flagged, vss, listed, vssElse⟩ :=
    vss_overwrite tracks.vss (tracks.shows lbid) newer free
  refine ⟨_, ?_, tracks.update vss vbbm ⟨listed, ?_⟩ vssElse fun l other => ?_⟩
  · unfold writeVBEntry
    rw [tracks.currentVersion, if_neg newer.ne, if_neg newer.not_gt]
    simp only [flagged]
  · rw [mapped, slice_cons_self, Multiset.map_cons, older_overwrite (tracks.shows lbid)]
  · rw [mapped, slice_cons_of_ne other.symm]

/-- Apart from that a write changes nothing, and a block that a later transaction has written is
refused. -/
lemma writeVBEntry_of_not_newer (tracks : Tracks hasher vssHasher n.vss n.vbbm.table hist)
    (notNewer : ¬ currentVersion (hist lbid) < transID) (vbOID vbFBO : Nat) :
    writeVBEntry hasher vssHasher n transID lbid vbOID vbFBO =
      (n, if currentVersion (hist lbid) = transID then 0 else errOldTxnOverwritingNewTxn) := by
  unfold writeVBEntry
  rw [tracks.currentVersion]
  by_cases same : currentVersion (hist lbid) = transID
  · rw [if_pos same, if_pos same]
  · rw [if_neg same, if_neg same,
      if_pos (lt_of_le_of_ne (Nat.le_of_not_lt notNewer) (Ne.symm same))]

/-- Nobody but `transID` holds the lock of the block. -/
def NotHeld (hist : History) (transID : Ver) (lbid : LBID) : Prop :=
  ∀ b, hist lbid = some b → b.locked = true → b.current = transID

lemma NotHeld.free {h : History} (notHeld : NotHeld h transID lbid)
    (newer : currentVersion (h lbid) < transID) : ∀ b, h lbid = some b → b.locked = false := by
  intro b known
  cases held : b.locked with
  | false => rfl
  | true =>
    rw [known] at newer
    exact absurd (notHeld b known held) (ne_of_lt newer)

lemma known_of_update {new : Block Ver} {l : LBID}
    (known : update hist lbid (some new) l = some b) : l = lbid ∧ b = new ∨ hist l = some b := by
  by_cases same : l = lbid
  · subst same
    rw [update_self] at known
    exact .inl ⟨rfl, (some.inj known).symm⟩
  · rw [update_of_ne same] at known
    exact .inr known

lemma NotHeld.overwrite {l : LBID} (notHeld : NotHeld hist transID l)
    (newer : currentVersion (hist lbid) < transID) :
    NotHeld (update hist lbid (some (overwrite (hist lbid) transID newer))) transID l := by
  intro b known held
  rcases known_of_update known with ⟨-, rfl⟩ | before
  · exact overwrite_current ..
  · exact notHeld b before held

section

variable (tracks : Tracks hasher vssHasher n.vss n.vbbm.table hist)
include tracks

lemma writeVBEntry_tracks (notHeld : NotHeld hist transID lbid) (vbOID vbFBO : Nat) :
    ∃ hist', Tracks hasher vssHasher
        (writeVBEntry hasher vssHasher n transID lbid vbOID vbFBO).1.vss
        (writeVBEntry hasher vssHasher n transID lbid vbOID vbFBO).1.vbbm.table hist' ∧
      ∀ l, NotHeld hist transID l → NotHeld hist' transID l := by
  by_cases newer : currentVersion (hist lbid) < transID
  · obtain ⟨v, done, tracks'⟩ :=
      writeVBEntry_newer tracks newer (notHeld.free newer) vbOID vbFBO
    exact ⟨_, by rw [done]; exact tracks', fun l before => before.overwrite newer⟩
  · exact ⟨hist, by rwa [writeVBEntry_of_not_newer tracks newer], fun _ before => before⟩

lemma bulkWriteVBEntry_tracks (vbOID : Nat) (blocks : List (LBID × Nat))
    (notHeld : ∀ e ∈ blocks, NotHeld hist transID e.1) :
    ∃ hist', Tracks hasher vssHasher
      (bulkWriteVBEntry hasher vssHasher transID vbOID blocks n).1.vss
      (bulkWriteVBEntry hasher vssHasher transID vbOID blocks n).1.vbbm.table hist' := by
  induction blocks generalizing n hist with
  | nil => exact ⟨hist, tracks⟩
  | cons e rest ih =>
    obtain ⟨l, vbFBO⟩ := e
    obtain ⟨hist', tracks', kept⟩ :=
      writeVBEntry_tracks tracks (notHeld (l, vbFBO) (by simp)) vbOID vbFBO
    simp only [bulkWriteVBEntry]
    split_ifs with written
    · exact ih tracks' fun e mem => kept e.1 (notHeld e (by simp [mem]))
    · exact ⟨hist', tracks'⟩

lemma vbCommit_tracks (transID : Ver) :
    Tracks hasher vssHasher (vbCommit n transID).1.vss (vbCommit n transID).1.vbbm.table
      fun l => commit transID (hist l) := by
  obtain ⟨vss, entries⟩ := commit_spec tracks.vss transID
  refine ⟨vss, tracks.vbbm, fun l => ?_⟩
  have slices : slice l (Vss.commit n.vss transID).entries = (slice l n.vss.entries).map fun d =>
      if d.verID = transID then { d with locked := false } else d := by
    rw [entries, ← slice_map_data]
    congr 1
    exact map_congr rfl fun e _ => by
      unfold committed
      split_ifs <;> rfl
  have shown := tracks.shows l
  cases known : hist l with
  | none =>
    rw [known] at shown
    exact ⟨by rw [show (vbCommit n transID).1.vss = Vss.commit n.vss transID from rfl, slices,
      shown.1, map_zero], shown.2⟩
  | some b =>
    rw [known] at shown
    have olderSame : (b.older.val.map older).map (fun d =>
        if d.verID = transID then { d with locked := false } else d) = b.older.val.map older := by
      rw [Multiset.map_map]
      exact map_congr rfl fun w _ => ite_self _
    have shown₁ := slices
    rw [shown.1, listed, Multiset.map_cons, olderSame] at shown₁
    by_cases mine : b.current = transID
    · rw [if_pos mine] at shown₁
      simp only [commit, map_some, if_pos mine]
      exact ⟨shown₁, shown.2⟩
    · rw [if_neg mine] at shown₁
      simp only [commit, map_some, if_neg mine]
      exact ⟨shown₁, shown.2⟩

section

variable (known : hist lbid = some b)
include known

/-- The version that a rollback of `t` goes back to. -/
lemma getHighestVerInVB_eq (old : w ∈ b.older) (small : w ≤ transID)
    (greatest : ∀ w' ∈ b.older, w' ≤ transID → w' ≤ w) :
    getHighestVerInVB vssHasher n.vss lbid transID = some w := by
  obtain ⟨inVSS, -⟩ : Shows (some b) _ _ := known ▸ tracks.shows lbid
  have mem : ∀ d, d ∈ versions vssHasher n.vss lbid ↔ d ∈ listed b := fun d => by
    rw [mem_versions tracks.vss, ← mem_slice, inVSS]
  obtain ⟨origin, covers⟩ :=
    getHighestVerInVB_spec vssHasher n.vss lbid transID
  have listedOld : older w ∈ listed b :=
    Multiset.mem_cons_of_mem (Multiset.mem_map_of_mem older old)
  obtain ⟨r, found, le⟩ := covers (older w) ((mem _).mpr listedOld) rfl small
  obtain ⟨smallR, d, listedR, flagged, rfl⟩ := origin r found
  rcases mem_cons.mp ((mem d).mp listedR) with rfl | oldR
  · cases flagged
  · obtain ⟨w', old', rfl⟩ := mem_map.mp oldR
    rw [found]
    exact congrArg some (le_antisymm (greatest w' old' smallR) le)

lemma getHighestVerInVB_eq_none (empty : b.older = ∅) :
    getHighestVerInVB vssHasher n.vss lbid transID = none := by
  obtain ⟨inVSS, -⟩ : Shows (some b) _ _ := known ▸ tracks.shows lbid
  obtain ⟨origin, -⟩ := getHighestVerInVB_spec vssHasher n.vss lbid transID
  cases found : getHighestVerInVB vssHasher n.vss lbid transID with
  | none => rfl
  | some r =>
    obtain ⟨-, d, mem, flagged, -⟩ := origin r found
    rw [mem_versions tracks.vss, ← mem_slice, inVSS, listed, empty] at mem
    obtain rfl : d = ⟨b.current, false, b.locked⟩ := by simpa using mem
    cases flagged

/-- The chosen version leaves the version buffer and becomes a second entry outside it. -/
lemma restoreOldVersion_spec (old : w ∈ b.older)
    (highest : getHighestVerInVB vssHasher n.vss lbid transID = some w) :
    ∃ v, restoreOldVersion hasher vssHasher n transID lbid =
        ({ n with vss := v, vbbm := removeEntry hasher n.vbbm lbid w }, true) ∧
      Sound vssHasher v ∧
      slice lbid v.entries = ⟨w, false, false⟩ ::ₘ ⟨b.current, false, b.locked⟩ ::ₘ
        (b.older.erase w).val.map older ∧
      ∀ l ≠ lbid, slice l v.entries = slice l n.vss.entries := by
  obtain ⟨inVSS, -⟩ : Shows (some b) _ _ := known ▸ tracks.shows lbid
  obtain ⟨v, done, sound, here, others⟩ := setVBFlag_slice tracks.vss false
    (inVSS.trans (listed_eq_cons_older old)) (version_ne_of_mem_erase old _)
  refine ⟨v, ?_, sound, here, others⟩
  have flagged : Vss.setVBFlag vssHasher n.vss lbid w false = .ok v := done
  unfold restoreOldVersion
  rw [highest]
  simp only [flagged]

/-- Rolling back the last write makes the newest older version the current one. -/
lemma rollback_current (nonempty : b.older.Nonempty) (flushList : List LBID) :
    ∃ n₁, restoreOldVersion hasher vssHasher n b.current lbid = (n₁, true) ∧
      n₁.vbbm.table.entries ≤ n.vbbm.table.entries ∧
      Tracks hasher vssHasher (Vss.removeEntry vssHasher n₁.vss lbid b.current flushList).1
        n₁.vbbm.table (update hist lbid b.rollback) := by
  obtain ⟨-, inVBBM⟩ : Shows (some b) _ _ := known ▸ tracks.shows lbid
  set w := b.older.max' nonempty with w_eq
  have old : w ∈ b.older := b.older.max'_mem nonempty
  obtain ⟨v, done, sound, here, others⟩ := restoreOldVersion_spec tracks known old
    (getHighestVerInVB_eq tracks known old (b.older_lt w old).le
      fun w' mem _ => b.older.le_max' w' mem)
  obtain ⟨vbbm, mapped, vbbmElse⟩ := removeFromTable_slice tracks.vbbm lbid w
  rw [inVBBM, ← Finset.erase_val] at mapped
  obtain ⟨vss, slot, vssElse⟩ := removeEntry_slice sound
    flushList (here.trans (Multiset.cons_swap _ _ _)) fun e mem => by
      rcases mem_cons.mp mem with rfl | rest
      · exact (b.older_lt w old).ne
      · obtain ⟨w', mem', rfl⟩ := mem_map.mp rest
        exact (b.older_lt w' (Finset.mem_of_mem_erase mem')).ne
  refine ⟨_, done, removeFromTable_le tracks.vbbm lbid w, tracks.update vss vbbm ?_
    (fun l other => (vssElse l other).trans (others l other)) vbbmElse⟩
  simp only [kept_iff] at slot
  unfold Block.rollback
  rw [dif_pos nonempty]
  split_ifs with more
  · rw [if_pos (.inl more)] at slot
    exact ⟨slot, mapped⟩
  rw [if_neg (by simpa using more)] at slot
  rw [Finset.not_nonempty_iff_eq_empty, ← w_eq] at more
  rw [more, Finset.empty_val, map_eq_zero] at mapped
  exact ⟨slot, mapped⟩

lemma rollback_only (empty : b.older = ∅) (flushList : List LBID) :
    restoreOldVersion hasher vssHasher n b.current lbid = (n, true) ∧
      Tracks hasher vssHasher (Vss.removeEntry vssHasher n.vss lbid b.current flushList).1
        n.vbbm.table (update hist lbid none) := by
  obtain ⟨inVSS, inVBBM⟩ : Shows (some b) _ _ := known ▸ tracks.shows lbid
  rw [listed, empty] at inVSS
  rw [empty, Finset.empty_val, map_eq_zero] at inVBBM
  obtain ⟨vss, slot, vssElse⟩ := removeEntry_slice tracks.vss flushList inVSS (by simp)
  refine ⟨?_, tracks.update vss tracks.vbbm ⟨by simpa using slot, inVBBM⟩ vssElse fun _ _ => rfl⟩
  simp [restoreOldVersion, getHighestVerInVB_eq_none tracks known empty]

/-- Rolling back a write that is not the last one forgets its version. -/
lemma rollback_older (old : transID ∈ b.older) (flushList : List LBID) :
    ∃ n₁, restoreOldVersion hasher vssHasher n transID lbid = (n₁, true) ∧
      n₁.vbbm.table.entries ≤ n.vbbm.table.entries ∧
      Tracks hasher vssHasher (Vss.removeEntry vssHasher n₁.vss lbid transID flushList).1
        n₁.vbbm.table (update hist lbid (b.age transID)) := by
  obtain ⟨-, inVBBM⟩ : Shows (some b) _ _ := known ▸ tracks.shows lbid
  obtain ⟨v, done, sound, here, others⟩ := restoreOldVersion_spec tracks known old
    (getHighestVerInVB_eq tracks known old le_rfl fun _ _ small => small)
  obtain ⟨vbbm, mapped, vbbmElse⟩ := removeFromTable_slice tracks.vbbm lbid transID
  rw [inVBBM, ← Finset.erase_val] at mapped
  obtain ⟨vss, slot, vssElse⟩ :=
    removeEntry_slice sound flushList here (version_ne_of_mem_erase old _)
  simp only [kept_iff] at slot
  exact ⟨_, done, removeFromTable_le tracks.vbbm lbid transID,
    tracks.update vss vbbm (shows_age slot mapped)
      (fun l other => (vssElse l other).trans (others l other)) vbbmElse⟩

/-- Undoing one block's write: what the loop of `vbRollback` does for a block with an entry of the
transaction. -/
lemma rollbackBlock_tracks (mine : b.current = transID ∨ transID ∈ b.older)
    (flushList : List LBID) :
    ∃ n₁, restoreOldVersion hasher vssHasher n transID lbid = (n₁, true) ∧
      n₁.vbbm.table.entries ≤ n.vbbm.table.entries ∧
      Tracks hasher vssHasher (Vss.removeEntry vssHasher n₁.vss lbid transID flushList).1
        n₁.vbbm.table (update hist lbid (b.undoWrite transID)) := by
  unfold Block.undoWrite
  rcases mine with rfl | old
  · rw [if_pos rfl]
    rcases b.older.eq_empty_or_nonempty with empty | nonempty
    · obtain ⟨done, tracks'⟩ := rollback_only tracks known empty flushList
      refine ⟨n, done, le_rfl, ?_⟩
      rwa [Block.rollback, dif_neg (by simp [empty])]
    · exact rollback_current tracks known nonempty flushList
  · rw [if_neg (b.older_lt transID old).ne']
    exact rollback_older tracks known old flushList

end

lemma rollbackBlocks_tracks (lbids : List LBID) (nodup : lbids.Nodup)
    (mine : ∀ l ∈ lbids, ∃ b, hist l = some b ∧ (b.current = transID ∨ transID ∈ b.older))
    (flushList : List LBID) :
    let r := rollbackBlocks hasher vssHasher transID lbids (n, flushList)
    r.2 = 0 ∧ r.1.1.vbbm.table.entries ≤ n.vbbm.table.entries ∧
      Tracks hasher vssHasher r.1.1.vss r.1.1.vbbm.table fun l =>
        if l ∈ lbids then (hist l).bind fun b => b.undoWrite transID else hist l := by
  induction lbids generalizing n hist flushList with
  | nil => exact ⟨rfl, le_rfl, by simpa [rollbackBlocks] using tracks⟩
  | cons lbid rest ih =>
    obtain ⟨notLater, nodup'⟩ := nodup_cons.mp nodup
    obtain ⟨b, known, here⟩ := mine lbid (by simp)
    obtain ⟨n₁, done, le, tracks₁⟩ := rollbackBlock_tracks tracks known here flushList
    have later := ih (n := { n₁ with
        vss := (Vss.removeEntry vssHasher n₁.vss lbid transID flushList).1 }) tracks₁ nodup'
      (fun l mem => by
        have other : l ≠ lbid := fun same => notLater (same ▸ mem)
        rw [update_of_ne other]
        exact mine l (by simp [mem]))
      (Vss.removeEntry vssHasher n₁.vss lbid transID flushList).2
    simp only [rollbackBlocks, done]
    refine ⟨later.1, later.2.1.trans le, ?_⟩
    convert later.2.2 using 2 with l
    by_cases same : l = lbid
    · subst same
      simp [notLater, known]
    · simp [same]

end

lemma dropVB_tracks (removed : List (LBID × VSSData)) {b : VBBM} (sound : Sound hasher b.table) :
    let r := removed.foldl (fun b e => dropVB hasher e.1 e.2 b) b
    Sound hasher r.table ∧ ∀ l,
      (slice l r.table.entries).map VBBMData.verID =
        (slice l b.table.entries).map VBBMData.verID -
          ((slice l (removed : Multiset (LBID × VSSData))).filter fun d => d.vbFlag).map
            VSSData.verID := by
  induction removed generalizing b with
  | nil => exact ⟨sound, by simp⟩
  | cons e rest ih =>
    obtain ⟨lbid, d⟩ := e
    rw [foldl_cons]
    cases flagged : d.vbFlag with
    | false =>
      obtain ⟨sound', left⟩ := ih sound
      simp only [dropVB, flagged]
      refine ⟨sound', fun l => (left l).trans ?_⟩
      by_cases same : lbid = l
      · subst same
        rw [← cons_coe, slice_cons_self, Multiset.filter_cons_of_neg _ (by simp [flagged])]
      · rw [← cons_coe, slice_cons_of_ne same]
    | true =>
      obtain ⟨sound₁, here, others⟩ := removeFromTable_slice sound lbid d.verID
      obtain ⟨sound', left⟩ := ih (b := removeEntry hasher b lbid d.verID) sound₁
      simp only [dropVB, flagged]
      refine ⟨sound', fun l => (left l).trans ?_⟩
      by_cases same : lbid = l
      · subst same
        rw [← cons_coe, slice_cons_self,
          Multiset.filter_cons_of_pos (p := fun d : VSSData => d.vbFlag) _ flagged,
          Multiset.map_cons, Multiset.sub_cons, ← here]
        rfl
      · rw [← cons_coe, slice_cons_of_ne same, ← others l (Ne.symm same)]
        rfl

lemma removeEntriesFromDB_tracks (tracks : Tracks hasher vssHasher n.vss n.vbbm.table hist)
    (range : LBIDRange) :
    Tracks hasher vssHasher (removeEntriesFromDB hasher vssHasher n range).vss
      (removeEntriesFromDB hasher vssHasher n range).vbbm.table
      fun l => if l ∈ range.blocks then none else hist l := by
  obtain ⟨vss, entries, removed, taken, dropped⟩ :=
    removeEntriesFromDB_spec tracks.vss range (dropVB hasher) n.vbbm
  obtain ⟨vbbm, left⟩ := dropVB_tracks removed tracks.vbbm
  rw [← dropped] at vbbm left
  have gone : ∀ l, slice l (removed : Multiset (LBID × VSSData)) =
      if l ∈ range.blocks then slice l n.vss.entries else 0 := fun l => by
    rw [taken, slice_filter_key (fun l => l ∈ range.blocks)]
  have stays : ∀ l, slice l (removeEntriesFromDB hasher vssHasher n range).vss.entries =
      if l ∉ range.blocks then slice l n.vss.entries else 0 := fun l =>
    (congrArg (slice l) entries).trans (slice_filter_key (fun l => l ∉ range.blocks) l _)
  refine ⟨vss, vbbm, fun l => ?_⟩
  have shown := tracks.shows l
  have here := left l
  rw [gone l] at here
  rw [stays l]
  split_ifs at here ⊢ with deleted
  · refine ⟨rfl, ?_⟩
    rw [← map_eq_zero]
    refine here.trans ?_
    cases known : hist l with
    | none =>
      rw [known] at shown
      rw [shown.2, map_zero, zero_tsub]
    | some b =>
      rw [known] at shown
      have flagged : ((slice l n.vss.entries).filter fun d => d.vbFlag).map VSSData.verID =
          b.older.val := by
        rw [shown.1, listed, Multiset.filter_cons_of_neg _ (by simp),
          Multiset.filter_eq_self.mpr (by simp [older]), Multiset.map_map]
        exact map_id _
      rw [flagged, shown.2, tsub_self]
  · rw [Multiset.filter_zero, map_zero, tsub_zero] at here
    exact shown.congr here

variable (gone : LBID → Ver → Prop)

/-- Every history after aging comes from the one before by forgetting versions whose place is
reused. -/
lemma ageBlocks_tracks (vbOID first last : Nat) (indices : List Nat)
    {s : Aging} (tracks : Tracks hasher vssHasher s.vss s.table hist)
    (inside : ∀ i ∈ indices, i < s.table.header.capacity)
    (reused : ∀ lbid d, (lbid, d) ∈ s.table.entries → d.vbOID = vbOID → first ≤ d.vbFBO →
      d.vbFBO ≤ last → gone lbid d.verID) :
    let r := (ageBlocks hasher vssHasher vbOID first last indices s).1
    r.table.entries ≤ s.table.entries ∧ ∃ hist', Tracks hasher vssHasher r.vss r.table hist' ∧
      ∀ l, Aged (gone l) (hist l) (hist' l) := by
  induction indices generalizing s hist with
  | nil => exact ⟨le_rfl, hist, tracks, fun _ => .same⟩
  | cons i indices ih =>
    have here := inside i (by simp)
    have skip := ih tracks (fun j hj => inside j (by simp [hj])) reused
    simp only [ageBlocks]
    split
    · exact skip
    case h_2 lbid key =>
      split_ifs with hit locked
      · exact ⟨le_rfl, hist, tracks, fun _ => .same⟩
      · have mem : (lbid, (s.table.slots i).data) ∈ s.table.entries :=
          mem_entries.mpr ⟨i, here, key, rfl⟩
        obtain ⟨b, known, old⟩ := tracks.mapped_iff.mp ⟨_, mem, rfl⟩
        have le := removeFromTable_le tracks.vbbm lbid (s.table.slots i).data.verID
        obtain ⟨le', hist', tracks', aged⟩ := ih
          (s := ⟨removeFromTable hasher s.table lbid (s.table.slots i).data.verID,
            (Vss.removeEntry vssHasher s.vss lbid (s.table.slots i).data.verID s.flushList).1,
            (Vss.removeEntry vssHasher s.vss lbid (s.table.slots i).data.verID s.flushList).2⟩)
          (tracks.age known old s.flushList)
          (fun j hj => by
            rw [removeFromTable_capacity]
            exact inside j (by simp [hj]))
          (fun l d listed => reused l d (mem_of_le le listed))
        refine ⟨le'.trans le, hist', tracks', fun l => ?_⟩
        refine .trans ?_ (aged l)
        by_cases same : l = lbid
        · subst same
          rw [Function.update_self]
          refine .forget ?_ old (reused l _ mem hit.1 hit.2.1 hit.2.2)
          rw [known]
          exact .same
        · rw [update_of_ne same]
          exact .same
      · exact skip

lemma ageRanges_tracks (num : Int) {fileSize : Nat}
    (ranges : List VBRange) {s : Aging} (tracks : Tracks hasher vssHasher s.vss s.table hist)
    (reused : ∀ lbid d, (lbid, d) ∈ s.table.entries →
      expires fileSize ranges (d.vbOID, d.vbFBO) → gone lbid d.verID) :
    let r := (ageRanges hasher vssHasher num fileSize ranges s).1
    r.table.entries ≤ s.table.entries ∧ ∃ hist', Tracks hasher vssHasher r.vss r.table hist' ∧
      ∀ l, Aged (gone l) (hist l) (hist' l) := by
  induction ranges generalizing s hist with
  | nil => exact ⟨le_rfl, hist, tracks, fun _ => .same⟩
  | cons range ranges ih =>
    have later : ∀ place, expires fileSize ranges place →
        expires fileSize (range :: ranges) place :=
      fun _ => expires_cons
    simp only [ageRanges]
    cases bounds : agedBlocks fileSize range with
    | none => exact ih tracks fun lbid d mem expired => reused lbid d mem (later _ expired)
    | some firstLast =>
      obtain ⟨first, last⟩ := firstLast
      obtain ⟨le, hist', tracks', aged⟩ := ageBlocks_tracks gone range.vbOID first last
        (List.range s.table.header.capacity) tracks (fun i hi => List.mem_range.mp hi)
        fun lbid d mem oid low high => reused lbid d mem (by
          simp [expires, bounds, oid, low, high])
      dsimp only
      cases result : ageBlocks hasher vssHasher range.vbOID first last
          (List.range s.table.header.capacity) s with
      | mk s' found =>
        rw [result] at le tracks'
        cases found with
        | some lbid => exact ⟨le, hist', tracks', aged⟩
        | none =>
          obtain ⟨le'', hist'', tracks'', aged'⟩ := ih tracks' fun lbid d mem expired =>
            reused lbid d (mem_of_le le mem) (later _ expired)
          exact ⟨le''.trans le, hist'', tracks'', fun l => (aged l).trans (aged' l)⟩

/-- The version buffer map once a request has made room in it. -/
def afterGrowth (hasher : LBID → Ver → Nat) (b : VBBM) (currentFileSize : Nat) (requested : Int)
    (vbOID : Nat) : VBBM :=
  let added := Vbbm.addVBFileIfNotExists hasher b currentFileSize vbOID
  Vbbm.growFor hasher (Vbbm.int32 requested)
    (added.1.table.header.currentSize + (Vbbm.int32 requested).toNat) added.1

/-- Making room for a request loses no entry. -/
def GrowthKeeps (hasher : LBID → Ver → Nat) (b : VBBM) (currentFileSize : Nat) (requested : Int)
    (vbOID : Nat) : Prop :=
  (Vbbm.addVBFileIfNotExists hasher b currentFileSize vbOID).1.table.entries = b.table.entries ∧
    (afterGrowth hasher b currentFileSize requested vbOID).table.entries = b.table.entries

/-- The request takes the place again and removes the entries that refer to it. -/
def Reuses (hasher : LBID → Ver → Nat) (b : VBBM) (currentFileSize : Nat) (requested : Int)
    (vbOID : Nat) (place : Nat × Nat) : Prop :=
  ∃ b₁ ranges,
    Vbbm.gather (Vbbm.addVBFileIfNotExists hasher b currentFileSize vbOID).2
      (Vbbm.int32 requested) Vbbm.gatherTurns 0
      (afterGrowth hasher b currentFileSize requested vbOID) [] = some (b₁, ranges) ∧
    expires (VersionBufferSpace.fileFor b currentFileSize vbOID).fileSize ranges
      place = true

lemma Tracks.congr {t t' : Table LBID VBBMData Unit} (tracks : Tracks hasher vssHasher v t hist)
    (sound : Sound hasher t') (same : t'.entries = t.entries) : Tracks hasher vssHasher v t' hist :=
  ⟨tracks.vss, sound, fun l => by rw [same]; exact tracks.shows l⟩

/-- A request for space only ages versions whose place it reuses. -/
lemma getBlocks_tracks {b b' : VBBM} {v' : VSS}
    {currentFileSize vbOID : Nat} {requested : Int} {out : Blocks}
    (settled : Settled hasher b) (tracks : Tracks hasher vssHasher v b.table hist)
    (keeps : GrowthKeeps hasher b currentFileSize requested vbOID)
    (reused : ∀ lbid d, (lbid, d) ∈ b.table.entries →
      Reuses hasher b currentFileSize requested vbOID (d.vbOID, d.vbFBO) → gone lbid d.verID)
    (done : getBlocks hasher vssHasher b v currentFileSize requested vbOID =
      some (b', v', out)) :
    b'.table.entries ≤ b.table.entries ∧ ∃ hist', Tracks hasher vssHasher v' b'.table hist' ∧
      ∀ l, Aged (gone l) (hist l) (hist' l) := by
  obtain ⟨settled₁, -, -, -, -, file⟩ :=
    addVBFileIfNotExists_spec settled currentFileSize vbOID
  obtain ⟨settled₂, -, -⟩ := growFor_spec (int32 requested)
    ((addVBFileIfNotExists hasher b currentFileSize vbOID).1.table.header.currentSize +
      (int32 requested).toNat) settled₁
  obtain ⟨keepsAdded, keepsGrown⟩ := keeps
  unfold getBlocks at done
  dsimp only at done
  split_ifs at done with tooLarge
  · cases done
    exact ⟨keepsAdded.le, hist, tracks.congr settled₁.sound keepsAdded, fun _ => .same⟩
  obtain ⟨⟨b₁, ranges⟩, gathered, result⟩ := map_eq_some_iff.mp done
  have table : b₁.table = (afterGrowth hasher b currentFileSize requested vbOID).table :=
    gather_table gathered
  have same : b₁.table.entries = b.table.entries := by rw [table, keepsGrown]
  obtain ⟨le, hist', tracks', aged⟩ := ageRanges_tracks gone (int32 requested) ranges
    (s := ⟨b₁.table, v, []⟩)
    (tracks.congr (by rw [table]; exact settled₂.sound) same)
    (fun lbid d mem expired => reused lbid d (same ▸ mem) ⟨b₁, ranges, gathered, expired⟩)
  rw [← file] at le tracks'
  cases aging : ageRanges hasher vssHasher (int32 requested)
      ((addVBFileIfNotExists hasher b currentFileSize vbOID).1.files.getD
        (addVBFileIfNotExists hasher b currentFileSize vbOID).2 ⟨0, 0, 0⟩).fileSize
      ranges ⟨b₁.table, v, []⟩ with
  | mk s message =>
    rw [aging] at le tracks'
    simp only [aging] at result
    cases message <;> cases result <;> exact ⟨le.trans_eq same, hist', tracks', aged⟩

/-- `beginVBCopy` changes the version tables by one request for space, or not at all. -/
lemma beginVBCopy_cases {meanwhile : Nat → CopyLocks → CopyLocks} {currentFileSize vbOID : Nat}
    {ranges : List LBIDRange} {n' : Node} {code : Int} {freeList : List VBRange}
    (done : beginVBCopy hasher vssHasher n meanwhile currentFileSize transID vbOID ranges =
      some (n', code, freeList)) :
    n'.vss = n.vss ∧ n'.vbbm = n.vbbm ∧ freeList = [] ∨
      ∃ out, getBlocks hasher vssHasher n.vbbm n.vss currentFileSize (sizeSum ranges) vbOID =
          some (n'.vbbm, n'.vss, out) ∧
        (freeList = [] ∨ ∃ flushList, out = .granted freeList flushList) := by
  unfold beginVBCopy at done
  split_ifs at done with held
  · cases done
    exact .inl ⟨rfl, rfl, rfl⟩
  cases locking : lockRanges transID meanwhile ranges n.copylocks with
  | mk c rest =>
    obtain ⟨flags, failed⟩ := rest
    rw [locking] at done
    cases failed with
    | true =>
      cases done
      exact .inl ⟨rfl, rfl, rfl⟩
    | false =>
      obtain ⟨⟨b, v, out⟩, result, final⟩ := map_eq_some_iff.mp done
      cases out with
      | granted free flushList =>
        cases final
        exact .inr ⟨_, result, .inr ⟨flushList, rfl⟩⟩
      | overflow message =>
        cases final
        exact .inr ⟨_, result, .inl rfl⟩

lemma tracks_confirmChanges (tracks : Tracks hasher vssHasher n.vss n.vbbm.table hist) :
    Tracks hasher vssHasher (confirmChanges n).vss (confirmChanges n).vbbm.table hist := by
  refine ⟨⟨?_, tracks.vss.sized⟩, tracks.vbbm.confirmChanges, tracks.shows⟩
  exact tracks.vss.threaded.congr rfl rfl rfl rfl rfl

lemma tracks_initial : Tracks hasher vssHasher initial.vss initial.vbbm.table fun _ => none := by
  refine ⟨sound_initShmseg, sound_initShmseg, fun lbid => ⟨?_, ?_⟩⟩
  · exact congrArg (slice lbid) (entries_empty _ _ _)
  · exact congrArg (slice lbid) (entries_empty _ _ _)

end Commands

end VersionHistory
