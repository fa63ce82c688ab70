import ColumnStore.VersionHistory

/-!
# What the version tables answer

The order in which a table keeps its entries does not show in its answers, as long as an LBID and a
version name one entry. A table that has been copied into a larger segment therefore answers as
before.
-/

namespace VersionAnswers

open ChainedTable ChainedTable.Table List Vss
open Vss (LBID Ver VSS VSSData LBIDRange QueryContext lookupLoop isLockedLoop versions)
open Vbbm (VBBM VBBMData)
open VersionHistory
open VssInvariant (mem_versions)

section Lists

variable {c : QueryContext} {txnID : Ver} {vbOnly : Bool}

/-- The best entry of the loop of `lookup` after one more. -/
def newest (scn : Ver) (maxEntry : Option VSSData) (d : VSSData) : Option VSSData :=
  if d.verID < scn ∧ maxEntry.all (fun m => m.verID < d.verID) then some d else maxEntry

/-- The least version of the loop of `lookup` after one more entry. -/
def least (minVersion : Option Ver) (d : VSSData) : Option Ver :=
  if minVersion.all (fun m => d.verID < m) then some d.verID else minVersion

lemma newest_comm (scn : Ver) {d e : VSSData} (distinct : d.verID ≠ e.verID)
    (maxEntry : Option VSSData) :
    newest scn (newest scn maxEntry d) e = newest scn (newest scn maxEntry e) d := by
  cases maxEntry <;> grind [newest]

lemma least_comm (d e : VSSData) (minVersion : Option Ver) :
    least (least minVersion d) e = least (least minVersion e) d := by
  cases minVersion <;> grind [least]

lemma lookupLoop_cons (d : VSSData) (rest : List VSSData) (maxEntry : Option VSSData)
    (minVersion : Option Ver) :
    lookupLoop c txnID vbOnly (d :: rest) maxEntry minVersion =
      if (vbOnly && !d.vbFlag) ∨ (txnID ≠ d.verID ∧ d.verID ∈ c.txns) then
        lookupLoop c txnID vbOnly rest maxEntry minVersion
      else if c.currentScn = d.verID then .found d.verID d.vbFlag
      else
        lookupLoop c txnID vbOnly rest (newest c.currentScn maxEntry d) (least minVersion d) := by
  change (if _ then _ else if _ then _ else if _ then _ else
    lookupLoop c txnID vbOnly rest (newest c.currentScn maxEntry d) (least minVersion d)) = _
  split_ifs <;> first | rfl | tauto

/-- Two entries with different versions may change places. -/
lemma lookupLoop_swap {d e : VSSData} (distinct : d.verID ≠ e.verID) (rest : List VSSData)
    (maxEntry : Option VSSData) (minVersion : Option Ver) :
    lookupLoop c txnID vbOnly (d :: e :: rest) maxEntry minVersion =
      lookupLoop c txnID vbOnly (e :: d :: rest) maxEntry minVersion := by
  simp only [lookupLoop_cons]
  rw [newest_comm _ distinct, least_comm]
  split_ifs <;> first | rfl | grind

lemma lookupLoop_perm {l l' : List VSSData} (perm : l.Perm l')
    (distinct : (l.map VSSData.verID).Nodup) (maxEntry : Option VSSData) (minVersion : Option Ver) :
    lookupLoop c txnID vbOnly l maxEntry minVersion =
      lookupLoop c txnID vbOnly l' maxEntry minVersion := by
  induction perm generalizing maxEntry minVersion with
  | nil => rfl
  | cons d _ ih =>
    have distinct' := (nodup_cons.mp distinct).2
    rw [lookupLoop_cons, lookupLoop_cons, ih distinct', ih distinct']
  | swap d e rest =>
    refine lookupLoop_swap (fun same => ?_) ..
    simp [same] at distinct
  | trans first _ ih ih' =>
    exact (ih distinct _ _).trans (ih' ((first.map _).nodup_iff.mp distinct) _ _)

lemma lookupLoop_exact {d : VSSData} {l : List VSSData} (mem : d ∈ l)
    (only : ∀ e ∈ l, e.verID = d.verID → e = d) (maxEntry : Option VSSData)
    (minVersion : Option Ver) :
    lookupLoop ⟨d.verID, []⟩ txnID false l maxEntry minVersion = .found d.verID d.vbFlag := by
  induction l generalizing maxEntry minVersion with
  | nil => cases mem
  | cons e rest ih =>
    rw [lookupLoop_cons, if_neg (by simp)]
    by_cases same : e = d
    · rw [same, if_pos rfl]
    have other : e.verID ≠ d.verID := fun eq => same (only e (mem_cons_self ..) eq)
    rw [if_neg (Ne.symm other)]
    exact ih ((mem_cons.mp mem).resolve_left (Ne.symm same))
      (fun e mem => only e (mem_cons_of_mem _ mem)) _ _

lemma find?_perm {A : Type} {p : A → Bool} {l l' : List A} (perm : l.Perm l')
    (one : ∀ a ∈ l, ∀ b ∈ l, p a → p b → a = b) : l.find? p = l'.find? p := by
  cases found : l.find? p with
  | none =>
    refine (find?_eq_none.mpr fun a mem => ?_).symm
    exact find?_eq_none.mp found a (perm.mem_iff.mpr mem)
  | some a =>
    have mem := mem_of_find?_eq_some found
    cases found' : l'.find? p with
    | none =>
      exact absurd (find?_some found) (find?_eq_none.mp found' a (perm.mem_iff.mp mem))
    | some b =>
      rw [one a mem b (perm.mem_iff.mpr (mem_of_find?_eq_some found')) (find?_some found)
        (find?_some found')]

end Lists

section Tables

variable {hasher : LBID → Ver → Nat} {vssHasher : LBID → Nat} {v v' : VSS}
  {t t' : Table LBID VBBMData Unit} {hist : History} {lbid : LBID}

lemma versions_nodup (tracks : Tracks hasher vssHasher v t hist) (lbid : LBID) :
    ((versions vssHasher v lbid).map VSSData.verID).Nodup := by
  obtain ⟨chains, linked⟩ := tracks.vss.threaded.linked
  have bucket := tracks.vss.bucketOf_lt lbid
  have unique := (nodup_map_entries_iff _).mp tracks.vss_unique
  have inside : ∀ i ∈ chains (bucketOf vssHasher v lbid), i < v.header.capacity := fun i mem =>
    ((linked.mem_iff _ bucket i).mp mem).1
  rw [versions, linked.visited_eq bucket, map_filterMap, Nodup, pairwise_filterMap]
  refine (linked.nodup _ bucket).imp_of_mem fun {i j} memI memJ other w hi w' hj => ?_
  have entry : ∀ {i w}, w ∈ Option.map VSSData.verID
      (if (v.slots i).key = some lbid then some (v.slots i).data else none) →
      (v.slots i).entry = some (lbid, (v.slots i).data) ∧ (v.slots i).data.verID = w := by
    intro i w listed
    obtain ⟨d, here, rfl⟩ := Option.map_eq_some_iff.mp listed
    obtain ⟨key, data⟩ := Option.ite_none_right_eq_some.mp here
    exact ⟨by simp [Slot.entry, key], congrArg _ (Option.some.inj data)⟩
  obtain ⟨atI, rfl⟩ := entry hi
  obtain ⟨atJ, rfl⟩ := entry hj
  rcases Nat.lt_or_gt_of_ne other with less | greater
  · exact fun same => unique j (inside j memJ) i less _ _ atJ atI (Prod.ext rfl same.symm)
  · exact fun same => unique i (inside i memI) j greater _ _ atI atJ (Prod.ext rfl same)

section

variable (tracks : Tracks hasher vssHasher v t hist)
  (tracks' : Tracks hasher vssHasher v' t' hist)
include tracks tracks'

lemma versions_perm (lbid : LBID) :
    (versions vssHasher v lbid).Perm (versions vssHasher v' lbid) := by
  refine (perm_ext_iff_of_nodup (versions_nodup tracks lbid).of_map
    (versions_nodup tracks' lbid).of_map).mpr fun d => ?_
  rw [mem_versions tracks.vss, mem_versions tracks'.vss, tracks.mem_vss_iff, tracks'.mem_vss_iff]

lemma lookup_eq (lbid : LBID) (verInfo : QueryContext) (txnID : Ver) (vbOnly : Bool) :
    lookup vssHasher v lbid verInfo txnID vbOnly =
      lookup vssHasher v' lbid verInfo txnID vbOnly :=
  lookupLoop_perm (versions_perm tracks tracks' lbid) (versions_nodup tracks lbid) none none

lemma isLocked_eq (range : LBIDRange) (transID : Ver) :
    isLocked vssHasher v range transID = isLocked vssHasher v' range transID := by
  unfold isLocked
  induction range.blocks with
  | nil => rfl
  | cons lbid rest ih =>
    have same : (versions vssHasher v lbid).find? (fun d => d.locked) =
        (versions vssHasher v' lbid).find? (fun d => d.locked) := by
      refine find?_perm (versions_perm tracks tracks' lbid) fun d mem e mem' held held' => ?_
      obtain ⟨b, known, listed⟩ :=
        tracks.mem_vss_iff.mp ((mem_versions tracks.vss).mp mem)
      obtain ⟨b', known', listed'⟩ :=
        tracks.mem_vss_iff.mp ((mem_versions tracks.vss).mp mem')
      obtain rfl := Option.some.inj (known.symm.trans known')
      rcases mem_listed.mp listed with rfl | ⟨_, -, rfl⟩
      · rcases mem_listed.mp listed' with rfl | ⟨_, -, rfl⟩
        · rfl
        · cases held'
      · cases held
    simp only [isLockedLoop, same, ih]

end

lemma size_eq (sound : VssInvariant.Sound vssHasher v) : size v = .ok v.header.currentSize := by
  have actual : ((range v.header.capacity).filter fun i => (v.slots i).key.isSome).length =
      v.header.currentSize := by
    rw [sound.sized, card_entries, Finset.card_def, Finset.filter_val, Finset.range_val,
      ← Multiset.coe_range]
    simp
  rw [size, actual]
  simp

end Tables

end VersionAnswers
