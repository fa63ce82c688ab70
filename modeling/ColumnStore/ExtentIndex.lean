import Mathlib.Data.BitVec
import Mathlib.Data.List.AList

/-!
# The index of the extent map

`ExtentMapIndexImpl` finds the extents of a DBRoot, an OID and a partition without
a walk through the tree: a vector by DBRoot of maps by OID of maps by partition of
the LBIDs of the extents. The two inner levels are hash maps, so the order in which
`find` of an OID goes through the partitions is not fixed by the code; here it is
the order of the association list.

`find` after an operation is given by one lemma for each operation.
-/

namespace ExtentIndex

open List

/-- `PartitionIndexContainerT`: partition number to LBIDs. -/
abbrev PartitionIndexContainer := AList fun _ : Nat => List Nat

/-- `OIDIndexContainerT`: OID to partitions. -/
abbrev OIDIndexContainer := AList fun _ : Int => PartitionIndexContainer

/-- `ExtentMapIndex`: a vector by DBRoot. -/
abbrev ExtentMapIndex := List OIDIndexContainer

/-- The fields of an extent that the index is keyed by. -/
structure IndexKey where
  dbRoot : Nat
  fileID : Int
  partitionNum : Nat
  deriving DecidableEq, Repr

namespace ExtentMapIndex

/-- The OIDs of a DBRoot; nothing for a DBRoot past the end of the vector. -/
def oids (index : ExtentMapIndex) (dbRoot : Nat) : OIDIndexContainer := index.getD dbRoot ∅

def partitions (index : ExtentMapIndex) (dbRoot : Nat) (oid : Int) : PartitionIndexContainer :=
  ((index.oids dbRoot).lookup oid).getD ∅

/-- `find` of the extents of a partition. -/
def find (index : ExtentMapIndex) (key : IndexKey) : List Nat :=
  ((index.partitions key.dbRoot key.fileID).lookup key.partitionNum).getD []

/-- `find` of the extents of an OID. -/
def findOID (index : ExtentMapIndex) (dbRoot : Nat) (oid : Int) : List Nat :=
  (index.partitions dbRoot oid).entries.flatMap (·.2)

/-- The vector with room for a DBRoot. -/
def grown (index : ExtentMapIndex) (dbRoot : Nat) : ExtentMapIndex :=
  index ++ List.replicate (dbRoot + 1 - index.length) ∅

/-- Put the partitions of an OID of a DBRoot within the vector. -/
def setPartitions (index : ExtentMapIndex) (dbRoot : Nat) (oid : Int)
    (partitions : PartitionIndexContainer) : ExtentMapIndex :=
  index.set dbRoot ((index.oids dbRoot).insert oid partitions)

def insert (index : ExtentMapIndex) (key : IndexKey) (lbid : Nat) : ExtentMapIndex :=
  let index := index.grown key.dbRoot
  let partitions := index.partitions key.dbRoot key.fileID
  let lbids := (partitions.lookup key.partitionNum).getD []
  index.setPartitions key.dbRoot key.fileID (partitions.insert key.partitionNum (lbids ++ [lbid]))

def deleteDbRoot (index : ExtentMapIndex) (dbRoot : Nat) : ExtentMapIndex := index.set dbRoot ∅

def deleteOID (index : ExtentMapIndex) (dbRoot : Nat) (oid : Int) : ExtentMapIndex :=
  index.set dbRoot ((index.oids dbRoot).erase oid)

/-- The vector of LBIDs without one of them, whose place is taken by the last. -/
def swapPop (lbids : List Nat) (lbid : Nat) : List Nat :=
  (lbids.set (lbids.idxOf lbid) (lbids.getLastD 0)).dropLast

/-- `deleteEMEntry`. With more than one LBID in the partition the given one has to be among
them: the swap is undefined otherwise, which is `none` here. -/
def deleteEMEntry (index : ExtentMapIndex) (key : IndexKey) (lbid : Nat) :
    Option ExtentMapIndex :=
  let partitions := index.partitions key.dbRoot key.fileID
  match partitions.lookup key.partitionNum with
  | none => some index
  | some lbids =>
    if 1 < lbids.length then
      if lbid ∈ lbids then
        some (index.setPartitions key.dbRoot key.fileID
          (partitions.insert key.partitionNum (swapPop lbids lbid)))
      else none
    else some (index.setPartitions key.dbRoot key.fileID (partitions.erase key.partitionNum))

variable {index : ExtentMapIndex} {dbRoot : Nat}

lemma oids_of_length_le (past : index.length ≤ dbRoot) : index.oids dbRoot = ∅ := by
  rw [oids, getD_eq_getElem?_getD, getElem?_eq_none past]
  rfl

lemma oids_grown (index : ExtentMapIndex) (dbRoot d : Nat) :
    (index.grown dbRoot).oids d = index.oids d := by
  by_cases inside : d < index.length
  · simp [oids, grown, getElem?_append_left inside]
  · rw [oids_of_length_le (Nat.le_of_not_lt inside), oids, grown, getD_eq_getElem?_getD,
      getElem?_append_right (Nat.le_of_not_lt inside), getElem?_replicate]
    split <;> rfl

lemma partitions_grown (index : ExtentMapIndex) (dbRoot d : Nat) (o : Int) :
    (index.grown dbRoot).partitions d o = index.partitions d o := by
  rw [partitions, oids_grown, partitions]

lemma length_grown (index : ExtentMapIndex) (dbRoot : Nat) :
    dbRoot < (index.grown dbRoot).length := by
  simp only [grown, length_append, length_replicate]
  omega

lemma oids_set (inside : dbRoot < index.length) (oids' : OIDIndexContainer) (d : Nat) :
    oids (index.set dbRoot oids') d = if d = dbRoot then oids' else index.oids d := by
  simp only [oids, getD_eq_getElem?_getD]
  split
  · rename_i same
    rw [same, getElem?_set_self inside]
    rfl
  · rename_i other
    rw [getElem?_set_ne (Ne.symm other)]

lemma partitions_setPartitions (inside : dbRoot < index.length) (oid : Int)
    (partitions' : PartitionIndexContainer) (d : Nat) (o : Int) :
    (index.setPartitions dbRoot oid partitions').partitions d o =
      if d = dbRoot ∧ o = oid then partitions' else index.partitions d o := by
  rw [partitions, setPartitions, oids_set inside]
  by_cases sameRoot : d = dbRoot
  · by_cases sameOID : o = oid
    · subst sameOID
      simp [sameRoot]
    · simp [sameRoot, sameOID, partitions]
  · simp [sameRoot, partitions]

lemma find_insert (index : ExtentMapIndex) (key : IndexKey) (lbid : Nat) (k : IndexKey) :
    (index.insert key lbid).find k =
      if k = key then index.find key ++ [lbid] else index.find k := by
  simp only [insert, find, partitions_setPartitions (length_grown index key.dbRoot),
    partitions_grown]
  by_cases same : k = key
  · subst same
    simp
  split
  · rename_i sameOID
    have otherPartition : k.partitionNum ≠ key.partitionNum := by
      intro samePartition
      obtain ⟨d, o, p⟩ := k
      simp only at sameOID samePartition
      exact same (by rw [sameOID.1, sameOID.2, samePartition])
    rw [AList.lookup_insert_ne otherPartition, sameOID.1, sameOID.2]
  · rfl

lemma find_deleteOID (index : ExtentMapIndex) (dbRoot : Nat) (oid : Int) (k : IndexKey) :
    (index.deleteOID dbRoot oid).find k =
      if k.dbRoot = dbRoot ∧ k.fileID = oid then [] else index.find k := by
  by_cases inside : dbRoot < index.length
  · simp only [find, partitions, deleteOID, oids_set inside]
    by_cases sameRoot : k.dbRoot = dbRoot
    · by_cases sameOID : k.fileID = oid
      · subst sameOID
        simp [sameRoot]
      · simp [sameRoot, sameOID]
    · simp [sameRoot]
  rw [deleteOID, set_eq_of_length_le (Nat.le_of_not_lt inside)]
  split
  · rw [find, partitions, oids_of_length_le (by omega)]
    rfl
  · rfl

lemma find_deleteDbRoot (index : ExtentMapIndex) (dbRoot : Nat) (k : IndexKey) :
    (index.deleteDbRoot dbRoot).find k = if k.dbRoot = dbRoot then [] else index.find k := by
  by_cases inside : dbRoot < index.length
  · simp only [find, partitions, deleteDbRoot, oids_set inside]
    split <;> simp
  rw [deleteDbRoot, set_eq_of_length_le (Nat.le_of_not_lt inside)]
  split
  · rw [find, partitions, oids_of_length_le (by omega)]
    rfl
  · rfl

variable {lbid : Nat}

lemma swapPop_perm {lbids : List Nat} (member : lbid ∈ lbids) :
    (swapPop lbids lbid).Perm (lbids.erase lbid) := by
  obtain ⟨before, after, rfl, absent⟩ := eq_append_cons_of_mem member
  have position : (before ++ lbid :: after).idxOf lbid = before.length := by
    rw [idxOf_append_of_notMem absent, idxOf_cons_self]
    rfl
  have erased : (before ++ lbid :: after).erase lbid = before ++ after := by
    rw [erase_append_right _ absent, erase_cons_head]
  rw [swapPop, position, erased, set_append_right _ _ (Nat.le_refl _), Nat.sub_self]
  rcases eq_nil_or_concat after with rfl | ⟨middle, last, rfl⟩
  · simp
  have lastOf : (before ++ lbid :: middle.concat last).getLastD 0 = last := by
    rw [concat_eq_append, ← cons_append, ← append_assoc, getLastD_eq_getLast?, getLast?_concat]
    rfl
  have popped : (before ++ last :: middle.concat last).dropLast = before ++ last :: middle := by
    rw [concat_eq_append, ← cons_append, ← append_assoc, dropLast_concat]
  rw [set_cons_zero, lastOf, popped, concat_eq_append]
  exact (Perm.append_left before (perm_append_singleton last middle).symm)

variable {oid : Int}

lemma length_of_lookup {partition : Nat} {lbids : List Nat}
    (found : (index.partitions dbRoot oid).lookup partition = some lbids) :
    dbRoot < index.length := by
  by_contra past
  rw [partitions, oids_of_length_le (Nat.le_of_not_lt past)] at found
  cases found

lemma find_deleteEMEntry {key : IndexKey} (member : lbid ∈ index.find key) :
    ∃ index', index.deleteEMEntry key lbid = some index' ∧
      (index'.find key).Perm ((index.find key).erase lbid) ∧
      ∀ k, k ≠ key → index'.find k = index.find k := by
  cases found : (index.partitions key.dbRoot key.fileID).lookup key.partitionNum with
  | none =>
    rw [find, found] at member
    exact absurd member not_mem_nil
  | some lbids =>
    have lbids_eq : index.find key = lbids := by rw [find, found]; rfl
    rw [lbids_eq] at member
    have inside := length_of_lookup found
    have others : ∀ (changed : PartitionIndexContainer), (∀ p, p ≠ key.partitionNum →
        changed.lookup p = (index.partitions key.dbRoot key.fileID).lookup p) →
        ∀ k, k ≠ key →
          (index.setPartitions key.dbRoot key.fileID changed).find k = index.find k := by
      intro changed same k other
      rw [find, partitions_setPartitions inside]
      split
      · rename_i sameOID
        rw [same, find, sameOID.1, sameOID.2]
        intro samePartition
        obtain ⟨d, o, p⟩ := k
        simp only at sameOID samePartition
        exact other (by rw [sameOID.1, sameOID.2, samePartition])
      · rfl
    simp only [deleteEMEntry, found]
    split
    · refine ⟨_, rfl, ?_, others _ fun p differs => AList.lookup_insert_ne differs⟩
      rw [lbids_eq, find, partitions_setPartitions inside]
      simpa using swapPop_perm member
    rename_i short
    refine ⟨_, rfl, ?_, others _ fun p differs => AList.lookup_erase_ne differs⟩
    have single : lbids = [lbid] := by
      match lbids, member, short with
      | [l], member, _ => rw [mem_singleton.mp member]
      | _ :: _ :: _, _, short => simp at short
    rw [lbids_eq, find, partitions_setPartitions inside]
    simp [single]

lemma mem_findOID :
    lbid ∈ index.findOID dbRoot oid ↔ ∃ partition, lbid ∈ index.find ⟨dbRoot, oid, partition⟩ := by
  simp only [findOID, mem_flatMap, find]
  constructor
  · rintro ⟨⟨partition, lbids⟩, entry, member⟩
    refine ⟨partition, ?_⟩
    rw [AList.mem_lookup_iff.mpr entry]
    exact member
  rintro ⟨partition, member⟩
  cases found : (index.partitions dbRoot oid).lookup partition with
  | none =>
    rw [found] at member
    exact absurd member not_mem_nil
  | some lbids =>
    rw [found] at member
    exact ⟨⟨partition, lbids⟩, AList.mem_lookup_iff.mp found, member⟩

lemma findOID_nodup (once : ∀ partition, (index.find ⟨dbRoot, oid, partition⟩).Nodup)
    (apart : ∀ p q lbid, lbid ∈ index.find ⟨dbRoot, oid, p⟩ →
      lbid ∈ index.find ⟨dbRoot, oid, q⟩ → p = q) : (index.findOID dbRoot oid).Nodup := by
  have listed : ∀ e ∈ (index.partitions dbRoot oid).entries,
      index.find ⟨dbRoot, oid, e.1⟩ = e.2 := by
    intro e entry
    rw [find, AList.mem_lookup_iff.mpr entry]
    rfl
  refine nodup_flatMap.mpr ⟨fun e entry => listed e entry ▸ once e.1, ?_⟩
  have keys : (index.partitions dbRoot oid).entries.Pairwise fun a b => a.1 ≠ b.1 :=
    pairwise_map.mp (index.partitions dbRoot oid).nodupKeys
  refine Pairwise.imp_of_mem ?_ keys
  intro a b inA inB differ lbid memberA memberB
  exact differ (apart a.1 b.1 lbid (listed a inA ▸ memberA) (listed b inB ▸ memberB))

end ExtentMapIndex

end ExtentIndex
