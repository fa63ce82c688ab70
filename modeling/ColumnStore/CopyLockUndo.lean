import ColumnStore.SlaveNode

/-!
# Undoing changes of the copy locks

Every change of the lock table is recorded, but growing it drops the records. Undoing a command
therefore restores the table exactly when the table does not grow once the command has changed it.
The commands considered run undisturbed: while they wait for a lock nobody else changes the table.
-/

namespace CopyLockUndo

open List

open Vss (LBID Ver LBIDRange)
open CopyLock
open SlaveNode (lockPass lockLoop lockRanges releaseRanges maxRetries)

variable {c c' : CopyLocks} {transID : Ver}

/-- The table has no room for another lock. -/
def Full (c : CopyLocks) : Prop :=
  c.currentSize = c.entries.length
  deriving Decidable

/-- The counter does not run ahead of the table. -/
def Bounded (c : CopyLocks) : Prop :=
  c.currentSize ≤ c.entries.length

lemma roomFor_of_full (full : Full c) : roomFor c = growCL c :=
  if_pos full

lemma roomFor_of_not_full (room : ¬ Full c) : roomFor c = c :=
  if_neg room

lemma foldl_apply_undo (records undo : List Image) (c : CopyLocks) :
    records.foldl apply { c with undo := undo } = { records.foldl apply c with undo := undo } := by
  induction records generalizing c with
  | nil => rfl
  | cons record records ih =>
    have first : apply { c with undo := undo } record = { apply c record with undo := undo } := by
      cases record <;> rfl
    rw [foldl_cons, first]
    exact ih (apply c record)

/-- A change whose records put back what it overwrote does not change what undoing gives. -/
lemma undoChanges_of_replayed (records : List Image) (undo : c'.undo = records ++ c.undo)
    (replayed : records.foldl apply c' = { c with undo := c'.undo }) :
    undoChanges c' = undoChanges c := by
  rw [undoChanges, undo, foldl_append, replayed, foldl_apply_undo]
  rfl

lemma inside_of_used {i : Nat} (used : (c.entries.getD i blank).size ≠ 0) :
    i < c.entries.length := by
  by_contra outside
  simp [getElem?_eq_none (Nat.le_of_not_lt outside), blank] at used

variable (p : CopyLockEntry → Bool)

lemma undoChanges_releaseEntry (c : CopyLocks) (i : Nat) :
    undoChanges (releaseEntry p c i) = undoChanges c := by
  unfold releaseEntry
  dsimp only
  split_ifs with hit
  · refine undoChanges_of_replayed [.currentSize c.currentSize, .entry i (c.entries.getD i blank)]
      rfl ?_
    have inside := inside_of_used hit.1
    simp [apply, getElem?_eq_getElem inside]
  · rfl

lemma undoChanges_releaseWhere (c : CopyLocks) :
    undoChanges (releaseWhere p c) = undoChanges c := by
  unfold releaseWhere
  generalize range c.entries.length = indices
  induction indices generalizing c with
  | nil => rfl
  | cons i indices ih => exact (ih _).trans (undoChanges_releaseEntry p c i)

lemma undoChanges_releaseRanges (ranges : List LBIDRange) (c : CopyLocks) :
    undoChanges (releaseRanges ranges c) = undoChanges c := by
  induction ranges generalizing c with
  | nil => rfl
  | cons range ranges ih => exact (ih _).trans (undoChanges_releaseWhere _ c)

variable {l : LBIDRange} {txnID : Int}

lemma undoChanges_lockRange (locked : lockRange c l txnID = some c') :
    undoChanges c' = if Full c then growCL c else undoChanges c := by
  have room : undoChanges c' = undoChanges (roomFor c) := by
    unfold lockRange at locked
    dsimp only at locked
    split_ifs at locked with inside
    cases locked
    refine undoChanges_of_replayed [.currentSize (roomFor c).currentSize, .entry _ _] rfl ?_
    simp [apply, getElem?_eq_getElem inside]
  rw [room]
  by_cases full : Full c
  · rw [roomFor_of_full full, if_pos full]
    rfl
  · rw [roomFor_of_not_full full, if_neg full]

lemma growCL_isLocked (c : CopyLocks) (l : LBIDRange) : isLocked (growCL c) l = isLocked c l := by
  simp [isLocked, growCL, blank]

lemma not_full_growCL (bounded : Bounded c) : ¬ Full (growCL c) := by
  unfold Bounded at bounded
  simp only [Full, growCL, increment, length_append, length_replicate]
  omega

lemma lockRange_growCL (bounded : Bounded c) (full : Full c) (l : LBIDRange) (txnID : Int) :
    lockRange (growCL c) l txnID = lockRange c l txnID := by
  rw [lockRange, lockRange, roomFor_of_full full, roomFor_of_not_full (not_full_growCL bounded)]

lemma lockRange_spec (locked : lockRange c l txnID = some c') :
    c'.currentSize = c.currentSize + 1 ∧ c'.entries.length = (roomFor c).entries.length ∧
      ∀ l', isLocked c l' → isLocked c' l' := by
  unfold lockRange at locked
  dsimp only at locked
  split_ifs at locked with inside
  cases locked
  have free := findIdx_getElem (w := inside)
  refine ⟨?_, by simp, fun l' held => ?_⟩
  · unfold roomFor
    split_ifs <;> rfl
  have held' : isLocked (roomFor c) l' := by
    unfold roomFor
    split_ifs
    · rwa [growCL_isLocked]
    · exact held
  simp only [isLocked, any_eq_true, Bool.and_eq_true, decide_eq_true_eq] at held' ⊢
  obtain ⟨e, mem, used, hit⟩ := held'
  obtain ⟨j, inside', rfl⟩ := getElem_of_mem mem
  have other : (roomFor c).entries.findIdx (fun e => e.size = 0) ≠ j := by
    rintro rfl
    simp [used] at free
  refine ⟨_, mem_iff_getElem.mpr ⟨j, by simpa using inside', ?_⟩, used, hit⟩
  exact getElem_set_of_ne other ..

lemma releaseEntries_spec (indices : List Nat) (c : CopyLocks) :
    (indices.foldl (releaseEntry p) c).entries.length = c.entries.length ∧
      ((indices.foldl (releaseEntry p) c = c ∧
          ∀ i ∈ indices, ∀ e, c.entries[i]? = some e → e.size ≠ 0 → p e = false) ∨
        (indices.foldl (releaseEntry p) c).currentSize < c.currentSize) := by
  induction indices generalizing c with
  | nil => exact ⟨rfl, .inl ⟨rfl, by simp⟩⟩
  | cons i indices ih =>
    obtain ⟨length, rest⟩ := ih (releaseEntry p c i)
    rw [foldl_cons]
    by_cases hit : (c.entries.getD i blank).size ≠ 0 ∧ p (c.entries.getD i blank)
    · have released : releaseEntry p c i = _ := if_pos hit
      have smaller : (releaseEntry p c i).currentSize < c.currentSize := by
        rw [released]
        exact Int.sub_one_lt_of_le le_rfl
      refine ⟨length.trans (by simp [released]), .inr ?_⟩
      rcases rest with ⟨same, -⟩ | less
      · rwa [same]
      · exact less.trans smaller
    have kept : releaseEntry p c i = c := if_neg hit
    rw [kept] at length rest ⊢
    refine ⟨length, rest.imp_left fun ⟨same, others⟩ => ⟨same, ?_⟩⟩
    intro j mem e here used
    rcases mem_cons.mp mem with rfl | later
    · simpa [here, used] using hit
    · exact others j later e here used

lemma releaseRange_spec (c : CopyLocks) (l : LBIDRange) :
    (releaseRange c l).entries.length = c.entries.length ∧
      ((releaseRange c l = c ∧ isLocked c l = false) ∨
        (releaseRange c l).currentSize < c.currentSize) := by
  obtain ⟨length, outcome⟩ := releaseEntries_spec (intersects l) (range c.entries.length) c
  refine ⟨length, outcome.imp_left fun ⟨same, apart⟩ => ⟨same, ?_⟩⟩
  rw [isLocked, any_eq_false]
  intro e mem
  obtain ⟨i, inside, rfl⟩ := getElem_of_mem mem
  have := apart i (mem_range.mpr inside) _ (getElem?_eq_getElem inside)
  simpa using this

lemma Bounded.releaseRange (bounded : Bounded c) (l : LBIDRange) : Bounded (releaseRange c l) := by
  obtain ⟨length, ⟨same, -⟩ | less⟩ := releaseRange_spec c l
  · rwa [same]
  · unfold Bounded at bounded ⊢
    omega

lemma Bounded.lockRange (bounded : Bounded c) (locked : lockRange c l txnID = some c') :
    Bounded c' := by
  obtain ⟨size, length, -⟩ := lockRange_spec locked
  unfold Bounded at bounded ⊢
  by_cases full : Full c
  · rw [roomFor_of_full full] at length
    simp only [growCL, increment, length_append, length_replicate] at length
    omega
  · rw [roomFor_of_not_full full] at length
    unfold Full at full
    omega

/-- What a pass does to the table before it locks the range. -/
def released (force : Bool) (c : CopyLocks) (range : LBIDRange) : CopyLocks :=
  if force then forceRelease c range else c

/-- No lock of the pass meets a full table. -/
def PassFits (transID : Ver) (force : Bool) : List (LBIDRange × Bool) → CopyLocks → Prop
  | [], _ => True
  | (_, true) :: rest, c => PassFits transID force rest c
  | (range, false) :: rest, c =>
    if !force && isLocked c range then PassFits transID force rest c
    else ¬ Full (released force c range) ∧
      ∀ c', lockRange (released force c range) range transID = some c' →
        PassFits transID force rest c'

section Pass

variable {force : Bool} {range : LBIDRange} {rest ranges : List (LBIDRange × Bool)}

lemma passFits_skip (skip : (!force && isLocked c range)) :
    PassFits transID force ((range, false) :: rest) c ↔ PassFits transID force rest c := by
  rw [PassFits, if_pos skip]

section

variable (go : ¬ (!force && isLocked c range))
  (locked : lockRange (released force c range) range transID = some c')
include go locked

lemma passFits_lock :
    PassFits transID force ((range, false) :: rest) c ↔
      ¬ Full (released force c range) ∧ PassFits transID force rest c' := by
  rw [PassFits, if_neg go, locked]
  simp

lemma lockPass_lock :
    lockPass transID force ((range, false) :: rest) c =
      ((lockPass transID force rest c').1, (range, true) :: (lockPass transID force rest c').2.1,
        (lockPass transID force rest c').2.2) := by
  unfold released at locked
  rw [lockPass, if_neg go]
  simp only [locked]

end

lemma lockRange_of_full (full : Full c) (l : LBIDRange) (txnID : Int) :
    lockRange c l txnID ≠ none := by
  have inside : (growCL c).entries.findIdx (fun e => e.size = 0) < (growCL c).entries.length :=
    findIdx_lt_length_of_exists ⟨blank, by simp [growCL, increment], by decide⟩
  rw [lockRange, roomFor_of_full full, if_pos inside]
  simp

lemma length_le_lockRange (locked : lockRange c l txnID = some c') :
    c.entries.length ≤ c'.entries.length := by
  obtain ⟨-, length, -⟩ := lockRange_spec locked
  rw [length, roomFor]
  split_ifs
  · simp [growCL]
  · exact le_rfl

lemma length_released (force : Bool) (c : CopyLocks) (range : LBIDRange) :
    (released force c range).entries.length = c.entries.length := by
  cases force
  · rfl
  · exact (releaseRange_spec c range).1

lemma Bounded.released (bounded : Bounded c) (force : Bool) (range : LBIDRange) :
    Bounded (released force c range) := by
  cases force
  · exact bounded
  · exact bounded.releaseRange range

lemma undoChanges_released (force : Bool) (c : CopyLocks) (range : LBIDRange) :
    undoChanges (released force c range) = undoChanges c := by
  cases force
  · rfl
  · exact undoChanges_releaseWhere _ c

lemma undoChanges_lockPass (fits : PassFits transID force ranges c) :
    undoChanges (lockPass transID force ranges c).1 = undoChanges c := by
  fun_induction lockPass transID force ranges c with
  | case1 c => rfl
  | case2 range rest c _ ih => exact ih fits
  | case3 range rest c skip _ ih => exact ih ((passFits_skip skip).mp fits)
  | case4 range rest c => exact undoChanges_released force c range
  | case5 range rest c go _ c' locked _ ih =>
    change lockRange (released force c range) range transID = some c' at locked
    obtain ⟨room, fits'⟩ := (passFits_lock go locked).mp fits
    refine (ih fits').trans ((undoChanges_lockRange locked).trans ?_)
    rw [if_neg room]
    exact undoChanges_released force c range

lemma length_le_of_not_passFits (late : ¬ PassFits transID force ranges c) :
    (c.entries.length : Int) ≤ (undoChanges (lockPass transID force ranges c).1).currentSize := by
  fun_induction lockPass transID force ranges c with
  | case1 c => exact absurd trivial late
  | case2 range rest c _ ih => exact ih late
  | case3 range rest c skip _ ih => exact ih ((passFits_skip skip).not.mp late)
  | case4 range rest c go _ refused =>
    refine absurd ?_ late
    rw [PassFits, if_neg go]
    refine ⟨fun full => lockRange_of_full full range transID refused, fun c' locked => ?_⟩
    cases refused.symm.trans locked
  | case5 range rest c go _ c' locked _ ih =>
    change lockRange (released force c range) range transID = some c' at locked
    have length := length_released force c range
    by_cases fits : PassFits transID force rest c'
    · have full : Full (released force c range) := by
        by_contra room
        exact late ((passFits_lock go locked).mpr ⟨room, fits⟩)
      rw [← length, ← full, undoChanges_lockPass fits, undoChanges_lockRange locked, if_pos full]
      exact le_rfl
    · have longer := length_le_lockRange locked
      have := ih fits
      change _ ≤ (undoChanges (lockPass transID force rest c').1).currentSize
      omega

lemma length_le_lockPass (transID : Ver) (force : Bool) (ranges : List (LBIDRange × Bool))
    (c : CopyLocks) : c.entries.length ≤ (lockPass transID force ranges c).1.entries.length := by
  fun_induction lockPass transID force ranges c with
  | case1 c => exact le_rfl
  | case2 range rest c _ ih | case3 range rest c _ _ ih => exact ih
  | case4 range rest c => exact (length_released force c range).ge
  | case5 range rest c _ _ c' locked _ ih =>
    exact (length_released force c range).ge.trans ((length_le_lockRange locked).trans ih)

/-- A forced pass over ranges that were locked when it began: growing too late either leaves one of
them unlocked or leaves a counter beyond the table. -/
lemma forced_of_not_passFits (bounded : Bounded c) (late : ¬ PassFits transID true ranges c) :
    (∃ range, (range, false) ∈ ranges ∧
        isLocked (undoChanges (lockPass transID true ranges c).1) range = false) ∨
      (c.entries.length : Int) < (undoChanges (lockPass transID true ranges c).1).currentSize := by
  induction ranges generalizing c with
  | nil => exact absurd trivial late
  | cons head rest ih =>
    obtain ⟨range, held⟩ := head
    cases held with
    | true =>
      refine (ih bounded late).imp_left ?_
      rintro ⟨r, mem, free⟩
      exact ⟨r, mem_cons_of_mem _ mem, free⟩
    | false =>
      have go : ¬ (!true && isLocked c range) := by simp
      have length := length_released true c range
      cases locked : lockRange (released true c range) range transID with
      | none =>
        refine absurd ?_ late
        refine ⟨fun full => lockRange_of_full full range transID locked, fun c' done => ?_⟩
        cases locked.symm.trans done
      | some c' =>
        rw [lockPass_lock go locked]
        have bounded' : Bounded c' := (bounded.released true range).lockRange locked
        by_cases full : Full (released true c range)
        · -- nothing was released, so the range is free when the table grows
          obtain ⟨-, ⟨same, free⟩ | less⟩ := releaseRange_spec c range
          · by_cases fits : PassFits transID true rest c'
            · refine .inl ⟨range, mem_cons_self .., ?_⟩
              rw [undoChanges_lockPass fits, undoChanges_lockRange locked, if_pos full,
                growCL_isLocked]
              exact (congrArg (isLocked · range) same).trans free
            refine .inr (lt_of_lt_of_le ?_ (length_le_of_not_passFits fits))
            obtain ⟨-, grown, -⟩ := lockRange_spec locked
            rw [grown, roomFor_of_full full]
            simp only [growCL, increment, length_append, length_replicate]
            omega
          · change (released true c range).currentSize < c.currentSize at less
            unfold Bounded at bounded
            unfold Full at full
            omega
        have late' : ¬ PassFits transID true rest c' := fun fits =>
          late ((passFits_lock go locked).mpr ⟨full, fits⟩)
        rcases ih bounded' late' with ⟨r, mem, free⟩ | beyond
        · exact .inl ⟨r, mem_cons_of_mem _ mem, free⟩
        · have longer := length_le_lockRange locked
          refine .inr (lt_of_le_of_lt ?_ beyond)
          omega

lemma isLocked_lockPass (held : isLocked c l) :
    isLocked (lockPass transID false ranges c).1 l := by
  fun_induction lockPass transID false ranges c with
  | case1 c => exact held
  | case2 range rest c _ ih | case3 range rest c _ _ ih => exact ih held
  | case4 range rest c => exact held
  | case5 range rest c _ _ c' locked _ ih => exact ih ((lockRange_spec locked).2.2 l held)

lemma locked_of_lockPass (complete : (lockPass transID false ranges c).2.2 = false)
    (mem : (range, false) ∈ (lockPass transID false ranges c).2.1) :
    isLocked (lockPass transID false ranges c).1 range := by
  fun_induction lockPass transID false ranges c with
  | case1 c => cases mem
  | case2 r rest c _ ih => exact ih complete (by simpa using mem)
  | case3 r rest c skip _ ih =>
    rcases mem_cons.mp mem with same | later
    · cases same
      exact isLocked_lockPass (by simpa using skip)
    · exact ih complete later
  | case4 r rest c => cases complete
  | case5 r rest c _ _ c' _ _ ih => exact ih complete (by simpa using mem)

/-- A pass over ranges that are all locked does nothing. -/
lemma lockPass_of_locked (locked : ∀ range, (range, false) ∈ ranges → isLocked c range) :
    lockPass transID false ranges c = (c, ranges, false) ∧ PassFits transID false ranges c := by
  induction ranges with
  | nil => exact ⟨rfl, trivial⟩
  | cons head rest ih =>
    obtain ⟨range, held⟩ := head
    obtain ⟨idle, fits⟩ := ih fun r mem => locked r (mem_cons_of_mem _ mem)
    cases held with
    | true => exact ⟨by rw [lockPass, idle], fits⟩
    | false =>
      have skip : (!false && isLocked c range) := locked range (mem_cons_self ..)
      exact ⟨by rw [lockPass, if_pos skip, idle], (passFits_skip skip).mpr fits⟩

lemma lockPass_of_held (held : ranges.all (fun r => r.2)) :
    lockPass transID force ranges c = (c, ranges, false) := by
  induction ranges with
  | nil => rfl
  | cons head rest ih =>
    obtain ⟨range, flag⟩ := head
    obtain ⟨rfl, others⟩ : flag ∧ rest.all (fun r => r.2) := by simpa using held
    rw [lockPass, ih others]

lemma lockLoop_of_locked (left : Nat)
    (locked : ∀ range, (range, false) ∈ ranges → isLocked c range) :
    lockLoop transID (fun _ c => c) left ranges c = lockPass transID true ranges c := by
  induction left with
  | zero => rfl
  | succ left ih =>
    rw [lockLoop, (lockPass_of_locked locked).1]
    split_ifs with held
    · exact (lockPass_of_held (by simpa using held)).symm
    · exact ih

end Pass

/-- Without other processes one pass takes what it can, and after a minute the rest is taken by
force. -/
lemma lockRanges_undisturbed (ranges : List LBIDRange) (c : CopyLocks) :
    lockRanges transID (fun _ c => c) ranges c =
      let p := lockPass transID false (ranges.map fun r => (r, false)) c
      if p.2.2 then p else lockPass transID true p.2.1 p.1 := by
  change lockLoop transID _ (1199 + 1) _ c = _
  rw [lockLoop]
  cases result : lockPass transID false (ranges.map fun r => (r, false)) c with
  | mk c₁ rest =>
    obtain ⟨asked, stopped⟩ := rest
    cases stopped with
    | true => rfl
    | false =>
      split_ifs with held
      · exact (lockPass_of_held (by simpa using held)).symm
      refine lockLoop_of_locked _ fun range mem => ?_
      have waiting : isLocked (lockPass transID false (ranges.map fun r => (r, false)) c).1 range =
          true := locked_of_lockPass (by rw [result]) (by rw [result]; exact mem)
      rwa [result] at waiting

/-- The counter lies between the number of entries in use and the length of the table. -/
structure Regular (c : CopyLocks) : Prop where
  bounded : Bounded c
  counted : (c.entries.countP (fun e => e.size ≠ 0) : Int) ≤ c.currentSize

lemma regular_initial : Regular initial :=
  ⟨by unfold Bounded; decide, by decide⟩

lemma surplus_releaseEntry (p : CopyLockEntry → Bool) (c : CopyLocks) (i : Nat) :
    (releaseEntry p c i).currentSize - (releaseEntry p c i).entries.countP (fun e => e.size ≠ 0) =
      c.currentSize - c.entries.countP fun e => e.size ≠ 0 := by
  by_cases hit : (c.entries.getD i blank).size ≠ 0 ∧ p (c.entries.getD i blank)
  · have inside := inside_of_used hit.1
    have used : c.entries[i].size ≠ 0 := by
      simpa [getElem?_eq_getElem inside] using hit.1
    have positive : 0 < c.entries.countP fun e => e.size ≠ 0 :=
      countP_pos_iff.mpr ⟨_, getElem_mem inside, by simpa using used⟩
    rw [show releaseEntry p c i = _ from if_pos hit]
    dsimp only
    rw [countP_set inside, if_pos (by simpa using used), if_neg (by simp)]
    omega
  · rw [show releaseEntry p c i = c from if_neg hit]

section

variable (regular : Regular c)
include regular

lemma Regular.growCL : Regular (growCL c) := by
  obtain ⟨bounded, counted⟩ := regular
  unfold Bounded at bounded
  refine ⟨?_, ?_⟩
  · simp only [Bounded, CopyLock.growCL, length_append]
    omega
  · simpa [CopyLock.growCL, blank, countP_replicate] using counted

lemma Regular.lockRange_ne_none (l : LBIDRange) (txnID : Int) : lockRange c l txnID ≠ none := by
  by_cases full : Full c
  · exact lockRange_of_full full l txnID
  have room := lt_of_le_of_ne regular.bounded full
  have counted := regular.counted
  have inside : c.entries.findIdx (fun e => e.size = 0) < c.entries.length := by
    refine findIdx_lt_length_of_exists ?_
    by_contra used
    have all : c.entries.countP (fun e => e.size ≠ 0) = c.entries.length :=
      countP_eq_length.mpr fun e mem => by
        by_contra free
        exact used ⟨e, mem, by simpa using free⟩
    omega
  rw [lockRange, roomFor_of_not_full full, if_pos inside]
  simp

lemma Regular.lockRange (locked : lockRange c l txnID = some c') : Regular c' := by
  refine ⟨regular.bounded.lockRange locked, ?_⟩
  have room : Regular (roomFor c) := by
    unfold roomFor
    split_ifs
    · exact regular.growCL
    · exact regular
  have counted := room.counted
  unfold CopyLock.lockRange at locked
  dsimp only at locked
  split_ifs at locked with inside
  cases locked
  dsimp only
  rw [countP_set inside]
  split_ifs <;> omega

variable (p : CopyLockEntry → Bool)

lemma Regular.releaseEntry (i : Nat) : Regular (releaseEntry p c i) := by
  obtain ⟨bounded, counted⟩ := regular
  have surplus := surplus_releaseEntry p c i
  refine ⟨?_, by omega⟩
  unfold Bounded CopyLock.releaseEntry at *
  grind

lemma Regular.releaseWhere : Regular (releaseWhere p c) := by
  unfold CopyLock.releaseWhere
  generalize range c.entries.length = indices
  induction indices generalizing c with
  | nil => exact regular
  | cons i indices ih => exact ih (regular.releaseEntry p i)

lemma Regular.releaseRanges (ranges : List LBIDRange) : Regular (releaseRanges ranges c) := by
  induction ranges generalizing c with
  | nil => exact regular
  | cons range ranges ih => exact ih (regular.releaseWhere _)

lemma Regular.released (force : Bool) (range : LBIDRange) : Regular (released force c range) := by
  cases force
  · exact regular
  · exact regular.releaseWhere _

lemma Regular.lockPass (transID : Ver) (force : Bool) (ranges : List (LBIDRange × Bool)) :
    Regular (lockPass transID force ranges c).1 ∧
      (lockPass transID force ranges c).2.2 = false := by
  fun_induction SlaveNode.lockPass transID force ranges c with
  | case1 c => exact ⟨regular, rfl⟩
  | case2 range rest c _ ih | case3 range rest c _ _ ih => exact ih regular
  | case4 range rest c _ _ refused =>
    exact absurd refused ((regular.released force range).lockRange_ne_none range transID)
  | case5 range rest c _ _ c' locked _ ih =>
    exact ih ((regular.released force range).lockRange locked)

lemma Regular.lockRanges (transID : Ver) (ranges : List LBIDRange) :
    Regular (lockRanges transID (fun _ c => c) ranges c).1 ∧
      (lockRanges transID (fun _ c => c) ranges c).2.2 = false := by
  obtain ⟨first, complete⟩ := regular.lockPass transID false (ranges.map fun r => (r, false))
  rw [lockRanges_undisturbed]
  rw [if_neg (by simp [complete])]
  exact first.lockPass transID true _

end

lemma undoChanges_of_settled (settled : c.undo = []) : undoChanges c = c := by
  cases c
  cases settled
  rfl

/-- The table that the first lock of a command is entered in: a full one grows before the command
has changed anything. -/
def atFirstLock (ranges : List LBIDRange) (c : CopyLocks) : CopyLocks :=
  if Full c ∧ ranges.any (fun r => !isLocked c r) = true then growCL c else c

/-- After the first lock the command meets no full table. -/
def LocksFit (transID : Ver) (ranges : List LBIDRange) (c : CopyLocks) : Prop :=
  let asked := ranges.map fun r => (r, false)
  let p := lockPass transID false asked (atFirstLock ranges c)
  PassFits transID false asked (atFirstLock ranges c) ∧
    (p.2.2 = false → PassFits transID true p.2.1 p.1)

variable {ranges : List LBIDRange}

lemma lockPass_growCL (bounded : Bounded c) (full : Full c)
    (lockable : ranges.any (fun r => !isLocked c r)) :
    lockPass transID false (ranges.map fun r => (r, false)) (growCL c) =
      lockPass transID false (ranges.map fun r => (r, false)) c := by
  induction ranges with
  | nil => cases lockable
  | cons range ranges ih =>
    by_cases held : isLocked c range
    · have skip : (!false && isLocked c range) := held
      have skip' : (!false && isLocked (growCL c) range) := by rwa [growCL_isLocked]
      rw [map_cons, lockPass, lockPass, if_pos skip, if_pos skip',
        ih (by simpa [held] using lockable)]
    have go : ¬ (!false && isLocked c range) := held
    have go' : ¬ (!false && isLocked (growCL c) range) := by rwa [growCL_isLocked]
    rw [map_cons, lockPass, lockPass, if_neg go, if_neg go']
    cases locked : lockRange c range transID with
    | none => exact absurd locked (lockRange_of_full full range transID)
    | some c' => simp [lockRange_growCL bounded full, locked]

lemma lockPass_atFirstLock (ranges : List LBIDRange) (bounded : Bounded c) :
    lockPass transID false (ranges.map fun r => (r, false)) (atFirstLock ranges c) =
      lockPass transID false (ranges.map fun r => (r, false)) c := by
  unfold atFirstLock
  split_ifs with grows
  · exact lockPass_growCL bounded grows.1 grows.2
  · rfl

/-- The first lock finds room, or there is none to enter. -/
lemma atFirstLock_roomy (ranges : List LBIDRange) (bounded : Bounded c) :
    c.currentSize < (atFirstLock ranges c).entries.length ∨
      atFirstLock ranges c = c ∧ ∀ r ∈ ranges, isLocked c r := by
  unfold atFirstLock
  unfold Bounded at bounded
  split_ifs with grows
  · simp only [growCL, increment, length_append, length_replicate]
    omega
  by_cases full : Full c
  · refine .inr ⟨rfl, fun r mem => ?_⟩
    by_contra free
    exact grows ⟨full, any_eq_true.mpr ⟨r, mem, by simpa using free⟩⟩
  · exact .inl (lt_of_le_of_ne bounded full)

lemma undoChanges_lockRanges (settled : c.undo = []) (bounded : Bounded c)
    (fits : LocksFit transID ranges c) :
    undoChanges (lockRanges transID (fun _ c => c) ranges c).1 = atFirstLock ranges c := by
  obtain ⟨first, forced⟩ := fits
  have settled' : (atFirstLock ranges c).undo = [] := by
    unfold atFirstLock
    split_ifs
    · rfl
    · exact settled
  have undone := (undoChanges_lockPass first).trans (undoChanges_of_settled settled')
  rw [lockRanges_undisturbed]
  rw [lockPass_atFirstLock ranges bounded] at undone forced
  dsimp only
  split_ifs with stopped
  · exact undone
  · exact (undoChanges_lockPass (forced (by simpa using stopped))).trans undone

lemma trace_of_not_locksFit (bounded : Bounded c) (late : ¬ LocksFit transID ranges c) :
    (undoChanges (lockRanges transID (fun _ c => c) ranges c).1).currentSize ≠ c.currentSize ∨
      ∃ l, isLocked (undoChanges (lockRanges transID (fun _ c => c) ranges c).1) l ≠
        isLocked c l := by
  unfold LocksFit at late
  dsimp only at late
  rw [lockRanges_undisturbed]
  rcases atFirstLock_roomy ranges bounded with roomy | ⟨start, locked⟩
  · -- a late growth leaves the counter at least at the length the table had
    refine .inl (ne_of_gt (lt_of_lt_of_le roomy ?_))
    rw [← lockPass_atFirstLock ranges bounded]
    set p := lockPass transID false (ranges.map fun r => (r, false))
      (atFirstLock ranges c) with p_eq
    dsimp only
    by_cases forced : p.2.2 = false → PassFits transID true p.2.1 p.1
    · have first := length_le_of_not_passFits fun fits => late ⟨fits, forced⟩
      split_ifs with stopped
      · exact first
      · rwa [undoChanges_lockPass (forced (by simpa using stopped))]
    obtain ⟨complete, forced⟩ := Classical.not_imp.mp forced
    rw [if_neg (by simp [complete])]
    have longer := length_le_lockPass transID false (ranges.map fun r => (r, false))
      (atFirstLock ranges c)
    exact (Int.ofNat_le.mpr longer).trans (length_le_of_not_passFits forced)
  -- everything asked for is locked, so the whole work is done by force
  have waiting : ∀ r, (r, false) ∈ ranges.map (fun r => (r, false)) → isLocked c r := by
    simpa using locked
  obtain ⟨idle, fitting⟩ : lockPass transID false _ c = _ ∧ _ := lockPass_of_locked waiting
  rw [start, idle] at late
  rw [idle]
  rw [if_neg Bool.false_ne_true]
  have forced : ¬ PassFits transID true (ranges.map fun r => (r, false)) c := fun fits =>
    late ⟨fitting, fun _ => fits⟩
  rcases forced_of_not_passFits bounded forced with ⟨r, mem, free⟩ | beyond
  · refine .inr ⟨r, ?_⟩
    rw [free, waiting r mem]
    exact Bool.false_ne_true
  · exact .inl (ne_of_gt (lt_of_le_of_lt bounded beyond))

end CopyLockUndo
