import ColumnStore.CopyLockUndo
import ColumnStore.VersionBufferSpace

/-!
# Who holds which range

The lock table does not say who entered a lock: every reader enters the transaction id -1. Here the
ranges are kept together with the party that locked them, and the table agrees with such a list when
its entries in use are those of the list, it counts them, and no two parties hold a common block.
Entering, releasing and growing keep the agreement, and a table that agrees has an entry for the
next lock.
-/

namespace CopyLockHolds

open List

open Vss (LBID Ver LBIDRange)
open CopyLock
open CopyLockUndo (Full Bounded Regular roomFor_of_full roomFor_of_not_full)

/-- A reader, or the worker on behalf of a transaction. -/
inductive Party
  | reader (i : Nat)
  | transaction (id : Ver)
  deriving DecidableEq

/-- The transaction id that the party enters in the table. -/
def Party.txnID : Party → Int
  | .reader _ => -1
  | .transaction id => id

structure Hold where
  party : Party
  range : LBIDRange
  deriving DecidableEq

def Hold.entry (h : Hold) : CopyLockEntry :=
  ⟨h.range.start, Vbbm.int32 h.range.size, h.party.txnID⟩

/-- The size of a lock is not zero and fits a signed 32-bit integer. -/
def Sized (range : LBIDRange) : Prop :=
  0 < range.size ∧ range.size < 2 ^ 31
  deriving Decidable

def used (c : CopyLocks) : List CopyLockEntry :=
  c.entries.filter fun e => e.size ≠ 0

/-- The two ranges have no block in common. -/
def Apart (l l' : LBIDRange) : Prop :=
  ∀ lbid ∈ l.blocks, lbid ∉ l'.blocks

variable {c c' : CopyLocks} {holds : List Hold} {l : LBIDRange} {txnID : Int}

lemma used_growCL (c : CopyLocks) : used (growCL c) = used c := by
  simp [used, growCL, blank]

lemma used_roomFor (c : CopyLocks) : used (roomFor c) = used c := by
  by_cases full : Full c
  · rw [roomFor_of_full full, used_growCL]
  · rw [roomFor_of_not_full full]

lemma isLocked_eq_false : isLocked c l = false ↔ ∀ e ∈ used c, intersects l e = false := by
  simp [isLocked, used]

lemma used_lockRange (locked : lockRange c l txnID = some c') (sized : Vbbm.int32 l.size ≠ 0) :
    (used c').Perm (⟨l.start, Vbbm.int32 l.size, txnID⟩ :: used c) := by
  rw [← used_roomFor c]
  unfold lockRange at locked
  dsimp only at locked
  split_ifs at locked with inside
  cases locked
  have free := findIdx_getElem (w := inside)
  generalize (roomFor c).entries.findIdx (fun e => e.size = 0) = i at inside free ⊢
  have split : (roomFor c).entries = (roomFor c).entries.take i ++ (roomFor c).entries[i] ::
      (roomFor c).entries.drop (i + 1) := by
    rw [getElem_cons_drop, take_append_drop]
  have old : used (roomFor c) =
      ((roomFor c).entries.take i).filter (fun e => e.size ≠ 0) ++
        ((roomFor c).entries.drop (i + 1)).filter fun e => e.size ≠ 0 := by
    unfold used
    conv => lhs; rw [split]
    rw [filter_append, filter_cons_of_neg (by simpa using free)]
  rw [old]
  simp only [used, set_eq_take_append_cons_drop, if_pos inside, filter_append]
  rw [filter_cons_of_pos (by simpa using sized)]
  exact perm_middle

/-- What releasing makes of an entry. -/
def freed (p : CopyLockEntry → Bool) (e : CopyLockEntry) : CopyLockEntry :=
  if e.size ≠ 0 ∧ p e then { e with size := 0 } else e

section

variable (p : CopyLockEntry → Bool)
include p

lemma freed_freed (e : CopyLockEntry) : freed p (freed p e) = freed p e := by
  unfold freed
  split_ifs with hit again <;> simp_all

variable (c : CopyLocks)

lemma getElem?_releaseEntry (i j : Nat) :
    (releaseEntry p c i).entries[j]? =
      if j = i then c.entries[j]?.map (freed p) else c.entries[j]? := by
  unfold releaseEntry
  dsimp only
  split_ifs with hit same same
  · subst same
    have inside := CopyLockUndo.inside_of_used hit.1
    rw [getElem?_set_self inside]
    simp only [getD_eq_getElem?_getD, getElem?_eq_getElem inside, Option.getD_some] at hit
    simp [getElem?_eq_getElem inside, freed, hit]
  · exact getElem?_set_ne (Ne.symm same)
  · subst same
    rcases here : c.entries[j]? with _ | e
    · rfl
    · simp only [getD_eq_getElem?_getD, here, Option.getD_some] at hit
      simp [freed, hit]
  · rfl

lemma getElem?_releaseEntries (indices : List Nat) (c : CopyLocks) (j : Nat) :
    (indices.foldl (releaseEntry p) c).entries[j]? =
      if j ∈ indices then c.entries[j]?.map (freed p) else c.entries[j]? := by
  induction indices generalizing c with
  | nil => rfl
  | cons i indices ih =>
    rw [foldl_cons, ih, getElem?_releaseEntry]
    by_cases first : j = i <;> by_cases later : j ∈ indices <;>
      simp [first, later, Function.comp_def, freed_freed]

lemma entries_releaseWhere :
    (releaseWhere p c).entries = c.entries.map (freed p) := by
  refine ext_getElem? fun j => ?_
  rw [releaseWhere, getElem?_releaseEntries, getElem?_map]
  split_ifs with inside
  · rfl
  · rw [mem_range, not_lt] at inside
    rw [getElem?_eq_none inside]
    rfl

lemma used_releaseWhere :
    used (releaseWhere p c) = (used c).filter fun e => !p e := by
  unfold used
  rw [entries_releaseWhere]
  induction c.entries with
  | nil => rfl
  | cons e entries ih =>
    by_cases inUse : e.size = 0 <;> by_cases hit : p e <;>
      simp [freed, inUse, hit] <;> simpa using ih

lemma surplus_releaseWhere :
    (releaseWhere p c).currentSize - (used (releaseWhere p c)).length =
      c.currentSize - (used c).length := by
  simp only [used, ← countP_eq_length_filter, releaseWhere]
  generalize range c.entries.length = indices
  induction indices generalizing c with
  | nil => rfl
  | cons i indices ih => exact (ih _).trans (CopyLockUndo.surplus_releaseEntry p c i)

end

lemma isLocked_forceRelease (c : CopyLocks) (l : LBIDRange) :
    isLocked (forceRelease c l) l = false := by
  rw [isLocked_eq_false, forceRelease, used_releaseWhere]
  simp

/-- The table has an entry for every range held and none else, and no block is held by two
parties. -/
structure Agrees (c : CopyLocks) (holds : List Hold) : Prop where
  entries : (used c).Perm (holds.map Hold.entry)
  counted : c.currentSize = (used c).length
  apart : ∀ a ∈ holds, ∀ b ∈ holds, a.party ≠ b.party → Apart a.range b.range
  sized : ∀ h ∈ holds, Sized h.range

lemma agrees_initial : Agrees initial [] := by
  constructor
  · exact .of_eq (by decide)
  · decide
  · simp
  · simp

lemma Sized.int32 (sized : Sized l) : Vbbm.int32 l.size = l.size :=
  VersionBufferSpace.int32_of_lt sized.2

lemma Apart.symm {l' : LBIDRange} (apart : Apart l l') : Apart l' l :=
  fun lbid mem mem' => apart lbid mem' mem

lemma apart_of_not_intersects {h : Hold} (sized' : Sized h.range)
    (free : intersects l h.entry = false) : Apart l h.range := by
  intro lbid mem mem'
  simp only [intersects, Hold.entry, sized'.int32, lastBlock, decide_eq_false_iff_not] at free
  simp only [LBIDRange.blocks, mem_range'_1] at mem mem'
  omega

variable (agrees : Agrees c holds)
include agrees

lemma Agrees.of_same (c' : CopyLocks)
    (entries : c'.entries = c.entries) (size : c'.currentSize = c.currentSize) :
    Agrees c' holds := by
  have same : used c' = used c := by rw [used, used, entries]
  exact ⟨same ▸ agrees.entries, by rw [size, same, agrees.counted], agrees.apart, agrees.sized⟩

lemma Agrees.regular : Regular c := by
  have counted : c.currentSize = c.entries.countP fun e => e.size ≠ 0 := by
    rw [agrees.counted, used, countP_eq_length_filter]
  refine ⟨?_, counted.ge⟩
  have := countP_le_length (p := fun e : CopyLockEntry => e.size ≠ 0) (l := c.entries)
  unfold Bounded
  omega

lemma Agrees.growCL : Agrees (growCL c) holds :=
  ⟨(used_growCL c).symm ▸ agrees.entries, by rw [used_growCL]; exact agrees.counted, agrees.apart,
    agrees.sized⟩

lemma Agrees.lockRange (party : Party) (sized : Sized l)
    (free : isLocked c l = false) (locked : lockRange c l party.txnID = some c') :
    Agrees c' (⟨party, l⟩ :: holds) := by
  have int : Vbbm.int32 l.size ≠ 0 := by
    rw [sized.int32]
    exact_mod_cast sized.1.ne'
  have entries := used_lockRange locked int
  obtain ⟨size, -, -⟩ := CopyLockUndo.lockRange_spec locked
  have others : ∀ h ∈ holds, Apart l h.range := by
    intro h mem
    refine apart_of_not_intersects (agrees.sized h mem) ?_
    exact isLocked_eq_false.mp free _ (agrees.entries.mem_iff.mpr (mem_map_of_mem mem))
  constructor
  · exact entries.trans (agrees.entries.cons _)
  · rw [size, agrees.counted, entries.length_eq]
    rfl
  · intro a memA b memB distinct
    rcases mem_cons.mp memA with rfl | memA <;> rcases mem_cons.mp memB with rfl | memB
    · exact absurd rfl distinct
    · exact others b memB
    · exact (others a memA).symm
    · exact agrees.apart a memA b memB distinct
  · intro h mem
    rcases mem_cons.mp mem with rfl | mem
    · exact sized
    · exact agrees.sized h mem

lemma Agrees.releaseWhere {p : CopyLockEntry → Bool} {q : Hold → Bool}
    (same : ∀ h ∈ holds, p h.entry = q h) :
    Agrees (releaseWhere p c) (holds.filter fun h => !q h) := by
  have surplus := surplus_releaseWhere p c
  have counted := agrees.counted
  constructor
  · rw [used_releaseWhere]
    refine (agrees.entries.filter _).trans (.of_eq ?_)
    rw [filter_map]
    refine congrArg _ (filter_congr fun h mem => ?_)
    simp [same h mem]
  · omega
  · intro a memA b memB
    exact agrees.apart a (mem_of_mem_filter memA) b (mem_of_mem_filter memB)
  · exact fun h mem => agrees.sized h (mem_of_mem_filter mem)

end CopyLockHolds
