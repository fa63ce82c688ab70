import Mathlib.Data.BitVec
import Mathlib.Data.Finset.Max

/-!
# Version histories

An item that has been overwritten has a current version and finitely many older ones, all below
the current one; an item without history is `none`. A history is locked while the writer of its
current version has neither committed nor rolled back. It ends when no older version is left and
nobody holds the lock, since the current version is then the only one.

The last section is about tables of histories stored as one multiset of key and data.
-/

namespace BlockHistory

open Multiset

universe u

section Histories

variable {V : Type u} [LinearOrder V] [OrderBot V]

@[ext]
structure Block (V : Type u) [LinearOrder V] [OrderBot V] where
  current : V
  locked : Bool
  older : Finset V
  current_pos : ⊥ < current
  older_lt : ∀ v ∈ older, v < current

variable {b b' : Block V} {v : V}

namespace Block

/-- The first overwrite of an item: its former content is the least version. -/
def create (t : V) (pos : ⊥ < t) : Block V where
  current := t
  locked := true
  older := {⊥}
  current_pos := pos
  older_lt := by simpa using pos

def write (b : Block V) (t : V) (newer : b.current < t) : Block V where
  current := t
  locked := true
  older := insert b.current b.older
  current_pos := b.current_pos.trans newer
  older_lt := by
    intro v mem
    rcases Finset.mem_insert.mp mem with rfl | old
    · exact newer
    · exact (b.older_lt v old).trans newer

def unlock (b : Block V) : Block V :=
  { b with locked := false }

def without (b : Block V) (v : V) : Block V :=
  { b with
    older := b.older.erase v
    older_lt := fun w mem => b.older_lt w (Finset.mem_of_mem_erase mem) }

/-- Forget one older version. -/
def age (b : Block V) (v : V) : Option (Block V) :=
  if b.older.erase v = ∅ ∧ b.locked = false then none else some (b.without v)

/-- Go back to the newest of the older versions. -/
def back (b : Block V) (nonempty : b.older.Nonempty)
    (more : (b.older.erase (b.older.max' nonempty)).Nonempty) : Block V where
  current := b.older.max' nonempty
  locked := false
  older := b.older.erase (b.older.max' nonempty)
  current_pos := by
    obtain ⟨v, mem⟩ := more
    exact bot_le.trans_lt (Finset.lt_max'_of_mem_erase_max' _ nonempty mem)
  older_lt := fun v mem => Finset.lt_max'_of_mem_erase_max' _ nonempty mem

def rollback (b : Block V) : Option (Block V) :=
  if nonempty : b.older.Nonempty then
    if more : (b.older.erase (b.older.max' nonempty)).Nonempty then some (b.back nonempty more)
    else none
  else none

lemma rollback_eq_some (done : b.rollback = some b') :
    b'.current ∈ b.older ∧ b'.locked = false ∧ b'.older ⊆ b.older := by
  unfold rollback at done
  split_ifs at done with nonempty more
  cases done
  exact ⟨b.older.max'_mem nonempty, rfl, Finset.erase_subset _ _⟩

/-- Take the write of `t` back, be it the last one or not. -/
def undoWrite (b : Block V) (t : V) : Option (Block V) :=
  if b.current = t then b.rollback else b.age t

def versions (b : Block V) : Finset V :=
  insert b.current b.older

lemma mem_versions : v ∈ b.versions ↔ v = b.current ∨ v ∈ b.older :=
  Finset.mem_insert

lemma current_notMem_older (b : Block V) : b.current ∉ b.older :=
  fun mem => lt_irrefl _ (b.older_lt _ mem)

end Block

/-- An item without history has the least version. -/
def currentVersion : Option (Block V) → V
  | none => ⊥
  | some b => b.current

def overwrite : (h : Option (Block V)) → (t : V) → currentVersion h < t → Block V
  | none, t, newer => .create t newer
  | some b, t, newer => b.write t newer

@[simp]
lemma overwrite_current (h : Option (Block V)) (t : V) (newer : currentVersion h < t) :
    (overwrite h t newer).current = t := by
  cases h <;> rfl

@[simp]
lemma overwrite_locked (h : Option (Block V)) (t : V) (newer : currentVersion h < t) :
    (overwrite h t newer).locked := by
  cases h <;> rfl

variable {h : Option (Block V)}

lemma mem_older_overwrite {t w : V} {newer : currentVersion h < t}
    (mem : w ∈ (overwrite h t newer).older) :
    w = currentVersion h ∨ ∃ b, h = some b ∧ w ∈ b.older := by
  cases h with
  | none => exact .inl (Finset.mem_singleton.mp mem)
  | some b => exact (Finset.mem_insert.mp mem).imp_right fun old => ⟨b, rfl, old⟩

def commit (t : V) (h : Option (Block V)) : Option (Block V) :=
  h.map fun b => if b.current = t then b.unlock else b

/-- Some of the older versions for which `gone` holds have been forgotten one by one. -/
inductive Aged (gone : V → Prop) (h : Option (Block V)) : Option (Block V) → Prop
  | same : Aged gone h h
  | forget {b : Block V} {v : V} (before : Aged gone h (some b)) (old : v ∈ b.older)
      (allowed : gone v) : Aged gone h (b.age v)

variable {gone : V → Prop} {h' : Option (Block V)}

lemma Aged.trans {h'' : Option (Block V)} (first : Aged gone h h') (second : Aged gone h' h'') :
    Aged gone h h'' := by
  induction second with
  | same => exact first
  | forget _ old allowed ih => exact .forget ih old allowed

/-- Aging leaves the current version and its lock alone. -/
lemma Aged.some_of_some (aged : Aged gone h (some b')) :
    ∃ b, h = some b ∧ b'.current = b.current ∧ b'.locked = b.locked ∧ b'.older ⊆ b.older := by
  generalize known : some b' = h' at aged
  induction aged generalizing b' with
  | same => exact ⟨b', known.symm, rfl, rfl, Finset.Subset.refl _⟩
  | @forget b₁ v _ _ _ ih =>
    obtain ⟨b, rfl, current, locked, older⟩ := ih rfl
    unfold Block.age at known
    split_ifs at known
    cases known
    exact ⟨b, rfl, current, locked, (Finset.erase_subset v b₁.older).trans older⟩

/-- A locked history does not end by aging. -/
lemma Aged.of_locked (aged : Aged gone (some b) h') (locked : b.locked) :
    ∃ b', h' = some b' ∧ b'.current = b.current := by
  induction aged with
  | same => exact ⟨b, rfl, rfl⟩
  | @forget b₁ v before _ _ ih =>
    obtain ⟨b₀, known, current, locked₁, -⟩ := before.some_of_some
    cases known
    refine ⟨b₁.without v, ?_, current⟩
    simp [Block.age, locked₁, locked]

lemma Aged.older_nonempty (aged : Aged gone (some b) (some b')) (before : b.older.Nonempty)
    (free : b'.locked = false) : b'.older.Nonempty := by
  generalize known : some b' = h' at aged
  cases aged with
  | same =>
    cases known
    exact before
  | forget _ _ _ =>
    unfold Block.age at known
    split_ifs at known with last
    cases known
    exact Finset.nonempty_iff_ne_empty.mpr fun empty => last ⟨empty, free⟩

/-! ### Reading as of a snapshot

A snapshot is the set of the versions it sees; it always sees the least one. -/

/-- The version a snapshot reads: the greatest one it sees. -/
def Reads (sees : V → Prop) : Option (Block V) → V → Prop
  | none, v => v = ⊥
  | some b, v => IsGreatest {w | w ∈ b.versions ∧ sees w} v

variable {sees : V → Prop}

lemma Reads.congr {sees' : V → Prop} (reads : Reads sees h v)
    (same : ∀ b, h = some b → ∀ w ∈ b.versions, sees w ↔ sees' w) : Reads sees' h v := by
  cases h with
  | none => exact reads
  | some b =>
    refine ⟨⟨reads.1.1, (same b rfl v reads.1.1).mp reads.1.2⟩, fun w hw => reads.2 ⟨hw.1, ?_⟩⟩
    exact (same b rfl w hw.1).mpr hw.2

/-- A write the snapshot does not see leaves it reading what it read. -/
lemma Reads.overwrite {t : V} (reads : Reads sees h v) (least : sees ⊥)
    (newer : currentVersion h < t) (hidden : ¬ sees t) :
    Reads sees (some (overwrite h t newer)) v := by
  cases h with
  | none =>
    obtain rfl : v = ⊥ := reads
    refine ⟨⟨Block.mem_versions.mpr (.inr (Finset.mem_singleton_self _)), least⟩, ?_⟩
    rintro w ⟨mem, seen⟩
    rcases Block.mem_versions.mp mem with rfl | old
    · exact absurd seen hidden
    · exact (Finset.mem_singleton.mp old).le
  | some b =>
    refine ⟨⟨Block.mem_versions.mpr (.inr reads.1.1), reads.1.2⟩, ?_⟩
    rintro w ⟨mem, seen⟩
    rcases Block.mem_versions.mp mem with rfl | old
    · exact absurd seen hidden
    · exact reads.2 ⟨old, seen⟩

lemma Reads.commit (reads : Reads sees h v) (t : V) : Reads sees (commit t h) v := by
  cases h with
  | none => exact reads
  | some b =>
    simp only [BlockHistory.commit, Option.map_some]
    split_ifs <;> exact reads

@[simp]
lemma currentVersion_commit (t : V) (h : Option (Block V)) :
    currentVersion (commit t h) = currentVersion h := by
  cases h with
  | none => rfl
  | some b =>
    simp only [commit, Option.map_some]
    split_ifs <;> rfl

/-- What is left of a read version when others have been removed: it is still read, or it was the
current one and the history has ended. -/
def Survives (sees : V → Prop) (h : Option (Block V)) (v : V) (h' : Option (Block V)) : Prop :=
  Reads sees h' v ∧ (v = currentVersion h ↔ v = currentVersion h') ∨
    h' = none ∧ v = currentVersion h

lemma survives_age {w : V} (reads : Reads sees (some b) v) (other : w ≠ v) :
    Survives sees (some b) v (b.age w) := by
  unfold Block.age
  split_ifs with last
  · refine .inr ⟨rfl, ?_⟩
    rcases Block.mem_versions.mp reads.1.1 with current | older
    · exact current
    · have left : v ∈ b.older.erase w := Finset.mem_erase.mpr ⟨other.symm, older⟩
      simp [last.1] at left
  refine .inl ⟨⟨⟨?_, reads.1.2⟩, fun u hu => reads.2 ⟨?_, hu.2⟩⟩, Iff.rfl⟩
  · rcases Block.mem_versions.mp reads.1.1 with current | older
    · exact Block.mem_versions.mpr (.inl current)
    · exact Block.mem_versions.mpr (.inr (Finset.mem_erase.mpr ⟨other.symm, older⟩))
  · rcases Block.mem_versions.mp hu.1 with current | older
    · exact Block.mem_versions.mpr (.inl current)
    · exact Block.mem_versions.mpr (.inr (Finset.mem_of_mem_erase older))

lemma Aged.survives (aged : Aged gone h h') (reads : Reads sees h v) (kept : ¬ gone v) :
    Survives sees h v h' := by
  induction aged with
  | same => exact .inl ⟨reads, Iff.rfl⟩
  | @forget b w _ _ allowed ih =>
    have other : w ≠ v := fun same => kept (same ▸ allowed)
    rcases ih with ⟨reads', current⟩ | ⟨ended, -⟩
    · rcases survives_age reads' other with ⟨reads'', current'⟩ | ⟨ended, last⟩
      · exact .inl ⟨reads'', current.trans current'⟩
      · exact .inr ⟨ended, current.mpr last⟩
    · cases ended

/-- Rolling back a write that a snapshot does not see: it reads what it read, or that version is
the only one left and the history has ended. -/
lemma Reads.rollback (reads : Reads sees (some b) v) (hidden : ¬ sees b.current) :
    ∃ nonempty : b.older.Nonempty, v ∈ b.older ∧
      (Reads sees b.rollback v ∧
          (v = currentVersion b.rollback ↔ v = b.older.max' nonempty) ∨
        b.rollback = none ∧ v = b.older.max' nonempty) := by
  have old : v ∈ b.older := by
    rcases Block.mem_versions.mp reads.1.1 with rfl | older
    · exact absurd reads.1.2 hidden
    · exact older
  refine ⟨⟨v, old⟩, old, ?_⟩
  unfold Block.rollback
  rw [dif_pos ⟨v, old⟩]
  have split : ∀ w ∈ b.older, w = b.older.max' ⟨v, old⟩ ∨
      w ∈ b.older.erase (b.older.max' ⟨v, old⟩) := fun w mem =>
    (em _).imp_right fun other => Finset.mem_erase.mpr ⟨other, mem⟩
  split_ifs with more
  · refine .inl ⟨⟨⟨Block.mem_versions.mpr (split v old), reads.1.2⟩, fun w hw => ?_⟩, Iff.rfl⟩
    refine reads.2 ⟨Block.mem_versions.mpr (.inr ?_), hw.2⟩
    rcases Block.mem_versions.mp hw.1 with rfl | older
    · exact b.older.max'_mem ⟨v, old⟩
    · exact Finset.mem_of_mem_erase older
  · refine .inr ⟨rfl, (split v old).resolve_right fun mem => more ⟨v, mem⟩⟩

end Histories

section Slices

variable {K D : Type u} [DecidableEq K]

/-- What a table of pairs holds for one key. -/
def slice (k : K) (s : Multiset (K × D)) : Multiset D :=
  (s.filter fun e => e.1 = k).map Prod.snd

variable {k : K} {s : Multiset (K × D)}

@[simp]
lemma mem_slice {d : D} : d ∈ slice k s ↔ (k, d) ∈ s := by
  simp [slice]

@[simp]
lemma slice_zero (k : K) : slice k (0 : Multiset (K × D)) = 0 :=
  rfl

@[simp]
lemma slice_cons_self (k : K) (d : D) (s : Multiset (K × D)) :
    slice k ((k, d) ::ₘ s) = d ::ₘ slice k s := by
  simp [slice]

lemma slice_cons_of_ne {l : K} (other : l ≠ k) (d : D) (s : Multiset (K × D)) :
    slice k ((l, d) ::ₘ s) = slice k s := by
  simp [slice, other]

lemma slice_filter_key (p : K → Prop) [DecidablePred p] (k : K) (s : Multiset (K × D)) :
    slice k (s.filter fun e => p e.1) = if p k then slice k s else 0 := by
  rw [slice, filter_filter]
  split_ifs with keeps
  · congr 1
    exact filter_congr fun e _ =>
      ⟨fun both => both.1, fun same => ⟨same, by rwa [same]⟩⟩
  · rw [filter_eq_nil.mpr, map_zero]
    rintro e - ⟨same, holds⟩
    exact keeps (same ▸ holds)

lemma count_key_data [DecidableEq D] (k : K) (d : D) (s : Multiset (K × D)) :
    s.count (k, d) = (slice k s).count d := by
  rw [slice, count_map, filter_filter, count_eq_card_filter_eq]
  congr 1
  exact filter_congr fun e _ => by
    rw [Prod.ext_iff]
    simp [and_comm, eq_comm]

lemma card_filter_key (k : K) (p : D → Prop) [DecidablePred p] (s : Multiset (K × D)) :
    (s.filter fun e => e.1 = k ∧ p e.2).card = ((slice k s).filter p).card := by
  rw [slice, filter_map]
  simp [and_comm]

lemma slice_map_data {E : Type u} (f : D → E) (k : K) (s : Multiset (K × D)) :
    slice k (s.map fun e => (e.1, f e.2)) = (slice k s).map f := by
  simp [slice, filter_map]

lemma nodup_of_slices [DecidableEq D] (slices : ∀ k, (slice k s).Nodup) : s.Nodup := by
  rw [nodup_iff_count_le_one]
  rintro ⟨k, d⟩
  rw [count_key_data]
  exact nodup_iff_count_le_one.mp (slices k) d

end Slices

end BlockHistory
