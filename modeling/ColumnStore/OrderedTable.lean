import Mathlib.Data.BitVec
import Mathlib.Data.List.Nodup

/-!
# Tables ordered by key

A table with unique keys, kept as the list of its entries in ascending order of
the keys. The order is a field of the structure, so an unordered table cannot be
built. `insert` leaves the value of a key that is already there.
-/

namespace OrderedTable

open List

universe u v

/-- The entries of a table, in ascending order of their keys. -/
structure Table (Key : Type u) (Value : Type v) [LinearOrder Key] where
  entries : List (Key × Value)
  ascending : entries.Pairwise fun a b => a.1 < b.1

variable {Key : Type u} {Value : Type v} [LinearOrder Key]

namespace Table

instance [DecidableEq Value] : DecidableEq (Table Key Value) := fun a b =>
  decidable_of_iff (a.entries = b.entries) (by cases a; cases b; simp)

def empty : Table Key Value := ⟨[], .nil⟩

/-- The value of a key. -/
def find? (t : Table Key Value) (key : Key) : Option Value :=
  (t.entries.find? fun e => e.1 = key).map (·.2)

/-- The first entry whose key is not less than the given one. -/
def lowerBound (t : Table Key Value) (key : Key) : Option (Key × Value) :=
  t.entries.find? fun e => key ≤ e.1

/-- Put an entry at its place among the ascending entries. -/
def place (key : Key) (value : Value) : List (Key × Value) → List (Key × Value)
  | [] => [(key, value)]
  | e :: rest =>
    if key < e.1 then (key, value) :: e :: rest
    else if key = e.1 then e :: rest
    else e :: place key value rest

variable {key : Key} {value : Value} {l : List (Key × Value)} {e : Key × Value}

lemma mem_place (member : e ∈ place key value l) : e = (key, value) ∨ e ∈ l := by
  induction l with
  | nil => exact .inl (mem_singleton.mp member)
  | cons first rest ih =>
    simp only [place] at member
    split at member
    · exact mem_cons.mp member
    split at member
    · exact .inr member
    · rcases mem_cons.mp member with rfl | later
      · exact .inr mem_cons_self
      · exact (ih later).imp_right (mem_cons_of_mem _)

lemma place_ascending (key : Key) (value : Value) (ascending : l.Pairwise fun a b => a.1 < b.1) :
    (place key value l).Pairwise fun a b => a.1 < b.1 := by
  induction l with
  | nil => exact pairwise_singleton _ _
  | cons first rest ih =>
    obtain ⟨above, restAscending⟩ := pairwise_cons.mp ascending
    simp only [place]
    split
    · rename_i below
      refine pairwise_cons.mpr ⟨fun e member => ?_, ascending⟩
      rcases mem_cons.mp member with rfl | later
      · exact below
      · exact lt_trans below (above e later)
    rename_i notBelow
    split
    · exact ascending
    rename_i differs
    refine pairwise_cons.mpr ⟨fun e member => ?_, ih restAscending⟩
    rcases mem_place member with rfl | later
    · exact lt_of_le_of_ne (not_lt.mp notBelow) (Ne.symm differs)
    · exact above e later

/-- Add an entry unless its key is in the table. -/
def insert (t : Table Key Value) (key : Key) (value : Value) : Table Key Value :=
  ⟨place key value t.entries, place_ascending key value t.ascending⟩

def erase (t : Table Key Value) (key : Key) : Table Key Value :=
  ⟨t.entries.filter fun e => e.1 ≠ key, t.ascending.filter _⟩

/-- Change the value of a key. -/
def update (t : Table Key Value) (key : Key) (change : Value → Value) : Table Key Value :=
  ⟨t.entries.map fun e => if e.1 = key then (e.1, change e.2) else e, by
    refine List.pairwise_map.mpr (t.ascending.imp fun {a b} below => ?_)
    have keys : ∀ e : Key × Value, (if e.1 = key then (e.1, change e.2) else e).1 = e.1 := by
      intro e
      split <;> rfl
    simpa only [keys] using below⟩

variable (t : Table Key Value)

lemma keys_nodup : (t.entries.map Prod.fst).Nodup :=
  pairwise_map.mpr (t.ascending.imp fun below => ne_of_lt below)

lemma entry_unique {a b : Key × Value} (first : a ∈ t.entries)
    (second : b ∈ t.entries) (same : a.1 = b.1) : a = b :=
  inj_on_of_nodup_map t.keys_nodup first second same

lemma value_unique {a b : Value} (first : (key, a) ∈ t.entries)
    (second : (key, b) ∈ t.entries) : a = b :=
  congrArg Prod.snd (t.entry_unique first second rfl)

variable {t : Table Key Value}

lemma find?_eq_some : t.find? key = some value ↔ (key, value) ∈ t.entries := by
  simp only [find?, Option.map_eq_some_iff]
  constructor
  · rintro ⟨e, found, rfl⟩
    have atKey : e.1 = key := by simpa using find?_some found
    exact atKey ▸ mem_of_find?_eq_some found
  intro member
  cases found : t.entries.find? fun e => e.1 = key with
  | none =>
    have absent := find?_eq_none.mp found (key, value) member
    simp at absent
  | some e =>
    have atKey : e.1 = key := by simpa using find?_some found
    have equal := t.entry_unique (mem_of_find?_eq_some found) member atKey
    exact ⟨e, rfl, congrArg Prod.snd equal⟩

lemma lowerBound_of_mem (member : (key, value) ∈ t.entries) :
    t.lowerBound key = some (key, value) := by
  obtain ⟨before, after, split⟩ := append_of_mem member
  have ascending := t.ascending
  rw [split] at ascending
  have below := (pairwise_append.mp ascending).2.2
  rw [lowerBound, split, find?_append, find?_eq_none.mpr, Option.none_or,
    find?_cons_of_pos (by simp)]
  intro e early
  simpa using below e early (key, value) mem_cons_self

@[simp] lemma mem_erase : e ∈ (t.erase key).entries ↔ e ∈ t.entries ∧ e.1 ≠ key := by
  simp [erase]

lemma mem_update {change : Value → Value} :
    e ∈ (t.update key change).entries ↔
      ∃ old ∈ t.entries, e = if old.1 = key then (old.1, change old.2) else old := by
  simp [update, eq_comm]

lemma update_same {change : Value → Value}
    (same : ∀ value, (key, value) ∈ t.entries → change value = value) :
    t.update key change = t := by
  have entries : (t.update key change).entries = t.entries.map id := by
    refine map_congr_left fun e member => ?_
    split
    · rename_i here
      subst here
      rw [same e.2 member]
      rfl
    · rfl
  rw [map_id] at entries
  cases t
  simpa only [update, mk.injEq] using entries

lemma place_perm (value : Value) (absent : ∀ e ∈ l, e.1 ≠ key) :
    (place key value l).Perm ((key, value) :: l) := by
  induction l with
  | nil => exact .refl _
  | cons first rest ih =>
    simp only [place]
    split
    · exact .refl _
    split
    · rename_i same
      exact absurd same.symm (absent first mem_cons_self)
    · exact ((ih fun e later => absent e (mem_cons_of_mem _ later)).cons first).trans
        (.swap _ _ _)

lemma insert_perm (value : Value) (absent : ∀ e ∈ t.entries, e.1 ≠ key) :
    (t.insert key value).entries.Perm ((key, value) :: t.entries) :=
  place_perm value absent

lemma erase_perm (member : (key, value) ∈ t.entries) :
    t.entries.Perm ((key, value) :: (t.erase key).entries) := by
  have nodup : t.entries.Nodup := t.keys_nodup.of_map _
  refine (perm_ext_iff_of_nodup nodup (nodup_cons.mpr ⟨by simp, nodup.filter _⟩)).mpr ?_
  intro e
  constructor
  · intro inTable
    by_cases atKey : e.1 = key
    · exact mem_cons.mpr (.inl (t.entry_unique inTable member atKey))
    · exact mem_cons_of_mem _ (mem_erase.mpr ⟨inTable, atKey⟩)
  · intro listed
    rcases mem_cons.mp listed with rfl | later
    · exact member
    · exact (mem_erase.mp later).1

end Table

end OrderedTable
