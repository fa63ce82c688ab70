import ColumnStore.SpanCover

/-!
# The free list of the extent map

`ExtentMap` keeps the unused part of the LBID space in an array of ranges. A slot
whose size is zero is not in use. Extents are taken from the front of the first
range that is large enough, a deleted extent is joined with the ranges it touches,
and `reserveLBIDRange` cuts the extents of a loaded image out of the whole space.

Ranges are counted in units of 1024 blocks, starts in blocks. The counters are
given in entries, where the code has bytes. The undo records are those the code
makes, in its order; a record of a slot names its position.
-/

namespace LbidFreeList

open SpanCover
open List (getElem?_map getElem?_set_ne mem_or_eq_of_mem_set mem_of_getElem? replicate map_cons
  mem_cons mem_iff_getElem?)

/-- `InlineLBIDRange`: the first block and the size in units of 1024 blocks. -/
structure InlineLBIDRange where
  start : Nat
  size : Nat
  deriving DecidableEq, Repr

variable {r : InlineLBIDRange}

namespace InlineLBIDRange

def span (r : InlineLBIDRange) : Span := ⟨r.start, r.size * 1024⟩

/-- The first block after the range. -/
def blockEnd (r : InlineLBIDRange) : Nat := r.start + r.size * 1024

def inUse (r : InlineLBIDRange) : Bool := r.size ≠ 0

lemma inUse_of_size (used : r.size ≠ 0) : r.inUse.toNat = 1 := by
  simp [inUse, used]

lemma not_inUse (empty : r.size = 0) : r.inUse.toNat = 0 := by
  simp [inUse, empty]

end InlineLBIDRange

open InlineLBIDRange (span blockEnd inUse inUse_of_size not_inUse)

/-- What `Undoable::makeUndoRecord` saves. `pointer` is a record taken at `&fFLShminfo` or
`&fEMRBTreeShminfo`: the bytes of the pointer, not those of the entry it points to. -/
inductive ImageDelta where
  | slot (i : Nat) (old : InlineLBIDRange)
  | flShminfo (allocdSize : Nat) (currentSize : Int)
  | treeShminfo (currentSize : Int)
  | pointer
  deriving DecidableEq, Repr

/-- `fFreeList` with `currentSize` of `fFLShminfo`; `allocdSize` is the number of slots. -/
structure FreeList where
  slots : List InlineLBIDRange
  currentSize : Int
  deriving DecidableEq, Repr

/-- A slot that is not in use. -/
def unused : InlineLBIDRange := ⟨0, 0⟩

namespace FreeList

/-- The list a new segment starts with: one range of 2^36 blocks. -/
def initial : FreeList := ⟨⟨0, 2 ^ 26⟩ :: List.replicate 49 unused, 1⟩

/-- `growFLShmseg` on a segment that exists. -/
def growFLShmseg (fl : FreeList) : FreeList :=
  { fl with slots := fl.slots ++ List.replicate 50 unused }

def allocdSize (fl : FreeList) : Nat := fl.slots.length

/-- The counter after a slot is left with `rest` units, and the record made of it. -/
def counterAfter (fl : FreeList) (rest : Nat) : Int × List ImageDelta :=
  if rest = 0 then (fl.currentSize - 1, [.flShminfo fl.allocdSize fl.currentSize])
  else (fl.currentSize, [])

/-- `getLBIDsFromFreeList`; `none` is "out of LBID space". -/
def getLBIDsFromFreeList (fl : FreeList) (size : Nat) :
    Option (Nat × FreeList × List ImageDelta) :=
  match fl.slots.findIdx? fun r => size ≤ r.size with
  | none => none
  | some i =>
    let r := fl.slots.getD i unused
    let counter := fl.counterAfter (r.size - size)
    some (r.start, ⟨fl.slots.set i ⟨r.start + size * 1024, r.size - size⟩, counter.1⟩,
      .slot i r :: counter.2)

/-- Move the entry in slot `i` upward when there is a free slot before it. -/
def migrate (slots : List InlineLBIDRange) (i : Nat) (freeFLIndex : Option Nat) :
    List InlineLBIDRange × Nat × List ImageDelta :=
  match freeFLIndex with
  | none => (slots, i, [])
  | some f =>
    if f < i then
      let r := slots.getD i unused
      ((slots.set f r).set i { r with size := 0 }, f, [.slot f (slots.getD f unused)])
    else (slots, i, [])

/-- The part of `deleteExtent` that returns the range of the extent; `none` is a write in front
of the list, when no slot is free although the counter says so. -/
def release (fl : FreeList) (range : InlineLBIDRange) : Option (FreeList × List ImageDelta) :=
  let slots := fl.slots
  let freeFLIndex := lastIndex (fun r => r.size = 0) slots
  let succeedingExtent := lastIndex (fun r => r.size ≠ 0 ∧ range.blockEnd = r.start) slots
  let preceedingExtent := lastIndex
    (fun r => r.size ≠ 0 ∧ range.blockEnd ≠ r.start ∧ r.blockEnd = range.start) slots
  match preceedingExtent, succeedingExtent with
  | some p, some s =>
    let (moved, p', records) := migrate slots p freeFLIndex
    let r := moved.getD p' unused
    let next := moved.getD s unused
    let joined := moved.set p' { r with size := r.size + (next.size + range.size) }
    some (⟨joined.set s { next with size := 0 }, fl.currentSize - 1⟩,
      .slot p (slots.getD p unused) :: records ++
        [.slot s next, .flShminfo fl.allocdSize fl.currentSize])
  | none, some s =>
    let (moved, s', records) := migrate slots s freeFLIndex
    let r := moved.getD s' unused
    some (⟨moved.set s' ⟨range.start, r.size + range.size⟩, fl.currentSize⟩,
      .slot s (slots.getD s unused) :: records)
  | some p, none =>
    let (moved, p', records) := migrate slots p freeFLIndex
    let r := moved.getD p' unused
    some (⟨moved.set p' { r with size := r.size + range.size }, fl.currentSize⟩,
      .slot p (slots.getD p unused) :: records)
  | none, none =>
    if fl.currentSize = fl.allocdSize then
      let grown := fl.growFLShmseg
      some (⟨grown.slots.set fl.allocdSize range, fl.currentSize + 1⟩,
        [.slot fl.allocdSize unused, .pointer])
    else freeFLIndex.map fun f =>
      (⟨slots.set f range, fl.currentSize + 1⟩, [.slot f (slots.getD f unused), .pointer])

/-- Subtraction of the 32-bit sizes. -/
def sub32 (a b : Nat) : Nat := (a + 2 ^ 32 - b) % 2 ^ 32

/-- The slot `reserveLBIDRange` puts the rest of a divided range `i` into, after growing the
list when it is full; `none` is a write past the list. -/
def splitSlot (fl : FreeList) (i : Nat) : Option (List InlineLBIDRange × Nat) :=
  match (fl.slots.take i).findIdx? fun r => r.size = 0 with
  | some f => some (fl.slots, f)
  | none =>
    if fl.currentSize = fl.allocdSize then some (fl.growFLShmseg.slots, fl.allocdSize)
    else ((fl.slots.drop (i + 1)).findIdx? fun r => r.size = 0).map fun f => (fl.slots, i + 1 + f)

/-- The three ways in which a requested range lies in a range of the list: at its front, at its
back, or strictly inside. -/
def intersects (range r : InlineLBIDRange) : Bool :=
  r.size ≠ 0 ∧ (range.start = r.start ∨ r.blockEnd = range.blockEnd ∨
    r.start < range.start ∧ range.blockEnd < r.blockEnd)

/-- `reserveLBIDRange`, whose size argument has eight bits. -/
def reserveLBIDRange (fl : FreeList) (start size : Nat) : Option (FreeList × List ImageDelta) :=
  let range : InlineLBIDRange := ⟨start, size % 256⟩
  let slots := fl.slots
  match slots.findIdx? (intersects range) with
  | none => some (fl, [])
  | some i =>
    let r := slots.getD i unused
    let rest := sub32 r.size range.size
    let counter := fl.counterAfter rest
    if range.start = r.start then
      some (⟨slots.set i ⟨r.start + range.size * 1024, rest⟩, counter.1⟩, .slot i r :: counter.2)
    else if r.blockEnd = range.blockEnd then
      some (⟨slots.set i { r with size := rest }, counter.1⟩, .slot i r :: counter.2)
    else
      (fl.splitSlot i).map fun (slots, f) =>
        (⟨(slots.set i { r with size := (range.start - r.start) / 1024 }).set f
            ⟨range.blockEnd, (r.blockEnd - range.blockEnd) / 1024⟩, fl.currentSize + 1⟩,
          [.slot i r, .slot f (slots.getD f unused), .flShminfo slots.length fl.currentSize])

/-- How many ranges of the list contain the block. -/
def cover (fl : FreeList) (x : Nat) : Nat := SpanCover.cover (fl.slots.map span) x

/-- The counter is right, no two ranges touch, and ranges start at multiples of 1024. -/
structure Sound (fl : FreeList) : Prop where
  counted : fl.currentSize = fl.slots.countP (·.inUse)
  apart : ∀ a ∈ fl.slots, ∀ b ∈ fl.slots, a.size ≠ 0 → b.size ≠ 0 → a.blockEnd ≠ b.start
  aligned : ∀ a ∈ fl.slots, a.size ≠ 0 → 1024 ∣ a.start

end FreeList

variable {slots : List InlineLBIDRange} {i : Nat}

lemma getD_of_getElem? (there : slots[i]? = some r) : slots.getD i unused = r := by
  rw [List.getD_eq_getElem?_getD, there]
  rfl

variable {old : InlineLBIDRange}

lemma cover_set_slot (there : slots[i]? = some old) (new : InlineLBIDRange) (x : Nat) :
    cover ((slots.set i new).map span) x + old.span.hit x =
      cover (slots.map span) x + new.span.hit x := by
  rw [List.map_set]
  exact cover_set (by rw [getElem?_map, there]; rfl) new.span x

lemma hit_of_unused (unused : r.size = 0) (x : Nat) : r.span.hit x = 0 :=
  Span.hit_of_empty (by simp [span, unused]) x

/-- A range is two ranges that touch. -/
lemma hit_joined (a : InlineLBIDRange) {b : InlineLBIDRange} {n : Nat}
    (touches : a.blockEnd = b.start)
    (sizes : a.size + b.size = n) (x : Nat) :
    (span ⟨a.start, n⟩).hit x = a.span.hit x + b.span.hit x := by
  simp only [span, ← touches, ← sizes, blockEnd, Nat.add_mul, Span.hit_split]

/-- Slots in which one range may have been moved to another position. -/
structure Moved (slots slots' : List InlineLBIDRange) : Prop where
  covers : ∀ x, cover (slots'.map span) x = cover (slots.map span) x
  counts : slots'.countP (·.inUse) = slots.countP (·.inUse)
  ranges : ∀ a ∈ slots', a.size ≠ 0 → a ∈ slots

lemma Moved.refl (slots : List InlineLBIDRange) : Moved slots slots :=
  ⟨fun _ => rfl, rfl, fun _ member _ => member⟩

/-- Migrating keeps the ranges, and the migrated one is where the result says. -/
lemma migrate_moved {freeFLIndex : Option Nat} (there : slots[i]? = some r)
    (free : ∀ f, freeFLIndex = some f → ∃ z, slots[f]? = some z ∧ z.size = 0) :
    Moved slots (FreeList.migrate slots i freeFLIndex).1 ∧
      (FreeList.migrate slots i freeFLIndex).1[(FreeList.migrate slots i freeFLIndex).2.1]? =
        some r := by
  cases freeFLIndex with
  | none => exact ⟨.refl slots, there⟩
  | some f =>
    obtain ⟨z, atFree, empty⟩ := free f rfl
    simp only [FreeList.migrate]
    split
    · have fInside : f < slots.length := (List.getElem?_eq_some_iff.mp atFree).1
      have kept : (slots.set f r)[i]? = some r := by
        rw [getElem?_set_ne (by omega)]
        exact there
      rw [getD_of_getElem? there]
      dsimp only
      refine ⟨⟨fun x => ?_, ?_, fun a member nonempty => ?_⟩, ?_⟩
      · have first := cover_set_slot atFree r x
        have second := cover_set_slot kept { r with size := 0 } x
        rw [hit_of_unused empty] at first
        rw [hit_of_unused (r := { r with size := 0 }) rfl] at second
        omega
      · have first := countP_set_add (·.inUse) atFree r
        have second := countP_set_add (·.inUse) kept { r with size := 0 }
        rw [not_inUse empty] at first
        rw [not_inUse (r := { r with size := 0 }) rfl] at second
        omega
      · rcases mem_or_eq_of_mem_set member with inFirst | rfl
        · rcases mem_or_eq_of_mem_set inFirst with old | rfl
          · exact old
          · exact mem_of_getElem? there
        · exact absurd rfl nonempty
      · rw [getElem?_set_ne (by omega), List.getElem?_set_self fInside]
    · exact ⟨.refl slots, there⟩

lemma migrate_other {j : Nat} {b : InlineLBIDRange} {freeFLIndex : Option Nat}
    (there : slots[j]? = some b) (used : b.size ≠ 0) (other : j ≠ i)
    (free : ∀ f, freeFLIndex = some f → ∃ z, slots[f]? = some z ∧ z.size = 0) :
    (FreeList.migrate slots i freeFLIndex).1[j]? = some b ∧
      j ≠ (FreeList.migrate slots i freeFLIndex).2.1 := by
  cases freeFLIndex with
  | none => exact ⟨there, other⟩
  | some f =>
    obtain ⟨z, atFree, empty⟩ := free f rfl
    have notFree : j ≠ f := by
      rintro rfl
      cases there.symm.trans atFree
      exact used empty
    simp only [FreeList.migrate]
    split
    · refine ⟨?_, notFree⟩
      rw [getElem?_set_ne other.symm, getElem?_set_ne notFree.symm]
      exact there
    · exact ⟨there, other⟩

variable {currentSize : Int} {new : InlineLBIDRange} {size : Nat} {fl : FreeList}

namespace FreeList

lemma Sound.moved {slots slots' : List InlineLBIDRange} {currentSize : Int}
    (sound : Sound ⟨slots, currentSize⟩) (same : Moved slots slots') :
    Sound ⟨slots', currentSize⟩ where
  counted := by
    have counted := sound.counted
    rw [counted, same.counts]
  apart a inA b inB usedA usedB :=
    sound.apart a (same.ranges a inA usedA) b (same.ranges b inB usedB) usedA usedB
  aligned a inA usedA := sound.aligned a (same.ranges a inA usedA) usedA

lemma cover_unused (n x : Nat) : SpanCover.cover ((replicate n unused).map span) x = 0 := by
  induction n with
  | zero => rfl
  | succ n ih => rw [List.replicate_succ, map_cons, cover_cons, ih, hit_of_unused rfl]

lemma growFLShmseg_moved (fl : FreeList) : Moved fl.slots fl.growFLShmseg.slots where
  covers x := by
    rw [growFLShmseg, List.map_append, cover_append]
    rfl
  counts := by
    rw [growFLShmseg, List.countP_append]
    rfl
  ranges a member used := by
    rcases List.mem_append.mp member with old | added
    · exact old
    · rw [List.eq_of_mem_replicate added] at used
      exact absurd rfl used

lemma whole_sound (n : Nat) : Sound ⟨⟨0, 2 ^ 26⟩ :: replicate n unused, 1⟩ where
  counted := by
    simp [List.countP_replicate, inUse, unused]
  apart a inA b inB usedA usedB := by
    rcases mem_cons.mp inA with rfl | inA
    · rcases mem_cons.mp inB with rfl | inB
      · decide
      · exact absurd (by rw [List.eq_of_mem_replicate inB]; rfl) usedB
    · exact absurd (by rw [List.eq_of_mem_replicate inA]; rfl) usedA
  aligned a inA usedA := by
    rcases mem_cons.mp inA with rfl | inA
    · exact Nat.dvd_zero _
    · exact absurd (by rw [List.eq_of_mem_replicate inA]; rfl) usedA

lemma whole_cover (n x : Nat) (currentSize : Int) :
    cover ⟨⟨0, 2 ^ 26⟩ :: replicate n unused, currentSize⟩ x = if x < 2 ^ 36 then 1 else 0 := by
  rw [cover, map_cons, cover_cons, cover_unused]
  simp [Span.hit, Span.Contains, span]

/-- One slot changes: the new range, if it is one, touches no range of the list. -/
lemma Sound.set {currentSize' : Int} (sound : Sound ⟨slots, currentSize⟩)
    (there : slots[i]? = some old)
    (count : currentSize' + old.inUse.toNat = currentSize + new.inUse.toNat)
    (aligned : new.size ≠ 0 → 1024 ∣ new.start)
    (before : new.size ≠ 0 → ∀ a ∈ slots, a.size ≠ 0 → a.blockEnd ≠ new.start)
    (after : new.size ≠ 0 → ∀ b ∈ slots, b.size ≠ 0 → new.blockEnd ≠ b.start) :
    Sound ⟨slots.set i new, currentSize'⟩ where
  counted := by
    have counted := sound.counted
    have moved := countP_set_add (·.inUse) there new
    dsimp only at counted ⊢
    omega
  apart a inA b inB usedA usedB := by
    rcases mem_or_eq_of_mem_set inA with oldA | rfl <;>
      rcases mem_or_eq_of_mem_set inB with oldB | rfl
    · exact sound.apart a oldA b oldB usedA usedB
    · exact before usedB a oldA usedA
    · exact after usedA b oldB usedB
    · unfold blockEnd
      omega
  aligned a inA usedA := by
    rcases mem_or_eq_of_mem_set inA with oldA | rfl
    · exact sound.aligned a oldA usedA
    · exact aligned usedA

lemma Sound.drop (sound : Sound ⟨slots, currentSize⟩) (there : slots[i]? = some old)
    (used : old.size ≠ 0) (empty : new.size = 0) : Sound ⟨slots.set i new, currentSize - 1⟩ := by
  refine sound.set there ?_ (absurd empty) (absurd empty) (absurd empty)
  rw [not_inUse empty, inUse_of_size used]
  omega

lemma slot_unique {j : Nat} {a b : InlineLBIDRange}
    (single : ∀ x, SpanCover.cover (slots.map span) x ≤ 1)
    (first : slots[i]? = some a) (second : slots[j]? = some b) {x : Nat} (inA : a.span.Contains x)
    (inB : b.span.Contains x) : i = j := by
  by_contra apart
  have both := hit_add_hit_le_cover apart (s := a.span) (t := b.span)
    (by rw [getElem?_map, first]; rfl) (by rw [getElem?_map, second]; rfl) x
  rw [Span.hit_of_contains inA, Span.hit_of_contains inB] at both
  have one := single x
  omega

lemma counterAfter_count (new : InlineLBIDRange) (used : r.size ≠ 0) (fl : FreeList) :
    (fl.counterAfter new.size).1 + r.inUse.toNat = fl.currentSize + new.inUse.toNat := by
  rw [inUse_of_size used]
  unfold counterAfter
  split
  · rename_i empty
    rw [not_inUse empty]
    omega
  · rename_i rest
    rw [inUse_of_size rest]

/-- The free blocks of before are those of after and the range's. -/
def Loses (range : InlineLBIDRange) (slots : List InlineLBIDRange) (fl' : FreeList) : Prop :=
  fl'.Sound ∧ ∀ x, SpanCover.cover (slots.map span) x = fl'.cover x + range.span.hit x

/-- Only a part of a range is kept. -/
lemma Sound.trim {count : Int} (new range : InlineLBIDRange) (sound : Sound ⟨slots, currentSize⟩)
    (single : ∀ x, SpanCover.cover (slots.map span) x ≤ 1) (there : slots[i]? = some r)
    (used : r.size ≠ 0) (counted : count + r.inUse.toNat = currentSize + new.inUse.toNat)
    (lower : r.start ≤ new.start) (upper : new.blockEnd ≤ r.blockEnd) (aligned : 1024 ∣ new.start)
    (parts : ∀ x, r.span.hit x = new.span.hit x + range.span.hit x) :
    Loses range slots ⟨slots.set i new, count⟩ := by
  have member : r ∈ slots := mem_of_getElem? there
  -- a range that ends or starts inside `r` would be `r` itself
  have only : ∀ a ∈ slots, ∀ x, r.span.Contains x → a.span.Contains x → a = r := by
    intro a inA x inR inside
    obtain ⟨j, atA⟩ := mem_iff_getElem?.mp inA
    cases slot_unique single there atA inR inside
    exact Option.some.inj (atA.symm.trans there)
  simp only [blockEnd] at upper
  refine ⟨sound.set there counted (fun _ => aligned) ?_ ?_, fun x => ?_⟩
  · intro rest a inA usedA touching
    have distinct := sound.apart a inA r member usedA used
    have same := only a inA (a.blockEnd - 1)
    simp only [Span.Contains, span, blockEnd] at touching distinct same
    cases same (by omega) (by omega)
    omega
  · intro rest b inB usedB touching
    have distinct := sound.apart r member b inB used usedB
    have same := only b inB b.start
    simp only [Span.Contains, span, blockEnd] at touching distinct same
    cases same (by omega) (by omega)
    omega
  · have moved := cover_set_slot there new x
    have both := parts x
    dsimp only [cover]
    omega

lemma Sound.trim_front (sound : fl.Sound) (single : ∀ x, fl.cover x ≤ 1)
    (there : fl.slots[i]? = some r) (used : r.size ≠ 0) (large : size ≤ r.size) :
    Loses ⟨r.start, size⟩ fl.slots ⟨fl.slots.set i ⟨r.start + size * 1024, r.size - size⟩,
      (fl.counterAfter (r.size - size)).1⟩ := by
  have aligned : 1024 ∣ r.start := sound.aligned r (mem_of_getElem? there) used
  refine sound.trim _ _ single there used ?_ (Nat.le_add_right _ _) ?_
    (by dsimp only; omega) fun x => ?_
  · exact counterAfter_count ⟨_, r.size - size⟩ used fl
  · simp only [blockEnd]
    omega
  · rw [Nat.add_comm (span _ |>.hit x)]
    exact hit_joined ⟨r.start, size⟩ rfl (Nat.add_sub_cancel' large) x

/-- Blocks taken from the list are no longer in it; nothing else changes. -/
lemma getLBIDsFromFreeList_sound {fl' : FreeList} {lbid : Nat} {records : List ImageDelta}
    (sound : fl.Sound) (single : ∀ x, fl.cover x ≤ 1) (positive : 0 < size)
    (taken : fl.getLBIDsFromFreeList size = some (lbid, fl', records)) :
    fl'.Sound ∧ 1024 ∣ lbid ∧
      ∀ x, fl.cover x = fl'.cover x + (span ⟨lbid, size⟩).hit x := by
  obtain ⟨slots, currentSize⟩ := fl
  simp only [getLBIDsFromFreeList] at taken
  cases found : slots.findIdx? fun r => size ≤ r.size with
  | none => simp [found] at taken
  | some i =>
    obtain ⟨inside, enough, _⟩ := List.findIdx?_eq_some_iff_getElem.mp found
    have there : slots[i]? = some slots[i] := List.getElem?_eq_getElem inside
    generalize slots[i] = r at there enough
    have large : size ≤ r.size := of_decide_eq_true enough
    have used : r.size ≠ 0 := by omega
    rw [found] at taken
    simp only [getD_of_getElem? there] at taken
    cases taken
    have trimmed := sound.trim_front single there used large
    exact ⟨trimmed.1, sound.aligned r (mem_of_getElem? there) used, trimmed.2⟩

section Release

variable {slots : List InlineLBIDRange} {currentSize : Int} {range r next : InlineLBIDRange}
  {i j : Nat}

/-- The free blocks are those of before and the range's. -/
def Gains (range : InlineLBIDRange) (slots : List InlineLBIDRange) (fl' : FreeList) : Prop :=
  fl'.Sound ∧ ∀ x, fl'.cover x = SpanCover.cover (slots.map span) x + range.span.hit x

lemma Gains.of_moved {slots' : List InlineLBIDRange} (gains : Gains range slots' fl)
    (moved : Moved slots slots') : Gains range slots fl :=
  ⟨gains.1, fun x => (gains.2 x).trans (by rw [moved.covers])⟩

section

variable (sound : Sound ⟨slots, currentSize⟩) (there : slots[i]? = some r)
include sound there

/-- A range is put in the place of a part of it. -/
lemma Sound.put {count : Int} (counted : count + r.inUse.toNat = currentSize + new.inUse.toNat)
    (aligned : 1024 ∣ new.start) (noneBefore : ∀ a ∈ slots, a.size ≠ 0 → a.blockEnd ≠ new.start)
    (noneAfter : ∀ b ∈ slots, b.size ≠ 0 → new.blockEnd ≠ b.start)
    (parts : ∀ x, new.span.hit x = r.span.hit x + range.span.hit x) :
    Gains range slots ⟨slots.set i new, count⟩ := by
  refine ⟨sound.set there counted (fun _ => aligned) (fun _ => noneBefore) (fun _ => noneAfter),
    fun x => ?_⟩
  have moved := cover_set_slot there new x
  have both := parts x
  dsimp only [FreeList.cover]
  omega

lemma Sound.join_before (range : InlineLBIDRange) (used : r.size ≠ 0)
    (touches : r.blockEnd = range.start)
    (noneAfter : ∀ b ∈ slots, b.size ≠ 0 → range.blockEnd ≠ b.start) :
    Gains range slots
      ⟨slots.set i { r with size := r.size + range.size }, currentSize⟩ := by
  have member : r ∈ slots := mem_of_getElem? there
  refine sound.put there ?_ (sound.aligned r member used)
    (fun a inA usedA => sound.apart a inA r member usedA used) (fun b inB usedB => ?_)
    (hit_joined r touches rfl)
  · rw [inUse_of_size used, inUse_of_size (by dsimp only; omega)]
  · have distinct := noneAfter b inB usedB
    simp only [blockEnd] at distinct touches ⊢
    omega

lemma Sound.join_after (used : r.size ≠ 0) (touches : range.blockEnd = r.start)
    (aligned : 1024 ∣ range.start)
    (noneBefore : ∀ a ∈ slots, a.size ≠ 0 → a.blockEnd ≠ range.start) :
    Gains range slots
      ⟨slots.set i ⟨range.start, r.size + range.size⟩, currentSize⟩ := by
  have member : r ∈ slots := mem_of_getElem? there
  refine sound.put there ?_ aligned noneBefore (fun b inB usedB => ?_) fun x => ?_
  · rw [inUse_of_size used, inUse_of_size (by dsimp only; omega)]
  · have distinct := sound.apart r member b inB used usedB
    simp only [blockEnd] at distinct touches ⊢
    omega
  · rw [Nat.add_comm (r.span.hit x)]
    exact hit_joined range touches (Nat.add_comm _ _) x

lemma Sound.join_both (used : r.size ≠ 0) (touches : r.blockEnd = range.start)
    (thereNext : slots[j]? = some next) (usedNext : next.size ≠ 0)
    (touchesNext : range.blockEnd = next.start) (apart : i ≠ j) :
    Gains range slots
      ⟨(slots.set i { r with size := r.size + (next.size + range.size) }).set j
        { next with size := 0 }, currentSize - 1⟩ := by
  have kept :
      (slots.set i { r with size := r.size + (next.size + range.size) })[j]? = some next := by
    rw [getElem?_set_ne apart]
    exact thereNext
  have joined := sound.join_before there ⟨range.start, next.size + range.size⟩ used touches
    fun b inB usedB => by
      have distinct := sound.apart next (mem_of_getElem? thereNext) b inB usedNext usedB
      simp only [blockEnd] at distinct touchesNext ⊢
      omega
  refine ⟨joined.1.drop kept usedNext rfl, fun x => ?_⟩
  have first := joined.2 x
  have second := cover_set_slot kept { next with size := 0 } x
  rw [hit_joined range touchesNext (Nat.add_comm _ _)] at first
  rw [hit_of_unused (r := { next with size := 0 }) rfl] at second
  dsimp only [FreeList.cover] at first ⊢
  omega

lemma Sound.add (empty : r.size = 0) (positive : range.size ≠ 0) (aligned : 1024 ∣ range.start)
    (noneBefore : ∀ a ∈ slots, a.size ≠ 0 → a.blockEnd ≠ range.start)
    (noneAfter : ∀ b ∈ slots, b.size ≠ 0 → range.blockEnd ≠ b.start) :
    Gains range slots ⟨slots.set i range, currentSize + 1⟩ := by
  refine sound.put there ?_ aligned noneBefore noneAfter fun x => ?_
  · rw [not_inUse empty, inUse_of_size positive]
    omega
  · rw [hit_of_unused empty, Nat.zero_add]

end

lemma Sound.unused_slot (sound : Sound ⟨slots, currentSize⟩)
    (space : currentSize ≠ slots.length) :
    ∃ f z, lastIndex (fun r => decide (r.size = 0)) slots = some f ∧ slots[f]? = some z ∧
      z.size = 0 := by
  cases found : lastIndex (fun r => decide (r.size = 0)) slots with
  | some f =>
    obtain ⟨z, there, empty⟩ := lastIndex_eq_some found
    exact ⟨f, z, rfl, there, of_decide_eq_true empty⟩
  | none =>
    have full : slots.countP (·.inUse) = slots.length := by
      refine List.countP_eq_length.mpr fun a member => ?_
      simpa [inUse] using lastIndex_eq_none found a member
    exact absurd (sound.counted.trans (by exact_mod_cast full)) space

/-- The range of a deleted extent is back in the list; nothing else changes. -/
lemma release_sound (sound : fl.Sound) (positive : range.size ≠ 0) (aligned : 1024 ∣ range.start)
    : ∃ fl' records, fl.release range = some (fl', records) ∧ Gains range fl.slots fl' := by
  obtain ⟨slots, currentSize⟩ := fl
  have free : ∀ f, lastIndex (fun r => decide (r.size = 0)) slots = some f →
      ∃ z, slots[f]? = some z ∧ z.size = 0 := by
    intro f found
    obtain ⟨z, there, empty⟩ := lastIndex_eq_some found
    exact ⟨z, there, of_decide_eq_true empty⟩
  have noneAfter
      (absent : lastIndex (fun r => decide (r.size ≠ 0 ∧ range.blockEnd = r.start)) slots = none)
      (b : InlineLBIDRange) (member : b ∈ slots) (used : b.size ≠ 0) :
      range.blockEnd ≠ b.start :=
    fun touches => of_decide_eq_false (lastIndex_eq_none absent b member) ⟨used, touches⟩
  simp only [release]
  cases foundP : lastIndex (fun r => decide (r.size ≠ 0 ∧ range.blockEnd ≠ r.start ∧
      r.blockEnd = range.start)) slots with
  | none =>
    have noneBefore : ∀ a ∈ slots, a.size ≠ 0 → a.blockEnd ≠ range.start := by
      intro a member used touches
      refine of_decide_eq_false (lastIndex_eq_none foundP a member) ⟨used, ?_, touches⟩
      simp only [blockEnd] at touches ⊢
      omega
    cases foundS : lastIndex (fun r => decide (r.size ≠ 0 ∧ range.blockEnd = r.start)) slots with
    | none =>
      by_cases full : currentSize = allocdSize ⟨slots, currentSize⟩
      · rw [if_pos full]
        have grown := growFLShmseg_moved ⟨slots, currentSize⟩
        have fresh : (growFLShmseg ⟨slots, currentSize⟩).slots[slots.length]? = some unused := by
          simp [growFLShmseg]
        have added := (sound.moved grown).add fresh rfl positive aligned
          (fun a member used => noneBefore a (grown.ranges a member used) used)
          (fun b member used => noneAfter foundS b (grown.ranges b member used) used)
        exact ⟨_, _, rfl, added.of_moved grown⟩
      rw [if_neg full]
      obtain ⟨f, z, found, there, empty⟩ := sound.unused_slot full
      have added := sound.add there empty positive aligned noneBefore (noneAfter foundS)
      rw [found]
      exact ⟨_, _, rfl, added⟩
    | some s =>
      obtain ⟨r, there, isNext⟩ := lastIndex_eq_some foundS
      obtain ⟨used, touches⟩ := of_decide_eq_true isNext
      obtain ⟨moved, atNew⟩ := migrate_moved there free
      have joined := (sound.moved moved).join_after atNew used touches aligned
        (fun a member usedA => noneBefore a (moved.ranges a member usedA) usedA)
      refine ⟨_, _, rfl, ?_⟩
      rw [getD_of_getElem? atNew]
      exact joined.of_moved moved
  | some p =>
    obtain ⟨r, there, isPrevious⟩ := lastIndex_eq_some foundP
    obtain ⟨used, distinct, touches⟩ := of_decide_eq_true isPrevious
    obtain ⟨moved, atNew⟩ := migrate_moved there free
    cases foundS : lastIndex (fun r => decide (r.size ≠ 0 ∧ range.blockEnd = r.start)) slots with
    | none =>
      have joined := (sound.moved moved).join_before atNew range used touches
        (fun b member usedB => noneAfter foundS b (moved.ranges b member usedB) usedB)
      refine ⟨_, _, rfl, ?_⟩
      rw [getD_of_getElem? atNew]
      exact joined.of_moved moved
    | some s =>
      obtain ⟨next, thereNext, isNext⟩ := lastIndex_eq_some foundS
      obtain ⟨usedNext, touchesNext⟩ := of_decide_eq_true isNext
      have apart : s ≠ p := by
        rintro rfl
        cases there.symm.trans thereNext
        exact distinct touchesNext
      obtain ⟨atNext, apart'⟩ := migrate_other thereNext usedNext apart free
      have joined := (sound.moved moved).join_both atNew used touches atNext usedNext
        touchesNext apart'.symm
      refine ⟨_, _, rfl, ?_⟩
      rw [getD_of_getElem? atNew, getD_of_getElem? atNext]
      exact joined.of_moved moved

end Release

section Reserve

variable {slots : List InlineLBIDRange} {currentSize : Int} {range : InlineLBIDRange}

lemma exists_of_cover_pos {x : Nat} (covered : 0 < SpanCover.cover (slots.map span) x) :
    ∃ (i : Nat) (r : InlineLBIDRange), slots[i]? = some r ∧ r.span.Contains x := by
  obtain ⟨s, member, inside⟩ := List.countP_pos_iff.mp covered
  obtain ⟨r, inSlots, rfl⟩ := List.mem_map.mp member
  obtain ⟨i, there⟩ := mem_iff_getElem?.mp inSlots
  exact ⟨i, r, there, of_decide_eq_true inside⟩

/-- A range of free blocks lies inside one range of the list, as no two of them touch. -/
lemma Sound.enclosing (sound : Sound ⟨slots, currentSize⟩)
    (single : ∀ x, SpanCover.cover (slots.map span) x ≤ 1)
    (free : ∀ x, range.span.hit x ≤ SpanCover.cover (slots.map span) x)
    (positive : range.size ≠ 0) :
    ∃ (i : Nat) (r : InlineLBIDRange),
      slots[i]? = some r ∧ r.start ≤ range.start ∧ range.blockEnd ≤ r.blockEnd := by
  have covered : ∀ x, range.start ≤ x → x < range.blockEnd →
      0 < SpanCover.cover (slots.map span) x := by
    intro x above below
    have hit := free x
    rwa [Span.hit_of_contains (show range.span.Contains x from ⟨above, below⟩)] at hit
  obtain ⟨i, r, there, startIn⟩ := exists_of_cover_pos
    (covered range.start (Nat.le_refl _) (by unfold blockEnd; omega))
  refine ⟨i, r, there, startIn.1, ?_⟩
  by_contra short
  have short := Nat.lt_of_not_le short
  have startIn : r.start ≤ range.start ∧ range.start < r.blockEnd := startIn
  obtain ⟨j, b, thereB, endIn⟩ := exists_of_cover_pos (covered r.blockEnd (by omega) short)
  have endIn : b.start ≤ r.blockEnd ∧ r.blockEnd < b.blockEnd := endIn
  have usedR : r.size ≠ 0 := by
    intro empty
    simp only [blockEnd] at startIn
    omega
  have usedB : b.size ≠ 0 := by
    intro empty
    simp only [blockEnd, empty] at endIn
    omega
  have distinct := sound.apart r (mem_of_getElem? there) b (mem_of_getElem? thereB)
    usedR usedB
  have same := slot_unique single there thereB (x := r.blockEnd - 1)
    (show _ ∧ _ < r.blockEnd from ⟨by simp only [span]; omega, by omega⟩)
    (show _ ∧ _ < b.blockEnd from ⟨by simp only [span]; omega, by omega⟩)
  subst same
  cases there.symm.trans thereB
  omega

/-- The slot for the rest of a divided range is not in use, and finding it moves nothing. -/
lemma Sound.splitSlot_unused (sound : Sound ⟨slots, currentSize⟩) (there : slots[i]? = some r)
    (used : r.size ≠ 0) :
    ∃ slots' f z, splitSlot ⟨slots, currentSize⟩ i = some (slots', f) ∧ Moved slots slots' ∧
      slots'[i]? = some r ∧ slots'[f]? = some z ∧ z.size = 0 := by
  have inside : i < slots.length := (List.getElem?_eq_some_iff.mp there).1
  simp only [splitSlot]
  cases found : (slots.take i).findIdx? fun r => r.size = 0 with
  | some f =>
    obtain ⟨below, empty, _⟩ := List.findIdx?_eq_some_iff_getElem.mp found
    have shorter : f < slots.length := by
      simp only [List.length_take] at below
      omega
    refine ⟨slots, f, slots[f], rfl, .refl slots, there, List.getElem?_eq_getElem _, ?_⟩
    simpa using empty
  | none =>
    have noneBefore := List.findIdx?_eq_none_iff.mp found
    by_cases full : currentSize = allocdSize ⟨slots, currentSize⟩
    · rw [if_pos full]
      refine ⟨_, _, unused, rfl, growFLShmseg_moved ⟨slots, currentSize⟩, ?_, ?_, rfl⟩
      · simp only [growFLShmseg]
        rw [List.getElem?_append_left inside]
        exact there
      · simp [growFLShmseg, allocdSize]
    rw [if_neg full]
    obtain ⟨g, y, _, atG, emptyG⟩ := sound.unused_slot full
    have later : i < g := by
      rcases Nat.lt_trichotomy g i with before | same | after
      · have inTake : y ∈ slots.take i := by
          refine mem_iff_getElem?.mpr ⟨g, ?_⟩
          rw [List.getElem?_take_of_lt before]
          exact atG
        have notEmpty := noneBefore y inTake
        simp [emptyG] at notEmpty
      · subst same
        cases there.symm.trans atG
        exact absurd emptyG used
      · exact after
    cases foundAfter : (slots.drop (i + 1)).findIdx? fun r => r.size = 0 with
    | none =>
      have inDrop : y ∈ slots.drop (i + 1) := by
        refine mem_iff_getElem?.mpr ⟨g - (i + 1), ?_⟩
        rw [List.getElem?_drop, show i + 1 + (g - (i + 1)) = g by omega]
        exact atG
      have notEmpty := List.findIdx?_eq_none_iff.mp foundAfter y inDrop
      simp [emptyG] at notEmpty
    | some f =>
      obtain ⟨below, empty, _⟩ := List.findIdx?_eq_some_iff_getElem.mp foundAfter
      refine ⟨slots, i + 1 + f, (slots.drop (i + 1))[f], rfl, .refl slots, there, ?_, ?_⟩
      · rw [← List.getElem?_drop]
        exact List.getElem?_eq_getElem below
      · exact of_decide_eq_true empty

lemma sub32_of_le {a b : Nat} (le : b ≤ a) (small : a < 2 ^ 32) : sub32 a b = a - b := by
  unfold sub32
  omega

lemma findIdx?_intersects (single : ∀ x, SpanCover.cover (slots.map span) x ≤ 1)
    (there : slots[i]? = some r) (positive : range.size ≠ 0) (lower : r.start ≤ range.start)
    (upper : range.blockEnd ≤ r.blockEnd) : slots.findIdx? (intersects range) = some i := by
  have nonempty : range.start < range.blockEnd := by
    unfold blockEnd
    omega
  have inside : ∀ x, range.start ≤ x → x < range.blockEnd → r.span.Contains x :=
    fun x above below => show _ ∧ x < r.blockEnd from
      ⟨Nat.le_trans lower above, Nat.lt_of_lt_of_le below upper⟩
  cases found : slots.findIdx? (intersects range) with
  | none =>
    have fails := List.findIdx?_eq_none_iff.mp found r (mem_of_getElem? there)
    have used : r.size ≠ 0 := by
      intro empty
      simp only [blockEnd] at upper nonempty
      omega
    exact absurd ⟨used, by omega⟩ (of_decide_eq_false fails)
  | some j =>
    obtain ⟨bound, meets, _⟩ := List.findIdx?_eq_some_iff_getElem.mp found
    have thereJ : slots[j]? = some slots[j] := List.getElem?_eq_getElem bound
    generalize slots[j] = b at thereJ meets
    obtain ⟨used, ways⟩ := of_decide_eq_true meets
    have width : b.start < b.blockEnd := by
      unfold blockEnd
      omega
    rcases ways with front | back | ⟨above, below⟩
    · rw [slot_unique single there thereJ (inside range.start (Nat.le_refl _) nonempty)
        (show _ ∧ range.start < b.blockEnd from ⟨Nat.le_of_eq front.symm, by omega⟩)]
    · rw [slot_unique single there thereJ (inside (range.blockEnd - 1) (by omega) (by omega))
        (show b.start ≤ _ ∧ _ < b.blockEnd from ⟨by omega, by omega⟩)]
    · rw [slot_unique single there thereJ (inside range.start (Nat.le_refl _) nonempty)
        (show _ ∧ range.start < b.blockEnd from ⟨Nat.le_of_lt above, by omega⟩)]

/-- A range strictly inside `r` is cut out: `r` keeps the front, slot `f` takes the back. -/
lemma Sound.divide (range : InlineLBIDRange) (sound : Sound ⟨slots, currentSize⟩)
    (single : ∀ x, SpanCover.cover (slots.map span) x ≤ 1) {f m n : Nat}
    {z : InlineLBIDRange} (there : slots[i]? = some r) (thereF : slots[f]? = some z)
    (empty : z.size = 0) (positive : range.size ≠ 0) (left : m ≠ 0) (right : n ≠ 0)
    (start_eq : range.start = r.start + m * 1024) (size_eq : r.size = m + range.size + n) :
    Loses range slots
      ⟨(slots.set i ⟨r.start, m⟩).set f ⟨range.blockEnd, n⟩, currentSize + 1⟩ := by
  have used : r.size ≠ 0 := by omega
  have member : r ∈ slots := mem_of_getElem? there
  have aligned : 1024 ∣ r.start := sound.aligned r member used
  have apart : i ≠ f := by
    rintro rfl
    cases there.symm.trans thereF
    exact used empty
  have kept : (slots.set i ⟨r.start, m⟩)[f]? = some z := by
    rw [getElem?_set_ne apart]
    exact thereF
  have cut := sound.trim ⟨r.start, m⟩ ⟨range.start, range.size + n⟩ single there used
    (show currentSize + _ = _ by rw [inUse_of_size used, inUse_of_size left]) (Nat.le_refl _)
    (by simp only [blockEnd]; omega) aligned
    (hit_joined ⟨r.start, m⟩ start_eq.symm (by dsimp only; omega))
  -- the ranges left and right of the cut are the only ones near it
  have others : ∀ b ∈ slots.set i ⟨r.start, m⟩, b.size ≠ 0 → b = ⟨r.start, m⟩ ∨
      (b ∈ slots ∧ b.blockEnd ≠ range.blockEnd) := by
    intro b member usedB
    obtain ⟨j, thereJ⟩ := mem_iff_getElem?.mp member
    by_cases same : i = j
    · subst same
      rw [List.getElem?_set_self (List.getElem?_eq_some_iff.mp there).1] at thereJ
      exact .inl (Option.some.inj thereJ).symm
    rw [getElem?_set_ne same] at thereJ
    refine .inr ⟨mem_of_getElem? thereJ, fun ends => same ?_⟩
    simp only [blockEnd] at ends
    exact slot_unique single there thereJ (x := b.blockEnd - 1)
      (by simp only [Span.Contains, span, blockEnd]; omega)
      (by simp only [Span.Contains, span, blockEnd]; omega)
  refine ⟨cut.1.set kept ?_ (fun _ => ?_) ?_ ?_, fun x => ?_⟩
  · rw [not_inUse empty, inUse_of_size (r := ⟨range.blockEnd, n⟩) right]
    omega
  · simp only [blockEnd]
    omega
  · intro _ a member usedA
    rcases others a member usedA with rfl | ⟨_, distinct⟩
    · simp only [blockEnd]
      omega
    · exact distinct
  · intro _ b member usedB
    rcases others b member usedB with rfl | ⟨old, _⟩
    · simp only [blockEnd]
      omega
    · have distinct := sound.apart r (mem_of_getElem? there) b old used usedB
      simp only [blockEnd] at distinct ⊢
      omega
  have filled := cover_set_slot kept ⟨range.blockEnd, n⟩ x
  have trimmed := cut.2 x
  rw [hit_of_unused empty] at filled
  rw [hit_joined range (b := ⟨range.blockEnd, n⟩) rfl rfl] at trimmed
  dsimp only [cover] at trimmed ⊢
  omega

/-- A loaded extent is cut out of the list; nothing else changes. -/
lemma reserveLBIDRange_sound {start : Nat} (sound : fl.Sound) (single : ∀ x, fl.cover x ≤ 1)
    (small : ∀ r ∈ fl.slots, r.size < 2 ^ 32)
    (free : ∀ x, (span ⟨start, size⟩).hit x ≤ fl.cover x) (positive : size ≠ 0)
    (eightBits : size < 256) (aligned : 1024 ∣ start) :
    ∃ fl' records, fl.reserveLBIDRange start size = some (fl', records) ∧ fl'.Sound ∧
      ∀ x, fl.cover x = fl'.cover x + (span ⟨start, size⟩).hit x := by
  obtain ⟨slots, currentSize⟩ := fl
  obtain ⟨i, r, there, lower, upper⟩ := sound.enclosing single free positive
  have found := findIdx?_intersects single there positive lower upper
  have lower : r.start ≤ start := lower
  have upper : start + size * 1024 ≤ r.start + r.size * 1024 := upper
  have used : r.size ≠ 0 := by omega
  have member : r ∈ slots := mem_of_getElem? there
  have alignedR : 1024 ∣ r.start := sound.aligned r member used
  have large : size ≤ r.size := by omega
  have whole : sub32 r.size size = r.size - size := sub32_of_le large (small r member)
  simp only [reserveLBIDRange, Nat.mod_eq_of_lt eightBits, found, getD_of_getElem? there, whole]
  by_cases front : start = r.start
  · rw [if_pos front]
    have done := sound.trim_front single there used large
    exact ⟨_, _, rfl, done.1, by rw [front]; exact done.2⟩
  rw [if_neg front]
  by_cases back : r.blockEnd = blockEnd ⟨start, size⟩
  · rw [if_pos back]
    have ends : r.start + r.size * 1024 = start + size * 1024 := back
    have front_eq : r.start + (r.size - size) * 1024 = start := by
      rw [Nat.sub_mul]
      omega
    have done := sound.trim { r with size := r.size - size } ⟨start, size⟩ single there used
      (counterAfter_count _ used ⟨slots, currentSize⟩) (Nat.le_refl r.start)
      (by simp only [blockEnd]; omega) alignedR
      (hit_joined ⟨r.start, r.size - size⟩ front_eq (Nat.sub_add_cancel large))
    exact ⟨_, _, rfl, done⟩
  rw [if_neg back]
  obtain ⟨slots', f, z, chosen, moved, thereI, thereF, empty⟩ :=
    sound.splitSlot_unused there used
  simp only [blockEnd] at back
  have single' : ∀ x, SpanCover.cover (slots'.map span) x ≤ 1 := by
    intro x
    rw [moved.covers]
    exact single x
  have done := (sound.moved moved).divide ⟨start, size⟩ single' thereI thereF empty
    (m := (start - r.start) / 1024) (n := (r.blockEnd - (start + size * 1024)) / 1024) positive
    (by omega) (by simp only [blockEnd]; omega) (by dsimp only; omega)
    (by simp only [blockEnd]; omega)
  rw [chosen]
  refine ⟨_, _, rfl, done.1, fun x => ?_⟩
  rw [cover, ← moved.covers]
  exact done.2 x

end Reserve

end FreeList

end LbidFreeList
