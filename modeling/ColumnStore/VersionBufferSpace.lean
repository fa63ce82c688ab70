import Mathlib.Data.List.GetD
import ColumnStore.VbbmInvariant
import ColumnStore.VssInvariant

/-!
# Handing out version buffer space

What `VBBM::getBlocks` returns and what it leaves behind. For a file whose block count fits `int`
the gathering loop is a ring buffer: it ends, the ranges start at the current position and wrap at
most once. Aging is done by whole chunks of 100 blocks, so the blocks of a chunk after the current
position are counted on to be vacant already.
-/

namespace VersionBufferSpace

open ChainedTable ChainedTable.Table Vbbm VbbmInvariant List Nat
open Vss (LBID Ver VSS VSSData)

variable {n : Nat}

lemma int32_of_lt (small : n < 2 ^ 31) : int32 n = n := by
  unfold int32
  rw [Int.bmod_def]
  split <;> omega

lemma uint32_of_lt (small : n < 2 ^ 32) : uint32 n = n := by
  unfold uint32
  omega

/-- The blocks of a version buffer file. -/
def blockCount (file : VBFileMetadata) : Nat :=
  file.fileSize / blockSize

/-- The block the next range starts at. -/
def position (file : VBFileMetadata) : Nat :=
  file.nextOffset / blockSize

structure FileOk (file : VBFileMetadata) : Prop where
  small : blockCount file < 2 ^ 31
  aligned : file.nextOffset = position file * blockSize
  inside : position file < blockCount file ∨ position file = 0

/-- The ranges a ring of `blockCount` blocks yields for `num` blocks, from `position` on. -/
def ringRanges (oid blockCount position num : Nat) : List VBRange :=
  if num = 0 then []
  else if num ≤ blockCount - position then [⟨oid, position, num⟩]
  else [⟨oid, position, blockCount - position⟩, ⟨oid, 0, num - (blockCount - position)⟩]

variable {gathered : Int}

lemma gather_done (fileIndex n : Nat) {num : Int} (b : VBBM) (ranges : List VBRange)
    (done : ¬ gathered < num) :
    gather fileIndex num (n + 1) gathered b ranges = some (b, ranges) := by
  simp [gather, done]

variable {fileIndex num : Nat} {ranges : List VBRange} {file : VBFileMetadata}

/-- One turn of the gathering loop on a file whose block count fits `int`. -/
lemma gather_turn {gathered : Nat} {b : VBBM} (here : b.files.getD fileIndex ⟨0, 0, 0⟩ = file)
    (ok : FileOk file) (more : gathered < num) (le : num ≤ blockCount file) :
    let size := min (num - gathered) (blockCount file - position file)
    gather fileIndex num (n + 1) gathered b ranges =
      gather fileIndex num n (gathered + size : Nat)
        (setFile (makeFileUndoRecord b fileIndex) fileIndex
          { file with
            nextOffset := if size = blockCount file - position file then 0
              else (position file + size) * blockSize })
        (ranges ++ [⟨file.OID, position file, size⟩]) := by
  intro size
  obtain ⟨small, aligned, inside⟩ := ok
  have left : (file.fileSize - file.nextOffset) / blockSize = blockCount file - position file := by
    rw [aligned, blockCount, mul_comm, sub_mul_div]
  have blocksLeft : int32 ((blockCount file - position file : Nat) : Int) =
      (blockCount file - position file : Nat) := int32_of_lt (by omega)
  have size_eq : uint32 (if (num : Int) - gathered ≤ (blockCount file - position file : Nat)
      then (num : Int) - gathered else (blockCount file - position file : Nat)) = size := by
    have : (if (num : Int) - gathered ≤ (blockCount file - position file : Nat)
        then (num : Int) - gathered else (blockCount file - position file : Nat)) =
        (size : Int) := by
      split <;> omega
    rw [this]
    exact uint32_of_lt (by omega)
  have all_eq : uint32 ((blockCount file - position file : Nat) : Int) =
      blockCount file - position file := uint32_of_lt (by omega)
  have start : uint32 ((file.nextOffset / blockSize : Nat) : Int) = position file := by
    refine uint32_of_lt ?_
    change position file < 2 ^ 32
    omega
  have total : int32 ((gathered : Int) + (size : Nat)) = (gathered + size : Nat) := by
    exact int32_of_lt (by omega)
  have offset : file.nextOffset + size * blockSize = (position file + size) * blockSize := by
    rw [Nat.add_mul, ← aligned]
  have more' : (gathered : Int) < num := Int.ofNat_lt.mpr more
  conv_lhs => unfold gather
  simp only [if_pos more', here, left, blocksLeft, size_eq, all_eq, start, total, offset]

lemma setFile_files (b : VBBM) (fileIndex : Nat) (file : VBFileMetadata) :
    (setFile (makeFileUndoRecord b fileIndex) fileIndex file).files = b.files.set fileIndex file :=
  rfl

lemma three_le_gatherTurns : 3 ≤ gatherTurns := by
  simp [gatherTurns]

/-- The gathering loop is the ring: it ends within three turns, and the position moves on by
`num` modulo the block count. -/
lemma gather_spec {turns : Nat} {b : VBBM} (enough : 3 ≤ turns)
    (inRange : fileIndex < b.files.length) (here : b.files.getD fileIndex ⟨0, 0, 0⟩ = file)
    (ok : FileOk file) (le : num ≤ blockCount file) :
    ∃ b', gather fileIndex num turns 0 b [] =
        some (b', ringRanges file.OID (blockCount file) (position file) num) ∧
      b'.table = b.table ∧
      b'.files = b.files.set fileIndex
        { file with nextOffset := (position file + num) % blockCount file * blockSize } := by
  obtain ⟨-, rfl⟩ := Nat.exists_eq_add_of_le' enough
  have zero : (0 : Int) = (0 : Nat) := rfl
  have inside := ok.inside
  have self : b.files.set fileIndex file = b.files := by
    rw [← here, getD_eq_getElem _ _ inRange, set_getElem_self]
  rcases Nat.eq_zero_or_pos num with rfl | pos
  · refine ⟨b, ?_, rfl, ?_⟩
    · rw [gather_done _ _ _ _ (by simp)]
      simp [ringRanges]
    have stay : (position file + 0) % blockCount file * blockSize = file.nextOffset := by
      rw [ok.aligned, add_zero]
      rcases inside with lt | zero
      · rw [mod_eq_of_lt lt]
      · simp [zero]
    rw [stay, self]
  rw [zero, gather_turn here ok pos le]
  simp only [zero_add, Nat.sub_zero]
  rcases Nat.lt_or_ge (blockCount file - position file) num with wraps | fits
  · -- the first range ends with the file and the second starts over
    rw [Nat.min_eq_right wraps.le, if_pos rfl]
    set b₁ := setFile (makeFileUndoRecord b fileIndex) fileIndex { file with nextOffset := 0 }
    have here₁ : b₁.files.getD fileIndex ⟨0, 0, 0⟩ = { file with nextOffset := 0 } := by
      rw [getD_eq_getElem _ _ (by simpa [b₁, setFile_files] using inRange)]
      simp [b₁, setFile_files]
    have ok₁ : FileOk { file with nextOffset := 0 } :=
      ⟨ok.small, by simp [position], .inr (by simp [position])⟩
    have start₁ : position { file with nextOffset := 0 } = 0 := by simp [position]
    have count₁ : blockCount { file with nextOffset := 0 } = blockCount file := rfl
    rw [gather_turn here₁ ok₁ wraps (by rw [count₁]; exact le)]
    simp only [start₁, count₁, Nat.sub_zero]
    have rest : min (num - (blockCount file - position file)) (blockCount file) =
        num - (blockCount file - position file) := by omega
    have notAll : num - (blockCount file - position file) ≠ blockCount file := by omega
    rw [rest, if_neg notAll, gather_done _ _ _ _ (by omega)]
    refine ⟨setFile (makeFileUndoRecord b₁ fileIndex) fileIndex
      { file with nextOffset := (num - (blockCount file - position file)) * blockSize },
      ?_, rfl, ?_⟩
    · simp [ringRanges, pos.ne', not_le.mpr wraps]
    have wrapped : (position file + num) % blockCount file =
        num - (blockCount file - position file) := by
      have : position file + num =
          num - (blockCount file - position file) + blockCount file := by omega
      rw [this, Nat.add_mod_right]
      exact Nat.mod_eq_of_lt (by omega)
    simp [setFile_files, b₁, wrapped]
  rw [gather_done _ _ _ _ (by omega)]
  refine ⟨setFile (makeFileUndoRecord b fileIndex) fileIndex { file with
      nextOffset := if num = blockCount file - position file then 0
        else (position file + num) * blockSize }, ?_, rfl, ?_⟩
  · simp [ringRanges, pos.ne', fits]
  rw [setFile_files]
  congr 2
  by_cases whole : num = blockCount file - position file
  · have : position file + num = blockCount file := by omega
    simp [if_pos whole, this]
  · rw [if_neg whole, mod_eq_of_lt (by omega)]

lemma agedBlocks_eq {fileSize oid start size : Nat} (small : fileSize / blockSize < 2 ^ 31)
    (pos : 0 < size) (le : start + size ≤ fileSize / blockSize) :
    agedBlocks fileSize ⟨oid, start, size⟩ =
      if start % 100 ≠ 0 ∧ start / 100 = (start + size - 1) / 100 then none
      else some (if start % 100 ≠ 0 then (start / 100 + 1) * 100 else start,
        min ((start + size - 1) / 100 * 100 + 99) (fileSize / blockSize)) := by
  have lastFBO : uint32 ((start : Int) + size - 1) = start + size - 1 := by
    have : (start : Int) + size - 1 = (start + size - 1 : Nat) := by omega
    rw [this]
    exact uint32_of_lt (by omega)
  have first : uint32 (((start / 100 + 1) * 100 : Nat) : Int) = (start / 100 + 1) * 100 :=
    uint32_of_lt (by omega)
  have last : uint32 ((((start + size - 1) / 100 + 1) * 100 - 1 : Nat) : Int) =
      (start + size - 1) / 100 * 100 + 99 := by
    rw [uint32_of_lt (by omega)]
    omega
  have count : uint32 ((fileSize / blockSize : Nat) : Int) = fileSize / blockSize :=
    uint32_of_lt (by omega)
  simp only [agedBlocks, chunkSize, lastFBO, first]
  congr 1
  congr 2
  split <;> omega

/-- The places of the given ranges whose entries a request removes. -/
def expires (fileSize : Nat) (ranges : List VBRange) (place : Nat × Nat) : Bool :=
  ranges.any fun range =>
    match agedBlocks fileSize range with
    | none => false
    | some (first, last) => range.vbOID = place.1 && first ≤ place.2 && place.2 ≤ last

/-- The places inside the given ranges. -/
def places (ranges : List VBRange) : List (Nat × Nat) :=
  ranges.flatMap fun range =>
    (List.range' range.vbFBO range.size).map fun fbo => (range.vbOID, fbo)

variable {place : Nat × Nat}

lemma mem_places :
    place ∈ places ranges ↔ ∃ range ∈ ranges, range.vbOID = place.1 ∧
      range.vbFBO ≤ place.2 ∧ place.2 < range.vbFBO + range.size := by
  obtain ⟨-, fbo⟩ := place
  simp only [places, mem_flatMap, mem_map, mem_range'_1, Prod.mk.injEq]
  constructor
  · rintro ⟨range, hr, f, ⟨low, high⟩, rfl, rfl⟩
    exact ⟨range, hr, rfl, low, high⟩
  · rintro ⟨range, hr, rfl, low, high⟩
    exact ⟨range, hr, fbo, ⟨low, high⟩, rfl, rfl⟩

/-- The part of a chunk that lies at or after a position inside it. -/
def InTail (blockCount position fbo : Nat) : Prop :=
  position % 100 ≠ 0 ∧ position ≤ fbo ∧ fbo < (position / 100 + 1) * 100 ∧ fbo < blockCount

/-- The request wraps around and stops inside the chunk it started in, or just before. -/
def comesBack (blockCount position num : Nat) : Prop :=
  blockCount - position < num ∧ (position + num - blockCount) % 100 ≠ 0 ∧
    position < ((position + num - blockCount) / 100 + 1) * 100
  deriving Decidable

section Ring

variable {fileSize oid position num fbo : Nat}

lemma expires_first {size : Nat} {rest : List VBRange} (small : fileSize / blockSize < 2 ^ 31)
    (pos : 0 < size) (le : position + size ≤ fileSize / blockSize)
    (spans : position % 100 = 0 ∨ position / 100 ≠ (position + size - 1) / 100)
    (low : (position + 99) / 100 * 100 ≤ fbo)
    (high : fbo < ((position + size - 1) / 100 + 1) * 100) (inside : fbo < fileSize / blockSize) :
    expires fileSize (⟨oid, position, size⟩ :: rest) (oid, fbo) := by
  simp only [expires, any_cons, agedBlocks_eq small pos le, Bool.or_eq_true]
  left
  rw [if_neg (by rcases spans with aligned | further <;> omega)]
  simp only [decide_true, Bool.true_and, Bool.and_eq_true, decide_eq_true_eq]
  constructor
  · split <;> omega
  · omega

lemma expires_cons {range : VBRange} {rest : List VBRange} (later : expires fileSize rest place) :
    expires fileSize (range :: rest) place := by
  simp only [expires, any_cons, Bool.or_eq_true] at later ⊢
  exact .inr later

/-- Every block handed out is aged out, or was in the tail of the chunk entered before. -/
lemma ring_places (small : fileSize / blockSize < 2 ^ 31) (le : num ≤ fileSize / blockSize)
    (taken : (oid, fbo) ∈ places (ringRanges oid (fileSize / blockSize) position num)) :
    fbo < fileSize / blockSize ∧
      (expires fileSize (ringRanges oid (fileSize / blockSize) position num) (oid, fbo) ∨
        InTail (fileSize / blockSize) position fbo) := by
  have first : ∀ size rest, 0 < size → position + size ≤ fileSize / blockSize → position ≤ fbo →
      fbo < position + size →
      expires fileSize (⟨oid, position, size⟩ :: rest) (oid, fbo) ∨
        InTail (fileSize / blockSize) position fbo := by
    intro size rest pos fits low high
    by_cases tail : position % 100 ≠ 0 ∧ fbo < (position / 100 + 1) * 100
    · exact .inr ⟨tail.1, low, tail.2, by omega⟩
    · exact .inl (expires_first small pos fits (by omega) (by omega) (by omega) (by omega))
  rw [mem_places] at taken
  obtain ⟨range, mem, -, low, high⟩ := taken
  unfold ringRanges at mem ⊢
  split_ifs at mem ⊢ with zero fits
  · simp at mem
  · obtain rfl := mem_singleton.mp mem
    dsimp only at low high
    exact ⟨by omega, first num [] (by omega) (by omega) low high⟩
  rcases mem_cons.mp mem with rfl | mem
  · dsimp only at low high
    exact ⟨by omega, first _ _ (by omega) (by omega) low (by omega)⟩
  obtain rfl := mem_singleton.mp mem
  dsimp only at low high
  refine ⟨by omega, .inl (expires_cons ?_)⟩
  exact expires_first small (by omega) (by omega) (by omega) (by omega) (by omega) (by omega)

/-- The tail left behind was aged out by the request, or is part of the tail before it; and none
of it is handed out unless the request comes back to the chunk it started in. -/
lemma ring_tail (oid : Nat) (small : fileSize / blockSize < 2 ^ 31)
    (inside : position < fileSize / blockSize ∨ position = 0) (le : num ≤ fileSize / blockSize)
    (forward : ¬ comesBack (fileSize / blockSize) position num)
    (tail : InTail (fileSize / blockSize)
      ((position + num) % (fileSize / blockSize)) fbo) :
    (expires fileSize (ringRanges oid (fileSize / blockSize) position num) (oid, fbo) ∨
        InTail (fileSize / blockSize) position fbo) ∧
      (oid, fbo) ∉ places (ringRanges oid (fileSize / blockSize) position num) := by
  obtain ⟨unaligned, low, high, bound⟩ := tail
  generalize count : fileSize / blockSize = blocks at *
  unfold comesBack at forward
  rw [mem_places]
  rcases lt_or_ge (position + num) blocks with before | wraps
  · rw [mod_eq_of_lt before] at unaligned low high
    unfold ringRanges
    rcases Nat.eq_zero_or_pos num with rfl | pos
    · simp only [if_true, not_mem_nil, false_and, exists_false, not_false_eq_true, and_true]
      exact .inr ⟨unaligned, low, high, bound⟩
    rw [if_neg (by omega), if_pos (by omega)]
    refine ⟨?_, ?_⟩
    · by_cases spans : position % 100 = 0 ∨ position / 100 ≠ (position + num - 1) / 100
      · exact .inl (expires_first (by omega) pos (by omega) spans (by omega) (by omega)
          (by omega))
      · exact .inr ⟨by omega, by omega, by omega, bound⟩
    · rintro ⟨range, mem, -, -, above⟩
      obtain rfl := mem_singleton.mp mem
      dsimp only at above
      omega
  have around : (position + num) % blocks = position + num - blocks := by
    rw [mod_eq_sub_mod wraps, mod_eq_of_lt (by omega)]
  unfold ringRanges
  rw [if_neg (by omega), if_neg (by omega)]
  refine ⟨.inl (expires_cons ?_), ?_⟩
  · exact expires_first (by omega) (by omega) (by omega) (by omega) (by omega) (by omega)
      (by omega)
  rintro ⟨range, mem, -, below, above⟩
  rcases mem_cons.mp mem with rfl | mem
  · dsimp only at below above
    omega
  · obtain rfl := mem_singleton.mp mem
    dsimp only at above
    omega

end Ring

variable {i : Nat}

section Aging

variable {hasher : LBID → Ver → Nat}

/-- No entry refers to the place. -/
def Vacant (t : Table LBID VBBMData Unit) (place : Nat × Nat) : Prop :=
  ∀ e ∈ t.entries, (e.2.vbOID, e.2.vbFBO) ≠ place

variable {t : Table LBID VBBMData Unit}

lemma Vacant.mono {t' : Table LBID VBBMData Unit} (vacant : Vacant t place)
    (le : t'.entries ≤ t.entries) : Vacant t' place :=
  fun e mem => vacant e (Multiset.mem_of_le le mem)

lemma vacant_of_entries_eq_zero (empty : t.entries = 0) (place : Nat × Nat) : Vacant t place := by
  intro e mem
  simp [empty] at mem

lemma nodup_map_of_le {A B : Type} {s s' : Multiset A} (f : A → B) (nodup : (s.map f).Nodup)
    (le : s' ≤ s) : (s'.map f).Nodup :=
  Multiset.nodup_of_le (Multiset.map_le_map le) nodup

/-- What aging does to the table: it only frees slots, and undoing gives the table back. -/
structure Aged (hasher : LBID → Ver → Nat) (t r : Table LBID VBBMData Unit) : Prop where
  sound : Sound hasher r
  entries_le : r.entries ≤ t.entries
  logged : Logged t r
  capacity : r.header.capacity = t.header.capacity
  slots : ∀ j, (r.slots j).entry = none ∨ (r.slots j).entry = (t.slots j).entry

lemma Aged.refl (sound : Sound hasher t) : Aged hasher t t :=
  ⟨sound, le_rfl, .refl t, rfl, fun _ => .inr rfl⟩

lemma Aged.trans {r q : Table LBID VBBMData Unit} (first : Aged hasher t r)
    (second : Aged hasher r q) : Aged hasher t q := by
  refine ⟨second.sound, second.entries_le.trans first.entries_le, first.logged.trans second.logged,
    second.capacity.trans first.capacity, fun j => ?_⟩
  rcases second.slots j with free | same
  · exact .inl free
  · rw [same]
    exact first.slots j

lemma Aged.entry_eq {r : Table LBID VBBMData Unit} (aged : Aged hasher t r) {j : Nat}
    {e : LBID × VBBMData} (left : (r.slots j).entry = some e) : (t.slots j).entry = some e := by
  rcases aged.slots j with free | same
  · rw [free] at left
    cases left
  · rwa [← same]

lemma aged_removeFromTable (sound : Sound hasher t) (lbid : LBID) (verID : Ver) :
    Aged hasher t (removeFromTable hasher t lbid verID) :=
  ⟨(removeFromTable_spec sound lbid verID).1, removeFromTable_le sound lbid verID,
    logged_removeFromTable t lbid verID, removeFromTable_capacity t lbid verID,
    removeFromTable_slot t lbid verID⟩

lemma slot_unique (unique : UniqueKeys t) {j : Nat} {lbid : LBID}
    (insideI : i < t.header.capacity) (keyI : (t.slots i).key = some lbid)
    (insideJ : j < t.header.capacity) (keyJ : (t.slots j).key = some lbid)
    (version : (t.slots j).data.verID = (t.slots i).data.verID) : i = j := by
  have distinct := (nodup_map_entries_iff fun e : LBID × VBBMData => (e.1, e.2.verID)).mp unique
  have entryI : (t.slots i).entry = some (lbid, (t.slots i).data) := by simp [Slot.entry, keyI]
  have entryJ : (t.slots j).entry = some (lbid, (t.slots j).data) := by simp [Slot.entry, keyJ]
  rcases lt_trichotomy i j with lt | eq | gt
  · exact absurd (by simp [version]) (distinct j insideJ i lt _ _ entryJ entryI)
  · exact eq
  · exact absurd (by simp [version]) (distinct i insideI j gt _ _ entryI entryJ)

lemma removeFromTable_frees (sound : Sound hasher t) (unique : UniqueKeys t) {lbid : LBID}
    (inside : i < t.header.capacity) (key : (t.slots i).key = some lbid) :
    ((removeFromTable hasher t lbid (t.slots i).data.verID).slots i).entry = none := by
  unfold removeFromTable
  cases found : getIndex hasher t lbid (t.slots i).data.verID with
  | none =>
    exact absurd rfl ((getIndex_none sound).mp found _ (mem_entries.mpr ⟨i, inside, key, rfl⟩))
  | some place =>
    obtain ⟨key', version, inside', -⟩ := getIndex_some sound found
    obtain rfl := slot_unique unique inside key inside' key' version
    simp [Slot.entry, makeUndoRecord]

variable (vssHasher : LBID → Nat)

lemma ageBlocks_spec (vbOID first last : Nat) (indices : List Nat) (s : Aging)
    (sound : Sound hasher s.table) (unique : UniqueKeys s.table)
    (inside : ∀ i ∈ indices, i < s.table.header.capacity) :
    let r := ageBlocks hasher vssHasher vbOID first last indices s
    Aged hasher s.table r.1.table ∧
      (r.2 = none → ∀ i ∈ indices, ∀ e, (r.1.table.slots i).entry = some e →
        ¬ (e.2.vbOID = vbOID ∧ first ≤ e.2.vbFBO ∧ e.2.vbFBO ≤ last)) := by
  induction indices generalizing s with
  | nil => exact ⟨.refl sound, by simp⟩
  | cons i indices ih =>
    have rest := ih s sound unique fun j hj => inside j (by simp [hj])
    have here := inside i (by simp)
    simp only [ageBlocks]
    split
    case h_1 key =>
      refine ⟨rest.1, fun done => forall_mem_cons.mpr ⟨fun e left => ?_, rest.2 done⟩⟩
      have before := rest.1.entry_eq left
      simp [Slot.entry, key] at before
    case h_2 lbid key =>
      split_ifs with hit locked
      · exact ⟨.refl sound, by simp⟩
      · -- the entry is removed from both tables, which frees this very slot
        set verID := (s.table.slots i).data.verID
        set s' : Aging := ⟨removeFromTable hasher s.table lbid verID,
          (Vss.removeEntry vssHasher s.vss lbid verID s.flushList).1,
          (Vss.removeEntry vssHasher s.vss lbid verID s.flushList).2⟩ with s'_eq
        have aged := aged_removeFromTable sound lbid (s.table.slots i).data.verID
        have freed := removeFromTable_frees sound unique here key
        have after := ih s' aged.sound (nodup_map_of_le _ unique aged.entries_le) fun j hj => by
          rw [aged.capacity]
          exact inside j (by simp [hj])
        refine ⟨aged.trans after.1, fun done => forall_mem_cons.mpr
          ⟨fun e left => ?_, after.2 done⟩⟩
        have before := after.1.entry_eq left
        rw [freed] at before
        cases before
      · refine ⟨rest.1, fun done => forall_mem_cons.mpr ⟨fun e left => ?_, rest.2 done⟩⟩
        have before := rest.1.entry_eq left
        obtain rfl : (lbid, (s.table.slots i).data) = e := by simpa [Slot.entry, key] using before
        exact hit

lemma ageRanges_spec (num : Int) (fileSize : Nat) (ranges : List VBRange) (s : Aging)
    (sound : Sound hasher s.table) (unique : UniqueKeys s.table) :
    let r := ageRanges hasher vssHasher num fileSize ranges s
    Aged hasher s.table r.1.table ∧
      (r.2 = none → ∀ place, expires fileSize ranges place → Vacant r.1.table place) := by
  induction ranges generalizing s with
  | nil => exact ⟨.refl sound, by simp [expires]⟩
  | cons range ranges ih =>
    simp only [ageRanges]
    cases aged : agedBlocks fileSize range with
    | none =>
      obtain ⟨rest, vacant⟩ := ih s sound unique
      refine ⟨rest, fun done place gone => vacant done place ?_⟩
      simpa [expires, aged] using gone
    | some bounds =>
      obtain ⟨first, last⟩ := bounds
      have pass := ageBlocks_spec vssHasher range.vbOID first last
        (List.range s.table.header.capacity) s sound unique fun i hi => List.mem_range.mp hi
      cases result : ageBlocks hasher vssHasher range.vbOID first last
          (List.range s.table.header.capacity) s with
      | mk s' locked =>
        simp only [result] at pass ⊢
        cases locked with
        | some lbid => exact ⟨pass.1, by simp⟩
        | none =>
          obtain ⟨rest, vacant⟩ := ih s' pass.1.sound (nodup_map_of_le _ unique pass.1.entries_le)
          refine ⟨pass.1.trans rest, fun done place gone => ?_⟩
          simp only [expires, List.any_cons, aged, Bool.or_eq_true] at gone
          rcases gone with here | later
          · simp only [Bool.and_eq_true, decide_eq_true_eq] at here
            have cleared : Vacant s'.table place := by
              rintro ⟨k, d⟩ mem same
              obtain ⟨i, inside, key, rfl⟩ := mem_entries.mp mem
              refine pass.2 rfl i (List.mem_range.mpr (by rwa [← pass.1.capacity]))
                (k, (s'.table.slots i).data) (by simp [Slot.entry, key]) ?_
              rw [← same] at here
              exact ⟨here.1.1.symm, here.1.2, here.2⟩
            exact cleared.mono rest.entries_le
          · exact vacant done place later

end Aging

variable {vbOID : Nat}

variable (vssHasher : LBID → Nat)

lemma ageBlocks_of_unaffected {first last : Nat}
    {indices : List Nat} {s : Aging}
    (other : ∀ i ∈ indices, ∀ e, (s.table.slots i).entry = some e →
      ¬ (e.2.vbOID = vbOID ∧ first ≤ e.2.vbFBO ∧ e.2.vbFBO ≤ last)) :
    ageBlocks hasher vssHasher vbOID first last indices s = (s, none) := by
  induction indices with
  | nil => rfl
  | cons i indices ih =>
    have rest := ih fun j hj => other j (by simp [hj])
    simp only [ageBlocks]
    cases key : (s.table.slots i).key with
    | none => exact rest
    | some lbid =>
      have miss := other i (by simp) (lbid, (s.table.slots i).data) (by simp [Slot.entry, key])
      simp only [if_neg miss]
      exact rest

lemma ageRanges_of_vacant {num : Int} {fileSize : Nat} {s : Aging}
    (vacant : ∀ place, expires fileSize ranges place → Vacant s.table place) :
    ageRanges hasher vssHasher num fileSize ranges s = (s, none) := by
  induction ranges with
  | nil => rfl
  | cons range ranges ih =>
    have rest := ih fun place later => vacant place (expires_cons later)
    simp only [ageRanges]
    cases aged : agedBlocks fileSize range with
    | none => exact rest
    | some bounds =>
      obtain ⟨first, last⟩ := bounds
      have untouched : ageBlocks hasher vssHasher range.vbOID first last
          (List.range s.table.header.capacity) s = (s, none) := by
        refine ageBlocks_of_unaffected vssHasher fun i hi e he hit => ?_
        obtain ⟨k, key, rfl⟩ := Option.map_eq_some_iff.mp he
        have mem : (k, (s.table.slots i).data) ∈ s.table.entries :=
          mem_entries.mpr ⟨i, List.mem_range.mp hi, key, rfl⟩
        refine vacant (range.vbOID, (s.table.slots i).data.vbFBO) ?_ _ mem (by rw [hit.1])
        simp [expires, aged, hit.2]
      simp only [untouched]
      exact rest

section Request

variable {hasher : LBID → Ver → Nat} {b : VBBM}

/-- Right chains, and no undo record pending. -/
structure Settled (hasher : LBID → Ver → Nat) (b : VBBM) : Prop where
  sound : Sound hasher b.table
  undo : b.table.undo = []
  fileUndo : b.fileUndo = []

lemma Settled.undoChanges_eq (settled : Settled hasher b) : undoChanges b = b := by
  obtain ⟨-, undo, fileUndo⟩ := settled
  unfold Vbbm.undoChanges Vbbm.undoFiles
  rw [(Logged.refl b.table).undoChanges_eq undo]
  cases b
  cases fileUndo
  rfl

/-- The descriptor a request works on: that of the file, or of a new one. -/
def fileFor (b : VBBM) (currentFileSize vbOID : Nat) : VBFileMetadata :=
  (b.files.find? fun f => f.OID = vbOID).getD ⟨vbOID, currentFileSize, 0⟩

/-- The descriptors once the file is among them. -/
def filesWith (b : VBBM) (currentFileSize vbOID : Nat) : List VBFileMetadata :=
  if b.files.findIdx (fun f => f.OID = vbOID) = b.files.length then
    b.files ++ [⟨vbOID, currentFileSize, 0⟩]
  else b.files

lemma settled_growVBBM (settled : Settled hasher b) (addAFile : Bool) :
    Settled hasher (growVBBM hasher b addAFile) ∧
      (growVBBM hasher b addAFile).table.entries ≤ b.table.entries := by
  obtain ⟨sound, le⟩ := growVBBM_spec settled.sound addAFile
  exact ⟨⟨sound, (growVBBM_copied settled.sound addAFile).undo, rfl⟩, le⟩

lemma addVBFileIfNotExists_spec (settled : Settled hasher b) (currentFileSize vbOID : Nat) :
    let added := addVBFileIfNotExists hasher b currentFileSize vbOID
    Settled hasher added.1 ∧ added.1.table.entries ≤ b.table.entries ∧
      added.1.files = filesWith b currentFileSize vbOID ∧
      added.2 = b.files.findIdx (fun f => f.OID = vbOID) ∧ added.2 < added.1.files.length ∧
      added.1.files.getD added.2 ⟨0, 0, 0⟩ = fileFor b currentFileSize vbOID := by
  intro added
  by_cases absent : b.files.findIdx (fun f => f.OID = vbOID) = b.files.length
  · obtain ⟨grown, le⟩ := settled_growVBBM settled true
    have value : added = (setFile (growVBBM hasher b true) b.files.length
        ⟨vbOID, currentFileSize, 0⟩, b.files.length) := by
      simp [added, addVBFileIfNotExists, absent]
    have files : added.1.files = b.files ++ [⟨vbOID, currentFileSize, 0⟩] := by
      rw [value]
      simp [setFile, growVBBM]
    have missing : b.files.find? (fun f => f.OID = vbOID) = none := by
      rw [find?_eq_none]
      exact fun f hf => by simpa using findIdx_eq_length.mp absent f hf
    refine ⟨?_, ?_, ?_, ?_, ?_, ?_⟩
    · rw [value]
      exact ⟨grown.sound, grown.undo, grown.fileUndo⟩
    · rw [value]
      exact le
    · rw [files, filesWith, if_pos absent]
    · rw [value, absent]
    · rw [files, value]
      simp
    · rw [files, value, fileFor, missing]
      simp
  have value : added = (b, b.files.findIdx fun f => f.OID = vbOID) := by
    simp [added, addVBFileIfNotExists, absent]
  have inRange : b.files.findIdx (fun f => f.OID = vbOID) < b.files.length :=
    lt_of_le_of_ne findIdx_le_length absent
  refine ⟨value ▸ settled, value ▸ le_rfl, ?_, by rw [value], ?_, ?_⟩
  · rw [value, filesWith, if_neg absent]
  · rw [value]
    exact inRange
  have found : b.files.find? (fun f => f.OID = vbOID) =
      some b.files[b.files.findIdx fun f => f.OID = vbOID] := by
    refine find?_eq_some_iff_getElem.mpr ⟨findIdx_getElem (w := inRange), _, inRange, rfl, ?_⟩
    exact fun j hj => by simpa using not_of_lt_findIdx hj
  rw [value, fileFor, found]
  exact getD_eq_getElem _ _ inRange

lemma growFor_spec (num : Int) (n : Nat) (settled : Settled hasher b) :
    Settled hasher (growFor hasher num n b) ∧
      (growFor hasher num n b).table.entries ≤ b.table.entries ∧
      (growFor hasher num n b).files = b.files := by
  induction n generalizing b with
  | zero => exact ⟨settled, le_rfl, rfl⟩
  | succ n ih =>
    unfold growFor
    split
    · obtain ⟨grown, le⟩ := settled_growVBBM settled false
      obtain ⟨settled', le', files⟩ := ih grown
      exact ⟨settled', le'.trans le, files⟩
    · exact ⟨settled, le_rfl, rfl⟩

lemma growFor_of_room (hasher : LBID → Ver → Nat) (n : Nat)
    (room : b.table.header.currentSize + num ≤ b.table.header.capacity) :
    growFor hasher (num : Int) n b = b := by
  cases n with
  | zero => rfl
  | succ n => exact if_neg (by omega)

lemma gather_table {num : Int} {b' : VBBM} {ranges' : List VBRange}
    (done : gather fileIndex num n gathered b ranges = some (b', ranges')) :
    b'.table = b.table := by
  induction n generalizing gathered b ranges with
  | zero => simp [gather] at done
  | succ n ih =>
    unfold gather at done
    split at done
    · exact (ih done).trans rfl
    · obtain ⟨rfl, -⟩ : b = b' ∧ ranges = ranges' := by simpa using done
      rfl

lemma undoFiles_gather {num : Int} {b' : VBBM} {ranges' : List VBRange}
    (done : gather fileIndex num n gathered b ranges = some (b', ranges')) :
    undoFiles b' = undoFiles b := by
  induction n generalizing gathered b ranges with
  | zero => simp [gather] at done
  | succ n ih =>
    unfold gather at done
    split at done
    · rw [ih done]
      simp only [undoFiles, setFile, makeFileUndoRecord, foldl_cons, set_set]
      congr 1
      by_cases inRange : fileIndex < b.files.length
      · rw [getD_eq_getElem _ _ inRange, set_getElem_self]
      · exact set_eq_of_length_le (Nat.le_of_not_lt inRange)
    · obtain ⟨rfl, -⟩ : b = b' ∧ ranges = ranges' := by simpa using done
      rfl

lemma num_of_uint32_le {requested : Int} {count : Nat} (small : count < 2 ^ 31)
    (le : uint32 (int32 requested) ≤ count) : ∃ num : Nat, int32 requested = num ∧ num ≤ count := by
  have range : -2 ^ 31 ≤ int32 requested ∧ int32 requested < 2 ^ 31 := by
    unfold int32
    rw [Int.bmod_def]
    split <;> omega
  unfold uint32 at le
  exact ⟨(int32 requested).toNat, by omega, by omega⟩

variable (vssHasher : LBID → Nat)

/-- What a request does on a file whose block count fits `int`: it returns; when it throws, undoing
its changes gives the tables back up to entries lost in growing; when it succeeds, the ranges are
those of the ring and whatever they expire is gone. -/
lemma getBlocks_spec (v : VSS) (requested : Int) {currentFileSize : Nat}
    (settled : Settled hasher b) (unique : UniqueKeys b.table)
    (ok : FileOk (fileFor b currentFileSize vbOID)) : let file := fileFor b currentFileSize vbOID
    (∃ b' v' message, getBlocks hasher vssHasher b v currentFileSize requested vbOID =
          some (b', v', .overflow message) ∧
        Settled hasher (undoChanges b') ∧
        (undoChanges b').table.entries ≤ b.table.entries ∧
        (undoChanges b').files = filesWith b currentFileSize vbOID) ∨
      ∃ b' v' flushList, ∃ num : Nat, int32 requested = num ∧ num ≤ blockCount file ∧
        getBlocks hasher vssHasher b v currentFileSize requested vbOID = some (b', v',
          .granted (ringRanges file.OID (blockCount file) (position file) num) flushList) ∧
        Sound hasher b'.table ∧ b'.table.entries ≤ b.table.entries ∧
        b'.files = (filesWith b currentFileSize vbOID).set
          (b.files.findIdx fun f => f.OID = vbOID)
          { file with nextOffset := (position file + num) % blockCount file * blockSize } ∧
        ∀ place, expires file.fileSize
          (ringRanges file.OID (blockCount file) (position file) num) place →
          Vacant b'.table place := by
  intro file
  obtain ⟨settled₁, le₁, files₁, index, inRange, here⟩ :=
    addVBFileIfNotExists_spec settled currentFileSize vbOID
  set added := addVBFileIfNotExists hasher b currentFileSize vbOID with added_eq
  unfold getBlocks
  simp only [← added_eq, here]
  split
  case isTrue tooLarge =>
    refine .inl ⟨_, _, _, rfl, ?_⟩
    rw [settled₁.undoChanges_eq]
    exact ⟨settled₁, le₁, files₁⟩
  case isFalse fits =>
    obtain ⟨num, num_eq, num_le⟩ := num_of_uint32_le ok.small (Nat.le_of_not_lt fits)
    rw [num_eq]
    obtain ⟨settled₂, le₂, files₂⟩ := growFor_spec (num : Int)
      (added.1.table.header.currentSize + (num : Int).toNat) settled₁
    set grown := growFor hasher (num : Int)
      (added.1.table.header.currentSize + (num : Int).toNat) added.1
    obtain ⟨b₃, gathered, table₃, files₃⟩ := gather_spec three_le_gatherTurns
      (by rw [files₂]; exact inRange) (by rw [files₂, here]) ok num_le
    rw [gathered, Option.map_some]
    have unique₃ : UniqueKeys b₃.table := by
      rw [table₃]
      exact nodup_map_of_le _ unique (le₂.trans le₁)
    have sound₃ : Sound hasher b₃.table := table₃ ▸ settled₂.sound
    obtain ⟨aged, vacant⟩ := ageRanges_spec vssHasher (num : Int) file.fileSize
      (ringRanges file.OID (blockCount file) (position file) num) ⟨b₃.table, v, []⟩ sound₃ unique₃
    have le₃ : (ageRanges hasher vssHasher (num : Int) file.fileSize
        (ringRanges file.OID (blockCount file) (position file) num)
        ⟨b₃.table, v, []⟩).1.table.entries ≤ b.table.entries := by
      refine aged.entries_le.trans ?_
      rw [table₃]
      exact le₂.trans le₁
    cases result : ageRanges hasher vssHasher (num : Int) file.fileSize
        (ringRanges file.OID (blockCount file) (position file) num) ⟨b₃.table, v, []⟩ with
    | mk s message =>
      rw [result] at aged vacant le₃
      cases message with
      | some message =>
        have back : s.table.undoChanges = grown.table :=
          (table₃ ▸ aged.logged).undoChanges_eq settled₂.undo
        refine .inl ⟨_, _, _, rfl, ⟨?_, rfl, rfl⟩, ?_, ?_⟩
        · change Sound hasher s.table.undoChanges
          rw [back]
          exact settled₂.sound
        · change s.table.undoChanges.entries ≤ b.table.entries
          rw [back]
          exact le₂.trans le₁
        have kept := undoFiles_gather gathered
        rw [← files₁, ← files₂]
        refine kept.trans ?_
        simp [undoFiles, settled₂.fileUndo]
      | none =>
        refine .inr ⟨_, _, _, num, rfl, num_le, rfl, aged.sound, le₃, ?_, vacant rfl⟩
        rw [files₃, files₂, files₁, index]

/-- A request that finds its space vacant takes it from the ring and changes nothing else. -/
lemma getBlocks_of_vacant {added : VBBM} (v : VSS)
    {currentFileSize : Nat} (add : addVBFileIfNotExists hasher b currentFileSize vbOID = (added, i))
    (inRange : i < added.files.length) (here : added.files.getD i ⟨0, 0, 0⟩ = file)
    (ok : FileOk file) (le : num ≤ blockCount file)
    (room : added.table.header.currentSize + num ≤ added.table.header.capacity)
    (vacant : ∀ place, expires file.fileSize
      (ringRanges file.OID (blockCount file) (position file) num) place →
      Vacant added.table place) :
    ∃ b', getBlocks hasher vssHasher b v currentFileSize num vbOID = some (b', v,
        .granted (ringRanges file.OID (blockCount file) (position file) num) []) ∧
      b'.table = added.table ∧
      b'.files = added.files.set i
        { file with nextOffset := (position file + num) % blockCount file * blockSize } := by
  have small := ok.small
  have num_eq : int32 (num : Int) = num := int32_of_lt (by omega)
  have fits : ¬ file.fileSize / blockSize < uint32 (num : Int) := by
    rw [uint32_of_lt (by omega)]
    exact not_lt.mpr le
  have enough := fun n => growFor_of_room hasher n room
  obtain ⟨b', gathered, table, files⟩ := gather_spec three_le_gatherTurns inRange here ok le
  refine ⟨b', ?_, table, files⟩
  simp only [getBlocks, add, here, num_eq, if_neg fits, enough, gathered, Option.map_some]
  rw [ageRanges_of_vacant vssHasher (table ▸ vacant)]

end Request

end VersionBufferSpace
