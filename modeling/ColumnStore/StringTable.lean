import ColumnStore.ByteBuffers
import ColumnStore.ByteReaders
import ColumnStore.Runs

/-!
# The string table of a row group

Model of `StringStore` of `utils/rowgroup/rowgroup.cpp` and `rowgroup.h`. A string is stored with
its length in front of it, in the last of a list of chunks of 64 KiB, or, if it does not fit into
one, as a chunk of its own in the list of long strings. Its offset is the place in the chunks, or
the number in the list of long strings with the highest bit set.

A chunk is the list of its bytes in use. The mutex is left out. An offset that was never handed
out may be read past the bytes in use; what is read then is cut at their end here.
-/

namespace StringTable

open ByteStrings ByteReaders ByteBuffers List Nat Option
open BitVec (ofNat toNat_ofNat)

def chunkSize : Nat := 64 * 1024

/-- The offset of NULL. -/
def nullOffset : Nat := 2 ^ 64 - 1

/-- The bit that marks the offset of a long string. -/
def longMark : Nat := 2 ^ 63

structure MemChunk where
  data : List Byte
  capacity : Nat
  deriving DecidableEq, Repr

def MemChunk.currentSize (chunk : MemChunk) : Nat := chunk.data.length

structure StringStore where
  mem : List MemChunk
  longStrings : List MemChunk
  empty : Bool
  deriving DecidableEq, Repr

/-- `ByteStream`: the buffer, and the long strings that travel beside it. -/
structure ByteStream where
  buffer : List Byte
  longStrings : List MemChunk

/-- The constructor from a buffer. -/
def ByteStream.ofBuffer (buffer : List Byte) : ByteStream := ⟨buffer, []⟩

/-- A string with its length in front of it. -/
def record (data : List Byte) : List Byte := bytes 4 (BitVec.ofNat 32 data.length) ++ data

namespace StringStore

/-- A store without strings. -/
def new : StringStore := ⟨[], [], true⟩

/-- The chunks with room for `len` bytes in the last of them. -/
def chunksFor (s : StringStore) (len : Nat) : List MemChunk :=
  match s.mem.getLast? with
  | none => [⟨[], chunkSize⟩]
  | some lastMC =>
    if lastMC.capacity - lastMC.currentSize < len then s.mem ++ [⟨[], chunkSize⟩] else s.mem

/-- `storeString`: the offset and the store. There is no result where `len + 4` wraps around and
the string is copied past the end of a chunk, where the long strings would be more than an address
space holds, and where the memory is exceeded. -/
def storeString (s : StringStore) : Option (List Byte) → Option (Nat × StringStore)
  | none => some (nullOffset, { s with empty := false })
  | some data =>
    if 2 ^ 32 ≤ data.length + 4 then none
    else if chunkSize ≤ data.length + 4 then
      if longMark - 1 ≤ s.longStrings.length then none
      else
        some (longMark + s.longStrings.length,
          { s with
            longStrings := s.longStrings ++ [⟨record data, data.length + 4⟩]
            empty := false })
    else
      let mem := s.chunksFor (data.length + 4)
      match mem.getLast? with
      | none => none
      | some lastMC =>
        let ret := (mem.length - 1) * chunkSize + lastMC.currentSize
        if longMark ≤ ret then none
        else
          some (ret,
            { s with
              mem := mem.dropLast ++ [{ lastMC with data := lastMC.data ++ record data }]
              empty := false })

/-- The chunk and the place in it that an offset stands for. -/
def locate (s : StringStore) (off : Nat) : Option (MemChunk × Nat) :=
  if off = nullOffset then none
  else if longMark ≤ off then s.longStrings[off - longMark]?.map (·, 0)
  else s.mem[off / chunkSize]?.map (·, off % chunkSize)

/-- The length in front of a string. -/
def lengthAt (chunk : MemChunk) (offset : Nat) : Nat := littleEndian (slice chunk.data offset 4)

/-- `getPointer`: the bytes from the pointer on. -/
def getPointer (s : StringStore) (off : Nat) : Option (List Byte) :=
  match s.locate off with
  | none => none
  | some (chunk, offset) =>
    if off < longMark ∧ chunk.currentSize < offset then none
    else some (chunk.data.drop (offset + 4))

def getStringLength (s : StringStore) (off : Nat) : Nat :=
  match s.locate off with
  | none => 0
  | some (chunk, offset) => lengthAt chunk offset

def getConstString (s : StringStore) (off : Nat) : Option (List Byte) :=
  (s.getPointer off).map (·.take (s.getStringLength off))

def getString (s : StringStore) (off : Nat) : Option (List Byte) :=
  match s.locate off with
  | none => none
  | some (chunk, offset) =>
    let length := lengthAt chunk offset
    if off < longMark ∧ chunk.currentSize < offset + length then none
    else some (slice chunk.data (offset + 4) length)

/-- A chunk in the buffer. -/
def chunkBytes (chunk : MemChunk) : List Byte :=
  bytes 8 (BitVec.ofNat 64 chunk.currentSize) ++ chunk.data

def serialize (s : StringStore) : ByteStream :=
  ⟨bytes 8 (BitVec.ofNat 64 s.mem.length) ++ bytes 1 (BitVec.ofBool s.empty) ++
      s.mem.flatMap chunkBytes, s.longStrings⟩

def readChunk : Reader MemChunk := do
  let size ← word 8
  let data ← raw size.toNat
  return ⟨data, size.toNat⟩

/-- `deserialize`; the long strings are those of the stream. -/
def deserialize (longStrings : List MemChunk) : Reader StringStore := do
  let count ← word 8
  let tmp8 ← word 1
  let mem ← items readChunk count.toNat
  return ⟨mem, longStrings, tmp8 != 0⟩

section Held

variable {s t : StringStore} {off ret : Nat} {value data : Option (List Byte)}

/-- The chunks are those that `storeString` makes. -/
structure WellFormed (s : StringStore) : Prop where
  within : ∀ chunk ∈ s.mem, chunk.currentSize ≤ chunk.capacity
  bounded : ∀ chunk ∈ s.mem, chunk.capacity ≤ chunkSize
  few : s.mem.length ≤ longMark

/-- The store holds a value under an offset. -/
inductive Stored (s : StringStore) : Nat → Option (List Byte) → Prop where
  | null : Stored s nullOffset none
  | long {i : Nat} {chunk : MemChunk} {v : List Byte} (found : s.longStrings[i]? = some chunk)
      (whole : chunk.data = record v) (index : i < longMark - 1) (small : v.length < 2 ^ 32) :
      Stored s (longMark + i) (some v)
  | short {c pos : Nat} {chunk : MemChunk} {v : List Byte} (found : s.mem[c]? = some chunk)
      (part : slice chunk.data pos (4 + v.length) = record v)
      (room : pos + (4 + v.length) ≤ chunk.currentSize) (inside : pos < chunkSize)
      (below : c * chunkSize + pos < longMark) (small : v.length < 2 ^ 32) :
      Stored s (c * chunkSize + pos) (some v)

lemma length_record (v : List Byte) : (record v).length = 4 + v.length := by
  rw [record, length_append, length_bytes]

lemma littleEndian_length {v : List Byte} (small : v.length < 2 ^ 32) :
    littleEndian (bytes 4 (ofNat 32 v.length)) = v.length := by
  rw [littleEndian_bytes, toNat_ofNat, mod_eq_of_lt small, mod_eq_of_lt small]

lemma parts_of_record {chunk : List Byte} {pos : Nat} {v : List Byte}
    (part : slice chunk pos (4 + v.length) = record v) :
    slice chunk pos 4 = bytes 4 (ofNat 32 v.length) ∧ slice chunk (pos + 4) v.length = v := by
  have long : (slice chunk pos 4).length = 4 := by
    have all := congrArg length part
    rw [length_record, slice, length_take] at all
    rw [slice, length_take]
    omega
  rw [slice_add] at part
  exact append_inj part (long.trans (length_bytes _ _).symm)

lemma locate_long {i : Nat} (index : i < longMark - 1) :
    s.locate (longMark + i) = s.longStrings[i]?.map (·, 0) := by
  have notNull : longMark + i ≠ nullOffset := by
    unfold longMark nullOffset at *
    omega
  rw [locate, if_neg notNull, if_pos (Nat.le_add_right _ _), Nat.add_sub_cancel_left]

lemma locate_short {c pos : Nat} (inside : pos < chunkSize)
    (below : c * chunkSize + pos < longMark) :
    s.locate (c * chunkSize + pos) = s.mem[c]?.map (·, pos) := by
  have notNull : c * chunkSize + pos ≠ nullOffset := by
    unfold longMark nullOffset at *
    omega
  have quotient : (c * chunkSize + pos) / chunkSize = c := by
    rw [Nat.mul_comm, Nat.mul_add_div (by decide), Nat.div_eq_of_lt inside, Nat.add_zero]
  have remainder : (c * chunkSize + pos) % chunkSize = pos := by
    rw [Nat.mul_comm, Nat.mul_add_mod, Nat.mod_eq_of_lt inside]
  rw [locate, if_neg notNull, if_neg (by omega), quotient, remainder]

lemma locate_null : s.locate nullOffset = none := by
  rw [locate, if_pos rfl]

lemma Stored.lt (stored : s.Stored off value) : off < 2 ^ 64 := by
  cases stored with
  | null => decide
  | long found whole index small =>
    unfold longMark at *
    omega
  | short found part room inside below small =>
    unfold longMark at below
    omega

/-- A string that is not NULL has its length in front of it, and lies in the used part. -/
lemma Stored.located {v : List Byte} (stored : s.Stored off (some v)) :
    ∃ chunk pos, s.locate off = some (chunk, pos) ∧ lengthAt chunk pos = v.length ∧
      slice chunk.data (pos + 4) v.length = v ∧
      ¬(off < longMark ∧ chunk.currentSize < pos + v.length) := by
  cases stored with
  | @long i chunk _ found whole index small =>
    have part : slice chunk.data 0 (4 + v.length) = record v := by
      rw [whole, slice, drop_zero, take_of_length_le (length_record v).le]
    have parts := parts_of_record part
    refine ⟨chunk, 0, by rw [locate_long index, found]; rfl, ?_, parts.2, by omega⟩
    rw [lengthAt, parts.1, littleEndian_length small]
  | @short c pos chunk _ found part room inside below small =>
    have parts := parts_of_record part
    refine ⟨chunk, pos, by rw [locate_short inside below, found]; rfl, ?_, parts.2, by omega⟩
    rw [lengthAt, parts.1, littleEndian_length small]

lemma Stored.getString (stored : s.Stored off value) : s.getString off = value := by
  cases value with
  | none =>
    cases stored
    rw [StringStore.getString, locate_null]
  | some v =>
    obtain ⟨chunk, pos, located, length, string, inUse⟩ := stored.located
    simp only [StringStore.getString, located, length, if_neg inUse, string]

lemma Stored.getConstString (stored : s.Stored off value) : s.getConstString off = value := by
  cases value with
  | none =>
    cases stored
    rw [StringStore.getConstString, getPointer, locate_null, map_none]
  | some v =>
    obtain ⟨chunk, pos, located, length, string, inUse⟩ := stored.located
    have notPast : ¬(off < longMark ∧ chunk.currentSize < pos) := by omega
    simp only [StringStore.getConstString, getStringLength, getPointer, located, length, if_neg
      notPast]
    exact congrArg some string

lemma wellFormed_new : new.WellFormed := ⟨nofun, nofun, zero_le _⟩

lemma chunksFor_spec (wf : s.WellFormed) (len : Nat) (fits : len ≤ chunkSize) :
    ∃ front lastMC, s.chunksFor len = front ++ [lastMC] ∧ s.mem <+: front ++ [lastMC] ∧
      lastMC.currentSize + len ≤ lastMC.capacity ∧
      ∀ chunk ∈ front ++ [lastMC], chunk.currentSize ≤ chunk.capacity ∧
        chunk.capacity ≤ chunkSize := by
  have old : ∀ chunk ∈ s.mem, chunk.currentSize ≤ chunk.capacity ∧ chunk.capacity ≤ chunkSize :=
    fun chunk member => ⟨wf.within chunk member, wf.bounded chunk member⟩
  have extended : ∀ chunk ∈ s.mem ++ [⟨[], chunkSize⟩],
      chunk.currentSize ≤ chunk.capacity ∧ chunk.capacity ≤ chunkSize :=
    forall_mem_append.mpr
      ⟨old, forall_mem_singleton.mpr ⟨zero_le _, le_refl _⟩⟩
  unfold chunksFor
  cases last : s.mem.getLast? with
  | none =>
    have nothing : s.mem = [] := getLast?_eq_none_iff.mp last
    rw [nothing] at extended
    exact ⟨[], ⟨[], chunkSize⟩, rfl, nothing ▸ nil_prefix, (Nat.zero_add len).symm ▸ fits, extended⟩
  | some lastMC =>
    obtain ⟨front, split⟩ := getLast?_eq_some_iff.mp last
    by_cases full : lastMC.capacity - lastMC.currentSize < len
    · exact ⟨s.mem, ⟨[], chunkSize⟩, if_pos full, prefix_append _ _,
        (Nat.zero_add len).symm ▸ fits, extended⟩
    have member : lastMC ∈ s.mem := split ▸ mem_append_right front mem_cons_self
    have sizes := old lastMC member
    exact ⟨front, lastMC, (if_neg full).trans split, split ▸ prefix_rfl, by omega,
      split ▸ old⟩

/-- What is held does not depend on the strings stored after it. -/
lemma Stored.grow (stored : s.Stored off value) (long : s.longStrings <+: t.longStrings)
    (chunks : ∀ (c : Nat) (chunk : MemChunk), s.mem[c]? = some chunk →
      ∃ chunk' : MemChunk, t.mem[c]? = some chunk' ∧ chunk.data <+: chunk'.data) :
    t.Stored off value := by
  cases stored with
  | null => exact .null
  | long found whole index small =>
    obtain ⟨more, split⟩ := long
    have within := (List.getElem?_eq_some_iff.mp found).1
    refine .long ?_ whole index small
    rw [← split, getElem?_append_left within, found]
  | @short c pos chunk v found part room inside below small =>
    obtain ⟨chunk', found', more, split⟩ := chunks c chunk found
    refine .short found' ?_ ?_ inside below small
    · rw [← split, slice_append room, part]
    · rw [MemChunk.currentSize, ← split, length_append]
      exact le_add_right_of_le room

/-- `storeString` keeps what the store holds and adds the string under the offset it returns. -/
lemma storeString_spec (wf : s.WellFormed) (done : s.storeString data = some (ret, t)) :
    t.WellFormed ∧ t.Stored ret data ∧ ∀ off value, s.Stored off value → t.Stored off value := by
  unfold storeString at done
  cases data with
  | none =>
    cases done
    exact ⟨⟨wf.within, wf.bounded, wf.few⟩, .null, fun off value stored =>
      stored.grow prefix_rfl fun c chunk found => ⟨chunk, found, prefix_rfl⟩⟩
  | some data =>
    simp only [ite_none_left_eq_some] at done
    obtain ⟨small, done⟩ := done
    split at done
    case isTrue =>
      obtain ⟨room, done⟩ := ite_none_left_eq_some.mp done
      cases done
      refine ⟨⟨wf.within, wf.bounded, wf.few⟩, ?_, ?_⟩
      · exact .long (getElem?_concat_length ..) rfl (by omega) (by omega)
      · exact fun off value stored => stored.grow (prefix_append _ _)
          fun c chunk found => ⟨chunk, found, prefix_rfl⟩
    case isFalse short =>
      obtain ⟨front, lastMC, chunks, before, room, sizes⟩ :=
        chunksFor_spec wf (data.length + 4) (by omega)
      rw [chunks, getLast?_concat] at done
      obtain ⟨below, done⟩ := ite_none_left_eq_some.mp done
      cases done
      simp only [dropLast_concat, length_append, length_singleton,
        Nat.add_sub_cancel, Nat.not_le] at below ⊢
      refine ⟨⟨?_, ?_, ?_⟩, ?_, fun off value stored => stored.grow prefix_rfl ?_⟩
      · refine forall_mem_append.mpr ⟨fun chunk member => (sizes chunk (by simp [member])).1,
          forall_mem_singleton.mpr ?_⟩
        rw [MemChunk.currentSize, length_append, length_record, Nat.add_comm 4]
        exact room
      · exact forall_mem_append.mpr ⟨fun chunk member => (sizes chunk (by simp [member])).2,
          forall_mem_singleton.mpr (sizes lastMC (by simp)).2⟩
      · rw [length_append, length_singleton]
        have : front.length ≤ front.length * chunkSize := Nat.le_mul_of_pos_right _ (by decide)
        omega
      · have inside : lastMC.currentSize < chunkSize := by
          have := (sizes lastMC (by simp)).2
          omega
        refine .short (getElem?_concat_length ..) ?_ ?_ inside below (by omega)
        · rw [MemChunk.currentSize, slice, drop_left' rfl,
            take_of_length_le (length_record data).le]
        · simp only [MemChunk.currentSize, length_append, length_record]
          omega
      intro c chunk found
      have kept : (front ++ [lastMC])[c]? = some chunk := by
        obtain ⟨more, split⟩ := before
        rw [← split, List.getElem?_append_left (List.getElem?_eq_some_iff.mp found).1, found]
      by_cases earlier : c < front.length
      · rw [getElem?_append_left earlier] at kept ⊢
        exact ⟨chunk, kept, prefix_rfl⟩
      have atEnd : c = front.length := by
        have := (List.getElem?_eq_some_iff.mp kept).1
        rw [length_append, length_singleton] at this
        omega
      subst atEnd
      rw [getElem?_concat_length, some_inj] at kept
      subst kept
      exact ⟨_, getElem?_concat_length .., prefix_append _ _⟩

/-- The store that is read back from a buffer. -/
def reloaded (s : StringStore) (longStrings : List MemChunk) : StringStore :=
  ⟨s.mem.map fun chunk => ⟨chunk.data, chunk.currentSize⟩, longStrings, s.empty⟩

lemma reads_chunk {chunk : MemChunk} (small : chunk.currentSize < 2 ^ 64) :
    Reads readChunk (chunkBytes chunk) ⟨chunk.data, chunk.currentSize⟩ := by
  have size : (ofNat (8 * 8) chunk.currentSize).toNat = chunk.currentSize := by
    rw [toNat_ofNat, mod_eq_of_lt small]
  refine (Reads.whole 8 _).bind ?_
  rw [size]
  exact (Reads.raw rfl).map

lemma reads_serialize (wf : s.WellFormed) (longStrings : List MemChunk) :
    Reads (deserialize longStrings) s.serialize.buffer (s.reloaded longStrings) := by
  have chunks : Reads (items readChunk s.mem.length) (s.mem.flatMap chunkBytes)
      (s.mem.map fun chunk => ⟨chunk.data, chunk.currentSize⟩) := by
    refine Reads.items_map s.mem fun chunk member => reads_chunk ?_
    have within := wf.within chunk member
    have bounded := wf.bounded chunk member
    unfold chunkSize at bounded
    omega
  have number : (ofNat (8 * 8) s.mem.length).toNat = s.mem.length := by
    rw [toNat_ofNat, mod_eq_of_lt (lt_of_le_of_lt wf.few (by decide))]
  have flag : ((BitVec.ofBool s.empty).setWidth (8 * 1) != 0) = s.empty := by
    cases s.empty <;> decide
  refine (Reads.whole 8 _).bind ((Reads.word 1 _).bind ?_)
  rw [number, flag]
  exact chunks.map

lemma WellFormed.reloaded (wf : s.WellFormed) (longStrings : List MemChunk) :
    (s.reloaded longStrings).WellFormed := by
  constructor
  · intro chunk member
    obtain ⟨old, _, rfl⟩ := mem_map.mp member
    exact le_refl _
  · intro chunk member
    obtain ⟨old, inMem, rfl⟩ := mem_map.mp member
    exact (wf.within old inMem).trans (wf.bounded old inMem)
  · rw [StringStore.reloaded, length_map]
    exact wf.few

/-- A store is read back whole if its long strings are. -/
lemma Stored.reloaded (stored : s.Stored off value) {longStrings : List MemChunk}
    (long : s.longStrings <+: longStrings) : (s.reloaded longStrings).Stored off value := by
  refine stored.grow long fun c chunk found => ⟨⟨chunk.data, chunk.currentSize⟩, ?_, prefix_rfl⟩
  rw [StringStore.reloaded, getElem?_map, found, map_some]

end Held

/-- A string is stored, or the table is sent and read again. -/
inductive Event where
  | storeString (data : Option (List Byte))
  | send

/-- A table, and the strings stored with the offsets returned. -/
abbrev Session := StringStore × List (Nat × Option (List Byte))

def step (s : Session) : Event → Option Session
  | .storeString data => (s.1.storeString data).map fun (ret, t) => (t, (ret, data) :: s.2)
  | .send => (deserialize s.1.serialize.longStrings s.1.serialize.buffer).map fun (t, _) => (t, s.2)

lemma step_send {s : Session} (wf : s.1.WellFormed) :
    step s .send = some (s.1.reloaded s.1.longStrings, s.2) := by
  have read := reads_serialize wf s.1.longStrings []
  rw [append_nil] at read
  rw [step, show deserialize s.1.serialize.longStrings _ = _ from read]
  rfl

end StringStore

end StringTable
