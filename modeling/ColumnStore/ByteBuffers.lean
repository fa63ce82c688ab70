import Mathlib.Data.BitVec

/-!
# Ranges of a buffer

A buffer is the list of its elements. `slice` reads a range and `splice` overwrites one; a write
is read back, and a range apart from it is not touched. Nothing is claimed about a write past the
end of the buffer.
-/

namespace ByteBuffers

open List

variable {α : Type*}

/-- The `n` elements from position `pos` on. -/
def slice (buffer : List α) (pos n : Nat) : List α := (buffer.drop pos).take n

/-- The buffer with the elements from position `pos` on replaced. -/
def splice (buffer : List α) (pos : Nat) (new : List α) : List α :=
  buffer.take pos ++ new ++ buffer.drop (pos + new.length)

variable {buffer new rest : List α} {pos place n m : Nat}

lemma getElem?_slice (i : Nat) :
    (slice buffer pos n)[i]? = if i < n then buffer[pos + i]? else none := by
  rw [slice, getElem?_take, getElem?_drop]

lemma length_slice (room : pos + n ≤ buffer.length) : (slice buffer pos n).length = n := by
  rw [slice, length_take, length_drop]
  omega

section

variable (room : pos + new.length ≤ buffer.length)
include room

lemma length_splice : (splice buffer pos new).length = buffer.length := by
  simp only [splice, length_append, length_take, length_drop]
  omega

lemma getElem?_splice (i : Nat) :
    (splice buffer pos new)[i]? =
      if pos ≤ i ∧ i < pos + new.length then new[i - pos]? else buffer[i]? := by
  have before : (buffer.take pos).length = pos := by
    rw [length_take]
    omega
  rw [splice, append_assoc, getElem?_append, before]
  by_cases left : i < pos
  · rw [if_pos left, getElem?_take_of_lt left, if_neg (by omega)]
  rw [if_neg left, getElem?_append]
  by_cases inside : i < pos + new.length
  · rw [if_pos (by omega), if_pos ⟨by omega, inside⟩]
  · rw [if_neg (by omega), if_neg (by omega), getElem?_drop]
    congr 1
    omega

lemma slice_splice : slice (splice buffer pos new) pos new.length = new := by
  refine ext_getElem? fun i => ?_
  rw [getElem?_slice, getElem?_splice room]
  by_cases inside : i < new.length
  · rw [if_pos inside, if_pos (by omega), Nat.add_sub_cancel_left]
  · rw [if_neg inside, getElem?_eq_none (by omega)]

lemma slice_splice_of_apart (apart : place + n ≤ pos ∨ pos + new.length ≤ place) :
    slice (splice buffer pos new) place n = slice buffer place n := by
  refine ext_getElem? fun i => ?_
  rw [getElem?_slice, getElem?_slice, getElem?_splice room]
  by_cases inside : i < n
  · rw [if_pos inside, if_pos inside, if_neg (by omega)]
  · rw [if_neg inside, if_neg inside]

end

lemma slice_append (room : pos + n ≤ buffer.length) :
    slice (buffer ++ rest) pos n = slice buffer pos n := by
  rw [slice, slice, drop_append_of_le_length (by omega),
    take_append_of_le_length (by rw [length_drop]; omega)]

lemma slice_take (room : pos + n ≤ m) : slice (buffer.take m) pos n = slice buffer pos n := by
  rw [slice, slice, drop_take, take_take, Nat.min_eq_left (by omega)]

lemma slice_add : slice buffer pos (n + m) = slice buffer pos n ++ slice buffer (pos + n) m := by
  rw [slice, slice, slice, take_add, drop_drop]

end ByteBuffers
