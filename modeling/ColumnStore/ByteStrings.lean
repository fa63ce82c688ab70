import Mathlib.Data.BitVec
import Mathlib.Data.List.DropRight

/-!
# Short byte strings held in machine words

A word of `n` bytes doubles as a string of at most `n` bytes padded with zeros.
Comparing two such words most significant byte first is comparing the two
strings, once the padding is trimmed, in dictionary order.
-/

namespace ByteStrings

open List Nat

abbrev Byte := BitVec 8

/-- The first `n` bytes at the address of a little-endian word. -/
def bytes {w : Nat} (n : Nat) (v : BitVec w) : List Byte :=
  (List.range n).map fun i => v.extractLsb' (8 * i) 8

/-- Drop the zero bytes at the end. -/
def rtrimZero (s : List Byte) : List Byte :=
  s.rdropWhile (· == 0#8)

/-- A byte string read as a number, first byte leading. -/
def bigEndian : List Byte → Nat
  | [] => 0
  | b :: s => b.toNat * 256 ^ s.length + bigEndian s

@[simp] lemma length_bytes {w : Nat} (n : Nat) (v : BitVec w) : (bytes n v).length = n := by
  simp [bytes]

lemma rtrimZero_cons (b : Byte) (s : List Byte) :
    rtrimZero (b :: s) = if b = 0#8 ∧ rtrimZero s = [] then [] else b :: rtrimZero s := by
  unfold rtrimZero rdropWhile
  rw [reverse_cons, dropWhile_append]
  generalize s.reverse.dropWhile (· == 0#8) = kept
  cases kept with
  | nil => by_cases zero : b = 0#8 <;> simp [zero]
  | cons k kept => simp

variable (s : List Byte)

lemma rtrimZero_append_zeros (n : Nat) :
    rtrimZero (s ++ replicate n 0#8) = rtrimZero s := by
  induction s with
  | nil =>
    induction n with
    | zero => rfl
    | succ n ih =>
      simp [rtrimZero]
  | cons b s ih => rw [cons_append, rtrimZero_cons, rtrimZero_cons, ih]

lemma bigEndian_lt : bigEndian s < 256 ^ s.length := by
  induction s with
  | nil => simp [bigEndian]
  | cons b s ih =>
    have small : b.toNat ≤ 255 := by have := b.isLt; omega
    have scaled : b.toNat * 256 ^ s.length ≤ 255 * 256 ^ s.length := mul_le_mul_right _ small
    simp only [bigEndian, length_cons]
    omega

lemma bigEndian_eq_zero_iff : bigEndian s = 0 ↔ rtrimZero s = [] := by
  induction s with
  | nil => simp [bigEndian, rtrimZero]
  | cons b s ih =>
    have power : 256 ^ s.length ≠ 0 := Nat.pos_iff_ne_zero.mp (Nat.pow_pos (by omega))
    rw [rtrimZero_cons, bigEndian]
    by_cases zero : b = 0#8
    · simp [zero, ih]
    have nonzero : b.toNat ≠ 0 := by
      intro h
      exact zero (BitVec.eq_of_toNat_eq (by simpa using h))
    have product : b.toNat * 256 ^ s.length ≠ 0 := Nat.mul_ne_zero nonzero power
    simp [zero, product]

lemma bigEndian_cons_lt_cons {b c : Byte} {s t : List Byte} (same : s.length = t.length) :
    bigEndian (b :: s) < bigEndian (c :: t) ↔
      b < c ∨ b = c ∧ bigEndian s < bigEndian t := by
  have boundS := bigEndian_lt s
  have boundT := bigEndian_lt t
  simp only [bigEndian, same] at boundS ⊢
  rw [BitVec.lt_def]
  rcases lt_trichotomy b.toNat c.toNat with less | equal | greater
  · have := mul_le_mul_right (256 ^ t.length) (succ_le_of_lt less)
    rw [succ_mul] at this
    exact ⟨fun _ => .inl less, fun _ => by omega⟩
  · have : b = c := BitVec.eq_of_toNat_eq equal
    subst this
    simp
  have := mul_le_mul_right (256 ^ t.length) (succ_le_of_lt greater)
  rw [succ_mul] at this
  constructor
  · omega
  · rintro (h | ⟨rfl, -⟩)
    · omega
    · omega

/-- Byte-wise order of padded words is dictionary order of the trimmed strings. -/
lemma bigEndian_lt_iff_rtrimZero_lt {s t : List Byte} (same : s.length = t.length) :
    bigEndian s < bigEndian t ↔ rtrimZero s < rtrimZero t := by
  induction s generalizing t with
  | nil =>
    have : t = [] := eq_nil_of_length_eq_zero same.symm
    subst this
    simp [rtrimZero]
  | cons b s ih =>
    cases t with
    | nil => simp at same
    | cons c t =>
      have tails : s.length = t.length := by simpa using same
      by_cases left : rtrimZero (b :: s) = []
      · rw [left, (bigEndian_eq_zero_iff _).mpr left, Nat.pos_iff_ne_zero, ne_eq,
          bigEndian_eq_zero_iff]
        cases rtrimZero (c :: t) <;> simp
      by_cases right : rtrimZero (c :: t) = []
      · rw [right, (bigEndian_eq_zero_iff _).mpr right]
        simp
      rw [rtrimZero_cons] at left right ⊢
      rw [rtrimZero_cons c t, bigEndian_cons_lt_cons tails, ih tails]
      rw [if_neg (by intro h; simp [h] at left), if_neg (by intro h; simp [h] at right)]
      exact cons_lt_cons_iff.symm

lemma rtrimZero_bytes_setWidth {n m : Nat} (v : BitVec (8 * n)) (wider : n ≤ m) :
    rtrimZero (bytes m (v.setWidth (8 * m))) = rtrimZero (bytes n v) := by
  obtain ⟨k, rfl⟩ := Nat.exists_eq_add_of_le wider
  have split : bytes (n + k) (v.setWidth (8 * (n + k))) = bytes n v ++ replicate k 0#8 := by
    apply ext_getElem
    · simp
    intro i small _
    by_cases inside : i < n
    · rw [getElem_append_left (by simpa using inside)]
      apply BitVec.eq_of_getLsbD_eq
      intro j hj
      have bound : 8 * i + j < 8 * (n + k) := by omega
      simp [bytes, bound]
    rw [getElem_append_right (by simpa using inside)]
    apply BitVec.eq_of_getLsbD_eq
    intro j hj
    have beyond : 8 * n ≤ 8 * i + j := by omega
    simp [bytes, beyond]
  rw [split, rtrimZero_append_zeros]

end ByteStrings
