import ColumnStore.RowAggStorage

/-!
# Keys with one hash

If all keys have the hash 0, the entries of a table lie in the first slots in the order of their
insertion, and the info bytes are the multiples of `fInfoInc`. The increment is halved whenever
the bytes are used up, and 127 entries use up the smallest one. A rehash then restores the same
bytes, and the entry that is inserted next is lost: its info does not fit into a byte and is
stored as zero.
-/

namespace RowAggStorage

open ByteBuffers List Nat

/-- Keys that all have one hash. -/
abbrev allSame : Keys where
  Key := Nat
  equals k l := k == l
  hash _ := 0
  refl _ := beq_self_eq_true _
  symm _ _ same := beq_iff_eq.mpr (beq_iff_eq.mp same).symm
  trans _ _ _ first second :=
    beq_iff_eq.mpr ((beq_iff_eq.mp first).trans (beq_iff_eq.mp second))
  hash_eq _ _ _ := rfl

namespace Data

/-- The info bytes of the slots with entries in the first `n` slots. -/
def infos (inc n : Nat) : List Nat :=
  (range n).map (fun i => inc * (i + 1)) ++ replicate (767 - n) 0

lemma length_infos {inc n : Nat} (within : n < 767) : (infos inc n).length = 767 := by
  simp only [infos, length_append, length_map, length_range, length_replicate]
  omega

/-- A table with entries in the first `n` slots and the increment halved `shift` times. -/
def collided (hashMultiplier : BitVec 64) (shift n fSize : Nat) (free : List RowPosHash) :
    Data where
  fHashes := (range n).map (⟨0, ·⟩) ++ free
  fInfo := infos (32 >>> shift) n ++ 1 :: replicate 7 0
  fSize := fSize
  fMask := 511
  fMaxSize := if 32 >>> shift * (n + 1) > 255 then 0 else 409
  hashMultiplier := hashMultiplier
  fInfoInc := 32 >>> shift
  fInfoHashShift := shift

/-- How often the increment is halved for `n` entries. -/
def halvings (n : Nat) : Nat := (n / 4).log2

/-- With up to 127 entries there is an increment for which the infos fit. -/
lemma halvings_fit : ∀ n < 127, 32 >>> halvings (n + 1) * (n + 1) ≤ 255 ∧
    0 < 32 >>> halvings (n + 1) ∧
    if 32 >>> halvings n * (n + 1) > 255 then
      halvings (n + 1) = halvings n + 1 ∧ halvings n < 4
    else halvings (n + 1) = halvings n := by
  decide

variable {m : BitVec 64} {shift n size : Nat} {free : List RowPosHash}

lemma collided_rowHashToIdx :
    (collided m shift n size free).rowHashToIdx 0 = (32 >>> shift, 0) := by
  simp [rowHashToIdx, mix, collided]

lemma collided_fInfoInc : (collided m shift n size free).fInfoInc = 32 >>> shift := rfl

/-- The slot behind the entries is empty. -/
lemma collided_fInfo (within : n < 767) :
    (collided m shift n size free).fInfo = (range n).map (fun i => 32 >>> shift * (i + 1)) ++
      0 :: (replicate (766 - n) 0 ++ 1 :: replicate 7 0) := by
  rw [collided, infos, show 767 - n = 766 - n + 1 by omega, replicate_succ, append_assoc,
    cons_append]

section Loops

variable {inc i k : Nat} {rest : List Nat} (positive : 0 < inc) (last : i + k = n)
include positive last

lemma nextWhileLessOrEqual_filled :
    nextWhileLessOrEqual inc (inc * (i + 1)) i
      ((range' i k).map (fun i => inc * (i + 1)) ++ 0 :: rest) = .ok (inc * (n + 1), n) := by
  induction k generalizing i with
  | zero =>
    obtain rfl : i = n := last
    exact if_neg (not_le.mpr (mul_pos positive (succ_pos i)))
  | succ k later =>
    rw [range'_succ, map_cons, cons_append, nextWhileLessOrEqual, if_pos (le_refl _)]
    exact later (by omega)

lemma whileEqual_filled {check : Nat → Except Fault (Option Nat)}
    (misses : ∀ j < n, check j = .ok none) :
    whileEqual inc check (inc * (i + 1)) i
      ((range' i k).map (fun i => inc * (i + 1)) ++ 0 :: rest) =
        .ok (.inr (inc * (n + 1), n)) := by
  induction k generalizing i with
  | zero =>
    obtain rfl : i = n := last
    exact if_neg (mul_ne_zero positive.ne' (succ_ne_zero i))
  | succ k later =>
    rw [range'_succ, map_cons, cons_append, whileEqual, if_pos rfl, misses i (by omega)]
    exact later (by omega)

end Loops

lemma collided_nextWhileLess (within : n < 767) :
    nextWhileLess (32 >>> shift) (32 >>> shift) 0 (collided m shift n size free).fInfo =
      .ok (32 >>> shift, 0) := by
  rw [collided_fInfo within]
  cases n with
  | zero => exact if_neg (not_lt_zero _)
  | succ n =>
    rw [range_succ_eq_map, map_cons, cons_append, nextWhileLess, Nat.zero_add, Nat.mul_one,
      if_neg (lt_irrefl _)]

section Search

variable (positive : 0 < 32 >>> shift) (within : n < 767)
include positive within

lemma collided_nextWhileLessOrEqual :
    nextWhileLessOrEqual (32 >>> shift) (32 >>> shift) 0 (collided m shift n size free).fInfo =
      .ok (32 >>> shift * (n + 1), n) := by
  rw [collided_fInfo within, range_eq_range']
  simpa using nextWhileLessOrEqual_filled positive (zero_add n)

lemma collided_whileEqual {check : Nat → Except Fault (Option Nat)}
    (misses : ∀ j < n, check j = .ok none) :
    whileEqual (32 >>> shift) check (32 >>> shift) 0 (collided m shift n size free).fInfo =
      .ok (.inr (32 >>> shift * (n + 1), n)) := by
  rw [collided_fInfo within, range_eq_range']
  simpa using whileEqual_filled positive (zero_add n) misses

end Search

/-- An entry behind the others. -/
lemma place_last {d : Data} {filled behind : List Nat} {hashes rest : List RowPosHash}
    {old : RowPosHash} (info : d.fInfo = filled ++ 0 :: behind)
    (entries : d.fHashes = hashes ++ old :: rest) (length : filled.length = n)
    (length' : hashes.length = n) (insInfo : Nat) (pos : RowPosHash) :
    d.place n insInfo pos = .ok { d with
      fMaxSize := if insInfo + d.fInfoInc > 0xFF then 0 else d.fMaxSize
      fHashes := hashes ++ pos :: rest
      fInfo := filled ++ insInfo % 256 :: behind
      fSize := d.fSize + 1 } := by
  have free : findEmpty n (0 :: behind) = .ok n := rfl
  have unmoved : splice (hashes ++ old :: rest) (n + 1) [] = hashes ++ old :: rest := by
    simp [splice]
  unfold place
  split <;>
    simp [info, entries, length, length', free, shiftUp, shiftInfo, slice, unmoved, bind,
      Except.bind, pure, Except.pure]

section

variable (within : n < 767) (old : RowPosHash)
include within

lemma collided_push (fits : 32 >>> shift * (n + 1) ≤ 255) :
    (collided m shift n size (old :: free)).place n (32 >>> shift * (n + 1)) ⟨0, n⟩ =
      .ok (collided m shift (n + 1) (size + 1) free) := by
  rw [place_last (collided_fInfo within) rfl (by simp) (by simp), mod_eq_of_lt (by omega)]
  have before : ¬32 >>> shift * (n + 1) > 255 := by omega
  simp only [collided, infos, range_succ, map_append, map_cons, map_nil, append_assoc, cons_append,
    nil_append, if_neg before, ← mul_add_one, reduceSubDiff]

lemma collided_lose (exceeds : 32 >>> shift * (n + 1) = 256) (pos : RowPosHash) :
    (collided m shift n size (old :: free)).place n (32 >>> shift * (n + 1)) pos =
      .ok (collided m shift n (size + 1) (pos :: free)) := by
  rw [place_last (collided_fInfo within) rfl (by simp) (by simp), exceeds, mod_self,
    ← show (collided m shift n size free).fInfo = _ from collided_fInfo within]
  simp [collided, exceeds]

end

lemma collided_tryIncreaseInfo (narrower : shift < 4) (within : n < 767)
    (fits : 32 >>> (shift + 1) * (n + 1) ≤ 255) :
    (collided m shift n size free).tryIncreaseInfo =
      some (collided m (shift + 1) n size free) := by
  obtain ⟨wide, even⟩ : ¬32 >>> shift ≤ 2 ∧ 32 >>> shift = 2 * (32 >>> (shift + 1)) := by
    have all : ∀ s < 4, ¬32 >>> s ≤ 2 ∧ 32 >>> s = 2 * (32 >>> (s + 1)) := by decide
    exact all shift narrower
  have elems : calcSizeWithBuffer 512 = 767 ∧ calcMaxSize 512 = 409 := by decide
  have half : 32 >>> shift >>> 1 = 32 >>> (shift + 1) := (shiftRight_add 32 shift 1).symm
  have halved : (infos (32 >>> shift) n).map (· >>> 1) = infos (32 >>> (shift + 1)) n := by
    simp [infos, even, Nat.mul_assoc, Nat.shiftRight_one]
  have length : (infos (32 >>> shift) n ++ [1]).length = 768 := by
    rw [length_append, length_infos within, length_singleton]
  simp only [tryIncreaseInfo, collided, if_neg wide, elems, half]
  rw [if_neg (by omega), append_cons, take_left' length, drop_left' length, map_append, halved]
  simp [length_infos within]

section

variable (few : n < 127)
include few

/-- Before an entry that does not fit the increment is halved. -/
lemma collided_next (size : Nat) (free : List RowPosHash) :
    (collided m (halvings n) n size free).fMaxSize = 0 ∧
        (collided m (halvings n) n size free).tryIncreaseInfo =
          some (collided m (halvings (n + 1)) n size free) ∨
      (collided m (halvings n) n size free).fMaxSize = 409 ∧ halvings (n + 1) = halvings n := by
  obtain ⟨fits, -, next⟩ := halvings_fit n few
  split at next
  case isTrue exceeds =>
    rw [next.1] at fits ⊢
    exact .inl ⟨if_pos exceeds, collided_tryIncreaseInfo next.2 (by omega) fits⟩
  case isFalse room => exact .inr ⟨if_neg room, next⟩

lemma collided_insertSwap (old : RowPosHash) :
    (collided m (halvings n) n size (old :: free)).insertSwap ⟨0, n⟩ =
      .ok (collided m (halvings (n + 1)) (n + 1) (size + 1) free) := by
  obtain ⟨fits, positive, -⟩ := halvings_fit n few
  have small : 32 >>> halvings (n + 1) * (n + 1) % 256 = 32 >>> halvings (n + 1) * (n + 1) :=
    mod_eq_of_lt (by omega)
  rw [insertSwap]
  rcases collided_next few size (old :: free) with ⟨full, halved⟩ | ⟨room, same⟩
  on_goal 1 => rw [if_pos full, halved]
  on_goal 2 => rw [if_neg (by omega), ← same]
  all_goals
    simp only [bind, Except.bind, collided_rowHashToIdx, collided_fInfoInc, drop_zero, small,
      collided_nextWhileLessOrEqual positive (by omega : n < 767),
      collided_push (by omega : n < 767) old fits]

end

lemma reinsert_free {old d : Data} {slots : List Nat}
    (free : ∀ i ∈ slots, old.fInfo[i]? = some 0) : reinsert old slots d = .ok d := by
  induction slots with
  | nil => rfl
  | cons i rest later =>
    rw [reinsert, free i mem_cons_self]
    exact later fun j member => free j (mem_cons_of_mem i member)

section Rehash

variable (few : n ≤ 127)
include few

lemma collided_getElem {i : Nat} (inside : i < 767) :
    (collided m shift n size free).fInfo[i]? =
      some (if i < n then 32 >>> shift * (i + 1) else 0) := by
  rw [collided, getElem?_append_left (by rwa [length_infos (by omega)]), infos, getElem?_append,
    length_map, length_range]
  split
  case isTrue before => simp [before]
  case isFalse => rw [getElem?_replicate, if_pos (by omega)]

/-- The entries are inserted again one by one. -/
lemma reinsert_entries (positive : 0 < 32 >>> shift) {i k : Nat} (last : i + k = n)
    (rest : List Nat) {multiplier : BitVec 64} {filled free' : List RowPosHash}
    (length : filled.length = k) :
    reinsert (collided m shift n size free) (range' i k ++ rest)
        (collided multiplier (halvings i) i i (filled ++ free')) =
      reinsert (collided m shift n size free) rest
        (collided multiplier (halvings n) n n free') := by
  induction k generalizing i filled with
  | zero =>
    obtain rfl : i = n := last
    rw [length_eq_zero_iff.mp length]
    rfl
  | succ k later =>
    obtain ⟨old, filled, rfl⟩ := exists_cons_of_length_eq_add_one length
    have before : i < n := by omega
    have entry : (collided m shift n size free).fHashes[i]? = some ⟨0, i⟩ := by
      simp [collided, getElem?_append, before]
    have occupied : 32 >>> shift * (i + 1) ≠ 0 := mul_ne_zero positive.ne' (succ_ne_zero i)
    rw [range'_succ, cons_append, reinsert, collided_getElem few (by omega), if_pos before, entry]
    simp only [access, bind, Except.bind, cons_append,
      collided_insertSwap (by omega : i < 127)]
    rw [if_pos occupied, later (by omega) (succ.inj length)]

/-- A rehash restores the table, with any multiplier. -/
lemma collided_rehashPowerOfTwo (positive : 0 < 32 >>> shift) :
    (collided m shift n size free).rehashPowerOfTwo 512 true =
      .ok (collided m (halvings n) n n (replicate (767 - n) ⟨0, 0⟩)) := by
  have elems : calcSizeWithBuffer ((collided m shift n size free).fMask + 1) = 767 :=
    (by decide : calcSizeWithBuffer 512 = 767)
  have created : (collided m shift n size free).initData 512 true =
      .ok (collided m (halvings 0) 0 0 (replicate n ⟨0, 0⟩ ++ replicate (767 - n) ⟨0, 0⟩)) := by
    have info : (replicate (calcBytes (calcSizeWithBuffer 512)) 0).set
        (calcSizeWithBuffer 512) 1 = infos 32 0 ++ 1 :: replicate 7 0 := by
      decide +kernel
    rw [initData, if_pos rfl, info, replicate_append_replicate, Nat.add_sub_cancel' (by omega)]
    rfl
  have slots : range 767 = range' 0 n ++ range' n (767 - n) := by
    have joined : range' 0 n ++ range' (0 + n) (767 - n) = range' 0 (n + (767 - n)) :=
      range'_append_1
    rw [Nat.zero_add, Nat.add_sub_cancel' (by omega)] at joined
    rw [joined, range_eq_range']
  rw [rehashPowerOfTwo, created, elems, slots]
  simp only [bind, Except.bind]
  rw [if_pos (by decide), reinsert_entries few positive (Nat.zero_add n) _ length_replicate]
  refine reinsert_free fun i member => ?_
  obtain ⟨above, below⟩ := mem_range'_1.mp member
  rw [collided_getElem few (by omega), if_neg (by omega)]

end Rehash

end Data

namespace Storage

open Data

/-- A call does not leave more than one generation. -/
def oneGeneration {keys : Keys} (s : Storage keys) (memory : Memory) : Bool :=
  match s.grow memory with
  | .error _ => true
  | .ok t => t.fGens.isEmpty

/-- A storage without disk aggregation and with one generation. -/
abbrev single (d : Data) (rows : List Nat) : Storage allSame := ⟨false, true, [], d, rows⟩

variable {s : Storage allSame} {memory : Memory} {m : BitVec 64} {shift n size : Nat}
  {free : List RowPosHash} {rows lost : List Nat}

lemma oneGeneration_of_grow {d : Data} (grown : s.grow memory = .ok (single d rows)) :
    s.oneGeneration memory := by
  rw [oneGeneration, grown]
  rfl

/-- After the growth a new key is put behind the others. -/
lemma getTargetRow_collided (positive : 0 < 32 >>> shift) (within : n < 767) {row : Nat}
    (new : n ≤ row) (known : ∀ j < n, rows[j]? = some j)
    (grown : s.grow memory = .ok (single (collided m shift n size free) rows)) :
    s.getTargetRow (row : Nat) memory = (single (collided m shift n size free) rows).insertRow row
      n (32 >>> shift * (n + 1)) memory.rowGranted := by
  have misses : ∀ j < n, (single (collided m shift n size free) rows).check (row : Nat)
      (collided m shift n size free).fHashes j = .ok none := by
    intro j before
    have entry : (collided m shift n size free).fHashes[j]? = some ⟨0, j⟩ := by
      simp [collided, getElem?_append, before]
    have unequal : (row == j) = false := beq_eq_false_iff_ne.mpr (by omega)
    rw [check, entry]
    simp only [access, bind, Except.bind, known j before]
    rw [unequal]
    rfl
  rw [getTargetRow, grown]
  simp only [bind, Except.bind, collided_rowHashToIdx, collided_fInfoInc, drop_zero,
    collided_nextWhileLess within, collided_whileEqual positive within misses]
  rfl

lemma grow_collided (few : n < 127) :
    (single (collided m (halvings n) n n free) rows).grow memory =
      .ok (single (collided m (halvings (n + 1)) n n free) rows) := by
  have size : (collided m (halvings n) n n free).fSize = n := rfl
  have mask : (collided m (halvings n) n n free).fMask = 511 := rfl
  have elems : calcMaxSize (511 + 1) = 409 := by decide
  rw [grow, if_neg (by simp)]
  rcases collided_next few n free (m := m) with ⟨full, halved⟩ | ⟨room, same⟩
  · simp only [full, size, ge_iff_le, zero_le, if_true, increaseSize, elems, mask, bind,
      Except.bind, halved]
    rw [if_neg (by decide)]
    rw [if_pos (by omega)]
    rfl
  · simp only [room, size]
    rw [if_neg (by omega), same]
    rfl

/-- The first call. -/
lemma grow_new (arrays : memory.granted) : (new false : Storage allSame).grow memory =
    .ok (single (collided 0xc4ceb9fe1a85ec53 0 0 0 (replicate 767 ⟨0, 0⟩)) []) := by
  have reserved : (Data.new []).reserve 256 true =
      .ok (collided 0xc4ceb9fe1a85ec53 0 0 0 (replicate 767 ⟨0, 0⟩)) := by
    decide +kernel
  change (do return (⟨false, true, [], ← (Data.new []).reserve 256 memory.granted, []⟩ :
    Storage allSame)) = _
  rw [arrays, reserved]
  rfl

lemma call_collided (few : n < 127) (granted : memory.rowGranted) {old : RowPosHash}
    (grown : s.grow memory =
      .ok (single (collided m (halvings (n + 1)) n n (old :: free)) (range n))) :
    s.getTargetRow (n : Nat) memory =
      .ok (single (collided m (halvings (n + 1)) (n + 1) (n + 1) free) (range (n + 1)), true,
        n) := by
  obtain ⟨fits, positive, -⟩ := halvings_fit n few
  rw [getTargetRow_collided positive (by omega) (le_refl n) (fun j => getElem?_range) grown,
    insertRow]
  simp only [length_range, collided_push (by omega : n < 767) old fits, granted, bind,
    Except.bind, range_succ]
  rfl

/-- With plenty of memory a table whose info bytes are used up is rehashed. -/
lemma grow_full (rows : List Nat) {d d' : Data} (mask : d.fMask = 511) (full : d.fMaxSize = 0)
    (narrow : d.fInfoInc ≤ 2) (enough : 127 ≤ d.fSize) (few : d.fSize < 204)
    (rehashed : ({ d with hashMultiplier := d.hashMultiplier + 0xc4ceb9fe1a85ec54 } :
      Data).rehashPowerOfTwo 512 true = .ok d') :
    (single d rows).grow ⟨true, true, true⟩ = .ok (single d' rows) := by
  have elems : calcMaxSize (511 + 1) = 409 := by decide
  rw [grow, if_neg (by simp), full, if_pos (zero_le _), increaseSize]
  simp only [bind, Except.bind]
  rw [if_neg (by rw [mask]; decide)]
  simp only [tryIncreaseInfo, if_pos narrow, ite_self, mask, elems] at rehashed ⊢
  rw [if_neg (by omega), Bool.or_true, if_pos rfl, if_pos (by omega), rehashed]
  rfl

/-- The key 127 is given a new row whenever it is asked for. -/
lemma call_full (m : BitVec 64) (free : List RowPosHash) (lost : List Nat) (enough : 127 ≤ size)
    (few : size < 204) :
    (single (collided m 4 127 size free) (range 127 ++ lost)).oneGeneration ⟨true, true, true⟩ ∧
      (single (collided m 4 127 size free) (range 127 ++ lost)).getTargetRow (127 : Nat)
          ⟨true, true, true⟩ =
        .ok (single (collided (m + 0xc4ceb9fe1a85ec54) 4 127 128
          (⟨0, 127 + lost.length⟩ :: replicate 639 ⟨0, 0⟩)) (range 127 ++ (lost ++ [127])), true,
          127 + lost.length) := by
  have known : ∀ j < 127, (range 127 ++ lost)[j]? = some j := by
    intro j before
    rw [getElem?_append_left (by rwa [length_range]), getElem?_range before]
  have rehashed : ({ collided m 4 127 size free with
      hashMultiplier := m + 0xc4ceb9fe1a85ec54 } : Data).rehashPowerOfTwo 512 true =
      .ok (collided (m + 0xc4ceb9fe1a85ec54) 4 127 127 (⟨0, 0⟩ :: replicate 639 ⟨0, 0⟩)) :=
    collided_rehashPowerOfTwo (le_refl 127) (by decide)
  have grown := grow_full (range 127 ++ lost) rfl rfl (le_refl 2) enough few rehashed
  refine ⟨oneGeneration_of_grow grown, ?_⟩
  rw [getTargetRow_collided (by decide) (by decide) (le_refl 127) known grown, insertRow]
  simp only [collided_lose (by decide : 127 < 767) _ (by decide : 32 >>> 4 * (127 + 1) = 256), bind,
    Except.bind, length_append, length_range, append_assoc, if_true]
  rfl

end Storage

end RowAggStorage
