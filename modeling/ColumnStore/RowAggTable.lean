import ColumnStore.RowAggStorage
import Mathlib.Data.Nat.Prime.Basic
import Mathlib.Tactic.Ring

/-!
# The table of one generation

The info bytes and the positions of a generation as a table in the order of a rank, which is
made of the home slot of a hash and the bits of it that the info bytes hold. The loops of the
storage find the end of a search for a hash; an insertion, the halving of the info bytes and a
rehash keep the order, and the last two the entries.
-/

namespace RowAggStorage

open ByteBuffers RobinHood List Nat
open Option (getD_some elim_some some map_some)

namespace Data

def size (d : Data) : Nat := calcSizeWithBuffer (d.fMask + 1)

/-- The entry in a slot. -/
def slots (d : Data) (i : Nat) : Option RowPosHash :=
  if i < d.size ∧ d.fInfo.getD i 0 ≠ 0 then d.fHashes[i]? else none

/-- The rank of a hash: its home slot, then the bits of it in the info bytes, largest first. -/
def rankOf (d : Data) (hash : BitVec 64) : Nat :=
  (d.rowHashToIdx hash).2 * d.fInfoInc + (2 * d.fInfoInc - 1 - (d.rowHashToIdx hash).1)

def rank (d : Data) (pos : RowPosHash) : Nat := d.rankOf pos.hash

structure Valid (d : Data) : Prop where
  large : 512 ≤ d.fMask + 1
  inc : d.fInfoInc * 2 ^ d.fInfoHashShift = 32
  two : 2 ≤ d.fInfoInc
  infoLength : d.fInfo.length = d.size + 8
  hashLength : d.fHashes.length = d.fMask + 1 + 0xFF
  layout : Layout d.fInfoInc d.rank d.slots
  info : ∀ i pos, d.slots i = some pos → d.fInfo[i]? = some (infoAt d.fInfoInc (d.rank pos) i)
  byte : ∀ i pos, d.slots i = some pos → infoAt d.fInfoInc (d.rank pos) i ≤ 0xFF
  room : d.fMaxSize ≠ 0 → ∀ i pos, d.slots i = some pos →
    infoAt d.fInfoInc (d.rank pos) i + d.fInfoInc ≤ 0xFF

variable {d : Data} {hash : BitVec 64} {i : Nat}

lemma calcMaxSize_ge {n : Nat} (large : 512 ≤ n) : 0xFF ≤ calcMaxSize n := by
  unfold calcMaxSize
  split <;> omega

lemma Valid.size_eq (valid : d.Valid) : d.size = d.fMask + 1 + 0xFF := by
  rw [size, calcSizeWithBuffer, min_eq_right (calcMaxSize_ge valid.large)]

lemma Valid.positive (valid : d.Valid) : 0 < d.fInfoInc :=
  lt_of_lt_of_le zero_lt_two valid.two

lemma start_bounds (inc : d.fInfoInc * 2 ^ d.fInfoHashShift = 32) (hash : BitVec 64) :
    d.fInfoInc ≤ (d.rowHashToIdx hash).1 ∧ (d.rowHashToIdx hash).1 < 2 * d.fInfoInc ∧
      (d.rowHashToIdx hash).2 ≤ d.fMask := by
  have bits : (mix hash d.hashMultiplier &&& infoMask).toNat < 32 := by
    exact lt_of_le_of_lt and_le_right (by decide)
  have shifted : (mix hash d.hashMultiplier &&& infoMask).toNat >>> d.fInfoHashShift <
      d.fInfoInc := by
    rw [Nat.shiftRight_eq_div_pow, Nat.div_lt_iff_lt_mul (Nat.two_pow_pos _), inc]
    exact bits
  refine ⟨le_add_right _ _, ?_, and_le_right⟩
  simp only [rowHashToIdx]
  omega

/-- A search begins at the home slot of its rank, with the number for it. -/
lemma start_eq (valid : d.Valid) (hash : BitVec 64) :
    (d.rowHashToIdx hash).2 = d.rankOf hash / d.fInfoInc ∧
      (d.rowHashToIdx hash).1 = infoAt d.fInfoInc (d.rankOf hash) (d.rowHashToIdx hash).2 := by
  obtain ⟨low, high, -⟩ := start_bounds valid.inc hash
  have positive := valid.positive
  have home : d.rankOf hash / d.fInfoInc = (d.rowHashToIdx hash).2 := by
    rw [rankOf, mul_comm, mul_add_div positive, div_eq_of_lt (by omega), add_zero]
  have sum := infoAt_add positive home.le
  have value : d.rankOf hash = (d.rowHashToIdx hash).2 * d.fInfoInc +
      (2 * d.fInfoInc - 1 - (d.rowHashToIdx hash).1) := rfl
  rw [add_mul] at sum
  omega

lemma home_le (valid : d.Valid) (hash : BitVec 64) : d.rankOf hash / d.fInfoInc ≤ d.fMask := by
  rw [← (start_eq valid hash).1]
  exact (start_bounds valid.inc hash).2.2

lemma info_eq (valid : d.Valid) (within : i < d.size) :
    d.fInfo[i]? = some ((d.slots i).elim 0 fun pos => infoAt d.fInfoInc (d.rank pos) i) := by
  have inRange : i < d.fInfo.length := by
    rw [valid.infoLength]
    omega
  cases entry : d.slots i with
  | some pos => exact valid.info i pos entry
  | none =>
    by_cases zero : d.fInfo.getD i 0 = 0
    · rw [getD_eq_getElem?_getD, getElem?_eq_getElem inRange, getD_some] at zero
      rw [getElem?_eq_getElem inRange, zero]
      rfl
    have stored : i < d.fHashes.length := by
      rw [valid.hashLength, ← valid.size_eq]
      exact within
    rw [slots, if_pos ⟨within, zero⟩, getElem?_eq_getElem stored] at entry
    cases entry

variable {pos : RowPosHash}

lemma slots_lt (found : d.slots i = some pos) : i < d.size := by
  exact (Option.ite_none_right_eq_some.mp found).1.1

lemma slots_eq (found : d.slots i = some pos) : d.fHashes[i]? = some pos := by
  exact (Option.ite_none_right_eq_some.mp found).2

/-- The distances that a byte can hold end before the last slots. -/
lemma slots_far (valid : d.Valid) (far : d.fMask + 128 ≤ i) : d.slots i = none := by
  by_contra some
  obtain ⟨pos, found⟩ := Option.ne_none_iff_exists'.mp some
  have home := valid.layout.reached found
  have byte := valid.byte i pos found
  have distance := distance_le valid.positive home
  have mask := home_le valid pos.hash
  have two := mul_le_mul_left (i - d.rank pos / d.fInfoInc + 1) valid.two
  unfold rank at *
  omega

lemma exists_stop (valid : d.Valid) (hash : BitVec 64) :
    ∃ p, p ≤ d.fMask + 128 ∧ Stop d.fInfoInc d.rank d.slots (d.rankOf hash) p := by
  let ends (p : Nat) : Prop := d.rankOf hash / d.fInfoInc ≤ p ∧
    ∀ pos, d.slots p = some pos → d.rankOf hash < d.rank pos
  have last : ends (d.fMask + 128) := by
    refine ⟨(home_le valid hash).trans (Nat.le_add_right _ _), fun pos found => ?_⟩
    rw [slots_far valid (le_refl _)] at found
    cases found
  let p := Nat.find ⟨_, last⟩
  have least : ∀ j < p, ¬ends j := fun j before => Nat.find_min ⟨_, last⟩ before
  have found : ends p := Nat.find_spec ⟨_, last⟩
  refine ⟨p, Nat.find_min' ⟨_, last⟩ last, found.1, fun j home before => ?_, found.2⟩
  by_contra none
  refine least j before ⟨home, fun pos here => ?_⟩
  by_contra order
  exact none ⟨pos, here, not_lt.mp order⟩

section Loops

variable (valid : d.Valid) {r p idx : Nat}

include valid

lemma drop_info (within : idx < d.size) :
    d.fInfo.drop idx = (d.slots idx).elim 0 (fun pos => infoAt d.fInfoInc (d.rank pos) idx) ::
      d.fInfo.drop (idx + 1) := by
  have here := info_eq valid within
  obtain ⟨inRange, value⟩ := List.getElem?_eq_some_iff.mp here
  rw [drop_eq_getElem_cons inRange, value]

lemma info_lt_iff (found : d.slots idx = some pos) (home : r / d.fInfoInc ≤ idx) :
    infoAt d.fInfoInc r idx < infoAt d.fInfoInc (d.rank pos) idx ↔ d.rank pos < r :=
  infoAt_lt_iff valid.positive home (valid.layout.reached found)

lemma info_eq_iff (found : d.slots idx = some pos) (home : r / d.fInfoInc ≤ idx) :
    infoAt d.fInfoInc r idx = infoAt d.fInfoInc (d.rank pos) idx ↔ r = d.rank pos :=
  infoAt_inj valid.positive home (valid.layout.reached found)

lemma info_pos (home : r / d.fInfoInc ≤ idx) : 0 < infoAt d.fInfoInc r idx :=
  lt_of_lt_of_le valid.positive (inc_le_infoAt valid.positive home)

section

variable (stop : Stop d.fInfoInc d.rank d.slots r p) (within : p < d.size)
  (home : r / d.fInfoInc ≤ idx) (before : idx ≤ p)
include stop within home before

lemma nextWhileLess_spec :
    ∃ idx', idx ≤ idx' ∧ idx' ≤ p ∧
      nextWhileLess d.fInfoInc (infoAt d.fInfoInc r idx) idx (d.fInfo.drop idx) =
        .ok (infoAt d.fInfoInc r idx', idx') ∧
      (∀ pos, d.slots idx' = some pos → r ≤ d.rank pos) ∧
      ∀ j pos, idx ≤ j → j < idx' → d.slots j = some pos → d.rank pos < r := by
  -- the slots up to the end of the search are gone through one by one
  obtain ⟨n, rfl⟩ := Nat.exists_eq_add_of_le before
  induction n generalizing idx with
  | zero =>
    rw [add_zero] at stop within
    refine ⟨idx, le_refl _, le_refl _, ?_, fun pos here => (stop.ended pos here).le,
      fun j pos low high => by omega⟩
    rw [drop_info valid within]
    refine if_neg ?_
    cases entry : d.slots idx with
    | none => exact not_lt_zero _
    | some pos =>
      rw [elim_some, info_lt_iff valid entry home, not_lt]
      exact (stop.ended pos entry).le
  | succ n later =>
    obtain ⟨pos, entry, -⟩ := stop.passed idx home (by omega)
    have shift : idx + (n + 1) = idx + 1 + n := by omega
    rw [drop_info valid (by omega), nextWhileLess, entry, elim_some]
    by_cases smaller : d.rank pos < r
    · rw [if_pos ((info_lt_iff valid entry home).mpr smaller), ← infoAt_succ valid.positive home]
      rw [shift] at stop within ⊢
      obtain ⟨idx', low, high, done, next, passed⟩ := later
        (home.trans (le_succ idx)) stop within (by omega)
      refine ⟨idx', by omega, high, done, next, fun j other first second here => ?_⟩
      rcases lt_or_eq_of_le first with after | rfl
      · exact passed j other after second here
      · rw [entry] at here
        exact some.inj here ▸ smaller
    · rw [if_neg (mt (info_lt_iff valid entry home).mp smaller)]
      refine ⟨idx, le_refl _, by omega, rfl, fun other here => ?_, fun j _ low high => by omega⟩
      rw [entry] at here
      exact some.inj here ▸ not_lt.mp smaller

lemma nextWhileLessOrEqual_spec :
    nextWhileLessOrEqual d.fInfoInc (infoAt d.fInfoInc r idx) idx (d.fInfo.drop idx) =
      .ok (infoAt d.fInfoInc r p, p) := by
  obtain ⟨n, rfl⟩ := Nat.exists_eq_add_of_le before
  induction n generalizing idx with
  | zero =>
    rw [add_zero] at stop within ⊢
    rw [drop_info valid within]
    refine if_neg ?_
    cases entry : d.slots idx with
    | none => exact not_le.mpr (info_pos valid home)
    | some pos =>
      have ended := stop.ended pos entry
      rw [elim_some, not_le, infoAt_lt_iff valid.positive (valid.layout.reached entry) home]
      exact ended
  | succ n later =>
    obtain ⟨pos, entry, order⟩ := stop.passed idx home (by omega)
    have shift : idx + (n + 1) = idx + 1 + n := by omega
    have passes : infoAt d.fInfoInc r idx ≤ infoAt d.fInfoInc (d.rank pos) idx := by
      rw [← not_lt, infoAt_lt_iff valid.positive (valid.layout.reached entry) home, not_lt]
      exact order
    rw [drop_info valid (by omega), nextWhileLessOrEqual, entry, elim_some, if_pos passes,
      ← infoAt_succ valid.positive home]
    rw [shift] at stop within ⊢
    exact later (home.trans (le_succ idx)) stop within (by omega)

/-- The loop over the entries of the rank searched for: one of them is the row, or none is and
the loop ends where the search does. -/
lemma whileEqual_spec (least : ∀ pos, d.slots idx = some pos → r ≤ d.rank pos)
    {check : Nat → Except Fault (Option Nat)}
    (safe : ∀ j pos, d.slots j = some pos → d.rank pos = r → ∃ found, check j = .ok found) :
    (∃ j pos row, idx ≤ j ∧ d.slots j = some pos ∧ d.rank pos = r ∧ check j = .ok (some row) ∧
      whileEqual d.fInfoInc check (infoAt d.fInfoInc r idx) idx (d.fInfo.drop idx) =
        .ok (.inl row)) ∨
    (whileEqual d.fInfoInc check (infoAt d.fInfoInc r idx) idx (d.fInfo.drop idx) =
        .ok (.inr (infoAt d.fInfoInc r p, p)) ∧
      ∀ j pos, idx ≤ j → d.slots j = some pos → d.rank pos = r → check j = .ok none) := by
  obtain ⟨n, rfl⟩ := Nat.exists_eq_add_of_le before
  induction n generalizing idx with
  | zero =>
    rw [add_zero] at stop within ⊢
    refine .inr ⟨?_, fun j pos low here same => ?_⟩
    · rw [drop_info valid within]
      refine if_neg ?_
      cases entry : d.slots idx with
      | none => exact ne_of_gt (info_pos valid home)
      | some pos =>
        rw [elim_some, info_eq_iff valid entry home]
        exact Nat.ne_of_lt (stop.ended pos entry)
    · exact absurd (valid.layout.lt_stop here (same ▸ stop)) (not_lt.mpr low)
  | succ n later =>
    obtain ⟨pos, entry, order⟩ := stop.passed idx home (by omega)
    have same : d.rank pos = r := le_antisymm order (least pos entry)
    have shift : idx + (n + 1) = idx + 1 + n := by omega
    have least' : ∀ other, d.slots (idx + 1) = some other → r ≤ d.rank other := fun other here =>
      same ▸ valid.layout.sorted entry here (lt_succ_self idx)
    rw [drop_info valid (by omega), whileEqual, entry, elim_some,
      if_pos ((info_eq_iff valid entry home).mpr same.symm), ← infoAt_succ valid.positive home]
    obtain ⟨found, checked⟩ := safe idx pos entry same
    cases found with
    | some row =>
      refine .inl ⟨idx, pos, row, le_refl _, entry, same, checked, ?_⟩
      rw [checked]
      rfl
    | none =>
      rw [checked]
      rw [shift] at stop within ⊢
      rcases later (home.trans (le_succ idx)) least' stop within (by omega) with
        ⟨j, other, row, low, here, sameRank, hit, done⟩ | ⟨done, missed⟩
      · exact .inl ⟨j, other, row, by omega, here, sameRank, hit, done⟩
      refine .inr ⟨done, fun j other low here sameRank => ?_⟩
      rcases lt_or_eq_of_le low with after | rfl
      · exact missed j other after here sameRank
      · exact checked

end

/-- A whole search for a hash: a row is found in a slot of its rank, or none is and the search
ends at `p`. -/
lemma search_spec (hash : BitVec 64) {check : Nat → Except Fault (Option Nat)}
    (safe : ∀ j pos, d.slots j = some pos → d.rank pos = d.rankOf hash →
      ∃ found, check j = .ok found) :
    ∃ info idx, nextWhileLess d.fInfoInc (d.rowHashToIdx hash).1 (d.rowHashToIdx hash).2
        (d.fInfo.drop (d.rowHashToIdx hash).2) = .ok (info, idx) ∧
      ((∃ j pos row, d.slots j = some pos ∧ d.rank pos = d.rankOf hash ∧
          check j = .ok (some row) ∧
          whileEqual d.fInfoInc check info idx (d.fInfo.drop idx) = .ok (.inl row)) ∨
        ∃ p, p ≤ d.fMask + 128 ∧ Stop d.fInfoInc d.rank d.slots (d.rankOf hash) p ∧
          whileEqual d.fInfoInc check info idx (d.fInfo.drop idx) =
            .ok (.inr (infoAt d.fInfoInc (d.rankOf hash) p, p)) ∧
          ∀ j pos, d.slots j = some pos → d.rank pos = d.rankOf hash → check j = .ok none) := by
  obtain ⟨p, near, stop⟩ := exists_stop valid hash
  obtain ⟨start, info⟩ := start_eq valid hash
  have within : p < d.size := by
    rw [valid.size_eq]
    omega
  obtain ⟨idx, low, high, less, least, passed⟩ :=
    nextWhileLess_spec valid stop within start.ge (start ▸ stop.start)
  have from_idx : ∀ j pos, d.slots j = some pos → d.rank pos = d.rankOf hash → idx ≤ j := by
    intro j pos here same
    by_contra before
    have home := valid.layout.reached here
    rw [same, ← start] at home
    exact absurd same (Nat.ne_of_lt (passed j pos home (Nat.not_le.mp before) here))
  refine ⟨_, idx, info ▸ less, ?_⟩
  rcases whileEqual_spec valid stop within (start ▸ low) high least safe with
    ⟨j, pos, row, -, here, same, hit, done⟩ | ⟨done, missed⟩
  · exact .inl ⟨j, pos, row, here, same, hit, done⟩
  · exact .inr ⟨p, near, stop, done, fun j pos here same =>
      missed j pos (from_idx j pos here same) here same⟩

lemma findEmpty_spec (before : idx ≤ d.fMask + 128) :
    ∃ q, idx ≤ q ∧ q ≤ d.fMask + 128 ∧ d.slots q = none ∧
      (∀ j, idx ≤ j → j < q → ∃ pos, d.slots j = some pos) ∧
      findEmpty idx (d.fInfo.drop idx) = .ok q := by
  obtain ⟨n, last⟩ := Nat.exists_eq_add_of_le before
  have size := valid.size_eq
  induction n generalizing idx with
  | zero =>
    have free := slots_far valid (i := idx) (by omega)
    refine ⟨idx, le_refl _, before, free, fun j low high => by omega, ?_⟩
    rw [drop_info valid (by omega), free, findEmpty, if_neg (by simp)]
  | succ n later =>
    rw [drop_info valid (by omega), findEmpty]
    cases entry : d.slots idx with
    | none =>
      refine ⟨idx, le_refl _, before, entry, fun j low high => by omega, ?_⟩
      rw [if_neg (by simp)]
    | some pos =>
      obtain ⟨q, low, high, free, full, done⟩ := @later (idx + 1) (by omega) (by omega)
      have home := valid.layout.reached entry
      refine ⟨q, by omega, high, free, fun j first second => ?_, ?_⟩
      · rcases lt_or_eq_of_le first with after | rfl
        · exact full j after second
        · exact ⟨pos, entry⟩
      · rw [elim_some, if_pos (ne_of_gt (info_pos valid home)), done]

end Loops

lemma shiftInfo_spec (infoInc count idx maxSize : Nat) (info : List Nat) (low : count ≤ idx)
    (high : idx < info.length) :
    (shiftInfo infoInc count idx (info, maxSize)).1.length = info.length ∧
    (∀ j, (shiftInfo infoInc count idx (info, maxSize)).1[j]? =
      if idx - count < j ∧ j ≤ idx then some ((info.getD (j - 1) 0 + infoInc) % 256)
      else info[j]?) ∧
    ((shiftInfo infoInc count idx (info, maxSize)).2 ≠ 0 → maxSize ≠ 0 ∧
      ∀ j, idx - count < j → j ≤ idx →
        (info.getD (j - 1) 0 + infoInc) % 256 + infoInc ≤ 0xFF) := by
  induction count generalizing idx info maxSize with
  | zero =>
    refine ⟨rfl, fun j => (if_neg (by omega)).symm,
      fun max => ⟨max, fun j first second => by omega⟩⟩
  | succ count later =>
    rw [shiftInfo]
    generalize isByte : (info.getD (idx - 1) 0 + infoInc) % 256 = b
    obtain ⟨length, bytes, room⟩ := later (idx - 1) (if b + infoInc > 0xFF then 0 else maxSize)
      (info.set idx b) (by omega) (by rw [length_set]; omega)
    have old : ∀ j, j ≤ idx - 1 → (info.set idx b).getD (j - 1) 0 = info.getD (j - 1) 0 := by
      intro j within
      rw [getD_eq_getElem?_getD, getElem?_set_ne (by omega), getD_eq_getElem?_getD]
    refine ⟨length.trans length_set, fun j => ?_, fun max => ?_⟩
    · rw [bytes j]
      by_cases moved : idx - (count + 1) < j ∧ j ≤ idx
      · rw [if_pos moved]
        by_cases last : j = idx
        · subst last
          rw [if_neg (by omega), getElem?_set_self high, isByte]
        · rw [if_pos (by omega), old j (by omega)]
      · rw [if_neg moved, if_neg (by omega), getElem?_set_ne (by omega)]
    obtain ⟨max', rest⟩ := room max
    have noFlag : ¬b + infoInc > 0xFF := fun flag => max' (if_pos flag)
    rw [if_neg noFlag] at max'
    refine ⟨max', fun j first second => ?_⟩
    by_cases last : j = idx
    · subst last
      omega
    · have here := rest j (by omega) (by omega)
      rwa [old j (by omega)] at here

/-- The arrays after an entry was put into slot `p`, with `q` the empty slot. -/
def placed (d : Data) (p q insInfo : Nat) (pos : RowPosHash) : Data :=
  let d := if insInfo + d.fInfoInc > 0xFF then { d with fMaxSize := 0 } else d
  let d := d.shiftUp q p
  { d with
    fHashes := d.fHashes.set p pos
    fInfo := d.fInfo.set p (insInfo % 256)
    fSize := d.fSize + 1 }

variable {d' : Data}

section Place

variable {p q insInfo : Nat} {pos : RowPosHash}

lemma placed_fields (d : Data) (p q insInfo : Nat) (pos : RowPosHash) :
    (d.placed p q insInfo pos).fMask = d.fMask ∧
    (d.placed p q insInfo pos).hashMultiplier = d.hashMultiplier ∧
    (d.placed p q insInfo pos).fInfoInc = d.fInfoInc ∧
    (d.placed p q insInfo pos).fInfoHashShift = d.fInfoHashShift := by
  unfold placed
  split <;> exact ⟨rfl, rfl, rfl, rfl⟩

lemma rank_congr (same : d'.fMask = d.fMask ∧ d'.hashMultiplier = d.hashMultiplier ∧
    d'.fInfoInc = d.fInfoInc ∧ d'.fInfoHashShift = d.fInfoHashShift) : d'.rank = d.rank := by
  obtain ⟨mask, multiplier, inc, shift⟩ := same
  funext pos
  simp only [rank, rankOf, rowHashToIdx, mask, multiplier, inc, shift]

lemma placed_info (insInfo : Nat) (pos : RowPosHash) (between : p ≤ q)
    (inRange : q < d.fInfo.length) :
    (d.placed p q insInfo pos).fInfo.length = d.fInfo.length ∧
    (∀ j, (d.placed p q insInfo pos).fInfo[j]? =
      if j = p then some (insInfo % 256)
      else if p < j ∧ j ≤ q then some ((d.fInfo.getD (j - 1) 0 + d.fInfoInc) % 256)
      else d.fInfo[j]?) ∧
    ((d.placed p q insInfo pos).fMaxSize ≠ 0 → d.fMaxSize ≠ 0 ∧ insInfo + d.fInfoInc ≤ 0xFF ∧
      ∀ j, p < j → j ≤ q → (d.fInfo.getD (j - 1) 0 + d.fInfoInc) % 256 + d.fInfoInc ≤ 0xFF) := by
  have start : q - (q - p) = p := by omega
  generalize isMax : (if insInfo + d.fInfoInc > 0xFF then 0 else d.fMaxSize) = maxSize
  have fields : (d.placed p q insInfo pos).fInfo =
      (shiftInfo d.fInfoInc (q - p) q (d.fInfo, maxSize)).1.set p (insInfo % 256) ∧
      (d.placed p q insInfo pos).fMaxSize =
        (shiftInfo d.fInfoInc (q - p) q (d.fInfo, maxSize)).2 := by
    subst isMax
    unfold placed shiftUp
    split <;> exact ⟨rfl, rfl⟩
  obtain ⟨length, bytes, room⟩ := shiftInfo_spec d.fInfoInc (q - p) q maxSize d.fInfo
    (by omega) inRange
  rw [start] at bytes room
  rw [fields.1, fields.2]
  refine ⟨length_set.trans length, fun j => ?_, fun max => ?_⟩
  · by_cases here : j = p
    · subst here
      rw [if_pos rfl, getElem?_set_self (by omega)]
    · rw [if_neg here, getElem?_set_ne (Ne.symm here), bytes j]
  obtain ⟨max', rest⟩ := room max
  have noFlag : ¬insInfo + d.fInfoInc > 0xFF := by
    intro flag
    rw [if_pos flag] at isMax
    exact max' isMax.symm
  rw [if_neg noFlag] at isMax
  exact ⟨isMax ▸ max', by omega, rest⟩

lemma placed_hashes (insInfo : Nat) (pos : RowPosHash) (between : p ≤ q)
    (inRange : q < d.fHashes.length) :
    (d.placed p q insInfo pos).fHashes.length = d.fHashes.length ∧
    ∀ j, (d.placed p q insInfo pos).fHashes[j]? =
      if j = p then some pos else if p < j ∧ j ≤ q then d.fHashes[j - 1]? else d.fHashes[j]? := by
  have fields : (d.placed p q insInfo pos).fHashes =
      (splice d.fHashes (p + 1) (slice d.fHashes p (q - p))).set p pos := by
    unfold placed shiftUp
    split <;> rfl
  have moved : (slice d.fHashes p (q - p)).length = q - p := length_slice (by omega)
  have room : p + 1 + (slice d.fHashes p (q - p)).length ≤ d.fHashes.length := by
    omega
  rw [fields]
  refine ⟨length_set.trans (length_splice room), fun j => ?_⟩
  by_cases here : j = p
  · subst here
    rw [if_pos rfl, getElem?_set_self (by rw [length_splice room]; omega)]
  rw [if_neg here, getElem?_set_ne (Ne.symm here), getElem?_splice room]
  by_cases between' : p < j ∧ j ≤ q
  · rw [if_pos (by omega), if_pos between', getElem?_slice, if_pos (by omega)]
    congr 1
    omega
  · rw [if_neg (by omega), if_neg between']

lemma size_congr (same : d'.fMask = d.fMask) : d'.size = d.size := by
  rw [size, size, same]

/-- What an insertion needs: the place where the search ends, the empty slot behind it, and room
in the info bytes. -/
structure Insertion (d : Data) (pos : RowPosHash) (p q : Nat) : Prop where
  stop : Stop d.fInfoInc d.rank d.slots (d.rank pos) p
  between : p ≤ q
  near : q ≤ d.fMask + 128
  full : ∀ j, p ≤ j → j < q → ∃ other, d.slots j = some other
  free : d.slots q = none
  room : d.fMaxSize ≠ 0

variable (valid : d.Valid)

include valid

/-- The info of a new entry fits into a byte: the entry before it has room for one more step. -/
lemma byte_of_stop (stop : Stop d.fInfoInc d.rank d.slots (d.rank pos) p)
    (room : d.fMaxSize ≠ 0) : infoAt d.fInfoInc (d.rank pos) p ≤ 0xFF := by
  obtain ⟨start, info⟩ := start_eq valid pos.hash
  obtain ⟨-, high, -⟩ := start_bounds valid.inc pos.hash
  rcases lt_or_eq_of_le stop.start with after | atHome
  · obtain ⟨n, rfl⟩ := exists_eq_add_one_of_ne_zero (ne_zero_of_lt after)
    have home : d.rank pos / d.fInfoInc ≤ n := Nat.lt_succ_iff.mp after
    obtain ⟨other, here, order⟩ := stop.passed n home (lt_succ_self n)
    have room := valid.room room n other here
    have smaller := mt (infoAt_lt_iff valid.positive (valid.layout.reached here) home).mp
      (not_lt.mpr order)
    rw [infoAt_succ valid.positive home]
    omega
  have inc : d.fInfoInc ≤ 32 := by
    rw [← valid.inc]
    exact Nat.le_mul_of_pos_right _ (Nat.two_pow_pos _)
  rw [← atHome, rank, ← start]
  omega

section

variable (insertion : d.Insertion pos p q)

include insertion

lemma Insertion.moved {i : Nat} (after : p < i) (within : i ≤ q) : ∃ other,
    d.slots (i - 1) = some other ∧ d.fHashes[i - 1]? = some other ∧
    (d.fInfo.getD (i - 1) 0 + d.fInfoInc) % 256 = infoAt d.fInfoInc (d.rank other) i ∧
    infoAt d.fInfoInc (d.rank other) i ≤ 0xFF := by
  obtain ⟨n, rfl⟩ : ∃ n, i = n + 1 := ⟨i - 1, by omega⟩
  rw [Nat.add_sub_cancel]
  obtain ⟨other, here⟩ := insertion.full n (by omega) (by omega)
  have room := valid.room insertion.room n other here
  have next := infoAt_succ valid.positive (valid.layout.reached here)
  refine ⟨other, here, slots_eq here, ?_, by omega⟩
  rw [getD_eq_getElem?_getD, valid.info n other here, getD_some, next, mod_eq_of_lt (by omega)]

lemma Insertion.inRange : q < d.size ∧ q < d.fInfo.length ∧ q < d.fHashes.length := by
  have size := valid.size_eq
  have near := insertion.near
  have infoLength := valid.infoLength
  have hashLength := valid.hashLength
  omega

lemma slots_placed : (d.placed p q (infoAt d.fInfoInc (d.rank pos) p) pos).slots =
    insertAt d.slots p q pos := by
  have byte := byte_of_stop valid insertion.stop insertion.room
  have between := insertion.between
  obtain ⟨inSize, inInfo, inHashes⟩ := insertion.inRange valid
  obtain ⟨-, infos, -⟩ := placed_info (infoAt d.fInfoInc (d.rank pos) p) pos between inInfo
  obtain ⟨-, hashes⟩ := placed_hashes (infoAt d.fInfoInc (d.rank pos) p) pos between inHashes
  have positive := info_pos valid insertion.stop.start
  funext i
  rw [slots, size_congr (placed_fields ..).1, getD_eq_getElem?_getD, infos i, hashes i]
  rcases lt_trichotomy i p with before | rfl | after
  · simp [insertAt_of_lt before, Nat.ne_of_lt before, Nat.lt_asymm before, slots]
  · rw [insertAt_self, if_pos rfl, if_pos rfl, mod_eq_of_lt (by omega), if_pos ⟨by omega, ne_of_gt
      positive⟩]
  by_cases within : i ≤ q
  · obtain ⟨other, here, stored, info, -⟩ := insertion.moved valid after within
    have home := (valid.layout.reached here).trans (sub_le i 1)
    simp only [insertAt_of_moved after within, ne_of_gt after, after, within, and_self, if_true,
      if_false, info, stored, here]
    rw [if_pos ⟨by omega, ne_of_gt (info_pos valid home)⟩]
  · simp [insertAt_of_gt between (not_le.mp within), ne_of_gt after, within, slots]

/-- The info byte of each entry after an insertion, and its room if the size is not used up. -/
lemma placed_entry (i : Nat) (other : RowPosHash)
    (found : insertAt d.slots p q pos i = some other) :
    (d.placed p q (infoAt d.fInfoInc (d.rank pos) p) pos).fInfo[i]? =
        some (infoAt d.fInfoInc (d.rank other) i) ∧
      infoAt d.fInfoInc (d.rank other) i ≤ 0xFF ∧
      ((d.placed p q (infoAt d.fInfoInc (d.rank pos) p) pos).fMaxSize ≠ 0 →
        infoAt d.fInfoInc (d.rank other) i + d.fInfoInc ≤ 0xFF) := by
  have byte := byte_of_stop valid insertion.stop insertion.room
  have between := insertion.between
  obtain ⟨-, infos, room⟩ := placed_info (infoAt d.fInfoInc (d.rank pos) p) pos between
    (insertion.inRange valid).2.1
  rcases insertAt_cases between found with ⟨outside, old⟩ | ⟨rfl, rfl⟩ | ⟨after, within, old⟩
  · refine ⟨?_, valid.byte i other old, fun max => valid.room (room max).1 i other old⟩
    rw [infos, if_neg (by omega), if_neg (by omega), valid.info i other old]
  · refine ⟨?_, byte, fun max => (room max).2.1⟩
    rw [infos, if_pos rfl, mod_eq_of_lt (by omega)]
  obtain ⟨same, here, -, info, small⟩ := insertion.moved valid after within
  obtain rfl : same = other := some.inj (here.symm.trans old)
  refine ⟨?_, small, fun max => ?_⟩
  · rw [infos, if_neg (by omega), if_pos ⟨after, within⟩, info]
  · rw [← info]
    exact (room max).2.2 i after within

lemma valid_placed : (d.placed p q (infoAt d.fInfoInc (d.rank pos) p) pos).Valid := by
  have slots := slots_placed valid insertion
  have entry (i other) (found : _ = some other) :=
    placed_entry valid insertion i other (slots ▸ found)
  have fields := placed_fields d p q (infoAt d.fInfoInc (d.rank pos) p) pos
  have ranks := rank_congr fields
  obtain ⟨-, inInfo, inHashes⟩ := insertion.inRange valid
  have infoLength := (placed_info (infoAt d.fInfoInc (d.rank pos) p) pos insertion.between inInfo).1
  have hashLength :=
    (placed_hashes (infoAt d.fInfoInc (d.rank pos) p) pos insertion.between inHashes).1
  generalize d.placed p q (infoAt d.fInfoInc (d.rank pos) p) pos = new at *
  have size := size_congr fields.1
  obtain ⟨mask, -, inc, shift⟩ := fields
  rw [← inc, ← ranks] at entry
  refine ⟨mask ▸ valid.large, ?_, inc ▸ valid.two, ?_, ?_, ?_, fun i other found =>
    (entry i other found).1, fun i other found => (entry i other found).2.1,
    fun max i other found => (entry i other found).2.2 max⟩
  · rw [inc, shift]
    exact valid.inc
  · rw [infoLength, size]
    exact valid.infoLength
  · rw [hashLength, mask]
    exact valid.hashLength
  · rw [inc, ranks, slots]
    exact valid.layout.insertAt insertion.stop insertion.between insertion.full

end

lemma place_spec (stop : Stop d.fInfoInc d.rank d.slots (d.rank pos) p)
    (near : p ≤ d.fMask + 128) (room : d.fMaxSize ≠ 0) :
    ∃ d', d.place p (infoAt d.fInfoInc (d.rank pos) p) pos = .ok d' ∧ d'.Valid ∧
      ∀ other, (∃ i, d'.slots i = some other) ↔ other = pos ∨ ∃ i, d.slots i = some other := by
  obtain ⟨q, low, high, free, full, done⟩ := findEmpty_spec valid near
  have insertion : d.Insertion pos p q := ⟨stop, low, high, full, free, room⟩
  refine ⟨_, ?_, valid_placed valid insertion, fun other => ?_⟩
  · have inHashes := (insertion.inRange valid).2.2
    unfold place placed
    simp only [apply_ite Data.fInfo, done, ite_self]
    split <;> exact if_neg (not_le.mpr inHashes)
  · rw [slots_placed valid insertion]
    exact exists_insertAt low free

end Place

lemma inc_even (inc : d.fInfoInc * 2 ^ d.fInfoHashShift = 32) (wide : 2 < d.fInfoInc) :
    ∃ half, d.fInfoInc = 2 * half ∧ 2 ≤ half ∧ half ≤ 16 ∧
      half * 2 ^ (d.fInfoHashShift + 1) = 32 := by
  have divides : d.fInfoInc ∣ 2 ^ 5 := ⟨2 ^ d.fInfoHashShift, inc.symm⟩
  obtain ⟨k, small, power⟩ := (dvd_prime_pow prime_two).mp divides
  obtain ⟨n, rfl⟩ : ∃ n, k = n + 1 := ⟨k - 1, by
    rcases k with _ | k
    · omega
    · omega⟩
  rw [pow_succ, mul_comm] at power
  have large : 2 ^ n ≤ 2 ^ 4 := Nat.pow_le_pow_right Nat.zero_lt_two (by omega)
  refine ⟨2 ^ n, power, by omega, large, ?_⟩
  rw [power] at inc
  rw [← inc]
  ring

lemma rankOf_halved {half : Nat} (even : d.fInfoInc = 2 * half) (mask : d'.fMask = d.fMask)
    (multiplier : d'.hashMultiplier = d.hashMultiplier) (inc' : d'.fInfoInc = half)
    (shift' : d'.fInfoHashShift = d.fInfoHashShift + 1) (hash : BitVec 64) :
    d'.rankOf hash = d.rankOf hash / 2 := by
  have info : (d'.rowHashToIdx hash).1 = (d.rowHashToIdx hash).1 / 2 := by
    simp only [rowHashToIdx, shift', multiplier, even, shiftRight_succ]
    omega
  have home : (d'.rowHashToIdx hash).2 = (d.rowHashToIdx hash).2 := by
    simp only [rowHashToIdx, mask, multiplier]
  rw [rankOf, rankOf, home, inc', even, ← mul_assoc, mul_comm _ 2, mul_assoc]
  omega

lemma valid_halved {half : Nat} (valid : d.Valid) (even : d.fInfoInc = 2 * half) (two : 2 ≤ half)
    (small : half ≤ 16) (inc : half * 2 ^ (d.fInfoHashShift + 1) = 32) (mask : d'.fMask = d.fMask)
    (multiplier : d'.hashMultiplier = d.hashMultiplier) (inc' : d'.fInfoInc = half)
    (shift' : d'.fInfoHashShift = d.fInfoHashShift + 1) (hashes : d'.fHashes = d.fHashes)
    (length : d'.fInfo.length = d.fInfo.length)
    (bytes : ∀ i < d.size, d'.fInfo[i]? = d.fInfo[i]?.map (· / 2)) :
    d'.Valid ∧ d'.slots = d.slots := by
  have size : d'.size = d.size := size_congr mask
  have positive : 0 < half := by omega
  have ranks : d'.rank = fun pos => d.rank pos / 2 :=
    funext fun pos => rankOf_halved even mask multiplier inc' shift' pos.hash
  have wide : ∀ i pos, d.slots i = some pos → 4 ≤ infoAt d.fInfoInc (d.rank pos) i := by
    intro i pos found
    have := inc_le_infoAt valid.positive (valid.layout.reached found)
    omega
  have slots : d'.slots = d.slots := by
    funext i
    by_cases within : i < d.size
    · have old := info_eq valid within
      cases entry : d.slots i with
      | none =>
        rw [entry, Option.elim_none] at old
        rw [Data.slots, getD_eq_getElem?_getD, bytes i within, old]
        exact if_neg fun both => both.2 rfl
      | some pos =>
        rw [entry, elim_some] at old
        have large := wide i pos entry
        rw [Data.slots, getD_eq_getElem?_getD, bytes i within, old, size, hashes,
          slots_eq entry, map_some, getD_some, if_pos ⟨within, by omega⟩]
    · rw [Data.slots, Data.slots, size, if_neg (mt And.left within), if_neg (mt And.left within)]
  have halves : ∀ i pos, d.slots i = some pos →
      infoAt half (d.rank pos / 2) i = infoAt d.fInfoInc (d.rank pos) i / 2 := by
    intro i pos found
    rw [even]
    exact (infoAt_half positive (even ▸ valid.layout.reached found)).symm
  refine ⟨⟨mask ▸ valid.large, ?_, inc' ▸ two, ?_, ?_, ?_, ?_, ?_, ?_⟩, slots⟩
  · rw [inc', shift', inc]
  · rw [length, size, valid.infoLength]
  · rw [hashes, mask, valid.hashLength]
  · rw [inc', ranks, slots]
    exact (even ▸ valid.layout).halve
  · intro i pos found
    rw [slots] at found
    rw [inc', ranks, bytes i (slots_lt found), valid.info i pos found, map_some, halves i pos found]
  · intro i pos found
    rw [slots] at found
    have byte := valid.byte i pos found
    rw [inc', ranks, halves i pos found]
    omega
  intro _ i pos found
  rw [slots] at found
  have byte := valid.byte i pos found
  rw [inc', ranks, halves i pos found]
  omega

/-- With half the step the info bytes hold one bit of the hash less, and there is room again. -/
lemma tryIncreaseInfo_spec (valid : d.Valid) (wide : 2 < d.fInfoInc) :
    ∃ d', d.tryIncreaseInfo = some d' ∧ d'.Valid ∧ d'.fMaxSize ≠ 0 ∧ d'.slots = d.slots := by
  obtain ⟨half, even, two, small, inc⟩ := inc_even valid.inc wide
  have elems : calcSizeWithBuffer (d.fMask + 1) = d.size := rfl
  have infoLength := valid.infoLength
  have shifted : d.fInfoInc >>> 1 = half := by
    omega
  have maxSize := calcMaxSize_ge valid.large
  refine ⟨_, if_neg (not_le.mpr wide), ?_⟩
  refine and_left_comm.mpr ⟨ne_of_gt (lt_of_lt_of_le (by decide) maxSize), ?_⟩
  refine valid_halved valid even two small inc rfl rfl shifted rfl rfl ?_ ?_
  · rw [length_set, length_append, length_map, length_take, length_drop]
    omega
  intro i within
  rw [elems, getElem?_set_ne (by omega), getElem?_append_left (by
    rw [length_map, length_take]
    omega), getElem?_map, getElem?_take_of_lt (by omega)]
  rfl

lemma tryIncreaseInfo_eq_none : d.tryIncreaseInfo = none ↔ d.fInfoInc ≤ 2 := by
  unfold tryIncreaseInfo
  split <;> simp_all

/-- The entries of a table. -/
def Has (d : Data) (pos : RowPosHash) : Prop := ∃ i, d.slots i = some pos

lemma insertSwap_spec (valid : d.Valid) (pos : RowPosHash) :
    d.insertSwap pos = .error .diskaggOverflow1 ∨
      ∃ d', d.insertSwap pos = .ok d' ∧ d'.Valid ∧
        ∀ other, d'.Has other ↔ other = pos ∨ d.Has other := by
  -- the insertion itself, into a table with room
  have insert : ∀ d₁ : Data, d₁.Valid → d₁.fMaxSize ≠ 0 → ∃ d',
      (do
        let found ← nextWhileLessOrEqual d₁.fInfoInc (d₁.rowHashToIdx pos.hash).1
          (d₁.rowHashToIdx pos.hash).2 (d₁.fInfo.drop (d₁.rowHashToIdx pos.hash).2)
        d₁.place found.2 (found.1 % 256) pos) = .ok d' ∧ d'.Valid ∧
        ∀ other, d'.Has other ↔ other = pos ∨ d₁.Has other := by
    intro d₁ valid₁ room
    obtain ⟨p, near, stop⟩ := exists_stop valid₁ pos.hash
    obtain ⟨start, info⟩ := start_eq valid₁ pos.hash
    have size := valid₁.size_eq
    have found := nextWhileLessOrEqual_spec valid₁ stop (by omega) start.ge (start ▸ stop.start)
    have byte := byte_of_stop valid₁ stop room
    obtain ⟨d', done, valid', entries⟩ := place_spec valid₁ stop near room
    refine ⟨d', ?_, valid', entries⟩
    rw [info, found]
    simp only [rank] at byte done
    simpa only [bind, Except.bind, mod_eq_of_lt (lt_succ_of_le byte)] using done
  unfold insertSwap
  by_cases full : d.fMaxSize = 0
  · rw [if_pos full]
    by_cases narrow : d.fInfoInc ≤ 2
    · rw [tryIncreaseInfo_eq_none.mpr narrow]
      exact .inl rfl
    obtain ⟨d₁, done, valid₁, room, slots⟩ := tryIncreaseInfo_spec valid (not_le.mp narrow)
    rw [done]
    obtain ⟨d', inserted, valid', entries⟩ := insert d₁ valid₁ room
    refine .inr ⟨d', inserted, valid', fun other => ?_⟩
    rw [entries other, Has, slots, Has]
  · rw [if_neg full]
    exact .inr (insert d valid full)

/-- The arrays can be read in all slots. -/
def Readable (d : Data) : Prop := d.size ≤ d.fInfo.length ∧ d.size ≤ d.fHashes.length

lemma readable_multiplier (readable : d.Readable) (multiplier : BitVec 64) :
    Readable { d with hashMultiplier := multiplier } ∧
      slots { d with hashMultiplier := multiplier } = d.slots := ⟨readable, rfl⟩

lemma Valid.readable (valid : d.Valid) : d.Readable := by
  have size := valid.size_eq
  have infoLength := valid.infoLength
  have hashLength := valid.hashLength
  exact ⟨by omega, by omega⟩

lemma reinsert_spec {old : Data} (readable : old.Readable) (list : List Nat)
    (within : ∀ i ∈ list, i < old.size) (valid : d.Valid) :
    reinsert old list d = .error .diskaggOverflow1 ∨
      ∃ d', reinsert old list d = .ok d' ∧ d'.Valid ∧
        ∀ other, d'.Has other ↔ (∃ i ∈ list, old.slots i = some other) ∨ d.Has other := by
  induction list generalizing d with
  | nil =>
    refine .inr ⟨d, rfl, valid, fun other => ?_⟩
    simp
  | cons i rest later =>
    have inSize := within i mem_cons_self
    have inInfo : i < old.fInfo.length := inSize.trans_le readable.1
    have inHashes : i < old.fHashes.length := inSize.trans_le readable.2
    have rest' : ∀ j ∈ rest, j < old.size := fun j member => within j (mem_cons_of_mem i member)
    have entry : old.slots i = if old.fInfo[i] ≠ 0 then some old.fHashes[i] else none := by
      rw [slots, getD_eq_getElem?_getD, getElem?_eq_getElem inInfo, getElem?_eq_getElem inHashes]
      simp [inSize]
    rw [reinsert, getElem?_eq_getElem inInfo, getElem?_eq_getElem inHashes]
    simp only [access, bind, Except.bind]
    by_cases empty : old.fInfo[i] = 0
    · rw [if_neg (not_not.mpr empty)] at entry ⊢
      rcases later rest' valid with failed | ⟨d', done, valid', entries⟩
      · exact .inl failed
      · refine .inr ⟨d', done, valid', fun other => ?_⟩
        rw [entries other]
        simp [entry]
    rw [if_pos empty] at entry ⊢
    rcases insertSwap_spec valid old.fHashes[i] with failed | ⟨d₁, inserted, valid₁, entries₁⟩
    · rw [failed]
      exact .inl rfl
    rw [inserted]
    rcases later rest' valid₁ with failed | ⟨d', done, valid', entries⟩
    · exact .inl failed
    · refine .inr ⟨d', done, valid', fun other => ?_⟩
      rw [entries other, entries₁ other, exists_mem_cons_iff, entry, Option.some_inj,
        or_assoc, or_left_comm (a := _), @eq_comm _ other]

lemma valid_of_empty (large : 512 ≤ d.fMask + 1)
    (inc : d.fInfoInc * 2 ^ d.fInfoHashShift = 32) (two : 2 ≤ d.fInfoInc)
    (infoLength : d.fInfo.length = d.size + 8) (hashLength : d.fHashes.length = d.fMask + 1 + 0xFF)
    (empty : ∀ i, d.slots i = none) : d.Valid := by
  have nothing : ∀ i pos, d.slots i ≠ some pos := fun i pos found => by
    rw [empty i] at found
    cases found
  refine ⟨large, inc, two, infoLength, hashLength, ?_, ?_, ?_, ?_⟩
  · rw [show d.slots = fun _ => none from funext empty]
    exact Layout.empty
  · exact fun i pos found => absurd found (nothing i pos)
  · exact fun i pos found => absurd found (nothing i pos)
  · exact fun _ i pos found => absurd found (nothing i pos)

lemma initData_spec (d : Data) {elems : Nat} (large : 512 ≤ elems) (granted : Bool) :
    d.initData elems granted = .error .aggregationTooBig ∨
      ∃ d', d.initData elems granted = .ok d' ∧ d'.Valid ∧ d'.fMaxSize ≠ 0 ∧
        ∀ i, d'.slots i = none := by
  cases granted with
  | false => exact .inl rfl
  | true =>
    have mask : elems - 1 + 1 = elems := by omega
    have maxSize := calcMaxSize_ge large
    obtain ⟨d', done⟩ : ∃ d', d.initData elems true = .ok d' := ⟨_, rfl⟩
    have isNew := (Except.ok.inj done).symm
    have empty : ∀ i, d'.slots i = none := by
      intro i
      refine if_neg ?_
      rintro ⟨within, occupied⟩
      simp only [isNew, size, mask] at within occupied
      apply occupied
      rw [getD_eq_getElem?_getD, getElem?_set_ne (by omega), getElem?_replicate]
      split <;> rfl
    refine .inr ⟨d', done, valid_of_empty ?_ ?_ ?_ ?_ ?_ empty, ?_, empty⟩
    · simp only [isNew, mask]
      exact large
    · simp only [isNew]
      decide
    · simp only [isNew]
      decide
    · simp only [isNew, size, mask, length_set, length_replicate]
      rfl
    · simp [isNew, mask]
    · rw [isNew]
      exact ne_of_gt (lt_of_lt_of_le (by decide) maxSize)

lemma rehashPowerOfTwo_spec (readable : d.Readable) (large : 512 ≤ d.fMask + 1) {elems : Nat}
    (large' : 512 ≤ elems) (granted : Bool) :
    (∃ fault, d.rehashPowerOfTwo elems granted = .error fault ∧ fault ≠ .undefined) ∨
      ∃ d', d.rehashPowerOfTwo elems granted = .ok d' ∧ d'.Valid ∧
        ∀ pos, d'.Has pos ↔ d.Has pos := by
  unfold rehashPowerOfTwo
  rcases d.initData_spec large' granted with failed | ⟨new, done, valid, -, empty⟩
  · rw [failed]
    exact .inl ⟨_, rfl, by decide⟩
  have several : calcSizeWithBuffer (d.fMask + 1) > 1 := by
    unfold calcSizeWithBuffer
    omega
  rw [done]
  simp only [bind, if_pos several]
  have within : ∀ i ∈ range d.size, i < d.size := fun i member => mem_range.mp member
  rcases reinsert_spec readable (range d.size) within valid with
    failed | ⟨d', inserted, valid', entries⟩
  · exact .inl ⟨_, failed, by decide⟩
  refine .inr ⟨d', inserted, valid', fun pos => ?_⟩
  have empty : ¬new.Has pos := by
    rintro ⟨i, found⟩
    rw [empty i] at found
    cases found
  rw [entries pos, or_iff_left empty]
  constructor
  · rintro ⟨i, -, found⟩
    exact ⟨i, found⟩
  · rintro ⟨i, found⟩
    exact ⟨i, mem_range.mpr (slots_lt found), found⟩

lemma reserve_spec {c : Nat} (count : c = 256 ∨ c = 8192) (hashes : List RowPosHash)
    (granted : Bool) :
    (Data.new hashes).reserve c granted = .error .aggregationTooBig ∨
      ∃ d', (Data.new hashes).reserve c granted = .ok d' ∧ d'.Valid ∧ d'.fMaxSize ≠ 0 ∧
        ∀ i, d'.slots i = none := by
  obtain ⟨elems, large, newSize⟩ : ∃ elems, 512 ≤ elems ∧ reserveSize (max c 0) = some elems := by
    rcases count with rfl | rfl
    · exact ⟨512, le_refl _, by decide +kernel⟩
    · exact ⟨16384, by decide, by decide +kernel⟩
  have reserved : (Data.new hashes).reserve c granted =
      (Data.new hashes).initData elems granted := by
    have larger : elems > (Data.new hashes).fMask + 1 := by
      simp only [Data.new]
      omega
    have one : ¬calcSizeWithBuffer ((Data.new hashes).fMask + 1) > 1 := by
      simp only [Data.new]
      decide
    simp only [reserve, show (Data.new hashes).fSize = 0 from rfl, newSize, if_pos larger,
      rehashPowerOfTwo, if_neg one]
    cases (Data.new hashes).initData elems granted <;> rfl
  rw [reserved]
  exact (Data.new hashes).initData_spec large granted

end Data

end RowAggStorage
