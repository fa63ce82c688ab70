import ColumnStore.ColumnTypes
import Mathlib.Tactic.IntervalCases

/-!
# Ranges of autoincrement values

Model of `startSequence` and `getAIRange` of `versioning/BRM/autoincrementmanager.cpp`. A sequence
is a word of 64 bits that wraps around and a limit that depends on the width and the type of the
column. The ranges handed out for a column follow each other and end below the first value that
the column cannot hold or that marks NULL or an empty slot. Locks, `resetSequence` and
`deleteSequence` are left out.
-/

namespace AutoincrementManager

open ColumnTypes Function

/-- The column a sequence is started for. -/
structure Column where
  colWidth : Nat
  colDataType : ColDataType
  positive : 1 ≤ colWidth
  width_le : colWidth ≤ 8

structure Sequence where
  value : BitVec 64
  overflow : BitVec 64
  deriving DecidableEq

abbrev Sequences := Nat → Option Sequence

def overflow (c : Column) : BitVec 64 :=
  if c.colDataType.isUnsigned then (BitVec.allOnes 64 >>> (64 - c.colWidth * 8)) - 1
  else 1#64 <<< (c.colWidth * 8 - 1)

def startSequence (m : Sequences) (oid : Nat) (firstNum : BitVec 64) (c : Column) : Sequences :=
  match m oid with
  | some _ => m
  | none => Function.update m oid (some ⟨firstNum, overflow c⟩)

/-- `getAIRange`: the first value, or `none` for the return value false. -/
def getAIRange (m : Sequences) (oid : Nat) (count : BitVec 64) :
    Except String (Sequences × Option (BitVec 64)) :=
  match m oid with
  | none => .error "There is no sequence with that lock"
  | some s =>
    if (s.overflow ≤ count ∨ s.overflow < count + s.value ∨ count + s.value ≤ s.value) ∧ count ≠ 0
    then .ok (m, none)
    else .ok (Function.update m oid (some { s with value := s.value + count }), some s.value)

/-- A range of values, in words. -/
structure Range where
  first : BitVec 64
  count : BitVec 64

/-- The first value after the range, as a number. -/
def Range.next (r : Range) : Nat := r.first.toNat + r.count.toNat

/-- The ranges with values that calls of `getAIRange` from `m` on hand out for `oid`, in their
order; the calls may be for other columns too. -/
def ranges (oid : Nat) : Sequences → List (Nat × BitVec 64) → List Range
  | _, [] => []
  | m, (other, count) :: calls =>
    match getAIRange m other count with
    | .error _ | .ok (_, none) => ranges oid m calls
    | .ok (m', some first) =>
      if other = oid ∧ count ≠ 0 then ⟨first, count⟩ :: ranges oid m' calls
      else ranges oid m' calls

/-- A value that the column can hold and that marks neither NULL nor an empty slot: unsigned
columns use their two greatest values for that, the others their two least. -/
def Usable (c : Column) (v : Int) : Prop :=
  if c.colDataType.isUnsigned then 0 ≤ v ∧ v < 2 ^ (8 * c.colWidth) - 2
  else -2 ^ (8 * c.colWidth - 1) + 2 ≤ v ∧ v < 2 ^ (8 * c.colWidth - 1)

lemma overflow_usable (c : Column) : Usable c ((overflow c).toNat - 1) := by
  obtain ⟨width, -, -, -⟩ := c
  unfold Usable overflow
  split <;> interval_cases width <;> dsimp only <;> decide

variable {oid : Nat} {s : Sequence} {m : Sequences}

/-- A call is refused and changes nothing, or it hands out what follows the value of the sequence,
up to its new value, without passing the limit. -/
lemma getAIRange_cases {count : BitVec 64} {m' : Sequences} {first : Option (BitVec 64)}
    (done : getAIRange m oid count = .ok (m', first)) :
    (first = none ∧ m' = m) ∨ ∃ s s', m oid = some s ∧ first = some s.value ∧
      m' = update m oid (some s') ∧ s'.overflow = s.overflow ∧
      s'.value.toNat = s.value.toNat + count.toNat ∧
      (count ≠ 0 → s'.value.toNat ≤ s.overflow.toNat) := by
  unfold getAIRange at done
  split at done
  case h_1 => cases done
  case h_2 s there =>
    split at done <;> cases done
    case isTrue => exact .inl ⟨rfl, rfl⟩
    case isFalse passed =>
      refine .inr ⟨s, _, there, rfl, rfl, rfl, ?_⟩
      by_cases empty : count = 0
      · simp [empty]
      · exact ⟨by bv_omega, fun _ => by bv_omega⟩

/-- The invariant of a run: what is still handed out starts at the value of the sequence or after
it, and ends within the limit. -/
lemma ranges_bounded (calls : List (Nat × BitVec 64)) (started : m oid = some s) :
    (∀ r ∈ ranges oid m calls, s.value.toNat ≤ r.first.toNat ∧ r.next ≤ s.overflow.toNat) ∧
      (ranges oid m calls).Pairwise fun r r' => r.next ≤ r'.first.toNat := by
  induction calls generalizing m s with
  | nil => exact ⟨nofun, .nil⟩
  | cons call calls ih =>
    obtain ⟨other, count⟩ := call
    simp only [ranges]
    split
    case h_1 | h_2 => exact ih started
    case h_3 m' first done =>
      obtain ⟨isNone, -⟩ | ⟨s₁, s', there, isFirst, rfl, sameLimit, moved, inLimit⟩ :=
        getAIRange_cases done
      · cases isNone
      cases isFirst
      by_cases same : other = oid
      · subst same
        cases there.symm.trans started
        obtain ⟨later, apart⟩ := ih (update_self other (some s') m)
        rw [sameLimit] at later
        have after : ∀ r ∈ ranges other (update m other (some s')) calls,
            s.value.toNat ≤ r.first.toNat ∧ r.next ≤ s.overflow.toNat := fun r member =>
          ⟨by have := later r member; omega, (later r member).2⟩
        split
        case isTrue nonempty =>
          have ends : (⟨s.value, count⟩ : Range).next = s'.value.toNat := moved.symm
          refine ⟨List.forall_mem_cons.mpr ⟨⟨le_rfl, ends ▸ inLimit nonempty.2⟩, after⟩,
            .cons (fun r member => ends ▸ (later r member).1) apart⟩
        case isFalse => exact ⟨after, apart⟩
      · rw [if_neg fun both => same both.1]
        exact ih ((update_of_ne (Ne.symm same) ..).trans started)

/-- After a sequence is started, the ranges handed out for its column do not overlap and increase,
do not wrap around, and have only values that are at most one the column can use. A refused call
changes nothing. -/
theorem ranges_disjoint_usable (m : Sequences) (oid : Nat) (fresh : m oid = none)
    (firstNum : BitVec 64) (c : Column) (calls : List (Nat × BitVec 64)) :
    (ranges oid (startSequence m oid firstNum c) calls).Pairwise
        (fun r r' => r.next ≤ r'.first.toNat) ∧
      (∀ r ∈ ranges oid (startSequence m oid firstNum c) calls, r.next < 2 ^ 64 ∧
        ∀ v < r.next, ∃ top, Usable c top ∧ (v : Int) ≤ top) ∧
      ∀ (m₁ m₂ : Sequences) (oid : Nat) (count : BitVec 64),
        getAIRange m₁ oid count = .ok (m₂, none) → m₂ = m₁ := by
  have started : startSequence m oid firstNum c oid = some ⟨firstNum, overflow c⟩ := by
    simp [startSequence, fresh]
  obtain ⟨bounded, apart⟩ := ranges_bounded calls started
  refine ⟨apart, fun r member => ?_, fun m₁ m₂ other count refused => ?_⟩
  · have inLimit := (bounded r member).2
    exact ⟨by bv_omega, fun v below => ⟨_, overflow_usable c, by dsimp only at inLimit; omega⟩⟩
  · obtain ⟨-, same⟩ | ⟨s, -, -, handedOut, -⟩ := getAIRange_cases refused
    · exact same
    · cases handedOut

/-- A column of one byte, started at 120, with room for eight more values. -/
theorem ranges_disjoint_usable_tinyint :
    (ranges 3000 (startSequence (fun _ => none) 3000 120 ⟨1, .tinyint, by decide, by decide⟩)
      [(3000, 5), (3000, 4), (3000, 3)]).Pairwise (fun r r' => r.next ≤ r'.first.toNat) ∧
    (ranges 3000 (startSequence (fun _ => none) 3000 120 ⟨1, .tinyint, by decide, by decide⟩)
      [(3000, 5), (3000, 4), (3000, 3)]).map Range.next = [125, 128] :=
  ⟨(ranges_disjoint_usable _ 3000 rfl 120 _ _).1, by decide⟩

end AutoincrementManager
