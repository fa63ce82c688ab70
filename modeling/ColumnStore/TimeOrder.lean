import Mathlib.Data.BitVec
import Mathlib.Data.List.Induction

/-!
# The order of TIME values

A TIME value is a struct of bit fields in 64 bits. `TimeCompare` orders the values for ORDER BY as
signed numbers, MIN and MAX compare them as unsigned ones, in `RowAggregation::doMinMax` and in
the window function `WF_min_max`. The three are compared with the order of the times themselves.
The text that `mysql_str_to_time` reads is not modelled, only the struct it fills in.
-/

namespace TimeOrder

open List

/-- What `mysql_str_to_time` reads: a sign and the fields in their ranges. -/
@[ext]
structure Time where
  isNeg : Bool
  hour : Nat
  minute : Nat
  second : Nat
  msecond : Nat
  hour_le : hour ≤ 838
  minute_lt : minute < 60
  second_lt : second < 60
  msecond_lt : msecond < 1000000

namespace Time

/-- The bits of the struct: the hour is negated in its 12 bits, the day is left at -1. -/
def packed (t : Time) : Nat :=
  t.msecond + t.second * 2 ^ 24 + t.minute * 2 ^ 32 +
    (if t.isNeg then (2 ^ 12 - t.hour) % 2 ^ 12 else t.hour) * 2 ^ 40 + (2 ^ 11 - 1) * 2 ^ 52 +
    (if t.isNeg then 2 ^ 63 else 0)

def magnitude (t : Time) : Int :=
  ((t.hour * 60 + t.minute) * 60 + t.second) * 1000000 + t.msecond

/-- The time in microseconds. -/
def micros (t : Time) : Int := if t.isNeg then -t.magnitude else t.magnitude

end Time

def timeNull : Nat := 0xFFFFFFFFFFFFFFFE

/-- `getIntField`. -/
def toInt64 (v : Nat) : Int := if v < 2 ^ 63 then v else v - 2 ^ 64

/-- `TimeCompare::operator()`; clearing the highest bit reduces a number modulo 2^63. -/
def timeCompare (fAsc fNf : Int) (field1 field2 : Nat) : Int :=
  let v1 := toInt64 field1
  let v2 := toInt64 field2
  if field1 = timeNull ∨ field2 = timeNull then
    if field1 ≠ timeNull ∧ field2 = timeNull then fNf
    else if field1 = timeNull ∧ field2 ≠ timeNull then -fNf
    else 0
  else if v1 < 0 ∧ v2 < 0 then
    if v1 % 2 ^ 63 < v2 % 2 ^ 63 then fAsc else if v1 % 2 ^ 63 > v2 % 2 ^ 63 then -fAsc else 0
  else if v1 > v2 then fAsc
  else if v1 < v2 then -fAsc
  else 0

inductive Func
  | min
  | max

def minMax (d1 d2 : Nat) : Func → Bool
  | .min => d1 < d2
  | .max => d1 > d2

/-- `RowAggregation::doMinMax` with `updateUintMinMax`. -/
def doMinMax (func : Func) (valOut valIn : Nat) : Nat :=
  if valIn = timeNull then valOut
  else if valOut = timeNull then valIn
  else if minMax valIn valOut func then valIn
  else valOut

def aggregate (func : Func) (values : List Nat) : Nat := values.foldl (doMinMax func) timeNull

/-- The loop of `WF_min_max::operator()`, with `fCount` and `fValue`. -/
def windowStep (func : Func) (s : Nat × Nat) (valIn : Nat) : Nat × Nat :=
  if valIn = timeNull then s
  else (s.1 + 1, if s.1 = 0 ∨ minMax valIn s.2 func then valIn else s.2)

def window (func : Func) (values : List Nat) : Option Nat :=
  let s := values.foldl (windowStep func) (0, 0)
  if s.1 > 0 then some s.2 else none

/-- The value is one of the times, and none is earlier (for MIN) or later (for MAX). -/
def Chosen (func : Func) (times : List Time) (value : Nat) : Prop :=
  ∃ t ∈ times, t.packed = value ∧ ∀ u ∈ times,
    match func with
    | .min => t.micros ≤ u.micros
    | .max => u.micros ≤ t.micros

/-- Ascending order, MIN and MAX are those of the times. -/
structure Chronological (fNf : Int) (times : List Time) : Prop where
  order : ∀ t ∈ times, ∀ u ∈ times,
    (timeCompare 1 fNf t.packed u.packed < 0 ↔ t.micros < u.micros)
  aggregated : ∀ func, Chosen func times (aggregate func (times.map Time.packed))
  windowed : ∀ func, ∃ value, window func (times.map Time.packed) = some value ∧
    Chosen func times value

section Fields

variable {t u : Time} {fNf : Int}

lemma packed_of_nonneg (nonneg : t.isNeg = false) : t.packed = t.msecond + t.second * 2 ^ 24 +
    t.minute * 2 ^ 32 + t.hour * 2 ^ 40 + (2 ^ 11 - 1) * 2 ^ 52 := by
  simp [Time.packed, nonneg]

lemma packed_ne_null (t : Time) : t.packed ≠ timeNull := by
  have := t.msecond_lt
  unfold Time.packed timeNull
  split <;> omega

lemma field_bounds (t : Time) :
    t.msecond < 1000000 ∧ t.second < 60 ∧ t.minute < 60 ∧ t.hour ≤ 838 :=
  ⟨t.msecond_lt, t.second_lt, t.minute_lt, t.hour_le⟩

lemma packed_bounds (t : Time) : (t.packed < 2 ^ 63 ↔ t.isNeg = false) ∧ t.packed < 2 ^ 64 := by
  have := field_bounds t
  cases sign : t.isNeg <;> simp only [Time.packed, sign] <;> simp <;> omega

/-- Two negative times are compared the other way round. -/
lemma timeCompare_lt_iff : timeCompare 1 fNf t.packed u.packed < 0 ↔
    match t.isNeg, u.isNeg with
    | false, false => t.packed < u.packed
    | true, true => u.packed < t.packed
    | true, false => True
    | false, true => False := by
  obtain ⟨sign, bound⟩ := packed_bounds t
  obtain ⟨sign', bound'⟩ := packed_bounds u
  simp only [timeCompare, packed_ne_null, or_self, if_false, toInt64]
  cases neg : t.isNeg <;> cases neg' : u.isNeg <;>
    simp only [neg, neg', Bool.true_eq_false, iff_true, iff_false] at sign sign' ⊢ <;>
    split_ifs <;> omega

lemma packed_lt_packed_iff (nonneg : t.isNeg = false) (nonneg' : u.isNeg = false) :
    t.packed < u.packed ↔ t.micros < u.micros := by
  have := field_bounds t
  have := field_bounds u
  rw [packed_of_nonneg nonneg, packed_of_nonneg nonneg']
  simp only [Time.micros, Time.magnitude, nonneg, nonneg', Bool.false_eq_true, if_false]
  omega

lemma eq_of_micros_eq (sign : t.isNeg = u.isNeg) (same : t.micros = u.micros) : t = u := by
  have := field_bounds t
  have := field_bounds u
  have magnitudes : t.magnitude = u.magnitude := by
    unfold Time.micros at same
    rw [sign] at same
    split at same <;> omega
  unfold Time.magnitude at magnitudes
  ext
  · exact sign
  all_goals omega

end Fields

section Loops

variable {func : Func} {values : List Nat}

/-- The value the loops keep: none of the others replaces it. -/
def Extreme (func : Func) (values : List Nat) (value : Nat) : Prop :=
  value ∈ values ∧ ∀ v ∈ values, minMax v value func = false

lemma aggregate_append (v : Nat) :
    aggregate func (values ++ [v]) = doMinMax func (aggregate func values) v := by
  simp [aggregate]

lemma aggregate_extreme (nonempty : values ≠ []) (known : timeNull ∉ values) :
    Extreme func values (aggregate func values) := by
  induction values using reverseRecOn with
  | nil => exact absurd rfl nonempty
  | append_singleton values v ih =>
    obtain ⟨before, isValue⟩ : timeNull ∉ values ∧ v ≠ timeNull := by simpa [eq_comm] using known
    rw [aggregate_append, doMinMax, if_neg isValue]
    rcases eq_or_ne values [] with rfl | nonempty
    · cases func <;> simp [aggregate, Extreme, minMax]
    obtain ⟨kept, best⟩ := ih nonempty before
    have isKnown : aggregate func values ≠ timeNull := fun null => before (null ▸ kept)
    rw [if_neg isKnown]
    split
    · next better =>
      refine ⟨by simp, forall_mem_append.mpr ⟨fun w old => ?_, ?_⟩⟩
      · have := best w old
        cases func <;> simp only [minMax, decide_eq_true_eq, decide_eq_false_iff_not] at * <;>
          omega
      · cases func <;> simp [minMax]
    · next worse =>
      refine ⟨mem_append_left _ kept, forall_mem_append.mpr ⟨best, ?_⟩⟩
      exact forall_mem_singleton.mpr (Bool.not_eq_true _ |>.mp worse)

/-- The window function keeps the same value. -/
lemma window_eq (known : timeNull ∉ values) :
    window func values = if values = [] then none else some (aggregate func values) := by
  have loop : values.foldl (windowStep func) (0, 0) =
      (values.length, if values = [] then 0 else aggregate func values) := by
    induction values using reverseRecOn with
    | nil => rfl
    | append_singleton values v ih =>
      obtain ⟨before, isValue⟩ : timeNull ∉ values ∧ v ≠ timeNull := by simpa [eq_comm] using known
      rw [foldl_append, ih before, foldl_cons, windowStep, if_neg isValue, aggregate_append,
        doMinMax, if_neg isValue]
      rcases eq_or_ne values [] with rfl | nonempty
      · simp [aggregate]
      · have kept : aggregate func values ∈ values := (aggregate_extreme nonempty before).1
        have isKnown : aggregate func values ≠ timeNull := fun null => before (null ▸ kept)
        simp [nonempty, isKnown]
  rw [window, loop]
  rcases eq_or_ne values [] with rfl | nonempty
  · rfl
  · simp [nonempty]

end Loops

section Result

variable {times : List Time} {fNf : Int}

lemma aggregate_packed (nonempty : times ≠ []) (func : Func) : ∃ t ∈ times,
    t.packed = aggregate func (times.map Time.packed) ∧
      ∀ u ∈ times, minMax u.packed t.packed func = false := by
  have known : timeNull ∉ times.map Time.packed := by
    simpa using fun t _ => packed_ne_null t
  obtain ⟨kept, best⟩ : Extreme func (times.map Time.packed) _ :=
    aggregate_extreme (by simpa using nonempty) known
  obtain ⟨t, member, same⟩ := mem_map.mp kept
  exact ⟨t, member, same, fun u other => same ▸ best u.packed (mem_map_of_mem other)⟩

/-- The window function needs no argument of its own. -/
lemma chronological_of_order (nonempty : times ≠ [])
    (order : ∀ t ∈ times, ∀ u ∈ times,
      (timeCompare 1 fNf t.packed u.packed < 0 ↔ t.micros < u.micros))
    (same : ∀ t ∈ times, ∀ u ∈ times, (t.packed < u.packed ↔ t.micros < u.micros)) :
    Chronological fNf times := by
  have aggregated : ∀ func, Chosen func times (aggregate func (times.map Time.packed)) := by
    intro func
    obtain ⟨t, member, isValue, best⟩ := aggregate_packed nonempty func
    refine ⟨t, member, isValue, fun u other => ?_⟩
    have kept := best u other
    cases func with
    | min =>
      rw [minMax, decide_eq_false_iff_not, same u other t member] at kept
      exact Int.not_lt.mp kept
    | max =>
      rw [minMax, decide_eq_false_iff_not, gt_iff_lt, same t member u other] at kept
      exact Int.not_lt.mp kept
  refine ⟨order, aggregated, fun func => ⟨_, ?_, aggregated func⟩⟩
  rw [window_eq (by simpa using fun t _ => packed_ne_null t), if_neg (by simpa using nonempty)]

/-- Negative times are in order only if there is just one time in the list. -/
theorem chronological_iff (nonempty : times ≠ []) : Chronological fNf times ↔
    (∀ t ∈ times, t.isNeg = false) ∨ ∀ t ∈ times, ∀ u ∈ times, t = u := by
  constructor
  · intro chronological
    by_contra both
    push Not at both
    obtain ⟨⟨a, member, negative⟩, t, isTime, u, isOther, different⟩ := both
    obtain ⟨least, isLeast, isValue, first⟩ := chronological.aggregated .min
    obtain ⟨t', isTime', isValue', best⟩ := aggregate_packed nonempty .min
    have lowest : ∀ u ∈ times, least.packed ≤ u.packed := fun u other => by
      simpa [minMax, isValue, isValue'] using best u other
    have order := chronological.order
    simp only [timeCompare_lt_iff] at order
    cases sign : least.isNeg with
    | false =>
      have before := order a member least isLeast
      rw [sign, eq_true_of_ne_false negative] at before
      have later : least.micros ≤ a.micros := first a member
      exact absurd (before.mp trivial) (Int.not_lt.mpr later)
    | true =>
      -- all times are negative, and the least value is the last one of them
      have single : ∀ u ∈ times, u = least := by
        intro u other
        have high : u.isNeg := by
          have bound := (packed_bounds least).1
          have bound' := (packed_bounds u).1
          have le := lowest u other
          rw [sign] at bound
          cases sign' : u.isNeg with
          | true => rfl
          | false =>
            rw [sign'] at bound'
            simp only [Bool.true_eq_false, iff_false, iff_true] at bound bound'
            omega
        have before := order u other least isLeast
        have after := order least isLeast u other
        rw [sign, high] at before after
        have le := lowest u other
        have le' : least.micros ≤ u.micros := first u other
        refine eq_of_micros_eq (high.trans sign.symm) ?_
        omega
      exact different ((single t isTime).trans (single u isOther).symm)
  rintro (nonneg | single)
  · have same : ∀ t ∈ times, ∀ u ∈ times, (t.packed < u.packed ↔ t.micros < u.micros) :=
      fun t member u other => packed_lt_packed_iff (nonneg t member) (nonneg u other)
    refine chronological_of_order nonempty (fun t member u other => ?_) same
    rw [timeCompare_lt_iff, nonneg t member, nonneg u other]
    exact same t member u other
  refine chronological_of_order nonempty (fun t member u other => ?_) fun t member u other => ?_
  · obtain rfl := single t member u other
    rw [timeCompare_lt_iff]
    cases t.isNeg <;> simp
  · simp [single t member u other]

def onTheHour (isNeg : Bool) (hour : Nat) (le : hour ≤ 838) : Time :=
  ⟨isNeg, hour, 0, 0, 0, le, by decide, by decide, by decide⟩

/-- Times that are not negative are in order. -/
theorem chronological_morning :
    Chronological 1 [onTheHour false 2 (by decide), onTheHour false 1 (by decide)] :=
  (chronological_iff (by simp)).mpr (.inl (by simp [onTheHour]))

/-- -01:00:00 is before -02:00:00 in ascending order. -/
theorem negative_hours_swapped :
    ¬ Chronological 1 [onTheHour true 2 (by decide), onTheHour true 1 (by decide)] := by
  intro chronological
  exact absurd (chronological.order _ (.head _) _ (.tail _ (.head _))) (by decide)

end Result

end TimeOrder
