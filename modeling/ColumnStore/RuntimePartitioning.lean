import ColumnStore.JoinKeys

/-!
# Extent elimination by a join

While the small side of a join is read, `TupleJoiner` keeps the least and the greatest key, or up to
a hundred discrete keys. `forwardCPData` hands them to `addCPPredicates`, which removes the extents
of the large-side key column that cannot hold any of them. Keys are integers and decimals of one
scale; a column of up to eight bytes is signed or unsigned, one of sixteen bytes is signed.
Anti-joins and large-side outer joins eliminate nothing and are left out, as are character keys.
-/

namespace RuntimePartitioning

open JoinKeys List Int

inductive KeyType where
  | signed (width : Width)
  | unsigned (width : Width)
  /-- `isWideDecimalType`. -/
  | wide
  deriving DecidableEq

namespace KeyType

def lowest : KeyType → Int
  | signed width => -2 ^ (8 * width.bytes - 1)
  | unsigned _ => 0
  | wide => -2 ^ 127

def highest : KeyType → Int
  | signed width => 2 ^ (8 * width.bytes - 1) - 1
  | unsigned width => 2 ^ (8 * width.bytes) - 1
  | wide => 2 ^ 127 - 1

/-- The pattern of NULL, which is read like a key. -/
def nullValue : KeyType → Int
  | unsigned width => 2 ^ (8 * width.bytes) - 2
  | t => t.lowest

/-- What a column of the type can hold. -/
structure Field (t : KeyType) where
  value : Int
  low : t.lowest ≤ value
  high : value ≤ t.highest

end KeyType

def toInt64 (v : Int) : Int := v.bmod (2 ^ 64)

def toUint64 (v : Int) : Int := v % 2 ^ 64

def toUint128 (v : Int) : Int := v % 2 ^ 128

section Small

variable (t : KeyType)

/-- The start values of `cpValues`. -/
def cpValues : Int × Int :=
  match t with
  | .signed _ => (2 ^ 63 - 1, -2 ^ 63)
  | .unsigned _ => (2 ^ 64 - 1, 0)
  | .wide => (2 ^ 127 - 1, -2 ^ 127)

def updateCPData (cp : Int × Int) (r : t.Field) : Int × Int :=
  match t with
  | .unsigned _ =>
    (if toUint128 r.value < toUint128 cp.1 then r.value else cp.1,
      if toUint128 cp.2 < toUint128 r.value then r.value else cp.2)
  | _ => (if r.value < cp.1 then r.value else cp.1, if cp.2 < r.value then r.value else cp.2)

def uniqueLimit : Nat := 100

/-- What `doneInserting` puts into its set. -/
def uniqued (r : t.Field) : Int :=
  match t with
  | .unsigned _ => toInt64 r.value
  | _ => r.value

/-- The loop of `doneInserting`, which gives up at the limit. -/
def collect (uniquer : List Int) : List t.Field → Option (List Int)
  | [] => some uniquer
  | r :: rest =>
    if uniqueLimit < (uniquer.insert (uniqued t r)).length then none
    else collect (uniquer.insert (uniqued t r)) rest

inductive CPData where
  | discrete (vals : List Int)
  | range (min max : Int)

def doneInserting (rows : List t.Field) : CPData :=
  match collect t [] rows with
  | some vals => .discrete vals
  | none =>
    let cp := rows.foldl (updateCPData t) (cpValues t)
    .range cp.1 cp.2

end Small

def checkSingleValue (isUnsigned : Bool) (min max value : Int) : Bool :=
  if isUnsigned then toUint64 min ≤ toUint64 value ∧ toUint64 value ≤ toUint64 max
  else min ≤ value ∧ value ≤ max

def checkRangeOverlap (isUnsigned : Bool) (min max tmin tmax : Int) : Bool :=
  if isUnsigned then toUint64 tmin ≤ toUint64 max ∧ toUint64 min ≤ toUint64 tmax
  else tmin ≤ max ∧ min ≤ tmax

def check (isUnsigned : Bool) (min max : Int) : CPData → Bool
  | .discrete vals => vals.any (checkSingleValue isUnsigned min max)
  | .range tmin tmax => checkRangeOverlap isUnsigned min max tmin tmax

def CPData.map (f : Int → Int) : CPData → CPData
  | .discrete vals => .discrete (vals.map f)
  | .range min max => .range (f min) (f max)

/-- The bounds of an extent whose range is valid. -/
structure Extent (t : KeyType) where
  lo : t.Field
  hi : t.Field

/-- `addCPPredicates`: the extent is still to be scanned. Bounds of up to eight bytes are kept as
64-bit patterns. -/
def addCPPredicates {large : KeyType} (e : Extent large) (data : CPData)
    (isSmallSideWideDecimal : Bool) : Bool :=
  match large with
  | .wide => check false e.lo.value e.hi.value data
  | .signed _ =>
    check false (toInt64 e.lo.value) (toInt64 e.hi.value)
      (if isSmallSideWideDecimal then data else data.map toInt64)
  | .unsigned _ =>
    check true (toInt64 e.lo.value) (toInt64 e.hi.value)
      (if isSmallSideWideDecimal then data else data.map toInt64)

/-- `forwardCPData` for one key column. -/
def forwardCPData {small large : KeyType} (rows : List small.Field) (e : Extent large) : Bool :=
  addCPPredicates e (doneInserting small rows) (small = .wide)

section Statements

variable {small large : KeyType} (rows : List small.Field) (e : Extent large)

/-- A key that is not NULL can be stored in the extent. -/
def Meets : Prop :=
  ∃ r ∈ rows, r.value ≠ small.nullValue ∧ e.lo.value ≤ r.value ∧ r.value ≤ e.hi.value

/-- The keys are used one by one. -/
def Few : Prop := ((rows.map (uniqued small)).toFinset).card ≤ uniqueLimit

/-- When an extent that is met is kept. The source reads negative keys as unsigned for an unsigned
large column and unsigned keys as signed for a signed one. -/
def Kept : Prop :=
  match small, large with
  | .unsigned _, .signed _ => Few rows ∨ (∀ r ∈ rows, r.value < 2 ^ 63) ∨
      ∃ r ∈ rows, 2 ^ 63 ≤ r.value ∧ e.lo.value ≤ r.value - 2 ^ 64
  | .signed _, .unsigned _ => Few rows ∨ (∀ r ∈ rows, 0 ≤ r.value) ∨
      ∃ r ∈ rows, r.value < 0 ∧ r.value + 2 ^ 64 ≤ e.hi.value
  | .wide, .unsigned _ => Few rows ∨
      (∃ r ∈ rows, (∀ r' ∈ rows, r.value ≤ r'.value) ∧ r.value % 2 ^ 64 ≤ e.hi.value) ∧
        ∃ r ∈ rows, (∀ r' ∈ rows, r'.value ≤ r.value) ∧ e.lo.value ≤ r.value % 2 ^ 64
  | .unsigned _, .wide => ¬Few rows ∨ ∃ r ∈ rows,
      r.value < 2 ^ 63 ∧ e.lo.value ≤ r.value ∧ r.value ≤ e.hi.value ∨
        2 ^ 63 ≤ r.value ∧ e.lo.value ≤ r.value - 2 ^ 64 ∧ r.value - 2 ^ 64 ≤ e.hi.value
  | _, _ => True

end Statements

variable {v : Int}

lemma toInt64_eq (low : -2 ^ 63 ≤ v) (high : v < 2 ^ 63) : toInt64 v = v := by
  rw [toInt64, bmod_def]
  omega

lemma toInt64_high (low : 2 ^ 63 ≤ v) (high : v < 2 ^ 64) : toInt64 v = v - 2 ^ 64 := by
  rw [toInt64, bmod_def]
  omega

lemma toUint64_eq (low : 0 ≤ v) (high : v < 2 ^ 64) : toUint64 v = v :=
  emod_eq_of_lt low high

lemma toUint64_negative (low : -2 ^ 63 ≤ v) (high : v < 0) : toUint64 v = v + 2 ^ 64 := by
  rw [toUint64]
  omega

lemma toUint64_toInt64 (v : Int) : toUint64 (toInt64 v) = toUint64 v := by
  rw [toInt64, toUint64, toUint64, bmod_def]
  omega

lemma toInt64_toInt64 (v : Int) : toInt64 (toInt64 v) = toInt64 v := by
  rw [toInt64, toInt64, bmod_def, bmod_def]
  omega

lemma signed_bounds {width : Width} (r : (KeyType.signed width).Field) :
    -2 ^ 63 ≤ r.value ∧ r.value < 2 ^ 63 := by
  have low := r.low
  have high := r.high
  cases width <;> simp only [KeyType.lowest, KeyType.highest, Width.bytes] at low high <;> omega

lemma unsigned_bounds {width : Width} (r : (KeyType.unsigned width).Field) :
    0 ≤ r.value ∧ r.value < 2 ^ 64 := by
  have low := r.low
  have high := r.high
  cases width <;> simp only [KeyType.lowest, KeyType.highest, Width.bytes] at low high <;> omega

lemma collect_spec (t : KeyType) (rows : List t.Field) {uniquer : List Int}
    (nodup : uniquer.Nodup) (fits : uniquer.length ≤ uniqueLimit) :
    (∃ vals, collect t uniquer rows = some vals ∧
        (∀ v, v ∈ vals ↔ v ∈ uniquer ∨ v ∈ rows.map (uniqued t)) ∧
        (uniquer.toFinset ∪ (rows.map (uniqued t)).toFinset).card ≤ uniqueLimit) ∨
      collect t uniquer rows = none ∧
        uniqueLimit < (uniquer.toFinset ∪ (rows.map (uniqued t)).toFinset).card := by
  induction rows generalizing uniquer with
  | nil =>
    refine .inl ⟨uniquer, rfl, by simp, ?_⟩
    simpa [toFinset_card_of_nodup nodup] using fits
  | cons r rest ih =>
    have nodup' := nodup.insert (a := uniqued t r)
    have same : uniquer.toFinset ∪ ((r :: rest).map (uniqued t)).toFinset =
        (uniquer.insert (uniqued t r)).toFinset ∪ (rest.map (uniqued t)).toFinset := by
      ext v
      simp only [Finset.mem_union, mem_toFinset, map_cons, mem_cons, mem_insert_iff]
      tauto
    rw [same, collect]
    split
    · rename_i many
      refine .inr ⟨rfl, many.trans_le ?_⟩
      rw [← toFinset_card_of_nodup nodup']
      exact Finset.card_le_card Finset.subset_union_left
    rename_i few
    obtain ⟨vals, result, members, count⟩ | stopped := ih nodup' (not_lt.mp few)
    · refine .inl ⟨vals, result, fun v => ?_, count⟩
      rw [members, mem_insert_iff, map_cons, mem_cons]
      tauto
    · exact .inr stopped

/-- The start values and the unsigned comparisons do not disturb the bounds. -/
def Proper (t : KeyType) (cp : Int × Int) : Prop :=
  match t with
  | .unsigned _ => 0 ≤ cp.1 ∧ cp.1 < 2 ^ 64 ∧ 0 ≤ cp.2 ∧ cp.2 < 2 ^ 64
  | _ => True

variable {t : KeyType}

lemma updateCPData_spec {cp : Int × Int} (proper : Proper t cp) (r : t.Field) :
    updateCPData t cp r = (min cp.1 r.value, max cp.2 r.value) ∧
      Proper t (updateCPData t cp r) := by
  cases t with
  | unsigned width =>
    have bounds := unsigned_bounds r
    simp only [Proper, updateCPData, toUint128] at proper ⊢
    refine ⟨Prod.ext ?_ ?_, ?_⟩ <;> split_ifs <;> omega
  | _ =>
    refine ⟨Prod.ext ?_ ?_, trivial⟩ <;> simp only [updateCPData] <;> split_ifs <;> omega

lemma foldl_updateCPData (rows : List t.Field) {cp : Int × Int} (proper : Proper t cp) :
    let out := rows.foldl (updateCPData t) cp
    (∀ r ∈ rows, out.1 ≤ r.value ∧ r.value ≤ out.2) ∧ out.1 ≤ cp.1 ∧ cp.2 ≤ out.2 ∧
      (out.1 = cp.1 ∨ ∃ r ∈ rows, r.value = out.1) ∧
      (out.2 = cp.2 ∨ ∃ r ∈ rows, r.value = out.2) := by
  induction rows generalizing cp with
  | nil => simp
  | cons r rest ih =>
    obtain ⟨update, proper'⟩ := updateCPData_spec proper r
    obtain ⟨bounds, low, high, least, greatest⟩ := ih proper'
    simp only [foldl_cons, mem_cons, forall_eq_or_imp, exists_eq_or_imp]
    generalize rest.foldl (updateCPData t) (updateCPData t cp r) = out at *
    rw [update] at low high least greatest
    refine ⟨⟨⟨low.trans (min_le_right _ _), (le_max_right _ _).trans high⟩, bounds⟩,
      low.trans (min_le_left _ _), (le_max_left _ _).trans high, ?_, ?_⟩
    · obtain same | found := least
      · exact (min_choice cp.1 r.value).imp same.trans fun isR => .inl (same.trans isR).symm
      · exact .inr (.inr found)
    · obtain same | found := greatest
      · exact (max_choice cp.2 r.value).imp same.trans fun isR => .inl (same.trans isR).symm
      · exact .inr (.inr found)

/-- What is handed over: the keys, or the least and the greatest of them. -/
lemma doneInserting_spec {rows : List t.Field} {r₀ : t.Field} (some_ : r₀ ∈ rows) :
    (Few rows ∧ ∃ vals, doneInserting t rows = .discrete vals ∧
        ∀ v, v ∈ vals ↔ ∃ r ∈ rows, uniqued t r = v) ∨
      ¬Few rows ∧ ∃ a ∈ rows, ∃ b ∈ rows, (∀ r ∈ rows, a.value ≤ r.value ∧ r.value ≤ b.value) ∧
        doneInserting t rows = .range a.value b.value := by
  rw [doneInserting]
  obtain ⟨vals, result, members, count⟩ | ⟨result, count⟩ :=
    collect_spec t rows nodup_nil (Nat.zero_le _)
  · refine .inl ⟨by simpa [Few] using count, vals, by rw [result], fun v => ?_⟩
    simpa using members v
  have proper : Proper t (cpValues t) := by cases t <;> simp [Proper, cpValues]
  have start : r₀.value ≤ (cpValues t).1 ∧ (cpValues t).2 ≤ r₀.value := by
    cases t with
    | signed width =>
      have := signed_bounds r₀
      simp only [cpValues]
      omega
    | unsigned width =>
      have := unsigned_bounds r₀
      simp only [cpValues]
      omega
    | wide => exact ⟨r₀.high, r₀.low⟩
  obtain ⟨bounds, -, -, least, greatest⟩ := foldl_updateCPData rows proper
  have here := bounds r₀ some_
  obtain ⟨a, inA, isA⟩ : ∃ r ∈ rows, r.value = (rows.foldl (updateCPData t) (cpValues t)).1 :=
    least.elim (fun same => ⟨r₀, some_, by omega⟩) id
  obtain ⟨b, inB, isB⟩ : ∃ r ∈ rows, r.value = (rows.foldl (updateCPData t) (cpValues t)).2 :=
    greatest.elim (fun same => ⟨r₀, some_, by omega⟩) id
  refine .inr ⟨not_le.mpr (by simpa using count), a, inA, b, inB, fun r member => ?_, ?_⟩
  · rw [isA, isB]
    exact bounds r member
  · rw [result, isA, isB]

section Checks

variable {small large : KeyType} {rows : List small.Field} {e : Extent large}

/-- The casts of the bounds and of the keys before they are compared. -/
def boundAs (large : KeyType) (v : Int) : Int :=
  match large with
  | .wide => v
  | .signed _ | .unsigned _ => toInt64 v

def comparedAs (small large : KeyType) (v : Int) : Int :=
  match small with
  | .wide => v
  | .signed _ | .unsigned _ => boundAs large v

def isUnsigned : KeyType → Bool
  | .unsigned _ => true
  | .signed _ | .wide => false

lemma forwardCPData_discrete {vals : List Int} (data : doneInserting small rows = .discrete vals)
    (members : ∀ v, v ∈ vals ↔ ∃ r ∈ rows, uniqued small r = v) :
    forwardCPData rows e ↔ ∃ r ∈ rows, checkSingleValue (isUnsigned large)
      (boundAs large e.lo.value) (boundAs large e.hi.value)
      (comparedAs small large (uniqued small r)) := by
  have found : ∀ p : Int → Bool, vals.any p ↔ ∃ r ∈ rows, p (uniqued small r) := by
    intro p
    simp only [any_eq_true, members]
    constructor
    · rintro ⟨_, ⟨r, member, rfl⟩, holds⟩
      exact ⟨r, member, holds⟩
    · rintro ⟨r, member, holds⟩
      exact ⟨_, ⟨r, member, rfl⟩, holds⟩
  rw [forwardCPData, data]
  cases small <;> cases large <;>
    simp only [addCPPredicates, check, CPData.map, reduceCtorEq, decide_false, decide_true,
      if_false, if_true, any_map, found] <;> rfl

lemma forwardCPData_range {tmin tmax : Int} (data : doneInserting small rows = .range tmin tmax) :
    forwardCPData rows e = checkRangeOverlap (isUnsigned large)
      (boundAs large e.lo.value) (boundAs large e.hi.value)
      (comparedAs small large tmin) (comparedAs small large tmax) := by
  rw [forwardCPData, data]
  cases small <;> cases large <;>
    simp only [reduceCtorEq, decide_false, decide_true] <;>
      rfl

variable {r : small.Field}

/-- A key by itself is found, save an unsigned one in a wide decimal column. -/
lemma single_found (low : e.lo.value ≤ r.value) (high : r.value ≤ e.hi.value)
    (apart : ∀ width, small = .unsigned width → large ≠ .wide) :
    checkSingleValue (isUnsigned large) (boundAs large e.lo.value) (boundAs large e.hi.value)
      (comparedAs small large (uniqued small r)) := by
  cases large with
  | wide =>
    cases small with
    | unsigned width => exact absurd rfl (apart width rfl)
    | _ => exact decide_eq_true ⟨low, high⟩
  | signed width =>
    have lo := signed_bounds e.lo
    have hi := signed_bounds e.hi
    have same : comparedAs small (.signed width) (uniqued small r) = r.value := by
      cases small with
      | wide => rfl
      | signed _ =>
        have own := signed_bounds r
        exact toInt64_eq own.1 own.2
      | unsigned _ => exact (toInt64_toInt64 _).trans (toInt64_eq (by omega) (by omega))
    rw [same, boundAs, boundAs, toInt64_eq lo.1 lo.2, toInt64_eq hi.1 hi.2]
    exact decide_eq_true ⟨low, high⟩
  | unsigned width =>
    have lo := unsigned_bounds e.lo
    have hi := unsigned_bounds e.hi
    have same : toUint64 (comparedAs small (.unsigned width) (uniqued small r)) = r.value := by
      have own : toUint64 r.value = r.value := toUint64_eq (by omega) (by omega)
      cases small with
      | wide => exact own
      | signed _ => exact (toUint64_toInt64 _).trans own
      | unsigned _ => exact (toUint64_toInt64 _).trans ((toUint64_toInt64 _).trans own)
    rw [checkSingleValue, same, boundAs, boundAs, toUint64_toInt64, toUint64_toInt64, toUint64_eq
      lo.1 lo.2, toUint64_eq hi.1 hi.2]
    exact decide_eq_true ⟨low, high⟩

lemma discrete_iff (few : Few rows) (member : r ∈ rows) (low : e.lo.value ≤ r.value)
    (high : r.value ≤ e.hi.value) :
    (∃ r ∈ rows, checkSingleValue (isUnsigned large) (boundAs large e.lo.value)
      (boundAs large e.hi.value) (comparedAs small large (uniqued small r))) ↔
      Kept rows e := by
  by_cases apart : ∀ width, small = .unsigned width → large ≠ .wide
  · refine iff_of_true ⟨r, member, single_found low high apart⟩ ?_
    cases small <;> cases large <;>
      first | exact trivial | exact .inl few | exact absurd rfl (apart _ rfl)
  obtain ⟨width, rfl, rfl⟩ : ∃ width, small = .unsigned width ∧ large = .wide := by
    simpa using apart
  rw [Kept, or_iff_right (not_not.mpr few)]
  refine exists_congr fun r => and_congr_right fun _ => ?_
  have bounds := unsigned_bounds r
  rw [checkSingleValue, isUnsigned, if_neg Bool.false_ne_true, decide_eq_true_eq]
  by_cases below : r.value < 2 ^ 63
  · have same : comparedAs (.unsigned width) .wide (uniqued (.unsigned width) r) = r.value :=
      toInt64_eq (by omega) below
    simp only [boundAs]
    omega
  · have same : comparedAs (.unsigned width) .wide (uniqued (.unsigned width) r) =
        r.value - 2 ^ 64 := toInt64_high (by omega) bounds.2
    simp only [boundAs]
    omega

lemma range_iff (many : ¬Few rows) {a b : small.Field} (low : e.lo.value ≤ r.value)
    (high : r.value ≤ e.hi.value) (member : r ∈ rows) (inA : a ∈ rows) (inB : b ∈ rows)
    (bounds : ∀ r ∈ rows, a.value ≤ r.value ∧ r.value ≤ b.value) :
    checkRangeOverlap (isUnsigned large) (boundAs large e.lo.value) (boundAs large e.hi.value)
      (comparedAs small large a.value) (comparedAs small large b.value) ↔ Kept rows e := by
  have here := bounds r member
  cases large with
  | wide =>
    have plain : ∀ v, comparedAs small .wide v = v := fun v => by cases small <;> rfl
    rw [plain, plain]
    refine iff_of_true (decide_eq_true ⟨here.1.trans high, low.trans here.2⟩) ?_
    cases small with
    | unsigned width => exact .inl many
    | _ => trivial
  | signed width =>
    have lo := signed_bounds e.lo
    have hi := signed_bounds e.hi
    rw [checkRangeOverlap, isUnsigned, if_neg Bool.false_ne_true, boundAs, boundAs,
      toInt64_eq lo.1 lo.2, toInt64_eq hi.1 hi.2, decide_eq_true_eq]
    cases small with
    | wide => exact iff_of_true ⟨here.1.trans high, low.trans here.2⟩ trivial
    | signed width' =>
      have boundA := signed_bounds a
      have boundB := signed_bounds b
      rw [comparedAs, comparedAs, boundAs, boundAs, toInt64_eq boundA.1 boundA.2,
        toInt64_eq boundB.1 boundB.2]
      exact iff_of_true ⟨here.1.trans high, low.trans here.2⟩ trivial
    | unsigned width' =>
      have boundA := unsigned_bounds a
      have boundB := unsigned_bounds b
      have least : toInt64 a.value ≤ e.hi.value := by
        rw [toInt64_eq (by omega) (by omega)]
        exact here.1.trans high
      rw [comparedAs, comparedAs, boundAs, boundAs, and_iff_right least, Kept, or_iff_right many]
      by_cases below : b.value < 2 ^ 63
      · rw [toInt64_eq (by omega) below]
        exact iff_of_true (low.trans here.2)
          (.inl fun r member => (bounds r member).2.trans_lt below)
      rw [toInt64_high (not_lt.mp below) boundB.2]
      constructor
      · intro reaches
        exact .inr ⟨b, inB, not_lt.mp below, reaches⟩
      rintro (all | ⟨r, member, -, reaches⟩)
      · exact absurd (all b inB) below
      · have := (bounds r member).2
        omega
  | unsigned width =>
    have lo := unsigned_bounds e.lo
    have hi := unsigned_bounds e.hi
    have pattern : ∀ v, toUint64 (comparedAs small (.unsigned width) v) = toUint64 v := by
      cases small with
      | wide => exact fun v => rfl
      | signed _ | unsigned _ => exact toUint64_toInt64
    rw [checkRangeOverlap, isUnsigned, if_pos rfl, pattern, pattern, boundAs, boundAs,
      toUint64_toInt64, toUint64_toInt64, toUint64_eq lo.1 lo.2, toUint64_eq hi.1 hi.2,
      decide_eq_true_eq]
    cases small with
    | unsigned width' =>
      have boundA := unsigned_bounds a
      have boundB := unsigned_bounds b
      rw [toUint64_eq boundA.1 boundA.2, toUint64_eq boundB.1 boundB.2]
      exact iff_of_true ⟨here.1.trans high, low.trans here.2⟩ trivial
    | signed width' =>
      have boundA := signed_bounds a
      have boundB := signed_bounds b
      rw [toUint64_eq (by omega : 0 ≤ b.value) (by omega), and_iff_left (low.trans here.2), Kept,
        or_iff_right many]
      by_cases negative : a.value < 0
      · rw [toUint64_negative boundA.1 negative]
        constructor
        · intro reaches
          exact .inr ⟨a, inA, negative, reaches⟩
        rintro (all | ⟨r, member, -, reaches⟩)
        · exact absurd (all a inA) (not_le.mpr negative)
        · have := (bounds r member).1
          omega
      · rw [toUint64_eq (not_lt.mp negative) (by omega)]
        exact iff_of_true (here.1.trans high)
          (.inl fun r member => (not_lt.mp negative).trans (bounds r member).1)
    | wide =>
      rw [Kept, or_iff_right many]
      refine and_congr ⟨fun reaches => ⟨a, inA, fun r member => (bounds r member).1, reaches⟩, ?_⟩
        ⟨fun reaches => ⟨b, inB, fun r member => (bounds r member).2, reaches⟩, ?_⟩
      · rintro ⟨r, member, least, reaches⟩
        rwa [(bounds r member).1.antisymm (least a inA)]
      · rintro ⟨r, member, greatest, reaches⟩
        rwa [(greatest b inB).antisymm (bounds r member).2]

end Checks

/-- An extent that can hold one of the keys stays exactly under these conditions. -/
theorem met_extent_scanned_iff {small large : KeyType} (rows : List small.Field)
    (e : Extent large) :
    (Meets rows e → forwardCPData rows e = true) ↔ (Meets rows e → Kept rows e) := by
  refine forall_congr' fun ⟨r, member, _, low, high⟩ => ?_
  obtain ⟨few, vals, data, members⟩ | ⟨many, a, inA, b, inB, bounds, data⟩ :=
    doneInserting_spec member
  · rw [forwardCPData_discrete data members]
    exact discrete_iff few member low high
  · rw [forwardCPData_range data]
    exact range_iff many low high member inA inB bounds

/-- A BIGINT UNSIGNED key of 2⁶³ removes the extent of a wide decimal column that holds it. -/
theorem high_unsigned_key_lost :
    let key : (KeyType.unsigned .eight).Field := ⟨2 ^ 63, by decide, by decide⟩
    let stored : KeyType.wide.Field := ⟨2 ^ 63, by decide, by decide⟩
    Meets [key] ⟨stored, stored⟩ ∧ forwardCPData [key] (⟨stored, stored⟩ : Extent .wide) = false :=
  ⟨⟨_, mem_singleton_self _, by decide, le_rfl, le_rfl⟩, by decide⟩

end RuntimePartitioning
