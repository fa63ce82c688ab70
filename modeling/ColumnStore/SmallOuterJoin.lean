import Mathlib.Data.BitVec

/-!
# The unmatched rows of a small-outer join

Model of `finishSmallOuterJoin` and `processFE2` of `TupleHashJoinStep` and of `getUnmarkedRows`
of `TupleJoiner`. The rows of the small side without a mark are joined with the NULL rows of the
other tables, 8192 at a time, and each row group passes the second-stage filter.

The filter replaces the row group by its results, and there is no result if no row passes. The
marks are given; the threads and the memory of the row groups are not modelled.
-/

namespace SmallOuterJoin

open List

variable {V : Type}

abbrev RGData (V : Type) := List (List V)

structure SmallRow (V : Type) where
  fields : List V
  isMarked : Bool

/-- The rows of a joiner, in `rows` in PM mode and otherwise in the buckets of `ht`, `ld`, `h` or
`sth`, whichever the key columns choose. -/
structure Joiner (V : Type) where
  inPM : Bool
  rows : List (SmallRow V)
  buckets : List (List (SmallRow V))

def Joiner.smallRows (j : Joiner V) : List (SmallRow V) :=
  if j.inPM then j.rows else j.buckets.flatten

def Joiner.getUnmarkedRows (j : Joiner V) : List (SmallRow V) :=
  j.smallRows.filter (!·.isMarked)

/-- A column that is mapped to none is -1 in the source. -/
def applyMapping (mapping : List (Option Nat)) (inRow outRow : List V) : List V :=
  (mapping.zip inRow).foldl (fun out (place, v) => place.elim out (out.set · v)) outRow

/-- The second-stage filter with the mapping into its output. -/
structure Fe2 (V : Type) where
  evaluate : List V → Bool
  fe2Mapping : List (Option Nat)

/-- `blank` is what the memory of a new row holds. -/
structure Step (V : Type) where
  joiner : Joiner V
  lastSmallOuterJoiner : Nat
  smallNullRows : List (List V)
  largeNullRow : List V
  columnMappings : List (List (Option Nat))
  fe2 : Option (Fe2 V)
  blank : List V

/-- A small row with the NULL rows of the other tables. -/
def Step.joinedRow (p : Step V) (r : SmallRow V) : List V :=
  let smallSideCount := p.smallNullRows.length
  applyMapping (p.columnMappings.getD smallSideCount []) p.largeNullRow
    ((range smallSideCount).foldl (fun row k => applyMapping (p.columnMappings.getD k [])
      (if k = p.lastSmallOuterJoiner then r.fields else p.smallNullRows.getD k []) row) p.blank)

variable (p : Step V)

/-- The loop body of `processFE2`, with `results` and the rows of `result`. -/
def Step.filterRow (fe : Fe2 V) (s : List (RGData V) × RGData V) (inRow : List V) :
    List (RGData V) × RGData V :=
  if fe.evaluate inRow then
    let result := s.2 ++ [applyMapping fe.fe2Mapping inRow p.blank]
    if result.length = 8192 then (s.1 ++ [result], []) else (s.1, result)
  else s

def Step.processFE2 (fe : Fe2 V) (rgData : List (RGData V)) : List (RGData V) :=
  let s := rgData.foldl (foldl (p.filterRow fe)) ([], [])
  if s.2.isEmpty then s.1 else s.1 ++ [s.2]

/-- The row group inserted into `outputDL`, if `rgDatav[0]` exists. -/
def Step.deliver (joinedData : RGData V) : Option (RGData V) :=
  match p.fe2 with
  | none => some joinedData
  | some fe => (p.processFE2 fe [joinedData])[0]?

/-- The loop of `finishSmallOuterJoin` and the last row group. -/
def Step.deliverRows : List (SmallRow V) → RGData V → Option (List (RGData V))
  | [], joinedData => if joinedData.isEmpty then some [] else (p.deliver joinedData).map ([·])
  | r :: unmatched, joinedData =>
    let joinedData := joinedData ++ [p.joinedRow r]
    if joinedData.length = 8192 then
      (p.deliver joinedData).bind fun rg => (deliverRows unmatched []).map (rg :: ·)
    else deliverRows unmatched joinedData

def Step.finishSmallOuterJoin : Option (List (RGData V)) :=
  p.deliverRows p.joiner.getUnmarkedRows []

/-- A row satisfies the filter. -/
def Step.passes (row : List V) : Bool :=
  p.fe2.elim true (·.evaluate row)

/-- A joined row as it is delivered. -/
def Step.outRow (row : List V) : List V :=
  p.fe2.elim row (applyMapping ·.fe2Mapping row p.blank)

/-- The rows in groups of 8192, of which the first has `group` already. -/
def groups {α : Type} : List α → List α → List (List α)
  | [], group => if group.isEmpty then [] else [group]
  | a :: rows, group =>
    if (group ++ [a]).length = 8192 then (group ++ [a]) :: groups rows []
    else groups rows (group ++ [a])

lemma groups_flatten {α : Type} (rows group : List α) :
    (groups rows group).flatten = group ++ rows := by
  induction rows generalizing group with
  | nil => cases group <;> simp [groups]
  | cons a rows ih =>
    rw [groups]
    split <;> simp [ih]

variable {p} {fe : Fe2 V}

lemma filterRow_skips {rows : RGData V} (rejected : ∀ row ∈ rows, ¬fe.evaluate row)
    (s : List (RGData V) × RGData V) : rows.foldl (p.filterRow fe) s = s := by
  induction rows with
  | nil => rfl
  | cons row rows ih =>
    rw [forall_mem_cons] at rejected
    rw [foldl_cons, Step.filterRow, if_neg rejected.1, ih rejected.2]

/-- Results that fit into one row group are one, unless there are none. -/
lemma filterRow_run {rows result out : RGData V}
    (isOut : out = result ++ (rows.filter fe.evaluate).map (applyMapping fe.fe2Mapping · p.blank))
    (fits : out.length ≤ 8192) (room : result.length < 8192) :
    (let s := rows.foldl (p.filterRow fe) ([], result)
    if s.2.isEmpty then s.1 else s.1 ++ [s.2]) = if out.isEmpty then [] else [out] := by
  induction rows generalizing result with
  | nil => simp [isOut]
  | cons row rows ih =>
    rw [foldl_cons, Step.filterRow]
    by_cases passes : fe.evaluate row
    · rw [filter_cons_of_pos passes, map_cons, append_cons] at isOut
      rw [if_pos passes]
      by_cases full : (result ++ [applyMapping fe.fe2Mapping row p.blank]).length = 8192
      · have rejected : rows.filter fe.evaluate = [] := by
          rw [isOut, length_append, full, length_map] at fits
          exact length_eq_zero_iff.mp (by omega)
        rw [if_pos full, filterRow_skips (filter_eq_nil_iff.mp rejected)]
        simp [isOut, rejected]
      · rw [if_neg full]
        exact ih isOut (Nat.lt_of_le_of_ne (by rw [length_append]; exact room) full)
    · rw [filter_cons_of_neg passes] at isOut
      rw [if_neg passes]
      exact ih isOut room

lemma deliver_eq {rows : RGData V} (nonempty : rows ≠ []) (size : rows.length ≤ 8192) :
    p.deliver rows = if rows.any p.passes then .some ((rows.filter p.passes).map p.outRow)
      else none := by
  rw [Step.deliver]
  unfold Step.passes Step.outRow
  cases p.fe2 with
  | none => cases rows <;> simp_all
  | some fe =>
    have few : (rows.filter fe.evaluate).length ≤ 8192 := Nat.le_trans (length_filter_le ..) size
    have run : p.processFE2 fe [rows] = _ :=
      filterRow_run rfl (by simpa using few) (Nat.zero_lt_succ _)
    simp only [run]
    by_cases any : rows.any fe.evaluate
    · have passed : rows.filter fe.evaluate ≠ [] := by simpa using any
      simp [any, passed]
    · simp_all

lemma deliverRows_eq {unmatched : List (SmallRow V)} {joinedData : RGData V}
    {rgs : List (RGData V)} (grouped : rgs = groups (unmatched.map p.joinedRow) joinedData)
    (room : joinedData.length < 8192) :
    p.deliverRows unmatched joinedData = if rgs.all (·.any p.passes) then
      some (rgs.map fun rg => (rg.filter p.passes).map p.outRow) else none := by
  induction unmatched generalizing joinedData rgs with
  | nil =>
    cases joinedData with
    | nil => simp [Step.deliverRows, groups, grouped]
    | cons =>
      simp [Step.deliverRows, groups, grouped, deliver_eq (cons_ne_nil _ _) (Nat.le_of_lt room)]
  | cons r unmatched ih =>
    rw [map_cons, groups] at grouped
    rw [Step.deliverRows]
    by_cases full : (joinedData ++ [p.joinedRow r]).length = 8192
    · rw [if_pos full] at grouped
      rw [if_pos full, deliver_eq (concat_ne_nil _ _) (Nat.le_of_eq full),
        ih rfl (by simp), grouped]
      cases some : (joinedData ++ [p.joinedRow r]).any p.passes <;> simp [some]
    · rw [if_neg full] at grouped
      rw [if_neg full]
      exact ih grouped (Nat.lt_of_le_of_ne (by rw [length_append]; exact room) full)

end SmallOuterJoin
