import ColumnStore.JoinKeys

/-!
# The hash join of ExeMgr

Model of `TupleJoiner` of `utils/joiner/tuplejoiner.cpp` for a join on one integer column. Rows of
the small side are collected in a list or put into one of several hash tables; the list can be
moved into the tables later. `match` looks up the key of a row of the large side.

A NULL key is stored under `BIGINTNULL`, but in the table that was chosen for the NULL pattern of
its own type. The module says for which joins and large-side keys `match` returns exactly the rows
it should, whatever the small side. Joins of a signed with an unsigned column, of `long double`
columns and of several columns are not modelled, nor the locks and threads of the insertion.
-/

namespace TupleJoiner

open JoinKeys List Nat Function

def joinNullValue : BitVec 64 := bigintNull

/-- A row of the small side. -/
structure Row (t : KeyType) (P : Type) where
  key : t.Field
  data : P
  deriving DecidableEq

/-- Rows are handled alike before a mode is chosen and in PM mode. -/
inductive JoinAlg where
  | inserting | pm | um
  deriving DecidableEq, Repr

/-- What does not change after construction. There are `2 ^ logBuckets` tables, in the variable
`sth` if the rows of the small side have a string table and in `h` otherwise. -/
structure Joiner where
  logBuckets : Nat
  bucketPicker : BitVec 64 → Nat
  smallType : KeyType
  largeType : KeyType
  sameSign : smallType.isUnsigned = largeType.isUnsigned
  smallStringTable : Bool
  largeStringTable : Bool
  joinType : JoinType

namespace Joiner

variable (j : Joiner)

/-- `bucketPicker(..) & bucketMask`. -/
def bucket (key : BitVec 64) : Nat := j.bucketPicker key &&& (2 ^ j.logBuckets - 1)

def nullValueForJoinColumn : BitVec 64 := j.smallType.getSignedNullValue

variable {P : Type}

/-- The table and the key for a row. -/
def entry (r : Row j.smallType P) : Nat × BitVec 64 × Row j.smallType P :=
  let smallKey := j.smallType.widened r.key
  (j.bucket smallKey,
    if smallKey = j.nullValueForJoinColumn then (joinNullValue, r) else (smallKey, r))

end Joiner

structure State (j : Joiner) (P : Type) where
  joinAlg : JoinAlg
  rows : List (Row j.smallType P)
  tables : Nat → List (BitVec 64 × Row j.smallType P)

namespace State

variable {j : Joiner} {P : Type}

def init : State j P := ⟨.inserting, [], fun _ => []⟩

/-- A row is put into its table. -/
def insertEntry (tables : Nat → List (BitVec 64 × Row j.smallType P)) (r : Row j.smallType P) :
    Nat → List (BitVec 64 × Row j.smallType P) :=
  Function.update tables (j.entry r).1 (tables (j.entry r).1 ++ [(j.entry r).2])

def insert (s : State j P) (r : Row j.smallType P) : State j P :=
  match s.joinAlg with
  | .um => { s with tables := insertEntry s.tables r }
  | _ => { s with rows := s.rows ++ [r] }

def bucketsToTables (buckets tables : Nat → List (BitVec 64 × Row j.smallType P)) :
    Nat → List (BitVec 64 × Row j.smallType P) := fun i =>
  if i < 2 ^ j.logBuckets then tables i ++ buckets i else tables i

/-- `insertRGData`, with `um_insertInlineRows` or `um_insertStringTable`. -/
def insertRGData (s : State j P) (rg : List (Row j.smallType P)) : State j P :=
  match s.joinAlg with
  | .um => { s with tables := bucketsToTables (rg.foldl insertEntry fun _ => []) s.tables }
  | _ => { s with rows := s.rows ++ rg }

/-- `setInUM()`: the rows are inserted again. -/
def setInUM (s : State j P) : State j P :=
  match s.joinAlg with
  | .um => s
  | _ => { s.rows.foldl insert { s with joinAlg := .um } with rows := [] }

/-- `setInUM(rgs)`: the row groups that hold the rows are inserted. -/
def setInUMFrom (s : State j P) (rgs : List (List (Row j.smallType P))) : State j P :=
  match s.joinAlg with
  | .um => s
  | _ => rgs.foldl insertRGData { s with joinAlg := .um, rows := [] }

/-- The rows with a key in one table. -/
def equalRange (table : List (BitVec 64 × Row j.smallType P)) (key : BitVec 64) :
    List (Row j.smallType P) := (table.filter fun e => e.1 == key).map Prod.snd

/-- The key of a large-side row as it is looked up. -/
def largeKey (j : Joiner) (x : j.largeType.Field) : BitVec 64 :=
  if j.smallStringTable then j.largeType.getIntField x else j.largeType.widened x

/-- `match` in UM mode: the rows matched, where nothing stands for the row of NULLs. The result is
missing if tables are used that were not allocated. -/
def match_ (s : State j P) (x : j.largeType.Field) : Option (List (Option (Row j.smallType P))) :=
  let isNull := j.largeType.isNullValue x
  let key := largeKey j x
  let range := if isNull then [] else equalRange (s.tables (j.bucket key)) key
  if !isNull && range.isEmpty && !(j.joinType.largeOuter || j.joinType.matchNulls) then some []
  else
    let found := range.map some
    let found := if j.joinType.largeOuter && found.isEmpty then [none] else found
    let nulls := if j.joinType.matchNulls && !isNull then
        if j.smallStringTable = j.largeStringTable then
          some (equalRange (s.tables (j.bucket joinNullValue)) joinNullValue)
        else none
      else some []
    let everything := if isNull && j.joinType.anti && j.joinType.matchNulls then
        (List.range (2 ^ j.logBuckets)).flatMap fun i => (s.tables i).map Prod.snd
      else []
    nulls.map fun nulls => found ++ nulls.map some ++ everything.map some

end State

/-- The operations that bring rows into a joiner. -/
inductive Command (j : Joiner) (P : Type) where
  | insert (r : Row j.smallType P)
  | insertRGData (rg : List (Row j.smallType P))
  | setInUM
  | setInUMFrom (rgs : List (List (Row j.smallType P)))

section Runs

variable {j : Joiner} {P : Type}

def State.run (s : State j P) : Command j P → State j P
  | .insert r => s.insert r
  | .insertRGData rg => s.insertRGData rg
  | .setInUM => s.setInUM
  | .setInUMFrom rgs => s.setInUMFrom rgs

/-- The rows of the small side after an operation. The row groups of a `setInUM(rgs)` take the place
of the rows collected. -/
def heldAfter (alg : JoinAlg) (held : List (Row j.smallType P)) :
    Command j P → List (Row j.smallType P)
  | .insert r => held ++ [r]
  | .insertRGData rg => held ++ rg
  | .setInUM => held
  | .setInUMFrom rgs => if alg = .um then held else rgs.flatten

def contents (s : State j P) (held : List (Row j.smallType P)) :
    List (Command j P) → List (Row j.smallType P)
  | [] => held
  | c :: rest => contents (s.run c) (heldAfter s.joinAlg held c) rest

/-- The rows are in the list, or all in the tables that their keys choose. -/
structure Holds (s : State j P) (held : List (Row j.smallType P)) : Prop where
  collected : s.joinAlg ≠ .um → s.rows = held ∧ ∀ i, s.tables i = []
  hashed : s.joinAlg = .um → ∀ i,
    s.tables i = (held.filter fun r => (j.entry r).1 == i).map fun r => (j.entry r).2

lemma bucket_lt (j : Joiner) (key : BitVec 64) : j.bucket key < 2 ^ j.logBuckets := by
  rw [Joiner.bucket, and_two_pow_sub_one_eq_mod]
  exact Nat.mod_lt _ (Nat.two_pow_pos _)

lemma entry_lt (r : Row j.smallType P) : (j.entry r).1 < 2 ^ j.logBuckets := bucket_lt j _

lemma foldl_insertEntry (rows : List (Row j.smallType P))
    (tables : Nat → List (BitVec 64 × Row j.smallType P)) (i : Nat) :
    rows.foldl State.insertEntry tables i =
      tables i ++ (rows.filter fun r => (j.entry r).1 == i).map fun r => (j.entry r).2 := by
  induction rows generalizing tables with
  | nil => simp
  | cons r rows later =>
    rw [foldl_cons, later, State.insertEntry]
    by_cases here : (j.entry r).1 = i
    · subst here
      simp
    · rw [update_of_ne (Ne.symm here)]
      simp [here]

variable (s : State j P)

/-- `insertRGData` puts the same rows into a table as inserting them one by one. -/
lemma insertRGData_tables (um : s.joinAlg = .um) (rg : List (Row j.smallType P)) :
    s.insertRGData rg = { s with tables := rg.foldl State.insertEntry s.tables } := by
  rw [State.insertRGData, um]
  simp only [State.mk.injEq, true_and]
  funext i
  rw [State.bucketsToTables, foldl_insertEntry, foldl_insertEntry]
  by_cases inRange : i < 2 ^ j.logBuckets
  · rw [if_pos inRange, nil_append]
  rw [if_neg inRange]
  have skipped : (rg.filter fun r => (j.entry r).1 == i) = [] := by
    refine filter_eq_nil_iff.mpr fun r _ => ?_
    have lt := entry_lt r
    simp only [beq_iff_eq]
    omega
  rw [skipped, map_nil, append_nil]

lemma foldl_insert (um : s.joinAlg = .um) (rows : List (Row j.smallType P)) :
    rows.foldl State.insert s = { s with tables := rows.foldl State.insertEntry s.tables } := by
  induction rows generalizing s with
  | nil => rfl
  | cons r rows later =>
    have first : s.insert r = { s with tables := State.insertEntry s.tables r } := by
      rw [State.insert, um]
    rw [foldl_cons, first, later { s with tables := State.insertEntry s.tables r } um, foldl_cons]

lemma foldl_insertRGData (um : s.joinAlg = .um)
    (rgs : List (List (Row j.smallType P))) :
    rgs.foldl State.insertRGData s =
      { s with tables := rgs.flatten.foldl State.insertEntry s.tables } := by
  induction rgs generalizing s with
  | nil => rfl
  | cons rg rgs later =>
    rw [foldl_cons, insertRGData_tables s um,
      later { s with tables := rg.foldl State.insertEntry s.tables } um, flatten_cons, foldl_append]

lemma holds_init : Holds (State.init : State j P) [] := ⟨fun _ => ⟨rfl, fun _ => rfl⟩, nofun⟩

lemma Holds.run {s : State j P} {held : List (Row j.smallType P)} (holds : Holds s held)
    (c : Command j P) : Holds (s.run c) (heldAfter s.joinAlg held c) := by
  obtain ⟨alg, rows, tables⟩ := s
  cases alg with
  | um =>
    have added : ∀ more, Holds ⟨.um, rows, more.foldl State.insertEntry tables⟩ (held ++ more) :=
      fun more => ⟨nofun, fun _ i => (foldl_insertEntry more tables i).trans (by
        rw [show tables i = _ from holds.hashed rfl i, filter_append, map_append])⟩
    cases c with
    | insert r => exact added [r]
    | insertRGData rg =>
      rw [State.run, insertRGData_tables _ rfl]
      exact added rg
    | setInUM | setInUMFrom rgs => exact holds
  | inserting | pm =>
    -- rows are collected, or moved to the tables together
    obtain ⟨rfl, (empty : ∀ i, tables i = [])⟩ := holds.collected nofun
    have moved : ∀ rows, Holds
        (⟨.um, [], rows.foldl State.insertEntry tables⟩ : State j P) rows := fun rows =>
      ⟨nofun, fun _ i => (foldl_insertEntry rows tables i).trans (by rw [empty, nil_append])⟩
    cases c with
    | insert r | insertRGData rg => exact ⟨fun _ => ⟨rfl, empty⟩, nofun⟩
    | setInUM =>
      rw [State.run, State.setInUM, foldl_insert _ rfl]
      exact moved rows
    | setInUMFrom rgs =>
      rw [State.run, State.setInUMFrom, foldl_insertRGData _ rfl]
      exact moved rgs.flatten

lemma Holds.runs {s : State j P} {held : List (Row j.smallType P)} (holds : Holds s held)
    (commands : List (Command j P)) :
    Holds (commands.foldl State.run s) (contents s held commands) := by
  induction commands generalizing s held with
  | nil => exact holds
  | cons c rest later => exact later (holds.run c)

end Runs

lemma filter_append_perm {α : Type} {p q p' q' : α → Bool}
    (same : ∀ a, (p a).toNat + (q a).toNat = (p' a).toNat + (q' a).toNat) (l : List α) :
    (l.filter p ++ l.filter q).Perm (l.filter p' ++ l.filter q') := by
  have copies : ∀ p q : α → Bool, (l.filter p ++ l.filter q).Perm
      (l.flatMap fun a => replicate ((p a).toNat + (q a).toNat) a) := by
    intro p q
    induction l with
    | nil => exact Perm.nil
    | cons a l later =>
      rw [flatMap_cons, filter_cons, filter_cons]
      cases p a <;> cases q a <;>
        simp only [if_true, Bool.toNat_false, Bool.toNat_true, add_zero, zero_add,
          replicate_zero, replicate_succ, nil_append, cons_append]
      · exact later
      · exact perm_middle.trans (later.cons a)
      · exact later.cons a
      · exact (perm_middle.trans (later.cons a)).cons a
  refine (copies p q).trans ?_
  simp only [same]
  exact (copies p' q').symm

section Found

variable {j : Joiner} {P : Type}

/-- The key under which a row with the field `k` is stored. -/
def Joiner.storedKey (j : Joiner) (k : j.smallType.Field) : BitVec 64 :=
  if j.smallType.widened k = j.nullValueForJoinColumn then joinNullValue else j.smallType.widened k

/-- A row with the field `k` is in the table of a key, under this key. -/
def Joiner.finds (j : Joiner) (key : BitVec 64) (k : j.smallType.Field) : Bool :=
  j.bucket (j.smallType.widened k) == j.bucket key && j.storedKey k == key

lemma entry_eq (r : Row j.smallType P) :
    j.entry r = (j.bucket (j.smallType.widened r.key), j.storedKey r.key, r) := by
  rw [Joiner.entry, Joiner.storedKey]
  split <;> rfl

section

variable {s : State j P} {held : List (Row j.smallType P)} (holds : Holds s held)
  (um : s.joinAlg = .um)
include holds um

lemma equalRange_eq (key : BitVec 64) :
    State.equalRange (s.tables (j.bucket key)) key = held.filter fun r => j.finds key r.key := by
  rw [State.equalRange, holds.hashed um, filter_map, map_map, filter_filter]
  have same : (Prod.snd ∘ fun r => (j.entry r).2 : Row j.smallType P → Row j.smallType P) = id :=
    funext fun r => by rw [comp_apply, entry_eq, id]
  rw [same, map_id]
  refine filter_congr fun r _ => ?_
  rw [comp_apply, entry_eq, Bool.and_comm, Joiner.finds]

lemma tables_perm :
    ((range (2 ^ j.logBuckets)).flatMap fun i => (s.tables i).map Prod.snd).Perm held := by
  have each : (fun i => (s.tables i).map Prod.snd) =
      fun i => held.filter fun r => (j.entry r).1 == i := by
    funext i
    have same : (Prod.snd ∘ fun r => (j.entry r).2 : Row j.smallType P → Row j.smallType P) = id :=
      funext fun r => by rw [comp_apply, entry_eq, id]
    rw [holds.hashed um, map_map, same, map_id]
  have upTo : ∀ n, ((range n).flatMap fun i => held.filter fun r => (j.entry r).1 == i).Perm
      (held.filter fun r => (j.entry r).1 < n) := by
    intro n
    induction n with
    | zero => simp
    | succ n earlier =>
      rw [range_succ, flatMap_append, flatMap_singleton]
      refine (earlier.append_right _).trans ?_
      rw [← append_nil (held.filter fun r => (j.entry r).1 < n + 1),
        ← filter_false held]
      refine filter_append_perm (fun r => ?_) held
      rcases lt_trichotomy (j.entry r).1 n with before | here | after
      · simp [before, Nat.lt_succ_of_lt before, Nat.ne_of_lt before]
      · simp [here]
      · rw [decide_eq_false (by omega), decide_eq_false (by omega),
          beq_eq_false_iff_ne.mpr (by omega)]
  rw [each]
  refine (upTo _).trans ?_
  rw [filter_eq_self.mpr fun r _ => decide_eq_true (entry_lt r)]

/-- The rows that should be returned. -/
def expected (j : Joiner) (held : List (Row j.smallType P)) (x : j.largeType.Field) :
    List (Row j.smallType P) :=
  if j.largeType.isNullValue x then
    if j.joinType.anti && j.joinType.matchNulls then held else []
  else
    (held.filter fun r => !j.smallType.isNullValue r.key &&
        decide (j.smallType.number r.key = j.largeType.number x)) ++
      if j.joinType.matchNulls then held.filter fun r => j.smallType.isNullValue r.key else []

/-- A result has the rows it should have, in any order, and the row of NULLs at most for an outer
join. -/
def Right (j : Joiner) (held : List (Row j.smallType P)) (x : j.largeType.Field)
    (result : Option (List (Option (Row j.smallType P)))) : Prop :=
  ∃ found, result = some found ∧ (found.filterMap id).Perm (expected j held x) ∧
    (none ∈ found → j.joinType.largeOuter = true)

lemma match_nonnull {x : j.largeType.Field} (nonNull : j.largeType.isNullValue x = false) :
    (j.joinType.matchNulls ∧ j.smallStringTable ≠ j.largeStringTable ∧ s.match_ x = none) ∨
    ((j.joinType.matchNulls → j.smallStringTable = j.largeStringTable) ∧
      ∃ found, s.match_ x = some found ∧
        found.filterMap id = (held.filter fun r => j.finds (State.largeKey j x) r.key) ++
          (if j.joinType.matchNulls then held.filter fun r => j.finds joinNullValue r.key
            else []) ∧
        (none ∈ found → j.joinType.largeOuter)) := by
  have range := equalRange_eq holds um (State.largeKey j x)
  have nulls := equalRange_eq holds um joinNullValue
  rw [State.match_]
  simp only [nonNull, Bool.false_eq_true, if_false, Bool.not_false, Bool.true_and, Bool.and_true,
    Bool.false_and, map_nil, append_nil, range, nulls]
  generalize (held.filter fun r => j.finds (State.largeKey j x) r.key) = rows
  generalize (held.filter fun r => j.finds joinNullValue r.key) = nullRows
  have outer : ∀ rows : List (Row j.smallType P),
      (if j.joinType.largeOuter ∧ rows = [] then [none] else rows.map some).filterMap id =
        rows ∧ (none ∈ (if j.joinType.largeOuter ∧ rows = [] then [none] else
          rows.map some) → j.joinType.largeOuter) := by
    intro rows
    split
    · rename_i isOuter
      rw [isOuter.2]
      exact ⟨rfl, fun _ => isOuter.1⟩
    · refine ⟨by rw [filterMap_map]; simp, fun member => ?_⟩
      simp at member
  obtain ⟨outerRows, outerNull⟩ := outer rows
  by_cases matchNulls : j.joinType.matchNulls
  · simp only [matchNulls, Bool.or_true, Bool.not_true, Bool.and_false, true_and, forall_const,
      Bool.and_eq_true, List.isEmpty_iff, map_eq_nil_iff]
    by_cases same : j.smallStringTable = j.largeStringTable
    · refine .inr ⟨same, _, by rw [if_pos same]; rfl, ?_, ?_⟩
      · rw [List.filterMap_append, outerRows]
        simp
      intro member
      rcases mem_append.mp member with inOuter | inNulls
      · exact outerNull inOuter
      · simp at inNulls
    · exact .inl ⟨same, by rw [if_neg same]; rfl⟩
  have noNulls : j.joinType.matchNulls = false := Bool.not_eq_true _ ▸ matchNulls
  refine .inr ⟨fun isSet => absurd isSet matchNulls, ?_⟩
  simp only [noNulls, Bool.false_eq_true, if_false, Option.map_some, List.map_nil,
    List.append_nil, Bool.and_eq_true, List.isEmpty_iff, map_eq_nil_iff]
  split
  · rename_i early
    refine ⟨[], rfl, ?_, fun member => absurd member List.not_mem_nil⟩
    rw [early.1]
    rfl
  · exact ⟨_, rfl, outerRows, outerNull⟩

lemma match_null {x : j.largeType.Field}
    (isNull : j.largeType.isNullValue x) : Right j held x (s.match_ x) := by
  have every : (if (j.joinType.anti && j.joinType.matchNulls) then
      (range (2 ^ j.logBuckets)).flatMap fun i => (s.tables i).map Prod.snd else []).Perm
        (if (j.joinType.anti && j.joinType.matchNulls) then held else []) := by
    split
    · exact tables_perm holds um
    · exact Perm.nil
  rw [Right, expected, State.match_]
  simp only [isNull, Bool.not_true, Bool.false_and, Bool.false_eq_true, if_false, Bool.and_false,
    Option.map_some, Bool.true_and, Option.some.injEq, exists_eq_left']
  generalize (if (j.joinType.anti && j.joinType.matchNulls) then
    (range (2 ^ j.logBuckets)).flatMap fun i => (s.tables i).map Prod.snd else []) =
      rows at every
  cases j.joinType.largeOuter with
  | true =>
    simpa using every
  | false =>
    refine ⟨?_, fun member => ?_⟩
    · simpa using every
    · simp at member

end

end Found

section Exact

variable {j : Joiner} {P : Type}

/-- A row with the field `k` is returned as often as it should be for the key `x`. -/
def Balanced (j : Joiner) (x : j.largeType.Field) (k : j.smallType.Field) : Prop :=
  (j.finds (State.largeKey j x) k).toNat +
      (j.joinType.matchNulls && j.finds joinNullValue k).toNat =
    (!j.smallType.isNullValue k &&
        decide (j.smallType.number k = j.largeType.number x)).toNat +
      (j.joinType.matchNulls && j.smallType.isNullValue k).toNat

/-- The unsigned key is not widened as if it were signed. -/
def ReadsUnsigned (j : Joiner) (x : j.largeType.Field) : Prop :=
  ¬(j.smallStringTable = true ∧ j.largeType.width ≠ .eight ∧ x.msb = true)
  deriving Decidable

/-- The joins and the keys for which all small sides are searched correctly. -/
def Exact (j : Joiner) (x : j.largeType.Field) : Prop :=
  if j.smallType.isUnsigned then
    if j.joinType.matchNulls then
      j.smallType.width ≠ .eight ∧ ReadsUnsigned j x ∧ x.toNat = 2 ^ j.smallType.bits - 2
    else if ReadsUnsigned j x then
      if j.smallType.width = .eight then
        x.toNat = 2 ^ 63 → j.bucket j.nullValueForJoinColumn ≠ j.bucket joinNullValue
      else x.toNat ≠ 2 ^ j.smallType.bits - 2
    else j.smallType.width ≠ .eight ∧ 2 ^ j.smallType.bits - 2 ≤ x.toNat ∧
      x.toNat ≠ 2 ^ j.smallType.bits - 1
  else
    j.joinType.matchNulls = true → j.bucket j.nullValueForJoinColumn = j.bucket joinNullValue

lemma finds_iff {null : Prop} [Decidable null] {key : BitVec 64} {k : j.smallType.Field}
    (isNull : j.smallType.widened k = j.nullValueForJoinColumn ↔ null) : j.finds key k ↔
      if null then
        key = bigintNull ∧ j.bucket j.nullValueForJoinColumn = j.bucket joinNullValue
      else j.smallType.widened k = key := by
  rw [Joiner.finds, Joiner.storedKey, Bool.and_eq_true, beq_iff_eq, beq_iff_eq]
  by_cases isSet : null
  · rw [if_pos (isNull.mpr isSet), if_pos isSet, isNull.mpr isSet]
    constructor
    · rintro ⟨sameBucket, rfl⟩
      exact ⟨rfl, sameBucket⟩
    · rintro ⟨rfl, sameBucket⟩
      exact ⟨sameBucket, rfl⟩
  · rw [if_neg (mt isNull.mp isSet), if_neg isSet]
    exact ⟨fun found => found.2, fun same => ⟨by rw [same], same⟩⟩

lemma balanced_signed_iff (signed : j.smallType.isUnsigned = false) {x : j.largeType.Field}
    (nonNull : j.largeType.isNullValue x = false) : (∀ k, Balanced j x k) ↔ Exact j x := by
  have signed' : j.largeType.isUnsigned = false := j.sameSign ▸ signed
  have key : State.largeKey j x = j.largeType.widened x := by
    rw [State.largeKey, widened_signed signed']
    split <;> rfl
  have notNull := widened_ne_bigintNull signed' nonNull
  have each : ∀ k, Balanced j x k ↔ (j.smallType.isNullValue k →
      j.joinType.matchNulls →
        j.bucket j.nullValueForJoinColumn = j.bucket joinNullValue) := by
    intro k
    have first := @finds_iff j _ _ (State.largeKey j x) k (widened_eq_null_signed signed k)
    have second := @finds_iff j _ _ joinNullValue k (widened_eq_null_signed signed k)
    rw [Balanced]
    cases null : j.smallType.isNullValue k with
    | true =>
      rw [null] at first second
      have notFirst : j.finds (State.largeKey j x) k = false := by
        rw [← Bool.not_eq_true, first, key]
        exact fun h => notNull h.1
      have isBucket : j.finds joinNullValue k =
          decide (j.bucket j.nullValueForJoinColumn = j.bucket joinNullValue) := by
        rw [Bool.eq_iff_iff, second, decide_eq_true_eq]
        exact ⟨fun h => h.2, fun h => ⟨rfl, h⟩⟩
      rw [notFirst, isBucket]
      cases j.joinType.matchNulls <;>
        by_cases same : j.bucket j.nullValueForJoinColumn = j.bucket joinNullValue <;> simp
    | false =>
      rw [null] at first second
      simp only [Bool.false_eq_true, if_false] at first second
      have isFirst : j.finds (State.largeKey j x) k =
          decide (j.smallType.number k = j.largeType.number x) := by
        rw [Bool.eq_iff_iff, first, decide_eq_true_eq, key, widened_inj j.sameSign]
      have notSecond : j.finds joinNullValue k = false := by
        rw [← Bool.not_eq_true, second]
        exact widened_ne_bigintNull signed null
      rw [isFirst, notSecond]
      simp
  rw [Exact, signed]
  simp only [each]
  exact ⟨fun h => h j.smallType.nullValue ((isNullValue_iff _).mpr rfl), fun h _ _ => h⟩

lemma toNat_largeKey (unsigned : j.largeType.isUnsigned) (x : j.largeType.Field) :
    ReadsUnsigned j x ∧ (State.largeKey j x).toNat = x.toNat ∨
      ¬ReadsUnsigned j x ∧ x.toNat < 2 ^ 32 ∧ 2 ^ 64 - 2 ^ 32 ≤ (State.largeKey j x).toNat := by
  have below := x.isLt
  have wide : (j.largeType.widened x).toNat = x.toNat := by
    rw [widened_unsigned unsigned, toNat_getUintField]
  have asSigned := toNat_getIntField x
  rw [State.largeKey]
  by_cases reads : ReadsUnsigned j x
  · refine .inl ⟨reads, ?_⟩
    split
    · rename_i stringTable
      rw [asSigned]
      rcases bits_cases j.largeType with ⟨-, bits⟩ | ⟨narrow, -, -⟩
      · have zero : 2 ^ 64 - 2 ^ j.largeType.bits = 0 := by rw [bits, Nat.sub_self]
        rw [zero, ite_self, add_zero]
      have noSign : x.msb = false := by
        rw [← Bool.not_eq_true]
        exact fun sign => reads ⟨stringTable, narrow, sign⟩
      rw [noSign]
      rfl
    · exact wide
  obtain ⟨stringTable, narrow, sign⟩ := not_not.mp reads
  refine .inr ⟨reads, ?_⟩
  rw [if_pos stringTable, asSigned, sign, if_pos rfl]
  rcases bits_cases j.largeType with ⟨eight, -⟩ | ⟨-, -, high⟩
  · exact absurd eight narrow
  · have small := Nat.pow_le_pow_right (by decide : 0 < 2) high
    generalize x.toNat = number at *
    omega

section

variable (unsigned : j.smallType.isUnsigned)
include unsigned

lemma finds_unsigned (key : BitVec 64) (k : j.smallType.Field) :
    j.finds key k ↔
      if j.smallType.width = .eight ∧ k.toNat = 2 ^ j.smallType.bits - 2 then
        key = bigintNull ∧ j.bucket j.nullValueForJoinColumn = j.bucket joinNullValue
      else k.toNat = key.toNat := by
  have wide : (j.smallType.widened k).toNat = k.toNat := by
    rw [widened_unsigned unsigned, toNat_getUintField]
  rw [finds_iff (widened_eq_null_unsigned unsigned k), ← wide, BitVec.toNat_inj]

variable (x : j.largeType.Field)

lemma balanced_unsigned (k : j.smallType.Field) :
    Balanced j x k ↔
      (j.finds (State.largeKey j x) k).toNat +
          (j.joinType.matchNulls && j.finds joinNullValue k).toNat =
        (decide (k.toNat ≠ 2 ^ j.smallType.bits - 2 ∧ k.toNat = x.toNat)).toNat +
          (j.joinType.matchNulls && decide (k.toNat = 2 ^ j.smallType.bits - 2)).toNat := by
  have unsigned' : j.largeType.isUnsigned := j.sameSign ▸ unsigned
  have null : j.smallType.isNullValue k = decide (k.toNat = 2 ^ j.smallType.bits - 2) := by
    rw [Bool.eq_iff_iff, isNullValue_iff, decide_eq_true_eq, ← toNat_nullValue unsigned,
      BitVec.toNat_inj]
  have equal : decide (j.smallType.number k = j.largeType.number x) =
      decide (k.toNat = x.toNat) := by
    rw [number_unsigned unsigned, number_unsigned unsigned', decide_eq_decide, Int.natCast_inj]
  rw [Balanced, null, equal]
  simp

/-- Nothing but the key itself is found in a narrow table. -/
lemma balanced_narrow (narrow : j.smallType.width ≠ .eight) (high : j.smallType.bits ≤ 32)
    (x : j.largeType.Field) (k : j.smallType.Field) :
    Balanced j x k ↔ (k.toNat = (State.largeKey j x).toNat ↔
      k.toNat ≠ 2 ^ j.smallType.bits - 2 ∧ k.toNat = x.toNat ∨
        j.joinType.matchNulls ∧ k.toNat = 2 ^ j.smallType.bits - 2) := by
  have limit := Nat.pow_le_pow_right (by decide : 0 < 2) high
  have found (key : BitVec 64) : j.finds key k = decide (k.toNat = key.toNat) := by
    rw [Bool.eq_iff_iff, finds_unsigned unsigned, if_neg fun h => narrow h.1, decide_eq_true_eq]
  have noNull : ¬k.toNat = joinNullValue.toNat := by
    have : joinNullValue.toNat = 2 ^ 63 := by decide
    omega
  have counts : ∀ a b : Bool, a.toNat = b.toNat ↔ (a ↔ b) := by decide
  rw [balanced_unsigned unsigned, found, found, decide_eq_false noNull]
  by_cases isNull : k.toNat = 2 ^ j.smallType.bits - 2 <;>
    cases j.joinType.matchNulls <;> simp [isNull, counts]

lemma balanced_unsigned_iff : (∀ k, Balanced j x k) ↔ Exact j x := by
  have unsigned' : j.largeType.isUnsigned := j.sameSign ▸ unsigned
  have key := toNat_largeKey unsigned' x
  have every : ∀ n < 2 ^ j.smallType.bits, ∃ k : j.smallType.Field, k.toNat = n := fun n small =>
    ⟨BitVec.ofNat _ n, mod_eq_of_lt small⟩
  rw [Exact, unsigned]
  rcases bits_cases j.smallType with ⟨eight, bits⟩ | ⟨narrow, low, high⟩
  · have limit : 2 ^ j.smallType.bits = 2 ^ 64 := by rw [bits]
    have found (searched : BitVec 64) (k : j.smallType.Field) : j.finds searched k =
        decide (if k.toNat = 2 ^ 64 - 2 then searched.toNat = 2 ^ 63 ∧
          j.bucket j.nullValueForJoinColumn = j.bucket joinNullValue
        else k.toNat = searched.toNat) := by
      have bigint : bigintNull.toNat = 2 ^ 63 := by decide
      rw [Bool.eq_iff_iff, finds_unsigned unsigned, ← BitVec.toNat_inj, bigint, limit]
      simp [eight]
    simp only [balanced_unsigned unsigned, found, limit]
    generalize (State.largeKey j x).toNat = searched at *
    generalize x.toNat = number at *
    cases j.joinType.matchNulls with
    | false =>
      have counts : ∀ a b : Bool, a.toNat = b.toNat ↔ (a ↔ b) := by decide
      simp only [Bool.false_and, Bool.toNat_false, add_zero, counts, decide_eq_true_eq]
      rcases key with ⟨reads, rfl⟩ | ⟨misread, small, large⟩
      · rw [if_pos reads, if_pos eight]
        constructor
        · intro all isLimit sameBucket
          obtain ⟨k, isNull⟩ := every (2 ^ 64 - 2) (by omega)
          have found := (all k).mp
          rw [if_pos isNull] at found
          exact (found ⟨isLimit, sameBucket⟩).1 isNull
        · intro exact k
          split
          · exact iff_of_false (fun h => exact h.1 h.2) fun h => h.1 ‹_›
          · exact ⟨fun h => ⟨‹_›, h⟩, And.right⟩
      rw [if_neg misread]
      refine iff_of_false (fun all => ?_) fun h => h.1 eight
      obtain ⟨k, isNumber⟩ := every number (by omega)
      have found := (all k).mpr ⟨by omega, isNumber⟩
      rw [if_neg (by omega)] at found
      omega
    | true =>
      -- 2^63 is found as a NULL
      refine iff_of_false (fun all => ?_) fun h => h.1 eight
      obtain ⟨k, isNumber⟩ := every (2 ^ 63) (by omega)
      have sentinel : joinNullValue.toNat = 2 ^ 63 := by decide
      have counted : (decide (2 ^ 63 = searched)).toNat + 1 = (decide (2 ^ 63 = number)).toNat := by
        simpa [isNumber, sentinel] using all k
      rcases key with ⟨-, rfl⟩ | ⟨-, small, -⟩
      · omega
      · rw [decide_eq_false (by omega : ¬2 ^ 63 = number)] at counted
        cases counted
  have limit := Nat.pow_le_pow_right (by decide : 0 < 2) high
  have room := Nat.pow_le_pow_right (by decide : 0 < 2) low
  simp only [balanced_narrow unsigned narrow high, narrow, ne_eq, not_false_eq_true]
  have every (holds : Nat → Prop) : (∀ k : j.smallType.Field, holds k.toNat) ↔
      ∀ n < 2 ^ j.smallType.bits, holds n :=
    ⟨fun all n small => (every n small).elim fun k same => same ▸ all k, fun all k => all _ k.isLt⟩
  rw [every fun n => (n = _ ↔ ¬n = _ ∧ n = _ ∨ _ ∧ n = _)]
  generalize (State.largeKey j x).toNat = searched at *
  generalize 2 ^ j.smallType.bits = m at *
  generalize x.toNat = number at *
  cases j.joinType.matchNulls <;> rcases key with ⟨reads, _⟩ | ⟨reads, _, _⟩ <;>
    simp only [reads, if_true, if_false, Bool.false_eq_true, false_and, or_false, true_and]
  · exact ⟨fun all => by have := all (m - 2); omega, fun _ n _ => by omega⟩
  · exact ⟨fun all => by have := all number; omega, fun _ n _ => by omega⟩
  · exact ⟨fun all => by have := all (m - 2); omega, fun _ n _ => by omega⟩
  · exact ⟨fun all => by have := all (m - 2); omega, False.elim⟩

end

/-- The rows returned for a key that is not NULL are the right ones for every small side if each
single row is returned as often as it should be. -/
lemma right_iff_balanced {x : j.largeType.Field} (nonNull : j.largeType.isNullValue x = false)
    (p : P) :
    (∀ commands : List (Command j P), (commands.foldl State.run State.init).joinAlg = .um →
      Right j (contents State.init [] commands) x
        ((commands.foldl State.run State.init).match_ x)) ↔
    (j.joinType.matchNulls → j.smallStringTable = j.largeStringTable) ∧
      ∀ k, Balanced j x k := by
  have nullPart : ∀ (mn : Bool) (l : List (Row j.smallType P)) (f : Row j.smallType P → Bool),
      (if mn then l.filter f else []) = l.filter fun r => mn && f r := by
    intro mn l f
    cases mn <;> simp
  constructor
  · intro all
    have one : ∀ k, Right j [⟨k, p⟩] x
        ((([.setInUM, .insert ⟨k, p⟩] : List (Command j P)).foldl State.run State.init).match_ x) :=
      fun k => all [.setInUM, .insert ⟨k, p⟩] rfl
    have holds : ∀ k, Holds
        (([.setInUM, .insert ⟨k, p⟩] : List (Command j P)).foldl State.run State.init)
        [⟨k, p⟩] := fun k => holds_init.runs [.setInUM, .insert ⟨k, p⟩]
    have found : ∀ k, (j.joinType.matchNulls → j.smallStringTable = j.largeStringTable) ∧
        Balanced j x k := by
      intro k
      obtain ⟨rows, isRows, perm, -⟩ := one k
      rcases match_nonnull (holds k) rfl nonNull with
        ⟨-, -, fault⟩ | ⟨sameTables, rows', isRows', eq, -⟩
      · rw [isRows] at fault
        cases fault
      obtain rfl := Option.some.inj (isRows.symm.trans isRows')
      refine ⟨sameTables, ?_⟩
      rw [eq, expected, nonNull, if_neg Bool.false_ne_true, nullPart, nullPart] at perm
      have lengths := perm.length_eq
      have single : ∀ b : Bool, (if b then [(⟨k, p⟩ : Row j.smallType P)] else []).length =
          b.toNat := by
        intro b
        cases b <;> rfl
      simp only [filter_cons, filter_nil, length_append, single] at lengths
      exact lengths
    exact ⟨(found j.smallType.nullValue).1, fun k => (found k).2⟩
  rintro ⟨sameTables, balanced⟩ commands um
  rcases match_nonnull (holds_init.runs commands) um nonNull with
    ⟨matchNulls, different, -⟩ | ⟨-, rows, isRows, eq, outer⟩
  · exact absurd (sameTables matchNulls) different
  refine ⟨rows, isRows, ?_, outer⟩
  rw [eq, expected, nonNull, nullPart, nullPart]
  refine filter_append_perm (fun r => ?_) _
  exact balanced r.key

/-- For every small side, brought in by any operations, `match` returns the rows that it should
exactly if the key is NULL, or the tables used for NULLs are those of the small side and the join
and the key are such that each row is found under the key and in the table where it is sought. -/
theorem match_right_iff (j : Joiner) (p : P) (x : j.largeType.Field) :
    (∀ commands : List (Command j P), (commands.foldl State.run State.init).joinAlg = .um →
      Right j (contents State.init [] commands) x
        ((commands.foldl State.run State.init).match_ x)) ↔
    j.largeType.isNullValue x = true ∨
      (j.joinType.matchNulls = true → j.smallStringTable = j.largeStringTable) ∧ Exact j x := by
  cases null : j.largeType.isNullValue x with
  | true =>
    exact iff_of_true (fun commands um => match_null (holds_init.runs commands) um null)
      (.inl rfl)
  | false =>
    rw [right_iff_balanced null p, or_iff_right (by decide)]
    refine and_congr_right fun _ => ?_
    cases unsigned : j.smallType.isUnsigned with
    | true => exact balanced_unsigned_iff unsigned x
    | false => exact balanced_signed_iff unsigned null

end Exact

/-- An inner join of two INT UNSIGNED columns, where the small side has a string table. -/
abbrev unsignedJoiner : Joiner :=
  ⟨0, fun _ => 0, ⟨.four, true⟩, ⟨.four, true⟩, rfl, true, true,
    ⟨false, false, false, false, false, false⟩⟩

/-- The key 3000000000 on both sides is not found. -/
theorem unsigned_key_not_found :
    let commands : List (Command unsignedJoiner Nat) := [.setInUM, .insert ⟨3000000000#32, 7⟩]
    let s := commands.foldl State.run State.init
    s.joinAlg = .um ∧ s.match_ 3000000000#32 = some [] ∧
      expected unsignedJoiner [(⟨3000000000#32, 7⟩ : Row unsignedJoiner.smallType Nat)]
        3000000000#32 = [⟨3000000000#32, 7⟩] := by
  refine ⟨rfl, ?_, ?_⟩ <;> decide +kernel

end TupleJoiner
