import ColumnStore.ColumnTypes

/-!
# Partitions and peers of a window function

`WindowFunction::operator()` sorts the rows with `CompareRule::less` and cuts them where
`EqualCompData` finds two neighbours different. The comparators of `compileRules` and the switch
of `EqualCompData` are modelled for all types. The sort is not: its result is any arrangement in
which no row is less than an earlier one. Cancelling the step is left out.
-/

namespace WindowPartitions

open ByteStrings ColumnTypes List Nat Option

/-- A binary floating type: its size, the pattern of infinity and that of NULL, a NaN or
infinity. -/
structure Format where
  bits : Nat
  inf : Nat
  null : Nat
  null_ok : inf < null % 2 ^ (bits - 1) ∨ null = inf ∧ 0 < inf ∧ inf < 2 ^ (bits - 1)

namespace Format

def double : Format := ⟨64, 0x7FF0000000000000, 0xFFFAAAAAAAAAAAAA, by decide⟩

def float : Format := ⟨32, 0x7F800000, 0xFFAAAAAA, by decide⟩

/-- Its NULL is infinity. -/
def longDouble : Format := ⟨80, 0x7FFF8000000000000000, 0x7FFF8000000000000000, by decide⟩

variable (f : Format)

def isNaN (p : Nat) : Bool := f.inf < p % 2 ^ (f.bits - 1)

/-- The numbers in their order; both zeros are 0. -/
def rank (p : Nat) : Int :=
  if p < 2 ^ (f.bits - 1) then p else -(p % 2 ^ (f.bits - 1) : Nat)

end Format

/-- What a column holds, by the comparator that `compileRules` makes for its type. -/
inductive Kind
  /-- Signed integers and decimals of all widths. -/
  | int (bits : Nat)
  /-- Unsigned integers, DATE, DATETIME and TIMESTAMP. -/
  | uint (bits : Nat)
  | time
  | floating (f : Format)
  /-- CHAR and VARCHAR. -/
  | string (cs : Charset)
  | text (cs : Charset)

/-- A column with its `IdbSortSpec`. -/
structure Column where
  kind : Kind
  fIndex : Nat
  asc : Bool
  nullsFirst : Bool

/-- The bytes of the fixed-width fields as numbers, and the strings, `none` for NULL. -/
structure Row where
  word : Nat → Nat
  string : Nat → Option (List Byte)

def three (gt lt : Bool) : Int := if gt then 1 else if lt then -1 else 0

def toSigned (bits v : Nat) : Int := if v < 2 ^ (bits - 1) then v else v - 2 ^ bits

namespace Column

variable (c : Column) (a b : Row)

def fAsc : Int := if c.asc then 1 else -1

def fNf : Int := if c.nullsFirst then 1 else -1

/-- The field as an unsigned number. -/
def get (bits : Nat) : Nat := a.word c.fIndex % 2 ^ bits

def isNull : Bool :=
  match c.kind with
  | .int bits => c.get a bits == 2 ^ (bits - 1)
  | .uint bits => c.get a bits == 2 ^ bits - 2
  | .time => c.get a 64 == 0xFFFFFFFFFFFFFFFE
  | .floating f => c.get a f.bits == f.null
  | .string _ | .text _ => (a.string c.fIndex).isNone

/-- What a comparator multiplies with `fAsc` if neither field is NULL. -/
def order : Int :=
  match c.kind with
  | .int bits =>
    let v1 := toSigned bits (c.get a bits)
    let v2 := toSigned bits (c.get b bits)
    three (v1 > v2) (v1 < v2)
  | .uint bits => three (c.get a bits > c.get b bits) (c.get a bits < c.get b bits)
  | .time =>
    let v1 := toSigned 64 (c.get a 64)
    let v2 := toSigned 64 (c.get b 64)
    -- of two negative values the highest bit is cleared
    if v1 < 0 ∧ v2 < 0 then three (v1 % 2 ^ 63 < v2 % 2 ^ 63) (v1 % 2 ^ 63 > v2 % 2 ^ 63)
    else three (v1 > v2) (v1 < v2)
  | .floating f =>
    let v1 := c.get a f.bits
    let v2 := c.get b f.bits
    let numbers := !f.isNaN v1 && !f.isNaN v2
    three (numbers && f.rank v1 > f.rank v2) (numbers && f.rank v1 < f.rank v2)
  | .string cs | .text cs =>
    cs.strnncollsp ((a.string c.fIndex).getD []) ((b.string c.fIndex).getD [])

def compare : Int :=
  if c.isNull a || c.isNull b then
    if !c.isNull a && c.isNull b then c.fNf
    else if c.isNull a && !c.isNull b then -c.fNf
    else 0
  else c.fAsc * c.order a b

/-- One round of `EqualCompData`; it throws for a TEXT column. -/
def equal : Option Bool :=
  match c.kind with
  | .int bits | .uint bits => some (c.get a bits == c.get b bits)
  | .time => some (c.get a 64 == c.get b 64)
  | .floating f =>
    let v1 := c.get a f.bits
    let v2 := c.get b f.bits
    some (!f.isNaN v1 && !f.isNaN v2 && f.rank v1 == f.rank v2)
  | .string _ => some (a.string c.fIndex == b.string c.fIndex)
  | .text _ => none

/-- What two fields that compare equal have to fulfil: the same bytes, or neither is a NaN, as the
NULL of DOUBLE and FLOAT is. -/
def Exact : Prop :=
  match c.kind with
  | .floating f => f.isNaN (c.get a f.bits) = false ∧ f.isNaN (c.get b f.bits) = false
  | .string _ => a.string c.fIndex = b.string c.fIndex
  | .text _ => False
  | _ => True

end Column

def less : List Column → Row → Row → Bool
  | [], _, _ => false
  | c :: rest, a, b =>
    if c.compare a b < 0 then true else if c.compare a b > 0 then false else less rest a b

/-- Neither row is less than the other. -/
def same (cols : List Column) (a b : Row) : Bool := !less cols a b && !less cols b a

def equalCompData : List Column → Row → Row → Option Bool
  | [], _, _ => some true
  | c :: rest, a, b =>
    match c.equal a b with
    | some true => equalCompData rest a b
    | other => other

/-- The loop over the rows up to `j`: the partitions that are complete and the start of the next. -/
def cut (eq : Row → Row → Option Bool) (rows : Nat → Row) : Nat → Option (List (Nat × Nat) × Nat)
  | 0 => some ([], 0)
  | j + 1 => do
    let (fPartition, i) ← cut eq rows j
    if ← eq (rows j) (rows (j + 1)) then return (fPartition, i)
    else return (fPartition ++ [(i, j)], j + 1)

/-- The partitions of `WindowFunction::operator()`. -/
def partitions (parts : List Column) (rows : Nat → Row) (rowCnt : Nat) :
    Option (List (Nat × Nat)) := do
  let (fPartition, i) ← cut (equalCompData parts) rows (rowCnt - 1)
  return fPartition ++ [(i, rowCnt - 1)]

/-- Two rows, the first before the second, are in one range. -/
def Together (ranges : List (Nat × Nat)) (i j : Nat) : Prop :=
  ∃ range ∈ ranges, range.1 ≤ i ∧ j ≤ range.2

section Statements

variable (parts orders : List Column) (rows : Nat → Row) (rowCnt : Nat)

def Sorted : Prop := ∀ j < rowCnt, ∀ i < j, less (parts ++ orders) (rows j) (rows i) = false

/-- Partitions and peer groups are the classes of rows that compare equal. -/
def WholeClasses : Prop :=
  ∃ ranges, partitions parts rows rowCnt = some ranges ∧
    (∀ j < rowCnt, ∀ i < j, (Together ranges i j ↔ same parts (rows i) (rows j) = true)) ∧
    ∀ j, j + 1 < rowCnt → Together ranges j (j + 1) →
      equalCompData orders (rows j) (rows (j + 1)) = some (same orders (rows j) (rows (j + 1)))

/-- All columns before some TEXT column agree. -/
def ReachesText : List Column → Row → Row → Prop
  | [], _, _ => False
  | c :: rest, a, b =>
    (∃ cs, c.kind = .text cs) ∨ c.compare a b = 0 ∧ c.Exact a b ∧ ReachesText rest a b

/-- Rows that compare equal are equal, and no TEXT column is tested. -/
structure Faithful : Prop where
  exact : ∀ j < rowCnt, ∀ i < j, same parts (rows i) (rows j) = true →
    ∀ c ∈ parts, c.Exact (rows i) (rows j)
  noText : ∀ j, j + 1 < rowCnt → ¬ReachesText parts (rows j) (rows (j + 1))
  peers : ∀ j, j + 1 < rowCnt → same parts (rows j) (rows (j + 1)) = true →
    ¬ReachesText orders (rows j) (rows (j + 1)) ∧
      (same orders (rows j) (rows (j + 1)) = true → ∀ c ∈ orders, c.Exact (rows j) (rows (j + 1)))

end Statements

variable (gt lt : Bool)

lemma three_le_iff : three gt lt ≤ 0 ↔ gt = false := by
  cases gt <;> cases lt <;> decide

lemma le_three_iff : 0 ≤ three gt lt ↔ (gt = false → lt = false) := by
  cases gt <;> cases lt <;> decide

lemma three_eq_zero : three gt lt = 0 ↔ gt = false ∧ lt = false := by
  cases gt <;> cases lt <;> decide

lemma toSigned_inj {bits v w : Nat} (small : v < 2 ^ bits) (small' : w < 2 ^ bits) :
    toSigned bits v = toSigned bits w ↔ v = w := by
  have cast : ((2 ^ bits : Nat) : Int) = 2 ^ bits := by push_cast; rfl
  unfold toSigned
  split_ifs <;> omega

/-- Only NULL has its rank. -/
lemma Format.eq_null {f : Format} {p : Nat} (number : f.isNaN f.null = false)
    (rank : f.rank f.null = f.rank p) : p = f.null := by
  have ok := f.null_ok
  simp only [isNaN, decide_eq_false_iff_not] at number
  obtain ⟨-, -, -⟩ := ok.resolve_left number
  simp only [Format.rank] at rank
  split_ifs at rank <;> omega

namespace Column

variable {c : Column} {x y z : Row}

lemma order_swap : c.order x y ≤ 0 ↔ 0 ≤ c.order y x := by
  unfold order
  cases c.kind with
  | int bits | uint bits =>
    simp only [three_le_iff, le_three_iff, decide_eq_false_iff_not]
    omega
  | time =>
    dsimp only
    split_ifs <;> simp only [three_le_iff, le_three_iff, decide_eq_false_iff_not] <;> omega
  | floating f =>
    dsimp only
    cases f.isNaN (c.get x f.bits) <;> cases f.isNaN (c.get y f.bits) <;>
      simp [three_le_iff, le_three_iff]
    omega
  | string cs | text cs => exact cs.swap _ _

/-- A row between two equal ones is equal to them, unless one of them is a NaN. -/
lemma order_between (exact : c.Exact x z) (above : 0 ≤ c.order x z) (below : c.order x y ≤ 0)
    (below' : c.order y z ≤ 0) : 0 ≤ c.order x y ∧ 0 ≤ c.order y z := by
  unfold order at *
  unfold Exact at exact
  cases kind : c.kind with
  | int bits | uint bits =>
    simp only [kind, three_le_iff, le_three_iff, decide_eq_false_iff_not] at *
    omega
  | time =>
    simp only [kind] at *
    split_ifs at * <;> simp only [three_le_iff, le_three_iff, decide_eq_false_iff_not] at *
    all_goals omega
  | floating f =>
    simp only [kind] at *
    cases number : f.isNaN (c.get y f.bits) <;>
      simp [number, exact, three_le_iff, le_three_iff] at *
    omega
  | text cs => simp [kind] at exact
  | string cs =>
    simp only [kind] at *
    exact ⟨(cs.swap _ _).mp (cs.trans _ _ _ below' ((cs.swap _ _).mpr above)),
      (cs.swap _ _).mp (cs.trans _ _ _ ((cs.swap _ _).mpr above) below)⟩

lemma compare_swap : c.compare x y ≤ 0 ↔ 0 ≤ c.compare y x := by
  have swap := order_swap (c := c) (x := x) (y := y)
  have swap' := order_swap (c := c) (x := y) (y := x)
  unfold compare fAsc
  cases c.isNull x <;> cases c.isNull y <;> cases c.asc <;> simp <;> omega

lemma Exact.symm (exact : c.Exact x y) : c.Exact y x := by
  unfold Exact at *
  cases kind : c.kind <;> simp [kind] at * <;> simp [exact]

lemma compare_between (exact : c.Exact x z) (zero : c.compare x z = 0) (below : c.compare x y ≤ 0)
    (below' : c.compare y z ≤ 0) : c.compare x y = 0 ∧ c.compare y z = 0 := by
  have upward := @order_between c x y z exact
  have downward := @order_between c z y x exact.symm
  rw [← order_swap, order_swap (x := z), order_swap (x := y) (y := x),
    ← order_swap (x := y) (y := z), ← order_swap (x := x) (y := y)] at downward
  revert zero below below'
  unfold compare fAsc fNf
  cases c.isNull x <;> cases c.isNull y <;> cases c.isNull z <;> cases c.asc <;>
    cases c.nullsFirst <;> simp <;> omega

lemma compare_eq_zero : c.compare x y = 0 ↔
    c.isNull x = c.isNull y ∧ (c.isNull x = false → c.order x y = 0) := by
  unfold compare fAsc fNf
  cases c.isNull x <;> cases c.isNull y <;> cases c.asc <;> cases c.nullsFirst <;> simp

lemma get_lt (r : Row) (bits : Nat) : c.get r bits < 2 ^ bits :=
  Nat.mod_lt _ (Nat.two_pow_pos bits)

lemma equal_iff : c.equal x y = some true ↔ c.compare x y = 0 ∧ c.Exact x y := by
  rw [compare_eq_zero]
  unfold equal isNull order Exact
  cases c.kind with
  | int bits =>
    have inj := toSigned_inj (c.get_lt x bits) (c.get_lt y bits)
    simp [three_eq_zero]
    omega
  | uint bits =>
    simp [three_eq_zero]
    omega
  | time =>
    have small := c.get_lt x 64
    have small' := c.get_lt y 64
    simp only [toSigned]
    split_ifs <;> simp [three_eq_zero] <;> omega
  | floating f =>
    have left := @f.eq_null (c.get y f.bits)
    have right := @f.eq_null (c.get x f.bits)
    cases number : f.isNaN (c.get x f.bits) <;> cases number' : f.isNaN (c.get y f.bits) <;>
      simp [three_eq_zero, number, number']
    constructor
    · intro ranks
      refine ⟨⟨fun isNull => left (isNull ▸ number) (isNull ▸ ranks), fun isNull => ?_⟩,
        fun _ => ⟨Int.le_of_eq ranks, Int.le_of_eq ranks.symm⟩⟩
      exact right (isNull ▸ number') (isNull ▸ ranks.symm)
    · rintro ⟨nulls, known⟩
      by_cases isNull : c.get x f.bits = f.null
      · rw [isNull, nulls.mp isNull]
      · exact Int.le_antisymm (known isNull).1 (known isNull).2
  | string cs =>
    have itself := cs.refl ((x.string c.fIndex).getD [])
    simp only [some.injEq, beq_iff_eq]
    exact ⟨fun equal => by simp [← equal, itself], fun h => h.2⟩
  | text cs => simp

lemma equal_eq_none : c.equal x y = none ↔ ∃ cs, c.kind = .text cs := by
  unfold equal
  cases c.kind <;> simp

lemma equal_trans (first : c.equal x y = some true) (second : c.equal y z = some true) :
    c.equal x z = some true := by
  unfold equal at *
  cases kind : c.kind <;> simp_all

lemma compare_zero_swap : c.compare x y = 0 ↔ c.compare y x = 0 := by
  have swap := @compare_swap c x y
  have swap' := @compare_swap c y x
  omega

end Column

section Rows

variable {cols : List Column} {x y z : Row}

lemma same_iff : same cols x y ↔ ∀ c ∈ cols, c.compare x y = 0 := by
  induction cols with
  | nil => simp [same, less]
  | cons c rest later =>
    have swap := @Column.compare_swap c x y
    have swap' := @Column.compare_swap c y x
    simp only [same, less, forall_mem_cons, ← later]
    split_ifs <;> simp <;> omega

lemma equalCompData_eq_true :
    equalCompData cols x y = some true ↔ ∀ c ∈ cols, c.equal x y = some true := by
  induction cols with
  | nil => simp [equalCompData]
  | cons c rest later =>
    rw [equalCompData]
    split <;> simp_all

lemma equalCompData_eq_none : equalCompData cols x y = none ↔ ReachesText cols x y := by
  induction cols with
  | nil => simp [equalCompData, ReachesText]
  | cons c rest later =>
    rw [equalCompData, ReachesText, ← @Column.equal_eq_none c x y, ← and_assoc, ← Column.equal_iff]
    split <;> simp_all

lemma equalCompData_eq_true_iff : equalCompData cols x y = some true ↔
    same cols x y ∧ ∀ c ∈ cols, c.Exact x y := by
  rw [equalCompData_eq_true, same_iff, ← forall₂_and]
  exact forall₂_congr fun c _ => Column.equal_iff

lemma equalCompData_eq_same_iff : equalCompData cols x y = some (same cols x y) ↔
    ¬ReachesText cols x y ∧ (same cols x y → ∀ c ∈ cols, c.Exact x y) := by
  have equal := @equalCompData_eq_true_iff cols x y
  rw [← equalCompData_eq_none]
  generalize equalCompData cols x y = result at *
  generalize same cols x y = equal' at *
  rcases result with _ | _ | _ <;> cases equal' <;> simp_all

lemma less_between (exact : ∀ c ∈ cols, c.Exact x z) (equal : same cols x z)
    (later : less cols y x = false) (later' : less cols z y = false) :
    same cols x y ∧ same cols y z := by
  rw [same_iff] at equal
  rw [same_iff, same_iff]
  induction cols with
  | nil => simp
  | cons c rest ih =>
    simp only [forall_mem_cons] at exact equal ⊢
    have swap := @Column.compare_swap c x y
    have swap' := @Column.compare_swap c y z
    simp only [less] at later later'
    have zero : c.compare x y = 0 ∧ c.compare y z = 0 := by
      refine c.compare_between exact.1 equal.1 ?_ ?_
      · split_ifs at later <;> omega
      · split_ifs at later' <;> omega
    have zero' := Column.compare_zero_swap.mp zero.1
    have zero'' := Column.compare_zero_swap.mp zero.2
    rw [zero'] at later
    rw [zero''] at later'
    obtain ⟨first, second⟩ := ih exact.2 equal.2 later later'
    exact ⟨⟨zero.1, first⟩, zero.2, second⟩

lemma less_of_append {orders : List Column} (notLess : less (cols ++ orders) x y = false) :
    less cols x y = false := by
  induction cols with
  | nil => rfl
  | cons c rest later =>
    rw [cons_append, less] at notLess
    rw [less]
    split_ifs at * <;> simp_all

lemma together_append {ranges : List (Nat × Nat)} {i n a b : Nat} :
    Together (ranges ++ [(i, n)]) a b ↔ Together ranges a b ∨ i ≤ a ∧ b ≤ n := by
  simp [Together]

/-- Two rows are together if all neighbours from the first to the second were found equal. -/
lemma cut_spec {eq : Row → Row → Option Bool} {rows : Nat → Row} {n i : Nat}
    {fPartition : List (Nat × Nat)} (done : cut eq rows n = some (fPartition, i)) :
    (∀ j < n, eq (rows j) (rows (j + 1)) ≠ none) ∧ i ≤ n ∧ (∀ range ∈ fPartition, range.2 < i) ∧
      ∀ a b, a < b → b ≤ n → (Together (fPartition ++ [(i, n)]) a b ↔
        ∀ k, a ≤ k → k < b → eq (rows k) (rows (k + 1)) = some true) := by
  induction n generalizing fPartition i with
  | zero =>
    cases done
    simp
    omega
  | succ n later =>
    obtain ⟨⟨fPartition', i'⟩, before, done⟩ := bind_eq_some_iff.mp done
    obtain ⟨equal, result, done⟩ := bind_eq_some_iff.mp done
    obtain ⟨tested, le, old, together⟩ := later before
    have tested' : ∀ j < n + 1, eq (rows j) (rows (j + 1)) ≠ none := by
      intro j small
      rcases Nat.lt_succ_iff_lt_or_eq.mp small with earlier | rfl
      · exact tested j earlier
      · simp [result]
    have complete : ∀ a b, i' ≤ b → ¬Together fPartition' a b := by
      rintro a b late ⟨range, member, -, within⟩
      have ended := old range member
      omega
    simp only [together_append] at together
    cases equal with
    | true =>
      cases done
      refine ⟨tested', by omega, old, fun a b first small => ?_⟩
      rw [together_append]
      rcases le_succ_iff.mp small with inside | rfl
      · rw [← together a b first inside]
        exact or_congr_right (and_congr_right fun _ => by omega)
      rw [or_iff_right (complete a (n + 1) (by omega)), and_iff_left (le_refl _)]
      rcases Nat.lt_succ_iff_lt_or_eq.mp first with before' | rfl
      · have whole := together a n before' (le_refl n)
        rw [or_iff_right (complete a n le), and_iff_left (le_refl n)] at whole
        rw [whole]
        refine ⟨fun all k low high => ?_, fun all k low high => all k low (by omega)⟩
        rcases Nat.lt_succ_iff_lt_or_eq.mp high with high | rfl
        · exact all k low high
        · exact result
      · refine iff_of_true le fun k low high => ?_
        obtain rfl : k = a := by omega
        exact result
    | false =>
      cases done
      refine ⟨tested', le_refl _, ?_, fun a b first small => ?_⟩
      · simp only [mem_append, mem_singleton]
        rintro range (member | rfl)
        · have := old range member
          omega
        · exact lt_succ_self n
      rw [together_append, together_append, or_iff_left (by omega)]
      rcases le_succ_iff.mp small with inside | rfl
      · exact together a b first inside
      refine iff_of_false (fun found => ?_) fun all => ?_
      · rcases found with found | ⟨-, within⟩
        · exact complete a (n + 1) (by omega) found
        · omega
      · cases result.symm.trans (all n (by omega) (lt_succ_self n))

lemma cut_defined {eq : Row → Row → Option Bool} {rows : Nat → Row} {n : Nat}
    (tested : ∀ j < n, eq (rows j) (rows (j + 1)) ≠ none) :
    ∃ result, cut eq rows n = some result := by
  induction n with
  | zero => exact ⟨_, rfl⟩
  | succ n later =>
    obtain ⟨result, before⟩ := later fun j small => tested j (by omega)
    obtain ⟨equal, found⟩ := ne_none_iff_exists'.mp (tested n (lt_succ_self n))
    simp only [cut, before, found, bind_eq_bind, bind_some]
    split <;> exact ⟨_, rfl⟩

variable {parts orders : List Column} {rows : Nat → Row} {rowCnt : Nat}

lemma equal_of_neighbours {a b : Nat} (first : a < b) (all : ∀ k, a ≤ k → k < b →
    equalCompData cols (rows k) (rows (k + 1)) = some true) :
    equalCompData cols (rows a) (rows b) = some true := by
  induction b, first using le_induction with
  | base => exact all a (le_refl a) (lt_succ_self a)
  | succ b first later =>
    have before := later fun k low high => all k low (by omega)
    have last := all b (by omega) (lt_succ_self b)
    rw [equalCompData_eq_true] at *
    exact fun c member => Column.equal_trans (before c member) (last c member)

/-- In sorted rows two neighbours between equal rows are equal. -/
lemma same_of_between (sorted : Sorted parts orders rows rowCnt)
    (faithful : Faithful parts orders rows rowCnt) {a b k : Nat} (small : b < rowCnt)
    (equal : same parts (rows a) (rows b)) (low : a ≤ k) (high : k < b) :
    same parts (rows k) (rows (k + 1)) := by
  have sorted' : ∀ j < rowCnt, ∀ i < j, less parts (rows j) (rows i) = false :=
    fun j small i first => less_of_append (sorted j small i first)
  have upTo : same parts (rows a) (rows (k + 1)) := by
    rcases lt_or_eq_of_le (succ_le_of_lt high) with before | rfl
    · exact (less_between (faithful.exact b small a (by omega) equal) equal
        (sorted' (k + 1) (by omega) a (by omega)) (sorted' b small (k + 1) before)).1
    · exact equal
  rcases lt_or_eq_of_le low with after | rfl
  · exact (less_between (faithful.exact (k + 1) (by omega) a (by omega) upTo) upTo
      (sorted' k (by omega) a after) (sorted' (k + 1) (by omega) k (lt_succ_self k))).2
  · exact upTo

end Rows

/-- The partitions and the peer groups of sorted rows are whole classes exactly if rows that compare
equal have the same strings and no NaN, as the NULL of DOUBLE and FLOAT is, in the columns, and if
no two neighbours agree in all columns before a TEXT column. -/
theorem wholeClasses_iff {parts orders : List Column} {rows : Nat → Row} {rowCnt : Nat}
    (sorted : Sorted parts orders rows rowCnt) :
    WholeClasses parts orders rows rowCnt ↔ Faithful parts orders rows rowCnt := by
  constructor
  · rintro ⟨ranges, done, together, peers⟩
    obtain ⟨⟨fPartition, i⟩, isCut, rest⟩ := bind_eq_some_iff.mp done
    cases rest
    obtain ⟨tested, -, -, neighbours⟩ := cut_spec isCut
    refine ⟨fun b small a first equal => ?_, fun j small => ?_, fun j small equal => ?_⟩
    · have all := (neighbours a b first (by omega)).mp ((together b small a first).mpr equal)
      exact (equalCompData_eq_true_iff.mp (equal_of_neighbours first all)).2
    · rw [← equalCompData_eq_none]
      exact tested j (by omega)
    · have near := (together (j + 1) small j (lt_succ_self j)).mpr equal
      exact equalCompData_eq_same_iff.mp (peers j small near)
  intro faithful
  have tested : ∀ j < rowCnt - 1, equalCompData parts (rows j) (rows (j + 1)) ≠ none := by
    intro j small
    rw [Ne, equalCompData_eq_none]
    exact faithful.noText j (by omega)
  obtain ⟨⟨fPartition, i⟩, isCut⟩ := cut_defined tested
  obtain ⟨-, -, -, neighbours⟩ := cut_spec isCut
  have together : ∀ b < rowCnt, ∀ a < b, (Together (fPartition ++ [(i, rowCnt - 1)]) a b ↔
      same parts (rows a) (rows b)) := by
    intro b small a first
    rw [neighbours a b first (by omega)]
    refine ⟨fun all => (equalCompData_eq_true_iff.mp (equal_of_neighbours first all)).1,
      fun equal k low high => ?_⟩
    have near := same_of_between sorted faithful small equal low high
    exact equalCompData_eq_true_iff.mpr
      ⟨near, faithful.exact (k + 1) (by omega) k (lt_succ_self k) near⟩
  refine ⟨_, by rw [partitions, isCut]; rfl, together, fun j small near => ?_⟩
  exact equalCompData_eq_same_iff.mpr
    (faithful.peers j small ((together (j + 1) small j (lt_succ_self j)).mp near))

/-- An INT column with 0, 0, 0 and 1, and a DOUBLE column with 0, 0, 1 and NULL. -/
def numbers (j : Nat) : Row :=
  ⟨fun c => if c = 0 then j / 3 else [0, 0, 0x3FF0000000000000].getD j 0xFFFAAAAAAAAAAAAA,
    fun _ => none⟩

/-- The first three rows are a partition, in which the first two are peers. -/
theorem numbers_wholeClasses :
    let parts : List Column := [⟨.int 32, 0, true, true⟩]
    let orders : List Column := [⟨.floating .double, 1, true, true⟩]
    Sorted parts orders numbers 4 ∧ WholeClasses parts orders numbers 4 := by
  intro parts orders
  have sorted : Sorted parts orders numbers 4 := by
    unfold Sorted
    decide
  have peers : ∀ j < 3, same parts (numbers j) (numbers (j + 1)) = true →
      same orders (numbers j) (numbers (j + 1)) = true → j = 0 := by
    decide
  refine ⟨sorted, (wholeClasses_iff sorted).mpr ⟨fun _ _ _ _ _ c member => ?_, fun j _ => ?_,
    fun j small together => ⟨?_, fun equal c member => ?_⟩⟩⟩
  · rw [mem_singleton.mp member]
    trivial
  · simp [ReachesText, parts]
  · simp [ReachesText, orders]
  · obtain rfl := peers j (by omega) together equal
    rw [mem_singleton.mp member]
    exact ⟨by decide, by decide⟩

/-- Two NULLs of a DOUBLE column compare equal and are two partitions. -/
theorem null_doubles_apart :
    let null : Row := ⟨fun _ => 0xFFFAAAAAAAAAAAAA, fun _ => none⟩
    partitions [⟨.floating .double, 0, true, true⟩] (fun _ => null) 2 = some [(0, 0), (1, 1)] ∧
      same [⟨.floating .double, 0, true, true⟩] null null := by
  decide

end WindowPartitions
