import ColumnStore.BlockScan
import Mathlib.Data.Int.Order.Basic
import Mathlib.Algebra.Ring.Parity

/-!
# The vectorised filter and the scalar loop

The lanes of a vector are filtered by plain comparisons of the storage type, combined by "or"
for `BOP_XOR` as well. The scalar loop treats an ordering comparison with the NULL pattern as
false and takes `BOP_XOR` as it is. Everything else agrees: the treatment of NULL and empty
slots, the packing of the result and the bounds. So the vectorised form selects at least what the
scalar loop selects.
-/

namespace BlockScan

open ColumnTypes BlockFilter List

variable {ct : ColType}

/-- An ordering comparison with the NULL pattern. -/
def OrderNull (arg : ColArgs ct) : Bool :=
  arg.val == getNullValue ct &&
    (arg.cop == .lt || arg.cop == .le || arg.cop == .gt || arg.cop == .ge)

/-- The operations of a filter that can be vectorised. -/
def vectorCops : List Cop := [.nil, .lt, .eq, .le, .gt, .ne, .ge, .nulleq]

/-- The comparison of the code without a rounding flag, on a type with the order of the lanes. -/
lemma colCompare_zero {T : Type} [LinearOrder T] (key : Value ct → T)
    (order : ∀ v c : Value ct, laneLt v c = decide (key v < key c))
    (injective : ∀ v c : Value ct, key v = key c ↔ v = c) (v c : Value ct) {cop : Cop}
    (known : cop ∈ vectorCops) : colCompare_ (key v) (key c) cop 0 = laneCompare v c cop := by
  have notLess : ∀ a b : Value ct, (!decide (key b < key a)) = decide (key a < key b ∨ a = b) := by
    intro a b
    rw [← decide_not, decide_eq_decide, not_lt, le_iff_lt_or_eq, injective]
  simp only [vectorCops, mem_cons, not_mem_nil, or_false] at known
  rcases known with rfl | rfl | rfl | rfl | rfl | rfl | rfl | rfl <;>
    simp [colCompare_, laneCompare, order, injective, notLess, Bool.beq_eq_decide_eq, bne, eq_comm]

variable {arg : ColArgs ct}

/-- The comparison the dispatchers of the integer kinds come to. -/
lemma colCompare_lane (integer : kind ct = .default ∨ kind ct = .unsigned) (v : Value ct)
    (unrounded : arg.rf = 0) (cops : arg.cop ∈ vectorCops) :
    (match kind ct with
      | .unsigned => colCompare_ v.toNat arg.val.toNat arg.cop arg.rf
      | _ => colCompare_ v.toInt arg.val.toInt arg.cop arg.rf) = laneCompare v arg.val arg.cop := by
  rcases integer with isKind | isKind <;> simp only [isKind, unrounded]
  · exact colCompare_zero BitVec.toInt (fun _ _ => by simp [laneLt, isKind])
      (fun _ _ => BitVec.toInt_inj) v arg.val cops
  · exact colCompare_zero BitVec.toNat (fun _ _ => by simp [laneLt, isKind])
      (fun _ _ => BitVec.toNat_inj) v arg.val cops

variable {v : Value ct}

section Arguments

variable (cs : Charset) (integer : kind ct = .default ∨ kind ct = .unsigned) {arg : ColArgs ct}
  (unrounded : arg.rf = 0) (cops : arg.cop ∈ vectorCops)

include integer unrounded cops

/-- A value that is not NULL is compared plainly, but is in no order with NULL. -/
lemma colCompare_known (known : v ≠ getNullValue ct) :
    colCompare cs false v arg.val arg.cop arg.rf =
      (laneCompare v arg.val arg.cop && !OrderNull arg) := by
  have compared : arg.cop ≠ .nil → colCompare cs false v arg.val arg.cop arg.rf =
      if arg.val = getNullValue ct ∧ arg.cop ≠ .ne then false
      else laneCompare v arg.val arg.cop := by
    intro notNil
    rw [← colCompare_lane integer v unrounded cops]
    simp only [colCompare, colCompareDispatcher]
    rcases integer with isKind | isKind <;> simp only [isKind] <;> grind
  by_cases null : arg.val = getNullValue ct
  · simp only [vectorCops, mem_cons] at cops
    rcases cops with isCop | isCop | isCop | isCop | isCop | isCop | isCop | isCop <;>
      simp_all [colCompare, laneCompare, OrderNull]
  by_cases isNil : arg.cop = .nil
  · simp [colCompare, laneCompare, isNil]
  · rw [compared isNil]
    simp [OrderNull, null]

/-- A comparison that is true for NULL is true of the NULL pattern in a lane. -/
lemma laneCompare_of_null
    (matched : colCompare cs true (getNullValue ct) arg.val arg.cop arg.rf) :
    laneCompare (getNullValue ct) arg.val arg.cop := by
  rw [← colCompare_lane integer (getNullValue ct) unrounded cops]
  simp only [colCompare, if_true, colCompareNull] at matched
  split at matched
  · cases matched
  · split at matched
    · exact matched
    · cases matched

end Arguments

lemma laneCompare_prestored (v : Value ct) (arg : ColArgs ct) :
    laneCompare v arg.val (prestoredCop arg) = laneCompare v arg.val arg.cop := by
  unfold prestoredCop
  split
  · rename_i isNull
    rw [isNull.1]
    rfl
  · rfl

lemma orderNull_prestored (arg : ColArgs ct) : OrderNull (parseArg arg) = OrderNull arg := by
  unfold OrderNull
  rw [parseArg_cop, prestoredCop]
  split
  · rename_i isNull
    rw [isNull.1]
    rfl
  · rfl

lemma prestored_mem (cops : arg.cop ∈ vectorCops) : (parseArg arg).cop ∈ vectorCops := by
  rw [parseArg_cop, prestoredCop]
  split
  · decide
  · exact cops

/-- What the lanes are tested for. -/
def laneFilter (bop : Bop) (args : List (ColArgs ct)) (v : Value ct) : Bool :=
  if args = [] then true
  else if isOr bop then args.any fun arg => laneCompare v arg.val arg.cop
  else args.all fun arg => laneCompare v arg.val arg.cop

/-- What one comparison says of a value that is not NULL. -/
def holds (v : Value ct) (arg : ColArgs ct) : Bool :=
  laneCompare v arg.val arg.cop && !OrderNull arg

/-- What the scalar loop tests a value for that is not NULL. -/
def scalarFilter (bop : Bop) (args : List (ColArgs ct)) (v : Value ct) : Bool :=
  if args = [] then true
  else
    match bop with
    | .and | .none => args.all (holds v)
    | .or => args.any (holds v)
    | .xor => args.foldl (fun result arg => result ^^ holds v arg) false

lemma holds_of_ne (isNe : prestoredCop arg = .ne) : holds v arg = (v != arg.val) := by
  simp [holds, laneCompare, OrderNull, cop_of_prestored isNe]

lemma holds_of_eq (isEq : prestoredCop arg = .eq) : holds v arg = (v == arg.val) := by
  simp [holds, laneCompare, OrderNull, cop_of_prestored isEq]

lemma laneCompare_of_holds (accepted : holds v arg) : laneCompare v arg.val arg.cop :=
  (Bool.and_eq_true_iff.mp accepted).1

lemma foldl_xor {α : Type} (f : α → Bool) (l : List α) (start : Bool) :
    l.foldl (fun result x => result ^^ f x) start = (start ^^ decide (Odd (l.countP f))) := by
  induction l generalizing start with
  | nil => simp
  | cons x l later =>
    rw [foldl_cons, later, countP_cons]
    cases f x <;> simp [Nat.odd_add_one, -Nat.not_odd_iff_even]

lemma exists_of_foldl_xor {α : Type} {f : α → Bool} {l : List α}
    (isTrue : l.foldl (fun result x => result ^^ f x) false = true) : ∃ x ∈ l, f x = true := by
  rw [foldl_xor, Bool.false_xor, decide_eq_true_iff] at isTrue
  obtain ⟨k, isOdd⟩ := isTrue
  exact countP_pos_iff.mp (by omega)

lemma laneFilter_of_scalarFilter {bop : Bop} {args : List (ColArgs ct)}
    (accepted : scalarFilter bop args v) : laneFilter bop args v := by
  unfold scalarFilter at accepted
  unfold laneFilter
  split at accepted
  · rename_i noArgs
    rw [if_pos noArgs]
  rename_i someArgs
  rw [if_neg someArgs]
  cases bop with
  | none | and =>
    exact all_eq_true.mpr fun arg member =>
      laneCompare_of_holds (all_eq_true.mp accepted arg member)
  | or =>
    obtain ⟨arg, member, held⟩ := any_eq_true.mp accepted
    exact any_eq_true.mpr ⟨arg, member, laneCompare_of_holds held⟩
  | xor =>
    obtain ⟨arg, member, held⟩ := exists_of_foldl_xor accepted
    exact any_eq_true.mpr ⟨arg, member, laneCompare_of_holds held⟩

section Filters

variable (cs : Charset) {args : List (ColArgs ct)} {bop : Bop} {filter : ParsedColumnFilter ct}
  (parsed : parseColumnFilter args bop = some filter)
  (integer : kind ct = .default ∨ kind ct = .unsigned)
  (unrounded : ∀ arg ∈ args, arg.rf = 0) (cops : ∀ arg ∈ args, arg.cop ∈ vectorCops)

include parsed in
/-- The ways in which a message is parsed. -/
lemma parsed_cases :
    filter.args = args.map parseArg ∧
      (args = [] ∧ filter.columnFilterMode = .alwaysTrue ∨
      (∃ arg, args = [arg]) ∧ filter.columnFilterMode = .singleComparison ∨
      args ≠ [] ∧ bop = .xor ∧ filter.columnFilterMode = .xorComparisons ∨
      args ≠ [] ∧ bop = .and ∧ (filter.columnFilterMode = .allComparisonsTrue ∨
        (∀ arg ∈ args, prestoredCop arg = .ne) ∧ (filter.columnFilterMode = .noneOfValuesInArray ∨
          filter.columnFilterMode = .noneOfValuesInSet)) ∨
      args ≠ [] ∧ bop = .or ∧ (filter.columnFilterMode = .anyComparisonTrue ∨
        (∀ arg ∈ args, prestoredCop arg = .eq) ∧ (filter.columnFilterMode = .oneOfValuesInArray ∨
          filter.columnFilterMode = .oneOfValuesInSet))) := by
  by_cases noArgs : args = []
  · subst noArgs
    cases parsed
    exact ⟨rfl, .inl ⟨rfl, rfl⟩⟩
  cases bop with
  | none =>
    rcases args with _ | ⟨arg, _ | ⟨second, rest⟩⟩
    · exact absurd rfl noArgs
    · cases parsed
      exact ⟨rfl, .inr (.inl ⟨⟨arg, rfl⟩, rfl⟩)⟩
    · cases parsed
  | xor =>
    rw [parseColumnFilter_eq args (by decide)] at parsed
    cases parsed
    rcases args with _ | ⟨arg, _ | ⟨second, rest⟩⟩
    · exact absurd rfl noArgs
    · exact ⟨rfl, .inr (.inl ⟨⟨arg, rfl⟩, rfl⟩)⟩
    · exact ⟨rfl, .inr (.inr (.inl ⟨noArgs, rfl, rfl⟩))⟩
  | and =>
    rw [parseColumnFilter_eq args (by decide)] at parsed
    cases parsed
    rcases filterMode_and noArgs with ⟨arg, isArg, mode⟩ | modes
    · exact ⟨rfl, .inr (.inl ⟨⟨arg, isArg⟩, mode⟩)⟩
    · exact ⟨rfl, .inr (.inr (.inr (.inl ⟨noArgs, rfl, modes⟩)))⟩
  | or =>
    rw [parseColumnFilter_eq args (by decide)] at parsed
    cases parsed
    rcases filterMode_or noArgs with ⟨arg, isArg, mode⟩ | modes
    · exact ⟨rfl, .inr (.inl ⟨⟨arg, isArg⟩, mode⟩)⟩
    · exact ⟨rfl, .inr (.inr (.inr (.inr ⟨noArgs, rfl, modes⟩)))⟩

include parsed in
lemma laneFilter_parsed (v : Value ct) : laneFilter bop filter.args v = laneFilter bop args v := by
  rw [(parsed_cases parsed).1]
  simp [laneFilter, any_map, all_map, Function.comp_def, laneCompare_prestored]

include parsed integer unrounded cops

lemma matching_known (known : v ≠ getNullValue ct) :
    matchingColValue cs false v filter = scalarFilter bop args v := by
  have compared : ∀ arg ∈ args, colCompare cs false v arg.val (prestoredCop arg) arg.rf =
      holds v arg := by
    intro arg member
    have unroundedArg : (parseArg arg).rf = 0 := unrounded arg member
    rw [holds, ← laneCompare_prestored, ← orderNull_prestored]
    exact colCompare_known cs integer unroundedArg (prestored_mem (cops arg member)) known
  -- the prestored set has all the constants
  have inSet : (args.map parseArg).filter (fun arg => arg.rf == 0) = args.map parseArg :=
    filter_eq_self.mpr (forall_mem_map.mpr fun arg member => by simp [unrounded arg member])
  obtain ⟨isArgs, modes⟩ := parsed_cases parsed
  rcases modes with ⟨rfl, mode⟩ | ⟨⟨arg, rfl⟩, mode⟩ | ⟨nonempty, rfl, mode⟩ |
      ⟨nonempty, rfl, mode | ⟨cop, mode | mode⟩⟩ | ⟨nonempty, rfl, mode | ⟨cop, mode | mode⟩⟩ <;>
    simp only [matchingColValue, scalarFilter, isArgs, mode]
  · rfl
  · have one := compared arg (.head _)
    cases bop <;> simpa using one
  · rw [if_neg nonempty, foldl_map]
    refine foldl_ext _ _ _ fun result arg member => ?_
    rw [← compared arg member]
    rfl
  · rw [if_neg nonempty, Bool.eq_iff_iff, all_eq_true, all_eq_true, forall_mem_map]
    exact forall₂_congr fun arg member => by rw [← compared arg member]; rfl
  · rw [if_neg nonempty, Bool.eq_iff_iff, Bool.not_false, Bool.true_and, all_eq_true,
      all_eq_true, forall_mem_map]
    exact forall₂_congr fun arg member => by rw [holds_of_ne (cop arg member)]; rfl
  · rw [if_neg nonempty, inSet, Bool.eq_iff_iff, Bool.not_false, Bool.true_and, Bool.not_eq_true',
      any_eq_false, all_eq_true, forall_mem_map]
    exact forall₂_congr fun arg member => by simp [holds_of_ne (cop arg member)]
  · rw [if_neg nonempty, Bool.eq_iff_iff, any_map, any_eq_true, any_eq_true]
    exact exists_congr fun arg => and_congr_right fun member => by rw [← compared arg member]; rfl
  · rw [if_neg nonempty, Bool.eq_iff_iff, any_map, any_eq_true, any_eq_true]
    exact exists_congr fun arg => and_congr_right fun member => by
      rw [holds_of_eq (cop arg member)]; rfl
  · rw [if_neg nonempty, inSet, Bool.eq_iff_iff, any_map, any_eq_true, any_eq_true]
    exact exists_congr fun arg => and_congr_right fun member => by
      rw [holds_of_eq (cop arg member)]; rfl

lemma laneFilter_of_null (matched : matchingColValue cs true (getNullValue ct) filter) :
    laneFilter bop args (getNullValue ct) := by
  have compared : ∀ arg ∈ args,
      colCompare cs true (getNullValue ct) arg.val (prestoredCop arg) arg.rf →
      laneCompare (getNullValue ct) arg.val arg.cop = true := by
    intro arg member matchedArg
    have unroundedArg : (parseArg arg).rf = 0 := unrounded arg member
    rw [← laneCompare_prestored]
    exact laneCompare_of_null cs integer unroundedArg (prestored_mem (cops arg member)) matchedArg
  obtain ⟨isArgs, modes⟩ := parsed_cases parsed
  rcases modes with ⟨rfl, mode⟩ | ⟨⟨arg, rfl⟩, mode⟩ | ⟨nonempty, rfl, mode⟩ |
      ⟨nonempty, rfl, mode | ⟨cop, mode | mode⟩⟩ | ⟨nonempty, rfl, mode | ⟨cop, mode | mode⟩⟩ <;>
    simp only [matchingColValue, laneFilter, isArgs, mode] at matched ⊢
  · rfl
  · have one := compared arg (.head _) (by simpa using matched)
    cases bop <;> simpa [isOr] using one
  · obtain ⟨_, parsedArg, matchedArg⟩ := exists_of_foldl_xor matched
    obtain ⟨arg, member, rfl⟩ := mem_map.mp parsedArg
    rw [if_neg nonempty]
    exact any_eq_true.mpr ⟨arg, member, compared arg member matchedArg⟩
  · rw [all_map] at matched
    rw [if_neg nonempty]
    exact all_eq_true.mpr fun arg member =>
      compared arg member (all_eq_true.mp matched arg member)
  · cases matched
  · cases matched
  · rw [any_map] at matched
    obtain ⟨arg, member, matchedArg⟩ := any_eq_true.mp matched
    rw [if_neg nonempty]
    exact any_eq_true.mpr ⟨arg, member, compared arg member matchedArg⟩
  · rw [any_map] at matched
    obtain ⟨arg, member, equal⟩ := any_eq_true.mp matched
    rw [if_neg nonempty]
    exact any_eq_true.mpr ⟨arg, member, laneCompare_of_holds
      ((holds_of_eq (cop arg member)).trans equal)⟩
  obtain ⟨_, inSet, equal⟩ := any_eq_true.mp matched
  obtain ⟨arg, member, rfl⟩ := mem_map.mp (mem_filter.mp inSet).1
  rw [if_neg nonempty]
  exact any_eq_true.mpr ⟨arg, member, laneCompare_of_holds
    ((holds_of_eq (cop arg member)).trans equal)⟩

end Filters

end BlockScan
