import ColumnStore.VectorFilter
import ColumnStore.ByteReaders
import ColumnStore.CasualPartition

/-!
# What the compiled filter means

`_parseColumnFilter` compiles the elements of a filter message into an evaluation mode. The
reference is the message itself: `colCompare` of the value with each element, combined by the
`BOP`. Here each element is compared with the part it plays in the compiled mode. The two differ
where a value list is searched for equal words (words that collate alike are not equal, and the
array modes do not look at the rounding flags) and where an equality with NULL is rewritten (as
an equality NULL collates like the empty string). From the elements the main result says for
which messages and values the compiled filter has the meaning of the message.
-/

namespace FilterCompilation

open ByteStrings ByteReaders ColumnTypes BlockFilter BlockScan CasualPartition List Nat

variable {ct : ColType}

/-- One element of the message by itself. -/
def elementMatches (cs : Charset) (v : Value ct) (arg : ColArgs ct) : Bool :=
  colCompare cs (v == getNullValue ct) v arg.val arg.cop arg.rf

/-- The answers for the elements, combined; a message without elements selects everything. -/
def combined (bop : Bop) (results : List Bool) : Bool :=
  if results = [] then true
  else
    match bop with
    | .and | .none => results.all id
    | .or => results.any id
    | .xor => results.foldl (fun result answer => result ^^ answer) false

/-- The string of a word, as the collation sees it. -/
def text (v : Value ct) : List Byte := (constString v).getD []

/-- Different words whose strings collate alike. -/
def alike (cs : Charset) (v c : Value ct) : Bool :=
  kind ct == .text && !cs.nopadBin && v != getNullValue ct && v != c &&
    cs.strnncollsp (text v) (text c) == 0

/-- The element accepts a value that its part in the compiled mode rejects. -/
def loses (cs : Charset) (mode : ColumnFilterMode) (v : Value ct) (arg : ColArgs ct) : Bool :=
  match mode with
  | .oneOfValuesInArray | .oneOfValuesInSet => arg.rf == 0 && alike cs v arg.val
  | .noneOfValuesInArray => arg.rf != 0 && v == arg.val
  | .noneOfValuesInSet => arg.rf != 0 && v == arg.val && v == getNullValue ct
  | _ => arg.cop == .eq && arg.val == getNullValue ct && arg.rf == 0 && alike cs v arg.val

/-- The element rejects a value that its part in the compiled mode accepts. -/
def gains (cs : Charset) (mode : ColumnFilterMode) (v : Value ct) (arg : ColArgs ct) : Bool :=
  match mode with
  | .oneOfValuesInArray => arg.rf != 0 && v == arg.val
  | .noneOfValuesInArray | .noneOfValuesInSet => arg.rf == 0 && alike cs v arg.val
  | _ => false

lemma bigEndian_injective {s t : List Byte} (sameLength : s.length = t.length)
    (same : bigEndian s = bigEndian t) : s = t := by
  induction s generalizing t with
  | nil => exact (eq_nil_of_length_eq_zero sameLength.symm).symm
  | cons b s later =>
    obtain ⟨c, t, rfl⟩ := exists_cons_of_length_eq_add_one sameLength.symm
    have tails : s.length = t.length := succ_injective sameLength
    have below := bigEndian_lt s
    have below' := bigEndian_lt t
    simp only [bigEndian] at same
    rw [← tails] at same below'
    have positive : 0 < 256 ^ s.length := Nat.pow_pos (by decide)
    have heads : b.toNat = c.toNat := by
      have quotient := congrArg (· / 256 ^ s.length) same
      simpa [mul_add_div positive, mul_comm _ (256 ^ _), div_eq_of_lt below,
        div_eq_of_lt below'] using quotient
    rw [heads, add_left_cancel_iff] at same
    rw [BitVec.eq_of_toNat_eq heads, later tails same]

lemma orderSwap_eq_iff (narrow : ct.colWidth ≤ 8) (v c : Value ct) :
    orderSwap (v.setWidth 64) = orderSwap (c.setWidth 64) ↔ v = c := by
  constructor
  · intro same
    have words := bigEndian_injective (by simp) same
    have numbers := congrArg littleEndian words
    rw [littleEndian_bytes, littleEndian_bytes] at numbers
    apply BitVec.eq_of_toNat_eq
    have wide : 2 ^ (8 * ct.colWidth) ≤ 2 ^ 64 := Nat.pow_le_pow_right (by decide) (by omega)
    rw [BitVec.toNat_setWidth, BitVec.toNat_setWidth] at numbers
    rwa [mod_eq_of_lt (by omega), mod_eq_of_lt (by omega), mod_eq_of_lt (by omega),
      mod_eq_of_lt (by omega)] at numbers
  · rintro rfl
    rfl

section Elements

variable (cs : Charset) {v : Value ct}

lemma alike_iff (v c : Value ct) :
    alike cs v c ↔ kind ct = .text ∧ cs.nopadBin = false ∧ v ≠ getNullValue ct ∧ v ≠ c ∧
      cs.strnncollsp (text v) (text c) = 0 := by
  simp [alike, and_assoc]

lemma same_text_iff (binary : cs.nopadBin = false) (isText : kind ct = .text)
    (known : v ≠ getNullValue ct) (c : Value ct) :
    cs.strnncollsp (text v) (text c) = 0 ↔ v = c ∨ alike cs v c := by
  rw [alike_iff]
  by_cases same : v = c
  · simp [same, cs.refl]
  · simp [same, binary, isText, known]

lemma colCompare_eq_iff (notFloat : kind ct ≠ .float) (known : v ≠ getNullValue ct) (c : Value ct)
    (rf : BitVec 8) : colCompare cs false v c .eq rf ↔ rf = 0#8 ∧ (v = c ∨ alike cs v c) := by
  simp only [colCompare, colCompareDispatcher]
  cases isKind : kind ct with
  | float => exact absurd isKind notFloat
  | default =>
    by_cases null : c = getNullValue ct
    · simp [alike_iff, isKind, null, known]
    · simp [alike_iff, isKind, null, colCompare_, BitVec.toInt_inj, and_comm]
  | unsigned =>
    by_cases null : c = getNullValue ct
    · simp [alike_iff, isKind, null, known]
    · simp [alike_iff, isKind, null, colCompare_, BitVec.toNat_inj, and_comm]
  | text =>
    by_cases unrounded : rf = 0#8
    · cases binary : cs.nopadBin
      · rw [← same_text_iff cs binary isKind known]
        simp [unrounded, Cop.isLike, colCompareStr, text]
      · simp [alike_iff, unrounded, Cop.isLike, binary, colCompareNoRound_,
          orderSwap_eq_iff (kind_word (.inl isKind)).2]
    · simp [unrounded, Cop.isLike, colStrCompare_]

lemma colCompare_ne (known : v ≠ getNullValue ct) (c : Value ct) (rf : BitVec 8) :
    colCompare cs false v c .ne rf = !colCompare cs false v c .eq rf := by
  simp only [colCompare, colCompareDispatcher, reduceCtorEq, if_false]
  cases isKind : kind ct with
  | float => split_ifs <;> rfl
  | text =>
    by_cases unrounded : rf = 0#8 <;> cases binary : cs.nopadBin <;>
      simp [unrounded, Cop.isLike, colCompareNoRound_, colCompareStr, colStrCompare_, bne]
  | default | unsigned =>
    by_cases null : c = getNullValue ct
    · simp [null, colCompare_, BitVec.toInt_inj, BitVec.toNat_inj, known]
    · simp [null, colCompare_, bne]

variable (c : Value ct)

variable (rf : BitVec 8)

/-- For NULL the two operations look at the constant and the flag. -/
lemma colCompare_null_eq_iff :
    colCompare cs true v c .eq rf ↔ c = getNullValue ct ∧ rf = 0#8 := by
  by_cases null : c = getNullValue ct
  · cases isKind : kind ct <;> simp [colCompare, colCompareNull, isKind, null, colCompare_]
  · simp [colCompare, colCompareNull, null]

lemma colCompare_null_ne_iff :
    colCompare cs true v c .ne rf ↔ c = getNullValue ct ∧ rf ≠ 0#8 := by
  by_cases null : c = getNullValue ct
  · cases isKind : kind ct <;> simp [colCompare, colCompareNull, isKind, null, colCompare_]
  · simp [colCompare, colCompareNull, null]

/-- With the rewritten operation no other value is NULL. -/
lemma colCompare_nulleq_iff (notFloat : kind ct ≠ .float) (known : v ≠ getNullValue ct)
    (rf : BitVec 8) : colCompare cs false v (getNullValue ct) .nulleq rf = false := by
  simp only [colCompare, colCompareDispatcher]
  cases isKind : kind ct with
  | float => exact absurd isKind notFloat
  | default | unsigned => simp
  | text =>
    by_cases unrounded : rf = 0#8
    · cases binary : cs.nopadBin
      · simp [unrounded, Cop.isLike, colCompareStr, constString, known]
      · simp [unrounded, Cop.isLike, colCompareNoRound_,
          orderSwap_eq_iff (kind_word (.inl isKind)).2, known]
    · simp [unrounded, Cop.isLike, colStrCompare_]

lemma colCompare_null_nulleq :
    colCompare cs true v c .nulleq rf = colCompare cs true v c .eq rf := rfl

/-- In the modes that compare, an element differs where an equality with NULL is rewritten. -/
lemma compared_cases (notFloat : kind ct ≠ .float) (v : Value ct) (arg : ColArgs ct) :
    colCompare cs (v == getNullValue ct) v arg.val (prestoredCop arg) arg.rf =
      (elementMatches cs v arg &&
        !(arg.cop == .eq && arg.val == getNullValue ct && arg.rf == 0 && alike cs v arg.val)) := by
  unfold elementMatches
  by_cases rewritten : arg.cop = .eq ∧ arg.val = getNullValue ct
  · obtain ⟨isEq, isNull⟩ := rewritten
    rw [prestoredCop, if_pos ⟨isEq, isNull⟩, isEq, isNull]
    by_cases null : v = getNullValue ct
    · have notAlike : alike cs v (getNullValue ct) = false := by simp [alike, null]
      rw [beq_iff_eq.mpr null, colCompare_null_nulleq, notAlike]
      simp
    rw [beq_eq_false_iff_ne.mpr null, colCompare_nulleq_iff cs notFloat null, eq_comm,
      Bool.eq_false_iff]
    intro both
    rw [Bool.and_eq_true, colCompare_eq_iff cs notFloat null] at both
    obtain ⟨⟨unrounded, same | isAlike⟩, kept⟩ := both
    · exact null same
    · simp [unrounded, isAlike] at kept
  · rw [prestoredCop, if_neg rewritten]
    have unchanged : (arg.cop == .eq && arg.val == getNullValue ct) = false := by
      simpa using rewritten
    simp [unchanged]

lemma not_alike_null : alike cs (getNullValue ct) c = false := by
  simp [alike]

variable {arg : ColArgs ct}

section

variable (notFloat : kind ct ≠ .float)
include notFloat

variable (v : Value ct)

lemma elementMatches_eq_iff (isEq : prestoredCop arg = .eq) :
    elementMatches cs v arg ↔ arg.rf = 0#8 ∧ (v = arg.val ∨ alike cs v arg.val) := by
  have cop : arg.cop = .eq ∧ arg.val ≠ getNullValue ct := by
    unfold prestoredCop at isEq
    split at isEq
    · cases isEq
    · rename_i kept
      exact ⟨isEq, fun null => kept ⟨isEq, null⟩⟩
  unfold elementMatches
  rw [cop.1]
  by_cases null : v = getNullValue ct
  · subst null
    simp [colCompare_null_eq_iff, cop.2, not_alike_null, Ne.symm cop.2]
  · rw [beq_eq_false_iff_ne.mpr null, colCompare_eq_iff cs notFloat null]

lemma elementMatches_ne_iff (isNe : prestoredCop arg = .ne) :
    elementMatches cs v arg ↔
      if v = getNullValue ct then v = arg.val ∧ arg.rf ≠ 0#8
      else arg.rf ≠ 0#8 ∨ ¬ (v = arg.val ∨ alike cs v arg.val) := by
  unfold elementMatches
  rw [cop_of_prestored isNe (by decide)]
  by_cases null : v = getNullValue ct
  · subst null
    rw [beq_self_eq_true, colCompare_null_ne_iff, if_pos rfl, eq_comm]
  · rw [beq_eq_false_iff_ne.mpr null, colCompare_ne cs null, Bool.not_eq_true', ← Bool.not_eq_true,
      colCompare_eq_iff cs notFloat null, not_and_or, if_neg null]

lemma elementMatches_of_rewritten {v : Value ct} (rewritten : (arg.cop == .eq && arg.val ==
    getNullValue ct && arg.rf == 0 &&
      alike cs v arg.val)) : elementMatches cs v arg := by
  simp only [Bool.and_eq_true, beq_iff_eq] at rewritten
  obtain ⟨⟨⟨isEq, -⟩, unrounded⟩, isAlike⟩ := rewritten
  have known := ((alike_iff cs v arg.val).mp isAlike).2.2.1
  rw [elementMatches, beq_eq_false_iff_ne.mpr known, isEq, colCompare_eq_iff cs notFloat known]
  exact ⟨unrounded, .inr isAlike⟩

/-- An element loses a value that it accepts and its part in the compiled mode does not, and gains
a value that it rejects and its part does not. -/
lemma loses_gains_iff {mode : ColumnFilterMode} (listed : ListCop mode (prestoredCop arg)) :
    (loses cs mode v arg ↔ elementMatches cs v arg ∧ argMatches cs mode v arg = false) ∧
      (gains cs mode v arg ↔
        elementMatches cs v arg = false ∧ argMatches cs mode v arg) := by
  have self : alike cs arg.val arg.val = false := by simp [alike]
  cases mode with
  | oneOfValuesInArray | oneOfValuesInSet =>
    rw [← Bool.not_eq_true (elementMatches cs v arg), elementMatches_eq_iff cs notFloat v listed]
    by_cases same : v = arg.val <;> by_cases unrounded : arg.rf = 0#8 <;>
      simp [loses, gains, argMatches, same, self]
  | noneOfValuesInArray | noneOfValuesInSet =>
    rw [← Bool.not_eq_true (elementMatches cs v arg), elementMatches_ne_iff cs notFloat v listed]
    have ofNull := not_alike_null cs arg.val
    by_cases null : v = getNullValue ct <;> by_cases same : v = arg.val <;>
      by_cases unrounded : arg.rf = 0#8 <;> simp_all [loses, gains, argMatches]
  | _ =>
    have accepted : _ → elementMatches cs v arg := elementMatches_of_rewritten cs notFloat
    simp only [loses, gains, argMatches, compared_cases cs notFloat]
    generalize (arg.cop == .eq && arg.val == getNullValue ct && arg.rf == 0 &&
      alike cs v arg.val) = rewritten at *
    cases rewritten <;> simp_all

end

end Elements

section Combining

variable {α : Type} {f g : α → Bool} {l : List α}

lemma all_eq_all_iff :
    l.all f = l.all g ↔ (∀ x ∈ l, f x = g x) ∨ (∃ x ∈ l, f x = false ∧ g x = false) ∨
      (∃ x ∈ l, g x ∧ f x = false) ∧ (∃ x ∈ l, g x = false ∧ f x) := by
  constructor
  · intro same
    by_cases accepted : ∀ x ∈ l, f x
    · have others : ∀ x ∈ l, g x := by
        rw [all_eq_true.mpr accepted] at same
        exact all_eq_true.mp same.symm
      exact .inl fun x member => (accepted x member).trans (others x member).symm
    have others : ¬ ∀ x ∈ l, g x := by
      intro all
      rw [all_eq_true.mpr all] at same
      exact accepted (all_eq_true.mp same)
    obtain ⟨x, member, rejected⟩ : ∃ x ∈ l, f x = false := by simpa using accepted
    obtain ⟨y, member', rejected'⟩ : ∃ y ∈ l, g y = false := by simpa using others
    cases atX : g x
    · exact .inr (.inl ⟨x, member, rejected, atX⟩)
    · cases atY : f y
      · exact .inr (.inl ⟨y, member', atY, rejected'⟩)
      · exact .inr (.inr ⟨⟨x, member, atX, rejected⟩, ⟨y, member', rejected', atY⟩⟩)
  rintro (same | ⟨x, member, rejected, rejected'⟩ |
    ⟨⟨x, member, -, rejected⟩, ⟨y, member', rejected', -⟩⟩)
  · rw [Bool.eq_iff_iff, all_eq_true, all_eq_true]
    exact forall₂_congr fun x member => by rw [same x member]
  · rw [all_eq_false.mpr ⟨x, member, by simp [rejected]⟩,
      all_eq_false.mpr ⟨x, member, by simp [rejected']⟩]
  · rw [all_eq_false.mpr ⟨x, member, by simp [rejected]⟩,
      all_eq_false.mpr ⟨y, member', by simp [rejected']⟩]

/-- When two disjunctions agree: the same for the negations. -/
lemma any_eq_any_iff :
    l.any f = l.any g ↔ (∀ x ∈ l, f x = g x) ∨ (∃ x ∈ l, f x ∧ g x) ∨
      (∃ x ∈ l, g x ∧ f x = false) ∧ (∃ x ∈ l, g x = false ∧ f x) := by
  have negated := @all_eq_all_iff α (fun x => !f x) (fun x => !g x) l
  simp only [Bool.not_inj_iff, Bool.not_eq_false', Bool.not_eq_true'] at negated
  rw [any_eq_not_all_not, any_eq_not_all_not, Bool.not_inj_iff, negated]
  exact or_congr_right (or_congr_right and_comm)

lemma xor_eq_xor_iff :
    l.foldl (fun result x => result ^^ f x) false = l.foldl (fun result x => result ^^ g x) false ↔
      Even (l.countP fun x => f x != g x) := by
  have parity : ∀ l : List α, (l.foldl (fun result x => result ^^ f x) false ^^
      l.foldl (fun result x => result ^^ g x) false) =
      decide (Odd (l.countP fun x => f x != g x)) := by
    intro l
    induction l with
    | nil => simp
    | cons x l later =>
      simp only [foldl_xor] at later ⊢
      rw [countP_cons, countP_cons, countP_cons]
      cases f x <;> cases g x <;> simp_all [odd_add_one, -not_odd_iff_even]
  rw [← not_odd_iff_even, ← decide_eq_true_iff (p := Odd _), ← parity]
  cases l.foldl (fun result x => result ^^ f x) false <;>
    cases l.foldl (fun result x => result ^^ g x) false <;> simp

end Combining

/-- Several elements, all an equality under OR or all an inequality under AND: the constants are
searched for in an array or a set. -/
def isValueList (bs : List (ColArgs ct)) (bop : Bop) : Bool :=
  decide (2 ≤ bs.length) && bs.all fun arg => some (prestoredCop arg) = listCop bop

/-- The constants are few enough for an array. -/
def isShort (bs : List (ColArgs ct)) : Bool := decide (bs.length ≤ noSetFilterThreshold)

/-- An element that accepts the value, and does not in the compiled filter. -/
def lost (cs : Charset) (bs : List (ColArgs ct)) (bop : Bop) (v : Value ct) (arg : ColArgs ct) :
    Bool :=
  if isValueList bs bop then
    if bop = .or then arg.rf == 0 && alike cs v arg.val
    else arg.rf != 0 && v == arg.val && (isShort bs || v == getNullValue ct)
  else arg.cop == .eq && arg.val == getNullValue ct && arg.rf == 0 && alike cs v arg.val

/-- An element that rejects the value, and does not in the compiled filter. -/
def gained (cs : Charset) (bs : List (ColArgs ct)) (bop : Bop) (v : Value ct) (arg : ColArgs ct) :
    Bool :=
  isValueList bs bop &&
    if bop = .or then isShort bs && (arg.rf != 0 && v == arg.val)
    else arg.rf == 0 && alike cs v arg.val

/-- The elements that differ do not matter. With AND another element rejects the value either
way, or one element loses it and another gains it; with OR another element accepts it either
way, or one loses and another gains it; with XOR an even number differ. -/
def KeepsMeaning (cs : Charset) (bs : List (ColArgs ct)) (bop : Bop) (v : Value ct) : Prop :=
  match bop with
  | .and | .none =>
    (∀ arg ∈ bs, lost cs bs bop v arg = false ∧ gained cs bs bop v arg = false) ∨
    (∃ arg ∈ bs, elementMatches cs v arg = false ∧ gained cs bs bop v arg = false) ∨
    (∃ arg ∈ bs, lost cs bs bop v arg = true) ∧ (∃ arg ∈ bs, gained cs bs bop v arg = true)
  | .or =>
    (∀ arg ∈ bs, lost cs bs bop v arg = false ∧ gained cs bs bop v arg = false) ∨
    (∃ arg ∈ bs, elementMatches cs v arg = true ∧ lost cs bs bop v arg = false) ∨
    (∃ arg ∈ bs, lost cs bs bop v arg = true) ∧ (∃ arg ∈ bs, gained cs bs bop v arg = true)
  | .xor => Even (bs.countP (lost cs bs bop v))

instance (cs : Charset) (bs : List (ColArgs ct)) (bop : Bop) (v : Value ct) :
    Decidable (KeepsMeaning cs bs bop v) :=
  match bop with
  | .and | .none | .or => instDecidableOr
  | .xor => inferInstanceAs (Decidable (Even _))

section Compiled

variable (cs : Charset) {bs : List (ColArgs ct)} {bop : Bop} {v : Value ct} {arg : ColArgs ct}

lemma filterMode_several (several : 2 ≤ bs.length) (bop : Bop) :
    filterMode bs bop =
      match bop with
      | .none => .alwaysTrue
      | .or =>
        if isValueList bs .or then if isShort bs then .oneOfValuesInArray else .oneOfValuesInSet
        else .anyComparisonTrue
      | .and =>
        if isValueList bs .and then
          if isShort bs then .noneOfValuesInArray else .noneOfValuesInSet
        else .allComparisonsTrue
      | .xor => .xorComparisons := by
  rcases bs with _ | ⟨first, _ | ⟨second, rest⟩⟩
  · simp at several
  · simp at several
  have parsed : ∀ bop, isValueList (first :: second :: rest) bop =
      ((first :: second :: rest).map parseArg).all fun arg => some arg.cop = listCop bop := by
    intro bop
    rw [all_map]
    rfl
  cases bop <;> simp only [parsed, isShort, filterMode, chooseMode, map_cons,
    length_cons, length_map, decide_eq_true_eq, Option.getD_some, Option.getD_none]

lemma filterMode_of_not_list (list : isValueList bs bop = false) :
    filterMode bs bop ∈ [.alwaysTrue, .singleComparison, .anyComparisonTrue, .allComparisonsTrue,
      .xorComparisons] := by
  by_cases several : 2 ≤ bs.length
  · rw [filterMode_several several]
    cases bop <;> simp [list]
  rcases bs with _ | ⟨first, _ | ⟨second, rest⟩⟩
  · simp [filterMode, chooseMode]
  · simp [filterMode, chooseMode]
  · simp at several

lemma isValueList_cases (list : isValueList bs bop) :
    2 ≤ bs.length ∧ (bop = .and ∨ bop = .or) := by
  obtain ⟨several, all⟩ := Bool.and_eq_true_iff.mp list
  obtain ⟨first, member⟩ := exists_mem_of_length_pos
    (Nat.lt_of_lt_of_le Nat.zero_lt_two (of_decide_eq_true several))
  cases bop <;> simp_all [listCop]

lemma lost_gained_eq (v : Value ct) (arg : ColArgs ct) :
    lost cs bs bop v arg = loses cs (filterMode bs bop) v arg ∧
      gained cs bs bop v arg = gains cs (filterMode bs bop) v arg := by
  cases list : isValueList bs bop with
  | false =>
    have mode := filterMode_of_not_list list
    simp only [mem_cons, not_mem_nil, or_false] at mode
    rcases mode with mode | mode | mode | mode | mode <;>
      simp [lost, gained, list, loses, gains, mode]
  | true =>
    obtain ⟨several, rfl | rfl⟩ := isValueList_cases list <;> rw [filterMode_several several] <;>
      cases short : isShort bs <;> simp [lost, gained, list, loses, gains, short]

lemma listCop_mode (member : arg ∈ bs) : ListCop (filterMode bs bop) (prestoredCop arg) := by
  cases list : isValueList bs bop with
  | false =>
    have mode := filterMode_of_not_list list
    simp only [mem_cons, not_mem_nil, or_false] at mode
    rcases mode with mode | mode | mode | mode | mode <;> rw [mode] <;> trivial
  | true =>
    exact listCop_filterMode (isValueList_cases list).2 member

variable (notFloat : kind ct ≠ .float) (member : arg ∈ bs)

include notFloat member

lemma lost_iff (v : Value ct) : lost cs bs bop v arg ↔
    elementMatches cs v arg ∧ argMatches cs (filterMode bs bop) v arg = false := by
  rw [(lost_gained_eq cs v arg).1, (loses_gains_iff cs notFloat v (listCop_mode member)).1]

lemma gained_iff (v : Value ct) : gained cs bs bop v arg ↔
    elementMatches cs v arg = false ∧ argMatches cs (filterMode bs bop) v arg := by
  rw [(lost_gained_eq cs v arg).2, (loses_gains_iff cs notFloat v (listCop_mode member)).2]

lemma argMatches_eq_iff (v : Value ct) :
    argMatches cs (filterMode bs bop) v arg = elementMatches cs v arg ↔
      lost cs bs bop v arg = false ∧ gained cs bs bop v arg = false := by
  rw [← Bool.not_eq_true, ← Bool.not_eq_true, lost_iff cs notFloat member,
    gained_iff cs notFloat member]
  cases elementMatches cs v arg <;> cases argMatches cs (filterMode bs bop) v arg <;> simp

lemma both_reject_iff (v : Value ct) :
    argMatches cs (filterMode bs bop) v arg = false ∧ elementMatches cs v arg = false ↔
      elementMatches cs v arg = false ∧ gained cs bs bop v arg = false := by
  rw [← Bool.not_eq_true (gained cs bs bop v arg), gained_iff cs notFloat member]
  cases elementMatches cs v arg <;> cases argMatches cs (filterMode bs bop) v arg <;> simp

lemma both_accept_iff (v : Value ct) :
    argMatches cs (filterMode bs bop) v arg ∧ elementMatches cs v arg ↔
      elementMatches cs v arg ∧ lost cs bs bop v arg = false := by
  rw [← Bool.not_eq_true (lost cs bs bop v arg), lost_iff cs notFloat member]
  cases elementMatches cs v arg <;> cases argMatches cs (filterMode bs bop) v arg <;> simp

end Compiled

lemma exists_mem_congr {α : Type} {l : List α} {p q : α → Prop} (same : ∀ x ∈ l, (p x ↔ q x)) :
    (∃ x ∈ l, p x) ↔ ∃ x ∈ l, q x :=
  exists_congr fun x => and_congr_right fun member => same x member

lemma scanMatches_xor (cs : Charset) {bs : List (ColArgs ct)} (nonempty : bs ≠ []) (v : Value ct) :
    scanMatches cs bs .xor v =
      bs.foldl (fun result arg => result ^^ argMatches cs (filterMode bs .xor) v arg) false := by
  rw [scanMatches_eq cs bs (by decide)]
  rcases bs with _ | ⟨-, _ | ⟨-, -⟩⟩
  · exact absurd rfl nonempty
  · simp [matchingColValue, filterMode, chooseMode, argMatches]
  · simp [matchingColValue, filterMode, chooseMode, argMatches, foldl_map]

/-- Evaluating the mode that `_parseColumnFilter` chooses says the same as combining the
comparisons with the elements, exactly where the compiled filter keeps its meaning. -/
theorem compiled_eq_combined_iff (cs : Charset) (notFloat : kind ct ≠ .float)
    (bs : List (ColArgs ct)) {bop : Bop} (combining : bop ≠ .none) (v : Value ct) :
    scanMatches cs bs bop v = combined bop (bs.map (elementMatches cs v)) ↔
      KeepsMeaning cs bs bop v := by
  by_cases empty : bs = []
  · subst empty
    have selects : scanMatches cs ([] : List (ColArgs ct)) bop v := by
      rw [scanMatches_eq cs [] combining]
      rfl
    cases bop <;> simp [selects, combined, KeepsMeaning]
  have nonempty : bs.map (elementMatches cs v) ≠ [] := by simpa using empty
  cases bop with
  | none => exact absurd rfl combining
  | and =>
    have compiled : scanMatches cs bs .and v = bs.all (argMatches cs (filterMode bs .and) v) := by
      rw [Bool.eq_iff_iff, scanMatches_and cs empty, all_eq_true]
    simp only [compiled, combined, if_neg nonempty, all_map, all_eq_all_iff]
    refine or_congr (forall₂_congr fun arg member => argMatches_eq_iff cs notFloat member v)
      (or_congr (exists_mem_congr fun arg member => both_reject_iff cs notFloat member v)
        (and_congr (exists_mem_congr fun arg member => (lost_iff cs notFloat member v).symm)
          (exists_mem_congr fun arg member => (gained_iff cs notFloat member v).symm)))
  | or =>
    have compiled : scanMatches cs bs .or v = bs.any (argMatches cs (filterMode bs .or) v) := by
      rw [Bool.eq_iff_iff, scanMatches_or cs empty, any_eq_true]
    simp only [compiled, combined, if_neg nonempty, any_map, any_eq_any_iff, KeepsMeaning]
    refine or_congr (forall₂_congr fun arg member => argMatches_eq_iff cs notFloat member v)
      (or_congr (exists_mem_congr fun arg member => both_accept_iff cs notFloat member v)
        (and_congr (exists_mem_congr fun arg member => (lost_iff cs notFloat member v).symm)
          (exists_mem_congr fun arg member => (gained_iff cs notFloat member v).symm)))
  | xor =>
    have differs : ∀ arg ∈ bs,
        ((argMatches cs (filterMode bs .xor) v arg != elementMatches cs v arg) ↔
          lost cs bs .xor v arg) := by
      intro arg member
      have plain : isValueList bs .xor = false := Bool.eq_false_iff.mpr fun list =>
        absurd (isValueList_cases list).2 (by decide)
      have never : gained cs bs .xor v arg = false := by simp [gained, plain]
      rw [bne_iff_ne, ne_eq, argMatches_eq_iff cs notFloat member, never]
      simp
    simp only [scanMatches_xor cs empty, combined, if_neg nonempty, foldl_map,
      xor_eq_xor_iff, KeepsMeaning, countP_congr differs]

/-- A value list of unrounded integers keeps its meaning. -/
theorem compiled_eq_combined_one_or_two :
    let bs : List (ColArgs intColumn) := [⟨.eq, 0, 1⟩, ⟨.eq, 0, 2⟩]
    KeepsMeaning numberCharset bs .or 1 ∧
      scanMatches numberCharset bs .or 1 =
        combined .or (bs.map (elementMatches numberCharset 1)) := by
  have keeps : KeepsMeaning numberCharset
      ([⟨.eq, 0, 1⟩, ⟨.eq, 0, 2⟩] : List (ColArgs intColumn)) .or 1 := by decide
  exact ⟨keeps, (compiled_eq_combined_iff numberCharset (by decide) _ (by decide) 1).mpr keeps⟩

/-- With a constant that was rounded down to 1 a short value list finds the value 1, which no
element accepts, and a list of excluded values excludes it, which every element accepts. -/
theorem compiled_ignores_rounding :
    (let bs : List (ColArgs intColumn) := [⟨.eq, roundPos, 1⟩, ⟨.eq, 0, 2⟩]
     scanMatches numberCharset bs .or 1 ∧
      combined .or (bs.map (elementMatches numberCharset 1)) = false) ∧
    (let bs : List (ColArgs intColumn) := [⟨.ne, roundPos, 1⟩, ⟨.ne, 0, 2⟩]
     scanMatches numberCharset bs .and 1 = false ∧
      combined .and (bs.map (elementMatches numberCharset 1))) := by
  decide

end FilterCompilation
