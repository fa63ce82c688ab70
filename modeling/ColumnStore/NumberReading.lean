import ColumnStore.DigitParsing

/-!
# Reading numerals

What the functions of `NumberConversion` do with the text of a numeral: the point is moved without
changing the number, and the integer part is converted and rounded by the first digit behind the
point.
-/

namespace NumberConversion

open DecimalText IntType List Option Int Except
open Numeral (fraction magnitude_eq)

lemma bind_eq_ok {ε α β : Type} {x : Except ε α} {f : α → Except ε β} {b : β}
    (done : x.bind f = .ok b) : ∃ a, x = .ok a ∧ f a = .ok b := by
  cases x with
  | error fault => cases done
  | ok a => exact ⟨a, rfl, done⟩

lemma toSize_natCast {n : Nat} (small : n < 2 ^ 64) : toSize n = n := by
  rw [toSize]
  omega

variable {digits : List Digit}

lemma findIdx_isDigit (sign : Sign) (nonempty : digits ≠ []) :
    (sign.text ++ chars digits).findIdx? Char.isDigit = some sign.text.length := by
  obtain ⟨d, rest, rfl⟩ := exists_cons_of_ne_nil nonempty
  have first : chars (d :: rest) = digitChar d :: chars rest := rfl
  rw [first]
  cases sign with
  | none =>
    rw [Sign.text, nil_append, findIdx?_cons, if_pos (digitChar_isDigit d)]
    rfl
  | plus | minus =>
    rw [Sign.text, singleton_append, findIdx?_cons, findIdx?_cons, if_pos (digitChar_isDigit d)]
    rfl

/-- A numeral with at least one digit. -/
def HasDigits (n : Numeral) : Prop := n.int ++ n.fraction ≠ []

/-- Digits without a point, behind which an exponent stands. -/
structure Moved (sign : Sign) (digits : List Digit) (exponent : Int) (n : Numeral) : Prop where
  sign_eq : n.sign = sign
  hasDigits : HasDigits n
  magnitude : n.magnitude = value digits * 10 ^ exponent
  fraction : n.fraction.length = (-exponent).toNat

variable {m : Memory} {sign : Sign} {exponent : Int} {result : List Char}

/-- The point stands anywhere in the digits, with zeros put before or behind them. -/
lemma moved_of_digits {n : Numeral} (before behind : Nat) (nonempty : digits ≠ [])
    (sign_eq : n.sign = sign)
    (same : n.int ++ n.fraction = replicate before 0 ++ digits ++ replicate behind 0)
    (fraction : n.fraction.length = (-exponent).toNat)
    (places : n.fraction.length + exponent = behind) : Moved sign digits exponent n := by
  refine ⟨sign_eq, by simp [HasDigits, same, nonempty], ?_, fraction⟩
  rw [magnitude_eq, same, value_append, value_append, value_replicate_zero, value_replicate_zero,
    length_replicate, Nat.zero_mul, Nat.zero_add, Nat.add_zero, div_eq_iff (by positivity),
    mul_assoc, ← zpow_natCast, ← zpow_add₀ (by norm_num), add_comm, places]
  push_cast
  rfl

lemma movePoint_up (nonempty : digits ≠ []) (up : 0 ≤ exponent)
    (small : (sign.text ++ chars digits).length + exponent < 2 ^ 64)
    (done : movePoint m (sign.text ++ chars digits) exponent = .ok result) :
    ∃ n, result = n.text ∧ Moved sign digits exponent n := by
  obtain ⟨zeros, rfl⟩ := eq_ofNat_of_zero_le up
  have size : toSize ((sign.text ++ chars digits).length + (zeros : Int)) =
      (sign.text ++ chars digits).length + zeros := by
    exact toSize_natCast (by omega)
  rw [movePoint, if_pos up, size, resize] at done
  split at done
  · cases done
  cases done
  refine ⟨⟨sign, digits ++ replicate zeros 0, none⟩, ?_, moved_of_digits 0 zeros nonempty rfl
    (by simp [fraction]) (by simp [fraction]) (by simp [fraction])⟩
  rw [take_of_length_le (by omega)]
  simp [Numeral.text, chars_replicate]

variable {s : List Char}

lemma insert_eq_ok {new : List Char} {pos : Nat} (done : insert m s pos new = .ok result) :
    pos ≤ s.length ∧ result = s.take pos ++ new ++ s.drop pos := by
  rw [insert] at done
  split at done
  · cases done
  split at done
  · cases done
  · cases done
    exact ⟨by omega, rfl⟩

lemma insertZeros_eq_ok {pos count : Nat} (done : insertZeros m s pos count = .ok result) :
    s.length + count ≤ m.maxSize ∧
      result = s.take pos ++ replicate count '0' ++ s.drop pos := by
  rw [insertZeros] at done
  split at done
  · cases done
  split at done
  · cases done
  · cases done
    exact ⟨by omega, rfl⟩

/-- The number of zeros to insert: none are missing, or so many that memory does not hold them, if
the exponent is at least 2^63. -/
lemma padding_cases {places count : Nat} (places_lt : places < 2 ^ 64) (count_lt : count < 2 ^ 63) :
    int64.wrap (int64.wrap places - int64.wrap count) = places - count ∨
      2 ^ 63 ≤ places ∧ int64.wrap (int64.wrap places - int64.wrap count) ≤ 0 := by
  have countWrap : int64.wrap count = count :=
    wrap_eq (by rw [min_eq.1]; omega) (by rw [max_eq.1]; omega)
  rw [countWrap]
  by_cases small : places < 2 ^ 63
  · have placesWrap : int64.wrap places = places :=
      wrap_eq (by rw [min_eq.1]; omega) (by rw [max_eq.1]; omega)
    rw [placesWrap]
    exact .inl (wrap_eq (by rw [min_eq.1]; omega) (by rw [max_eq.1]; omega))
  have placesWrap : int64.wrap places = places - 2 ^ 64 := by
    rw [wrap, bmod_def, bits]
    omega
  rw [wrap, bmod_def, bits]
  omega

lemma movePoint_down (nonempty : digits ≠ []) (down : exponent < 0)
    (fits : (sign.text ++ chars digits).length ≤ m.maxSize) (small : -2 ^ 64 < exponent)
    (done : movePoint m (sign.text ++ chars digits) exponent = .ok result) :
    ∃ n, result = n.text ∧ Moved sign digits exponent n := by
  obtain ⟨places, isPlaces⟩ := eq_ofNat_of_zero_le (by omega : 0 ≤ -exponent)
  obtain rfl : exponent = -(places : Int) := by omega
  have length : (sign.text ++ chars digits).length = sign.text.length + digits.length := by
    rw [length_append, length_chars]
  have room := m.maxSize_lt
  have mpos : toSize (-(-(places : Int))) = places := by
    rw [neg_neg]
    exact toSize_natCast (by omega)
  have count : toSize (((sign.text ++ chars digits).length : Int) - sign.text.length) =
      digits.length := by
    have : ((sign.text ++ chars digits).length : Int) - sign.text.length = digits.length := by
      omega
    rw [this]
    exact toSize_natCast (by omega)
  rw [movePoint, if_neg (by omega), findIdx_isDigit sign nonempty, getD_some] at done
  simp only [mpos, count] at done
  rcases padding_cases (by omega : places < 2 ^ 64) (by omega : digits.length < 2 ^ 63) with
    padding | ⟨far, noPadding⟩
  · rw [padding] at done
    split at done
    · obtain ⟨zeros, isZeros⟩ : ∃ zeros, places = zeros + digits.length :=
        ⟨places - digits.length, by omega⟩
      have zerosEq : ((places : Int) - digits.length).toNat = zeros := by omega
      rw [zerosEq] at done
      obtain ⟨coef, padded, done⟩ := bind_eq_ok done
      obtain ⟨-, isCoef⟩ := insertZeros_eq_ok padded
      obtain ⟨-, isResult⟩ := insert_eq_ok done
      refine ⟨⟨sign, [], some (replicate zeros 0 ++ digits)⟩, ?_, moved_of_digits zeros 0
        nonempty rfl (by simp [fraction]) (by simp [fraction]; omega)
        (by simp [fraction, isZeros])⟩
      rw [isResult, isCoef]
      simp [Numeral.text, chars_replicate]
    have dpos : toSize (((sign.text ++ chars digits).length : Int) - places) =
        sign.text.length + (digits.length - places) := by
      rw [length]
      have : ((sign.text.length + digits.length : Nat) : Int) - places =
          ((sign.text.length + (digits.length - places) : Nat) : Int) := by omega
      rw [this]
      exact toSize_natCast (by omega)
    rw [dpos] at done
    obtain ⟨-, isResult⟩ := insert_eq_ok done
    have behind : (digits.drop (digits.length - places)).length = places := by
      rw [length_drop]
      omega
    refine ⟨⟨sign, digits.take (digits.length - places),
      some (digits.drop (digits.length - places))⟩, ?_, moved_of_digits 0 0 nonempty rfl
      (by simp [fraction]) (by simp [fraction, behind]) (by simp [fraction, behind])⟩
    rw [isResult, take_length_add_append, drop_length_add_append, ← chars_take, ← chars_drop]
    simp [Numeral.text]
  · rw [if_neg (by omega)] at done
    obtain ⟨inside, -⟩ := insert_eq_ok done
    rw [toSize] at inside
    omega

lemma movePoint_eq_ok (nonempty : digits ≠ [])
    (fits : (sign.text ++ chars digits).length ≤ m.maxSize) (low : -2 ^ 64 < exponent)
    (high : exponent ≤ 2 ^ 63)
    (done : movePoint m (sign.text ++ chars digits) exponent = .ok result) :
    ∃ n, result = n.text ∧ Moved sign digits exponent n := by
  have room := m.maxSize_lt
  rcases Int.lt_or_le exponent 0 with down | up
  · exact movePoint_down nonempty down fits low done
  · exact movePoint_up nonempty up (by omega) done

/-- The numeral that is read for a literal, after its point was moved by the exponent. -/
structure Expanded (l : Literal) (n : Numeral) : Prop where
  sign_eq : n.sign = l.numeral.sign
  hasDigits : HasDigits n
  magnitude : n.magnitude = l.numeral.magnitude * 10 ^ l.power
  fraction : n.fraction.length = (l.numeral.fraction.length - l.power).toNat

variable {n : Numeral}

lemma text_none (noPoint : n.frac = none) : n.text = n.sign.text ++ chars n.int := by
  rw [Numeral.text, noPoint, elim_none, append_nil]

lemma text_some {f : List Digit} (point : n.frac = some f) :
    n.text = (n.sign.text ++ chars n.int) ++ '.' :: chars f := by
  rw [Numeral.text, point, elim_some]

lemma fraction_none (noPoint : n.frac = none) : n.fraction = [] := by
  rw [fraction, noPoint, getD_none]

lemma fraction_some {f : List Digit} (point : n.frac = some f) : n.fraction = f := by
  rw [fraction, point, getD_some]

lemma point_not_mem (n : Numeral) : '.' ∉ n.sign.text ++ chars n.int :=
  not_mem_signed (by decide) (by decide) (by decide) n.sign n.int

lemma drop_point (a b : List Char) (c : Char) : (a ++ c :: b).drop (a.length + 1) = b := by
  rw [← drop_drop, drop_left]
  rfl

lemma not_mem_text {c : Char} (notDigit : c.isDigit = false) (notPlus : c ≠ '+')
    (notMinus : c ≠ '-') (notPoint : c ≠ '.') (n : Numeral) : c ∉ n.text := by
  have signed := not_mem_signed notDigit notPlus notMinus n.sign n.int
  cases point : n.frac with
  | none =>
    rw [text_none point]
    exact signed
  | some f =>
    rw [text_some point, mem_append, mem_cons]
    rintro (inInt | isPoint | inFrac)
    · exact signed inInt
    · exact notPoint isPoint
    · exact not_mem_chars notDigit f inFrac

variable {t : IntType}

/-- The coefficient without its point, and the exponent lowered by the digits behind it. -/
lemma expand_coefficient {power : Int}
    {result : List Char × Bool} (hasDigits : HasDigits n) (fits : n.text.length ≤ m.maxSize)
    (low : -2 ^ 63 ≤ power) (high : power < 2 ^ 63)
    (done : (match find '.' n.text with
      | none => (do return (← movePoint m n.text power, false))
      | some dpos =>
          let coef := n.text.eraseIdx dpos
          let lower := power - (coef.length - dpos : Nat)
          (do return (← movePoint m coef (t.wrap lower), false || !t.fits lower)) :
        Except Fault (List Char × Bool)) = .ok result) :
    ∃ n', result = (n'.text, false) ∧
      Moved n.sign (n.int ++ n.fraction) (power - n.fraction.length) n' := by
  have room := m.maxSize_lt
  cases point : n.frac with
  | none =>
    have noFraction := fraction_none point
    rw [HasDigits, noFraction, append_nil] at hasDigits
    rw [text_none point] at done fits
    rw [find_eq_none (point_not_mem n)] at done
    obtain ⟨s, moved, done⟩ := bind_eq_ok done
    cases done
    obtain ⟨n', rfl, isMoved⟩ := movePoint_eq_ok hasDigits fits (by omega) (by omega) moved
    refine ⟨n', rfl, ?_⟩
    rw [noFraction, append_nil, length_nil, Nat.cast_zero, sub_zero]
    exact isMoved
  | some f =>
    have isFraction := fraction_some point
    rw [HasDigits, isFraction] at hasDigits
    rw [text_some point] at done fits
    rw [find_append (point_not_mem n)] at done
    have erased : ((n.sign.text ++ chars n.int) ++ '.' :: chars f).eraseIdx
        (n.sign.text ++ chars n.int).length = n.sign.text ++ chars (n.int ++ f) := by
      rw [eraseIdx_append, chars_append, append_assoc]
    have behind : (n.sign.text ++ chars (n.int ++ f)).length -
        (n.sign.text ++ chars n.int).length = f.length := by
      simp only [length_append, length_chars]
      omega
    have shorter : (n.sign.text ++ chars (n.int ++ f)).length ≤ m.maxSize ∧
        f.length ≤ (n.sign.text ++ chars (n.int ++ f)).length := by
      simp only [length_append, length_chars, length_cons] at fits ⊢
      omega
    simp only [erased, behind] at done
    rw [isFraction]
    by_cases inRange : t.min ≤ power - f.length
    · have below : power - f.length ≤ t.max := by
        cases t with
        | int64 => rw [max_eq.1]; omega
        | int128 => rw [max_eq.2]; omega
      have exact' : t.wrap (power - f.length) = power - f.length := wrap_eq inRange below
      have noWrap : t.fits (power - f.length) := fits_iff.mpr ⟨inRange, below⟩
      rw [exact', noWrap] at done
      obtain ⟨s, moved, done⟩ := bind_eq_ok done
      cases done
      obtain ⟨n', rfl, isMoved⟩ :=
        movePoint_eq_ok hasDigits shorter.1 (by omega) (by omega) moved
      exact ⟨n', rfl, isMoved⟩
    -- the exponent wraps to one that is too large for memory
    cases t with
    | int128 =>
      rw [min_eq.2] at inRange
      omega
    | int64 =>
      rw [min_eq.1] at inRange
      have far : int64.wrap (power - f.length) = power - f.length + 2 ^ 64 := by
        rw [wrap, bmod_def, bits]
        omega
      rw [movePoint, if_pos (by omega), resize, if_pos (by rw [toSize]; omega)] at done
      cases done

lemma find_exponent (l : Literal) {upper : Bool}
    (isExponent : l.exponent = some (upper, sign, digits)) :
    (find 'E' l.text).or (find 'e' l.text) = some l.numeral.text.length ∧
      l.text.take l.numeral.text.length = l.numeral.text ∧
      l.text.drop (l.numeral.text.length + 1) = sign.text ++ chars digits := by
  have text : l.text =
      l.numeral.text ++ (if upper then 'E' else 'e') :: (sign.text ++ chars digits) := by
    rw [Literal.text, isExponent]
    rfl
  have noE := not_mem_text (c := 'E') (by decide) (by decide) (by decide) (by decide) l.numeral
  have noe := not_mem_text (c := 'e') (by decide) (by decide) (by decide) (by decide) l.numeral
  refine ⟨?_, ?_, ?_⟩
  · rw [text]
    cases upper with
    | true => rw [if_pos rfl, find_append noE, some_or]
    | false =>
      have absent : 'E' ∉ l.numeral.text ++ 'e' :: (sign.text ++ chars digits) := by
        rw [mem_append, mem_cons]
        rintro (inNumeral | isLetter | inPower)
        · exact noE inNumeral
        · exact absurd isLetter (by decide)
        · exact not_mem_signed (by decide) (by decide) (by decide) sign digits inPower
      rw [if_neg (by decide), find_eq_none absent, none_or, find_append noe]
  · rw [text, take_left]
  · rw [text, ← drop_drop, drop_left]
    rfl

variable {l : Literal} {wrapped : Bool}

lemma expandExponent_eq_ok (fits : l.text.length ≤ m.maxSize)
    (power : t = .int128 → -2 ^ 63 ≤ l.power ∧ l.power < 2 ^ 63)
    (done : expandExponent t m l.text = .ok (s, wrapped)) :
    wrapped = false ∧ ∃ n, s = n.text ∧ Expanded l n := by
  have hasDigits : HasDigits l.numeral := l.hasDigits
  cases isExponent : l.exponent with
  | none =>
    have noPower : l.power = 0 := by rw [Literal.power, isExponent, elim_none]
    have text : l.text = l.numeral.text := by
      rw [Literal.text, isExponent, elim_none, append_nil]
    rw [text, expandExponent, find_eq_none (not_mem_text (by decide) (by decide) (by decide)
      (by decide) _), find_eq_none (not_mem_text (by decide) (by decide) (by decide) (by decide) _)]
      at done
    cases done
    refine ⟨rfl, l.numeral, rfl, rfl, hasDigits, ?_, ?_⟩
    · rw [noPower, zpow_zero, mul_one]
    · omega
  | some e =>
    obtain ⟨upper, sign, digits⟩ := e
    have nonempty : digits ≠ [] := l.exponentDigits _ isExponent
    have isPower : l.power = signed sign.negative (value digits) := by
      rw [Literal.power, isExponent]
      rfl
    obtain ⟨found, coefficient, exponent⟩ := find_exponent l isExponent
    have shorter : l.numeral.text.length ≤ m.maxSize := by
      rw [← coefficient, length_take]
      omega
    rw [expandExponent, found] at done
    simp only [coefficient, exponent] at done
    obtain ⟨parsed, read, done⟩ := bind_eq_ok done
    obtain ⟨inRange, beyond⟩ := stringToLl_signed nonempty read
    by_cases small : value digits ≤ t.bound sign.negative
    · obtain rfl := inRange small
      have bounds : -2 ^ 63 ≤ l.power ∧ l.power < 2 ^ 63 := by
        cases t with
        | int128 => exact power rfl
        | int64 =>
          have := fits_iff.mp ((fits_signed .int64 sign.negative _).mpr small)
          rw [min_eq.1, max_eq.1] at this
          omega
      rw [← isPower] at done
      obtain ⟨n, isResult, moved⟩ :=
        expand_coefficient hasDigits shorter bounds.1 bounds.2 done
      obtain ⟨rfl, rfl⟩ := Prod.mk.inj isResult
      refine ⟨rfl, n, rfl, moved.sign_eq, moved.hasDigits, ?_, ?_⟩
      · rw [moved.magnitude, magnitude_eq, zpow_sub₀ (by norm_num), zpow_natCast]
        ring
      · rw [moved.fraction]
        congr 1
        omega
    rcases beyond (Nat.not_le.mp small) with ⟨-, rfl⟩ | ⟨rfl, -⟩
    · cases done
    obtain ⟨low, high⟩ := power rfl
    rw [isPower, signed] at low high
    rw [bound, bits] at small
    cases negative : sign.negative <;> simp [negative] at low high small <;> omega

/-- A numeral multiplied by a power of ten. -/
structure Scaled (n : Numeral) (scale : Nat) (n' : Numeral) : Prop where
  sign_eq : n'.sign = n.sign
  hasDigits : HasDigits n'
  magnitude : n'.magnitude = n.magnitude * 10 ^ scale
  fraction : n'.fraction.length = n.fraction.length - scale

lemma resize_eq_ok {size : Nat} (done : resize m s size = .ok result) :
    result = s.take size ++ replicate (size - s.length) '0' := by
  rw [resize] at done
  split at done
  · cases done
  · cases done
    rfl

lemma Moved.scaled {n' : Numeral} {scale : Nat}
    (moved : Moved n.sign (n.int ++ n.fraction) (scale - n.fraction.length) n') :
    Scaled n scale n' := by
  refine ⟨moved.sign_eq, moved.hasDigits, ?_, ?_⟩
  · rw [moved.magnitude, magnitude_eq, zpow_sub₀ (by norm_num), zpow_natCast, zpow_natCast]
    ring
  · rw [moved.fraction]
    omega

lemma applyScale_eq_ok {scale : Int} (hasDigits : HasDigits n) (nonneg : 0 ≤ scale)
    (done : applyScale m scale n.text = .ok s) : ∃ n', s = n'.text ∧ Scaled n scale.toNat n' := by
  obtain ⟨places, rfl⟩ := eq_ofNat_of_zero_le nonneg
  rw [toNat_natCast]
  rw [applyScale] at done
  split at done
  · cases done
    obtain rfl : places = 0 := by omega
    exact ⟨n, rfl, rfl, hasDigits, by rw [pow_zero, mul_one], rfl⟩
  have positive : (0 : Int) < places := by omega
  rw [natAbs_natCast] at done
  cases point : n.frac with
  | none =>
    rw [text_none point, find_eq_none (point_not_mem n)] at done
    simp only [if_pos positive] at done
    have padded := resize_eq_ok done
    rw [take_of_length_le (by omega), Nat.add_sub_cancel_left] at padded
    refine ⟨⟨n.sign, n.int ++ replicate places 0, none⟩, ?_, Moved.scaled (moved_of_digits 0
      places hasDigits (Eq.refl n.sign) ?_ ?_ ?_)⟩
    · rw [padded, text_none rfl, chars_append, chars_replicate, append_assoc]
    · simp [fraction, point]
    · simp [fraction, point]
    · simp [fraction, point]
  | some f =>
    have isFraction := fraction_some point
    rw [text_some point, find_append (point_not_mem n)] at done
    simp only [if_pos positive, take_left, drop_point] at done
    by_cases few : f.length < places
    · have cut : (chars f).take places = chars f := by
        rw [take_of_length_le]
        rw [length_chars]
        omega
      rw [cut, length_chars, if_pos few] at done
      obtain ⟨frnStr, padded, done⟩ := bind_eq_ok done
      have isPadded := resize_eq_ok padded
      rw [cut] at isPadded
      have rest : (chars f).drop places = [] := by
        rw [drop_eq_nil_iff, length_chars]
        omega
      refine ⟨⟨n.sign, n.int ++ f ++ replicate (places - f.length) 0, none⟩, ?_,
        Moved.scaled (moved_of_digits 0 (places - f.length) hasDigits (Eq.refl n.sign) ?_ ?_ ?_)⟩
      · simp only [pure, rest, joinParts] at done
        rw [← ok.inj done, isPadded, text_none rfl]
        simp [chars_replicate]
      · simp [fraction, point]
      · simp [fraction, point]
        omega
      · simp [fraction, point]
        omega
    have enough : ¬((chars f).take places).length < places := by
      rw [length_take, length_chars]
      omega
    rw [if_neg enough, ← chars_take, ← chars_drop] at done
    have moved (n' : Numeral) (sign_eq : n'.sign = n.sign) (int : n'.int = n.int ++ f.take places)
        (rest : n'.fraction = f.drop places) : Scaled n places n' := by
      refine (moved_of_digits 0 0 hasDigits sign_eq ?_ ?_ ?_).scaled
      · simp [int, rest, isFraction]
      · rw [rest, isFraction, length_drop]
        omega
      · rw [rest, isFraction, length_drop]
        omega
    by_cases rest : f.drop places = []
    · refine ⟨⟨n.sign, n.int ++ f.take places, none⟩, ?_, moved _ rfl rfl rest.symm⟩
      rw [← ok.inj done, rest, text_none rfl]
      simp [joinParts]
    refine ⟨⟨n.sign, n.int ++ f.take places, some (f.drop places)⟩, ?_, moved _ rfl rfl rfl⟩
    have shown : (chars (f.drop places)).length > 0 := by
      rw [length_chars]
      exact length_pos_iff.mpr rest
    rw [← ok.inj done, joinParts, if_pos shown, text_some rfl]
    simp

/-- What is added to the magnitude. -/
def roundup (noRoundup : Bool) (n : Numeral) : Nat :=
  if noRoundup = false ∧ RoundsUp n.fraction then 1 else 0

/-- The fraction is converted only to see whether it is zero. -/
lemma stringToLl_fraction {parsed : Parsed} (nonempty : digits ≠ [])
    (read : stringToLl t (chars digits) = .ok parsed) :
    (parsed.value = 0 ↔ value digits = 0) ∧
      (parsed.wrapped ↔ t = .int128 ∧ int128.bound false < value digits) := by
  have read' : stringToLl t (Sign.none.text ++ chars digits) = .ok parsed := read
  obtain ⟨inRange, beyond⟩ := stringToLl_signed nonempty read'
  by_cases small : value digits ≤ t.bound false
  · rw [inRange small]
    refine ⟨natCast_eq_zero, ⟨nofun, ?_⟩⟩
    rintro ⟨rfl, large⟩
    omega
  have large := Nat.not_le.mp small
  rcases beyond large with ⟨rfl, rfl⟩ | ⟨rfl, isWrapped, -⟩
  · simp only [reduceCtorEq, false_and, and_true]
    refine ⟨fun zero => absurd zero (by decide), fun zero => ?_⟩
    rw [zero] at large
    exact absurd large (Nat.not_lt_zero _)
  rw [isWrapped]
  refine ⟨?_, ⟨fun _ => ⟨rfl, large⟩, fun _ => rfl⟩⟩
  have noPlus : Sign.none ≠ .plus := by decide
  have converted := stringToLl_int128 noPlus nonempty
  rw [read'] at converted
  rw [ok.inj converted]
  exact digits128_eq_zero digits false

/-- The integer part and the rest of a conversion, for a numeral in fixed-point notation. -/
structure Conversion (t : IntType) (noRoundup wrapped : Bool) (n : Numeral) (c : Converted) where
  parsed : Parsed
  frnWrapped : Bool
  sum : Int
  sum_eq : sum = parsed.value +
    if parsed.value ≥ 0 then (roundup noRoundup n : Int) else -(roundup noRoundup n : Int)
  result : c = ⟨t.wrap sum, parsed.saturate || decide (value n.fraction ≠ 0), false,
    wrapped || parsed.wrapped || !t.fits sum || frnWrapped⟩
  inRange : value n.int ≤ t.bound n.sign.negative →
    parsed = ⟨signed n.sign.negative (value n.int), false, false⟩
  beyond : t.bound n.sign.negative < value n.int →
    t = .int64 ∧ parsed = ⟨if n.sign.negative then int64.min else int64.max, true, false⟩ ∨
      t = .int128 ∧ Overflowed n.sign.negative (value n.int) parsed
  frnWrapped_iff : frnWrapped = true ↔ t = .int128 ∧ int128.bound false < value n.fraction

lemma withDigit_signed (sign : Sign) (digits : List Digit) :
    ∃ digits', digits' ≠ [] ∧ value digits' = value digits ∧
      withDigit (sign.text ++ chars digits) = sign.text ++ chars digits' := by
  cases digits with
  | nil =>
    refine ⟨[0], by simp, rfl, ?_⟩
    cases sign <;> rfl
  | cons d rest =>
    refine ⟨d :: rest, by simp, rfl, ?_⟩
    have first : chars (d :: rest) = digitChar d :: chars rest := rfl
    have notSign : ∀ c, c.isDigit = false → digitChar d :: chars rest ≠ [c] := by
      intro c other same
      exact digitChar_ne other d (cons.inj same).1
    rw [first, withDigit]
    cases sign with
    | none =>
      rw [Sign.text, nil_append, if_neg (by simp),
        if_neg (not_or.mpr ⟨notSign '+' (by decide), notSign '-' (by decide)⟩)]
    | plus | minus => simp [Sign.text]

variable {noRoundup : Bool} {c : Converted}

lemma convertDigits_none (point : n.frac = none) (hasDigits : HasDigits n)
    (done : convertDigits t noRoundup n.text wrapped = .ok c) :
    Nonempty (Conversion t noRoundup wrapped n c) := by
  have noFraction := fraction_none point
  rw [HasDigits, noFraction, append_nil] at hasDigits
  rw [text_none point, convertDigits, splitPoint, find_eq_none (point_not_mem n)] at done
  simp only [bind, Except.bind] at done
  have noRound : roundup noRoundup n = 0 := by
    rw [roundup, if_neg]
    rintro ⟨-, d, member, -⟩
    rw [noFraction] at member
    cases member
  obtain ⟨parsed, read, done⟩ := bind_eq_ok done
  obtain ⟨inRange, beyond⟩ := stringToLl_signed hasDigits read
  refine ⟨⟨parsed, false, _, rfl, ?_, inRange, beyond, ?_⟩⟩
  · rw [← Except.ok.inj done, noRound, noFraction]
    simp
  · rw [noFraction]
    exact ⟨nofun, fun ⟨_, large⟩ => absurd large (Nat.not_lt_zero _)⟩

lemma convertDigits_some {f : List Digit} (point : n.frac = some f)
    (done : convertDigits t noRoundup n.text wrapped = .ok c) :
    Nonempty (Conversion t noRoundup wrapped n c) := by
  have isFraction := fraction_some point
  rw [text_some point, convertDigits, splitPoint, find_append (point_not_mem n)] at done
  simp only [take_left, drop_point] at done
  cases f with
  | nil =>
    cases done
  | cons d rest =>
    have first : (chars (d :: rest)).take 1 = Sign.none.text ++ chars [d] := rfl
    have frac1 : limited (signed false (value [d])) = d.val := by
      have small : value [d] ≤ int64.bound false := by
        have room : 10 ≤ int64.bound false := by decide
        rw [value_cons, value_nil, length_nil]
        omega
      rw [limited_signed, if_pos small, signed, if_neg (by decide), value_cons, value_nil,
        length_nil, Nat.pow_zero, Nat.mul_one, Nat.add_zero]
    have rounds : (if (!noRoundup && decide ((d.val : Int) ≥ 5)) then (1 : Int) else 0) =
        roundup noRoundup n := by
      have five : (!noRoundup && decide ((d.val : Int) ≥ 5)) ↔
          noRoundup = false ∧ RoundsUp (d :: rest) := by
        simp only [RoundsUp, head?_cons, mem_def, some.injEq, exists_eq_left',
          Bool.and_eq_true, Bool.not_eq_true', decide_eq_true_eq]
        exact and_congr_right fun _ => by omega
      rw [roundup, isFraction]
      by_cases up : noRoundup = false ∧ RoundsUp (d :: rest)
      · rw [if_pos (five.mpr up), if_pos up]
        rfl
      · rw [if_neg (mt five.mp up), if_neg up]
        rfl
    obtain ⟨digits, nonempty, sameValue, withDigits⟩ := withDigit_signed n.sign n.int
    rw [first, stringToLl_int64 .none (by simp), withDigits, apply_eq_signed] at done
    have unsigned : Sign.none.negative = false := rfl
    simp only [bind, Except.bind, unsigned, frac1, rounds] at done
    obtain ⟨parsed, read, done⟩ := bind_eq_ok done
    obtain ⟨frnVal, readFraction, done⟩ := bind_eq_ok done
    obtain ⟨inRange, beyond⟩ := stringToLl_signed nonempty read
    obtain ⟨zero, overflow⟩ := stringToLl_fraction (by simp) readFraction
    rw [sameValue] at inRange beyond
    refine ⟨⟨parsed, frnVal.wrapped, _, rfl, ?_, inRange, beyond, ?_⟩⟩
    · rw [← Except.ok.inj done, isFraction]
      congr 2
      rw [Bool.eq_iff_iff, bne_iff_ne, decide_eq_true_eq]
      exact not_congr zero
    · rw [isFraction]
      exact overflow

lemma convertDigits_eq_ok (hasDigits : HasDigits n)
    (done : convertDigits t noRoundup n.text wrapped = .ok c) :
    Nonempty (Conversion t noRoundup wrapped n c) := by
  cases point : n.frac with
  | none => exact convertDigits_none point hasDigits done
  | some f => exact convertDigits_some point done

lemma removeParentheses_text (opening : '(' ∉ s) (closing : ')' ∉ s) (fuel : Nat) :
    removeParentheses fuel s = .ok s := by
  cases fuel with
  | zero => rfl
  | succ fuel => rw [removeParentheses, find_eq_none opening, find_eq_none closing]

lemma length_removeParentheses {fuel : Nat} (done : removeParentheses fuel s = .ok result) :
    result.length ≤ s.length := by
  induction fuel generalizing s with
  | zero =>
    cases done
    exact Nat.le_refl _
  | succ fuel later =>
    rw [removeParentheses] at done
    split at done
    · refine (later done).trans ?_
      exact ((eraseIdx_sublist _ _).trans (eraseIdx_sublist _ _)).length_le
    · cases done
    · cases done
    · cases done
      exact Nat.le_refl _

lemma not_mem_literal {c : Char} (notDigit : c.isDigit = false) (notPlus : c ≠ '+')
    (notMinus : c ≠ '-') (notPoint : c ≠ '.') (notUpper : c ≠ 'E') (notLower : c ≠ 'e')
    (l : Literal) : c ∉ l.text := by
  have numeral := not_mem_text notDigit notPlus notMinus notPoint l.numeral
  rw [Literal.text]
  cases isExponent : l.exponent with
  | none => rwa [elim_none, append_nil]
  | some e =>
    obtain ⟨upper, sign, digits⟩ := e
    rw [elim_some, Literal.exponentText, mem_append, mem_cons]
    rintro (inNumeral | isLetter | inPower)
    · exact numeral inNumeral
    · cases upper with
      | true => exact notUpper isLetter
      | false => exact notLower isLetter
    · exact not_mem_signed notDigit notPlus notMinus sign digits inPower

lemma digit_mem_text (hasDigits : HasDigits n) : ∃ d, digitChar d ∈ n.text := by
  obtain ⟨d, member⟩ := exists_mem_of_ne_nil _ hasDigits
  refine ⟨d, ?_⟩
  have inChars : ∀ digits : List Digit, d ∈ digits → digitChar d ∈ chars digits :=
    fun _ => mem_map_of_mem
  rcases mem_append.mp member with inInt | inFraction
  · exact mem_append_left _ (mem_append_right _ (inChars _ inInt))
  cases point : n.frac with
  | none =>
    rw [fraction, point] at inFraction
    cases inFraction
  | some f =>
    rw [fraction, point] at inFraction
    rw [text_some point]
    exact mem_append_right _ (mem_cons_of_mem _ (inChars _ inFraction))

/-- A number is not one of the words for truth values. -/
lemma iequals_literal (l : Literal) {word : String}
    (letters : ∀ c ∈ word.toList, c.isDigit = false) :
    iequals l.text word = false := by
  obtain ⟨d, member⟩ := digit_mem_text l.hasDigits
  rw [iequals, beq_eq_false_iff_ne]
  intro same
  have inWord : (digitChar d).toLower ∈ word.toList := by
    rw [← same]
    exact mem_map_of_mem (mem_append_left _ member)
  have lower : ∀ d : Digit, (digitChar d).toLower = digitChar d := by decide
  rw [lower] at inWord
  have isLetter := letters _ inWord
  rw [digitChar_isDigit] at isLetter
  cases isLetter

/-- The numeral that is converted for a literal: the point was moved by exponent and scale. -/
structure Read (l : Literal) (scale : Nat) (n : Numeral) : Prop where
  sign_eq : n.sign = l.numeral.sign
  magnitude : n.magnitude = l.numeral.magnitude * 10 ^ (l.power + scale)
  fraction : n.fraction.length = (l.numeral.fraction.length - l.power - scale).toNat

lemma Read.toRat_eq {scale : Nat} (read : Read l scale n) : n.toRat = l.toRat * 10 ^ scale := by
  rw [Numeral.toRat, Literal.toRat, Numeral.toRat, read.sign_eq, read.magnitude,
    zpow_add₀ (by norm_num), zpow_natCast, Sign.apply, Sign.apply]
  split <;> ring

lemma numberIntValue_eq_ok {data : List Char} {typeCode : ColumnTypes.ColDataType}
    {ct : TypeAttributes} {r : Converted}
    (isLiteral : removeParentheses data.length data = .ok l.text) (nonneg : 0 ≤ ct.scale)
    (power : t = .int128 → -2 ^ 63 ≤ l.power ∧ l.power < 2 ^ 63)
    (done : numberIntValue t m data typeCode ct noRoundup = .ok r) :
    ∃ n c, Read l ct.scale.toNat n ∧ Nonempty (Conversion t noRoundup false n c) ∧
      limitPrecision t typeCode ct
        (match typeLimits typeCode ct.colWidth with
          | some (low, high) => c.limit low high
          | none => c) = .ok r := by
  rw [numberIntValue, copy] at done
  split at done
  · cases done
  rename_i short
  have noTrue : iequals l.text "true" = false := iequals_literal l (by simp)
  have noFalse : iequals l.text "false" = false := iequals_literal l (by simp)
  simp only [bind, Except.bind, isLiteral, noTrue, noFalse] at done
  have fits : l.text.length ≤ m.maxSize :=
    (length_removeParentheses isLiteral).trans (Nat.not_lt.mp short)
  obtain ⟨⟨s, wrapped⟩, expand, done⟩ := bind_eq_ok done
  obtain ⟨rfl, n₁, rfl, isExpanded⟩ := expandExponent_eq_ok fits power expand
  obtain ⟨s₂, scale, done⟩ := bind_eq_ok done
  obtain ⟨n, rfl, isScaled⟩ := applyScale_eq_ok isExpanded.hasDigits nonneg scale
  obtain ⟨c, convert, done⟩ := bind_eq_ok done
  refine ⟨n, c, ⟨?_, ?_, ?_⟩, convertDigits_eq_ok isScaled.hasDigits convert, done⟩
  · rw [isScaled.sign_eq, isExpanded.sign_eq]
  · rw [isScaled.magnitude, isExpanded.magnitude, zpow_add₀ (by norm_num),
      zpow_natCast, mul_assoc]
  · rw [isScaled.fraction, isExpanded.fraction]
    omega

end NumberConversion
