import TypeBridge.Schema.DecimalText

namespace TypeBridge.Schema

open Library

/-!
# Decimals as numbers

A decimal text is an optional sign, digits, optionally a point and more digits, and optionally
the suffix of the driver. The text denotes a rational number; reading a text, comparing and
writing decimals are related to the numbers that the texts denote.
-/

/-! ## Numbers of digits -/

def signed (negative : Bool) (magnitude : ℚ) : ℚ := if negative then -magnitude else magnitude

def decimalNumber (negative : Bool) (whole fraction : List (Fin 10)) : ℚ :=
  signed negative (digitsValue whole + digitsValue fraction / 10 ^ fraction.length)

def DecimalValue.number (value : DecimalValue) : ℚ :=
  decimalNumber value.negative value.whole value.fraction

theorem digitsValue_append (first second : List (Fin 10)) : digitsValue (first ++ second) =
      digitsValue first * 10 ^ second.length + digitsValue second := by
  induction first with
  | nil => simp [digitsValue]
  | cons digit rest ih =>
    rw [List.cons_append, digitsValue_cons, digitsValue_cons, ih, List.length_append, pow_add]
    ring

theorem digitsValue_replicate_zero (count : Nat) : digitsValue (List.replicate count 0) = 0 := by
  induction count with
  | zero => rfl
  | succ count ih =>
    rw [List.replicate_succ, digitsValue_cons, ih]
    simp

variable (digits : List (Fin 10))

theorem digitsValue_trimWhole :
    digitsValue (DecimalValue.trimWhole digits) = digitsValue digits := by
  have dropped : digitsValue (digits.dropWhile (· = 0)) = digitsValue digits := by
    induction digits with
    | nil => rfl
    | cons digit rest ih =>
      by_cases zero : digit = 0
      · rw [List.dropWhile_cons_of_pos (by simpa using zero), ih,
          digitsValue_cons, zero]
        simp
      · rw [List.dropWhile_cons_of_neg (by simpa using zero)]
  unfold DecimalValue.trimWhole
  split_ifs with empty
  · rw [← dropped, empty]
    rfl
  · exact dropped

theorem fraction_append_zeros (count : Nat) : (digitsValue (digits ++ List.replicate count 0) : ℚ) /
        10 ^ (digits ++ List.replicate count (0 : Fin 10)).length =
      digitsValue digits / 10 ^ digits.length := by
  rw [digitsValue_append, digitsValue_replicate_zero, List.length_append, List.length_replicate,
    pow_add, Nat.add_zero, Nat.cast_mul, Nat.cast_pow, Nat.cast_ofNat]
  exact mul_div_mul_right _ _ (by positivity)

theorem fraction_trimFraction : (digitsValue (DecimalValue.trimFraction digits) : ℚ) /
        10 ^ (DecimalValue.trimFraction digits).length =
      digitsValue digits / 10 ^ digits.length := by
  have restored := rdropWhile_append_replicate (0 : Fin 10) digits
  rw [← fraction_append_zeros _ (digits.length - (digits.rdropWhile (· = 0)).length)]
  unfold DecimalValue.trimFraction
  rw [restored]

theorem fraction_lt_one : (digitsValue digits : ℚ) / 10 ^ digits.length < 1 := by
  rw [div_lt_one (by positivity)]
  exact_mod_cast digitsValue_lt digits

theorem digitsValue_eq_zero_iff {digits : List (Fin 10)} (normal : digits.getLast? ≠ some 0) :
    digitsValue digits = 0 ↔ digits = [] := by
  constructor
  · intro zero
    by_contra nonempty
    rw [← List.dropLast_append_getLast nonempty, digitsValue_append, digitsValue_cons] at zero
    have last : (digits.getLast nonempty : Nat) = 0 := by
      simp only [List.length_nil, pow_zero, mul_one] at zero
      omega
    exact normal ((List.getLast?_eq_some_getLast nonempty).trans (congrArg some (Fin.ext last)))
  · rintro rfl
    rfl

namespace DecimalValue

theorem inRange_iff {negative : Bool} {whole fraction : List (Fin 10)}
    (normal : fraction.getLast? ≠ some 0) : (digitsValue whole < 2 ^ 63 ∨
        (negative = true ∧ digitsValue whole = 2 ^ 63 ∧ fraction = [])) ↔
      -2 ^ 63 ≤ decimalNumber negative whole fraction ∧
        decimalNumber negative whole fraction < 2 ^ 63 := by
  have belowOne := fraction_lt_one fraction
  have nonnegative : (0 : ℚ) ≤ digitsValue fraction / 10 ^ fraction.length := by positivity
  have wholeNonnegative : (0 : ℚ) ≤ digitsValue whole := by positivity
  have zero : fraction = [] ↔ (digitsValue fraction : ℚ) / 10 ^ fraction.length = 0 := by
    rw [div_eq_zero_iff, or_iff_left (by positivity), Nat.cast_eq_zero,
      digitsValue_eq_zero_iff normal]
  rw [zero]
  unfold decimalNumber
  generalize (digitsValue fraction : ℚ) / 10 ^ fraction.length = part at *
  rcases lt_trichotomy (digitsValue whole) (2 ^ 63) with below | atLimit | above
  · have step : (digitsValue whole : ℚ) + 1 ≤ 2 ^ 63 := by exact_mod_cast below
    refine iff_of_true (.inl below) ?_
    cases negative <;> simp only [signed, ↓reduceIte, Bool.false_eq_true] <;>
      constructor <;> linarith
  · rw [atLimit, Nat.cast_pow, Nat.cast_ofNat]
    cases negative with
    | false =>
      simp only [signed, Bool.false_eq_true, ↓reduceIte, false_and, or_false, lt_irrefl]
      refine iff_of_false id fun inside => ?_
      linarith [inside.2]
    | true =>
      simp only [signed, ↓reduceIte, true_and, lt_irrefl, false_or]
      constructor
      · rintro rfl
        norm_num
      · intro inside
        linarith [inside.1]
  · have step : (2 : ℚ) ^ 63 + 1 ≤ digitsValue whole := by exact_mod_cast above
    refine iff_of_false (by omega) fun inside => ?_
    cases negative <;> simp only [signed, ↓reduceIte, Bool.false_eq_true] at inside <;>
      linarith [inside.1, inside.2]

theorem decimalNumber_trim (negative : Bool) (whole fraction : List (Fin 10)) :
    decimalNumber negative (trimWhole whole) (trimFraction fraction) =
      decimalNumber negative whole fraction := by
  unfold decimalNumber
  rw [digitsValue_trimWhole, fraction_trimFraction]

variable {negative : Bool} {whole fraction : List (Fin 10)}

theorem exists_ofDigits_iff : (∃ decimal, ofDigits negative whole fraction = some decimal) ↔
      fraction.length ≤ 19 ∧ -2 ^ 63 ≤ decimalNumber negative whole fraction ∧
        decimalNumber negative whole fraction < 2 ^ 63 := by
  have range : isInRange negative (trimWhole whole) (trimFraction fraction) = true ↔ _ :=
    isInRange_iff (isWhole_trimWhole whole)
  rw [inRange_iff (getLast?_trimFraction fraction), decimalNumber_trim] at range
  rw [← range]
  unfold ofDigits
  simp only
  split_ifs with valid <;> simp [valid]

theorem number_of_ofDigits {decimal : DecimalValue}
    (isDecimal : ofDigits negative whole fraction = some decimal) :
    decimal.number = decimalNumber negative whole fraction := by
  rw [← decimalNumber_trim]
  unfold ofDigits at isDecimal
  simp only at isDecimal
  split_ifs at isDecimal
  obtain rfl := Option.some.inj isDecimal
  unfold number
  simp only
  -- The sign is dropped of zero only.
  by_cases zero : trimWhole whole = [0] ∧ trimFraction fraction = []
  · simp [zero, decimalNumber, signed, digitsValue]
  · have kept : (negative && !(decide (trimWhole whole = [0]) &&
        decide (trimFraction fraction = []))) = negative := by
      rw [← Bool.decide_and, decide_eq_false zero]
      simp
    rw [kept]

/-! ## Comparison -/

/-- The magnitude in units of the last place. -/
def scaled (value : DecimalValue) : Nat :=
  digitsValue value.whole * 10 ^ 19 + digitsValue (padded 19 value.fraction)

variable (value : DecimalValue)

theorem length_padded : (padded 19 value.fraction).length = 19 := by
  have fits := value.fractionFits
  simp only [padded, List.length_append, List.length_replicate]
  omega

theorem number_eq_scaled : value.number = signed value.negative (value.scaled / 10 ^ 19) := by
  unfold number decimalNumber scaled
  rw [← fraction_append_zeros value.fraction (19 - value.fraction.length)]
  change signed _ (_ + (digitsValue (padded 19 value.fraction) : ℚ) /
    10 ^ (padded 19 value.fraction).length) = _
  rw [length_padded]
  rw [Nat.cast_add, Nat.cast_mul, Nat.cast_pow, Nat.cast_ofNat, add_div,
    mul_div_cancel_right₀ _ (by positivity)]

theorem cmp_then_cmp {first second low high bound : Nat} (lowFits : low < bound)
    (highFits : high < bound) : (cmp first second).then (cmp low high) =
      cmp (first * bound + low) (second * bound + high) := by
  rcases lt_trichotomy first second with less | rfl | greater
  · have step : first * bound + bound ≤ second * bound := by
      rw [← Nat.succ_mul]
      exact Nat.mul_le_mul_right _ less
    have smaller : first * bound + low < second * bound + high := by omega
    rw [(cmp_eq_lt_iff _ _).mpr less, (cmp_eq_lt_iff _ _).mpr smaller]
    rfl
  · rw [cmp_self_eq_eq, Ordering.eq_then, cmp_add_left]
  · have step : second * bound + bound ≤ first * bound := by
      rw [← Nat.succ_mul]
      exact Nat.mul_le_mul_right _ greater
    have larger : second * bound + high < first * bound + low := by omega
    rw [(cmp_eq_gt_iff _ _).mpr greater, (cmp_eq_gt_iff _ _).mpr larger]
    rfl

theorem cmp_magnitudeKey_eq (first second : DecimalValue) :
    cmp first.magnitudeKey second.magnitudeKey = cmp first.scaled second.scaled := by
  have bounded : ∀ value : DecimalValue, digitsValue (padded 19 value.fraction) < 10 ^ 19 := by
    intro value
    have bound := digitsValue_lt (padded 19 value.fraction)
    rwa [length_padded] at bound
  unfold magnitudeKey scaled
  rw [cmp_toLex, cmp_toLex, ← Ordering.then_assoc, ← cmp_then_cmp (bounded first) (bounded second),
    ← compareMagnitude_eq_cmp first.wholeNormal second.wholeNormal,
    ← compareIn_eq_cmp (first.length_padded.trans second.length_padded.symm)]
  rfl

theorem number_neg_iff : value.number < 0 ↔ value.negative = true := by
  rw [number_eq_scaled]
  cases sign : value.negative with
  | false =>
    simp only [signed, Bool.false_eq_true, ↓reduceIte, iff_false, not_lt]
    positivity
  | true =>
    have positive : 0 < value.scaled := by
      by_contra zero
      unfold scaled at zero
      have wholeZero : digitsValue value.whole = 0 := by omega
      have fractionZero : digitsValue (padded 19 value.fraction) = 0 := by omega
      refine value.noNegativeZero ⟨sign, ?_, ?_⟩
      · rcases value.wholeNormal with whole | ⟨digit, rest, whole, nonzero⟩
        · exact whole
        · rw [whole, digitsValue_cons] at wholeZero
          have positive : 0 < (digit : Nat) * 10 ^ rest.length :=
            Nat.mul_pos (Nat.pos_of_ne_zero fun zero => nonzero (Fin.ext zero)) (by positivity)
          omega
      · rw [padded, digitsValue_append, digitsValue_replicate_zero, Nat.add_zero,
          Nat.mul_eq_zero, or_iff_left (by positivity)] at fractionZero
        exact (digitsValue_eq_zero_iff value.fractionNormal).mp fractionZero
    simp only [signed, ↓reduceIte, Left.neg_neg_iff, iff_true]
    positivity

theorem cmp_signed (negative : Bool) (first second : Nat) :
    cmp (signed negative (first / 10 ^ 19)) (signed negative (second / 10 ^ 19)) =
      if negative then (cmp first second).swap else cmp first second := by
  have monotone : StrictMono fun number : ℕ => (number : ℚ) / 10 ^ 19 := by
    intro low high less
    exact div_lt_div_of_pos_right (by exact_mod_cast less) (by positivity)
  have antitone : StrictAnti fun number : ℕ => -((number : ℚ) / 10 ^ 19) :=
    fun _ _ less => neg_lt_neg (monotone less)
  cases negative with
  | false => exact monotone.cmp_map_eq first second
  | true => exact (antitone.cmp_map_eq first second).trans (cmp_swap first second).symm

theorem compare_eq_cmp_number (first second : DecimalValue) :
    first.compare second = cmp first.number second.number := by
  have firstSign := number_neg_iff first
  have secondSign := number_neg_iff second
  by_cases signs : first.negative = second.negative
  · unfold DecimalValue.compare
    rw [if_neg (not_not.mpr signs)]
    simp only [← cmp_magnitudeKey]
    rw [cmp_magnitudeKey_eq, number_eq_scaled, number_eq_scaled, ← signs, cmp_signed]
  · unfold DecimalValue.compare
    rw [if_pos signs]
    cases sign : first.negative with
    | false =>
      have other : second.negative = true := by cases other : second.negative <;> simp_all
      rw [sign] at firstSign
      rw [other] at secondSign
      refine ((cmp_eq_gt_iff _ _).mpr ?_).symm
      exact (secondSign.mpr rfl).trans_le (not_lt.mp (by simpa using firstSign))
    | true =>
      have other : second.negative = false := by cases other : second.negative <;> simp_all
      rw [sign] at firstSign
      rw [other] at secondSign
      refine ((cmp_eq_lt_iff _ _).mpr ?_).symm
      exact (firstSign.mpr rfl).trans_le (not_lt.mp (by simpa using secondSign))

end DecimalValue

/-! ## Texts -/

namespace DecimalLiteral

open DecimalValue

def number (literal : DecimalLiteral) : ℚ :=
  decimalNumber (literal.sign = ['-']) literal.whole (literal.fraction.getD [])

/-- The fraction has at most 19 digits and the number is in the range. -/
def IsInRange (literal : DecimalLiteral) : Prop :=
  (literal.fraction.getD []).length ≤ 19 ∧ -2 ^ 63 ≤ literal.number ∧ literal.number < 2 ^ 63

theorem exists_spelling_eq {text : List Char} {decimal : DecimalValue}
    (reads : ofText text = some decimal) : ∃ literal, spelling literal = text := by
  unfold ofText at reads
  obtain ⟨negative, unsigned, signParts⟩ : ∃ negative unsigned,
      splitSign (stripDriverSuffix text) = (negative, unsigned) := ⟨_, _, rfl⟩
  obtain ⟨whole, fraction, parts⟩ : ∃ whole fraction, splitPoint unsigned = (whole, fraction) :=
    ⟨_, _, rfl⟩
  simp only [signParts, parts, Option.bind_eq_bind, Option.bind_eq_some_iff] at reads
  obtain ⟨wholeDigits, readsWhole, fractionDigits, readsFraction, -⟩ := reads
  obtain ⟨rfl, nonempty⟩ := map_symbol_of_readDigits readsWhole
  have written := eq_of_splitPoint parts
  -- The fraction, the sign and the suffix are read one after the other.
  obtain ⟨given, isGiven, givenNonempty⟩ : ∃ given : Option (List (Fin 10)),
      (fraction.elim [] fun digits => '.' :: digits) =
        (given.elim [] fun digits => '.' :: digits.map symbol) ∧ given ≠ some [] := by
    cases fraction with
    | none => exact ⟨none, rfl, by simp⟩
    | some digits =>
      obtain ⟨rfl, nonempty⟩ := map_symbol_of_readDigits readsFraction
      exact ⟨some fractionDigits, rfl, by simpa using nonempty⟩
  obtain ⟨sign, isSign, stripped⟩ : ∃ sign, (sign = [] ∨ sign = ['+'] ∨ sign = ['-']) ∧
      stripDriverSuffix text = sign ++ unsigned := by
    unfold splitSign at signParts
    split at signParts
    · rename_i stripped
      exact ⟨['-'], .inr (.inr rfl), (Prod.mk.inj signParts).2 ▸ stripped⟩
    · rename_i stripped
      exact ⟨['+'], .inr (.inl rfl), (Prod.mk.inj signParts).2 ▸ stripped⟩
    · exact ⟨[], .inl rfl, (Prod.mk.inj signParts).2⟩
  refine ⟨⟨sign, wholeDigits, given, decide (['d', 'e', 'c'] <:+ text), isSign, nonempty,
    givenNonempty⟩, ?_⟩
  unfold spelling body DecimalLiteral.unsigned
  simp only [← isGiven, ← written, ← stripped, decide_eq_true_eq]
  unfold stripDriverSuffix
  split_ifs with isSuffix
  · obtain ⟨before, rfl⟩ := isSuffix
    simp
  · exact List.append_nil _

end DecimalLiteral

def Denotes (text : List Char) (number : ℚ) : Prop :=
  ∃ literal : DecimalLiteral, literal.spelling = text ∧ literal.number = number

theorem denotes_iff {text : List Char} {decimal : DecimalValue} {number : ℚ}
    (reads : DecimalValue.ofText text = some decimal) :
    Denotes text number ↔ number = decimal.number := by
  have same : ∀ literal : DecimalLiteral, literal.spelling = text →
      decimal.number = literal.number := by
    rintro literal rfl
    rw [literal.ofText_spelling] at reads
    exact DecimalValue.number_of_ofDigits reads
  constructor
  · rintro ⟨literal, written, rfl⟩
    exact (same literal written).symm
  · rintro rfl
    obtain ⟨literal, written⟩ := DecimalLiteral.exists_spelling_eq reads
    exact ⟨literal, written, (same literal written).symm⟩

/--
Decimal arithmetic is exact: a text is accepted iff it is a decimal text in the range, accepted
texts compare as the numbers that they denote, the text of a decimal denotes the same number and
is read back as the same decimal, and equal numbers have equal texts.
-/
theorem decimal_arithmetic_exact : (∀ text, (∃ decimal, DecimalValue.ofText text = some decimal) ↔
      ∃ literal : DecimalLiteral, literal.spelling = text ∧ literal.IsInRange) ∧
    ∀ first decimal number, DecimalValue.ofText first = some decimal → Denotes first number →
      Denotes decimal.text number ∧ DecimalValue.ofText decimal.text = some decimal ∧
      ∀ second other otherNumber, DecimalValue.ofText second = some other →
        Denotes second otherNumber → decimal.compare other = cmp number otherNumber ∧
          (decimal.text = other.text ↔ number = otherNumber) := by
  constructor
  · intro text
    constructor
    · rintro ⟨decimal, reads⟩
      obtain ⟨literal, rfl⟩ := DecimalLiteral.exists_spelling_eq reads
      rw [literal.ofText_spelling] at reads
      exact ⟨literal, rfl, DecimalValue.exists_ofDigits_iff.mp ⟨decimal, reads⟩⟩
    · rintro ⟨literal, rfl, inRange⟩
      rw [literal.ofText_spelling]
      exact DecimalValue.exists_ofDigits_iff.mpr inRange
  · intro first decimal number reads denotes
    obtain rfl := (denotes_iff reads).mp denotes
    refine ⟨(denotes_iff decimal.ofText_text).mpr rfl, decimal.ofText_text, ?_⟩
    intro second other otherNumber otherReads otherDenotes
    obtain rfl := (denotes_iff otherReads).mp otherDenotes
    have compared := DecimalValue.compare_eq_cmp_number decimal other
    refine ⟨compared, ?_, ?_⟩
    · intro sameText
      have sameDecimal := decimal.ofText_text
      rw [sameText, other.ofText_text] at sameDecimal
      rw [Option.some.inj sameDecimal]
    · intro sameNumber
      rw [sameNumber, cmp_self_eq_eq] at compared
      rw [DecimalValue.eq_of_compare compared]

/-- Minus one half in two spellings. -/
theorem minus_half_texts_agree : ∃ decimal other : DecimalValue,
      DecimalValue.ofText ['-', '0', '0', '.', '5', '0', 'd', 'e', 'c'] = some decimal ∧
      DecimalValue.ofText ['-', '0', '.', '5'] = some other ∧ decimal.text = other.text := by
  have accepted : ∀ text, (DecimalValue.ofText text).isSome = true →
      ∃ decimal, DecimalValue.ofText text = some decimal := fun _ => Option.isSome_iff_exists.mp
  obtain ⟨decimal, reads⟩ := accepted ['-', '0', '0', '.', '5', '0', 'd', 'e', 'c'] (by decide)
  obtain ⟨other, otherReads⟩ := accepted ['-', '0', '.', '5'] (by decide)
  have denotes : Denotes ['-', '0', '0', '.', '5', '0', 'd', 'e', 'c'] (-1 / 2) :=
    ⟨⟨['-'], [0, 0], some [5, 0], true, by simp, by simp, by simp⟩, rfl, by
      norm_num [DecimalLiteral.number, decimalNumber, signed, digitsValue]⟩
  have otherDenotes : Denotes ['-', '0', '.', '5'] (-1 / 2) :=
    ⟨⟨['-'], [0], some [5], false, by simp, by simp, by simp⟩, rfl, by
      norm_num [DecimalLiteral.number, decimalNumber, signed, digitsValue]⟩
  exact ⟨decimal, other, reads, otherReads,
    ((decimal_arithmetic_exact.2 _ _ _ reads denotes).2.2 _ _ _ otherReads otherDenotes).2.mpr rfl⟩

end TypeBridge.Schema
