import TypeBridge.Library.DigitText
import TypeBridge.Schema.Scalar

namespace TypeBridge.Schema

open Library

/-!
# Texts of decimals

A decimal is read with or without the suffix of the driver, with any sign,
leading zeros of the whole part and trailing zeros of the fraction, and brought
into normal form. The range is checked on the digits of the whole part.
-/

/-! ## Magnitudes of digits -/

theorem digitsValue_cons (digit : Fin 10) (rest : List (Fin 10)) :
    digitsValue (digit :: rest) = digit * 10 ^ rest.length + digitsValue rest := by
  have shifted : ∀ (digits : List (Fin 10)) (start : Nat),
        digits.foldl (fun (value : Nat) (digit : Fin 10) => 10 * value + digit) start =
          start * 10 ^ digits.length + digitsValue digits := by
    intro digits
    unfold digitsValue
    induction digits with
    | nil => simp
    | cons head tail ih =>
      intro start
      rw [List.foldl_cons, List.foldl_cons, ih,
        ih (10 * 0 + (head : Nat)), List.length_cons, pow_succ]
      ring
  refine (shifted rest (10 * 0 + (digit : Nat))).trans ?_
  rw [Nat.mul_zero, Nat.zero_add]

theorem digitsValue_lt (digits : List (Fin 10)) : digitsValue digits < 10 ^ digits.length := by
  induction digits with
  | nil => decide
  | cons digit rest ih =>
    rw [digitsValue_cons, List.length_cons, pow_succ]
    calc (digit : Nat) * 10 ^ rest.length + digitsValue rest
        < (digit : Nat) * 10 ^ rest.length + 10 ^ rest.length := Nat.add_lt_add_left ih _
      _ = ((digit : Nat) + 1) * 10 ^ rest.length := by ring
      _ ≤ 10 * 10 ^ rest.length := Nat.mul_le_mul_right _ digit.isLt
      _ = 10 ^ rest.length * 10 := Nat.mul_comm _ _

/-- Digits without a leading zero, or zero itself. -/
def IsWhole (digits : List (Fin 10)) : Prop :=
  digits = [0] ∨ ∃ digit rest, digits = digit :: rest ∧ digit ≠ 0

/-- Compare digits without leading zeros by length, then digit by digit. -/
def compareMagnitude (first second : List (Fin 10)) : Ordering :=
  (cmp first.length second.length).then (compareIn first second)

variable {first second : List (Fin 10)}

theorem digitsValue_lt_of_lt (sameLength : first.length = second.length) (less : first < second) :
    digitsValue first < digitsValue second := by
  induction first generalizing second with
  | nil =>
    have empty : second = [] := List.length_eq_zero_iff.mp sameLength.symm
    subst empty
    exact absurd less (lt_irrefl _)
  | cons head rest ih =>
    obtain ⟨other, others, rfl⟩ := List.exists_cons_of_length_eq_add_one sameLength.symm
    have shorter : rest.length = others.length := by simpa using sameLength
    rw [digitsValue_cons, digitsValue_cons, shorter]
    rcases List.cons_lt_cons_iff.mp less with heads | ⟨same, tails⟩
    · have bound := digitsValue_lt rest
      rw [shorter] at bound
      have step : (head : Nat) + 1 ≤ (other : Nat) := heads
      calc (head : Nat) * 10 ^ others.length + digitsValue rest
          < (head : Nat) * 10 ^ others.length + 10 ^ others.length := Nat.add_lt_add_left bound _
        _ = ((head : Nat) + 1) * 10 ^ others.length := by ring
        _ ≤ (other : Nat) * 10 ^ others.length := Nat.mul_le_mul_right _ step
        _ ≤ (other : Nat) * 10 ^ others.length + digitsValue others := Nat.le_add_right _ _
    · rw [same]
      exact Nat.add_lt_add_left (ih shorter tails) _

theorem digitsValue_lt_of_length_lt (firstWhole : IsWhole first) (secondWhole : IsWhole second)
    (shorter : first.length < second.length) : digitsValue first < digitsValue second := by
  have nonempty : 0 < first.length := by rcases firstWhole with rfl | ⟨digit, rest, rfl, -⟩ <;> simp
  rcases secondWhole with rfl | ⟨digit, rest, rfl, nonzero⟩
  · simp only [List.length_singleton] at shorter
    omega
  · have positive : 1 ≤ (digit : Nat) :=
      Nat.one_le_iff_ne_zero.mpr fun zero => nonzero (Fin.ext zero)
    rw [digitsValue_cons]
    calc digitsValue first < 10 ^ first.length := digitsValue_lt first
      _ ≤ 10 ^ rest.length := Nat.pow_le_pow_right (by decide) (Nat.le_of_lt_succ shorter)
      _ ≤ (digit : Nat) * 10 ^ rest.length := Nat.le_mul_of_pos_left _ positive
      _ ≤ (digit : Nat) * 10 ^ rest.length + digitsValue rest := Nat.le_add_right _ _

theorem compareIn_eq_cmp (sameLength : first.length = second.length) :
    compareIn first second = cmp (digitsValue first) (digitsValue second) := by
  rcases lt_trichotomy first second with less | same | greater
  · have smaller := digitsValue_lt_of_lt sameLength less
    exact ((cmp_eq_lt_iff _ _).mpr less).trans ((cmp_eq_lt_iff _ _).mpr smaller).symm
  · subst same
    exact (cmp_self_eq_eq _).trans (cmp_self_eq_eq _).symm
  · have larger := digitsValue_lt_of_lt sameLength.symm greater
    exact ((cmp_eq_gt_iff _ _).mpr greater).trans ((cmp_eq_gt_iff _ _).mpr larger).symm

theorem compareMagnitude_eq_cmp (firstWhole : IsWhole first) (secondWhole : IsWhole second) :
    compareMagnitude first second = cmp (digitsValue first) (digitsValue second) := by
  unfold compareMagnitude
  rcases lt_trichotomy first.length second.length with shorter | sameLength | longer
  · have less := digitsValue_lt_of_length_lt firstWhole secondWhole shorter
    rw [(cmp_eq_lt_iff _ _).mpr shorter, (cmp_eq_lt_iff _ _).mpr less]
    rfl
  · rw [(cmp_eq_eq_iff _ _).mpr sameLength, Ordering.eq_then]
    exact compareIn_eq_cmp sameLength
  · have greater := digitsValue_lt_of_length_lt secondWhole firstWhole longer
    rw [(cmp_eq_gt_iff _ _).mpr longer, (cmp_eq_gt_iff _ _).mpr greater]
    rfl

namespace DecimalValue

/-! ## Reading and writing -/

def symbol (digit : Fin 10) : Char := digitChar digit

def digitOf (character : Char) : Option (Fin 10) :=
  if character.isDigit then some (Fin.ofNat 10 (character.toNat - 48))
  else none

def text (value : DecimalValue) : List Char :=
  (if value.negative then ['-'] else []) ++ value.whole.map symbol ++
    if value.fraction = [] then [] else '.' :: value.fraction.map symbol

def stripDriverSuffix (text : List Char) : List Char :=
  if ['d', 'e', 'c'] <:+ text then text.take (text.length - 3) else text

/-- The whole part and the fraction, if there is one. -/
def splitPoint (unsigned : List Char) : List Char × Option (List Char) :=
  match splitOnce '.' unsigned with
  | some (whole, fraction) => (whole, some fraction)
  | none => (unsigned, none)

def readDigits (text : List Char) : Option (List (Fin 10)) :=
  if text = [] then none else text.mapM digitOf

def readFractionDigits : Option (List Char) → Option (List (Fin 10))
  | none => some []
  | some fraction => readDigits fraction

/-- The whole part without leading zeros. -/
def trimWhole (digits : List (Fin 10)) : List (Fin 10) :=
  if digits.dropWhile (· = 0) = [] then [0] else digits.dropWhile (· = 0)

/-- The fraction without trailing zeros. -/
def trimFraction (digits : List (Fin 10)) : List (Fin 10) := digits.rdropWhile (· = 0)

/-- The largest whole part. -/
def wholeLimit (negative : Bool) : List (Fin 10) :=
  if negative then [9, 2, 2, 3, 3, 7, 2, 0, 3, 6, 8, 5, 4, 7, 7, 5, 8, 0, 8]
  else [9, 2, 2, 3, 3, 7, 2, 0, 3, 6, 8, 5, 4, 7, 7, 5, 8, 0, 7]

/-- Whether a decimal is within the range. -/
def isInRange (negative : Bool) (whole fraction : List (Fin 10)) : Bool :=
  match compareMagnitude whole (wholeLimit negative) with
  | .gt => false
  | .eq => !(negative && fraction ≠ [])
  | .lt => true

/-! ## Normal forms -/

theorem isWhole_trimWhole (digits : List (Fin 10)) : IsWhole (trimWhole digits) := by
  unfold trimWhole
  split_ifs with empty
  · exact .inl rfl
  · obtain ⟨digit, rest, trimmed⟩ := List.exists_cons_of_ne_nil empty
    refine .inr ⟨digit, rest, trimmed, ?_⟩
    have first := List.head_dropWhile_not (fun digit => decide (digit = 0))
      (show digits.dropWhile (fun digit => decide (digit = 0)) ≠ [] from empty)
    simpa [trimmed] using first

variable {digits : List (Fin 10)}

theorem trimWhole_eq_self (isWhole : IsWhole digits) : trimWhole digits = digits := by
  rcases isWhole with rfl | ⟨digit, rest, rfl, nonzero⟩
  · rfl
  · simp [trimWhole, nonzero]

theorem getLast?_trimFraction (digits : List (Fin 10)) :
    (trimFraction digits).getLast? ≠ some 0 := by
  intro endsInZero
  have nonempty : trimFraction digits ≠ [] := by
    intro empty
    rw [empty] at endsInZero
    simp at endsInZero
  rw [List.getLast?_eq_some_getLast nonempty] at endsInZero
  exact List.rdropWhile_last_not _ _ nonempty (decide_eq_true (Option.some.inj endsInZero))

theorem trimFraction_eq_self (normal : digits.getLast? ≠ some 0) :
    trimFraction digits = digits := by
  unfold trimFraction
  refine List.rdropWhile_eq_self_iff.mpr ?_
  intro nonempty isZero
  rw [List.getLast?_eq_some_getLast nonempty] at normal
  exact normal (congrArg some (of_decide_eq_true isZero))

variable {negative : Bool}

theorem isInRange_iff {whole fraction : List (Fin 10)} (isWhole : IsWhole whole) :
    isInRange negative whole fraction = true ↔ digitsValue whole < 2 ^ 63 ∨
        (negative = true ∧ digitsValue whole = 2 ^ 63 ∧ fraction = []) := by
  have limitWhole : IsWhole (wholeLimit negative) := by
    cases negative
    · exact .inr ⟨9, _, rfl, by decide⟩
    · exact .inr ⟨9, _, rfl, by decide⟩
  unfold isInRange
  rw [compareMagnitude_eq_cmp isWhole limitWhole]
  have limit : digitsValue (wholeLimit negative) = if negative then 2 ^ 63 else 2 ^ 63 - 1 := by
    cases negative <;> decide
  rw [limit]
  rcases lt_trichotomy (digitsValue whole)
    (if negative then 2 ^ 63 else 2 ^ 63 - 1) with less | equal | greater
  · rw [(cmp_eq_lt_iff _ _).mpr less]
    cases negative <;> simp at less ⊢ <;> omega
  · rw [(cmp_eq_eq_iff _ _).mpr equal]
    cases negative <;> simp [equal]
  · rw [(cmp_eq_gt_iff _ _).mpr greater]
    cases negative <;> simp at greater ⊢ <;> omega

/-- Bring digits into normal form and check the range. -/
def ofDigits (negative : Bool) (wholeDigits fractionDigits : List (Fin 10)) : Option DecimalValue :=
  let whole := trimWhole wholeDigits
  let fraction := trimFraction fractionDigits
  if valid : fractionDigits.length ≤ 19 ∧ isInRange negative whole fraction then
    some {
      negative := negative && !(whole = [0] && fraction = [])
      whole := whole
      fraction := fraction
      wholeNormal := isWhole_trimWhole wholeDigits
      fractionNormal := getLast?_trimFraction fractionDigits
      fractionFits := (List.rdropWhile_prefix _ _).length_le.trans valid.1
      inRange := by
        rcases (isInRange_iff (isWhole_trimWhole wholeDigits)).mp valid.2 with
          below | ⟨isNegative, atLimit, noFraction⟩
        · exact .inl below
        · refine .inr ⟨?_, atLimit, noFraction⟩
          have notZero : whole ≠ [0] := by
            intro zero
            rw [show trimWhole wholeDigits = [0] from zero] at atLimit
            exact absurd atLimit (by decide)
          simp [isNegative, notZero]
      noNegativeZero := by
        rintro ⟨isNegative, zeroWhole, zeroFraction⟩
        simp [zeroWhole, zeroFraction] at isNegative
    }
  else none

def ofText (value : List Char) : Option DecimalValue := do
  let (negative, unsigned) := splitSign (stripDriverSuffix value)
  let (whole, fraction) := splitPoint unsigned
  let wholeDigits ← readDigits whole
  let fractionDigits ← readFractionDigits fraction
  ofDigits negative wholeDigits fractionDigits

/-! ## Round trips -/

theorem digitOf_symbol (digit : Fin 10) : digitOf (symbol digit) = some digit := by
  revert digit
  decide

theorem symbol_of_digitOf {character : Char} {digit : Fin 10}
    (reads : digitOf character = some digit) : symbol digit = character := by
  unfold digitOf at reads
  split_ifs at reads with isDigit
  obtain rfl := Option.some.inj reads
  have natural : charDigit character = some (character.toNat - 48) := by
    unfold charDigit
    rw [if_pos isDigit]
  obtain ⟨bound, isWritten⟩ := digitChar_of_charDigit natural
  unfold symbol
  rwa [Fin.val_ofNat, Nat.mod_eq_of_lt bound]

theorem isDigitText_map_symbol (digits : List (Fin 10)) : IsDigitText (digits.map symbol) := by
  intro character isIn
  obtain ⟨digit, -, rfl⟩ := List.mem_map.mp isIn
  exact ⟨digit, digit.isLt, rfl⟩

theorem symbol_injective : Function.Injective symbol := by
  intro first second same
  have reads := digitOf_symbol first
  rw [same, digitOf_symbol second] at reads
  exact (Option.some.inj reads).symm

theorem readDigits_map_symbol (nonempty : digits ≠ []) :
    readDigits (digits.map symbol) = some digits := by
  unfold readDigits
  rw [if_neg (by simpa using nonempty)]
  have always : ∀ digit ∈ digits, True := fun _ _ => trivial
  exact mapM_map_symbol (fun digit _ => digitOf_symbol digit) always

theorem map_symbol_of_readDigits {text : List Char} (reads : readDigits text = some digits) :
    digits.map symbol = text ∧ digits ≠ [] := by
  unfold readDigits at reads
  split_ifs at reads with empty
  have writes : ∀ character digit, digitOf character = some digit →
        True ∧ symbol digit = character := fun _ _ reads => ⟨trivial, symbol_of_digitOf reads⟩
  obtain ⟨written, -⟩ := map_symbol_of_mapM writes reads
  refine ⟨written, ?_⟩
  rintro rfl
  exact empty written.symm

end DecimalValue

/-! ## Literals -/

/-- What is written in a decimal text. -/
structure DecimalLiteral where
  sign : List Char
  whole : List (Fin 10)
  fraction : Option (List (Fin 10))
  suffix : Bool
  isSign : sign = [] ∨ sign = ['+'] ∨ sign = ['-']
  wholeNonempty : whole ≠ []
  fractionNonempty : fraction ≠ some []

namespace DecimalLiteral

open DecimalValue

/-- The text after the sign and before the suffix. -/
def unsigned (literal : DecimalLiteral) : List Char :=
  literal.whole.map symbol ++ literal.fraction.elim [] fun digits => '.' :: digits.map symbol

/-- The text before the suffix. -/
def body (literal : DecimalLiteral) : List Char := literal.sign ++ literal.unsigned

def spelling (literal : DecimalLiteral) : List Char :=
  literal.body ++ if literal.suffix then ['d', 'e', 'c'] else []

variable (literal : DecimalLiteral)

theorem not_suffix_body : ¬ ['d', 'e', 'c'] <:+ literal.body := by
  intro isSuffix
  have isIn : 'c' ∈ literal.body := isSuffix.subset (by simp)
  have absent : ∀ digits : List (Fin 10), 'c' ∉ digits.map symbol :=
    fun digits => (isDigitText_map_symbol digits).not_mem (by decide)
  rcases List.mem_append.mp isIn with inSign | isIn
  · rcases literal.isSign with sign | sign | sign <;> simp [sign] at inSign
  · rcases List.mem_append.mp isIn with inWhole | inFraction
    · exact absent _ inWhole
    · cases fraction : literal.fraction with
      | none => simp [fraction] at inFraction
      | some digits =>
        rw [fraction, Option.elim_some, List.mem_cons] at inFraction
        exact inFraction.elim (by decide) (absent digits)

theorem stripDriverSuffix_spelling : stripDriverSuffix literal.spelling = literal.body := by
  unfold spelling stripDriverSuffix
  cases literal.suffix with
  | false => rw [if_neg Bool.false_ne_true, List.append_nil, if_neg literal.not_suffix_body]
  | true =>
    rw [if_pos rfl, if_pos (List.suffix_append _ _)]
    simp

theorem splitSign_body :
    splitSign literal.body = (decide (literal.sign = ['-']), literal.unsigned) := by
  unfold body
  rcases literal.isSign with sign | sign | sign
  · obtain ⟨digit, rest, whole⟩ := List.exists_cons_of_ne_nil literal.wholeNonempty
    have absent : ∀ character : Char, character.isDigit = false → symbol digit ≠ character := by
      rintro character notDigit rfl
      exact (isDigitText_map_symbol [digit]).not_mem notDigit (by simp)
    rw [sign, unsigned, whole, List.nil_append, List.map_cons, List.cons_append]
    unfold splitSign
    split
    · rename_i same
      exact absurd (List.cons.inj same).1 (absent _ (by decide))
    · rename_i same
      exact absurd (List.cons.inj same).1 (absent _ (by decide))
    · simp
  · rw [sign]
    rfl
  · rw [sign]
    rfl

theorem splitPoint_unsigned : splitPoint literal.unsigned =
      (literal.whole.map symbol, literal.fraction.map (·.map symbol)) := by
  have noPoint : '.' ∉ literal.whole.map symbol :=
    (isDigitText_map_symbol literal.whole).not_mem (by decide)
  unfold splitPoint unsigned
  cases literal.fraction with
  | none => rw [Option.elim_none, List.append_nil, splitOnce_eq_none noPoint, Option.map_none]
  | some digits => rw [Option.elim_some, splitOnce_append noPoint, Option.map_some]

theorem ofText_spelling : ofText literal.spelling =
      ofDigits (literal.sign = ['-']) literal.whole (literal.fraction.getD []) := by
  have fraction : readFractionDigits (literal.fraction.map (·.map symbol)) =
      some (literal.fraction.getD []) := by
    have nonempty := literal.fractionNonempty
    cases given : literal.fraction with
    | none => rfl
    | some digits =>
      refine readDigits_map_symbol ?_
      rintro rfl
      exact nonempty given
  unfold ofText
  simp only [stripDriverSuffix_spelling, splitSign_body, splitPoint_unsigned,
    readDigits_map_symbol literal.wholeNonempty, fraction, Option.bind_eq_bind, Option.bind_some]

end DecimalLiteral

namespace DecimalValue

variable {digits : List (Fin 10)} {negative : Bool} (value : DecimalValue)

theorem whole_ne_nil : value.whole ≠ [] := by
  rcases value.wholeNormal with whole | ⟨digit, rest, whole, -⟩ <;> simp [whole]

def unsignedText (value : DecimalValue) : List Char :=
  value.whole.map symbol ++ if value.fraction = [] then [] else '.' :: value.fraction.map symbol

def literal (value : DecimalValue) : DecimalLiteral where
  sign := if value.negative then ['-'] else []
  whole := value.whole
  fraction := if value.fraction = [] then none else some value.fraction
  suffix := false
  isSign := by cases value.negative <;> simp
  wholeNonempty := value.whole_ne_nil
  fractionNonempty := by split_ifs with empty <;> simp [empty]

theorem unsigned_literal : value.literal.unsigned = value.unsignedText := by
  unfold DecimalLiteral.unsigned unsignedText literal
  split_ifs <;> rfl

theorem body_literal : value.literal.body = value.text := by
  unfold DecimalLiteral.body text
  rw [unsigned_literal, List.append_assoc]
  rfl

theorem sign_literal : decide (value.literal.sign = ['-']) = value.negative := by
  change decide ((if value.negative then ['-'] else []) = ['-']) = value.negative
  cases value.negative <;> simp

theorem splitSign_text : splitSign value.text = (value.negative, value.unsignedText) := by
  rw [← body_literal, DecimalLiteral.splitSign_body, unsigned_literal, sign_literal]

theorem splitPoint_unsignedText : splitPoint value.unsignedText = (value.whole.map symbol,
      if value.fraction = [] then none else some (value.fraction.map symbol)) := by
  rw [← unsigned_literal, DecimalLiteral.splitPoint_unsigned]
  unfold literal
  split_ifs <;> rfl

theorem not_suffix_text : ¬ ['d', 'e', 'c'] <:+ value.text :=
  value.body_literal ▸ value.literal.not_suffix_body

theorem ofDigits_components : ofDigits value.negative value.whole value.fraction = some value := by
  have whole := trimWhole_eq_self value.wholeNormal
  have fraction := trimFraction_eq_self value.fractionNormal
  have inRange : isInRange value.negative (trimWhole value.whole)
        (trimFraction value.fraction) = true := by
    rw [whole, fraction]
    exact (isInRange_iff value.wholeNormal).mpr value.inRange
  unfold ofDigits
  simp only
  rw [dif_pos ⟨value.fractionFits, inRange⟩]
  congr 1
  refine DecimalValue.ext ?_ whole fraction
  have nonzero := value.noNegativeZero
  simp only [whole, fraction]
  cases negative : value.negative with
  | false => rfl
  | true =>
    simp only [negative, true_and, not_and_or] at nonzero
    simpa using nonzero

theorem ofText_text : ofText value.text = some value := by
  have written : value.literal.spelling = value.text := by
    rw [← body_literal]
    exact List.append_nil _
  have fraction : value.literal.fraction.getD [] = value.fraction := by
    change (if value.fraction = [] then none else some value.fraction).getD [] = value.fraction
    by_cases empty : value.fraction = [] <;> simp [empty]
  rw [← written, DecimalLiteral.ofText_spelling, sign_literal, fraction]
  exact ofDigits_components value

structure IsNormalText (value : List Char) : Prop where
  noSuffix : ¬ ['d', 'e', 'c'] <:+ value
  noPlus : value.head? ≠ some '+'
  noLeadingZero : (splitPoint (splitSign value).2).1 = ['0'] ∨
      (splitPoint (splitSign value).2).1.head? ≠ some '0'
  noTrailingZero : ∀ fraction, (splitPoint (splitSign value).2).2 = some fraction →
      fraction.getLast? ≠ some '0'
  noNegativeZero : value ≠ ['-', '0']

theorem isNormalText_text : IsNormalText value.text where
  noSuffix := value.not_suffix_text
  noPlus := by
    obtain ⟨digit, rest, whole⟩ := List.exists_cons_of_ne_nil value.whole_ne_nil
    have notPlus : '+' ∉ [digit].map symbol := (isDigitText_map_symbol [digit]).not_mem (by decide)
    unfold text
    rw [whole]
    cases value.negative with
    | true => simp
    | false =>
      simp only [Bool.false_eq_true, ↓reduceIte, List.nil_append,
        List.map_cons, List.cons_append, List.head?_cons, ne_eq, Option.some.injEq]
      intro same
      exact notPlus (by simp [same])
  noLeadingZero := by
    rw [splitSign_text, splitPoint_unsignedText]
    rcases value.wholeNormal with whole | ⟨digit, rest, whole, nonzero⟩
    · refine .inl ?_
      rw [whole]
      rfl
    · refine .inr ?_
      rw [whole]
      intro leading
      exact nonzero (symbol_injective (Option.some.inj leading))
  noTrailingZero := by
    intro fraction isFraction
    rw [splitSign_text, splitPoint_unsignedText] at isFraction
    simp only at isFraction
    split_ifs at isFraction
    obtain rfl := Option.some.inj isFraction
    intro trailing
    rw [List.getLast?_map, Option.map_eq_some_iff] at trailing
    obtain ⟨digit, last, isZero⟩ := trailing
    obtain rfl : digit = 0 := symbol_injective isZero
    exact value.fractionNormal last
  noNegativeZero := by
    intro same
    have sign := value.splitSign_text
    have parts := value.splitPoint_unsignedText
    rw [same, splitSign_minus] at sign
    obtain ⟨negative, unsigned⟩ := Prod.mk.inj sign
    rw [← unsigned] at parts
    obtain ⟨whole, fraction⟩ := Prod.mk.inj
      ((show splitPoint ['0'] = (['0'], none) from rfl).symm.trans parts)
    refine value.noNegativeZero ⟨negative.symm, ?_, ?_⟩
    · have isZero : [0].map symbol = value.whole.map symbol := whole
      exact (List.map_injective_iff.mpr symbol_injective isZero).symm
    · by_contra nonempty
      rw [if_neg nonempty] at fraction
      exact absurd fraction (by simp)

variable {unsigned : List Char} {fraction : Option (List Char)}

theorem eq_of_splitPoint {whole : List Char} (parts : splitPoint unsigned = (whole, fraction)) :
    unsigned = whole ++ (fraction.elim [] fun digits => '.' :: digits) := by
  unfold splitPoint at parts
  cases cut : splitOnce '.' unsigned with
  | none =>
    rw [cut] at parts
    obtain ⟨rfl, rfl⟩ := Prod.mk.inj parts
    simp
  | some both =>
    rw [cut] at parts
    obtain ⟨rfl, rfl⟩ := Prod.mk.inj parts
    exact (eq_of_splitOnce cut).1

variable {value : List Char}

theorem eq_of_splitSign (noPlus : value.head? ≠ some '+')
    (parts : splitSign value = (negative, unsigned)) :
    value = (if negative then ['-'] else []) ++ unsigned := by
  unfold splitSign at parts
  split at parts
  · obtain ⟨rfl, rfl⟩ := Prod.mk.inj parts
    rfl
  · exact absurd rfl noPlus
  · obtain ⟨rfl, rfl⟩ := Prod.mk.inj parts
    rfl

theorem trimWhole_of_noLeadingZero (nonempty : digits ≠ [])
    (noLeadingZero : digits.map symbol = ['0'] ∨ (digits.map symbol).head? ≠ some '0') :
    trimWhole digits = digits := by
  refine trimWhole_eq_self ?_
  rcases noLeadingZero with isZero | noLeadingZero
  · refine .inl (List.map_injective_iff.mpr symbol_injective ?_)
    exact isZero
  · obtain ⟨digit, rest, rfl⟩ := List.exists_cons_of_ne_nil nonempty
    refine .inr ⟨digit, rest, rfl, ?_⟩
    rintro rfl
    exact noLeadingZero rfl

theorem trimFraction_of_noTrailingZero
    (noTrailingZero : ∀ text, fraction = some text → text.getLast? ≠ some '0')
    (reads : readFractionDigits fraction = some digits) : trimFraction digits = digits ∧
      (fraction.elim [] fun text => '.' :: text) =
        if digits = [] then [] else '.' :: digits.map symbol := by
  cases fraction with
  | none =>
    obtain rfl := Option.some.inj reads
    exact ⟨rfl, rfl⟩
  | some text =>
    obtain ⟨rfl, nonempty⟩ := map_symbol_of_readDigits reads
    rw [if_neg nonempty]
    refine ⟨trimFraction_eq_self ?_, rfl⟩
    intro trailing
    refine noTrailingZero _ rfl ?_
    rw [List.getLast?_map, trailing]
    rfl

variable {decimal : DecimalValue}

theorem eq_of_ofDigits {wholeDigits fractionDigits : List (Fin 10)}
    (trimmedWhole : trimWhole wholeDigits = wholeDigits)
    (trimmedFraction : trimFraction fractionDigits = fractionDigits)
    (isDecimal : ofDigits negative wholeDigits fractionDigits = some decimal)
    (nonzero : ¬ (negative = true ∧ wholeDigits = [0] ∧ fractionDigits = [])) :
    decimal.negative = negative ∧ decimal.whole = wholeDigits ∧
      decimal.fraction = fractionDigits := by
  unfold ofDigits at isDecimal
  simp only at isDecimal
  split at isDecimal
  · obtain rfl := Option.some.inj isDecimal
    refine ⟨?_, trimmedWhole, trimmedFraction⟩
    simp only [trimmedWhole, trimmedFraction]
    cases negative with
    | false => rfl
    | true =>
      simp only [true_and, not_and_or] at nonzero
      simpa using nonzero
  · exact absurd isDecimal (by simp)

theorem text_eq_iff_isNormalText (reads : ofText value = some decimal) :
    decimal.text = value ↔ IsNormalText value := by
  constructor
  · rintro rfl
    exact decimal.isNormalText_text
  · intro normal
    have unstripped : stripDriverSuffix value = value := if_neg normal.noSuffix
    unfold ofText at reads
    rw [unstripped] at reads
    obtain ⟨negative, unsigned, sign⟩ :
        ∃ negative unsigned, splitSign value = (negative, unsigned) := ⟨_, _, rfl⟩
    obtain ⟨whole, fraction, parts⟩ : ∃ whole fraction, splitPoint unsigned = (whole, fraction) :=
      ⟨_, _, rfl⟩
    have noLeadingZero := normal.noLeadingZero
    have noTrailingZero := normal.noTrailingZero
    rw [sign, parts] at noLeadingZero noTrailingZero
    simp only [sign, parts, Option.bind_eq_bind, Option.bind_eq_some_iff] at reads
    obtain ⟨wholeDigits, readsWhole, fractionDigits, readsFraction, isDecimal⟩ := reads
    obtain ⟨rfl, nonempty⟩ := map_symbol_of_readDigits readsWhole
    have trimmedWhole := trimWhole_of_noLeadingZero nonempty noLeadingZero
    obtain ⟨trimmedFraction, fractionWritten⟩ :=
      trimFraction_of_noTrailingZero noTrailingZero readsFraction
    have written := eq_of_splitSign normal.noPlus sign
    rw [eq_of_splitPoint parts, fractionWritten] at written
    have nonzero : ¬ (negative = true ∧ wholeDigits = [0] ∧ fractionDigits = []) := by
      rintro ⟨rfl, rfl, rfl⟩
      exact normal.noNegativeZero written
    obtain ⟨sameSign, sameWhole, sameFraction⟩ :=
      eq_of_ofDigits trimmedWhole trimmedFraction isDecimal nonzero
    unfold text
    rw [sameSign, sameWhole, sameFraction, List.append_assoc]
    exact written.symm

theorem length_text_le (value : DecimalValue) : value.text.length ≤ 40 := by
  have whole : value.whole.length ≤ 19 := by
    by_contra longer
    have limit : IsWhole (wholeLimit true) := .inr ⟨9, _, rfl, by decide⟩
    have greater := digitsValue_lt_of_length_lt limit value.wholeNormal
      (by simpa [wholeLimit] using longer)
    have limitValue : digitsValue (wholeLimit true) = 2 ^ 63 := by decide
    have inRange := value.inRange
    omega
  have fraction := value.fractionFits
  unfold text
  split_ifs <;> simp only [List.length_append, List.length_map, List.length_cons,
      List.length_nil] <;> omega

end DecimalValue

end TypeBridge.Schema
