import Mathlib

namespace TypeBridge.Library

/-!
# Numbers as texts of digits

Digits stand most significant first. A number is written with its own digits
or with a fixed number of them, and read back from any nonempty list of digits.
Texts are lists of characters; a text is cut at the first or at the last
occurrence of a separator.
-/

/-! ## Digits -/

def digitsNumber (base : Nat) (digits : List Nat) : Nat :=
  digits.foldl (fun number digit => base * number + digit) 0

def fixedDigits (base : Nat) : Nat → Nat → List Nat
  | 0, _ => []
  | width + 1, number => fixedDigits base width (number / base) ++ [number % base]

/-- The digits of a number, without leading zeros. -/
def naturalDigits (number : Nat) : List Nat :=
  if number = 0 then [0] else (Nat.digits 10 number).reverse

theorem digitsNumber_append_singleton (base digit : Nat) (digits : List Nat) :
    digitsNumber base (digits ++ [digit]) = base * digitsNumber base digits + digit := by
  simp [digitsNumber, List.foldl_append]

theorem length_fixedDigits (base width number : Nat) :
    (fixedDigits base width number).length = width := by
  induction width generalizing number with
  | zero => rfl
  | succ width ih => simp [fixedDigits, ih]

variable {base width number digit : Nat}

theorem lt_of_mem_fixedDigits (positive : 0 < base) (isIn : digit ∈ fixedDigits base width number) :
    digit < base := by
  induction width generalizing number with
  | zero => simp [fixedDigits] at isIn
  | succ width ih =>
    rcases List.mem_append.mp isIn with isIn | isIn
    · exact ih isIn
    · rw [List.mem_singleton.mp isIn]
      exact Nat.mod_lt number positive

theorem digitsNumber_fixedDigits (fits : number < base ^ width) :
    digitsNumber base (fixedDigits base width number) = number := by
  induction width generalizing number with
  | zero =>
    have zero : number = 0 := by simpa using fits
    rw [zero]
    rfl
  | succ width ih =>
    have shorter : number / base < base ^ width := by
      refine Nat.div_lt_of_lt_mul ?_
      rwa [← pow_succ']
    rw [fixedDigits, digitsNumber_append_singleton, ih shorter, Nat.div_add_mod]

variable {digits : List Nat}

theorem fixedDigits_digitsNumber (areDigits : ∀ digit ∈ digits, digit < base) :
    fixedDigits base digits.length (digitsNumber base digits) = digits := by
  induction digits using List.reverseRecOn with
  | nil => rfl
  | append_singleton digits digit ih =>
    have isDigit : digit < base := areDigits digit (by simp)
    have positive : 0 < base := Nat.zero_lt_of_lt isDigit
    have quotient : (base * digitsNumber base digits + digit) / base =
          digitsNumber base digits := by
      rw [Nat.mul_add_div positive, Nat.div_eq_of_lt isDigit, Nat.add_zero]
    have remainder : (base * digitsNumber base digits + digit) % base = digit := by
      rw [Nat.mul_add_mod, Nat.mod_eq_of_lt isDigit]
    have others : ∀ other ∈ digits, other < base := fun other isIn =>
      areDigits other (List.mem_append_left _ isIn)
    rw [List.length_append, List.length_singleton, fixedDigits,
      digitsNumber_append_singleton, quotient, remainder, ih others]

theorem digitsNumber_naturalDigits (number : Nat) :
    digitsNumber 10 (naturalDigits number) = number := by
  unfold naturalDigits
  split
  · rename_i zero
    rw [zero]
    rfl
  · unfold digitsNumber
    rw [List.foldl_reverse]
    have written := Nat.ofDigits_digits 10 number
    rw [Nat.ofDigits_eq_foldr] at written
    refine Eq.trans ?_ written
    congr 1
    funext digit rest
    simp [Nat.add_comm]

theorem naturalDigits_ne_nil (number : Nat) : naturalDigits number ≠ [] := by
  unfold naturalDigits
  split
  · simp
  · rename_i positive
    rw [Ne, List.reverse_eq_nil_iff]
    exact Nat.digits_ne_nil_iff_ne_zero.mpr positive

theorem lt_of_mem_naturalDigits (isIn : digit ∈ naturalDigits number) : digit < 10 := by
  unfold naturalDigits at isIn
  split at isIn
  · rw [List.mem_singleton.mp isIn]
    decide
  · exact Nat.digits_lt_base (by decide) (List.mem_reverse.mp isIn)

/-! ## Characters -/

def digitChar (digit : Nat) : Char := Char.ofNat (48 + digit)

def charDigit (character : Char) : Option Nat :=
  if character.isDigit then some (character.toNat - 48) else none

theorem charDigit_digitChar (isDigit : digit < 10) : charDigit (digitChar digit) = some digit := by
  have all : ∀ digit < 10, charDigit (digitChar digit) = some digit := by decide
  exact all digit isDigit

variable {character : Char}

theorem digitChar_of_charDigit (reads : charDigit character = some digit) :
    digit < 10 ∧ digitChar digit = character := by
  unfold charDigit at reads
  split at reads
  · rename_i isDigit
    obtain rfl := Option.some.inj reads
    have bounds : 48 ≤ character.toNat ∧ character.toNat ≤ 57 := by
      simpa [Char.isDigit, UInt32.le_iff_toNat_le] using isDigit
    refine ⟨by omega, ?_⟩
    unfold digitChar
    rw [Nat.add_sub_cancel' bounds.1, Char.ofNat_toNat]
  · simp at reads

/-- The number that a nonempty text of digits writes. -/
def readNatural (text : List Char) : Option Nat :=
  if text = [] then none
  else (text.mapM charDigit).map (digitsNumber 10)

def digitsText (digits : List Nat) : List Char := digits.map digitChar

/-- A number as a text, without leading zeros. -/
def naturalText (number : Nat) : List Char := digitsText (naturalDigits number)

def fixedText (width number : Nat) : List Char := digitsText (fixedDigits 10 width number)

def IsDigitText (text : List Char) : Prop :=
  ∀ character ∈ text, ∃ digit < 10, digitChar digit = character

section Symbols

variable {Digit : Type} {symbol : Digit → Char} {digitOf : Char → Option Digit}
  {valid : Digit → Prop} {digits : List Digit}

theorem mapM_map_symbol (reads : ∀ digit, valid digit → digitOf (symbol digit) = some digit)
    (areDigits : ∀ digit ∈ digits, valid digit) :
    (digits.map symbol).mapM digitOf = some digits := by
  induction digits with
  | nil => rfl
  | cons digit rest ih =>
    rw [List.forall_mem_cons] at areDigits
    rw [List.map_cons, List.mapM_cons, ih areDigits.2, reads digit areDigits.1]
    rfl

theorem map_symbol_of_mapM (writes : ∀ character digit, digitOf character = some digit →
      valid digit ∧ symbol digit = character)
    {text : List Char} (reads : text.mapM digitOf = some digits) :
    digits.map symbol = text ∧ ∀ digit ∈ digits, valid digit := by
  induction text generalizing digits with
  | nil =>
    obtain rfl := Option.some.inj reads
    simp
  | cons character rest ih =>
    simp only [List.mapM_cons, Option.bind_eq_bind, Option.bind_eq_some_iff,
      Option.pure_def, Option.some.injEq] at reads
    obtain ⟨digit, readsDigit, others, readsOthers, rfl⟩ := reads
    obtain ⟨isDigit, isWritten⟩ := writes character digit readsDigit
    obtain ⟨othersWritten, areDigits⟩ := ih readsOthers
    rw [List.map_cons, isWritten, othersWritten, List.forall_mem_cons]
    exact ⟨rfl, isDigit, areDigits⟩

end Symbols

theorem mapM_charDigit_digitsText (areDigits : ∀ digit ∈ digits, digit < 10) :
    (digitsText digits).mapM charDigit = some digits :=
  mapM_map_symbol (fun _ isDigit => charDigit_digitChar isDigit) areDigits

theorem readNatural_digitsText (nonempty : digits ≠ []) (areDigits : ∀ digit ∈ digits, digit < 10) :
    readNatural (digitsText digits) = some (digitsNumber 10 digits) := by
  have isText : digitsText digits ≠ [] := by simpa [digitsText] using nonempty
  unfold readNatural
  rw [if_neg isText, mapM_charDigit_digitsText areDigits]
  rfl

theorem readNatural_naturalText (number : Nat) :
    readNatural (naturalText number) = some number := by
  unfold naturalText
  rw [readNatural_digitsText (naturalDigits_ne_nil number)
    fun _ => lt_of_mem_naturalDigits, digitsNumber_naturalDigits]

theorem readNatural_fixedText (positive : 0 < width) (fits : number < 10 ^ width) :
    readNatural (fixedText width number) = some number := by
  have nonempty : fixedDigits 10 width number ≠ [] := by
    intro empty
    have isLength := length_fixedDigits 10 width number
    rw [empty] at isLength
    exact positive.ne isLength
  unfold fixedText
  rw [readNatural_digitsText nonempty
    fun _ => lt_of_mem_fixedDigits (by decide), digitsNumber_fixedDigits fits]

theorem length_fixedText (width number : Nat) : (fixedText width number).length = width := by
  unfold fixedText digitsText
  rw [List.length_map, length_fixedDigits]

theorem isDigitText_fixedText (width number : Nat) : IsDigitText (fixedText width number) := by
  intro character isIn
  obtain ⟨digit, isDigit, rfl⟩ := List.mem_map.mp isIn
  exact ⟨digit, lt_of_mem_fixedDigits (by decide) isDigit, rfl⟩

theorem isDigitText_naturalText (number : Nat) : IsDigitText (naturalText number) := by
  intro character isIn
  obtain ⟨digit, isDigit, rfl⟩ := List.mem_map.mp isIn
  exact ⟨digit, lt_of_mem_naturalDigits isDigit, rfl⟩

theorem length_naturalText_le (hasWidth : 0 < width) (fits : number < 10 ^ width) :
    (naturalText number).length ≤ width := by
  unfold naturalText digitsText naturalDigits
  rw [List.length_map]
  split_ifs
  · exact hasWidth
  · rw [List.length_reverse]
    exact (Nat.digits_length_le_iff (by decide) number).mpr fits

variable {text : List Char}

theorem IsDigitText.not_mem (areDigits : IsDigitText text) (notDigit : character.isDigit = false) :
    character ∉ text := by
  intro isIn
  obtain ⟨digit, isDigit, rfl⟩ := areDigits character isIn
  have reads := charDigit_digitChar isDigit
  unfold charDigit at reads
  rw [notDigit] at reads
  simp at reads

def splitSign : List Char → Bool × List Char
  | '-' :: rest => (true, rest)
  | '+' :: rest => (false, rest)
  | text => (false, text)

theorem splitSign_minus (rest : List Char) : splitSign ('-' :: rest) = (true, rest) := rfl

theorem splitSign_plus (rest : List Char) : splitSign ('+' :: rest) = (false, rest) := rfl

def signedValue (negative : Bool) (number : Nat) : Int := if negative then -number else number

/-- The integer that a text with an optional sign writes, within bounds. -/
def readInteger (least greatest : Int) (text : List Char) : Option Int :=
  ((readNatural (splitSign text).2).map (signedValue (splitSign text).1)).filter
    fun value => least ≤ value ∧ value ≤ greatest

theorem splitSign_of_isDigitText (areDigits : IsDigitText text) :
    splitSign text = (false, text) := by
  have noMinus : '-' ∉ text := areDigits.not_mem (by decide)
  have noPlus : '+' ∉ text := areDigits.not_mem (by decide)
  unfold splitSign
  split
  · simp at noMinus
  · simp at noPlus
  · rfl

variable {least greatest : Int}

theorem readInteger_eq_some {digits : List Char} {negative : Bool}
    (cut : splitSign text = (negative, digits)) (reads : readNatural digits = some number)
    (above : least ≤ signedValue negative number) (below : signedValue negative number ≤ greatest) :
    readInteger least greatest text = some (signedValue negative number) := by
  unfold readInteger
  rw [cut, reads]
  simp only [Option.map_some, Option.filter_some]
  rw [if_pos (by simpa using ⟨above, below⟩)]

/-- An integer as a text, with a sign below zero. -/
def integerText (value : Int) : List Char :=
  if value < 0 then '-' :: naturalText value.natAbs
  else naturalText value.natAbs

theorem readInteger_integerText {value : Int} (above : least ≤ value) (below : value ≤ greatest) :
    readInteger least greatest (integerText value) = some value := by
  unfold integerText
  split_ifs with isNegative
  · have same : signedValue true value.natAbs = value := by
      simp only [signedValue, ↓reduceIte]
      omega
    rw [readInteger_eq_some (splitSign_minus _) (readNatural_naturalText _)
      (by omega) (by omega), same]
  · have same : signedValue false value.natAbs = value := by
      simp only [signedValue, Bool.false_eq_true, ↓reduceIte]
      omega
    rw [readInteger_eq_some (splitSign_of_isDigitText (isDigitText_naturalText _))
      (readNatural_naturalText _) (by omega) (by omega), same]

/-! ## Hexadecimal digits -/

def hexChar (digit : Nat) : Char :=
  if digit < 10 then Char.ofNat (48 + digit) else Char.ofNat (87 + digit)

/-- The digit of a decimal or lowercase hexadecimal character. -/
def charHex (character : Char) : Option Nat :=
  if character.isDigit then some (character.toNat - 48)
  else if 'a' ≤ character ∧ character ≤ 'f' then some (character.toNat - 87)
  else none

theorem charHex_hexChar (isDigit : digit < 16) : charHex (hexChar digit) = some digit := by
  have all : ∀ digit < 16, charHex (hexChar digit) = some digit := by decide
  exact all digit isDigit

theorem hexChar_of_charHex (reads : charHex character = some digit) :
    digit < 16 ∧ hexChar digit = character := by
  unfold charHex at reads
  split_ifs at reads with isDecimal isLetter
  · have bounds : 48 ≤ character.toNat ∧ character.toNat ≤ 57 := by
      simpa [Char.isDigit, UInt32.le_iff_toNat_le] using isDecimal
    obtain rfl := Option.some.inj reads
    unfold hexChar
    rw [if_pos (by omega), Nat.add_sub_cancel' bounds.1, Char.ofNat_toNat]
    exact ⟨by omega, rfl⟩
  · have bounds : 97 ≤ character.toNat ∧ character.toNat ≤ 102 := isLetter
    obtain rfl := Option.some.inj reads
    unfold hexChar
    rw [if_neg (by omega), Nat.add_sub_cancel' (by omega), Char.ofNat_toNat]
    exact ⟨by omega, rfl⟩

/-! ## Fractions -/

/-- A fraction of fixed width, without its trailing zeros. -/
def fractionText (width number : Nat) : List Char := (fixedText width number).rdropWhile (· = '0')

/-- The number that a fraction of at most some digits writes, once padded. -/
def readFraction (width : Nat) (text : List Char) : Option Nat :=
  if text ≠ [] ∧ text.length ≤ width ∧ text.all Char.isDigit then
    readNatural (text ++ List.replicate (width - text.length) '0')
  else none

theorem rdropWhile_append_replicate {α : Type} [DecidableEq α] (character : α) (text : List α) :
    text.rdropWhile (· = character) ++ List.replicate
          (text.length - (text.rdropWhile (· = character)).length) character = text := by
  induction text using List.reverseRecOn with
  | nil => rfl
  | append_singleton rest last ih =>
    by_cases same : last = character
    · rw [List.rdropWhile_concat_pos _ _ _ (by simpa using same),
        List.length_append, List.length_singleton]
      have shorter : (rest.rdropWhile (· = character)).length ≤ rest.length :=
        (List.rdropWhile_prefix _ _).length_le
      rw [Nat.sub_add_comm shorter, List.replicate_succ', ← List.append_assoc, ih, same]
    · rw [List.rdropWhile_concat_neg _ _ _ (by simpa using same)]
      simp

theorem length_fractionText_le (width number : Nat) :
    (fractionText width number).length ≤ width := by
  have shorter := (List.rdropWhile_prefix (· = '0') (fixedText width number)).length_le
  rwa [length_fixedText] at shorter

theorem fractionText_append_replicate (width number : Nat) :
    fractionText width number ++ List.replicate (width - (fractionText width number).length) '0' =
      fixedText width number := by
  have restored := rdropWhile_append_replicate '0' (fixedText width number)
  rwa [length_fixedText] at restored

theorem isDigitText_fractionText (width number : Nat) :
    IsDigitText (fractionText width number) := by
  intro character isIn
  refine isDigitText_fixedText width number character ?_
  exact (List.rdropWhile_prefix _ _).subset isIn

theorem IsDigitText.all_isDigit (areDigits : IsDigitText text) : text.all Char.isDigit = true := by
  rw [List.all_eq_true]
  intro character isIn
  by_contra notDigit
  exact areDigits.not_mem (by simpa using notDigit) isIn

theorem getLast?_fractionText (width number : Nat) :
    (fractionText width number).getLast? ≠ some '0' := by
  intro endsInZero
  have nonempty : fractionText width number ≠ [] := by
    intro empty
    rw [empty] at endsInZero
    simp at endsInZero
  rw [List.getLast?_eq_some_getLast nonempty] at endsInZero
  exact List.rdropWhile_last_not _ _ nonempty (decide_eq_true (Option.some.inj endsInZero))

theorem fixedText_zero (width : Nat) : fixedText width 0 = List.replicate width '0' := by
  unfold fixedText digitsText
  induction width with
  | zero => rfl
  | succ width ih =>
    rw [fixedDigits, Nat.zero_div, List.map_append, ih, List.replicate_succ']
    rfl

theorem fractionText_ne_nil (hasWidth : 0 < width) (positive : number ≠ 0)
    (fits : number < 10 ^ width) : fractionText width number ≠ [] := by
  intro empty
  have restored := fractionText_append_replicate width number
  rw [empty, List.nil_append, List.length_nil, Nat.sub_zero, ← fixedText_zero] at restored
  have reads := readNatural_fixedText hasWidth fits
  rw [← restored, readNatural_fixedText hasWidth (by positivity)] at reads
  exact positive (Option.some.inj reads).symm

theorem readFraction_fractionText (hasWidth : 0 < width) (positive : number ≠ 0)
    (fits : number < 10 ^ width) :
    readFraction width (fractionText width number) = some number := by
  unfold readFraction
  rw [if_pos ⟨fractionText_ne_nil hasWidth positive fits, length_fractionText_le _ _,
    (isDigitText_fractionText _ _).all_isDigit⟩, fractionText_append_replicate,
    readNatural_fixedText hasWidth fits]

theorem utf8ByteSize_ofList_le (text : List Char) :
    (String.ofList text).utf8ByteSize ≤ 4 * text.length := by
  induction text with
  | nil => simp
  | cons character rest ih =>
    have isSmall := character.utf8Size_le_four
    rw [String.ofList_cons, String.utf8ByteSize_append,
      String.utf8ByteSize_singleton, List.length_cons]
    omega

/-! ## Cutting texts -/

/-- The parts of a text around the first occurrence of a character. -/
def splitOnce (separator : Char) : List Char → Option (List Char × List Char)
  | [] => none
  | character :: rest =>
      if character = separator then some ([], rest)
      else (splitOnce separator rest).map fun parts => (character :: parts.1, parts.2)

/-- The parts of a text around the last occurrence of a character. -/
def rsplitOnce (separator : Char) (text : List Char) : Option (List Char × List Char) :=
  (splitOnce separator text.reverse).map fun parts => (parts.2.reverse, parts.1.reverse)

variable {separator : Char} {left : List Char}

theorem splitOnce_append (isFirst : separator ∉ left) (right : List Char) :
    splitOnce separator (left ++ separator :: right) = some (left, right) := by
  induction left with
  | nil => simp [splitOnce]
  | cons character rest ih =>
    rw [List.mem_cons, not_or] at isFirst
    have differs : character ≠ separator := fun same => isFirst.1 same.symm
    rw [List.cons_append, splitOnce, if_neg differs, ih isFirst.2]
    rfl

theorem splitOnce_eq_none (absent : separator ∉ text) : splitOnce separator text = none := by
  induction text with
  | nil => rfl
  | cons character rest ih =>
    rw [List.mem_cons, not_or] at absent
    have differs : character ≠ separator := fun same => absent.1 same.symm
    rw [splitOnce, if_neg differs, ih absent.2]
    rfl

variable {right : List Char}

theorem eq_of_splitOnce (cut : splitOnce separator text = some (left, right)) :
    text = left ++ separator :: right ∧ separator ∉ left := by
  induction text generalizing left with
  | nil => simp [splitOnce] at cut
  | cons character rest ih =>
    unfold splitOnce at cut
    split at cut
    · rename_i same
      obtain ⟨rfl, rfl⟩ := Prod.mk.inj (Option.some.inj cut)
      exact ⟨by rw [same]; rfl, by simp⟩
    · rename_i differs
      obtain ⟨⟨first, second⟩, restCut, same⟩ := Option.map_eq_some_iff.mp cut
      obtain ⟨rfl, rfl⟩ := Prod.mk.inj same
      obtain ⟨rfl, absent⟩ := ih restCut
      refine ⟨rfl, ?_⟩
      rw [List.mem_cons, not_or]
      exact ⟨fun same => differs same.symm, absent⟩

theorem rsplitOnce_append (left : List Char) (isLast : separator ∉ right) :
    rsplitOnce separator (left ++ separator :: right) = some (left, right) := by
  have reversed : (left ++ separator :: right).reverse =
        right.reverse ++ separator :: left.reverse := by simp
  unfold rsplitOnce
  rw [reversed, splitOnce_append (by simpa using isLast)]
  simp

end TypeBridge.Library
