import TypeBridge.Library.Comparison
import TypeBridge.Schema.Fact

namespace TypeBridge.Schema

open Library

/-!
# Scalars and their order

The scalars behind canonical texts, with the comparison that bounds of ranges
use. It answers nothing across domains and nothing about durations. Within
any other domain it is the comparison of a linear order of keys.

The key determines the scalar except in two domains: a double keeps the sign
of its zero, and a datetime with a zone is compared by the instant in UTC.
-/

/-! ## Components -/

abbrev CanonicalString := { text : String // text.utf8ByteSize ≤ 1048576 }

/-- A signed 64-bit integer. -/
abbrev LongValue := { value : Int // -2 ^ 63 ≤ value ∧ value < 2 ^ 63 }

/-- The bits of a finite double. -/
@[ext]
structure CanonicalDouble where
  bits : Nat
  fits : bits < 2 ^ 64
  finite : bits / 2 ^ 52 % 2 ^ 11 ≠ 2047

instance : DecidableEq CanonicalDouble :=
  Function.Injective.decidableEq (f := CanonicalDouble.bits) (by rintro ⟨⟩ ⟨⟩ rfl; rfl)

/-- The place of a finite double: its magnitude bits under its sign. -/
def CanonicalDouble.place (double : CanonicalDouble) : Int :=
  if double.bits < 2 ^ 63 then double.bits else 2 ^ 63 - double.bits

/-- The number of days of a month. -/
def maxDay (year : Int) (month : Nat) : Nat :=
  if month ∈ [1, 3, 5, 7, 8, 10, 12] then 31
  else if month ∈ [4, 6, 9, 11] then 30
  else if month = 2 then
    if 4 ∣ year ∧ (¬ 100 ∣ year ∨ 400 ∣ year) then 29 else 28
  else 0

/-- A Gregorian date in the canonical year range. -/
@[ext]
structure CanonicalDate where
  year : Int
  month : Nat
  day : Nat
  yearInRange : -262143 ≤ year ∧ year ≤ 262142
  dayInRange : 0 < day ∧ day ≤ maxDay year month
  deriving DecidableEq

/-- A time of day without leap seconds. -/
@[ext]
structure CanonicalTime where
  hour : Nat
  minute : Nat
  second : Nat
  nanosecond : Nat
  inRange : hour ≤ 23 ∧ minute ≤ 59 ∧ second ≤ 59 ∧ nanosecond < 10 ^ 9
  deriving DecidableEq

/-- A date and a time without a zone. -/
@[ext]
structure CanonicalDateTime where
  date : CanonicalDate
  time : CanonicalTime
  deriving DecidableEq

inductive TimeZoneDesignator where
  | utc
  | offsetSeconds (seconds : Int)
  | named (name : String)
  deriving DecidableEq

def IsZoneName (name : String) : Prop :=
  name ≠ "" ∧ name.utf8ByteSize ≤ 255 ∧ ∀ character ∈ name.toList,
      character.isAlphanum ∨ character ∈ ['/', '_', '-', '+']

instance (name : String) : Decidable (IsZoneName name) := by
  unfold IsZoneName
  infer_instance

/-- A written offset is the effective one, and offsets stay within a day. -/
def TimeZoneDesignator.selects : TimeZoneDesignator → Int → Prop
  | .utc, effective => effective = 0
  | .offsetSeconds seconds, effective => effective = seconds ∧ seconds ≠ 0 ∧ seconds.natAbs ≤ 86399
  | .named name, effective => IsZoneName name ∧ effective.natAbs ≤ 86399

instance (zone : TimeZoneDesignator) (effective : Int) : Decidable (zone.selects effective) := by
  cases zone <;> unfold TimeZoneDesignator.selects <;> infer_instance

/-- A date and a time with a zone and its effective offset. -/
@[ext]
structure CanonicalDateTimeTz where
  localTime : CanonicalDateTime
  zone : TimeZoneDesignator
  effectiveOffsetSeconds : Int
  selected : zone.selects effectiveOffsetSeconds
  deriving DecidableEq

/-- The days from a fixed date on, in the proleptic Gregorian calendar. -/
def dateOrderKey (date : CanonicalDate) : Int :=
  let adjustedYear := date.year - if date.month ≤ 2 then 1 else 0
  let era := Int.tdiv (if 0 ≤ adjustedYear then adjustedYear else adjustedYear - 399) 400
  let yearOfEra := adjustedYear - era * 400
  let adjustedMonth : Int := date.month + if 2 < date.month then -3 else 9
  let dayOfYear := Int.tdiv (153 * adjustedMonth + 2) 5 + date.day - 1
  era * 146097 + yearOfEra * 365 + Int.tdiv yearOfEra 4 -
    Int.tdiv yearOfEra 100 + dayOfYear

def CanonicalDateTimeTz.semanticUtcNanoseconds (value : CanonicalDateTimeTz) : Int :=
  let time := value.localTime.time
  dateOrderKey value.localTime.date * 86400000000000 +
    time.hour * 3600000000000 + time.minute * 60000000000 +
    time.second * 1000000000 + time.nanosecond -
    value.effectiveOffsetSeconds * 1000000000

/-- The number that decimal digits write. -/
def digitsValue (digits : List (Fin 10)) : Nat :=
  digits.foldl (fun value (digit : Fin 10) => 10 * value + digit) 0

/-- A normalized decimal: no leading, no trailing zeros, no negative zero. -/
@[ext]
structure DecimalValue where
  negative : Bool
  whole : List (Fin 10)
  fraction : List (Fin 10)
  wholeNormal : whole = [0] ∨ ∃ digit rest, whole = digit :: rest ∧ digit ≠ 0
  fractionNormal : fraction.getLast? ≠ some 0
  fractionFits : fraction.length ≤ 19
  inRange : digitsValue whole < 2 ^ 63 ∨
      (negative = true ∧ digitsValue whole = 2 ^ 63 ∧ fraction = [])
  noNegativeZero : ¬ (negative = true ∧ whole = [0] ∧ fraction = [])

/-- A signed calendar duration; zero has no sign. -/
@[ext]
structure CanonicalDuration where
  negative : Bool
  months : Nat
  days : Nat
  seconds : Nat
  nanosecond : Nat
  monthsFit : months < 2 ^ 64
  daysFit : days < 2 ^ 64
  secondsFit : seconds < 2 ^ 64
  nanosecondInRange : nanosecond < 10 ^ 9
  noNegativeZero : negative = true → ¬ (months = 0 ∧ days = 0 ∧ seconds = 0 ∧ nanosecond = 0)

instance : DecidableEq CanonicalDuration :=
  Function.Injective.decidableEq (f := fun duration => (duration.negative, duration.months,
    duration.days, duration.seconds, duration.nanosecond)) (by rintro ⟨⟩ ⟨⟩ same; simpa using same)

/-! ## Comparison -/

abbrev compareIn {α : Type} [LinearOrder α] (first second : α) : Ordering := cmp first second

def CanonicalDate.compare (first second : CanonicalDate) : Ordering :=
  (cmp first.year second.year).then ((cmp first.month second.month).then (cmp first.day second.day))

def CanonicalTime.compare (first second : CanonicalTime) : Ordering :=
  (cmp first.hour second.hour).then
    ((cmp first.minute second.minute).then ((cmp first.second second.second).then
        (cmp first.nanosecond second.nanosecond)))

def CanonicalDateTime.compare (first second : CanonicalDateTime) : Ordering :=
  (first.date.compare second.date).then (first.time.compare second.time)

/-- Decimal digits form a nonempty range. -/
instance neZero_ten : NeZero (10 : Nat) := ⟨by decide⟩

def padded (width : Nat) (digits : List (Fin 10)) : List (Fin 10) :=
  digits ++ List.replicate (width - digits.length) 0

/-- Decimals compare by sign, length of the whole part and digits. -/
def DecimalValue.compare (first second : DecimalValue) : Ordering :=
  if first.negative ≠ second.negative then
    if first.negative then .lt else .gt
  else
    let width := max first.fraction.length second.fraction.length
    let magnitude :=
      (cmp first.whole.length second.whole.length).then
        ((compareIn first.whole second.whole).then (compareIn (padded width first.fraction)
            (padded width second.fraction)))
    if first.negative then magnitude.swap else magnitude

inductive Scalar where
  | string (text : CanonicalString)
  | long (value : LongValue)
  | double (value : CanonicalDouble)
  | boolean (value : Bool)
  | date (value : CanonicalDate)
  | dateTime (value : CanonicalDateTime)
  | dateTimeTz (value : CanonicalDateTimeTz)
  | decimal (value : DecimalValue)
  | duration (value : CanonicalDuration)

namespace Scalar

def valueType : Scalar → ValueTypeTag
  | .string _ => .string
  | .long _ => .long
  | .double _ => .double
  | .boolean _ => .boolean
  | .date _ => .date
  | .dateTime _ => .dateTime
  | .dateTimeTz _ => .dateTimeTz
  | .decimal _ => .decimal
  | .duration _ => .duration

def semanticCmpSameDomain : Scalar → Scalar → Option Ordering
  | .string first, .string second => some (compareIn first second)
  | .long first, .long second => some (compareIn first second)
  | .double first, .double second => some (cmp first.place second.place)
  | .boolean first, .boolean second => some (compareIn first second)
  | .date first, .date second => some (first.compare second)
  | .dateTime first, .dateTime second => some (first.compare second)
  | .dateTimeTz first, .dateTimeTz second =>
      some (cmp first.semanticUtcNanoseconds second.semanticUtcNanoseconds)
  | .decimal first, .decimal second => some (first.compare second)
  | _, _ => none

end Scalar

/-! ## Keys -/

section Keys

variable {α β : Type} [LinearOrder α] [LinearOrder β]

theorem cmp_toLex (first second : α) (third fourth : β) :
    cmp (toLex (first, third)) (toLex (second, fourth)) =
      (cmp first second).then (cmp third fourth) := by
  rcases lt_trichotomy first second with less | equal | greater
  · rw [(cmp_eq_lt_iff _ _).mpr less, (cmp_eq_lt_iff _ _).mpr]
    · rfl
    · exact Prod.Lex.toLex_lt_toLex.mpr (.inl less)
  · subst equal
    rw [cmp_self_eq_eq, Ordering.eq_then]
    simp only [cmp, cmpUsing, Prod.Lex.toLex_lt_toLex, lt_irrefl, false_or, true_and]
  · rw [(cmp_eq_gt_iff _ _).mpr greater, (cmp_eq_gt_iff _ _).mpr]
    · rfl
    · exact Prod.Lex.toLex_lt_toLex.mpr (.inl greater)

theorem compareIn_cons (first second : α) (rest others : List α) :
    compareIn (first :: rest) (second :: others) =
      (cmp first second).then (compareIn rest others) := by
  rcases lt_trichotomy first second with less | equal | greater
  · rw [(cmp_eq_lt_iff _ _).mpr less, Ordering.lt_then]
    exact (cmp_eq_lt_iff _ _).mpr (List.cons_lt_cons_iff.mpr (.inl less))
  · subst equal
    rw [cmp_self_eq_eq, Ordering.eq_then]
    rcases lt_trichotomy rest others with less | equal | greater
    · have longer : first :: rest < first :: others := List.cons_lt_cons_iff.mpr (.inr ⟨rfl, less⟩)
      exact ((cmp_eq_lt_iff _ _).mpr longer).trans ((cmp_eq_lt_iff _ _).mpr less).symm
    · subst equal
      exact (cmp_self_eq_eq _).trans (cmp_self_eq_eq _).symm
    · have longer : first :: others < first :: rest :=
        List.cons_lt_cons_iff.mpr (.inr ⟨rfl, greater⟩)
      exact ((cmp_eq_gt_iff _ _).mpr longer).trans ((cmp_eq_gt_iff _ _).mpr greater).symm
  · rw [(cmp_eq_gt_iff _ _).mpr greater, Ordering.gt_then]
    exact (cmp_eq_gt_iff _ _).mpr (List.cons_lt_cons_iff.mpr (.inl greater))

theorem compareIn_append {first second : List α} (sameLength : first.length = second.length)
    (rest others : List α) : compareIn (first ++ rest) (second ++ others) =
      (compareIn first second).then (compareIn rest others) := by
  induction first generalizing second with
  | nil =>
    have empty : second = [] := List.length_eq_zero_iff.mp sameLength.symm
    subst empty
    have same : compareIn ([] : List α) [] = .eq := cmp_self_eq_eq _
    rw [same, Ordering.eq_then]
    rfl
  | cons head tail ih =>
    obtain ⟨other, otherTail, rfl⟩ := List.exists_cons_of_length_eq_add_one sameLength.symm
    have shorter : tail.length = otherTail.length := by simpa using sameLength
    rw [List.cons_append, List.cons_append, compareIn_cons, compareIn_cons,
      ih shorter, Ordering.then_assoc]

theorem compareIn_append_right (first second tail : List α)
    (sameLength : first.length = second.length) :
    compareIn (first ++ tail) (second ++ tail) = compareIn first second := by
  have same : compareIn tail tail = .eq := cmp_self_eq_eq _
  rw [compareIn_append sameLength, same, Ordering.then_eq]

end Keys

theorem then_eq_eq_iff (first second : Ordering) :
    first.then second = .eq ↔ first = .eq ∧ second = .eq := by
  cases first <;> simp

namespace CanonicalDate

/-- Year, month and day, in this order. -/
def key (date : CanonicalDate) : ℤ ×ₗ ℕ ×ₗ ℕ := toLex (date.year, toLex (date.month, date.day))

theorem compare_eq_cmp_key (first second : CanonicalDate) :
    first.compare second = cmp first.key second.key := by
  unfold CanonicalDate.compare key
  rw [cmp_toLex, cmp_toLex]

theorem eq_of_compare {first second : CanonicalDate} (same : first.compare second = .eq) :
    first = second := by
  unfold CanonicalDate.compare at same
  simp only [then_eq_eq_iff, cmp_eq_eq_iff] at same
  exact CanonicalDate.ext same.1 same.2.1 same.2.2

end CanonicalDate

namespace CanonicalTime

/-- Hour, minute, second and nanosecond, in this order. -/
def key (time : CanonicalTime) : ℕ ×ₗ ℕ ×ₗ ℕ ×ₗ ℕ :=
  toLex (time.hour, toLex (time.minute, toLex (time.second, time.nanosecond)))

theorem compare_eq_cmp_key (first second : CanonicalTime) :
    first.compare second = cmp first.key second.key := by
  unfold CanonicalTime.compare key
  rw [cmp_toLex, cmp_toLex, cmp_toLex]

theorem eq_of_compare {first second : CanonicalTime} (same : first.compare second = .eq) :
    first = second := by
  unfold CanonicalTime.compare at same
  simp only [then_eq_eq_iff, cmp_eq_eq_iff] at same
  exact CanonicalTime.ext same.1 same.2.1 same.2.2.1 same.2.2.2

end CanonicalTime

namespace CanonicalDateTime

def key (value : CanonicalDateTime) : (ℤ ×ₗ ℕ ×ₗ ℕ) ×ₗ (ℕ ×ₗ ℕ ×ₗ ℕ ×ₗ ℕ) :=
  toLex (value.date.key, value.time.key)

theorem compare_eq_cmp_key (first second : CanonicalDateTime) :
    first.compare second = cmp first.key second.key := by
  unfold CanonicalDateTime.compare key
  rw [cmp_toLex, CanonicalDate.compare_eq_cmp_key, CanonicalTime.compare_eq_cmp_key]

theorem eq_of_compare {first second : CanonicalDateTime} (same : first.compare second = .eq) :
    first = second := by
  obtain ⟨dates, times⟩ := (then_eq_eq_iff _ _).mp same
  exact CanonicalDateTime.ext (CanonicalDate.eq_of_compare dates)
    (CanonicalTime.eq_of_compare times)

end CanonicalDateTime

namespace DecimalValue

/-- Length of the whole part, its digits, and the digits of the fraction. -/
def magnitudeKey (value : DecimalValue) : ℕ ×ₗ List (Fin 10) ×ₗ List (Fin 10) :=
  toLex (value.whole.length, toLex (value.whole, padded 19 value.fraction))

/-- Negative decimals come first, in reverse. -/
def key (value : DecimalValue) :
    (ℕ ×ₗ List (Fin 10) ×ₗ List (Fin 10))ᵒᵈ ⊕ₗ (ℕ ×ₗ List (Fin 10) ×ₗ List (Fin 10)) :=
  if value.negative then toLex (.inl (OrderDual.toDual value.magnitudeKey))
  else toLex (.inr value.magnitudeKey)

variable {first second : List (Fin 10)} {width : Nat}

theorem cmp_padded {further : Nat} (firstFits : first.length ≤ width)
    (secondFits : second.length ≤ width) (isFurther : width ≤ further) :
    compareIn (padded further first) (padded further second) =
      compareIn (padded width first) (padded width second) := by
  have extended : ∀ digits : List (Fin 10), digits.length ≤ width → padded further digits =
          padded width digits ++ List.replicate (further - width) 0 := by
    intro digits fits
    unfold padded
    rw [List.append_assoc, List.replicate_append_replicate]
    congr 2
    omega
  rw [extended first firstFits, extended second secondFits]
  refine compareIn_append_right _ _ _ ?_
  unfold padded
  simp only [List.length_append, List.length_replicate]
  omega

theorem cmp_magnitudeKey (first second : DecimalValue) :
    cmp first.magnitudeKey second.magnitudeKey = (cmp first.whole.length second.whole.length).then
        ((compareIn first.whole second.whole).then (compareIn
            (padded (max first.fraction.length second.fraction.length) first.fraction)
            (padded (max first.fraction.length second.fraction.length) second.fraction))) := by
  have fits : max first.fraction.length second.fraction.length ≤ 19 :=
    max_le first.fractionFits second.fractionFits
  rw [← cmp_padded (le_max_left _ _) (le_max_right _ _) fits]
  unfold magnitudeKey
  rw [cmp_toLex, cmp_toLex]

theorem compare_eq_cmp_key (first second : DecimalValue) :
    first.compare second = cmp first.key second.key := by
  unfold DecimalValue.compare key
  simp only [← cmp_magnitudeKey]
  cases first.negative <;> cases second.negative
  · simp [cmp, cmpUsing]
  · simp [cmp, cmpUsing]
  · simp [cmp, cmpUsing]
  · simp only [ne_eq, not_true_eq_false, ↓reduceIte, cmp_swap]
    simp [cmp, cmpUsing]

theorem eq_of_padded_eq (firstNormal : first.getLast? ≠ some 0)
    (secondNormal : second.getLast? ≠ some 0) (same : padded width first = padded width second) :
    first = second := by
  have shorter : ∀ {long short : List (Fin 10)}, long.getLast? ≠ some 0 →
        padded width long = padded width short → long.length ≤ short.length := by
    intro long short normal equal
    -- A longer list would end in one of the zeros of the other one.
    by_contra longer
    have last : (padded width long)[long.length - 1]? = long.getLast? := by
      unfold padded
      rw [List.getElem?_append_left (by omega), List.getLast?_eq_getElem?]
    have zero : (padded width short)[long.length - 1]? = (List.replicate (width - short.length)
            (0 : Fin 10))[long.length - 1 - short.length]? := by
      unfold padded
      rw [List.getElem?_append_right (by omega)]
    rw [← equal, last] at zero
    cases ending : long.getLast? with
    | none =>
      rw [List.getLast?_eq_none_iff] at ending
      simp [ending] at longer
    | some digit =>
      rw [ending] at zero
      rw [List.getElem?_replicate] at zero
      split at zero
      · rw [ending] at normal
        exact normal zero
      · exact absurd zero (by simp)
  have lengths : first.length = second.length :=
    le_antisymm (shorter firstNormal same) (shorter secondNormal same.symm)
  unfold padded at same
  exact List.append_inj_left same lengths

theorem eq_of_compare {first second : DecimalValue} (same : first.compare second = .eq) :
    first = second := by
  unfold DecimalValue.compare at same
  by_cases signs : first.negative = second.negative
  · have magnitudes : (cmp first.whole.length second.whole.length).then
          ((compareIn first.whole second.whole).then
            (compareIn (padded (max first.fraction.length second.fraction.length) first.fraction)
              (padded (max first.fraction.length second.fraction.length)
                second.fraction))) = .eq := by
      cases negative : first.negative
      · simpa [← signs, negative] using same
      · simpa [← signs, negative, Ordering.swap_eq_iff_eq_swap] using same
    simp only [then_eq_eq_iff, cmp_eq_eq_iff] at magnitudes
    exact DecimalValue.ext signs magnitudes.2.1
      (eq_of_padded_eq first.fractionNormal second.fractionNormal magnitudes.2.2)
  · rw [if_pos signs] at same
    cases negative : first.negative <;> simp [negative] at same

end DecimalValue

/-! ## Ordered domains -/

namespace Scalar

theorem rankedOn {domain : ValueTypeTag} (ordered : domain ≠ .duration) :
    RankedOn semanticCmpSameDomain { scalar | scalar.valueType = domain } := by
  cases domain with
  | duration => exact absurd rfl ordered
  | string =>
    refine rankedOn_of_parts Scalar.string id ?_ fun _ _ => rfl
    rintro (_ | _) <;> simp [valueType]
  | long =>
    refine rankedOn_of_parts Scalar.long id ?_ fun _ _ => rfl
    rintro (_ | _) <;> simp [valueType]
  | double =>
    refine rankedOn_of_parts Scalar.double CanonicalDouble.place ?_ fun _ _ => rfl
    rintro (_ | _) <;> simp [valueType]
  | boolean =>
    refine rankedOn_of_parts Scalar.boolean id ?_ fun _ _ => rfl
    rintro (_ | _) <;> simp [valueType]
  | date =>
    refine rankedOn_of_parts Scalar.date CanonicalDate.key ?_ ?_
    · rintro (_ | _) <;> simp [valueType]
    · intro first second
      exact congrArg some (CanonicalDate.compare_eq_cmp_key first second)
  | dateTime =>
    refine rankedOn_of_parts Scalar.dateTime CanonicalDateTime.key ?_ ?_
    · rintro (_ | _) <;> simp [valueType]
    · intro first second
      exact congrArg some (CanonicalDateTime.compare_eq_cmp_key first second)
  | dateTimeTz =>
    refine rankedOn_of_parts Scalar.dateTimeTz
      CanonicalDateTimeTz.semanticUtcNanoseconds ?_ fun _ _ => rfl
    rintro (_ | _) <;> simp [valueType]
  | decimal =>
    refine rankedOn_of_parts Scalar.decimal DecimalValue.key ?_ ?_
    · rintro (_ | _) <;> simp [valueType]
    · intro first second
      exact congrArg some (DecimalValue.compare_eq_cmp_key first second)

theorem eq_of_semanticCmpSameDomain {first second : Scalar} (notDouble : first.valueType ≠ .double)
    (notZoned : first.valueType ≠ .dateTimeTz)
    (same : first.semanticCmpSameDomain second = some .eq) : first = second := by
  cases first <;> cases second <;> simp_all [semanticCmpSameDomain, valueType]
  · exact CanonicalDate.eq_of_compare same
  · exact CanonicalDateTime.eq_of_compare same
  · exact DecimalValue.eq_of_compare same

end Scalar

/-! ## Canonical texts -/

/-- How canonical texts denote scalars.

The parsers of the source are total on canonical texts, keep the domain, and
accept one text for each scalar. -/
structure ScalarReading where
  read : CanonicalValue → Option Scalar
  valueType_of_read : ∀ {value scalar}, read value = some scalar →
      scalar.valueType = value.valueType
  eq_of_read : ∀ {value other scalar}, read value = some scalar →
      read other = some scalar → value = other

namespace ScalarReading

variable (reading : ScalarReading)

/-- Compare canonical texts by the scalars that they denote. -/
def compareSameDomain (first second : CanonicalValue) : Option Ordering := do
  let firstScalar ← reading.read first
  let secondScalar ← reading.read second
  firstScalar.semanticCmpSameDomain secondScalar

def domain (valueType : ValueTypeTag) : Set CanonicalValue :=
  { value | value.valueType = valueType ∧ (reading.read value).isSome }

variable {reading} {valueType : ValueTypeTag}

theorem exists_scalar_of_mem_domain {value : CanonicalValue}
    (isIn : value ∈ reading.domain valueType) :
    ∃ scalar, reading.read value = some scalar ∧ scalar.valueType = valueType := by
  obtain ⟨isOfType, isRead⟩ := isIn
  obtain ⟨scalar, reads⟩ := Option.isSome_iff_exists.mp isRead
  exact ⟨scalar, reads, (reading.valueType_of_read reads).trans isOfType⟩

theorem rankedOn (ordered : valueType ≠ .duration) :
    RankedOn reading.compareSameDomain (reading.domain valueType) := by
  obtain ⟨Key, order, key, agrees⟩ := Scalar.rankedOn ordered
  let scalarOf : reading.domain valueType → Scalar := fun value =>
    (exists_scalar_of_mem_domain value.2).choose
  have reads : ∀ value : reading.domain valueType, reading.read value = some (scalarOf value) ∧
        (scalarOf value).valueType = valueType := fun value =>
    (exists_scalar_of_mem_domain value.2).choose_spec
  refine rankedOn_of_parts Subtype.val (fun value => key (scalarOf value))
    (fun value isIn => ⟨⟨value, isIn⟩, rfl⟩) ?_
  intro first second
  unfold compareSameDomain
  rw [(reads first).1, (reads second).1]
  exact agrees _ (reads first).2 _ (reads second).2

theorem eq_of_compareSameDomain {first second : CanonicalValue}
    (notDouble : first.valueType ≠ .double) (notZoned : first.valueType ≠ .dateTimeTz)
    (same : reading.compareSameDomain first second = some .eq) : first = second := by
  unfold compareSameDomain at same
  simp only [Option.bind_eq_bind, Option.bind_eq_some_iff] at same
  obtain ⟨scalar, readsFirst, other, readsSecond, places⟩ := same
  have sameType := reading.valueType_of_read readsFirst
  have scalars : scalar = other := Scalar.eq_of_semanticCmpSameDomain (by rwa [sameType])
      (by rwa [sameType]) places
  subst scalars
  exact reading.eq_of_read readsFirst readsSecond

end ScalarReading

end TypeBridge.Schema
