import TypeBridge.Library.DigitText
import TypeBridge.Schema.Scalar

namespace TypeBridge.Schema

open Library

/-!
# Texts of scalars

How scalars are written and how their texts are read. A parser takes a text
apart, builds the value, and for most domains writes the value again to compare
the result with the text.

Reading what was written gives the value back in every domain. In every domain
but one, only what is written for a value is read as it: decimals are brought
into normal form without a comparison.
-/

def recheck {Value : Type} (write : Value → List Char) (text : List Char) (parsed : Value) :
    Option Value :=
  if write parsed = text then some parsed else none

theorem recheck_eq_some_iff {Value : Type} {write : Value → List Char} {text : List Char}
    {parsed value : Value} :
    recheck write text parsed = some value ↔ parsed = value ∧ write value = text := by
  unfold recheck
  split
  · rename_i same
    constructor
    · intro equal
      obtain rfl := Option.some.inj equal
      exact ⟨rfl, same⟩
    · rintro ⟨rfl, -⟩
      rfl
  · rename_i differs
    constructor
    · simp
    · rintro ⟨rfl, same⟩
      exact absurd same differs

/-- The number of a nonempty text of digits, within 32 bits. -/
def parseDigits (text : List Char) : Option Nat :=
  (readNatural text).filter fun number => number < 2 ^ 32

theorem parseDigits_fixedText_two {number : Nat} (fits : number < 100) :
    parseDigits (fixedText 2 number) = some number := by
  unfold parseDigits
  rw [readNatural_fixedText (by decide) (by simpa using fits)]
  simp only [Option.filter_some, decide_eq_true_eq]
  rw [if_pos (by omega)]

/-! ## Dates -/

namespace CanonicalDate

/-- Check the components of a date. -/
def new (year : Int) (month day : Nat) : Option CanonicalDate :=
  if valid : (-262143 ≤ year ∧ year ≤ 262142) ∧ 0 < day ∧ day ≤ maxDay year month then
    some ⟨year, month, day, valid.1, valid.2⟩
  else none

/-- Years before zero and after 9999 are written with a sign. -/
def yearText (year : Int) : List Char :=
  if 0 ≤ year ∧ year ≤ 9999 then fixedText 4 year.toNat
  else if 10000 ≤ year then '+' :: naturalText year.toNat
  else if -9999 ≤ year then '-' :: fixedText 4 (-year).toNat
  else '-' :: naturalText (-year).toNat

def text (date : CanonicalDate) : List Char :=
  yearText date.year ++ '-' :: (fixedText 2 date.month ++ '-' :: fixedText 2 date.day)

def ofText (value : List Char) : Option CanonicalDate := do
  let (yearMonth, day) ← rsplitOnce '-' value
  let (year, month) ← rsplitOnce '-' yearMonth
  let year ← readInteger (-2 ^ 31) (2 ^ 31 - 1) year
  let month ← parseDigits month
  let day ← parseDigits day
  let parsed ← new year (month % 256) (day % 256)
  recheck text value parsed

variable (date : CanonicalDate)

theorem component_bounds : 0 < date.month ∧ date.month ≤ 12 ∧ 0 < date.day ∧ date.day ≤ 31 := by
  obtain ⟨positive, bounded⟩ := date.dayInRange
  have nonzero : maxDay date.year date.month ≠ 0 := by omega
  unfold maxDay at bounded nonzero
  simp only [List.mem_cons, List.not_mem_nil, or_false] at bounded nonzero
  grind

theorem new_components : new date.year date.month date.day = some date := by
  unfold new
  rw [dif_pos ⟨date.yearInRange, date.dayInRange⟩]

theorem readInteger_yearText {year : Int} (inRange : -262143 ≤ year ∧ year ≤ 262142) :
    readInteger (-2 ^ 31) (2 ^ 31 - 1) (yearText year) = some year := by
  have positive : 0 ≤ year → signedValue false year.toNat = year := by
    intro atLeast
    simp [signedValue, atLeast]
  have negative : year ≤ 0 → signedValue true (-year).toNat = year := by
    intro atMost
    simp [signedValue, atMost]
  unfold yearText
  split
  · have same := positive (by omega)
    rw [readInteger_eq_some (splitSign_of_isDigitText (isDigitText_fixedText 4 _))
      (readNatural_fixedText (by decide) (by omega)) (by omega) (by omega), same]
  · split
    · have same := positive (by omega)
      rw [readInteger_eq_some (splitSign_plus _)
        (readNatural_naturalText _) (by omega) (by omega), same]
    · have same := negative (by omega)
      split
      · rw [readInteger_eq_some (splitSign_minus _)
          (readNatural_fixedText (by decide) (by omega)) (by omega) (by omega), same]
      · rw [readInteger_eq_some (splitSign_minus _)
          (readNatural_naturalText _) (by omega) (by omega), same]

variable {character : Char}

theorem not_mem_yearText (year : Int) (notDigit : character.isDigit = false)
    (notPlus : character ≠ '+') (notMinus : character ≠ '-') : character ∉ yearText year := by
  have fixed : ∀ number, character ∉ fixedText 4 number := fun number =>
    (isDigitText_fixedText 4 number).not_mem notDigit
  have natural : ∀ number, character ∉ naturalText number := fun number =>
    (isDigitText_naturalText number).not_mem notDigit
  unfold yearText
  split_ifs <;> simp [fixed, natural, notPlus, notMinus]

theorem not_mem_text (notDigit : character.isDigit = false) (notPlus : character ≠ '+')
    (notMinus : character ≠ '-') : character ∉ date.text := by
  have fixed : ∀ number, character ∉ fixedText 2 number := fun number =>
    (isDigitText_fixedText 2 number).not_mem notDigit
  unfold text
  simp [fixed, not_mem_yearText date.year notDigit notPlus notMinus, notMinus]

theorem ofText_text : ofText date.text = some date := by
  obtain ⟨-, monthBound, -, dayBound⟩ := date.component_bounds
  have cutDay : rsplitOnce '-' date.text =
        some (yearText date.year ++ '-' :: fixedText 2 date.month, fixedText 2 date.day) := by
    unfold text
    rw [← List.cons_append, ← List.append_assoc]
    exact rsplitOnce_append _ ((isDigitText_fixedText 2 date.day).not_mem (by decide))
  have cutMonth : rsplitOnce '-' (yearText date.year ++ '-' :: fixedText 2 date.month) =
        some (yearText date.year, fixedText 2 date.month) := rsplitOnce_append _
      ((isDigitText_fixedText 2 date.month).not_mem (by decide))
  unfold ofText
  simp only [cutDay, cutMonth, readInteger_yearText date.yearInRange,
    parseDigits_fixedText_two (show date.month < 100 by omega),
    parseDigits_fixedText_two (show date.day < 100 by omega), Option.bind_eq_bind, Option.bind_some,
    Nat.mod_eq_of_lt (show date.month < 256 by omega),
    Nat.mod_eq_of_lt (show date.day < 256 by omega), new_components]
  exact recheck_eq_some_iff.mpr ⟨rfl, rfl⟩

theorem text_of_ofText {value : List Char} {date : CanonicalDate}
    (reads : ofText value = some date) : date.text = value := by
  simp only [ofText, Option.bind_eq_bind, Option.bind_eq_some_iff] at reads
  obtain ⟨_, -, _, -, _, -, _, -, _, -, parsed, -, checked⟩ := reads
  exact (recheck_eq_some_iff.mp checked).2

theorem length_text_le : date.text.length ≤ 13 := by
  have year : (yearText date.year).length ≤ 7 := by
    obtain ⟨above, below⟩ := date.yearInRange
    unfold yearText
    split_ifs
    · rw [length_fixedText]
      decide
    · have digits : (naturalText date.year.toNat).length ≤ 6 :=
        length_naturalText_le (by decide) (by omega)
      rw [List.length_cons]
      omega
    · rw [List.length_cons, length_fixedText]
      decide
    · have digits : (naturalText (-date.year).toNat).length ≤ 6 :=
        length_naturalText_le (by decide) (by omega)
      rw [List.length_cons]
      omega
  unfold text
  simp only [List.length_append, List.length_cons, length_fixedText]
  omega

end CanonicalDate

/-! ## Times -/

def isAscii (text : List Char) : Bool := text.all fun character => character.toNat < 128

theorem isAscii_of_isDigitText {text : List Char} (areDigits : IsDigitText text) :
    isAscii text = true := by
  have all : ∀ digit < 10, (digitChar digit).toNat < 128 := by decide
  refine List.all_eq_true.mpr ?_
  intro character isIn
  obtain ⟨digit, isDigit, rfl⟩ := areDigits character isIn
  exact decide_eq_true (all digit isDigit)

/-- The point and the fraction of a second, nothing for zero. -/
def secondFraction (nanosecond : Nat) : List Char :=
  if nanosecond = 0 then [] else '.' :: fractionText 9 nanosecond

theorem length_secondFraction_le (nanosecond : Nat) : (secondFraction nanosecond).length ≤ 10 := by
  have digits := length_fractionText_le 9 nanosecond
  unfold secondFraction
  split_ifs
  · simp
  · rw [List.length_cons]
    omega

namespace CanonicalTime

/-- Check the components of a time. -/
def new (hour minute second nanosecond : Nat) : Option CanonicalTime :=
  if valid : hour ≤ 23 ∧ minute ≤ 59 ∧ second ≤ 59 ∧ nanosecond < 10 ^ 9 then
    some ⟨hour, minute, second, nanosecond, valid⟩
  else none

def text (time : CanonicalTime) : List Char :=
  fixedText 2 time.hour ++ ':' :: (fixedText 2 time.minute ++
    ':' :: (fixedText 2 time.second ++ secondFraction time.nanosecond))

def splitSeconds (text : List Char) : Option (List Char × Nat) :=
  match splitOnce '.' text with
  | some (seconds, fraction) =>
      (readFraction 9 fraction).map fun nanosecond => (seconds, nanosecond)
  | none => some (text, 0)

/-- The text is long enough, with its colons in place. -/
def hasShape (value : List Char) : Bool :=
  isAscii value && 8 ≤ value.length && value[2]? = some ':' && value[5]? = some ':'

def ofText (value : List Char) : Option CanonicalTime := do
  guard (hasShape value)
  let hour ← parseDigits (value.take 2)
  let minute ← parseDigits ((value.drop 3).take 2)
  let (seconds, nanosecond) ← splitSeconds (value.drop 6)
  let second ← (parseDigits seconds).filter fun second => second < 2 ^ 8
  let parsed ← new (hour % 256) (minute % 256) second nanosecond
  recheck text value parsed

variable (time : CanonicalTime)

theorem splitSeconds_text :
    splitSeconds (fixedText 2 time.second ++ secondFraction time.nanosecond) =
      some (fixedText 2 time.second, time.nanosecond) := by
  have noPoint : '.' ∉ fixedText 2 time.second :=
    (isDigitText_fixedText 2 time.second).not_mem (by decide)
  unfold splitSeconds secondFraction
  split_ifs with isZero
  · rw [List.append_nil, splitOnce_eq_none noPoint, isZero]
  · rw [splitOnce_append noPoint]
    simp only [readFraction_fractionText (show 0 < 9 by decide) isZero
      time.inRange.2.2.2, Option.map_some]

theorem hasShape_text : hasShape time.text = true := by
  have digits : ∀ width number, isAscii (fixedText width number) = true :=
    fun width number => isAscii_of_isDigitText (isDigitText_fixedText _ _)
  have fraction : isAscii (secondFraction time.nanosecond) = true := by
    unfold secondFraction
    split_ifs
    · rfl
    · have ascii := isAscii_of_isDigitText (isDigitText_fractionText 9 time.nanosecond)
      simpa [isAscii] using ascii
  have ascii : isAscii time.text = true := by
    unfold isAscii at digits fraction ⊢
    unfold text
    simp only [List.all_append, List.all_cons, digits, fraction]
    decide
  unfold hasShape
  rw [ascii]
  simp [text, fixedText, digitsText, fixedDigits]

theorem not_mem_text {character : Char} (notDigit : character.isDigit = false)
    (notColon : character ≠ ':') (notPoint : character ≠ '.') : character ∉ time.text := by
  have fixed : ∀ number, character ∉ fixedText 2 number := fun number =>
    (isDigitText_fixedText 2 number).not_mem notDigit
  have fraction : character ∉ secondFraction time.nanosecond := by
    have digits : character ∉ fractionText 9 time.nanosecond :=
      (isDigitText_fractionText 9 time.nanosecond).not_mem notDigit
    unfold secondFraction
    split_ifs <;> simp [digits, notPoint]
  unfold text
  simp [fixed, fraction, notColon]

theorem ofText_text : ofText time.text = some time := by
  obtain ⟨hourBound, minuteBound, secondBound, -⟩ := time.inRange
  have hour : time.text.take 2 = fixedText 2 time.hour := rfl
  have minute : (time.text.drop 3).take 2 = fixedText 2 time.minute := rfl
  have seconds : time.text.drop 6 = fixedText 2 time.second ++ secondFraction time.nanosecond := rfl
  have isNew : new time.hour time.minute time.second time.nanosecond = some time := by
    unfold new
    rw [dif_pos time.inRange]
  unfold ofText
  simp only [hasShape_text, guard_true, hour, minute, seconds,
    splitSeconds_text, parseDigits_fixedText_two (show time.hour < 100 by omega),
    parseDigits_fixedText_two (show time.minute < 100 by omega),
    parseDigits_fixedText_two (show time.second < 100 by omega),
    Option.bind_eq_bind, Option.bind_some, Option.pure_def,
    Option.filter_some, decide_eq_true (show time.second < 2 ^ 8 by omega),
    Nat.mod_eq_of_lt (show time.hour < 256 by omega),
    Nat.mod_eq_of_lt (show time.minute < 256 by omega), ↓reduceIte, isNew]
  exact recheck_eq_some_iff.mpr ⟨rfl, rfl⟩

theorem text_of_ofText {value : List Char} {time : CanonicalTime}
    (reads : ofText value = some time) : time.text = value := by
  simp only [ofText, Option.bind_eq_bind, Option.bind_eq_some_iff] at reads
  obtain ⟨_, -, _, -, _, -, _, -, _, -, parsed, -, checked⟩ := reads
  exact (recheck_eq_some_iff.mp checked).2

theorem length_text_le : time.text.length ≤ 18 := by
  have fraction := length_secondFraction_le time.nanosecond
  unfold text
  simp only [List.length_append, List.length_cons, length_fixedText]
  omega

end CanonicalTime

/-! ## Datetimes -/

namespace CanonicalDateTime

def text (value : CanonicalDateTime) : List Char := value.date.text ++ 'T' :: value.time.text

def ofText (value : List Char) : Option CanonicalDateTime := do
  let (date, time) ← splitOnce 'T' value
  guard ('T' ∉ time)
  let date ← CanonicalDate.ofText date
  let time ← CanonicalTime.ofText time
  return ⟨date, time⟩

theorem ofText_text (value : CanonicalDateTime) : ofText value.text = some value := by
  have notInDate : 'T' ∉ value.date.text :=
    value.date.not_mem_text (by decide) (by decide) (by decide)
  have notInTime : 'T' ∉ value.time.text :=
    value.time.not_mem_text (by decide) (by decide) (by decide)
  unfold ofText text
  simp [splitOnce_append notInDate, notInTime, CanonicalDate.ofText_text, CanonicalTime.ofText_text]

theorem text_of_ofText {value : List Char} {dateTime : CanonicalDateTime}
    (reads : ofText value = some dateTime) : dateTime.text = value := by
  simp only [ofText, Option.bind_eq_bind, Option.bind_eq_some_iff,
    Option.pure_def, Option.some.injEq] at reads
  obtain ⟨⟨date, time⟩, cut, _, -, first, readsDate, second, readsTime, rfl⟩ := reads
  unfold text
  rw [CanonicalDate.text_of_ofText readsDate,
    CanonicalTime.text_of_ofText readsTime, (eq_of_splitOnce cut).1]

theorem length_text_le (value : CanonicalDateTime) : value.text.length ≤ 32 := by
  have date := value.date.length_text_le
  have time := value.time.length_text_le
  unfold text
  simp only [List.length_append, List.length_cons]
  omega

end CanonicalDateTime

/-! ## Datetimes with a zone -/

namespace CanonicalDateTimeTz

def newFixed (localTime : CanonicalDateTime) : TimeZoneDesignator → Option CanonicalDateTimeTz
  | .utc => some ⟨localTime, .utc, 0, rfl⟩
  | .offsetSeconds seconds =>
      if valid : seconds.natAbs ≤ 86399 ∧ seconds ≠ 0 then
        some ⟨localTime, .offsetSeconds seconds, seconds, rfl, valid.2, valid.1⟩
      else none
  | .named _ => none

def newNamedResolved (localTime : CanonicalDateTime) (name : String)
    (effectiveOffsetSeconds : Int) : Option CanonicalDateTimeTz :=
  if valid : IsZoneName name ∧ effectiveOffsetSeconds.natAbs ≤ 86399 then
    some ⟨localTime, .named name, effectiveOffsetSeconds, valid⟩
  else none

def ofParts (localTime : CanonicalDateTime) (zone : TimeZoneDesignator)
    (effectiveOffsetSeconds : Int) : Option CanonicalDateTimeTz :=
  match zone with
  | .utc => if effectiveOffsetSeconds = 0 then newFixed localTime .utc else none
  | .offsetSeconds seconds =>
      if effectiveOffsetSeconds = seconds then newFixed localTime (.offsetSeconds seconds)
      else none
  | .named name => newNamedResolved localTime name effectiveOffsetSeconds

theorem parts_of_ofParts {localTime : CanonicalDateTime} {zone : TimeZoneDesignator} {offset : Int}
    {value : CanonicalDateTimeTz} (built : ofParts localTime zone offset = some value) :
    value.localTime = localTime ∧ value.zone = zone ∧ value.effectiveOffsetSeconds = offset := by
  unfold ofParts at built
  cases zone with
  | utc =>
    simp only [newFixed] at built
    split_ifs at built with isZero
    obtain rfl := Option.some.inj built
    exact ⟨rfl, rfl, isZero.symm⟩
  | offsetSeconds seconds =>
    simp only [newFixed] at built
    split_ifs at built with same valid
    obtain rfl := Option.some.inj built
    exact ⟨rfl, rfl, same.symm⟩
  | named name =>
    simp only [newNamedResolved] at built
    split_ifs at built with valid
    obtain rfl := Option.some.inj built
    exact ⟨rfl, rfl, rfl⟩

theorem ofParts_parts (value : CanonicalDateTimeTz) :
    ofParts value.localTime value.zone value.effectiveOffsetSeconds = some value := by
  obtain ⟨localTime, zone, offset, selected⟩ := value
  unfold ofParts
  cases zone with
  | utc =>
    obtain rfl : offset = 0 := selected
    rfl
  | offsetSeconds seconds =>
    obtain ⟨rfl, nonzero, bounded⟩ := selected
    simp only [newFixed, ↓reduceIte]
    rw [dif_pos ⟨bounded, nonzero⟩]
  | named name => exact dif_pos selected

def offsetText (seconds : Int) : List Char :=
  let absolute := seconds.natAbs
  (if seconds < 0 then '-' else '+') :: (fixedText 2 (absolute / 3600) ++
    ':' :: (fixedText 2 (absolute % 3600 / 60) ++
      if absolute % 60 = 0 then [] else ':' :: fixedText 2 (absolute % 60)))

def zoneText : TimeZoneDesignator → List Char
  | .utc => ['Z']
  | .named name => '[' :: (name.toList ++ [']'])
  | .offsetSeconds seconds => offsetText seconds

/-- How a datetime with a zone is written. -/
def text (value : CanonicalDateTimeTz) : List Char := value.localTime.text ++ zoneText value.zone

def ofClock (sign : Char) (hours minutes seconds : List Char) :
    Option Int := do
  guard (sign = '+' ∨ sign = '-')
  let hours ← readNatural hours
  let minutes ← readNatural minutes
  let seconds ← readNatural seconds
  guard (hours ≤ 23 ∧ minutes ≤ 59 ∧ seconds ≤ 59)
  return signedValue (sign = '-') (hours * 3600 + minutes * 60 + seconds)

def parseFixedOffsetSeconds : List Char → Option Int
  | [sign, h, i, ':', m, n] => ofClock sign [h, i] [m, n] ['0']
  | [sign, h, i, ':', m, n, ':', s, t] => ofClock sign [h, i] [m, n] [s, t]
  | _ => none

def splitOffsetAt (value : List Char) (width : Nat) : Option (List Char × Int) :=
  if width ≤ value.length then
    (parseFixedOffsetSeconds (value.drop (value.length - width))).map
      fun seconds => (value.take (value.length - width), seconds)
  else none

/-- The local part and the zone of a text. -/
def splitZone (value : List Char) : Option (List Char × TimeZoneDesignator) :=
  if value.getLast? = some 'Z' then some (value.dropLast, .utc)
  else if value.getLast? = some ']' then none
  else ([9, 6].findSome? (splitOffsetAt value)).map fun parts => (parts.1, .offsetSeconds parts.2)

/-- Read a datetime in UTC or with an offset. -/
def ofText (value : List Char) : Option CanonicalDateTimeTz := do
  guard (isAscii value)
  let (localText, zone) ← splitZone value
  let localTime ← CanonicalDateTime.ofText localText
  let parsed ← newFixed localTime zone
  recheck text value parsed

/-- The zone of a datetime is not a named one. -/
def IsFixed (value : CanonicalDateTimeTz) : Prop := ∀ name, value.zone ≠ .named name

variable {value : List Char} {parsed : CanonicalDateTimeTz}

theorem text_of_ofText (reads : ofText value = some parsed) : parsed.text = value := by
  simp only [ofText, Option.bind_eq_bind, Option.bind_eq_some_iff] at reads
  obtain ⟨_, -, _, -, _, -, _, -, checked⟩ := reads
  exact (recheck_eq_some_iff.mp checked).2

theorem isFixed_of_ofText (reads : ofText value = some parsed) : parsed.IsFixed := by
  simp only [ofText, Option.bind_eq_bind, Option.bind_eq_some_iff] at reads
  obtain ⟨_, -, ⟨_, zone⟩, -, localTime, -, built, isBuilt, checked⟩ := reads
  obtain ⟨rfl, -⟩ := recheck_eq_some_iff.mp checked
  intro name named
  unfold newFixed at isBuilt
  cases zone with
  | utc =>
    obtain rfl := Option.some.inj isBuilt
    cases named
  | offsetSeconds seconds =>
    simp only at isBuilt
    split_ifs at isBuilt
    obtain rfl := Option.some.inj isBuilt
    cases named
  | named other => cases isBuilt

theorem natAbs_effectiveOffsetSeconds_le (value : CanonicalDateTimeTz) :
    value.effectiveOffsetSeconds.natAbs ≤ 86399 := by
  obtain ⟨localTime, zone, offset, selected⟩ := value
  cases zone with
  | utc =>
    obtain rfl : offset = 0 := selected
    simp
  | offsetSeconds seconds =>
    obtain ⟨rfl, -, bounded⟩ := selected
    exact bounded
  | named name => exact selected.2

end CanonicalDateTimeTz

/-! ## Durations -/

/-- A number below a bound that is written as the text. -/
def canonicalUnsigned (text : List Char) : Option Nat := do
  let number ← readNatural text
  guard (number < 2 ^ 64)
  recheck naturalText text number

theorem canonicalUnsigned_naturalText {number : Nat} (fits : number < 2 ^ 64) :
    canonicalUnsigned (naturalText number) = some number := by
  unfold canonicalUnsigned
  simp only [readNatural_naturalText, Option.bind_eq_bind, Option.bind_some, guard, if_pos fits]
  exact recheck_eq_some_iff.mpr ⟨rfl, rfl⟩

namespace CanonicalDuration

/-- Whether all components are zero. -/
def isZero (months days seconds nanosecond : Nat) : Bool :=
  months = 0 && days = 0 && seconds = 0 && nanosecond = 0

/-- Check the components of a duration; zero loses its sign. -/
def new (negative : Bool) (months days seconds nanosecond : Nat) : Option CanonicalDuration :=
  if valid : (months < 2 ^ 64 ∧ days < 2 ^ 64 ∧ seconds < 2 ^ 64) ∧ nanosecond < 10 ^ 9 then
    some {
      negative := negative && !isZero months days seconds nanosecond
      months := months
      days := days
      seconds := seconds
      nanosecond := nanosecond
      monthsFit := valid.1.1
      daysFit := valid.1.2.1
      secondsFit := valid.1.2.2
      nanosecondInRange := valid.2
      noNegativeZero := by
        intro isNegative allZero
        simp [isZero, allZero] at isNegative
    }
  else none

def componentText (number : Nat) (designator : Char) : List Char :=
  if number = 0 then [] else naturalText number ++ [designator]

/-- The months and days. -/
def dateText (value : CanonicalDuration) : List Char :=
  componentText value.months 'M' ++ componentText value.days 'D'

/-- The seconds, after their designator. -/
def timeText (value : CanonicalDuration) : List Char :=
  naturalText value.seconds ++ secondFraction value.nanosecond ++ ['S']

/-- The time is left out if it is zero and months or days are not. -/
def hasTime (value : CanonicalDuration) : Bool :=
  value.seconds ≠ 0 || value.nanosecond ≠ 0 ||
    (value.months = 0 && value.days = 0)

/-- What stands after the designator of a duration. -/
def body (value : CanonicalDuration) : List Char :=
  value.dateText ++ if value.hasTime then 'T' :: value.timeText else []

def text (value : CanonicalDuration) : List Char :=
  (if value.negative then ['-'] else []) ++ 'P' :: value.body

def takeComponent (designator : Char) (text : List Char) : Option (Nat × List Char) :=
  match splitOnce designator text with
  | some (digits, rest) => (canonicalUnsigned digits).map fun number => (number, rest)
  | none => some (0, text)

/-- Read the months and days. -/
def ofDateText (date : List Char) : Option (Nat × Nat) := do
  let (months, rest) ← takeComponent 'M' date
  let (days, rest) ← takeComponent 'D' rest
  guard (rest = [] ∧ ¬ (months = 0 ∧ 'M' ∈ date) ∧ ¬ (days = 0 ∧ 'D' ∈ date))
  return (months, days)

/-- Read seconds and nanoseconds, without trailing zeros. -/
def ofSecondsText (seconds : List Char) : Option (Nat × Nat) :=
  match splitOnce '.' seconds with
  | some (whole, fraction) => do
      guard (fraction.getLast? ≠ some '0')
      let nanosecond ← readFraction 9 fraction
      let whole ← canonicalUnsigned whole
      return (whole, nanosecond)
  | none => (canonicalUnsigned seconds).map fun whole => (whole, 0)

def ofTimeText : Option (List Char) → Option (Nat × Nat)
  | none => some (0, 0)
  | some time => do
      guard (time.getLast? = some 'S')
      ofSecondsText time.dropLast

/-- The sign of a text and what follows. -/
def stripMinus : List Char → Bool × List Char
  | '-' :: rest => (true, rest)
  | text => (false, text)

/-- The text of months and days, and that of the time if there is one. -/
def splitTime (body : List Char) : List Char × Option (List Char) :=
  match splitOnce 'T' body with
  | some (date, time) => (date, some time)
  | none => (body, none)

/-- Read what stands after the designator of a duration. -/
def ofBody (negative : Bool) (body : List Char) : Option CanonicalDuration :=
  if body = ['T', '0', 'S'] then new negative 0 0 0 0
  else do
    let (months, days) ← ofDateText (splitTime body).1
    let (seconds, nanosecond) ← ofTimeText (splitTime body).2
    guard (¬ isZero months days seconds nanosecond)
    new negative months days seconds nanosecond

def ofText (value : List Char) : Option CanonicalDuration :=
  match stripMinus value with
  | (negative, 'P' :: body) => do
      let parsed ← ofBody negative body
      recheck text value parsed
  | _ => none

variable (value : CanonicalDuration)

theorem new_components :
    new value.negative value.months value.days value.seconds value.nanosecond = some value := by
  unfold new
  rw [dif_pos ⟨⟨value.monthsFit, value.daysFit, value.secondsFit⟩, value.nanosecondInRange⟩]
  congr 1
  refine CanonicalDuration.ext ?_ rfl rfl rfl rfl
  cases negative : value.negative with
  | false => rfl
  | true =>
    have nonzero := value.noNegativeZero negative
    simp only [isZero, Bool.true_and, Bool.not_eq_true',
      Bool.and_eq_false_iff, decide_eq_false_iff_not]
    tauto

theorem componentText_zero (designator : Char) : componentText 0 designator = [] := rfl

theorem takeComponent_componentText {number : Nat} {designator : Char} {rest : List Char}
    (fits : number < 2 ^ 64) (notDigit : designator.isDigit = false)
    (notLater : designator ∉ rest) :
    takeComponent designator (componentText number designator ++ rest) = some (number, rest) := by
  unfold takeComponent componentText
  split_ifs with isZero
  · rw [List.nil_append, splitOnce_eq_none notLater, isZero]
  · have cut := splitOnce_append ((isDigitText_naturalText number).not_mem notDigit) rest
    rw [List.append_assoc, List.singleton_append, cut]
    simp only [canonicalUnsigned_naturalText fits, Option.map_some]

theorem not_mem_componentText {number : Nat} {designator character : Char}
    (notDigit : character.isDigit = false) (differs : character ≠ designator) :
    character ∉ componentText number designator := by
  have digits : character ∉ naturalText number := (isDigitText_naturalText number).not_mem notDigit
  unfold componentText
  split_ifs <;> simp [digits, differs]

theorem ofDateText_dateText : ofDateText value.dateText = some (value.months, value.days) := by
  have takeMonths : takeComponent 'M' value.dateText =
        some (value.months, componentText value.days 'D') :=
    takeComponent_componentText value.monthsFit (by decide)
      (not_mem_componentText (by decide) (by decide))
  have takeDays : takeComponent 'D' (componentText value.days 'D') = some (value.days, []) := by
    have taken : takeComponent 'D' (componentText value.days 'D' ++ []) = some (value.days, []) :=
      takeComponent_componentText value.daysFit (by decide) List.not_mem_nil
    rwa [List.append_nil] at taken
  have noMonths : ¬ (value.months = 0 ∧ 'M' ∈ value.dateText) := by
    rintro ⟨isZero, isIn⟩
    rw [dateText, isZero, componentText_zero, List.nil_append] at isIn
    exact not_mem_componentText (by decide) (by decide) isIn
  have noDays : ¬ (value.days = 0 ∧ 'D' ∈ value.dateText) := by
    rintro ⟨isZero, isIn⟩
    rw [dateText, isZero, componentText_zero, List.append_nil] at isIn
    exact not_mem_componentText (by decide) (by decide) isIn
  unfold ofDateText
  simp only [takeMonths, takeDays, Option.bind_eq_bind, Option.bind_some,
    guard, noMonths, noDays, true_and, not_false_eq_true, and_self, ↓reduceIte, Option.pure_def]

theorem ofTimeText_timeText :
    ofTimeText (some value.timeText) = some (value.seconds, value.nanosecond) := by
  have noPoint : '.' ∉ naturalText value.seconds :=
    (isDigitText_naturalText value.seconds).not_mem (by decide)
  have ends : value.timeText.getLast? = some 'S' := by simp [timeText]
  have dropped : value.timeText.dropLast =
        naturalText value.seconds ++ secondFraction value.nanosecond := by simp [timeText]
  unfold ofTimeText
  simp only [ends, dropped, guard, ↓reduceIte, Option.pure_def,
    Option.bind_eq_bind, Option.bind_some]
  unfold ofSecondsText secondFraction
  split_ifs with isZero
  · rw [List.append_nil, splitOnce_eq_none noPoint, isZero]
    simp only [canonicalUnsigned_naturalText value.secondsFit, Option.map_some]
  · rw [splitOnce_append noPoint]
    simp only [guard, getLast?_fractionText, ne_eq, not_false_eq_true,
      ↓reduceIte, Option.pure_def, Option.bind_eq_bind, Option.bind_some,
      readFraction_fractionText (show 0 < 9 by decide) isZero
        value.nanosecondInRange, canonicalUnsigned_naturalText value.secondsFit]

theorem not_mem_dateText : 'T' ∉ value.dateText := by
  unfold dateText
  rw [List.mem_append, not_or]
  exact ⟨not_mem_componentText (by decide) (by decide),
    not_mem_componentText (by decide) (by decide)⟩

theorem splitTime_body : splitTime value.body = (value.dateText,
        if value.hasTime then some value.timeText else none) := by
  have notInDate := value.not_mem_dateText
  unfold splitTime body
  cases value.hasTime with
  | true => simp [splitOnce_append notInDate]
  | false => simp [splitOnce_eq_none notInDate]

theorem ofDateText_splitTime :
    ofDateText (splitTime value.body).1 = some (value.months, value.days) := by
  rw [splitTime_body]
  exact value.ofDateText_dateText

theorem ofTimeText_splitTime :
    ofTimeText (splitTime value.body).2 = some (value.seconds, value.nanosecond) := by
  rw [splitTime_body]
  cases timed : value.hasTime with
  | true => exact value.ofTimeText_timeText
  | false =>
    simp only [hasTime, Bool.or_eq_false_iff, decide_eq_false_iff_not, not_not] at timed
    rw [timed.1.1, timed.1.2]
    rfl

theorem isZero_of_body {value : CanonicalDuration} (zeroBody : value.body = ['T', '0', 'S']) :
    value.months = 0 ∧ value.days = 0 ∧ value.seconds = 0 ∧ value.nanosecond = 0 := by
  have readsDate := value.ofDateText_splitTime
  have readsTime := value.ofTimeText_splitTime
  rw [zeroBody] at readsDate readsTime
  have zeroDate : ofDateText (splitTime ['T', '0', 'S']).1 = some (0, 0) := by decide
  have zeroTime : ofTimeText (splitTime ['T', '0', 'S']).2 = some (0, 0) := by decide +kernel
  obtain ⟨months, days⟩ := Prod.mk.inj (Option.some.inj (zeroDate.symm.trans readsDate))
  obtain ⟨seconds, nanosecond⟩ := Prod.mk.inj (Option.some.inj (zeroTime.symm.trans readsTime))
  exact ⟨months.symm, days.symm, seconds.symm, nanosecond.symm⟩

theorem ofBody_body : ofBody value.negative value.body = some value := by
  unfold ofBody
  split_ifs with zeroBody
  · obtain ⟨months, days, seconds, nanosecond⟩ := isZero_of_body zeroBody
    have isNew := value.new_components
    rwa [months, days, seconds, nanosecond] at isNew
  · have nonzero : ¬ isZero value.months value.days value.seconds value.nanosecond := by
      intro allZero
      simp only [isZero, Bool.and_eq_true, decide_eq_true_eq] at allZero
      obtain ⟨⟨⟨months, days⟩, seconds⟩, nanosecond⟩ := allZero
      refine zeroBody ?_
      simp only [body, dateText, hasTime, timeText, months, days, seconds, nanosecond]
      rfl
    simp only [ofDateText_splitTime, ofTimeText_splitTime, guard,
      if_pos nonzero, Option.pure_def, Option.bind_eq_bind, Option.bind_some, new_components]

theorem ofText_text : ofText value.text = some value := by
  have cut : stripMinus value.text = (value.negative, 'P' :: value.body) := by
    unfold text
    cases value.negative <;> rfl
  unfold ofText
  rw [cut]
  simp only [ofBody_body, Option.bind_eq_bind, Option.bind_some]
  exact recheck_eq_some_iff.mpr ⟨rfl, rfl⟩

theorem text_of_ofText {value : List Char} {duration : CanonicalDuration}
    (reads : ofText value = some duration) : duration.text = value := by
  unfold ofText at reads
  split at reads
  · simp only [Option.bind_eq_bind, Option.bind_eq_some_iff] at reads
    obtain ⟨parsed, -, checked⟩ := reads
    exact (recheck_eq_some_iff.mp checked).2
  · exact absurd reads (by simp)

theorem length_componentText_le {number : Nat} (designator : Char) (fits : number < 2 ^ 64) :
    (componentText number designator).length ≤ 21 := by
  have digits : (naturalText number).length ≤ 20 := length_naturalText_le (by decide) (by omega)
  unfold componentText
  split_ifs
  · simp
  · rw [List.length_append, List.length_singleton]
    omega

theorem length_text_le : value.text.length ≤ 80 := by
  have months := length_componentText_le 'M' value.monthsFit
  have days := length_componentText_le 'D' value.daysFit
  have seconds : (naturalText value.seconds).length ≤ 20 :=
    length_naturalText_le (by decide) (value.secondsFit.trans (by decide))
  have fraction := length_secondFraction_le value.nanosecond
  unfold text body dateText timeText
  cases value.negative <;> cases value.hasTime <;>
    simp only [Bool.false_eq_true, ↓reduceIte, List.length_append,
      List.length_cons, List.length_nil] <;> omega

end CanonicalDuration

/-! ## Longs and doubles -/

namespace LongValue

def text (value : LongValue) : List Char := integerText value.1

def ofText (value : List Char) : Option LongValue := do
  let parsed ← readInteger (-2 ^ 63) (2 ^ 63 - 1) value
  if inRange : -2 ^ 63 ≤ parsed ∧ parsed < 2 ^ 63 then recheck text value ⟨parsed, inRange⟩
  else none

theorem ofText_text (value : LongValue) : ofText (text value) = some value := by
  obtain ⟨integer, above, below⟩ := value
  have reads : readInteger (-2 ^ 63) (2 ^ 63 - 1) (integerText integer) = some integer :=
    readInteger_integerText above (by omega)
  unfold ofText text
  simp only [reads, Option.bind_eq_bind, Option.bind_some]
  rw [dif_pos ⟨above, below⟩]
  exact recheck_eq_some_iff.mpr ⟨rfl, rfl⟩

theorem text_of_ofText {value : List Char} {long : LongValue} (reads : ofText value = some long) :
    text long = value := by
  simp only [ofText, Option.bind_eq_bind, Option.bind_eq_some_iff] at reads
  obtain ⟨parsed, -, checked⟩ := reads
  split at checked
  · exact (recheck_eq_some_iff.mp checked).2
  · exact absurd checked (by simp)

theorem length_text_le (value : LongValue) : (text value).length ≤ 20 := by
  obtain ⟨integer, above, below⟩ := value
  have digits : (naturalText integer.natAbs).length ≤ 19 :=
    length_naturalText_le (by decide) (by omega)
  unfold text integerText
  split_ifs
  · rw [List.length_cons]
    exact Nat.succ_le_succ digits
  · exact digits.trans (by decide)

end LongValue

namespace CanonicalDouble

def bitsHex (double : CanonicalDouble) : List Char := (fixedDigits 16 16 double.bits).map hexChar

def fromBits (bits : Nat) : Option CanonicalDouble :=
  if valid : bits < 2 ^ 64 ∧ bits / 2 ^ 52 % 2 ^ 11 ≠ 2047 then some ⟨bits, valid.1, valid.2⟩
  else none

def ofHex (bits : List Char) : Option CanonicalDouble := do
  guard (bits.length = 16)
  let digits ← bits.mapM charHex
  fromBits (digitsNumber 16 digits)

theorem length_bitsHex (double : CanonicalDouble) : double.bitsHex.length = 16 := by
  unfold bitsHex
  rw [List.length_map, length_fixedDigits]

theorem ofHex_bitsHex (double : CanonicalDouble) : ofHex double.bitsHex = some double := by
  have reads : double.bitsHex.mapM charHex = some (fixedDigits 16 16 double.bits) :=
    mapM_map_symbol (fun _ isDigit => charHex_hexChar isDigit)
      fun _ isIn => lt_of_mem_fixedDigits (by decide) isIn
  unfold ofHex
  simp only [length_bitsHex, reads, guard, ↓reduceIte, Option.pure_def,
    Option.bind_eq_bind, Option.bind_some]
  have fits : double.bits < 16 ^ 16 := double.fits
  rw [digitsNumber_fixedDigits fits, fromBits, dif_pos ⟨double.fits, double.finite⟩]

theorem bitsHex_of_ofHex {bits : List Char} {double : CanonicalDouble}
    (reads : ofHex bits = some double) : double.bitsHex = bits := by
  simp only [ofHex, Option.bind_eq_bind, Option.bind_eq_some_iff] at reads
  obtain ⟨_, isLength, digits, readsDigits, isDouble⟩ := reads
  have isLength : bits.length = 16 := by simpa [guard] using isLength
  obtain ⟨rfl, areDigits⟩ :=
    map_symbol_of_mapM (fun _ _ reads => hexChar_of_charHex reads) readsDigits
  unfold fromBits at isDouble
  split at isDouble
  · obtain rfl := Option.some.inj isDouble
    rw [List.length_map] at isLength
    have restored := fixedDigits_digitsNumber areDigits
    rw [isLength] at restored
    exact congrArg (List.map hexChar) restored
  · exact absurd isDouble (by simp)

end CanonicalDouble

/-! ## Temporal texts -/

theorem isAscii_of_not_mem {text : List Char}
    (absent : ∀ character : Char, character.isDigit = false →
      (∀ other : Char, other.toNat < 128 → character ≠ other) → character ∉ text) :
    isAscii text = true := by
  refine List.all_eq_true.mpr fun character isIn => decide_eq_true ?_
  by_contra wide
  refine absent character ?_ ?_ isIn
  · simp only [Char.isDigit, Bool.and_eq_false_iff, decide_eq_false_iff_not]
    exact .inr fun below => wide (Nat.lt_of_le_of_lt (UInt32.le_iff_toNat_le.mp below) (by decide))
  · rintro other small rfl
    exact wide small

namespace CanonicalDateTimeTz

section Offset

variable {seconds : Int}

theorem offsetText_of_whole (whole : seconds.natAbs % 60 = 0) :
    offsetText seconds = (if seconds < 0 then '-' else '+') ::
      (fixedText 2 (seconds.natAbs / 3600) ++ ':' :: fixedText 2 (seconds.natAbs % 3600 / 60)) := by
  simp [offsetText, whole]

theorem offsetText_of_seconds (some : seconds.natAbs % 60 ≠ 0) :
    offsetText seconds = (if seconds < 0 then '-' else '+') ::
      (fixedText 2 (seconds.natAbs / 3600) ++ ':' :: (fixedText 2 (seconds.natAbs % 3600 / 60) ++
        ':' :: fixedText 2 (seconds.natAbs % 60))) := by
  simp [offsetText, some]

theorem not_mem_offsetText {character : Char} (notDigit : character.isDigit = false)
    (notPlus : character ≠ '+') (notMinus : character ≠ '-') (notColon : character ≠ ':') :
    character ∉ offsetText seconds := by
  have fixed : ∀ number, character ∉ fixedText 2 number := fun number =>
    (isDigitText_fixedText 2 number).not_mem notDigit
  have notSign : character ≠ if seconds < 0 then '-' else '+' := by
    split_ifs
    · exact notMinus
    · exact notPlus
  by_cases whole : seconds.natAbs % 60 = 0
  · rw [offsetText_of_whole whole]
    simp [fixed, notColon, notSign]
  · rw [offsetText_of_seconds whole]
    simp [fixed, notColon, notSign]

variable (bounded : seconds.natAbs ≤ 86399)

include bounded in
theorem ofClock_fixedText {last : List Char}
    (reads : readNatural last = some (seconds.natAbs % 60)) :
    ofClock (if seconds < 0 then '-' else '+') (fixedText 2 (seconds.natAbs / 3600))
      (fixedText 2 (seconds.natAbs % 3600 / 60)) last = some seconds := by
  unfold ofClock
  rw [readNatural_fixedText (by decide) (by omega), readNatural_fixedText (by decide) (by omega),
    reads]
  have fields : seconds.natAbs / 3600 ≤ 23 ∧ seconds.natAbs % 3600 / 60 ≤ 59 ∧
      seconds.natAbs % 60 ≤ 59 := by omega
  have total : seconds.natAbs / 3600 * 3600 + seconds.natAbs % 3600 / 60 * 60 +
      seconds.natAbs % 60 = seconds.natAbs := by omega
  simp only [Option.bind_eq_bind, Option.bind_some, guard, if_pos fields, Option.pure_def, total]
  by_cases negative : seconds < 0
  · simp [negative, signedValue, abs_of_neg negative]
  · simp [negative, signedValue, abs_of_nonneg (not_lt.mp negative)]

include bounded in
theorem parseFixedOffsetSeconds_offsetText :
    parseFixedOffsetSeconds (offsetText seconds) = some seconds := by
  by_cases whole : seconds.natAbs % 60 = 0
  · rw [offsetText_of_whole whole]
    exact ofClock_fixedText bounded (by rw [whole]; decide)
  · rw [offsetText_of_seconds whole]
    have reads : readNatural (fixedText 2 (seconds.natAbs % 60)) = some (seconds.natAbs % 60) :=
      readNatural_fixedText (by decide) (by omega)
    exact ofClock_fixedText bounded reads

theorem splitOffsetAt_append (before offset : List Char) :
    splitOffsetAt (before ++ offset) offset.length =
      (parseFixedOffsetSeconds offset).map fun seconds => (before, seconds) := by
  unfold splitOffsetAt
  rw [if_pos (by simp), List.length_append, Nat.add_sub_cancel, List.drop_left, List.take_left]

theorem splitOffsetAt_nine (whole : seconds.natAbs % 60 = 0) (before : List Char) :
    splitOffsetAt (before ++ offsetText seconds) 9 = none := by
  obtain ⟨sign, isSign, isText⟩ : ∃ sign, (sign = '-' ∨ sign = '+') ∧ offsetText seconds = sign ::
      (fixedText 2 (seconds.natAbs / 3600) ++ ':' :: fixedText 2 (seconds.natAbs % 3600 / 60)) :=
    ⟨_, ite_eq_or_eq _ _ _, offsetText_of_whole whole⟩
  have short : (offsetText seconds).length = 6 := by
    rw [isText]
    rfl
  unfold splitOffsetAt
  rw [List.length_append, short]
  by_cases wide : 9 ≤ before.length + 6
  · rw [if_pos wide, show before.length + 6 - 9 = before.length - 3 by omega,
      List.drop_append_of_le_length (by omega)]
    have three : (before.drop (before.length - 3)).length = 3 := by
      rw [List.length_drop]
      omega
    obtain ⟨first, second, third, isThree⟩ := List.length_eq_three.mp three
    rw [isThree, isText]
    rcases isSign with rfl | rfl
    · rfl
    · rfl
  · exact if_neg wide

include bounded in
theorem splitZone_offsetText (before : List Char) :
    splitZone (before ++ offsetText seconds) = some (before, .offsetSeconds seconds) := by
  have notLast : ∀ character ∉ offsetText seconds,
      (before ++ offsetText seconds).getLast? ≠ some character := by
    intro character absent isLast
    rw [List.getLast?_append_of_ne_nil _ (by simp [offsetText])] at isLast
    exact absent (List.mem_of_getLast? isLast)
  have reads := splitOffsetAt_append before (offsetText seconds)
  rw [parseFixedOffsetSeconds_offsetText bounded, Option.map_some] at reads
  unfold splitZone
  rw [if_neg (notLast _ (not_mem_offsetText rfl (by decide) (by decide) (by decide))),
    if_neg (notLast _ (not_mem_offsetText rfl (by decide) (by decide) (by decide)))]
  by_cases whole : seconds.natAbs % 60 = 0
  · rw [show (offsetText seconds).length = 6 by rw [offsetText_of_whole whole]; rfl] at reads
    simp [splitOffsetAt_nine whole before, reads]
  · rw [show (offsetText seconds).length = 9 by rw [offsetText_of_seconds whole]; rfl] at reads
    simp [reads]

end Offset

variable {value : CanonicalDateTimeTz}

theorem isAscii_text (fixed : value.IsFixed) : isAscii value.text = true := by
  refine isAscii_of_not_mem fun character notDigit differs => ?_
  have notInZone : character ∉ zoneText value.zone := by
    cases zone : value.zone with
    | utc => simp [zoneText, differs 'Z' (by decide)]
    | named name => exact absurd zone (fixed name)
    | offsetSeconds seconds =>
      exact not_mem_offsetText notDigit (differs _ (by decide)) (differs _ (by decide))
        (differs _ (by decide))
  unfold text CanonicalDateTime.text
  simp [value.localTime.date.not_mem_text notDigit (differs _ (by decide)) (differs _ (by decide)),
    value.localTime.time.not_mem_text notDigit (differs _ (by decide)) (differs _ (by decide)),
    differs 'T' (by decide), notInZone]

theorem ofText_text (fixed : value.IsFixed) : ofText value.text = some value := by
  have split : splitZone value.text = some (value.localTime.text, value.zone) := by
    unfold text
    cases zone : value.zone with
    | utc => simp [splitZone, zoneText]
    | named name => exact absurd zone (fixed name)
    | offsetSeconds seconds =>
      have selected := value.selected
      rw [zone] at selected
      exact splitZone_offsetText selected.2.2 _
  have built : newFixed value.localTime value.zone = some value := by
    have parts := value.ofParts_parts
    unfold ofParts at parts
    cases zone : value.zone with
    | named name => exact absurd zone (fixed name)
    | utc | offsetSeconds seconds =>
      rw [zone] at parts
      simp only at parts
      split_ifs at parts
      exact parts
  unfold ofText
  rw [isAscii_text fixed, split]
  simp [CanonicalDateTime.ofText_text, built, recheck]

end CanonicalDateTimeTz

/-- In each temporal domain the accepted texts are those written for its values, one for each. -/
theorem temporal_texts_bijective (text : List Char) :
    (∀ value : CanonicalDate, CanonicalDate.ofText text = some value ↔ value.text = text) ∧
      (∀ value : CanonicalTime, CanonicalTime.ofText text = some value ↔ value.text = text) ∧
      (∀ value : CanonicalDateTime,
        CanonicalDateTime.ofText text = some value ↔ value.text = text) ∧
      (∀ value : CanonicalDateTimeTz,
        CanonicalDateTimeTz.ofText text = some value ↔ value.IsFixed ∧ value.text = text) ∧
      ∀ value : CanonicalDuration,
        CanonicalDuration.ofText text = some value ↔ value.text = text := by
  refine ⟨fun value => ⟨CanonicalDate.text_of_ofText, ?_⟩,
    fun value => ⟨CanonicalTime.text_of_ofText, ?_⟩,
    fun value => ⟨CanonicalDateTime.text_of_ofText, ?_⟩,
    fun value => ⟨fun reads => ⟨CanonicalDateTimeTz.isFixed_of_ofText reads,
      CanonicalDateTimeTz.text_of_ofText reads⟩, ?_⟩,
    fun value => ⟨CanonicalDuration.text_of_ofText, ?_⟩⟩
  · rintro rfl
    exact value.ofText_text
  · rintro rfl
    exact value.ofText_text
  · rintro rfl
    exact value.ofText_text
  · rintro ⟨fixed, rfl⟩
    exact CanonicalDateTimeTz.ofText_text fixed
  · rintro rfl
    exact value.ofText_text

end TypeBridge.Schema
