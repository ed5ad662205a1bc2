import TypeBridge.Schema.ScalarText

namespace TypeBridge.Schema

open Library

/-!
# The calendar as an order

Dates are compared component by component in one place and by a count of days
in another one. The count runs through the months: the first day of a month
comes as many days after the first day of the month before as that one has. So
both comparisons agree, and both extend to times and offsets.
-/

/-! ## Comparing sums -/

theorem cmp_natCast (first second : Nat) : cmp (first : Int) (second : Int) = cmp first second := by
  simp only [cmp, cmpUsing, Nat.cast_lt]

theorem cmp_add_right (first second shift : Int) :
    cmp (first + shift) (second + shift) = cmp first second := by
  simp only [cmp, cmpUsing, add_lt_add_iff_right]

theorem cmp_mul_add {unit first second third fourth : Int} (firstSmall : 0 ≤ third ∧ third < unit)
    (secondSmall : 0 ≤ fourth ∧ fourth < unit) :
    cmp (unit * first + third) (unit * second + fourth) =
      (cmp first second).then (cmp third fourth) := by
  rcases lt_trichotomy first second with less | equal | greater
  · have smaller : unit * first + third < unit * second + fourth := by nlinarith
    rw [(cmp_eq_lt_iff _ _).mpr less, (cmp_eq_lt_iff _ _).mpr smaller]
    rfl
  · subst equal
    rw [cmp_self_eq_eq, Ordering.eq_then, add_comm, add_comm _ fourth, cmp_add_right]
  · have larger : unit * second + fourth < unit * first + third := by nlinarith
    rw [(cmp_eq_gt_iff _ _).mpr greater, (cmp_eq_gt_iff _ _).mpr larger]
    rfl

/-! ## Months in a row -/

/-- The days up to the first day of a month, in a year that starts in March. -/
def monthStart (year : Int) (month : Nat) : Int :=
  let adjustedYear := year - if month ≤ 2 then 1 else 0
  let adjustedMonth : Int := month + if 2 < month then -3 else 9
  365 * adjustedYear + adjustedYear / 4 - adjustedYear / 100 +
    adjustedYear / 400 + (153 * adjustedMonth + 2) / 5

theorem era_eq (year : Int) :
    Int.tdiv (if 0 ≤ year then year else year - 399) 400 = year / 400 := by
  split_ifs with positive
  · exact Int.tdiv_eq_ediv_of_nonneg positive
  · have flipped : year - 399 = -(399 - year) := by ring
    rw [flipped, Int.neg_tdiv, Int.tdiv_eq_ediv_of_nonneg (by omega)]
    omega

theorem dateOrderKey_eq (date : CanonicalDate) :
    dateOrderKey date = monthStart date.year date.month + date.day - 1 := by
  obtain ⟨monthPositive, -, -, -⟩ := date.component_bounds
  unfold dateOrderKey monthStart
  simp only [era_eq]
  generalize date.year - (if date.month ≤ 2 then 1 else 0) = adjustedYear
  have remainder : 0 ≤ adjustedYear - adjustedYear / 400 * 400 := by omega
  have adjustedMonth : (0 : Int) ≤ 153 * (date.month + if 2 < date.month then -3 else 9) + 2 := by
    split_ifs <;> omega
  rw [Int.tdiv_eq_ediv_of_nonneg remainder, Int.tdiv_eq_ediv_of_nonneg remainder,
    Int.tdiv_eq_ediv_of_nonneg adjustedMonth]
  omega

variable {month : Nat}

theorem monthStart_succ (year : Int) (positive : 0 < month) (notLast : month < 12) :
    monthStart year (month + 1) = monthStart year month + maxDay year month := by
  unfold monthStart maxDay
  interval_cases month <;> simp <;> omega

theorem monthStart_next_year (year : Int) :
    monthStart (year + 1) 1 = monthStart year 12 + maxDay year 12 := by
  unfold monthStart maxDay
  simp
  omega

/-- The months in one row, and the days up to the first day of each. -/
def rowStart (row : Int) : Int := monthStart (row / 12) ((row % 12).toNat + 1)

def CanonicalDate.row (date : CanonicalDate) : Int := 12 * date.year + date.month - 1

theorem rowStart_row (date : CanonicalDate) :
    rowStart date.row = monthStart date.year date.month := by
  obtain ⟨positive, bounded, -, -⟩ := date.component_bounds
  unfold rowStart CanonicalDate.row
  congr 1 <;> omega

theorem maxDay_pos (year : Int) (positive : 0 < month) (bounded : month ≤ 12) :
    0 < maxDay year month := by
  unfold maxDay
  interval_cases month <;> simp
  split_ifs <;> decide

theorem rowStart_succ (row : Int) :
    rowStart (row + 1) = rowStart row + maxDay (row / 12) ((row % 12).toNat + 1) := by
  unfold rowStart
  by_cases isLast : row % 12 = 11
  · have year : (row + 1) / 12 = row / 12 + 1 := by omega
    have next : ((row + 1) % 12).toNat + 1 = 1 := by omega
    have last : (row % 12).toNat + 1 = 12 := by omega
    rw [year, next, last, monthStart_next_year]
  · have year : (row + 1) / 12 = row / 12 := by omega
    have next : ((row + 1) % 12).toNat + 1 = (row % 12).toNat + 1 + 1 := by omega
    rw [year, next, monthStart_succ _ (by omega) (by omega)]

theorem rowStart_strictMono : StrictMono rowStart := by
  refine strictMono_int_of_lt_succ fun row => ?_
  have days : 0 < maxDay (row / 12) ((row % 12).toNat + 1) := maxDay_pos _ (by omega) (by omega)
  rw [rowStart_succ]
  omega

theorem dateOrderKey_bounds (date : CanonicalDate) :
    rowStart date.row ≤ dateOrderKey date ∧ dateOrderKey date < rowStart (date.row + 1) := by
  obtain ⟨positive, bounded, dayPositive, -⟩ := date.component_bounds
  have year : date.row / 12 = date.year := by
    unfold CanonicalDate.row
    omega
  have month : (date.row % 12).toNat + 1 = date.month := by
    unfold CanonicalDate.row
    omega
  have days := date.dayInRange.2
  rw [rowStart_succ, year, month, rowStart_row, dateOrderKey_eq]
  omega

theorem CanonicalDate.compare_eq_row (first second : CanonicalDate) :
    first.compare second = (cmp first.row second.row).then (cmp first.day second.day) := by
  obtain ⟨firstPositive, firstBounded, -, -⟩ := first.component_bounds
  obtain ⟨secondPositive, secondBounded, -, -⟩ := second.component_bounds
  have rows : cmp first.row second.row =
        (cmp first.year second.year).then (cmp first.month second.month) := by
    unfold CanonicalDate.row
    rw [add_sub_assoc, add_sub_assoc, cmp_mul_add (by omega) (by omega),
      sub_eq_add_neg, sub_eq_add_neg, cmp_add_right, cmp_natCast]
  unfold CanonicalDate.compare
  rw [rows, Ordering.then_assoc]

variable {later : CanonicalDate}

theorem dateOrderKey_lt_of_row_lt {earlier : CanonicalDate} (less : earlier.row < later.row) :
    dateOrderKey earlier < dateOrderKey later :=
  calc dateOrderKey earlier < rowStart (earlier.row + 1) := (dateOrderKey_bounds earlier).2
    _ ≤ rowStart later.row := rowStart_strictMono.monotone less
    _ ≤ dateOrderKey later := (dateOrderKey_bounds later).1

theorem cmp_dateOrderKey (first second : CanonicalDate) :
    cmp (dateOrderKey first) (dateOrderKey second) = first.compare second := by
  rw [CanonicalDate.compare_eq_row]
  rcases lt_trichotomy first.row second.row with less | same | greater
  · rw [(cmp_eq_lt_iff _ _).mpr less, (cmp_eq_lt_iff _ _).mpr (dateOrderKey_lt_of_row_lt less)]
    rfl
  · have firstKey : dateOrderKey first = first.day + (rowStart first.row - 1) := by
      rw [rowStart_row, dateOrderKey_eq]
      ring
    have secondKey : dateOrderKey second = second.day + (rowStart first.row - 1) := by
      rw [same, rowStart_row, dateOrderKey_eq]
      ring
    rw [firstKey, secondKey, cmp_add_right, cmp_natCast, same, cmp_self_eq_eq, Ordering.eq_then]
  · rw [(cmp_eq_gt_iff _ _).mpr greater,
      (cmp_eq_gt_iff _ _).mpr (dateOrderKey_lt_of_row_lt greater)]
    rfl

/-! ## Counting days -/

/-- The seconds of a day before a time. -/
def CanonicalTime.seconds (time : CanonicalTime) : Int :=
  time.hour * 3600 + time.minute * 60 + time.second

/-- The next day of the calendar. -/
def CanonicalDate.IsNext (date next : CanonicalDate) : Prop :=
  (next.year = date.year ∧ next.month = date.month ∧ next.day = date.day + 1) ∨
    date.day = maxDay date.year date.month ∧ next.day = 1 ∧
      (next.year = date.year ∧ next.month = date.month + 1 ∨
        next.year = date.year + 1 ∧ date.month = 12 ∧ next.month = 1)

inductive CanonicalDate.DaysLater : CanonicalDate → Nat → CanonicalDate → Prop where
  | same (date : CanonicalDate) : DaysLater date 0 date
  | next {date later last : CanonicalDate} {count : Nat} (isNext : date.IsNext later)
      (rest : DaysLater later count last) : DaysLater date (count + 1) last

/-- So many days later, or earlier for a negative number. -/
def CanonicalDate.DaysApart (date : CanonicalDate) (count : Int) (other : CanonicalDate) : Prop :=
  ∃ days : Nat, count = days ∧ date.DaysLater days other ∨ count = -days ∧ other.DaysLater days date

variable {date next : CanonicalDate}

theorem dateOrderKey_of_isNext (isNext : date.IsNext next) :
    dateOrderKey next = dateOrderKey date + 1 := by
  obtain ⟨positive, bounded, -, -⟩ := date.component_bounds
  rw [dateOrderKey_eq, dateOrderKey_eq]
  rcases isNext with ⟨year, month, day⟩ | ⟨lastDay, firstDay, sameYear | newYear⟩
  · rw [year, month, day]
    push_cast
    ring
  · have notLast : date.month < 12 := by
      have := next.component_bounds.2.1
      omega
    rw [sameYear.1, sameYear.2, monthStart_succ _ positive notLast, lastDay, firstDay]
    push_cast
    ring
  · rw [newYear.1, newYear.2.2, monthStart_next_year, newYear.2.1, firstDay, lastDay, newYear.2.1]
    push_cast
    ring

variable {last : CanonicalDate}

theorem dateOrderKey_of_daysLater {count : Nat} (later : date.DaysLater count last) :
    dateOrderKey last = dateOrderKey date + count := by
  induction later with
  | same => simp
  | next isNext _ ih =>
    rw [ih, dateOrderKey_of_isNext isNext]
    push_cast
    ring

/-- A day that is not the last one of all has a next day. -/
theorem CanonicalDate.exists_isNext (less : dateOrderKey date < dateOrderKey later) :
    ∃ next, date.IsNext next := by
  obtain ⟨positive, bounded, dayPositive, -⟩ := date.component_bounds
  by_cases inMonth : date.day < maxDay date.year date.month
  · exact ⟨⟨date.year, date.month, date.day + 1, date.yearInRange, by omega, inMonth⟩,
      .inl ⟨rfl, rfl, rfl⟩⟩
  have lastDay : date.day = maxDay date.year date.month := by
    have := date.dayInRange.2
    omega
  by_cases inYear : date.month < 12
  · exact ⟨⟨date.year, date.month + 1, 1, date.yearInRange, by omega,
      maxDay_pos _ (by omega) (by omega)⟩, .inr ⟨lastDay, rfl, .inl ⟨rfl, rfl⟩⟩⟩
  -- the later day lies in a later year, so the next year is in range
  have december : date.month = 12 := by omega
  have nextYear : date.year + 1 ≤ later.year := by
    by_contra notLater
    have rows : later.row ≤ date.row := by
      have := later.component_bounds.2.1
      unfold CanonicalDate.row
      omega
    rcases rows.lt_or_eq with earlier | sameRow
    · exact absurd (dateOrderKey_lt_of_row_lt earlier) (by omega)
    · have start : monthStart later.year later.month = monthStart date.year date.month := by
        rw [← rowStart_row, ← rowStart_row, sameRow]
      have laterDay := later.dayInRange.2
      have sameMonth : later.year = date.year ∧ later.month = date.month := by
        have := later.component_bounds
        unfold CanonicalDate.row at sameRow
        omega
      rw [dateOrderKey_eq, dateOrderKey_eq, start] at less
      rw [sameMonth.1, sameMonth.2] at laterDay
      omega
  have inRange := later.yearInRange
  have dateRange := date.yearInRange
  exact ⟨⟨date.year + 1, 1, 1, by omega, by omega, maxDay_pos _ (by omega) (by omega)⟩,
    .inr ⟨lastDay, rfl, .inr ⟨rfl, december, rfl⟩⟩⟩

variable {other : CanonicalDate}

theorem CanonicalDate.eq_of_dateOrderKey (same : dateOrderKey date = dateOrderKey other) :
    date = other := by
  apply CanonicalDate.eq_of_compare
  rw [← cmp_dateOrderKey, same, cmp_self_eq_eq]

theorem CanonicalDate.daysLater_of_dateOrderKey (count : Nat)
    (apart : dateOrderKey last = dateOrderKey date + count) : date.DaysLater count last := by
  induction count generalizing date with
  | zero =>
    obtain rfl : date = last := eq_of_dateOrderKey (by simpa using apart.symm)
    exact .same _
  | succ count ih =>
    push_cast at apart
    obtain ⟨next, isNext⟩ := exists_isNext (by omega : dateOrderKey date < dateOrderKey last)
    refine .next isNext (ih ?_)
    rw [apart, dateOrderKey_of_isNext isNext]
    ring

theorem CanonicalDate.daysApart_iff {count : Int} :
    date.DaysApart count other ↔ dateOrderKey other = dateOrderKey date + count := by
  constructor
  · rintro ⟨days, ⟨rfl, later⟩ | ⟨rfl, later⟩⟩
    · exact dateOrderKey_of_daysLater later
    · have back := dateOrderKey_of_daysLater later
      omega
  · intro apart
    refine ⟨count.natAbs, ?_⟩
    rcases Int.natAbs_eq count with forward | backward
    · exact .inl ⟨forward, daysLater_of_dateOrderKey _ (by omega)⟩
    · exact .inr ⟨backward, daysLater_of_dateOrderKey _ (by omega)⟩

/-! ## Instants -/

def CanonicalTime.nanoseconds (time : CanonicalTime) : Int :=
  time.seconds * 1000000000 + time.nanosecond

/-- The real time from one value to another: days, time of day, and offsets. -/
def CanonicalDateTimeTz.Elapsed (first second : CanonicalDateTimeTz) (nanoseconds : Int) : Prop :=
  ∃ days : Int, first.localTime.date.DaysApart days second.localTime.date ∧
    nanoseconds = days * 86400000000000 +
      (second.localTime.time.nanoseconds - first.localTime.time.nanoseconds) -
      (second.effectiveOffsetSeconds - first.effectiveOffsetSeconds) * 1000000000

/-- A local time moved by seconds, across days where it has to. -/
def CanonicalDateTime.ShiftedBy (value : CanonicalDateTime) (seconds : Int)
    (shifted : CanonicalDateTime) : Prop :=
  ∃ days : Int, value.date.DaysApart days shifted.date ∧
    shifted.time.seconds + days * 86400 = value.time.seconds + seconds ∧
    shifted.time.nanosecond = value.time.nanosecond

/-- The values computed on the way to the key of a date. -/
def dateOrderKeySteps (date : CanonicalDate) : List Int :=
  let adjustedYear := date.year - if date.month ≤ 2 then 1 else 0
  let era := Int.tdiv (if 0 ≤ adjustedYear then adjustedYear else adjustedYear - 399) 400
  let yearOfEra := adjustedYear - era * 400
  let adjustedMonth : Int := date.month + if 2 < date.month then -3 else 9
  let dayOfYear := Int.tdiv (153 * adjustedMonth + 2) 5 + date.day - 1
  [adjustedYear, adjustedYear - 399, era, era * 400, yearOfEra, adjustedMonth,
    153 * adjustedMonth, 153 * adjustedMonth + 2, Int.tdiv (153 * adjustedMonth + 2) 5 + date.day,
    dayOfYear, era * 146097, yearOfEra * 365,
    era * 146097 + yearOfEra * 365, era * 146097 + yearOfEra * 365 + Int.tdiv yearOfEra 4,
    era * 146097 + yearOfEra * 365 + Int.tdiv yearOfEra 4 - Int.tdiv yearOfEra 100,
    dateOrderKey date]

/-- The values computed on the way to an instant. -/
def CanonicalDateTimeTz.semanticUtcSteps (value : CanonicalDateTimeTz) : List Int :=
  let time := value.localTime.time
  let days := dateOrderKey value.localTime.date * 86400000000000
  [days, time.hour * 3600000000000, time.minute * 60000000000, time.second * 1000000000,
    days + time.hour * 3600000000000, days + time.hour * 3600000000000 + time.minute * 60000000000,
    days + time.hour * 3600000000000 + time.minute * 60000000000 + time.second * 1000000000,
    value.semanticUtcNanoseconds + value.effectiveOffsetSeconds * 1000000000,
    value.effectiveOffsetSeconds * 1000000000, value.semanticUtcNanoseconds]

theorem dateOrderKeySteps_bounds (date : CanonicalDate) :
    ∀ step ∈ dateOrderKeySteps date, -200000000 ≤ step ∧ step ≤ 200000000 := by
  obtain ⟨positive, bounded, dayPositive, dayBounded⟩ := date.component_bounds
  obtain ⟨low, high⟩ := date.yearInRange
  have key := dateOrderKey_eq date
  simp only [monthStart] at key
  simp only [dateOrderKeySteps, era_eq, List.forall_mem_cons, List.not_mem_nil, false_imp_iff,
    implies_true, and_true]
  have month : 0 ≤ (date.month : Int) + (if 2 < date.month then -3 else 9) ∧
      (date.month : Int) + (if 2 < date.month then -3 else 9) ≤ 11 := by
    split_ifs <;> omega
  have year : -262144 ≤ date.year - (if date.month ≤ 2 then 1 else 0) ∧
      date.year - (if date.month ≤ 2 then 1 else 0) ≤ 262142 := by
    split_ifs <;> omega
  generalize (date.month : Int) + (if 2 < date.month then -3 else 9) = adjustedMonth at *
  generalize date.year - (if date.month ≤ 2 then 1 else 0) = adjustedYear at *
  have remainder : 0 ≤ adjustedYear - adjustedYear / 400 * 400 := by omega
  rw [Int.tdiv_eq_ediv_of_nonneg remainder, Int.tdiv_eq_ediv_of_nonneg remainder,
    Int.tdiv_eq_ediv_of_nonneg (by omega : 0 ≤ 153 * adjustedMonth + 2)]
  refine ⟨?_, ?_, ?_, ?_, ?_, ?_, ?_, ?_, ?_, ?_, ?_, ?_, ?_, ?_, ?_, ?_⟩ <;> omega

theorem isNext_iff : date.IsNext next ↔ dateOrderKey next = dateOrderKey date + 1 := by
  refine ⟨dateOrderKey_of_isNext, fun isNext => ?_⟩
  obtain ⟨following, follows⟩ :=
    CanonicalDate.exists_isNext (by omega : dateOrderKey date < dateOrderKey next)
  have same := dateOrderKey_of_isNext follows
  rwa [CanonicalDate.eq_of_dateOrderKey (same.trans isNext.symm)] at follows

namespace CanonicalDateTimeTz

theorem semanticUtcNanoseconds_eq (value : CanonicalDateTimeTz) :
    value.semanticUtcNanoseconds = dateOrderKey value.localTime.date * 86400000000000 +
      value.localTime.time.nanoseconds - value.effectiveOffsetSeconds * 1000000000 := by
  unfold semanticUtcNanoseconds CanonicalTime.nanoseconds CanonicalTime.seconds
  ring

variable {first second : CanonicalDateTimeTz}

theorem elapsed_iff {nanoseconds : Int} : first.Elapsed second nanoseconds ↔
      nanoseconds = second.semanticUtcNanoseconds - first.semanticUtcNanoseconds := by
  simp only [Elapsed, CanonicalDate.daysApart_iff]
  rw [semanticUtcNanoseconds_eq, semanticUtcNanoseconds_eq]
  constructor
  · rintro ⟨days, apart, rfl⟩
    rw [apart]
    ring
  · rintro rfl
    exact ⟨_, (add_sub_cancel _ _).symm, by ring⟩

theorem shiftedBy_iff :
    first.localTime.ShiftedBy (second.effectiveOffsetSeconds - first.effectiveOffsetSeconds)
        second.localTime ↔
      first.semanticUtcNanoseconds = second.semanticUtcNanoseconds := by
  simp only [CanonicalDateTime.ShiftedBy, CanonicalDate.daysApart_iff]
  rw [semanticUtcNanoseconds_eq, semanticUtcNanoseconds_eq]
  unfold CanonicalTime.nanoseconds
  have firstSmall := first.localTime.time.inRange.2.2.2
  have secondSmall := second.localTime.time.inRange.2.2.2
  constructor
  · rintro ⟨days, apart, seconds, nanosecond⟩
    rw [apart, nanosecond]
    linarith
  · intro same
    exact ⟨_, (add_sub_cancel _ _).symm, by omega, by omega⟩

theorem semanticUtcSteps_bounds (value : CanonicalDateTimeTz) :
    ∀ step ∈ value.semanticUtcSteps, -10 ^ 23 ≤ step ∧ step ≤ 10 ^ 23 := by
  obtain ⟨hour, minute, second, nanosecond⟩ := value.localTime.time.inRange
  have offset := value.natAbs_effectiveOffsetSeconds_le
  have key := dateOrderKeySteps_bounds value.localTime.date (dateOrderKey value.localTime.date)
    (by simp [dateOrderKeySteps])
  simp only [semanticUtcSteps, semanticUtcNanoseconds, List.forall_mem_cons, List.not_mem_nil,
    false_imp_iff, implies_true, and_true]
  refine ⟨?_, ?_, ?_, ?_, ?_, ?_, ?_, ?_, ?_, ?_⟩ <;> omega

end CanonicalDateTimeTz

/--
The key of a date follows the calendar day by day, instants differ by the real time between them,
neither computation leaves its machine integer, and instants agree exactly if one local time is
the other one moved by the difference of the offsets.
-/
theorem calendar_arithmetic_correct : (∀ first second : CanonicalDate,
      cmp (dateOrderKey first) (dateOrderKey second) = first.compare second) ∧
      (∀ date next : CanonicalDate, date.IsNext next ↔ dateOrderKey next = dateOrderKey date + 1) ∧
      (∀ (date : CanonicalDate), ∀ step ∈ dateOrderKeySteps date, -2 ^ 63 ≤ step ∧ step < 2 ^ 63) ∧
      (∀ (first second : CanonicalDateTimeTz) (nanoseconds : Int),
        first.Elapsed second nanoseconds ↔
          nanoseconds = second.semanticUtcNanoseconds - first.semanticUtcNanoseconds) ∧
      (∀ (value : CanonicalDateTimeTz), ∀ step ∈ value.semanticUtcSteps,
        -2 ^ 127 ≤ step ∧ step < 2 ^ 127) ∧
      ∀ first second : CanonicalDateTimeTz,
        first.semanticUtcNanoseconds = second.semanticUtcNanoseconds ↔
          first.localTime.ShiftedBy (second.effectiveOffsetSeconds - first.effectiveOffsetSeconds)
            second.localTime := by
  refine ⟨cmp_dateOrderKey, fun _ _ => isNext_iff, fun date step isStep => ?_,
    fun _ _ _ => CanonicalDateTimeTz.elapsed_iff, fun value step isStep => ?_,
    fun _ _ => CanonicalDateTimeTz.shiftedBy_iff.symm⟩
  · have bounds := dateOrderKeySteps_bounds date step isStep
    omega
  · have bounds := value.semanticUtcSteps_bounds step isStep
    omega

/-- The day after the leap day of the year zero is the first of March. -/
theorem leap_day_of_year_zero : dateOrderKey ⟨0, 3, 1, by decide, by decide⟩ =
      dateOrderKey ⟨0, 2, 29, by decide, by decide⟩ + 1 :=
  (calendar_arithmetic_correct.2.1 _ _).mp (.inr ⟨by decide, rfl, .inl ⟨rfl, rfl⟩⟩)

end TypeBridge.Schema
