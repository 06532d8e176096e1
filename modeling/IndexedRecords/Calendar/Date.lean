/-!
# Dates

Days of the proleptic Gregorian calendar from the year 1 to the year 9999, their position in the
count of days, and the way back from the count. Main statements: a month starts where the one before
it ends (`daysBeforeMonth_succ`), and a year where the one before it ends (`daysBeforeYear_succ`).
-/

namespace IndexedRecords

/-- A day of the calendar. -/
structure Date where
  year : Nat
  month : Nat
  day : Nat
  deriving DecidableEq, Repr

namespace Date

/-! ### The calendar -/

/-- Whether a year has a leap day. -/
def isLeap (year : Nat) : Bool :=
  year % 4 = 0 ∧ (year % 100 ≠ 0 ∨ year % 400 = 0)

/-- The number of days of a month. -/
def daysInMonth (year month : Nat) : Nat :=
  if month = 2 then if isLeap year then 29 else 28
  else if month = 4 ∨ month = 6 ∨ month = 9 ∨ month = 11 then 30
  else 31

/-- The number of days from the first of January of the year 1 to that of a year. -/
def daysBeforeYear (year : Nat) : Nat :=
  let past := year - 1
  365 * past + past / 4 - past / 100 + past / 400

/-- The number of days of a year before a month. -/
def daysBeforeMonth (year : Nat) : (month : Nat) → Nat
  | 0 => 0
  | 1 => 0
  | month + 2 => daysBeforeMonth year (month + 1) + daysInMonth year (month + 1)

/-- A month starts as many days after the one before it as that one has. -/
theorem daysBeforeMonth_succ (year month : Nat) (h : 0 < month) :
    daysBeforeMonth year (month + 1) = daysBeforeMonth year month + daysInMonth year month := by
  cases month with
  | zero => omega
  | succ m => rw [daysBeforeMonth]

/-- Counting the multiples of a number up to the next one. -/
private theorem div_pred (year n : Nat) (hy : 0 < year) :
    year / n = (year - 1) / n + if year % n = 0 then 1 else 0 := by
  have h : (year - 1 + 1) / n = _ := Nat.succ_div
  rw [Nat.sub_add_cancel hy] at h
  rw [h]
  simp only [Nat.dvd_iff_mod_eq_zero]

/-- A year starts 365 days after the one before it, or 366 if that was a leap year. -/
theorem daysBeforeYear_succ (year : Nat) (h : 0 < year) :
    daysBeforeYear (year + 1) = daysBeforeYear year + if isLeap year then 366 else 365 := by
  have h4 := div_pred year 4 h
  have h100 := div_pred year 100 h
  have h400 := div_pred year 400 h
  have hle : (year - 1) / 100 ≤ (year - 1) := Nat.div_le_self _ _
  have m100 : year % 400 = 0 → year % 100 = 0 := by omega
  have m4 : year % 100 = 0 → year % 4 = 0 := by omega
  unfold daysBeforeYear isLeap
  simp only [Nat.add_sub_cancel, decide_eq_true_eq]
  rw [h4, h100, h400]
  generalize (year - 1) / 4 = a, (year - 1) / 100 = b, (year - 1) / 400 = c at *
  generalize year % 4 = x, year % 100 = y, year % 400 = z at *
  by_cases hz : z = 0
  · simp_all
    omega
  · by_cases hy : y = 0
    · simp_all
      omega
    · by_cases hx : x = 0 <;> simp_all <;> omega

/-- A day that the calendar has. -/
structure Valid (d : Date) : Prop where
  year_pos : 1 ≤ d.year
  year_le : d.year ≤ 9999
  month_pos : 1 ≤ d.month
  month_le : d.month ≤ 12
  day_pos : 1 ≤ d.day
  day_le : d.day ≤ daysInMonth d.year d.month

/-! ### Counting days -/

/-- The position of a day in the count that gives the first of January of the year 1 the number
one. -/
def ordinal (d : Date) : Nat :=
  daysBeforeYear d.year + daysBeforeMonth d.year d.month + d.day

/-- The position of the first of January 1970. -/
def epochOrdinal : Nat := 719163

/-- The number of days from the first of January 1970 to a day. -/
def dayNumber (d : Date) : Int := (d.ordinal : Int) - epochOrdinal

/-- The year of a day, given the number of days before it since the year 1. -/
def yearOf (days : Nat) : Nat :=
  let guess := days * 400 / 146097 + 1
  if daysBeforeYear (guess + 1) ≤ days then guess + 1
  else if days < daysBeforeYear guess then guess - 1
  else guess

/-- Finds the month and the day in a list of consecutive months, given the number of days before it
since the first of them started. -/
def monthAndDay (year : Nat) : (months : List Nat) → Nat → Nat × Nat
  | [], days => (0, days)
  | month :: months, days =>
    if days < daysInMonth year month then (month, days + 1)
    else monthAndDay year months (days - daysInMonth year month)

/-- The day at a position of the count, if it lies before the year 10000. -/
def ofOrdinal? (n : Nat) : Option Date :=
  if n = 0 then none
  else
    let year := yearOf (n - 1)
    let (month, day) :=
      monthAndDay year [1, 2, 3, 4, 5, 6, 7, 8, 9, 10, 11, 12] (n - 1 - daysBeforeYear year)
    if 9999 < year then none else some ⟨year, month, day⟩

/-- The day at a number of days from the first of January 1970. -/
def ofDayNumber? (n : Int) : Option Date :=
  match n + epochOrdinal with
  | .ofNat ordinal => ofOrdinal? ordinal
  | .negSucc _ => none

/-- The number of days in four hundred years, after which the calendar repeats itself. -/
def daysPerCycle : Nat := 146097

/-- The day at a number of days from the first of January 1970, in the years 0 to 9999. The year 0
is like the year 400. -/
def ofDayNumberWithYearZero? (n : Int) : Option Date :=
  if 0 < n + epochOrdinal then ofDayNumber? n
  else
    (ofDayNumber? (n + daysPerCycle)).bind fun d =>
      if d.year = 400 then some { d with year := 0 } else none

end Date

end IndexedRecords
