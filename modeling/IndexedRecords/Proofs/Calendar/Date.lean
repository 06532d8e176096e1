import IndexedRecords.Calendar.Date
import Mathlib.Data.Prod.Lex
import Mathlib.Order.Monotone.Basic

/-!
# Dates and their positions

The calendar numbers its days one by one: every day has a position in the count of days, and the way
back from this position leads to it. A position lies between the starts of two neighbouring years,
and of two neighbouring months of this year, which determines them.

## Main statements

* `ofOrdinal?_ordinal`, `valid_of_ofOrdinal?`: dates and their positions determine each other.
* `dayNumber_of_ofDayNumber?`, `exists_ofDayNumber?`: the same for days from the start of 1970.
* `strictMonoOn_ordinal`: later days have greater positions.
-/

namespace IndexedRecords.Date

/-! ### Brackets -/

/-- A number lies between two neighbouring values of a growing function in one place only. -/
theorem eq_of_brackets {f : Nat → Nat} (hf : Monotone f) {a b x : Nat} (ha : f a ≤ x)
    (ha' : x < f (a + 1)) (hb : f b ≤ x) (hb' : x < f (b + 1)) : a = b := by
  by_contra hne
  rcases Nat.lt_or_gt_of_ne hne with hlt | hlt
  · exact absurd (Nat.lt_of_lt_of_le ha' (Nat.le_trans (hf hlt) hb)) (Nat.lt_irrefl x)
  · exact absurd (Nat.lt_of_lt_of_le hb' (Nat.le_trans (hf hlt) ha)) (Nat.lt_irrefl x)

/-! ### Years -/

theorem daysBeforeYear_add_one (past : Nat) :
    daysBeforeYear (past + 1) = 365 * past + past / 4 - past / 100 + past / 400 := rfl

theorem monotone_daysBeforeYear : Monotone daysBeforeYear := by
  refine monotone_nat_of_le_succ fun year => ?_
  rcases year with _ | past
  · exact Nat.le_refl _
  · rw [daysBeforeYear_succ (past + 1) (Nat.succ_pos past)]
    exact Nat.le_add_right _ _

/-- The year of a day is the one that the day lies in. The estimate from the mean length of a year
is at most one off. -/
theorem yearOf_bracket (days : Nat) :
    1 ≤ yearOf days ∧ daysBeforeYear (yearOf days) ≤ days ∧
      days < daysBeforeYear (yearOf days + 1) := by
  have hlow : days * 400 / 146097 * 146097 ≤ days * 400 := Nat.div_mul_le_self _ _
  have hhigh : days * 400 < (days * 400 / 146097 + 1) * 146097 :=
    Nat.lt_mul_of_div_lt (Nat.lt_succ_self _) (by decide)
  rw [yearOf]
  generalize days * 400 / 146097 = past at hlow hhigh ⊢
  -- the estimate from the mean length of a year may be one too small or one too large
  by_cases hnext : daysBeforeYear (past + 1 + 1) ≤ days
  · rw [if_pos hnext]
    rw [daysBeforeYear_add_one] at hnext
    refine ⟨by omega, hnext, ?_⟩
    rw [daysBeforeYear_add_one]
    omega
  by_cases hprev : days < daysBeforeYear (past + 1)
  · rw [if_neg hnext, if_pos hprev, Nat.add_sub_cancel]
    refine ⟨?_, ?_, hprev⟩
    · rcases past with _ | past
      · rw [daysBeforeYear_add_one] at hprev
        omega
      · omega
    · rcases past with _ | past
      · rw [show daysBeforeYear 0 = 0 from rfl]
        omega
      · rw [daysBeforeYear_add_one]
        omega
  · rw [if_neg hnext, if_neg hprev]
    exact ⟨by omega, by omega, by omega⟩

/-! ### Months -/

theorem monotone_daysBeforeMonth (year : Nat) : Monotone (daysBeforeMonth year) := by
  refine monotone_nat_of_le_succ fun month => ?_
  rcases month with _ | month
  · exact Nat.le_refl _
  · rw [daysBeforeMonth_succ year (month + 1) (Nat.succ_pos month)]
    exact Nat.le_add_right _ _

/-- The twelve months make a year. -/
theorem daysBeforeYear_add_daysBeforeMonth {year : Nat} (h : 1 ≤ year) :
    daysBeforeYear year + daysBeforeMonth year 13 = daysBeforeYear (year + 1) := by
  rw [daysBeforeYear_succ year h]
  simp only [daysBeforeMonth, daysInMonth]
  cases isLeap year <;> rfl

/-- The month of a day is the one that the day lies in. -/
theorem exists_monthAndDay {year start count days : Nat} (hstart : 1 ≤ start)
    (hlow : daysBeforeMonth year start ≤ days)
    (hhigh : days < daysBeforeMonth year (start + count)) :
    ∃ month, monthAndDay year (List.range' start count) (days - daysBeforeMonth year start) =
        (month, days - daysBeforeMonth year month + 1) ∧
      start ≤ month ∧ month < start + count ∧ daysBeforeMonth year month ≤ days ∧
      days < daysBeforeMonth year (month + 1) := by
  induction count generalizing start with
  | zero => exact absurd hhigh (Nat.not_lt.mpr hlow)
  | succ count ih =>
    have hnext := daysBeforeMonth_succ year start hstart
    rw [List.range'_succ, monthAndDay]
    by_cases hmonth : days - daysBeforeMonth year start < daysInMonth year start
    · rw [if_pos hmonth]
      exact ⟨start, rfl, Nat.le_refl _, by omega, hlow, by omega⟩
    · have hrest : days - daysBeforeMonth year start - daysInMonth year start =
          days - daysBeforeMonth year (start + 1) := by
        rw [hnext]
        omega
      obtain ⟨month, hfound, hle, hlt, hbracket⟩ := @ih (start + 1) (by omega) (by omega)
        (by rwa [Nat.add_right_comm])
      rw [if_neg hmonth, hrest]
      exact ⟨month, hfound, by omega, by omega, hbracket⟩

/-! ### Positions -/

/-- A day of the calendar as it goes on after the year 9999. -/
structure Regular (d : Date) : Prop where
  year_pos : 1 ≤ d.year
  month_pos : 1 ≤ d.month
  month_le : d.month ≤ 12
  day_pos : 1 ≤ d.day
  day_le : d.day ≤ daysInMonth d.year d.month

theorem Valid.regular {d : Date} (h : d.Valid) : d.Regular :=
  ⟨h.year_pos, h.month_pos, h.month_le, h.day_pos, h.day_le⟩

/-- A day lies in its month. -/
theorem Regular.month_bracket {d : Date} (h : d.Regular) :
    daysBeforeMonth d.year d.month ≤ daysBeforeMonth d.year d.month + d.day - 1 ∧
      daysBeforeMonth d.year d.month + d.day - 1 < daysBeforeMonth d.year (d.month + 1) := by
  have hday := h.day_le
  have hpos := h.day_pos
  rw [daysBeforeMonth_succ d.year d.month h.month_pos]
  omega

/-- A day lies in its year. -/
theorem Regular.year_bracket {d : Date} (h : d.Regular) :
    daysBeforeYear d.year ≤ d.ordinal - 1 ∧ d.ordinal - 1 < daysBeforeYear (d.year + 1) := by
  have hmonth := h.month_bracket.2
  have hyear := daysBeforeYear_add_daysBeforeMonth h.year_pos
  have hlast : daysBeforeMonth d.year (d.month + 1) ≤ daysBeforeMonth d.year 13 :=
    monotone_daysBeforeMonth d.year (Nat.succ_le_succ h.month_le)
  have hpos := h.day_pos
  rw [ordinal]
  omega

/-- The days before a date in its year lie between the start of its month and that of the next one,
which is how the month is found from them. -/
theorem Valid.month_bracket {d : Date} (h : d.Valid) :
    daysBeforeMonth d.year d.month ≤ daysBeforeMonth d.year d.month + d.day - 1 ∧
      daysBeforeMonth d.year d.month + d.day - 1 < daysBeforeMonth d.year (d.month + 1) :=
  h.regular.month_bracket

/-- The days before a date lie between the start of its year and that of the next one, which is how
the year is found from them. -/
theorem Valid.year_bracket {d : Date} (h : d.Valid) :
    daysBeforeYear d.year ≤ d.ordinal - 1 ∧ d.ordinal - 1 < daysBeforeYear (d.year + 1) :=
  h.regular.year_bracket

/-- Days of one position are one, whatever their year is. -/
theorem Regular.eq_of_ordinal {d d' : Date} (h : d.Regular) (h' : d'.Regular)
    (heq : d.ordinal = d'.ordinal) : d = d' := by
  obtain ⟨hlow, hhigh⟩ := h.year_bracket
  obtain ⟨hlow', hhigh'⟩ := h'.year_bracket
  rw [heq] at hlow hhigh
  -- the year first, then the month of this year, then the day
  have hyear : d.year = d'.year :=
    eq_of_brackets monotone_daysBeforeYear hlow hhigh hlow' hhigh'
  have hpos := h.day_pos
  have hpos' := h'.day_pos
  have hdays : daysBeforeMonth d'.year d'.month + d'.day =
      daysBeforeMonth d'.year d.month + d.day := by
    rw [ordinal, ordinal, hyear] at heq
    omega
  obtain ⟨hlow, hhigh⟩ := h.month_bracket
  obtain ⟨hlow', hhigh'⟩ := h'.month_bracket
  rw [hyear] at hlow hhigh
  rw [hdays] at hlow' hhigh'
  have hmonth : d.month = d'.month :=
    eq_of_brackets (monotone_daysBeforeMonth d'.year) hlow hhigh hlow' hhigh'
  have hday : d.day = d'.day := by
    rw [hmonth] at hdays
    omega
  cases d
  cases d'
  cases hyear
  cases hmonth
  cases hday
  rfl

/-- A position is turned into a date by its year first, and then by the days that are left in this
year. -/
theorem ofOrdinal?_eq {n month day : Nat} (h : n ≠ 0)
    (hmonth : monthAndDay (yearOf (n - 1)) (List.range' 1 12)
      (n - 1 - daysBeforeYear (yearOf (n - 1))) = (month, day)) :
    ofOrdinal? n =
      if 9999 < yearOf (n - 1) then none else some ⟨yearOf (n - 1), month, day⟩ := by
  have hmonths : [1, 2, 3, 4, 5, 6, 7, 8, 9, 10, 11, 12] = List.range' 1 12 := rfl
  rw [ofOrdinal?, if_neg h, hmonths]
  dsimp only
  rw [hmonth]

/-- **Positions lead back.** A day is found at its position. -/
theorem ofOrdinal?_ordinal {d : Date} (h : d.Valid) : ofOrdinal? d.ordinal = some d := by
  obtain ⟨hlow, hhigh⟩ := h.year_bracket
  obtain ⟨-, hfound, hfound'⟩ := yearOf_bracket (d.ordinal - 1)
  have hyear : yearOf (d.ordinal - 1) = d.year :=
    eq_of_brackets monotone_daysBeforeYear hfound hfound' hlow hhigh
  obtain ⟨hlow, hhigh⟩ := h.month_bracket
  have hdays : d.ordinal - 1 - daysBeforeYear d.year =
      daysBeforeMonth d.year d.month + d.day - 1 := by
    have hpos := h.day_pos
    rw [ordinal]
    omega
  have hlast : daysBeforeMonth d.year d.month + d.day - 1 < daysBeforeMonth d.year (1 + 12) :=
    Nat.lt_of_lt_of_le hhigh (monotone_daysBeforeMonth d.year (Nat.succ_le_succ h.month_le))
  obtain ⟨month, hmonth, -, -, hbracket⟩ := exists_monthAndDay (Nat.le_refl 1) (Nat.zero_le _) hlast
  -- the month that is found has the same days between its start and its end
  obtain rfl : month = d.month :=
    eq_of_brackets (monotone_daysBeforeMonth d.year) hbracket.1 hbracket.2 hlow hhigh
  have hday : daysBeforeMonth d.year d.month + d.day - 1 - daysBeforeMonth d.year d.month + 1 =
      d.day := by
    have hpos := h.day_pos
    omega
  have hpos : d.ordinal ≠ 0 := by
    have hpos := h.day_pos
    rw [ordinal]
    omega
  have hle : ¬ 9999 < d.year := Nat.not_lt.mpr h.year_le
  rw [hday, show daysBeforeMonth d.year 1 = 0 from rfl, Nat.sub_zero, ← hdays, ← hyear] at hmonth
  rw [ofOrdinal?_eq hpos hmonth, hyear, if_neg hle]

/-- What is found at a position is a day at this position. -/
theorem valid_of_ofOrdinal? {n : Nat} {d : Date} (h : ofOrdinal? n = some d) :
    d.Valid ∧ d.ordinal = n := by
  have hpos : n ≠ 0 := by
    rintro rfl
    cases h
  obtain ⟨hyear, hlow, hhigh⟩ := yearOf_bracket (n - 1)
  have hlast : n - 1 - daysBeforeYear (yearOf (n - 1)) <
      daysBeforeMonth (yearOf (n - 1)) (1 + 12) := by
    have htotal := daysBeforeYear_add_daysBeforeMonth hyear
    rw [show 1 + 12 = 13 from rfl]
    omega
  -- what is left of the year lies in one of its twelve months
  obtain ⟨month, hmonth, hmonth_pos, hmonth_lt, hbracket⟩ :=
    exists_monthAndDay (Nat.le_refl 1) (Nat.zero_le _) hlast
  rw [show daysBeforeMonth (yearOf (n - 1)) 1 = 0 from rfl, Nat.sub_zero] at hmonth
  rw [ofOrdinal?_eq hpos hmonth] at h
  split at h
  · cases h
  next hle =>
  obtain rfl := Option.some.inj h
  have hnext := daysBeforeMonth_succ (yearOf (n - 1)) month hmonth_pos
  refine ⟨⟨hyear, Nat.not_lt.mp hle, hmonth_pos, Nat.le_of_lt_succ hmonth_lt, ?_, ?_⟩, ?_⟩
  · exact Nat.succ_pos _
  · dsimp only
    omega
  · rw [ordinal]
    dsimp only
    omega

/-- The position of the last day of the year 9999. -/
def lastOrdinal : Nat := 3652059

theorem Valid.ordinal_bounds {d : Date} (h : d.Valid) :
    0 < d.ordinal ∧ d.ordinal ≤ lastOrdinal := by
  have hday := h.day_pos
  have hyear : daysBeforeYear (d.year + 1) ≤ lastOrdinal :=
    monotone_daysBeforeYear (show d.year + 1 ≤ 10000 from Nat.succ_le_succ h.year_le)
  have hlast := h.year_bracket.2
  have hpos : 0 < d.ordinal := by
    rw [ordinal]
    omega
  exact ⟨hpos, by omega⟩

/-- There is a day at every position up to the last one. -/
theorem exists_ofOrdinal? {n : Nat} (hpos : 0 < n) (hle : n ≤ lastOrdinal) :
    ∃ d, ofOrdinal? n = some d := by
  have hyear : ¬ 9999 < yearOf (n - 1) := by
    intro hlarge
    have hdays : daysBeforeYear 10000 ≤ n - 1 :=
      Nat.le_trans (monotone_daysBeforeYear hlarge) (yearOf_bracket (n - 1)).2.1
    have hlast : daysBeforeYear 10000 = lastOrdinal := rfl
    omega
  rw [ofOrdinal?, if_neg (Nat.ne_of_gt hpos)]
  exact ⟨_, if_neg hyear⟩

/-! ### Days from the start of 1970 -/

/-- A day that is found at a number of days from the start of 1970 is in the calendar, and it is at
this number. -/
theorem dayNumber_of_ofDayNumber? {n : Int} {d : Date} (h : ofDayNumber? n = some d) :
    d.Valid ∧ d.dayNumber = n := by
  rw [ofDayNumber?] at h
  split at h
  · next ordinal hordinal =>
    obtain ⟨hvalid, hn⟩ := valid_of_ofOrdinal? h
    refine ⟨hvalid, ?_⟩
    rw [dayNumber, hn]
    have hcast : (Int.ofNat ordinal : Int) = (ordinal : Int) := rfl
    omega
  · cases h

/-- Every number of days from the start of 1970 that stays within the years 1 to 9999 leads to a
day. -/
theorem exists_ofDayNumber? {n : Int} (hlow : 0 < n + epochOrdinal)
    (hhigh : n + epochOrdinal ≤ lastOrdinal) : ∃ d, ofDayNumber? n = some d := by
  obtain ⟨ordinal, hordinal⟩ := Int.eq_ofNat_of_zero_le (Int.le_of_lt hlow)
  obtain ⟨d, hd⟩ := exists_ofOrdinal? (n := ordinal) (by omega) (by omega)
  exact ⟨d, by rw [ofDayNumber?, hordinal]; exact hd⟩

/-- What is found at a day of a year after the year 0 is this day. -/
theorem dayNumber_of_ofDayNumberWithYearZero? {n : Int} {d : Date}
    (h : ofDayNumberWithYearZero? n = some d) (hyear : d.year ≠ 0) :
    d.Valid ∧ d.dayNumber = n := by
  rw [ofDayNumberWithYearZero?] at h
  split at h
  · exact dayNumber_of_ofDayNumber? h
  · obtain ⟨d', -, hd⟩ := Option.bind_eq_some_iff.mp h
    split at hd
    · cases hd
      exact absurd rfl hyear
    · cases hd

/-- Days of one position are one. -/
theorem eq_of_dayNumber {d d' : Date} (h : d.Valid) (h' : d'.Valid)
    (heq : d.dayNumber = d'.dayNumber) : d = d' := by
  have hordinal : d.ordinal = d'.ordinal := by
    rw [dayNumber, dayNumber] at heq
    omega
  have hfound := ofOrdinal?_ordinal h
  rw [hordinal, ofOrdinal?_ordinal h'] at hfound
  exact (Option.some.inj hfound).symm

/-! ### The order of days -/

/-- The year, the month and the day of a date in the order in which they decide which of two dates
is the later one. -/
def key (d : Date) : ℕ ×ₗ ℕ ×ₗ ℕ := toLex (d.year, toLex (d.month, d.day))

theorem key_injective : Function.Injective key := by
  intro d d' h
  cases d
  cases d'
  simpa [key] using h

instance : LinearOrder Date := LinearOrder.lift' key key_injective

/-- An earlier date has an earlier year, or an earlier month of this year, or an earlier day of this
month. -/
theorem lt_iff {d d' : Date} : d < d' ↔ d.year < d'.year ∨ d.year = d'.year ∧
    (d.month < d'.month ∨ d.month = d'.month ∧ d.day < d'.day) := by
  change key d < key d' ↔ _
  rw [key, key, Prod.Lex.toLex_lt_toLex, Prod.Lex.toLex_lt_toLex]

/-- **Days in order.** Later days have greater positions. -/
theorem strictMonoOn_ordinal : StrictMonoOn ordinal {d | d.Valid} := by
  intro d h d' h' hlt
  have hpos := h.day_pos
  have hpos' := h'.day_pos
  rcases lt_iff.mp hlt with hyear | ⟨hyear, hmonth | ⟨hmonth, hday⟩⟩
  · -- a year ends before the next one starts
    have hnext : daysBeforeYear (d.year + 1) ≤ daysBeforeYear d'.year :=
      monotone_daysBeforeYear hyear
    have hlast := h.year_bracket.2
    have hstart := h'.year_bracket.1
    omega
  · have hnext : daysBeforeMonth d'.year (d.month + 1) ≤ daysBeforeMonth d'.year d'.month :=
      monotone_daysBeforeMonth d'.year hmonth
    have hlast := h.month_bracket.2
    rw [hyear] at hlast
    rw [ordinal, ordinal, hyear]
    omega
  · rw [ordinal, ordinal, hyear, hmonth]
    omega

end IndexedRecords.Date
