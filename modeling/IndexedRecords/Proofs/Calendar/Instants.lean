import IndexedRecords.Proofs.Calendar.Moment
import Mathlib.Logic.Function.Iterate

/-!
# Instants

The calendar goes from each day to the next one, and a clock goes on within a day and from day to
day. An offset says by how much a clock is ahead of universal time. So two moments are the same
instant if the clock that is behind shows what the other one does once it has gone on by the
difference of their offsets. Positions in the count of days agree with this: the next day has the
next position, and moments are the same instant exactly if they are as many microseconds after the
start of 1970.

## Main statements

* `Date.daysFrom_iff`: the number of days between two days is the difference of their positions.
* `Moment.sameInstant_iff`, `Moment.SameInstant.epochSeconds_eq`: moments of one instant are as many
  seconds after the start of 1970.
* `Moment.whole?_epochSeconds_midnight`: the seconds to a day are the seconds to its midnight.
-/

namespace IndexedRecords

/-! ### From day to day -/

namespace Date

variable {d d' : Date}

/-- The day after a day. -/
def next (d : Date) : Date :=
  if d.day < daysInMonth d.year d.month then ⟨d.year, d.month, d.day + 1⟩
  else if d.month < 12 then ⟨d.year, d.month + 1, 1⟩
  else ⟨d.year + 1, 1, 1⟩

/-- There are `n` days from a day to another one: the other one is `n` days later, or as many days
earlier as a negative `n` says. -/
def DaysFrom (d d' : Date) : (n : Int) → Prop
  | .ofNat n => next^[n] d = d'
  | .negSucc n => next^[n + 1] d' = d

theorem daysInMonth_pos (year month : Nat) : 1 ≤ daysInMonth year month := by
  rw [daysInMonth]
  split
  · split <;> decide
  · split <;> decide

/-- The day after a day of the calendar is one as well, since the calendar goes on here after the
year 9999. -/
theorem Regular.next (h : d.Regular) : d.next.Regular := by
  have hyear := h.year_pos
  have hmonth := h.month_pos
  rw [Date.next]
  split
  · next hday => exact ⟨hyear, hmonth, h.month_le, Nat.succ_pos _, hday⟩
  · split
    · next hlt => exact ⟨hyear, Nat.succ_pos _, hlt, Nat.le_refl 1, daysInMonth_pos _ _⟩
    · exact ⟨Nat.succ_pos _, Nat.le_refl 1, show 1 ≤ 12 by decide, Nat.le_refl 1,
        daysInMonth_pos _ _⟩

/-- The day after a day has the next position. -/
theorem Regular.ordinal_next (h : d.Regular) : d.next.ordinal = d.ordinal + 1 := by
  have hday := h.day_le
  have hmonths := daysBeforeMonth_succ d.year d.month h.month_pos
  rw [Date.next]
  split
  · rfl
  · next hfull =>
    split
    · rw [ordinal, ordinal]
      dsimp only
      omega
    · next hlast =>
      -- a day after the last one of December starts a year
      have hdecember : d.month = 12 := Nat.le_antisymm h.month_le (Nat.not_lt.mp hlast)
      have hyear : daysBeforeYear d.year + daysBeforeMonth d.year (12 + 1) = _ :=
        daysBeforeYear_add_daysBeforeMonth h.year_pos
      have hstart : daysBeforeMonth (d.year + 1) 1 = 0 := rfl
      rw [hdecember] at hmonths hday hfull
      rw [ordinal, ordinal, hdecember, hstart]
      dsimp only
      omega

/-- The day after has the next number. Months and years carry over as the days of a month and the
months of a year run out. -/
theorem Regular.dayNumber_next (h : d.Regular) : d.next.dayNumber = d.dayNumber + 1 := by
  rw [dayNumber, dayNumber, h.ordinal_next]
  omega

/-- A number of days later, positions are as much greater. -/
theorem Regular.iterate_next (h : d.Regular) (n : Nat) :
    (Date.next^[n] d).Regular ∧ (Date.next^[n] d).dayNumber = d.dayNumber + n := by
  induction n with
  | zero => exact ⟨h, (Int.add_zero _).symm⟩
  | succ n ih =>
    obtain ⟨hregular, hnumber⟩ := ih
    rw [Function.iterate_succ_apply']
    refine ⟨hregular.next, ?_⟩
    rw [hregular.dayNumber_next, hnumber]
    omega

/-- Days are the same if their numbers are. -/
theorem Regular.eq_iff_dayNumber (h : d.Regular) (h' : d'.Regular) :
    d = d' ↔ d.dayNumber = d'.dayNumber := by
  refine ⟨congrArg dayNumber, fun heq => h.eq_of_ordinal h' ?_⟩
  rw [dayNumber, dayNumber] at heq
  omega

/-- **Days between days.** The number of days from a day to another one is the difference of their
positions. -/
theorem daysFrom_iff (h : d.Regular) (h' : d'.Regular) {n : Int} :
    d.DaysFrom d' n ↔ n = d'.dayNumber - d.dayNumber := by
  cases n with
  | ofNat n =>
    obtain ⟨hregular, hnumber⟩ := h.iterate_next n
    rw [DaysFrom, hregular.eq_iff_dayNumber h', hnumber, Int.ofNat_eq_natCast]
    omega
  | negSucc n =>
    obtain ⟨hregular, hnumber⟩ := h'.iterate_next (n + 1)
    rw [DaysFrom, hregular.eq_iff_dayNumber h, hnumber]
    omega

end Date

/-! ### Clocks -/

namespace Moment

variable {m m' : Moment}

/-- What the clock of a moment shows a number of seconds later. -/
def clockAfter (m : Moment) (seconds : Nat) : Date × TimeOfDay :=
  let shown := m.time.microseconds + seconds * 1000000
  (Date.next^[shown / 86400000000] m.date, .ofMicroseconds (shown % 86400000000))

/-- Two moments of the calendar are the same instant. The clock with the smaller offset is behind,
and shows what the other one does after the difference of their offsets; a moment without an offset
is one of universal time. -/
structure SameInstant (m m' : Moment) : Prop where
  date : m.date.Valid
  date' : m'.date.Valid
  clock : m.clockAfter (m'.offset.getD 0 - m.offset.getD 0).toNat =
    m'.clockAfter (m.offset.getD 0 - m'.offset.getD 0).toNat

theorem ofMicroseconds_injective : Function.Injective TimeOfDay.ofMicroseconds := by
  intro n n' h
  rw [← TimeOfDay.microseconds_ofMicroseconds n, h, TimeOfDay.microseconds_ofMicroseconds]

/-- Clocks show the same if they are as many microseconds after the start of 1970, whatever their
offsets are. -/
theorem clockAfter_eq_iff (h : m.date.Regular) (h' : m'.date.Regular) (k k' : Nat) :
    m.clockAfter k = m'.clockAfter k' ↔
      m.date.dayNumber * 86400000000 + m.time.microseconds + k * 1000000 =
        m'.date.dayNumber * 86400000000 + m'.time.microseconds + k' * 1000000 := by
  obtain ⟨hregular, hnumber⟩ := h.iterate_next ((m.time.microseconds + k * 1000000) / 86400000000)
  obtain ⟨hregular', hnumber'⟩ :=
    h'.iterate_next ((m'.time.microseconds + k' * 1000000) / 86400000000)
  rw [clockAfter, clockAfter, Prod.mk.injEq, hregular.eq_iff_dayNumber hregular', hnumber, hnumber',
    ofMicroseconds_injective.eq_iff]
  omega

/-- **Instants.** Two moments are the same instant exactly if they are as many microseconds after
the start of 1970. -/
theorem sameInstant_iff : m.SameInstant m' ↔
    m.date.Valid ∧ m'.date.Valid ∧ m.epochMicroseconds = m'.epochMicroseconds := by
  have hclock (h : m.date.Valid) (h' : m'.date.Valid) :
      m.clockAfter (m'.offset.getD 0 - m.offset.getD 0).toNat =
        m'.clockAfter (m.offset.getD 0 - m'.offset.getD 0).toNat ↔
      m.epochMicroseconds = m'.epochMicroseconds := by
    rw [clockAfter_eq_iff h.regular h'.regular, epochMicroseconds, epochMicroseconds,
      microsecondsPerDay]
    omega
  constructor
  · rintro ⟨h, h', heq⟩
    exact ⟨h, h', (hclock h h').mp heq⟩
  · rintro ⟨h, h', heq⟩
    exact ⟨h, h', (hclock h h').mpr heq⟩

namespace SameInstant

/-- Moments of one instant are as many microseconds after the start of 1970. -/
theorem epochMicroseconds_eq (h : m.SameInstant m') :
    m.epochMicroseconds = m'.epochMicroseconds :=
  (sameInstant_iff.mp h).2.2

/-- Moments of one instant are as many seconds after the start of 1970. -/
theorem epochSeconds_eq (h : m.SameInstant m') : m.epochSeconds = m'.epochSeconds := by
  rw [epochSeconds, epochSeconds, h.epochMicroseconds_eq]

/-- Where no offset is known, universal time is the same instant. -/
theorem assumeUniversal (h : m.SameInstant m') :
    m.assumeUniversal.SameInstant m'.assumeUniversal := by
  obtain ⟨date, time, _ | offset⟩ := m <;> obtain ⟨date', time', _ | offset'⟩ := m' <;>
    exact ⟨h.date, h.date', h.clock⟩

end SameInstant

/-- A moment without an offset counts as universal time. -/
theorem epochSeconds_assumeUniversal (m : Moment) :
    m.assumeUniversal.epochSeconds = m.epochSeconds := by
  obtain ⟨date, time, _ | offset⟩ := m <;> rfl

end Moment

/-! ### Midnight -/

theorem TimeOfDay.valid_midnight : TimeOfDay.midnight.Valid :=
  ⟨by decide, by decide, by decide, by decide⟩

namespace Moment

/-- A whole floating number is the whole number that it is made from. -/
theorem whole?_finite (n : Int) :
    (Binary64.finite (n < 0) (n.natAbs * Binary64.one)).whole? = some n := by
  rw [Binary64.whole?, Nat.mul_mod_left, if_pos rfl, Nat.mul_div_cancel _ Binary64.one_pos]
  by_cases hneg : n < 0
  · rw [if_pos (decide_eq_true hneg), Int.ofNat_natAbs_of_nonpos (Int.le_of_lt hneg), Int.neg_neg]
  · rw [if_neg (fun h => hneg (of_decide_eq_true h)), Int.natAbs_of_nonneg (Int.not_lt.mp hneg)]

/-- **Midnight.** The number of seconds to a day is that to its midnight in universal time. -/
theorem whole?_epochSeconds_midnight {d : Date} (h : d.Valid) :
    (Moment.mk d .midnight (some 0)).epochSeconds.whole? = some d.epochSeconds := by
  have hmidnight : (Moment.mk d .midnight (some 0)).OnSecond :=
    ⟨h, TimeOfDay.valid_midnight, rfl, by simp⟩
  have hseconds : (Moment.mk d .midnight (some 0)).seconds = d.epochSeconds := by
    rw [seconds, epochMicroseconds, Date.epochSeconds, microsecondsPerDay, Option.getD_some,
      show TimeOfDay.midnight.microseconds = 0 from rfl]
    dsimp only
    omega
  rw [hmidnight.epochSeconds_eq, hseconds, whole?_finite]

end Moment

end IndexedRecords
