import IndexedRecords.Calendar.Date
import IndexedRecords.Number.Binary64

/-!
# Moments

A moment is a day, a time of that day to the microsecond, and possibly an offset from universal
time. A moment without an offset is read as universal time wherever an instant is needed.

Offsets are whole seconds here, as documents and texts give them. An offset with microseconds, which
only a moment made by a caller can have, is left out.
-/

namespace IndexedRecords

/-- A time of day. -/
structure TimeOfDay where
  hour : Nat
  minute : Nat
  second : Nat
  microsecond : Nat
  deriving DecidableEq, Repr

namespace TimeOfDay

/-- The start of a day. -/
def midnight : TimeOfDay := ⟨0, 0, 0, 0⟩

/-- The number of microseconds since midnight. -/
def microseconds (t : TimeOfDay) : Nat :=
  ((t.hour * 60 + t.minute) * 60 + t.second) * 1000000 + t.microsecond

/-- The time at a number of microseconds since midnight. -/
def ofMicroseconds (n : Nat) : TimeOfDay :=
  let seconds := n / 1000000
  ⟨seconds / 3600, seconds / 60 % 60, seconds % 60, n % 1000000⟩

/-- A time that a day has. -/
structure Valid (t : TimeOfDay) : Prop where
  hour_lt : t.hour < 24
  minute_lt : t.minute < 60
  second_lt : t.second < 60
  microsecond_lt : t.microsecond < 1000000

end TimeOfDay

/-- A day and a time, with the offset from universal time in whole seconds where one is known. -/
structure Moment where
  date : Date
  time : TimeOfDay
  offset : Option Int
  deriving DecidableEq, Repr

namespace Moment

/-- The number of microseconds in a day. -/
def microsecondsPerDay : Int := 86400000000

/-- Midnight of a day, without an offset. -/
def ofDate (d : Date) : Moment := ⟨d, .midnight, none⟩

/-- The moment with universal time assumed where no offset is known. -/
def assumeUniversal (m : Moment) : Moment :=
  match m.offset with
  | some _ => m
  | none => { m with offset := some 0 }

/-- The number of microseconds from the start of 1970 in universal time. -/
def epochMicroseconds (m : Moment) : Int :=
  m.date.dayNumber * microsecondsPerDay + m.time.microseconds - m.offset.getD 0 * 1000000

/-- The number of seconds from the start of 1970, rounded to a floating number. -/
def epochSeconds (m : Moment) : Binary64 :=
  .ofRatio (m.epochMicroseconds < 0) m.epochMicroseconds.natAbs 1000000

end Moment

/-- The number of seconds from the start of 1970 to the start of a day in universal time. -/
def Date.epochSeconds (d : Date) : Int := d.dayNumber * 86400

namespace Moment

/-! ### Numbers as moments

A number that is read as a moment may lie in the year 0, which no record can hold. -/

/-- Numbers above this magnitude count milliseconds, others seconds. -/
def millisecondThreshold : Nat := 20000000000

/-- The moment in universal time at a number of microseconds from the start of 1970, in the years 0
to 9999. -/
def ofEpochMicroseconds (n : Int) : Option Moment :=
  (Date.ofDayNumberWithYearZero? (n / microsecondsPerDay)).map fun date =>
    ⟨date, .ofMicroseconds (n % microsecondsPerDay).toNat, some 0⟩

/-- The moment that a whole number stands for. -/
def ofInt (n : Int) : Option Moment :=
  ofEpochMicroseconds (if millisecondThreshold < n.natAbs then n * 1000 else n * 1000000)

/-- The moment at a floating number of time units, each of them a number of microseconds. The
fraction is rounded to microseconds after it has been scaled to them as a floating number. -/
def ofTimeUnits (microseconds : Nat) (x : Binary64) : Option Moment := do
  let units ← x.signedUnits?
  let whole := units / (Binary64.one : Int)
  let fraction := (units % (Binary64.one : Int)).toNat
  let part ← (Binary64.ofRatio false (fraction * microseconds) Binary64.one).signedUnits?
  ofEpochMicroseconds (whole * microseconds + roundHalfUp part.toNat Binary64.one)

/-- The moment that a floating number stands for. -/
def ofBinary64 (x : Binary64) : Option Moment :=
  match x with
  | .finite _ units =>
    ofTimeUnits (if millisecondThreshold * Binary64.one < units then 1000 else 1000000) x
  | _ => none

end Moment

end IndexedRecords
