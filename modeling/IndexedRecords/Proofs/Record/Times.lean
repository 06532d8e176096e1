import IndexedRecords.Proofs.Calendar.Moment
import IndexedRecords.Proofs.Record.Returning

/-!
# Dates and moments that documents give back

A searchable record writes dates and moments as seconds from the start of 1970. A reader takes large
numbers for milliseconds, so that the seconds lead back to the same day or instant exactly up to a
threshold.

## Main statements

* `IsTime.temporalJson?_eq`: a date or a moment on a whole second is written as its number of
  seconds.
* `IsTime.exists_read_iff`: this number is read as the same date or instant exactly up to the
  threshold.
-/

namespace IndexedRecords.Record

open Traversal

variable {c : Catalogue} {r : RecordType} {f : Field} {s : Scalar} {v w : Value} {n : Int}

/-- A date, or a moment on a whole second, with the number of seconds to it from the start of
1970. -/
inductive IsTime : Scalar → Value → Int → Prop where
  | date {d : Date} (valid : d.Valid) : IsTime .date (.date d) d.epochSeconds
  | moment {m : Moment} (valid : m.OnSecond) : IsTime .moment (.moment m) m.seconds

/-- Two values are the same date, or moments of the same instant. -/
inductive SameTime : Value → Value → Prop where
  | date (d : Date) : SameTime (.date d) (.date d)
  | moment {m m' : Moment} (instant : m.epochMicroseconds = m'.epochMicroseconds) :
      SameTime (.moment m) (.moment m')

/-- The document of a number of seconds: whole for dates, floating for moments. -/
def jsonOfSeconds (s : Scalar) (n : Int) : Json :=
  match s with
  | .date => .int n
  | _ => .float (.finite (n < 0) (n.natAbs * Binary64.one))

namespace IsTime

/-- The seconds of a time are far from what a word holds: the calendar ends with the year 9999. -/
theorem natAbs_lt (h : IsTime s v n) : n.natAbs < 10 ^ 12 := by
  cases h with
  | date valid => exact valid.natAbs_epochSeconds_lt
  | moment valid => exact valid.natAbs_seconds_lt

theorem fitsWord (h : IsTime s v n) : Scalar.fitsWord n = true := by
  have hlt := h.natAbs_lt
  rw [Scalar.fitsWord, Scalar.wordLimit, Bool.and_eq_true, decide_eq_true_eq, decide_eq_true_eq]
  omega

/-- A time is written as its seconds. -/
theorem epochJson?_eq (h : IsTime s v n) : epochJson? v = some (jsonOfSeconds s n) := by
  cases h with
  | date => rfl
  | moment valid => exact congrArg (fun x => some (Json.float x)) valid.epochSeconds_eq

/-- A time by itself is written as its seconds where a date may stand. -/
theorem temporalJson?_eq (h : IsTime s v n) : temporalJson? v = some (jsonOfSeconds s n) := by
  have hepoch := h.epochJson?_eq
  cases h <;> exact hepoch

/-- The seconds of a time are read back from a document. -/
theorem readable (h : IsTime s v n) : (jsonOfSeconds s n).Readable := by
  have hlt := h.natAbs_lt
  cases h with
  | date =>
    refine .int (length_wholeText_le
      (Nat.lt_of_le_of_lt ?_ (show 12 < Numeral.digitLimit by decide)))
    exact (Nat.length_toDigits_le_iff (by decide) (by decide)).mpr hlt
  | moment => exact .float (Json.floatReads_whole (Nat.lt_trans hlt (by decide)) _)

end IsTime

/-! ### Reading seconds -/

/-- A whole number in the place of a moment is read as seconds or milliseconds, depending on its
size. -/
theorem momentOf_int (hn : Scalar.fitsWord n = true) :
    Scalar.momentOf .document (.int n) =
      (Moment.ofInt n).elim (.error .datetimeParsing) .ok := by
  change (if Scalar.fitsWord n = true then _ else _) = _
  rw [if_pos hn]
  cases Moment.ofInt n <;> rfl

/-- A floating number in the place of a moment is read as seconds or milliseconds, depending on its
size. -/
theorem momentOf_float (x : Binary64) :
    Scalar.momentOf .document (.float x) =
      (Moment.ofBinary64 x).elim (.error .datetimeParsing) .ok := by
  have hfloat : Scalar.floatOfNumber? .document (.float x) = some x := rfl
  simp only [Scalar.momentOf, Value.plain, Scalar.parseable?, Scalar.momentOfNumber, hfloat]
  cases Moment.ofBinary64 x <;> rfl

/-- A whole number in the place of a date is read as a moment, which has to be a midnight. -/
theorem dateOf_int (n : Int) : Scalar.dateOf .document (.int n) =
    match Scalar.momentOf .document (.int n) with
    | .ok m => if m.time = .midnight then .ok m.date else .error .dateFromDatetimeInexact
    | .error .datetimeParsing | .error .datetimeFromDateParsing => .error .dateFromDatetimeParsing
    | .error _ => .error .dateType :=
  rfl

/-- A whole number is read as the date at whose start its moment is. -/
theorem readDate_int_iff (hn : Scalar.fitsWord n = true) :
    Scalar.readDate .document (.int n) = .ok w ↔
      ∃ m, Moment.ofInt n = some m ∧ m.time = .midnight ∧ m.date.year ≠ 0 ∧ w = .date m.date := by
  rw [Scalar.readDate, dateOf_int, momentOf_int hn]
  cases Moment.ofInt n with
  | none => exact ⟨nofun, nofun⟩
  | some m =>
    simp only [Option.elim_some, Option.some.injEq, exists_eq_left']
    by_cases htime : m.time = .midnight
    · by_cases hyear : m.date.year = 0
      · simp [htime, hyear, bind, Except.bind]
      · simp [htime, hyear, bind, Except.bind, pure, Except.pure, eq_comm]
    · simp [htime, bind, Except.bind]

/-- A floating number is read as its moment. -/
theorem readMoment_float_iff {x : Binary64} : Scalar.readMoment .document (.float x) = .ok w ↔
    ∃ m, Moment.ofBinary64 x = some m ∧ m.date.year ≠ 0 ∧ w = .moment m := by
  rw [Scalar.readMoment, momentOf_float]
  cases Moment.ofBinary64 x with
  | none => exact ⟨nofun, nofun⟩
  | some m =>
    by_cases hyear : m.date.year = 0 <;>
      simp [hyear, bind, Except.bind, pure, Except.pure, eq_comm]

/-- **Times in documents.** The number of seconds to a date or moment is read as the same date or
instant exactly up to the threshold above which numbers count milliseconds. -/
theorem IsTime.exists_read_iff (h : IsTime s v n) :
    (∃ w, s.read .document (valueOfJson (jsonOfSeconds s n)) = .ok w ∧ SameTime v w) ↔
      n.natAbs ≤ Moment.millisecondThreshold := by
  have hfits := h.fitsWord
  -- a number that is small enough to be taken for seconds is read as the time it was written for
  cases h with
  | @date d valid =>
    have hread (w : Value) : Scalar.read .document .date (.int d.epochSeconds) = .ok w ↔
        Scalar.readDate .document (.int d.epochSeconds) = .ok w := mapError_eq_ok_iff
    rw [← Moment.ofInt_date_iff valid]
    simp only [jsonOfSeconds, valueOfJson, hread, readDate_int_iff hfits]
    constructor
    · rintro ⟨_, ⟨m, hm, htime, -, rfl⟩, hsame⟩
      cases hsame
      exact ⟨m, hm, htime, rfl⟩
    · rintro ⟨m, hm, htime, rfl⟩
      exact ⟨_, ⟨m, hm, htime, Nat.ne_of_gt valid.year_pos, rfl⟩, .date _⟩
  | @moment m valid =>
    have hread (w : Value) (x : Binary64) : Scalar.read .document .moment (.float x) = .ok w ↔
        Scalar.readMoment .document (.float x) = .ok w := mapError_eq_ok_iff
    rw [← Moment.ofInt_seconds_iff valid]
    simp only [jsonOfSeconds, valueOfJson, hread, readMoment_float_iff, Moment.ofBinary64_whole]
    constructor
    · rintro ⟨_, ⟨m', hm', hyear, rfl⟩, hsame⟩
      cases hsame with
      | moment instant => exact ⟨m', hm', hyear, instant.symm⟩
    · rintro ⟨m', hm', hyear, heq⟩
      exact ⟨_, ⟨m', hm', hyear, rfl⟩, .moment heq.symm⟩

end IndexedRecords.Record
