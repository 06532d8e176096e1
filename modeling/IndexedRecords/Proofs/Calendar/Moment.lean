import IndexedRecords.Calendar.Moment
import IndexedRecords.Proofs.Calendar.Date
import IndexedRecords.Proofs.Number.WholeFloat

/-!
# Moments and the numbers they are read from

A moment is found at its number of microseconds from the start of 1970. So a whole number of seconds
leads back to its moment, up to the threshold above which numbers count milliseconds; it does not
matter whether it comes as a whole number or as a floating one.

## Main statements

* `Date.epochSeconds_lt`: later days start more seconds after the start of 1970.
* `epochMicroseconds_of_ofEpochMicroseconds`: a moment is found at its own position.
* `exists_ofInt`, `epochMicroseconds_of_ofInt`: which moment a whole number stands for.
* `ofBinary64_whole`: a whole floating number stands for the same moment.
* `OnSecond.epochSeconds_eq`: a moment on a whole second is a whole number of seconds.
* `ofInt_date_iff`, `ofInt_seconds_iff`: exactly up to the threshold, seconds lead back to their day
  and to their instant.
-/

namespace IndexedRecords

/-! ### Times of a day -/

theorem TimeOfDay.microseconds_ofMicroseconds (n : Nat) :
    (TimeOfDay.ofMicroseconds n).microseconds = n := by
  rw [ofMicroseconds, microseconds]
  dsimp only
  omega

theorem TimeOfDay.Valid.microseconds_lt {t : TimeOfDay} (h : t.Valid) :
    t.microseconds < 86400000000 := by
  obtain ⟨hhour, hminute, hsecond, hmicrosecond⟩ := h
  rw [microseconds]
  omega

/-! ### Days in seconds -/

namespace Date

theorem Valid.natAbs_epochSeconds_lt {d : Date} (h : d.Valid) :
    d.epochSeconds.natAbs < 10 ^ 12 := by
  obtain ⟨hpos, hle⟩ := h.ordinal_bounds
  rw [lastOrdinal] at hle
  rw [epochSeconds, dayNumber, epochOrdinal]
  omega

/-- **Days in seconds.** Later days start more seconds after the start of 1970. -/
theorem epochSeconds_lt {d d' : Date} (h : d.Valid) (h' : d'.Valid) (hlt : d < d') :
    d.epochSeconds < d'.epochSeconds := by
  have hordinal : d.ordinal < d'.ordinal := strictMonoOn_ordinal h h' hlt
  rw [epochSeconds, epochSeconds, dayNumber, dayNumber]
  omega

end Date

namespace Moment

variable {m : Moment} {k n : Int}

/-! ### Positions -/

/-- A moment is found at a position of its day. -/
theorem exists_of_ofEpochMicroseconds (h : ofEpochMicroseconds k = some m)
    (hyear : m.date.year ≠ 0) :
    ∃ date : Date, date.Valid ∧ date.dayNumber = k / microsecondsPerDay ∧
      m = ⟨date, .ofMicroseconds (k % microsecondsPerDay).toNat, some 0⟩ := by
  obtain ⟨date, hdate, rfl⟩ := Option.map_eq_some_iff.mp h
  obtain ⟨hvalid, hday⟩ := Date.dayNumber_of_ofDayNumberWithYearZero? hdate hyear
  exact ⟨date, hvalid, hday, rfl⟩

/-- **Positions lead back.** A moment is found at its own position. -/
theorem epochMicroseconds_of_ofEpochMicroseconds (h : ofEpochMicroseconds k = some m)
    (hyear : m.date.year ≠ 0) : m.epochMicroseconds = k := by
  obtain ⟨date, -, hday, rfl⟩ := exists_of_ofEpochMicroseconds h hyear
  rw [epochMicroseconds, TimeOfDay.microseconds_ofMicroseconds]
  dsimp only [Option.getD_some]
  rw [hday, microsecondsPerDay]
  omega

/-- There is a moment at every position that is not too far from 1970. -/
theorem exists_ofEpochMicroseconds (h : k.natAbs ≤ millisecondThreshold * 1000000) :
    ∃ m, ofEpochMicroseconds k = some m ∧ m.date.year ≠ 0 := by
  rw [millisecondThreshold] at h
  have hpos : 0 < k / microsecondsPerDay + Date.epochOrdinal := by
    rw [microsecondsPerDay, Date.epochOrdinal]
    omega
  have hle : k / microsecondsPerDay + Date.epochOrdinal ≤ Date.lastOrdinal := by
    rw [microsecondsPerDay, Date.epochOrdinal, Date.lastOrdinal]
    omega
  obtain ⟨date, hdate⟩ := Date.exists_ofDayNumber? hpos hle
  have hyear := (Date.dayNumber_of_ofDayNumber? hdate).1.year_pos
  refine ⟨_, by rw [ofEpochMicroseconds, Date.ofDayNumberWithYearZero?, if_pos hpos, hdate]; rfl,
    ?_⟩
  exact Nat.ne_of_gt hyear

/-! ### Numbers as moments -/

/-- The moment of a whole number is as many seconds from 1970, or as many milliseconds above the
threshold. -/
theorem epochMicroseconds_of_ofInt (h : ofInt n = some m) (hyear : m.date.year ≠ 0) :
    m.epochMicroseconds =
      if millisecondThreshold < n.natAbs then n * 1000 else n * 1000000 :=
  epochMicroseconds_of_ofEpochMicroseconds h hyear

/-- Up to the threshold, there is a moment for every whole number. -/
theorem exists_ofInt (h : n.natAbs ≤ millisecondThreshold) :
    ∃ m, ofInt n = some m ∧ m.date.year ≠ 0 := by
  rw [ofInt, if_neg (Nat.not_lt.mpr h)]
  refine exists_ofEpochMicroseconds ?_
  rw [Int.natAbs_mul]
  exact Nat.mul_le_mul_right _ h

theorem signedUnits?_whole (n : Int) :
    (Binary64.finite (n < 0) (n.natAbs * Binary64.one)).signedUnits? =
      some (n * (Binary64.one : Int)) := by
  rw [Binary64.signedUnits?, Nat.cast_mul]
  by_cases hneg : n < 0
  · rw [if_pos (decide_eq_true hneg), Int.ofNat_natAbs_of_nonpos (Int.le_of_lt hneg), Int.neg_mul,
      Int.neg_neg]
  · rw [if_neg (fun h => hneg (of_decide_eq_true h)), Int.natAbs_of_nonneg (Int.not_lt.mp hneg)]

theorem roundHalfUp_zero {den : Nat} (h : 0 < den) : roundHalfUp 0 den = 0 := by
  rw [roundHalfUp, Nat.mul_zero, Nat.zero_add]
  exact Nat.div_eq_of_lt (by omega)

/-- A whole number of time units leaves nothing to be rounded. -/
theorem ofTimeUnits_whole (microseconds : Nat) (n : Int) :
    ofTimeUnits microseconds (.finite (n < 0) (n.natAbs * Binary64.one)) =
      ofEpochMicroseconds (n * microseconds) := by
  have hone := Binary64.one_pos
  have hne : (Binary64.one : Int) ≠ 0 := Int.natCast_ne_zero.mpr (Nat.ne_of_gt hone)
  have hzero : Binary64.ofRatio false (0 * microseconds) Binary64.one = .finite false 0 := by
    have hexact := Binary64.ofRatio_whole (show 0 < 2 ^ 53 by decide) hone false
    rwa [Nat.zero_mul] at hexact ⊢
  have hpart : (Binary64.finite false 0).signedUnits? = some 0 := rfl
  rw [ofTimeUnits, signedUnits?_whole, Option.bind_eq_bind, Option.bind_some,
    Int.mul_ediv_cancel n hne, Int.mul_emod_left, Int.toNat_zero]
  dsimp only
  rw [hzero, hpart, Option.bind_some, Int.toNat_zero, roundHalfUp_zero hone,
    Nat.cast_zero, Int.add_zero]

/-- A whole floating number stands for the same moment as the whole number. -/
theorem ofBinary64_whole (n : Int) :
    ofBinary64 (.finite (n < 0) (n.natAbs * Binary64.one)) = ofInt n := by
  have hlarge : millisecondThreshold * Binary64.one < n.natAbs * Binary64.one ↔
      millisecondThreshold < n.natAbs := Nat.mul_lt_mul_right Binary64.one_pos
  rw [ofBinary64, ofTimeUnits_whole, ofInt]
  simp only [hlarge]
  split <;> rfl

/-! ### Moments on whole seconds -/

/-- The number of whole seconds from the start of 1970. -/
def seconds (m : Moment) : Int := m.epochMicroseconds / 1000000

/-- A moment of the calendar on a whole second; an offset is less than a day. -/
structure OnSecond (m : Moment) : Prop where
  date : m.date.Valid
  time : m.time.Valid
  whole : m.time.microsecond = 0
  offset : ∀ seconds ∈ m.offset, seconds.natAbs < 86400

namespace OnSecond

theorem epochMicroseconds_eq (h : m.OnSecond) : m.epochMicroseconds = m.seconds * 1000000 := by
  have hwhole := h.whole
  rw [seconds, epochMicroseconds, TimeOfDay.microseconds, microsecondsPerDay, hwhole]
  omega

theorem natAbs_seconds_lt (h : m.OnSecond) : m.seconds.natAbs < 10 ^ 12 := by
  obtain ⟨hpos, hle⟩ := h.date.ordinal_bounds
  have htime := h.time.microseconds_lt
  have hoffset : (m.offset.getD 0).natAbs < 86400 := by
    cases hm : m.offset with
    | none => decide
    | some offset => exact h.offset offset hm
  rw [Date.lastOrdinal] at hle
  rw [seconds, epochMicroseconds, Date.dayNumber, Date.epochOrdinal, microsecondsPerDay]
  omega

/-- A moment on a whole second is written as a whole number of seconds. -/
theorem epochSeconds_eq (h : m.OnSecond) :
    m.epochSeconds = .finite (m.seconds < 0) (m.seconds.natAbs * Binary64.one) := by
  have hseconds := h.epochMicroseconds_eq
  have hsmall : m.seconds.natAbs < 2 ^ 53 := Nat.lt_trans h.natAbs_seconds_lt (by decide)
  have hsign : m.epochMicroseconds < 0 ↔ m.seconds < 0 := by omega
  have habs : m.epochMicroseconds.natAbs = m.seconds.natAbs * 1000000 := by
    rw [hseconds, Int.natAbs_mul]
    rfl
  rw [epochSeconds, habs, Binary64.ofRatio_whole hsmall (by decide)]
  simp only [hsign]

end OnSecond

/-! ### What seconds lead back to

Above the threshold, seconds are taken for milliseconds, which lead to another day and to another
instant. -/

/-- **Dates lead back.** The seconds to the start of a day lead back to this start exactly up to the
threshold. -/
theorem ofInt_date_iff {d : Date} (h : d.Valid) :
    (∃ m, ofInt d.epochSeconds = some m ∧ m.time = .midnight ∧ m.date = d) ↔
      d.epochSeconds.natAbs ≤ millisecondThreshold := by
  refine ⟨?_, fun hle => ?_⟩
  · rintro ⟨m, hm, -, hdate⟩
    by_contra hlarge
    have hyear : m.date.year ≠ 0 := by
      rw [hdate]
      exact Nat.ne_of_gt h.year_pos
    rw [ofInt, if_pos (Nat.lt_of_not_le hlarge)] at hm
    obtain ⟨date, -, hday, rfl⟩ := exists_of_ofEpochMicroseconds hm hyear
    obtain rfl : date = d := hdate
    -- the day would be the one at a thousandth of its distance from 1970
    rw [Date.epochSeconds, microsecondsPerDay] at hday
    rw [Date.epochSeconds, millisecondThreshold] at hlarge
    omega
  · obtain ⟨m, hm, hyear⟩ := exists_ofInt hle
    have hm' := hm
    rw [ofInt, if_neg (Nat.not_lt.mpr hle)] at hm'
    obtain ⟨date, hvalid, hday, rfl⟩ := exists_of_ofEpochMicroseconds hm' hyear
    have hdays : date.dayNumber = d.dayNumber := by
      rw [hday, Date.epochSeconds, microsecondsPerDay]
      omega
    have hstart : d.epochSeconds * 1000000 % microsecondsPerDay = 0 := by
      rw [Date.epochSeconds, microsecondsPerDay]
      omega
    refine ⟨_, hm, ?_, Date.eq_of_dayNumber hvalid h hdays⟩
    rw [hstart]
    rfl

/-- **Instants lead back.** The seconds to a moment lead back to its instant exactly up to the
threshold. -/
theorem ofInt_seconds_iff (h : m.OnSecond) :
    (∃ m', ofInt m.seconds = some m' ∧ m'.date.year ≠ 0 ∧
      m'.epochMicroseconds = m.epochMicroseconds) ↔ m.seconds.natAbs ≤ millisecondThreshold := by
  have hseconds := h.epochMicroseconds_eq
  refine ⟨?_, fun hle => ?_⟩
  · rintro ⟨m', hm', hyear, heq⟩
    by_contra hlarge
    rw [epochMicroseconds_of_ofInt hm' hyear, if_pos (Nat.lt_of_not_le hlarge)] at heq
    rw [millisecondThreshold] at hlarge
    omega
  · obtain ⟨m', hm', hyear⟩ := exists_ofInt hle
    refine ⟨m', hm', hyear, ?_⟩
    rw [epochMicroseconds_of_ofInt hm' hyear, if_neg (Nat.not_lt.mpr hle), hseconds]

end Moment

end IndexedRecords
