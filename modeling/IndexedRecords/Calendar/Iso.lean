import IndexedRecords.Calendar.Moment
import IndexedRecords.Number.Layout
import IndexedRecords.Number.Numeral

/-!
# Dates and moments as text

The notation `2024-01-31` of dates and `2024-01-31T12:30:45.250000+05:30` of moments: writing it in
full, writing it as documents have it, and reading it.
-/

namespace IndexedRecords

open NumberLayout Text

/-! ### Writing -/

/-- A date as year, month and day. -/
def Date.text (d : Date) : List Char :=
  padded 4 d.year ++ '-' :: padded 2 d.month ++ '-' :: padded 2 d.day

/-- A time as hour, minute and second, with six digits of microseconds unless they are zero. -/
def TimeOfDay.text (t : TimeOfDay) : List Char :=
  padded 2 t.hour ++ ':' :: padded 2 t.minute ++ ':' :: padded 2 t.second ++
    if t.microsecond = 0 then [] else '.' :: padded 6 t.microsecond

namespace Moment

/-- An offset as sign, hours and minutes. -/
def shortOffsetText (offset : Int) : List Char :=
  let minutes := offset.natAbs / 60
  (if offset < 0 then '-' else '+') :: padded 2 (minutes / 60) ++ ':' :: padded 2 (minutes % 60)

/-- An offset as sign, hours and minutes, with seconds unless they are zero. -/
def offsetText (offset : Int) : List Char :=
  shortOffsetText offset ++
    if offset.natAbs % 60 = 0 then [] else ':' :: padded 2 (offset.natAbs % 60)

/-- A moment in full, with a given character between day and time. -/
def text (m : Moment) (separator : Char) : List Char :=
  m.date.text ++ separator :: m.time.text ++
    match m.offset with
    | none => []
    | some offset => offsetText offset

/-- A moment as documents have it: universal time is marked by a letter. -/
def documentText (m : Moment) : List Char :=
  m.date.text ++ 'T' :: m.time.text ++
    match m.offset with
    | none => []
    | some offset => if offset = 0 then ['Z'] else shortOffsetText offset

end Moment

/-! ### Reading -/

/-- Reads a fixed number of digits. -/
def readDigits : (count : Nat) → (value : Nat) → List Char → Option (Nat × List Char)
  | 0, value, cs => some (value, cs)
  | _ + 1, _, [] => none
  | count + 1, value, c :: rest =>
    (asciiDigit? c).bind fun d => readDigits count (10 * value + d) rest

/-- Reads one given character. -/
def readMark (mark : Char) : List Char → Option (List Char)
  | [] => none
  | c :: rest => if c = mark then some rest else none

/-- Reads a date of the years 0 to 9999, and returns the text after it. -/
def Date.readStart (cs : List Char) : Option (Date × List Char) := do
  let (year, cs) ← readDigits 4 0 cs
  let cs ← readMark '-' cs
  let (month, cs) ← readDigits 2 0 cs
  let cs ← readMark '-' cs
  let (day, cs) ← readDigits 2 0 cs
  if 1 ≤ month ∧ month ≤ 12 ∧ 1 ≤ day ∧ day ≤ Date.daysInMonth year month then
    some (⟨year, month, day⟩, cs)
  else none

/-- The digits at the start of a text, at least one. -/
def readFraction (cs : List Char) : Option (Nat × List Char) :=
  let digits := cs.takeWhile fun c => (asciiDigit? c).isSome
  if digits = [] then none
  else
    let six := (digits.take 6 ++ List.replicate (6 - digits.length) '0').filterMap asciiDigit?
    some (six.foldl (fun n d => 10 * n + d) 0, cs.drop digits.length)

/-- Reads the seconds of a time, which may be left out. -/
def readSeconds : List Char → Option (Nat × Nat × List Char)
  | ':' :: cs => do
    let (second, cs) ← readDigits 2 0 cs
    match cs with
    | c :: rest =>
      if c = '.' ∨ c = ',' then
        let (microsecond, cs) ← readFraction rest
        some (second, microsecond, cs)
      else some (second, 0, cs)
    | [] => some (second, 0, [])
  | cs => some (0, 0, cs)

/-- Reads a time of day, and returns the text after it. -/
def TimeOfDay.readStart (cs : List Char) : Option (TimeOfDay × List Char) := do
  let (hour, cs) ← readDigits 2 0 cs
  let cs ← readMark ':' cs
  let (minute, cs) ← readDigits 2 0 cs
  let (second, microsecond, cs) ← readSeconds cs
  if hour < 24 ∧ minute < 60 ∧ second < 60 then some (⟨hour, minute, second, microsecond⟩, cs)
  else none

/-- Reads the magnitude of an offset; seconds are accepted only where `withSeconds` says so. -/
def readOffset (withSeconds : Bool) (cs : List Char) : Option Nat := do
  let (hours, cs) ← readDigits 2 0 cs
  let (minutes, cs) ← readDigits 2 0 ((readMark ':' cs).getD cs)
  let (seconds, cs) ←
    if withSeconds ∧ cs ≠ [] then readDigits 2 0 ((readMark ':' cs).getD cs) else some (0, cs)
  let offset := (hours * 60 + minutes) * 60 + seconds
  if cs = [] ∧ minutes < 60 ∧ seconds < 60 ∧ offset < 86400 then some offset else none

/-- Reads what may follow the time of a moment. -/
def readZone (withSeconds : Bool) : List Char → Option (Option Int)
  | [] => some none
  | [c] => if c = 'Z' ∨ c = 'z' then some (some 0) else none
  | '+' :: cs => (readOffset withSeconds cs).map fun (n : Nat) => some (n : Int)
  | c :: cs =>
    if c = '-' ∨ c = '−' then (readOffset withSeconds cs).map fun (n : Nat) => some (-(n : Int))
    else none

namespace Moment

/-- Reads a moment that fills the text. -/
def read? (withSeconds : Bool) (cs : List Char) : Option Moment := do
  let (date, cs) ← Date.readStart cs
  match cs with
  | [] => none
  | c :: cs =>
    if c = 'T' ∨ c = 't' ∨ c = ' ' ∨ c = '_' then
      let (time, cs) ← TimeOfDay.readStart cs
      let offset ← readZone withSeconds cs
      some ⟨date, time, offset⟩
    else none

/-- The whole number that fills a text. -/
def wholeNumeral? (cs : List Char) : Option Int :=
  let (negative, body) := Numeral.sign cs
  match Numeral.spanDigits body with
  | (d :: ds, []) =>
    let n : Int := Numeral.ofDigits (d :: ds)
    some (if negative then -n else n)
  | _ => none

/-- The number with a point that fills a text; an exponent may stand at its end. -/
def pointedNumeral? (cs : List Char) : Option Binary64 :=
  let (negative, body) := Numeral.sign cs
  match Numeral.spanDigits body with
  | (_, '.' :: _) => (Numeral.readDecimal body).map fun (digits, exponent) =>
      .ofScientific negative digits exponent
  | _ => none

/-- Reads a moment of a document: the notation above, or a number. It may lie in the year 0. -/
def ofText (cs : List Char) : Option Moment :=
  match read? false cs, wholeNumeral? cs with
  | some m, _ => some m
  | none, some n => ofInt n
  | none, none => (pointedNumeral? cs).bind ofBinary64

end Moment

/-- Reads a date that fills the text: the notation above, or a whole number that leads to the first
second of a day. It may lie in the year 0. -/
def Date.ofText (cs : List Char) : Option Date :=
  match Date.readStart cs with
  | some (d, []) => some d
  | _ => do
    let m ← Moment.ofInt (← Moment.wholeNumeral? cs)
    if m.time.hour = 0 ∧ m.time.minute = 0 ∧ m.time.second = 0 then some m.date else none

end IndexedRecords
