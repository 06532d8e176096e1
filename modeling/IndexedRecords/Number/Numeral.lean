import IndexedRecords.Text.Ranges
import IndexedRecords.Number.Binary64

/-!
# Numerals

Reading whole and floating numbers from text. White space may surround a numeral, its digits may be
those of any script, and single underscores may stand between digits. A whole number may have at
most `digitLimit` digits.
-/

namespace IndexedRecords.Numeral

open Text

/-- The largest number of decimal digits that a whole number may have in text. -/
def digitLimit : Nat := 4300

/-- The number that decimal digits stand for. -/
def ofDigits (digits : List Nat) : Nat := digits.foldl (fun n d => 10 * n + d) 0

/-- Takes a sign off; `true` stands for a minus. -/
def sign : List Char → Bool × List Char
  | '-' :: rest => (true, rest)
  | '+' :: rest => (false, rest)
  | cs => (false, cs)

/-! ### Whole numbers -/

/-- Why a text is no whole number. -/
inductive Fault where
  /-- it is not written as one -/
  | malformed
  /-- it has more digits than the limit -/
  | tooLong (digits : Nat)
  deriving DecidableEq, Repr

/-- Reads digits with single underscores between them, and returns the text after them. The flag
says that a digit has to follow. -/
def groupedDigits : (digitDue : Bool) → List Char → Option (List Nat × List Char)
  | true, [] => none
  | false, [] => some ([], [])
  | digitDue, c :: rest =>
    if c = '_' then if digitDue then none else groupedDigits true rest
    else
      match asciiDigit? c with
      | some d => (groupedDigits false rest).map fun (ds, after) => (d :: ds, after)
      | none => if digitDue then none else some ([], c :: rest)

/-- Reads a whole number. -/
def readInt (cs : List Char) : Except Fault Int :=
  let (negative, body) := sign (plainDigits (trimBy isSpace cs))
  match groupedDigits true body with
  | none => .error .malformed
  | some (digits, after) =>
    if digitLimit < digits.length then .error (.tooLong digits.length)
    else if after ≠ [] then .error .malformed
    else
      let n : Int := ofDigits digits
      .ok (if negative then -n else n)

/-! ### Floating numbers -/

/-- The ASCII digits at the start of a text, and the text after them. -/
def spanDigits : List Char → List Nat × List Char
  | [] => ([], [])
  | c :: rest =>
    match asciiDigit? c with
    | some d => let (ds, after) := spanDigits rest; (d :: ds, after)
    | none => ([], c :: rest)

/-- Reads an exponent that ends the text; no exponent stands for zero. -/
def readExponent : List Char → Option Int
  | [] => some 0
  | c :: rest =>
    if c = 'e' ∨ c = 'E' then
      let (negative, body) := sign rest
      match spanDigits body with
      | (d :: ds, []) => some (if negative then -(ofDigits (d :: ds) : Int) else ofDigits (d :: ds))
      | _ => none
    else none

/-- Reads an unsigned decimal: its digits as a whole number, and the exponent of the last one. -/
def readDecimal (cs : List Char) : Option (Nat × Int) :=
  let (whole, rest) := spanDigits cs
  let (fraction, rest) :=
    match rest with
    | '.' :: rest => spanDigits rest
    | _ => ([], rest)
  if whole = [] ∧ fraction = [] then none
  else (readExponent rest).map fun e => (ofDigits (whole ++ fraction), e - fraction.length)

/-- Reads a floating number in ASCII without blanks or underscores. The names of infinity and of no
number are accepted in either case. -/
def readPlainFloat (cs : List Char) : Option Binary64 :=
  let (negative, body) := sign cs
  let name := body.map Char.toLower
  if name = ['i', 'n', 'f'] ∨ name = ['i', 'n', 'f', 'i', 'n', 'i', 't', 'y'] then
    some (.infinite negative)
  else if name = ['n', 'a', 'n'] then some .nan
  else (readDecimal body).map fun (digits, exponent) =>
    .ofScientific negative digits exponent

/-- Drops the underscores of a text, if each stands between two digits. -/
def dropUnderscores? : (afterDigit : Bool) → List Char → Option (List Char)
  | _, [] => some []
  | afterDigit, c :: rest =>
    if c = '_' then
      match rest with
      | next :: _ =>
        if afterDigit ∧ (asciiDigit? next).isSome then dropUnderscores? false rest else none
      | [] => none
    else (dropUnderscores? (asciiDigit? c).isSome rest).map (c :: ·)

/-- Reads a floating number. -/
def readFloat (cs : List Char) : Option Binary64 :=
  (dropUnderscores? false (plainDigits (trimBy isSpace cs))).bind readPlainFloat

end IndexedRecords.Numeral
