import IndexedRecords.Record.Problem
import IndexedRecords.Shape
import IndexedRecords.Value.Point

/-!
# Reading single values

How a value is read as one of the kinds of single values. Reading is lenient: numbers may come as
text, text as bytes, truth values as words, dates and moments as numbers. What a document gives is
read slightly differently from what a caller gives, since a document has fewer kinds of values.
-/

namespace IndexedRecords

/-- Where a value comes from: a document, the name of a member in one, or a caller. -/
inductive Origin where
  | document
  | name
  | caller
  deriving DecidableEq, Repr

namespace Scalar

open Text Numeral

/-! ### Text of other kinds -/

/-- The characters of a value that can be parsed: a text, or bytes that encode one. Other bytes are
a problem of the given kind. -/
def parseable? (unreadable : ProblemKind) (v : Value) : Option (Except ProblemKind (List Char)) :=
  match v.plain with
  | .text s => some (.ok s.toList)
  | .bytes content =>
    match Utf8.decode? content with
    | .ok cs => some (.ok cs)
    | .error _ => some (.error unreadable)
  | _ => none

/-! ### Whole numbers -/

/-- Whether a numeral can go on with a character once its leading zeros have ended. -/
def startsNumeral (c : Char) : Bool := ('1' ≤ c && c ≤ '9') || c = '-'

/-- Drops zeros and underscores, given the one before them. Where nothing or a point follows them,
the last of them stays. -/
def dropZeros (last : Char) : List Char → Option (List Char)
  | [] => some [last]
  | c :: rest =>
    if c = '0' ∨ c = '_' then dropZeros c rest
    else if startsNumeral c then some (c :: rest)
    else if c = '.' then some (last :: c :: rest)
    else none

/-- Drops the leading zeros of a numeral, with underscores after the first of them. -/
def dropLeadingZeros : List Char → Option (List Char)
  | [] => none
  | c :: rest =>
    if c = '0' then dropZeros c rest else if startsNumeral c then some (c :: rest) else none

/-- Drops a fraction of one or more zeros. -/
def dropZeroFraction (cs : List Char) : List Char :=
  match cutFirst? '.' cs with
  | some (whole, fraction) => if fraction ≠ [] ∧ fraction.all (· = '0') then whole else cs
  | none => cs

/-- Drops underscores, if none of them stands at an end or beside another one. -/
def dropInnerUnderscores? (cs : List Char) : Option (List Char) :=
  if cs.head? = some '_' ∨ cs.getLast? = some '_' ∨ !cs.contains '_' ∨
      (splitAll '_' cs).any (·.isEmpty) then none
  else some (cs.filter (· ≠ '_'))

/-- A numeral without its spaces, plus sign, leading zeros, zero fraction and underscores. -/
def bareNumeral? (cs : List Char) : Option (List Char) := do
  let cs ←
    match trimBy isSpace cs with
    | '+' :: '-' :: _ => none
    | '+' :: rest => dropLeadingZeros rest
    | '-' :: rest => (dropLeadingZeros rest).map ('-' :: ·)
    | cs => dropLeadingZeros cs
  let cs := dropZeroFraction cs
  return (dropInnerUnderscores? cs).getD cs

/-- Reads a whole number from text. A minus counts among the characters that it may have. -/
def intOfText (cs : List Char) : Except ProblemKind Int :=
  match bareNumeral? cs with
  | none => .error .intParsing
  | some cs =>
    let (negative, body) :=
      match cs with
      | '-' :: rest => (true, rest)
      | cs => (false, cs)
    match spanDigits body with
    | (digits, rest) =>
      if digits = [] ∨ (digits.head? = some 0 ∧ 1 < digits.length) then .error .intParsing
      else if digitLimit < digits.length + (if negative then 1 else 0) then .error .intParsingSize
      else if rest ≠ [] then .error .intParsing
      else
        let n : Int := ofDigits digits
        .ok (if negative then -n else n)

/-- Two to the power of sixty-three, the least number that is too large for a word of sixty-four
bits. -/
def wordLimit : Nat := 9223372036854775808

/-- Whether a whole number fits into sixty-four bits. -/
def fitsWord (n : Int) : Bool := -wordLimit ≤ n && n < wordLimit

/-- Reads a whole number from a floating one: it has no fraction and fits into sixty-four bits. -/
def intOfFloat (x : Binary64) : Except ProblemKind Int :=
  if x.isSpecial then .error .finiteNumber
  else
    match x.whole? with
    | none => .error .intFromFloat
    | some n => if n.natAbs < wordLimit then .ok n else .error .intParsingSize

/-- Reads a whole number from a decimal. -/
def intOfDecimal (d : Decimal) : Except ProblemKind Int :=
  match d with
  | .finite _ _ _ =>
    match d.whole? with
    | some n => .ok n
    | none => .error .intFromFloat
  | _ => .error .finiteNumber

/-- Reads a whole number. A member of an enumeration of other values is read as its value. -/
def readInt (v : Value) : Except ProblemKind Value :=
  match parseable? .intParsing v with
  | some cs => do return .int (← intOfText (← cs))
  | none =>
    match v.plain with
    | .int n => .ok (.int n)
    | .bool b => .ok (.int (if b then 1 else 0))
    | .float x => do return .int (← intOfFloat x)
    | .decimal d => do return .int (← intOfDecimal d)
    | .member _ _ _ value => .ok value
    | _ => .error .intType

/-! ### Floating numbers and truth values -/

/-- Reads a floating number from text. -/
def floatOfText (cs : List Char) : Except ProblemKind Binary64 :=
  match readPlainFloat (trimBy isSpace cs) with
  | some x => .ok x
  | none =>
    match (dropInnerUnderscores? cs).bind readPlainFloat with
    | some x => .ok x
    | none => .error .floatParsing

/-- The floating number of a value that is a number; a document may hold whole numbers that are too
large for one. -/
def floatOfNumber? (origin : Origin) (v : Value) : Option Binary64 :=
  match v.plain with
  | .float x => some x
  | .bool b => some (.finite false (if b then Binary64.one else 0))
  | .int n =>
    match origin, Binary64.ofInt? n with
    | _, some x => some x
    | .caller, none => none
    | _, none => some (.infinite (n < 0))
  | .decimal d => d.toBinary64?
  | _ => none

/-- Reads a floating number. -/
def readFloat (origin : Origin) (v : Value) : Except ProblemKind Value :=
  match parseable? .floatParsing v with
  | some cs => do return .float (← floatOfText (← cs))
  | none =>
    match floatOfNumber? origin v with
    | some x => .ok (.float x)
    | none => .error .floatType

/-- The words for true. -/
def trueWords : List String := ["1", "on", "t", "true", "y", "yes"]

/-- The words for false. -/
def falseWords : List String := ["0", "off", "f", "false", "n", "no"]

/-- Reads a truth value from text. -/
def boolOfText (cs : List Char) : Except ProblemKind Bool :=
  let word := String.ofList (cs.map Char.toLower)
  if trueWords.contains word then .ok true
  else if falseWords.contains word then .ok false
  else .error .boolParsing

/-- Reads a truth value from a whole number. -/
def boolOfInt (n : Int) : Except ProblemKind Bool :=
  if n = 0 then .ok false
  else if n = 1 then .ok true
  else if fitsWord n then .error .boolParsing
  else .error .boolType

/-- Reads a truth value. -/
def readBool (v : Value) : Except ProblemKind Value :=
  match parseable? .boolParsing v with
  | some cs => do return .bool (← boolOfText (← cs))
  | none =>
    match v.plain with
    | .bool b => .ok (.bool b)
    | .int n => do return .bool (← boolOfInt n)
    | v =>
      match (floatOfNumber? .caller v).map intOfFloat with
      | some (.ok n) => do return .bool (← boolOfInt n)
      | _ => .error .boolType

/-! ### Text and bytes -/

/-- Reads a text. A member of an enumeration that has no text of its own is shown. -/
def readText (v : Value) : Except ProblemKind Value :=
  match parseable? .stringUnicode v with
  | some cs => do return .text (String.ofList (← cs))
  | none =>
    match v.plain with
    | .member _ _ _ value =>
      match value.display with
      | .ok s => .ok (.text s)
      | .error _ => .error .stringType
    | _ => .error .stringType

/-- Reads bytes. -/
def readBytes (v : Value) : Except ProblemKind Value :=
  match v.plain with
  | .bytes content => .ok (.bytes content)
  | .text s => .ok (.bytes (Utf8.encode s.toList))
  | _ => .error .bytesType

/-! ### Decimals -/

/-- A part of a decimal that has to be a whole number, or a truth value in the place of one. Any
other value ends with the given fault, and a number that does not fit into a word with one that
names the kind of word that takes it. -/
def wordOfPart (malformed : ValueFault) (word : String) (v : Value) : Except ValueFault Int :=
  match v.plain with
  | .bool b => .ok (if b then 1 else 0)
  | .int n => if fitsWord n then .ok n else .error (.tooLargeForWord word)
  | _ => .error malformed

/-- The sign of a decimal that is given in parts; `true` stands for a minus. -/
def signOfPart (v : Value) : Except ValueFault Bool := do
  let n ← wordOfPart .malformedSign "long" v
  if n = 0 then return false
  else if n = 1 then return true
  else .error .malformedSign

/-- A digit of a decimal that is given in parts. -/
def digitOfPart (v : Value) : Except ValueFault Nat := do
  let n ← wordOfPart .malformedDigits "long" v
  if 0 ≤ n ∧ n ≤ 9 then return n.toNat else .error .malformedDigits

/-- The digits of a decimal that is given in parts: a list or a tuple of them. -/
def digitsOfPart (v : Value) : Except ValueFault (List Nat) :=
  match v.plain with
  | .list items | .tuple items => items.mapM digitOfPart
  | _ => .error .malformedDigits

/-- What becomes of the digits of a decimal that is given in parts, as its last part says: an
exponent scales them, and a name in its place makes an infinity or no number of them. -/
def scaleOfPart (negative : Bool) (v : Value) : Except ValueFault (List Nat → Decimal) :=
  match v.plain with
  | .text s =>
    if s = "F" then .ok fun _ => .infinite negative
    else if s = "n" then .ok fun digits => .nan negative false (ofDigits digits)
    else if s = "N" then .ok fun digits => .nan negative true (ofDigits digits)
    else .error .malformedSpecial
  | _ => do
    let exponent ← wordOfPart .malformedExponent "ssize_t" v
    return fun digits => .finite negative (ofDigits digits) exponent

/-- The decimal of a sign, digits and an exponent. The digits are looked at last. -/
def decimalOfParts (sign digits exponent : Value) : Except ValueFault Decimal := do
  let negative ← signOfPart sign
  let scaled ← scaleOfPart negative exponent
  return scaled (← digitsOfPart digits)

/-- The text through which a floating number becomes a decimal: what a document gives is written
without an exponent and without a fraction of zeros, and of two equally near digits the greater
one ends it. -/
def decimalSource (origin : Origin) (x : Binary64) : List Char :=
  match origin, x with
  | .document, .finite negative units =>
    let s := Binary64.shortest .up units
    let digits :=
      if units = 0 then ['0']
      else
        let digits := Nat.toDigits 10 s.digits
        match s.exponent with
        | .ofNat e => digits ++ List.replicate e '0'
        | .negSucc _ => NumberLayout.plain digits s.exponent
    (if negative then ['-'] else []) ++ digits
  | _, x => x.text

/-- Reads a decimal from text. -/
def decimalOfText (cs : List Char) : Except Rejection Decimal :=
  match Decimal.read? cs with
  | some d => .ok d
  | none => .error (.here .decimalParsing)

/-- The decimal that a value gives; it need not be finite. A list or a tuple of three items gives
its parts, and items that are none end the whole reading with a fault. -/
def decimalOf (origin : Origin) (v : Value) : Except Rejection Decimal :=
  match v.plain with
  | .decimal d => .ok d
  | .int n => .ok (.ofInt n)
  | .text s => decimalOfText s.toList
  | .float x => decimalOfText (decimalSource origin x)
  | .list [sign, digits, exponent] | .tuple [sign, digits, exponent] =>
    (decimalOfParts sign digits exponent).mapError .fault
  | _ => .error (.here .decimalType)

/-- Reads a decimal, which has to be finite. -/
def readDecimal (origin : Origin) (v : Value) : Except Rejection Value := do
  let d ← decimalOf origin v
  match d with
  | .finite _ _ _ => return .decimal d
  | _ => .error (.here .finiteNumber)

/-! ### Dates and moments -/

/-- Reads a moment from text: a moment, or a date that stands for its midnight. -/
def momentOfText (cs : List Char) : Except ProblemKind Moment :=
  match Moment.ofText cs, Date.ofText cs with
  | some m, _ => .ok m
  | none, some d => .ok (.ofDate d)
  | none, none => .error .datetimeFromDateParsing

/-- Reads a moment from a number. -/
def momentOfNumber (origin : Origin) (v : Value) : Except ProblemKind Moment :=
  let settle (r : Option Moment) : Except ProblemKind Moment :=
    match r with
    | some m => .ok m
    | none => .error .datetimeParsing
  match v.plain with
  | .bool _ => .error .datetimeType
  | .int n =>
    if fitsWord n then settle (Moment.ofInt n)
    else
      match origin, Binary64.ofInt? n with
      | .caller, some x => settle (Moment.ofBinary64 x)
      | _, _ => .error .datetimeType
  | v =>
    match floatOfNumber? origin v with
    | some x => settle (Moment.ofBinary64 x)
    | none => .error .datetimeType

/-- The moment that a value gives; it may lie in the year 0. -/
def momentOf (origin : Origin) (v : Value) : Except ProblemKind Moment :=
  match v.plain with
  | .moment m => .ok m
  | .date d => .ok (.ofDate d)
  | _ =>
    match parseable? .datetimeFromDateParsing v with
    | some cs => do momentOfText (← cs)
    | none => momentOfNumber origin v

/-- Reads a moment. -/
def readMoment (origin : Origin) (v : Value) : Except ProblemKind Value := do
  let m ← momentOf origin v
  if m.date.year = 0 then .error .datetimeParsing else return .moment m

/-- The date that a value gives: a date, or a moment at midnight. It may lie in the year 0. -/
def dateOf (origin : Origin) (v : Value) : Except ProblemKind Date :=
  let written : Except ProblemKind Date :=
    match parseable? .dateParsing v with
    | some (.ok cs) =>
      match Date.ofText cs with
      | some d => .ok d
      | none => .error .dateParsing
    | some (.error kind) => .error kind
    | none => .error .dateType
  match v, written with
  | .date d, _ => .ok d
  | _, .ok d => .ok d
  | v, .error kind =>
    match momentOf origin v with
    | .ok m => if m.time = .midnight then .ok m.date else .error .dateFromDatetimeInexact
    | .error .datetimeParsing | .error .datetimeFromDateParsing => .error .dateFromDatetimeParsing
    | .error _ => .error kind

/-- Reads a date. -/
def readDate (origin : Origin) (v : Value) : Except ProblemKind Value := do
  let d ← dateOf origin v
  if d.year = 0 then .error .dateParsing else return .date d

/-! ### All kinds -/

/-- Reads a point. A value that describes none is a problem, a part of it that is no number at all a
fault. -/
def readPoint (v : Value) : Except Rejection Value :=
  match Coordinates.ofValue v with
  | .ok p => .ok (.point p)
  | .error (.notAFloat kind) => .error (.fault (.notAFloat kind))
  | .error .tooLargeForFloat => .error (.fault .tooLargeForFloat)
  | .error _ => .error (.here .valueError)

/-- Reads a value as a kind of single values. -/
def read (origin : Origin) (s : Scalar) (v : Value) : Except Rejection Value :=
  let settle (r : Except ProblemKind Value) : Except Rejection Value := r.mapError .here
  match s with
  | .int => settle (readInt v)
  | .float => settle (readFloat origin v)
  | .bool => settle (readBool v)
  | .text => settle (readText v)
  | .bytes => settle (readBytes v)
  | .decimal => readDecimal origin v
  | .moment => settle (readMoment origin v)
  | .date => settle (readDate origin v)
  | .point => readPoint v
  | .bare => .ok v
  | .complex => .error (.here .complexType)

/-! ### Closeness -/

/-- How closely a value that a caller gives matches the kind that it is read as. -/
def closenessOfGiven : Scalar → Value → Closeness
  | .int, .int _ | .float, .float _ | .bool, .bool _ | .text, .text _ | .bytes, .bytes _ => .exact
  | .decimal, .decimal _ | .moment, .moment _ | .date, .date _ | .point, _ => .exact
  | .int, .member _ .whole _ _ | .text, .member _ .text _ _ => .accepted
  | .float, .int _ | .float, .decimal _ | .float, .member _ .whole _ _ => .accepted
  | .bare, _ => .accepted
  | _, _ => .converted

/-- How closely a value in a document matches the kind that it is read as. Text is the only form
that documents have for many kinds, so it is not converted to them. -/
def closenessOfDocument : Scalar → Value → Closeness
  | .int, .int _ | .float, .float _ | .bool, .bool _ | .point, _ => .exact
  | .float, .int _ | .text, _ | .bytes, _ | .decimal, _ | .bare, _ => .accepted
  | .moment, .text s => if (Moment.ofText s.toList).isSome then .accepted else .converted
  | .date, .text s => if (Date.ofText s.toList).isSome then .accepted else .converted
  | _, _ => .converted

/-- How closely the name of a member of a document matches the kind that it is read as. -/
def closenessOfName : Scalar → Closeness
  | .text | .point => .exact
  | .int | .float | .bytes | .decimal | .bare => .accepted
  | _ => .converted

/-- How closely a value matches the kind that it is read as. -/
def closeness (origin : Origin) (s : Scalar) (v : Value) : Closeness :=
  match origin with
  | .caller => closenessOfGiven s v
  | .document => closenessOfDocument s v
  | .name => closenessOfName s

end Scalar

end IndexedRecords
