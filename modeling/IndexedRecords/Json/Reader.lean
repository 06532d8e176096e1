import IndexedRecords.Json
import IndexedRecords.Number.Numeral
import IndexedRecords.Text.Quoted

/-!
# Reading documents

A text is read strictly: one value, with blanks only between tokens. Beyond the usual grammar the
names of infinity and of no number stand for floating numbers. Reading fails on whole numbers that
take more than `Numeral.digitLimit` characters, a minus included, and on containers that nest deeper
than `nestingLimit`.
-/

namespace IndexedRecords.Json

open Numeral Text

/-- The number of containers that may stand inside each other. -/
def nestingLimit : Nat := 200

/-- Whether a character may stand between tokens. -/
def isGap (c : Char) : Bool := c = ' ' || c = '\t' || c = '\n' || c = '\r'

/-- The text after its leading blanks. -/
def skipGaps (cs : List Char) : List Char := cs.dropWhile isGap

/-! ### Quoted texts -/

/-- The sixteen-bit unit of four hexadecimal digits. -/
def unit? (a b c d : Char) : Option Nat := do
  some (((← hexDigit? a) * 16 + (← hexDigit? b)) * 256 + (← hexDigit? c) * 16 + (← hexDigit? d))

/-- The character of a simple escape. -/
def simpleEscape? (c : Char) : Option Char :=
  if c = '"' ∨ c = '\\' ∨ c = '/' then some c
  else if c = 'b' then some '\x08'
  else if c = 'f' then some '\x0c'
  else if c = 'n' then some '\n'
  else if c = 'r' then some '\r'
  else if c = 't' then some '\t'
  else none

/-- Reads a quoted text after its opening quote, and returns the text after it. The first argument
is the first unit of a pair whose second one has to follow. -/
def readQuoted : (due : Option Nat) → List Char → Option (List Char × List Char)
  | _, [] => none
  | due, '\\' :: 'u' :: a :: b :: c :: d :: rest =>
    match unit? a b c d, due with
    | none, _ => none
    | some unit, some high =>
      if 0xDC00 ≤ unit ∧ unit ≤ 0xDFFF then
        (readQuoted none rest).map fun (cs, after) =>
          (Char.ofNat (0x10000 + (high - 0xD800) * 0x400 + (unit - 0xDC00)) :: cs, after)
      else none
    | some unit, none =>
      if 0xD800 ≤ unit ∧ unit ≤ 0xDBFF then readQuoted (some unit) rest
      else if 0xDC00 ≤ unit ∧ unit ≤ 0xDFFF then none
      else (readQuoted none rest).map fun (cs, after) => (Char.ofNat unit :: cs, after)
  | some _, _ => none
  | none, '\\' :: e :: rest =>
    match simpleEscape? e with
    | some c => (readQuoted none rest).map fun (cs, after) => (c :: cs, after)
    | none => none
  | none, c :: rest =>
    if c = '"' then some ([], rest)
    else if c = '\\' ∨ c.toNat < 32 then none
    else (readQuoted none rest).map fun (cs, after) => (c :: cs, after)

/-! ### Numbers -/

/-- Reads the fraction of a number: its digits, or nothing where there is no point. -/
def readFractionPart : List Char → Option (List Nat × List Char)
  | '.' :: rest =>
    match spanDigits rest with
    | ([], _) => none
    | (digits, after) => some (digits, after)
  | cs => some ([], cs)

/-- Reads the exponent of a number, or nothing where there is none. -/
def readExponentPart : List Char → Option (Option Int × List Char)
  | [] => some (none, [])
  | c :: rest =>
    if c = 'e' ∨ c = 'E' then
      let (negative, body) := sign rest
      match spanDigits body with
      | ([], _) => none
      | (digits, after) =>
        let e : Int := ofDigits digits
        some (some (if negative then -e else e), after)
    else some (none, c :: rest)

/-- Reads a number without its sign, and returns the text after it. A minus counts among the
characters that a whole number may have. -/
def readMagnitude (negative : Bool) (cs : List Char) : Option (Json × List Char) := do
  let (whole, cs) := spanDigits cs
  if whole = [] ∨ (whole.head? = some 0 ∧ 1 < whole.length) then none
  else
    let (fraction, afterFraction) ← readFractionPart cs
    let (exponent, rest) ← readExponentPart afterFraction
    if fraction = [] ∧ exponent = none then
      if digitLimit < whole.length + (if negative then 1 else 0) then none
      else
        let n : Int := ofDigits whole
        some (.int (if negative then -n else n), rest)
    else
      some (.float (.ofScientific negative (ofDigits (whole ++ fraction))
        (exponent.getD 0 - fraction.length)), rest)

/-- Reads a given word, and returns the text after it. -/
def readWord (word : String) (value : Json) (cs : List Char) : Option (Json × List Char) :=
  (word.toList.isPrefixOf? cs).map fun rest => (value, rest)

/-- Reads a value that is no container. -/
def readAtom : List Char → Option (Json × List Char)
  | [] => none
  | c :: rest =>
    if c = '"' then
      (readQuoted none rest).map fun (cs, after) => (.text (String.ofList cs), after)
    else if c = '-' then
      if rest.head? = some 'I' then readWord "Infinity" (.float (.infinite true)) rest
      else readMagnitude true rest
    else if c = 'n' then readWord "null" .null (c :: rest)
    else if c = 't' then readWord "true" (.bool true) (c :: rest)
    else if c = 'f' then readWord "false" (.bool false) (c :: rest)
    else if c = 'N' then readWord "NaN" (.float .nan) (c :: rest)
    else if c = 'I' then readWord "Infinity" (.float (.infinite false)) (c :: rest)
    else readMagnitude false (c :: rest)

/-! ### Containers -/

mutual

/-- Reads a value, and returns the text after it. The first bound counts containers, the second one
steps; twice the length of the text is enough for it. -/
def readValue : (depth bound : Nat) → List Char → Option (Json × List Char)
  | _, 0, _ => none
  | depth, bound + 1, cs =>
    match skipGaps cs with
    | '[' :: rest =>
      match skipGaps rest with
      | ']' :: after => some (.array [], after)
      | _ =>
        if depth = 0 then none
        else (readItems (depth - 1) bound rest).map fun (items, after) => (.array items, after)
    | '\x7b' :: rest =>
      match skipGaps rest with
      | '\x7d' :: after => some (.object [], after)
      | _ =>
        if depth = 0 then none
        else
          (readMembers (depth - 1) bound rest).map fun (members, after) =>
            (.object (mergeMembers members), after)
    | cs => readAtom cs

/-- Reads the items of an array up to its end. -/
def readItems : (depth bound : Nat) → List Char → Option (List Json × List Char)
  | _, 0, _ => none
  | depth, bound + 1, cs =>
    match readValue depth bound cs with
    | none => none
    | some (item, rest) =>
      match skipGaps rest with
      | ',' :: rest => (readItems depth bound rest).map fun (items, after) => (item :: items, after)
      | ']' :: after => some ([item], after)
      | _ => none

/-- Reads the members of an object up to its end. -/
def readMembers : (depth bound : Nat) → List Char → Option (List (String × Json) × List Char)
  | _, 0, _ => none
  | depth, bound + 1, cs =>
    match skipGaps cs with
    | '"' :: rest =>
      match readQuoted none rest with
      | none => none
      | some (name, rest) =>
        match skipGaps rest with
        | ':' :: rest =>
          match readValue depth bound rest with
          | none => none
          | some (value, rest) =>
            match skipGaps rest with
            | ',' :: rest =>
              (readMembers depth bound rest).map fun (members, after) =>
                ((String.ofList name, value) :: members, after)
            | '\x7d' :: after => some ([(String.ofList name, value)], after)
            | _ => none
        | _ => none
    | _ => none

end

/-- The document that a text is, if it is one. -/
def read? (cs : List Char) : Option Json :=
  match readValue nestingLimit (2 * cs.length + 1) cs with
  | some (value, rest) => if skipGaps rest = [] then some value else none
  | none => none

end IndexedRecords.Json
