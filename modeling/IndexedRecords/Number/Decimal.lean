import IndexedRecords.Number.Numeral

/-!
# Decimal numbers

Decimals of any precision: a coefficient and an exponent, so that `2.50` and `2.5` differ in writing
though not in value. Beside them stand the infinities and the quiet and signalling forms of no
number.
-/

namespace IndexedRecords

/-- A decimal number; a finite one is `± coefficient · 10 ^ exponent`. -/
inductive Decimal where
  | finite (negative : Bool) (coefficient : Nat) (exponent : Int)
  | infinite (negative : Bool)
  | nan (negative signalling : Bool) (payload : Nat)
  deriving DecidableEq, Repr

namespace Decimal

open Numeral

/-- Reads the name of a decimal that is not finite. -/
def readName (negative : Bool) (name : List Char) : Option Decimal :=
  if name = ['i', 'n', 'f'] ∨ name = ['i', 'n', 'f', 'i', 'n', 'i', 't', 'y'] then
    some (.infinite negative)
  else
    let (signalling, name) :=
      match name with
      | 's' :: rest => (true, rest)
      | _ => (false, name)
    match name with
    | 'n' :: 'a' :: 'n' :: payload =>
      match spanDigits payload with
      | (digits, []) => some (.nan negative signalling (ofDigits digits))
      | _ => none
    | _ => none

/-- Reads a decimal; blanks around it and underscores anywhere in it do not count. -/
def read? (cs : List Char) : Option Decimal :=
  let (negative, body) := sign ((Text.plainDigits (Text.trim cs)).filter (· != '_'))
  match readDecimal body with
  | some (coefficient, exponent) => some (.finite negative coefficient exponent)
  | none => readName negative (body.map Char.toLower)

/-- The whole number as a decimal. -/
def ofInt (n : Int) : Decimal := .finite (n < 0) n.natAbs 0

/-- The digits of a finite decimal with a point, or with an exponent where the last digit stands
left of the point or the first one more than six places right of it. -/
def finiteText (coefficient : Nat) (exponent : Int) : List Char :=
  let digits := Nat.toDigits 10 coefficient
  let left := exponent + digits.length
  let point := if exponent ≤ 0 ∧ -6 < left then left else 1
  let body :=
    if point ≤ 0 then '0' :: '.' :: List.replicate (-point).toNat '0' ++ digits
    else if digits.length ≤ point then digits ++ List.replicate (point - digits.length).toNat '0'
    else digits.take point.toNat ++ '.' :: digits.drop point.toNat
  if left = point then body
  else
    body ++ 'E' :: (if left < point then '-' else '+') :: Nat.toDigits 10 (left - point).natAbs

/-- The text of a decimal. -/
def text : Decimal → List Char
  | .finite negative coefficient exponent =>
    (if negative then ['-'] else []) ++ finiteText coefficient exponent
  | .infinite negative => (if negative then ['-'] else []) ++ "Infinity".toList
  | .nan negative signalling payload =>
    (if negative then ['-'] else []) ++ (if signalling then ['s'] else []) ++ "NaN".toList ++
      (if payload = 0 then [] else Nat.toDigits 10 payload)

/-- The binary number nearest to a decimal; a signalling form has none. -/
def toBinary64? : Decimal → Option Binary64
  | .finite negative coefficient exponent => some (.ofScientific negative coefficient exponent)
  | .infinite negative => some (.infinite negative)
  | .nan _ signalling _ => if signalling then none else some .nan

/-- The whole number next to a finite decimal in the direction of zero. -/
def truncate (negative : Bool) (coefficient : Nat) (exponent : Int) : Int :=
  let n : Int :=
    match exponent with
    | .ofNat e => (coefficient * Nat.pow 10 e : Nat)
    | .negSucc e => (coefficient / Nat.pow 10 (e + 1) : Nat)
  if negative then -n else n

/-- The whole number that a finite decimal is, if it is one. -/
def whole? : Decimal → Option Int
  | .finite negative coefficient exponent =>
    match exponent with
    | .ofNat _ => some (truncate negative coefficient exponent)
    | .negSucc e =>
      if coefficient % Nat.pow 10 (e + 1) = 0 then some (truncate negative coefficient exponent)
      else none
  | _ => none

end Decimal

end IndexedRecords
