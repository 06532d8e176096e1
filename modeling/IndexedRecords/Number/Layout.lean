import IndexedRecords.Number.Shortest

/-!
# Layouts of floating numbers

How the digits of a floating number are laid out differs between the text of a query and a JSON
document. Both write the shortest digits that read back, an even last one where two are equally
near; a layout says which magnitudes are written with a decimal point alone and how an exponent
looks.
-/

namespace IndexedRecords

/-- The choices in writing a finite number. -/
structure NumberLayout where
  /-- the least exponent of a first digit that is written without an exponent -/
  leastPlain : Int
  /-- the least exponent above it that is written with an exponent again -/
  leastLarge : Int
  /-- the least number of digits of an exponent -/
  exponentDigits : Nat
  deriving DecidableEq, Repr

/-- Queries and messages write magnitudes from `10⁻⁴` to below `10¹⁶` plainly, and exponents with at
least two digits. -/
def NumberLayout.query : NumberLayout := ⟨-4, 16, 2⟩

/-- Documents write magnitudes from `10⁻⁵` to below `10¹⁶` plainly, and exponents without
padding. -/
def NumberLayout.document : NumberLayout := ⟨-5, 16, 1⟩

namespace NumberLayout

/-- Decimal digits padded with zeros on the left. -/
def padded (width n : Nat) : List Char :=
  let digits := Nat.toDigits 10 n
  List.replicate (width - digits.length) '0' ++ digits

/-- A decimal without an exponent; there is always a digit on either side of the point. -/
def plain (digits : List Char) (exponent : Int) : List Char :=
  match exponent with
  | .ofNat e => digits ++ List.replicate e '0' ++ ['.', '0']
  | .negSucc e =>
    let places := e + 1
    if places < digits.length then
      digits.take (digits.length - places) ++ '.' :: digits.drop (digits.length - places)
    else '0' :: '.' :: List.replicate (places - digits.length) '0' ++ digits

/-- A decimal with one digit before the point and an exponent. -/
def withExponent (layout : NumberLayout) (digits : List Char) (leading : Int) : List Char :=
  let significand :=
    match digits with
    | [] => []
    | [d] => [d]
    | d :: rest => d :: '.' :: rest
  significand ++ 'e' :: (if leading < 0 then '-' else '+') ::
    padded layout.exponentDigits leading.natAbs

/-- The magnitude of a finite number. -/
def magnitude (layout : NumberLayout) (units : Nat) : List Char :=
  if units = 0 then ['0', '.', '0']
  else
    let s := Binary64.shortest .toEven units
    let digits := Nat.toDigits 10 s.digits
    let leading := s.exponent + digits.length - 1
    if layout.leastPlain ≤ leading ∧ leading < layout.leastLarge then plain digits s.exponent
    else layout.withExponent digits leading

/-- A finite number with its sign. -/
def finite (layout : NumberLayout) (negative : Bool) (units : Nat) : List Char :=
  (if negative then ['-'] else []) ++ layout.magnitude units

end NumberLayout

/-- The text of a floating number in queries and messages. -/
def Binary64.text : Binary64 → List Char
  | .nan => ['n', 'a', 'n']
  | .infinite false => ['i', 'n', 'f']
  | .infinite true => ['-', 'i', 'n', 'f']
  | .finite negative units => NumberLayout.query.finite negative units

end IndexedRecords
