import IndexedRecords.Shape
import IndexedRecords.Value.Same

/-!
# Checks of written values

A value is written as the shape of its field, and a union has to find the member that a value
belongs to. So writing can be asked to check that a value matches. Where nothing is checked, a value
that does not match is written as its own kind says.
-/

namespace IndexedRecords

/-- How a value has to match the shape that it is written as. -/
inductive Check where
  /-- not at all -/
  | off
  /-- a record may be of a type that extends the one asked for -/
  | lenient
  /-- a value is of the very kind asked for -/
  | strict
  deriving DecidableEq, Repr

namespace Check

/-- Whether a value is written although it does not match: null always is. -/
def forgives : Check → Value → Bool
  | .off, _ | _, .none => true
  | _, _ => false

/-- What the first member of a union gives that a value matches. Records get a second chance, in
which types that extend the one asked for count as well, unless the check is strict already. -/
def firstMatch {α : Type} (check : Check) (secondChance : Bool)
    (members : List (Check → Option α)) : Option α :=
  members.findSome? (fun member => member .strict) <|>
    if secondChance ∧ check ≠ .strict then members.findSome? fun member => member .lenient
    else none

/-- Whether a value is of a kind of single values. A member of an enumeration of texts or numbers
counts as a text or number unless the check is strict. -/
def suits (check : Check) : Scalar → Value → Bool
  | .int, .int _ | .float, .float _ | .bool, .bool _ | .text, .text _ | .bytes, .bytes _ => true
  | .decimal, .decimal _ | .moment, .moment _ | .date, .date _ | .bare, _ => true
  | .int, .member _ .whole _ _ | .text, .member _ .text _ _ => check ≠ .strict
  | _, _ => false

/-- Whether a value is one of several given ones. Where numbers or texts are given, a number or a
text is one of these or none. -/
def isAmong (values : List Value) (v : Value) : Bool :=
  let isNumber : Value → Bool
    | .int _ => true
    | _ => false
  let isText : Value → Bool
    | .text _ => true
    | _ => false
  let plain := values.map Value.plain
  let numbers := plain.filter isNumber
  let texts := plain.filter isText
  let others := plain.filter fun w => !isNumber w && !isText w
  let candidates :=
    if isNumber v.plain && !numbers.isEmpty then numbers
    else if isText v.plain && !texts.isEmpty then texts
    else others
  candidates.any fun w => w.same v.plain

/-- Whether a value is written as one of several given ones. -/
def allows (check : Check) (values : List Value) (v : Value) : Bool :=
  check.forgives v || isAmong values v

end Check

namespace Shape

mutual

/-- Whether a member of a union gives records a second chance to match. -/
def hasSecondChance : Shape → Bool
  | .record _ => true
  | .annotated inner _ | .renamed _ inner => hasSecondChance inner
  | .union members => anySecondChance members
  | .generic .sequence _ args | .generic .queue _ args => anySecondChance args
  | _ => false

/-- Whether one of several shapes gives records a second chance to match. -/
def anySecondChance : List Shape → Bool
  | [] => false
  | s :: rest => hasSecondChance s || anySecondChance rest

end

end Shape

end IndexedRecords
