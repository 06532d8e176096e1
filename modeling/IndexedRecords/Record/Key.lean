import IndexedRecords.Record.Check
import IndexedRecords.Value.Convert

/-!
# Names for the keys of maps

The members of an object have names, so a key of a map is written as a text. The kind of a key
decides on its text; the shape of the keys matters only for points, for truth values and special
numbers among the numbers asked for, and for unions.
-/

namespace IndexedRecords

namespace Record

/-- The text of a value, where it can be shown. -/
def shownText? (v : Value) : Option String := v.display.toOption

/-- The text that bytes encode, if they do. -/
def textOfBytes? (content : List UInt8) : Option String :=
  match Utf8.decode? content with
  | .ok cs => some (String.ofList cs)
  | .error _ => none

mutual

/-- The name that a key of a map gets. -/
def keyText? : Value → Option String
  | .none => some "None"
  | .bool b => some (if b then "true" else "false")
  | .int n => some (String.ofList (wholeText n))
  | .float x => if x.isSpecial then some "None" else some (String.ofList x.text)
  | .decimal d => some (String.ofList d.text)
  | .text s => some s
  | .bytes content => textOfBytes? content
  | .date d => some (String.ofList d.text)
  | .moment m => some (String.ofList m.documentText)
  | .point p => shownText? (.point p)
  | .member _ _ _ v => keyText? v
  | .tuple items => (keyTexts? items).map fun names => ",".intercalate names
  | _ => none

/-- The names of several keys. -/
def keyTexts? : List Value → Option (List String)
  | [] => some []
  | v :: rest => do return (← keyText? v) :: (← keyTexts? rest)

end

/-- The name that a number gets as a key where numbers are asked for. -/
def numberName? : Scalar → Value → Option String
  | .int, .bool b => some (if b then "True" else "False")
  | .float, .float x => some (String.ofList x.text)
  | _, _ => none

/-- The name of a key, if it matches its shape or need not match it. -/
def nameIf (fits : Bool) (check : Check) (key : Value) : Option String :=
  if fits || check.forgives key then keyText? key else none

mutual

/-- The name that a key gets where a shape is asked for. -/
def nameAs : Shape → Check → Value → Option String
  | .scalar .point, _, key => shownText? key
  | .scalar s, check, key =>
    match numberName? s key with
    | some name => some name
    | none => nameIf (Check.lenient.suits s key) check key
  | .any, _, key | .bare .sequence, _, key | .generic .type _ _, _, key => keyText? key
  | .enumeration e, check, key =>
    match key with
    | .member name _ _ _ => nameIf (name = e.name) check key
    | key => nameIf false check key
  | .bare .tuple, check, key =>
    match key with
    | .tuple _ => keyText? key
    | key => nameIf false check key
  | .generic .tuple _ args, check, key =>
    match key with
    | .tuple items =>
      if check = .strict ∧ items.length ≠ args.length then none
      else (namesAs args check items).map fun names => ",".intercalate names
    | key => nameIf false check key
  | .variadic item, check, key =>
    match key with
    | .tuple items => (items.mapM fun key => nameAs item check key).map fun names =>
      ",".intercalate names
    | key => nameIf false check key
  | .generic .sequence _ _, _, key | .generic .queue _ _, _, key =>
    match key with
    | .tuple _ => none
    | key => keyText? key
  | .union members, check, key =>
    match key, members.any Shape.isNullType, memberNames members with
    | .none, true, _ => keyText? .none
    | key, _, [name] => name check key
    | key, _, names =>
      check.firstMatch (Shape.anySecondChance members) (names.map fun name check => name check key)
        <|> nameIf false check key
  | .literal values, check, key => nameIf (Check.isAmong values key) check key
  | .annotated inner _, check, key | .renamed _ inner, check, key => nameAs inner check key
  | _, check, key => nameIf false check key

/-- The names of the items of a tuple; those that no shape is left for are named after their
kind. -/
def namesAs : List Shape → Check → List Value → Option (List String)
  | _, _, [] => some []
  | [], _, keys => keyTexts? keys
  | s :: shapes, check, key :: rest => do
    return (← nameAs s check key) :: (← namesAs shapes check rest)

/-- How keys are named by the members of a union besides null. -/
def memberNames : List Shape → List (Check → Value → Option String)
  | [] => []
  | s :: rest => if s.isNullType then memberNames rest else nameAs s :: memberNames rest

end

end Record

end IndexedRecords
