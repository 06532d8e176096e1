import IndexedRecords.Search.Predicate
import IndexedRecords.Search.Reference

/-!
# Expressions

How a predicate is asked for: references to fields that are still to be followed, operators on
them, and combinations. Building an expression follows its references and combines its parts from
left to right; it fails only where a reference does not lead to a field, a membership test has no
options, or predicates about different record types meet.
-/

namespace IndexedRecords

/-- A predicate as it is asked for. -/
inductive Expression where
  | compare (op : Comparison) (ref : Reference) (operand : Value)
  | between (ref : Reference) (low high : Value)
  | oneOf (ref : Reference) (options : Value)
  | within (ref : Reference) (longitude latitude radius : Value) (unit : String)
  | both (l r : Expression)
  | either (l r : Expression)
  | negation (e : Expression)
  /-- all of several expressions, or one of them -/
  | all (es : List Expression)
  | any (es : List Expression)

namespace Expression

mutual

/-- The predicate that an expression asks for. -/
def build (c : Catalogue) : Expression → Except SearchFault Predicate
  | .compare op ref operand => do return .test (← ref.field c) (.compare op operand)
  | .between ref low high => do return .test (← ref.field c) (.between low high)
  | .oneOf ref options => do Predicate.isOneOf (← ref.field c) options
  | .within ref longitude latitude radius unit => do
    let field ← ref.field c
    match GeoUnit.ofWord? unit with
    | some unit => return .test field (.within longitude latitude radius unit)
    | none => .error (.unknownUnit (Value.quotedText unit))
  | .both l r => do
    let left ← build c l
    let right ← build c r
    left.and right
  | .either l r => do
    let left ← build c l
    let right ← build c r
    left.or right
  | .negation e => do return .negation (← build c e)
  | .all es => do
    match ← buildAll c es with
    | [] => .error (.nothingToCombine "and_")
    | first :: others => others.foldlM Predicate.and first
  | .any es => do
    match ← buildAll c es with
    | [] => .error (.nothingToCombine "or_")
    | first :: others => others.foldlM Predicate.or first

/-- The predicates that several expressions ask for, from left to right. -/
def buildAll (c : Catalogue) : List Expression → Except SearchFault (List Predicate)
  | [] => .ok []
  | e :: rest => do
    let p ← build c e
    return p :: (← buildAll c rest)

end

end Expression

end IndexedRecords
