import IndexedRecords.Schema
import IndexedRecords.Search.Literal

/-!
# Predicates

A predicate is a tree over tests of single fields, all of one record type. Nothing is looked up in
the schema before a predicate is rendered; rendering fails with the fault of the leftmost test that
cannot be rendered.
-/

namespace IndexedRecords

/-- The units of distances. -/
inductive GeoUnit where
  | meters
  | kilometers
  | miles
  | feet
  deriving DecidableEq, Repr

namespace GeoUnit

/-- The word for a unit in a query. -/
def word : GeoUnit → String
  | .meters => "m"
  | .kilometers => "km"
  | .miles => "mi"
  | .feet => "ft"

/-- The unit of a given word. -/
def ofWord? (s : String) : Option GeoUnit :=
  [meters, kilometers, miles, feet].find? fun u => u.word = s

end GeoUnit

/-- The comparisons of a field with a value. -/
inductive Comparison where
  | equal
  | notEqual
  | greater
  | greaterEqual
  | less
  | lessEqual
  deriving DecidableEq, Repr

/-- A test of one field. -/
inductive FieldTest where
  | compare (op : Comparison) (operand : Value)
  /-- lies between two bounds, both included; null stands for no bound -/
  | between (low high : Value)
  | oneOf (options : List Value)
  /-- lies within a distance from a point -/
  | within (longitude latitude radius : Value) (unit : GeoUnit)

/-- A condition on the records of a type. -/
inductive Predicate where
  | test (field : FieldPath) (t : FieldTest)
  | both (l r : Predicate)
  | either (l r : Predicate)
  | negation (p : Predicate)

/-- The leaf that a reference points to. -/
def FieldPath.resolve (c : Catalogue) (path : FieldPath) : Except SearchFault Leaf := do
  let missing := SearchFault.notIndexed path.model (Value.quotedText path.name)
  match c.find? path.model with
  | none => .error missing
  | some record =>
    match ← Schema.findLeaf c record path.name with
    | some leaf => return leaf
    | none => .error missing

namespace FieldTest

/-- The clause that a leaf has a value. -/
def equalClause (l : Leaf) (v : Value) : Except SearchFault String := do
  let literal ← v.queryLiteral l.type l.queryAlias
  match l.type with
  | .tag => return "(@" ++ l.queryAlias ++ ":\x7b" ++ literal ++ "\x7d)"
  | .numeric => return "@" ++ l.queryAlias ++ ":[" ++ literal ++ " " ++ literal ++ "]"
  | _ => return "@" ++ l.queryAlias ++ ":(" ++ literal ++ ")"

/-- The clause that a leaf lies between two written bounds. -/
def rangeClause (l : Leaf) (low high : String) : String :=
  "@" ++ l.queryAlias ++ ":[" ++ low ++ " " ++ high ++ "]"

/-- The number that a leaf is compared with. Only numeric leaves have an order. -/
def boundNumber (l : Leaf) (v : Value) : Except SearchFault Number :=
  if l.type = .numeric then v.indexedNumber l.queryAlias
  else .error (.wrongType l.queryAlias l.type .numericField)

/-- A bound that belongs to the range. -/
def closedBound (l : Leaf) (v : Value) : Except SearchFault String := do
  (← boundNumber l v).display

/-- A bound that does not belong to the range. On a leaf of whole numbers it is the next number
inside of the range; elsewhere a parenthesis marks it. -/
def openBound (l : Leaf) (v : Value) (inward : Int) : Except SearchFault String := do
  match ← boundNumber l v with
  | .int n =>
    if l.integral then shownInt (n + inward)
    else return "(" ++ (← shownInt n)
  | .float x => return "(" ++ String.ofList x.text

/-- A bound of a range that may be open-ended. -/
def optionalBound (l : Leaf) (unbounded : String) (v : Value) : Except SearchFault String :=
  match v with
  | .none => .ok unbounded
  | v => closedBound l v

/-- The clause that a leaf has one of several values. -/
def oneOfClause (l : Leaf) (options : List Value) : Except SearchFault String := do
  if l.type = .tag then
    let literals ← options.mapM fun v => v.queryLiteral l.type l.queryAlias
    return "@" ++ l.queryAlias ++ ":\x7b" ++ "|".intercalate literals ++ "\x7d"
  else
    match ← options.mapM (equalClause l) with
    | [clause] => return clause
    | clauses => return "(" ++ " | ".intercalate clauses ++ ")"

/-- The clause that a leaf lies within a distance from a point. -/
def withinClause (l : Leaf) (longitude latitude radius : Value) (unit : GeoUnit) :
    Except SearchFault String := do
  if l.type = .geo then
    let longitude ← longitude.numberText
    let latitude ← latitude.numberText
    let radius ← radius.numberText
    return "@" ++ l.queryAlias ++ ":[" ++ longitude ++ " " ++ latitude ++ " " ++ radius ++ " " ++
      unit.word ++ "]"
  else .error (.wrongType l.queryAlias l.type .geoField)

/-- The clause of a test on a leaf. -/
def clause (l : Leaf) : FieldTest → Except SearchFault String
  | .compare .equal v => equalClause l v
  | .compare .notEqual v => do return "-" ++ (← equalClause l v)
  | .compare .greater v => do return rangeClause l (← openBound l v 1) "+inf"
  | .compare .greaterEqual v => do return rangeClause l (← closedBound l v) "+inf"
  | .compare .less v => do return rangeClause l "-inf" (← openBound l v (-1))
  | .compare .lessEqual v => do return rangeClause l "-inf" (← closedBound l v)
  | .between low high => do
    let low ← optionalBound l "-inf" low
    let high ← optionalBound l "+inf" high
    return rangeClause l low high
  | .oneOf options => oneOfClause l options
  | .within longitude latitude radius unit => withinClause l longitude latitude radius unit

end FieldTest

namespace Predicate

/-- The record type that a predicate is about. -/
def model : Predicate → String
  | .test field _ => field.model
  | .both l _ => l.model
  | .either l _ => l.model
  | .negation p => p.model

/-- The text of a predicate in a query. -/
def render (c : Catalogue) : Predicate → Except SearchFault String
  | .test field t => do t.clause (← field.resolve c)
  | .both l r => do
    let left ← l.render c
    let right ← r.render c
    return "(" ++ left ++ " " ++ right ++ ")"
  | .either l r => do
    let left ← l.render c
    let right ← r.render c
    return "(" ++ left ++ " | " ++ right ++ ")"
  | .negation p => do
    let inner ← p.render c
    return "(-" ++ inner ++ ")"

/-- Whether a predicate can be combined with what is about a given record type. -/
def checkModel (expected : String) (p : Predicate) : Except SearchFault Unit :=
  if p.model = expected then .ok () else .error (.otherModel expected p.model)

/-- Both predicates, if they are about one record type. -/
def and (l r : Predicate) : Except SearchFault Predicate := do
  checkModel l.model r
  return .both l r

/-- Either predicate, if they are about one record type. -/
def or (l r : Predicate) : Except SearchFault Predicate := do
  checkModel l.model r
  return .either l r

/-- The test that a field has one of the values that a value yields. -/
def isOneOf (field : FieldPath) (options : Value) : Except SearchFault Predicate := do
  match ← options.items with
  | [] => .error (.noOptions field.name)
  | options => return .test field (.oneOf options)

end Predicate

end IndexedRecords
