import IndexedRecords.Calendar.Moment
import IndexedRecords.Number.Decimal
import IndexedRecords.Referent

/-!
# Values

What the fields of a record hold, what a query compares with and what a store replies. A value
keeps more than a document can show: the members of an enumeration, the exact kind of a sequence
and the declared kind of a record are part of it.
-/

namespace IndexedRecords

/-- A number as a coordinate or a query has it. -/
inductive Number where
  | int (n : Int)
  | float (x : Binary64)
  deriving DecidableEq, Repr, Inhabited

/-- A geographic point. -/
structure Coordinates where
  longitude : Number
  latitude : Number
  deriving DecidableEq, Repr, Inhabited

/-- What the members of an enumeration are besides members: nothing else, texts or whole numbers. -/
inductive EnumKind where
  | plain
  | text
  | whole
  deriving DecidableEq, Repr

/-- A value. -/
inductive Value where
  | none
  | bool (b : Bool)
  | int (n : Int)
  | float (x : Binary64)
  | decimal (d : Decimal)
  | text (s : String)
  | bytes (bytes : List UInt8)
  | date (d : Date)
  | moment (m : Moment)
  | point (p : Coordinates)
  /-- a member of an enumeration, with its value -/
  | member (enumeration : String) (kind : EnumKind) (name : String) (value : Value)
  /-- a record, with all its fields in the order of their declaration -/
  | record (model : String) (fields : List (String × Value))
  | list (items : List Value)
  | tuple (items : List Value)
  /-- a sequence with two ends; it is no list, also where it stands for one -/
  | queue (items : List Value)
  | set (frozen : Bool) (items : List Value)
  | map (entries : List (Value × Value))
  /-- what a reference leads to, in the place of a value -/
  | reference (r : Referent)
  /-- something that nothing is known about -/
  | bare
  deriving Inhabited

namespace Value

/-- What a reference leads to as a value. -/
def ofReferent : Referent → Value
  | .text s => .text s
  | .texts items => .tuple (items.map .text)
  | r => .reference r

/-- The name of the kind of a value. -/
def kindName : Value → String
  | .none => "NoneType"
  | .bool _ => "bool"
  | .int _ => "int"
  | .float _ => "float"
  | .decimal _ => "Decimal"
  | .text _ => "str"
  | .bytes _ => "bytes"
  | .date _ => "date"
  | .moment _ => "datetime"
  | .point _ => "Coordinates"
  | .member enumeration _ _ _ => enumeration
  | .record model _ => model
  | .list _ => "list"
  | .tuple _ => "tuple"
  | .queue _ => "deque"
  | .set frozen _ => if frozen then "frozenset" else "set"
  | .map _ => "dict"
  | .reference r => r.kindName
  | .bare => "object"

/-- The name of the kind of a value where a conversion refuses it: the kinds of numbers, of times
and of sequences that stand in a library of their own carry its name. -/
def qualifiedKindName : Value → String
  | .decimal _ => "decimal.Decimal"
  | .date _ => "datetime.date"
  | .moment _ => "datetime.datetime"
  | .queue _ => "collections.deque"
  | v => v.kindName

/-- The value that a member of an enumeration stands for, and any other value itself. -/
def payload : Value → Value
  | .member _ _ _ v => v
  | v => v

/-- A member of an enumeration of texts or numbers as that text or number, and any other value
itself. -/
def plain : Value → Value
  | .member _ .text _ v => v
  | .member _ .whole _ v => v
  | v => v

/-- Whether a value is neither empty nor zero. -/
def isTruthy (v : Value) : Bool :=
  match v.plain with
  | .none => false
  | .bool b => b
  | .int n => n ≠ 0
  | .float (.finite _ 0) => false
  | .decimal (.finite _ 0 _) => false
  | .text s => s ≠ ""
  | .bytes [] => false
  | .list [] => false
  | .tuple [] => false
  | .queue [] => false
  | .set _ [] => false
  | .map [] => false
  | _ => true

/-- The items of a list or of a tuple. -/
def sequence? : Value → Option (List Value)
  | .list items => some items
  | .tuple items => some items
  | _ => Option.none

end Value

end IndexedRecords
