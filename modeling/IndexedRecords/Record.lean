import IndexedRecords.Catalogue
import IndexedRecords.Value.Convert

/-!
# Records

A record belongs to a type and has a value for each of its fields. A persisted record is stored
under a key made of the prefix of its type and of its identifier.
-/

namespace IndexedRecords

/-- A record: the name of its type, and its fields in the order of their declaration. -/
structure Record where
  model : String
  fields : List (String × Value)

/-- The key of an identifier under a prefix. -/
def keyOf (keyPrefix id : String) : String := keyPrefix ++ ":" ++ id

namespace Record

/-- A record as a value. -/
def toValue (r : Record) : Value := .record r.model r.fields

/-- The record that a value is, if it is one. -/
def ofValue? : Value → Option Record
  | .record model fields => some ⟨model, fields⟩
  | _ => none

/-- The value of a field. -/
def get? (r : Record) (field : String) : Option Value :=
  (r.fields.find? fun f => f.1 = field).map Prod.snd

/-- The record with another value of a field that it has. Nothing is checked or converted. -/
def set (r : Record) (field : String) (v : Value) : Record :=
  { r with fields := r.fields.map fun f => if f.1 = field then (field, v) else f }

/-- The text of the identifier of a record. -/
def primaryKey (r : Record) (type : RecordType) : Except ValueFault String :=
  ((r.get? type.primaryKeyField).getD .none).display

end Record

end IndexedRecords
