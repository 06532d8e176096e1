/-!
# What references lead to

A reference starts at the fields of a record type and follows names. Mostly it leads to a field.
But fields, record types and whatever else it meets on the way have properties of their own, so that
it can also lead to a record type, to something that can be called, or to a text.
-/

namespace IndexedRecords

/-- A reference to a field of a record type, through the names of the fields on the way. -/
structure FieldPath where
  model : String
  steps : List String
  deriving DecidableEq, Repr

/-- The dotted name of a reference. -/
def FieldPath.name (path : FieldPath) : String := ".".intercalate path.steps

/-- Where something that can be called comes from. -/
inductive CallableKind where
  /-- it belongs to the field or the record type that it is reached from -/
  | bound
  /-- it still has to be given a record -/
  | unbound
  /-- everything of its kind has it -/
  | builtIn
  deriving DecidableEq, Repr

/-- What a reference leads to. -/
inductive Referent where
  /-- the fields of a record type -/
  | fields (model : String)
  | field (path : FieldPath)
  | recordType (name : String)
  /-- the kind of something that is no record -/
  | kind (name : String)
  | callable (kind : CallableKind) (name : String)
  | text (s : String)
  | texts (items : List String)
  /-- something of a kind that nothing else is known about -/
  | other (kindName : String)
  deriving DecidableEq, Repr

namespace Referent

/-- The name for the kind of what a reference leads to. -/
def kindName : Referent → String
  | .fields _ => "FieldRefs"
  | .field _ => "FieldRef"
  | .recordType _ => "ModelMetaclass"
  | .kind _ => "type"
  | .callable .bound _ => "method"
  | .callable .unbound _ => "function"
  | .callable .builtIn _ => "builtin_function_or_method"
  | .text _ => "str"
  | .texts _ => "tuple"
  | .other kindName => kindName

/-- What a reference leads to, as messages show it. -/
def shown : Referent → String
  | .fields model => s!"FieldRefs({model})"
  | .field path =>
    let model := path.model
    let name := path.name
    s!"FieldRef({model}.{name})"
  | .recordType name | .kind name => s!"<class '{name}'>"
  | .callable _ name => s!"<function {name}>"
  | .text s => s
  | .texts items => "(" ++ ", ".intercalate items ++ ")"
  | .other kindName => s!"<{kindName} object>"

end Referent

end IndexedRecords
