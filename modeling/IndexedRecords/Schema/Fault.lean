/-!
# Faults of schemas

Why a record type has no schema.
-/

namespace IndexedRecords

/-- Why a record type has no schema. -/
inductive SchemaFault where
  /-- an indexed map holds values that are no records -/
  | scalarMap (model field : String)
  /-- the record types on the way to a nested record that stands inside itself -/
  | cyclic (chain : List String)
  /-- two paths have one alias -/
  | duplicateAlias (model shownAlias first second : String)
  /-- a marker states an index type that does not exist -/
  | unknownIndexType (shown model field : String)
  /-- a vector whose number of components is not stated -/
  | missingDimension (model field : String)
  deriving DecidableEq, Repr

/-- The wording of a fault. -/
def SchemaFault.message : SchemaFault → String
  | .scalarMap model field =>
    s!"Cannot index field {model}.{field}: maps of scalar values have no single index type; " ++
      "use a list or a nested record"
  | .cyclic chain => "Cyclic nested schema: " ++ " -> ".intercalate chain
  | .duplicateAlias model shownAlias first second =>
    s!"Alias {shownAlias} of {model} is produced by both {first} and {second}"
  | .unknownIndexType shown model field =>
    s!"Unknown index type {shown} on {model}.{field}; " ++
      "expected one of tag, text, numeric, geo, vector"
  | .missingDimension model field =>
    s!"Vector field {model}.{field} needs Index(vector_dim=...)"

end IndexedRecords
