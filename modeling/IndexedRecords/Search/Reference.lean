import IndexedRecords.Catalogue
import IndexedRecords.Referent
import IndexedRecords.Search.Fault
import IndexedRecords.Text.Cut

/-!
# References

How a reference is followed. Each step is a name after a point or a subscript. A name finds a
property of what the reference has led to so far; only where fields have no such property it is the
name of a field. A subscript accepts any name, and so also reaches fields that are named like a
property.
-/

namespace IndexedRecords

/-- A step from a record type or a field to one of its fields: by a name after a point, or by a
subscript, which accepts any name. -/
inductive ReferenceStep where
  | dot (name : String)
  | item (name : String)
  deriving DecidableEq, Repr

/-- A reference to something under the fields of a record type. -/
structure Reference where
  model : String
  steps : List ReferenceStep
  deriving DecidableEq, Repr

/-- Several callable properties of one kind. -/
def callables (kind : CallableKind) (names : List String) : List (String × Referent) :=
  names.map fun name => (name, .callable kind name)

namespace RecordType

/-- The callable properties of all record types. -/
def plainProperties : List (String × Referent) :=
  callables .bound ["model_construct", "model_json_schema", "model_parametrized_name",
    "model_rebuild", "model_validate", "model_validate_json", "model_validate_strings",
    "construct", "from_orm", "parse_file", "parse_obj", "parse_raw", "schema", "schema_json",
    "update_forward_refs", "validate", "register"] ++
  callables .unbound ["model_copy", "model_dump", "model_dump_json", "model_post_init", "copy",
    "dict", "json"] ++
  callables .builtIn ["mro"]

/-- The callable properties of record types that have a schema for search. -/
def searchableProperties : List (String × Referent) :=
  callables .bound ["_assume_utc"] ++ callables .unbound ["_serialize_temporal"]

/-- The properties that all record types which are persisted have in common. Two of them only have
a value for a record. -/
def persistedProperties : List (String × Referent) :=
  [("primary_key", .other "property"), ("key", .other "property")] ++
  callables .bound ["primary_key_field", "make_key", "get", "delete_many", "all_ids", "find",
    "_fill_missing_id"] ++
  callables .unbound ["save", "delete"]

/-- The properties of a record type: what it can be asked for depends on its lineage, and only a
persisted type that has a home can tell where it is. -/
def properties (r : RecordType) : List (String × Referent) :=
  [("__name__", .text r.name), ("__qualname__", .text r.name)] ++
  (match r.home with
    | some home => [("key_prefix", .text home.keyPrefix), ("index_name", .text home.indexName)]
    | none => []) ++
  (if r.isSearchable then ("fields", .fields r.name) :: searchableProperties else []) ++
  (if r.lineage = .persisted then persistedProperties else []) ++
  plainProperties

end RecordType

namespace Referent

/-- The callable properties of every text. -/
def textProperties : List (String × Referent) :=
  callables .builtIn ["capitalize", "casefold", "center", "count", "encode", "endswith",
    "expandtabs", "find", "format", "format_map", "index", "isalnum", "isalpha", "isascii",
    "isdecimal", "isdigit", "isidentifier", "islower", "isnumeric", "isprintable", "isspace",
    "istitle", "isupper", "join", "ljust", "lower", "lstrip", "maketrans", "partition",
    "removeprefix", "removesuffix", "replace", "rfind", "rindex", "rjust", "rpartition", "rsplit",
    "rstrip", "split", "splitlines", "startswith", "strip", "swapcase", "title", "translate",
    "upper", "zfill"]

/-- The properties of a field besides its own fields: its name, its place, its tests and the
operators on it. -/
def fieldProperties (path : FieldPath) : List (String × Referent) :=
  [("name", .text path.name), ("path", .texts path.steps), ("model", .recordType path.model),
    ("__slots__", .texts ["model", "path"])] ++
  callables .bound ["between", "in_", "within", "resolve", "_predicate", "__init__", "__repr__",
    "__getattr__", "__getitem__", "__eq__", "__ne__", "__gt__", "__ge__", "__lt__", "__le__"]

/-- The callable properties of everything. -/
def commonProperties : List (String × Referent) :=
  callables .builtIn ["__init__", "__repr__", "__str__", "__eq__", "__ne__", "__gt__", "__ge__",
    "__lt__", "__le__", "__dir__", "__format__", "__getattribute__", "__setattr__", "__delattr__",
    "__reduce__", "__reduce_ex__", "__sizeof__", "__getstate__", "__new__", "__init_subclass__",
    "__subclasshook__"]

/-- The properties that something has. -/
def properties (c : Catalogue) (r : Referent) : List (String × Referent) :=
  (match r with
    | .fields model =>
      [("model", .recordType model), ("__slots__", .texts ["model"])] ++
      callables .bound ["__init__", "__repr__", "__getattr__", "__getitem__"]
    | .field path => fieldProperties path
    | .recordType name => ((c.find? name).map RecordType.properties).getD []
    | .kind name => [("__name__", .text name), ("__qualname__", .text name)]
    | .callable _ name => [("__name__", .text name)]
    | .text _ => textProperties
    | .texts _ => callables .builtIn ["count", "index"]
    | .other _ => []) ++
  ("__class__", .kind r.kindName) :: commonProperties

/-- Follows a name that is no property. Under fields it is the name of a field, unless it starts
with an underscore. -/
def nameUnder (name : String) : Referent → Except SearchFault Referent
  | .fields model =>
    if "_".isPrefixOf name then .error (.reservedName name) else .ok (.field ⟨model, [name]⟩)
  | .field path =>
    if "_".isPrefixOf name then .error (.reservedName name)
    else .ok (.field ⟨path.model, path.steps ++ [name]⟩)
  | .recordType _ => .error (.reservedName name)
  | .callable .bound _ => .error (.noAttribute "function" name)
  | .kind shownKind => .error (.noKindAttribute shownKind name)
  | r => .error (.noAttribute r.kindName name)

/-- Follows a name after a point. -/
def dot (c : Catalogue) (r : Referent) (name : String) : Except SearchFault Referent :=
  match (r.properties c).lookup name with
  | some found => .ok found
  | none => r.nameUnder name

/-- Follows a subscript. Under the fields of a record type it is a dotted name. -/
def item (name : String) : Referent → Except SearchFault Referent
  | .fields model => .ok (.field ⟨model, (Text.splitAll '.' name.toList).map String.ofList⟩)
  | .field path => .ok (.field ⟨path.model, path.steps ++ [name]⟩)
  | .recordType model => .error (.notGeneric model)
  | .kind shownKind => .error (.kindNotSubscriptable shownKind)
  | .text _ => .error .textSubscript
  | .texts _ => .error .tupleSubscript
  | r => .error (.notSubscriptable r.kindName)

/-- Follows a step. -/
def follow (c : Catalogue) (r : Referent) : ReferenceStep → Except SearchFault Referent
  | .dot name => r.dot c name
  | .item name => r.item name

end Referent

namespace Reference

/-- What a reference leads to. It starts at the fields of its record type, which only types with a
schema for search have. -/
def referent (c : Catalogue) (r : Reference) : Except SearchFault Referent := do
  let fields ← (Referent.recordType r.model).dot c "fields"
  r.steps.foldlM (Referent.follow c) fields

/-- The field that a reference leads to. -/
def field (c : Catalogue) (r : Reference) : Except SearchFault FieldPath := do
  match ← r.referent c with
  | .field path => return path
  | _ => .error .notAReference

end Reference

end IndexedRecords
