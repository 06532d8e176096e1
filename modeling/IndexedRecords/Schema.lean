import IndexedRecords.Catalogue
import IndexedRecords.Number.Whole
import IndexedRecords.Schema.Fault
import IndexedRecords.Schema.Inference
import IndexedRecords.Schema.Leaf
import IndexedRecords.Text.Quoted

/-!
# Schemas of record types

The schema of a record type lists its indexed paths in the order of declaration. A marked field
that holds a searchable record, or a sequence or map of such records, contributes the schema of
that record type under its own path; any other marked field is one leaf. The types of nested
records must not lead back to a type that encloses them.
-/

namespace IndexedRecords

namespace Schema

open Text

/-- The index type that a marker settles, if it does: an identifier is a tag unless it says
otherwise. -/
def statedType (owner field : String) (m : Marker) : Except SchemaFault (Option IndexType) :=
  match m.stated with
  | some (.known type) => .ok (some type)
  | some (.word s) =>
    match IndexType.ofName? (String.ofList (lower s.toList)) with
    | some type => .ok (some type)
    | none => .error (.unknownIndexType (String.ofList (quoted s.toList)) owner field)
  | none => .ok (if m.isPrimaryKey then some .tag else none)

/-- The options of a leaf: how a vector is laid out, and whether results can be sorted by it. -/
def leafOptions (owner field : String) (m : Marker) (type : IndexType) :
    Except SchemaFault (List String) :=
  let sorting :=
    match m with
    | .index _ true _ _ => ["SORTABLE"]
    | _ => []
  match type, m with
  | .vector, .index _ _ (some dimension) metric =>
    .ok (["FLAT", "6", "TYPE", "FLOAT32", "DIM", dimension.text,
      "DISTANCE_METRIC", String.ofList (upper metric.toList)] ++ sorting)
  | .vector, _ => .error (.missingDimension owner field)
  | _, _ => .ok sorting

/-- The leaf of a field. -/
def leafOf (owner field path : String) (m : Marker) (type : IndexType) (whole : Bool) :
    Except SchemaFault SchemaNode := do
  let options ← leafOptions owner field m type
  return .leaf ⟨field, aliasOfPath path, path, type, options, whole && type = .numeric⟩

/-- The record type that a shape names. -/
def recordType? (c : Catalogue) : Shape → Option RecordType
  | .record name => c.find? name
  | _ => none

/-- What a field holds, as far as its path is concerned. -/
inductive Holding where
  | one (shape : Shape)
  | sequence (item : Shape)
  | map (value : Shape)

/-- What a field of a shape without outer layers holds. -/
def Holding.ofShape (shape : Shape) : Holding :=
  match shape.element? with
  | some item => .sequence item
  | none =>
    match shape.mapValue? with
    | some value => .map value
    | none => .one shape

/-- The shape of the single values in a field. -/
def Holding.shape : Holding → Shape
  | .one shape | .sequence shape | .map shape => shape

/-- What follows the name of a field in the paths of what it holds. -/
def Holding.wildcard : Holding → String
  | .one _ => ""
  | .sequence _ => arrayWildcard
  | .map _ => mapWildcard

/-- The part of a schema that a marked field contributes: `nested` gives the schema of a record type
inside of it. A field that holds plain records contributes nothing, unless it is a map of them. -/
def nodeOf (c : Catalogue) (nested : RecordType → Except SchemaFault (List Leaf)) (owner : String)
    (f : Field) (m : Marker) : Except SchemaFault (Option SchemaNode) := do
  let shape := f.shape.unwrap
  let stated ← statedType owner f.name m
  let holding := Holding.ofShape shape
  let rootPath := "$." ++ f.pathKey
  let path := rootPath ++ holding.wildcard
  match recordType? c holding.shape, holding with
  | some record, .map _ =>
    if record.isSearchable then
      return some (.container f.name (aliasOfPath path) path ((← nested record).map .leaf))
    else return some (← leafOf owner f.name rootPath m (stated.getD .tag) false)
  | none, .map _ => .error (.scalarMap owner f.name)
  | some record, _ =>
    if record.isSearchable then
      return some (.container f.name (aliasOfPath path) path ((← nested record).map .leaf))
    else return none
  | none, .sequence item =>
    let type := stated.getD shape.indexType
    let path := if type = .vector then rootPath else path
    return some (← leafOf owner f.name path m type item.isWhole)
  | none, .one _ =>
    return some (← leafOf owner f.name rootPath m (stated.getD shape.indexType) shape.isWhole)

/-- The leaves that a field contributes. -/
def fieldLeaves (c : Catalogue) (nested : RecordType → Except SchemaFault (List Leaf))
    (owner : String) (f : Field) : Except SchemaFault (List Leaf) :=
  match f.indexing? with
  | none => .ok []
  | some m => do
    match ← nodeOf c nested owner f m with
    | some node => return node.flatten
    | none => return []

/-- The leaves of a record type inside the given enclosing types, of which it is the last. The bound
is the number of types that may still be nested; since enclosing types are distinct, the number of
all types is enough. -/
def leavesWithin (c : Catalogue) : (bound : Nat) → (enclosing : List String) → RecordType →
    Except SchemaFault (List Leaf)
  | 0, enclosing, record => .error (.cyclic (enclosing ++ [record.name]))
  | bound + 1, enclosing, record => do
    let nested (inner : RecordType) : Except SchemaFault (List Leaf) :=
      if enclosing.contains inner.name then .error (.cyclic (enclosing ++ [inner.name]))
      else leavesWithin c bound (enclosing ++ [inner.name]) inner
    let parts ← record.fields.mapM (fieldLeaves c nested record.name)
    return parts.flatten

/-- The leaves of a record type, some of which may have one alias. -/
def leaves (c : Catalogue) (record : RecordType) : Except SchemaFault (List Leaf) :=
  leavesWithin c (c.types.length + 1) [record.name] record

/-- The first leaf whose alias an earlier one has, after that earlier one. -/
def firstClash? : (before : List Leaf) → List Leaf → Option (Leaf × Leaf)
  | _, [] => none
  | before, l :: rest =>
    match before.find? fun b => b.queryAlias = l.queryAlias with
    | some b => some (b, l)
    | none => firstClash? (before ++ [l]) rest

/-- The schema of a record type. -/
def compile (c : Catalogue) (record : RecordType) : Except SchemaFault (List Leaf) := do
  let all ← leaves c record
  match firstClash? [] all with
  | some (first, second) =>
    .error (.duplicateAlias record.name (String.ofList (quoted second.queryAlias.toList)) first.path
      second.path)
  | none => return all

/-- The leaf of a given dotted name. -/
def findLeaf (c : Catalogue) (record : RecordType) (name : String) :
    Except SchemaFault (Option Leaf) := do
  return (← compile c record).find? fun l => l.name = name

end Schema

end IndexedRecords
