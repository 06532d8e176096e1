import IndexedRecords.Shape
import IndexedRecords.Text.Case

/-!
# Record types

A record type has fields in a fixed order. It is plain, or embedded and so has a schema for search,
or persisted and so is also stored under keys of its own. A catalogue holds a family of record
types, which may refer to each other by name in any way.
-/

namespace IndexedRecords

/-- The value of a field that is not given. -/
inductive Default where
  | required
  | value (v : Value)
  | emptyList
  | emptyMap
  /-- an identifier that no other record has -/
  | freshId

/-- A field of a record type. Aliases stand for its name in documents: one in both directions, one
for written documents only and one for read documents only. -/
structure Field where
  name : String
  shape : Shape
  markers : List Marker
  sharedAlias : Option String
  writtenAlias : Option String
  readAlias : Option String
  default : Default

namespace Field

/-- A field of a shape with markers; the markers that the shape carries itself come first. -/
def declare (name : String) (shape : Shape) (markers : List Marker)
    (sharedAlias writtenAlias readAlias : Option String) (default : Default) : Field :=
  match shape with
  | .annotated inner ms =>
    ⟨name, inner, ms ++ markers, sharedAlias, writtenAlias, readAlias, default⟩
  | shape => ⟨name, shape, markers, sharedAlias, writtenAlias, readAlias, default⟩

/-- The name of the field in written documents. -/
def writtenKey (f : Field) : String := f.writtenAlias.getD (f.sharedAlias.getD f.name)

/-- The name that replaces the field's own name in read documents, if there is one. -/
def readKey? (f : Field) : Option String := f.readAlias.or f.sharedAlias

/-- The name of the field in the paths of a schema: the first of its written alias, its alias and
its name that is not empty. -/
def pathKey (f : Field) : String :=
  match ([f.writtenAlias, f.sharedAlias].filterMap id).find? (· ≠ "") with
  | some key => key
  | none => f.name

/-- The first marker that asks for the field to be indexed. -/
def indexing? (f : Field) : Option Marker := f.markers.find? Marker.isIndexing

end Field

/-- What a record type can do: hold fields, be searched as a part of others, be stored. -/
inductive Lineage where
  | plain
  | embedded
  | persisted
  deriving DecidableEq, Repr

/-- Where the records of a type are stored, and how their index is called. -/
structure Home where
  keyPrefix : String
  indexName : String
  deriving DecidableEq, Repr

/-- A record type. -/
structure RecordType where
  name : String
  lineage : Lineage
  /-- the names of the record types that it extends -/
  ancestors : List String
  fields : List Field
  home : Option Home

namespace RecordType

/-- Whether a record type has a schema for search. -/
def isSearchable (r : RecordType) : Bool := r.lineage ≠ .plain

/-- Whether a record type is another one or extends it. -/
def extends? (r : RecordType) (name : String) : Bool := r.name = name || r.ancestors.contains name

/-- The field of a given name. -/
def field? (r : RecordType) (name : String) : Option Field := r.fields.find? fun f => f.name = name

/-- The name of the field that identifies a record. -/
def primaryKeyField (r : RecordType) : String :=
  match r.fields.find? fun f => f.markers.any Marker.isPrimaryKey with
  | some f => f.name
  | none => "id"

/-- The record type that others extend to be plain records. -/
def plainBase : RecordType := ⟨"BaseModel", .plain, [], [], none⟩

/-- The record type that others extend to be embedded. -/
def embeddedBase : RecordType := ⟨"EmbeddedJsonModel", .embedded, ["BaseModel"], [], none⟩

/-- The record type that others extend to be persisted: it has an identifier. -/
def persistedBase : RecordType :=
  ⟨"JsonModel", .persisted, ["EmbeddedJsonModel", "BaseModel"],
    [⟨"id", .scalar .text, [.primaryKey none], none, none, none, .freshId⟩], none⟩

end RecordType

/-- What a record type states in its own body. -/
structure Declaration where
  name : String
  base : String
  keyPrefix : Option String
  indexName : Option String
  fields : List Field

/-- A family of record types. -/
structure Catalogue where
  types : List RecordType

namespace Catalogue

/-- The catalogue of the record types that others extend. -/
def bases : Catalogue :=
  ⟨[.plainBase, .embeddedBase, .persistedBase]⟩

/-- The record type of a given name. -/
def find? (c : Catalogue) (name : String) : Option RecordType :=
  c.types.find? fun r => r.name = name

/-- Fields with one more: it takes the place of a field of its name, or comes last. -/
def addField (fields : List Field) (f : Field) : List Field :=
  if fields.any fun g => g.name = f.name then
    fields.map fun g => if g.name = f.name then f else g
  else fields ++ [f]

/-- The home of a persisted record type: what it does not state itself follows from its name. -/
def homeOf (d : Declaration) : Home where
  keyPrefix := d.keyPrefix.getD (String.ofList (Text.lower d.name.toList))
  indexName := d.indexName.getD ("idx:" ++ d.name)

/-- The catalogue with one more record type. -/
def declare (c : Catalogue) (d : Declaration) : Catalogue :=
  let base := (c.find? d.base).getD .plainBase
  let home := if base.lineage = .persisted then some (homeOf d) else none
  ⟨c.types ++
    [⟨d.name, base.lineage, base.name :: base.ancestors, d.fields.foldl addField base.fields,
      home⟩]⟩

end Catalogue

end IndexedRecords
