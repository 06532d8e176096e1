import IndexedRecords.Number.Numeral
import IndexedRecords.Number.Whole

/-!
# Markers of fields

A marker on a field asks for it to be indexed, names it as the identifier of its record, or means
something else that the index does not look at. Nothing but an index looks at markers: they change
neither what a field takes nor how its values are read and written.
-/

namespace IndexedRecords

/-- How the values under a path are indexed. -/
inductive IndexType where
  | tag
  | text
  | numeric
  | geo
  | vector
  deriving DecidableEq, Repr, Inhabited

namespace IndexType

/-- All index types. -/
def all : List IndexType := [.tag, .text, .numeric, .geo, .vector]

/-- The name of an index type. -/
def name : IndexType → String
  | .tag => "tag"
  | .text => "text"
  | .numeric => "numeric"
  | .geo => "geo"
  | .vector => "vector"

/-- The word for an index type in a command. -/
def keyword : IndexType → String
  | .tag => "TAG"
  | .text => "TEXT"
  | .numeric => "NUMERIC"
  | .geo => "GEO"
  | .vector => "VECTOR"

/-- The index type of a given name. -/
def ofName? (s : String) : Option IndexType := all.find? fun t => t.name = s

theorem ofName?_name (t : IndexType) : ofName? t.name = some t := by
  cases t <;> decide

end IndexType

/-- An index type as a marker states it: the type itself, or a word that has still to be read. -/
inductive StatedType where
  | known (type : IndexType)
  | word (s : String)
  deriving DecidableEq, Repr

/-- The dimension of a vector, as a marker gives it. It stands in commands as a text, so it is a
number that has one: whole numbers of more digits cannot be shown. -/
structure Dimension where
  count : Int
  short : (Nat.toDigits 10 count.natAbs).length ≤ Numeral.digitLimit
  deriving DecidableEq, Repr

/-- A dimension as a text. -/
def Dimension.text (d : Dimension) : String := String.ofList (wholeText d.count)

/-- A marker of a field. -/
inductive Marker where
  /-- the field is indexed -/
  | index (stated : Option StatedType) (sortable : Bool) (dimension : Option Dimension)
      (metric : String)
  /-- the field is the identifier of its record, and indexed -/
  | primaryKey (stated : Option StatedType)
  /-- a note that means nothing to an index, and nothing to the field either -/
  | other (s : String)
  deriving DecidableEq, Repr

namespace Marker

/-- The marker that says nothing beyond that a field is indexed. -/
def plainIndex : Marker := .index none false none "COSINE"

/-- Whether a marker asks for its field to be indexed. -/
def isIndexing : Marker → Bool
  | .index _ _ _ _ => true
  | .primaryKey _ => true
  | .other _ => false

/-- Whether a marker names the identifier of a record. -/
def isPrimaryKey : Marker → Bool
  | .primaryKey _ => true
  | _ => false

/-- The index type that a marker states. -/
def stated : Marker → Option StatedType
  | .index stated _ _ _ => stated
  | .primaryKey stated => stated
  | .other _ => none

end Marker

end IndexedRecords
