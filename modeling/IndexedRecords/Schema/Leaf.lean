import IndexedRecords.Marker
import IndexedRecords.Text.Cut

/-!
# Leaves of a schema

A leaf is one path of a document that is indexed. A schema under construction is a tree whose
containers hold the schemas of nested records; flattening it puts the name, the alias and the path
of each container before those of its leaves.
-/

namespace IndexedRecords

open Text

/-- The mark that selects all items of an array. -/
def arrayWildcard : String := "[*]"

/-- The mark that selects all values of an object. -/
def mapWildcard : String := ".*"

/-- The name for a path in queries: the path from the root without its wildcards, with two
underscores for each point. -/
def aliasOfPath (path : String) : String :=
  let relative := stripLead "$.".toList path.toList
  let relative := replaceAll mapWildcard.toList [] (replaceAll arrayWildcard.toList [] relative)
  String.ofList (replaceAll ['.'] ['_', '_'] relative)

/-- One indexed path of a record type. An integral leaf holds whole numbers only. -/
structure Leaf where
  name : String
  queryAlias : String
  path : String
  type : IndexType
  options : List String
  integral : Bool
  deriving DecidableEq, Repr

namespace Leaf

/-- The words that declare a leaf when an index is created. -/
def clause (l : Leaf) : List String := [l.path, "AS", l.queryAlias, l.type.keyword] ++ l.options

/-- A leaf of a nested record, seen from the record around it. -/
def under (l : Leaf) (name queryAlias path : String) : Leaf :=
  { l with
    name := name ++ "." ++ l.name
    queryAlias := queryAlias ++ "__" ++ l.queryAlias
    path := path ++ "." ++ String.ofList (stripLead "$.".toList l.path.toList) }

end Leaf

/-- A schema under construction. -/
inductive SchemaNode where
  | leaf (l : Leaf)
  | container (name queryAlias path : String) (children : List SchemaNode)

namespace SchemaNode

mutual

/-- The leaves of a tree, from left to right. -/
def flatten : SchemaNode → List Leaf
  | .leaf l => [l]
  | .container name queryAlias path children =>
    (flattenAll children).map fun l => l.under name queryAlias path

/-- The leaves of several trees, from left to right. -/
def flattenAll : List SchemaNode → List Leaf
  | [] => []
  | node :: rest => flatten node ++ flattenAll rest

end

end SchemaNode

end IndexedRecords
