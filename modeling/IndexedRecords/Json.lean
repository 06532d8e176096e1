import IndexedRecords.Number.Binary64

/-!
# Documents

A document is a tree of objects and arrays over the usual atoms. Whole numbers of any size and
floating numbers are kept apart, since they are written differently. The members of an object keep
their order.
-/

namespace IndexedRecords

/-- A document, or a part of one. -/
inductive Json where
  | null
  | bool (b : Bool)
  | int (n : Int)
  | float (x : Binary64)
  | text (s : String)
  | array (items : List Json)
  | object (members : List (String × Json))
  deriving Inhabited

namespace Json

/-- The members with one of them set: in its place where the name is there already, else at the
end. -/
def setMember (name : String) (value : Json) : List (String × Json) → List (String × Json)
  | [] => [(name, value)]
  | (n, v) :: rest => if n = name then (n, value) :: rest else (n, v) :: setMember name value rest

/-- The members with repeated names merged: the last value counts, in the place of the first. -/
def mergeMembers (members : List (String × Json)) : List (String × Json) :=
  members.foldl (fun merged (name, value) => setMember name value merged) []

end Json

end IndexedRecords
