import IndexedRecords.Search.Expression

/-!
# Searches

A search over the records of one type: a predicate, a window into the results and an order. Each
step gives a new search; a step that fails leaves the search as it was.
-/

namespace IndexedRecords

/-- An argument of a command: a whole number or a text. -/
inductive Argument where
  | int (n : Int)
  | text (s : String)
  deriving DecidableEq, Repr

/-- What results are sorted by: a field, or the fields of a record type as a whole, by which no
command can sort. -/
inductive SortKey where
  | field (path : FieldPath)
  | fields (model : String)
  deriving DecidableEq, Repr

/-- The record type that a sort key belongs to. -/
def SortKey.model : SortKey → String
  | .field path => path.model
  | .fields model => model

/-- The sort key that a reference leads to. -/
def Referent.sortKey (c : Catalogue) (r : Referent) : Except SearchFault SortKey :=
  match r with
  | .field path => .ok (.field path)
  | .fields model => .ok (.fields model)
  | r => do
    let _ ← r.dot c "model"
    .error .notAReference

/-- A search over the records of one type. -/
structure Search where
  model : String
  predicate : Option Predicate
  /-- the number of results to skip, and the number of results after them -/
  window : Option (Int × Int)
  /-- what results are sorted by, and whether in descending order -/
  sort : Option (SortKey × Bool)

namespace Search

/-- The search for all records of a type. -/
def all (model : String) : Search := ⟨model, none, none, none⟩

/-- Sets the predicate, in place of any earlier one. -/
def filter (s : Search) (p : Predicate) : Except SearchFault Search := do
  p.checkModel s.model
  return { s with predicate := some p }

/-- Asks for a predicate in addition to the earlier one. -/
def and (s : Search) (p : Predicate) : Except SearchFault Search := do
  p.checkModel s.model
  match s.predicate with
  | some earlier => return { s with predicate := some (← earlier.and p) }
  | none => return { s with predicate := some p }

/-- Asks for a predicate as an alternative to the earlier one. -/
def or (s : Search) (p : Predicate) : Except SearchFault Search := do
  p.checkModel s.model
  match s.predicate with
  | some earlier => return { s with predicate := some (← earlier.or p) }
  | none => return { s with predicate := some p }

/-- Sets the window. -/
def limit (s : Search) (offset count : Int) : Except SearchFault Search :=
  if offset < 0 ∨ count < 0 then .error .negativeWindow
  else .ok { s with window := some (offset, count) }

/-- Sets the order. -/
def sortBy (s : Search) (key : SortKey) (descending : Bool) : Except SearchFault Search :=
  if key.model = s.model then .ok { s with sort := some (key, descending) }
  else .error (.otherModel s.model key.model)

/-- A step in building a search. -/
inductive Step where
  | filter (e : Expression)
  | and (e : Expression)
  | or (e : Expression)
  | limit (offset count : Int)
  | sortBy (field : Reference) (descending : Bool)

/-- Takes a step. -/
def step (c : Catalogue) (s : Search) : Step → Except SearchFault Search
  | .filter e => do s.filter (← e.build c)
  | .and e => do s.and (← e.build c)
  | .or e => do s.or (← e.build c)
  | .limit offset count => s.limit offset count
  | .sortBy field descending => do s.sortBy (← (← field.referent c).sortKey c) descending

/-- The text of the query; a search without a predicate matches everything. -/
def query (c : Catalogue) (s : Search) : Except SearchFault String :=
  match s.predicate with
  | none => .ok "*"
  | some p => p.render c

/-- The arguments for a window. -/
def windowArguments : Option (Int × Int) → List Argument
  | none => []
  | some (offset, count) => [.text "LIMIT", .int offset, .int count]

/-- The arguments for an order. -/
def sortArguments (c : Catalogue) : Option (SortKey × Bool) → Except SearchFault (List Argument)
  | none => .ok []
  | some (.fields model, _) => .error (.notCallable (Referent.field ⟨model, ["resolve"]⟩).kindName)
  | some (.field field, descending) => do
    let leaf ← field.resolve c
    return [.text "SORTBY", .text leaf.queryAlias, .text (if descending then "DESC" else "ASC")]

/-- The command of a search on a given index, with a window that need not be its own. -/
def commandWithin (c : Catalogue) (s : Search) (index : String) (window : Option (Int × Int)) :
    Except SearchFault (List Argument) := do
  let query ← s.query c
  let order ← sortArguments c s.sort
  return [.text "FT.SEARCH", .text index, .text query] ++ windowArguments window ++ order

/-- The command of a search on a given index. -/
def command (c : Catalogue) (s : Search) (index : String) : Except SearchFault (List Argument) :=
  s.commandWithin c index s.window

end Search

end IndexedRecords
