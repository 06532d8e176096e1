import IndexedRecords.Connection
import IndexedRecords.Service.Documents
import IndexedRecords.Service.Indexes

/-!
# A registry of record types

A registry names the record types whose indexes a client manages, each of them once.
-/

namespace IndexedRecords

/-- The names of the registered record types, in the order of registration. -/
structure Registry where
  models : List String
  deriving DecidableEq, Repr

namespace Registry

/-- The registry without record types. -/
def empty : Registry := ⟨[]⟩

/-- Registers record types; those that are registered already stay where they are. -/
def register (r : Registry) (models : List String) : Registry :=
  ⟨models.foldl (fun kept m => if kept.contains m then kept else kept ++ [m]) r.models⟩

/-- Migrates all registered record types. -/
def migrate (c : Catalogue) (r : Registry) : Service (List String) := do
  let names ← Service.migrate c (r.models.filterMap c.find?)
  Service.note (.migrationsCompleted r.models.length names.length)
  return names

end Registry

namespace Service

/-- Closes the endpoint; only a store can tell that it is closed. -/
def close : Service Unit := fun w =>
  match w.endpoint with
  | .store s => (.ok (), { w with endpoint := .store { s with closed := true } })
  | .script _ => (.ok (), w)

/-- Lists the identifiers of all records of a type. The number of keys to ask for at once comes from
the settings unless a number other than zero is given. -/
def listIds (environment : List (String × String)) (type : RecordType) (batchSize : Option Int) :
    Service (List String) := do
  requirePersisted type "all_ids"
  match batchSize with
  | some n =>
    if n ≠ 0 then return ← allIds type n
  | none => pure ()
  let settings ← ((Settings.ofEnvironment environment).mapError .invalid : Except Fault Settings)
  allIds type settings.batchSize

end Service

end IndexedRecords
