import IndexedRecords.Service.Reply

/-!
# Searching

Running a search: for its records, for their number, or for the first of them.
-/

namespace IndexedRecords.Service

/-- The search for all records of a type, which has to be persisted. -/
def searchOf (type : RecordType) : Except Fault Search := do
  requirePersisted type "find"
  return .all type.name

/-- The command of a search over the records of a type, with a window that need not be its own. -/
def searchCommand (c : Catalogue) (type : RecordType) (s : Search) (window : Option (Int × Int)) :
    Except Fault (List Argument) := do
  let home ← homeOf type "index_name"
  s.commandWithin c home.indexName window

/-- The word of a command at a position, as notes in the log show it. -/
def shownWord (command : List Argument) (position : Nat) : String :=
  (command[position]?.map Store.wordOf).getD ""

/-- Sends the command of a search. -/
def runSearch (command : List Argument) : Service Value := do
  let index := shownWord command 1
  let query := shownWord command 2
  note (.searching index query)
  match ← send command with
  | .ok reply => return reply
  | .error (.value fault) => throw (.value fault)
  | .error (.refused r) =>
    if r.kind = .foreign then throw (.refused r)
    note (.searchFailed index query)
    throw (.searchFailed index r)

/-- The records in the window of a search. -/
def find (c : Catalogue) (type : RecordType) (s : Search) : Service (List Value) := do
  let command ← (searchCommand c type s s.window : Except Fault (List Argument))
  decodeSearch c type.name (← runSearch command)

/-- The number of all records that a search finds. -/
def count (c : Catalogue) (type : RecordType) (s : Search) : Service Int := do
  let command ← (searchCommand c type s (some (0, 0)) : Except Fault (List Argument))
  let reply ← runSearch command
  (searchTotal reply : Except Fault Int)

/-- The first record in the window of a search, if there is one. -/
def first (c : Catalogue) (type : RecordType) (s : Search) : Service (Option Value) := do
  let offset := (s.window.map Prod.fst).getD 0
  let command ← (searchCommand c type s (some (offset, 1)) : Except Fault (List Argument))
  return (← decodeSearch c type.name (← runSearch command)).head?

end IndexedRecords.Service
