import IndexedRecords.Json.Writer
import IndexedRecords.Record.Writer
import IndexedRecords.Service.Reply

/-!
# Documents of records

Storing, fetching and deleting the records of a type, and listing their identifiers. The keys of a
type are listed page by page; a page may repeat keys of earlier ones, and each identifier counts
once.
-/

namespace IndexedRecords.Service

/-- The key of an identifier of a type. -/
def makeKey (r : RecordType) (id : Value) : Except Fault String := do
  requirePersisted r "make_key"
  let home ← homeOf r "key_prefix"
  let id ← id.display
  return keyOf home.keyPrefix id

/-- The identifier of a record and its key. -/
def identify (type : RecordType) (r : Record) : Except Fault (String × String) := do
  requirePersistedRecord type "primary_key"
  let id ← r.primaryKey type
  let home ← homeOf type "key_prefix"
  return (id, keyOf home.keyPrefix id)

/-- The text of the document of a record. -/
def recordDocument (c : Catalogue) (type : RecordType) (r : Record) : Except Fault String := do
  match Record.toJson? c r.model r.fields with
  | some document => return String.ofList document.write
  | none => .error (.unencodable r.model (← r.primaryKey type))

/-- Stores a record, and returns its key. -/
def save (c : Catalogue) (type : RecordType) (r : Record) : Service String := do
  requirePersistedRecord type "save"
  let payload ← recordDocument c type r
  let (_, key) ← (identify type r : Except Fault (String × String))
  let _ ← execute [.text "JSON.SET", .text key, .text "$", .text payload]
  return key

/-- Fetches a record, if there is one. -/
def get (c : Catalogue) (type : RecordType) (id : Value) : Service (Option Value) := do
  requirePersisted type "get"
  let key ← makeKey type id
  match ← execute [.text "JSON.GET", .text key] with
  | .none => return none
  | payload => return some (← decodeDocument c type.name key payload)

/-- Deletes a record, and returns how many there were. -/
def delete (type : RecordType) (id : Value) : Service Int := do
  let key ← makeKey type id
  (← execute [.text "JSON.DEL", .text key]).toInt

/-- Deletes a given record, and returns how many there were. -/
def deleteRecord (type : RecordType) (r : Record) : Service Int := do
  requirePersistedRecord type "delete"
  let id ← (r.primaryKey type : Except ValueFault String)
  delete type (.text id)

/-- Deletes several records, and returns how many there were. -/
def deleteMany (type : RecordType) (ids : List Value) : Service Int := do
  requirePersisted type "delete_many"
  if ids.isEmpty then return 0
  let keys ← (ids.mapM (makeKey type) : Except Fault (List String))
  (← execute (.text "DEL" :: keys.map .text)).toInt

/-- The cursor and the keys of a page. -/
def readPage (reply : Value) : Except ValueFault (Int × List Value) := do
  let (cursor, keys) ← reply.pair
  let cursor ← (Value.text (← cursor.asText)).toInt
  let keys ← if keys.isTruthy then keys.items else .ok []
  return (cursor, keys)

/-- The identifiers that keys of a prefix stand for, added to those found before. -/
def addIds (keyPrefix : String) : (found : List String) → List Value →
    Except ValueFault (List String)
  | found, [] => .ok found
  | found, key :: rest => do
    let key ← key.asText
    let id := String.ofList (Text.stripLead keyPrefix.toList key.toList)
    addIds keyPrefix (if found.contains id then found else found ++ [id]) rest

/-- Lists the identifiers on the pages from a cursor on. The bound counts pages. -/
def scanFrom (keyPrefix : String) (count : Int) : (bound : Nat) → (cursor : Int) →
    (found : List String) → Service (List String)
  | 0, _, found => return found
  | bound + 1, cursor, found => do
    let reply ← execute [.text "SCAN", .int cursor, .text "MATCH", .text (keyPrefix ++ "*"),
      .text "COUNT", .int count]
    let (cursor, keys) ← readPage reply
    let found ← addIds keyPrefix found keys
    if cursor = 0 then return found else scanFrom keyPrefix count bound cursor found

/-- Lists the identifiers of all records of a type, with a number of keys to ask for at once. -/
def allIds (type : RecordType) (count : Int) : Service (List String) := do
  let home ← homeOf type "key_prefix"
  let bound := (← getThe World).endpoint.pageLimit
  scanFrom (home.keyPrefix ++ ":") count bound 0 []

end IndexedRecords.Service
