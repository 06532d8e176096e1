import IndexedRecords.Service
import IndexedRecords.Schema

/-!
# Search indexes

Creating, dropping and inspecting search indexes. A migration creates the index of each record type
anew from its schema. It tries every record type, and reports the failures at the end.
-/

namespace IndexedRecords

/-- An attribute of an index, as the store reports it. -/
structure AttributeInfo where
  path : String
  queryAlias : String
  type : String
  sortable : Bool
  deriving DecidableEq, Repr

/-- An index, as the store reports it. -/
structure IndexInfo where
  indexName : String
  keyType : Option String
  prefixes : List String
  attributes : List AttributeInfo
  documents : Int
  deriving DecidableEq, Repr

/-- The attribute of a given alias. -/
def IndexInfo.find? (info : IndexInfo) (queryAlias : String) : Option AttributeInfo :=
  info.attributes.find? fun a => a.queryAlias = queryAlias

namespace Service

/-! ### Reading replies -/

/-- The texts of the items of a reply. -/
def readTexts (reply : Value) : Except ValueFault (List String) := do
  (← reply.items).mapM Value.asText

/-- The text of a part of a reply, if it is there. -/
def readOptional : Option Value → Except ValueFault (Option String)
  | none => .ok none
  | some v => return some (← v.asText)

/-- The names of all indexes. -/
def listIndexes : Service (List String) := do
  let reply ← executeFor (.indexFailed "*" "FT._LIST") [.text "FT._LIST"]
  if reply.isTruthy then readTexts reply else return []

/-- Pairs names with values, given a list that alternates between them. -/
def pairUp : List Value → Except ValueFault (List (String × Value))
  | name :: v :: rest => do
    let name ← name.asText
    return (name, v) :: (← pairUp rest)
  | _ => .ok []

/-- The named values of a reply: a map, or an array that alternates between names and values. -/
def readPairs (reply : Value) : Except Fault (List (String × Value)) := do
  match reply, reply.sequence? with
  | .map entries, _ => entries.mapM fun (name, v) => return (← name.asText, v)
  | _, some items =>
    if items.length % 2 = 0 then pairUp items
    else .error (.reply (.notPaired (← reply.literal)))
  | _, none => .error (.reply (.notPaired (← reply.literal)))

/-- The last value of a name. -/
def lastValue? {α : Type} (pairs : List (String × α)) (name : String) : Option α :=
  (pairs.reverse.find? fun p => p.1 = name).map Prod.snd

/-- The options of an attribute that a value follows. -/
def valuedOptions : List String :=
  ["identifier", "attribute", "type", "separator", "weight", "phonetic", "algorithm", "data_type",
    "dim", "distance_metric"]

/-- Sorts the words about an attribute into options with their values and bare flags. -/
def readOptions : List String → List (String × String) × List String
  | [] => ([], [])
  | name :: rest =>
    let lower := String.ofList (Text.lower name.toList)
    let upper := String.ofList (Text.upper name.toList)
    match valuedOptions.contains lower, rest with
    | true, v :: rest =>
      let (values, flags) := readOptions rest
      ((lower, v) :: values, flags)
    | _, rest =>
      let (values, flags) := readOptions rest
      (values, upper :: flags)

/-- What words say about an attribute. -/
def attributeOfWords (words : List String) : AttributeInfo :=
  let (values, flags) := readOptions words
  let value (name : String) : String := (lastValue? values name).getD ""
  ⟨value "identifier", value "attribute", value "type", flags.contains "SORTABLE"⟩

/-- What a reply says about several attributes. -/
def readAttributes (reply : Value) : Except ValueFault (List AttributeInfo) := do
  (← reply.items).mapM fun item => return attributeOfWords (← readTexts item)

/-- The number of documents in a reply, which may be written as a floating number. -/
def readCount (reply : Value) : Except ValueFault Int := do
  (Value.float (← (Value.text (← reply.asText)).toFloat)).toInt

/-- What a reply says about an index; it is asked for under a name. -/
def readInfo (name : String) (reply : Value) : Except Fault IndexInfo := do
  let info ← readPairs reply
  let definition ← readPairs ((lastValue? info "index_definition").getD (.list []))
  let indexName ← ((lastValue? info "index_name").getD (.text name)).asText
  let keyType ← readOptional (lastValue? definition "key_type")
  let prefixes ← readTexts ((lastValue? definition "prefixes").getD (.list []))
  let attributes ← readAttributes ((lastValue? info "attributes").getD (.list []))
  let documents ← readCount ((lastValue? info "num_docs").getD (.int 0))
  return ⟨indexName, keyType, prefixes, attributes, documents⟩

/-- What the store reports about an index. -/
def inspect (name : String) : Service IndexInfo := do
  let reply ← executeFor (.indexFailed name "FT.INFO") [.text "FT.INFO", .text name]
  (readInfo name reply : Except Fault IndexInfo)

/-! ### Migrating -/

/-- The command that creates the index of a record type. -/
def createCommand (c : Catalogue) (r : RecordType) : Except Fault (List Argument) := do
  let home ← homeOf r "index_name"
  let leaves ← Schema.compile c r
  return [.text "FT.CREATE", .text home.indexName, .text "ON", .text "JSON", .text "PREFIX", .int 1,
    .text (home.keyPrefix ++ ":"), .text "SCHEMA"] ++ (leaves.flatMap Leaf.clause).map .text

/-- Drops the index of a record type, and tells whether there was one. -/
def drop (r : RecordType) : Service Bool := do
  let home ← (homeOf r "index_name" : Except Fault Home)
  if (← listIndexes).contains home.indexName then
    let _ ← executeFor (.indexFailed home.indexName "FT.DROPINDEX")
      [.text "FT.DROPINDEX", .text home.indexName]
    note (.indexDropped home.indexName)
    return true
  else return false

/-- Creates the index of a record type anew, and returns its name. Record types without a store or
without a schema are left out. -/
def migrateOne (c : Catalogue) (r : RecordType) : Service (Option String) := do
  if r.lineage ≠ .persisted then
    note (.notPersisted r.name)
    return none
  let leaves ← (Schema.compile c r : Except SchemaFault (List Leaf))
  if leaves.isEmpty then
    note (.emptySchema r.name)
    return none
  let _ ← drop r
  let home ← (homeOf r "index_name" : Except Fault Home)
  let command ← (createCommand c r : Except Fault (List Argument))
  let _ ← executeFor (.indexFailed home.indexName "FT.CREATE") command
  note (.indexCreated home.indexName leaves.length)
  return some home.indexName

/-- Migrates record types in turn, and returns the names of the created indexes and the faults. A
fault that is not one of records and indexes ends the migration. -/
def migrateEach (c : Catalogue) : List RecordType → Service (List String × List Fault)
  | [] => return ([], [])
  | r :: rest => do
    let outcome ← (try (do return Except.ok (← migrateOne c r)) catch fault => do
      if fault.isOwn then
        note (.migrationFailed r.name)
        return Except.error fault
      else throw fault : Service (Except Fault (Option String)))
    let (names, faults) ← migrateEach c rest
    match outcome with
    | .ok name => return (name.toList ++ names, faults)
    | .error fault => return (names, fault :: faults)

/-- Migrates record types, and returns the names of the created indexes. A single fault is reported
as itself. -/
def migrate (c : Catalogue) (types : List RecordType) : Service (List String) := do
  match ← migrateEach c types with
  | (names, []) => return names
  | (_, [fault]) => throw fault
  | (_, faults) => throw (.migrationFailed faults)

end Service

end IndexedRecords
