import IndexedRecords.Record
import IndexedRecords.Search
import IndexedRecords.Text.Glob

/-!
# A store in memory

A store of documents under keys, with search indexes over the keys of a prefix. Documents and
indexes keep the order in which they were added. A search does not look at its query: it finds every
document under the prefix of the index. Single commands can be made to fail.
-/

namespace IndexedRecords

/-- The kinds of errors with which a store answers; a foreign one is not an error of stores. -/
inductive RefusalKind where
  | general
  | response
  | connection
  | timeout
  | data
  | foreign
  deriving DecidableEq, Repr

/-- An error with which a store answers a command. -/
structure Refusal where
  kind : RefusalKind
  message : String
  deriving DecidableEq, Repr

/-- Why a command has no reply: it is refused, or a value in it cannot be used. -/
inductive CommandFault where
  | refused (r : Refusal)
  | value (f : ValueFault)
  deriving DecidableEq, Repr

/-- An attribute of a search index, as it was declared. -/
structure StoredAttribute where
  path : String
  queryAlias : String
  type : String
  options : List String
  deriving DecidableEq, Repr

/-- A search index: the prefix of its keys, and its attributes. -/
structure StoredIndex where
  keyPrefix : String
  attributes : List StoredAttribute
  deriving DecidableEq, Repr

/-- A store in memory. -/
structure Store where
  documents : List (String × String)
  indexes : List (String × StoredIndex)
  /-- the answers to commands that are to fail -/
  failures : List (String × Refusal)
  closed : Bool
  deriving DecidableEq, Repr

namespace Store

/-- The store without documents and indexes. -/
def empty : Store := ⟨[], [], [], false⟩

/-! ### Tables in the order of insertion -/

/-- The value under a key. -/
def lookup? {α : Type} (table : List (String × α)) (key : String) : Option α :=
  (table.find? fun e => e.1 = key).map Prod.snd

/-- The table with a value under a key: in its place where the key is there, else at the end. -/
def insert {α : Type} (key : String) (value : α) : List (String × α) → List (String × α)
  | [] => [(key, value)]
  | e :: rest => if e.1 = key then (key, value) :: rest else e :: insert key value rest

/-- The table without a key. -/
def erase {α : Type} (key : String) (table : List (String × α)) : List (String × α) :=
  table.filter fun e => e.1 ≠ key

/-- Whether a table has a key. -/
def hasKey {α : Type} (table : List (String × α)) (key : String) : Bool :=
  table.any fun e => e.1 = key

/-- The keys that start with a prefix, in order. -/
def keysUnder (s : Store) (keyPrefix : String) : List String :=
  (s.documents.map Prod.fst).filter fun key => keyPrefix.toList.isPrefixOf key.toList

/-! ### Failures -/

/-- Makes a command fail from now on. -/
def fail (s : Store) (command : String) (r : Refusal) : Store :=
  { s with failures := insert (String.ofList (Text.upper command.toList)) r s.failures }

/-- Lets a command succeed again. -/
def unfail (s : Store) (command : String) : Store :=
  { s with failures := erase (String.ofList (Text.upper command.toList)) s.failures }

/-! ### Commands -/

/-- An answer, with the store after it. -/
abbrev Answer := Except CommandFault Value × Store

/-- Refuses a command because of what it asks for. -/
def refuse (s : Store) (message : String) : Answer :=
  (.error (.refused ⟨.response, message⟩), s)

/-- The number of digits of the first numeral in a document that has more of them than the limit;
the arguments say whether the characters before stand in a text, after a backslash, and how many of
the last ones are digits. -/
def longNumeral? (inText escaped : Bool) (run : Nat) : List Char → Option Nat
  | [] => if Numeral.digitLimit < run then some run else none
  | c :: rest =>
    if inText then
      if escaped then longNumeral? true false 0 rest
      else longNumeral? (c ≠ '"') (c = '\\') 0 rest
    else if (Text.asciiDigit? c).isSome then longNumeral? false false (run + 1) rest
    else if Numeral.digitLimit < run then some run
    else longNumeral? (c = '"') false 0 rest

/-- Stores a document under a key. -/
def setDocument (s : Store) (key path payload : String) : Answer :=
  if path ≠ "$" then refuse s "only root paths are supported"
  else
    match longNumeral? false false 0 payload.toList with
    | some digits => (.error (.value (.tooManyDigits (some digits))), s)
    | none => (.ok (.text "OK"), { s with documents := insert key payload s.documents })

/-- The document under a key, or null. -/
def getDocument (s : Store) (key : String) : Answer :=
  match lookup? s.documents key with
  | some payload => (.ok (.text payload), s)
  | none => (.ok .none, s)

/-- Deletes documents, and counts those that were there. -/
def deleteDocuments (s : Store) : (count : Nat) → List String → Answer
  | count, [] => (.ok (.int count), s)
  | count, key :: keys =>
    if hasKey s.documents key then
      deleteDocuments { s with documents := erase key s.documents } (count + 1) keys
    else deleteDocuments s count keys

/-- A position in a list of a given length: negative positions count from its end, and positions
outside are moved to the nearest end. -/
def position (length : Nat) (n : Int) : Nat :=
  min length (if n < 0 then n + length else n).toNat

/-- The items from one position to before another one. -/
def slice {α : Type} (items : List α) (start stop : Int) : List α :=
  let first := position items.length start
  (items.drop first).take (position items.length stop - first)

/-- One page of the keys that match a pattern, after the position of the next page as a text. -/
def scan (s : Store) (cursor : Int) (pattern : String) (count : Int) : Answer :=
  let atoms := Glob.parse pattern.toList
  let keys := (s.documents.map Prod.fst).filter fun key => Glob.matchesAll atoms key.toList
  let next := if cursor + count < keys.length then cursor + count else 0
  let page := slice keys cursor (cursor + count)
  match shownInt next with
  | .ok next => (.ok (.list [.text next, .list (page.map .text)]), s)
  | .error fault => (.error (.value fault), s)

/-- The names of all indexes. -/
def listIndexes (s : Store) : Answer :=
  (.ok (.list (s.indexes.map fun e => .text e.1)), s)

/-- Drops an index. -/
def dropIndex (s : Store) (name : String) : Answer :=
  if hasKey s.indexes name then
    (.ok (.text "OK"), { s with indexes := erase name s.indexes })
  else refuse s "Unknown Index name"

/-- Reads the clauses of a schema. A clause has a path, the word `AS`, an alias and a type; the
words after it up to the next path are its options. -/
def readClauses : (done : List StoredAttribute) → (current : Option StoredAttribute) →
    List String → Except CommandFault (List StoredAttribute)
  | done, current, [] => .ok (done ++ current.toList)
  | done, current, word :: rest =>
    match current, "$".isPrefixOf word with
    | some a, false => readClauses done (some { a with options := a.options ++ [word] }) rest
    | current, _ =>
      match rest with
      | keyword :: queryAlias :: type :: rest =>
        if keyword ≠ "AS" then
          .error (.refused ⟨.response, s!"Bad schema clause near {word}"⟩)
        else readClauses (done ++ current.toList) (some ⟨word, queryAlias, type, []⟩) rest
      | rest => .error (.value (.tooFewItems 4 (rest.length + 1)))

/-- Creates an index from the words of its declaration. -/
def createIndex (s : Store) (name : String) (words : List String) : Answer :=
  if hasKey s.indexes name then refuse s "Index already exists"
  else
    let keyPrefix := ((words.dropWhile (· ≠ "PREFIX")).drop 2).headD ""
    let clauses := (words.dropWhile (· ≠ "SCHEMA")).tail
    match readClauses [] none clauses with
    | .ok attributes =>
      (.ok (.text "OK"), { s with indexes := insert name ⟨keyPrefix, attributes⟩ s.indexes })
    | .error fault => (.error fault, s)

/-- What is said about an attribute of an index. -/
def attributeInfo (a : StoredAttribute) : Value :=
  .list ([.text "identifier", .text a.path, .text "attribute", .text a.queryAlias, .text "type",
    .text a.type] ++ if a.options.contains "SORTABLE" then [.text "SORTABLE"] else [])

/-- What is said about an index. -/
def indexInfo (s : Store) (name : String) : Answer :=
  match lookup? s.indexes name with
  | none => refuse s "Unknown Index name"
  | some index =>
    let count := String.ofList (Nat.toDigits 10 (s.keysUnder index.keyPrefix).length)
    (.ok (.list [
      .text "index_name", .text name,
      .text "index_options", .list [],
      .text "index_definition", .list [.text "key_type", .text "JSON", .text "prefixes",
        .list [.text index.keyPrefix], .text "default_score", .text "1"],
      .text "attributes", .list (index.attributes.map attributeInfo),
      .text "num_docs", .text count]), s)

/-- An argument as a value. -/
def valueOf : Argument → Value
  | .int n => .int n
  | .text s => .text s

/-- The window of a search: what follows the word `LIMIT`, or the first ten results. -/
def searchWindow (args : List Argument) : Except ValueFault (Int × Int) :=
  match args.dropWhile (· ≠ .text "LIMIT") with
  | _ :: offset :: rest => do
    let offset ← (valueOf offset).toInt
    let count ← ((rest.head?.map valueOf).getD .none).toInt
    return (offset, count)
  | _ => .ok (0, 10)

/-- The documents in the window of a search, after the number of all documents that it finds. -/
def search (s : Store) (name : String) (args : List Argument) : Answer :=
  match lookup? s.indexes name with
  | none => refuse s s!"{name}: no such index"
  | some index =>
    match searchWindow args with
    | .error fault => (.error (.value fault), s)
    | .ok (offset, count) =>
      let keys := s.keysUnder index.keyPrefix
      let rows := (slice keys offset (offset + count)).flatMap fun key =>
        [.text key, .list [.text "$", .text ((lookup? s.documents key).getD "")]]
      (.ok (.list (.int keys.length :: rows)), s)

/-- The text of an argument. -/
def wordOf : Argument → String
  | .int n => String.ofList (wholeText n)
  | .text s => s

/-- Answers a command that does not fail. -/
def answer (s : Store) : List Argument → Answer
  | [.text "JSON.SET", .text key, .text path, .text payload] => setDocument s key path payload
  | [.text "JSON.GET", .text key] => getDocument s key
  | [.text "JSON.DEL", .text key] => deleteDocuments s 0 [key]
  | .text "DEL" :: keys => deleteDocuments s 0 (keys.map wordOf)
  | [.text "SCAN", .int cursor, .text "MATCH", .text pattern, .text "COUNT", .int count] =>
    scan s cursor pattern count
  | [.text "FT._LIST"] => listIndexes s
  | [.text "FT.DROPINDEX", .text name] => dropIndex s name
  | .text "FT.CREATE" :: .text name :: args => createIndex s name (args.map wordOf)
  | [.text "FT.INFO", .text name] => indexInfo s name
  | .text "FT.SEARCH" :: .text name :: .text _ :: args => search s name args
  | args =>
    let name := (args.head?.map wordOf).getD ""
    refuse s s!"unknown command '{name}'"

/-- Answers a command. -/
def execute (s : Store) (command : List Argument) : Answer :=
  let name := String.ofList (Text.upper ((command.head?.map wordOf).getD "").toList)
  match lookup? s.failures name with
  | some r => (.error (.refused r), s)
  | none => answer s command

end Store

end IndexedRecords
