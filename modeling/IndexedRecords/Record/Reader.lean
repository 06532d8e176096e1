import IndexedRecords.Catalogue
import IndexedRecords.Json.Reader
import IndexedRecords.Record.Label
import IndexedRecords.Record.Scalar

/-!
# Reading records

How a value is read as a shape. A reader is what a value offers to the shape of a field: the value
itself, and readers for the values inside of it. Readers are built by recursion on the value, and
applied by recursion on the shape, so that the types of records may refer to each other in any way.

An iterable is the one container that is not looked into: its items are taken as they come, and only
what goes through them later finds out whether they are what the shape says. So its items are kept
here as they are, in a list.
-/

namespace IndexedRecords

namespace Record

open Reading

/-- Reads one value as the shape it is asked for. -/
abbrev Reader := Shape → Reading Value

/-- An entry of a map with readers for its key and its value. -/
structure EntryView where
  key : Value
  value : Value
  readKey : Reader
  readValue : Reader

/-- A value with readers for what it holds: for the items of a sequence or set, and for the entries
of a map. -/
structure View where
  value : Value
  items : List Reader
  entries : List EntryView

/-- What reading depends on besides the value and the shape. -/
structure Context where
  catalogue : Catalogue
  origin : Origin

/-- The context of the keys of maps: in a document they are the names of members. -/
def Context.ofKeys (ctx : Context) : Context :=
  if ctx.origin = .caller then ctx else { ctx with origin := .name }

/-! ### Items and entries -/

/-- Reads items, each at its position. -/
def itemsAt (shape : Shape) : (position : Nat) → List Reader → List (Reading Value)
  | _, [] => []
  | position, r :: rest =>
    under [.index position] (r shape) :: itemsAt shape (position + 1) rest

/-- The place of the entry of a key. -/
def keyPlace : Value → Place
  | .text s => .key s
  | .int n => .index n
  | v =>
    match v.display with
    | .ok s => .key s
    | .error _ => .key ""

/-- Sets an entry of a map: in the place of an earlier one of the same key, else at the end. -/
def setEntry (entry : Value × Value) : List (Value × Value) → List (Value × Value)
  | [] => [entry]
  | e :: rest => if e.1.same entry.1 then (e.1, entry.2) :: rest else e :: setEntry entry rest

/-- Reads the entries of a map. -/
def readEntries (keyShape valueShape : Shape) (entries : List EntryView) : Reading Value := do
  let read ← all (entries.map fun e =>
    both (under [keyPlace e.key, .key "[key]"] (e.readKey keyShape))
      (under [keyPlace e.key] (e.readValue valueShape)))
  return .map (read.foldl (fun merged entry => setEntry entry merged) [])

mutual

/-- Whether a value can be an item of a set. A tuple can if all its items can. -/
def isHashable : Value → Bool
  | .list _ | .queue _ | .set false _ | .map _ | .record _ _ | .reference (.field _) => false
  | .tuple items => areHashable items
  | _ => true

/-- Whether all of several values can be items of a set. -/
def areHashable : List Value → Bool
  | [] => true
  | v :: rest => isHashable v && areHashable rest

end

/-- A set of items without repetitions. -/
def setOf (frozen : Bool) (items : List Value) : Value :=
  .set frozen (items.foldl (fun kept v => if kept.any v.same then kept else kept ++ [v]) [])

/-- Reads an item of a set: what no set can hold is a problem. -/
def Reader.hashed (r : Reader) : Reader := fun shape => do
  let v ← r shape
  if isHashable v then return v else throw (.here .unhashableItem)

/-- Readers for the items of a value that can be read as a sequence: documents have arrays only,
callers have tuples, sets and deques as well. -/
def sequenceItems? (v : View) : Option (List Reader) :=
  match v.value with
  | .list _ | .tuple _ | .queue _ | .set _ _ => some v.items
  | _ => none

/-- Reads the items of a sequence as one shape. -/
def readItems (v : View) (mismatch : ProblemKind) (item : Shape) : Reading (List Value) :=
  match sequenceItems? v with
  | some readers => all (itemsAt item 0 readers)
  | none => throw (.here mismatch)

/-- Reads the items of a tuple, each as a shape of its own. -/
def readFixed : (position : Nat) → List Shape → List Reader → List (Reading Value)
  | _, [], _ => []
  | position, _ :: shapes, [] =>
    under [.index position] (throw (.here .missing)) :: readFixed (position + 1) shapes []
  | position, shape :: shapes, r :: rest =>
    under [.index position] (r shape) :: readFixed (position + 1) shapes rest

/-- Reads the items of a set as one shape. -/
def readSet (v : View) (mismatch : ProblemKind) (frozen : Bool) (item : Shape) :
    Reading Value := do
  return setOf frozen (← readItems { v with items := v.items.map Reader.hashed } mismatch item)

/-- How closely a container matches a head. Documents have no sets and tuples. -/
def containerCloseness (origin : Origin) (head : Generic) (v : Value) : Closeness :=
  match origin, head, v with
  | .caller, .list, .list _ | .caller, .mutableSequence, .list _ => .exact
  | .caller, .tuple, .tuple _ | .caller, .queue, .queue _ => .exact
  | .caller, .set, .set false _ => .exact
  | .caller, .frozenSet, .set true _ | .caller, .abstractSet, .set true _ => .exact
  | .caller, _, _ => .converted
  | _, .tuple, _ | _, .set, _ | _, .frozenSet, _ | _, .abstractSet, _ => .accepted
  | _, _, _ => .exact

/-- Reads the items of a list, which are kept as they are where anything is accepted. -/
def readListItems (v : View) (item : Shape) : Reading (List Value) :=
  match item.acceptsAnything, v.value with
  | true, .list items | true, .tuple items | true, .queue items | true, .set _ items => return items
  | _, _ => readItems v .listType item

/-- Reads a sequence. A caller may give a list, a tuple or a deque, which stays one; a text is a
sequence only where anything is accepted as its items. -/
def readSequence (ctx : Context) (v : View) (item : Shape) : Reading Value :=
  match ctx.origin, v.value.plain, item with
  | .caller, .list _, .any | .caller, .tuple _, .any | .caller, .queue _, .any
  | .caller, .text _, .any | .caller, .bytes _, .any => return v.value
  | .caller, .list _, item => do return .list (← readListItems v item)
  | .caller, .tuple _, item => do return .tuple (← readListItems v item)
  | .caller, .queue _, item => do return .queue (← readListItems v item)
  | .caller, .text _, _ | .caller, .bytes _, _ => throw (.here .sequenceText)
  | .caller, _, _ => throw (.here .instanceOf)
  | _, _, item => do return .list (← readListItems v item)

/-- Takes the items of an iterable as they come. -/
def readIterable (v : Value) : Reading Value :=
  match v.items? with
  | some items => return .list items
  | none => throw (.here .iterableType)

/-- Reads a value as a head with arguments. An argument that is missing accepts anything. -/
def readGeneric (ctx : Context) (v : View) (head : Generic) (args : List Shape) :
    Reading Value := do
  let first := args.headD .any
  let second := args.tail.headD .any
  match head with
  | .list | .mutableSequence =>
    loosen (containerCloseness ctx.origin head v.value)
    return .list (← readListItems v first)
  | .queue =>
    loosen (containerCloseness ctx.origin head v.value)
    return .queue (← readListItems v first)
  | .iterable => readIterable v.value
  | .sequence => readSequence ctx v first
  | .set =>
    loosen (containerCloseness ctx.origin head v.value)
    readSet v .setType false first
  | .frozenSet | .abstractSet =>
    loosen (containerCloseness ctx.origin head v.value)
    readSet v .frozenSetType true first
  | .tuple =>
    loosen (containerCloseness ctx.origin head v.value)
    match sequenceItems? v with
    | none => throw (.here .tupleType)
    | some readers =>
      -- the items come first: a fault of one of them ends the reading also where there are too many
      let read := all (readFixed 0 args readers)
      if args.length < readers.length then spoiled .tooLong read else return .tuple (← read)
  | .map | .abstractMap | .mutableMap | .orderedMap =>
    match v.value with
    | .map _ => readEntries first second v.entries
    | _ => throw (.here .mapType)
  | .type => throw (.here .instanceOf)

/-- Reads a value as a tuple of any length. -/
def readVariadic (ctx : Context) (v : View) (item : Shape) : Reading Value := do
  loosen (containerCloseness ctx.origin .tuple v.value)
  return .tuple (← readItems v .tupleType item)

/-! ### Records -/

/-- Finds the entry of a name: the name that replaces the field's own comes first, and the latter
counts as well unless the record type is plain. -/
def entryOf? (r : RecordType) (f : Field) (entries : List EntryView) :
    Option (String × EntryView) :=
  let find (name : String) : Option (String × EntryView) :=
    (entries.find? fun e => match e.key with
      | .text s => s = name
      | _ => false).map fun e => (name, e)
  match f.readKey? with
  | none => find f.name
  | some key => if r.isSearchable then (find key).or (find f.name) else find key

/-- The value of a field that is not given. -/
def absentValue (f : Field) : Reading Value :=
  match f.default with
  | .required =>
    throw (.problems [⟨[.key (f.readKey?.getD f.name)], .missing⟩])
  | .value v => return v
  | .emptyList => return .list []
  | .emptyMap => return .map []
  | .freshId => return .text (← freshId)

/-- A value as it is kept: searchable records have an offset in their moments. -/
def keptValue (r : RecordType) (v : Value) : Value :=
  match v with
  | .moment m => if r.isSearchable then .moment m.assumeUniversal else .moment m
  | v => v

/-- Whether a persisted record gets a fresh identifier in place of a value. -/
def asksForId (r : RecordType) (f : Field) (v : Value) : Bool :=
  r.lineage = .persisted && f.name = "id" &&
    match v.plain with
    | .none => true
    | .text s => s = ""
    | _ => false

/-! ### Enumerations and literals -/

/-- Whether a value is a whole number of sixty-four bits. -/
def isWord : Value → Bool
  | .int n => Scalar.fitsWord n
  | _ => false

/-- Whether a value is a whole number that does not fit into sixty-four bits. -/
def isLarge : Value → Bool
  | .int n => !Scalar.fitsWord n
  | _ => false

/-- Whether two values are the same text, whole number or truth value, each of its own kind. -/
def matchesExactly (v w : Value) : Bool :=
  match v, w with
  | .bool a, .bool b => a = b
  | .int a, .int b => a = b
  | .text a, .text b => a = b
  | _, _ => false

/-- Whether a value is a text, a whole number of sixty-four bits or a truth value. -/
def isSimple : Value → Bool
  | .bool _ | .text _ => true
  | v => isWord v

/-- What a value stands for among expected ones, of which the last one counts that fits. A text, a
whole number or a truth value stands for itself at first; otherwise any expected value will do that
is the same, as the floating number 1.0 is the same as 1, the simple ones last. Where a whole number
of sixty-four bits is expected, a larger one is a problem of its own, whatever else is expected. -/
def lookUp {α : Type} (expected : List (Value × α)) (v : Value) : Except ProblemKind (Option α) :=
  let last (fits : Value → Bool) : Option α :=
    (expected.reverse.find? fun e => fits e.1).map Prod.snd
  if isLarge v && expected.any fun e => isWord e.1 then .error .intParsingSize
  else
    .ok ((last (matchesExactly v)).or ((last fun w => !isSimple w && w.same v).or
      (last fun w => w.same v)))

/-- The member of an enumeration of whole numbers that a value stands for: it is read as a whole
number, which has to fit into sixty-four bits. -/
def wholeMember? (e : Enumeration) (v : Value) : Except ProblemKind (Option Value) :=
  match Scalar.readInt v with
  | .ok n => if isLarge n then .error .intParsingSize else .ok (e.ofValue? n)
  | .error _ => .ok none

/-- The member of an enumeration that a value stands for, if there is one. -/
def caseOf? (e : Enumeration) (v : Value) : Except ProblemKind (Option Value) :=
  match e.kind with
  | .plain => lookUp e.cases v
  | .text => .ok ((Scalar.readText v).toOption.bind e.ofValue?)
  | .whole => wholeMember? e v

/-- What is read of something that stands for a value: this value, or a problem where there is
none. -/
def foundOr (absent : ProblemKind) : Except ProblemKind (Option Value) → Except Rejection Value
  | .ok (some v) => .ok v
  | .ok none => .error (.here absent)
  | .error kind => .error (.here kind)

/-- Reads a member of an enumeration, by its value unless it is one already. -/
def readMember (e : Enumeration) (v : Value) : Except Rejection Value :=
  match v with
  | .member name _ _ _ => if name = e.name then .ok v else foundOr .enum (caseOf? e v)
  | v => foundOr .enum (caseOf? e v)

/-- How closely a value matches an enumeration: only a member of it is kept. -/
def memberCloseness (e : Enumeration) : Value → Closeness
  | .member name _ _ _ => if name = e.name then .exact else .converted
  | _ => .converted

/-- Reads one of several given values. -/
def readLiteral (values : List Value) (v : Value) : Except Rejection Value :=
  foundOr .literalError (lookUp (values.map fun w => (w, w)) v)

/-! ### Unions -/

/-- A reading of a value that has succeeded. -/
structure Candidate where
  value : Value
  closeness : Closeness
  given : Option Nat

/-- Whether a candidate is better than an earlier one: it gives more fields to records or, where
that does not settle it, matches more closely. -/
def Candidate.isBetter (new old : Candidate) : Bool :=
  match old.given, new.given with
  | some m, some n => if m = n then old.closeness.rank < new.closeness.rank else m < n
  | _, _ => old.closeness.rank < new.closeness.rank

/-- Settles on a candidate. -/
def Candidate.choose (c : Candidate) : Reading Value := do
  loosen c.closeness
  match c.given with
  | some n => give n
  | none => pure ()
  return c.value

/-- Tries several readings of a value and settles on the best one. An exact match of something that
is no record ends the search. Where no reading succeeds, all problems count, each under the name of
its shape. -/
def bestOf : (best : Option Candidate) → (problems : List Problem) →
    List (String × Reading Value) → Reading Value
  | some c, _, [] => c.choose
  | none, ps, [] => throw (.problems ps)
  | best, ps, (name, r) :: rest => fun p =>
    match r (.start p.ids) with
    | (.ok v, q) =>
      let c : Candidate := ⟨v, q.closeness, q.given⟩
      let p := { p with ids := q.ids }
      if q.closeness = .exact ∧ q.given = none then c.choose p
      else if best.all c.isBetter then bestOf (some c) ps rest p
      else bestOf best ps rest p
    | (.error (.problems qs), q) =>
      bestOf best (ps ++ qs.map fun p => { p with place := .key name :: p.place }) rest
        { p with ids := q.ids }
    | (.error (.fault f), q) => (.error (.fault f), { p with ids := q.ids })

/-- The reading of a union, given the readings of its members besides null. -/
def readUnion (v : Value) (nullable : Bool) (readings : List (String × Reading Value)) :
    Reading Value :=
  match v, nullable, readings with
  | .none, true, _ => return .none
  | _, _, [(_, r)] => r
  | _, _, readings => bestOf none [] readings

/-! ### Shapes -/

mutual

/-- Reads a view as a shape; records are read as the given function says. -/
def readAs (ctx : Context) (v : View) (record : String → Reading Value) : Shape → Reading Value
  | .scalar s => do
    let read ← settled (s.read ctx.origin v.value)
    loosen (s.closeness ctx.origin v.value)
    return read
  | .nullType | .nullValue =>
    match v.value with
    | .none => return .none
    | _ => throw (.here .noneRequired)
  | .any => do
    loosen .accepted
    return v.value
  | .bare .tuple => readVariadic ctx v .any
  | .bare head => readGeneric ctx v head []
  | .record name => record name
  | .enumeration e => do
    let member ← settled (readMember e v.value)
    loosen (memberCloseness e v.value)
    return member
  | .generic head _ args => readGeneric ctx v head args
  | .variadic item => readVariadic ctx v item
  | .union members =>
    readUnion v.value (members.any Shape.isNullType) (readEach ctx v record members)
  | .annotated inner _ => readAs ctx v record inner
  | .literal values => settled (readLiteral values v.value)
  | .renamed _ inner => readAs ctx v record inner

/-- Readings of a view as each of several shapes besides null. -/
def readEach (ctx : Context) (v : View) (record : String → Reading Value) :
    List Shape → List (String × Reading Value)
  | [] => []
  | s :: rest =>
    if s.isNullType then readEach ctx v record rest
    else (s.label, readAs ctx v record s) :: readEach ctx v record rest

end

/-- Reads a value that holds no others. -/
def readAtom (ctx : Context) (v : Value) : Reader :=
  readAs ctx ⟨v, [], []⟩ fun _ => throw (.here .modelType)

/-- Reads a field of a record from the entries of a map. -/
def readField (ctx : Context) (r : RecordType) (entries : List EntryView) (f : Field) :
    Reading (String × Value) :=
  match entryOf? r f entries with
  | none => do return (f.name, ← absentValue f)
  | some (key, e) => do
    let read : Reading Value :=
      if asksForId r f e.value then do readAtom ctx (.text (← freshId)) f.shape
      else e.readValue f.shape
    return (f.name, keptValue r (← under [.key key] read))

/-- Reads a record from the entries of a map. -/
def readFields (ctx : Context) (r : RecordType) (entries : List EntryView) : Reading Value := do
  loosen .converted
  let fields ← all (r.fields.map (readField ctx r entries))
  give (r.fields.countP fun f => (entryOf? r f entries).isSome)
  return .record r.name fields

/-- Reads a view as a record. A record of the type, or of one that extends it, is kept. -/
def readRecord (ctx : Context) (v : View) (name : String) : Reading Value :=
  match v.value, ctx.catalogue.find? name with
  | .map _, some r => readFields ctx r v.entries
  | .record model fields, some r =>
    if model = r.name || ((ctx.catalogue.find? model).any fun m => m.extends? r.name) then
      return .record model fields
    else throw (.here .modelType)
  | _, _ => throw (.here .modelType)

/-- Reads a view as a shape. -/
def readView (ctx : Context) (v : View) : Reader := readAs ctx v (readRecord ctx v)

mutual

/-- Reads a value as a shape. -/
def reader (ctx : Context) : Value → Reader
  | .list items => readView ctx ⟨.list items, readers ctx items, []⟩
  | .tuple items => readView ctx ⟨.tuple items, readers ctx items, []⟩
  | .queue items => readView ctx ⟨.queue items, readers ctx items, []⟩
  | .set frozen items => readView ctx ⟨.set frozen items, readers ctx items, []⟩
  | .map entries => readView ctx ⟨.map entries, [], entryReaders ctx entries⟩
  | v => readView ctx ⟨v, [], []⟩

/-- Reads each of several values. -/
def readers (ctx : Context) : List Value → List Reader
  | [] => []
  | v :: rest => reader ctx v :: readers ctx rest

/-- Reads the keys and the values of several entries. -/
def entryReaders (ctx : Context) : List (Value × Value) → List EntryView
  | [] => []
  | (key, v) :: rest =>
    ⟨key, v, reader ctx.ofKeys key, reader ctx v⟩ :: entryReaders ctx rest

end

/-! ### Whole records -/

mutual

/-- A document as a value. -/
def valueOfJson : Json → Value
  | .null => .none
  | .bool b => .bool b
  | .int n => .int n
  | .float x => .float x
  | .text s => .text s
  | .array items => .list (valuesOfJson items)
  | .object members => .map (entriesOfJson members)

/-- The items of an array as values. -/
def valuesOfJson : List Json → List Value
  | [] => []
  | item :: rest => valueOfJson item :: valuesOfJson rest

/-- The members of an object as the entries of a map. -/
def entriesOfJson : List (String × Json) → List (Value × Value)
  | [] => []
  | (name, v) :: rest => (.text name, valueOfJson v) :: entriesOfJson rest

end

/-- The record of a given type that a caller makes from named values. -/
def make (c : Catalogue) (model : String) (data : List (String × Value)) : Reading Value :=
  reader ⟨c, .caller⟩ (.map (data.map fun (name, v) => (.text name, v))) (.record model)

/-- The record of a given type in a document. -/
def ofJson (c : Catalogue) (model : String) (document : Json) : Reading Value :=
  reader ⟨c, .document⟩ (valueOfJson document) (.record model)

/-- The characters of a stored document: a text, or bytes that encode one. -/
def documentText (payload : Value) : Except Rejection (List Char) :=
  match payload.plain with
  | .text s => .ok s.toList
  | .bytes content =>
    match Utf8.decode? content with
    | .ok cs => .ok cs
    | .error _ => .error (.here .jsonInvalid)
  | _ => .error (.here .jsonType)

/-- The record of a given type that a stored document holds. -/
def ofDocument (c : Catalogue) (model : String) (payload : Value) : Reading Value := do
  let cs ← settled (documentText payload)
  match Json.read? cs with
  | some document => ofJson c model document
  | none => throw (.here .jsonInvalid)

end Record

end IndexedRecords
