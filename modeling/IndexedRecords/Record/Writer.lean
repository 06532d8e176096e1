import IndexedRecords.Catalogue
import IndexedRecords.Json
import IndexedRecords.Record.Key

/-!
# Writing records

How a record becomes a document. The kind of a value decides how it is written; the shape of its
field matters only where a value is written as something else than its kind says: points are
written as text, truth values in fields of whole numbers as numbers, records with the fields of the
declared type, deques as arrays where the shape asks for a deque or a sequence and not at all
elsewhere, and the value of a union as its first member that the value matches. The dates and
moments of searchable records are written as seconds since 1970, so that an index can order them;
those in a deque are not.

A writer is what a value offers to the shape of a field: the value itself, and writers for the
values inside of it. Writers are built by recursion on the value, and applied by recursion on the
shape.
-/

namespace IndexedRecords

namespace Record

/-- Writes one value as the shape it is asked for, if the value passes the check. -/
abbrev Writer := Check → Shape → Option Json

/-- A value with writers for what it holds: for the items of a sequence or set, for the value of a
member of an enumeration, for the values of a map, and for the fields of a record. -/
structure Content where
  value : Value
  items : List Writer
  entries : List (Value × Writer)
  fields : List (String × Value × Writer)

/-! ### Single values -/

/-- A number of a point. -/
def jsonOfNumber : Number → Json
  | .int n => .int n
  | .float x => .float x

/-- A point where nothing says that it is one. -/
def jsonOfPoint (p : Coordinates) : Json :=
  .object [("longitude", jsonOfNumber p.longitude), ("latitude", jsonOfNumber p.latitude)]

/-- A date or moment as seconds since 1970. -/
def epochJson? : Value → Option Json
  | .date d => some (.int d.epochSeconds)
  | .moment m => some (.float m.epochSeconds)
  | _ => none

/-- What a searchable record writes for a date or moment, or for a sequence of them that is not
empty. -/
def temporalJson? (v : Value) : Option Json :=
  match v with
  | .list (item :: rest) | .tuple (item :: rest) => ((item :: rest).mapM epochJson?).map .array
  | v => epochJson? v

/-! ### Items, entries and fields -/

/-- Writes items, all as one shape. -/
def writeItems (check : Check) (item : Shape) (items : List Writer) : Option Json :=
  (items.mapM fun (w : Writer) => w check item).map .array

/-- Writes items, each as a shape of its own; anything is accepted where no shape is left. -/
def writeFixed (check : Check) : List Shape → List Writer → Option (List Json)
  | _, [] => some []
  | shapes, w :: rest => do
    return (← w check (shapes.headD .any)) :: (← writeFixed check shapes.tail rest)

/-- Writes the entries of a map. -/
def writeEntries (check : Check) (key value : Shape) (entries : List (Value × Writer)) :
    Option Json := do
  let members ← entries.mapM fun (k, w) => do return (← nameAs key check k, ← w check value)
  return .object (Json.mergeMembers members)

/-- Writes a field of a record. -/
def writeField (check : Check) (r : RecordType) (f : Field) (v : Value) (w : Writer) :
    Option Json :=
  match if r.isSearchable then temporalJson? v else none with
  | some epoch => some epoch
  | none => w check f.shape

/-- Writes the fields of a record that a type has. -/
def writeFields (check : Check) (r : RecordType) (fields : List (String × Value × Writer)) :
    Option (List (String × Json)) :=
  (fields.filterMap fun (name, v, w) => (r.field? name).map fun f => (f, v, w)).mapM
    fun (f, v, w) => do return (f.writtenKey, ← writeField check r f v w)

/-! ### Values by their kind -/

namespace Content

/-- Writes a value as its own kind says. -/
def byKind (c : Catalogue) (content : Content) : Option Json :=
  match content.value with
  | .none => some .null
  | .bool b => some (.bool b)
  | .int n => some (.int n)
  | .float x => some (.float x)
  | .decimal d => some (.text (String.ofList d.text))
  | .text s => some (.text s)
  | .bytes bytes => (textOfBytes? bytes).map .text
  | .date d => some (.text (String.ofList d.text))
  | .moment m => some (.text (String.ofList m.documentText))
  | .point p => some (jsonOfPoint p)
  | .member _ _ _ _ => content.items.head?.bind fun w => w .off .any
  | .record model _ => do
    let r ← c.find? model
    return .object (Json.mergeMembers (← writeFields .off r content.fields))
  | .list _ | .tuple _ | .set _ _ => writeItems .off .any content.items
  | .map _ => writeEntries .off .any .any content.entries
  | .queue _ | .reference _ | .bare => none

/-- Writes a value as its own kind says, if it matches its shape or need not match it. -/
def byKindIf (fits : Bool) (c : Catalogue) (content : Content) (check : Check) : Option Json :=
  if fits || check.forgives content.value then content.byKind c else none

end Content

/-! ### Values by their shape -/

/-- Writes a value as a kind of single values. -/
def writeScalar (c : Catalogue) (content : Content) (check : Check) (s : Scalar) : Option Json :=
  match s, content.value with
  | .point, v => (shownText? v).map .text
  | .int, .bool b => if check = .strict then none else some (.int (if b then 1 else 0))
  | s, v => content.byKindIf (check.suits s v) c check

/-- Writes a value as a head with arguments. An argument that is missing accepts anything. -/
def writeGeneric (c : Catalogue) (content : Content) (check : Check) (head : Generic)
    (args : List Shape) : Option Json :=
  let first := args.headD .any
  let second := args.tail.headD .any
  match head, content.value with
  | .list, .list _ | .mutableSequence, .list _ | .iterable, .list _
  | .set, .set false _ | .frozenSet, .set true _ | .abstractSet, .set true _
  | .sequence, .list _ | .sequence, .tuple _ | .sequence, .queue _ | .sequence, .set _ _
  | .queue, .list _ | .queue, .tuple _ | .queue, .queue _ | .queue, .set _ _ =>
    writeItems check first content.items
  | .tuple, .tuple items =>
    if check = .strict ∧ items.length ≠ args.length then none
    else (writeFixed check args content.items).map .array
  | .map, .map _ | .abstractMap, .map _ | .mutableMap, .map _ | .orderedMap, .map _ =>
    writeEntries check first second content.entries
  | .sequence, _ | .queue, _ | .type, _ => content.byKind c
  | _, _ => content.byKindIf false c check

/-- Writes a value as a tuple of any length. -/
def writeVariadic (c : Catalogue) (content : Content) (check : Check) (item : Shape) :
    Option Json :=
  match content.value with
  | .tuple _ => writeItems check item content.items
  | _ => content.byKindIf false c check

/-- Whether a record of a type is written as a record of another type. -/
def matchesType (c : Catalogue) (check : Check) (model name : String) : Bool :=
  match check with
  | .off => true
  | .lenient => (c.find? model).any fun r => r.extends? name
  | .strict => model = name

/-- Writes a value as a record of a type: with the fields that both have. Where nothing is checked,
the members of enumerations count as records without fields. -/
def writeRecord (c : Catalogue) (content : Content) (check : Check) (name : String) :
    Option Json :=
  match content.value, c.find? name with
  | .record model _, some r =>
    if matchesType c check model name then do
      return .object (Json.mergeMembers (← writeFields check r content.fields))
    else none
  | .member _ _ _ _, _ => if check = .off then some (.object []) else none
  | _, _ => content.byKindIf false c check

mutual

/-- Writes a value as a shape. -/
def writeAs (c : Catalogue) (content : Content) : Shape → Check → Option Json
  | .scalar s, check => writeScalar c content check s
  | .any, _ => content.byKind c
  | .bare .tuple, check => writeVariadic c content check .any
  | .bare head, check => writeGeneric c content check head []
  | .record name, check => writeRecord c content check name
  | .enumeration e, check =>
    match content.value with
    | .member name _ _ _ => content.byKindIf (name = e.name) c check
    | _ => content.byKindIf false c check
  | .generic head _ args, check => writeGeneric c content check head args
  | .variadic item, check => writeVariadic c content check item
  | .union members, check =>
    match content.value, members.any Shape.isNullType, writeEach c content members with
    | .none, true, _ => some .null
    | _, _, [write] => write check
    | _, _, writes =>
      check.firstMatch (Shape.anySecondChance members) writes <|> content.byKindIf false c check
  | .literal values, check => content.byKindIf (Check.isAmong values content.value) c check
  | .annotated inner _, check | .renamed _ inner, check => writeAs c content inner check
  | .nullType, check | .nullValue, check => content.byKindIf false c check

/-- How a value is written as each of several shapes besides null. -/
def writeEach (c : Catalogue) (content : Content) : List Shape → List (Check → Option Json)
  | [] => []
  | s :: rest =>
    if s.isNullType then writeEach c content rest
    else writeAs c content s :: writeEach c content rest

end

/-- Writes a value with what it holds as a shape. -/
def writeContent (c : Catalogue) (content : Content) : Writer := fun check shape =>
  writeAs c content shape check

mutual

/-- Writes a value as a shape. -/
def writer (c : Catalogue) : Value → Writer
  | .member e kind name v => writeContent c ⟨.member e kind name v, [writer c v], [], []⟩
  | .record model fields =>
    writeContent c ⟨.record model fields, [], [], fieldWriters c fields⟩
  | .list items => writeContent c ⟨.list items, writers c items, [], []⟩
  | .tuple items => writeContent c ⟨.tuple items, writers c items, [], []⟩
  | .queue items => writeContent c ⟨.queue items, writers c items, [], []⟩
  | .set frozen items => writeContent c ⟨.set frozen items, writers c items, [], []⟩
  | .map entries => writeContent c ⟨.map entries, [], entryWriters c entries, []⟩
  | v => writeContent c ⟨v, [], [], []⟩

/-- Writes each of several values. -/
def writers (c : Catalogue) : List Value → List Writer
  | [] => []
  | v :: rest => writer c v :: writers c rest

/-- Writes the values of several entries. -/
def entryWriters (c : Catalogue) : List (Value × Value) → List (Value × Writer)
  | [] => []
  | (key, v) :: rest => (key, writer c v) :: entryWriters c rest

/-- Writes the values of several fields. -/
def fieldWriters (c : Catalogue) : List (String × Value) → List (String × Value × Writer)
  | [] => []
  | (name, v) :: rest => (name, v, writer c v) :: fieldWriters c rest

end

/-- The document of a record. -/
def toJson? (c : Catalogue) (model : String) (fields : List (String × Value)) : Option Json := do
  let r ← c.find? model
  return .object (← writeFields .off r (fieldWriters c fields))

end Record

end IndexedRecords
