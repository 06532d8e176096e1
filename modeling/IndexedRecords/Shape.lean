import IndexedRecords.Enumeration
import IndexedRecords.Marker

/-!
# Shapes

The shape of a field says which values it takes: a kind of single values, a record, an
enumeration, a container of another shape, or one of several shapes. `unwrap` takes off the layers
that do not matter to an index: annotations, and the null member of a union with one other member.
-/

namespace IndexedRecords

/-- The kinds of single values. -/
inductive Scalar where
  | int
  | float
  | bool
  | text
  | bytes
  | decimal
  | moment
  | date
  | point
  | bare
  | complex
  deriving DecidableEq, Repr

/-- The heads of shapes that take arguments. -/
inductive Generic where
  | list
  | set
  | frozenSet
  | tuple
  | sequence
  | mutableSequence
  | abstractSet
  | map
  | abstractMap
  | mutableMap
  | orderedMap
  | queue
  | iterable
  | type
  deriving DecidableEq, Repr

namespace Generic

/-- Whether the values are sequences or sets of one kind of items. -/
def isSequence : Generic → Bool
  | .list | .set | .frozenSet | .tuple | .sequence | .mutableSequence | .abstractSet => true
  | _ => false

/-- Whether the values are maps. -/
def isMap : Generic → Bool
  | .map | .abstractMap | .mutableMap => true
  | _ => false

end Generic

/-- The shape of a field. -/
inductive Shape where
  | scalar (s : Scalar)
  /-- the shape of null -/
  | nullType
  /-- null itself in the place of a shape; it counts as no shape at all -/
  | nullValue
  | any
  /-- a container class that says nothing about its items -/
  | bare (head : Generic)
  | record (name : String)
  | enumeration (e : Enumeration)
  /-- a head with arguments; the older spelling of a head is a shape of its own -/
  | generic (head : Generic) (older : Bool) (args : List Shape)
  /-- tuples of any length -/
  | variadic (item : Shape)
  | union (members : List Shape)
  | annotated (inner : Shape) (markers : List Marker)
  | literal (values : List Value)
  /-- another name for a shape; it counts as a class that nothing is known about -/
  | renamed (name : String) (inner : Shape)

namespace Shape

/-! ### Equality -/

/-- Whether two values are the same and of one kind. -/
def sameLiteral (a b : Value) : Bool := a.kindName == b.kindName && a.same b

mutual

/-- Whether two shapes are the same; the order of the members of a union, and that of given values,
does not count. -/
def same : Shape → Shape → Bool
  | .scalar s, .scalar t => s == t
  | .nullType, .nullType => true
  | .nullValue, .nullValue => true
  | .any, .any => true
  | .bare g, .bare h => g == h
  | .record s, .record t => s == t
  | .enumeration e, .enumeration f => e.name == f.name
  | .generic g older args, b =>
    match b with
    | .generic h older' args' => g == h && older == older' && sameItems args args'
    | _ => false
  | .variadic a, b =>
    match b with
    | .variadic b => same a b
    | _ => false
  | .union members, b =>
    match b with
    | .union members' => members.length == members'.length && allAmong members members'
    | _ => false
  | .annotated a markers, b =>
    match b with
    | .annotated b markers' => same a b && markers == markers'
    | _ => false
  | .literal values, .literal values' =>
    values.length == values'.length && values.all fun v => values'.any (sameLiteral v)
  | .renamed s _, .renamed t _ => s == t
  | _, _ => false

/-- Whether two lists hold the same shapes in the same order. -/
def sameItems : List Shape → List Shape → Bool
  | [], [] => true
  | a :: as, bs =>
    match bs with
    | b :: bs => same a b && sameItems as bs
    | [] => false
  | _, _ => false

/-- Whether each shape of a list is the same as one of another list. -/
def allAmong : List Shape → List Shape → Bool
  | [], _ => true
  | a :: as, bs => bs.any (same a) && allAmong as bs

end

/-! ### Building shapes -/

/-- The shape that null stands for where only a shape can stand. -/
def settle : Shape → Shape
  | .nullValue => .nullType
  | s => s

/-- The members that a shape contributes to a union. -/
def unionMembers : Shape → List Shape
  | .union members => members
  | s => [s.settle]

/-- The union of some shapes: nested unions are spliced and repeated members dropped, and a union
of one member is that member. -/
def unionOf (shapes : List Shape) : Shape :=
  let members := (shapes.flatMap unionMembers).foldl
    (fun kept s => if kept.any (same s) then kept else kept ++ [s]) []
  match members with
  | [s] => s
  | members => .union members

/-- A shape or null. -/
def optional (s : Shape) : Shape := unionOf [s, .nullType]

/-- The shape of given values; a repeated one counts once. -/
def literalOf (values : List Value) : Shape :=
  .literal (values.foldl
    (fun kept v => if kept.any (sameLiteral v) then kept else kept ++ [v]) [])

/-- A shape with markers; the markers of a shape that has some already come first. -/
def annotate (s : Shape) (markers : List Marker) : Shape :=
  match s with
  | .annotated inner ms => .annotated inner (ms ++ markers)
  | s => .annotated s.settle markers

/-- A head in its older spelling with arguments. -/
def olderGeneric (head : Generic) (args : List Shape) : Shape :=
  .generic head true (args.map settle)

/-! ### Looking through layers -/

/-- Whether a shape is that of null. -/
def isNullType : Shape → Bool
  | .nullType => true
  | _ => false

/-- Whether a shape accepts anything. -/
def acceptsAnything : Shape → Bool
  | .any | .scalar .bare => true
  | .annotated inner _ | .renamed _ inner => acceptsAnything inner
  | _ => false

mutual

/-- The shape under its annotations and without the null member of a union with one other member. -/
def unwrap : Shape → Shape
  | .annotated inner _ => unwrap inner
  | .union members =>
    match unwrapSole members with
    | some s => s
    | none => .union members
  | s => s

/-- The unwrapped member of a list that holds exactly one besides null. -/
def unwrapSole : List Shape → Option Shape
  | [] => none
  | s :: rest =>
    if s.isNullType then unwrapSole rest
    else if rest.all isNullType then some (unwrap s) else none

end

/-- An unwrapped argument, unless null stands in its place. -/
def argument? (s : Shape) : Option Shape :=
  match s.unwrap with
  | .nullValue => none
  | s => some s

/-- The shape of the items of a sequence. -/
def element? : Shape → Option Shape
  | .generic head _ args =>
    if head.isSequence then
      match args with
      | [] => some .any
      | item :: _ => argument? item
    else none
  | .variadic item => argument? item
  | _ => none

/-- The shape of the values of a map. -/
def mapValue? : Shape → Option Shape
  | .generic head _ args =>
    if head.isMap then
      match args with
      | [_, value] => argument? value
      | _ => some .any
    else none
  | _ => none

end Shape

end IndexedRecords
