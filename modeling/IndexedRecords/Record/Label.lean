import IndexedRecords.Shape

/-!
# Names of shapes

The name under which a problem with one member of a union is reported. It spells the shape of the
member out.
-/

namespace IndexedRecords

namespace Shape

/-- The name of a kind of single values. -/
def scalarLabel : Scalar → String
  | .int => "int"
  | .float => "float"
  | .bool => "bool"
  | .text => "str"
  | .bytes => "bytes"
  | .decimal => "decimal"
  | .moment => "datetime"
  | .date => "date"
  | .point => "function-plain[parse()]"
  | .bare => "any"
  | .complex => "complex"

/-- The name of an enumeration, after its kind. -/
def enumerationLabel (e : Enumeration) : String :=
  let kind :=
    match e.kind with
    | .plain => "enum"
    | .text => "str-enum"
    | .whole => "int-enum"
  kind ++ "[" ++ e.name ++ "]"

/-- The name of maps between two shapes, given their names. -/
def mapLabel (key value : String) : String := "dict[" ++ key ++ "," ++ value ++ "]"

/-- A name for what is read in one way where conversions are allowed and in another way where they
are not. -/
def twofoldLabel (conversion items kind : String) : String :=
  "lax-or-strict[lax=" ++ conversion ++ ",strict=chain[json-or-python[json=" ++ items ++
    ",python=is-instance[" ++ kind ++ "]]," ++ conversion ++ "]]"

/-- The name of sequences of a shape, given its name. -/
def sequenceLabel (anything : Bool) (item : String) : String :=
  "json-or-python[json=list[" ++ item ++ "],python=" ++
    (if anything then "is-instance[Sequence]"
      else "chain[is-instance[Sequence],function-wrap[sequence_validator()]]") ++ "]"

/-- The name of a head with arguments, given their names. An argument that is missing accepts
anything. -/
def genericLabel (head : Generic) (args : List String) : String :=
  let first := args.headD "any"
  let second := args.tail.headD "any"
  match head with
  | .list | .mutableSequence => "list[" ++ first ++ "]"
  | .set => "set[" ++ first ++ "]"
  | .frozenSet | .abstractSet => "frozenset[" ++ first ++ "]"
  | .tuple => "tuple[" ++ ", ".intercalate args ++ "]"
  | .sequence => sequenceLabel (first = "any") first
  | .map | .abstractMap | .mutableMap => mapLabel first second
  | .orderedMap =>
    twofoldLabel ("function-after[OrderedDict(), " ++ mapLabel first second ++ "]")
      (mapLabel first second) "OrderedDict"
  | .queue => twofoldLabel "function-wrap[deque_validator()]" ("list[" ++ first ++ "]") "Deque"
  | .iterable => "generator[" ++ first ++ "]"
  | .type => "is-subclass[" ++ first ++ "]"

/-- A value among those that a shape takes, as names show it. -/
def shownLiteral (v : Value) : String :=
  match v.literal with
  | .ok s => s
  | .error _ => ""

/-- The name of a union, given the names of its members besides null. -/
def unionLabel (nullable : Bool) (members : List String) : String :=
  let union :=
    match members with
    | [name] => name
    | names => "union[" ++ ",".intercalate names ++ "]"
  if nullable then "nullable[" ++ union ++ "]" else union

mutual

/-- The name of a shape. -/
def label : Shape → String
  | .scalar s => scalarLabel s
  | .nullType | .nullValue => "none"
  | .any => "any"
  | .bare .tuple => "tuple[any, ...]"
  | .bare head => genericLabel head []
  | .record name => name
  | .enumeration e => enumerationLabel e
  | .generic head _ args => genericLabel head (labels args)
  | .variadic item => "tuple[" ++ label item ++ ", ...]"
  | .union members => unionLabel (members.any isNullType) (memberLabels members)
  | .annotated inner _ => label inner
  | .literal values => "literal[" ++ ",".intercalate (values.map shownLiteral) ++ "]"
  | .renamed _ inner => label inner

/-- The names of several shapes. -/
def labels : List Shape → List String
  | [] => []
  | s :: rest => label s :: labels rest

/-- The names of the members of a union besides null. -/
def memberLabels : List Shape → List String
  | [] => []
  | s :: rest => if s.isNullType then memberLabels rest else label s :: memberLabels rest

end

end Shape

end IndexedRecords
