import IndexedRecords.Shape

/-!
# Index types of shapes

The index type of a field that states none follows from its shape. Annotations and null members do
not count, a container is indexed as what it holds, and a sequence of floating numbers is one
vector.
-/

namespace IndexedRecords

/-- The index type of a kind of single values. -/
def Scalar.indexType : Scalar → IndexType
  | .bool => .tag
  | .int | .float | .decimal | .moment | .date => .numeric
  | .point => .geo
  | .text | .bytes | .bare | .complex => .text

/-- The index type of the members of an enumeration. -/
def EnumKind.indexType : EnumKind → IndexType
  | .whole => .numeric
  | .plain | .text => .text

namespace Shape

/-- Whether a shape is that of floating numbers. -/
def isFloat : Shape → Bool
  | .scalar .float => true
  | _ => false

/-- Whether a shape is one of whole numbers. -/
def isWhole : Shape → Bool
  | .scalar .int => true
  | .enumeration e => e.kind = .whole
  | _ => false

mutual

/-- The index type of a field of a shape. -/
def indexType : Shape → IndexType
  | .scalar s => s.indexType
  | .enumeration e => e.kind.indexType
  | .annotated inner _ => indexType inner
  | .union members => soleIndexType members
  | .generic head _ args =>
    if head.isSequence then firstIndexType args
    else if head.isMap then secondIndexType args
    else .text
  | .variadic item => if item.unwrap.isFloat then .vector else indexType item
  | _ => .text

/-- The index type of the only member besides null, or that of texts where there are several. -/
def soleIndexType : List Shape → IndexType
  | [] => .text
  | s :: rest =>
    if s.isNullType then soleIndexType rest
    else if rest.all isNullType then indexType s else .text

/-- The index type of a sequence with given arguments. -/
def firstIndexType : List Shape → IndexType
  | [] => .text
  | item :: _ => if item.unwrap.isFloat then .vector else indexType item

/-- The index type of a map with given arguments. -/
def secondIndexType : List Shape → IndexType
  | [_, value] => indexType value
  | _ => .text

end

end Shape

end IndexedRecords
