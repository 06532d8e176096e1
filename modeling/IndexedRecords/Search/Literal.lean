import IndexedRecords.Search.Fault
import IndexedRecords.Value.Convert

/-!
# Literals of queries

How a value is written in a query, which depends on the type of the index it is compared with: a
numeric index takes numbers, and dates as seconds since 1970; a tag takes almost anything, with the
characters escaped that have a meaning inside of a tag.
-/

namespace IndexedRecords

namespace Search

/-- The characters that have a meaning inside the braces of a tag. -/
def reservedInTags : List Char := "\x7b\x7d[]<>|()\"'@#$%^&*-+=~.,:;".toList

/-- The characters of a tag with a backslash before each reserved one. -/
def escapeTagChars (cs : List Char) : List Char :=
  cs.flatMap fun c => if reservedInTags.contains c then ['\\', c] else [c]

/-- A tag with its reserved characters escaped. -/
def escapeTag (s : String) : String := String.ofList (escapeTagChars s.toList)

end Search

namespace Value

open Search

/-- Whether a value is a whole number, truth values aside. -/
def isIntegral (v : Value) : Bool :=
  match v.plain with
  | .int _ => true
  | _ => false

/-- A number of any kind as text: whole ones as they are, others as floating numbers. -/
def numberText (v : Value) : Except ValueFault String :=
  match v.plain with
  | .bool b => .ok (if b then "True" else "False")
  | .int n => shownInt n
  | _ => do return String.ofList (← v.toFloat).text

/-- The number that a numeric index has for a value. -/
def indexedNumber (v : Value) (field : String) : Except SearchFault Number :=
  let v := v.payload
  match v.plain with
  | .bool _ => .error (.wrongType field .numeric .tagForBool)
  | .int n => .ok (.int n)
  | .float x => .ok (.float x)
  | .decimal d =>
    match d.toBinary64? with
    | some x => .ok (.float x)
    | Option.none => .error (.value .signallingNan)
  | .date d => .ok (.int d.epochSeconds)
  | .moment m => .ok (.float m.epochSeconds)
  | _ => .error (.wrongType field .numeric (.numericValue v.kindName))

/-- A value in a query on a numeric index. -/
def numericLiteral (v : Value) (field : String) : Except SearchFault String := do
  match v.payload.plain with
  | .text _ => .error (.wrongType field .numeric .tagOrTextForText)
  | _ => (← v.payload.indexedNumber field).display

/-- A value in a query on an index that is not numeric, before anything is escaped. -/
def plainLiteral (v : Value) (type : IndexType) (field : String) : Except SearchFault String :=
  let v := v.payload
  match v.plain with
  | .bool b =>
    if type = .tag then .ok (if b then "true" else "false")
    else .error (.wrongType field type .tagForBool)
  | .date _ | .moment _ => .error (.wrongType field type .numericForDate)
  | .int _ | .float _ | .decimal _ => v.numberText
  | .text _ | .point _ => v.display
  | _ => .error (.wrongType field type (.literalValue v.kindName))

/-- A value in a query on an index of a given type. The field is named in faults. -/
def queryLiteral (v : Value) (type : IndexType) (field : String) : Except SearchFault String :=
  match type with
  | .numeric => v.numericLiteral field
  | .tag => do return escapeTag (← v.plainLiteral .tag field)
  | type => v.plainLiteral type field

end Value

end IndexedRecords
