import IndexedRecords.Calendar.Iso
import IndexedRecords.Number.Layout
import IndexedRecords.Number.Numeral
import IndexedRecords.Number.Whole
import IndexedRecords.Text.Quoted
import IndexedRecords.Value
import IndexedRecords.Value.Fault

/-!
# Showing values

A value is shown in two ways: `display` is its plain text, which keys and queries are made of, and
`literal` is the form in which messages quote it. Whole numbers of more digits than
`Numeral.digitLimit` are not shown.
-/

namespace IndexedRecords

/-- A whole number as text, within the limit on its digits. -/
def shownInt (n : Int) : Except ValueFault String :=
  if Numeral.digitLimit < (Nat.toDigits 10 n.natAbs).length then .error (.tooManyDigits none)
  else .ok (String.ofList (wholeText n))

/-- The text of a number. -/
def Number.display : Number → Except ValueFault String
  | .int n => shownInt n
  | .float x => .ok (String.ofList x.text)

/-- The text of a point: its two numbers with a comma between them. -/
def Coordinates.display (p : Coordinates) : Except ValueFault String := do
  let longitude ← p.longitude.display
  let latitude ← p.latitude.display
  return s!"{longitude},{latitude}"

namespace Value

/-- A text in quotes. -/
def quotedText (s : String) : String := String.ofList (Text.quoted s.toList)

/-- The parts of a list with a comma between them. -/
def commaList (parts : List String) : String := ", ".intercalate parts

/-- A date as the call that makes it. -/
def dateLiteral (d : Date) : String := s!"datetime.date({d.year}, {d.month}, {d.day})"

/-- An offset from universal time as the call that makes it. -/
def offsetLiteral (offset : Int) : String :=
  if offset = 0 then "datetime.timezone.utc"
  else
    let days := offset / 86400
    let seconds := offset % 86400
    let delta :=
      if days = 0 then s!"seconds={seconds}"
      else if seconds = 0 then s!"days={days}"
      else s!"days={days}, seconds={seconds}"
    s!"datetime.timezone(datetime.timedelta({delta}))"

/-- A moment as the call that makes it; seconds and microseconds are left out while they are
zero. -/
def momentLiteral (m : Moment) : String :=
  let (d, t) := (m.date, m.time)
  let seconds :=
    if t.microsecond ≠ 0 then [t.second, t.microsecond]
    else if t.second ≠ 0 then [t.second] else []
  let numbers := [d.year, d.month, d.day, t.hour, t.minute] ++ seconds
  let zone :=
    match m.offset with
    | Option.none => []
    | some offset => ["tzinfo=" ++ offsetLiteral offset]
  "datetime.datetime(" ++ commaList (numbers.map toString ++ zone) ++ ")"

/-- A tuple of shown items; a single item is followed by a comma. -/
def tupleLiteral : List String → String
  | [item] => s!"({item},)"
  | items => "(" ++ commaList items ++ ")"

/-- A set of shown items. -/
def setLiteral (frozen : Bool) (items : List String) : String :=
  let body := "\x7b" ++ commaList items ++ "\x7d"
  match frozen, items with
  | false, [] => "set()"
  | true, [] => "frozenset()"
  | false, _ => body
  | true, _ => s!"frozenset({body})"

mutual

/-- A value as messages quote it. -/
def literal : Value → Except ValueFault String
  | .none => .ok "None"
  | .bool true => .ok "True"
  | .bool false => .ok "False"
  | .int n => shownInt n
  | .float x => .ok (String.ofList x.text)
  | .decimal d => .ok ("Decimal('" ++ String.ofList d.text ++ "')")
  | .text s => .ok (quotedText s)
  | .bytes content => .ok (String.ofList (Text.quotedBytes content))
  | .date d => .ok (dateLiteral d)
  | .moment m => .ok (momentLiteral m)
  | .point p => do
    let longitude ← p.longitude.display
    let latitude ← p.latitude.display
    return s!"Coordinates(longitude={longitude}, latitude={latitude})"
  | .member enumeration _ name value => do
    let value ← literal value
    return s!"<{enumeration}.{name}: {value}>"
  | .record model fields => do
    return model ++ "(" ++ commaList (← fieldLiterals fields) ++ ")"
  | .list items => do
    return "[" ++ commaList (← itemLiterals items) ++ "]"
  | .tuple items => do
    return tupleLiteral (← itemLiterals items)
  | .queue items => do
    return "deque([" ++ commaList (← itemLiterals items) ++ "])"
  | .set frozen items => do
    return setLiteral frozen (← itemLiterals items)
  | .map entries => do
    return "\x7b" ++ commaList (← entryLiterals entries) ++ "\x7d"
  | .reference r => .ok r.shown
  | .bare => .ok "<object object>"

/-- The items of a sequence or set as messages quote them. -/
def itemLiterals : List Value → Except ValueFault (List String)
  | [] => .ok []
  | item :: rest => do
    let item ← literal item
    return item :: (← itemLiterals rest)

/-- The fields of a record as messages quote them. -/
def fieldLiterals : List (String × Value) → Except ValueFault (List String)
  | [] => .ok []
  | (name, value) :: rest => do
    let value ← literal value
    return s!"{name}={value}" :: (← fieldLiterals rest)

/-- The entries of a map as messages quote them. -/
def entryLiterals : List (Value × Value) → Except ValueFault (List String)
  | [] => .ok []
  | (key, value) :: rest => do
    let key ← literal key
    let value ← literal value
    return s!"{key}: {value}" :: (← entryLiterals rest)

end

/-- The plain text of a value. -/
def display : Value → Except ValueFault String
  | .text s => .ok s
  | .decimal d => .ok (String.ofList d.text)
  | .date d => .ok (String.ofList d.text)
  | .moment m => .ok (String.ofList (m.text ' '))
  | .point p => p.display
  | .member _ .whole _ value => literal value
  | .member enumeration _ name _ => .ok s!"{enumeration}.{name}"
  | .record _ fields => do return " ".intercalate (← fieldLiterals fields)
  | v => literal v

end Value

end IndexedRecords
