import IndexedRecords.Value.Display

/-!
# Values as numbers and as sequences

Conversions to whole numbers, to floating numbers, to text and to the items of a sequence, each
with the reason why a value refuses it.
-/

namespace IndexedRecords.Value

/-- The text of bytes. -/
def decodeText (content : List UInt8) : Except ValueFault String :=
  match Utf8.decode? content with
  | .ok cs => .ok (String.ofList cs)
  | .error fault => .error (.undecodable fault)

/-- A part of a reply as text: bytes are decoded, any other value is displayed. -/
def asText : Value → Except ValueFault String
  | .bytes content => decodeText content
  | v => v.display

/-! ### Numbers -/

/-- The characters of bytes that are all ASCII. -/
def asciiText? (content : List UInt8) : Option (List Char) :=
  if content.all (· < 128) then some (content.map fun b => Char.ofNat b.toNat) else Option.none

/-- The whole number that a text is; `shown` quotes the text. -/
def intOfText (shown : List Char) (cs : List Char) : Except ValueFault Int :=
  match Numeral.readInt cs with
  | .ok n => .ok n
  | .error .malformed => .error (.malformedInt (String.ofList (shown.take 200)))
  | .error (.tooLong digits) => .error (.tooManyDigits (some digits))

/-- The whole number that a value is, or that lies next to it in the direction of zero. -/
def toInt (v : Value) : Except ValueFault Int :=
  match v.plain with
  | .bool b => .ok (if b then 1 else 0)
  | .int n => .ok n
  | .float .nan => .error .nanToInt
  | .float (.infinite _) => .error .infinityToInt
  | .float x => .ok (x.truncate?.getD 0)
  | .decimal (.finite negative coefficient exponent) =>
    .ok (Decimal.truncate negative coefficient exponent)
  | .decimal (.infinite _) => .error .decimalInfinityToInt
  | .decimal (.nan _ _ _) => .error .decimalNanToInt
  | .text s => do intOfText (← v.literal).toList s.toList
  | .bytes content =>
    match asciiText? content with
    | some cs => intOfText (Text.quotedBytes content) cs
    | Option.none => .error (.malformedInt (String.ofList ((Text.quotedBytes content).take 200)))
  | _ => .error (.notAnInt v.qualifiedKindName)

/-- The floating number that a text is; `shown` quotes the text. -/
def floatOfText (shown : List Char) (cs : List Char) : Except ValueFault Binary64 :=
  match Numeral.readFloat cs with
  | some x => .ok x
  | Option.none => .error (.malformedFloat (String.ofList shown))

/-- The floating number nearest to a value. -/
def toFloat (v : Value) : Except ValueFault Binary64 :=
  match v.plain with
  | .bool b => .ok (.finite false (if b then Binary64.one else 0))
  | .int n =>
    match Binary64.ofInt? n with
    | some x => .ok x
    | Option.none => .error .tooLargeForFloat
  | .float x => .ok x
  | .decimal d =>
    match d.toBinary64? with
    | some x => .ok x
    | Option.none => .error .signallingNan
  | .text s => do floatOfText (← v.literal).toList s.toList
  | .bytes content =>
    match asciiText? content with
    | some cs => floatOfText (Text.quotedBytes content) cs
    | Option.none => .error (.malformedFloat (String.ofList (Text.quotedBytes content)))
  | _ => .error (.notAFloat v.qualifiedKindName)

/-! ### Items -/

/-- The items that a value yields one after the other: a text yields its characters, bytes their
numbers, a map its keys and a record its fields. -/
def items? (v : Value) : Option (List Value) :=
  match v.plain with
  | .text s => some (s.toList.map fun c => .text (String.singleton c))
  | .bytes content => some (content.map fun b => .int b.toNat)
  | .list items => some items
  | .tuple items => some items
  | .queue items => some items
  | .set _ items => some items
  | .map entries => some (entries.map Prod.fst)
  | .record _ fields => some (fields.map fun (name, value) => .tuple [.text name, value])
  | _ => Option.none

/-- Why a value yields no items. References give access by names: a reference to the fields of a
record type refuses the number of its first item, a reference to one field accepts every number and
yields items forever. -/
def itemsFault (v : Value) : ValueFault :=
  match v with
  | .reference (.fields _) => .nameless
  | .reference (.field _) => .endless
  | v => .notIterable v.qualifiedKindName

/-- The items of a value, or the fault that it yields none. -/
def items (v : Value) : Except ValueFault (List Value) :=
  match v.items? with
  | some items => .ok items
  | Option.none => .error v.itemsFault

/-- The two items of a value that yields exactly two. -/
def pair (v : Value) : Except ValueFault (Value × Value) :=
  match v.items? with
  | some [first, second] => .ok (first, second)
  | some (_ :: _ :: _) => .error (.tooManyItems 2)
  | some items => .error (.tooFewItems 2 items.length)
  | Option.none => .error (.notUnpackable v.qualifiedKindName)

end IndexedRecords.Value
