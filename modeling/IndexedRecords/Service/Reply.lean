import IndexedRecords.Service

/-!
# Search replies

A search reply is an array: the number of all matches, then a key and an array of fields for each
row. The fields pair names with values, and the document stands beside the name `$`. A reply that
has another form is rejected as a whole, and so is one with a document that is no record.
-/

namespace IndexedRecords.Service

/-- The number of all matches, which leads a search reply. -/
def searchTotal (reply : Value) : Except Fault Int := do
  match reply.sequence? with
  | some (head :: _) =>
    match head.toInt with
    | .ok n => return n
    | .error .infinityToInt => .error (.value .infinityToInt)
    | .error .decimalInfinityToInt => .error (.value .decimalInfinityToInt)
    | .error cause => .error (.reply (.noCount (← head.literal) cause))
  | _ => .error (.reply (.notAnArray reply.kindName))

/-- The document among the fields of a row. -/
def findDocument (key : String) : List Value → Except Fault Value
  | name :: v :: rest => do
    if (← name.asText) = "$" then
      match v.plain with
      | .text _ | .bytes _ => return v
      | _ => .error (.reply (.documentNotText key))
    else findDocument key rest
  | _ => .error (.reply (.noDocument key))

/-- The document of a row. -/
def rowDocument (key : String) (fields : Value) : Except Fault Value :=
  match fields.sequence? with
  | some fields =>
    if fields.length % 2 = 0 then findDocument key fields
    else .error (.reply (.fieldsNotPaired key))
  | none => .error (.reply (.fieldsNotPaired key))

/-- The record that a stored document holds. -/
def decodeDocument (c : Catalogue) (model key : String) (payload : Value) : Service Value :=
  reading (.undecodable model key) (Record.ofDocument c model payload)

/-- The records of rows, from the first one on. -/
def decodeRows (c : Catalogue) (model : String) : List Value → Service (List Value)
  | key :: fields :: rest => do
    let key ← key.asText
    let payload ← rowDocument key fields
    let record ← decodeDocument c model key payload
    return record :: (← decodeRows c model rest)
  | _ => return []

/-- The records of a search reply. -/
def decodeSearch (c : Catalogue) (model : String) (reply : Value) : Service (List Value) := do
  let _ ← (searchTotal reply : Except Fault Int)
  let rows := (reply.sequence?.getD []).tail
  if rows.length % 2 = 1 then
    let key ← (rows.getLast?.getD .none).asText
    throw (.reply (.keyWithoutFields key))
  decodeRows c model rows

end IndexedRecords.Service
