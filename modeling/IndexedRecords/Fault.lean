import IndexedRecords.Record.Problem
import IndexedRecords.Search.Fault
import IndexedRecords.Store

/-!
# Faults

Everything that can go wrong between a record and the store, by cause.
-/

namespace IndexedRecords

/-- What is wrong with the shape of a reply. -/
inductive ReplyFault where
  /-- a search reply that is no array, or an empty one -/
  | notAnArray (kind : String)
  /-- a search reply whose first item is no count, and why it is none -/
  | noCount (shown : String) (cause : ValueFault)
  | keyWithoutFields (key : String)
  | fieldsNotPaired (key : String)
  | documentNotText (key : String)
  | noDocument (key : String)
  /-- a reply that should pair names with values -/
  | notPaired (shown : String)
  deriving DecidableEq, Repr

/-- The wording of a fault of a reply. -/
def ReplyFault.message : ReplyFault → String
  | .notAnArray kind => s!"Expected a non-empty array reply, got {kind}"
  | .noCount shown _ => s!"Search reply does not start with a count: {shown}"
  | .keyWithoutFields key => s!"Search reply has a key without fields: {key}"
  | .fieldsNotPaired key => s!"Fields of {key} are not a flat name/value array"
  | .documentNotText key => s!"Document of {key} is not a string"
  | .noDocument key => s!"Search row {key} has no '$' entry"
  | .notPaired shown => s!"Expected a flat name/value array, got {shown}"

/-- What is wrong with the settings of a connection. -/
inductive ConnectionFault where
  | missingScheme (shownUrl : String)
  | unknownScheme (shownScheme : String)
  | missingHost (shownUrl : String)
  | invalidPort (shownUrl : String)
  | invalidDatabase (shownUrl : String)
  /-- brackets around the host that do not match -/
  | unbalancedBrackets
  /-- characters in the place of the host that look like delimiters -/
  | misleadingHost (shown : String)
  /-- a database number that cannot be read -/
  | unreadableDatabase (fault : ValueFault)
  deriving DecidableEq, Repr

/-- The wording of a fault of a connection. -/
def ConnectionFault.message : ConnectionFault → String
  | .missingScheme shownUrl => s!"Missing URL scheme in Redis URL: {shownUrl}"
  | .unknownScheme shownScheme =>
    s!"Invalid URL scheme {shownScheme}; expected redis or rediss"
  | .missingHost shownUrl => s!"Missing host in Redis URL: {shownUrl}"
  | .invalidPort shownUrl => s!"Invalid port in Redis URL: {shownUrl}"
  | .invalidDatabase shownUrl =>
    s!"Database selector must be a non-negative integer in {shownUrl}"
  | .unbalancedBrackets => "Invalid IPv6 URL"
  | .misleadingHost shown =>
    s!"netloc '{shown}' contains invalid characters under NFKC normalization"
  | .unreadableDatabase fault => fault.message

/-- What can go wrong. -/
inductive Fault where
  | value (fault : ValueFault)
  | schema (fault : SchemaFault)
  | search (fault : SearchFault)
  | reply (fault : ReplyFault)
  | connection (fault : ConnectionFault)
  /-- a record or settings that a caller makes have problems -/
  | invalid (problems : List Problem)
  /-- a stored document is no record of its type; its key is given where it is known -/
  | undecodable (model key : String) (problems : List Problem)
  /-- a record has no document -/
  | unencodable (model id : String)
  /-- the store refuses a command that nothing else is known about -/
  | refused (r : Refusal)
  | searchFailed (index : String) (r : Refusal)
  | indexFailed (index command : String) (r : Refusal)
  /-- more than one record type cannot be migrated -/
  | migrationFailed (faults : List Fault)
  /-- a record type that is not persisted, or a record of one, has no such property -/
  | noProperty (name : String)
  | noRecordProperty (model name : String)
  | noField (model field : String)

namespace Fault

/-- A fault of a search; those of its schema and of its values count as such. -/
def ofSearch : SearchFault → Fault
  | .schema fault => .schema fault
  | .value fault => .value fault
  | fault => .search fault

/-- A command that fails for no reason of its own. -/
def ofCommand : CommandFault → Fault
  | .refused r => .refused r
  | .value fault => .value fault

mutual

/-- The wording of a fault. -/
def message : Fault → String
  | .value fault => fault.message
  | .schema fault => fault.message
  | .search fault => fault.message
  | .reply fault => fault.message
  | .connection fault => fault.message
  | .invalid _ => ""
  | .undecodable model key _ =>
    if key = "" then s!"Cannot decode {model}" else s!"Cannot decode {model} at {key}"
  | .unencodable model id => s!"Cannot encode {model} {id}"
  | .refused r => r.message
  | .searchFailed index r => "FT.SEARCH " ++ index ++ " failed: " ++ r.message
  | .indexFailed index command r => command ++ " " ++ index ++ " failed: " ++ r.message
  | .migrationFailed faults =>
    let count := faults.length
    s!"Migration failed for {count} models: " ++ "; ".intercalate (messages faults)
  | .noProperty name => name
  | .noRecordProperty model name => s!"'{model}' object has no attribute '{name}'"
  | .noField model field => s!"\"{model}\" object has no field \"{field}\""

/-- The wordings of several faults. -/
def messages : List Fault → List String
  | [] => []
  | fault :: rest => message fault :: messages rest

end

/-- Whether a fault is one of records and indexes, rather than one of a value, of a caller or of the
store itself. -/
def isOwn : Fault → Bool
  | .schema _ | .reply _ | .undecodable _ _ _ | .unencodable _ _ | .searchFailed _ _
  | .indexFailed _ _ _ | .migrationFailed _ => true
  | .search fault =>
    match fault with
    | .notIndexed _ _ | .wrongType _ _ _ | .otherModel _ _ => true
    | _ => false
  | .connection fault =>
    match fault with
    | .unbalancedBrackets | .misleadingHost _ | .unreadableDatabase _ => false
    | _ => true
  | _ => false

end Fault

/-- The record with another value of one of its fields. Nothing is checked or converted. -/
def Record.assign (r : Record) (field : String) (v : Value) : Except Fault Record :=
  if (r.get? field).isSome then .ok (r.set field v) else .error (.noField r.model field)

instance : MonadLift (Except ValueFault) (Except Fault) := ⟨fun r => r.mapError .value⟩

instance : MonadLift (Except SchemaFault) (Except Fault) := ⟨fun r => r.mapError .schema⟩

instance : MonadLift (Except SearchFault) (Except Fault) := ⟨fun r => r.mapError .ofSearch⟩

end IndexedRecords
