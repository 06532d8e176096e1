import IndexedRecords.Fault
import IndexedRecords.Record.Reader

/-!
# Services

What services run in: an endpoint that answers commands, the commands sent to it so far, a log, and
the number of identifiers made. The endpoint is a store in memory or a script of answers.
-/

namespace IndexedRecords

/-- What answers commands. -/
inductive Endpoint where
  | store (s : Store)
  /-- answers to the next commands, whatever they are -/
  | script (answers : List (Except Refusal Value))

namespace Endpoint

/-- Answers a command. -/
def execute (command : List Argument) : Endpoint → Except CommandFault Value × Endpoint
  | .store s =>
    let (answer, s) := s.execute command
    (answer, .store s)
  | .script [] => (.error (.refused ⟨.response, "script exhausted"⟩), .script [])
  | .script (answer :: rest) => (answer.mapError .refused, .script rest)

/-- The number of pages after which no endpoint has further keys to list. -/
def pageLimit : Endpoint → Nat
  | .store s => s.documents.length + 1
  | .script answers => answers.length + 1

end Endpoint

/-- What services note in the log. -/
inductive LogEvent where
  | searching (index query : String)
  | searchFailed (index query : String)
  | notPersisted (model : String)
  | emptySchema (model : String)
  | indexDropped (index : String)
  | indexCreated (index : String) (fields : Nat)
  | migrationFailed (model : String)
  | migrationsCompleted (models created : Nat)
  deriving DecidableEq, Repr

/-- How much a note in the log matters. -/
inductive LogLevel where
  | debug
  | info
  | error
  deriving DecidableEq, Repr

/-- The service that makes a note. -/
inductive LogSource where
  | search
  | migration
  | registry
  deriving DecidableEq, Repr

namespace LogEvent

/-- How much a note matters. -/
def level : LogEvent → LogLevel
  | .searching _ _ => .debug
  | .searchFailed _ _ | .migrationFailed _ => .error
  | _ => .info

/-- The service that makes a note. -/
def source : LogEvent → LogSource
  | .searching _ _ | .searchFailed _ _ => .search
  | .migrationsCompleted _ _ => .registry
  | _ => .migration

/-- The wording of a note. The time that an operation takes is not part of the model, and shown as
a star. -/
def text : LogEvent → String
  | .searching index query => s!"redis_om.search index={index} query={query}"
  | .searchFailed index query => s!"redis_om.search_failed index={index} query={query}"
  | .notPersisted model => s!"redis_om.migrate.skipped model={model} reason=not_persisted"
  | .emptySchema model => s!"redis_om.migrate.skipped model={model} reason=empty_schema"
  | .indexDropped index => s!"redis_om.migrate.dropped index={index}"
  | .indexCreated index fields =>
    s!"redis_om.migrate.created index={index} fields={fields} elapsed_ms=*"
  | .migrationFailed model => s!"redis_om.migrate.failed model={model}"
  | .migrationsCompleted models created =>
    s!"redis_om.migrations_completed models={models} created={created}"

end LogEvent

/-- The state that services share. -/
structure World where
  endpoint : Endpoint
  sent : List (List Argument)
  log : List LogEvent
  ids : Nat

/-- A service: it may fail, and what it did until then stays done. -/
abbrev Service (α : Type) := ExceptT Fault (StateM World) α

namespace Service

/-- A result that needs no state. -/
def settled {α : Type} (r : Except Fault α) : Service α := fun w => (r, w)

instance : MonadLift (Except Fault) Service := ⟨settled⟩

instance : MonadLift (Except ValueFault) Service := ⟨fun r => settled (r.mapError .value)⟩

instance : MonadLift (Except SchemaFault) Service := ⟨fun r => settled (r.mapError .schema)⟩

instance : MonadLift (Except SearchFault) Service := ⟨fun r => settled (r.mapError .ofSearch)⟩

/-- Makes a note in the log. -/
def note (e : LogEvent) : Service Unit := fun w => (.ok (), { w with log := w.log ++ [e] })

/-- Sends a command, and answers its reply or why it has none. -/
def send (command : List Argument) : Service (Except CommandFault Value) := fun w =>
  let (answer, endpoint) := w.endpoint.execute command
  (.ok answer, { w with endpoint, sent := w.sent ++ [command] })

/-- Sends a command whose failure is passed on as it is. -/
def execute (command : List Argument) : Service Value := do
  match ← send command with
  | .ok reply => return reply
  | .error fault => throw (.ofCommand fault)

/-- Sends a command. A refusal by the store becomes a fault of what the command is for; what is no
error of stores is passed on. -/
def executeFor (refused : Refusal → Fault) (command : List Argument) : Service Value := do
  match ← send command with
  | .ok reply => return reply
  | .error (.refused r) => throw (if r.kind = .foreign then .refused r else refused r)
  | .error (.value fault) => throw (.value fault)

/-- Reads something; problems become a fault as the given function says. -/
def reading {α : Type} (problems : List Problem → Fault) (r : Reading α) : Service α := fun w =>
  match r (.start w.ids) with
  | (.ok v, p) => (.ok v, { w with ids := p.ids })
  | (.error (.problems ps), p) => (.error (problems ps), { w with ids := p.ids })
  | (.error (.fault f), p) => (.error (.value f), { w with ids := p.ids })

/-- Fails unless a record type is persisted, naming the property that others lack. -/
def requirePersisted (r : RecordType) (property : String) : Except Fault Unit :=
  if r.lineage = .persisted then .ok () else .error (.noProperty property)

/-- Fails unless the records of a type are persisted, naming the property that others lack. -/
def requirePersistedRecord (r : RecordType) (property : String) : Except Fault Unit :=
  if r.lineage = .persisted then .ok () else .error (.noRecordProperty r.name property)

/-- The home of a record type, or the fault that it lacks a property. -/
def homeOf (r : RecordType) (property : String) : Except Fault Home :=
  match r.home with
  | some home => .ok home
  | none => .error (.noProperty property)

end Service

end IndexedRecords
