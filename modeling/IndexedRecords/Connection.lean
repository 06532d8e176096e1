import IndexedRecords.Connection.Url
import IndexedRecords.Record.Scalar

/-!
# Settings and connections

Settings come from the environment: the URL of the store, the number of keys to ask for at once and
the longest time to wait for an answer. A client is configured from a URL of its own or from that of
the settings.
-/

namespace IndexedRecords

/-- What the environment settles. -/
structure Settings where
  url : String
  batchSize : Int
  /-- seconds to wait for an answer, where there is a limit -/
  timeout : Option Binary64
  deriving DecidableEq, Repr

namespace Settings

/-- The settings of an environment that says nothing. -/
def default : Settings := ⟨"redis://localhost:6379", 100, none⟩

/-- The value of a variable, whose name may be written in either case; a later one counts. -/
def lookup? (environment : List (String × String)) (name : String) : Option String :=
  (environment.reverse.find? fun e => String.ofList (Text.lower e.1.toList) = name).map Prod.snd

/-- Reads a variable, or reports its problem. -/
def readVariable {α : Type} (environment : List (String × String)) (name : String) (absent : α)
    (read : List Char → Except ProblemKind α) : Except (List Problem) α :=
  match lookup? environment name with
  | none => .ok absent
  | some s => (read s.toList).mapError fun kind => [⟨[.key name], kind⟩]

/-- The settings of an environment, or all its problems. -/
def ofEnvironment (environment : List (String × String)) : Except (List Problem) Settings :=
  let url := (lookup? environment "redis_url").getD default.url
  let batchSize :=
    readVariable environment "redis_scan_batch_size" default.batchSize Scalar.intOfText
  let timeout := readVariable environment "redis_socket_timeout_seconds" default.timeout fun cs =>
    (Scalar.floatOfText cs).map some
  match batchSize, timeout with
  | .ok batchSize, .ok timeout => .ok ⟨url, batchSize, timeout⟩
  | .error ps, .ok _ => .error ps
  | .ok _, .error ps => .error ps
  | .error ps, .error qs => .error (ps ++ qs)

end Settings

/-- How a client is configured. -/
structure Client where
  connection : Connection
  timeout : Option Binary64
  deriving DecidableEq, Repr

namespace Client

/-- The number of the database that a client uses. -/
def database (c : Client) : Nat := c.connection.database.getD 0

/-- The client for a URL. -/
def ofUrl (environment : List (String × String)) (url : String) : Except Fault Client := do
  let connection ← (Connection.ofUrl url).mapError .connection
  let settings ← (Settings.ofEnvironment environment).mapError .invalid
  return ⟨connection, settings.timeout⟩

/-- The client for the URL of the settings. -/
def ofSettings (environment : List (String × String)) : Except Fault Client := do
  let settings ← (Settings.ofEnvironment environment).mapError .invalid
  let connection ← (Connection.ofUrl settings.url).mapError .connection
  return ⟨connection, settings.timeout⟩

end Client

end IndexedRecords
