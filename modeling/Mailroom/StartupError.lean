import Mailroom.Database.Engine
import Mailroom.Files
/-!
Why a service cannot be started: what was being done, and what went wrong then.
-/

namespace Mailroom

/-- What is done at startup. -/
inductive Activity where
  | readVariable (name : String)
  | readSettings
  | readFile (path : String)
  | parseFile (path : String)
  | writeFile (path : String)
  | openDatabase (path : String)
  | configureDatabase
  | migrateDatabase
deriving DecidableEq, Repr

/-- The words for an activity that failed. -/
def Activity.failure : Activity → String
  | readVariable name => s!"Invalid {name}"
  | readSettings => "Failed to parse store config JSON"
  | readFile path => s!"Failed to read config file: {path}"
  | parseFile path => s!"Failed to parse config file: {path}"
  | writeFile path => s!"Failed to write config file: {path}"
  | openDatabase path => "Failed to open database at " ++ Text.quoted path
  | configureDatabase => "Failed to configure database"
  | migrateDatabase => "Failed to run database migrations"

/-- What goes wrong at startup. -/
inductive StartupCause where
  | noBatch
  | noListBound
  | noDatabasePath
  | unknownBackend (name : String)
  /-- A text is no JSON, or not of the form asked for. -/
  | malformed
  | file (error : FileError)
  | database (error : Database.EngineError)
  /-- A database cannot be brought up to date. -/
  | migration
deriving DecidableEq, Repr

/-- The words for a cause that this library finds; the others have words of their own. -/
def StartupCause.text? : StartupCause → Option String
  | noBatch => "query_batch_size must be greater than zero"
  | noListBound => "in_clause_max_size must be greater than zero"
  | noDatabasePath => "The sqlite backend requires database_path"
  | unknownBackend name => s!"Unknown backend '{name}' (expected 'memory' or 'sqlite')"
  | malformed => none
  | file _ => none
  | database _ => none
  | migration => none

/-- An error at startup. -/
structure StartupError where
  /-- What was being done, where that is not plain. -/
  during : Option Activity := none
  cause : StartupCause
deriving DecidableEq, Repr

end Mailroom
