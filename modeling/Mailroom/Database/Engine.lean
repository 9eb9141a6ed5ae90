import Mailroom.Error
/-!
Errors of the database engine, and what they mean for a store.

The engine reports a code whose low eight bits tell the class of the failure, or finds a value that
is not what was asked for.
-/

namespace Mailroom.Database

/-- An error of the database engine. -/
inductive EngineError where
  /-- A statement failed, with a code and a text. -/
  | failure (code : Int) (text : String)
  /-- An integer does not fit the number that was asked for. -/
  | integerOutOfRange (index value : Int)
  /-- A column holds a value of another type. -/
  | columnType
  /-- A statement that was to return a row returned none. -/
  | noRows
  /-- A statement that was to read would have written. -/
  | notReadOnly
  /-- A path has the character with code 0. -/
  | nulInPath (position : Nat)
deriving DecidableEq, Repr

namespace EngineError

/-! ### Classes of failures: the low eight bits of a code -/

/-- Access to the file is denied. -/
def permissionDenied : Int := 3

/-- The database is in use by another connection. -/
def busy : Int := 5

/-- A relation is in use by the same connection. -/
def locked : Int := 6

/-- The database may not be written. -/
def readOnly : Int := 8

/-- The file system fails. -/
def ioFailure : Int := 10

/-- The file is damaged. -/
def corrupt : Int := 11

/-- There is no room left. -/
def full : Int := 13

/-- The file cannot be opened. -/
def cannotOpen : Int := 14

/-- A row violates a constraint. -/
def constraint : Int := 19

/-- The file holds no database. -/
def notADatabase : Int := 26

/-- The error of a store for an error of the engine. A lock that is held is a missed deadline, and a
violated constraint means that the row is there already. -/
def toStoreError : EngineError → StoreError
  | failure code text =>
    let cls := code % 256
    if cls = busy ∨ cls = locked then .timeout text
    else if cls = cannotOpen ∨ cls = notADatabase ∨ cls = ioFailure ∨ cls = full
        ∨ cls = permissionDenied ∨ cls = readOnly then .unavailable text
    else if cls = corrupt then .corrupted (.described text)
    else if cls = constraint then .alreadyExists (.described text)
    else .database text
  | integerOutOfRange index value =>
    .corrupted (.described s!"Integer {value} out of range at index {index}")
  | columnType => .corrupted .columnType
  | noRows => .database "Query returned no rows"
  | notReadOnly => .database "Query is not read-only"
  | nulInPath position =>
    .database s!"nul byte found in provided data at position: {position}"

/-- Another connection holds the write lock for too long. -/
def lockHeld : EngineError := failure busy "database is locked"

/-- A statement names a relation that does not exist. -/
def noSuchTable (name : String) : EngineError := failure 1 s!"no such table: {name}"

/-- A statement has more parameters than the engine takes. -/
def tooManyVariables : EngineError := failure 1 "too many SQL variables"

/-- A row with the same key exists; the text names the columns of the key. -/
def notUnique (columns : String) : EngineError :=
  failure constraint s!"UNIQUE constraint failed: {columns}"

/-- The file of a database cannot be opened. -/
def unableToOpen (path : String) : EngineError :=
  failure cannotOpen s!"unable to open database file: {path}"

/-- The file of a database holds something else. -/
def fileNotADatabase : EngineError := failure notADatabase "file is not a database"

/-- The file of a database is damaged. -/
def malformedImage : EngineError := failure corrupt "database disk image is malformed"

/-- The description of a relation in a database cannot be used; the text says why, if there is more
to say. -/
def malformedSchema (name : Option String) (why : String) : EngineError :=
  let reason := if why.isEmpty then "" else " - " ++ why
  failure corrupt ("malformed database schema (" ++ name.getD "?" ++ ")" ++ reason)

/-- The file of a database has a format that is too new. -/
def unsupportedFormat : EngineError := failure 1 "unsupported file format"

/-- The database may only be read. -/
def writeRefused : EngineError := failure readOnly "attempt to write a readonly database"

/-- The file of a database cannot be read. -/
def diskError : EngineError := failure ioFailure "disk I/O error"

end EngineError

end Mailroom.Database
