import Mailroom.Service.ChangeLog
import Mailroom.StartupError
import Mailroom.Text.Blank
/-!
The settings of a store, with their defaults, and which settings a store can be opened with.
-/

namespace Mailroom

/-- Where a store keeps its data. -/
inductive BackendKind where
  | memory
  | database
deriving DecidableEq, Repr, Inhabited

namespace BackendKind

/-- Every kind. -/
def all : List BackendKind := [memory, database]

/-- The name of a kind in settings. -/
def name : BackendKind → String
  | memory => "memory"
  | database => "sqlite"

/-- The kind with a name, in any case and with white space around it. -/
def ofText (text : String) : Except StartupError BackendKind :=
  let text := (Text.trim text).map Char.toLower
  match all.find? fun kind => kind.name == text with
  | some kind => .ok kind
  | none => .error { cause := .unknownBackend text }

end BackendKind

/-- The settings of a store. -/
structure Settings where
  backend : BackendKind := .memory
  /-- The file of the database. -/
  databasePath : Option String := none
  /-- The number of rows of a page. -/
  batch : Nat := 5000
  /-- The greatest number of row numbers in one call to the store. -/
  listBound : Nat := 1000
  /-- How many seconds a change record is kept, if not for ever. -/
  changeLifetime : Option Nat := some (60 * 24 * 60 * 60)
  /-- How many milliseconds a call waits for the write lock. -/
  operationTimeout : Nat := 5000
  /-- How many milliseconds a probe waits. -/
  probeTimeout : Nat := 1000
deriving DecidableEq, Repr, Inhabited

namespace Settings

/-- Accepts settings that a store can be opened with. -/
def validate (settings : Settings) : Except StartupError Unit :=
  if settings.batch = 0 then .error { cause := .noBatch }
  else if settings.listBound = 0 then .error { cause := .noListBound }
  else if settings.backend = .database ∧ settings.databasePath = none then
    .error { cause := .noDatabasePath }
  else .ok ()

/-- How many milliseconds a change record is kept, at most as many as fit a signed word. -/
def retention (settings : Settings) : Option Nat :=
  settings.changeLifetime.map fun seconds => min (seconds * 1000) maxStored

/-- How a service with these settings reads and keeps. -/
def policy (settings : Settings) : Service.Policy := ⟨settings.batch, settings.retention⟩

end Settings

end Mailroom
