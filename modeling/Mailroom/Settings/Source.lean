import Mailroom.Json.File
import Mailroom.Settings.Form
/-!
Where settings come from: a text, a file, or, if the configuration directory has no file of
settings, the environment.
-/

namespace Mailroom

/-- What a program finds around it. -/
structure Surroundings where
  files : Files
  /-- The home directory. -/
  home : String
  /-- `XDG_CONFIG_HOME`, if it is set. -/
  configHome : Option String := none
  /-- `MAILSTORE_BACKEND`, if it is set. -/
  backend : Option String := none
  /-- `MAILSTORE_DB_PATH`, if it is set. -/
  databasePath : Option String := none

namespace Surroundings

/-- The configuration directory. A relative name for its parent does not count. -/
def configDirectory (around : Surroundings) : String :=
  let parent :=
    match around.configHome.filter (·.startsWith "/") with
    | some directory => directory
    | none => joinPath around.home ".config"
  joinPath parent "mailstore"

/-- The path of a file in the configuration directory. -/
def configPath (around : Surroundings) (name : String) : String :=
  joinPath around.configDirectory name

end Surroundings

namespace Settings

/-- The name of the file of settings. -/
def fileName : String := "mailstore.json"

/-- Settings that a store can be opened with. -/
def validated (settings : Settings) : Except StartupError Settings := do
  settings.validate
  return settings

/-- Reads settings from a text. -/
def ofText (text : String) : Except StartupError Settings :=
  match (Json.ofText? text).bind ofJson? with
  | some settings => settings.validated
  | none => .error { during := Activity.readSettings, cause := .malformed }

/-- Reads settings from a file. -/
def ofFile (files : Files) (path : String) : Except StartupError Settings := do
  validated (← files.readJson path ofJson?)

/-- The default settings with those of the environment in their place. -/
def ofEnvironment (around : Surroundings) : Except StartupError Settings := do
  let backend ←
    match around.backend.map BackendKind.ofText with
    | none => pure .memory
    | some (.ok kind) => pure kind
    | some (.error e) => throw { e with during := Activity.readVariable "MAILSTORE_BACKEND" }
  return { backend, databasePath := around.databasePath.filter fun path => !path.isEmpty }

/-- The settings of a program. -/
def load (around : Surroundings) : Except StartupError Settings := do
  let path := around.configPath fileName
  if around.files.has path then validated (← around.files.readJson path ofJson?)
  else validated (← ofEnvironment around)

/-- Writes settings to a file, if a store can be opened with them. -/
def save (settings : Settings) (path : String) : EStateM StartupError Files Unit := do
  MonadExcept.ofExcept settings.validate
  Files.writeJson path settings.toJson

end Settings

end Mailroom
