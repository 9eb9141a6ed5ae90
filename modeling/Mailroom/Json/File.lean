import Mailroom.Json.Reader
import Mailroom.Json.Writer
import Mailroom.StartupError
/-!
JSON in files.
-/

namespace Mailroom.Files

/-- Reads what a JSON file holds. -/
def readJson {α : Type} (files : Files) (path : String) (decode : Json → Option α) :
    Except StartupError α :=
  match files.readText path with
  | .error e => .error { during := Activity.readFile path, cause := .file e }
  | .ok text =>
    match (Json.ofText? text).bind decode with
    | none => .error { during := Activity.parseFile path, cause := .malformed }
    | some a => .ok a

/-- Writes a JSON file, every item and member on a line of its own. -/
def writeJson (path : String) (value : Json) : EStateM StartupError Files Unit :=
  (writeText path value.pretty).adaptExcept fun e =>
    { during := Activity.writeFile path, cause := .file e }

end Mailroom.Files
