import Mailroom.Json.Record
import Mailroom.Settings
/-!
Settings as JSON. Any field may be left out for its default; a lifetime of null is not the default
but keeps records for ever.
-/

namespace Mailroom.Settings

open Json

/-- Writes settings, every field of them. -/
def toJson (settings : Settings) : Json := .object [
  ("backend", .string settings.backend.name),
  ("database_path", .option .string settings.databasePath),
  ("query_batch_size", .nat settings.batch),
  ("in_clause_max_size", .nat settings.listBound),
  ("change_ttl_secs", .option .nat settings.changeLifetime),
  ("operation_timeout_ms", .nat settings.operationTimeout),
  ("health_check_timeout_ms", .nat settings.probeTimeout)]

/-- Reads settings. -/
def ofJson? (value : Json) : Option Settings := do
  let r ← JsonRecord.of? ["backend", "database_path", "query_batch_size", "in_clause_max_size",
    "change_ttl_secs", "operation_timeout_ms", "health_check_timeout_ms"] value
  let standard : Settings := {}
  return {
    backend := ← r.withDefault "backend" (asWordOf? BackendKind.all BackendKind.name)
      standard.backend
    databasePath := ← r.withDefault "database_path" (asOption? asString?) standard.databasePath
    batch := ← r.withDefault "query_batch_size" asWord? standard.batch
    listBound := ← r.withDefault "in_clause_max_size" asWord? standard.listBound
    changeLifetime := ← r.withDefault "change_ttl_secs" (asOption? asWord?) standard.changeLifetime
    operationTimeout := ← r.withDefault "operation_timeout_ms" asWord? standard.operationTimeout
    probeTimeout := ← r.withDefault "health_check_timeout_ms" asWord? standard.probeTimeout }

end Mailroom.Settings
