import Mailroom.Database.File
import Mailroom.Memory.Store
import Mailroom.Settings
/-!
The store that settings ask for.
-/

namespace Mailroom

/-- A store of either kind. -/
inductive Backend where
  | memory (store : Memory.Store)
  | database (store : Database.Store)

namespace Backend

/-- Opens the store that settings ask for. -/
def «open» (files : Files) (settings : Settings) : Except StartupError (Backend × Files) := do
  settings.validate
  match settings.backend, settings.databasePath with
  | .memory, _ => return (memory (.new settings.listBound), files)
  | .database, some path =>
    let (store, files) ← Database.Store.openFile files path settings.listBound
    return (database store, files)
  | .database, none => throw { cause := .noDatabasePath }

/-- A store in memory with default settings. -/
def inMemory : Backend :=
  let standard : Settings := {}
  memory (.new standard.listBound)

variable {α : Type}

/-- Runs a step on the store. -/
def run (step : (σ : Type) → [Storage σ] → Step σ α) : Step Backend α
  | memory store =>
    let (answer, store) := step Memory.Store store
    (answer, memory store)
  | database store =>
    let (answer, store) := step Database.Store store
    (answer, database store)

/-- Asks the store for what needs no step. -/
def ask (question : (σ : Type) → [Storage σ] → σ → α) : Backend → α
  | memory store => question Memory.Store store
  | database store => question Database.Store store

/-- The files after the store was used: a database is kept in its file. -/
def keep (files : Files) : Backend → Files
  | memory _ => files
  | database store => files.put (Database.locationOf store.path) (.database store.database)

end Backend

end Mailroom
