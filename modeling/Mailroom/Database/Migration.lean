import Mailroom.Database.Schema
/-!
Bringing a database up to date.

The version of a database tells how many migrations it has gone through. Each migration creates
relations, none of which may exist already. A database of a later version than this library knows,
or of none at all, is refused.
-/

namespace Mailroom.Database

/-- The relations that each migration creates. -/
def migrations : List (List Relation) :=
  [[.counters, .contents, .messages, .keywords], [.heads, .changes]]

/-- Creates relations, unless one of them exists. -/
def createRelations (db : Database) (relations : List Relation) : Option Database :=
  if relations.all db.missing.contains then
    some { db with missing := db.missing.filter fun relation => !relations.contains relation }
  else none

/-- The database after the migrations that it has not gone through. -/
def migrate? (db : Database) : Option Database :=
  if 0 ≤ db.version ∧ db.version ≤ schemaVersion then
    ((migrations.drop db.version.toNat).foldlM createRelations db).map fun db =>
      { db with version := schemaVersion }
  else none

/-- The database of a new file. -/
def fresh : Database := {}

/-- An up-to-date database is left as it is. -/
theorem migrate?_of_version {db : Database} (current : db.version = schemaVersion) :
    migrate? db = some db := by
  unfold migrate?
  rw [if_pos (by rw [current]; decide), current]
  cases db
  cases current
  rfl

end Mailroom.Database
