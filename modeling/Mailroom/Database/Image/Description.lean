import Mailroom.Database.Image
import Mailroom.Database.Migration
/-!
The relations that a file of a database describes.

The relation at the first page has an entry for every relation of the file, with its name, its first
page and the statement that defines it. `Image.database` is the database that the entries describe:
a relation that a migration is still to create exists as soon as something has its name, and any
other one if its definition names all of its columns.
-/

namespace Mailroom.Database

/-- The columns of a relation. -/
def Relation.columns : Relation → List String
  | counters => ["mailbox_id", "last_uid", "highest_mod_seq"]
  | contents => ["message_id", "content"]
  | messages =>
    ["mailbox_id", "uid", "mod_seq", "message_id", "thread_id", "internal_date", "size",
      "save_date", "answered", "deleted", "draft", "flagged", "recent", "seen"]
  | keywords => ["mailbox_id", "uid", "flag"]
  | heads => ["account_id", "latest", "latest_not_delegated"]
  | changes =>
    ["account_id", "state", "date", "is_count_change", "is_delegated", "created", "updated",
      "destroyed", "expires_at"]

namespace Image

/-- What an entry describes. -/
structure Entry where
  kind : Option String
  name : Option String
  /-- The relation that an index belongs to. -/
  owner : Option String
  page : Option String
  definition : Option String

/-- The text of a value, if there is one. -/
def textOfCell (image : Image) : Cell → Option String
  | .null => none
  | .integer value => some (toString value)
  | .real whole _ => some (toString whole)
  | .text said => some said
  | .octets octets => some (image.textOf octets)

/-- The entry of a row; a text ends before the first character with code 0. -/
def entryOf (image : Image) (row : List Cell) : Entry :=
  let column (index : Nat) : Option String :=
    (image.textOfCell (row.getD index .null)).map fun text =>
      String.ofList (text.toList.takeWhile (· ≠ '\x00'))
  { kind := column 0, name := column 1, owner := column 2, page := column 3
    definition := column 4 }

/-- Whether a text is a statement that creates something. -/
def isCreation (statement : String) : Bool :=
  (statement.toList.take 2).map Char.toLower = ['c', 'r']

/-- Why an entry cannot be used, given those before it. An index that comes with a relation has no
definition of its own. -/
def flaw? (image : Image) (before : List Entry) (entry : Entry) : Option EngineError :=
  let statement := entry.definition.getD ""
  match entry.page with
  | none => some (.malformedSchema entry.name "")
  | some page =>
    if isCreation statement then
      if image.pages < page.toNat?.getD 0 then
        some (.malformedSchema entry.name "invalid rootpage")
      else none
    else if entry.name = none ∨ statement ≠ "" then some (.malformedSchema entry.name "")
    else if before.all fun other => other.name ≠ entry.owner then
      some (.malformedSchema entry.name "orphan index")
    else if (page.toNat?.getD 0) < 2 ∨ image.pages < page.toNat?.getD 0 then
      some (.malformedSchema entry.name "invalid rootpage")
    else none

/-- The entries, if all of them can be used. -/
def entries (image : Image) : Except EngineError (List Entry) := do
  let all := (← image.rows 5 1).map image.entryOf
  all.foldlM (fun before entry =>
    match image.flaw? before entry with
    | some flaw => .error flaw
    | none => .ok (before ++ [entry])) []

/-- Whether a text has another one in it. -/
def mentions (text word : String) : Bool := 1 < (text.splitOn word).length

/-- Whether an entry describes a relation with all of its columns. -/
def Entry.defines (entry : Entry) (relation : Relation) : Bool :=
  let definition := (entry.definition.getD "").map Char.toLower
  entry.kind = some "table" && relation.columns.all (mentions definition)

/-- Whether an entry has the name of a relation. -/
def Entry.isNamed (entry : Entry) (relation : Relation) : Bool :=
  (entry.name.getD "").map Char.toLower = relation.name

/-- A counter in a column. -/
def counterOf : Cell → Counter
  | .integer value => .integer value
  | _ => .overflowed

/-- The counters that a relation holds. -/
def countersAt (image : Image) (page : Nat) : Table MailboxId CounterRow :=
  ((image.rows 3 page).toOption.getD []).foldl (fun table row =>
    match row with
    | [.text mailbox, lastUid, highestModSeq] =>
      table.insert mailbox ⟨counterOf lastUid, counterOf highestModSeq⟩
    | _ => table) .empty

/-- The database that a file holds. -/
def database (image : Image) (entries : List Entry) : Database :=
  let pending := (migrations.drop image.version.toNat).flatten
  let isThere (relation : Relation) : Bool :=
    entries.any fun entry =>
      entry.isNamed relation && (pending.contains relation || entry.defines relation)
  let counters := entries.find? fun entry => entry.isNamed .counters
  { missing := Relation.all.filter fun relation => !isThere relation
    version := image.version
    counters :=
      if isThere .counters then
        image.countersAt ((counters.bind Entry.page).bind String.toNat? |>.getD 0)
      else .empty }

end Image

end Mailroom.Database
