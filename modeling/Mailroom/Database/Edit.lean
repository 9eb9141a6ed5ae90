import Mailroom.Database.Codec
import Mailroom.Text.Hex
/-!
Edits that other programs make to a database behind the store: any value that a column can hold, and
relations that disappear. Each edit returns the database and how many rows it changed.
-/

namespace Mailroom.Database

/-- The value that an edit gives: a text, an integer of 64 bits, nothing, or octets by their
digits. -/
def Cell.ofJson? : Json → Option Cell
  | .null => some null
  | .bool value => some (ofBool value)
  | .integer value =>
    if -(maxStored + 1 : Int) ≤ value ∧ value ≤ maxStored then some (integer value) else none
  | .string said => some (text said)
  | .object [("hex", .string digits)] => (Text.ofHex? digits).map octets
  | _ => none

/-- A new value for one column of a message. -/
inductive MessageEdit where
  | modSeq (cell : Cell)
  | size (cell : Cell)
  | internalDate (cell : Cell)
  | saveDate (cell : Cell)
  | threadId (cell : Cell)
  | messageId (cell : Cell)
  | flag (flag : SystemFlag) (cell : Cell)
deriving DecidableEq, Repr

/-- The row of a message after an edit; only the date of saving may be nothing. -/
def MessageEdit.apply? : MessageEdit → MessageRow → Option MessageRow
  | saveDate cell, row => some { row with saveDate := cell.inTexts }
  | modSeq cell, row => cell.inIntegers.given?.map fun modSeq => { row with modSeq }
  | size cell, row => cell.inIntegers.given?.map fun size => { row with size }
  | internalDate cell, row => cell.inTexts.given?.map fun internalDate => { row with internalDate }
  | threadId cell, row => cell.inTexts.given?.map fun threadId => { row with threadId }
  | messageId cell, row => cell.inTexts.given?.map fun messageId => { row with messageId }
  | flag named cell, row => cell.inIntegers.given?.map (row.putFlag named)

/-- The edit of a column by its name. -/
def MessageEdit.ofColumn? (column : String) (value : Json) : Option MessageEdit := do
  let cell ← Cell.ofJson? value
  match column with
  | "mod_seq" => return modSeq cell
  | "size" => return size cell
  | "internal_date" => return internalDate cell
  | "save_date" => return saveDate cell
  | "thread_id" => return threadId cell
  | "message_id" => return messageId cell
  | _ =>
    let named ← SystemFlag.all.find? fun flag => flag.name.map Char.toLower == column
    return flag named cell

/-- A new value for one column of a change record. -/
inductive ChangeEdit where
  | date (cell : Cell)
  | state (cell : Cell)
  | expiresAt (cell : Cell)
  | isCountChange (cell : Cell)
  | isDelegated (cell : Cell)
  | created (cell : Cell)
  | updated (cell : Cell)
  | destroyed (cell : Cell)
deriving DecidableEq, Repr

/-- The row of a change record after an edit; its state is not part of the row, and only the expiry
may be nothing. -/
def ChangeEdit.apply? : ChangeEdit → ChangeRow → Option ChangeRow
  | expiresAt cell, row => some { row with expiresAt := cell.inIntegers }
  | state cell, row => cell.given?.map fun _ => row
  | date cell, row => cell.inTexts.given?.map fun date => { row with date }
  | isCountChange cell, row =>
    cell.inIntegers.given?.map fun isCountChange => { row with isCountChange }
  | isDelegated cell, row => cell.inIntegers.given?.map fun isDelegated => { row with isDelegated }
  | created cell, row => cell.inTexts.given?.map fun created => { row with created }
  | updated cell, row => cell.inTexts.given?.map fun updated => { row with updated }
  | destroyed cell, row => cell.inTexts.given?.map fun destroyed => { row with destroyed }

/-- Where a change record lives after an edit. -/
def ChangeEdit.move : ChangeEdit → ChangePlace → ChangePlace
  | state cell, place => { place with state := cell.inIntegers }
  | _, place => place

/-- The edit of a column by its name. -/
def ChangeEdit.ofColumn? (column : String) (value : Json) : Option ChangeEdit := do
  let cell ← Cell.ofJson? value
  match column with
  | "date" => return date cell
  | "state" => return state cell
  | "expires_at" => return expiresAt cell
  | "is_count_change" => return isCountChange cell
  | "is_delegated" => return isDelegated cell
  | "created" => return created cell
  | "updated" => return updated cell
  | "destroyed" => return destroyed cell
  | _ => none

/-- Sets the counters of a mailbox. -/
def setCounters (db : Database) (mailbox : MailboxId) (lastUid highestModSeq : Int) :
    Database × Nat :=
  let row : CounterRow := ⟨.integer lastUid, .integer highestModSeq⟩
  ({ db with counters := db.counters.insert mailbox row }, 1)

/-- Sets the heads of a change log. -/
def setHeads (db : Database) (account : AccountId) (latest latestNotDelegated : Int) :
    Database × Nat :=
  ({ db with heads := db.heads.insert account ⟨latest, latestNotDelegated⟩ }, 1)

/-- Edits a message. A column that may not be nothing keeps its value. -/
def editMessage (db : Database) (place : Place) (edit : MessageEdit) : Database × Nat :=
  match db.messages.get? place >>= edit.apply? with
  | none => (db, 0)
  | some row => ({ db with messages := db.messages.insert place row }, 1)

/-- Edits a change record, unless that would give it the place of another one. -/
def editChange (db : Database) (place : ChangePlace) (edit : ChangeEdit) : Database × Nat :=
  match db.changes.get? place >>= edit.apply? with
  | none => (db, 0)
  | some row =>
    let rest := db.changes.erase place
    if (rest.get? (edit.move place)).isSome then (db, 0)
    else ({ db with changes := rest.insert (edit.move place) row }, 1)

/-- Puts octets in the place of a stored content. -/
def editContent (db : Database) (id : MessageId) (octets : Octets) : Database × Nat :=
  if (db.contents.get? id).isSome then
    ({ db with contents := db.contents.insert id (.foreign octets) }, 1)
  else (db, 0)

/-- Drops a relation with its rows. While there is a relation of keywords, which name messages, the
messages are removed one by one before their relation is dropped, and each with its keywords. -/
def drop (db : Database) (relation : Relation) : Database × Nat :=
  let removed := if db.missing.contains .keywords then 0 else db.messages.size
  let db := { db with missing := db.missing ++ [relation] }
  match relation with
  | .counters => ({ db with counters := .empty }, 0)
  | .contents => ({ db with contents := .empty }, 0)
  | .messages => ({ db with messages := .empty, keywords := [] }, removed)
  | .keywords => ({ db with keywords := [] }, 0)
  | .heads => ({ db with heads := .empty }, 0)
  | .changes => ({ db with changes := .empty }, 0)

/-- Marks the database with a version; what is no integer of 32 bits stands for 0. -/
def setVersion (db : Database) (version : Int) : Database × Nat :=
  let fits := -2147483648 ≤ version ∧ version ≤ 2147483647
  ({ db with version := if fits then version else 0 }, 0)

end Mailroom.Database
