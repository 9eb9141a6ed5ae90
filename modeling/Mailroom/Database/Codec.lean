import Mailroom.Database.Engine
import Mailroom.Database.Schema
import Mailroom.Json.Reader
import Mailroom.Json.Record
import Mailroom.Json.Writer
import Mailroom.Message.Query
/-!
Rows of the database, to and from messages and change records.

Writing refuses numbers that do not fit. Reading takes two steps: `MessageRow.values` and
`ChangeRow.values` refuse a column that holds a value of another type, and `MessageValues.read` and
`ChangeValues.read` find damage in the values, of several damages the first in the order in which
they check.
-/

namespace Mailroom.Database

/-! ### Columns -/

/-- The integer in a column. -/
def Cell.readInteger : Cell → Except StoreError Int
  | integer value => .ok value
  | _ => .error EngineError.columnType.toStoreError

/-- The text in a column. -/
def Cell.readText : Cell → Except StoreError String
  | text said => .ok said
  | _ => .error EngineError.columnType.toStoreError

/-- The text in a column that may hold nothing. -/
def Cell.readOptionalText : Cell → Except StoreError (Option String)
  | null => .ok none
  | cell => cell.readText.map some

/-- The flag in a column: 0 stands for false, any other integer for true. -/
def Cell.readFlag (cell : Cell) : Except StoreError Bool := cell.readInteger.map (· ≠ 0)

/-- The value stored for a flag. -/
def ofBool (value : Bool) : Cell := .integer (if value then 1 else 0)

/-- The value stored for a number, unless it is too great. -/
def storable (column : Column) (value : Nat) : Except StoreError Cell :=
  if value ≤ maxStored then .ok (.integer value)
  else .error (.invalidInput (.tooGreat column value))

/-- The number stored as an integer, unless that is negative. -/
def readNumber (column : Column) : Int → Except StoreError Nat
  | .ofNat value => .ok value
  | .negSucc value => .error (.corrupted (.negativeColumn column (.negSucc value)))

/-- The state stored as an integer, unless that is negative. -/
def readState : Int → Except StoreError State
  | .ofNat value => .ok value
  | .negSucc value => .error (.corrupted (.negativeState (.negSucc value)))

/-- The instant stored as text. -/
def readDate (text : String) : Except StoreError Instant :=
  match Instant.ofStored? text with
  | some t => .ok t
  | none => .error (.corrupted (.date text))

/-- The text stored for a set of identifiers. -/
def writeNameSet (names : NameSet) : String := (Json.ofNameSet names).compact

/-- The set of identifiers stored as text. -/
def readNameSet (text : String) : Except StoreError NameSet :=
  match (Json.ofText? text).bind Json.asNameSet? with
  | some names => .ok names
  | none => .error (.corrupted .identifierSet)

/-! ### Messages -/

namespace MessageRow

/-- The row of a message, whose numbers fit. -/
def ofMessage (message : Message) : Except StoreError MessageRow := do
  let modSeq ← storable .modSeq message.modSeq
  let size ← storable .size message.size
  return {
    modSeq
    messageId := .text message.messageId
    threadId := .text message.threadId
    internalDate := .text message.internalDate.toStored
    size
    saveDate := (message.saveDate.map fun t => Cell.text t.toStored).getD .null
    answered := ofBool message.flags.answered
    deleted := ofBool message.flags.deleted
    draft := ofBool message.flags.draft
    flagged := ofBool message.flags.flagged
    recent := ofBool message.flags.recent
    seen := ofBool message.flags.seen }

/-- Stores in the column of a system flag. -/
def putFlag (row : MessageRow) (flag : SystemFlag) (cell : Cell) : MessageRow :=
  match flag with
  | .answered => { row with answered := cell }
  | .deleted => { row with deleted := cell }
  | .draft => { row with draft := cell }
  | .flagged => { row with flagged := cell }
  | .recent => { row with recent := cell }
  | .seen => { row with seen := cell }

/-- Assigns to the column of a system flag. -/
def setFlag (row : MessageRow) (flag : SystemFlag) (value : Bool) : MessageRow :=
  row.putFlag flag (ofBool value)

/-- Whether the columns of a row pass a filter, which compares with 0 or with 1. -/
def passes (row : MessageRow) : Filter → Bool
  | .any => true
  | .unseen => row.seen = .integer 0
  | .recent => row.recent = .integer 1
  | .notDeleted => row.deleted = .integer 0
  | .deleted => row.deleted = .integer 1

end MessageRow

/-- The values of a message in columns of the right types. -/
structure MessageValues where
  modSeq : Int
  messageId : MessageId
  threadId : ThreadId
  internalDate : String
  size : Int
  saveDate : Option String
  answered : Bool
  deleted : Bool
  draft : Bool
  flagged : Bool
  recent : Bool
  seen : Bool
deriving DecidableEq, Repr, Inhabited

/-- The values of a row. -/
def MessageRow.values (row : MessageRow) : Except StoreError MessageValues := do
  return {
    modSeq := ← row.modSeq.readInteger
    messageId := ← row.messageId.readText
    threadId := ← row.threadId.readText
    internalDate := ← row.internalDate.readText
    size := ← row.size.readInteger
    saveDate := ← row.saveDate.readOptionalText
    answered := ← row.answered.readFlag
    deleted := ← row.deleted.readFlag
    draft := ← row.draft.readFlag
    flagged := ← row.flagged.readFlag
    recent := ← row.recent.readFlag
    seen := ← row.seen.readFlag }

/-- The message with given values, with its keywords and the content stored for it, if one was asked
for. -/
def MessageValues.read (values : MessageValues) (place : Place) (keywords : NameSet)
    (content : Option StoredContent) : Except StoreError Message := do
  let content ←
    match content with
    | none => pure none
    | some stored =>
      match stored.unpack? with
      | some content => pure (some content)
      | none => throw (.corrupted .content)
  let modSeq ← readNumber .modSeq values.modSeq
  let internalDate ← readDate values.internalDate
  let size ← readNumber .size values.size
  let saveDate ← values.saveDate.mapM readDate
  return {
    mailbox := place.mailbox
    uid := place.uid
    modSeq
    messageId := values.messageId
    threadId := values.threadId
    internalDate
    size
    saveDate
    flags := {
      answered := values.answered
      deleted := values.deleted
      draft := values.draft
      flagged := values.flagged
      recent := values.recent
      seen := values.seen
      keywords }
    content }

/-! ### Change records -/

namespace ChangeRow

/-- The row of a change; an instant of expiry is cut to whole milliseconds. -/
def ofDraft (draft : ChangeDraft) (expiresAt : Option Instant) : ChangeRow where
  date := .text draft.date.toStored
  isCountChange := ofBool draft.isCountChange
  isDelegated := ofBool draft.isDelegated
  created := .text (writeNameSet draft.created)
  updated := .text (writeNameSet draft.updated)
  destroyed := .text (writeNameSet draft.destroyed)
  expiresAt := (expiresAt.map fun t => Cell.integer t.millis).getD .null

/-- Whether a record has not expired by a number of milliseconds. -/
def isLive (row : ChangeRow) (now : Int) : Bool :=
  row.expiresAt = .null || row.expiresAt.isAbove now

end ChangeRow

/-- The values of a change record in columns of the right types. -/
structure ChangeValues where
  state : Int
  date : String
  isCountChange : Bool
  isDelegated : Bool
  created : String
  updated : String
  destroyed : String
deriving DecidableEq, Repr, Inhabited

/-- The values of a row and of its state. -/
def ChangeRow.values (row : ChangeRow) (state : Cell) : Except StoreError ChangeValues := do
  return {
    state := ← state.readInteger
    date := ← row.date.readText
    isCountChange := ← row.isCountChange.readFlag
    isDelegated := ← row.isDelegated.readFlag
    created := ← row.created.readText
    updated := ← row.updated.readText
    destroyed := ← row.destroyed.readText }

/-- The record with given values. -/
def ChangeValues.read (values : ChangeValues) (account : AccountId) :
    Except StoreError ChangeRecord := do
  let state ← readState values.state
  let date ← readDate values.date
  let created ← readNameSet values.created
  let updated ← readNameSet values.updated
  let destroyed ← readNameSet values.destroyed
  return {
    account
    state
    date
    isCountChange := values.isCountChange
    isDelegated := values.isDelegated
    created
    updated
    destroyed }

end Mailroom.Database
