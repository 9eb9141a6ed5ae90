import Mailroom.Flags.Update
import Mailroom.Health
import Mailroom.Json.Record
import Mailroom.Message.Query
/-!
The JSON forms of messages, flags, changes and health reports. Each type has `toJson`, which names
its fields in order, and `ofJson?`, which reads them back in any order.
-/

namespace Mailroom

/-- A type whose values have a JSON form. -/
class JsonForm (α : Type) where
  /-- Writes a value. -/
  toJson : α → Json
  /-- Reads a value back. -/
  ofJson? : Json → Option α

instance : JsonForm Nat := ⟨.nat, Json.asWord?⟩

instance : JsonForm String := ⟨.string, Json.asString?⟩

open Json

namespace SystemFlag

@[inherit_doc JsonForm.toJson]
def toJson (flag : SystemFlag) : Json := .string flag.name

@[inherit_doc JsonForm.ofJson?]
def ofJson? : Json → Option SystemFlag := asWordOf? all name

instance : JsonForm SystemFlag := ⟨toJson, ofJson?⟩

end SystemFlag

namespace Flags

@[inherit_doc JsonForm.toJson]
def toJson (flags : Flags) : Json := .object [
  ("answered", .bool flags.answered),
  ("deleted", .bool flags.deleted),
  ("draft", .bool flags.draft),
  ("flagged", .bool flags.flagged),
  ("recent", .bool flags.recent),
  ("seen", .bool flags.seen),
  ("user_flags", ofNameSet flags.keywords)]

/-- Flags without a list of keywords have none. -/
def ofJson? (value : Json) : Option Flags := do
  let r ← JsonRecord.of?
    ["answered", "deleted", "draft", "flagged", "recent", "seen", "user_flags"] value
  return {
    answered := ← r.required "answered" asBool?
    deleted := ← r.required "deleted" asBool?
    draft := ← r.required "draft" asBool?
    flagged := ← r.required "flagged" asBool?
    recent := ← r.required "recent" asBool?
    seen := ← r.required "seen" asBool?
    keywords := ← r.withDefault "user_flags" asNameSet? .empty }

instance : JsonForm Flags := ⟨toJson, ofJson?⟩

end Flags

namespace UpdateMode

/-- Every mode. -/
def all : List UpdateMode := [replace, add, remove]

/-- The name of a mode. -/
def name : UpdateMode → String
  | replace => "Replace"
  | add => "Add"
  | remove => "Remove"

@[inherit_doc JsonForm.toJson]
def toJson (mode : UpdateMode) : Json := .string mode.name

@[inherit_doc JsonForm.ofJson?]
def ofJson? : Json → Option UpdateMode := asWordOf? all name

instance : JsonForm UpdateMode := ⟨toJson, ofJson?⟩

end UpdateMode

namespace FlagUpdate

@[inherit_doc JsonForm.toJson]
def toJson (update : FlagUpdate) : Json :=
  .object [("provided_flags", update.flags.toJson), ("mode", update.mode.toJson)]

@[inherit_doc JsonForm.ofJson?]
def ofJson? (value : Json) : Option FlagUpdate := do
  let r ← JsonRecord.of? ["provided_flags", "mode"] value
  return {
    flags := ← r.required "provided_flags" Flags.ofJson?
    mode := ← r.required "mode" UpdateMode.ofJson? }

instance : JsonForm FlagUpdate := ⟨toJson, ofJson?⟩

end FlagUpdate

namespace Fetch

/-- The name of a way to fetch. -/
def name : Fetch → String
  | metadata => "Metadata"
  | full => "Full"

@[inherit_doc JsonForm.toJson]
def toJson (fetch : Fetch) : Json := .string fetch.name

@[inherit_doc JsonForm.ofJson?]
def ofJson? : Json → Option Fetch := asWordOf? [metadata, full] name

instance : JsonForm Fetch := ⟨toJson, ofJson?⟩

end Fetch

namespace Message

/-- A row without its content. -/
def toJson (message : Message) : Json := .object [
  ("mailbox_id", .string message.mailbox),
  ("uid", .nat message.uid),
  ("mod_seq", .nat message.modSeq),
  ("message_id", .string message.messageId),
  ("thread_id", .string message.threadId),
  ("internal_date", ofInstant message.internalDate),
  ("size", .nat message.size),
  ("save_date", .option ofInstant message.saveDate),
  ("flags", message.flags.toJson)]

@[inherit_doc JsonForm.ofJson?]
def ofJson? (value : Json) : Option Message := do
  let r ← JsonRecord.of? ["mailbox_id", "uid", "mod_seq", "message_id", "thread_id",
    "internal_date", "size", "save_date", "flags"] value
  return {
    mailbox := ← r.required "mailbox_id" asString?
    uid := ← r.required "uid" asWord?
    modSeq := ← r.required "mod_seq" asWord?
    messageId := ← r.required "message_id" asString?
    threadId := ← r.required "thread_id" asString?
    internalDate := ← r.required "internal_date" asInstant?
    size := ← r.required "size" asWord?
    saveDate := ← r.optional "save_date" asInstant?
    flags := ← r.required "flags" Flags.ofJson?
    content := none }

instance : JsonForm Message := ⟨toJson, ofJson?⟩

end Message

namespace Metadata

@[inherit_doc JsonForm.toJson]
def toJson (row : Metadata) : Json := .object [
  ("uid", .nat row.uid),
  ("mod_seq", .nat row.modSeq),
  ("flags", row.flags.toJson),
  ("size", .nat row.size),
  ("internal_date", ofInstant row.internalDate),
  ("save_date", .option ofInstant row.saveDate),
  ("message_id", .string row.messageId),
  ("thread_id", .string row.threadId)]

@[inherit_doc JsonForm.ofJson?]
def ofJson? (value : Json) : Option Metadata := do
  let r ← JsonRecord.of? ["uid", "mod_seq", "flags", "size", "internal_date", "save_date",
    "message_id", "thread_id"] value
  return {
    uid := ← r.required "uid" asWord?
    modSeq := ← r.required "mod_seq" asWord?
    flags := ← r.required "flags" Flags.ofJson?
    size := ← r.required "size" asWord?
    internalDate := ← r.required "internal_date" asInstant?
    saveDate := ← r.optional "save_date" asInstant?
    messageId := ← r.required "message_id" asString?
    threadId := ← r.required "thread_id" asString? }

instance : JsonForm Metadata := ⟨toJson, ofJson?⟩

end Metadata

namespace MailboxCounts

@[inherit_doc JsonForm.toJson]
def toJson (counts : MailboxCounts) : Json :=
  .object [("total", .nat counts.total), ("unseen", .nat counts.unseen)]

@[inherit_doc JsonForm.ofJson?]
def ofJson? (value : Json) : Option MailboxCounts := do
  let r ← JsonRecord.of? ["total", "unseen"] value
  return {
    total := ← r.required "total" asWord?
    unseen := ← r.required "unseen" asWord? }

instance : JsonForm MailboxCounts := ⟨toJson, ofJson?⟩

end MailboxCounts

namespace ChangeRecord

@[inherit_doc JsonForm.toJson]
def toJson (record : ChangeRecord) : Json := .object [
  ("account_id", .string record.account),
  ("state", .nat record.state),
  ("date", ofInstant record.date),
  ("is_count_change", .bool record.isCountChange),
  ("is_delegated", .bool record.isDelegated),
  ("created", ofNameSet record.created),
  ("updated", ofNameSet record.updated),
  ("destroyed", ofNameSet record.destroyed)]

@[inherit_doc JsonForm.ofJson?]
def ofJson? (value : Json) : Option ChangeRecord := do
  let r ← JsonRecord.of? ["account_id", "state", "date", "is_count_change", "is_delegated",
    "created", "updated", "destroyed"] value
  return {
    account := ← r.required "account_id" asString?
    state := ← r.required "state" asWord?
    date := ← r.required "date" asInstant?
    isCountChange := ← r.required "is_count_change" asBool?
    isDelegated := ← r.required "is_delegated" asBool?
    created := ← r.required "created" asNameSet?
    updated := ← r.required "updated" asNameSet?
    destroyed := ← r.required "destroyed" asNameSet? }

instance : JsonForm ChangeRecord := ⟨toJson, ofJson?⟩

end ChangeRecord

namespace HealthReport

@[inherit_doc JsonForm.toJson]
def toJson (report : HealthReport) : Json := .object [
  ("component", .string report.component),
  ("status", .string report.status.name),
  ("cause", .option .string report.cause)]

@[inherit_doc JsonForm.ofJson?]
def ofJson? (value : Json) : Option HealthReport := do
  let r ← JsonRecord.of? ["component", "status", "cause"] value
  return {
    component := ← r.required "component" asString?
    status := ← r.required "status" (asWordOf? HealthStatus.all HealthStatus.name)
    cause := ← r.optional "cause" asString? }

instance : JsonForm HealthReport := ⟨toJson, ofJson?⟩

end HealthReport

end Mailroom
