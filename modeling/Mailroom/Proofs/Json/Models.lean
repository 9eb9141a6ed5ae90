import Mailroom.Json.Models
import Mailroom.Proofs.Json.Records
import Mailroom.Proofs.Time.Dates
/-!
Messages, flags, changes and health reports that are written as JSON and read again.

What is read is the value with its dates as they are written (`models_lossless`), so that two values
are lost: the nanoseconds that run past a second within a minute are read as those of the next
second, and an object with a member whose name is no text is not read at all (`models_lossy`).
-/

namespace Mailroom

/-! ### What is kept -/

namespace Json

variable {α : Type}

/-- A value is read back from its text on one line and over several, and from any text of it with
the members of its objects in another order and with further members. -/
structure Lossless (decode : Json → Option α) (value : Json) (a : α) : Prop where
  compact : (ofText? value.compact).bind decode = some a
  pretty : (ofText? value.pretty).bind decode = some a
  rearranged : ∀ text changed, ofText? text = some changed → Rearranged value changed →
    (ofText? text).bind decode = some a

theorem lossless_of_reads {decode : Json → Option α} {value : Json} {a : α}
    (plain : value.isPlain = true) (reads : Reads decode value a) : Lossless decode value a where
  compact := by
    rw [ofText?_compact plain]
    exact reads.same
  pretty := by
    rw [ofText?_pretty plain]
    exact reads.same
  rearranged text changed found h := by
    rw [found]
    exact reads changed h

theorem reads_instant (t : Instant) : Reads asInstant? (ofInstant t) t.asWritten := by
  refine reads_leaf (by simp [ofInstant]) ?_
  rw [asInstant?, ofInstant, asString?, Option.bind_some, Instant.ofText?_toText]

/-- A date that may be missing is read back as it is written. -/
theorem reads_date (date : Option Instant) :
    Reads (asOption? asInstant?) (option ofInstant date) (date.map Instant.asWritten) := by
  cases date with
  | none => exact reads_none asInstant?
  | some t => exact reads_some (reads_instant t) fun missing => by cases missing

end Json

open Json JsonRecord

/-! ### The model types -/

namespace Flags

theorem isPlain_toJson (flags : Flags) : flags.toJson.isPlain = true := by
  simp [toJson, membersPlain]

theorem reads_toJson (flags : Flags) : Reads ofJson? flags.toJson flags := by
  intro changed h
  obtain ⟨record, opened, gives⟩ := of?_rearranged (by simp) h
  simp only [List.map_cons, List.map_nil] at opened
  have answered := required_of_reads gives "answered" (by simp) (reads_bool flags.answered)
  have deleted := required_of_reads gives "deleted" (by simp) (reads_bool flags.deleted)
  have draft := required_of_reads gives "draft" (by simp) (reads_bool flags.draft)
  have flagged := required_of_reads gives "flagged" (by simp) (reads_bool flags.flagged)
  have recent := required_of_reads gives "recent" (by simp) (reads_bool flags.recent)
  have seen := required_of_reads gives "seen" (by simp) (reads_bool flags.seen)
  have keywords :=
    withDefault_of_reads gives "user_flags" (by simp) (reads_nameSet flags.keywords) .empty
  simp only [ofJson?, opened, Option.bind_eq_bind, Option.bind_some, answered, deleted, draft,
    flagged, recent, seen, keywords]
  rfl

end Flags

theorem UpdateMode.reads_toJson (mode : UpdateMode) : Reads ofJson? mode.toJson mode := by
  refine reads_wordOf ?_ ?_
  · decide
  · cases mode <;> decide

namespace FlagUpdate

theorem isPlain_toJson (update : FlagUpdate) : update.toJson.isPlain = true := by
  simp [toJson, UpdateMode.toJson, membersPlain, Flags.isPlain_toJson]

theorem reads_toJson (update : FlagUpdate) : Reads ofJson? update.toJson update := by
  intro changed h
  obtain ⟨record, opened, gives⟩ := of?_rearranged (by simp) h
  simp only [List.map_cons, List.map_nil] at opened
  have flags := required_of_reads gives "provided_flags" (by simp) update.flags.reads_toJson
  have mode := required_of_reads gives "mode" (by simp) update.mode.reads_toJson
  simp only [ofJson?, opened, Option.bind_eq_bind, Option.bind_some, flags, mode]
  rfl

end FlagUpdate

namespace Message

/-- Whether the numbers of a message fit into words. -/
def HasWords (message : Message) : Prop :=
  message.uid ≤ maxWord ∧ message.modSeq ≤ maxWord ∧ message.size ≤ maxWord

instance (message : Message) : Decidable message.HasWords :=
  inferInstanceAs (Decidable (_ ∧ _ ∧ _))

theorem isPlain_toJson (message : Message) : message.toJson.isPlain = true := by
  simp [toJson, membersPlain, Flags.isPlain_toJson, isPlain_option isPlain_ofInstant]

theorem reads_toJson (message : Message) (words : message.HasWords) :
    Reads ofJson? message.toJson message.withoutContent.asWritten := by
  obtain ⟨uid_fits, modSeq_fits, size_fits⟩ := words
  intro changed h
  obtain ⟨record, opened, gives⟩ := of?_rearranged (by simp) h
  simp only [List.map_cons, List.map_nil] at opened
  have mailbox := required_of_reads gives "mailbox_id" (by simp) (reads_string message.mailbox)
  have uid := required_of_reads gives "uid" (by simp) (reads_word uid_fits)
  have modSeq := required_of_reads gives "mod_seq" (by simp) (reads_word modSeq_fits)
  have id := required_of_reads gives "message_id" (by simp) (reads_string message.messageId)
  have thread := required_of_reads gives "thread_id" (by simp) (reads_string message.threadId)
  have date := required_of_reads gives "internal_date" (by simp)
    (reads_instant message.internalDate)
  have size := required_of_reads gives "size" (by simp) (reads_word size_fits)
  have saved := optional_of_reads gives "save_date" (by simp) (reads_date message.saveDate)
  have flags := required_of_reads gives "flags" (by simp) message.flags.reads_toJson
  simp only [ofJson?, opened, Option.bind_eq_bind, Option.bind_some, mailbox, uid, modSeq, id,
    thread, date, size, saved, flags]
  rfl

end Message

namespace Metadata

/-- Whether the numbers of a row fit into words. -/
def HasWords (row : Metadata) : Prop :=
  row.uid ≤ maxWord ∧ row.modSeq ≤ maxWord ∧ row.size ≤ maxWord

instance (row : Metadata) : Decidable row.HasWords := inferInstanceAs (Decidable (_ ∧ _ ∧ _))

theorem isPlain_toJson (row : Metadata) : row.toJson.isPlain = true := by
  simp [toJson, membersPlain, Flags.isPlain_toJson, isPlain_option isPlain_ofInstant]

theorem reads_toJson (row : Metadata) (words : row.HasWords) :
    Reads ofJson? row.toJson row.asWritten := by
  obtain ⟨uid_fits, modSeq_fits, size_fits⟩ := words
  intro changed h
  obtain ⟨record, opened, gives⟩ := of?_rearranged (by simp) h
  simp only [List.map_cons, List.map_nil] at opened
  have uid := required_of_reads gives "uid" (by simp) (reads_word uid_fits)
  have modSeq := required_of_reads gives "mod_seq" (by simp) (reads_word modSeq_fits)
  have flags := required_of_reads gives "flags" (by simp) row.flags.reads_toJson
  have size := required_of_reads gives "size" (by simp) (reads_word size_fits)
  have date := required_of_reads gives "internal_date" (by simp) (reads_instant row.internalDate)
  have saved := optional_of_reads gives "save_date" (by simp) (reads_date row.saveDate)
  have id := required_of_reads gives "message_id" (by simp) (reads_string row.messageId)
  have thread := required_of_reads gives "thread_id" (by simp) (reads_string row.threadId)
  simp only [ofJson?, opened, Option.bind_eq_bind, Option.bind_some, uid, modSeq, flags, size,
    date, saved, id, thread]
  rfl

end Metadata

namespace MailboxCounts

/-- Whether the counts fit into words. -/
def HasWords (counts : MailboxCounts) : Prop := counts.total ≤ maxWord ∧ counts.unseen ≤ maxWord

instance (counts : MailboxCounts) : Decidable counts.HasWords :=
  inferInstanceAs (Decidable (_ ∧ _))

theorem isPlain_toJson (counts : MailboxCounts) : counts.toJson.isPlain = true := by
  simp [toJson, membersPlain]

theorem reads_toJson (counts : MailboxCounts) (words : counts.HasWords) :
    Reads ofJson? counts.toJson counts := by
  intro changed h
  obtain ⟨record, opened, gives⟩ := of?_rearranged (by simp) h
  simp only [List.map_cons, List.map_nil] at opened
  have total := required_of_reads gives "total" (by simp) (reads_word words.1)
  have unseen := required_of_reads gives "unseen" (by simp) (reads_word words.2)
  simp only [ofJson?, opened, Option.bind_eq_bind, Option.bind_some, total, unseen]
  rfl

end MailboxCounts

namespace ChangeRecord

theorem isPlain_toJson (record : ChangeRecord) : record.toJson.isPlain = true := by
  simp [toJson, membersPlain]

theorem reads_toJson (change : ChangeRecord) (fits : change.state ≤ maxWord) :
    Reads ofJson? change.toJson change.asWritten := by
  intro changed h
  obtain ⟨record, opened, gives⟩ := of?_rearranged (by simp) h
  simp only [List.map_cons, List.map_nil] at opened
  have account := required_of_reads gives "account_id" (by simp) (reads_string change.account)
  have state := required_of_reads gives "state" (by simp) (reads_word fits)
  have date := required_of_reads gives "date" (by simp) (reads_instant change.date)
  have count := required_of_reads gives "is_count_change" (by simp)
    (reads_bool change.isCountChange)
  have delegated := required_of_reads gives "is_delegated" (by simp)
    (reads_bool change.isDelegated)
  have created := required_of_reads gives "created" (by simp) (reads_nameSet change.created)
  have updated := required_of_reads gives "updated" (by simp) (reads_nameSet change.updated)
  have destroyed := required_of_reads gives "destroyed" (by simp)
    (reads_nameSet change.destroyed)
  simp only [ofJson?, opened, Option.bind_eq_bind, Option.bind_some, account, state, date, count,
    delegated, created, updated, destroyed]
  rfl

end ChangeRecord

namespace HealthReport

theorem isPlain_toJson (report : HealthReport) : report.toJson.isPlain = true := by
  simp [toJson, membersPlain, isPlain_option isPlain_string]

theorem reads_toJson (report : HealthReport) : Reads ofJson? report.toJson report := by
  intro changed h
  obtain ⟨record, opened, gives⟩ := of?_rearranged (by simp) h
  simp only [List.map_cons, List.map_nil] at opened
  have vocabulary : Reads (asWordOf? HealthStatus.all HealthStatus.name)
      (.string report.status.name) report.status := by
    refine reads_wordOf ?_ ?_
    · decide
    · cases report.status <;> decide
  have component := required_of_reads gives "component" (by simp) (reads_string report.component)
  have status := required_of_reads gives "status" (by simp) vocabulary
  have cause := optional_of_reads gives "cause" (by simp)
    (reads_option report.cause (fun text _ => reads_string text) rfl)
  simp only [ofJson?, opened, Option.bind_eq_bind, Option.bind_some, component, status, cause]
  rfl

end HealthReport

/-- Every value of the model types is read back from its JSON form, with its dates as they are
written: from its text on one line and over several, and from any text of it with the members of its
objects in another order and with further members. Only the content of a message is left out, and a
date stays as it is exactly if it has a plain second. -/
theorem models_lossless :
    (∀ message : Message, message.HasWords →
      Lossless Message.ofJson? message.toJson message.withoutContent.asWritten ∧
        (message.withoutContent.asWritten = message.withoutContent ↔ message.HasPlainSeconds)) ∧
    (∀ row : Metadata, row.HasWords → Lossless Metadata.ofJson? row.toJson row.asWritten ∧
      (row.asWritten = row ↔ row.HasPlainSeconds)) ∧
    (∀ update : FlagUpdate, Lossless FlagUpdate.ofJson? update.toJson update) ∧
    (∀ flags : Flags, Lossless Flags.ofJson? flags.toJson flags) ∧
    (∀ record : ChangeRecord, record.state ≤ maxWord →
      Lossless ChangeRecord.ofJson? record.toJson record.asWritten ∧
        (record.asWritten = record ↔ record.date.HasPlainSecond)) ∧
    (∀ counts : MailboxCounts, counts.HasWords →
      Lossless MailboxCounts.ofJson? counts.toJson counts) ∧
    (∀ report : HealthReport, Lossless HealthReport.ofJson? report.toJson report) := by
  refine ⟨fun message words => ⟨?_, message.withoutContent.asWritten_eq_iff⟩,
    fun row words => ⟨?_, row.asWritten_eq_iff⟩, fun update => ?_, fun flags => ?_,
    fun record fits => ⟨?_, record.asWritten_eq_iff⟩, fun counts words => ?_, fun report => ?_⟩
  · exact lossless_of_reads message.isPlain_toJson (message.reads_toJson words)
  · exact lossless_of_reads row.isPlain_toJson (row.reads_toJson words)
  · exact lossless_of_reads update.isPlain_toJson update.reads_toJson
  · exact lossless_of_reads flags.isPlain_toJson flags.reads_toJson
  · exact lossless_of_reads record.isPlain_toJson (record.reads_toJson fits)
  · exact lossless_of_reads counts.isPlain_toJson (counts.reads_toJson words)
  · exact lossless_of_reads report.isPlain_toJson report.reads_toJson

/-- A message with control characters, whose date is the leap second at the end of the last year. -/
def farMessage : Message where
  mailbox := "\"\\\x00"
  uid := maxWord
  modSeq := 0
  messageId := "𝄞"
  threadId := ""
  internalDate := ⟨8210266876799, 1999999999, by decide, by decide⟩
  size := 1
  saveDate := none
  flags := { keywords := .ofList ["z", "a"] }
  content := some [0]

theorem models_lossless_farMessage :
    farMessage.HasWords ∧ farMessage.metadata.HasWords
    ∧ (ofText? farMessage.toJson.pretty).bind Message.ofJson? = some farMessage.withoutContent
    ∧ (ofText? farMessage.metadata.toJson.compact).bind Metadata.ofJson? = some farMessage.metadata
    ∧ (ofText? (object [("unseen", .nat 1), ("more", .array []), ("total", .nat 2)]).compact).bind
        MailboxCounts.ofJson? = some ⟨2, 1⟩
    ∧ ∀ record : ChangeRecord, record = { (default : ChangeRecord) with state := maxWord } →
        (ofText? record.toJson.compact).bind ChangeRecord.ofJson? = some record := by
  have message_words : farMessage.HasWords := by decide
  have row_words : farMessage.metadata.HasWords := by decide
  obtain ⟨messages, rows, -, -, records, counts, -⟩ := models_lossless
  obtain ⟨message, message_same⟩ := messages _ message_words
  obtain ⟨row, row_same⟩ := rows _ row_words
  refine ⟨message_words, row_words, ?_, ?_, ?_, ?_⟩
  · rw [message.pretty, message_same.mpr (by decide)]
  · rw [row.compact, row_same.mpr (by decide)]
  · refine (counts ⟨2, 1⟩ (by decide)).rearranged _ _ (ofText?_compact rfl) ?_
    -- The number of unread messages comes first, and a further member stands in between.
    have order := @List.perm_append_comm _ [("unseen", nat 1), ("more", .array [])]
      [("total", nat 2)]
    exact .object (.refl _) (by simp) order
  · rintro record rfl
    obtain ⟨change, change_same⟩ :=
      records { (default : ChangeRecord) with state := maxWord } (Nat.le_refl maxWord)
    rw [change.compact, change_same.mpr (by decide)]

/-- A change of a leap second within a minute. -/
def strayRecord : ChangeRecord := { (default : ChangeRecord) with date := .strayLeap }

/-- What is lost: a leap second within a minute is read back as the next second, and counts are not
read with a further member whose name is half of a surrogate pair. -/
theorem models_lossy :
    ¬ Lossless ChangeRecord.ofJson? strayRecord.toJson strayRecord ∧
    ((ofText? strayRecord.toJson.compact).bind ChangeRecord.ofJson?).map ChangeRecord.date
      = some Instant.strayLeap.asWritten ∧
    (ofText? "\x7b\"total\":1,\"unseen\":0\x7d").bind MailboxCounts.ofJson? = some ⟨1, 0⟩ ∧
    (ofText? "\x7b\"total\":1,\"unseen\":0,\"\\ud800\":null\x7d").bind MailboxCounts.ofJson?
      = none := by
  have lost : ((ofText? strayRecord.toJson.compact).bind ChangeRecord.ofJson?).map
      ChangeRecord.date = some Instant.strayLeap.asWritten := by
    decide +kernel
  refine ⟨fun kept => ?_, lost, by decide +kernel, by decide +kernel⟩
  rw [kept.compact] at lost
  exact absurd lost (by decide)

end Mailroom
