import Mailroom.Change
import Mailroom.Message
import Mailroom.Proofs.Time.Timestamp
/-!
The dates of messages and of changes, as they are written.

Where nothing else is lost, a value is read back with each of its dates as the text of that date has
it: that value is its `asWritten`, and it is the value itself exactly if every date has a plain second.
-/

namespace Mailroom

open Instant

/-! ### Optional dates -/

/-- An optional date stays as it is when it is written exactly if it has a plain second. -/
theorem map_asWritten_eq_iff {date : Option Instant} :
    date.map asWritten = date ↔ ∀ t ∈ date, t.HasPlainSecond := by
  cases date with
  | none => simp
  | some t => simp [asWritten_eq_iff]

theorem map_asWritten_hasPlainSecond {date : Option Instant} :
    ∀ t ∈ date.map asWritten, t.HasPlainSecond := by
  cases date with
  | none => simp
  | some t => simp [hasPlainSecond_asWritten]

/-! ### Messages -/

namespace Message

/-- Whether the dates of a row have years of four digits. -/
def HasPlainDates (row : Message) : Prop :=
  row.internalDate.HasPlainYear ∧ ∀ t ∈ row.saveDate, t.HasPlainYear

instance (row : Message) : Decidable row.HasPlainDates :=
  inferInstanceAs (Decidable (_ ∧ _))

/-- Whether the dates of a row are named by their own texts. -/
def HasPlainSeconds (row : Message) : Prop :=
  row.internalDate.HasPlainSecond ∧ ∀ t ∈ row.saveDate, t.HasPlainSecond

instance (row : Message) : Decidable row.HasPlainSeconds :=
  inferInstanceAs (Decidable (_ ∧ _))

/-- The row with its dates as they are written. -/
def asWritten (row : Message) : Message :=
  { row with
    internalDate := row.internalDate.asWritten
    saveDate := row.saveDate.map Instant.asWritten }

variable {row : Message}

theorem asWritten_eq_iff : row.asWritten = row ↔ row.HasPlainSeconds := by
  rw [HasPlainSeconds, ← Instant.asWritten_eq_iff, ← map_asWritten_eq_iff]
  cases row
  simp [asWritten]

theorem asWritten_of_plain (plain : row.HasPlainSeconds) : row.asWritten = row :=
  asWritten_eq_iff.mpr plain

theorem hasPlainSeconds_asWritten (row : Message) : row.asWritten.HasPlainSeconds :=
  ⟨row.internalDate.hasPlainSecond_asWritten, map_asWritten_hasPlainSecond⟩

@[simp] theorem hasPlainDates_asWritten (row : Message) :
    row.asWritten.HasPlainDates ↔ row.HasPlainDates := by
  simp [HasPlainDates, asWritten]

end Message

namespace Metadata

/-- Whether the dates of a row are named by their own texts. -/
def HasPlainSeconds (row : Metadata) : Prop :=
  row.internalDate.HasPlainSecond ∧ ∀ t ∈ row.saveDate, t.HasPlainSecond

instance (row : Metadata) : Decidable row.HasPlainSeconds :=
  inferInstanceAs (Decidable (_ ∧ _))

/-- The row with its dates as they are written. -/
def asWritten (row : Metadata) : Metadata :=
  { row with
    internalDate := row.internalDate.asWritten
    saveDate := row.saveDate.map Instant.asWritten }

theorem asWritten_eq_iff {row : Metadata} : row.asWritten = row ↔ row.HasPlainSeconds := by
  rw [HasPlainSeconds, ← Instant.asWritten_eq_iff, ← map_asWritten_eq_iff]
  cases row
  simp [asWritten]

end Metadata

/-! ### Changes -/

/-- The draft with its date as it is written. -/
def ChangeDraft.asWritten (draft : ChangeDraft) : ChangeDraft :=
  { draft with date := draft.date.asWritten }

theorem ChangeDraft.asWritten_eq_iff {draft : ChangeDraft} :
    draft.asWritten = draft ↔ draft.date.HasPlainSecond := by
  rw [← Instant.asWritten_eq_iff]
  cases draft
  simp [asWritten]

/-- The record of a draft shows all of it. -/
theorem ChangeDraft.record_inj {draft other : ChangeDraft} {state : State}
    (same : draft.record state = other.record state) : draft = other := by
  cases draft
  cases other
  simp only [record, ChangeRecord.mk.injEq] at same
  simp [same]

/-- The record with its date as it is written. -/
def ChangeRecord.asWritten (record : ChangeRecord) : ChangeRecord :=
  { record with date := record.date.asWritten }

theorem ChangeRecord.asWritten_eq_iff {record : ChangeRecord} :
    record.asWritten = record ↔ record.date.HasPlainSecond := by
  rw [← Instant.asWritten_eq_iff]
  cases record
  simp [asWritten]

end Mailroom
