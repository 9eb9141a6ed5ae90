import Mailroom.Database.Codec
import Mailroom.Proofs.Json.Records
import Mailroom.Proofs.Time.Dates
/-!
What a row says when it is read back.

`MessageRow.encode` is the row that is written for a message whose numbers fit. Its place, its
keywords and its content lie elsewhere. `MessageRow.values_encode` says that every column has the
right type; `MessageRow.read_of_plain` and `MessageRow.read_of_not_plain` that the row is read back
exactly if its dates have plain years, and then with its dates as they are written. It is the same
with the row of a change and its one date (`ChangeRow.values_ofDraft`, `ChangeRow.read_of_plain`,
`ChangeRow.read_of_not_plain`). A row has no more of a date than its text, so that a message and the
same message with its dates as they are written have one row (`MessageRow.ofMessage_asWritten`).
-/

namespace Mailroom

namespace Database

/-! ### Cells -/

@[simp] theorem ofBool_eq_zero {value : Bool} : ofBool value = .integer 0 ↔ value = false := by
  cases value <;> simp [ofBool]

@[simp] theorem ofBool_eq_one {value : Bool} : ofBool value = .integer 1 ↔ value = true := by
  cases value <;> simp [ofBool]

@[simp] theorem readFlag_ofBool {value : Bool} : (ofBool value).readFlag = .ok value := by
  cases value <;> rfl

theorem storable_of_le {column : Column} {value : Nat} (fits : value ≤ maxStored) :
    storable column value = .ok (.integer value) := if_pos fits

theorem storable_of_gt {column : Column} {value : Nat} (great : maxStored < value) :
    storable column value = .error (.invalidInput (.tooGreat column value)) :=
  if_neg (Nat.not_le.mpr great)

theorem readDate_toStored {t : Instant} (plain : t.HasPlainYear) :
    readDate t.toStored = .ok t.asWritten := by
  simp [readDate, Instant.ofStored?_toStored, plain]

theorem readDate_toStored_error {t : Instant} (signed : ¬ t.HasPlainYear) :
    readDate t.toStored = .error (.corrupted (.date t.toStored)) := by
  simp [readDate, Instant.ofStored?_of_not_plain t signed]

theorem readNameSet_writeNameSet (names : NameSet) :
    readNameSet (writeNameSet names) = .ok names := by
  simp [readNameSet, writeNameSet, Json.ofText?_ofNameSet]

/-! ### Rows of messages -/

/-- The values in the columns of a written row. -/
def MessageValues.encode (message : Message) : MessageValues where
  modSeq := message.modSeq
  messageId := message.messageId
  threadId := message.threadId
  internalDate := message.internalDate.toStored
  size := message.size
  saveDate := message.saveDate.map Instant.toStored
  answered := message.flags.answered
  deleted := message.flags.deleted
  draft := message.flags.draft
  flagged := message.flags.flagged
  recent := message.flags.recent
  seen := message.flags.seen

namespace MessageRow

/-- The row of a message whose numbers fit. -/
def encode (message : Message) : MessageRow where
  modSeq := .integer message.modSeq
  messageId := .text message.messageId
  threadId := .text message.threadId
  internalDate := .text message.internalDate.toStored
  size := .integer message.size
  saveDate := (message.saveDate.map fun t => Cell.text t.toStored).getD .null
  answered := ofBool message.flags.answered
  deleted := ofBool message.flags.deleted
  draft := ofBool message.flags.draft
  flagged := ofBool message.flags.flagged
  recent := ofBool message.flags.recent
  seen := ofBool message.flags.seen

/-- A row has no more of a date than its text. -/
@[simp] theorem ofMessage_asWritten (message : Message) :
    ofMessage message.asWritten = ofMessage message := by
  have saved : (message.saveDate.map Instant.asWritten).map (fun t => Cell.text t.toStored)
      = message.saveDate.map fun t => Cell.text t.toStored := by
    cases message.saveDate <;> simp
  simp only [ofMessage, Message.asWritten, saved, Instant.toStored_asWritten]

theorem ofMessage_of_le {message : Message} (modSeq : message.modSeq ≤ maxStored)
    (size : message.size ≤ maxStored) : ofMessage message = .ok (encode message) := by
  unfold ofMessage
  rw [storable_of_le modSeq, storable_of_le size]
  rfl

theorem ofMessage_of_gt {message : Message} (modSeq : message.modSeq ≤ maxStored)
    (size : maxStored < message.size) :
    ofMessage message = .error (.invalidInput (.tooGreat .size message.size)) := by
  unfold ofMessage
  rw [storable_of_le modSeq, storable_of_gt size]
  rfl

/-- A filter admits the columns of a row exactly if it admits its flags. -/
theorem passes_encode {message : Message} {filter : Filter} :
    (encode message).passes filter = filter.admits message.flags := by
  cases filter <;> simp [passes, encode, Filter.admits]

theorem setFlag_encode {message : Message} {flag : SystemFlag} {value : Bool} :
    (encode message).setFlag flag value
      = encode { message with flags := message.flags.set flag value } := by
  cases flag <;> rfl

/-- Assigning to columns assigns to the flags of the message. -/
theorem foldl_setFlag_encode (assignments : List (SystemFlag × Bool)) (message : Message) :
    assignments.foldl (fun row a => row.setFlag a.1 a.2) (encode message)
      = encode { message with
          flags := assignments.foldl (fun flags a => flags.set a.1 a.2) message.flags } := by
  induction assignments generalizing message with
  | nil => rfl
  | cons a rest ih =>
    rw [List.foldl_cons, setFlag_encode, ih, List.foldl_cons]

/-! ### Reading back -/

/-- Every column of a written row has the right type. -/
theorem values_encode {message : Message} :
    (encode message).values = .ok (MessageValues.encode message) := by
  have saved : (encode message).saveDate.readOptionalText
      = .ok (message.saveDate.map Instant.toStored) := by
    show ((message.saveDate.map fun t => Cell.text t.toStored).getD .null).readOptionalText = _
    cases message.saveDate <;> rfl
  unfold values
  rw [saved]
  simp only [encode, Cell.readInteger, Cell.readText, readFlag_ofBool]
  rfl

/-- A row with plain dates is read back as it was written, with the keywords and the content that
are stored for it. -/
theorem read_of_plain {message : Message} (plain : message.HasPlainDates) {place : Place}
    {keywords : NameSet} {content : Option Octets} :
    (MessageValues.encode message).read place keywords (content.map .packed) = .ok {
      message.asWritten with
      mailbox := place.mailbox
      uid := place.uid
      flags := { message.flags with keywords }
      content } := by
  have internal := readDate_toStored plain.1
  have saved : (MessageValues.encode message).saveDate.mapM readDate
      = .ok (message.saveDate.map Instant.asWritten) := by
    show (message.saveDate.map Instant.toStored).mapM readDate = _
    cases h : message.saveDate with
    | none => rfl
    | some t =>
      show (some <$> readDate t.toStored) = _
      rw [readDate_toStored (plain.2 t h)]
      rfl
  unfold MessageValues.read
  rw [saved]
  simp only [MessageValues.encode, internal]
  cases content <;> rfl

/-- A row with some other date cannot be read. -/
theorem read_of_not_plain {message : Message} (signed : ¬ message.HasPlainDates) (place : Place)
    (keywords : NameSet) (content : Option Octets) :
    ∃ text, (MessageValues.encode message).read place keywords (content.map .packed)
      = .error (.corrupted (.date text)) := by
  by_cases internal : message.internalDate.HasPlainYear
  · have saved : ∃ t, message.saveDate = some t ∧ ¬ t.HasPlainYear := by
      have some_date := mt (And.intro internal) signed
      cases h : message.saveDate with
      | none => exact absurd (by rw [h]; rintro t ⟨⟩) some_date
      | some t =>
        refine ⟨t, rfl, fun plain => some_date ?_⟩
        rw [h]
        rintro t ⟨⟩
        exact plain
    obtain ⟨t, found, signed⟩ := saved
    refine ⟨t.toStored, ?_⟩
    have fails : (MessageValues.encode message).saveDate.mapM readDate
        = .error (.corrupted (.date t.toStored)) := by
      show (message.saveDate.map Instant.toStored).mapM readDate = _
      rw [found]
      show (some <$> readDate t.toStored) = _
      rw [readDate_toStored_error signed]
      rfl
    unfold MessageValues.read
    rw [fails]
    simp only [MessageValues.encode, readDate_toStored internal]
    cases content <;> rfl
  · refine ⟨message.internalDate.toStored, ?_⟩
    unfold MessageValues.read
    simp only [MessageValues.encode, readDate_toStored_error internal]
    cases content <;> rfl

end MessageRow

/-! ### Rows of changes -/

/-- The values in the columns of a row that was written for a change. -/
def ChangeValues.encode (draft : ChangeDraft) (state : State) : ChangeValues where
  state
  date := draft.date.toStored
  isCountChange := draft.isCountChange
  isDelegated := draft.isDelegated
  created := writeNameSet draft.created
  updated := writeNameSet draft.updated
  destroyed := writeNameSet draft.destroyed

namespace ChangeRow

variable {draft : ChangeDraft} {expiresAt : Option Instant} {state : State}

/-- Every column of a written row has the right type. -/
theorem values_ofDraft :
    (ofDraft draft expiresAt).values (.integer state) = .ok (.encode draft state) := by
  simp only [values, ofDraft, readFlag_ofBool, Cell.readInteger, Cell.readText]
  rfl

/-- A change with a plain date is read back with its date as it is written. -/
theorem read_of_plain (plain : draft.date.HasPlainYear) :
    (ChangeValues.encode draft state).read draft.account = .ok (draft.asWritten.record state) := by
  unfold ChangeValues.read
  simp only [ChangeValues.encode, readDate_toStored plain, readNameSet_writeNameSet]
  rfl

/-- A change with some other date cannot be read. -/
theorem read_of_not_plain (signed : ¬ draft.date.HasPlainYear) (account : AccountId) :
    (ChangeValues.encode draft state).read account
      = .error (.corrupted (.date draft.date.toStored)) := by
  unfold ChangeValues.read
  simp only [ChangeValues.encode, readDate_toStored_error signed]
  rfl

end ChangeRow

end Database

end Mailroom
