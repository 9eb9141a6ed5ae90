import Mailroom.Proofs.Database.Rows
/-!
Rows of the database that are read back.

Rows whose columns have the right types are read one by one (`selectMessages_eq_mapM`), and a row
that is read back has the flags of the message (`of_readEntry_eq_ok`). So what a page answers of a
row is what the row is found as (`find_of_readEntry`).
-/

namespace Mailroom.Database

open Mirror Mirrors

variable {db : Database} {fetch : Fetch} {place : Place} {message row : Message}

/-- What is read back of one entry. -/
def readEntry (db : Database) (fetch : Fetch) (entry : Place × MessageRow) :
    Except StoreError Message := typedRow entry >>= readRow db fetch

theorem typedRow_encode : typedRow (place, .encode message) = .ok (place, .encode message) := by
  show (do return (place, ← (MessageRow.encode message).values)) = _
  rw [MessageRow.values_encode]
  rfl

/-- A row that was written for a message is read back from its values, with the keywords of its
place and the content that is stored for the message. -/
theorem readEntry_encode : readEntry db fetch (place, .encode message)
    = (MessageValues.encode message).read place (keywordsAt db place) (match fetch with
      | .metadata => none
      | .full => db.contents.get? message.messageId) := by
  unfold readEntry
  rw [typedRow_encode]
  rfl

/-- The columns of every row hold values of the right types. -/
def Typed (messages : Table Place MessageRow) : Prop :=
  ∀ place row, messages.get? place = some row → ∃ values, row.values = .ok values

theorem Encoded.typed {messages : Table Place MessageRow} (encoded : Encoded messages) :
    Typed messages := by
  intro place row found
  obtain ⟨-, message, rfl⟩ := encoded place row found
  exact ⟨_, MessageRow.values_encode⟩

/-- The keywords that are listed for a mailbox are those of its places. -/
theorem mem_keywordsOf {mailbox : MailboxId} {keyword : String} :
    keyword ∈ NameSet.ofList ((db.keywords.filter fun k => k.1.mailbox = mailbox).map (·.2)) ↔
      ∃ place, place.mailbox = mailbox ∧ keyword ∈ keywordsAt db place := by
  simp only [NameSet.mem_ofList, List.mem_map, List.mem_filter, mem_keywordsAt]
  constructor
  · rintro ⟨⟨place, _⟩, ⟨listed, here⟩, rfl⟩
    exact ⟨place, of_decide_eq_true here, listed⟩
  · rintro ⟨place, here, listed⟩
    exact ⟨(place, keyword), ⟨listed, decide_eq_true here⟩, rfl⟩

/-- Chosen rows are read back one after another. -/
theorem selectMessages_eq_mapM {keep : Place → MessageRow → Bool} {limit : Option Nat}
    (typed : Typed db.messages) (exist : requireRelations db (readRelations fetch) = .ok ()) :
    selectMessages db fetch keep limit
      = (cut limit (db.messages.filter keep).entries).mapM (readEntry db fetch) := by
  have rounds : selectMessages db fetch keep limit
      = (cut limit (db.messages.filter keep).entries).mapM typedRow >>= fun rows =>
        rows.mapM (readRow db fetch) := by
    unfold selectMessages
    rw [exist]
    cases limit <;> rfl
  rw [rounds]
  refine Outcomes.mapM_bind_mapM fun entry member => ?_
  have stored := (List.mem_filter.mp (mem_of_mem_cut member)).1
  obtain ⟨values, typed⟩ := typed _ _ (Table.get?_eq_some_iff.mpr stored)
  have typed : typedRow entry = .ok (entry.1, values) := by
    unfold typedRow
    rw [typed]
    rfl
  exact ⟨_, typed, by rw [readEntry, typed, Outcomes.ok_bind]⟩

/-- What is read of a row, from its values, its keywords and its content. -/
theorem readEntry_eq {row : MessageRow} : readEntry db fetch (place, row) = row.values >>=
    fun values => values.read place (keywordsAt db place) (match fetch with
      | .metadata => none
      | .full => db.contents.get? values.messageId) := by
  unfold readEntry typedRow
  cases row.values <;> rfl

/-! ### Columns of the right types -/

theorem Cell.readInteger_eq_ok {cell : Cell} {value : Int} :
    cell.readInteger = .ok value ↔ cell = .integer value := by
  cases cell <;> simp [readInteger]

theorem Cell.readText_eq_ok {cell : Cell} {text : String} :
    cell.readText = .ok text ↔ cell = .text text := by
  cases cell <;> simp [readText]

/-- The columns of a row hold values. -/
structure MessageRow.Holds (row : MessageRow) (values : MessageValues) : Prop where
  modSeq : row.modSeq.readInteger = .ok values.modSeq
  messageId : row.messageId.readText = .ok values.messageId
  threadId : row.threadId.readText = .ok values.threadId
  internalDate : row.internalDate.readText = .ok values.internalDate
  size : row.size.readInteger = .ok values.size
  saveDate : row.saveDate.readOptionalText = .ok values.saveDate
  answered : row.answered.readFlag = .ok values.answered
  deleted : row.deleted.readFlag = .ok values.deleted
  draft : row.draft.readFlag = .ok values.draft
  flagged : row.flagged.readFlag = .ok values.flagged
  recent : row.recent.readFlag = .ok values.recent
  seen : row.seen.readFlag = .ok values.seen

theorem MessageRow.values_eq_ok {row : MessageRow} {values : MessageValues} :
    row.values = .ok values ↔ row.Holds values := by
  unfold MessageRow.values
  constructor
  · intro typed
    obtain ⟨_, modSeq, typed⟩ := Outcomes.bind_eq_ok.mp typed
    obtain ⟨_, messageId, typed⟩ := Outcomes.bind_eq_ok.mp typed
    obtain ⟨_, threadId, typed⟩ := Outcomes.bind_eq_ok.mp typed
    obtain ⟨_, internalDate, typed⟩ := Outcomes.bind_eq_ok.mp typed
    obtain ⟨_, size, typed⟩ := Outcomes.bind_eq_ok.mp typed
    obtain ⟨_, saveDate, typed⟩ := Outcomes.bind_eq_ok.mp typed
    obtain ⟨_, answered, typed⟩ := Outcomes.bind_eq_ok.mp typed
    obtain ⟨_, deleted, typed⟩ := Outcomes.bind_eq_ok.mp typed
    obtain ⟨_, draft, typed⟩ := Outcomes.bind_eq_ok.mp typed
    obtain ⟨_, flagged, typed⟩ := Outcomes.bind_eq_ok.mp typed
    obtain ⟨_, recent, typed⟩ := Outcomes.bind_eq_ok.mp typed
    obtain ⟨_, seen, typed⟩ := Outcomes.bind_eq_ok.mp typed
    cases typed
    exact ⟨modSeq, messageId, threadId, internalDate, size, saveDate, answered, deleted, draft,
      flagged, recent, seen⟩
  · intro holds
    rw [holds.modSeq, holds.messageId, holds.threadId, holds.internalDate, holds.size,
      holds.saveDate, holds.answered, holds.deleted, holds.draft, holds.flagged, holds.recent,
      holds.seen]
    rfl

/-! ### Rows that can be read -/

/-- What is read back from the values of a row: all that the row does not share with others is in
its columns. -/
structure MessageValues.IsReadAs (values : MessageValues) (place : Place) (keywords : NameSet)
    (stored : Option StoredContent) (row : Message) : Prop where
  place_eq : row.place = place
  flags_eq : row.flags = (values.revision keywords).flags
  modSeq_eq : row.modSeq = values.modSeq
  messageId_eq : row.messageId = values.messageId
  size_eq : row.size = values.size
  content_eq : stored.map StoredContent.unpack? = row.content.map some

theorem readNumber_ok {column : Column} {value : Int} {n : Nat}
    (done : readNumber column value = .ok n) : n = value := by
  unfold readNumber at done
  split at done
  · cases done
    rfl
  · cases done

theorem MessageValues.of_read_eq_ok {values : MessageValues} {keywords : NameSet}
    {stored : Option StoredContent} (done : values.read place keywords stored = .ok row) :
    values.IsReadAs place keywords stored row := by
  unfold read at done
  extract_lets next at done
  have rest (content : Option Octets) (unpacked : stored.map StoredContent.unpack?
      = content.map some) (done : next content = .ok row) :
      values.IsReadAs place keywords stored row := by
    obtain ⟨_, stamped, done⟩ := Outcomes.bind_eq_ok.mp done
    obtain ⟨_, -, done⟩ := Outcomes.bind_eq_ok.mp done
    obtain ⟨_, counted, done⟩ := Outcomes.bind_eq_ok.mp done
    obtain ⟨_, -, done⟩ := Outcomes.bind_eq_ok.mp done
    cases done
    exact ⟨rfl, rfl, readNumber_ok stamped, rfl, readNumber_ok counted, unpacked⟩
  split at done
  · exact rest none rfl done
  · rename_i packed
    split at done
    · rename_i content unpacked
      exact rest (some content) (congrArg some unpacked) done
    · cases done

/-- The content of a row, if one is stored for it. -/
def readContent : Option StoredContent → Except StoreError (Option Octets)
  | none => .ok none
  | some stored =>
    match stored.unpack? with
    | some content => .ok (some content)
    | none => .error (.corrupted .content)

/-- The values of a row that is given flags and a modification sequence. -/
def MessageValues.change (values : MessageValues) (flags : Flags) (modSeq : ModSeq) :
    MessageValues :=
  { values with
    modSeq
    answered := flags.answered
    deleted := flags.deleted
    draft := flags.draft
    flagged := flags.flagged
    recent := flags.recent
    seen := flags.seen }

/-- A row that can be read without its content can be read with other flags and another modification
sequence, and as far as its content can be unpacked. -/
theorem MessageValues.read_change {values : MessageValues} {keywords : NameSet}
    (done : values.read place keywords none = .ok row) (flags : Flags) (modSeq : ModSeq)
    (stored : Option StoredContent) :
    (values.change flags modSeq).read place flags.keywords stored
      = (fun content => { row with flags, modSeq, content }) <$> readContent stored := by
  have numbered : (readNumber .modSeq values.modSeq >>= _) = .ok row := done
  obtain ⟨_, -, done⟩ := Outcomes.bind_eq_ok.mp numbered
  obtain ⟨_, internalDate, done⟩ := Outcomes.bind_eq_ok.mp done
  obtain ⟨_, size, done⟩ := Outcomes.bind_eq_ok.mp done
  obtain ⟨_, saveDate, done⟩ := Outcomes.bind_eq_ok.mp done
  cases done
  unfold read change
  dsimp only
  rw [internalDate, size, saveDate]
  cases stored with
  | none => rfl
  | some stored => cases unpacked : stored.unpack? <;> simp [readContent, unpacked] <;> rfl

/-- What is read of a row that can be read, with the content that is stored for it. -/
theorem MessageValues.read_content {values : MessageValues} {keywords : NameSet}
    (done : values.read place keywords none = .ok row) (stored : Option StoredContent) :
    values.read place keywords stored
      = (fun content => { row with content }) <$> readContent stored := by
  have isRead := of_read_eq_ok done
  have same : values.change row.flags row.modSeq = values := by
    rw [isRead.flags_eq, change, isRead.modSeq_eq]
    rfl
  have keywords_eq : row.flags.keywords = keywords := by
    rw [isRead.flags_eq]
    rfl
  have read := read_change done row.flags row.modSeq stored
  rwa [same, keywords_eq] at read

/-- A row that is read back lies where it is stored and has the flags in its columns. -/
theorem of_readEntry_eq_ok (done : readEntry db fetch (place, .encode message) = .ok row) :
    row.place = place ∧ row.flags = { message.flags with keywords := keywordsAt db place } := by
  rw [readEntry_encode] at done
  have isRead := MessageValues.of_read_eq_ok done
  exact ⟨isRead.place_eq, isRead.flags_eq⟩

/-- It is of the message that was stored, and of its size. -/
theorem origin_of_readEntry_eq_ok (done : readEntry db fetch (place, .encode message) = .ok row) :
    row.messageId = message.messageId ∧ row.size = message.size := by
  rw [readEntry_encode] at done
  have isRead := MessageValues.of_read_eq_ok done
  exact ⟨isRead.messageId_eq, Int.ofNat_inj.mp isRead.size_eq⟩

/-- A row that can be read back is found at its number. -/
theorem Store.find_of_readEntry {d : Store} (encoded : d.IsEncoded)
    (exist : requireRelations d.database (readRelations fetch) = .ok ()) {stored : MessageRow}
    (found : d.database.messages.get? place = some stored)
    (read : readEntry d.database fetch (place, stored) = .ok row) :
    d.find place.mailbox place.uid fetch = .ok (some row) := by
  have fits := (encoded place stored found).1
  unfold find
  rw [if_neg (Nat.not_lt.mpr fits), selectMessages_eq_mapM encoded.typed exist, cut,
    Table.entries_filter_key, found]
  show ([(place, stored)].mapM (readEntry d.database fetch) >>= _) = _
  rw [List.mapM_cons, read]
  rfl

end Mailroom.Database
