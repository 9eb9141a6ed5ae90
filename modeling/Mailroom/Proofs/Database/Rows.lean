import Mailroom.Proofs.Mutations
/-!
What the columns of a row in the database say.

Whatever is written, the columns of a row are those that some message is written to, and its number
fits (`Database.Store.mutation_encoded`). So the values of a row can be read, but for instants
before the first year.
-/

namespace Mailroom

namespace Database

/-- The rows of a relation have columns that messages were written to, and numbers that fit. -/
def Encoded (messages : Table Place MessageRow) : Prop :=
  ∀ place row, messages.get? place = some row →
    place.uid ≤ maxStored ∧ ∃ message, row = .encode message

theorem Encoded.insert {messages : Table Place MessageRow} (encoded : Encoded messages)
    {place : Place} (fits : place.uid ≤ maxStored) (message : Message) :
    Encoded (messages.insert place (.encode message)) := by
  intro other row stored
  rw [Table.get?_insert] at stored
  split at stored
  · rename_i same
    cases stored
    exact ⟨same ▸ fits, message, rfl⟩
  · exact encoded other row stored

theorem Encoded.filter {messages : Table Place MessageRow} (encoded : Encoded messages)
    (keep : Place → MessageRow → Bool) : Encoded (messages.filter keep) := by
  intro place row stored
  rw [Table.get?_filter, Option.filter_eq_some_iff] at stored
  exact encoded place row stored.1

/-- Resetting rows writes to them what is written for messages that are not recent. -/
theorem Encoded.reset {messages : Table Place MessageRow} (encoded : Encoded messages)
    (chosen : Place → Bool) (modSeq : ModSeq) :
    Encoded (messages.mapValues fun place row =>
      if chosen place then { row with recent := .integer 0, modSeq := .integer modSeq }
      else row) := by
  intro place row stored
  rw [Table.get?_mapValues] at stored
  obtain ⟨before, found, rfl⟩ := Option.map_eq_some_iff.mp stored
  obtain ⟨fits, message, rfl⟩ := encoded place before found
  refine ⟨fits, ?_⟩
  split
  · exact ⟨{ message with flags := { message.flags with recent := false }, modSeq }, rfl⟩
  · exact ⟨message, rfl⟩

theorem storable_eq_ok {column : Column} {value : Nat} {cell : Cell} :
    storable column value = .ok cell ↔ value ≤ maxStored ∧ cell = .integer value := by
  by_cases fits : value ≤ maxStored
  · rw [storable_of_le fits]
    simp [fits, eq_comm]
  · rw [storable_of_gt (Nat.not_le.mp fits)]
    simp [fits]

/-- A message that is written is written to its columns. -/
theorem MessageRow.of_ofMessage_eq_ok {message : Message} {row : MessageRow}
    (written : ofMessage message = .ok row) : row = .encode message := by
  obtain ⟨_, modSeq, done⟩ := Outcomes.bind_eq_ok.mp written
  obtain ⟨_, size, done⟩ := Outcomes.bind_eq_ok.mp done
  obtain ⟨-, rfl⟩ := storable_eq_ok.mp modSeq
  obtain ⟨-, rfl⟩ := storable_eq_ok.mp size
  cases done
  rfl

theorem insertKeywords_messages {db after : Database} {place : Place} {keywords : NameSet}
    (done : insertKeywords db place keywords = .ok after) : after.messages = db.messages := by
  obtain ⟨_, -, done⟩ := Outcomes.bind_eq_ok.mp done
  cases done
  rfl

theorem editKeywords_messages {db after : Database} {place : Place} {edit : KeywordEdit}
    (done : editKeywords db place edit = .ok after) : after.messages = db.messages := by
  cases edit with
  | keep =>
    cases done
    rfl
  | append added => exact insertKeywords_messages done
  | remove removed =>
    obtain ⟨_, -, done⟩ := Outcomes.bind_eq_ok.mp done
    cases done
    rfl
  | replace replacement =>
    obtain ⟨_, -, done⟩ := Outcomes.bind_eq_ok.mp done
    have same := insertKeywords_messages done
    exact same

namespace Store

/-- The rows have columns that messages were written to. -/
def IsEncoded (d : Store) : Prop := Encoded d.database.messages

/-- Removing contents touches nothing else. -/
theorem collectContents_ok {d : Store} {db after : Database} {ids : NameSet}
    (done : d.collectContents db ids = .ok after) :
    after = { db with contents := after.contents } := by
  unfold collectContents at done
  split at done
  · cases done
    rfl
  · obtain ⟨_, -, done⟩ := Outcomes.bind_eq_ok.mp done
    obtain ⟨_, -, done⟩ := Outcomes.bind_eq_ok.mp done
    cases done
    rfl

/-- Storing a content touches nothing else. -/
theorem storeContent_ok {db after : Database} {message : Message}
    (done : (match message.content with
      | none => pure db
      | some content => do
        requireRelations db [.contents]
        if (db.contents.get? message.messageId).isSome then return db
        return { db with contents := db.contents.insert message.messageId (.packed content) } :
        Except StoreError Database) = .ok after) :
    after = { db with contents := after.contents } := by
  split at done
  · cases done
    rfl
  · obtain ⟨_, -, done⟩ := Outcomes.bind_eq_ok.mp done
    split at done <;>
      cases done <;>
      rfl

theorem insertRow_messages {d : Store} {message : Message} {row : MessageRow} {after : Database}
    (done : d.insertRow message row = .ok after) :
    after.messages = d.database.messages.insert message.place row := by
  unfold insertRow at done
  obtain ⟨_, -, done⟩ := Outcomes.bind_eq_ok.mp done
  by_cases taken : (d.database.messages.get? message.place).isSome = true
  · simp only [if_pos taken] at done
    cases done
  · simp only [if_neg taken] at done
    split at done
    · rw [storeContent_ok done]
    · obtain ⟨_, added, done⟩ := Outcomes.bind_eq_ok.mp done
      rw [storeContent_ok done]
      exact insertKeywords_messages added

theorem insertChange_messages {draft : ChangeDraft} {expiresAt : Option Instant}
    {db after : Database} {state : Int}
    (done : insertChange draft expiresAt db = .ok (state, after)) :
    after.messages = db.messages := by
  have heads {advanced : Database} {state : Int}
      (done : advanceHeads db draft.account draft.isDelegated = .ok (state, advanced)) :
      advanced.messages = db.messages := by
    obtain ⟨_, -, done⟩ := Outcomes.bind_eq_ok.mp done
    split at done
    · cases done
      rfl
    · rename_i row _
      by_cases last : (maxStored : Int) ≤ row.latest
      · simp only [if_pos last] at done
        cases done
      · simp only [if_neg last] at done
        cases done
        rfl
  obtain ⟨⟨_, advanced⟩, first, done⟩ := Outcomes.bind_eq_ok.mp done
  obtain ⟨_, -, done⟩ := Outcomes.bind_eq_ok.mp done
  have same := heads first
  simp only at done
  split at done
  · cases done
  · cases done
    exact same

/-- Rows stay as messages were written to them. -/
def KeepsRows (d after : Store) : Prop := d.IsEncoded → after.IsEncoded

theorem keepsRows_chains : Chains KeepsRows := keeps_chains IsEncoded

/-- A transaction keeps rows as they are written if it leaves such rows. -/
theorem transaction_keepsRows {α : Type} {f : Store → Except StoreError (α × Database)}
    (keeps : ∀ {d a db}, d.IsEncoded → f d = .ok (a, db) → Encoded db.messages) :
    (transaction f).Within KeepsRows := by
  refine .write keepsRows_chains fun done encoded => ?_
  split at done
  · cases done
  · obtain ⟨⟨_, db⟩, committed, done⟩ := Outcomes.bind_eq_ok.mp done
    cases done
    exact keeps encoded committed

theorem compileKeyword_keepsRows (reached : Database → Bool) :
    (compileKeyword reached).Within KeepsRows :=
  .write keepsRows_chains fun done encoded => by
    cases done
    exact encoded

theorem insert_keepsRows (message : Message) : (insert message).Within KeepsRows := by
  refine .check_bind keepsRows_chains fun _ fits => ?_
  refine .check_bind keepsRows_chains fun row written => ?_
  refine .bind keepsRows_chains (compileKeyword_keepsRows _) fun _ => ?_
  refine transaction_keepsRows fun encoded done => ?_
  obtain ⟨_, inserted, done⟩ := Outcomes.bind_eq_ok.mp done
  cases done
  rw [insertRow_messages inserted, MessageRow.of_ofMessage_eq_ok written]
  exact encoded.insert (storable_eq_ok.mp fits).1 message

theorem updateFlags_keepsRows (mailbox : MailboxId) (uid : Uid) (edit : FlagEdit) (modSeq : ModSeq)
    (expected : Option ModSeq) :
    (updateFlags mailbox uid edit modSeq expected).Within KeepsRows := by
  refine .check_bind keepsRows_chains fun _ stored => ?_
  obtain ⟨-, rfl⟩ := storable_eq_ok.mp stored
  split
  · exact .fail keepsRows_chains _
  rename_i fits
  refine .bind keepsRows_chains (compileKeyword_keepsRows _) fun _ => ?_
  refine transaction_keepsRows fun {d _ _} encoded done => ?_
  obtain ⟨_, -, done⟩ := Outcomes.bind_eq_ok.mp done
  split at done
  · cases done
  rename_i row found
  obtain ⟨edited, keywords, done⟩ := Outcomes.bind_eq_ok.mp done
  have same := editKeywords_messages keywords
  obtain ⟨message, written⟩ := (encoded _ row (Option.filter_eq_some_iff.mp found).1).2
  rw [written] at same
  have flags := MessageRow.foldl_setFlag_encode edit.assignments { message with modSeq }
  have after := same.trans (congrArg (d.database.messages.insert ⟨mailbox, uid⟩) flags)
  obtain ⟨_, -, done⟩ := Outcomes.bind_eq_ok.mp done
  split at done
  · cases done
    rw [after]
    exact encoded.insert (Nat.not_lt.mp fits) _
  · cases done

theorem resetBatch_encoded {mailbox : MailboxId} {uids : List Uid} {modSeq : ModSeq} {d : Store}
    {outcome : RecentReset} {after : Database} (encoded : d.IsEncoded)
    (done : Mirror.resetBatch mailbox uids modSeq d = .ok (outcome, after)) :
    Encoded after.messages := by
  obtain ⟨_, -, done⟩ := Outcomes.bind_eq_ok.mp done
  obtain ⟨⟨missing, applied, changing⟩, -, done⟩ := Outcomes.bind_eq_ok.mp done
  simp only at done
  split at done
  · cases done
    exact encoded
  · obtain ⟨_, -, done⟩ := Outcomes.bind_eq_ok.mp done
    obtain ⟨_, -, done⟩ := Outcomes.bind_eq_ok.mp done
    cases done
    exact encoded.reset (fun place => place.mailbox = mailbox && changing.contains place.uid) modSeq

theorem resetRecent_keepsRows (mailbox : MailboxId) (uids : List Uid) (modSeq : ModSeq) :
    (resetRecent mailbox uids modSeq).Within KeepsRows := by
  by_cases fits : modSeq ≤ maxStored
  · by_cases empty : uids = []
    · rw [empty]
      exact .pure keepsRows_chains _
    · rw [Mirror.resetRecent_eq mailbox empty fits]
      exact transaction_keepsRows resetBatch_encoded
  · unfold resetRecent
    split
    · exact .pure keepsRows_chains _
    · rw [storable_of_gt (Nat.not_le.mp fits), Step.check_error_bind]
      exact .fail keepsRows_chains _

theorem removed_encoded {d : Store} {db after : Database} (encoded : Encoded db.messages)
    {remove : Place → MessageRow → Bool} {ids : NameSet}
    (done : d.collectContents (removeMessages db remove) ids = .ok after) :
    Encoded after.messages := by
  rw [collectContents_ok done]
  exact encoded.filter _

theorem allocate_keepsRows {mailbox : MailboxId} {sequence : Sequence}
    {bump : CounterRow → Counter × CounterRow} :
    (allocate mailbox sequence bump).Within KeepsRows := by
  refine allocate_within keepsRows_chains (transaction_keepsRows fun encoded done => ?_)
  cases done
  exact encoded

/-- Every write leaves rows as they are written. -/
theorem run_encoded (write : Write) {d : Store} (encoded : d.IsEncoded) :
    (write.run d).IsEncoded := by
  cases write with
  | nextUid mailbox =>
    show (nextUid mailbox d).2.IsEncoded
    exact allocate_keepsRows d encoded
  | nextModSeq mailbox =>
    show (nextModSeq mailbox d).2.IsEncoded
    exact allocate_keepsRows d encoded
  | insert message => exact insert_keepsRows message d encoded
  | updateFlags mailbox uid edit modSeq expected =>
    exact updateFlags_keepsRows mailbox uid edit modSeq expected d encoded
  | resetRecent mailbox uids modSeq => exact resetRecent_keepsRows mailbox uids modSeq d encoded
  | deleteBatch mailbox uids =>
    show IsEncoded (deleteBatch mailbox uids d).2
    unfold deleteBatch
    simp only
    split
    · exact encoded
    · refine transaction_keepsRows (fun encoded done => ?_) d encoded
      obtain ⟨_, -, done⟩ := Outcomes.bind_eq_ok.mp done
      obtain ⟨_, collected, done⟩ := Outcomes.bind_eq_ok.mp done
      cases done
      exact removed_encoded encoded collected
  | deleteMailbox mailbox =>
    refine transaction_keepsRows (fun encoded done => ?_) d encoded
    obtain ⟨_, -, done⟩ := Outcomes.bind_eq_ok.mp done
    obtain ⟨_, -, done⟩ := Outcomes.bind_eq_ok.mp done
    obtain ⟨_, collected, done⟩ := Outcomes.bind_eq_ok.mp done
    cases done
    exact removed_encoded encoded collected
  | deleteMessage id =>
    refine transaction_keepsRows (fun encoded done => ?_) d encoded
    obtain ⟨_, -, done⟩ := Outcomes.bind_eq_ok.mp done
    obtain ⟨_, collected, done⟩ := Outcomes.bind_eq_ok.mp done
    cases done
    exact removed_encoded encoded collected
  | appendChange draft expiresAt =>
    have inserts :
        (transaction fun d => insertChange draft expiresAt d.database).Within KeepsRows :=
      transaction_keepsRows fun encoded done => (insertChange_messages done).symm ▸ encoded
    refine Step.Within.bind keepsRows_chains inserts (fun _ => ?_) d encoded
    exact .bind keepsRows_chains (.check keepsRows_chains _) fun _ => .pure keepsRows_chains _
  | purgeExpired now =>
    refine Step.Within.bind keepsRows_chains (.of_pure keepsRows_chains fun _ => rfl) (fun _ => ?_)
      d encoded
    refine transaction_keepsRows fun encoded done => ?_
    cases done
    exact encoded

/-- Bringing a database up to date creates relations and touches no other. -/
theorem migrate?_eq {db migrated : Database} (done : migrate? db = some migrated) :
    migrated = { db with missing := migrated.missing, version := migrated.version } := by
  have creates (relations : List (List Relation)) : ∀ {db created : Database},
      relations.foldlM createRelations db = some created →
        created = { db with missing := created.missing } := by
    induction relations with
    | nil =>
      intro db created done
      cases done
      rfl
    | cons first rest ih =>
      intro db created done
      obtain ⟨middle, one, done⟩ := Option.bind_eq_some_iff.mp done
      unfold createRelations at one
      split at one
      · have same := ih done
        cases one
        exact same
      · cases one
  unfold migrate? at done
  split at done
  · obtain ⟨created, all, rfl⟩ := Option.map_eq_some_iff.mp done
    rw [creates _ all]
  · cases done

theorem open_eq {db : Database} {path : String} {listBound : Nat} {d : Store}
    (done : Store.open db path listBound = .ok d) :
    d.database = { db with missing := d.database.missing, version := d.database.version } := by
  unfold Store.open at done
  split at done
  · rename_i migrated
    cases done
    exact migrate?_eq migrated
  · cases done

theorem empty_encoded : Encoded .empty := by
  intro place row stored
  rw [Table.get?_empty] at stored
  cases stored

/-- A database that is opened again where it was is the same but for its relations. -/
theorem reopen_database {d reopened : Store} (inPlace : d.fileMoved = false)
    (done : d.reopen = .ok reopened) :
    reopened.database = { d.database with
      missing := reopened.database.missing, version := reopened.database.version } := by
  unfold reopen at done
  rw [if_neg (Bool.eq_false_iff.mp inPlace)] at done
  split at done
  · cases done
  · cases first : Store.open d.database d.path d.listBound with
    | error e =>
      rw [first] at done
      cases done
    | ok opened =>
      rw [first] at done
      cases done
      have same := open_eq first
      exact same

theorem reopen_encoded {d reopened : Store} (encoded : d.IsEncoded)
    (done : d.reopen = .ok reopened) : reopened.IsEncoded := by
  unfold IsEncoded
  by_cases moved : d.fileMoved = true
  · unfold reopen at done
    rw [if_pos moved] at done
    rw [open_eq done]
    exact empty_encoded
  · rw [reopen_database (Bool.eq_false_iff.mpr moved) done]
    exact encoded

theorem new_encoded (path : String) (listBound : Nat) : (new path listBound).IsEncoded :=
  empty_encoded

theorem mutation_encoded (mutation : Mutation Incident) (d : Store) (encoded : d.IsEncoded) :
    (mutation.run d).IsEncoded := by
  cases mutation with
  | written write => exact run_encoded write encoded
  | suffered incident =>
    cases incident with
    | lock held => exact encoded
    | reopen =>
      show (Incident.befall .reopen d).IsEncoded
      cases done : d.reopen with
      | error _ =>
        simp only [Incident.befall, done]
        exact encoded
      | ok reopened =>
        simp only [Incident.befall, done]
        exact reopen_encoded encoded done

end Store

end Database

end Mailroom
