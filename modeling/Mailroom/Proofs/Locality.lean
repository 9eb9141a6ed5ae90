import Mailroom.Proofs.Database.Rows
import Mailroom.Proofs.Failures.Stores
import Mailroom.Proofs.Memory.Places
/-!
Where the writes of a store reach.

`Confined` says that nothing but rows at some places, and contents, differs. A write of rows is
confined to the rows that it names, or to those of the message that it names
(`Confines`): whatever stands in a database, and in memory as long as every row lies at its own
place.
-/

namespace Mailroom

open Service

variable {σ : Type}

/-- Counters are as they were, and so is what stands anywhere but at some places. -/
structure Confined [Kept σ] (touched : Place → Prop) (store after : σ) : Prop where
  counters : Kept.countersOf after = Kept.countersOf store
  rows : ∀ place, ¬ touched place → SameRow place store after

theorem confined_chains [Kept σ] (touched : Place → Prop) :
    Chains (Confined (σ := σ) touched) where
  refl _ := ⟨rfl, fun _ _ => rfl⟩
  trans first second := {
    counters := second.counters.trans first.counters
    rows := fun place apart =>
      (sameRow_chains place).trans (first.rows place apart) (second.rows place apart) }

theorem Confined.mono [Kept σ] {touched more : Place → Prop} {store after : σ}
    (confined : Confined touched store after) (among : ∀ place, touched place → more place) :
    Confined more store after where
  counters := confined.counters
  rows place apart := confined.rows place (mt (among place) apart)

/-- A store whose writes are confined to the rows that they name. -/
class Confines (σ : Type) [Storage σ] [Kept σ] where
  /-- The rows of the store are where they are looked for. -/
  isOrderly : σ → Prop
  orderly : Operations σ fun store after => isOrderly store → isOrderly after
  insert : ∀ message, (Storage.insert message : Step σ Unit).Within (Confined (· = message.place))
  updateFlags : ∀ mailbox uid edit modSeq expected,
    (Storage.updateFlags mailbox uid edit modSeq expected : Step σ Metadata).Within
      (Confined (· = ⟨mailbox, uid⟩))
  resetRecent : ∀ mailbox uids modSeq, uids.Pairwise (· < ·) →
    (Storage.resetRecent mailbox uids modSeq : Step σ RecentReset).Within
      (Confined fun place => place.mailbox = mailbox ∧ place.uid ∈ uids)
  deleteBatch : ∀ mailbox uids,
    (Storage.deleteBatch mailbox uids : Step σ (List Metadata)).Within
      (Confined fun place => place.mailbox = mailbox ∧ place.uid ∈ uids)
  deleteMessage : ∀ id (store : σ), isOrderly store →
    Confined (fun place => IsLinked store id place.mailbox) store
      (Storage.deleteMessage id store).2
  /-- Counters do not tell which mailboxes hold a message. -/
  isLinked_same : ∀ {store after : σ} {id mailbox}, SameButCounters store after →
    IsLinked after id mailbox → IsLinked store id mailbox
  /-- No mailbox that holds a message is left out. -/
  findMailboxes : ∀ {id mailboxes} {store after : σ}, isOrderly store →
    Storage.findMailboxes id store = (.ok mailboxes, after) →
    ∀ mailbox, IsLinked store id mailbox → mailbox ∈ mailboxes

export Confines (isOrderly)

/-- Whatever is written, rows stay where they are looked for. -/
theorem Confines.writes [Storage σ] [Kept σ] [Confines σ] :
    Writes σ (fun _ => True) fun store after => isOrderly store → isOrderly after :=
  writes_of_operations (keeps_chains isOrderly) Confines.orderly

/-- A store that keeps its rows and counters when something happens to it, unless it is lost. -/
class Endures (σ : Type) {ι : Type} [Storage σ] [Kept σ] [Confines σ] [Exposed σ ι] where
  /-- The store is still there after an incident. -/
  isEndured : ι → σ → Prop
  befall : ∀ incident (store : σ), isEndured incident store → isOrderly store →
    isOrderly (befall incident store) ∧
      Confined (fun _ => False) store (befall incident store)

export Endures (isEndured)

/-- Operations are kept within a relation by a fact about every write. -/
theorem Operations.of_writes [Storage σ] {R : σ → σ → Prop}
    (writes : ∀ (write : Write) store, R store (write.run store)) : Operations σ R where
  nextUid mailbox := writes (.nextUid mailbox)
  nextModSeq mailbox := writes (.nextModSeq mailbox)
  insert message := writes (.insert message)
  updateFlags mailbox uid edit modSeq expected :=
    writes (.updateFlags mailbox uid edit modSeq expected)
  resetRecent mailbox uids modSeq _ _ := writes (.resetRecent mailbox uids modSeq)
  deleteBatch mailbox uids _ := writes (.deleteBatch mailbox uids)
  deleteMailbox mailbox := writes (.deleteMailbox mailbox)
  deleteMessage id := writes (.deleteMessage id)
  appendChange draft expiresAt := writes (.appendChange draft expiresAt)
  purgeExpired now := writes (.purgeExpired now)

/-! ### Memory -/

namespace Memory.Store

variable {m : Store} {place : Place} {row : Message}

/-- Storing a row at a place leaves what stands elsewhere. -/
theorem confined_insert {contents : Table MessageId Octets} :
    Confined (· = place) m { m with rows := m.rows.insert place row, contents } where
  counters := rfl
  rows _ apart := Table.get?_insert.trans (if_neg (Ne.symm apart))

/-- Removing rows leaves those that stay. -/
theorem confined_keepRows {touched : Place → Prop} {keep : Place → Message → Bool}
    (stays : ∀ place row, m.rows.get? place = some row → ¬ touched place → keep place row = true) :
    Confined touched m (m.keepRows keep) where
  counters := rfl
  rows place apart := get?_keepRows fun row found => stays place row found apart

/-- Removing a message is confined to its rows. -/
theorem deleteMessage_confined (id : MessageId) (m : Store) :
    Confined (fun place => ∃ row, m.rows.get? place = some row ∧ row.messageId = id) m
      (Storage.deleteMessage id m).2 := by
  show Confined _ m (Step.write (deleteMessage id) m).2
  cases outcome : m.deleteMessage id with
  | error e =>
    rw [Step.write_of_error outcome]
    exact (confined_chains _).refl m
  | ok answer =>
    have kept : Confined (fun place => ∃ row, m.rows.get? place = some row ∧ row.messageId = id) m
        (m.keepRows fun _ row => row.messageId ≠ id) :=
      confined_keepRows fun place row found apart =>
        decide_eq_true fun same => apart ⟨row, found, same⟩
    rw [Step.write_of_ok outcome, deleteMessage_ok outcome]
    exact ⟨kept.counters, kept.rows⟩

instance : Confines Store where
  isOrderly := IsKeyed
  orderly := .of_writes fun write _ keyed => run_keyed write keyed
  insert _ := .write (confined_chains _) fun done => by
    obtain ⟨-, -, rfl⟩ := insert_ok done
    exact confined_insert
  updateFlags _ _ _ _ _ := .write (confined_chains _) fun done => by
    obtain ⟨-, _, -, -, -, rfl⟩ := updateFlags_ok done
    exact confined_insert
  resetRecent _ _ _ ascending := .write (confined_chains _) fun done => by
    obtain ⟨-, rfl⟩ := resetRecent_ok (ascending.imp Nat.ne_of_lt) done
    exact ⟨rfl, fun place apart => get?_resetStore fun here pending =>
      apart ⟨here, (mem_pending.mp pending).1⟩⟩
  deleteBatch mailbox uids := .write (confined_chains _) fun done => by
    rw [deleteBatch_ok done]
    refine confined_keepRows fun place _ _ apart => ?_
    rw [Bool.not_eq_true']
    exact Bool.eq_false_iff.mpr fun named => apart (by simpa using named)
  deleteMessage id m keyed := (deleteMessage_confined id m).mono fun place ⟨row, found, same⟩ =>
    ⟨row, Table.mem_values_iff.mpr ⟨place, found⟩, same,
      congrArg Place.mailbox (keyed place row found)⟩
  isLinked_same {m after id mailbox} same linked := by
    change after = { m with counters := after.counters } at same
    rw [same] at linked
    exact linked
  findMailboxes {id mailboxes m after} _ found mailbox linked := by
    obtain ⟨_, -, answered⟩ := Outcomes.bind_eq_ok.mp (Prod.mk.inj found).1
    cases answered
    obtain ⟨row, listed, same, here⟩ := linked
    obtain ⟨place, stored⟩ := Table.mem_values_iff.mp listed
    refine NameSet.mem_ofList.mpr (List.mem_map.mpr ⟨row, ?_, here⟩)
    refine Table.mem_values_iff.mpr ⟨place, ?_⟩
    rw [Table.get?_filter, stored]
    exact Option.filter_some_pos (decide_eq_true same)

/-- Removing a mailbox is confined to its rows. -/
theorem deleteMailbox_confined (mailbox : MailboxId) :
    (Storage.deleteMailbox mailbox : Step Store (List MessageId)).Within
      (Confined fun place => place.mailbox = mailbox) :=
  .write (confined_chains _) fun done => by
    rw [deleteMailbox_ok done]
    exact confined_keepRows fun _ _ _ apart => decide_eq_true apart

instance : Endures Store where
  isEndured _ _ := True
  befall | .switch _, _, _, keyed => ⟨keyed, rfl, fun _ _ => rfl⟩

end Memory.Store

/-! ### The database -/

namespace Database

variable {db after : Database} {place : Place}

/-- Nothing but rows at some places, and contents, differs in a database. -/
structure LeavesRows (touched : Place → Prop) (db after : Database) : Prop where
  counters : after.counters = db.counters
  messages : ∀ place, ¬ touched place → after.messages.get? place = db.messages.get? place
  keywords : ∀ place, ¬ touched place →
    after.keywords.filter (·.1 = place) = db.keywords.filter (·.1 = place)

namespace LeavesRows

variable {touched : Place → Prop}

theorem refl (touched : Place → Prop) (db : Database) : LeavesRows touched db db :=
  ⟨rfl, fun _ _ => rfl, fun _ _ => rfl⟩

theorem trans {middle : Database} (first : LeavesRows touched db middle)
    (second : LeavesRows touched middle after) : LeavesRows touched db after where
  counters := second.counters.trans first.counters
  messages place apart := (second.messages place apart).trans (first.messages place apart)
  keywords place apart := (second.keywords place apart).trans (first.keywords place apart)

/-- Storing a row leaves the others. -/
theorem insert (place : Place) (row : MessageRow) :
    LeavesRows (· = place) db { db with messages := db.messages.insert place row } where
  counters := rfl
  messages _ apart := Table.get?_insert.trans (if_neg (Ne.symm apart))
  keywords _ _ := rfl

/-- Contents belong to no row. -/
theorem of_contents (same : after = { db with contents := after.contents }) :
    LeavesRows touched db after := by
  rw [same]
  exact ⟨rfl, fun _ _ => rfl, fun _ _ => rfl⟩

theorem insertKeywords {keywords : NameSet}
    (done : Database.insertKeywords db place keywords = .ok after) :
    LeavesRows (· = place) db after := by
  obtain ⟨_, -, done⟩ := Outcomes.bind_eq_ok.mp done
  cases done
  refine ⟨rfl, fun _ _ => rfl, fun other apart => ?_⟩
  have none_added : ∀ added : List String,
      (added.map fun keyword => (place, keyword)).filter (·.1 = other) = [] := by
    intro added
    rw [List.filter_eq_nil_iff]
    intro keyword member
    obtain ⟨_, -, rfl⟩ := List.mem_map.mp member
    exact fun same => apart (of_decide_eq_true same).symm
  show (db.keywords ++ _).filter _ = _
  rw [List.filter_append, none_added, List.append_nil]

/-- Keywords that are taken from one row leave those of the others. -/
theorem filterKeywords {keep : Place × String → Bool}
    (stays : ∀ keyword, keyword.1 ≠ place → keep keyword = true) :
    LeavesRows (· = place) db { db with keywords := db.keywords.filter keep } := by
  refine ⟨rfl, fun _ _ => rfl, fun other apart => ?_⟩
  show (db.keywords.filter keep).filter _ = _
  rw [List.filter_filter]
  refine List.filter_congr fun keyword _ => ?_
  by_cases here : keyword.1 = other
  · rw [stays keyword (here ▸ apart), Bool.and_true]
  · rw [decide_eq_false here, Bool.false_and]

theorem editKeywords {edit : KeywordEdit}
    (done : Database.editKeywords db place edit = .ok after) :
    LeavesRows (· = place) db after := by
  cases edit with
  | keep =>
    cases done
    exact refl _ _
  | append added => exact insertKeywords done
  | remove removed =>
    obtain ⟨_, -, done⟩ := Outcomes.bind_eq_ok.mp done
    cases done
    exact filterKeywords fun keyword apart => by simp [apart]
  | replace replacement =>
    obtain ⟨_, -, done⟩ := Outcomes.bind_eq_ok.mp done
    exact trans (filterKeywords fun keyword apart => decide_eq_true apart) (insertKeywords done)

/-- Removing rows, and then contents, leaves the rows that stay. -/
theorem removeMessages {d : Store} {ids : NameSet} {remove : Place → MessageRow → Bool}
    (stays : ∀ place row, db.messages.get? place = some row → ¬ touched place →
      remove place row = false)
    (done : d.collectContents (Database.removeMessages db remove) ids = .ok after) :
    LeavesRows touched db after := by
  have removed : LeavesRows touched db (Database.removeMessages db remove) := {
    counters := rfl
    messages := fun place apart =>
      (Store.rowAt_removeMessages fun row found => stays place row found apart).1
    keywords := fun place apart =>
      (Store.rowAt_removeMessages fun row found => stays place row found apart).2 }
  exact removed.trans (.of_contents (Store.collectContents_ok done))

/-- A new row leaves the others. -/
theorem insertRow {d : Store} {message : Message} {row : MessageRow}
    (done : d.insertRow message row = .ok after) :
    LeavesRows (· = message.place) d.database after := by
  unfold Store.insertRow at done
  obtain ⟨_, -, done⟩ := Outcomes.bind_eq_ok.mp done
  by_cases taken : (d.database.messages.get? message.place).isSome = true
  · simp only [if_pos taken] at done
    cases done
  · simp only [if_neg taken] at done
    split at done
    · exact trans (insert message.place row) (.of_contents (Store.storeContent_ok done))
    · obtain ⟨_, added, done⟩ := Outcomes.bind_eq_ok.mp done
      have keyworded := trans (insert message.place row) (insertKeywords added)
      exact keyworded.trans (.of_contents (Store.storeContent_ok done))

end LeavesRows

namespace Store

variable {α : Type} {d : Store} {mailbox : MailboxId} {uids : List Uid}

/-- A database whose rows are left is confined to those that are not. -/
theorem confined_of_leavesRows {touched : Place → Prop} {db : Database}
    (leaves : LeavesRows touched d.database db) :
    Confined touched d { d with database := db } where
  counters := by
    show (fun mailbox => ((db.counters.get? mailbox).getD {})) = _
    rw [leaves.counters]
    rfl
  rows place apart := Prod.ext (leaves.messages place apart) (leaves.keywords place apart)

/-- A transaction is confined to the rows that it does not leave. -/
theorem transaction_confined {touched : Place → Prop}
    {f : Store → Except StoreError (α × Database)}
    (leaves : ∀ {a db}, f d = .ok (a, db) → LeavesRows touched d.database db) :
    Confined touched d (transaction f d).2 := by
  rcases done : transaction f d with ⟨e | a, after⟩
  · exact transaction_error done ▸ (confined_chains touched).refl d
  · obtain ⟨db, committed, rfl⟩ := transaction_ok done
    exact confined_of_leavesRows (leaves committed)

theorem compileKeyword_confined (touched : Place → Prop) (reached : Database → Bool) :
    (compileKeyword reached).Within (Confined touched) :=
  .write (confined_chains touched) fun done => by
    cases done
    exact ⟨rfl, fun _ _ => rfl⟩

theorem insert_confined (message : Message) :
    (insert message).Within (Confined (· = message.place)) := by
  have chains : Chains (Confined (σ := Store) (· = message.place)) := confined_chains _
  refine .check_bind chains fun _ _ => .check_bind chains fun row _ => ?_
  refine .bind chains (compileKeyword_confined _ _) fun _ _ => transaction_confined fun done => ?_
  obtain ⟨_, inserted, done⟩ := Outcomes.bind_eq_ok.mp done
  cases done
  exact .insertRow inserted

theorem updateFlags_confined (mailbox : MailboxId) (uid : Uid) (edit : FlagEdit) (modSeq : ModSeq)
    (expected : Option ModSeq) :
    (updateFlags mailbox uid edit modSeq expected).Within (Confined (· = ⟨mailbox, uid⟩)) := by
  have chains : Chains (Confined (σ := Store) (· = ⟨mailbox, uid⟩)) := confined_chains _
  refine .check_bind chains fun _ _ => ?_
  split
  · exact .fail chains _
  refine .bind chains (compileKeyword_confined _ _) fun _ _ => transaction_confined fun done => ?_
  obtain ⟨_, -, done⟩ := Outcomes.bind_eq_ok.mp done
  split at done
  · cases done
  obtain ⟨_, edited, done⟩ := Outcomes.bind_eq_ok.mp done
  obtain ⟨_, -, done⟩ := Outcomes.bind_eq_ok.mp done
  split at done
  · cases done
    exact (LeavesRows.insert _ _).trans (.editKeywords edited)
  · cases done

/-- A reset gives no number out. -/
theorem counters_resetBatch {modSeq : ModSeq} {outcome : RecentReset} {db : Database}
    (done : Mirror.resetBatch mailbox uids modSeq d = .ok (outcome, db)) :
    db.counters = d.database.counters := by
  obtain ⟨_, -, done⟩ := Outcomes.bind_eq_ok.mp done
  obtain ⟨⟨missing, applied, changing⟩, -, done⟩ := Outcomes.bind_eq_ok.mp done
  simp only at done
  split at done
  · cases done
    rfl
  · obtain ⟨_, -, done⟩ := Outcomes.bind_eq_ok.mp done
    obtain ⟨_, -, done⟩ := Outcomes.bind_eq_ok.mp done
    cases done
    rfl

theorem resetRecent_confined (mailbox : MailboxId) (uids : List Uid) (modSeq : ModSeq) :
    (resetRecent mailbox uids modSeq).Within
      (Confined fun place => place.mailbox = mailbox ∧ place.uid ∈ uids) := by
  by_cases fits : modSeq ≤ maxStored
  · by_cases empty : uids = []
    · rw [empty]
      exact .pure (confined_chains _) _
    · rw [Mirror.resetRecent_eq mailbox empty fits]
      refine transaction_within (confined_chains _) fun done => ⟨?_, fun place apart => ?_⟩
      · have same := counters_resetBatch done
        show (fun mailbox => ((_ : Table MailboxId CounterRow).get? mailbox).getD {}) = _
        rw [same]
        rfl
      · exact resetBatch_elsewhere (fun here member => apart ⟨here, member⟩) done
  · unfold resetRecent
    split
    · exact .pure (confined_chains _) _
    · rw [storable_of_gt (Nat.not_le.mp fits), Step.check_error_bind]
      exact .fail (confined_chains _) _

theorem deleteBatch_confined (mailbox : MailboxId) (uids : List Uid) :
    (deleteBatch mailbox uids).Within
      (Confined fun place => place.mailbox = mailbox ∧ place.uid ∈ uids) := by
  unfold deleteBatch
  simp only
  split
  · exact .pure (confined_chains _) _
  refine fun d => transaction_confined fun done => ?_
  obtain ⟨_, -, done⟩ := Outcomes.bind_eq_ok.mp done
  obtain ⟨_, collected, done⟩ := Outcomes.bind_eq_ok.mp done
  cases done
  refine .removeMessages (fun place _ _ apart => Bool.eq_false_iff.mpr fun named => ?_) collected
  simp only [storedUids, Bool.and_eq_true, decide_eq_true_eq, List.contains_iff_mem,
    List.mem_filter] at named
  exact apart ⟨named.1, named.2.1⟩

/-- Removing a message is confined to its rows. -/
theorem deleteMessage_confined (id : MessageId) (d : Store) :
    Confined (fun place => ∃ row, d.database.messages.get? place = some row ∧
      row.messageId = .text id) d (Storage.deleteMessage id d).2 := by
  refine transaction_confined fun done => ?_
  obtain ⟨_, -, done⟩ := Outcomes.bind_eq_ok.mp done
  obtain ⟨_, collected, done⟩ := Outcomes.bind_eq_ok.mp done
  cases done
  exact .removeMessages (fun place row found apart =>
    decide_eq_false fun same => apart ⟨row, found, same⟩) collected

instance : Confines Store where
  isOrderly _ := True
  orderly := .of_writes fun _ _ _ => trivial
  insert := insert_confined
  updateFlags := updateFlags_confined
  resetRecent mailbox uids modSeq _ := resetRecent_confined mailbox uids modSeq
  deleteBatch := deleteBatch_confined
  deleteMessage id d _ := (deleteMessage_confined id d).mono fun place ⟨row, found, same⟩ =>
    ⟨place.uid, row, found, same⟩
  isLinked_same {d after id mailbox} same linked := by
    change after = { d with
      database := { d.database with counters := after.database.counters }
      isKeywordCompiled := after.isKeywordCompiled } at same
    rw [same] at linked
    exact linked
  findMailboxes {id mailboxes d after} _ found mailbox linked := by
    obtain ⟨_, -, answered⟩ := Outcomes.bind_eq_ok.mp (Prod.mk.inj found).1
    cases answered
    obtain ⟨uid, row, stored, same⟩ := linked
    refine NameSet.mem_ofList.mpr (List.mem_map.mpr ⟨(⟨mailbox, uid⟩, row), ?_, rfl⟩)
    exact List.mem_filter.mpr ⟨Table.get?_eq_some_iff.mp stored, decide_eq_true same⟩

/-- Removing a mailbox is confined to its rows. -/
theorem deleteMailbox_confined (mailbox : MailboxId) :
    (Storage.deleteMailbox mailbox : Step Store (List MessageId)).Within
      (Confined fun place => place.mailbox = mailbox) := by
  refine fun d => transaction_confined fun done => ?_
  obtain ⟨_, -, done⟩ := Outcomes.bind_eq_ok.mp done
  obtain ⟨_, -, done⟩ := Outcomes.bind_eq_ok.mp done
  obtain ⟨_, collected, done⟩ := Outcomes.bind_eq_ok.mp done
  cases done
  exact .removeMessages (fun _ _ _ apart => decide_eq_false apart) collected

/-- A file that was moved away is lost when the database is opened again: a new one takes its place.
-/
instance : Endures Store where
  isEndured
    | .reopen, d => d.fileMoved = false
    | .lock _, _ => True
  befall incident d inPlace _ := by
    refine ⟨trivial, ?_⟩
    cases incident with
    | lock held => exact ⟨rfl, fun _ _ => rfl⟩
    | reopen =>
      show Confined _ d (Incident.befall .reopen d)
      cases done : d.reopen with
      | error _ =>
        simp only [Incident.befall, done]
        exact (confined_chains _).refl d
      | ok reopened =>
        simp only [Incident.befall, done]
        have same := reopen_database inPlace done
        constructor
        · show reopened.countersOf = d.countersOf
          unfold countersOf
          rw [same]
        · intro place _
          show (reopened.database.messages.get? place, _) = _
          rw [same]
          rfl

end Store

end Database

end Mailroom
