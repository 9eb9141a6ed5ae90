import Mailroom.Proofs.Mirror.Views
/-!
What the answers of operations say about rows.

`Revised` tells what an operation may do to the rows, whatever it answers. In a `Truthful` store the
answer tells which of it was done: an operation that fails has changed nothing, and one that
succeeds has found what it asked for. Both stores are truthful.
-/

namespace Mailroom

namespace View

variable {v v' : View}

/-- A view after the rows of a mailbox with some numbers were removed. -/
def without (v : View) (mailbox : MailboxId) (uids : List Uid) : View :=
  { v with revisionAt := fun place =>
      if place.mailbox = mailbox ∧ place.uid ∈ uids then none else v.revisionAt place }

/-- Puts a row where there is none, or fails and changes nothing. -/
def InsertsRow (message : Message) (v : View) (answer : Except StoreError Unit) (v' : View) :
    Prop :=
  match answer with
  | .ok () => v.revisionAt message.place = none ∧
    v' = v.put message.place ⟨message.modSeq, message.flags⟩
  | .error _ => v' = v

/-- Edits the flags of a row that bears what is expected and gives it a modification sequence, or
fails and changes nothing. -/
def EditsRow (place : Place) (edit : FlagEdit) (modSeq : ModSeq) (expected : Option ModSeq)
    (v : View) (answer : Except StoreError Metadata) (v' : View) : Prop :=
  match answer with
  | .ok metadata => ∃ r, v.revisionAt place = some r ∧ (∀ e ∈ expected, r.modSeq = e) ∧
    metadata.modSeq = modSeq ∧ metadata.flags = edit.apply r.flags ∧
    v' = v.put place ⟨modSeq, edit.apply r.flags⟩
  | .error _ => v' = v

/-- Removes the rows with some numbers, or fails and changes nothing. -/
def RemovesRows (mailbox : MailboxId) (uids : List Uid) (v : View)
    (answer : Except StoreError (List Metadata)) (v' : View) : Prop :=
  match answer with
  | .ok _ => v' = v.without mailbox uids
  | .error _ => v' = v

end View

open View Revised in
/-- A store whose answers tell what was done to its rows. -/
class Truthful (σ : Type) [Storage σ] [Sound σ] [Revised σ] : Prop where
  insert : ∀ message, (Storage.insert message : Step σ Unit).Obeys view (InsertsRow message)
  /-- Only a row that is there is in the way of a new one. -/
  insert_free : ∀ message (store : σ), isSound store →
    (view store).revisionAt message.place = none →
    ∀ resource, (Storage.insert message store).1 ≠ .error (.alreadyExists resource)
  updateFlags : ∀ mailbox uid edit modSeq expected,
    (Storage.updateFlags mailbox uid edit modSeq expected : Step σ Metadata).Obeys view
      (EditsRow ⟨mailbox, uid⟩ edit modSeq expected)
  deleteBatch : ∀ mailbox uids, uids.Pairwise (· < ·) →
    (Storage.deleteBatch mailbox uids : Step σ (List Metadata)).Obeys view
      (RemovesRows mailbox uids)
  find : ∀ mailbox uid fetch (store : σ), isSound store → ∀ row,
    (Storage.find mailbox uid fetch store).1 = .ok (some row) →
    (view store).revisionAt ⟨mailbox, uid⟩ = some ⟨row.modSeq, row.flags⟩

/-! ### In memory -/

namespace Memory.Store

variable {m : Store} {mailbox : MailboxId}

theorem view_without (uids : List Uid) :
    (m.keepRows fun place _ => !(place.mailbox = mailbox && uids.contains place.uid)).view
      = m.view.without mailbox uids := by
  refine View.ext (funext fun place => ?_) rfl rfl
  show ((m.rows.filter _).get? place).map _
    = if place.mailbox = mailbox ∧ place.uid ∈ uids then none else (m.rows.get? place).map _
  rw [Table.get?_filter]
  cases m.rows.get? place with
  | none => simp
  | some row =>
    rw [Option.filter_some]
    by_cases covered : place.mailbox = mailbox ∧ place.uid ∈ uids
    · simp [covered]
    · have kept : (!(decide (place.mailbox = mailbox) && uids.contains place.uid)) = true := by
        rw [Bool.not_eq_true', Bool.eq_false_iff]
        simpa using covered
      rw [if_pos kept, if_neg covered]

theorem find_ok (available : m.available = true) (uid : Uid) (fetch : Fetch) :
    m.find mailbox uid fetch = .ok ((m.rows.get? ⟨mailbox, uid⟩).map (m.present fetch)) := by
  unfold find
  rw [ensureAvailable_ok.mpr available]
  rfl

/-- A row that is found is the one that is there. -/
theorem revisionAt_of_find {uid : Uid} {fetch : Fetch} {row : Message}
    (available : m.available = true) (found : m.find mailbox uid fetch = .ok (some row)) :
    m.view.revisionAt ⟨mailbox, uid⟩ = some ⟨row.modSeq, row.flags⟩ := by
  rw [find_ok available] at found
  show (m.rows.get? ⟨mailbox, uid⟩).map _ = _
  cases stored : m.rows.get? ⟨mailbox, uid⟩ with
  | none =>
    rw [stored] at found
    cases found
  | some kept =>
    rw [stored] at found
    cases found
    cases fetch <;> rfl

theorem insert_of_free {message : Message} (free : m.rows.get? message.place = none)
    (resource : Resource) : m.insert message ≠ .error (.alreadyExists resource) := by
  intro taken
  unfold insert checkStorable ensureAvailable at taken
  rw [free] at taken
  split at taken
  · split at taken
    · split at taken
      · split at taken <;> cases taken
      · cases taken
    · cases taken
  · cases taken

instance : Truthful Store where
  insert message := obeys_write (fun _ _ => rfl) fun {m _ _} done sound => by
    obtain ⟨-, free, rfl⟩ := insert_ok done
    refine ⟨sound.withRows _ _ _, ?_, view_insert⟩
    show Option.map _ (Table.get? _ _) = none
    rw [free]
    rfl
  insert_free message m sound free resource := by
    have free : m.rows.get? message.place = none := Option.map_eq_none_iff.mp free
    show (Step.write (insert message) m).1 ≠ _
    have refused := insert_of_free free resource
    cases outcome : m.insert message with
    | error e =>
      rw [Step.write_of_error outcome]
      rw [outcome] at refused
      exact fun same => refused (congrArg Except.error (Except.error.inj same))
    | ok answer =>
      rw [Step.write_of_ok outcome]
      exact nofun
  updateFlags mailbox uid edit modSeq expected := obeys_write (fun _ _ => rfl)
    fun {m _ _} done sound => by
      obtain ⟨-, row, found, met, rfl, rfl⟩ := updateFlags_ok done
      refine ⟨sound.withRows _ _ _, ⟨row.modSeq, row.flags⟩, ?_, met, rfl, rfl, view_insert⟩
      show Option.map _ (Table.get? _ _) = some _
      rw [found]
      rfl
  deleteBatch mailbox uids _ := obeys_write (fun _ _ => rfl) fun {m _ _} done sound => by
    rw [deleteBatch_ok done]
    exact ⟨sound.withRows _ _ _, view_without uids⟩
  find _ _ _ _ sound _ found := revisionAt_of_find sound.available found

end Memory.Store

/-! ### In the database -/

namespace Mirror

variable {log : Log} {m : Memory.Store} {d : Database.Store}

/-- A row that is found in the database is found in memory. -/
theorem Mirrors.find_of_ok (mirrors : Mirrors False log m d) {mailbox : MailboxId} {uid : Uid}
    {fetch : Fetch} {row : Message} (found : d.find mailbox uid fetch = .ok (some row)) :
    m.find mailbox uid fetch = .ok (some row) := by
  have plain : ∀ kept ∈ m.rows.get? ⟨mailbox, uid⟩, kept.HasPlainDates := by
    intro kept stored
    apply Classical.byContradiction
    intro signed
    obtain ⟨e, fails⟩ : ∃ e, d.find mailbox uid fetch = .error e :=
      mirrors.find_of_not_plain stored signed
    rw [fails] at found
    cases found
  rw [← mirrors.find_of_plain plain]
  exact found

open Truthful in
instance : Truthful Database.Store where
  insert message := obeys_of_follows (fun _ _ => rfl) (insert message.asWritten)
    fun mirrors => mirrors.insert_follows message
  insert_free := by
    rintro message d ⟨m, sound, mirrors, written⟩ free resource
    have free : m.view.revisionAt message.place = none := by
      rw [← mirrors.view_eq]
      exact free
    rw [← Mirrors.insert_asWritten]
    by_cases modSeq : message.asWritten.modSeq ≤ maxStored
    · rw [(mirrors.insert_agrees modSeq message.hasPlainSeconds_asWritten False.elim).answer]
      exact insert_free message.asWritten m sound free resource
    · obtain ⟨refusal, refused⟩ := Mirrors.insert_of_great modSeq d
      rw [refused]
      exact nofun
  updateFlags mailbox uid edit modSeq expected := obeys_of_follows (fun _ _ => rfl)
    (updateFlags mailbox uid edit modSeq expected)
    fun mirrors => mirrors.updateFlags_follows mailbox uid edit modSeq expected
  deleteBatch mailbox uids ascending := obeys_of_follows (fun _ _ => rfl)
    (deleteBatch mailbox uids ascending)
    fun mirrors => mirrors.deleteBatch_follows mailbox ascending
  find := by
    rintro mailbox uid fetch d ⟨m, sound, mirrors, written⟩ row found
    have found : d.find mailbox uid fetch = .ok (some row) := found
    show d.view.revisionAt _ = _
    rw [mirrors.view_eq]
    exact Memory.Store.revisionAt_of_find sound.available (mirrors.find_of_ok found)

end Mirror

end Mailroom
