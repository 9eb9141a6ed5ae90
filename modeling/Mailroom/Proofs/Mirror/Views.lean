import Mailroom.Proofs.Memory.Views
import Mailroom.Proofs.Mirror.ChangeLog
import Mailroom.Proofs.Mirror.Counters
import Mailroom.Proofs.Mirror.FlagWrites
import Mailroom.Proofs.Mirror.Removals
import Mailroom.Proofs.Mirror.Reset
/-!
The store in a database, as its rows are seen.

A database is sound if it mirrors a store in memory and its change logs were written by recording
changes. Its rows are seen as those of the store that it mirrors (`Mirrors.view_eq`), so every law
that a write in memory obeys is obeyed in the database, where the write may also be refused
(`obeys_of_follows`).
-/

namespace Mailroom

namespace Database

/-- The number that a counter has given out last. -/
def Counter.last : Counter → Nat
  | integer value => value.toNat
  | overflowed => maxStored

/-- What a row with given values and keywords bears. -/
def MessageValues.revision (values : MessageValues) (keywords : NameSet) : Revision where
  modSeq := values.modSeq.toNat
  flags := {
    answered := values.answered
    deleted := values.deleted
    draft := values.draft
    flagged := values.flagged
    recent := values.recent
    seen := values.seen
    keywords }

namespace Store

/-- The revisions of the rows, and the counters. -/
def view (d : Store) : View where
  revisionAt place := (d.database.messages.get? place).bind fun row =>
    row.values.toOption.map fun values => values.revision (keywordsAt d.database place)
  lastUid mailbox := (d.countersOf mailbox).lastUid.last
  highestModSeq mailbox := (d.countersOf mailbox).highestModSeq.last

/-- The database mirrors some sound store in memory, and its change logs were written. -/
def IsSound (d : Store) : Prop :=
  ∃ m : Memory.Store, m.IsSound ∧ Mirror.Mirrors False (Mirror.logOf d.database) m d ∧
    (Mirror.logOf d.database).IsWritten

instance : Sound Store where
  isSound := IsSound

end Store

end Database

namespace Mirror

open Database (MessageRow)

variable {α : Type} {regular : Prop} {log : Log} {m : Memory.Store} {d : Database.Store}

theorem StandsAt.last_eq {counter : Database.Counter} {n : Nat}
    (stands : StandsAt regular counter n) : counter.last = n := by
  rcases stands with ⟨rfl, -⟩ | ⟨-, rfl, rfl⟩ <;> rfl

namespace Mirrors

theorem isSound (mirrors : Mirrors False log m d) (sound : m.IsSound) (written : log.IsWritten) :
    d.IsSound := by
  have logged := mirrors.logged
  subst logged
  exact ⟨m, sound, mirrors, written⟩

/-- The rows of a database are seen as those of the store that it mirrors. -/
theorem view_eq (mirrors : Mirrors regular log m d) : d.view = m.view := by
  refine View.ext (funext fun place => ?_) (funext fun mailbox => ?_) (funext fun mailbox => ?_)
  · show (d.database.messages.get? place).bind _ = (m.rows.get? place).map _
    rw [mirrors.get?_messages]
    cases found : m.rows.get? place with
    | none => rfl
    | some row =>
      show (MessageRow.encode row).values.toOption.map _ = some _
      rw [MessageRow.values_encode, mirrors.keywordsAt found]
      rfl
  · exact (mirrors.lastUid mailbox).last_eq
  · exact (mirrors.highestModSeq mailbox).last_eq

end Mirrors

/-- What a step of the database does to the image of a sound store is what the step in memory does
that it follows, or it is refused. -/
theorem sound_of_follows {δ : Type} (law : δ → Except StoreError α → δ → Prop)
    {image : Memory.Store → δ} {image' : Database.Store → δ}
    (same : ∀ {log m d}, Mirrors False log m d → image' d = image m)
    (refused : ∀ v e, law v (.error e) v) {left : Step Memory.Store α}
    {right : Step Database.Store α}
    (obeys : ∀ m, m.IsSound → (left m).2.IsSound ∧ law (image m) (left m).1 (image (left m).2))
    (follows : ∀ {log m d}, Mirrors False log m d → Follows False log left right m d)
    (sound : d.IsSound) :
    (right d).2.IsSound ∧ law (image' d) (right d).1 (image' (right d).2) := by
  obtain ⟨m, sound, mirrors, written⟩ := sound
  obtain ⟨kept, law⟩ := obeys m sound
  rcases follows mirrors with ⟨answer, after⟩ | ⟨e, fails, after⟩
  · refine ⟨after.isSound kept written, ?_⟩
    rw [same mirrors, answer, same after]
    exact law
  · refine ⟨after.isSound sound written, ?_⟩
    rw [same mirrors, fails, same after]
    exact refused _ e

/-- A step of the database obeys a law that the step in memory obeys, if it follows that step. -/
theorem obeys_of_follows {law : View → Except StoreError α → View → Prop}
    {left : Step Memory.Store α} {right : Step Database.Store α}
    (refused : ∀ v e, law v (.error e) v) (obeys : left.Obeys Memory.Store.view law)
    (follows : ∀ {log m d}, Mirrors False log m d → Follows False log left right m d) :
    right.Obeys Database.Store.view law := fun _ =>
  sound_of_follows law (fun mirrors => mirrors.view_eq) refused obeys follows

/-- The store of a new database file is sound. -/
theorem new_isSound (path : String) (listBound : Nat) :
    (Database.Store.new path listBound).IsSound :=
  (mirrors_new False path listBound).isSound (Memory.Store.new_isSound listBound) .empty

/-- Two databases mirror the same sound store in memory, and the change logs of the second were
written. -/
def KeepsRows (d after : Database.Store) : Prop :=
  ∃ m log log', m.IsSound ∧ Mirrors False log m d ∧ Mirrors False log' m after ∧ log'.IsWritten

/-- Recording a change writes the change logs only. -/
theorem appendChange_keepsRows (sound : d.IsSound) (draft : ChangeDraft)
    (expiresAt : Option Instant) : KeepsRows d (Storage.appendChange draft expiresAt d).2 := by
  obtain ⟨m, sound, mirrors, written⟩ := sound
  rcases Nat.lt_or_eq_of_le (written.latest_le draft.account) with room | last
  · obtain ⟨notDelegated, d', done, after⟩ := mirrors.appendChange_eq written draft expiresAt room
    rw [done]
    exact ⟨m, _, _, sound, mirrors, after, written.recorded room notDelegated⟩
  · rw [mirrors.appendChange_error written draft expiresAt last]
    exact ⟨m, _, _, sound, mirrors, mirrors, written⟩

/-- Dropping records writes the change logs only. -/
theorem purgeExpired_keepsRows (sound : d.IsSound) (now : Instant) :
    KeepsRows d (Storage.purgeExpired now d).2 := by
  obtain ⟨m, sound, mirrors, written⟩ := sound
  exact ⟨m, _, _, sound, mirrors, mirrors.purgeExpired_eq now, written.dropped _⟩

theorem KeepsRows.view_eq {after : Database.Store} (keeps : KeepsRows d after) :
    after.IsSound ∧ d.view = after.view := by
  obtain ⟨m, log, log', sound, mirrors, after, written⟩ := keeps
  exact ⟨after.isSound sound written, mirrors.view_eq.trans after.view_eq.symm⟩

open Revised in
instance : Revised Database.Store where
  view := Database.Store.view
  nextUid mailbox := obeys_of_follows (fun _ _ => rfl) (nextUid mailbox)
    fun mirrors => mirrors.nextUid_follows mailbox
  nextModSeq mailbox := obeys_of_follows (fun _ _ => rfl) (nextModSeq mailbox)
    fun mirrors => mirrors.nextModSeq_follows mailbox
  insert message := obeys_of_follows (fun _ _ => .inl rfl) (insert message.asWritten)
    fun mirrors => mirrors.insert_follows message
  updateFlags mailbox uid edit modSeq expected := obeys_of_follows (fun _ _ => .inl rfl)
    (updateFlags mailbox uid edit modSeq expected)
    fun mirrors => mirrors.updateFlags_follows mailbox uid edit modSeq expected
  resetRecent mailbox uids modSeq fits ascending := obeys_of_follows (fun _ _ => .refl _)
    (resetRecent mailbox uids modSeq fits ascending)
    fun mirrors => mirrors.resetRecent_follows mailbox fits ascending
  deleteBatch mailbox uids ascending := obeys_of_follows (fun _ _ => .refl _)
    (deleteBatch mailbox uids ascending)
    fun mirrors => mirrors.deleteBatch_follows mailbox ascending
  deleteMailbox mailbox := obeys_of_follows (fun _ _ => .refl _) (deleteMailbox mailbox)
    fun mirrors => mirrors.deleteMailbox_follows mailbox
  deleteMessage id := obeys_of_follows (fun _ _ => .refl _) (deleteMessage id)
    fun mirrors => .inl (mirrors.deleteMessage_agrees id)
  appendChange draft expiresAt _ sound := (appendChange_keepsRows sound draft expiresAt).view_eq
  purgeExpired now _ sound := (purgeExpired_keepsRows sound now).view_eq

end Mirror

end Mailroom
