import Mailroom.Proofs.Changes.Reads
import Mailroom.Proofs.Memory.Counters
import Mailroom.Proofs.Revisions.Calls
/-!
The store in memory, as its rows are seen.

A store in memory is sound if it is switched on and its records lie under states that were given
out. The instance says that every write changes the view of the rows as it should and leaves the
store sound.
-/

namespace Mailroom.Memory.Store

/-! ### The invariant -/

/-- The store is switched on, and its records lie under states that were given out. -/
structure IsSound (m : Store) : Prop where
  available : m.available = true
  records : ∀ place stored, m.changes.get? place = some stored →
    1 ≤ place.state ∧ place.state ≤ (m.headsOf place.account).latest ∧
      stored.record.state = place.state

instance : Sound Store where
  isSound := IsSound

/-- A new store is sound. -/
theorem new_isSound (listBound : Nat) : (new listBound).IsSound where
  available := rfl
  records _ _ found := by cases found

variable {m : Store} {mailbox : MailboxId} {place : Place} {row : Message}

/-- What happens to rows, contents and counters does not touch the logs. -/
theorem IsSound.withRows (sound : m.IsSound) (counters : Table MailboxId Counters)
    (rows : Table Place Message) (contents : Table MessageId Octets) :
    IsSound { m with counters, rows, contents } :=
  ⟨sound.available, sound.records⟩

/-- The heads of an account after those of one were stored. -/
theorem headsOf_insert {after : Store} {account other : AccountId} {heads : Heads}
    (stored : after.heads = m.heads.insert account heads) :
    after.headsOf other = if account = other then heads else m.headsOf other := by
  unfold headsOf
  rw [stored, Table.get?_insert]
  split <;> rfl

/-- Recording a change gives its record the next state. -/
theorem IsSound.recorded (sound : m.IsSound) (draft : ChangeDraft) (expiresAt : Option Instant) :
    IsSound { m with
      heads := m.heads.insert draft.account ((m.headsOf draft.account).advance
        (m.headsOf draft.account).latest.next draft.isDelegated)
      changes := m.changes.insert ⟨draft.account, (m.headsOf draft.account).latest.next⟩
        ⟨draft.record (m.headsOf draft.account).latest.next, expiresAt⟩ } where
  available := sound.available
  records place stored found := by
    obtain ⟨first, later⟩ := State.next_bounds (m.headsOf draft.account).latest
    rw [headsOf_insert (m := m) rfl]
    have found : (m.changes.insert _ _).get? place = some stored := found
    rw [Table.get?_insert] at found
    split at found
    · rename_i here
      cases found
      subst here
      refine ⟨first, ?_, rfl⟩
      rw [if_pos rfl]
      exact Nat.le_of_eq rfl
    · obtain ⟨least, reached, same⟩ := sound.records place stored found
      refine ⟨least, ?_, same⟩
      split
      · rename_i account
        exact Nat.le_trans reached (account ▸ later)
      · exact reached

/-- Dropping records leaves the others under their states. -/
theorem IsSound.dropped (sound : m.IsSound) (keep : LogPlace → StoredChange → Bool) :
    IsSound { m with changes := m.changes.filter keep } where
  available := sound.available
  records place stored found := by
    have found : (m.changes.filter keep).get? place = some stored := found
    rw [Table.get?_filter] at found
    exact sound.records place stored (Option.filter_eq_some_iff.mp found).1

/-! ### The view of the rows -/

/-- The revisions of the rows, and the counters. -/
def view (m : Store) : View where
  revisionAt place := (m.rows.get? place).map fun row => ⟨row.modSeq, row.flags⟩
  lastUid mailbox := (m.countersOf mailbox).lastUid
  highestModSeq mailbox := (m.countersOf mailbox).highestModSeq

theorem view_insert : ({ m with rows := m.rows.insert place row }).view
    = m.view.put place ⟨row.modSeq, row.flags⟩ := by
  refine View.ext (funext fun other => ?_) rfl rfl
  exact Table.map_get?_insert

/-- Keeping some rows drops the others. -/
theorem view_keepRows (keep : Place → Message → Bool) :
    View.Drops m.view (m.keepRows keep).view where
  lastUid := rfl
  highestModSeq := rfl
  rows place := (Table.get?_filter_or keep place).imp (congrArg (Option.map _))
    (congrArg (Option.map _))

/-- Resetting some rows of a mailbox gives them the modification sequence. -/
theorem view_resetStore (modSeq : ModSeq) (uids : List Uid) :
    View.Resets mailbox modSeq m.view
      (resetStore m mailbox modSeq (pending m.rows mailbox modSeq uids)).view where
  lastUid := rfl
  highestModSeq := rfl
  rows place := by
    show ((m.rows.mapValues _).get? place).map _ = (m.rows.get? place).map _ ∨
      place.mailbox = mailbox ∧ ∃ (r : Revision) (flags : Flags),
        (m.rows.get? place).map _ = some r ∧ r.modSeq ≠ modSeq ∧
          ((m.rows.mapValues _).get? place).map _ = some _
    rw [Table.get?_mapValues]
    cases found : m.rows.get? place with
    | none => exact .inl rfl
    | some row =>
      by_cases here : place.mailbox = mailbox ∧ place.uid ∈ pending m.rows mailbox modSeq uids
      · obtain ⟨-, row', found', unsettled⟩ := mem_pending.mp here.2
        have same : row' = row := by
          rw [← here.1, found] at found'
          exact (Option.some.inj found').symm
        rw [same] at unsettled
        refine .inr ⟨here.1, _, row.flags.set .recent false, rfl, unsettled, ?_⟩
        rw [Option.map_some, Option.map_some, resetAt, if_pos here]
        rfl
      · refine .inl ?_
        rw [Option.map_some, resetAt, if_neg here]

/-- A write obeys a law if it does so when it succeeds. -/
theorem obeys_write {α : Type} {law : View → Except StoreError α → View → Prop}
    {f : Store → Except StoreError (α × Store)} (refused : ∀ v e, law v (.error e) v)
    (writes : ∀ {m a after}, f m = .ok (a, after) → m.IsSound →
      after.IsSound ∧ law m.view (.ok a) after.view) : (Step.write f).Obeys view law := by
  intro m sound
  cases done : f m with
  | error e =>
    rw [Step.write_of_error done]
    exact ⟨sound, refused _ e⟩
  | ok outcome =>
    rw [Step.write_of_ok done]
    exact writes done sound

instance : Revised Store where
  view := view
  nextUid mailbox := obeys_write (fun _ _ => rfl) fun {m _ _} done sound => by
    obtain ⟨rfl, rfl⟩ := allocate_ok done
    refine ⟨sound.withRows _ _ _, rfl, View.ext rfl (funext fun other => ?_)
      (funext fun other => ?_)⟩
    · show (countersOf _ other).lastUid = if other = mailbox then _ else _
      rw [countersOf_insert]
      by_cases here : mailbox = other
      · rw [if_pos here, if_pos here.symm]
      · rw [if_neg here, if_neg (Ne.symm here)]
        rfl
    · show (countersOf _ other).highestModSeq = (m.countersOf other).highestModSeq
      rw [countersOf_insert]
      split
      · rename_i here
        rw [← here]
      · rfl
  nextModSeq mailbox := obeys_write (fun _ _ => rfl) fun {m _ _} done sound => by
    obtain ⟨rfl, rfl⟩ := allocate_ok done
    refine ⟨sound.withRows _ _ _, rfl, View.ext rfl (funext fun other => ?_)
      (funext fun other => ?_)⟩
    · show (countersOf _ other).lastUid = (m.countersOf other).lastUid
      rw [countersOf_insert]
      split
      · rename_i here
        rw [← here]
      · rfl
    · show (countersOf _ other).highestModSeq = if other = mailbox then _ else _
      rw [countersOf_insert]
      by_cases here : mailbox = other
      · rw [if_pos here, if_pos here.symm]
      · rw [if_neg here, if_neg (Ne.symm here)]
        rfl
  insert message := obeys_write (fun _ _ => .inl rfl) fun done sound => by
    obtain ⟨-, free, rfl⟩ := insert_ok done
    refine ⟨sound.withRows _ _ _, .inr ⟨?_, _, view_insert⟩⟩
    show Option.map _ (Table.get? _ _) = none
    rw [free]
    rfl
  updateFlags mailbox uid edit modSeq expected := obeys_write (fun _ _ => .inl rfl)
    fun done sound => by
      obtain ⟨-, row, found, -, -, rfl⟩ := updateFlags_ok done
      refine ⟨sound.withRows _ _ _, .inr ⟨⟨⟨row.modSeq, row.flags⟩, ?_⟩, _, view_insert⟩⟩
      show Option.map _ (Table.get? _ _) = some _
      rw [found]
      rfl
  resetRecent mailbox uids modSeq fits ascending := obeys_write (fun _ _ => .refl _)
    fun done sound => by
      obtain ⟨-, rfl⟩ := resetRecent_ok (ascending.imp fun before => Nat.ne_of_lt before) done
      exact ⟨sound.withRows _ _ _, view_resetStore modSeq uids⟩
  deleteBatch mailbox uids _ := obeys_write (fun _ _ => .refl _) fun done sound => by
    rw [deleteBatch_ok done]
    exact ⟨sound.withRows _ _ _, view_keepRows _⟩
  deleteMailbox mailbox := obeys_write (fun _ _ => .refl _) fun done sound => by
    rw [deleteMailbox_ok done]
    exact ⟨sound.withRows _ _ _, view_keepRows _⟩
  deleteMessage id := obeys_write (fun _ _ => .refl _) fun {m _ _} done sound => by
    rw [deleteMessage_ok done]
    exact ⟨sound.withRows _ _ _, (view_keepRows _ : View.Drops m.view _)⟩
  appendChange draft expiresAt := obeys_write (fun _ _ => rfl) fun done sound => by
    obtain ⟨rfl, rfl⟩ := appendChange_ok done
    exact ⟨sound.recorded draft expiresAt, rfl⟩
  purgeExpired now := obeys_write (fun _ _ => rfl) fun done sound => by
    rw [purgeExpired_ok done]
    exact ⟨sound.dropped _, rfl⟩

end Mailroom.Memory.Store
