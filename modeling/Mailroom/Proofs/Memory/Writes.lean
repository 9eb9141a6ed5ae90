import Mailroom.Proofs.Memory.Reset
import Mailroom.Proofs.Outcomes
/-!
What the writes of a store in memory can do.

For each write there is one lemma that says what is known once it has succeeded (`insert_ok`,
`updateFlags_ok`, `resetRecent_ok`, `deleteBatch_ok`, …): what was found, what is answered, and the
store that is left. A write that fails leaves the store as it was.
-/

namespace Mailroom.Memory

/-- The contents after a message was written: its own is stored if there is none for its identifier.
-/
def contentsWith {α : Type} (pack : Octets → α) (contents : Table MessageId α)
    (message : Message) : Table MessageId α :=
  match message.content, contents.get? message.messageId with
  | some content, none => contents.insert message.messageId (pack content)
  | _, _ => contents

/-- A row after its flags were edited. -/
def edited (edit : FlagEdit) (modSeq : ModSeq) (row : Message) : Message :=
  { row with flags := edit.apply row.flags, modSeq }

namespace Store

variable {m after : Store} {mailbox : MailboxId} {modSeq : ModSeq} {uid : Uid} {uids : List Uid}

theorem checkStorable_ok {column : Column} {value : Nat} :
    checkStorable column value = .ok () ↔ value ≤ maxStored := by
  unfold checkStorable
  split
  · rename_i fits
    exact iff_of_true rfl fits
  · rename_i great
    exact iff_of_false (by simp) great

theorem ensureAvailable_ok : m.ensureAvailable = .ok () ↔ m.available = true := by
  unfold ensureAvailable
  split
  · rename_i on
    exact iff_of_true rfl on
  · rename_i off
    exact iff_of_false (by simp) off

theorem allocate_ok {sequence : Sequence} {bump : Counters → Nat × Counters} {n : Nat}
    (done : allocate mailbox sequence bump m = .ok (n, after)) :
    n = (bump (m.countersOf mailbox)).1 ∧
      after = { m with
        counters := m.counters.insert mailbox (bump (m.countersOf mailbox)).2 } := by
  unfold allocate at done
  split at done
  · cases done
  · cases done
    exact ⟨rfl, rfl⟩

theorem insert_ok {message : Message} (done : m.insert message = .ok ((), after)) :
    (message.uid ≤ maxStored ∧ message.size ≤ maxStored ∧ message.modSeq ≤ maxStored) ∧
      m.rows.get? message.place = none ∧
      after = { m with
        rows := m.rows.insert message.place message.withoutContent
        contents := contentsWith id m.contents message } := by
  unfold insert at done
  obtain ⟨_, uid, done⟩ := Outcomes.bind_eq_ok.mp done
  obtain ⟨_, size, done⟩ := Outcomes.bind_eq_ok.mp done
  obtain ⟨_, modSeq, done⟩ := Outcomes.bind_eq_ok.mp done
  obtain ⟨_, -, done⟩ := Outcomes.bind_eq_ok.mp done
  refine ⟨⟨checkStorable_ok.mp uid, checkStorable_ok.mp size, checkStorable_ok.mp modSeq⟩, ?_⟩
  cases free : m.rows.get? message.place with
  | some row =>
    rw [free] at done
    cases done
  | none =>
    rw [free] at done
    cases done
    refine ⟨rfl, ?_⟩
    unfold contentsWith
    cases message.content <;> cases m.contents.get? message.messageId <;> rfl

theorem updateFlags_ok {edit : FlagEdit} {expected : Option ModSeq} {metadata : Metadata}
    (done : m.updateFlags mailbox uid edit modSeq expected = .ok (metadata, after)) :
    modSeq ≤ maxStored ∧ ∃ row, m.rows.get? ⟨mailbox, uid⟩ = some row ∧
      (∀ e ∈ expected, row.modSeq = e) ∧ metadata = (edited edit modSeq row).metadata ∧
      after = { m with rows := m.rows.insert ⟨mailbox, uid⟩ (edited edit modSeq row) } := by
  unfold updateFlags at done
  obtain ⟨_, fits, done⟩ := Outcomes.bind_eq_ok.mp done
  obtain ⟨_, -, done⟩ := Outcomes.bind_eq_ok.mp done
  refine ⟨checkStorable_ok.mp fits, ?_⟩
  cases found : m.rows.get? ⟨mailbox, uid⟩ with
  | none =>
    rw [found] at done
    cases done
  | some row =>
    rw [found] at done
    refine ⟨row, rfl, ?_⟩
    cases expected with
    | none =>
      cases done
      exact ⟨nofun, rfl, rfl⟩
    | some e =>
      by_cases different : row.modSeq ≠ e
      · simp only [if_pos different] at done
        cases done
      · simp only [if_neg different] at done
        cases done
        refine ⟨fun e' same => ?_, rfl, rfl⟩
        cases same
        exact Classical.not_not.mp different

/-- A row that has the modification sequence that is expected is edited. -/
theorem updateFlags_of_found (edit : FlagEdit) {expected : Option ModSeq} {row : Message}
    (on : m.available = true) (fits : modSeq ≤ maxStored)
    (found : m.rows.get? ⟨mailbox, uid⟩ = some row) (meets : ∀ e ∈ expected, row.modSeq = e) :
    m.updateFlags mailbox uid edit modSeq expected = .ok ((edited edit modSeq row).metadata,
      { m with rows := m.rows.insert ⟨mailbox, uid⟩ (edited edit modSeq row) }) := by
  unfold updateFlags
  simp only [checkStorable_ok.mpr fits, ensureAvailable_ok.mpr on, Outcomes.ok_bind, found]
  cases expected with
  | none => rfl
  | some e =>
    have same : ¬ row.modSeq ≠ e := not_not_intro (meets e rfl)
    simp only [if_neg same]
    rfl

theorem resetRecent_ok {reset : RecentReset} (once : uids.Nodup)
    (done : m.resetRecent mailbox uids modSeq = .ok (reset, after)) :
    modSeq ≤ maxStored ∧
      after = resetStore m mailbox modSeq (pending m.rows mailbox modSeq uids) := by
  unfold resetRecent at done
  obtain ⟨_, fits, done⟩ := Outcomes.bind_eq_ok.mp done
  obtain ⟨_, -, done⟩ := Outcomes.bind_eq_ok.mp done
  refine ⟨checkStorable_ok.mp fits, ?_⟩
  rw [resetEach_eq once] at done
  cases done
  rfl

theorem deleteBatch_ok {removed : List Metadata}
    (done : m.deleteBatch mailbox uids = .ok (removed, after)) :
    after = m.keepRows fun place _ => !(place.mailbox = mailbox && uids.contains place.uid) := by
  unfold deleteBatch at done
  obtain ⟨_, -, done⟩ := Outcomes.bind_eq_ok.mp done
  cases done
  rfl

theorem deleteMailbox_ok {ids : List MessageId}
    (done : m.deleteMailbox mailbox = .ok (ids, after)) :
    after = m.keepRows fun place _ => place.mailbox ≠ mailbox := by
  unfold deleteMailbox at done
  obtain ⟨_, -, done⟩ := Outcomes.bind_eq_ok.mp done
  cases done
  rfl

theorem deleteMessage_ok {id : MessageId} {mailboxes : List MailboxId}
    (done : m.deleteMessage id = .ok (mailboxes, after)) :
    after = { m.keepRows (fun _ row => row.messageId ≠ id) with
      contents := (m.keepRows fun _ row => row.messageId ≠ id).contents.erase id } := by
  unfold deleteMessage at done
  obtain ⟨_, -, done⟩ := Outcomes.bind_eq_ok.mp done
  cases done
  rfl

theorem appendChange_ok {draft : ChangeDraft} {expiresAt : Option Instant} {record : ChangeRecord}
    (done : m.appendChange draft expiresAt = .ok (record, after)) :
    record = draft.record (m.headsOf draft.account).latest.next ∧
      after = { m with
        heads := m.heads.insert draft.account ((m.headsOf draft.account).advance
          (m.headsOf draft.account).latest.next draft.isDelegated)
        changes := m.changes.insert
          ⟨draft.account, (m.headsOf draft.account).latest.next⟩ ⟨record, expiresAt⟩ } := by
  unfold appendChange at done
  obtain ⟨_, -, done⟩ := Outcomes.bind_eq_ok.mp done
  cases done
  exact ⟨rfl, rfl⟩

theorem purgeExpired_ok {now : Instant} {dropped : Nat}
    (done : m.purgeExpired now = .ok (dropped, after)) :
    after = { m with changes := m.changes.filter fun _ stored => stored.isLive now } := by
  unfold purgeExpired at done
  obtain ⟨_, -, done⟩ := Outcomes.bind_eq_ok.mp done
  cases done
  rfl

end Store

end Mailroom.Memory
