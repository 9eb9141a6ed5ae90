import Mailroom.Proofs.Mutations
/-!
Where rows lie in memory.

A write changes nothing of a row but its flags and its modification sequence. So what holds of every
row before a write, and whatever these two are, holds of every row afterwards, unless it fails of a
row that is inserted (`Memory.Store.run_everyRow`). Every row lies at its own place
(`Memory.Store.mutation_keyed`).
-/

namespace Mailroom

namespace Memory.Store

/-- Something holds of every row of a table, at its place. -/
def EveryRow (P : Place → Message → Prop) (rows : Table Place Message) : Prop :=
  ∀ place row, rows.get? place = some row → P place row

/-- Something holds of a row whatever its flags and its modification sequence are. -/
def Lasts (P : Place → Message → Prop) : Prop :=
  ∀ place row flags modSeq, P place row → P place { row with flags, modSeq }

namespace EveryRow

variable {P : Place → Message → Prop} {rows : Table Place Message}

theorem insert (each : EveryRow P rows) {place : Place} {row : Message} (here : P place row) :
    EveryRow P (rows.insert place row) := by
  intro other found stored
  rw [Table.get?_insert] at stored
  split at stored
  · rename_i same
    cases stored
    exact same ▸ here
  · exact each other found stored

theorem filter (each : EveryRow P rows) (keep : Place → Message → Bool) :
    EveryRow P (rows.filter keep) := by
  intro place row stored
  rw [Table.get?_filter, Option.filter_eq_some_iff] at stored
  exact each place row stored.1

theorem resetEach (each : EveryRow P rows) (lasts : Lasts P) (mailbox : MailboxId)
    (modSeq : ModSeq) (uids : List Uid) (reset : RecentReset) :
    EveryRow P (resetEach mailbox modSeq uids rows reset).2 := by
  induction uids generalizing rows reset with
  | nil => exact each
  | cons uid rest ih =>
    unfold Memory.Store.resetEach
    split
    · exact ih each _
    · rename_i row stored
      split
      · exact ih each _
      · exact ih (each.insert (lasts _ row _ modSeq (each _ row stored))) _

end EveryRow

/-- A step keeps what holds of every row if it does when it succeeds. -/
theorem write_everyRow {α : Type} {P : Place → Message → Prop}
    {f : Store → Except StoreError (α × Store)} {m : Store} (each : EveryRow P m.rows)
    (keeps : ∀ {a after}, f m = .ok (a, after) → EveryRow P after.rows) :
    EveryRow P (Step.write f m).2.rows := by
  cases done : f m with
  | error e =>
    rw [Step.write_of_error done]
    exact each
  | ok outcome =>
    rw [Step.write_of_ok done]
    exact keeps done

/-- What lasts and holds of a row that is inserted holds of every row after a write. -/
theorem run_everyRow {P : Place → Message → Prop} (lasts : Lasts P) (write : Write)
    (added : ∀ message, write = .insert message → P message.place message.withoutContent)
    {m : Store} (each : EveryRow P m.rows) : EveryRow P (write.run m).rows := by
  have allocate {mailbox : MailboxId} {sequence : Sequence} {bump : Counters → Nat × Counters}
      {n : Nat} {after : Store} (done : allocate mailbox sequence bump m = .ok (n, after)) :
      EveryRow P after.rows := by
    unfold Memory.Store.allocate at done
    split at done
    · cases done
    · cases done
      exact each
  cases write with
  | nextUid mailbox => exact write_everyRow each allocate
  | nextModSeq mailbox => exact write_everyRow each allocate
  | insert message =>
    refine write_everyRow each fun done => ?_
    obtain ⟨-, -, rfl⟩ := insert_ok done
    exact each.insert (added message rfl)
  | updateFlags mailbox uid edit modSeq expected =>
    refine write_everyRow each fun done => ?_
    obtain ⟨-, row, found, -, -, rfl⟩ := updateFlags_ok done
    exact each.insert (lasts _ row _ modSeq (each _ row found))
  | resetRecent mailbox uids modSeq =>
    refine write_everyRow each fun done => ?_
    obtain ⟨_, -, done⟩ := Outcomes.bind_eq_ok.mp done
    obtain ⟨_, -, done⟩ := Outcomes.bind_eq_ok.mp done
    cases done
    exact each.resetEach lasts mailbox modSeq uids {}
  | deleteBatch mailbox uids =>
    refine write_everyRow each fun done => ?_
    rw [deleteBatch_ok done]
    exact each.filter _
  | deleteMailbox mailbox =>
    refine write_everyRow each fun done => ?_
    rw [deleteMailbox_ok done]
    exact each.filter _
  | deleteMessage id =>
    refine write_everyRow each fun done => ?_
    rw [deleteMessage_ok done]
    exact each.filter _
  | appendChange draft expiresAt =>
    refine write_everyRow each fun done => ?_
    rw [(appendChange_ok done).2]
    exact each
  | purgeExpired now =>
    refine write_everyRow each fun done => ?_
    rw [purgeExpired_ok done]
    exact each

/-- Every row of a table lies at its own place. -/
def Keyed (rows : Table Place Message) : Prop :=
  ∀ place row, rows.get? place = some row → row.place = place

/-- Every row lies at its own place. -/
def IsKeyed (m : Store) : Prop := Keyed m.rows

/-- Every write leaves rows at their own places. -/
theorem run_keyed (write : Write) {m : Store} (keyed : m.IsKeyed) : (write.run m).IsKeyed :=
  run_everyRow (fun _ _ _ _ here => here) write (fun _ _ => rfl) keyed

/-- No row carries a content. -/
def IsBare (m : Store) : Prop := EveryRow (fun _ row => row.content = none) m.rows

theorem run_bare (write : Write) {m : Store} (bare : m.IsBare) : (write.run m).IsBare :=
  run_everyRow (fun _ _ _ _ none => none) write (fun _ _ => rfl) bare

theorem new_keyed (listBound : Nat) : (new listBound).IsKeyed := by
  intro place row stored
  rw [show (new listBound).rows = .empty from rfl, Table.get?_empty] at stored
  cases stored

theorem mutation_keyed (mutation : Mutation Incident) (m : Store) (keyed : m.IsKeyed) :
    (mutation.run m).IsKeyed := by
  cases mutation with
  | written write => exact run_keyed write keyed
  | suffered incident =>
    cases incident
    exact keyed

end Memory.Store

end Mailroom
