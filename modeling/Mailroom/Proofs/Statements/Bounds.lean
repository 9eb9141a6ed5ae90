import Mailroom.Proofs.Incidents
import Mailroom.Proofs.Simulation
import Mailroom.Proofs.Statements.Recorded
/-!
How long the lists are that a database sends.

A call is cut into partitions, and the operation on a partition sends lists that are no longer than
it: `Recorded.simulation` says this of every operation but the removal of a mailbox, which asks for
the contents of all its messages in one list (`Recorded.deleteMailbox_eq`).
-/

namespace Mailroom.Database

open Service

variable {α : Type} {bound : Nat}

/-! ### The record -/

namespace Recorded

/-- The record is beside a database, and every list in it is short. -/
def IsKept (bound : Nat) (r : Recorded) (d : Store) : Prop :=
  d = r.store ∧ max d.listBound 1 = bound ∧ ∀ list ∈ r.sent, list.length ≤ bound

theorem lift_alike {step : Step Store α} (keeps : ∀ d, (step d).2.listBound = d.listBound) :
    Step.Alike (IsKept bound) (lift step) step := by
  rintro r _ ⟨rfl, isBound, short⟩
  exact ⟨rfl, rfl, (congrArg (max · 1) (keeps r.store)).trans isBound, short⟩

theorem query_alike {f : Store → Step (List SentList) α} {g : Store → Except StoreError α}
    (sends : ∀ d, Sends bound (f d) (g d)) :
    Step.Alike (IsKept bound) (query f) (Store.query g) := by
  rintro r _ ⟨rfl, isBound, short⟩
  obtain ⟨same, more, left, areShort⟩ := sends r.store r.sent
  refine ⟨same, rfl, isBound, ?_⟩
  simp only [query, left]
  exact List.forall_mem_append.mpr ⟨short, areShort⟩

theorem transaction_alike {f : Store → Step (List SentList) (α × Database)}
    {g : Store → Except StoreError (α × Database)} (sends : ∀ d, Sends bound (f d) (g d)) :
    Step.Alike (IsKept bound) (transaction f) (Store.transaction g) := by
  rintro r _ ⟨rfl, isBound, short⟩
  obtain ⟨same, more, left, areShort⟩ := sends r.store r.sent
  have stillShort : ∀ list ∈ r.sent ++ more, list.length ≤ bound :=
    List.forall_mem_append.mpr ⟨short, areShort⟩
  rcases done : f r.store r.sent with ⟨e | ⟨a, db⟩, sent⟩
  all_goals
    rw [done] at same left
    simp only at left
    subst left
    simp only [transaction, Store.transaction, Step.write, done, ← same]
    split
    · exact ⟨rfl, rfl, isBound, short⟩
    · exact ⟨rfl, rfl, isBound, stillShort⟩

/-- No operation changes how many numbers a database takes in one call. -/
theorem operations_keepBound :
    Operations Store fun d after => after.listBound = d.listBound := by
  have chains : Chains fun d after : Store => after.listBound = d.listBound :=
    ⟨fun _ => rfl, fun first second => second.trans first⟩
  refine Store.operations_within chains (fun f => .write chains fun {d a after} done => ?_)
    fun reached => .write chains fun done => ?_
  · split at done
    · cases done
    · obtain ⟨_, -, done⟩ := Outcomes.bind_eq_ok.mp done
      cases done
      rfl
  · cases done
    rfl

theorem updateFlags_alike (positive : 1 ≤ bound) (mailbox : MailboxId) (uid : Uid)
    (edit : FlagEdit) (modSeq : ModSeq) (expected : Option ModSeq) :
    Step.Alike (IsKept bound) (updateFlags mailbox uid edit modSeq expected)
      (Store.updateFlags mailbox uid edit modSeq expected) := by
  refine .bind (.of_check _) fun target => ?_
  split
  · exact .fail _
  refine .bind (lift_alike fun _ => rfl) fun _ => transaction_alike fun d => ?_
  refine .bind (.check _) fun _ _ => ?_
  cases Store.expectedRow? d.database ⟨mailbox, uid⟩ expected with
  | none => exact .fail _
  | some row =>
    refine .bind (.check _) fun db _ => ?_
    refine .bind (selectUids_sends positive _ _) fun rows _ => ?_
    cases rows with
    | nil => exact .fail _
    | cons message rest => exact .pure _

theorem resetRecent_alike {uids : List Uid} (few : uids.length ≤ bound) (mailbox : MailboxId)
    (modSeq : ModSeq) :
    Step.Alike (IsKept bound) (resetRecent mailbox uids modSeq)
      (Store.resetRecent mailbox uids modSeq) := by
  by_cases nothing : uids = []
  · subst nothing
    exact .pure _
  unfold resetRecent
  rw [if_neg (by rwa [List.isEmpty_iff])]
  by_cases fits : modSeq ≤ maxStored
  · rw [Mirror.resetRecent_eq mailbox nothing fits, storable_of_le fits, Step.check_ok_bind]
    exact transaction_alike fun d => resetRows_sends few modSeq d
  · unfold Store.resetRecent
    rw [if_neg (by rwa [List.isEmpty_iff]), storable_of_gt (Nat.not_le.mp fits)]
    exact .fail _

theorem deleteBatch_alike {uids : List Uid} (few : uids.length ≤ bound) (mailbox : MailboxId) :
    Step.Alike (IsKept bound) (deleteBatch mailbox uids) (Store.deleteBatch mailbox uids) := by
  unfold deleteBatch Store.deleteBatch
  simp only
  split
  · exact .pure _
  · exact transaction_alike fun d => removeRows_sends few d

/-- Every operation answers as without the record. On partitions that are short it sends lists that
are short, and so does an operation on one message. -/
theorem simulation (positive : 1 ≤ bound) :
    Simulation (fun uids => uids.length ≤ bound) (IsKept bound) where
  nextUid mailbox := lift_alike (operations_keepBound.nextUid mailbox)
  nextModSeq mailbox := lift_alike (operations_keepBound.nextModSeq mailbox)
  highestModSeq _ := lift_alike fun _ => rfl
  insert message := lift_alike (operations_keepBound.insert message)
  find _ _ _ := lift_alike fun _ => rfl
  fetchPage _ _ := lift_alike fun _ => rfl
  fetchUidPage _ := lift_alike fun _ => rfl
  fetchBatch _ _ fetch few := query_alike fun d => selectUids_sends few d fetch
  updateFlags := updateFlags_alike positive
  resetRecent mailbox _ modSeq few := resetRecent_alike few mailbox modSeq
  deleteBatch mailbox _ few := deleteBatch_alike few mailbox
  deleteMessage _ := transaction_alike fun d => by
    refine .bind (.check _) fun _ _ => ?_
    refine .bind (collectContents_sends ?_ d _) fun _ _ => .pure _
    exact Nat.le_trans (NameSet.size_ofList_le [_]) positive
  findMailboxes _ := lift_alike fun _ => rfl
  counts _ := lift_alike fun _ => rfl
  firstUnseen _ := lift_alike fun _ => rfl
  keywords _ := lift_alike fun _ => rfl
  listBound := by rintro r _ ⟨rfl, -⟩; rfl
  partition := by rintro r _ ⟨rfl, rfl, -⟩ uids short; exact short
  appendChange draft expiresAt := lift_alike (operations_keepBound.appendChange draft expiresAt)
  changesPage _ := lift_alike fun _ => rfl
  heads _ := lift_alike fun _ => rfl
  purgeExpired now := lift_alike (operations_keepBound.purgeExpired now)
  extent := by rintro r _ ⟨rfl, -⟩; rfl

end Recorded

/-! ### The removal of a mailbox -/

/-- The identifiers whose contents the removal of a mailbox asks for, all in one list. -/
def Store.askedIds (d : Store) (mailbox : MailboxId) : NameSet :=
  if d.lockedOut then .empty
  else
    match Sending.mailboxIds mailbox d.database with
    | .ok ids => .ofList ids
    | .error _ => .empty

/-- The lists in which a removal asks for contents: one, if there are any to ask for. -/
def askedLists (ids : NameSet) : List SentList :=
  if ids.isEmpty then [] else [.messages ids.toList]

theorem askedLists_short_iff {ids : NameSet} :
    (∀ list ∈ askedLists ids, list.length ≤ bound) ↔ ids.size ≤ bound := by
  unfold askedLists
  split
  · rename_i nothing
    have none : ids.toList = [] := List.isEmpty_iff.mp nothing
    simp [NameSet.size, none]
  · simp [SentList.length, NameSet.size]

theorem collectContents_eq (d : Store) (db : Database) (ids : NameSet) (sent : List SentList) :
    Sending.collectContents d db ids sent = (d.collectContents db ids, sent ++ askedLists ids) := by
  unfold Sending.collectContents Store.collectContents askedLists
  split
  · rw [List.append_nil]
    rfl
  · rfl

/-- What the removal of a mailbox makes of the identifiers of its rows. -/
def Store.dropMailbox (mailbox : MailboxId) (d : Store) (ids : List MessageId) :
    Except StoreError (List MessageId × Database) := do
  let db := removeMessages d.database fun place _ => place.mailbox = mailbox
  let db ← d.collectContents db (.ofList ids)
  return (ids.mergeSort (· ≤ ·), db)

theorem Store.deleteMailbox_eq (mailbox : MailboxId) :
    Store.deleteMailbox mailbox = Store.transaction fun d =>
      Sending.mailboxIds mailbox d.database >>= d.dropMailbox mailbox := by
  unfold Store.deleteMailbox Sending.mailboxIds
  simp only [bind_assoc]
  rfl

theorem removeMailbox_eq (mailbox : MailboxId) (d : Store) (sent : List SentList) :
    Sending.removeMailbox mailbox d sent
      = (Sending.mailboxIds mailbox d.database >>= d.dropMailbox mailbox,
        sent ++ match Sending.mailboxIds mailbox d.database with
          | .ok ids => askedLists (.ofList ids)
          | .error _ => []) := by
  unfold Sending.removeMailbox
  cases found : Sending.mailboxIds mailbox d.database with
  | error e =>
    simp only [List.append_nil]
    rfl
  | ok ids =>
    rw [Step.check_ok_bind]
    have asks := collectContents_eq d
      (removeMessages d.database fun place _ => place.mailbox = mailbox) (.ofList ids) sent
    simp only [Outcomes.ok_bind, Store.dropMailbox]
    cases collected : d.collectContents
        (removeMessages d.database fun place _ => place.mailbox = mailbox) (.ofList ids) with
    | error e =>
      rw [collected] at asks
      rw [Step.bind_of_error asks]
      rfl
    | ok db =>
      rw [collected] at asks
      rw [Step.bind_of_ok asks]
      rfl

/-- The removal of a mailbox answers as without the record. -/
theorem Recorded.deleteMailbox_eq (mailbox : MailboxId) (d : Store) (sent : List SentList) :
    (Storage.deleteMailbox mailbox : Step Recorded (List MessageId)) ⟨d, sent⟩
      = ((Storage.deleteMailbox mailbox d).1,
        ⟨(Storage.deleteMailbox mailbox d).2, sent ++ askedLists (d.askedIds mailbox)⟩) := by
  show Recorded.transaction (Sending.removeMailbox mailbox) ⟨d, sent⟩
    = ((Store.deleteMailbox mailbox d).1, ⟨(Store.deleteMailbox mailbox d).2, _⟩)
  have asked := removeMailbox_eq mailbox d sent
  rw [Store.deleteMailbox_eq]
  simp only [Recorded.transaction, Store.transaction, Step.write, Store.askedIds]
  split
  · simp [askedLists, NameSet.isEmpty, NameSet.empty]
  rw [asked]
  cases Sending.mailboxIds mailbox d.database with
  | error e => simp [askedLists, NameSet.isEmpty, NameSet.empty]
  | ok ids =>
    simp only [Outcomes.ok_bind]
    cases d.dropMailbox mailbox ids with
    | error e => rfl
    | ok dropped => rfl

end Mailroom.Database
