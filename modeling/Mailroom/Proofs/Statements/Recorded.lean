import Mathlib.Data.List.Perm.Subperm
import Mailroom.Proofs.Failures.Stores
import Mailroom.Proofs.Mirror.Removals
/-!
Databases that record the lists of their statements.

A statement that is about several rows or several contents compares a column with a list. A
`Recorded` database keeps every list that it has sent beside what it stores. Its operations are
those of a database with each such statement marked as sent; a list stays recorded when the
statement is refused, and when the transaction around it fails.

`Sends` says of the statements of a transaction that they come to the outcome of the transaction
itself, and that every list in them is short. Each operation on a partition sends lists that are no
longer than the partition (`resetRows_sends`, `removeRows_sends`), because what it changes or
removes is among the numbers of the partition.
-/

namespace Mailroom.Database

variable {α β : Type}

/-- A list that a statement compares a column with. -/
inductive SentList where
  | uids (uids : List Uid)
  | messages (ids : List MessageId)
deriving DecidableEq

/-- The number of parameters that a list takes. -/
def SentList.length : SentList → Nat
  | .uids list => list.length
  | .messages list => list.length

/-! ### Statements of a transaction -/

namespace Sending

/-- Sends a statement with a list, and comes to its outcome. -/
def send (list : SentList) (outcome : Except StoreError α) : Step (List SentList) α :=
  fun sent => (outcome, sent ++ [list])

@[inherit_doc Store.selectUids]
def selectUids (store : Store) (mailbox : MailboxId) (uids : List Uid) (fetch : Fetch) :
    Step (List SentList) (List Message) :=
  let stored := Store.storedUids uids
  if stored.isEmpty then pure []
  else send (.uids stored) (store.selectUids mailbox uids fetch)

@[inherit_doc Store.collectContents]
def collectContents (store : Store) (db : Database) (ids : NameSet) :
    Step (List SentList) Database :=
  if ids.isEmpty then pure db else send (.messages ids.toList) (store.collectContents db ids)

/-- The statements of an update of flags. -/
def updateRow (mailbox : MailboxId) (uid : Uid) (edit : FlagEdit) (modSeq : Cell)
    (expected : Option ModSeq) (store : Store) : Step (List SentList) (Metadata × Database) := do
  let db := store.database
  .check (requireRelations db [.messages])
  match Store.expectedRow? db ⟨mailbox, uid⟩ expected with
  | none =>
    .fail (Store.updateFailure mailbox uid expected (db.messages.get? ⟨mailbox, uid⟩))
  | some row =>
    let row := edit.assignments.foldl (fun row a => row.setFlag a.1 a.2) { row with modSeq }
    let db := { db with messages := db.messages.insert ⟨mailbox, uid⟩ row }
    let db ← .check (editKeywords db ⟨mailbox, uid⟩ edit.keywords)
    match ← selectUids { store with database := db } mailbox [uid] .metadata with
    | message :: _ => return (message.metadata, db)
    | [] => .fail (.notFound (.message mailbox uid))

@[inherit_doc Mirror.askRows]
def askRows (uids : List Uid) (store : Store) : Step (List SentList) Unit :=
  let stored := Store.storedUids uids
  if stored.isEmpty then pure ()
  else send (.uids stored) (Mirror.askRows store uids)

/-- The statements of a reset of recent flags. -/
def resetRows (mailbox : MailboxId) (uids : List Uid) (modSeq : ModSeq) (store : Store) :
    Step (List SentList) (RecentReset × Database) := do
  askRows uids store
  let (missing, alreadyApplied, changing) ←
    .check (Store.sortUids store.database mailbox (.integer modSeq) uids)
  if changing.isEmpty then return ({ missing, alreadyApplied }, store.database)
  send (.uids changing) (store.bindVariables (changing.length + 3))
  let db := Mirror.resetColumns mailbox modSeq changing store.database
  let updated ← selectUids { store with database := db } mailbox changing .metadata
  return ({ updated := updated.map Message.metadata, alreadyApplied, missing }, db)

/-- The statements of a removal of rows by number. -/
def removeRows (mailbox : MailboxId) (uids : List Uid) (store : Store) :
    Step (List SentList) (List Metadata × Database) := do
  let stored := Store.storedUids uids
  let removed ← selectUids store mailbox uids .metadata
  send (.uids stored) (.ok ())
  let db := removeMessages store.database fun place _ =>
    place.mailbox = mailbox && stored.contains place.uid
  let db ← collectContents store db (.ofList (removed.map Message.messageId))
  return (removed.map Message.metadata, db)

/-- The identifiers of the rows of a mailbox, as they are read when it is removed. -/
def mailboxIds (mailbox : MailboxId) (db : Database) : Except StoreError (List MessageId) := do
  requireRelations db [.messages]
  (db.messages.filter fun place _ => place.mailbox = mailbox).values.mapM fun row =>
    row.messageId.readText

/-- The statements of the removal of a mailbox. -/
def removeMailbox (mailbox : MailboxId) (store : Store) :
    Step (List SentList) (List MessageId × Database) := do
  let ids ← .check (mailboxIds mailbox store.database)
  let db := removeMessages store.database fun place _ => place.mailbox = mailbox
  let db ← collectContents store db (.ofList ids)
  return (ids.mergeSort (· ≤ ·), db)

/-- The statements of the removal of a message. -/
def removeMessage (id : MessageId) (store : Store) :
    Step (List SentList) (List MailboxId × Database) := do
  .check (requireRelations store.database [.messages])
  let db := removeMessages store.database fun _ row => row.messageId = .text id
  let db ← collectContents store db (.ofList [id])
  return (Store.mailboxesOf store.database id, db)

end Sending

/-! ### The database with its record -/

/-- A database and the lists that it has sent. -/
structure Recorded where
  store : Store
  sent : List SentList := []

namespace Recorded

/-- A step that sends no list. -/
def lift (step : Step Store α) : Step Recorded α := fun r =>
  let (answer, store) := step r.store
  (answer, { r with store })

@[inherit_doc Store.query]
def query (f : Store → Step (List SentList) α) : Step Recorded α := fun r =>
  let (outcome, sent) := f r.store r.sent
  (outcome, { r with sent })

@[inherit_doc Store.transaction]
def transaction (f : Store → Step (List SentList) (α × Database)) : Step Recorded α := fun r =>
  if r.store.lockedOut then (.error EngineError.lockHeld.toStoreError, r)
  else
    match f r.store r.sent with
    | (.ok (a, database), sent) => (.ok a, { store := { r.store with database }, sent })
    | (.error e, sent) => (.error e, { r with sent })

@[inherit_doc Store.updateFlags]
def updateFlags (mailbox : MailboxId) (uid : Uid) (edit : FlagEdit) (modSeq : ModSeq)
    (expected : Option ModSeq) : Step Recorded Metadata := do
  let modSeq ← .check (storable .modSeq modSeq)
  if maxStored < uid then .fail (.notFound (.message mailbox uid))
  else do
    lift (Store.compileKeyword fun db =>
      Store.addsKeywords edit.keywords && (Store.expectedRow? db ⟨mailbox, uid⟩ expected).isSome)
    transaction (Sending.updateRow mailbox uid edit modSeq expected)

@[inherit_doc Store.resetRecent]
def resetRecent (mailbox : MailboxId) (uids : List Uid) (modSeq : ModSeq) :
    Step Recorded RecentReset :=
  if uids.isEmpty then pure {}
  else do
    let _ ← .check (storable .modSeq modSeq)
    transaction (Sending.resetRows mailbox uids modSeq)

@[inherit_doc Store.deleteBatch]
def deleteBatch (mailbox : MailboxId) (uids : List Uid) : Step Recorded (List Metadata) :=
  if (Store.storedUids uids).isEmpty then pure []
  else transaction (Sending.removeRows mailbox uids)

instance : Storage Recorded where
  nextUid mailbox := lift (Storage.nextUid mailbox)
  nextModSeq mailbox := lift (Storage.nextModSeq mailbox)
  lastUid mailbox := lift (Storage.lastUid mailbox)
  highestModSeq mailbox := lift (Storage.highestModSeq mailbox)
  insert message := lift (Storage.insert message)
  find mailbox uid fetch := lift (Storage.find mailbox uid fetch)
  fetchPage request fetch := lift (Storage.fetchPage request fetch)
  fetchUidPage request := lift (Storage.fetchUidPage request)
  fetchBatch mailbox uids fetch := query fun store => Sending.selectUids store mailbox uids fetch
  updateFlags := updateFlags
  resetRecent := resetRecent
  deleteBatch := deleteBatch
  deleteMailbox mailbox := transaction (Sending.removeMailbox mailbox)
  deleteMessage id := transaction (Sending.removeMessage id)
  findMailboxes id := lift (Storage.findMailboxes id)
  counts mailbox := lift (Storage.counts mailbox)
  firstUnseen mailbox := lift (Storage.firstUnseen mailbox)
  keywords mailbox := lift (Storage.keywords mailbox)
  listBound r := Storage.listBound r.store
  appendChange draft expiresAt := lift (Storage.appendChange draft expiresAt)
  changesPage request := lift (Storage.changesPage request)
  heads account := lift (Storage.heads account)
  purgeExpired now := lift (Storage.purgeExpired now)
  health r := Storage.health r.store
  extent r := Storage.extent r.store

end Recorded

/-! ### What the statements come to -/

/-- Statements come to an outcome, and no list in them is longer than a bound. -/
def Sends (bound : Nat) (statements : Step (List SentList) α) (outcome : Except StoreError α) :
    Prop :=
  ∀ sent, (statements sent).1 = outcome ∧
    ∃ more, (statements sent).2 = sent ++ more ∧ ∀ list ∈ more, list.length ≤ bound

namespace Sends

variable {bound : Nat}

theorem check (outcome : Except StoreError α) : Sends bound (.check outcome) outcome :=
  fun sent => ⟨rfl, [], (List.append_nil sent).symm, nofun⟩

theorem pure (a : α) : Sends bound (Pure.pure a) (.ok a) := check (.ok a)

theorem fail (e : StoreError) : Sends bound (.fail e : Step _ α) (.error e) := check (.error e)

theorem send {list : SentList} (short : list.length ≤ bound) (outcome : Except StoreError α) :
    Sends bound (Sending.send list outcome) outcome :=
  fun _ => ⟨rfl, [list], rfl, fun _ member => List.mem_singleton.mp member ▸ short⟩

theorem bind {first : Step (List SentList) α} {outcome : Except StoreError α}
    {next : α → Step (List SentList) β} {next' : α → Except StoreError β}
    (firsts : Sends bound first outcome)
    (nexts : ∀ a, outcome = .ok a → Sends bound (next a) (next' a)) :
    Sends bound (first >>= next) (outcome >>= next') := by
  intro sent
  obtain ⟨same, more, left, areShort⟩ := firsts sent
  rcases done : first sent with ⟨e | a, middle⟩
  · rw [done] at same left
    subst same
    rw [Step.bind_of_error done]
    exact ⟨rfl, more, left, areShort⟩
  · rw [done] at same left
    simp only at left
    subst same left
    rw [Step.bind_of_ok done]
    obtain ⟨same, later, left, areShort'⟩ := nexts a rfl (sent ++ more)
    refine ⟨same, more ++ later, by rw [left, List.append_assoc], fun list member => ?_⟩
    rcases List.mem_append.mp member with member | member
    · exact areShort list member
    · exact areShort' list member

/-- A statement whose outcome nothing depends on. -/
theorem sent_bind {list : SentList} (short : list.length ≤ bound) {next : Step (List SentList) α}
    {outcome : Except StoreError α} (nexts : Sends bound next outcome) :
    Sends bound (Sending.send list (.ok ()) >>= fun _ => next) outcome :=
  bind (send short (.ok ())) fun _ _ => nexts

end Sends

/-! ### How long the lists are -/

variable {bound : Nat} {mailbox : MailboxId} {uids : List Uid}

theorem length_storedUids_le : (Store.storedUids uids).length ≤ uids.length :=
  List.length_filter_le _ _

/-- What is read of the numbers of a list is no longer than the list. -/
theorem length_selectUids_le {d : Store} {fetch : Fetch} {rows : List Message}
    (done : d.selectUids mailbox uids fetch = .ok rows) :
    rows.length ≤ (Store.storedUids uids).length := by
  unfold Store.selectUids at done
  simp only at done
  split at done
  · cases done
    exact Nat.zero_le _
  obtain ⟨_, -, done⟩ := Outcomes.bind_eq_ok.mp done
  unfold selectMessages at done
  obtain ⟨_, -, done⟩ := Outcomes.bind_eq_ok.mp done
  obtain ⟨typed, types, reads⟩ := Outcomes.bind_eq_ok.mp done
  rw [Outcomes.length_of_mapM_eq_ok reads, Outcomes.length_of_mapM_eq_ok types]
  set keep : Place → MessageRow → Bool := fun place _ =>
    place.mailbox = mailbox && (Store.storedUids uids).contains place.uid with isKept
  -- The rows of one mailbox have different numbers, all of them among those of the list.
  have chosen (entry : Place × MessageRow)
      (member : entry ∈ (d.database.messages.filter keep).entries) :
      entry.1.mailbox = mailbox ∧ entry.1.uid ∈ Store.storedUids uids := by
    have kept := (List.mem_filter.mp member).2
    simpa [isKept] using kept
  have once : ((d.database.messages.filter keep).entries.map fun entry => entry.1.uid).Nodup := by
    refine List.pairwise_map.mpr ?_
    refine (d.database.messages.filter keep).ascending.imp_of_mem ?_
    intro a b first second before same
    have sameMailbox := (chosen a first).1.trans (chosen b second).1.symm
    have samePlace : a.1 = b.1 := (Place.mk.injEq ..).mpr ⟨sameMailbox, same⟩
    rw [samePlace] at before
    rw [Std.compare_self] at before
    cases before
  have among : ((d.database.messages.filter keep).entries.map fun entry => entry.1.uid)
      ⊆ Store.storedUids uids := by
    intro uid member
    obtain ⟨entry, listed, rfl⟩ := List.mem_map.mp member
    exact (chosen entry listed).2
  simpa using (once.subperm among).length_le

/-- The numbers to change are among the numbers of the partition, each as often as there. -/
theorem sublist_of_sortUids {db : Database} {target : Cell} {missing applied changing : List Uid}
    (sorted : Store.sortUids db mailbox target uids = .ok (missing, applied, changing)) :
    changing.Sublist uids := by
  induction uids generalizing missing applied changing with
  | nil =>
    cases sorted
    exact .slnil
  | cons uid rest ih =>
    obtain ⟨⟨missing', applied', changing'⟩, later, sorted⟩ := Outcomes.bind_eq_ok.mp sorted
    have rests := ih later
    simp only at sorted
    split at sorted
    · cases sorted
      exact rests.cons uid
    · obtain ⟨modSeq, -, sorted⟩ := Outcomes.bind_eq_ok.mp sorted
      split at sorted
      · cases sorted
        exact rests.cons uid
      · cases sorted
        exact rests.cons_cons uid

theorem selectUids_sends (few : uids.length ≤ bound) (store : Store) (fetch : Fetch) :
    Sends bound (Sending.selectUids store mailbox uids fetch)
      (store.selectUids mailbox uids fetch) := by
  simp only [Sending.selectUids, Store.selectUids]
  split
  · exact .pure _
  · have short : (SentList.uids (Store.storedUids uids)).length ≤ bound :=
      Nat.le_trans length_storedUids_le few
    exact .send short _

theorem collectContents_sends {ids : NameSet} (few : ids.size ≤ bound) (store : Store)
    (db : Database) :
    Sends bound (Sending.collectContents store db ids) (store.collectContents db ids) := by
  simp only [Sending.collectContents, Store.collectContents]
  split
  · exact .pure _
  · have short : (SentList.messages ids.toList).length ≤ bound := few
    exact .send short _

theorem resetRows_sends (few : uids.length ≤ bound) (modSeq : ModSeq) (store : Store) :
    Sends bound (Sending.resetRows mailbox uids modSeq store)
      (Mirror.resetBatch mailbox uids modSeq store) := by
  have asks : Sends bound (Sending.askRows uids store) (Mirror.askRows store uids) := by
    have short : (SentList.uids (Store.storedUids uids)).length ≤ bound :=
      Nat.le_trans length_storedUids_le few
    simp only [Sending.askRows, Mirror.askRows]
    split
    · exact .pure _
    · exact .send short _
  refine .bind asks fun _ _ => .bind (.check _) fun (missing, applied, changing) sorted => ?_
  have fewer : changing.length ≤ bound :=
    Nat.le_trans (sublist_of_sortUids sorted).length_le few
  simp only
  split
  · exact .pure _
  have short : (SentList.uids changing).length ≤ bound := fewer
  refine .bind (.send short _) fun _ _ => ?_
  exact .bind (selectUids_sends fewer _ _) fun updated _ => .pure _

/-- The statements of a removal ask for contents of no more messages than there were rows. -/
theorem removeRows_sends (few : uids.length ≤ bound) (store : Store) :
    Sends bound (Sending.removeRows mailbox uids store) (do
      let removed ← store.selectUids mailbox uids .metadata
      let db := removeMessages store.database fun place _ =>
        place.mailbox = mailbox && (Store.storedUids uids).contains place.uid
      let db ← store.collectContents db (.ofList (removed.map Message.messageId))
      return (removed.map Message.metadata, db)) := by
  have short : (SentList.uids (Store.storedUids uids)).length ≤ bound :=
    Nat.le_trans length_storedUids_le few
  refine .bind (selectUids_sends few store _) fun removed done => ?_
  have fewer : (NameSet.ofList (removed.map Message.messageId)).size ≤ bound := by
    have sized := NameSet.size_ofList_le (removed.map Message.messageId)
    rw [List.length_map] at sized
    exact Nat.le_trans sized (Nat.le_trans (length_selectUids_le done) short)
  refine .sent_bind short ?_
  exact .bind (collectContents_sends fewer store _) fun _ _ => .pure _

end Mailroom.Database
