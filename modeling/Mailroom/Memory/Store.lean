import Mailroom.Storage
import Mailroom.Table
/-!
The store that keeps everything in memory.

Rows, contents and logs are tables. The store can be switched off; every call that reaches it then
fails and changes nothing.
-/

namespace Mailroom

/-- Where a change record lives: its account and its state there. -/
structure LogPlace where
  account : AccountId
  state : State
deriving DecidableEq, Repr, Inhabited

namespace LogPlace

/-- Records are ordered by account, and within an account by state. -/
instance : Ord LogPlace := ⟨compareLex (compareOn LogPlace.account) (compareOn LogPlace.state)⟩

instance : Std.TransOrd LogPlace :=
  inferInstanceAs (Std.TransCmp
    (compareLex (compareOn LogPlace.account) (compareOn LogPlace.state)))

instance : Std.LawfulEqOrd LogPlace where
  eq_of_compare {a b} same := by
    obtain ⟨account, state⟩ := Ordering.then_eq_eq.mp same
    cases a
    cases b
    exact congr (congrArg _ (Std.LawfulEqCmp.eq_of_compare account))
      (Std.LawfulEqCmp.eq_of_compare state)

end LogPlace

namespace Memory

/-- The counters of a mailbox. They have no last number: a counter of 64 bits counts alike until
2^64 - 1 numbers were given out. -/
structure Counters where
  lastUid : Uid := 0
  highestModSeq : ModSeq := 0
deriving DecidableEq, Inhabited

/-- A change record and the instant at which it expires, if it does. -/
structure StoredChange where
  record : ChangeRecord
  expiresAt : Option Instant
deriving DecidableEq, Inhabited

/-- Whether a record has not expired by an instant. -/
def StoredChange.isLive (stored : StoredChange) (now : Instant) : Bool :=
  stored.expiresAt.all fun expiresAt => now.isBefore expiresAt

/-- A store in memory. -/
structure Store where
  counters : Table MailboxId Counters := .empty
  /-- The rows, without their contents. -/
  rows : Table Place Message := .empty
  contents : Table MessageId Octets := .empty
  heads : Table AccountId Heads := .empty
  changes : Table LogPlace StoredChange := .empty
  /-- Whether the store is switched on. -/
  available : Bool := true
  listBound : Nat
deriving Inhabited

namespace Store

/-- A store without any data; a call takes at least one row number. -/
def new (listBound : Nat) : Store := { listBound := max listBound 1 }

/-- The reason given while the store is switched off. -/
def switchedOff : String := "in-memory store is switched off"

/-- Fails while the store is switched off. -/
def ensureAvailable (store : Store) : Except StoreError Unit :=
  if store.available then .ok () else .error (.unavailable switchedOff)

/-- Refuses a number that no store keeps. -/
def checkStorable (column : Column) (value : Nat) : Except StoreError Unit :=
  if value ≤ maxStored then .ok () else .error (.invalidInput (.tooGreat column value))

/-! ### Counters -/

/-- The counters of a mailbox, 0 before the first number is given out. -/
def countersOf (store : Store) (mailbox : MailboxId) : Counters :=
  (store.counters.get? mailbox).getD {}

/-- Counts up one of the counters of a mailbox. There is always a next number, which fits 64 bits as
long as fewer than 2^64 - 1 were given out. -/
def allocate (mailbox : MailboxId) (sequence : Sequence) (bump : Counters → Nat × Counters)
    (store : Store) : Except StoreError (Nat × Store) :=
  match store.ensureAvailable with
  | .error e => .error (.sequenceAllocation mailbox sequence e)
  | .ok () =>
    let (value, counters) := bump (store.countersOf mailbox)
    .ok (value, { store with counters := store.counters.insert mailbox counters })

@[inherit_doc Storage.nextUid]
def nextUid (mailbox : MailboxId) : Store → Except StoreError (Uid × Store) :=
  allocate mailbox .uid fun counters =>
    (counters.lastUid + 1, { counters with lastUid := counters.lastUid + 1 })

@[inherit_doc Storage.nextModSeq]
def nextModSeq (mailbox : MailboxId) : Store → Except StoreError (ModSeq × Store) :=
  allocate mailbox .modSeq fun counters =>
    (counters.highestModSeq + 1, { counters with highestModSeq := counters.highestModSeq + 1 })

@[inherit_doc Storage.lastUid]
def lastUid (mailbox : MailboxId) (store : Store) : Except StoreError (Option Uid) := do
  store.ensureAvailable
  let last := (store.countersOf mailbox).lastUid
  return if last = 0 then none else some last

@[inherit_doc Storage.highestModSeq]
def highestModSeq (mailbox : MailboxId) (store : Store) : Except StoreError ModSeq := do
  store.ensureAvailable
  return (store.countersOf mailbox).highestModSeq

/-! ### Reading rows -/

/-- The rows of a mailbox, by ascending number. -/
def mailboxRows (store : Store) (mailbox : MailboxId) : List Message :=
  (store.rows.filter fun place _ => place.mailbox = mailbox).values

/-- A row as a read returns it. -/
def present (store : Store) (fetch : Fetch) (row : Message) : Message :=
  match fetch with
  | .metadata => row
  | .full => { row with content := store.contents.get? row.messageId }

/-- The rows of a page. -/
def pageRows (store : Store) (request : PageRequest) : List Message :=
  ((store.mailboxRows request.mailbox).filter fun row =>
    request.reaches row.uid && request.filter.admits row.flags).take request.limit

@[inherit_doc Storage.find]
def find (mailbox : MailboxId) (uid : Uid) (fetch : Fetch) (store : Store) :
    Except StoreError (Option Message) := do
  store.ensureAvailable
  return (store.rows.get? ⟨mailbox, uid⟩).map (store.present fetch)

@[inherit_doc Storage.fetchPage]
def fetchPage (request : PageRequest) (fetch : Fetch) (store : Store) :
    Except StoreError (List Message) := do
  store.ensureAvailable
  return (store.pageRows request).map (store.present fetch)

@[inherit_doc Storage.fetchUidPage]
def fetchUidPage (request : PageRequest) (store : Store) : Except StoreError (List Uid) := do
  store.ensureAvailable
  return (store.pageRows request).map Message.uid

@[inherit_doc Storage.fetchBatch]
def fetchBatch (mailbox : MailboxId) (uids : List Uid) (fetch : Fetch) (store : Store) :
    Except StoreError (List Message) := do
  store.ensureAvailable
  return ((store.mailboxRows mailbox).filter fun row => uids.contains row.uid).map
    (store.present fetch)

/-! ### Writing rows -/

/-- Writes a new row and, for an identifier that has none, the content. -/
def insert (message : Message) (store : Store) : Except StoreError (Unit × Store) := do
  checkStorable .uid message.uid
  checkStorable .size message.size
  checkStorable .modSeq message.modSeq
  store.ensureAvailable
  if (store.rows.get? message.place).isSome then
    throw (.alreadyExists (.message message.mailbox message.uid))
  let contents :=
    match message.content, store.contents.get? message.messageId with
    | some content, none => store.contents.insert message.messageId content
    | _, _ => store.contents
  return ((), { store with
    rows := store.rows.insert message.place message.withoutContent
    contents })

@[inherit_doc Storage.updateFlags]
def updateFlags (mailbox : MailboxId) (uid : Uid) (edit : FlagEdit) (modSeq : ModSeq)
    (expected : Option ModSeq) (store : Store) : Except StoreError (Metadata × Store) := do
  checkStorable .modSeq modSeq
  store.ensureAvailable
  match store.rows.get? ⟨mailbox, uid⟩ with
  | none => throw (.notFound (.message mailbox uid))
  | some row =>
    match expected with
    | some expected =>
      if row.modSeq ≠ expected then throw (.modSeqConflict mailbox uid expected row.modSeq)
    | none => pure ()
    let row := { row with flags := edit.apply row.flags, modSeq }
    return (row.metadata, { store with rows := store.rows.insert ⟨mailbox, uid⟩ row })

/-- Clears the recent flag of one row after another. -/
def resetEach (mailbox : MailboxId) (modSeq : ModSeq) :
    List Uid → Table Place Message → RecentReset → RecentReset × Table Place Message
  | [], rows, reset => (reset, rows)
  | uid :: rest, rows, reset =>
    match rows.get? ⟨mailbox, uid⟩ with
    | none => resetEach mailbox modSeq rest rows { reset with missing := reset.missing ++ [uid] }
    | some row =>
      if row.modSeq = modSeq then
        resetEach mailbox modSeq rest rows
          { reset with alreadyApplied := reset.alreadyApplied ++ [uid] }
      else
        let row := { row with flags := row.flags.set .recent false, modSeq }
        resetEach mailbox modSeq rest (rows.insert ⟨mailbox, uid⟩ row)
          { reset with updated := reset.updated ++ [row.metadata] }

@[inherit_doc Storage.resetRecent]
def resetRecent (mailbox : MailboxId) (uids : List Uid) (modSeq : ModSeq) (store : Store) :
    Except StoreError (RecentReset × Store) := do
  checkStorable .modSeq modSeq
  store.ensureAvailable
  let (reset, rows) := resetEach mailbox modSeq uids store.rows {}
  return (reset, { store with rows })

/-! ### Removing rows -/

/-- Keeps the rows that pass a test, and the contents of all identifiers but those that some removed
row had and no kept row has. -/
def keepRows (store : Store) (keep : Place → Message → Bool) : Store :=
  let rows := store.rows.filter keep
  let dropped := (store.rows.filter fun place row => !keep place row).values
  { store with
    rows
    contents := store.contents.filter fun id _ =>
      !(dropped.any fun row => row.messageId = id) ||
        rows.values.any fun row => row.messageId = id }

/-- Removes rows by number, and returns them in the order of the numbers. -/
def deleteBatch (mailbox : MailboxId) (uids : List Uid) (store : Store) :
    Except StoreError (List Metadata × Store) := do
  store.ensureAvailable
  let removed := uids.eraseDups.filterMap fun uid => store.rows.get? ⟨mailbox, uid⟩
  return (removed.map Message.metadata, store.keepRows fun place _ =>
    !(place.mailbox = mailbox && uids.contains place.uid))

/-- Sorts names by their code points. -/
def sortNames (names : List String) : List String := names.mergeSort (· ≤ ·)

@[inherit_doc Storage.deleteMailbox]
def deleteMailbox (mailbox : MailboxId) (store : Store) :
    Except StoreError (List MessageId × Store) := do
  store.ensureAvailable
  return (sortNames ((store.mailboxRows mailbox).map Message.messageId),
    store.keepRows fun place _ => place.mailbox ≠ mailbox)

/-- The mailboxes that hold a message. -/
def mailboxesOf (store : Store) (id : MessageId) : List MailboxId :=
  (NameSet.ofList ((store.rows.filter fun _ row => row.messageId = id).values.map
    Message.mailbox)).toList

@[inherit_doc Storage.deleteMessage]
def deleteMessage (id : MessageId) (store : Store) :
    Except StoreError (List MailboxId × Store) := do
  store.ensureAvailable
  let kept := store.keepRows fun _ row => row.messageId ≠ id
  return (store.mailboxesOf id, { kept with contents := kept.contents.erase id })

@[inherit_doc Storage.findMailboxes]
def findMailboxes (id : MessageId) (store : Store) : Except StoreError (List MailboxId) := do
  store.ensureAvailable
  return store.mailboxesOf id

/-! ### Derived reads -/

@[inherit_doc Storage.counts]
def counts (mailbox : MailboxId) (store : Store) : Except StoreError MailboxCounts := do
  store.ensureAvailable
  let rows := store.mailboxRows mailbox
  return ⟨rows.length, (rows.filter fun row => !row.flags.seen).length⟩

@[inherit_doc Storage.firstUnseen]
def firstUnseen (mailbox : MailboxId) (store : Store) : Except StoreError (Option Uid) := do
  store.ensureAvailable
  return ((store.mailboxRows mailbox).find? fun row => !row.flags.seen).map Message.uid

@[inherit_doc Storage.keywords]
def keywords (mailbox : MailboxId) (store : Store) : Except StoreError NameSet := do
  store.ensureAvailable
  return (store.mailboxRows mailbox).foldl (fun set row => set.union row.flags.keywords) .empty

/-! ### Change logs -/

/-- The heads of an account, before its first change the initial state. -/
def headsOf (store : Store) (account : AccountId) : Heads := (store.heads.get? account).getD {}

@[inherit_doc Storage.appendChange]
def appendChange (draft : ChangeDraft) (expiresAt : Option Instant) (store : Store) :
    Except StoreError (ChangeRecord × Store) := do
  store.ensureAvailable
  let heads := store.headsOf draft.account
  let state := heads.latest.next
  let record := draft.record state
  return (record, { store with
    heads := store.heads.insert draft.account (heads.advance state draft.isDelegated)
    changes := store.changes.insert ⟨draft.account, state⟩ ⟨record, expiresAt⟩ })

/-- The live records of a page. -/
def changesPage (request : ChangePageRequest) (store : Store) :
    Except StoreError (List ChangeRecord) := do
  store.ensureAvailable
  let lower := (request.after.map State.next).getD request.lower
  let live := store.changes.filter fun place stored =>
    place.account = request.account && lower ≤ place.state && stored.isLive request.now
  return (live.values.take request.limit).map StoredChange.record

@[inherit_doc Storage.heads]
def readHeads (account : AccountId) (store : Store) : Except StoreError Heads := do
  store.ensureAvailable
  return store.headsOf account

@[inherit_doc Storage.purgeExpired]
def purgeExpired (now : Instant) (store : Store) : Except StoreError (Nat × Store) := do
  store.ensureAvailable
  let live := store.changes.filter fun _ stored => stored.isLive now
  return (store.changes.size - live.size, { store with changes := live })

/-! ### The store as a whole -/

/-- The name under which the store reports on itself. -/
def component : String := "in-memory store"

/-- Reports whether the store is switched on. -/
def health (store : Store) : HealthReport := .ofProbe component store.ensureAvailable

instance : Storage Store where
  nextUid mailbox := .write (nextUid mailbox)
  nextModSeq mailbox := .write (nextModSeq mailbox)
  lastUid mailbox := .read (lastUid mailbox)
  highestModSeq mailbox := .read (highestModSeq mailbox)
  insert message := .write (insert message)
  find mailbox uid fetch := .read (find mailbox uid fetch)
  fetchPage request fetch := .read (fetchPage request fetch)
  fetchUidPage request := .read (fetchUidPage request)
  fetchBatch mailbox uids fetch := .read (fetchBatch mailbox uids fetch)
  updateFlags mailbox uid edit modSeq expected :=
    .write (updateFlags mailbox uid edit modSeq expected)
  resetRecent mailbox uids modSeq := .write (resetRecent mailbox uids modSeq)
  deleteBatch mailbox uids := .write (deleteBatch mailbox uids)
  deleteMailbox mailbox := .write (deleteMailbox mailbox)
  deleteMessage id := .write (deleteMessage id)
  findMailboxes id := .read (findMailboxes id)
  counts mailbox := .read (counts mailbox)
  firstUnseen mailbox := .read (firstUnseen mailbox)
  keywords mailbox := .read (keywords mailbox)
  listBound store := store.listBound
  appendChange draft expiresAt := .write (appendChange draft expiresAt)
  changesPage request := .read (changesPage request)
  heads account := .read (readHeads account)
  purgeExpired now := .write (purgeExpired now)
  health := health
  extent store := store.rows.size + store.changes.size + 1

end Store

end Memory

end Mailroom
