import Mailroom.Database.Codec
import Mailroom.Storage
/-!
The store that keeps everything in a database file.

Every operation is one transaction, or one statement: if any part of it fails, the database is as it
was before. Two operations refuse a value only after it was written: counting up a counter that
someone set below zero, and recording a change after such a state.

A statement that names a relation which does not exist fails, and so does one with more parameters
than the engine takes. The statement that adds a keyword is compiled once: after that it fails only
when it is carried out. Reading goes on while another connection holds the write lock; writing does
not.
-/

namespace Mailroom.Database

/-- An open database. -/
structure Store where
  database : Database
  /-- The name of its file. -/
  path : String
  /-- The file was moved away. What is open stays open. -/
  fileMoved : Bool := false
  /-- Another connection holds the write lock. -/
  lockedOut : Bool := false
  /-- The greatest number of row numbers taken in one call. -/
  listBound : Nat
  /-- The greatest number of parameters of a statement. -/
  variableLimit : Nat := 32766
  /-- The statement that adds a keyword was compiled. -/
  isKeywordCompiled : Bool := false
deriving Inhabited

/-! ### Statements -/

/-- Fails if a relation that a statement names does not exist. -/
def requireRelations (db : Database) (relations : List Relation) : Except StoreError Unit :=
  match relations.find? fun relation => db.missing.contains relation with
  | some relation => .error (EngineError.noSuchTable relation.name).toStoreError
  | none => .ok ()

/-- The keywords of a message. -/
def keywordsAt (db : Database) (place : Place) : NameSet :=
  .ofList ((db.keywords.filter fun keyword => keyword.1 = place).map (·.2))

/-- The relations that reading messages names. -/
def readRelations : Fetch → List Relation
  | .metadata => [.messages, .keywords]
  | .full => [.messages, .keywords, .contents]

/-- Reads the messages that pass a test, by ascending place, at most `limit` of them. -/
def selectMessages (db : Database) (fetch : Fetch) (keep : Place → MessageRow → Bool)
    (limit : Option Nat) : Except StoreError (List Message) := do
  requireRelations db (readRelations fetch)
  let rows := (db.messages.filter keep).entries
  let rows := match limit with
    | some limit => rows.take limit
    | none => rows
  let rows ← rows.mapM fun (place, row) => return (place, ← row.values)
  rows.mapM fun (place, values) =>
    values.read place (keywordsAt db place) (match fetch with
      | .metadata => none
      | .full => db.contents.get? values.messageId)

/-- Adds keywords to a message; those that it has already are passed over. -/
def insertKeywords (db : Database) (place : Place) (keywords : NameSet) :
    Except StoreError Database := do
  requireRelations db [.keywords]
  let added := keywords.toList.filter fun keyword => !db.keywords.contains (place, keyword)
  return { db with keywords := db.keywords ++ added.map fun keyword => (place, keyword) }

/-- Edits the keywords of a message. -/
def editKeywords (db : Database) (place : Place) : KeywordEdit → Except StoreError Database
  | .keep => .ok db
  | .append added => insertKeywords db place added
  | .remove removed => do
    requireRelations db [.keywords]
    return { db with
      keywords := db.keywords.filter fun k => !(k.1 = place && removed.toList.contains k.2) }
  | .replace replacement => do
    requireRelations db [.keywords]
    insertKeywords { db with keywords := db.keywords.filter fun k => k.1 ≠ place } place replacement

/-- Removes the messages that pass a test, and with each of them its keywords. -/
def removeMessages (db : Database) (remove : Place → MessageRow → Bool) : Database :=
  let removed := (db.messages.filter remove).entries.map (·.1)
  { db with
    messages := db.messages.filter fun place row => !remove place row
    keywords := db.keywords.filter fun k => !removed.contains k.1 }

namespace Store

/-- Fails if a statement has too many parameters. -/
def bindVariables (store : Store) (count : Nat) : Except StoreError Unit :=
  if count ≤ store.variableLimit then .ok ()
  else .error EngineError.tooManyVariables.toStoreError

/-- Removes the contents of some identifiers that no message has any more. -/
def collectContents (store : Store) (db : Database) (ids : NameSet) :
    Except StoreError Database := do
  if ids.isEmpty then return db
  requireRelations db [.contents, .messages]
  store.bindVariables ids.size
  return { db with
    contents := db.contents.filter fun id _ =>
      !ids.toList.contains id || db.messages.values.any fun row => row.messageId = .text id }

/-- Looks at the database. -/
def query {α : Type} (f : Store → Except StoreError α) : Step Store α := .read f

/-- Changes the database as a whole or not at all. The write lock is taken first. -/
def transaction {α : Type} (f : Store → Except StoreError (α × Database)) : Step Store α :=
  .write fun store =>
    if store.lockedOut then .error EngineError.lockHeld.toStoreError
    else do
      let (a, database) ← f store
      return (a, { store with database })

/-! ### Counters -/

/-- The counters of a mailbox, 0 before the first number is given out. -/
def countersOf (store : Store) (mailbox : MailboxId) : CounterRow :=
  (store.database.counters.get? mailbox).getD {}

/-- The number that a counter gives out. -/
def readCounter (sequence : Sequence) : Counter → Except StoreError Nat
  | .integer (.ofNat value) => .ok value
  | .integer (.negSucc value) => .error (.corrupted (.negativeCounter sequence (.negSucc value)))
  | .overflowed => .error EngineError.columnType.toStoreError

/-- Counts up one of the counters of a mailbox. The counter stays counted up if its value is
refused. -/
def allocate (mailbox : MailboxId) (sequence : Sequence)
    (bump : CounterRow → Counter × CounterRow) : Step Store Nat :=
  .mapError (.sequenceAllocation mailbox sequence) do
    .check (← query fun store => .ok (requireRelations store.database [.counters]))
    let value ← transaction fun store =>
      let (value, row) := bump (store.countersOf mailbox)
      .ok (value, { store.database with
        counters := store.database.counters.insert mailbox row })
    .check (readCounter sequence value)

@[inherit_doc Storage.nextUid]
def nextUid (mailbox : MailboxId) : Step Store Uid :=
  allocate mailbox .uid fun row => (row.lastUid.bump, { row with lastUid := row.lastUid.bump })

@[inherit_doc Storage.nextModSeq]
def nextModSeq (mailbox : MailboxId) : Step Store ModSeq :=
  allocate mailbox .modSeq fun row =>
    (row.highestModSeq.bump, { row with highestModSeq := row.highestModSeq.bump })

/-- Both counters of a mailbox, as integers. -/
def readCounters (mailbox : MailboxId) (store : Store) : Except StoreError (Int × Int) := do
  requireRelations store.database [.counters]
  match (store.countersOf mailbox) with
  | ⟨.integer lastUid, .integer highestModSeq⟩ => return (lastUid, highestModSeq)
  | _ => throw EngineError.columnType.toStoreError

@[inherit_doc Storage.lastUid]
def lastUid (mailbox : MailboxId) (store : Store) : Except StoreError (Option Uid) := do
  let (lastUid, _) ← store.readCounters mailbox
  return if 0 < lastUid then some lastUid.toNat else none

@[inherit_doc Storage.highestModSeq]
def highestModSeq (mailbox : MailboxId) (store : Store) : Except StoreError ModSeq := do
  let (_, highestModSeq) ← store.readCounters mailbox
  return highestModSeq.toNat

/-! ### Reading rows -/

@[inherit_doc Storage.find]
def find (mailbox : MailboxId) (uid : Uid) (fetch : Fetch) (store : Store) :
    Except StoreError (Option Message) := do
  if maxStored < uid then return none
  let rows ← selectMessages store.database fetch (fun place _ => place = ⟨mailbox, uid⟩) none
  return rows.head?

/-- Whether a page asks for numbers that no row can have. -/
def isBeyondRows (request : PageRequest) : Bool :=
  maxStored < request.range.lower || request.after.any fun after => maxStored < after

/-- Whether a row belongs to a page. -/
def onPage (request : PageRequest) (place : Place) (row : MessageRow) : Bool :=
  place.mailbox = request.mailbox && request.reaches place.uid && row.passes request.filter

@[inherit_doc Storage.fetchPage]
def fetchPage (request : PageRequest) (fetch : Fetch) (store : Store) :
    Except StoreError (List Message) :=
  if isBeyondRows request || request.limit = 0 then .ok []
  else selectMessages store.database fetch (onPage request) request.limit

@[inherit_doc Storage.fetchUidPage]
def fetchUidPage (request : PageRequest) (store : Store) : Except StoreError (List Uid) := do
  if isBeyondRows request || request.limit = 0 then return []
  requireRelations store.database [.messages]
  let rows := (store.database.messages.filter (onPage request)).entries
  return (rows.take request.limit).map fun entry => entry.1.uid

/-- The numbers of a list that a row can have. -/
def storedUids (uids : List Uid) : List Uid := uids.filter (· ≤ maxStored)

/-- The messages of a mailbox with some numbers, ascending. -/
def selectUids (store : Store) (mailbox : MailboxId) (uids : List Uid) (fetch : Fetch) :
    Except StoreError (List Message) := do
  let stored := storedUids uids
  if stored.isEmpty then return []
  store.bindVariables (stored.length + 1)
  selectMessages store.database fetch
    (fun place _ => place.mailbox = mailbox && stored.contains place.uid) none

@[inherit_doc Storage.fetchBatch]
def fetchBatch (mailbox : MailboxId) (uids : List Uid) (fetch : Fetch) (store : Store) :
    Except StoreError (List Message) :=
  store.selectUids mailbox uids fetch

/-! ### Writing rows -/

/-- Compiles the statement that adds a keyword, if a transaction comes to it. -/
def compileKeyword (reached : Database → Bool) : Step Store Unit :=
  .write fun store =>
    let compiles := !store.lockedOut && !store.database.missing.contains .messages
      && !store.database.missing.contains .keywords && reached store.database
    .ok ((), { store with isKeywordCompiled := store.isKeywordCompiled || compiles })

/-- Writes a new row, its keywords and, for an identifier that has none, the content. -/
def insertRow (store : Store) (message : Message) (row : MessageRow) :
    Except StoreError Database := do
  let db := store.database
  requireRelations db [.messages]
  if (db.messages.get? message.place).isSome then
    throw (.alreadyExists (.message message.mailbox message.uid))
  let db := { db with messages := db.messages.insert message.place row }
  let keywords := message.flags.keywords
  let db ←
    if store.isKeywordCompiled && keywords.isEmpty then pure db
    else insertKeywords db message.place keywords
  match message.content with
  | none => return db
  | some content =>
    requireRelations db [.contents]
    if (db.contents.get? message.messageId).isSome then return db
    return { db with contents := db.contents.insert message.messageId (.packed content) }

@[inherit_doc Storage.insert]
def insert (message : Message) : Step Store Unit := do
  let _ ← .check (storable .uid message.uid)
  let row ← .check (MessageRow.ofMessage message)
  compileKeyword fun db => (db.messages.get? message.place).isNone
  transaction fun store => do
    let db ← store.insertRow message row
    return ((), db)

/-- Why an update matched no row: there is none, or it has another modification sequence. -/
def updateFailure (mailbox : MailboxId) (uid : Uid) (expected : Option ModSeq)
    (row : Option MessageRow) : StoreError :=
  match row, expected with
  | some row, some expected =>
    match row.modSeq.readInteger >>= readNumber .modSeq with
    | .ok actual => .modSeqConflict mailbox uid expected actual
    | .error e => e
  | _, _ => .notFound (.message mailbox uid)

/-- The row of a message, if it has the modification sequence that is expected. -/
def expectedRow? (db : Database) (place : Place) (expected : Option ModSeq) : Option MessageRow :=
  (db.messages.get? place).filter fun row => expected.all fun e => row.modSeq = .integer e

/-- Whether an edit may add keywords. -/
def addsKeywords : KeywordEdit → Bool
  | .append _ | .replace _ => true
  | .keep | .remove _ => false

@[inherit_doc Storage.updateFlags]
def updateFlags (mailbox : MailboxId) (uid : Uid) (edit : FlagEdit) (modSeq : ModSeq)
    (expected : Option ModSeq) : Step Store Metadata := do
  let modSeq ← .check (storable .modSeq modSeq)
  if maxStored < uid then .fail (.notFound (.message mailbox uid))
  else do
    let place : Place := ⟨mailbox, uid⟩
    compileKeyword fun db => addsKeywords edit.keywords && (expectedRow? db place expected).isSome
    transaction fun store => do
      let db := store.database
      requireRelations db [.messages]
      match expectedRow? db place expected with
      | none => throw (updateFailure mailbox uid expected (db.messages.get? place))
      | some row =>
        let row := edit.assignments.foldl (fun row a => row.setFlag a.1 a.2) { row with modSeq }
        let db := { db with messages := db.messages.insert place row }
        let db ← editKeywords db place edit.keywords
        match ← selectUids { store with database := db } mailbox [uid] .metadata with
        | message :: _ => return (message.metadata, db)
        | [] => throw (.notFound (.message mailbox uid))

/-- Sorts the numbers of a partition by the modification sequences of their rows: those without a
row, those with the wanted one, and those to change. -/
def sortUids (db : Database) (mailbox : MailboxId) (target : Cell) :
    List Uid → Except StoreError (List Uid × List Uid × List Uid)
  | [] => .ok ([], [], [])
  | uid :: rest => do
    let (missing, applied, changing) ← sortUids db mailbox target rest
    match db.messages.get? ⟨mailbox, uid⟩ with
    | none => return (uid :: missing, applied, changing)
    | some row =>
      let modSeq ← row.modSeq.readInteger
      if .integer modSeq = target then return (missing, uid :: applied, changing)
      else return (missing, applied, uid :: changing)

@[inherit_doc Storage.resetRecent]
def resetRecent (mailbox : MailboxId) (uids : List Uid) (modSeq : ModSeq) :
    Step Store RecentReset :=
  if uids.isEmpty then pure {}
  else do
    let target ← .check (storable .modSeq modSeq)
    transaction fun store => do
      let db := store.database
      let stored := storedUids uids
      unless stored.isEmpty do
        requireRelations db [.messages]
        store.bindVariables (stored.length + 1)
      let (missing, alreadyApplied, changing) ← sortUids db mailbox target uids
      if changing.isEmpty then return ({ missing, alreadyApplied }, db)
      store.bindVariables (changing.length + 3)
      let db := { db with
        messages := db.messages.mapValues fun place row =>
          if place.mailbox = mailbox && changing.contains place.uid then
            { row with recent := .integer 0, modSeq := target }
          else row }
      let updated ← selectUids { store with database := db } mailbox changing .metadata
      return ({ updated := updated.map Message.metadata, alreadyApplied, missing }, db)

/-! ### Removing rows -/

@[inherit_doc Storage.deleteBatch]
def deleteBatch (mailbox : MailboxId) (uids : List Uid) : Step Store (List Metadata) :=
  let stored := storedUids uids
  if stored.isEmpty then pure []
  else transaction fun store => do
    let removed ← store.selectUids mailbox uids .metadata
    let db := removeMessages store.database fun place _ =>
      place.mailbox = mailbox && stored.contains place.uid
    let db ← store.collectContents db (.ofList (removed.map Message.messageId))
    return (removed.map Message.metadata, db)

@[inherit_doc Storage.deleteMailbox]
def deleteMailbox (mailbox : MailboxId) : Step Store (List MessageId) :=
  transaction fun store => do
    requireRelations store.database [.messages]
    let removed := store.database.messages.filter fun place _ => place.mailbox = mailbox
    let ids ← removed.values.mapM fun row => row.messageId.readText
    let db := removeMessages store.database fun place _ => place.mailbox = mailbox
    let db ← store.collectContents db (.ofList ids)
    return (ids.mergeSort (· ≤ ·), db)

/-- The mailboxes that hold a message. -/
def mailboxesOf (db : Database) (id : MessageId) : List MailboxId :=
  let rows := db.messages.filter fun _ row => row.messageId = .text id
  (NameSet.ofList (rows.entries.map fun entry => entry.1.mailbox)).toList

@[inherit_doc Storage.deleteMessage]
def deleteMessage (id : MessageId) : Step Store (List MailboxId) :=
  transaction fun store => do
    requireRelations store.database [.messages]
    let db := removeMessages store.database fun _ row => row.messageId = .text id
    let db ← store.collectContents db (.ofList [id])
    return (mailboxesOf store.database id, db)

@[inherit_doc Storage.findMailboxes]
def findMailboxes (id : MessageId) (store : Store) : Except StoreError (List MailboxId) := do
  requireRelations store.database [.messages]
  return mailboxesOf store.database id

/-! ### Derived reads -/

/-- The rows of a mailbox, by ascending number. -/
def mailboxRows (store : Store) (mailbox : MailboxId) : List (Place × MessageRow) :=
  (store.database.messages.filter fun place _ => place.mailbox = mailbox).entries

@[inherit_doc Storage.counts]
def counts (mailbox : MailboxId) (store : Store) : Except StoreError MailboxCounts := do
  requireRelations store.database [.messages]
  let rows := store.mailboxRows mailbox
  return ⟨rows.length, (rows.filter fun entry => entry.2.seen = .integer 0).length⟩

@[inherit_doc Storage.firstUnseen]
def firstUnseen (mailbox : MailboxId) (store : Store) : Except StoreError (Option Uid) := do
  requireRelations store.database [.messages]
  return ((store.mailboxRows mailbox).find? fun entry => entry.2.seen = .integer 0).map fun entry =>
    entry.1.uid

@[inherit_doc Storage.keywords]
def keywords (mailbox : MailboxId) (store : Store) : Except StoreError NameSet := do
  requireRelations store.database [.keywords]
  return .ofList ((store.database.keywords.filter fun k => k.1.mailbox = mailbox).map (·.2))

/-! ### Change logs -/

/-- Moves the heads of an account to the next state. -/
def advanceHeads (db : Database) (account : AccountId) (delegated : Bool) :
    Except StoreError (Int × Database) := do
  requireRelations db [.heads]
  match db.heads.get? account with
  | none =>
    let row : HeadsRow := ⟨1, if delegated then 0 else 1⟩
    return (1, { db with heads := db.heads.insert account row })
  | some row =>
    if (maxStored : Int) ≤ row.latest then throw EngineError.columnType.toStoreError
    let state := row.latest + 1
    let row : HeadsRow := ⟨state, if delegated then row.latestNotDelegated else state⟩
    return (state, { db with heads := db.heads.insert account row })

/-- Writes the record of a change after moving the heads. -/
def insertChange (draft : ChangeDraft) (expiresAt : Option Instant) (db : Database) :
    Except StoreError (Int × Database) := do
  let (state, db) ← advanceHeads db draft.account draft.isDelegated
  requireRelations db [.changes]
  let place : ChangePlace := ⟨draft.account, .integer state⟩
  if (db.changes.get? place).isSome then
    throw (EngineError.notUnique "changes.account_id, changes.state").toStoreError
  return (state, { db with changes := db.changes.insert place (.ofDraft draft expiresAt) })

@[inherit_doc Storage.appendChange]
def appendChange (draft : ChangeDraft) (expiresAt : Option Instant) : Step Store ChangeRecord := do
  let state ← transaction fun store => insertChange draft expiresAt store.database
  return draft.record (← .check (readState state))

@[inherit_doc Storage.changesPage]
def changesPage (request : ChangePageRequest) (store : Store) :
    Except StoreError (List ChangeRecord) := do
  let lower := (request.after.map State.next).getD request.lower
  if request.limit = 0 || maxStored < lower then return []
  requireRelations store.database [.changes]
  let live := store.database.changes.filter fun place row =>
    place.account = request.account && place.state.isFrom lower && row.isLive request.now.millis
  let rows ← (live.entries.take request.limit).mapM fun (place, row) => row.values place.state
  rows.mapM fun values => values.read request.account

@[inherit_doc Storage.heads]
def readHeads (account : AccountId) (store : Store) : Except StoreError Heads := do
  requireRelations store.database [.heads]
  match store.database.heads.get? account with
  | none => return {}
  | some row =>
    let latest ← readState row.latest
    let latestNotDelegated ← readState row.latestNotDelegated
    return { latest, latestNotDelegated }

@[inherit_doc Storage.purgeExpired]
def purgeExpired (now : Instant) : Step Store Nat := do
  .check (← query fun store => .ok (requireRelations store.database [.changes]))
  transaction fun store =>
    let live := store.database.changes.filter fun _ row => row.isLive now.millis
    .ok (store.database.changes.size - live.size, { store.database with changes := live })

/-! ### The store as a whole -/

/-- The name under which the store reports on itself. -/
def component : String := "SQLite"

/-- Reports whether the file of the database can be read. -/
def health (store : Store) : HealthReport :=
  .ofProbe component
    (if store.fileMoved then .error (EngineError.unableToOpen store.path).toStoreError else .ok ())

instance : Storage Store where
  nextUid := nextUid
  nextModSeq := nextModSeq
  lastUid mailbox := query (lastUid mailbox)
  highestModSeq mailbox := query (highestModSeq mailbox)
  insert := insert
  find mailbox uid fetch := query (find mailbox uid fetch)
  fetchPage request fetch := query (fetchPage request fetch)
  fetchUidPage request := query (fetchUidPage request)
  fetchBatch mailbox uids fetch := query (fetchBatch mailbox uids fetch)
  updateFlags := updateFlags
  resetRecent := resetRecent
  deleteBatch := deleteBatch
  deleteMailbox := deleteMailbox
  deleteMessage := deleteMessage
  findMailboxes id := query (findMailboxes id)
  counts mailbox := query (counts mailbox)
  firstUnseen mailbox := query (firstUnseen mailbox)
  keywords mailbox := query (keywords mailbox)
  listBound store := store.listBound
  appendChange := appendChange
  changesPage request := query (changesPage request)
  heads account := query (readHeads account)
  purgeExpired := purgeExpired
  health := health
  extent store := store.database.messages.size + store.database.changes.size + 1

end Store

end Mailroom.Database
