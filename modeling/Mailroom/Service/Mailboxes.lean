import Mailroom.Storage
/-!
Calls on mailboxes, built on any store.

A call that takes several steps takes them in order and stops at the first that fails; what the
earlier ones did stays. So a counter that was counted up for a write that failed stays counted up,
and its number is never given out again.
-/

namespace Mailroom.Service

variable {σ : Type} [Storage σ]

/-! ### Writing -/

/-- A message to be linked into a mailbox. -/
structure NewMessage where
  id : MessageId
  threadId : Option ThreadId := none
  internalDate : Option Instant := none
  flags : Flags := .empty
  content : Octets := []

/-- The row of a new message. One reading of the clock is the save date, and the internal date of a
message that comes without one. If the clock is read again for the internal date, the row is that of
a message that comes with the second reading as its internal date. -/
def NewMessage.row (new : NewMessage) (mailbox : MailboxId) (uid : Uid) (modSeq : ModSeq)
    (now : Instant) : Message :=
  MessageDraft.build
    { mailbox, uid, modSeq
      messageId := new.id
      threadId := new.threadId
      internalDate := new.internalDate
      saveDate := now
      flags := new.flags
      content := new.content } now

/-- Links a message into a mailbox under the next number and the next modification sequence, at one
reading of the clock. -/
def append (mailbox : MailboxId) (new : NewMessage) (now : Instant) : Step σ Metadata := do
  let uid ← Storage.nextUid mailbox
  let modSeq ← Storage.nextModSeq mailbox
  let row := new.row mailbox uid modSeq now
  Storage.insert row
  return row.metadata

/-- Updates the flags of a message and gives it the next modification sequence. -/
def applyFlags (mailbox : MailboxId) (uid : Uid) (update : FlagUpdate)
    (expected : Option ModSeq) : Step σ Metadata := do
  let modSeq ← Storage.nextModSeq mailbox
  Storage.updateFlags mailbox uid (.ofUpdate update) modSeq expected

/-- Runs a call on a list of numbers, in partitions that the store takes. -/
def partitioned {α : Type} [BatchOutcome α] (call : List Uid → Step σ α) (uids : List Uid) :
    Step σ α := fun store => runPartitioned (Storage.listBound store) call uids store

/-- Clears the recent flag of messages and gives them a modification sequence. The call may be
repeated with the same one: messages that have it already are left alone. -/
def resetRecent (mailbox : MailboxId) (uids : List Uid) (modSeq : ModSeq) : Step σ RecentReset :=
  if maxStored < modSeq then .fail (.invalidInput (.tooGreat .modSeq modSeq))
  else partitioned (fun uids => Storage.resetRecent mailbox uids modSeq) (sortedUids uids)

/-- Removes messages from a mailbox, whose modification sequence is counted up first. -/
def deleteByUids (mailbox : MailboxId) (uids : List Uid) : Step σ (List Metadata) :=
  if uids.isEmpty then pure []
  else do
    let _ ← Storage.nextModSeq mailbox
    partitioned (Storage.deleteBatch mailbox) (sortedUids uids)

/-- Counts up the modification sequence of each of some mailboxes. -/
def bumpEach : List MailboxId → Step σ Unit
  | [] => pure ()
  | mailbox :: rest => do
    let _ ← Storage.nextModSeq mailbox
    bumpEach rest

/-- Removes a message from every mailbox, each of whose modification sequences is counted up first.
-/
def deleteMessage (id : MessageId) : Step σ (List MailboxId) := do
  bumpEach (← Storage.findMailboxes id)
  Storage.deleteMessage id

/-! ### Reading -/

/-- The messages with some numbers, ascending; numbers without a message are skipped. -/
def findByUids (mailbox : MailboxId) (uids : List Uid) (fetch : Fetch) : Step σ (List Message) :=
  partitioned (fun uids => Storage.fetchBatch mailbox uids fetch) (sortedUids uids)

/-- The messages of a mailbox that lie in a range and pass a filter. -/
def messageSource (mailbox : MailboxId) (range : UidRange) (filter : Filter) (fetch : Fetch) :
    Source σ Uid Message where
  key := Message.uid
  fetch after limit := Storage.fetchPage ⟨mailbox, range, filter, after, limit⟩ fetch

/-- The numbers of the messages of a mailbox that lie in a range and pass a filter. -/
def uidSource (mailbox : MailboxId) (range : UidRange) (filter : Filter) : Source σ Uid Uid where
  key := id
  fetch after limit := Storage.fetchUidPage ⟨mailbox, range, filter, after, limit⟩

/-- What to read of a mailbox, and in which order: by ascending number. -/
structure ScanRequest where
  mailbox : MailboxId
  range : UidRange := .all
  filter : Filter := .any
  /-- The greatest number of rows to return. -/
  limit : Option Nat := none
deriving DecidableEq, Repr

/-- Starts a read of messages, in pages of `batch` rows. -/
def scan (batch : Nat) (request : ScanRequest) (fetch : Fetch) : Scan σ Uid Message :=
  .start (messageSource request.mailbox request.range request.filter fetch) batch request.limit

/-- Starts a read of message numbers, in pages of `batch` rows. -/
def scanUids (batch : Nat) (request : ScanRequest) : Scan σ Uid Uid :=
  .start (uidSource request.mailbox request.range request.filter) batch request.limit

/-- Delivers every row that is left. No read of a store has more pages than the store's extent. -/
def drain {κ τ : Type} (scan : Scan σ κ τ) (store : σ) :
    List (Except StoreError τ) × Scan σ κ τ × σ :=
  scan.rest (Storage.extent store) store

end Mailroom.Service
