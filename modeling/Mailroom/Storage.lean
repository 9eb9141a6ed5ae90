import Mailroom.Flags.Update
import Mailroom.Health
import Mailroom.Message.Query
import Mailroom.Paging
import Mailroom.Partition
/-!
What a store offers. Every operation is a single step: nothing else happens to the store between its
start and its end. Whatever takes several steps is built on top.
-/

namespace Mailroom

/-- The operations of a store of mailboxes and change logs. -/
class Storage (σ : Type) where
  /-- Counts up the row numbers of a mailbox. -/
  nextUid : MailboxId → Step σ Uid
  /-- Counts up the modification sequences of a mailbox. -/
  nextModSeq : MailboxId → Step σ ModSeq
  /-- The row number given out last, if any was. -/
  lastUid : MailboxId → Step σ (Option Uid)
  /-- The modification sequence given out last, 0 if none was. -/
  highestModSeq : MailboxId → Step σ ModSeq
  /-- Writes a new row. Its content is stored unless there is one for its identifier already. -/
  insert : Message → Step σ Unit
  /-- The row with a number. -/
  find : MailboxId → Uid → Fetch → Step σ (Option Message)
  /-- The first rows of a page, ascending. -/
  fetchPage : PageRequest → Fetch → Step σ (List Message)
  /-- The numbers of the first rows of a page, ascending. -/
  fetchUidPage : PageRequest → Step σ (List Uid)
  /-- The rows with the numbers of one partition, ascending; numbers without a row are skipped. -/
  fetchBatch : MailboxId → List Uid → Fetch → Step σ (List Message)
  /-- Edits the flags of a row and gives it a modification sequence. With an expected sequence the
  row is changed only if it has that one. -/
  updateFlags : MailboxId → Uid → FlagEdit → ModSeq → Option ModSeq → Step σ Metadata
  /-- Clears the recent flag of the rows of one partition and gives them a modification sequence;
  rows that have that sequence already are left alone. -/
  resetRecent : MailboxId → List Uid → ModSeq → Step σ RecentReset
  /-- Removes the rows of one partition. -/
  deleteBatch : MailboxId → List Uid → Step σ (List Metadata)
  /-- Removes every row of a mailbox and returns the identifiers of their messages, sorted. The
  counters of the mailbox are kept. -/
  deleteMailbox : MailboxId → Step σ (List MessageId)
  /-- Removes a message from every mailbox and returns those mailboxes, sorted. -/
  deleteMessage : MessageId → Step σ (List MailboxId)
  /-- The mailboxes that hold a message, sorted. -/
  findMailboxes : MessageId → Step σ (List MailboxId)
  /-- Counts the rows of a mailbox. -/
  counts : MailboxId → Step σ MailboxCounts
  /-- The least number of a row that is not seen. -/
  firstUnseen : MailboxId → Step σ (Option Uid)
  /-- The keywords in use in a mailbox. -/
  keywords : MailboxId → Step σ NameSet
  /-- The greatest number of row numbers taken in one call. -/
  listBound : σ → Nat
  /-- Records a change: gives it the next state and moves the heads. The record expires at an
  instant, if one is given. -/
  appendChange : ChangeDraft → Option Instant → Step σ ChangeRecord
  /-- The first live records of a page, ascending. -/
  changesPage : ChangePageRequest → Step σ (List ChangeRecord)
  /-- The heads of a change log, which never expire. -/
  heads : AccountId → Step σ Heads
  /-- Drops the records that have expired by an instant and counts them. -/
  purgeExpired : Instant → Step σ Nat
  /-- Reports on the store. -/
  health : σ → HealthReport
  /-- A number of pages after which every read of the store has come to its end. -/
  extent : σ → Nat

end Mailroom
