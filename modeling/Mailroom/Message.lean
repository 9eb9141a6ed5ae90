import Mailroom.Ident
import Mailroom.Flags
import Mailroom.Time.Instant
/-!
Messages as they are linked into mailboxes.

A `Message` is a row of one mailbox. Its content belongs to the message identifier and is shared by
every row with that identifier; a row carries it only when it was asked for. `Metadata` is what
changes of a row report. A `MessageDraft` gathers what is known of a row before it is written.
-/

namespace Mailroom

/-- What is known of a row besides its mailbox and its content. -/
structure Metadata where
  uid : Uid
  modSeq : ModSeq
  flags : Flags
  /-- The number of octets of the content. -/
  size : Nat
  internalDate : Instant
  saveDate : Option Instant
  messageId : MessageId
  threadId : ThreadId
deriving DecidableEq, Inhabited

/-- A message as linked into one mailbox. -/
structure Message where
  mailbox : MailboxId
  uid : Uid
  modSeq : ModSeq
  messageId : MessageId
  threadId : ThreadId
  internalDate : Instant
  /-- The number of octets of the content. -/
  size : Nat
  saveDate : Option Instant
  flags : Flags
  /-- The content, where it was asked for and is stored. -/
  content : Option Octets
deriving DecidableEq, Inhabited

namespace Message

/-- Where the row lives. -/
def place (message : Message) : Place := ⟨message.mailbox, message.uid⟩

/-- The row without its mailbox and its content. -/
def metadata (message : Message) : Metadata where
  uid := message.uid
  modSeq := message.modSeq
  flags := message.flags
  size := message.size
  internalDate := message.internalDate
  saveDate := message.saveDate
  messageId := message.messageId
  threadId := message.threadId

/-- The row with no content. -/
def withoutContent (message : Message) : Message := { message with content := none }

end Message

/-- A row in the making. -/
structure MessageDraft where
  mailbox : MailboxId
  uid : Uid
  messageId : MessageId
  modSeq : ModSeq := 0
  threadId : Option ThreadId := none
  internalDate : Option Instant := none
  saveDate : Option Instant := none
  flags : Flags := .empty
  content : Option Octets := none

/-- The row of a draft, made at an instant: its size is that of the content, a message without a
thread starts one, and one without a date has that of its making. -/
def MessageDraft.build (draft : MessageDraft) (now : Instant) : Message where
  mailbox := draft.mailbox
  uid := draft.uid
  modSeq := draft.modSeq
  messageId := draft.messageId
  threadId := draft.threadId.getD draft.messageId
  internalDate := draft.internalDate.getD now
  size := (draft.content.map List.length).getD 0
  saveDate := draft.saveDate
  flags := draft.flags
  content := draft.content

/-- How many messages a mailbox holds, and how many of them are not seen. -/
structure MailboxCounts where
  total : Nat
  unseen : Nat
deriving DecidableEq, Repr, Inhabited

end Mailroom
