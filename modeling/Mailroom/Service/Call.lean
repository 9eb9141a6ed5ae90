import Mailroom.Service.ChangeLog
/-!
The calls of a service as data, each with the type of its answer, so that one can speak of every
call and of every sequence of calls. Reads are run to their end. Instants are readings of the clock
at the time of the call.
-/

namespace Mailroom.Service

/-- A call to a service. -/
inductive Call where
  | nextUid (mailbox : MailboxId)
  | nextModSeq (mailbox : MailboxId)
  | highestModSeq (mailbox : MailboxId)
  | append (mailbox : MailboxId) (new : NewMessage) (now : Instant)
  | applyFlags (mailbox : MailboxId) (uid : Uid) (update : FlagUpdate) (expected : Option ModSeq)
  | resetRecent (mailbox : MailboxId) (uids : List Uid) (modSeq : ModSeq)
  | deleteByUids (mailbox : MailboxId) (uids : List Uid)
  | deleteMailbox (mailbox : MailboxId)
  | deleteMessage (id : MessageId)
  | find (mailbox : MailboxId) (uid : Uid) (fetch : Fetch)
  | findByUids (mailbox : MailboxId) (uids : List Uid) (fetch : Fetch)
  | findMailboxes (id : MessageId)
  | scan (request : ScanRequest) (fetch : Fetch)
  | scanUids (request : ScanRequest)
  | counts (mailbox : MailboxId)
  | firstUnseen (mailbox : MailboxId)
  | keywords (mailbox : MailboxId)
  | recordChange (draft : ChangeDraft)
  | allChanges (account : AccountId) (now : Instant)
  | changesSince (account : AccountId) (since : State) (now : Instant)
  | changesSinceLimited (account : AccountId) (since : State) (most : Nat) (now : Instant)
  | latestState (account : AccountId)
  | latestStateNotDelegated (account : AccountId)
  | purgeExpired (now : Instant)

/-- What a read that was run to its end delivered. -/
structure Scanned (τ : Type) where
  rows : List (Except StoreError τ)
  /-- How many pages were fetched. -/
  pages : Nat

namespace Call

/-- What a call answers if it succeeds. -/
def Answer : Call → Type
  | nextUid _ => Uid
  | nextModSeq _ => ModSeq
  | highestModSeq _ => ModSeq
  | append .. => Metadata
  | applyFlags .. => Metadata
  | resetRecent .. => RecentReset
  | deleteByUids .. => List Metadata
  | deleteMailbox _ => List MessageId
  | deleteMessage _ => List MailboxId
  | find .. => Option Message
  | findByUids .. => List Message
  | findMailboxes _ => List MailboxId
  | scan .. => Scanned Message
  | scanUids _ => Scanned Uid
  | counts _ => MailboxCounts
  | firstUnseen _ => Option Uid
  | keywords _ => NameSet
  | recordChange _ => ChangeRecord
  | allChanges .. => Scanned ChangeRecord
  | changesSince .. => Scanned ChangeRecord
  | changesSinceLimited .. => ChangesPage
  | latestState _ => State
  | latestStateNotDelegated _ => State
  | purgeExpired _ => Nat

variable {σ : Type} [Storage σ]

/-- Runs a read to its end. -/
def drained {κ τ : Type} (scan : Scan σ κ τ) : Step σ (Scanned τ) := fun store =>
  let (rows, scan, store) := drain scan store
  (.ok ⟨rows, scan.paging.pages⟩, store)

/-- Executes a call. -/
def run (policy : Policy) : (call : Call) → Step σ call.Answer
  | nextUid mailbox => Storage.nextUid mailbox
  | nextModSeq mailbox => Storage.nextModSeq mailbox
  | highestModSeq mailbox => Storage.highestModSeq mailbox
  | append mailbox new now => Service.append mailbox new now
  | applyFlags mailbox uid update expected => Service.applyFlags mailbox uid update expected
  | resetRecent mailbox uids modSeq => Service.resetRecent mailbox uids modSeq
  | deleteByUids mailbox uids => Service.deleteByUids mailbox uids
  | deleteMailbox mailbox => Storage.deleteMailbox mailbox
  | deleteMessage id => Service.deleteMessage id
  | find mailbox uid fetch => Storage.find mailbox uid fetch
  | findByUids mailbox uids fetch => Service.findByUids mailbox uids fetch
  | findMailboxes id => Storage.findMailboxes id
  | scan request fetch => drained (Service.scan policy.batch request fetch)
  | scanUids request => drained (Service.scanUids policy.batch request)
  | counts mailbox => Storage.counts mailbox
  | firstUnseen mailbox => Storage.firstUnseen mailbox
  | keywords mailbox => Storage.keywords mailbox
  | recordChange draft => Service.recordChange policy draft
  | allChanges account now => drained (Service.allChanges policy account now)
  | changesSince account since now =>
    Step.bind (Service.changesSince policy account since now) drained
  | changesSinceLimited account since most now =>
    Service.changesSinceLimited policy account since most now
  | latestState account => Service.latestState account
  | latestStateNotDelegated account => Service.latestStateNotDelegated account
  | purgeExpired now => Storage.purgeExpired now

/-- Executes calls one after another, whether or not they succeed. -/
def runAll (policy : Policy) :
    List Call → σ → List ((call : Call) × Except StoreError call.Answer) × σ
  | [], store => ([], store)
  | call :: rest, store =>
    let (answer, store) := call.run policy store
    let (answers, store) := runAll policy rest store
    (⟨call, answer⟩ :: answers, store)

end Call

end Mailroom.Service
