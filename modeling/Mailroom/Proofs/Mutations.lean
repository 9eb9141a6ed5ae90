import Mailroom.Proofs.Incidents
/-!
Everything that can be written to a store.

A `Mutation` is any write of a store, with any arguments, or an incident. Writes need not come from
the calls of a service, so numbers may be taken that were never given out.
-/

namespace Mailroom

open Service

/-- A write of a store. -/
inductive Write where
  | nextUid (mailbox : MailboxId)
  | nextModSeq (mailbox : MailboxId)
  | insert (message : Message)
  | updateFlags (mailbox : MailboxId) (uid : Uid) (edit : FlagEdit) (modSeq : ModSeq)
      (expected : Option ModSeq)
  | resetRecent (mailbox : MailboxId) (uids : List Uid) (modSeq : ModSeq)
  | deleteBatch (mailbox : MailboxId) (uids : List Uid)
  | deleteMailbox (mailbox : MailboxId)
  | deleteMessage (id : MessageId)
  | appendChange (draft : ChangeDraft) (expiresAt : Option Instant)
  | purgeExpired (now : Instant)

/-- The store after a write, whether it succeeded or not. -/
def Write.run {σ : Type} [Storage σ] : Write → σ → σ
  | nextUid mailbox, store => (Storage.nextUid mailbox store).2
  | nextModSeq mailbox, store => (Storage.nextModSeq mailbox store).2
  | insert message, store => (Storage.insert message store).2
  | updateFlags mailbox uid edit modSeq expected, store =>
    (Storage.updateFlags mailbox uid edit modSeq expected store).2
  | resetRecent mailbox uids modSeq, store => (Storage.resetRecent mailbox uids modSeq store).2
  | deleteBatch mailbox uids, store => (Storage.deleteBatch mailbox uids store).2
  | deleteMailbox mailbox, store => (Storage.deleteMailbox mailbox store).2
  | deleteMessage id, store => (Storage.deleteMessage id store).2
  | appendChange draft expiresAt, store => (Storage.appendChange draft expiresAt store).2
  | purgeExpired now, store => (Storage.purgeExpired now store).2

/-- A write or an incident. -/
inductive Mutation (ι : Type) where
  | written (write : Write)
  | suffered (incident : ι)

/-- The store after a mutation. -/
def Mutation.run {σ ι : Type} [Storage σ] [Exposed σ ι] : Mutation ι → σ → σ
  | written write, store => write.run store
  | suffered incident, store => befall incident store

/-- The store after mutations one after another. -/
def Mutation.runAll {σ ι : Type} [Storage σ] [Exposed σ ι] (mutations : List (Mutation ι))
    (store : σ) : σ := mutations.foldl (fun store mutation => mutation.run store) store

/-- What every mutation keeps is kept by mutations one after another. -/
theorem Mutation.runAll_keeps {σ ι : Type} [Storage σ] [Exposed σ ι] {isFit : σ → Prop}
    (keeps : ∀ (mutation : Mutation ι) store, isFit store → isFit (mutation.run store))
    (mutations : List (Mutation ι)) {store : σ} (fit : isFit store) :
    isFit (Mutation.runAll mutations store) := by
  induction mutations generalizing store with
  | nil => exact fit
  | cons mutation rest ih => exact ih (keeps mutation store fit)

end Mailroom
