import Mailroom.Proofs.Step
import Mailroom.Service.Call
/-!
Calls as clients make them, one access to the store at a time.

A call is not a single step: between two of its accesses other clients may access the store. A
`Pending` call is what is left of a call: its outcome, or the access to be made next and how the
call goes on after each answer. Made without a break, a pending call is the call of the service
(`begin_run`).
-/

namespace Mailroom.Interleaving

open Service

variable {σ α β : Type} [Storage σ]

/-- One access to a store. -/
inductive Access where
  | nextUid (mailbox : MailboxId)
  | nextModSeq (mailbox : MailboxId)
  | insert (message : Message)
  | find (mailbox : MailboxId) (uid : Uid) (fetch : Fetch)
  | updateFlags (mailbox : MailboxId) (uid : Uid) (edit : FlagEdit) (modSeq : ModSeq)
    (expected : Option ModSeq)
  | deleteBatch (mailbox : MailboxId) (uids : List Uid)
  /-- The greatest number of row numbers that the store takes. -/
  | listBound

namespace Access

/-- What an access answers if it succeeds. -/
def Answer : Access → Type
  | nextUid _ => Uid
  | nextModSeq _ => ModSeq
  | insert _ => Unit
  | find .. => Option Message
  | updateFlags .. => Metadata
  | deleteBatch .. => List Metadata
  | listBound => Nat

/-- Makes an access. -/
def run : (access : Access) → Step σ access.Answer
  | nextUid mailbox => Storage.nextUid mailbox
  | nextModSeq mailbox => Storage.nextModSeq mailbox
  | insert message => Storage.insert message
  | find mailbox uid fetch => Storage.find mailbox uid fetch
  | updateFlags mailbox uid edit modSeq expected =>
    Storage.updateFlags mailbox uid edit modSeq expected
  | deleteBatch mailbox uids => Storage.deleteBatch mailbox uids
  | listBound => fun store => (.ok (Storage.listBound store), store)

end Access

/-- What is left of a call. -/
inductive Pending (α : Type) where
  | done (outcome : Except StoreError α)
  | waits (access : Access) (next : Except StoreError access.Answer → Pending α)

namespace Pending

/-- Makes what is left of a call without a break. -/
def run : Pending α → Step σ α
  | done outcome => .check outcome
  | waits access next => fun store => (next (access.run store).1).run (access.run store).2

/-- Goes on after an answer; an error ends the call. -/
def onAnswer (next : β → Pending α) : Except StoreError β → Pending α
  | .ok answer => next answer
  | .error e => done (.error e)

theorem run_onAnswer {access : Access} {next : access.Answer → Pending α} :
    ((waits access (onAnswer next)).run : Step σ α)
      = (access.run >>= fun answer => (next answer).run : Step σ α) := by
  funext store
  show (onAnswer next (access.run store).1).run (access.run store).2 = _
  rcases accessed : access.run store with ⟨e | answer, after⟩
  · rw [Step.bind_of_error accessed]
    rfl
  · rw [Step.bind_of_ok accessed]
    rfl

end Pending

open Pending

/-! ### The calls -/

/-- Links a message into a mailbox. -/
def append (mailbox : MailboxId) (new : NewMessage) (now : Instant) : Pending Metadata :=
  waits (.nextUid mailbox) <| onAnswer fun uid =>
    waits (.nextModSeq mailbox) <| onAnswer fun modSeq =>
      waits (.insert (new.row mailbox uid modSeq now)) <| onAnswer fun _ =>
        done (.ok (new.row mailbox uid modSeq now).metadata)

/-- Updates the flags of a message. -/
def applyFlags (mailbox : MailboxId) (uid : Uid) (update : FlagUpdate)
    (expected : Option ModSeq) : Pending Metadata :=
  waits (.nextModSeq mailbox) <| onAnswer fun modSeq =>
    waits (.updateFlags mailbox uid (.ofUpdate update) modSeq expected) done

/-- Removes one partition after another, whether or not earlier ones failed. -/
def deleteChunks (mailbox : MailboxId) :
    List (List Uid) → BatchProgress (List Metadata) → Pending (List Metadata)
  | [], progress => done progress.result
  | chunk :: rest, progress => waits (.deleteBatch mailbox chunk) fun
    | .ok outcome => deleteChunks mailbox rest
      { progress with
        outcome := BatchOutcome.append progress.outcome outcome
        succeeded := progress.succeeded + 1 }
    | .error e => deleteChunks mailbox rest
      { progress with failed := progress.failed ++ [(chunk, e)] }

/-- Removes messages with some numbers, in partitions of at most `bound`. -/
def deletePartitioned (mailbox : MailboxId) (bound : Nat) (uids : List Uid) :
    Pending (List Metadata) :=
  if uids.isEmpty then done (.ok BatchOutcome.empty)
  else if uids.length ≤ max bound 1 then waits (.deleteBatch mailbox uids) done
  else deleteChunks mailbox (chunks (max bound 1) uids) { outcome := BatchOutcome.empty }

/-- Removes messages from a mailbox. -/
def deleteByUids (mailbox : MailboxId) (uids : List Uid) : Pending (List Metadata) :=
  if uids.isEmpty then done (.ok [])
  else waits (.nextModSeq mailbox) <| onAnswer fun _ =>
    waits .listBound <| onAnswer fun bound => deletePartitioned mailbox bound (sortedUids uids)

/-- A call that a client makes. -/
inductive Request where
  | append (mailbox : MailboxId) (new : NewMessage) (now : Instant)
  | applyFlags (mailbox : MailboxId) (uid : Uid) (update : FlagUpdate) (expected : Option ModSeq)
  | deleteByUids (mailbox : MailboxId) (uids : List Uid)
  | find (mailbox : MailboxId) (uid : Uid) (fetch : Fetch)

namespace Request

/-- The call of the service. -/
def call : Request → Call
  | append mailbox new now => .append mailbox new now
  | applyFlags mailbox uid update expected => .applyFlags mailbox uid update expected
  | deleteByUids mailbox uids => .deleteByUids mailbox uids
  | find mailbox uid fetch => .find mailbox uid fetch

/-- The whole of a call. -/
def begin : (request : Request) → Pending request.call.Answer
  | append mailbox new now => Interleaving.append mailbox new now
  | applyFlags mailbox uid update expected => Interleaving.applyFlags mailbox uid update expected
  | deleteByUids mailbox uids => Interleaving.deleteByUids mailbox uids
  | find mailbox uid fetch => waits (.find mailbox uid fetch) done

end Request

/-! ### Calls without a break -/

theorem deleteChunks_run (mailbox : MailboxId) (parts : List (List Uid))
    (progress : BatchProgress (List Metadata)) (store : σ) :
    (deleteChunks mailbox parts progress).run store
      = ((runChunks (Storage.deleteBatch mailbox) parts progress store).1.result,
        (runChunks (Storage.deleteBatch mailbox) parts progress store).2) := by
  induction parts generalizing progress store with
  | nil => rfl
  | cons part rest ih =>
    unfold deleteChunks Pending.run runChunks
    rcases removed : (Access.deleteBatch mailbox part).run store with ⟨e | outcome, after⟩
    · have removed : Storage.deleteBatch mailbox part store = (.error e, after) := removed
      rw [removed]
      exact ih _ after
    · have removed : Storage.deleteBatch mailbox part store = (.ok outcome, after) := removed
      rw [removed]
      exact ih _ after

theorem deletePartitioned_run (mailbox : MailboxId) (bound : Nat) (uids : List Uid) :
    ((deletePartitioned mailbox bound uids).run : Step σ (List Metadata))
      = runPartitioned bound (Storage.deleteBatch mailbox) uids := by
  funext store
  unfold deletePartitioned runPartitioned
  split
  · rfl
  · split
    · rfl
    · exact deleteChunks_run mailbox _ _ store

/-- A call that is made without a break is the call of the service. -/
theorem begin_run (policy : Policy) (request : Request) :
    (request.begin.run : Step σ request.call.Answer) = request.call.run policy := by
  cases request with
  | append mailbox new now =>
    show (Interleaving.append mailbox new now).run = Service.append mailbox new now
    unfold Interleaving.append Service.append
    simp only [run_onAnswer]
    rfl
  | applyFlags mailbox uid update expected =>
    show (Interleaving.applyFlags mailbox uid update expected).run
      = Service.applyFlags mailbox uid update expected
    unfold Interleaving.applyFlags
    rw [run_onAnswer]
    rfl
  | deleteByUids mailbox uids =>
    show (Interleaving.deleteByUids mailbox uids).run = Service.deleteByUids mailbox uids
    unfold Interleaving.deleteByUids Service.deleteByUids
    split
    · rfl
    · simp only [run_onAnswer]
      refine congrArg (Storage.nextModSeq mailbox >>= ·) (funext fun _ => funext fun store => ?_)
      exact congrFun (deletePartitioned_run mailbox (Storage.listBound store) _) store
  | find mailbox uid fetch => rfl

end Mailroom.Interleaving
