import Mailroom.Proofs.Retries.Refusals
/-!
Operations that fail in part, and their repetition.

An operation that a fault interrupts fails where its partitions are blocked: by the fault, or
because the store refuses them (`Refusing.resetRecent_failsWhere`,
`Refusing.deleteByUids_failsWhere`). It is completed by its repetition if and only if the store
refuses no partition, and a removal can count up for both (`Refusing.resetRecent_recovers_iff`,
`Refusing.deleteByUids_recovers_iff`).
-/

namespace Mailroom

open Service

variable {σ α : Type} [Storage σ]

/-! ### What an operation does that is interrupted -/

/-- An operation that a fault interrupts fails where its partitions are blocked, and has executed
the others. It comes to its partitions from another state than it was called in if it has counted up
before. -/
structure FailsWhere [BatchOutcome α]
    (operation : ∀ {τ : Type} [Storage τ], List Uid → Step τ α) (call : List Uid → Step σ α)
    (fault blocks : List Uid → Option StoreError) (uids : List Uid) (store start : σ)
    (report : BatchReport) (failed : List (List Uid × StoreError)) (succeeded : Nat) (after : σ) :
    Prop where
  fails : (operation uids : Step (Interrupted σ fault) α) store
    = (.error (.partialBatch report failed succeeded), after)
  inPart : FailsInPart call blocks (chunks (max (Storage.listBound store) 1) (sortedUids uids))
    start report failed succeeded after

/-- An operation fails in the partitions that a fault hits, and is completed by its repetition. -/
structure Recovers [Kept σ] [BatchOutcome α]
    (operation : ∀ {τ : Type} [Storage τ], List Uid → Step τ α) (call : List Uid → Step σ α)
    (fault : List Uid → Option StoreError) (uids : List Uid) (store start : σ)
    (report : BatchReport) (failed : List (List Uid × StoreError)) (succeeded : Nat) (after : σ) :
    Prop extends
    FailsWhere operation call fault fault uids store start report failed succeeded after where
  completes : CompletesByRetry (σ := σ) operation uids
    (StoreError.partialBatch report failed succeeded).failedUids store after report

/-- A reset that a fault interrupts fails where its partitions are blocked, and what it reports
accounts for every number. -/
def ResetFailsWhere (fault blocks : List Uid → Option StoreError) (mailbox : MailboxId)
    (modSeq : ModSeq) (uids : List Uid) (store : σ) : Prop :=
  ∃ report failed succeeded after,
    FailsWhere (fun uids => resetRecent mailbox uids modSeq)
        (fun part => Storage.resetRecent mailbox part modSeq) fault blocks uids store store
        report failed succeeded after ∧
      Accounts report (StoreError.partialBatch report failed succeeded).failedUids uids

/-- A reset that a fault interrupts is completed by its repetition, and what it reports accounts for
every number. -/
def ResetRecovers [Kept σ] (fault : List Uid → Option StoreError) (mailbox : MailboxId)
    (modSeq : ModSeq) (uids : List Uid) (store : σ) : Prop :=
  ∃ report failed succeeded after,
    Recovers (fun uids => resetRecent mailbox uids modSeq)
        (fun part => Storage.resetRecent mailbox part modSeq) fault uids store store
        report failed succeeded after ∧
      Accounts report (StoreError.partialBatch report failed succeeded).failedUids uids

/-- A removal that a fault interrupts after it has counted up fails where its partitions are
blocked. -/
def DeleteFailsWhere (fault blocks : List Uid → Option StoreError) (mailbox : MailboxId)
    (uids : List Uid) (store : σ) : Prop :=
  ∃ modSeq start report failed succeeded after,
    Storage.nextModSeq mailbox store = (.ok modSeq, start) ∧
      FailsWhere (fun uids => deleteByUids mailbox uids) (Storage.deleteBatch mailbox) fault blocks
        uids store start report failed succeeded after

/-- A removal that a fault interrupts after it has counted up is completed by its repetition. -/
def DeleteRecovers [Kept σ] (fault : List Uid → Option StoreError) (mailbox : MailboxId)
    (uids : List Uid) (store : σ) : Prop :=
  ∃ modSeq start report failed succeeded after,
    Storage.nextModSeq mailbox store = (.ok modSeq, start) ∧
      Recovers (fun uids => deleteByUids mailbox uids) (Storage.deleteBatch mailbox) fault uids
        store start report failed succeeded after

/-- The modification sequence of a mailbox counts up twice in a row. -/
def CountsTwice (mailbox : MailboxId) (store : σ) : Prop :=
  ∃ first start second after, Storage.nextModSeq mailbox store = (.ok first, start) ∧
    Storage.nextModSeq mailbox start = (.ok second, after)

namespace Refusing

variable [Kept σ] {isFit isOpen : σ → Prop} {refusal : σ → List Uid → Option StoreError}
  {fault : List Uid → Option StoreError} {mailbox : MailboxId} {modSeq : ModSeq} {uids : List Uid}
  {store start : σ}

/-! ### Resets -/

section Resets

variable {call : List Uid → Step σ RecentReset} {batch : Batchwise isFit call}
  (refusing : Refusing batch isOpen refusal fun part => Storage.resetRecent mailbox part modSeq)
  (fits : modSeq ≤ maxStored) (opened : isOpen store)

include refusing fits opened

/-- A reset that is interrupted fails where the fault hits and where the store refuses. -/
theorem resetRecent_failsWhere (interrupted : IsInterrupted fault uids store)
    (each : ∀ uid, (BatchOutcome.report (batch.one store uid)).uids = [uid]) :
    ResetFailsWhere fault (blocked fault (refusal store)) mailbox modSeq uids store := by
  obtain ⟨fails, inPart⟩ := refusing.failsInPart opened interrupted
  refine ⟨_, _, _, _, ⟨?_, inPart⟩, ?_⟩
  · exact (resetRecent_of_le fits uids _).trans fails
  · rw [failedUids_failures]
    exact batch.accounts each _ uids

/-- A reset that is interrupted is completed by its repetition if and only if the store refuses no
partition. -/
theorem resetRecent_recovers_iff (interrupted : IsInterrupted fault uids store)
    (each : ∀ uid, (BatchOutcome.report (batch.one store uid)).uids = [uid]) :
    ResetRecovers fault mailbox modSeq uids store ↔
      ∀ part ∈ chunks (max (Storage.listBound store) 1) (sortedUids uids),
        refusal store part = none := by
  constructor
  · rintro ⟨report, failed, succeeded, after, recovers, -⟩
    obtain ⟨-, whole, -, done, -, ran, -⟩ := recovers.completes
    exact refusing.taken_of_ran opened (sortedUids_ascending uids)
      ((resetRecent_of_le fits uids store).symm.trans ran)
  · intro taken
    obtain ⟨fails, inPart⟩ := refusing.failsInPart_of_taken opened interrupted taken
    obtain ⟨again, whole, retried, done, repeated, ran, same, told⟩ := refusing.completes opened
      taken (refusing.open_effect opened) (Kept.same_chains.refl _) rfl
    refine ⟨_, _, _, _, ⟨⟨?_, inPart⟩, again, whole, retried, done, ?_, ?_, same, told⟩, ?_⟩
    · exact (resetRecent_of_le fits uids _).trans fails
    · rw [failedUids_failures]
      exact (resetRecent_of_le fits _ _).trans repeated
    · exact (resetRecent_of_le fits uids _).trans ran
    · rw [failedUids_failures]
      exact batch.accounts each fault uids

end Resets

/-! ### Removals -/

section Removals

variable [RollsBack σ] {call : List Uid → Step σ (List Metadata)} {batch : Batchwise isFit call}
  (refusing : Refusing batch isOpen refusal (Storage.deleteBatch mailbox)) (opened : isOpen store)
  (opened_same : ∀ {store after : σ}, SameButCounters store after → isOpen store → isOpen after)
  (refusal_same : ∀ {store after : σ}, SameButCounters store after → refusal after = refusal store)

omit [Kept σ] [RollsBack σ] in
/-- A removal that is interrupted counts up as usual. -/
theorem deleteByUids_interrupted (nonempty : uids ≠ [])
    (counted : Storage.nextModSeq mailbox store = (.ok modSeq, start))
    {outcome : Except StoreError (List Metadata) × σ}
    (ran : runPartitioned (Storage.listBound start) (interrupt fault (Storage.deleteBatch mailbox))
      (sortedUids uids) start = outcome) :
    (deleteByUids mailbox uids : Step (Interrupted σ fault) (List Metadata)) store = outcome := by
  have counted : (Storage.nextModSeq mailbox : Step (Interrupted σ fault) ModSeq) store
    = (.ok modSeq, start) := counted
  exact (deleteByUids_of_counted nonempty counted).trans ran

include refusing opened opened_same refusal_same

/-- A removal that is interrupted fails where the fault hits and where the store refuses. -/
theorem deleteByUids_failsWhere (interrupted : IsInterrupted fault uids store)
    (counted : Storage.nextModSeq mailbox store = (.ok modSeq, start)) :
    DeleteFailsWhere fault (blocked fault (refusal store)) mailbox uids store := by
  have same := sameButCounters_of_nextModSeq counted
  have bound := batch.bound_same same
  obtain ⟨fails, inPart⟩ :=
    refusing.failsInPart (opened_same same opened) (interrupted.of_bound_eq bound)
  rw [refusal_same same] at fails inPart
  exact ⟨modSeq, start, _, _, _, _, counted,
    deleteByUids_interrupted interrupted.ne_nil counted fails, by rw [← bound]; exact inPart⟩

/-- A removal that is interrupted is completed by its repetition if and only if the store refuses no
partition and counts up for both. -/
theorem deleteByUids_recovers_iff (interrupted : IsInterrupted fault uids store)
    (counts_effect : ∀ {start : σ} {part}, isOpen start →
      ((∃ n after, Storage.nextModSeq mailbox (batch.effect part start) = (.ok n, after)) ↔
        ∃ n after, Storage.nextModSeq mailbox start = (.ok n, after))) :
    DeleteRecovers fault mailbox uids store ↔
      (∀ part ∈ chunks (max (Storage.listBound store) 1) (sortedUids uids),
        refusal store part = none) ∧ CountsTwice mailbox store := by
  have nonempty := interrupted.ne_nil
  constructor
  · rintro ⟨n, start, report, failed, succeeded, after, counted, recovers⟩
    have same := sameButCounters_of_nextModSeq counted
    have bound := batch.bound_same same
    have opened' := opened_same same opened
    have interrupted' := interrupted.of_bound_eq bound
    obtain ⟨again, whole, retried, done, repeated, ran, -⟩ := recovers.completes
    have taken : ∀ part ∈ chunks (max (Storage.listBound store) 1) (sortedUids uids),
        refusal store part = none := by
      rw [← bound, ← refusal_same same]
      exact refusing.taken_of_ran opened' (sortedUids_ascending uids)
        ((deleteByUids_of_counted nonempty counted).symm.trans ran)
    refine ⟨taken, n, start, ?_⟩
    obtain ⟨fails, -⟩ := refusing.failsInPart opened' interrupted'
    obtain rfl : after = batch.effect _ start := congrArg Prod.snd
      (recovers.fails.symm.trans (deleteByUids_interrupted nonempty counted fails))
    have failed_some : (StoreError.partialBatch report failed succeeded).failedUids ≠ [] := by
      rw [recovers.inPart.failedUids_eq]
      exact interrupted.failedUids_ne_nil
    obtain ⟨second, more, countedAgain⟩ :=
      (counts_effect opened').mp (counted_of_deleteByUids failed_some repeated)
    exact ⟨second, more, counted, countedAgain⟩
  · rintro ⟨taken, n, start, second, more, counted, countedAgain⟩
    have same := sameButCounters_of_nextModSeq counted
    have bound := batch.bound_same same
    have opened' := opened_same same opened
    have interrupted' := interrupted.of_bound_eq bound
    rw [← bound, ← refusal_same same] at taken
    obtain ⟨fails, inPart⟩ := refusing.failsInPart_of_taken opened' interrupted' taken
    obtain ⟨m, recounted, countedAgain⟩ := (@counts_effect start (missed fault
      (chunks (max (Storage.listBound start) 1) (sortedUids uids))).flatten opened').mpr
        ⟨second, more, countedAgain⟩
    have sameAgain := sameButCounters_of_nextModSeq countedAgain
    obtain ⟨again, whole, retried, done, repeated, ran, left, told⟩ := refusing.completes opened'
      taken (opened_same sameAgain (refusing.open_effect opened')) sameAgain
      (refusal_same sameAgain)
    refine ⟨n, start, _, _, _, _, counted, ⟨⟨deleteByUids_interrupted nonempty counted fails, ?_⟩,
      again, whole, retried, done, ?_, ?_, left, told⟩⟩
    · rw [← bound]
      exact inPart
    · rw [failedUids_failures]
      exact (deleteByUids_of_counted interrupted'.failedUids_ne_nil countedAgain).trans repeated
    · exact (deleteByUids_of_counted nonempty counted).trans ran

end Removals

end Refusing

end Mailroom
