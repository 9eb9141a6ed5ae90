import Mailroom.Proofs.Failures.Stores
import Mailroom.Proofs.Memory.Places
import Mailroom.Proofs.Mirror.Removals
import Mailroom.Proofs.Retries.Refusals
import Mailroom.Proofs.Retries.Rows
/-!
Batches in memory, number by number (`Memory.Store.resetsBatchwise`,
`Memory.Store.deletesBatchwise`).
-/

namespace Mailroom

namespace Memory.Store

variable {m : Store} {mailbox : MailboxId} {modSeq : ModSeq} {part : List Uid} {uid : Uid}

theorem of_sameButCounters {after : Store} (same : SameButCounters m after) :
    ∃ counters, after = { m with counters } := ⟨_, same⟩

/-- Whether a row has a modification sequence. -/
def isSettled (modSeq : ModSeq) (row : Message) : Bool := decide (row.modSeq = modSeq)

/-- What a reset answers of a row, which has the modification sequence then. -/
def tellReset (modSeq : ModSeq) (_ : Place) (row : Message) : Metadata :=
  (reset modSeq row).metadata

theorem pending_eq {rows : Table Place Message} :
    pending rows mailbox modSeq part = unsettled (isSettled modSeq) mailbox rows part := by
  simp only [pending, unsettled, isSettled, decide_not]

theorem resetRecent_eq (on : m.available = true) (fits : modSeq ≤ maxStored)
    (ascending : part.Pairwise (· < ·)) :
    m.resetRecent mailbox part modSeq = .ok
      (gather (resetOne (isSettled modSeq) (tellReset modSeq) mailbox m.rows) part,
        { m with rows := resetRows (isSettled modSeq) (reset modSeq) mailbox part m.rows }) := by
  have stamped : m.rows.mapValues (resetAt mailbox modSeq (pending m.rows mailbox modSeq part))
      = resetRows (isSettled modSeq) (reset modSeq) mailbox part m.rows :=
    resetRows_eq fun place row _ => by rw [resetAt, pending_eq]
  unfold resetRecent
  rw [checkStorable_ok.mpr fits, ensureAvailable_ok.mpr on, gather_resetOne, ← stamped]
  simp only [Outcomes.ok_bind, resetEach_eq (ascending.imp Nat.ne_of_lt), rowsAt,
    List.map_filterMap, pending_eq]
  rfl

/-- The store after the rows with some numbers were reset. -/
def stamped (mailbox : MailboxId) (modSeq : ModSeq) (part : List Uid) (m : Store) : Store :=
  { m with rows := resetRows (isSettled modSeq) (reset modSeq) mailbox part m.rows }

/-- Resets in memory go number by number. -/
def resetsBatchwise (mailbox : MailboxId) (fits : modSeq ≤ maxStored) :
    Batchwise (fun m : Store => m.available = true) fun part =>
      (Storage.resetRecent mailbox part modSeq : Step Store RecentReset) where
  one m := resetOne (isSettled modSeq) (tellReset modSeq) mailbox m.rows
  effect := stamped mailbox modSeq
  runs on ascending _ := Step.write_of_ok (resetRecent_eq on fits ascending)
  effect_nil m := by rw [stamped, resetRows_nil]
  effect_effect m part more := by
    have done : ∀ row, isSettled modSeq (reset modSeq row) = true := fun _ => decide_eq_true rfl
    rw [stamped, stamped, resetRows_resetRows done]
    rfl
  effect_congr same := by
    unfold stamped resetRows
    rw [isApart_congr same]
  one_effect apart := by
    unfold resetOne stamped
    rw [get?_resetRows_of_not_mem apart]
  fit_effect on := on
  bound_effect _ _ := rfl
  fit_same same on := by
    obtain ⟨_, rfl⟩ := of_sameButCounters same
    exact on
  one_same same := by
    obtain ⟨_, rfl⟩ := of_sameButCounters same
    rfl
  bound_same same := by
    obtain ⟨_, rfl⟩ := of_sameButCounters same
    rfl
  effect_same same := by
    obtain ⟨_, rfl⟩ := of_sameButCounters same
    rfl

/-- No reset is refused in memory. -/
theorem resetRecent_refusing (mailbox : MailboxId) (fits : modSeq ≤ maxStored) :
    Refusing (resetsBatchwise mailbox fits) (fun m => m.available = true) (fun _ _ => none)
      (fun part => (Storage.resetRecent mailbox part modSeq : Step Store RecentReset)) where
  does on ascending _ := Step.write_of_ok (resetRecent_eq on fits ascending)
  open_effect on := on
  refusal_effect _ := rfl

/-- The row that a removal answers with. -/
def removedAt (m : Store) (mailbox : MailboxId) (uid : Uid) : Option Metadata :=
  (m.rows.get? ⟨mailbox, uid⟩).map Message.metadata

/-- Whether a row is one of a message. -/
def isOf (row : Message) (id : MessageId) : Bool := row.messageId = id

/-- The store with the rows at some places only. -/
def kept (keep : Place → Bool) (m : Store) : Store :=
  { m with rows := keptRows keep m.rows, contents := keptContents isOf keep m.rows m.contents }

theorem deleteBatch_eq (on : m.available = true) (ascending : part.Pairwise (· < ·)) :
    m.deleteBatch mailbox part = .ok (gather (fun uid => (m.removedAt mailbox uid).toList) part,
      m.kept (isApart mailbox part)) := by
  unfold deleteBatch
  rw [ensureAvailable_ok.mpr on, gather_toList,
    Mirror.eraseDups_of_nodup (ascending.imp Nat.ne_of_lt), Outcomes.ok_bind]
  dsimp only
  rw [List.map_filterMap]
  rfl

/-- Removals in memory go number by number. -/
def deletesBatchwise (mailbox : MailboxId) :
    Batchwise (fun m : Store => m.available = true) fun part =>
      (Storage.deleteBatch mailbox part : Step Store (List Metadata)) where
  one m uid := (m.removedAt mailbox uid).toList
  effect part := kept (isApart mailbox part)
  runs on ascending _ := Step.write_of_ok (deleteBatch_eq on ascending)
  effect_nil m := by
    have all : ∀ entry ∈ m.rows.entries, isApart mailbox [] entry.1 = true :=
      fun _ _ => isApart_nil
    rw [kept, keptRows_all all, keptContents_all all]
  effect_effect m part more := by
    rw [kept, kept, keptRows_keptRows, keptContents_keptContents]
    simp only [← isApart_append]
    rfl
  effect_congr same := by rw [isApart_congr same]
  one_effect apart := by rw [removedAt, kept, get?_keptRows_of_not_mem apart, removedAt]
  fit_effect on := on
  bound_effect _ _ := rfl
  fit_same same on := by
    obtain ⟨_, rfl⟩ := of_sameButCounters same
    exact on
  one_same same := by
    obtain ⟨_, rfl⟩ := of_sameButCounters same
    rfl
  bound_same same := by
    obtain ⟨_, rfl⟩ := of_sameButCounters same
    rfl
  effect_same same := by
    obtain ⟨_, rfl⟩ := of_sameButCounters same
    rfl

/-- No removal is refused in memory. -/
theorem deleteBatch_refusing (mailbox : MailboxId) :
    Refusing (deletesBatchwise mailbox) (fun m => m.available = true) (fun _ _ => none)
      (fun part => (Storage.deleteBatch mailbox part : Step Store (List Metadata))) where
  does on ascending _ := Step.write_of_ok (deleteBatch_eq on ascending)
  open_effect on := on
  refusal_effect _ := rfl

/-- A store that is switched on counts up. -/
theorem nextModSeq_of_available (on : m.available = true) (mailbox : MailboxId) :
    ∃ n after, Storage.nextModSeq mailbox m = (.ok n, after) ∧ after.available = true := by
  cases counted : nextModSeq mailbox m with
  | error e =>
    unfold nextModSeq allocate at counted
    rw [ensureAvailable_ok.mpr on] at counted
    cases counted
  | ok outcome =>
    refine ⟨_, _, Step.write_of_ok counted, ?_⟩
    rw [(allocate_ok counted).2]
    exact on

end Memory.Store

end Mailroom
