import Mailroom.Proofs.Locality
import Mailroom.Storage.Faulty
/-!
A store that fails on demand, as a store of its own.

A fault makes a call on a partition fail before the store does anything. So whatever bounds the
effects of a store bounds those of the store with faults (`Operations.faulty`), and its writes are
confined as well.
-/

namespace Mailroom

open Service

variable {σ α : Type}

/-! ### Steps -/

namespace Faulty

variable {R : σ → σ → Prop} {S : Faulty σ → Faulty σ → Prop} {step : Step σ α}

/-- A step on the store itself answers as it does there. -/
theorem of_lift {faulty after : Faulty σ} {outcome : Except StoreError α}
    (done : lift step faulty = (outcome, after)) : step faulty.store = (outcome, after.store) := by
  cases done
  rfl

/-- A step on the store itself does what it does there. -/
theorem lift_within
    (inside : ∀ faulty after, R faulty.store after → S faulty { faulty with store := after })
    (within : step.Within R) : (lift step).Within S :=
  fun faulty => inside faulty _ (within faulty.store)

/-- A step on a partition does what it does there, or nothing. -/
theorem onUids_within
    (inside : ∀ faulty after, R faulty.store after → S faulty { faulty with store := after })
    (chains : Chains S) (within : step.Within R) (uids : List Uid) :
    (onUids uids step).Within S := by
  intro faulty
  unfold onUids
  split
  · exact chains.refl faulty
  · exact lift_within inside within faulty

/-- What two stores have in common, whatever faults are armed on them. -/
def Inside (R : σ → σ → Prop) (faulty after : Faulty σ) : Prop := R faulty.store after.store

theorem inside_chains (chains : Chains R) : Chains (Inside R) where
  refl _ := chains.refl _
  trans first second := chains.trans first second

end Faulty

open Faulty in
/-- The operations of a store with faults stay within what those of the store stay within. -/
theorem Operations.faulty [Storage σ] {R : σ → σ → Prop} (chains : Chains R)
    (operations : Operations σ R) : Operations (Faulty σ) (Inside R) where
  nextUid mailbox := lift_within (fun _ _ => id) (operations.nextUid mailbox)
  nextModSeq mailbox := lift_within (fun _ _ => id) (operations.nextModSeq mailbox)
  insert message := lift_within (fun _ _ => id) (operations.insert message)
  updateFlags mailbox uid edit modSeq expected :=
    lift_within (fun _ _ => id) (operations.updateFlags mailbox uid edit modSeq expected)
  resetRecent mailbox uids modSeq fits ascending :=
    onUids_within (fun _ _ => id) (inside_chains chains)
      (operations.resetRecent mailbox uids modSeq fits ascending) uids
  deleteBatch mailbox uids ascending :=
    onUids_within (fun _ _ => id) (inside_chains chains)
      (operations.deleteBatch mailbox uids ascending) uids
  deleteMailbox mailbox := lift_within (fun _ _ => id) (operations.deleteMailbox mailbox)
  deleteMessage message := lift_within (fun _ _ => id) (operations.deleteMessage message)
  appendChange draft expiresAt :=
    lift_within (fun _ _ => id) (operations.appendChange draft expiresAt)
  purgeExpired now := lift_within (fun _ _ => id) (operations.purgeExpired now)

/-! ### What a store with faults keeps -/

instance [Kept σ] : Kept (Faulty σ) where
  Row := Kept.Row σ
  rowAt faulty := rowAt faulty.store
  Count := Kept.Count σ
  countersOf faulty := Kept.countersOf faulty.store
  IsUpTo := Kept.IsUpTo
  SameButCounters faulty after :=
    SameButCounters faulty.store after.store ∧ after = { faulty with store := after.store }
  IsLinked faulty := IsLinked faulty.store
  same_chains := {
    refl := fun faulty => ⟨Kept.same_chains.refl faulty.store, rfl⟩
    trans := fun first second => ⟨Kept.same_chains.trans first.1 second.1, by
      rw [second.2, first.2]⟩ }
  upTo_refl := Kept.upTo_refl
  upTo_trans := Kept.upTo_trans
  rowAt_same same := Kept.rowAt_same same.1

namespace Faulty

variable [Kept σ]

/-- A store with faults is confined to what the store is confined to. -/
theorem confined {touched : Place → Prop} (faulty : Faulty σ) (after : σ)
    (confined : Confined touched faulty.store after) :
    Confined touched faulty { faulty with store := after } :=
  ⟨confined.counters, confined.rows⟩

/-- A store with faults counts what the store counts. -/
theorem onlyCounted {mailboxes : MailboxId → Prop} (faulty : Faulty σ) (after : σ)
    (counted : OnlyCounted mailboxes faulty.store after) :
    OnlyCounted mailboxes faulty { faulty with store := after } :=
  ⟨⟨counted.kept, rfl⟩, counted.advanced, counted.elsewhere⟩

instance [Storage σ] [Confines σ] : Confines (Faulty σ) where
  isOrderly faulty := isOrderly faulty.store
  orderly := Confines.orderly.faulty (keeps_chains isOrderly)
  insert message := lift_within confined (Confines.insert message)
  updateFlags mailbox uid edit modSeq expected :=
    lift_within confined (Confines.updateFlags mailbox uid edit modSeq expected)
  resetRecent mailbox uids modSeq ascending :=
    onUids_within confined (confined_chains _)
      (Confines.resetRecent mailbox uids modSeq ascending) uids
  deleteBatch mailbox uids :=
    onUids_within confined (confined_chains _) (Confines.deleteBatch mailbox uids) uids
  deleteMessage id faulty orderly :=
    confined faulty _ (Confines.deleteMessage id faulty.store orderly)
  isLinked_same same linked := Confines.isLinked_same (σ := σ) same.1 linked
  findMailboxes orderly found := Confines.findMailboxes (σ := σ) orderly (of_lift found)

/-- A step on the store itself fails as it does there. -/
theorem lift_fails {mailboxes : MailboxId → Prop} {step : Step σ α}
    (fails : step.FailsWithin (OnlyCounted mailboxes)) :
    (lift step).FailsWithin (OnlyCounted mailboxes) := by
  intro faulty e after failed
  have counted := fails _ _ _ (of_lift failed)
  obtain ⟨-, rfl⟩ := Prod.mk.inj failed
  exact onlyCounted faulty _ counted

/-- A step on a partition fails as it does there, or before it. -/
theorem onUids_fails {mailboxes : MailboxId → Prop} {step : Step σ α}
    (fails : step.FailsWithin (OnlyCounted mailboxes)) (uids : List Uid) :
    (onUids uids step).FailsWithin (OnlyCounted mailboxes) := by
  intro faulty e after failed
  unfold onUids at failed
  split at failed
  · cases failed
    exact (onlyCounted_chains mailboxes).refl faulty
  · exact lift_fails fails _ _ _ failed

theorem sameRow {place : Place} (faulty : Faulty σ) (after : σ)
    (same : SameRow place faulty.store after) :
    SameRow place faulty { faulty with store := after } := same

instance [Storage σ] [RollsBack σ] : RollsBack (Faulty σ) where
  nextUid mailbox := lift_within onlyCounted (RollsBack.nextUid mailbox)
  nextModSeq mailbox := lift_within onlyCounted (RollsBack.nextModSeq mailbox)
  insert message := lift_fails (RollsBack.insert message)
  updateFlags mailbox uid edit modSeq expected :=
    lift_fails (RollsBack.updateFlags mailbox uid edit modSeq expected)
  resetRecent mailbox uids modSeq := onUids_fails (RollsBack.resetRecent mailbox uids modSeq) uids
  resetRecent_elsewhere mailbox uids modSeq ascending uid apart :=
    onUids_within sameRow (sameRow_chains _)
      (RollsBack.resetRecent_elsewhere mailbox uids modSeq ascending uid apart) uids
  deleteBatch mailbox uids := onUids_fails (RollsBack.deleteBatch mailbox uids) uids
  deleteBatch_elsewhere mailbox uids ascending uid apart :=
    onUids_within sameRow (sameRow_chains _)
      (RollsBack.deleteBatch_elsewhere mailbox uids ascending uid apart) uids
  deleteMailbox mailbox := lift_fails (RollsBack.deleteMailbox mailbox)
  deleteMessage id := lift_fails (RollsBack.deleteMessage id)
  findMailboxes found := RollsBack.findMailboxes (σ := σ) (of_lift found)
  purgeExpired now := lift_fails (RollsBack.purgeExpired now)

/-! ### Incidents -/

/-- What happens to a store with faults: faults are armed, or something happens to the store. -/
inductive Incident (ι : Type) where
  | arm (uids : List Uid) (kind : FaultKind) (pages : Option Nat)
  | inner (incident : ι)

instance {ι : Type} [Exposed σ ι] : Exposed (Faulty σ) (Incident ι) where
  befall
    | .arm uids kind pages, faulty => { faulty with uids, kind, pages }
    | .inner incident, faulty => { faulty with store := befall incident faulty.store }

instance {ι : Type} [Storage σ] [Confines σ] [Exposed σ ι] [Endures σ] : Endures (Faulty σ) where
  isEndured
    | .arm .., _ => True
    | .inner incident, faulty => isEndured incident faulty.store
  befall incident faulty endured orderly := by
    cases incident with
    | arm uids kind pages => exact ⟨orderly, rfl, fun _ _ => rfl⟩
    | inner incident =>
      obtain ⟨still, kept⟩ := Endures.befall incident faulty.store endured orderly
      exact ⟨still, confined faulty _ kept⟩

end Faulty

end Mailroom
