import Mailroom.Proofs.Effects
import Mailroom.Proofs.Memory.Writes
/-!
The counters of a store in memory over a run.

Every allocation counts a counter up by one and nothing else changes it, so counters only rise
(`writes_countersRise`), and counters that fit after a run have fitted all along
(`CountersFit.of_rise`).
-/

namespace Mailroom.Memory

/-- No counter has gone beyond the last number that is stored. -/
def CountersFit (m : Store) : Prop :=
  ∀ mailbox, (m.countersOf mailbox).lastUid ≤ maxStored ∧
    (m.countersOf mailbox).highestModSeq ≤ maxStored

/-- Counters that were never counted up fit. -/
theorem countersFit_iff {m : Store} : CountersFit m ↔
    ∀ counters ∈ m.counters.values,
      counters.lastUid ≤ maxStored ∧ counters.highestModSeq ≤ maxStored := by
  constructor
  · intro fit counters member
    obtain ⟨mailbox, found⟩ := Table.mem_values_iff.mp member
    have fits := fit mailbox
    unfold Store.countersOf at fits
    rwa [found] at fits
  · intro fit mailbox
    unfold Store.countersOf
    cases found : m.counters.get? mailbox with
    | none => exact ⟨Nat.zero_le _, Nat.zero_le _⟩
    | some counters => exact fit counters (Table.mem_values_iff.mpr ⟨_, found⟩)

instance (m : Store) : Decidable (CountersFit m) := decidable_of_iff _ countersFit_iff.symm

/-- The counters have only gone up. -/
def CountersRise (before after : Store) : Prop :=
  ∀ mailbox, (before.countersOf mailbox).lastUid ≤ (after.countersOf mailbox).lastUid ∧
    (before.countersOf mailbox).highestModSeq ≤ (after.countersOf mailbox).highestModSeq

theorem countersRise_chains : Chains CountersRise where
  refl _ _ := ⟨Nat.le_refl _, Nat.le_refl _⟩
  trans first second mailbox :=
    ⟨Nat.le_trans (first mailbox).1 (second mailbox).1,
      Nat.le_trans (first mailbox).2 (second mailbox).2⟩

theorem CountersFit.of_rise {before after : Store} (fit : CountersFit after)
    (rise : CountersRise before after) : CountersFit before := fun mailbox =>
  ⟨Nat.le_trans (rise mailbox).1 (fit mailbox).1, Nat.le_trans (rise mailbox).2 (fit mailbox).2⟩

/-- The counters of a mailbox after those of one were stored. -/
theorem countersOf_insert {m : Store} {mailbox other : MailboxId} {counters : Counters} :
    ({ m with counters := m.counters.insert mailbox counters }).countersOf other
      = if mailbox = other then counters else m.countersOf other := by
  unfold Store.countersOf
  rw [Table.get?_insert]
  split <;> rfl

/-- Storing greater counters of a mailbox lets the counters rise. -/
theorem countersRise_insert {m : Store} {mailbox : MailboxId} {counters : Counters}
    (lastUid : (m.countersOf mailbox).lastUid ≤ counters.lastUid)
    (highestModSeq : (m.countersOf mailbox).highestModSeq ≤ counters.highestModSeq) :
    CountersRise m { m with counters := m.counters.insert mailbox counters } := by
  intro other
  rw [countersOf_insert]
  split
  · rename_i same
    exact same ▸ ⟨lastUid, highestModSeq⟩
  · exact ⟨Nat.le_refl _, Nat.le_refl _⟩

theorem nextUid_rises (mailbox : MailboxId) :
    (Storage.nextUid mailbox : Step Store Uid).Within CountersRise :=
  .write countersRise_chains fun done => by
    obtain ⟨-, rfl⟩ := Store.allocate_ok done
    exact countersRise_insert (Nat.le_succ _) (Nat.le_refl _)

theorem nextModSeq_rises (mailbox : MailboxId) :
    (Storage.nextModSeq mailbox : Step Store ModSeq).Within CountersRise :=
  .write countersRise_chains fun done => by
    obtain ⟨-, rfl⟩ := Store.allocate_ok done
    exact countersRise_insert (Nat.le_refl _) (Nat.le_succ _)

theorem insert_rises (message : Message) :
    (Storage.insert message : Step Store Unit).Within CountersRise :=
  .write countersRise_chains fun done => by
    obtain ⟨-, -, rfl⟩ := Store.insert_ok done
    exact countersRise_chains.refl _

theorem updateFlags_rises (mailbox : MailboxId) (uid : Uid) (edit : FlagEdit) (modSeq : ModSeq)
    (expected : Option ModSeq) :
    (Storage.updateFlags mailbox uid edit modSeq expected : Step Store Metadata).Within
      CountersRise :=
  .write countersRise_chains fun done => by
    obtain ⟨-, _, -, -, -, rfl⟩ := Store.updateFlags_ok done
    exact countersRise_chains.refl _

theorem writes_countersRise : Writes Store (fun _ => True) CountersRise where
  nextUid := nextUid_rises
  nextModSeq := nextModSeq_rises
  append mailbox new now _ := Service.append_within countersRise_chains nextUid_rises
    nextModSeq_rises insert_rises mailbox new now
  applyFlags := Service.applyFlags_within countersRise_chains nextModSeq_rises updateFlags_rises
  resetRecent _ _ _ _ _ _ ascending := .write countersRise_chains fun done => by
    obtain ⟨-, rfl⟩ := Store.resetRecent_ok (ascending.imp fun before => Nat.ne_of_lt before) done
    exact countersRise_chains.refl _
  deleteBatch _ _ _ := .write countersRise_chains fun done => by
    rw [Store.deleteBatch_ok done]
    exact countersRise_chains.refl _
  deleteMailbox _ := .write countersRise_chains fun done => by
    rw [Store.deleteMailbox_ok done]
    exact countersRise_chains.refl _
  deleteMessage _ := .write countersRise_chains fun done => by
    rw [Store.deleteMessage_ok done]
    exact countersRise_chains.refl _
  appendChange _ _ _ := .write countersRise_chains fun done => by
    obtain ⟨-, rfl⟩ := Store.appendChange_ok done
    exact countersRise_chains.refl _
  purgeExpired _ _ := .write countersRise_chains fun done => by
    rw [Store.purgeExpired_ok done]
    exact countersRise_chains.refl _

end Mailroom.Memory
