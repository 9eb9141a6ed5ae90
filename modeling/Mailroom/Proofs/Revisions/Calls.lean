import Mailroom.Proofs.Effects
import Mailroom.Proofs.Revisions.View
/-!
What calls do to the revisions of rows.

`Revised` says for each operation of a store what it does to the view of the store. From this it
follows for every store what a call does: a call other than a reset stamps the rows that it changes
with modification sequences given out during the call (`writes_stamps`), a reset stamps them with
its own (`resetRecent_resets`). So a change takes a row forward unless it is made by a reset whose
modification sequence is less than that of the row (`run_forward_iff`).
-/

namespace Mailroom

open View

variable {σ α β : Type}

/-- The modification sequence that a caller chose for rows. -/
def Service.Call.target? : Service.Call → Option ModSeq
  | .resetRecent _ _ modSeq => some modSeq
  | _ => none

/-- What a step does to the view of a sound store, which it leaves sound. -/
def Step.Obeys [Sound σ] (view : σ → View) (law : View → Except StoreError α → View → Prop)
    (step : Step σ α) : Prop :=
  ∀ store, isSound store →
    isSound (step store).2 ∧ law (view store) (step store).1 (view (step store).2)

/-- A store whose operations can be followed in a view. -/
class Revised (σ : Type) [Storage σ] [Sound σ] where
  view : σ → View
  nextUid : ∀ mailbox, (Storage.nextUid mailbox).Obeys view (CountsUid mailbox)
  nextModSeq : ∀ mailbox, (Storage.nextModSeq mailbox).Obeys view (CountsModSeq mailbox)
  insert : ∀ message, (Storage.insert message).Obeys view fun v _ =>
    Inserts message.place message.modSeq v
  updateFlags : ∀ mailbox uid edit modSeq expected,
    (Storage.updateFlags mailbox uid edit modSeq expected).Obeys view fun v _ =>
      Updates ⟨mailbox, uid⟩ modSeq v
  resetRecent : ∀ mailbox uids modSeq, modSeq ≤ maxStored → uids.Pairwise (· < ·) →
    (Storage.resetRecent mailbox uids modSeq).Obeys view fun v _ => Resets mailbox modSeq v
  deleteBatch : ∀ mailbox uids, uids.Pairwise (· < ·) →
    (Storage.deleteBatch mailbox uids).Obeys view fun v _ => Drops v
  deleteMailbox : ∀ mailbox, (Storage.deleteMailbox mailbox).Obeys view fun v _ => Drops v
  deleteMessage : ∀ id, (Storage.deleteMessage id).Obeys view fun v _ => Drops v
  appendChange : ∀ draft expiresAt,
    (Storage.appendChange draft expiresAt).Obeys view fun v _ => Eq v
  purgeExpired : ∀ now, (Storage.purgeExpired now).Obeys view fun v _ => Eq v

namespace Revised

open Service

variable [Storage σ] [Sound σ] [Revised σ]

/-- A sound store whose rows bear what was given out. -/
def IsGood (store : σ) : Prop := isSound store ∧ (view store).IsIssued

/-- A good store stays good, and rows are stamped with what was given out since. -/
def StampsRows (store after : σ) : Prop :=
  IsGood store → IsGood after ∧ Stamps (view store) (view after)

theorem stampsRows_chains : Chains (StampsRows (σ := σ)) where
  refl store good := ⟨good, .refl _⟩
  trans first second good := by
    obtain ⟨between, stamps⟩ := first good
    obtain ⟨after, later⟩ := second between
    exact ⟨after, stamps.trans good.2 later⟩

theorem nextUid_stamps (mailbox : MailboxId) :
    (Storage.nextUid mailbox : Step σ Uid).Within StampsRows := by
  rintro store ⟨sound, issued⟩
  obtain ⟨sound, counts⟩ := nextUid mailbox store sound
  exact ⟨⟨sound, counts.stamps.2.1 issued⟩, counts.stamps.1⟩

theorem nextModSeq_stamps (mailbox : MailboxId) :
    (Storage.nextModSeq mailbox : Step σ ModSeq).Within StampsRows := by
  rintro store ⟨sound, issued⟩
  obtain ⟨sound, counts⟩ := nextModSeq mailbox store sound
  exact ⟨⟨sound, counts.stamps.2.1 issued⟩, counts.stamps.1⟩

/-- A step that only removes rows stamps none. -/
theorem stamps_of_drops {step : Step σ α} (drops : step.Obeys view fun v _ => Drops v) :
    step.Within StampsRows := by
  rintro store ⟨sound, issued⟩
  obtain ⟨sound, drops⟩ := drops store sound
  exact ⟨⟨sound, drops.issued issued⟩, drops.stamps⟩

theorem stamps_of_eq {step : Step σ α} (same : step.Obeys view fun v _ => Eq v) :
    step.Within StampsRows := by
  rintro store ⟨sound, issued⟩
  obtain ⟨sound, same⟩ := same store sound
  refine ⟨⟨sound, ?_⟩, ?_⟩
  · rw [← same]
    exact issued
  · rw [← same]
    exact .refl _

/-- A new row bears the numbers that were given out for it. -/
theorem append_stamps (mailbox : MailboxId) (new : NewMessage) (now : Instant) :
    (append mailbox new now : Step σ Metadata).Within StampsRows := by
  intro store good
  have first := nextUid_stamps mailbox store good
  have counts := (nextUid mailbox store good.1).2
  rcases append_cases mailbox new now store with
    ⟨e, after, counted, failed⟩ | ⟨uid, middle, counted, ending⟩
  · rw [counted] at first
    rwa [failed]
  rw [counted] at first counts
  obtain ⟨good₁, stamps₁⟩ := first
  have second := nextModSeq_stamps mailbox middle good₁
  have counts₁ := (nextModSeq mailbox middle good₁.1).2
  rcases ending with ⟨e, after, stamped, failed⟩ | ⟨modSeq, last, stamped, ended⟩
  · rw [stamped] at second
    rw [failed]
    exact ⟨second.1, stamps₁.trans good.2 second.2⟩
  rw [stamped] at second counts₁
  obtain ⟨good₂, stamps₂⟩ := second
  have stamps := stamps₁.trans good.2 stamps₂
  rw [ended]
  obtain ⟨sound, inserts⟩ := insert (new.row mailbox uid modSeq now) last good₂.1
  rcases inserts with same | ⟨free, flags, put⟩
  · exact ⟨⟨sound, same ▸ good₂.2⟩, same ▸ stamps⟩
  · have rows : (view last).revisionAt = (view store).revisionAt :=
      counts₁.stamps.2.2.trans counts.stamps.2.2
    have reach := Nat.le_trans counts.le.2 (stamps₂.lastUid mailbox)
    rw [put]
    refine ⟨⟨sound, put ▸ good₂.2.put reach counts₁.le.2⟩, stamps.put rows ?_ fun _ => counts.le.1⟩
    exact Nat.lt_of_le_of_lt (stamps₁.highestModSeq mailbox) counts₁.le.1

/-- A row whose flags are changed bears the modification sequence given out for that. -/
theorem applyFlags_stamps (mailbox : MailboxId) (uid : Uid) (update : FlagUpdate)
    (expected : Option ModSeq) :
    (applyFlags mailbox uid update expected : Step σ Metadata).Within StampsRows := by
  intro store good
  have first := nextModSeq_stamps mailbox store good
  have counts := (nextModSeq mailbox store good.1).2
  unfold applyFlags
  rcases counted : (Storage.nextModSeq mailbox : Step σ ModSeq) store with ⟨_ | modSeq, s₁⟩
  · rw [counted] at first
    rwa [Step.bind_of_error counted]
  rw [counted] at first counts
  obtain ⟨good₁, stamps⟩ := first
  rw [Step.bind_of_ok counted]
  obtain ⟨sound, updates⟩ :=
    updateFlags mailbox uid (.ofUpdate update) modSeq expected s₁ good₁.1
  rcases updates with same | ⟨⟨r, found⟩, flags, put⟩
  · exact ⟨⟨sound, same ▸ good₁.2⟩, same ▸ stamps⟩
  · have rows := counts.stamps.2.2
    rw [put]
    refine ⟨⟨sound, put ▸ good₁.2.put (good₁.2 _ r found).1 counts.le.2⟩,
      stamps.put rows counts.le.1 fun none => ?_⟩
    rw [rows, none] at found
    cases found

theorem sound_of_obeys {law : View → Except StoreError α → View → Prop} {step : Step σ α}
    (obeys : step.Obeys view law) : step.Within fun store after => isSound store → isSound after :=
  fun store sound => (obeys store sound).1

omit [Storage σ] [Revised σ] in
theorem sound_chains : Chains fun store after : σ => isSound store → isSound after where
  refl _ := id
  trans first second := second ∘ first

/-- Operations leave a sound store sound. -/
theorem operations_sound : Operations σ fun store after => isSound store → isSound after where
  nextUid mailbox := sound_of_obeys (nextUid mailbox)
  nextModSeq mailbox := sound_of_obeys (nextModSeq mailbox)
  insert message := sound_of_obeys (insert message)
  updateFlags mailbox uid edit modSeq expected :=
    sound_of_obeys (updateFlags mailbox uid edit modSeq expected)
  resetRecent mailbox uids modSeq fits ascending :=
    sound_of_obeys (resetRecent mailbox uids modSeq fits ascending)
  deleteBatch mailbox uids ascending := sound_of_obeys (deleteBatch mailbox uids ascending)
  deleteMailbox mailbox := sound_of_obeys (deleteMailbox mailbox)
  deleteMessage id := sound_of_obeys (deleteMessage id)
  appendChange draft expiresAt := sound_of_obeys (appendChange draft expiresAt)
  purgeExpired now := sound_of_obeys (purgeExpired now)

/-- Writes leave a sound store sound. -/
theorem writes_sound :
    Writes σ (fun _ => True) fun store after => isSound store → isSound after :=
  writes_of_operations sound_chains operations_sound

/-- A sound store stays sound, and the numbers that it gave out last only go up. -/
def RaisesUids (store after : σ) : Prop :=
  isSound store → isSound after ∧ ∀ mailbox,
    (view store).lastUid mailbox ≤ (view after).lastUid mailbox

theorem raisesUids_chains : Chains (RaisesUids (σ := σ)) where
  refl _ sound := ⟨sound, fun _ => Nat.le_refl _⟩
  trans first second sound := by
    obtain ⟨between, up⟩ := first sound
    obtain ⟨after, up'⟩ := second between
    exact ⟨after, fun mailbox => Nat.le_trans (up mailbox) (up' mailbox)⟩

theorem raisesUids_of_obeys {law : View → Except StoreError α → View → Prop} {step : Step σ α}
    (obeys : step.Obeys view law) (raises : ∀ {v answer v'}, law v answer v' →
      ∀ mailbox, v.lastUid mailbox ≤ v'.lastUid mailbox) : step.Within RaisesUids :=
  fun store sound => (obeys store sound).imp_right raises

/-- A step that gives out no number leaves those that were given out last. -/
theorem raisesUids_of_same {law : View → Except StoreError α → View → Prop} {step : Step σ α}
    (obeys : step.Obeys view law)
    (same : ∀ {v answer v'}, law v answer v' → v'.lastUid = v.lastUid) :
    step.Within RaisesUids :=
  raisesUids_of_obeys obeys fun does mailbox => Nat.le_of_eq (congrFun (same does).symm mailbox)

/-- Operations only take the numbers up that were given out last. -/
theorem operations_raiseUids : Operations σ RaisesUids where
  nextUid mailbox := raisesUids_of_obeys (nextUid mailbox) fun counts => counts.stamps.1.lastUid
  nextModSeq mailbox :=
    raisesUids_of_obeys (nextModSeq mailbox) fun counts => counts.stamps.1.lastUid
  insert message := raisesUids_of_same (insert message) fun inserts => by
    rcases inserts with rfl | ⟨-, flags, rfl⟩ <;> rfl
  updateFlags mailbox uid edit modSeq expected :=
    raisesUids_of_same (updateFlags mailbox uid edit modSeq expected) fun updates => by
      rcases updates with rfl | ⟨-, flags, rfl⟩ <;> rfl
  resetRecent mailbox uids modSeq fits ascending :=
    raisesUids_of_same (resetRecent mailbox uids modSeq fits ascending) fun resets => resets.lastUid
  deleteBatch mailbox uids ascending :=
    raisesUids_of_same (deleteBatch mailbox uids ascending) fun drops => drops.lastUid
  deleteMailbox mailbox := raisesUids_of_same (deleteMailbox mailbox) fun drops => drops.lastUid
  deleteMessage id := raisesUids_of_same (deleteMessage id) fun drops => drops.lastUid
  appendChange draft expiresAt := raisesUids_of_same (appendChange draft expiresAt) fun same =>
    congrArg View.lastUid same.symm
  purgeExpired now := raisesUids_of_same (purgeExpired now) fun same =>
    congrArg View.lastUid same.symm

/-- An append that succeeds answers a number that was given out during the call. -/
theorem append_uid_between {mailbox : MailboxId} {new : NewMessage} {now : Instant}
    {metadata : Metadata} {store after : σ}
    (sound : isSound store) (done : append mailbox new now store = (.ok metadata, after)) :
    (view store).lastUid mailbox < metadata.uid ∧ metadata.uid ≤ (view after).lastUid mailbox := by
  obtain ⟨uid, middle, counted, done⟩ := Step.of_bind_eq_ok done
  obtain ⟨modSeq, last, stamped, done⟩ := Step.of_bind_eq_ok done
  obtain ⟨_, _, inserted, done⟩ := Step.of_bind_eq_ok done
  cases done
  obtain ⟨sound₁, counts⟩ := nextUid mailbox store sound
  rw [counted] at sound₁ counts
  obtain ⟨sound₂, up⟩ := operations_raiseUids.nextModSeq mailbox middle sound₁
  rw [stamped] at sound₂ up
  obtain ⟨-, up'⟩ := operations_raiseUids.insert (new.row mailbox uid modSeq now) last sound₂
  rw [inserted] at up'
  exact ⟨counts.le.1, Nat.le_trans counts.le.2 (Nat.le_trans (up mailbox) (up' mailbox))⟩

/-- Writes other than resets stamp rows with what was given out since. -/
theorem writes_stamps : Writes σ (fun call => call.target? = none) StampsRows where
  nextUid := nextUid_stamps
  nextModSeq := nextModSeq_stamps
  append mailbox new now _ := append_stamps mailbox new now
  applyFlags := applyFlags_stamps
  resetRecent _ _ _ isFree := nomatch isFree
  deleteBatch mailbox uids ascending := stamps_of_drops (deleteBatch mailbox uids ascending)
  deleteMailbox mailbox := stamps_of_drops (deleteMailbox mailbox)
  deleteMessage id := stamps_of_drops (deleteMessage id)
  appendChange draft expiresAt _ := stamps_of_eq (appendChange draft expiresAt)
  purgeExpired now _ := stamps_of_eq (purgeExpired now)

/-- A reset stamps rows with its own modification sequence. -/
theorem resetRecent_resets (mailbox : MailboxId) (uids : List Uid) (modSeq : ModSeq) :
    (Service.resetRecent mailbox uids modSeq : Step σ RecentReset).Obeys view fun v _ =>
      Resets mailbox modSeq v := by
  have chains : Chains fun store after : σ => isSound store →
      isSound after ∧ Resets mailbox modSeq (view store) (view after) :=
    { refl := fun _ sound => ⟨sound, .refl _⟩
      trans := fun first second sound =>
        ⟨(second (first sound).1).1, (first sound).2.trans (second (first sound).1).2⟩ }
  exact resetRecent_within chains
    (fun part fits ascending => resetRecent mailbox part modSeq fits ascending) uids

end Revised

/-! ### Calls -/

namespace Service

/-- The mailbox of a reset has given out its modification sequence. -/
def Call.IsGiven (v : View) : Call → Prop
  | .resetRecent mailbox _ modSeq => modSeq ≤ v.highestModSeq mailbox
  | _ => True

open Revised

variable [Storage σ] [PureReads σ] [Sound σ] [Revised σ]

/-- Calls leave a sound store sound. -/
theorem Call.runAll_sound (policy : Policy) (calls : List Call) {store : σ}
    (sound : isSound store) :
    isSound (Call.runAll policy calls store).2 :=
  Call.runAll_within sound_chains writes_sound policy (fun _ _ => trivial) store sound

/-- Calls only take the numbers up that were given out last. -/
theorem Call.runAll_raiseUids (policy : Policy) (calls : List Call) (store : σ) :
    RaisesUids store (Call.runAll policy calls store).2 :=
  Call.runAll_within raisesUids_chains (writes_of_operations raisesUids_chains operations_raiseUids)
    policy (fun _ _ => trivial) store

/-- A call that is no reset stamps rows with what was given out during the call. -/
theorem Call.run_stamps (policy : Policy) {call : Call} (free : call.target? = none) :
    (call.run policy : Step σ call.Answer).Within StampsRows :=
  Call.run_within stampsRows_chains writes_stamps policy call free

/-- A call takes a row that it changes forward, unless it is a reset whose modification sequence is
less than that of the row. -/
theorem Call.run_forward_iff (policy : Policy) {call : Call} {store : σ} (good : IsGood store)
    (given : call.IsGiven (view store)) :
    IsGood (call.run policy store).2 ∧ Grows (view store) (view (call.run policy store).2) ∧
      ∀ place r r', (view store).revisionAt place = some r →
        (view (call.run policy store).2).revisionAt place = some r' → r ≠ r' →
        (r.modSeq < r'.modSeq ↔ ∀ target ∈ call.target?, r.modSeq < target) := by
  cases target : call.target? with
  | none =>
    obtain ⟨after, stamps⟩ := Call.run_stamps policy target store good
    refine ⟨after, stamps.toGrows, fun place r r' found found' changed => ?_⟩
    exact iff_of_true (stamps.forward good.2 found found' changed) nofun
  | some modSeq =>
    cases call with
    | resetRecent mailbox uids modSeq =>
      cases target
      obtain ⟨sound, resets⟩ := resetRecent_resets mailbox uids modSeq store good.1
      refine ⟨⟨sound, resets.issued good.2 given⟩, resets.grows, ?_⟩
      intro place r r' found found' changed
      obtain ⟨-, stamped⟩ := resets.modSeq_eq found found' changed
      rw [stamped]
      exact ⟨fun up _ same => by cases same; exact up, fun up => up _ rfl⟩
    | _ => cases target

end Service

end Mailroom
