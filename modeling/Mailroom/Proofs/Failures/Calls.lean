import Mailroom.Proofs.Effects
/-!
What a call leaves behind that fails.

`Step.FailsWithin` bounds the effect of a step that fails; a step that succeeds may do anything. A
store that `RollsBack` undoes whatever a failing operation has begun. So a call that fails leaves
everything but some counters as it was, and a batch of which some partitions failed leaves the rows
of those partitions as they were (`Service.Call.failsCleanly`).
-/

namespace Mailroom

open Service

variable {σ α β : Type} {R : σ → σ → Prop}

/-! ### Steps that fail -/

/-- A step that fails leaves a store that is related to the one before it. -/
def Step.FailsWithin (R : σ → σ → Prop) (step : Step σ α) : Prop :=
  ∀ store e after, step store = (.error e, after) → R store after

namespace Step.FailsWithin

theorem of_within {step : Step σ α} (within : step.Within R) : step.FailsWithin R := by
  intro store e after fails
  have stepped := within store
  rwa [fails] at stepped

variable (chains : Chains R)

include chains

/-- What a step did that succeeded stays when a later one fails. -/
theorem bind {first : Step σ α} {next : α → Step σ β} (firsts : first.Within R)
    (nexts : ∀ a, (next a).FailsWithin R) : (first >>= next).FailsWithin R := by
  intro store e after fails
  have before := firsts store
  rcases done : first store with ⟨e' | a, middle⟩
  · rw [done] at before
    cases (Step.bind_of_error done).symm.trans fails
    exact before
  · rw [done] at before
    exact chains.trans before (nexts a _ _ _ ((Step.bind_of_ok done).symm.trans fails))

theorem check_bind {outcome : Except StoreError α} {next : α → Step σ β}
    (nexts : ∀ a, (next a).FailsWithin R) : (Step.check outcome >>= next).FailsWithin R :=
  bind chains (.check chains outcome) nexts

end Step.FailsWithin

/-! ### Stores that roll back -/

/-- A store of which one can tell whether anything but its counters has changed. -/
class Kept (σ : Type) where
  /-- What can stand at a place: a row with its flags, or nothing. -/
  Row : Type
  rowAt : σ → Place → Row
  /-- The counters of a mailbox. -/
  Count : Type
  countersOf : σ → MailboxId → Count
  /-- Counters stand where others stood, or further on. -/
  IsUpTo : Count → Count → Prop
  /-- Nothing but counters differs. -/
  SameButCounters : σ → σ → Prop
  /-- A message has a row in a mailbox. -/
  IsLinked : σ → MessageId → MailboxId → Prop
  same_chains : Chains SameButCounters
  upTo_refl : ∀ count, IsUpTo count count
  upTo_trans : ∀ {first second third}, IsUpTo first second → IsUpTo second third →
    IsUpTo first third
  rowAt_same : ∀ {store after}, SameButCounters store after → rowAt after = rowAt store

export Kept (rowAt SameButCounters IsLinked)

/-- Nothing changed but the counters of some mailboxes, which may have advanced. -/
structure OnlyCounted [Kept σ] (mailboxes : MailboxId → Prop) (store after : σ) : Prop where
  kept : SameButCounters store after
  advanced : ∀ mailbox, Kept.IsUpTo (Kept.countersOf store mailbox) (Kept.countersOf after mailbox)
  elsewhere : ∀ mailbox, ¬ mailboxes mailbox →
    Kept.countersOf after mailbox = Kept.countersOf store mailbox

/-- Nothing changed, not even counters. -/
abbrev Untouched [Kept σ] : σ → σ → Prop := OnlyCounted fun _ => False

/-- What stands at a place is the same. -/
def SameRow [Kept σ] (place : Place) (store after : σ) : Prop :=
  rowAt after place = rowAt store place

section Counted

variable [Kept σ] {mailboxes more : MailboxId → Prop} {store after : σ}

theorem OnlyCounted.mono (counted : OnlyCounted mailboxes store after)
    (among : ∀ mailbox, mailboxes mailbox → more mailbox) : OnlyCounted more store after where
  kept := counted.kept
  advanced := counted.advanced
  elsewhere mailbox apart := counted.elsewhere mailbox (mt (among mailbox) apart)

/-- What leaves the store untouched counts up no counter. -/
theorem OnlyCounted.of_untouched (untouched : Untouched store after) :
    OnlyCounted mailboxes store after := untouched.mono fun _ => False.elim

theorem onlyCounted_chains (mailboxes : MailboxId → Prop) :
    Chains (OnlyCounted (σ := σ) mailboxes) where
  refl store := ⟨Kept.same_chains.refl store, fun _ => Kept.upTo_refl _, fun _ _ => rfl⟩
  trans first second := {
    kept := Kept.same_chains.trans first.kept second.kept
    advanced := fun mailbox => Kept.upTo_trans (first.advanced mailbox)
      (second.advanced mailbox)
    elsewhere := fun mailbox apart =>
      (second.elsewhere mailbox apart).trans (first.elsewhere mailbox apart) }

theorem OnlyCounted.sameRow (counted : OnlyCounted mailboxes store after) (place : Place) :
    SameRow place store after := congrFun (Kept.rowAt_same counted.kept) place

end Counted

theorem sameRow_chains [Kept σ] (place : Place) : Chains (SameRow (σ := σ) place) where
  refl _ := rfl
  trans first second := Eq.trans second first

/-- A store whose operations undo what they have begun if they fail, on lists of numbers that
ascend. Counting up is not undone. -/
class RollsBack (σ : Type) [Storage σ] [Kept σ] : Prop where
  nextUid : ∀ mailbox, (Storage.nextUid mailbox : Step σ Uid).Within (OnlyCounted (· = mailbox))
  nextModSeq : ∀ mailbox,
    (Storage.nextModSeq mailbox : Step σ ModSeq).Within (OnlyCounted (· = mailbox))
  insert : ∀ message, (Storage.insert message : Step σ Unit).FailsWithin Untouched
  updateFlags : ∀ mailbox uid edit modSeq expected,
    (Storage.updateFlags mailbox uid edit modSeq expected : Step σ Metadata).FailsWithin Untouched
  resetRecent : ∀ mailbox uids modSeq,
    (Storage.resetRecent mailbox uids modSeq : Step σ RecentReset).FailsWithin Untouched
  resetRecent_elsewhere : ∀ mailbox uids modSeq, uids.Pairwise (· < ·) → ∀ uid ∉ uids,
    (Storage.resetRecent mailbox uids modSeq : Step σ RecentReset).Within (SameRow ⟨mailbox, uid⟩)
  deleteBatch : ∀ mailbox uids,
    (Storage.deleteBatch mailbox uids : Step σ (List Metadata)).FailsWithin Untouched
  deleteBatch_elsewhere : ∀ mailbox uids, uids.Pairwise (· < ·) → ∀ uid ∉ uids,
    (Storage.deleteBatch mailbox uids : Step σ (List Metadata)).Within (SameRow ⟨mailbox, uid⟩)
  deleteMailbox : ∀ mailbox,
    (Storage.deleteMailbox mailbox : Step σ (List MessageId)).FailsWithin Untouched
  deleteMessage : ∀ id, (Storage.deleteMessage id : Step σ (List MailboxId)).FailsWithin Untouched
  findMailboxes : ∀ {id mailboxes} {store after : σ},
    Storage.findMailboxes id store = (.ok mailboxes, after) →
    ∀ mailbox ∈ mailboxes, IsLinked store id mailbox
  purgeExpired : ∀ now, (Storage.purgeExpired now : Step σ Nat).FailsWithin Untouched

/-! ### Partitions -/

/-- Rows of failed partitions are as they were. -/
def Spares [Kept σ] (mailbox : MailboxId) (failed : List (List Uid × StoreError))
    (store after : σ) : Prop :=
  ∀ part ∈ failed, ∀ uid ∈ part.1, SameRow ⟨mailbox, uid⟩ store after

section Partitions

variable [Kept σ] [BatchOutcome α] {call : List Uid → Step σ α}
  {mailbox : MailboxId} {uids : List Uid}

/-- Partitions without a common number leave the rows of those that failed as they were. -/
theorem runChunks_spares {parts : List (List Uid)}
    (apart : parts.Pairwise fun part other => ∀ uid ∈ part, uid ∉ other)
    (fails : ∀ part ∈ parts, (call part).FailsWithin Untouched)
    (elsewhere : ∀ part ∈ parts, ∀ uid ∉ part, (call part).Within (SameRow ⟨mailbox, uid⟩))
    (progress : BatchProgress α) (store : σ) :
    ∃ failed, (runChunks call parts progress store).1.failed = progress.failed ++ failed ∧
      (∀ part ∈ failed, part.1 ∈ parts) ∧
      Spares mailbox failed store (runChunks call parts progress store).2 := by
  induction parts generalizing progress store with
  | nil =>
    exact ⟨[], (List.append_nil _).symm, List.forall_mem_nil _, List.forall_mem_nil _⟩
  | cons part rest ih =>
    obtain ⟨first_apart, rest_apart⟩ := List.pairwise_cons.mp apart
    have later := ih rest_apart (fun other member => fails other (List.mem_cons_of_mem _ member))
      fun other member => elsewhere other (List.mem_cons_of_mem _ member)
    unfold runChunks
    rcases done : call part store with ⟨e | outcome, middle⟩
    · obtain ⟨failed, all, among, spared⟩ :=
        later { progress with failed := progress.failed ++ [(part, e)] } middle
      have untouched : Untouched store middle := fails part List.mem_cons_self _ _ _ done
      refine ⟨(part, e) :: failed, by simp [all], fun other member => ?_,
        fun other member uid within => ?_⟩
      · rcases List.mem_cons.mp member with rfl | member
        · exact List.mem_cons_self
        · exact List.mem_cons_of_mem _ (among other member)
      · refine (sameRow_chains _).trans (untouched.sameRow _) ?_
        rcases List.mem_cons.mp member with rfl | member
        · -- No later partition has a number of this one.
          exact runChunks_within (sameRow_chains ⟨mailbox, uid⟩)
            (fun other member => elsewhere other (List.mem_cons_of_mem _ member) uid
              (first_apart other member uid within)) _ middle
        · exact spared other member uid within
    · obtain ⟨failed, all, among, spared⟩ := later
        { progress with
          outcome := BatchOutcome.append progress.outcome outcome
          succeeded := progress.succeeded + 1 } middle
      refine ⟨failed, all, fun other member => List.mem_cons_of_mem _ (among other member),
        fun other member uid within => ?_⟩
      have before : SameRow ⟨mailbox, uid⟩ store (call part store).2 :=
        elsewhere part List.mem_cons_self uid
          (fun here => first_apart other.1 (among other member) uid here within) store
      rw [done] at before
      exact (sameRow_chains _).trans before (spared other member uid within)

omit [Kept σ] in
/-- A batch fails by telling which partitions failed. -/
theorem result_eq_error {progress : BatchProgress α} {e : StoreError}
    (failed : progress.result = .error e) :
    e = .partialBatch (BatchOutcome.report progress.outcome) progress.failed
      progress.succeeded := by
  unfold BatchProgress.result at failed
  split at failed
  · cases failed
  · cases failed
    rfl

/-- A batch on ascending numbers that fails has left everything as it was, or it has failed in some
partitions and left their rows as they were. -/
theorem runPartitioned_fails {bound : Nat} (ascending : uids.Pairwise (· < ·))
    (fails : ∀ part : List Uid, (call part).FailsWithin Untouched)
    (elsewhere : ∀ part : List Uid, part.Pairwise (· < ·) → ∀ uid ∉ part,
      (call part).Within (SameRow ⟨mailbox, uid⟩)) {store after : σ} {e : StoreError}
    (failed : runPartitioned bound call uids store = (.error e, after)) :
    Untouched store after ∨ ∃ report parts succeeded,
      e = .partialBatch report parts succeeded ∧ Spares mailbox parts store after := by
  unfold runPartitioned at failed
  split at failed
  · cases failed
  split at failed
  · exact .inl (fails uids _ _ _ failed)
  have apart : (chunks (max bound 1) uids).Pairwise fun part other => ∀ uid ∈ part, uid ∉ other :=
    chunks_apart ascending
  have chunked := runChunks_spares apart (fun part _ => fails part)
    (fun part member => elsewhere part (ascending.sublist (sublist_of_mem_chunks member)))
    { outcome := BatchOutcome.empty } store
  split at failed
  rename_i progress left ran
  rw [ran] at chunked
  obtain ⟨parts, all, -, spared⟩ := chunked
  obtain ⟨result, rfl⟩ := Prod.mk.inj failed
  have all : progress.failed = parts := all
  exact .inr ⟨_, _, _, result_eq_error result, all ▸ spared⟩

end Partitions

/-! ### Calls -/

namespace Service.Call

/-- The mailbox that a call names. -/
def mailbox? : Call → Option MailboxId
  | nextUid mailbox | nextModSeq mailbox | highestModSeq mailbox | append mailbox ..
  | applyFlags mailbox .. | resetRecent mailbox .. | deleteByUids mailbox _ | deleteMailbox mailbox
  | find mailbox .. | findByUids mailbox .. | counts mailbox | firstUnseen mailbox
  | keywords mailbox => some mailbox
  | scan request _ | scanUids request => some request.mailbox
  | _ => none

/-- The mailboxes that a call names, or that hold the message that it names. -/
def Reaches [Kept σ] (store : σ) (call : Call) (mailbox : MailboxId) : Prop :=
  call.mailbox? = some mailbox ∨ ∃ id, call = .deleteMessage id ∧ IsLinked store id mailbox

/-- A call that failed has left no half-done work. If some partitions failed, their rows are as they
were. Otherwise nothing has changed but counters of mailboxes that the call reaches. -/
structure FailsCleanly [Kept σ] (call : Call) (store : σ) (e : StoreError) (after : σ) : Prop where
  kept : (∀ report failed succeeded, e ≠ .partialBatch report failed succeeded) →
    OnlyCounted (call.Reaches store) store after
  spared : ∀ report failed succeeded, e = .partialBatch report failed succeeded →
    ∀ mailbox, call.mailbox? = some mailbox → Spares mailbox failed store after

variable [Kept σ] {call : Call} {store after : σ} {e : StoreError}
  {mailbox : MailboxId}

/-- What only counts up spares every row. -/
theorem FailsCleanly.of_onlyCounted (counted : OnlyCounted (call.Reaches store) store after) :
    call.FailsCleanly store e after where
  kept _ := counted
  spared _ _ _ _ _ _ _ _ _ _ := counted.sameRow _

theorem FailsCleanly.of_spares (isNamed : call.mailbox? = some mailbox)
    {report : BatchReport} {failed : List (List Uid × StoreError)} {succeeded : Nat}
    (spared : Spares mailbox failed store after) :
    call.FailsCleanly store (.partialBatch report failed succeeded) after where
  kept other := absurd rfl (other report failed succeeded)
  spared _ _ _ same other named := by
    cases same
    cases isNamed.symm.trans named
    exact spared

theorem reaches_of_named (isNamed : call.mailbox? = some mailbox) :
    ∀ other, other = mailbox → call.Reaches store other := by
  rintro other rfl
  exact .inl isNamed

variable [Storage σ] [RollsBack σ]

/-- An append fails before its row is written. -/
theorem append_fails (mailbox : MailboxId) (new : NewMessage) (now : Instant) :
    (Service.append mailbox new now : Step σ Metadata).FailsWithin (OnlyCounted (· = mailbox)) := by
  have chains : Chains (OnlyCounted (· = mailbox) : σ → σ → Prop) := onlyCounted_chains _
  unfold Service.append
  refine .bind chains (RollsBack.nextUid mailbox) fun uid => ?_
  refine .bind chains (RollsBack.nextModSeq mailbox) fun modSeq => ?_
  intro store e after fails
  rcases done : Storage.insert (new.row mailbox uid modSeq now) store with ⟨e' | _, written⟩
  · cases (Step.bind_of_error done).symm.trans fails
    exact .of_untouched (RollsBack.insert _ _ _ _ done)
  · cases (Step.bind_of_ok done).symm.trans fails

theorem bumpEach_counts (mailboxes : List MailboxId) :
    (bumpEach mailboxes : Step σ Unit).Within (OnlyCounted (· ∈ mailboxes)) := by
  have each : ∀ listed : List MailboxId, (∀ mailbox ∈ listed, mailbox ∈ mailboxes) →
      (bumpEach listed : Step σ Unit).Within (OnlyCounted (· ∈ mailboxes)) := by
    intro listed
    induction listed with
    | nil => exact fun _ => .pure (onlyCounted_chains _) _
    | cons mailbox rest ih =>
      intro among
      refine .bind (onlyCounted_chains _) (fun store => ?_) fun _ =>
        ih fun other member => among other (List.mem_cons_of_mem _ member)
      refine (RollsBack.nextModSeq mailbox store).mono ?_
      rintro other rfl
      exact among other List.mem_cons_self
  exact each mailboxes fun _ member => member

/-- A call that fails leaves no half-done work, unless it records a change. -/
theorem failsCleanly [PureReads σ] (policy : Policy)
    (notRecorded : ∀ draft, call ≠ .recordChange draft)
    (fails : call.run policy store = (.error e, after)) : call.FailsCleanly store e after := by
  have chains : Chains (OnlyCounted (call.Reaches store) : σ → σ → Prop) := onlyCounted_chains _
  by_cases isRead : call.IsRead
  · have reads := Step.FailsWithin.of_within (read_within chains policy isRead)
    exact .of_onlyCounted (reads _ _ _ fails)
  cases call with
  | nextUid mailbox =>
    refine .of_onlyCounted (.mono ?_ (reaches_of_named rfl))
    exact Step.FailsWithin.of_within (RollsBack.nextUid mailbox) _ _ _ fails
  | nextModSeq mailbox =>
    refine .of_onlyCounted (.mono ?_ (reaches_of_named rfl))
    exact Step.FailsWithin.of_within (RollsBack.nextModSeq mailbox) _ _ _ fails
  | append mailbox new now =>
    exact .of_onlyCounted ((append_fails mailbox new now _ _ _ fails).mono (reaches_of_named rfl))
  | applyFlags mailbox uid update expected =>
    refine .of_onlyCounted (.mono ?_ (reaches_of_named rfl))
    refine Step.FailsWithin.bind (onlyCounted_chains _) (RollsBack.nextModSeq mailbox)
      (fun modSeq => ?_) _ _ _ fails
    exact fun _ _ _ fails =>
      .of_untouched (RollsBack.updateFlags mailbox uid _ modSeq expected _ _ _ fails)
  | resetRecent mailbox uids modSeq =>
    have fails : Service.resetRecent mailbox uids modSeq store = (.error e, after) := fails
    unfold Service.resetRecent at fails
    split at fails
    · cases fails
      exact .of_onlyCounted (chains.refl _)
    rcases runPartitioned_fails (sortedUids_ascending uids)
      (fun part => RollsBack.resetRecent mailbox part modSeq)
      (fun part => RollsBack.resetRecent_elsewhere mailbox part modSeq) fails with
      untouched | ⟨report, parts, succeeded, rfl, spared⟩
    · exact .of_onlyCounted (.of_untouched untouched)
    · exact .of_spares rfl spared
  | deleteByUids mailbox uids =>
    have fails : Service.deleteByUids mailbox uids store = (.error e, after) := fails
    unfold Service.deleteByUids at fails
    split at fails
    · cases fails
    have counts := RollsBack.nextModSeq mailbox store
    rcases counted : Storage.nextModSeq mailbox store with ⟨e' | modSeq, middle⟩
    · cases (Step.bind_of_error counted).symm.trans fails
      rw [counted] at counts
      exact .of_onlyCounted (counts.mono (reaches_of_named rfl))
    rw [counted] at counts
    rcases runPartitioned_fails (sortedUids_ascending uids)
      (fun part => RollsBack.deleteBatch mailbox part)
      (fun part => RollsBack.deleteBatch_elsewhere mailbox part)
      ((Step.bind_of_ok counted).symm.trans fails) with
      untouched | ⟨report, parts, succeeded, rfl, spared⟩
    · exact .of_onlyCounted (chains.trans (counts.mono (reaches_of_named rfl))
        (.of_untouched untouched))
    · refine .of_spares rfl fun part member uid within => ?_
      exact (sameRow_chains _).trans (counts.sameRow _) (spared part member uid within)
  | deleteMailbox mailbox =>
    exact .of_onlyCounted (.of_untouched (RollsBack.deleteMailbox mailbox _ _ _ fails))
  | deleteMessage id =>
    have fails : Service.deleteMessage id store = (.error e, after) := fails
    have unchanged := PureReads.findMailboxes id store
    unfold Service.deleteMessage at fails
    rcases found : Storage.findMailboxes id store with ⟨e' | mailboxes, same⟩
    · rw [found] at unchanged
      cases (Step.bind_of_error found).symm.trans fails
      exact .of_onlyCounted (unchanged ▸ chains.refl store)
    rw [found] at unchanged
    subst unchanged
    have linked := RollsBack.findMailboxes found
    refine .of_onlyCounted (.mono ?_ fun mailbox member => .inr ⟨id, rfl, linked mailbox member⟩)
    refine Step.FailsWithin.bind (onlyCounted_chains (· ∈ mailboxes)) (bumpEach_counts mailboxes)
      (fun _ => ?_) _ _ _ ((Step.bind_of_ok found).symm.trans fails)
    exact fun _ _ _ fails => .of_untouched (RollsBack.deleteMessage id _ _ _ fails)
  | recordChange draft => exact absurd rfl (notRecorded draft)
  | purgeExpired now =>
    exact .of_onlyCounted (.of_untouched (RollsBack.purgeExpired now _ _ _ fails))
  | _ => exact absurd trivial isRead

end Service.Call

end Mailroom
