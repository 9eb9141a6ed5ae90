import Mailroom.Database.Store
import Mailroom.Memory.Store
import Mailroom.Proofs.Partition
import Mailroom.Proofs.Step
import Mailroom.Service.Call
/-!
What calls do to a store, whatever store it is.

`Step.Within` bounds the effect of a step by a relation between the store before it and the store
after it. A store whose writes stay within a relation that can be chained (`Writes`) stays within it
over every call (`Call.run_within`) and over every sequence of calls (`Call.runAll_within`). An
invariant is carried along a run as the relation that it holds afterwards if it held before.

Calls on batches of numbers reach a store with ascending numbers only, and a reset with a
modification sequence that fits. `Writes` asks no more of a store than that. The relation may hold
for some calls only.
-/

namespace Mailroom

variable {σ α β : Type} {R : σ → σ → Prop}

/-- A step leaves a store that is related to the one before it. -/
def Step.Within (R : σ → σ → Prop) (step : Step σ α) : Prop := ∀ store, R store (step store).2

/-- A relation that holds over no steps, and over two sequences of steps if it holds over each. -/
structure Chains (R : σ → σ → Prop) : Prop where
  refl : ∀ store, R store store
  trans : ∀ {first second third}, R first second → R second third → R first third

/-- What holds of a store goes on to hold. -/
theorem keeps_chains (kept : σ → Prop) : Chains fun store after => kept store → kept after where
  refl _ := id
  trans first second := second ∘ first

/-- A store with an invariant: stores that satisfy it are sound. -/
class Sound (σ : Type) where
  isSound : σ → Prop

export Sound (isSound)

/-- The reads of a store leave it as it is. -/
class PureReads (σ : Type) [Storage σ] : Prop where
  find : ∀ mailbox uid fetch (store : σ), (Storage.find mailbox uid fetch store).2 = store
  fetchPage : ∀ request fetch (store : σ), (Storage.fetchPage request fetch store).2 = store
  fetchUidPage : ∀ request (store : σ), (Storage.fetchUidPage request store).2 = store
  fetchBatch : ∀ mailbox uids fetch (store : σ),
    (Storage.fetchBatch mailbox uids fetch store).2 = store
  highestModSeq : ∀ mailbox (store : σ), (Storage.highestModSeq mailbox store).2 = store
  findMailboxes : ∀ id (store : σ), (Storage.findMailboxes id store).2 = store
  counts : ∀ mailbox (store : σ), (Storage.counts mailbox store).2 = store
  firstUnseen : ∀ mailbox (store : σ), (Storage.firstUnseen mailbox store).2 = store
  keywords : ∀ mailbox (store : σ), (Storage.keywords mailbox store).2 = store
  changesPage : ∀ request (store : σ), (Storage.changesPage request store).2 = store
  heads : ∀ account (store : σ), (Storage.heads account store).2 = store

instance : PureReads Memory.Store where
  find _ _ _ _ := rfl
  fetchPage _ _ _ := rfl
  fetchUidPage _ _ := rfl
  fetchBatch _ _ _ _ := rfl
  highestModSeq _ _ := rfl
  findMailboxes _ _ := rfl
  counts _ _ := rfl
  firstUnseen _ _ := rfl
  keywords _ _ := rfl
  changesPage _ _ := rfl
  heads _ _ := rfl

instance : PureReads Database.Store where
  find _ _ _ _ := rfl
  fetchPage _ _ _ := rfl
  fetchUidPage _ _ := rfl
  fetchBatch _ _ _ _ := rfl
  highestModSeq _ _ := rfl
  findMailboxes _ _ := rfl
  counts _ _ := rfl
  firstUnseen _ _ := rfl
  keywords _ _ := rfl
  changesPage _ _ := rfl
  heads _ _ := rfl

/-- The writes of a store stay within a relation, if some calls only are allowed. -/
structure Writes (σ : Type) [Storage σ] (allowed : Service.Call → Prop) (R : σ → σ → Prop) :
    Prop where
  nextUid : ∀ mailbox, (Storage.nextUid mailbox).Within R
  nextModSeq : ∀ mailbox, (Storage.nextModSeq mailbox).Within R
  append : ∀ mailbox new now, allowed (.append mailbox new now) →
    (Service.append mailbox new now : Step σ Metadata).Within R
  applyFlags : ∀ mailbox uid update expected,
    (Service.applyFlags mailbox uid update expected : Step σ Metadata).Within R
  resetRecent : ∀ mailbox uids modSeq, allowed (.resetRecent mailbox uids modSeq) →
    modSeq ≤ maxStored → ∀ part : List Uid, part.Pairwise (· < ·) →
    (Storage.resetRecent mailbox part modSeq).Within R
  deleteBatch : ∀ mailbox uids, uids.Pairwise (· < ·) → (Storage.deleteBatch mailbox uids).Within R
  deleteMailbox : ∀ mailbox, (Storage.deleteMailbox mailbox).Within R
  deleteMessage : ∀ id, (Storage.deleteMessage id).Within R
  appendChange : ∀ draft expiresAt, allowed (.recordChange draft) →
    (Storage.appendChange draft expiresAt).Within R
  purgeExpired : ∀ now, allowed (.purgeExpired now) → (Storage.purgeExpired now).Within R

/-- Each operation that writes stays within a relation, on lists of numbers that ascend and with
modification sequences that fit. -/
structure Operations (σ : Type) [Storage σ] (R : σ → σ → Prop) : Prop where
  nextUid : ∀ mailbox, (Storage.nextUid mailbox).Within R
  nextModSeq : ∀ mailbox, (Storage.nextModSeq mailbox).Within R
  insert : ∀ message, (Storage.insert message).Within R
  updateFlags : ∀ mailbox uid edit modSeq expected,
    (Storage.updateFlags mailbox uid edit modSeq expected).Within R
  resetRecent : ∀ mailbox uids modSeq, modSeq ≤ maxStored → uids.Pairwise (· < ·) →
    (Storage.resetRecent mailbox uids modSeq).Within R
  deleteBatch : ∀ mailbox uids, uids.Pairwise (· < ·) → (Storage.deleteBatch mailbox uids).Within R
  deleteMailbox : ∀ mailbox, (Storage.deleteMailbox mailbox).Within R
  deleteMessage : ∀ id, (Storage.deleteMessage id).Within R
  appendChange : ∀ draft expiresAt, (Storage.appendChange draft expiresAt).Within R
  purgeExpired : ∀ now, (Storage.purgeExpired now).Within R

/-- Operations that stay within two relations stay within what both of them imply. -/
theorem Operations.both [Storage σ] {S T : σ → σ → Prop} (first : Operations σ R)
    (second : Operations σ S) (both : ∀ {store after}, R store after → S store after →
      T store after) : Operations σ T where
  nextUid mailbox store := both (first.nextUid mailbox store) (second.nextUid mailbox store)
  nextModSeq mailbox store :=
    both (first.nextModSeq mailbox store) (second.nextModSeq mailbox store)
  insert message store := both (first.insert message store) (second.insert message store)
  updateFlags mailbox uid edit modSeq expected store := both
    (first.updateFlags mailbox uid edit modSeq expected store)
    (second.updateFlags mailbox uid edit modSeq expected store)
  resetRecent mailbox uids modSeq fits ascending store := both
    (first.resetRecent mailbox uids modSeq fits ascending store)
    (second.resetRecent mailbox uids modSeq fits ascending store)
  deleteBatch mailbox uids ascending store := both
    (first.deleteBatch mailbox uids ascending store)
    (second.deleteBatch mailbox uids ascending store)
  deleteMailbox mailbox store :=
    both (first.deleteMailbox mailbox store) (second.deleteMailbox mailbox store)
  deleteMessage id store := both (first.deleteMessage id store) (second.deleteMessage id store)
  appendChange draft expiresAt store := both
    (first.appendChange draft expiresAt store) (second.appendChange draft expiresAt store)
  purgeExpired now store := both (first.purgeExpired now store) (second.purgeExpired now store)

/-! ### Steps -/

namespace Step.Within

variable (chains : Chains R)

include chains

theorem of_pure {step : Step σ α} (unchanged : ∀ store, (step store).2 = store) :
    step.Within R := fun store => by
  rw [unchanged]
  exact chains.refl store

theorem pure (a : α) : (Pure.pure a : Step σ α).Within R := of_pure chains fun _ => rfl

theorem fail (e : StoreError) : (Step.fail e : Step σ α).Within R := of_pure chains fun _ => rfl

theorem check (outcome : Except StoreError α) : (Step.check outcome : Step σ α).Within R :=
  of_pure chains fun _ => rfl

theorem bind {first : Step σ α} {next : α → Step σ β} (firsts : first.Within R)
    (nexts : ∀ a, (next a).Within R) : (first >>= next).Within R := by
  intro store
  have before := firsts store
  rcases done : first store with ⟨_ | a, middle⟩
  · rw [Step.bind_of_error done]
    rwa [done] at before
  · rw [Step.bind_of_ok done]
    rw [done] at before
    exact chains.trans before (nexts a middle)

/-- What follows a check goes on only if the check succeeds. -/
theorem check_bind {outcome : Except StoreError α} {next : α → Step σ β}
    (nexts : ∀ a, outcome = .ok a → (next a).Within R) :
    (Step.check outcome >>= next).Within R := by
  cases outcome with
  | error e => exact fail chains e
  | ok a => exact nexts a rfl

theorem write {f : σ → Except StoreError (α × σ)}
    (writes : ∀ {store a after}, f store = .ok (a, after) → R store after) :
    (Step.write f).Within R := by
  intro store
  cases done : f store with
  | error e =>
    rw [Step.write_of_error done]
    exact chains.refl store
  | ok outcome =>
    rw [Step.write_of_ok done]
    exact writes done

omit chains in
theorem mapError {step : Step σ α} {f : StoreError → StoreError} (within : step.Within R) :
    (step.mapError f).Within R := by
  intro store
  have stepped := within store
  unfold Step.mapError
  split <;>
    rename_i done <;>
    rwa [done] at stepped

end Step.Within

/-! ### Partitions -/

section Partitions

variable (chains : Chains R) [BatchOutcome α] {call : List Uid → Step σ α}

include chains

theorem runChunks_within {parts : List (List Uid)} (calls : ∀ part ∈ parts, (call part).Within R)
    (progress : BatchProgress α) (store : σ) : R store (runChunks call parts progress store).2 := by
  induction parts generalizing progress store with
  | nil => exact chains.refl store
  | cons part rest ih =>
    have rests := fun part member => calls part (List.mem_cons_of_mem _ member)
    have first := calls part List.mem_cons_self store
    unfold runChunks
    split
    · rename_i done
      rw [done] at first
      exact chains.trans first (ih rests _ _)
    · rename_i done
      rw [done] at first
      exact chains.trans first (ih rests _ _)

/-- A batch stays within a relation if its partitions do. Each of them keeps the order of the list.
-/
theorem runPartitioned_within {bound : Nat} {uids : List Uid}
    (calls : ∀ part : List Uid, part.Sublist uids → (call part).Within R) :
    (runPartitioned bound call uids).Within R := by
  intro store
  unfold runPartitioned
  split
  · exact chains.refl store
  · split
    · exact calls uids (List.Sublist.refl _) store
    · exact runChunks_within chains (fun part member => calls part (sublist_of_mem_chunks member))
        _ store

end Partitions

/-! ### Scans -/

section Scans

variable {κ τ : Type} (chains : Chains R)

include chains

theorem nextPage_within {source : Source σ κ τ}
    (fetches : ∀ after limit, (source.fetch after limit).Within R) (paging : Paging κ τ)
    (store : σ) : R store (paging.nextPage source store).2.2 := by
  have fetched := fetches paging.cursor paging.pageSize store
  unfold Paging.nextPage
  split
  · exact chains.refl store
  · split <;> rename_i done <;> rwa [done] at fetched

theorem rest_within {source : Source σ κ τ}
    (fetches : ∀ after limit, (source.fetch after limit).Within R) (pages : Nat)
    (paging : Paging κ τ) (store : σ) : R store (paging.rest source pages store).2.2 := by
  induction pages generalizing paging store with
  | zero => exact chains.refl store
  | succ pages ih =>
    have page := nextPage_within chains fetches { paging with buffer := [] } store
    unfold Paging.rest
    simp only
    split <;> rename_i done <;> rw [done] at page
    · exact page
    · exact page
    · exact chains.trans page (ih _ _)

theorem drained_within [Storage σ] {scan : Scan σ κ τ}
    (fetches : ∀ after limit, (scan.source.fetch after limit).Within R) :
    (Service.Call.drained scan).Within R :=
  fun store => rest_within chains fetches (Storage.extent store) scan.paging store

end Scans

/-! ### Reads of change logs -/

namespace Service

variable [Storage σ] [PureReads σ]

/-- Fetching the first page of a read of a change log looks at the store only. -/
theorem primed_looks {scan : Scan σ State ChangeRecord} {store after : σ} {account : AccountId}
    {lower : State} {now : Instant} {outcome : Except StoreError (Scan σ State ChangeRecord)}
    (reads : scan.source = changeSource account lower now)
    (done : primed scan store = (outcome, after)) :
    after = store ∧ ∀ scan', outcome = .ok scan' → scan'.source = scan.source := by
  have pure (after : Option State) (limit : Nat) :
      (scan.source.fetch after limit store).2 = store := by
    rw [reads]
    exact PureReads.changesPage _ _
  have unchanged : (scan.paging.prime scan.source store).2.2 = store := by
    unfold Paging.prime
    split
    · unfold Paging.nextPage
      by_cases finished : scan.paging.finished = true
      · rw [if_pos finished]
      · have fetched := pure scan.paging.cursor scan.paging.pageSize
        rw [if_neg finished]
        rcases done : scan.source.fetch scan.paging.cursor scan.paging.pageSize store with
          ⟨_ | _, _⟩ <;> rwa [done] at fetched
    · rfl
  unfold primed Scan.prime at done
  rcases prime : scan.paging.prime scan.source store with ⟨_ | _, paging, middle⟩
  · rw [prime] at unchanged done
    cases done
    exact ⟨unchanged, fun _ answered => by cases answered⟩
  · rw [prime] at unchanged done
    cases done
    exact ⟨unchanged, fun _ answered => by cases answered; rfl⟩

/-- Starting a read of a change log looks at the store only. -/
theorem changesFrom_looks (policy : Policy) (account : AccountId) (since : State)
    (limit : Option Nat) (now : Instant) (store : σ) :
    (changesFrom policy account since limit now store).2 = store ∧
      ∀ scan after, changesFrom policy account since limit now store = (.ok scan, after) →
        scan.source = changeSource account since now := by
  have unchanged := PureReads.heads account store
  unfold changesFrom
  rcases found : Storage.heads account store with ⟨_ | heads, middle⟩
  · rw [found] at unchanged
    rw [Step.bind_of_error found]
    exact ⟨unchanged, fun _ _ answered => by cases answered⟩
  rw [found] at unchanged
  subst unchanged
  rw [Step.bind_of_ok found]
  simp only
  split
  · exact ⟨rfl, fun _ _ answered => by cases answered⟩
  split
  · exact ⟨rfl, fun _ _ answered => by cases answered; rfl⟩
  have reads : (Scan.start (changeSource account since now) policy.batch limit :
      Scan σ State ChangeRecord).source = changeSource account since now := rfl
  rcases done : primed (Scan.start (changeSource account since now) policy.batch limit) middle with
    ⟨_ | primedScan, after⟩
  · obtain ⟨same, -⟩ := primed_looks reads done
    rw [Step.bind_of_error done]
    exact ⟨same, fun _ _ answered => by cases answered⟩
  · obtain ⟨same, source⟩ := primed_looks reads done
    rw [Step.bind_of_ok done]
    generalize (if since = State.initial then since.next else since) = boundary
    split
    · exact ⟨same, fun _ _ answered => by cases answered; exact source primedScan rfl⟩
    · exact ⟨same, fun _ _ answered => by cases answered⟩

/-- What follows the start of a read of a change log stays within a relation, if it reads from that
log. -/
theorem changesFrom_bind_within (chains : Chains R) (policy : Policy) (account : AccountId)
    (since : State) (limit : Option Nat) (now : Instant)
    {next : Scan σ State ChangeRecord → Step σ β}
    (nexts : ∀ scan, scan.source = changeSource account since now → (next scan).Within R) :
    (changesFrom policy account since limit now >>= next).Within R := by
  intro store
  obtain ⟨same, source⟩ := changesFrom_looks policy account since limit now store
  rcases done : changesFrom policy account since limit now store with ⟨_ | scan, after⟩
  · rw [Step.bind_of_error done]
    rw [done] at same
    exact same ▸ chains.refl store
  · rw [Step.bind_of_ok done]
    rw [done] at same
    exact same ▸ nexts scan (source scan after done) after

/-! ### Calls -/

variable {allowed : Call → Prop}

omit [PureReads σ] in
/-- Calls one after others go on from the store that those left. -/
theorem Call.runAll_append (policy : Policy) (calls more : List Call) (store : σ) :
    Call.runAll policy (calls ++ more) store
      = ((Call.runAll policy calls store).1
          ++ (Call.runAll policy more (Call.runAll policy calls store).2).1,
        (Call.runAll policy more (Call.runAll policy calls store).2).2) := by
  induction calls generalizing store with
  | nil => rfl
  | cons call rest ih =>
    show Prod.mk (_ :: (Call.runAll policy (rest ++ more) _).1)
      (Call.runAll policy (rest ++ more) _).2 = _
    rw [ih]
    rfl

/-- Calls that look at the store only. -/
def Call.IsRead : Call → Prop
  | highestModSeq _ | find .. | findByUids .. | findMailboxes _ | scan .. | scanUids _ | counts _
  | firstUnseen _ | keywords _ | allChanges .. | changesSince .. | changesSinceLimited ..
  | latestState _ | latestStateNotDelegated _ => True
  | _ => False

/-- A call that looks at the store only leaves it as it is. -/
theorem Call.read_within (chains : Chains R) (policy : Policy) {call : Call}
    (isRead : call.IsRead) : (call.run policy : Step σ call.Answer).Within R := by
  cases call with
  | highestModSeq mailbox => exact .of_pure chains (PureReads.highestModSeq mailbox)
  | find mailbox uid fetch => exact .of_pure chains (PureReads.find mailbox uid fetch)
  | findByUids mailbox uids fetch =>
    refine fun store => runPartitioned_within chains (fun part _ => ?_) store
    exact .of_pure chains (PureReads.fetchBatch mailbox part fetch)
  | findMailboxes id => exact .of_pure chains (PureReads.findMailboxes id)
  | scan request fetch =>
    exact drained_within chains fun _ _ => .of_pure chains (PureReads.fetchPage _ fetch)
  | scanUids request =>
    exact drained_within chains fun _ _ => .of_pure chains (PureReads.fetchUidPage _)
  | counts mailbox => exact .of_pure chains (PureReads.counts mailbox)
  | firstUnseen mailbox => exact .of_pure chains (PureReads.firstUnseen mailbox)
  | keywords mailbox => exact .of_pure chains (PureReads.keywords mailbox)
  | allChanges account now =>
    exact drained_within chains fun _ _ => .of_pure chains (PureReads.changesPage _)
  | changesSince account since now =>
    refine changesFrom_bind_within chains policy account since none now fun scan source => ?_
    refine drained_within chains fun _ _ => ?_
    rw [source]
    exact .of_pure chains (PureReads.changesPage _)
  | changesSinceLimited account since most now =>
    refine changesFrom_bind_within chains policy account since _ now fun scan source => ?_
    refine .bind chains (fun store => ?_) fun _ => .pure chains _
    refine rest_within chains (fun _ _ => ?_) (Storage.extent store) scan.paging store
    rw [source]
    exact .of_pure chains (PureReads.changesPage _)
  | latestState account =>
    exact .bind chains (.of_pure chains (PureReads.heads account)) fun _ => .pure chains _
  | latestStateNotDelegated account =>
    exact .bind chains (.of_pure chains (PureReads.heads account)) fun _ => .pure chains _
  | _ => exact isRead.elim

theorem Call.run_of_isRead (policy : Policy) {call : Call} (isRead : call.IsRead) (store : σ) :
    (call.run policy store).2 = store := by
  have chains : Chains fun store after : σ => after = store :=
    ⟨fun _ => rfl, fun first second => second.trans first⟩
  exact Call.read_within chains policy isRead store

omit [PureReads σ] in
/-- An append stops at the first of its steps that fails: no number was given out, or no
modification sequence, or the row was written or refused. -/
theorem append_cases (mailbox : MailboxId) (new : NewMessage) (now : Instant) (store : σ) :
    (∃ e after, Storage.nextUid mailbox store = (.error e, after) ∧
      append mailbox new now store = (.error e, after)) ∨
    ∃ uid middle, Storage.nextUid mailbox store = (.ok uid, middle) ∧
      ((∃ e after, Storage.nextModSeq mailbox middle = (.error e, after) ∧
        append mailbox new now store = (.error e, after)) ∨
      ∃ modSeq last, Storage.nextModSeq mailbox middle = (.ok modSeq, last) ∧
        append mailbox new now store
          = ((Storage.insert (new.row mailbox uid modSeq now) last).1.map fun _ =>
              (new.row mailbox uid modSeq now).metadata,
            (Storage.insert (new.row mailbox uid modSeq now) last).2)) := by
  rcases counted : Storage.nextUid mailbox store with ⟨e | uid, middle⟩
  · exact .inl ⟨e, middle, rfl, Step.bind_of_error counted⟩
  refine .inr ⟨uid, middle, rfl, ?_⟩
  rcases stamped : Storage.nextModSeq mailbox middle with ⟨e | modSeq, last⟩
  · exact .inl ⟨e, last, rfl, (Step.bind_of_ok counted).trans (Step.bind_of_error stamped)⟩
  refine .inr ⟨modSeq, last, rfl, (Step.bind_of_ok counted).trans
    ((Step.bind_of_ok stamped).trans ?_)⟩
  rcases inserted : Storage.insert (new.row mailbox uid modSeq now) last with ⟨e | _, after⟩
  · exact Step.bind_of_error inserted
  · exact Step.bind_of_ok inserted

section Built

variable (chains : Chains R)

include chains

omit [PureReads σ] in
/-- An append stays within a relation if its steps do. -/
theorem append_within (nextUid : ∀ mailbox, (Storage.nextUid mailbox : Step σ Uid).Within R)
    (nextModSeq : ∀ mailbox, (Storage.nextModSeq mailbox : Step σ ModSeq).Within R)
    (insert : ∀ message, (Storage.insert message : Step σ Unit).Within R) (mailbox : MailboxId)
    (new : NewMessage) (now : Instant) : (append mailbox new now : Step σ Metadata).Within R := by
  unfold append
  refine .bind chains (nextUid mailbox) fun uid => ?_
  refine .bind chains (nextModSeq mailbox) fun modSeq => ?_
  refine .bind chains (insert _) fun _ => ?_
  exact .pure chains _

omit [PureReads σ] in
/-- An update of flags stays within a relation if its steps do. -/
theorem applyFlags_within
    (nextModSeq : ∀ mailbox, (Storage.nextModSeq mailbox : Step σ ModSeq).Within R)
    (updateFlags : ∀ mailbox uid edit modSeq expected,
      (Storage.updateFlags mailbox uid edit modSeq expected : Step σ Metadata).Within R)
    (mailbox : MailboxId) (uid : Uid) (update : FlagUpdate) (expected : Option ModSeq) :
    (applyFlags mailbox uid update expected : Step σ Metadata).Within R :=
  .bind chains (nextModSeq mailbox) fun _ => updateFlags _ _ _ _ _

omit [PureReads σ] in
/-- A reset stays within a relation if its partitions do. -/
theorem resetRecent_within {mailbox : MailboxId} {modSeq : ModSeq}
    (resets : ∀ uids, modSeq ≤ maxStored → uids.Pairwise (· < ·) →
      (Storage.resetRecent mailbox uids modSeq : Step σ RecentReset).Within R) (uids : List Uid) :
    (resetRecent mailbox uids modSeq : Step σ RecentReset).Within R := by
  unfold resetRecent
  split
  · exact .fail chains _
  · rename_i fits
    refine fun store => runPartitioned_within chains (fun part within => ?_) store
    exact resets part (Nat.not_lt.mp fits) ((sortedUids_ascending uids).sublist within)

omit [PureReads σ] in
/-- Counting up in some mailboxes stays within a relation if it does in each. -/
theorem bumpEach_within
    (nextModSeq : ∀ mailbox, (Storage.nextModSeq mailbox : Step σ ModSeq).Within R)
    (mailboxes : List MailboxId) : (bumpEach mailboxes : Step σ Unit).Within R := by
  induction mailboxes with
  | nil => exact .pure chains _
  | cons mailbox rest ih => exact .bind chains (nextModSeq mailbox) fun _ => ih

omit [PureReads σ] in
/-- Writes stay within a relation if the operations that they are made of do. -/
theorem writes_of_operations (operations : Operations σ R) : Writes σ allowed R where
  nextUid := operations.nextUid
  nextModSeq := operations.nextModSeq
  append mailbox new now _ :=
    append_within chains operations.nextUid operations.nextModSeq operations.insert mailbox new now
  applyFlags := applyFlags_within chains operations.nextModSeq operations.updateFlags
  resetRecent mailbox _ modSeq _ fits part ascending :=
    operations.resetRecent mailbox part modSeq fits ascending
  deleteBatch := operations.deleteBatch
  deleteMailbox := operations.deleteMailbox
  deleteMessage := operations.deleteMessage
  appendChange draft expiresAt _ := operations.appendChange draft expiresAt
  purgeExpired now _ := operations.purgeExpired now

end Built

variable (chains : Chains R) (writes : Writes σ allowed R)

include chains writes

omit [PureReads σ] in
theorem deleteByUids_within (mailbox : MailboxId) (uids : List Uid) :
    (deleteByUids mailbox uids : Step σ (List Metadata)).Within R := by
  unfold deleteByUids
  split
  · exact .pure chains _
  · refine .bind chains (writes.nextModSeq mailbox) fun _ store => ?_
    refine runPartitioned_within chains (fun part within => ?_) store
    exact writes.deleteBatch mailbox part ((sortedUids_ascending uids).sublist within)

/-- A store stays within a relation over every call if its writes stay within it. -/
theorem Call.run_within (policy : Policy) (call : Call) (isAllowed : allowed call) :
    (call.run policy : Step σ call.Answer).Within R := by
  cases call with
  | nextUid mailbox => exact writes.nextUid mailbox
  | nextModSeq mailbox => exact writes.nextModSeq mailbox
  | append mailbox new now => exact writes.append mailbox new now isAllowed
  | applyFlags mailbox uid update expected => exact writes.applyFlags mailbox uid update expected
  | resetRecent mailbox uids modSeq =>
    exact resetRecent_within chains
      (fun part fits => writes.resetRecent mailbox uids modSeq isAllowed fits part) uids
  | deleteByUids mailbox uids => exact deleteByUids_within chains writes mailbox uids
  | deleteMailbox mailbox => exact writes.deleteMailbox mailbox
  | deleteMessage id =>
    refine .bind chains (.of_pure chains (PureReads.findMailboxes id)) fun mailboxes => ?_
    exact .bind chains (bumpEach_within chains writes.nextModSeq mailboxes) fun _ =>
      writes.deleteMessage id
  | recordChange draft => exact writes.appendChange draft _ isAllowed
  | purgeExpired now => exact writes.purgeExpired now isAllowed
  | _ => exact Call.read_within chains policy trivial

/-- A store stays within a relation over every sequence of calls. -/
theorem Call.runAll_within (policy : Policy) {calls : List Call}
    (areAllowed : ∀ call ∈ calls, allowed call) (store : σ) :
    R store (Call.runAll policy calls store).2 := by
  induction calls generalizing store with
  | nil => exact chains.refl store
  | cons call rest ih =>
    have first :=
      Call.run_within chains writes policy call (areAllowed call List.mem_cons_self) store
    refine chains.trans first (ih (fun call member => ?_) _)
    exact areAllowed call (List.mem_cons_of_mem _ member)

end Service

end Mailroom
