import Mailroom.Proofs.Partition
import Mailroom.Proofs.Step
import Mailroom.Service.Call
/-!
Stores that a service cannot tell apart.

Two stores stand in a relation. If every operation answers the same on both of them and leaves them
related (`Simulation`), then so does every call (`Call.run_alike`). An operation on a partition has
to do so only for the partitions that a call can make of its numbers.

Removing a mailbox is one operation and is left to the stores: it is not cut into partitions, and
what it asks of a store may depend on how many rows there are.
-/

namespace Mailroom

variable {σ τ α β κ ρ : Type} {Q : τ → σ → Prop} {t : τ} {s : σ}

/-- Two steps answer the same on related stores, and leave related stores. -/
def Step.Alike (Q : τ → σ → Prop) (left : Step τ α) (right : Step σ α) : Prop :=
  ∀ t s, Q t s → (left t).1 = (right s).1 ∧ Q (left t).2 (right s).2

namespace Step.Alike

/-- Both steps fail with one error, or both answer the same. -/
theorem outcomes {left : Step τ α} {right : Step σ α} (alike : Alike Q left right)
    (related : Q t s) : ∃ outcome after after',
      left t = (outcome, after) ∧ right s = (outcome, after') ∧ Q after after' := by
  obtain ⟨same, still⟩ := alike t s related
  exact ⟨(left t).1, (left t).2, (right s).2, rfl, Prod.ext same.symm rfl, still⟩

theorem of_check (outcome : Except StoreError α) :
    Alike Q (Step.check outcome : Step τ α) (Step.check outcome) :=
  fun _ _ related => ⟨rfl, related⟩

theorem pure (a : α) : Alike Q (Pure.pure a : Step τ α) (Pure.pure a) := of_check (.ok a)

theorem fail (e : StoreError) : Alike Q (Step.fail e : Step τ α) (Step.fail e) :=
  of_check (.error e)

theorem bind {left : Step τ α} {right : Step σ α} {next : α → Step τ β} {next' : α → Step σ β}
    (first : Alike Q left right) (rest : ∀ a, Alike Q (next a) (next' a)) :
    Alike Q (left >>= next) (right >>= next') := by
  intro t s related
  obtain ⟨_ | a, after, after', did, did', still⟩ := first.outcomes related
  · rw [Step.bind_of_error did, Step.bind_of_error did']
    exact ⟨rfl, still⟩
  · rw [Step.bind_of_ok did, Step.bind_of_ok did']
    exact rest a after after' still

theorem mapError {left : Step τ α} {right : Step σ α} (f : StoreError → StoreError)
    (alike : Alike Q left right) : Alike Q (left.mapError f) (right.mapError f) := by
  intro t s related
  obtain ⟨_ | a, after, after', did, did', still⟩ := alike.outcomes related <;>
  · simp only [Step.mapError, did, did', true_and]
    exact still

end Step.Alike

/-! ### Partitions -/

section Partitions

variable [BatchOutcome α] {call : List Uid → Step τ α} {call' : List Uid → Step σ α}

theorem runChunks_alike {parts : List (List Uid)}
    (calls : ∀ part ∈ parts, Step.Alike Q (call part) (call' part)) (progress : BatchProgress α)
    (related : Q t s) :
    (runChunks call parts progress t).1 = (runChunks call' parts progress s).1 ∧
      Q (runChunks call parts progress t).2 (runChunks call' parts progress s).2 := by
  induction parts generalizing progress t s with
  | nil => exact ⟨rfl, related⟩
  | cons part rest ih =>
    have rests := fun part member => calls part (List.mem_cons_of_mem _ member)
    obtain ⟨_ | a, after, after', did, did', still⟩ :=
      (calls part List.mem_cons_self).outcomes related <;>
    · simp only [runChunks, did, did']
      exact ih rests _ still

/-- A batch answers alike on related stores if its partitions do. -/
theorem runPartitioned_alike {bound : Nat}
    (calls : ∀ part : List Uid, part.length ≤ max bound 1 → Step.Alike Q (call part) (call' part))
    (uids : List Uid) :
    Step.Alike Q (runPartitioned bound call uids) (runPartitioned bound call' uids) := by
  intro t s related
  unfold runPartitioned
  split
  · exact ⟨rfl, related⟩
  split
  · rename_i few
    exact calls uids few t s related
  · have parts (part : List Uid) (member : part ∈ chunks (max bound 1) uids) :
        Step.Alike Q (call part) (call' part) := calls part (length_of_mem_chunks member)
    obtain ⟨same, still⟩ := runChunks_alike parts { outcome := BatchOutcome.empty } related
    exact ⟨congrArg BatchProgress.result same, still⟩

end Partitions

/-! ### Reads -/

/-- Two sources of rows with the same keys answer alike. -/
structure Source.Alike (Q : τ → σ → Prop) (left : Source τ κ ρ) (right : Source σ κ ρ) : Prop where
  key : left.key = right.key
  fetch : ∀ after limit, Step.Alike Q (left.fetch after limit) (right.fetch after limit)

section Reads

variable {left : Source τ κ ρ} {right : Source σ κ ρ} (sources : Source.Alike Q left right)

include sources

theorem nextPage_alike (paging : Paging κ ρ) (related : Q t s) : ∃ answer next after after',
    paging.nextPage left t = (answer, next, after) ∧
      paging.nextPage right s = (answer, next, after') ∧ Q after after' := by
  obtain ⟨_ | rows, after, after', did, did', still⟩ :=
    (sources.fetch paging.cursor paging.pageSize).outcomes related
  all_goals
    simp only [Paging.nextPage, did, did', sources.key]
    split
    · exact ⟨_, _, _, _, rfl, rfl, related⟩
    · exact ⟨_, _, _, _, rfl, rfl, still⟩

theorem prime_alike (paging : Paging κ ρ) (related : Q t s) : ∃ answer next after after',
    paging.prime left t = (answer, next, after) ∧
      paging.prime right s = (answer, next, after') ∧ Q after after' := by
  obtain ⟨_ | _ | rows, next, after, after', did, did', still⟩ :=
    nextPage_alike sources paging related
  all_goals
    simp only [Paging.prime, did, did']
    split
    · exact ⟨_, _, _, _, rfl, rfl, still⟩
    · exact ⟨_, _, _, _, rfl, rfl, related⟩

theorem rest_alike (pages : Nat) (paging : Paging κ ρ) (related : Q t s) :
    ∃ answer next after after', paging.rest left pages t = (answer, next, after) ∧
      paging.rest right pages s = (answer, next, after') ∧ Q after after' := by
  induction pages generalizing paging t s with
  | zero => exact ⟨_, _, _, _, rfl, rfl, related⟩
  | succ pages ih =>
    obtain ⟨_ | _ | rows, next, after, after', did, did', still⟩ :=
      nextPage_alike sources { paging with buffer := [] } related
    · simp only [Paging.rest, did, did']
      exact ⟨_, _, _, _, rfl, rfl, still⟩
    · simp only [Paging.rest, did, did']
      exact ⟨_, _, _, _, rfl, rfl, still⟩
    · obtain ⟨_, _, _, _, rest, rest', related⟩ := ih { next with buffer := rows } still
      simp only [Paging.rest, did, did', rest, rest']
      exact ⟨_, _, _, _, rfl, rfl, related⟩

end Reads

/-! ### Calls -/

/-- Operations answer alike on related stores: all of them but the removal of a mailbox, and those
on a partition if the partition fits. -/
structure Simulation [Storage τ] [Storage σ] (fits : List Uid → Prop) (Q : τ → σ → Prop) :
    Prop where
  nextUid : ∀ mailbox, Step.Alike Q (Storage.nextUid mailbox) (Storage.nextUid mailbox)
  nextModSeq : ∀ mailbox, Step.Alike Q (Storage.nextModSeq mailbox) (Storage.nextModSeq mailbox)
  highestModSeq : ∀ mailbox,
    Step.Alike Q (Storage.highestModSeq mailbox) (Storage.highestModSeq mailbox)
  insert : ∀ message, Step.Alike Q (Storage.insert message) (Storage.insert message)
  find : ∀ mailbox uid fetch,
    Step.Alike Q (Storage.find mailbox uid fetch) (Storage.find mailbox uid fetch)
  fetchPage : ∀ request fetch,
    Step.Alike Q (Storage.fetchPage request fetch) (Storage.fetchPage request fetch)
  fetchUidPage : ∀ request,
    Step.Alike Q (Storage.fetchUidPage request) (Storage.fetchUidPage request)
  fetchBatch : ∀ mailbox uids fetch, fits uids →
    Step.Alike Q (Storage.fetchBatch mailbox uids fetch) (Storage.fetchBatch mailbox uids fetch)
  updateFlags : ∀ mailbox uid edit modSeq expected,
    Step.Alike Q (Storage.updateFlags mailbox uid edit modSeq expected)
      (Storage.updateFlags mailbox uid edit modSeq expected)
  resetRecent : ∀ mailbox uids modSeq, fits uids →
    Step.Alike Q (Storage.resetRecent mailbox uids modSeq)
      (Storage.resetRecent mailbox uids modSeq)
  deleteBatch : ∀ mailbox uids, fits uids →
    Step.Alike Q (Storage.deleteBatch mailbox uids) (Storage.deleteBatch mailbox uids)
  deleteMessage : ∀ id, Step.Alike Q (Storage.deleteMessage id) (Storage.deleteMessage id)
  findMailboxes : ∀ id, Step.Alike Q (Storage.findMailboxes id) (Storage.findMailboxes id)
  counts : ∀ mailbox, Step.Alike Q (Storage.counts mailbox) (Storage.counts mailbox)
  firstUnseen : ∀ mailbox, Step.Alike Q (Storage.firstUnseen mailbox) (Storage.firstUnseen mailbox)
  keywords : ∀ mailbox, Step.Alike Q (Storage.keywords mailbox) (Storage.keywords mailbox)
  listBound : ∀ t s, Q t s → Storage.listBound t = Storage.listBound s
  /-- The partitions that a call makes fit. -/
  partition : ∀ t s, Q t s → ∀ uids : List Uid,
    uids.length ≤ max (Storage.listBound t) 1 → fits uids
  appendChange : ∀ draft expiresAt,
    Step.Alike Q (Storage.appendChange draft expiresAt) (Storage.appendChange draft expiresAt)
  changesPage : ∀ request, Step.Alike Q (Storage.changesPage request) (Storage.changesPage request)
  heads : ∀ account, Step.Alike Q (Storage.heads account) (Storage.heads account)
  purgeExpired : ∀ now, Step.Alike Q (Storage.purgeExpired now) (Storage.purgeExpired now)
  extent : ∀ t s, Q t s → Storage.extent t = Storage.extent s

namespace Service

variable [Storage τ] [Storage σ] {fits : List Uid → Prop} (simulation : Simulation fits Q)

include simulation

theorem partitioned_alike [BatchOutcome α] {call : List Uid → Step τ α}
    {call' : List Uid → Step σ α}
    (calls : ∀ part, fits part → Step.Alike Q (call part) (call' part))
    (uids : List Uid) : Step.Alike Q (partitioned call uids) (partitioned call' uids) := by
  intro t s related
  unfold partitioned
  rw [← simulation.listBound t s related]
  refine runPartitioned_alike (fun part short => ?_) uids t s related
  exact calls part (simulation.partition t s related part short)

theorem drained_alike {left : Source τ κ ρ} {right : Source σ κ ρ}
    (sources : Source.Alike Q left right) (paging : Paging κ ρ) :
    Step.Alike Q (Call.drained ⟨left, paging⟩) (Call.drained ⟨right, paging⟩) := by
  intro t s related
  obtain ⟨_, _, _, _, did, did', still⟩ :=
    rest_alike sources (Storage.extent t) paging related
  simp only [Call.drained, drain, Scan.rest, did, ← simulation.extent t s related, did',
    true_and]
  exact still

theorem collected_alike {left : Source τ κ ρ} {right : Source σ κ ρ}
    (sources : Source.Alike Q left right) (paging : Paging κ ρ) :
    Step.Alike Q (collected ⟨left, paging⟩) (collected ⟨right, paging⟩) := by
  intro t s related
  obtain ⟨_, _, _, _, did, did', still⟩ :=
    rest_alike sources (Storage.extent t) paging related
  simp only [collected, drain, Scan.rest, did, ← simulation.extent t s related, did',
    true_and]
  exact still

theorem changeSource_alike (account : AccountId) (lower : State) (now : Instant) :
    Source.Alike Q (changeSource account lower now) (changeSource account lower now) where
  key := rfl
  fetch _ _ := simulation.changesPage _

omit simulation [Storage τ] [Storage σ] in
/-- What follows the fetching of a first page answers alike if it does for every page. -/
theorem primed_bind_alike {left : Source τ κ ρ} {right : Source σ κ ρ}
    (sources : Source.Alike Q left right) (paging : Paging κ ρ) {next : Scan τ κ ρ → Step τ β}
    {next' : Scan σ κ ρ → Step σ β}
    (nexts : ∀ paging, Step.Alike Q (next ⟨left, paging⟩) (next' ⟨right, paging⟩)) :
    Step.Alike Q (primed ⟨left, paging⟩ >>= next) (primed ⟨right, paging⟩ >>= next') := by
  intro t s related
  obtain ⟨e | _, fetched, after, after', did, did', still⟩ := prime_alike sources paging related
  · have fails : primed ⟨left, paging⟩ t = (.error e, after) := by
      simp only [primed, Scan.prime, did]
    have fails' : primed ⟨right, paging⟩ s = (.error e, after') := by
      simp only [primed, Scan.prime, did']
    rw [Step.bind_of_error fails, Step.bind_of_error fails']
    exact ⟨rfl, still⟩
  · have starts : primed ⟨left, paging⟩ t = (.ok ⟨left, fetched⟩, after) := by
      simp only [primed, Scan.prime, did]
    have starts' : primed ⟨right, paging⟩ s = (.ok ⟨right, fetched⟩, after') := by
      simp only [primed, Scan.prime, did']
    rw [Step.bind_of_ok starts, Step.bind_of_ok starts']
    exact nexts fetched after after' still

omit simulation in
/-- What follows the start of a read of a change log answers alike if the heads and the records do,
and it does wherever the read stands. -/
theorem changesFrom_bind_alike (policy : Policy) (account : AccountId) (since : State)
    (limit : Option Nat) (now : Instant)
    (heads : Step.Alike Q (Storage.heads account : Step τ Heads) (Storage.heads account))
    (sources : Source.Alike Q (changeSource account since now) (changeSource account since now))
    {next : Scan τ State ChangeRecord → Step τ β} {next' : Scan σ State ChangeRecord → Step σ β}
    (nexts : ∀ paging, Step.Alike Q (next ⟨changeSource account since now, paging⟩)
      (next' ⟨changeSource account since now, paging⟩)) :
    Step.Alike Q (changesFrom policy account since limit now >>= next)
      (changesFrom policy account since limit now >>= next') := by
  unfold changesFrom
  rw [bind_assoc, bind_assoc]
  refine .bind heads fun heads => ?_
  simp only
  split
  · exact .fail _
  split
  · exact nexts _
  rw [bind_assoc, bind_assoc]
  generalize (if since = State.initial then since.next else since) = boundary
  refine primed_bind_alike sources _ fun paging => ?_
  split
  · exact nexts paging
  · exact .fail _

theorem bumpEach_alike (mailboxes : List MailboxId) :
    Step.Alike Q (bumpEach mailboxes) (bumpEach mailboxes) := by
  induction mailboxes with
  | nil => exact .pure ()
  | cons mailbox rest ih => exact .bind (simulation.nextModSeq mailbox) fun _ => ih

/-- Every call answers alike on related stores, if the removal of its mailbox does. -/
theorem Call.run_alike (policy : Policy) (call : Call)
    (removals : ∀ mailbox, call = .deleteMailbox mailbox →
      Step.Alike Q (Storage.deleteMailbox mailbox) (Storage.deleteMailbox mailbox)) :
    Step.Alike Q (call.run policy) (call.run policy) := by
  cases call with
  | nextUid mailbox => exact simulation.nextUid mailbox
  | nextModSeq mailbox => exact simulation.nextModSeq mailbox
  | highestModSeq mailbox => exact simulation.highestModSeq mailbox
  | append mailbox new now =>
    refine .bind (simulation.nextUid mailbox) fun uid => ?_
    refine .bind (simulation.nextModSeq mailbox) fun modSeq => ?_
    exact .bind (simulation.insert _) fun _ => .pure _
  | applyFlags mailbox uid update expected =>
    exact .bind (simulation.nextModSeq mailbox) fun _ => simulation.updateFlags _ _ _ _ _
  | resetRecent mailbox uids modSeq =>
    simp only [Call.run, Service.resetRecent]
    split
    · exact .fail _
    · exact partitioned_alike simulation (fun _ => simulation.resetRecent _ _ _) _
  | deleteByUids mailbox uids =>
    simp only [Call.run, Service.deleteByUids]
    split
    · exact .pure _
    · refine .bind (simulation.nextModSeq mailbox) fun _ => ?_
      exact partitioned_alike simulation (fun _ => simulation.deleteBatch _ _) _
  | deleteMailbox mailbox => exact removals mailbox rfl
  | deleteMessage id =>
    refine .bind (simulation.findMailboxes id) fun mailboxes => ?_
    exact .bind (bumpEach_alike simulation mailboxes) fun _ => simulation.deleteMessage id
  | find mailbox uid fetch => exact simulation.find mailbox uid fetch
  | findByUids mailbox uids fetch =>
    exact partitioned_alike simulation (fun _ => simulation.fetchBatch _ _ _) _
  | findMailboxes id => exact simulation.findMailboxes id
  | scan request fetch =>
    exact drained_alike simulation ⟨rfl, fun _ _ => simulation.fetchPage _ fetch⟩ _
  | scanUids request =>
    exact drained_alike simulation ⟨rfl, fun _ _ => simulation.fetchUidPage _⟩ _
  | counts mailbox => exact simulation.counts mailbox
  | firstUnseen mailbox => exact simulation.firstUnseen mailbox
  | keywords mailbox => exact simulation.keywords mailbox
  | recordChange draft => exact simulation.appendChange draft _
  | allChanges account now =>
    exact drained_alike simulation (changeSource_alike simulation account .initial now) _
  | changesSince account since now =>
    have sources := changeSource_alike simulation account since now
    exact changesFrom_bind_alike policy account since none now (simulation.heads account) sources
      fun paging => drained_alike simulation sources paging
  | changesSinceLimited account since most now =>
    have sources := changeSource_alike simulation account since now
    refine changesFrom_bind_alike policy account since _ now (simulation.heads account) sources
      fun paging => .bind ?_ fun _ => .pure _
    exact collected_alike simulation sources paging
  | latestState account => exact .bind (simulation.heads account) fun _ => .pure _
  | latestStateNotDelegated account => exact .bind (simulation.heads account) fun _ => .pure _
  | purgeExpired now => exact simulation.purgeExpired now

end Service

end Mailroom
