import Mailroom.Proofs.Incidents
/-!
A store in memory that is switched off for a while.

* `run_of_not_needsStore` — a call that asks for no row answers the same on every store.
* `Memory.Store.run_refused` — every other call is refused by a store that is switched off, and
  `Memory.Store.run_off` says that it leaves the store as it is. A call of several steps is refused
  by the first of them, and a batch by each of its partitions.
* `Memory.Store.runAll_outsideOutages` — the calls that are made while the store is on answer as if
  those that are made while it is off did not take place.
-/

namespace Mailroom

open Service

/-! ### Calls that no store is needed for -/

namespace Service.Call

/-- Whether a call has to reach the store: it does not if it asks for no row, or for a modification
sequence that no store keeps. -/
def NeedsStore : Call → Prop
  | resetRecent _ uids modSeq => uids ≠ [] ∧ modSeq ≤ maxStored
  | deleteByUids _ uids => uids ≠ []
  | findByUids _ uids _ => uids ≠ []
  | scan request _ => request.limit ≠ some 0
  | scanUids request => request.limit ≠ some 0
  | _ => True

theorem runPartitioned_nil {σ α : Type} [BatchOutcome α] (bound : Nat)
    (call : List Uid → Step σ α) (store : σ) :
    runPartitioned bound call [] store = (.ok BatchOutcome.empty, store) := rfl

section Anywhere

variable {σ : Type} [Storage σ]

/-- A read of no rows is over before it starts. -/
theorem drained_none {κ τ : Type} (source : Source σ κ τ) (batch : Nat) (store : σ) :
    drained (.start source batch (some 0)) store = (.ok ⟨[], 0⟩, store) := by
  simp only [drained, drain, Scan.rest, Scan.start]
  cases Storage.extent store with
  | zero => rfl
  | succ pages => rfl

/-- A call that needs no store answers the same on every store, and leaves it as it is. -/
theorem run_of_not_needsStore {policy : Policy} {call : Call} (free : ¬ call.NeedsStore) :
    ∃ answer : Except StoreError call.Answer,
      ∀ store : σ, call.run policy store = (answer, store) := by
  cases call with
  | resetRecent mailbox uids modSeq =>
    by_cases fits : modSeq ≤ maxStored
    · have none : uids = [] := Classical.not_not.mp fun some => free ⟨some, fits⟩
      subst none
      refine ⟨.ok ({} : RecentReset), fun store => ?_⟩
      simp only [run, Service.resetRecent, if_neg (Nat.not_lt.mpr fits)]
      exact runPartitioned_nil _ _ store
    · refine ⟨.error (.invalidInput (.tooGreat .modSeq modSeq)), fun store => ?_⟩
      simp only [run, Service.resetRecent, if_pos (Nat.lt_of_not_le fits)]
      rfl
  | deleteByUids mailbox uids =>
    have none : uids = [] := Classical.not_not.mp free
    subst none
    exact ⟨.ok ([] : List Metadata), fun _ => rfl⟩
  | findByUids mailbox uids fetch =>
    have none : uids = [] := Classical.not_not.mp free
    subst none
    exact ⟨.ok ([] : List Message), fun _ => rfl⟩
  | scan request fetch =>
    have none : request.limit = some 0 := Classical.not_not.mp free
    refine ⟨.ok (⟨[], 0⟩ : Scanned Message), fun store => ?_⟩
    simp only [run, Service.scan, none]
    exact drained_none _ _ store
  | scanUids request =>
    have none : request.limit = some 0 := Classical.not_not.mp free
    refine ⟨.ok (⟨[], 0⟩ : Scanned Uid), fun store => ?_⟩
    simp only [run, Service.scanUids, none]
    exact drained_none _ _ store
  | _ => exact absurd trivial free

end Anywhere

end Service.Call

/-! ### Refusals -/

section Refusals

variable {σ α : Type} {store : σ} {e : StoreError}

/-- Partitions that are all refused with an error leave the store as it is. -/
theorem runChunks_refused [BatchOutcome α] {call : List Uid → Step σ α}
    (refuses : ∀ part, call part store = (.error e, store)) (parts : List (List Uid))
    (progress : BatchProgress α) :
    runChunks call parts progress store
      = ({ progress with
          failed := progress.failed ++ parts.map fun part => (part, e) }, store) := by
  induction parts generalizing progress with
  | nil => simp [runChunks]
  | cons part rest ih => simp [runChunks, refuses part, ih]

/-- A read that is refused delivers its error and nothing else. -/
theorem rest_refused {κ τ : Type} {source : Source σ κ τ} {batch : Nat} {limit : Option Nat}
    (asks : limit ≠ some 0)
    (refuses : ∀ after size, source.fetch after size store = (.error e, store)) (pages : Nat) :
    ((Paging.start batch limit).rest source (pages + 1) store).1 = [.error e] := by
  have open' : (Paging.start batch limit : Paging κ τ).finished = false := by
    simpa [Paging.start] using asks
  simp only [Paging.start] at open'
  simp only [Paging.rest, Paging.nextPage, Paging.start, open', refuses]
  rfl

end Refusals

namespace Memory

/-- The error of every call that reaches a store that is switched off. -/
def outage : StoreError := .unavailable Store.switchedOff

/-- An error that says that the store is switched off: that of a single step, of a number that was
not given out, or of a batch none of whose partitions was executed. -/
inductive IsOutage : StoreError → Prop
  | reached : IsOutage outage
  | number (mailbox : MailboxId) (sequence : Sequence) :
    IsOutage (.sequenceAllocation mailbox sequence outage)
  | batch {failed : List (List Uid × StoreError)} (some : failed ≠ [])
    (all : ∀ part ∈ failed, part.2 = outage) : IsOutage (.partialBatch {} failed 0)

/-- A call was refused by a store that is switched off. A read may have been started; it then
delivers the error. -/
def Refused : (call : Call) → Except StoreError call.Answer → Prop
  | _, .error e => IsOutage e
  | .scan .., .ok (scanned : Scanned Message) => scanned.rows = [.error outage]
  | .scanUids _, .ok (scanned : Scanned Uid) => scanned.rows = [.error outage]
  | .allChanges .., .ok (scanned : Scanned ChangeRecord) => scanned.rows = [.error outage]
  | _, .ok _ => False

namespace Store

section Off

variable {m : Store} (off : ¬ m.IsOn)

include off

theorem ensureAvailable_off : m.ensureAvailable = .error outage := by
  unfold ensureAvailable
  exact if_neg off

/-- What has to reach the store goes no further. -/
theorem bind_off {α : Type} (next : Unit → Except StoreError α) :
    (m.ensureAvailable >>= next) = .error outage := by
  rw [ensureAvailable_off off]
  rfl

theorem allocate_off (mailbox : MailboxId) (sequence : Sequence)
    (bump : Counters → Nat × Counters) :
    Step.write (allocate mailbox sequence bump) m
      = (.error (.sequenceAllocation mailbox sequence outage), m) := by
  refine Step.write_of_error ?_
  simp only [allocate, ensureAvailable_off off]

theorem nextUid_off (mailbox : MailboxId) :
    Storage.nextUid mailbox m = (.error (.sequenceAllocation mailbox .uid outage), m) :=
  allocate_off off mailbox .uid _

theorem nextModSeq_off (mailbox : MailboxId) :
    Storage.nextModSeq mailbox m = (.error (.sequenceAllocation mailbox .modSeq outage), m) :=
  allocate_off off mailbox .modSeq _

theorem heads_off (account : AccountId) : Storage.heads account m = (.error outage, m) :=
  Step.read_of_error (bind_off off _)

omit off in
/-- A batch is refused by each of its partitions. -/
theorem runPartitioned_off {α : Type} [BatchOutcome α]
    (nothing : BatchOutcome.report (BatchOutcome.empty : α) = {}) {call : List Uid → Step Store α}
    (refuses : ∀ part, call part m = (.error outage, m)) {uids : List Uid} (some : uids ≠ []) :
    ∃ e, (runPartitioned m.listBound call (sortedUids uids) m).1 = .error e ∧ IsOutage e := by
  have sorted : sortedUids uids ≠ [] := by
    intro none
    obtain ⟨uid, member⟩ := List.exists_mem_of_ne_nil uids some
    have listed := mem_sortedUids.mpr member
    rw [none] at listed
    cases listed
  unfold runPartitioned
  rw [if_neg (by simpa using sorted)]
  split
  · rw [refuses]
    exact ⟨outage, rfl, .reached⟩
  · have cut : chunks (max m.listBound 1) (sortedUids uids) ≠ [] := by
      intro none
      have positive : 0 < max m.listBound 1 := by omega
      have whole : (chunks (max m.listBound 1) (sortedUids uids)).flatten = sortedUids uids :=
        flatten_chunks positive
      rw [none] at whole
      exact sorted whole.symm
    simp only [runChunks_refused refuses, List.nil_append, BatchProgress.result, List.isEmpty_iff,
      List.map_eq_nil_iff, if_neg cut, nothing]
    refine ⟨_, rfl, .batch (by simpa using cut) fun part member => ?_⟩
    obtain ⟨_, -, rfl⟩ := List.mem_map.mp member
    rfl

/-- A read of a change log is refused when its heads are looked up. -/
theorem changesFrom_off (policy : Policy) (account : AccountId) (since : State)
    (limit : Option Nat) (now : Instant) :
    changesFrom policy account since limit now m = (.error outage, m) := by
  unfold changesFrom
  exact Step.bind_of_error (heads_off off account)

/-- A store that is switched off refuses every call that has to reach it. -/
theorem run_refused (policy : Policy) {call : Call} (needs : call.NeedsStore) :
    Refused call (call.run policy m).1 := by
  have refused {step : Step Store call.Answer} {e : StoreError} (isOutage : IsOutage e)
      (stopped : step m = (.error e, m)) : Refused call (step m).1 := by
    rw [stopped]
    cases call <;> exact isOutage
  have reached {step : Step Store call.Answer} (stopped : step m = (.error outage, m)) :
      Refused call (step m).1 := refused .reached stopped
  cases call with
  | nextUid mailbox => exact refused (.number mailbox .uid) (nextUid_off off mailbox)
  | nextModSeq mailbox => exact refused (.number mailbox .modSeq) (nextModSeq_off off mailbox)
  | append mailbox new now =>
    exact refused (.number mailbox .uid) (Step.bind_of_error (nextUid_off off mailbox))
  | applyFlags mailbox uid update expected =>
    exact refused (.number mailbox .modSeq) (Step.bind_of_error (nextModSeq_off off mailbox))
  | resetRecent mailbox uids modSeq =>
    obtain ⟨some, fits⟩ := needs
    have refuses (part : List Uid) :
        (Storage.resetRecent mailbox part modSeq : Step Store RecentReset) m
          = (.error outage, m) := by
      refine Step.write_of_error ?_
      unfold Memory.Store.resetRecent
      rw [checkStorable_ok.mpr fits]
      exact bind_off off _
    obtain ⟨e, fails, isOutage⟩ := runPartitioned_off rfl refuses some
    simp only [Call.run, Service.resetRecent, if_neg (Nat.not_lt.mpr fits), partitioned]
    exact fails ▸ isOutage
  | deleteByUids mailbox uids =>
    simp only [Call.run, Service.deleteByUids, List.isEmpty_iff, if_neg needs]
    exact refused (.number mailbox .modSeq) (Step.bind_of_error (nextModSeq_off off mailbox))
  | findByUids mailbox uids fetch =>
    have refuses (part : List Uid) :
        (Storage.fetchBatch mailbox part fetch : Step Store (List Message)) m
          = (.error outage, m) := Step.read_of_error (bind_off off _)
    obtain ⟨e, fails, isOutage⟩ := runPartitioned_off rfl refuses needs
    simp only [Call.run, Service.findByUids, partitioned]
    exact fails ▸ isOutage
  | deleteMessage id =>
    have stopped : (Storage.findMailboxes id : Step Store _) m = (.error outage, m) :=
      Step.read_of_error (bind_off off _)
    exact reached (Step.bind_of_error stopped)
  | scan request fetch =>
    have refuses (after : Option Uid) (size : Nat) :
        (messageSource request.mailbox request.range request.filter fetch).fetch after size m
          = (.error outage, m) := Step.read_of_error (bind_off off _)
    exact rest_refused needs refuses _
  | scanUids request =>
    have refuses (after : Option Uid) (size : Nat) :
        (uidSource request.mailbox request.range request.filter).fetch after size m
          = (.error outage, m) := Step.read_of_error (bind_off off _)
    exact rest_refused needs refuses _
  | allChanges account now =>
    have refuses (after : Option State) (size : Nat) :
        (changeSource account .initial now).fetch after size m = (.error outage, m) :=
      Step.read_of_error (bind_off off _)
    have asks : (none : Option Nat) ≠ some 0 := Option.some_ne_none 0 |>.symm
    exact rest_refused asks refuses _
  | changesSince account since now =>
    exact reached (Step.bind_of_error (changesFrom_off off policy account since none now))
  | changesSinceLimited account since most now =>
    exact reached (Step.bind_of_error (changesFrom_off off policy account since _ now))
  | deleteMailbox mailbox => exact reached (Step.write_of_error (bind_off off _))
  | recordChange draft => exact reached (Step.write_of_error (bind_off off _))
  | purgeExpired now => exact reached (Step.write_of_error (bind_off off _))
  | latestState account => exact reached (Step.bind_of_error (heads_off off account))
  | latestStateNotDelegated account => exact reached (Step.bind_of_error (heads_off off account))
  | _ => exact reached (Step.read_of_error (bind_off off _))

/-- A store that is switched off stays as it is. -/
theorem run_off (policy : Policy) (call : Call) : (call.run policy m).2 = m := by
  have chains := staysShut_chains IsOn
  have writes : Writes Store (fun _ => True) (StaysShut IsOn) :=
    writes_of_operations chains operations_stayShut
  exact Call.run_within chains writes policy call trivial m off

end Off

theorem available_chains : Chains fun m after : Store => after.available = m.available where
  refl _ := rfl
  trans first second := second.trans first

/-- No operation switches a store on or off. -/
theorem operations_stayAvailable :
    Operations Store fun m after => after.available = m.available where
  nextUid _ := .write available_chains fun done => by rw [(allocate_ok done).2]
  nextModSeq _ := .write available_chains fun done => by rw [(allocate_ok done).2]
  insert _ := .write available_chains fun done => by rw [(insert_ok done).2.2]
  updateFlags _ _ _ _ _ := .write available_chains fun done => by
    obtain ⟨-, _, -, -, -, rfl⟩ := updateFlags_ok done
    rfl
  resetRecent _ _ _ _ ascending := .write available_chains fun done => by
    rw [(resetRecent_ok (ascending.imp Nat.ne_of_lt) done).2]
    rfl
  deleteBatch _ _ _ := .write available_chains fun done => by rw [deleteBatch_ok done]; rfl
  deleteMailbox _ := .write available_chains fun done => by rw [deleteMailbox_ok done]; rfl
  deleteMessage _ := .write available_chains fun done => by rw [deleteMessage_ok done]; rfl
  appendChange _ _ := .write available_chains fun done => by rw [(appendChange_ok done).2]
  purgeExpired _ := .write available_chains fun done => by rw [purgeExpired_ok done]

theorem run_available (policy : Policy) (call : Call) (m : Store) :
    (call.run policy m).2.available = m.available := by
  have writes : Writes Store (fun _ => True) fun m after => after.available = m.available :=
    writes_of_operations available_chains operations_stayAvailable
  exact Call.run_within available_chains writes policy call trivial m

end Store

/-! ### Runs -/

/-- Whether a store is on after a run, if it was on before it or not. -/
def isOnAfter : Bool → List (Happening Incident) → Bool
  | on, [] => on
  | on, .made _ _ :: rest => isOnAfter on rest
  | _, .suffered (.switch on) :: rest => isOnAfter on rest

/-- A run without the calls that are made while the store is off. -/
def outsideOutages : Bool → List (Happening Incident) → List (Happening Incident)
  | _, [] => []
  | true, .made policy call :: rest => .made policy call :: outsideOutages true rest
  | false, .made _ _ :: rest => outsideOutages false rest
  | _, .suffered (.switch on) :: rest => .suffered (.switch on) :: outsideOutages on rest

/-- Of one item for each call of a run, those for the calls that are made while the store is on. -/
def selectOutside {α : Type} : Bool → List (Happening Incident) → List α → List α
  | true, .made _ _ :: rest, item :: items => item :: selectOutside true rest items
  | false, .made _ _ :: rest, _ :: items => selectOutside false rest items
  | _, .suffered (.switch on) :: rest, items => selectOutside on rest items
  | _, _, _ => []

theorem available_runAll (happenings : List (Happening Incident)) (m : Store) :
    (Happening.runAll happenings m).2.available = isOnAfter m.available happenings := by
  induction happenings generalizing m with
  | nil => rfl
  | cons happening rest ih =>
    cases happening with
    | made policy call =>
      have same := Store.run_available policy call m
      simp only [Happening.runAll, isOnAfter, ih, same]
    | suffered incident =>
      cases incident with
      | switch on => exact ih _

/-- Calls that are made while the store is off change neither the store nor any other answer. -/
theorem runAll_outsideOutages (happenings : List (Happening Incident)) (m : Store) :
    selectOutside m.available happenings (Happening.runAll happenings m).1
        = (Happening.runAll (outsideOutages m.available happenings) m).1 ∧
      (Happening.runAll happenings m).2
        = (Happening.runAll (outsideOutages m.available happenings) m).2 := by
  induction happenings generalizing m with
  | nil => cases m.available <;> exact ⟨rfl, rfl⟩
  | cons happening rest ih =>
    cases happening with
    | suffered incident =>
      cases incident with
      | switch on =>
        have rests := ih { m with available := on }
        cases m.available <;> exact rests
    | made policy call =>
      cases on : m.available with
      | false =>
        have off : ¬ m.IsOn := by simp [Store.IsOn, on]
        have rests := ih m
        rw [on] at rests
        simp only [Happening.runAll, outsideOutages, selectOutside, Store.run_off off]
        exact rests
      | true =>
        have rests := ih (call.run policy m).2
        rw [Store.run_available, on] at rests
        simp only [Happening.runAll, outsideOutages, selectOutside, rests.1, rests.2, and_self]

/-- An outage leaves no trace. A call that is made while the store is off leaves the store as it is;
it is refused if it has to reach the store, and answers as on any other store if it does not. The
calls that are made while the store is on answer, and leave the store, as in the run from which
those that are made while it is off are left out. -/
theorem outages_leave_no_trace (m : Store) :
    (∀ (front : List (Happening Incident)) (policy : Policy) (call : Call),
      isOnAfter m.available front = false →
      (call.run policy (Happening.runAll front m).2).2 = (Happening.runAll front m).2 ∧
      (call.NeedsStore → Refused call (call.run policy (Happening.runAll front m).2).1) ∧
      (¬ call.NeedsStore → ∀ other : Store,
        (call.run policy (Happening.runAll front m).2).1 = (call.run policy other).1)) ∧
    ∀ happenings : List (Happening Incident),
      selectOutside m.available happenings (Happening.runAll happenings m).1
          = (Happening.runAll (outsideOutages m.available happenings) m).1 ∧
        (Happening.runAll happenings m).2
          = (Happening.runAll (outsideOutages m.available happenings) m).2 := by
  refine ⟨fun front policy call isOff => ?_, fun happenings => runAll_outsideOutages happenings m⟩
  have off : ¬ (Happening.runAll front m).2.IsOn := by
    simp [Store.IsOn, available_runAll, isOff]
  refine ⟨Store.run_off off policy call, fun needs => Store.run_refused off policy needs,
    fun free other => ?_⟩
  obtain ⟨answer, everywhere⟩ : ∃ answer : Except StoreError call.Answer,
      ∀ store : Store, call.run policy store = (answer, store) := Call.run_of_not_needsStore free
  rw [everywhere, everywhere]

/-- A sequence that is asked for during an outage is refused. -/
theorem sequence_refused_during_outage (policy : Policy) :
    isOnAfter true [.made policy (.nextModSeq "inbox"), .suffered (.switch false)] = false ∧
      Refused (.nextModSeq "inbox") ((Call.nextModSeq "inbox").run policy (Happening.runAll
        [.made policy (.nextModSeq "inbox"), .suffered (.switch false)] (Store.new 1)).2).1 :=
  ⟨rfl, ((outages_leave_no_trace (Store.new 1)).1 _ policy (.nextModSeq "inbox") rfl).2.1 trivial⟩

end Memory

end Mailroom
