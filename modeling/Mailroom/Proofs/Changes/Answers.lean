import Mailroom.Proofs.Changes.Completeness
/-!
What reads of the changes of an account answer.

A client asks for the changes from a state on. What it is told depends on the latest state of the
account and on its live records only: `ReadsLive` gives the answer case by case, and a store that
shows its logs as they stand in a view answers so (`readsLive`). Over runs, the latest state is the
number of changes that were recorded, and the live records are those of the changes that have
outlasted the reads and purges (`changeReads_answered`).
-/

namespace Mailroom

open Service

/-- What a read of the changes of an account from a state on answers, by the latest state of the
account and its live records. -/
inductive ChangesAnswer (account : AccountId) (latest : State) (live : List ChangeRecord)
    (since : State) : Except StoreError (Scanned ChangeRecord) → Prop where
  /-- The state has not been reached. -/
  | beyond (above : latest < since) :
    ChangesAnswer account latest live since (.error (.notFound (.changeState since account)))
  /-- The account has no changes, and is read from its start on. -/
  | untouched (same : since = latest) (initial : latest = .initial) (pages : Nat) :
    ChangesAnswer account latest live since (.ok ⟨[], pages⟩)
  /-- The record of the state, or the first one, is not live. -/
  | stale (reached : since ≤ latest) (touched : ¬ (since = latest ∧ latest = .initial))
      (gone : ¬ ∃ record ∈ live, record.state = max since 1) :
    ChangesAnswer account latest live since (.error (.staleState account since))
  /-- The record of the state, or the first one, is live. -/
  | delivered (reached : since ≤ latest) (touched : ¬ (since = latest ∧ latest = .initial))
      (isLive : ∃ record ∈ live, record.state = max since 1) (pages : Nat) :
    ChangesAnswer account latest live since
      (.ok ⟨(live.filter fun record => since ≤ record.state).map .ok, pages⟩)

/-- How the reads of the changes of an account come out at an instant, by the latest state of the
account and its live records: the read of all records and the read from each state on. -/
structure ReadsLive (account : AccountId) (latest : State) (live : List ChangeRecord)
    (readAll : Except StoreError (Scanned ChangeRecord))
    (readSince : State → Except StoreError (Scanned ChangeRecord)) : Prop where
  /-- A read of all records delivers the live ones. -/
  all : ∃ pages, readAll = .ok ⟨live.map .ok, pages⟩
  /-- A state is unknown exactly if it lies beyond the latest. -/
  notFound_iff : ∀ since,
    readSince since = .error (.notFound (.changeState since account)) ↔ latest < since
  /-- Nothing is delivered exactly to who asks an account without changes from its start on. -/
  empty_iff : ∀ since,
    (∃ pages, readSince since = .ok ⟨[], pages⟩) ↔ since = latest ∧ latest = .initial
  /-- Any other state is stale exactly if its record, or the first one, is not live. -/
  stale_iff : ∀ since, since ≤ latest → ¬ (since = latest ∧ latest = .initial) →
    (readSince since = .error (.staleState account since) ↔
      ¬ ∃ record ∈ live, record.state = max since 1)
  /-- Otherwise the live records from that state on are delivered. -/
  delivered : ∀ since, since ≤ latest → ¬ (since = latest ∧ latest = .initial) →
    (∃ record ∈ live, record.state = max since 1) →
    ∃ pages, readSince since
      = .ok ⟨(live.filter fun record => since ≤ record.state).map .ok, pages⟩

/-- Answers by those rules come out so, for the rules exclude each other. -/
theorem ReadsLive.of_answers {account : AccountId} {latest : State} {live : List ChangeRecord}
    {readAll : Except StoreError (Scanned ChangeRecord)}
    {readSince : State → Except StoreError (Scanned ChangeRecord)}
    (all : ∃ pages, readAll = .ok ⟨live.map .ok, pages⟩)
    (answers : ∀ since, ChangesAnswer account latest live since (readSince since)) :
    ReadsLive account latest live readAll readSince := by
  constructor
  case all => exact all
  case notFound_iff =>
    intro since
    have answered := answers since
    generalize readSince since = answer at answered ⊢
    cases answered with
    | beyond above => simp [above]
    | untouched same initial pages => simp [same]
    | stale reached touched gone => simpa using reached
    | delivered reached touched isLive pages => simpa using reached
  case empty_iff =>
    intro since
    have answered := answers since
    generalize readSince since = answer at answered ⊢
    cases answered with
    | beyond above =>
      simp only [reduceCtorEq, exists_false, false_iff]
      exact fun none => absurd above (Nat.not_lt.mpr (Nat.le_of_eq none.1))
    | untouched same initial pages => simp [same, initial]
    | stale reached touched gone => simpa using touched
    | delivered reached touched isLive pages =>
      refine iff_of_false ?_ touched
      rintro ⟨_, empty⟩
      obtain ⟨record, member, first⟩ := isLive
      have chosen : record ∈ live.filter fun record => since ≤ record.state :=
        List.mem_filter.mpr ⟨member, decide_eq_true (first ▸ Nat.le_max_left since 1)⟩
      simp only [Except.ok.injEq, Scanned.mk.injEq, List.map_eq_nil_iff] at empty
      rw [empty.1] at chosen
      cases chosen
  case stale_iff =>
    intro since reached touched
    have answered := answers since
    generalize readSince since = answer at answered ⊢
    cases answered with
    | beyond above => exact absurd above (Nat.not_lt.mpr reached)
    | untouched same initial pages => exact absurd ⟨same, initial⟩ touched
    | stale reached touched gone => exact iff_of_true rfl gone
    | delivered reached touched isLive pages => simpa using isLive
  case delivered =>
    intro since reached touched isLive
    have answered := answers since
    generalize readSince since = answer at answered ⊢
    cases answered with
    | beyond above => exact absurd above (Nat.not_lt.mpr reached)
    | untouched same initial pages => exact absurd ⟨same, initial⟩ touched
    | stale reached touched gone => exact absurd isLive gone
    | delivered reached touched isLive pages => exact ⟨pages, rfl⟩

/-! ### Reads of a store -/

/-- The least possible key is that of the first element exactly if some element has it. -/
theorem head?_key_iff {α : Type} {key : α → Nat} {least : Nat} {xs : List α}
    (ascending : xs.Pairwise fun x later => key x < key later) (bounded : ∀ x ∈ xs, least ≤ key x) :
    xs.head?.map key = some least ↔ ∃ x ∈ xs, key x = least := by
  cases xs with
  | nil => simp
  | cons first rest =>
    obtain ⟨before, -⟩ := List.pairwise_cons.mp ascending
    simp only [List.head?_cons, Option.map_some, Option.some.injEq]
    constructor
    · intro same
      exact ⟨first, List.mem_cons_self, same⟩
    · rintro ⟨x, member, same⟩
      rcases List.mem_cons.mp member with rfl | later
      · exact same
      · have below := before x later
        have reached := bounded first List.mem_cons_self
        omega

namespace Logged

variable {σ : Type} [Storage σ] [Sound σ] [Logged σ] {store : σ} {policy : Policy}
  {account : AccountId} {since : State} {now : Instant} {live records : List ChangeRecord}

/-- What is read of the live records from a state on is part of what is read of all. -/
theorem readable_since (sound : isSound store) (since : State)
    (readable : ((log store).live account .initial now).mapM LogRow.outcome = .ok live) :
    ((log store).live account since now).mapM LogRow.outcome
      = .ok (live.filter fun record => since ≤ record.state) := by
  have part : (log store).live account since now
      = ((log store).live account .initial now).filter fun row => since ≤ row.state := by
    unfold LogView.live
    rw [List.filter_filter]
    refine List.filter_congr fun row _ => ?_
    have first : decide (State.initial ≤ row.state) = true := decide_eq_true (Nat.zero_le _)
    rw [first, Bool.true_and]
  rw [part]
  refine Outcomes.mapM_filter_of_eq_ok (fun row member record answered => ?_) readable
  rw [(ordered store sound).states account row (LogView.mem_live.mp member).1 record answered]

/-- The records that are read have the states of the live ones, in the same order. -/
theorem readable_states (sound : isSound store)
    (readable : ((log store).live account since now).mapM LogRow.outcome = .ok records) :
    records.map ChangeRecord.state = ((log store).live account since now).map LogRow.state :=
  Outcomes.map_of_mapM_eq_ok
    (fun row member => (ordered store sound).states account row (LogView.mem_live.mp member).1)
    readable

/-- The records that are read are in ascending order and lie from the first state on. -/
theorem readable_ascending (sound : isSound store)
    (readable : ((log store).live account since now).mapM LogRow.outcome = .ok records) :
    (records.Pairwise fun record later => record.state < later.state) ∧
      ∀ record ∈ records, max since 1 ≤ record.state ∧
        record.state ≤ (log store).latest account := by
  constructor
  · rw [← List.pairwise_map (R := (· < ·)), readable_states sound readable, List.pairwise_map]
    exact LogView.live_ascending (ordered store sound)
  · intro record member
    obtain ⟨row, present, answered⟩ := (Outcomes.mem_of_mapM_eq_ok readable).1 record member
    obtain ⟨kept, reached, -⟩ := LogView.mem_live.mp present
    obtain ⟨first, last⟩ := (ordered store sound).bounded account row kept
    rw [(ordered store sound).states account row kept record answered]
    exact ⟨Nat.max_le.mpr ⟨reached, first⟩, last⟩

/-- A read from a state on that was reached is started if the record of that state, or the first
one, is live, and otherwise the state is stale. -/
theorem changesFrom_reached (sound : isSound store) (policy : Policy)
    (room : (log store).latest account < maxWord) {limit : Option Nat} (wanted : limit ≠ some 0)
    (readable : ((log store).live account since now).mapM LogRow.outcome = .ok records)
    (reached : since ≤ (log store).latest account)
    (touched : ¬ (since = State.initial ∧ (log store).latest account = State.initial)) :
    ((∃ record ∈ records, record.state = max since 1) →
      ∃ scan, changesFrom policy account since limit now store = (.ok scan, store)) ∧
    ((¬ ∃ record ∈ records, record.state = max since 1) →
      changesFrom policy account since limit now store
        = (.error (.staleState account since), store)) := by
  obtain ⟨found, read, latest⟩ := heads store sound account
  obtain ⟨paging, primes, buffer⟩ :=
    Paging.prime_of_decoded (changeSource_serves sound room since now) readable policy.batch wanted
  have first : primed (Scan.start (changeSource account since now) policy.batch limit) store
      = (.ok ⟨changeSource account since now, paging⟩, store) := by
    unfold primed Scan.prime Scan.start
    simp only
    rw [primes]
  have boundary : (if since = State.initial then since.next else since) = max since 1 := by
    split
    · rename_i initial
      rw [initial]
      decide
    · rename_i other
      exact (Nat.max_eq_left (Nat.one_le_iff_ne_zero.mpr other)).symm
  obtain ⟨ascending, bounded⟩ := readable_ascending sound readable
  have head : (paging.buffer.head?.map ChangeRecord.state) = some (max since 1) ↔
      ∃ record ∈ records, record.state = max since 1 := by
    rw [buffer]
    exact head?_key_iff ascending fun record member => (bounded record member).1
  unfold changesFrom
  rw [Step.bind_of_ok read]
  simp only [latest]
  rw [if_neg (Nat.not_lt.mpr reached), if_neg touched, Step.bind_of_ok first, boundary]
  simp only [head]
  constructor
  · intro isLive
    rw [if_pos isLive]
    exact ⟨_, rfl⟩
  · intro isStale
    rw [if_neg isStale]
    rfl

/-- A read from a state on that was not reached fails. -/
theorem changesFrom_beyond (sound : isSound store) (limit : Option Nat)
    (above : (log store).latest account < since) :
    changesFrom policy account since limit now store
      = (.error (.notFound (.changeState since account)), store) := by
  obtain ⟨found, read, latest⟩ := heads store sound account
  unfold changesFrom
  rw [Step.bind_of_ok read]
  simp only [latest]
  rw [if_pos above]
  rfl

/-- A read of an account without changes from its start on is over before it starts. -/
theorem changesFrom_untouched (sound : isSound store) (policy : Policy) (limit : Option Nat)
    (now : Instant) (initial : (log store).latest account = State.initial) :
    changesFrom policy account .initial limit now store
      = (.ok (Scan.start (changeSource account .initial now) policy.batch (some 0)), store) := by
  obtain ⟨found, read, latest⟩ := heads store sound account
  unfold changesFrom
  rw [Step.bind_of_ok read]
  simp only [latest, initial]
  rfl

omit [Sound σ] [Logged σ] in
theorem changesSince_of_error {e : StoreError}
    (fails : changesFrom policy account since none now store = (.error e, store)) :
    ((Call.changesSince account since now).run policy store).1 = .error e := by
  show ((changesFrom policy account since none now >>= Call.drained) store).1 = _
  rw [Step.bind_of_error fails]
  rfl

omit [Sound σ] [Logged σ] in
theorem changesSince_of_ok {scan : Scan σ State ChangeRecord}
    (starts : changesFrom policy account since none now store = (.ok scan, store)) :
    ((Call.changesSince account since now).run policy store).1 = (Call.drained scan store).1 := by
  show ((changesFrom policy account since none now >>= Call.drained) store).1 = _
  rw [Step.bind_of_ok starts]

/-- A store whose live records can be read answers by the rules. -/
theorem changesSince_answers [PureReads σ] (sound : isSound store)
    (room : (log store).latest account < maxWord)
    (readable : ((log store).live account .initial now).mapM LogRow.outcome = .ok live) :
    ChangesAnswer account ((log store).latest account) live since
      ((Call.changesSince account since now).run policy store).1 := by
  have readable' := readable_since sound since readable
  have isLive_iff : (∃ record ∈ live.filter fun record => since ≤ record.state,
      record.state = max since 1) ↔ ∃ record ∈ live, record.state = max since 1 := by
    constructor
    · rintro ⟨record, member, same⟩
      exact ⟨record, (List.mem_filter.mp member).1, same⟩
    · rintro ⟨record, member, same⟩
      refine ⟨record, List.mem_filter.mpr ⟨member, decide_eq_true ?_⟩, same⟩
      exact same ▸ Nat.le_max_left since 1
  rcases Nat.lt_or_ge ((log store).latest account) since with above | reached
  · rw [changesSince_of_error (changesFrom_beyond sound none above)]
    exact .beyond above
  by_cases untouched : since = (log store).latest account ∧ (log store).latest account = .initial
  · obtain ⟨rfl, initial⟩ := untouched
    have starts := changesFrom_untouched sound policy none now initial
    rw [← initial] at starts
    rw [changesSince_of_ok starts]
    have ended : ((Paging.start policy.batch (some 0) : Paging State ChangeRecord).rest
        (changeSource account ((log store).latest account) now) (Storage.extent store) store).1
          = [] := Paging.rest_of_over rfl rfl _
    unfold Call.drained drain Scan.rest Scan.start
    simp only [ended]
    exact .untouched rfl initial _
  have touched : ¬ (since = State.initial ∧ (log store).latest account = State.initial) := by
    rintro ⟨start, initial⟩
    exact untouched ⟨start.trans initial.symm, initial⟩
  have unlimited : (none : Option Nat) ≠ some 0 := by simp
  obtain ⟨starts, stale⟩ :=
    changesFrom_reached sound policy room unlimited readable' reached touched
  rw [isLive_iff] at starts stale
  by_cases isLive : ∃ record ∈ live, record.state = max since 1
  · obtain ⟨scan, starts⟩ := starts isLive
    obtain ⟨scanned, drains⟩ : ∃ scanned : Scanned ChangeRecord,
      (Call.drained scan store).1 = .ok scanned := ⟨_, rfl⟩
    have done : ((Call.changesSince account since now).run policy store).1 = .ok scanned :=
      (changesSince_of_ok starts).trans drains
    have rows := (changesSince_delivered sound room done).2.eq_of_decoded readable'
    obtain ⟨delivered, pages⟩ := scanned
    cases rows
    rw [done]
    exact .delivered reached untouched isLive pages
  · rw [changesSince_of_error (stale isLive)]
    exact .stale reached untouched isLive

/-- Reads of such a store come out by the latest state and the live records. -/
theorem readsLive [PureReads σ] (sound : isSound store)
    (room : (log store).latest account < maxWord)
    (readable : ((log store).live account .initial now).mapM LogRow.outcome = .ok live) :
    ReadsLive account ((log store).latest account) live
      ((Call.allChanges account now).run policy store).1
      fun since => ((Call.changesSince account since now).run policy store).1 := by
  obtain ⟨⟨delivered, pages⟩, drains⟩ : ∃ scanned : Scanned ChangeRecord,
    ((Call.allChanges account now).run policy store).1 = .ok scanned := ⟨_, rfl⟩
  have rows := (allChanges_delivered sound room drains).eq_of_decoded readable
  cases rows
  exact .of_answers ⟨pages, drains⟩ fun since => changesSince_answers sound room readable

end Logged

/-! ### Reads after runs -/

/-- After calls under policies of their own, the reads of the changes of an account come out by the
changes that the calls recorded. These have the states up to the latest one, and the live records
are those of the changes that have lasted, each as the store shows it. -/
structure ReadsRecorded {σ : Type} [Storage σ] (start : σ) (steps : List (Policy × Call))
    (account : AccountId) (shown : ChangeDraft → ChangeDraft)
    (lasts : Instant → Policy × Change → Prop) (latest : State) : Prop where
  told : ∀ policy,
    ((Call.latestState account).run policy (Call.runUnder steps start)).1 = .ok latest
  states : (recordsOf account steps start).map (fun entry => entry.2.state) = List.range' 1 latest
  reads : ∀ (policy : Policy) (now : Instant), ∃ live : List ChangeRecord,
    (live.Pairwise fun record later => record.state < later.state) ∧
      (∀ record, record ∈ live ↔ ∃ entry ∈ recordsOf account steps start,
        lasts now entry ∧ (shown entry.2.draft).record entry.2.state = record) ∧
      ReadsLive account latest live
        ((Call.allChanges account now).run policy (Call.runUnder steps start)).1
        fun since =>
          ((Call.changesSince account since now).run policy (Call.runUnder steps start)).1

namespace Recorded

open Logged

variable {σ : Type} [Storage σ] [Sound σ] [Recorded σ] [Revised σ] [PureReads σ]
  {account : AccountId} {start : σ} {steps : List (Policy × Call)}

/-- If the records of the changes of an account can be read, the records that are live after a run
are read as those of the changes that have outlasted it. -/
theorem readable_of_records (blank : IsBlank start)
    (room : (log (Call.runUnder steps start)).latest account < maxWord)
    (readable : ∀ entry ∈ recordsOf account steps start,
      ∃ record, (row σ entry.1 entry.2).outcome = .ok record) (now : Instant) :
    ((log (Call.runUnder steps start)).live account .initial now).mapM LogRow.outcome
      = .ok (((recordsOf account steps start).filter fun entry =>
          lasts σ entry.1 [now] entry.2).map fun entry =>
            (shown σ entry.2.draft).record entry.2.state) := by
  have all : (recordsOf account steps start).filter (fun entry => State.initial ≤ entry.2.state)
      = recordsOf account steps start :=
    List.filter_eq_self.mpr fun entry _ => decide_eq_true (Nat.zero_le _)
  rw [live_of_records blank room, all, List.mapM_map]
  refine Outcomes.mapM_of_forall_ok fun entry member => ?_
  obtain ⟨record, answered⟩ := readable entry (List.mem_filter.mp member).1
  exact answered.trans (congrArg Except.ok (outcome_kept _ _ _ _ answered))

/-- Reads after a run come out by the changes that were recorded, if their records can be read. -/
theorem readsRecorded (blank : IsBlank start) {survives : Instant → Policy × Change → Prop}
    (surviving : ∀ now entry, survives now entry ↔ lasts σ entry.1 [now] entry.2 = true)
    (room : (log (Call.runUnder steps start)).latest account < maxWord)
    (readable : ∀ entry ∈ recordsOf account steps start,
      ∃ record, (row σ entry.1 entry.2).outcome = .ok record) :
    ReadsRecorded start steps account (shown σ) survives
      ((log (Call.runUnder steps start)).latest account) := by
  have sound := runUnder_sound blank.sound steps
  obtain ⟨latest, states, -⟩ := run_records blank.sound steps room
  rw [blank.latest account] at latest states
  constructor
  · intro policy
    exact latestState_eq sound policy account
  · have count : (log (Call.runUnder steps start)).latest account
        = (recordsOf account steps start).length := latest.trans (Nat.zero_add _)
    rw [count]
    exact states
  · intro policy now
    have live := readable_of_records blank room readable now
    refine ⟨_, (readable_ascending sound live).1, fun record => ?_, readsLive sound room live⟩
    simp only [List.mem_map, List.mem_filter, surviving, and_assoc]

end Recorded

/-- Reads of the changes of an account come out by the changes that were recorded, as long as the
states have not run out in memory and the dates of the changes can be read in the database. There a
record has its date as it is written, and is live until the millisecond in which it expires. -/
theorem changeReads_answered (path : String) (listBound : Nat) (steps : List (Policy × Call))
    (account : AccountId) :
    ((recordsOf account steps (Memory.Store.new listBound)).length < maxWord →
      ∃ latest, ReadsRecorded (Memory.Store.new listBound) steps account id (fun now entry =>
        entry.2.Outlasts entry.1 (fun t expiry => t.isBefore expiry = true) now) latest) ∧
    ((∀ entry ∈ recordsOf account steps (Database.Store.new path listBound),
        entry.2.draft.date.HasPlainYear) →
      ∃ latest, ReadsRecorded (Database.Store.new path listBound) steps account
        ChangeDraft.asWritten (fun now entry =>
          entry.2.Outlasts entry.1 (fun t expiry => t.millis < expiry.millis) now) latest) := by
  constructor
  · intro few
    exact ⟨_, Recorded.readsRecorded (Memory.Store.new_isBlank listBound)
      (fun _ _ => Memory.Store.lasts_iff.symm) (Memory.Store.states_left few) fun _ _ => ⟨_, rfl⟩⟩
  · intro plain
    exact ⟨_, Recorded.readsRecorded (Mirror.new_isBlank path listBound)
      (fun _ _ => Mirror.lasts_iff.symm) (Mirror.states_left path listBound steps account)
      fun entry member => Mirror.outcome_iff.mpr (plain entry member)⟩

/-- Changes of an account of which the second is kept for a second only, and a purge. -/
def keptUnlike : List (Policy × Call) :=
  [(⟨1, none⟩, .recordChange { account := "bob", date := .epoch }),
    (⟨2, some 1000⟩, .recordChange { account := "bob", date := .epoch }),
    (⟨2, some 1000⟩, .recordChange { account := "bob", date := someTimeLater }),
    (⟨1, none⟩, .purgeExpired someTimeLater)]

theorem changeReads_answered_keptUnlike :
    (∃ latest, ReadsRecorded (Memory.Store.new 1) keptUnlike "bob" id (fun now entry =>
        entry.2.Outlasts entry.1 (fun t expiry => t.isBefore expiry = true) now) latest) ∧
      ∃ latest, ReadsRecorded (Database.Store.new "mail" 1) keptUnlike "bob"
        ChangeDraft.asWritten (fun now entry =>
          entry.2.Outlasts entry.1 (fun t expiry => t.millis < expiry.millis) now) latest := by
  have recorded : (recordsOf "bob" keptUnlike (Memory.Store.new 1)).length = 3 := by
    decide +kernel
  have dates : (recordsOf "bob" keptUnlike (Database.Store.new "mail" 1)).map
      (fun entry => entry.2.draft.date) = [.epoch, .epoch, someTimeLater] := by
    decide +kernel
  constructor
  · refine (changeReads_answered "mail" 1 keptUnlike "bob").1 ?_
    rw [recorded]
    decide
  · refine (changeReads_answered "mail" 1 keptUnlike "bob").2 fun entry member => ?_
    have listed : entry.2.draft.date ∈ [Instant.epoch, Instant.epoch, someTimeLater] := by
      rw [← dates]
      exact List.mem_map_of_mem member
    have plain : ∀ date ∈ [Instant.epoch, Instant.epoch, someTimeLater], date.HasPlainYear := by
      unfold Instant.HasPlainYear
      decide +kernel
    exact plain _ listed

end Mailroom
