import Mailroom.Proofs.Memory.Logs
import Mailroom.Proofs.Mirror.Logs
/-!
When a read of the changes from a state on is complete.

Only the record of the state asked for is looked at before such a read. Each record expires on its
own, and its date is chosen by the caller. So a later record may have expired while the first one is
live, and the read then leaves it out without a word (`expiredBetween_leaves_gap`). The states that
a read delivers are the consecutive ones up to the latest exactly if every change from that state on
has outlasted the read and all purges before it and, in the database, can be read back
(`deltas_complete_iff`).
-/

namespace Mailroom

open Service

/-! ### The changes of a run -/

/-- The states from one on. -/
theorem filter_range' (since n : Nat) : (List.range' 1 n).filter (since ≤ ·)
    = List.range' (max since 1) (n + 1 - max since 1) := by
  induction n with
  | zero =>
    rw [Nat.sub_eq_zero_of_le (Nat.le_max_right since 1)]
    rfl
  | succ n ih =>
    rw [List.range'_1_concat, List.filter_append, ih]
    by_cases reached : since ≤ 1 + n
    · have count : n + 1 + 1 - max since 1 = (n + 1 - max since 1) + 1 := by omega
      have last : max since 1 + (n + 1 - max since 1) = 1 + n := by omega
      rw [count, List.range'_1_concat, last]
      simp [reached]
    · have none : n + 1 - max since 1 = 0 := by omega
      have none' : n + 1 + 1 - max since 1 = 0 := by omega
      rw [none, none']
      simp [reached]

/-- What is delivered of the records of some changes are the states of all the changes exactly if
every change has its record there and that can be read. -/
theorem Delivered.states_eq_iff {changes : List Change} {keep : Change → Bool}
    {row : Change → LogRow} {answers : List (Except StoreError ChangeRecord)}
    (delivered : Delivered LogRow.outcome ((changes.filter keep).map row) answers)
    (named : ∀ change, (row change).state = change.state)
    (keeps : ∀ kept ∈ (changes.filter keep).map row, ∀ record, kept.outcome = .ok record →
      record.state = kept.state) :
    answers.map (Except.map ChangeRecord.state) = (changes.map Change.state).map .ok ↔
      ∀ change ∈ changes, keep change = true ∧ ∃ record, (row change).outcome = .ok record := by
  cases delivered with
  | @all answers decoded =>
    have states : answers.map ChangeRecord.state = (changes.filter keep).map Change.state := by
      rw [Outcomes.map_of_mapM_eq_ok keeps decoded, List.map_map]
      exact List.map_congr_left fun change _ => named change
    have read : (answers.map Except.ok).map (Except.map ChangeRecord.state)
        = ((changes.filter keep).map Change.state).map
          (Except.ok : State → Except StoreError State) := by
      rw [← states, List.map_map, List.map_map]
      rfl
    rw [read]
    constructor
    · intro same change member
      -- As many are chosen as there are, so all of them are.
      have length := congrArg List.length same
      simp only [List.length_map, List.length_filter_eq_length_iff] at length
      refine ⟨length change member, ?_⟩
      obtain ⟨record, -, answer⟩ := (Outcomes.mem_of_mapM_eq_ok decoded).2 (row change)
        (List.mem_map_of_mem (List.mem_filter.mpr ⟨member, length change member⟩))
      exact ⟨record, answer⟩
    · intro all
      rw [List.filter_eq_self.mpr fun change member => (all change member).1]
  | @part front back answers e split decoded fails =>
    refine iff_of_false (fun same => ?_) fun all => ?_
    · have error : Except.error e ∈ (answers.map Except.ok ++ [Except.error e]).map
          (Except.map ChangeRecord.state) :=
        List.mem_map_of_mem (List.mem_append_right _ List.mem_cons_self)
      rw [same] at error
      obtain ⟨_, -, absurd⟩ := List.mem_map.mp error
      cases absurd
    · obtain ⟨failing, member, fails⟩ := fails
      have listed : failing ∈ (changes.filter keep).map row := by
        rw [split]
        exact List.mem_append_right _ member
      obtain ⟨change, chosen, rfl⟩ := List.mem_map.mp listed
      obtain ⟨record, answer⟩ := (all change (List.mem_filter.mp chosen).1).2
      exact fails record answer

namespace Recorded

open Logged

variable {σ : Type} [Storage σ] [Sound σ] [Recorded σ] [Revised σ] [PureReads σ]
  {policy : Policy} {account : AccountId} {since : State} {now : Instant} {start : σ}

/-- A sound store without changes. -/
structure IsBlank (start : σ) : Prop where
  sound : isSound start
  latest : ∀ account, (log start).latest account = .initial
  rows : ∀ account, (log start).rows account = []

/-- The records that are live after calls under policies of their own are those of the changes that
have outlasted the calls. -/
theorem live_of_records (blank : IsBlank start) {steps : List (Policy × Call)}
    (room : (log (Call.runUnder steps start)).latest account < maxWord) :
    (log (Call.runUnder steps start)).live account since now
      = (((recordsOf account steps start).filter fun entry => since ≤ entry.2.state).filter
          fun entry => lasts σ entry.1 [now] entry.2).map fun entry => row σ entry.1 entry.2 := by
  have records := (run_records blank.sound steps room).rows
  rw [blank.rows account, List.filter_nil, List.nil_append] at records
  unfold LogView.live
  rw [records, List.filter_map, List.filter_filter, List.filter_filter]
  refine congrArg _ (List.filter_congr fun entry _ => ?_)
  have state : (row σ entry.1 entry.2).state = entry.2.state := state_kept _ _ _
  show ((decide (since ≤ (row σ entry.1 entry.2).state) && (row σ entry.1 entry.2).isLive now)
    && entry.2.purges.all (row σ entry.1 entry.2).isLive) = _
  rw [state]
  show _ = ((row σ entry.1 entry.2).isLive now
    && entry.2.purges.all (row σ entry.1 entry.2).isLive && decide (since ≤ entry.2.state))
  rw [Bool.and_assoc, Bool.and_comm]

variable {calls : List Call} (blank : IsBlank start)
  (room : (log (Call.runAll policy calls start).2).latest account < maxWord)

include blank room

/-- The same for calls under one policy. -/
theorem live_of_run : (log (Call.runAll policy calls start).2).live account since now
    = (((changesOf policy account calls start).filter fun change => since ≤ change.state).filter
        (lasts σ policy [now])).map (row σ policy) := by
  rw [← Call.runUnder_map] at room ⊢
  rw [live_of_records blank room, recordsOf_map, List.filter_map, List.filter_map, List.map_map]
  rfl

/-- The changes from a state on have the consecutive states up to the latest. -/
theorem states_of_run : ((changesOf policy account calls start).filter
      fun change => since ≤ change.state).map Change.state
    = List.range' (max since 1)
      ((log (Call.runAll policy calls start).2).latest account + 1 - max since 1) := by
  have history := run_history blank.sound calls room
  have latest : _ = 0 + _ := blank.latest account ▸ history.latest
  have states : _ = List.range' (0 + 1) _ := blank.latest account ▸ history.states
  rw [Nat.zero_add] at latest
  rw [latest, ← filter_range', ← states, List.filter_map]
  rfl

/-- A read that was started is complete exactly if all changes from its state on have outlasted it
and can be read. -/
theorem complete_iff {scanned : Scanned ChangeRecord}
    (done : ((Call.changesSince account since now).run policy
      (Call.runAll policy calls start).2).1 = .ok scanned) :
    scanned.rows.map (Except.map ChangeRecord.state) = (List.range' (max since 1)
        ((log (Call.runAll policy calls start).2).latest account + 1 - max since 1)).map .ok ↔
      ∀ change ∈ changesOf policy account calls start, since ≤ change.state →
        lasts σ policy [now] change = true ∧
          ∃ record, (row σ policy change).outcome = .ok record := by
  have sound : isSound (Call.runAll policy calls start).2 :=
    Call.runAll_sound policy calls blank.sound
  obtain ⟨-, delivered⟩ := changesSince_delivered sound room done
  have keeps : ∀ row ∈ (log (Call.runAll policy calls start).2).live account since now, ∀ record,
      row.outcome = .ok record → record.state = row.state := fun row member =>
    (ordered _ sound).states account row (LogView.mem_live.mp member).1
  rw [live_of_run blank room] at delivered keeps
  rw [← states_of_run blank room, delivered.states_eq_iff (fun _ => state_kept _ _ _) keeps]
  simp only [List.mem_filter, decide_eq_true_eq, and_imp]

end Recorded

/-! ### The two stores -/

/-- The record of a change outlasts a read, and every purge before it, if each of them came before
it expired. -/
def Change.Outlasts (policy : Policy) (before : Instant → Instant → Prop) (now : Instant)
    (change : Change) : Prop :=
  ∀ t ∈ now :: change.purges, ∀ expiry ∈ policy.expiry change.draft.date, before t expiry

/-- After every run, a read of the changes from a state on that is started delivers the consecutive
states up to the latest exactly if every change from that state on survives until then. -/
def DeltasCompleteIff {σ : Type} [Storage σ] (policy : Policy) (start : σ)
    (survives : Instant → Change → Prop) : Prop :=
  ∀ (calls : List Call) (account : AccountId) (since : State) (now : Instant) (latest : State)
      (scanned : Scanned ChangeRecord),
    ((Call.latestState account).run policy (Call.runAll policy calls start).2).1 = .ok latest →
    latest < maxWord →
    ((Call.changesSince account since now).run policy (Call.runAll policy calls start).2).1
      = .ok scanned →
    (scanned.rows.map (Except.map ChangeRecord.state)
        = (List.range' (max since 1) (latest + 1 - max since 1)).map .ok ↔
      ∀ change ∈ changesOf policy account calls start, since ≤ change.state → survives now change)

namespace Recorded

open Logged

/-- The latest state of an account is told. -/
theorem latestState_eq {σ : Type} [Storage σ] [Sound σ] [Recorded σ] {store : σ}
    (sound : isSound store) (policy : Policy) (account : AccountId) :
    ((Call.latestState account).run policy store).1 = .ok ((log store).latest account) := by
  obtain ⟨found, read, latest⟩ := heads store sound account
  show ((Storage.heads account >>= fun heads => pure heads.latest) store).1 = _
  rw [Step.bind_of_ok read, ← latest]
  rfl

/-- Deltas are complete if the records of changes are there and can be read. -/
theorem deltasCompleteIff {σ : Type} [Storage σ] [Sound σ] [Recorded σ] [Revised σ] [PureReads σ]
    {start : σ} (blank : IsBlank start) {policy : Policy} {survives : Instant → Change → Prop}
    (surviving : ∀ now change, survives now change ↔
      lasts σ policy [now] change = true ∧ ∃ record, (row σ policy change).outcome = .ok record) :
    DeltasCompleteIff policy start survives := by
  intro calls account since now latest scanned told room done
  have sound : isSound (Call.runAll policy calls start).2 :=
    Call.runAll_sound policy calls blank.sound
  rw [latestState_eq sound] at told
  cases told
  rw [complete_iff blank room done]
  simp only [surviving]

end Recorded

section Stores

theorem Memory.Store.new_isBlank (listBound : Nat) :
    Recorded.IsBlank (Memory.Store.new listBound) :=
  ⟨Memory.Store.new_isSound listBound, fun _ => rfl, fun _ => rfl⟩

theorem Mirror.new_isBlank (path : String) (listBound : Nat) :
    Recorded.IsBlank (Database.Store.new path listBound) :=
  ⟨Mirror.new_isSound path listBound, fun _ => rfl, fun _ => rfl⟩

/-- In memory the states do not run out before there are as many changes. -/
theorem Memory.Store.states_left {listBound : Nat} {steps : List (Policy × Call)}
    {account : AccountId}
    (few : (recordsOf account steps (Memory.Store.new listBound)).length < maxWord) :
    (Logged.log (Call.runUnder steps (Memory.Store.new listBound))).latest account < maxWord := by
  have blank := Memory.Store.new_isBlank listBound
  have counted := Recorded.latest_runUnder_le blank.sound account steps
  rw [blank.latest account, State.initial, Nat.zero_add] at counted
  exact Nat.lt_of_le_of_lt counted few

/-- In the database the states do not run out. -/
theorem Mirror.states_left (path : String) (listBound : Nat) (steps : List (Policy × Call))
    (account : AccountId) :
    (Logged.log (Call.runUnder steps (Database.Store.new path listBound))).latest account
      < maxWord := by
  obtain ⟨-, -, -, written⟩ :=
    Recorded.runUnder_sound (Mirror.new_isBlank path listBound).sound steps
  exact Nat.lt_of_le_of_lt (written.latest_le account) (by decide)

variable {policy : Policy} {now : Instant} {change : Change}

/-- In memory a record is live until it expires. -/
theorem Memory.Store.lasts_iff : Recorded.lasts Memory.Store policy [now] change = true ↔
    change.Outlasts policy (fun t expiry => t.isBefore expiry = true) now := by
  unfold Recorded.lasts Change.Outlasts
  rw [List.all_eq_true]
  refine forall₂_congr fun t _ => ?_
  show ((policy.expiry change.draft.date).all fun expiry => t.isBefore expiry) = true ↔ _
  rw [Option.all_eq_true]
  rfl

/-- In the database a record is live until the millisecond in which it expires. -/
theorem Mirror.lasts_iff : Recorded.lasts Database.Store policy [now] change = true ↔
    change.Outlasts policy (fun t expiry => t.millis < expiry.millis) now := by
  unfold Recorded.lasts Change.Outlasts
  rw [List.all_eq_true]
  refine forall₂_congr fun t _ => ?_
  show (Database.ChangeRow.ofDraft change.draft (policy.expiry change.draft.date)).isLive t.millis
    = true ↔ _
  unfold Database.ChangeRow.isLive Database.ChangeRow.ofDraft
  cases policy.expiry change.draft.date with
  | none => simp
  | some expiry => simp [Database.Cell.isAbove_integer]

/-- In the database a record can be read if the year of its date is plain. -/
theorem Mirror.outcome_iff : (∃ record, (Recorded.row Database.Store policy change).outcome
    = .ok record) ↔ change.draft.date.HasPlainYear := by
  refine ⟨fun ⟨_, answer⟩ => (Mirror.outcome_eq_ok_iff.mp answer).1, fun plain => ?_⟩
  exact ⟨_, Mirror.outcome_eq_ok_iff.mpr ⟨plain, rfl⟩⟩

end Stores

/-- A read of the changes from a state on is complete exactly if every change from that state on has
outlasted it, in the database to the millisecond and with a date of a plain year. -/
theorem deltas_complete_iff (policy : Policy) (path : String) (listBound : Nat) :
    DeltasCompleteIff policy (Memory.Store.new listBound) (fun now change =>
        change.Outlasts policy (fun t expiry => t.isBefore expiry = true) now) ∧
      DeltasCompleteIff policy (Database.Store.new path listBound) fun now change =>
        change.Outlasts policy (fun t expiry => t.millis < expiry.millis) now ∧
          change.draft.date.HasPlainYear := by
  constructor
  · refine Recorded.deltasCompleteIff (Memory.Store.new_isBlank listBound) ?_
    intro now change
    rw [Memory.Store.lasts_iff]
    exact (and_iff_left ⟨_, rfl⟩).symm
  · refine Recorded.deltasCompleteIff (Mirror.new_isBlank path listBound) ?_
    intro now change
    rw [Mirror.lasts_iff, Mirror.outcome_iff]

/-- An instant later than the first by more than a second. -/
def someTimeLater : Instant := ⟨86400, 0, by decide, Instant.epoch.nano_valid⟩

/-- Changes of which the second has an early date. -/
def expiredBetween : List Call :=
  [.recordChange { account := "bob", date := someTimeLater },
    .recordChange { account := "bob", date := .epoch },
    .recordChange { account := "bob", date := someTimeLater }]

/-- After those changes, which are kept for a second: the latest state, and the states that a read
from the first one on delivers. -/
def deltaAfter {σ : Type} [Storage σ] (start : σ) : Option State × Option (List (Option State)) :=
  let policy : Policy := ⟨1, some 1000⟩
  let store := (Call.runAll policy expiredBetween start).2
  (((Call.latestState "bob").run policy store).1.toOption,
    ((Call.changesSince "bob" 1 someTimeLater).run policy store).1.toOption.map fun scanned =>
      scanned.rows.map fun row => row.toOption.map ChangeRecord.state)

/-- The latest state is the third, but the second is missing from what is delivered. -/
theorem expiredBetween_leaves_gap :
    deltaAfter (Memory.Store.new 1) = (some 3, some [some 1, some 3]) ∧
      deltaAfter (Database.Store.new "mail" 1) = (some 3, some [some 1, some 3]) := by
  constructor
  · decide +kernel
  · decide +kernel

end Mailroom
