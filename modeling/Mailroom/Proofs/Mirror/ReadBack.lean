import Mailroom.Proofs.Changes.Completeness
/-!
Reading back what was written to a database.

A write accepts every instant, but an instant is read back only if its year is written with four
digits, and as it was only if it has a plain second. So a row is found again after an append exactly
if its two dates are plain in both ways. A page of records cannot be read if one of them cannot, so a
change is delivered again after it was recorded exactly if every live record of its account has a
plain year, and it a plain second (`writes_readBack`).
-/

namespace Mailroom

open Service

/-- The record that comes last is delivered exactly if all can be read: one that cannot be read ends
the delivery before the last comes. -/
theorem Delivered.mem_last_iff {rows : List LogRow}
    {answers : List (Except StoreError ChangeRecord)}
    (delivered : Delivered LogRow.outcome rows answers)
    (ascending : rows.Pairwise fun row later => row.state < later.state)
    (named : ∀ row ∈ rows, ∀ record, row.outcome = .ok record → record.state = row.state)
    {last : LogRow} (present : last ∈ rows) {record : ChangeRecord}
    (read : ∀ answer, last.outcome = .ok answer → answer = record)
    (greatest : ∀ row ∈ rows, row.state ≤ record.state) :
    .ok record ∈ answers ↔ ∀ row ∈ rows, ∃ record, row.outcome = .ok record := by
  cases delivered with
  | @all answers decoded =>
    refine iff_of_true (List.mem_map_of_mem ?_) fun row member => ?_
    · obtain ⟨answer, member, answered⟩ := (Outcomes.mem_of_mapM_eq_ok decoded).2 last present
      rwa [read answer answered] at member
    · obtain ⟨answer, -, answered⟩ := (Outcomes.mem_of_mapM_eq_ok decoded).2 row member
      exact ⟨answer, answered⟩
  | @part front back answers e split decoded fails =>
    obtain ⟨failing, member, fails⟩ := fails
    have listed : failing ∈ rows := by
      rw [split]
      exact List.mem_append_right _ member
    refine iff_of_false (fun found => ?_) fun all => ?_
    · have found : record ∈ answers := by
        rcases List.mem_append.mp found with found | found
        · obtain ⟨_, found, same⟩ := List.mem_map.mp found
          cases same
          exact found
        · cases List.mem_singleton.mp found
      obtain ⟨row, inFront, answered⟩ := (Outcomes.mem_of_mapM_eq_ok decoded).1 record found
      have inRows : row ∈ rows := by
        rw [split]
        exact List.mem_append_left _ inFront
      have state : record.state = row.state := named row inRows record answered
      rw [split] at ascending
      have before : row.state < failing.state :=
        (List.pairwise_append.mp ascending).2.2 row inFront failing member
      have bounded : failing.state ≤ record.state := greatest failing listed
      exact absurd before (Nat.not_lt.mpr (state ▸ bounded))
    · obtain ⟨answer, answered⟩ := all failing listed
      exact fails answer answered

namespace Recorded

open Logged

variable {σ : Type} [Storage σ] [Sound σ] [Recorded σ] {policy : Policy} {draft : ChangeDraft}
  {expiresAt : Option Instant} {now : Instant} {store after : σ} {record : ChangeRecord}
  {scanned : Scanned ChangeRecord}

/-- A change that was recorded and is live is delivered exactly if it is shown as it is and every live
record of its account can be read. -/
theorem mem_allChanges_iff (sound : isSound store) (kept_sound : isSound after)
    (recorded : Storage.appendChange draft expiresAt store = (.ok record, after))
    (room : (log after).latest draft.account < maxWord)
    (alive : (kept σ draft expiresAt record.state).isLive now = true)
    (done : ((Call.allChanges draft.account now).run policy after).1 = .ok scanned) :
    .ok record ∈ scanned.rows ↔ shown σ draft = draft ∧
      ∀ row ∈ (log after).live draft.account .initial now, ∃ record, row.outcome = .ok record := by
  have adds := appendChange draft expiresAt store sound record after recorded
  have latest : (log after).latest draft.account = record.state :=
    (adds.latest draft.account).trans (if_pos rfl)
  have below := (adds.next_of_room (latest ▸ room)).1
  have last : kept σ draft expiresAt record.state
      ∈ (log after).live draft.account .initial now := by
    refine LogView.mem_live.mpr ⟨?_, Nat.zero_le _, alive⟩
    rw [adds.rows below]
    exact List.mem_append_right _ List.mem_cons_self
  have isOrdered := ordered after kept_sound
  have delivered := allChanges_delivered kept_sound room done
  have ascending : ((log after).live draft.account .initial now).Pairwise _ :=
    LogView.live_ascending isOrdered
  have recorded : draft.record record.state = record := by
    rw [adds.record_eq]
    rfl
  by_cases asItIs : shown σ draft = draft
  case neg =>
    refine iff_of_false (fun member => asItIs ?_) fun both => asItIs both.1
    obtain ⟨row, live, answered⟩ := delivered.exists_row member
    -- No other live record has the state of the change.
    have once : (((log after).live draft.account .initial now).map LogRow.state).Nodup :=
      List.pairwise_map.mpr (ascending.imp Nat.ne_of_lt)
    have state : record.state = row.state :=
      isOrdered.states _ row (LogView.mem_live.mp live).1 record answered
    have same : row = kept σ draft expiresAt record.state :=
      List.inj_on_of_nodup_map once live last (state.symm.trans (state_kept _ _ _).symm)
    rw [same] at answered
    exact ChangeDraft.record_inj ((outcome_kept _ _ _ _ answered).symm.trans recorded.symm)
  rw [and_iff_right asItIs]
  refine delivered.mem_last_iff ascending ?_ last ?_ ?_
  · intro row member
    exact isOrdered.states _ row (LogView.mem_live.mp member).1
  · intro answer read
    rw [outcome_kept _ _ _ _ read, asItIs, recorded]
  · intro row member
    rw [← latest]
    exact (isOrdered.bounded _ row (LogView.mem_live.mp member).1).2

end Recorded

namespace Mirror

variable {log : Log} {m : Memory.Store} {d after : Database.Store} {mailbox : MailboxId}
  {new : NewMessage} {now : Instant} {metadata : Metadata}

/-- A step of the database that succeeds agrees with the one in memory that it follows. -/
theorem Follows.of_ok {α : Type} {left : Step Memory.Store α} {right : Step Database.Store α}
    (follows : Follows False log left right m d) {a : α} (done : right d = (.ok a, after)) :
    ∃ m', left m = (.ok a, m') ∧ Mirrors False log m' after := by
  rcases follows with ⟨answer, mirrors⟩ | ⟨e, fails, -⟩
  · rw [done] at answer mirrors
    exact ⟨_, Prod.ext answer.symm rfl, mirrors⟩
  · rw [done] at fails
    cases fails

/-- An append that succeeds leaves a row with the metadata that it returned, but its dates as they
are written. -/
theorem Mirrors.append_ok (mirrors : Mirrors False log m d)
    (done : Service.append mailbox new now d = (.ok metadata, after)) :
    ∃ (m' : Memory.Store) (row : Message), Mirrors False log m' after ∧
      m'.rows.get? ⟨mailbox, metadata.uid⟩ = some row.asWritten ∧
      row.metadata = metadata ∧ row.internalDate = new.internalDate.getD now ∧
        row.saveDate = some now := by
  obtain ⟨uid, d₁, counted, done⟩ := Step.of_bind_eq_ok done
  obtain ⟨m₁, -, mirrors₁⟩ := (mirrors.nextUid_follows mailbox).of_ok counted
  obtain ⟨modSeq, d₂, stamped, done⟩ := Step.of_bind_eq_ok done
  obtain ⟨m₂, -, mirrors₂⟩ := (mirrors₁.nextModSeq_follows mailbox).of_ok stamped
  obtain ⟨_, d₃, inserted, done⟩ := Step.of_bind_eq_ok done
  obtain ⟨m₃, inMemory, mirrors₃⟩ := (mirrors₂.insert_follows _).of_ok inserted
  cases done
  obtain ⟨-, -, rfl⟩ := Memory.Store.insert_ok (Step.of_write_eq_ok inMemory)
  exact ⟨_, (new.row mailbox uid modSeq now).withoutContent, mirrors₃, Table.get?_insert_self, rfl,
    rfl, rfl⟩

/-- The row of an append that succeeded is found as it was returned exactly if its dates are plain.
-/
theorem Mirrors.find_appended_iff (mirrors : Mirrors False log m d)
    (done : Service.append mailbox new now d = (.ok metadata, after)) :
    (∃ row, (Storage.find mailbox metadata.uid .metadata after).1 = .ok (some row) ∧
        row.metadata = metadata) ↔
      (new.internalDate.getD now).IsPlain ∧ now.IsPlain := by
  obtain ⟨m', row, mirrors', found, same, internal, saved⟩ := mirrors.append_ok done
  have plain : row.HasPlainDates ∧ row.HasPlainSeconds ↔
      (new.internalDate.getD now).IsPlain ∧ now.IsPlain := by
    unfold Message.HasPlainDates Message.HasPlainSeconds Instant.IsPlain
    rw [internal, saved]
    simp only [Option.mem_def, Option.some.injEq, forall_eq']
    exact and_and_and_comm
  rw [← plain]
  by_cases isPlain : row.HasPlainDates
  · rw [and_iff_right isPlain]
    have read : after.find mailbox metadata.uid .metadata = .ok (some row.asWritten) := by
      rw [mirrors'.find_of_plain fun other present => by
        rw [found] at present
        cases present
        exact row.hasPlainDates_asWritten.mpr isPlain]
      unfold Memory.Store.find
      rw [mirrors'.ensureAvailable, found]
      rfl
    constructor
    · rintro ⟨other, answer, told⟩
      have answer : after.find mailbox metadata.uid .metadata = .ok (some other) := answer
      rw [read] at answer
      cases answer
      have kept : row.metadata.asWritten = row.metadata := told.trans same.symm
      exact Metadata.asWritten_eq_iff.mp kept
    · intro seconds
      exact ⟨row.asWritten, read, by rw [row.asWritten_of_plain seconds, same]⟩
  · refine iff_of_false ?_ fun both => isPlain both.1
    rintro ⟨other, answer, -⟩
    obtain ⟨e, fails⟩ : ∃ e, after.find mailbox metadata.uid .metadata = .error e :=
      mirrors'.find_of_not_plain found (mt row.hasPlainDates_asWritten.mp isPlain)
    have answer : after.find mailbox metadata.uid .metadata = .ok (some other) := answer
    rw [fails] at answer
    cases answer

/-- A change that was recorded and is live is delivered exactly if it has a plain second and every
change of its account that has outlasted the read has a plain year. -/
theorem mem_allChanges_iff {policy : Policy} {start : Database.Store} {calls : List Call}
    {draft : ChangeDraft} {record : ChangeRecord} {scanned : Scanned ChangeRecord}
    (blank : Recorded.IsBlank start)
    (recorded : ((Call.recordChange draft).run policy (Call.runAll policy calls start).2).1
      = .ok record)
    (alive : ∀ expiry ∈ policy.expiry draft.date, now.millis < expiry.millis)
    (done : ((Call.allChanges draft.account now).run policy
      ((Call.recordChange draft).run policy (Call.runAll policy calls start).2).2).1
        = .ok scanned) :
    .ok record ∈ scanned.rows ↔ draft.date.HasPlainSecond ∧
      ∀ change ∈ changesOf policy draft.account (calls ++ [.recordChange draft]) start,
        change.Outlasts policy (fun t expiry => t.millis < expiry.millis) now →
          change.draft.date.HasPlainYear := by
  have sound : isSound (Call.runAll policy calls start).2 :=
    Call.runAll_sound policy calls blank.sound
  have whole : (Call.runAll policy (calls ++ [.recordChange draft]) start).2
      = ((Call.recordChange draft).run policy (Call.runAll policy calls start).2).2 := by
    rw [Call.runAll_append]
    rfl
  have sound' := Call.runAll_sound policy (calls ++ [.recordChange draft]) blank.sound
  have room : (Logged.log (Call.runAll policy (calls ++ [.recordChange draft]) start).2).latest
      draft.account < maxWord := by
    obtain ⟨-, -, -, written⟩ := sound'
    exact Nat.lt_of_le_of_lt (written.latest_le draft.account) (by decide)
  have live : (Logged.log (Call.runAll policy (calls ++ [.recordChange draft]) start).2).live
      draft.account .initial now = _ := Recorded.live_of_run blank room
  have isLive : (Recorded.kept Database.Store draft (policy.expiry draft.date) record.state).isLive
      now = true := by
    have lasts : Recorded.lasts Database.Store policy [now] ⟨draft, record.state, []⟩ = true := by
      rw [lasts_iff]
      intro t member
      rw [List.mem_singleton.mp member]
      exact alive
    exact List.all_eq_true.mp lasts now List.mem_cons_self
  rw [whole] at sound' room live
  rw [Recorded.mem_allChanges_iff sound sound' (Prod.ext recorded rfl) room isLive done, live,
    List.forall_mem_map]
  refine and_congr ChangeDraft.asWritten_eq_iff (forall_congr' fun change => ?_)
  rw [List.mem_filter, List.mem_filter, lasts_iff, outcome_iff, and_imp, and_imp]
  exact imp_congr_right fun _ => forall_prop_of_true (decide_eq_true (Nat.zero_le _))

end Mirror

/-! ### The database -/

/-- When what was written to a database after a run is read back at once. -/
structure ReadsBackIff (policy : Policy) (start : Database.Store) : Prop where
  /-- The row of an append is found with the metadata that was returned if both its dates have plain
  years and plain seconds. -/
  append : ∀ (calls : List Call) (mailbox : MailboxId) (new : NewMessage) (now : Instant)
      (metadata : Metadata),
    ((Call.append mailbox new now).run policy (Call.runAll policy calls start).2).1 = .ok metadata →
    ((∃ row, ((Call.find mailbox metadata.uid .metadata).run policy
          ((Call.append mailbox new now).run policy (Call.runAll policy calls start).2).2).1
            = .ok (some row) ∧ row.metadata = metadata) ↔
      (new.internalDate.getD now).IsPlain ∧ now.IsPlain)
  /-- A change that has not expired is delivered as it was recorded if it has a plain second, and it
  and all others of its account that have not expired have plain years. -/
  recordChange : ∀ (calls : List Call) (draft : ChangeDraft) (now : Instant)
      (record : ChangeRecord),
    ((Call.recordChange draft).run policy (Call.runAll policy calls start).2).1 = .ok record →
    (∀ expiry ∈ policy.expiry draft.date, now.millis < expiry.millis) →
    ((∃ scanned : Scanned ChangeRecord, ((Call.allChanges draft.account now).run policy
          ((Call.recordChange draft).run policy (Call.runAll policy calls start).2).2).1
            = .ok scanned ∧ .ok record ∈ scanned.rows) ↔ draft.date.HasPlainSecond ∧
      ∀ change ∈ changesOf policy draft.account (calls ++ [.recordChange draft]) start,
        change.Outlasts policy (fun t expiry => t.millis < expiry.millis) now →
          change.draft.date.HasPlainYear)

/-- What was written to a database is read back as it was exactly if the dates are plain. -/
theorem writes_readBack (policy : Policy) (path : String) (listBound : Nat) :
    ReadsBackIff policy (Database.Store.new path listBound) where
  append calls mailbox new now metadata done := by
    obtain ⟨m, -, mirrors, -⟩ := Call.runAll_sound policy calls
      (show isSound (Database.Store.new path listBound) from Mirror.new_isSound path listBound)
    exact mirrors.find_appended_iff (Prod.ext done rfl)
  recordChange calls draft now record recorded alive := by
    have blank := Mirror.new_isBlank path listBound
    constructor
    · rintro ⟨scanned, done, member⟩
      exact (Mirror.mem_allChanges_iff blank recorded alive done).mp member
    · intro plain
      exact ⟨_, rfl, (Mirror.mem_allChanges_iff blank recorded alive rfl).mpr plain⟩

/-- The first instant of the year 10000. -/
def distant : Instant := ⟨253402300800, 0, by decide, Instant.epoch.nano_valid⟩

/-- What is found of a message that was appended with a distant date, and what is delivered of a
change that was recorded with one; each is given as the number that the write returned and what was
read of it. -/
def readBackDistant {σ : Type} [Storage σ] (start : σ) :
    (Option Uid × Option (Option Instant)) × Option State × Option (List (Option Instant)) :=
  let policy : Policy := ⟨1, none⟩
  let (metadata, appended) :=
    Service.append "inbox" { id := "m1", internalDate := some distant } .epoch start
  let (record, recorded) := recordChange policy { account := "bob", date := distant } start
  ((metadata.toOption.map Metadata.uid,
      (Storage.find "inbox" 1 .metadata appended).1.toOption.map fun row =>
        row.map Message.internalDate),
    record.toOption.map ChangeRecord.state,
    ((Call.allChanges "bob" .epoch).run policy recorded).1.toOption.map fun scanned =>
      scanned.rows.map fun row => row.toOption.map ChangeRecord.date)

/-- The database accepts what it cannot read back, and the store in memory reads it back. -/
theorem distant_notReadBack :
    readBackDistant (Database.Store.new "mail" 1) = ((some 1, none), some 1, some [none]) ∧
      readBackDistant (Memory.Store.new 1)
        = ((some 1, some (some distant)), some 1, some [some distant]) := by
  constructor
  · decide +kernel
  · decide +kernel

end Mailroom
