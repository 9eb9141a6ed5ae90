import Mathlib.Algebra.GroupWithZero.Nat
import Mathlib.Data.List.Nodup
import Mailroom.Proofs.Changes.Answers
import Mailroom.Proofs.Changes.Pointers
import Mailroom.Proofs.Mirror.Records
import Mailroom.Proofs.Simulation
/-!
What a purge leaves to be seen.

Every read of a change log is made of its heads and of pages of live records. So two stores that
show an account the same heads and in which the same is read of its live records answer alike
(`ShowsAlike`). They may differ in their extents, which bound how many pages may be fetched, but
either extent is enough for the records that are live (`ShowsAlike.drain_eq`). A purge drops the
records that have expired, and a read at that instant or later leaves them out anyway, so it shows
every log as before (`IsPurged.showsAlike`). Over runs, the number that a purge answers counts the
changes whose records were left and have expired (`purges_unseen`).
-/

namespace Mailroom

open Service

/-! ### Logs without expired records -/

namespace LogView

variable {v : LogView} {t now : Instant}

/-- A record that is live at an instant is live at another one. -/
def Fades (v : LogView) (t now : Instant) : Prop :=
  ∀ account, ∀ row ∈ v.rows account, row.isLive now = true → row.isLive t = true

/-- A purge drops no record that is live later. -/
theorem live_purge (fades : v.Fades t now) (account : AccountId) (since : State) :
    (v.purge t).live account since now = v.live account since now := by
  unfold live purge
  rw [List.filter_filter]
  refine List.filter_congr fun row member => ?_
  rw [Bool.eq_iff_iff]
  simp only [Bool.and_eq_true, decide_eq_true_eq, and_iff_left_iff_imp]
  exact fun isLive => fades account row member isLive.2

end LogView

open Logged in
/-- A store whose purges can be counted. -/
class Purged (σ : Type) [Storage σ] [Sound σ] [Recorded σ] where
  /-- The records of all accounts. -/
  entries : σ → List (AccountId × LogRow)
  rows_eq : ∀ (store : σ) (account : AccountId), (log store).rows account
    = ((entries store).filter fun entry => entry.1 = account).map Prod.snd
  entries_lt : ∀ store : σ, (entries store).length < Storage.extent store
  /-- Outside leap seconds, a record that is live was live before. -/
  fades : ∀ store : σ, isSound store → ∀ t now : Instant, ¬ t.IsLeap → now.isBefore t = false →
    (log store).Fades t now
  purgeExpired_told : ∀ (t : Instant) (store : σ), isSound store →
    (Storage.purgeExpired t store).1
      = .ok ((entries store).countP fun entry => !entry.2.isLive t)
  /-- What is answered to a recorded change depends on the latest state only. -/
  appendChange_told : ∀ (draft : ChangeDraft) (expiresAt expiresAt' : Option Instant)
    (store other : σ), isSound store → isSound other →
    (log store).latest draft.account = (log other).latest draft.account →
    (Storage.appendChange draft expiresAt store).1
      = (Storage.appendChange draft expiresAt' other).1

/-! ### Stores that show a log alike -/

/-- What is read of a page is read of the live records. -/
theorem LogView.page_eq {v w : LogView} {request : ChangePageRequest}
    (same : ∀ since, (v.live request.account since request.now).map LogRow.outcome
      = (w.live request.account since request.now).map LogRow.outcome) :
    v.page request = w.page request := by
  have of_outcomes (rows : List LogRow) (limit : Nat) :
      (rows.take limit).mapM LogRow.outcome = ((rows.map LogRow.outcome).take limit).mapM id := by
    rw [← List.map_take, List.mapM_map]
    rfl
  unfold page
  rw [of_outcomes, of_outcomes, same]

section Stores

variable {σ : Type} [Storage σ] [Sound σ] [Recorded σ] [Headed σ]

open Logged Headed Purged

/-- Two stores show the change log of an account alike at an instant: its heads, and what is read of
its live records. -/
structure ShowsAlike (account : AccountId) (now : Instant) (left right : σ) : Prop where
  sound : isSound left
  sound_right : isSound right
  heads_eq : headsOf left account = headsOf right account
  outcomes_eq : ∀ since, ((log left).live account since now).map LogRow.outcome
    = ((log right).live account since now).map LogRow.outcome

/-- Both stores stay as they are. -/
def Stays (left right : σ) (left' right' : σ) : Prop := left = left' ∧ right = right'

omit [Recorded σ] in
theorem heads_alike {left right : σ} {account : AccountId} (sound : isSound left)
    (sound_right : isSound right) (same : headsOf left account = headsOf right account) :
    Step.Alike (Stays left right) (Storage.heads account) (Storage.heads account) := by
  rintro _ _ ⟨rfl, rfl⟩
  rw [told _ sound, told _ sound_right, same]
  exact ⟨rfl, rfl, rfl⟩

namespace ShowsAlike

variable {now : Instant} {left right : σ} {account : AccountId} {since : State} {policy : Policy}

/-- Records are paged alike. -/
theorem source_alike (alike : ShowsAlike account now left right) (lower : State) :
    Source.Alike (Stays left right) (changeSource account lower now : Source σ _ _)
      (changeSource account lower now : Source σ _ _) where
  key := rfl
  fetch position limit := by
    rintro _ _ ⟨rfl, rfl⟩
    have same : (log left).page ⟨account, lower, position, now, limit⟩
        = (log right).page ⟨account, lower, position, now, limit⟩ :=
      LogView.page_eq alike.outcomes_eq
    simp only [changeSource]
    rw [Logged.changesPage _ alike.sound, Logged.changesPage _ alike.sound_right, same]
    exact ⟨rfl, rfl, rfl⟩

/-- Reads of changes from a state on start alike. -/
theorem changesFrom_eq [PureReads σ] (alike : ShowsAlike account now left right)
    (policy : Policy) (since : State) (limit : Option Nat) :
    ∃ answer, changesFrom policy account since limit now right = (answer, right) ∧
      changesFrom policy account since limit now left = (answer, left) := by
  have starts : Step.Alike (Stays left right) (changesFrom policy account since limit now >>= pure)
      (changesFrom policy account since limit now >>= pure) :=
    changesFrom_bind_alike policy account since limit now
      (heads_alike alike.sound alike.sound_right alike.heads_eq) (alike.source_alike since)
      fun _ => .pure _
  rw [bind_pure] at starts
  obtain ⟨answer, _, _, did, did', rfl, rfl⟩ := starts.outcomes ⟨rfl, rfl⟩
  exact ⟨answer, did', did⟩

variable [Purged σ]

omit [Headed σ] in
/-- No more records are live than may be fetched as pages. -/
theorem live_length_lt (store : σ) (account : AccountId) (since : State) (now : Instant) :
    ((log store).live account since now).length < Storage.extent store := by
  refine Nat.lt_of_le_of_lt (List.length_filter_le _ _) ?_
  rw [rows_eq, List.length_map]
  exact Nat.lt_of_le_of_lt (List.length_filter_le _ _) (entries_lt store)

/-- A read of records that is over once it may fetch more pages than records are live is run to
one end in both stores. -/
theorem drain_eq (alike : ShowsAlike account now left right)
    (paging : Paging State ChangeRecord)
    (ends : ∀ pages, ((log right).live account since now).length < pages →
      (paging.rest (changeSource account since now) pages right).2.1.finished = true) :
    ∃ rows scan, drain ⟨changeSource account since now, paging⟩ right = (rows, scan, right) ∧
      drain ⟨changeSource account since now, paging⟩ left = (rows, scan, left) := by
  have lengths := congrArg List.length (alike.outcomes_eq since)
  rw [List.length_map, List.length_map] at lengths
  have enough := live_length_lt right account since now
  have enough' := live_length_lt left account since now
  rw [lengths] at enough'
  have stays : Stays left right left right := ⟨rfl, rfl⟩
  obtain ⟨rows, ended, _, _, did', did, rfl, rfl⟩ :=
    rest_alike (alike.source_alike since) (((log right).live account since now).length + 1) paging
      stays
  have isOver := ends _ (Nat.lt_succ_self _)
  rw [Nat.succ_eq_add_one, did] at isOver
  refine ⟨rows, ⟨changeSource account since now, ended⟩, ?_, ?_⟩
  · simp only [drain, Scan.rest, Paging.rest_eq_of_ended did isOver enough]
  · simp only [drain, Scan.rest, Paging.rest_eq_of_ended did' isOver enough']

/-- A read of all records answers alike. -/
theorem allChanges_eq (alike : ShowsAlike account now left right)
    (room : (log right).latest account < maxWord) :
    ((Call.allChanges account now).run policy left).1
      = ((Call.allChanges account now).run policy right).1 := by
  have serves := changeSource_serves alike.sound_right room .initial now
  obtain ⟨rows, scan, did, did'⟩ := alike.drain_eq (.start policy.batch none)
    fun pages enough => (Paging.start_ends serves policy.batch none enough).2.1
  have ran : ∀ store : σ, (Call.allChanges account now).run policy store
    = Call.drained ⟨changeSource account .initial now, .start policy.batch none⟩ store :=
    fun _ => rfl
  simp only [ran, Call.drained, did, did']
  rfl

/-- What follows the start of a read of changes from a state on answers alike, if it does for a read
that is over once it may fetch more pages than records are live. -/
theorem changesFrom_bind_eq [PureReads σ] {α : Type} (alike : ShowsAlike account now left right)
    (room : (log right).latest account < maxWord)
    {limit : Option Nat} {next : Scan σ State ChangeRecord → Step σ α}
    (nexts : ∀ scan : Scan σ State ChangeRecord, (∃ rows scan', drain scan right
      = (rows, scan', right) ∧ drain scan left = (rows, scan', left)) →
        (next scan left).1 = (next scan right).1) :
    ((changesFrom policy account since limit now >>= next) left).1
      = ((changesFrom policy account since limit now >>= next) right).1 := by
  obtain ⟨_ | scan, did, did'⟩ := alike.changesFrom_eq policy since limit
  · rw [Step.bind_of_error did, Step.bind_of_error did']
  · rw [Step.bind_of_ok did, Step.bind_of_ok did']
    have reads := (changesFrom_looks policy account since limit now right).2 scan right did
    obtain ⟨source, paging⟩ := scan
    cases reads
    refine nexts _ (alike.drain_eq paging fun pages enough => ?_)
    exact (changesFrom_delivers alike.sound_right room did (Nat.le_of_lt enough)).2.2.1 enough

theorem changesSince_eq [PureReads σ] (alike : ShowsAlike account now left right)
    (room : (log right).latest account < maxWord) (since : State) :
    ((Call.changesSince account since now).run policy left).1
      = ((Call.changesSince account since now).run policy right).1 := by
  refine alike.changesFrom_bind_eq room fun scan same => ?_
  obtain ⟨rows, scan', did, did'⟩ := same
  simp only [Call.drained, did, did']
  rfl

theorem changesSinceLimited_eq [PureReads σ] (alike : ShowsAlike account now left right)
    (room : (log right).latest account < maxWord) (since : State) (most : Nat) :
    ((Call.changesSinceLimited account since most now).run policy left).1
      = ((Call.changesSinceLimited account since most now).run policy right).1 := by
  refine alike.changesFrom_bind_eq room fun scan same => ?_
  obtain ⟨rows, scan', did, did'⟩ := same
  have collects : collected scan right = (rows.mapM id, right) := by
    simp only [collected, did]
  have collects' : collected scan left = (rows.mapM id, left) := by
    simp only [collected, did']
  cases outcome : rows.mapM id with
  | error e =>
    rw [outcome] at collects collects'
    rw [Step.bind_of_error collects, Step.bind_of_error collects']
  | ok changes =>
    rw [outcome] at collects collects'
    rw [Step.bind_of_ok collects, Step.bind_of_ok collects']
    rfl

end ShowsAlike

/-! ### Purged stores -/

/-- A store is another one without the records that had expired at an instant. -/
structure IsPurged (t : Instant) (after store : σ) : Prop where
  sound : isSound store
  sound_after : isSound after
  log_eq : log after = (log store).purge t
  heads_eq : headsOf after = headsOf store

theorem purge_isPurged [Revised σ] [PureReads σ] {store : σ} (sound : isSound store)
    (t : Instant) : IsPurged t (Storage.purgeExpired t store).2 store where
  sound := sound
  sound_after := Call.runAll_sound ⟨1, none⟩ [.purgeExpired t] sound
  log_eq := Recorded.purgeExpired t store sound
  heads_eq := Headed.purgeExpired t store sound

namespace IsPurged

variable {t now : Instant} {after store : σ} {account : AccountId} {policy : Policy}

/-- A purge leaves to be seen what is live later. -/
theorem showsAlike (isPurged : IsPurged t after store) (fades : (log store).Fades t now)
    (account : AccountId) : ShowsAlike account now after store where
  sound := isPurged.sound_after
  sound_right := isPurged.sound
  heads_eq := congrFun isPurged.heads_eq account
  outcomes_eq since := by
    rw [isPurged.log_eq, LogView.live_purge fades]

theorem heads_alike (isPurged : IsPurged t after store) (account : AccountId) :
    Step.Alike (Stays after store) (Storage.heads account) (Storage.heads account) :=
  Mailroom.heads_alike isPurged.sound_after isPurged.sound (congrFun isPurged.heads_eq account)

variable [Purged σ]

omit [Purged σ] in
theorem latestState_eq (isPurged : IsPurged t after store) (policy : Policy)
    (account : AccountId) :
    ((Call.latestState account).run policy after).1
      = ((Call.latestState account).run policy store).1 := by
  have alike : Step.Alike (Stays after store) ((Call.latestState account).run policy : Step σ State)
      ((Call.latestState account).run policy : Step σ State) :=
    .bind (isPurged.heads_alike account) fun _ => .pure _
  exact (alike after store ⟨rfl, rfl⟩).1

omit [Purged σ] in
theorem latestStateNotDelegated_eq (isPurged : IsPurged t after store) (policy : Policy)
    (account : AccountId) :
    ((Call.latestStateNotDelegated account).run policy after).1
      = ((Call.latestStateNotDelegated account).run policy store).1 := by
  have alike : Step.Alike (Stays after store)
      ((Call.latestStateNotDelegated account).run policy : Step σ State)
      ((Call.latestStateNotDelegated account).run policy : Step σ State) :=
    .bind (isPurged.heads_alike account) fun _ => .pure _
  exact (alike after store ⟨rfl, rfl⟩).1

/-- A change that is recorded next gets the same answer. -/
theorem recordChange_eq (isPurged : IsPurged t after store) (policy : Policy)
    (draft : ChangeDraft) :
    ((Call.recordChange draft).run policy after).1
      = ((Call.recordChange draft).run policy store).1 := by
  refine appendChange_told draft _ _ after store isPurged.sound_after isPurged.sound ?_
  rw [isPurged.log_eq]
  rfl

/-- A second purge that looks no later finds nothing. -/
theorem purge_again (isPurged : IsPurged t after store) {earlier : Instant}
    (plain : ¬ earlier.IsLeap) (ordered : t.isBefore earlier = false) :
    (Storage.purgeExpired earlier after).1 = .ok 0 := by
  rw [purgeExpired_told earlier after isPurged.sound_after]
  congr 1
  refine List.countP_eq_zero.mpr fun entry member => ?_
  have listed : entry.2 ∈ (log after).rows entry.1 := by
    rw [rows_eq]
    exact List.mem_map_of_mem (List.mem_filter.mpr ⟨member, decide_eq_true rfl⟩)
  rw [isPurged.log_eq] at listed
  obtain ⟨kept, isLive⟩ := List.mem_filter.mp listed
  have fades := fades store isPurged.sound earlier t plain ordered
  rw [fades entry.1 entry.2 kept isLive]
  decide

end IsPurged

/-! ### What a purge counts -/

/-- Counting by a key: each element is counted under one of the keys. -/
theorem countP_by_key {α κ : Type} [DecidableEq κ] (key : α → κ) (p : α → Bool) {keys : List κ}
    (once : keys.Nodup) {xs : List α} (all : ∀ x ∈ xs, p x = true → key x ∈ keys) :
    xs.countP p = (keys.map fun k => (xs.filter fun x => key x = k).countP p).sum := by
  induction keys generalizing xs with
  | nil =>
    refine List.countP_eq_zero.mpr fun x member counted => ?_
    cases all x member counted
  | cons k rest ih =>
    obtain ⟨fresh, once⟩ := List.nodup_cons.mp once
    rw [List.countP_eq_countP_filter_add xs p fun x => decide (key x = k), List.map_cons,
      List.sum_cons]
    congr 1
    rw [ih once fun x member counted => ?_]
    · refine congrArg List.sum (List.map_congr_left fun other listed => ?_)
      have apart : other ≠ k := fun same => fresh (same ▸ listed)
      rw [List.filter_filter]
      refine congrArg _ (List.filter_congr fun x _ => ?_)
      by_cases same : key x = other
      · simp [same, apart]
      · simp [same]
    · obtain ⟨present, other⟩ := List.mem_filter.mp member
      have apart : key x ≠ k := by simpa using other
      exact (List.mem_cons.mp (all x present counted)).resolve_left apart

omit [Headed σ] in
theorem countP_rows [Purged σ] (store : σ) (p : LogRow → Bool) {accounts : List AccountId}
    (once : accounts.Nodup)
    (all : ∀ account, (log store).rows account ≠ [] → account ∈ accounts) :
    ((entries store).countP fun entry => p entry.2)
      = (accounts.map fun account => ((log store).rows account).countP p).sum := by
  rw [countP_by_key Prod.fst (fun entry => p entry.2) once fun entry member _ => ?_]
  · refine congrArg List.sum (List.map_congr_left fun account _ => ?_)
    rw [rows_eq, List.countP_map]
    rfl
  · refine all entry.1 (List.ne_nil_of_mem (a := entry.2) ?_)
    rw [rows_eq]
    exact List.mem_map_of_mem (List.mem_filter.mpr ⟨member, decide_eq_true rfl⟩)

end Stores

/-- The record of a change was left by the purges before an instant and has expired at it. -/
def Change.isDue (policy : Policy) (before : Instant → Instant → Bool) (t : Instant)
    (change : Change) : Bool :=
  (policy.expiry change.draft.date).any fun expiry =>
    !before t expiry && change.purges.all fun earlier => before earlier expiry

/-! ### Purges after runs -/

/-- After calls under policies of their own, a purge counts the records that it drops, and nothing
else tells that it was made: reads of changes at that instant or later, the pointers and the next
recorded change answer as without it, and a second purge that looks no later drops nothing. -/
structure PurgeIsUnseen {σ : Type} [Storage σ] (start : σ) (steps : List (Policy × Call))
    (before : Instant → Instant → Bool) (t : Instant) (store after : σ) : Prop where
  told : ∀ (policy : Policy) (accounts : List AccountId), accounts.Nodup →
    (∀ account, recordsOf account steps start ≠ [] → account ∈ accounts) →
    ((Call.purgeExpired t).run policy store).1 = .ok (accounts.map fun account =>
      (recordsOf account steps start).countP fun entry => entry.2.isDue entry.1 before t).sum
  allChanges : ∀ (policy : Policy) (account : AccountId) (now : Instant), now.isBefore t = false →
    ((Call.allChanges account now).run policy after).1
      = ((Call.allChanges account now).run policy store).1
  changesSince : ∀ (policy : Policy) (account : AccountId) (since : State) (now : Instant),
    now.isBefore t = false →
    ((Call.changesSince account since now).run policy after).1
      = ((Call.changesSince account since now).run policy store).1
  changesSinceLimited : ∀ (policy : Policy) (account : AccountId) (since : State) (most : Nat)
      (now : Instant), now.isBefore t = false →
    ((Call.changesSinceLimited account since most now).run policy after).1
      = ((Call.changesSinceLimited account since most now).run policy store).1
  latestState : ∀ (policy : Policy) (account : AccountId),
    ((Call.latestState account).run policy after).1
      = ((Call.latestState account).run policy store).1
  latestStateNotDelegated : ∀ (policy : Policy) (account : AccountId),
    ((Call.latestStateNotDelegated account).run policy after).1
      = ((Call.latestStateNotDelegated account).run policy store).1
  recordChange : ∀ (policy : Policy) (draft : ChangeDraft),
    ((Call.recordChange draft).run policy after).1
      = ((Call.recordChange draft).run policy store).1
  again : ∀ (policy : Policy) (earlier : Instant), ¬ earlier.IsLeap →
    t.isBefore earlier = false → ((Call.purgeExpired earlier).run policy after).1
        = .ok (0 : Nat)

namespace Recorded

open Logged Purged

variable {σ : Type} [Storage σ] [Sound σ] [Recorded σ] [Headed σ] [Purged σ] [Revised σ]
  [PureReads σ] {start : σ} {steps : List (Policy × Call)} {before : Instant → Instant → Bool}
  {t : Instant}

omit [Headed σ] [Purged σ] [Revised σ] [PureReads σ] in
/-- If a record is live before it expires, it is due if it was left and is not live. -/
theorem isDue_eq {policy : Policy} {change : Change}
    (live : ∀ now, (row σ policy change).isLive now
      = (policy.expiry change.draft.date).all (before now)) :
    change.isDue policy before t
      = (!(row σ policy change).isLive t && lasts σ policy [] change) := by
  unfold Change.isDue lasts
  rw [List.nil_append, live t, funext live]
  cases policy.expiry change.draft.date with
  | none => rfl
  | some expiry => rfl

/-- A purge after a run is unseen, if records are live before they expire. -/
theorem purgeIsUnseen (blank : IsBlank start) (plain : ¬ t.IsLeap)
    (live : ∀ (policy : Policy) (change : Change) (now : Instant),
      (row σ policy change).isLive now = (policy.expiry change.draft.date).all (before now))
    (room : ∀ account, (log (Call.runUnder steps start)).latest account < maxWord) :
    PurgeIsUnseen start steps before t (Call.runUnder steps start)
      (Storage.purgeExpired t (Call.runUnder steps start)).2 := by
  have sound := runUnder_sound blank.sound steps
  have isPurged := purge_isPurged sound t
  have fades (now : Instant) (ordered : now.isBefore t = false) :=
    fades _ sound t now plain ordered
  have rows (account : AccountId) : (log (Call.runUnder steps start)).rows account
      = ((recordsOf account steps start).filter fun entry => lasts σ entry.1 [] entry.2).map
        fun entry => row σ entry.1 entry.2 := by
    rw [(run_records blank.sound steps (room account)).rows, blank.rows, List.filter_nil,
      List.nil_append]
  constructor
  case told =>
    intro policy accounts once all
    have all' (account : AccountId)
        (kept : (log (Call.runUnder steps start)).rows account ≠ []) : account ∈ accounts := by
      refine all account fun none => kept ?_
      rw [rows, none]
      rfl
    refine (purgeExpired_told t _ sound).trans (congrArg Except.ok ?_)
    rw [countP_rows _ (fun row => !row.isLive t) once all']
    refine congrArg List.sum (List.map_congr_left fun account _ => ?_)
    rw [rows, List.countP_map, List.countP_filter]
    refine List.countP_congr fun entry _ => ?_
    rw [isDue_eq (live entry.1 entry.2)]
    rfl
  case allChanges =>
    intro policy account now ordered
    exact (isPurged.showsAlike (fades now ordered) account).allChanges_eq (room account)
  case changesSince =>
    intro policy account since now ordered
    exact (isPurged.showsAlike (fades now ordered) account).changesSince_eq (room account) since
  case changesSinceLimited =>
    intro policy account since most now ordered
    exact (isPurged.showsAlike (fades now ordered) account).changesSinceLimited_eq (room account)
      since most
  case latestState => exact isPurged.latestState_eq
  case latestStateNotDelegated => exact isPurged.latestStateNotDelegated_eq
  case recordChange => exact isPurged.recordChange_eq
  case again => exact fun _ _ plain ordered => isPurged.purge_again plain ordered

end Recorded

/-! ### The two stores -/

section Instants

variable {t now expiry : Instant}

/-- What comes after an instant comes after those that are not later. -/
theorem Instant.isBefore_of_ordered (ordered : now.isBefore t = false)
    (before : now.isBefore expiry = true) : t.isBefore expiry = true := by
  simp only [isBefore, Bool.or_eq_false_iff, Bool.and_eq_false_iff, decide_eq_false_iff_not,
    Bool.or_eq_true, Bool.and_eq_true, decide_eq_true_eq] at *
  omega

/-- An instant outside leap seconds has no more milliseconds than a later one. -/
theorem Instant.millis_le_of_ordered (plain : ¬ t.IsLeap) (ordered : now.isBefore t = false) :
    t.millis ≤ now.millis := by
  simp only [IsLeap, isBefore, Bool.or_eq_false_iff, Bool.and_eq_false_iff,
    decide_eq_false_iff_not, Nat.not_le] at *
  unfold millis
  omega

/-- A value above an integer is above those that are not greater. -/
theorem Database.Cell.isAbove_of_le {cell : Cell} {a b : Int} (le : a ≤ b)
    (above : cell.isAbove b = true) : cell.isAbove a = true := by
  have first : (compare (integer a) (integer b)).isLE := by
    rw [compare_integer]
    exact Std.isLE_compare.mpr le
  have last : compare (integer b) cell = .lt :=
    Std.OrientedCmp.gt_iff_lt.mp (Ordering.isGT_iff_eq_gt.mp above)
  exact Ordering.isGT_iff_eq_gt.mpr
    (Std.OrientedCmp.gt_iff_lt.mpr (Std.TransCmp.lt_of_isLE_of_lt first last))

end Instants

/-- As many elements are left out by a filter as do not pass it. -/
theorem length_sub_filter {α : Type} (p : α → Bool) (xs : List α) :
    xs.length - (xs.filter p).length = xs.countP fun x => !p x := by
  have total := List.length_eq_countP_add_countP p (l := xs)
  simp only [Bool.not_eq_true, Bool.decide_eq_false] at total
  rw [← List.countP_eq_length_filter]
  omega

open Memory in
instance : Purged Memory.Store where
  entries m := m.changes.entries.map fun entry => (entry.1.account, Store.logRow entry)
  rows_eq m account := by
    show (m.changes.filter _).entries.map Store.logRow = _
    rw [List.filter_map, List.map_map, Table.entries_filter]
    rfl
  entries_lt m := by
    rw [List.length_map]
    show m.changes.entries.length < m.rows.size + m.changes.size + 1
    unfold Table.size
    omega
  fades m _ t now _ ordered account row member isLive := by
    obtain ⟨⟨place, stored⟩, -, rfl⟩ := List.mem_map.mp member
    have isLive : stored.expiresAt.all (fun expiry => now.isBefore expiry) = true := isLive
    show stored.expiresAt.all (fun expiry => t.isBefore expiry) = true
    rw [Option.all_eq_true] at isLive ⊢
    exact fun expiry expires => Instant.isBefore_of_ordered ordered (isLive expiry expires)
  purgeExpired_told t m sound := by
    show (Step.write (Store.purgeExpired t) m).1 = _
    rw [Step.write_of_ok (Store.purgeExpired_done sound t), List.countP_map]
    exact congrArg Except.ok (length_sub_filter _ _)
  appendChange_told draft expiresAt expiresAt' m other sound sound' same := by
    have same : (m.headsOf draft.account).latest = (other.headsOf draft.account).latest := same
    have told {m : Store} (sound : m.IsSound) (expiresAt : Option Instant) :
        (Step.write (Store.appendChange draft expiresAt) m).1
          = .ok (draft.record (m.headsOf draft.account).latest.next) := by
      unfold Step.write Store.appendChange
      rw [Store.ensureAvailable_ok.mpr sound.available]
      rfl
    exact (told sound expiresAt).trans (same ▸ (told sound' expiresAt').symm)

open Mirror in
instance : Purged Database.Store where
  entries d := d.database.changes.entries.map fun entry => (entry.1.account, logRow entry)
  rows_eq d account := by
    show (d.database.changes.filter _).entries.map logRow = _
    rw [List.filter_map, List.map_map, Table.entries_filter]
    rfl
  entries_lt d := by
    rw [List.length_map]
    show d.database.changes.entries.length
      < d.database.messages.size + d.database.changes.size + 1
    unfold Table.size
    omega
  fades d _ t now plain ordered account row member isLive := by
    obtain ⟨⟨place, stored⟩, -, rfl⟩ := List.mem_map.mp member
    have isLive : (stored.expiresAt = .null || stored.expiresAt.isAbove now.millis) = true := isLive
    show (stored.expiresAt = .null || stored.expiresAt.isAbove t.millis) = true
    rw [Bool.or_eq_true] at isLive ⊢
    exact isLive.imp_right
      (Database.Cell.isAbove_of_le (Instant.millis_le_of_ordered plain ordered))
  purgeExpired_told t d sound := by
    obtain ⟨m, -, mirrors, -⟩ := sound
    rw [mirrors.purgeExpired_done t, List.countP_map]
    exact congrArg Except.ok (length_sub_filter _ _)
  appendChange_told draft expiresAt expiresAt' d other sound sound' same := by
    obtain ⟨m, -, mirrors, written⟩ := sound
    obtain ⟨m', -, mirrors', written'⟩ := sound'
    have same : (logOf d.database).latest draft.account
        = (logOf other.database).latest draft.account := same
    rcases Nat.lt_or_eq_of_le (written.latest_le draft.account) with room | last
    · obtain ⟨_, _, told, -⟩ := mirrors.appendChange_eq written draft expiresAt room
      obtain ⟨_, _, told', -⟩ := mirrors'.appendChange_eq written' draft expiresAt' (same ▸ room)
      rw [told, told', same]
    · rw [mirrors.appendChange_error written draft expiresAt last,
        mirrors'.appendChange_error written' draft expiresAt' (same ▸ last)]

/-- A purge is unseen after every run, as long as no states have run out in memory. There a record
has expired at the instant at which it does, in the database in the millisecond. -/
theorem purges_unseen (path : String) (listBound : Nat) (steps : List (Policy × Call))
    (policy : Policy) {t : Instant} (plain : ¬ t.IsLeap) :
    ((∀ account, (recordsOf account steps (Memory.Store.new listBound)).length < maxWord) →
      PurgeIsUnseen (Memory.Store.new listBound) steps Instant.isBefore t
        (Call.runUnder steps (Memory.Store.new listBound))
        ((Call.purgeExpired t).run policy
          (Call.runUnder steps (Memory.Store.new listBound))).2) ∧
    PurgeIsUnseen (Database.Store.new path listBound) steps
      (fun t expiry => t.millis < expiry.millis) t
      (Call.runUnder steps (Database.Store.new path listBound))
      ((Call.purgeExpired t).run policy
        (Call.runUnder steps (Database.Store.new path listBound))).2 := by
  constructor
  · intro few
    exact Recorded.purgeIsUnseen (Memory.Store.new_isBlank listBound) plain (fun _ _ _ => rfl)
      fun account => Memory.Store.states_left (few account)
  · refine Recorded.purgeIsUnseen (Mirror.new_isBlank path listBound) plain
      (fun policy change now => ?_) fun account => Mirror.states_left path listBound steps account
    show (Database.ChangeRow.ofDraft change.draft
      (policy.expiry change.draft.date)).isLive now.millis = _
    unfold Database.ChangeRow.isLive Database.ChangeRow.ofDraft
    cases policy.expiry change.draft.date with
    | none => simp
    | some expiry => simp [Database.Cell.isAbove_integer]

/-- Changes of two accounts, some of which are kept for a second only. -/
def expiringUnlike : List (Policy × Call) :=
  [(⟨2, some 1000⟩, .recordChange { account := "bob", date := .epoch }),
    (⟨1, none⟩, .recordChange { account := "bob", date := .epoch }),
    (⟨2, some 1000⟩, .recordChange { account := "bob", date := someTimeLater }),
    (⟨1, some 1000⟩, .recordChange { account := "eve", date := .epoch, isDelegated := true })]

theorem purges_unseen_expiringUnlike : ¬ someTimeLater.IsLeap ∧
    (∀ account, (recordsOf account expiringUnlike (Memory.Store.new 1)).length < maxWord) ∧
    PurgeIsUnseen (Memory.Store.new 1) expiringUnlike Instant.isBefore someTimeLater
      (Call.runUnder expiringUnlike (Memory.Store.new 1))
      ((Call.purgeExpired someTimeLater).run ⟨1, none⟩
        (Call.runUnder expiringUnlike (Memory.Store.new 1))).2 := by
  have plain : ¬ someTimeLater.IsLeap := by decide
  have few (account : AccountId) :
      (recordsOf account expiringUnlike (Memory.Store.new 1)).length < maxWord :=
    Nat.lt_of_le_of_lt (length_recordsOf_le expiringUnlike (Memory.Store.new 1)) (by decide)
  exact ⟨plain, few, (purges_unseen "mail" 1 expiringUnlike ⟨1, none⟩ plain).1 few⟩

/-- One record of each account is dropped. -/
example : (Storage.purgeExpired someTimeLater
      (Call.runUnder expiringUnlike (Memory.Store.new 1))).1.toOption = some 2 ∧
    (Storage.purgeExpired someTimeLater
      (Call.runUnder expiringUnlike (Database.Store.new "mail" 1))).1.toOption = some 2 := by
  decide +kernel

end Mailroom
