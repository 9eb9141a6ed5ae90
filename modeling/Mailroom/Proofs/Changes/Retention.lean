import Mailroom.Proofs.Changes.Policies
import Mailroom.Proofs.Time.Lifetimes
/-!
How long a change can be read.

Runs that differ in the lifetime of one change record the same changes otherwise
(`recordsOf_recordingRun`). So they show the log of its account alike at every instant at which that
change is live in both. A read that delivers the record shows that it is live, and then it is live
if it is kept longer, so the read answers the same (`Recorded.staysReadable`). In memory the record
can be read as long as its lifetime is not over (`retention_total_monotone`). If all changes are
kept longer, others may be live as well, and a record is delivered as long as those can be read
(`allChanges_keptLonger`).
-/

namespace Mailroom

open Service

/-! ### Runs that differ in one lifetime -/

/-- Calls of which one records a change that is kept for a lifetime. -/
def recordingRun (settings : Settings) (before : List (Policy × Call)) (draft : ChangeDraft)
    (later : List (Policy × Call)) (lifetime : Option Nat) : List (Policy × Call) :=
  before ++ (settings.keeping lifetime, .recordChange draft) :: later

/-- What is answered to that change. -/
def answerTo {σ : Type} [Storage σ] (settings : Settings) (before : List (Policy × Call))
    (draft : ChangeDraft) (start : σ) (lifetime : Option Nat) : Except StoreError ChangeRecord :=
  ((Call.recordChange draft).run (settings.keeping lifetime) (Call.runUnder before start)).1

/-- After calls that differ in a lifetime only, a read that delivers a record answers the same if
the lifetime is longer. -/
def StaysReadable {σ : Type} [Storage σ] (start : σ) (run : Option Nat → List (Policy × Call))
    (record : ChangeRecord) : Prop :=
  ∀ (policy : Policy) (call : Call) (lifetime longer : Option Nat), NoLonger lifetime longer →
    call.Delivers record (call.run policy (Call.runUnder (run lifetime) start)).1 →
    (call.run policy (Call.runUnder (run longer) start)).1
      = (call.run policy (Call.runUnder (run lifetime) start)).1

/-- A change outlasts a read if it is kept longer, as far as instants that come before the expiry
come before later ones. -/
theorem Change.Outlasts.mono {settings : Settings} {lifetime longer : Option Nat} {change : Change}
    {before : Instant → Instant → Prop} {now : Instant}
    (passes : ∀ t a b : Instant, a.IsSecondsBefore b → before t a → before t b)
    (noLonger : NoLonger lifetime longer)
    (outlasts : change.Outlasts (settings.keeping lifetime) before now) :
    change.Outlasts (settings.keeping longer) before now := by
  intro t among later expires
  obtain ⟨sooner, expires', before⟩ := Settings.expiry_mono noLonger expires
  exact passes t sooner later before (outlasts t among sooner expires')

namespace Recorded

open Logged Headed Purged

variable {σ : Type} [Storage σ] [Sound σ] [Recorded σ] [Headed σ] [Purged σ] [Revised σ]
  [PureReads σ] {settings : Settings} {before later : List (Policy × Call)} {draft : ChangeDraft}
  {start : σ} {record : ChangeRecord} {now : Instant} {lifetime longer : Option Nat}

omit [Headed σ] in
/-- A change gets the same answer whatever its lifetime. -/
theorem answerTo_eq (blank : IsBlank start) (lifetime longer : Option Nat) :
    answerTo settings before draft start lifetime
      = answerTo settings before draft start longer := by
  have sound := runUnder_sound blank.sound before
  exact appendChange_told draft _ _ _ _ sound sound rfl

/-- The change that such a run recorded, with its lifetime. -/
def keptFor (settings : Settings) (draft : ChangeDraft) (later : List (Policy × Call))
    (record : ChangeRecord) (lifetime : Option Nat) : Policy × Change :=
  (settings.keeping lifetime,
    ⟨draft, record.state, later.filterMap fun step => step.2.purge?⟩)

/-- Runs that differ in the lifetime of a change record the same changes otherwise. -/
theorem recordsOf_recordingRun (later : List (Policy × Call)) (blank : IsBlank start)
    (told : answerTo settings before draft start none = .ok record) :
    ∃ front back, ∀ lifetime,
      recordsOf draft.account (recordingRun settings before draft later lifetime) start
        = front ++ keptFor settings draft later record lifetime :: back := by
  have sound := runUnder_sound blank.sound before
  generalize middle_eq : Call.runUnder before start = middle at sound
  have change (lifetime : Option Nat) : (Call.recordChange draft).change? draft.account
      ((Call.recordChange draft).run (settings.keeping lifetime) middle).1
        = some (draft, record.state) := by
    have answered : ((Call.recordChange draft).run (settings.keeping lifetime) middle).1
        = .ok record := middle_eq ▸ (answerTo_eq blank lifetime none).trans told
    rw [answered]
    simp only [Call.change?, if_pos]
  refine ⟨(recordsOf draft.account before start).map fun entry =>
      (entry.1, entry.2.purgedBy (later.filterMap fun step => step.2.purge?)),
    recordsOf draft.account later
      ((Call.recordChange draft).run (settings.keeping none) middle).2, fun lifetime => ?_⟩
  -- What comes later starts from the same heads, and so records the same changes.
  have heads : headsOf ((Call.recordChange draft).run (settings.keeping lifetime) middle).2
        draft.account
      = headsOf ((Call.recordChange draft).run (settings.keeping none) middle).2
        draft.account := by
    rw [headsOf_run sound, headsOf_run sound, change, change]
  have others := (Purged.run_sameUnder (.refl Eq.refl later)
    (Call.runAll_sound (settings.keeping lifetime) [.recordChange draft] sound)
    (Call.runAll_sound (settings.keeping none) [.recordChange draft] sound) heads).2.eq
  rw [recordingRun, recordsOf_append, recordsOf_cons, middle_eq, change]
  exact congrArg (fun records => _ ++ (_ :: records)) others

/-- The heads of the account do not depend on the lifetime. -/
theorem headsOf_recordingRun (blank : IsBlank start) (lifetime longer : Option Nat) :
    headsOf (Call.runUnder (recordingRun settings before draft later lifetime) start) draft.account
      = headsOf (Call.runUnder (recordingRun settings before draft later longer) start)
          draft.account :=
  have calls : SameUnder (fun _ _ => True) (recordingRun settings before draft later lifetime)
      (recordingRun settings before draft later longer) :=
    (SameUnder.refl (fun _ => trivial) before).append
      (.cons trivial _ (SameUnder.refl (fun _ => trivial) later))
  (Purged.run_sameUnder calls blank.sound blank.sound rfl).1

/-- Neither does the latest state. -/
theorem latest_recordingRun (blank : IsBlank start) (lifetime longer : Option Nat) :
    (log (Call.runUnder (recordingRun settings before draft later lifetime) start)).latest
        draft.account
      = (log (Call.runUnder (recordingRun settings before draft later longer) start)).latest
        draft.account := by
  rw [Headed.latest_eq (runUnder_sound blank.sound _),
    Headed.latest_eq (runUnder_sound blank.sound _), headsOf_recordingRun blank lifetime longer]

variable (blank : IsBlank start) (told : answerTo settings before draft start none = .ok record)

include blank told

theorem keptFor_mem (lifetime : Option Nat) :
    keptFor settings draft later record lifetime
      ∈ recordsOf draft.account (recordingRun settings before draft later lifetime) start := by
  obtain ⟨front, back, records⟩ := recordsOf_recordingRun later blank told
  rw [records]
  exact List.mem_append_right _ List.mem_cons_self

variable (room : (log (Call.runUnder (recordingRun settings before draft later none) start)).latest
  draft.account < maxWord)

include room

/-- No other change of the account has the state of the record. -/
theorem eq_keptFor {entry : Policy × Change}
    (member : entry ∈ recordsOf draft.account
      (recordingRun settings before draft later lifetime) start)
    (state : entry.2.state = record.state) :
    entry = keptFor settings draft later record lifetime := by
  have room := latest_recordingRun blank lifetime none ▸ room
  have once : ((recordsOf draft.account (recordingRun settings before draft later lifetime)
      start).map fun entry => entry.2.state).Nodup := by
    rw [(run_records blank.sound _ room).states]
    exact List.nodup_range'
  exact List.inj_on_of_nodup_map once member (keptFor_mem blank told lifetime) state

/-- The record of the change is among the live ones only if it has lasted. -/
theorem lasts_of_live {since : State} {row : LogRow}
    (live : row ∈ (log (Call.runUnder (recordingRun settings before draft later lifetime)
      start)).live draft.account since now) (answered : row.outcome = .ok record) :
    lasts σ (settings.keeping lifetime) [now] (keptFor settings draft later record lifetime).2
      = true := by
  obtain ⟨entry, member, lasted, same⟩ :=
    entry_of_live blank (latest_recordingRun blank lifetime none ▸ room) live answered
  rwa [eq_keptFor blank told room member (congrArg ChangeRecord.state same)] at lasted

/-- If the change has lasted under both lifetimes, the runs show the log of its account alike. -/
theorem showsAlike_of_lasts
    (outcomes : ∀ expiresAt expiresAt' state,
      (kept σ draft expiresAt state).outcome = (kept σ draft expiresAt' state).outcome)
    (lasted : lasts σ (settings.keeping lifetime) [now]
      (keptFor settings draft later record lifetime).2 = true)
    (lasted' : lasts σ (settings.keeping longer) [now]
      (keptFor settings draft later record longer).2 = true) :
    ShowsAlike draft.account now
      (Call.runUnder (recordingRun settings before draft later lifetime) start)
      (Call.runUnder (recordingRun settings before draft later longer) start) where
  sound := runUnder_sound blank.sound _
  sound_right := runUnder_sound blank.sound _
  heads_eq := headsOf_recordingRun blank lifetime longer
  outcomes_eq since := by
    obtain ⟨front, back, records⟩ := recordsOf_recordingRun later blank told
    rw [live_of_records blank (latest_recordingRun blank lifetime none ▸ room),
      live_of_records blank (latest_recordingRun blank longer none ▸ room), records, records]
    -- The record stands at the same place in both logs, and what is read of it does not depend on
    -- when it expires.
    have outcome : (row σ (settings.keeping lifetime)
          (keptFor settings draft later record lifetime).2).outcome
        = (row σ (settings.keeping longer)
          (keptFor settings draft later record longer).2).outcome :=
      outcomes _ _ record.state
    have state (lifetime : Option Nat) :
        (keptFor settings draft later record lifetime).2.state = record.state := rfl
    have policy (lifetime : Option Nat) :
        (keptFor settings draft later record lifetime).1 = settings.keeping lifetime := rfl
    by_cases reached : since ≤ record.state
    · simp only [List.filter_append, List.filter_cons, List.map_append, List.map_cons, state,
        policy, reached, decide_true, if_true, lasted, lasted', outcome]
    · simp only [List.filter_append, List.filter_cons, state, reached, decide_false,
        Bool.false_eq_true, if_false]

omit room [Headed σ] [Purged σ] in
/-- The record is that of the change under its state. -/
theorem record_recordingRun : draft.record record.state = record := by
  have sound := runUnder_sound blank.sound before
  rcases done : Storage.appendChange draft ((settings.keeping none).expiry draft.date)
    (Call.runUnder before start) with ⟨answer, after⟩
  have told : (Storage.appendChange draft ((settings.keeping none).expiry draft.date)
    (Call.runUnder before start)).1 = .ok record := told
  rw [done] at told
  cases told
  rw [(appendChange draft _ _ sound record after done).record_eq]
  rfl

/-- A read that delivers the record of the change answers the same if the change is kept longer. -/
theorem staysReadable
    (outcomes : ∀ expiresAt expiresAt' state,
      (kept σ draft expiresAt state).outcome = (kept σ draft expiresAt' state).outcome)
    (mono : ∀ (lifetime longer : Option Nat) (now : Instant), NoLonger lifetime longer →
      lasts σ (settings.keeping lifetime) [now] (keptFor settings draft later record lifetime).2
        = true →
      lasts σ (settings.keeping longer) [now] (keptFor settings draft later record longer).2
        = true) :
    StaysReadable start (recordingRun settings before draft later) record := by
  intro policy call lifetime longer noLonger delivers
  have account : draft.account = record.account :=
    congrArg ChangeRecord.account (record_recordingRun blank told)
  have sound := runUnder_sound blank.sound (recordingRun settings before draft later lifetime)
  have room' := latest_recordingRun blank lifetime none ▸ room
  have alike {since : State} {now : Instant} {row : LogRow}
      (live : row ∈ (log (Call.runUnder (recordingRun settings before draft later lifetime)
        start)).live draft.account since now) (answered : row.outcome = .ok record) :
      ShowsAlike draft.account now
        (Call.runUnder (recordingRun settings before draft later longer) start)
        (Call.runUnder (recordingRun settings before draft later lifetime) start) :=
    have lasted := lasts_of_live blank told room live answered
    showsAlike_of_lasts blank told room outcomes (mono _ _ _ noLonger lasted) lasted
  cases call with
  | allChanges _ now =>
    obtain ⟨rfl, scanned, done, member⟩ := delivers
    rw [← account] at done ⊢
    obtain ⟨row, live, answered⟩ := (allChanges_delivered sound room' done).exists_row member
    exact (alike live answered).allChanges_eq room'
  | changesSince _ since now =>
    obtain ⟨rfl, scanned, done, member⟩ := delivers
    rw [← account] at done ⊢
    obtain ⟨row, live, answered⟩ := (changesSince_delivered sound room' done).2.exists_row member
    exact (alike live answered).changesSince_eq room' since
  | changesSinceLimited _ since most now =>
    obtain ⟨rfl, page, done, member⟩ := delivers
    rw [← account] at done ⊢
    obtain ⟨row, live, answered⟩ := changesSinceLimited_row sound room' done member
    exact (alike live answered).changesSinceLimited_eq room' since most
  | _ => exact delivers.elim

/-- If all changes of the account can be read, a record that is shown as it is is delivered exactly if
it has lasted. -/
theorem delivers_iff_lasts (asItIs : shown σ draft = draft) (policy : Policy) (lifetime : Option Nat) (now : Instant)
    (readable : ∀ entry ∈ recordsOf draft.account
        (recordingRun settings before draft later lifetime) start,
      ∃ record, (row σ entry.1 entry.2).outcome = .ok record) :
    (Call.allChanges draft.account now).Delivers record
        ((Call.allChanges draft.account now).run policy
          (Call.runUnder (recordingRun settings before draft later lifetime) start)).1 ↔
      lasts σ (settings.keeping lifetime) [now] (keptFor settings draft later record lifetime).2
        = true := by
  have room' := latest_recordingRun blank lifetime none ▸ room
  have recorded := record_recordingRun blank told
  rw [allChanges_delivers_iff blank room' readable]
  constructor
  · rintro ⟨-, entry, member, lasted, same⟩
    rwa [eq_keptFor blank told room member (congrArg ChangeRecord.state same)] at lasted
  · intro lasted
    refine ⟨congrArg ChangeRecord.account recorded, _, keptFor_mem blank told lifetime, lasted, ?_⟩
    show (shown σ draft).record record.state = record
    rw [asItIs, recorded]

end Recorded

/-! ### The two stores -/

section Lifetimes

variable {settings : Settings} {before later : List (Policy × Call)} {draft : ChangeDraft}
  {record : ChangeRecord}

theorem Instant.isBefore_later (t a b : Instant) (before : a.IsSecondsBefore b)
    (passes : t.isBefore a = true) : t.isBefore b = true := by
  simp only [IsSecondsBefore, isBefore, Bool.or_eq_true, Bool.and_eq_true, decide_eq_true_eq] at *
  omega

theorem Instant.millis_later (t a b : Instant) (before : a.IsSecondsBefore b)
    (passes : t.millis < a.millis) : t.millis < b.millis := by
  unfold IsSecondsBefore millis at *
  omega

/-- In memory every change gets a record. -/
theorem Memory.Store.answerTo_eq_ok {listBound : Nat} (settings : Settings)
    (before : List (Policy × Call)) (draft : ChangeDraft) (lifetime : Option Nat) :
    ∃ record,
      answerTo settings before draft (Memory.Store.new listBound) lifetime = .ok record := by
  have sound : (Call.runUnder before (Memory.Store.new listBound)).IsSound :=
    Recorded.runUnder_sound (Memory.Store.new_isBlank listBound).sound before
  show ∃ record, (Step.write (Memory.Store.appendChange draft _) _).1 = _
  unfold Step.write Memory.Store.appendChange
  rw [Memory.Store.ensureAvailable_ok.mpr sound.available]
  exact ⟨_, rfl⟩

/-- In the database a change gets a record as long as there are states that can be stored. -/
theorem Mirror.answerTo_eq_ok_iff {path : String} {listBound : Nat} :
    (∃ record, answerTo settings before draft (Database.Store.new path listBound) none
        = .ok record) ↔
      (recordsOf draft.account before (Database.Store.new path listBound)).length < maxStored := by
  have blank := Mirror.new_isBlank path listBound
  have latest := (Recorded.run_records blank.sound before
    (Mirror.states_left path listBound before draft.account)).latest
  rw [blank.latest draft.account, State.initial, Nat.zero_add] at latest
  obtain ⟨m, -, mirrors, written⟩ := Recorded.runUnder_sound blank.sound before
  rw [← latest]
  show (∃ record, (Storage.appendChange draft _ _).1 = _) ↔ _
  rcases Nat.lt_or_eq_of_le (written.latest_le draft.account) with room | last
  · obtain ⟨_, _, told, -⟩ := mirrors.appendChange_eq written draft
      ((settings.keeping none).expiry draft.date) room
    exact iff_of_true ⟨_, congrArg Prod.fst told⟩ room
  · rw [mirrors.appendChange_error written draft _ last]
    refine iff_of_false (fun answered => ?_) (Nat.not_lt.mpr (Nat.le_of_eq last.symm))
    obtain ⟨record, answered⟩ := answered
    cases answered

end Lifetimes

/-- In memory a read of all changes delivers the record of a change exactly if its lifetime is not
over, at the read and at the purges that came before. -/
structure ReadWhileRemains (settings : Settings) (listBound : Nat) (before : List (Policy × Call))
    (draft : ChangeDraft) (later : List (Policy × Call)) (record : ChangeRecord) : Prop where
  delivers_iff : ∀ (policy : Policy) (lifetime : Option Nat) (now : Instant),
    (Call.allChanges draft.account now).Delivers record
        ((Call.allChanges draft.account now).run policy (Call.runUnder
          (recordingRun settings before draft later lifetime) (Memory.Store.new listBound))).1 ↔
      ∀ t ∈ now :: later.filterMap fun step => step.2.purge?, Remains draft.date t lifetime
  /-- Purges that looked no later than the read make no difference. -/
  delivers_iff_of_ordered : ∀ (policy : Policy) (lifetime : Option Nat) (now : Instant),
    (∀ t ∈ later.filterMap fun step => step.2.purge?, now.isBefore t = false) →
    ((Call.allChanges draft.account now).Delivers record
        ((Call.allChanges draft.account now).run policy (Call.runUnder
          (recordingRun settings before draft later lifetime) (Memory.Store.new listBound))).1 ↔
      Remains draft.date now lifetime)

theorem Memory.Store.readWhileRemains {settings : Settings} {listBound : Nat}
    {before later : List (Policy × Call)} {draft : ChangeDraft} {record : ChangeRecord}
    (plain : ¬ draft.date.IsLeap)
    (told : answerTo settings before draft (Memory.Store.new listBound) none = .ok record)
    (room : (Logged.log (Call.runUnder (recordingRun settings before draft later none)
      (Memory.Store.new listBound))).latest draft.account < maxWord) :
    ReadWhileRemains settings listBound before draft later record := by
  have delivers_iff (policy : Policy) (lifetime : Option Nat) (now : Instant) :
      (Call.allChanges draft.account now).Delivers record
        ((Call.allChanges draft.account now).run policy (Call.runUnder
          (recordingRun settings before draft later lifetime) (Memory.Store.new listBound))).1 ↔
      ∀ t ∈ now :: later.filterMap fun step => step.2.purge?, Remains draft.date t lifetime := by
    rw [Recorded.delivers_iff_lasts (Memory.Store.new_isBlank listBound) told room rfl policy
      lifetime now fun _ _ => ⟨_, rfl⟩, Memory.Store.lasts_iff]
    exact forall₂_congr fun t _ => settings.isBefore_expiry_iff plain t
  refine ⟨delivers_iff, fun policy lifetime now ordered => (delivers_iff policy lifetime now).trans
    ⟨fun remains => remains now List.mem_cons_self, fun remains t among => ?_⟩⟩
  rw [← settings.isBefore_expiry_iff plain] at remains ⊢
  rcases List.mem_cons.mp among with rfl | earlier
  · exact remains
  · exact fun expiry expires =>
      Instant.isBefore_of_ordered (ordered t earlier) (remains expiry expires)

/-- A service that keeps all its changes longer still delivers a record that it delivers otherwise,
as long as no states have run out in memory and the dates of the account can be read in the
database. -/
theorem allChanges_keptLonger (settings : Settings) (path : String) (listBound : Nat)
    (calls : List Call) (policy : Policy) {lifetime longer : Option Nat}
    (noLonger : NoLonger lifetime longer) {record : ChangeRecord} (now : Instant) :
    ((changesOf (settings.keeping lifetime) record.account calls
        (Memory.Store.new listBound)).length < maxWord →
      (Call.allChanges record.account now).Delivers record
        ((Call.allChanges record.account now).run policy
          (Call.runAll (settings.keeping lifetime) calls (Memory.Store.new listBound)).2).1 →
      (Call.allChanges record.account now).Delivers record
        ((Call.allChanges record.account now).run policy
          (Call.runAll (settings.keeping longer) calls (Memory.Store.new listBound)).2).1) ∧
    ((∀ change ∈ changesOf (settings.keeping longer) record.account calls
        (Database.Store.new path listBound), change.draft.date.HasPlainYear) →
      (Call.allChanges record.account now).Delivers record
        ((Call.allChanges record.account now).run policy
          (Call.runAll (settings.keeping lifetime) calls (Database.Store.new path listBound)).2).1 →
      (Call.allChanges record.account now).Delivers record
        ((Call.allChanges record.account now).run policy
          (Call.runAll (settings.keeping longer) calls (Database.Store.new path listBound)).2).1)
    := by
  have alike : SameUnder (fun policy policy' => policy = settings.keeping lifetime ∧
        policy' = settings.keeping longer)
      (calls.map (Prod.mk (settings.keeping lifetime)))
      (calls.map (Prod.mk (settings.keeping longer))) := .of_map _ _ calls ⟨rfl, rfl⟩
  simp only [← Call.runUnder_map]
  constructor
  · intro few
    rw [← List.length_map (Prod.mk (settings.keeping lifetime)), ← recordsOf_map] at few
    refine Recorded.allChanges_keptLonger (Memory.Store.new_isBlank listBound) alike
      (Memory.Store.states_left few) (fun _ _ => ⟨_, rfl⟩) ?_
    rintro _ _ change ⟨rfl, rfl⟩ lasted
    rw [Memory.Store.lasts_iff] at lasted ⊢
    exact lasted.mono Instant.isBefore_later noLonger
  · intro dates
    refine Recorded.allChanges_keptLonger (Mirror.new_isBlank path listBound) alike
      (Mirror.states_left path listBound _ _) (fun entry member => ?_) ?_
    · rw [recordsOf_map] at member
      obtain ⟨change, present, rfl⟩ := List.mem_map.mp member
      exact Mirror.outcome_iff.mpr (dates change present)
    · rintro _ _ change ⟨rfl, rfl⟩ lasted
      rw [Mirror.lasts_iff] at lasted ⊢
      exact lasted.mono Instant.millis_later noLonger

/-- The arithmetic of retention is total and monotone, for changes that are not dated to a leap
second. Whatever the lifetime, its numbers fit, and the same is answered to the change: in memory a
record, in the database one exactly as long as there are states that can be stored. In memory the
record is delivered exactly as long as its lifetime is not over, unless the states run out. In both
stores a read that delivers the record answers the same if the change is kept longer. -/
theorem retention_total_monotone (settings : Settings) (path : String) (listBound : Nat)
    (before later : List (Policy × Call)) {draft : ChangeDraft} (plain : ¬ draft.date.IsLeap) :
    (∀ lifetime, settings.LifetimeFits draft.date lifetime) ∧
    (∃ record,
      (∀ lifetime,
        answerTo settings before draft (Memory.Store.new listBound) lifetime = .ok record) ∧
      ((recordsOf draft.account (recordingRun settings before draft later none)
          (Memory.Store.new listBound)).length < maxWord →
        ReadWhileRemains settings listBound before draft later record ∧
        StaysReadable (Memory.Store.new listBound) (recordingRun settings before draft later)
          record)) ∧
    (∀ lifetime, answerTo settings before draft (Database.Store.new path listBound) lifetime
      = answerTo settings before draft (Database.Store.new path listBound) none) ∧
    ((∃ record, answerTo settings before draft (Database.Store.new path listBound) none
        = .ok record) ↔
      (recordsOf draft.account before (Database.Store.new path listBound)).length < maxStored) ∧
    ∀ record, answerTo settings before draft (Database.Store.new path listBound) none = .ok record →
      StaysReadable (Database.Store.new path listBound) (recordingRun settings before draft later)
        record := by
  have blank := Memory.Store.new_isBlank listBound
  have blank' := Mirror.new_isBlank path listBound
  refine ⟨settings.lifetimeFits plain, ?_,
    fun lifetime => Recorded.answerTo_eq blank' lifetime none, Mirror.answerTo_eq_ok_iff,
    fun record told => ?_⟩
  · obtain ⟨record, told⟩ := Memory.Store.answerTo_eq_ok settings before draft none
    refine ⟨record, fun lifetime => (Recorded.answerTo_eq blank lifetime none).trans told,
      fun few => ?_⟩
    have room := Memory.Store.states_left few
    refine ⟨Memory.Store.readWhileRemains plain told room,
      Recorded.staysReadable blank told room (fun _ _ _ => rfl) ?_⟩
    intro lifetime longer now noLonger lasted
    rw [Memory.Store.lasts_iff] at lasted ⊢
    exact lasted.mono Instant.isBefore_later noLonger
  · refine Recorded.staysReadable blank' told (Mirror.states_left path listBound _ _)
      (fun _ _ _ => rfl) ?_
    intro lifetime longer now noLonger lasted
    rw [Mirror.lasts_iff] at lasted ⊢
    exact lasted.mono Instant.millis_later noLonger

/-- The purge of a run with one change, at whose date it looks. -/
def purgedAtOnce : List (Policy × Call) := [(⟨1, none⟩, .purgeExpired .epoch)]

/-- A change that is kept for a second more than a day is delivered a day after its date, with the
same answer as if it were kept for ever. -/
theorem retention_total_monotone_purgedAtOnce :
    let draft : ChangeDraft := { account := "bob", date := .epoch }
    let read := Call.allChanges "bob" someTimeLater
    let answer (lifetime : Option Nat) := (read.run ⟨1, none⟩ (Call.runUnder
      (recordingRun {} [] draft purgedAtOnce lifetime) (Memory.Store.new 1))).1
    ¬ draft.date.IsLeap ∧
    (recordsOf draft.account (recordingRun {} [] draft purgedAtOnce none)
      (Memory.Store.new 1)).length < maxWord ∧
    ∃ record, answerTo {} [] draft (Memory.Store.new 1) none = .ok record ∧
      ¬ read.Delivers record (answer (some 86400)) ∧ read.Delivers record (answer (some 86401)) ∧
      answer none = answer (some 86401) := by
  intro draft read answer
  have plain : ¬ draft.date.IsLeap := by decide
  have few : (recordsOf draft.account (recordingRun {} [] draft purgedAtOnce none)
      (Memory.Store.new 1)).length < maxWord :=
    Nat.lt_of_le_of_lt (length_recordsOf_le _ _) (by decide)
  obtain ⟨-, ⟨record, told, kept⟩, -⟩ :=
    retention_total_monotone {} "mail" 1 [] purgedAtOnce plain
  obtain ⟨reads, stays⟩ := kept few
  have ordered : ∀ t ∈ purgedAtOnce.filterMap fun step => step.2.purge?,
      someTimeLater.isBefore t = false := by decide
  have delivered : read.Delivers record (answer (some 86401)) :=
    (reads.delivers_iff_of_ordered ⟨1, none⟩ (some 86401) someTimeLater ordered).mpr (by decide)
  refine ⟨plain, few, record, told none, ?_, delivered, ?_⟩
  · exact mt (reads.delivers_iff_of_ordered ⟨1, none⟩ (some 86400) someTimeLater ordered).mp
      (by decide)
  · exact stays ⟨1, none⟩ read (some 86401) none trivial delivered

/-- The states that a read delivers a day after a change, by the lifetime of that change. -/
def statesRead {σ : Type} [Storage σ] (start : σ) (lifetime : Option Nat) :
    Option (List (Option State)) :=
  let run := recordingRun {} [] { account := "bob", date := .epoch } purgedAtOnce lifetime
  ((Call.allChanges "bob" someTimeLater).run ⟨1, none⟩
    (Call.runUnder run start)).1.toOption.map fun scanned =>
      scanned.rows.map fun row => row.toOption.map ChangeRecord.state

/-- The database keeps the record as long. -/
example : statesRead (Database.Store.new "mail" 1) (some 86400) = some [] ∧
    statesRead (Database.Store.new "mail" 1) (some 86401) = some [some 1] ∧
    statesRead (Database.Store.new "mail" 1) (some maxWord) = some [some 1] := by
  decide +kernel

end Mailroom
