import Mailroom.Proofs.Flags.Edits
/-!
Requests to change flags, one after another.

A request mentions a flag if it adds or removes it, and a replacement mentions every flag. After any
list of requests, the last one that mentions a flag has decided it (`Flags.has_after`), whether it
is a system flag or a keyword. What a store holds is what the requests say: each call carries out
the edit of its request, which is the request (`Applies.lookUp_eq`, by induction on the calls), and
the modification sequence it counts up for that disturbs no row.
-/

namespace Mailroom

open Service

variable {σ : Type}

/-! ### One flag, of either kind -/

/-- The name of a flag. -/
inductive FlagName where
  | system (flag : SystemFlag)
  | keyword (name : String)
deriving DecidableEq, Repr

/-- Whether a flag is set. -/
def Flags.has (flags : Flags) : FlagName → Bool
  | .system flag => flags.get flag
  | .keyword name => flags.hasKeyword name

/-- The flags after a list of updates. -/
def Flags.after (flags : Flags) (updates : List FlagUpdate) : Flags :=
  updates.foldl (fun flags update => update.apply flags) flags

/-- Whether an update says anything of a flag. -/
def FlagUpdate.mentions (update : FlagUpdate) (name : FlagName) : Bool :=
  update.mode = .replace || update.flags.has name

/-- Whether a flag that is mentioned is set afterwards. -/
def FlagUpdate.sets (update : FlagUpdate) (name : FlagName) : Bool :=
  update.mode = .add || update.mode = .replace && update.flags.has name

/-- The last of some updates that mentions a flag. -/
def lastMention (updates : List FlagUpdate) (name : FlagName) : Option FlagUpdate :=
  (updates.filter (·.mentions name)).getLast?

namespace Flags

variable {a b flags : Flags} {name : FlagName}

theorem ext_has (same : ∀ name, a.has name = b.has name) : a = b := by
  refine ext_get (fun flag => same (.system flag)) (NameSet.ext fun name => ?_)
  exact decide_eq_decide.mp (same (.keyword name))

@[simp] theorem has_union : (a.union b).has name = (a.has name || b.has name) := by
  cases name with
  | system flag => exact get_union
  | keyword name => simp [has, hasKeyword, union]

@[simp] theorem has_diff : (a.diff b).has name = (a.has name && !b.has name) := by
  cases name with
  | system flag => exact get_diff
  | keyword name => simp [has, hasKeyword, diff]

end Flags

/-! ### Updates -/

namespace FlagUpdate

variable {update other : FlagUpdate} {old : Flags} {name : FlagName}

/-- An update decides what it mentions and nothing else. -/
theorem has_apply : (update.apply old).has name
    = if update.mentions name then update.sets name else old.has name := by
  obtain ⟨flags, mode⟩ := update
  cases mode <;> cases named : flags.has name <;> simp [apply, mentions, sets, named]

theorem apply_apply : update.apply (update.apply old) = update.apply old := by
  refine Flags.ext_has fun name => ?_
  rw [has_apply, has_apply]
  split <;> rfl

theorem has_of_remove (removes : update.mode = .remove) (set : (update.apply old).has name = true) :
    old.has name = true := by
  rw [has_apply] at set
  split at set
  · rw [sets, removes] at set
    cases set
  · exact set

/-- Updates that set the same of what both mention can change places. -/
theorem apply_comm (same : ∀ name, update.mentions name = true → other.mentions name = true →
      update.sets name = other.sets name) :
    update.apply (other.apply old) = other.apply (update.apply old) := by
  refine Flags.ext_has fun name => ?_
  rw [has_apply, has_apply, has_apply, has_apply]
  by_cases first : update.mentions name = true
  · by_cases second : other.mentions name = true
    · rw [if_pos first, if_pos second, same name first second]
    · rw [if_pos first, if_neg second, if_pos first]
  · rw [if_neg first, if_neg first]

theorem apply_comm_of_add (adds : update.mode = .add) (adds' : other.mode = .add) :
    update.apply (other.apply old) = other.apply (update.apply old) :=
  apply_comm fun name _ _ => by simp [sets, adds, adds']

theorem apply_comm_of_disjoint (keeps : update.mode ≠ .replace) (keeps' : other.mode ≠ .replace)
    (apart : ∀ name, ¬ (update.flags.has name = true ∧ other.flags.has name = true)) :
    update.apply (other.apply old) = other.apply (update.apply old) := by
  refine apply_comm fun name first second => absurd ⟨?_, ?_⟩ (apart name)
  · simpa [mentions, keeps] using first
  · simpa [mentions, keeps'] using second

end FlagUpdate

/-- Of a list of updates, the last one that mentions a flag decides it. -/
theorem Flags.has_after {flags : Flags} {updates : List FlagUpdate} {name : FlagName} :
    (flags.after updates).has name
      = ((lastMention updates name).map (·.sets name)).getD (flags.has name) := by
  have reads (old : Flags) (update : FlagUpdate) : (update.apply old).has name
      = if update.mentions name then update.sets name else old.has name := FlagUpdate.has_apply
  exact read_foldl (fun flags : Flags => flags.has name) reads updates flags

/-! ### Requests to a store -/

/-- Requests to change the flags of one row that all succeed, one after another. -/
inductive Applies [Storage σ] (place : Place) : List FlagUpdate → σ → σ → Prop
  | nil {store : σ} : Applies place [] store store
  | cons {update : FlagUpdate} {updates : List FlagUpdate} {expected : Option ModSeq}
      {metadata : Metadata} {store next after : σ} :
      applyFlags place.mailbox place.uid update expected store = (.ok metadata, next) →
      Applies place updates next after → Applies place (update :: updates) store after

section Requests

variable [Storage σ] [Kept σ] [Sound σ] [Stocked σ] [RollsBack σ] [Displayed σ] [Edits σ]
  {place : Place} {row : Message} {store after : σ}

/-- A request that succeeds leaves the row with the flags of the update. -/
theorem Service.applyFlags_lookUp {update : FlagUpdate} {expected : Option ModSeq}
    {metadata : Metadata} (read : lookUp .metadata store place = .ok (some row))
    (done : applyFlags place.mailbox place.uid update expected store = (.ok metadata, after)) :
    ∃ modSeq, lookUp .metadata after place
      = .ok (some { row with flags := update.apply row.flags, modSeq }) := by
  obtain ⟨modSeq, counted, given, done⟩ := Step.of_bind_eq_ok done
  have onlyCounted := RollsBack.nextModSeq place.mailbox store
  rw [given] at onlyCounted
  have still : lookUp .metadata _ place = lookUp .metadata store place :=
    Displayed.lookUp_counted onlyCounted.kept .metadata
  have stored := (Edits.updateFlags (still.trans read) done).stored .metadata
  rw [still, read] at stored
  refine ⟨modSeq, stored.trans ?_⟩
  rw [← FlagEdit.ofUpdate_apply]
  rfl

/-- After requests that succeed, the row has the flags of their updates. -/
theorem Applies.lookUp_eq {updates : List FlagUpdate} (applies : Applies place updates store after)
    (read : lookUp .metadata store place = .ok (some row)) : ∃ modSeq,
    lookUp .metadata after place
      = .ok (some { row with flags := row.flags.after updates, modSeq }) := by
  induction applies generalizing row with
  | nil => exact ⟨row.modSeq, read⟩
  | cons done _ ih =>
    obtain ⟨_, next⟩ := applyFlags_lookUp read done
    exact ih next

end Requests

/-! ### The last request counts -/

/-- In a row that is read at a place, each flag is set if the last update that mentions it adds it,
or replaces the flags by some with it, or if no update mentions it and it was set before. -/
def DecidedByLast [Storage σ] (updates : List FlagUpdate) (place : Place) (before : Message)
    (after : σ) : Prop :=
  ∃ row, lookUp .metadata after place = .ok (some row) ∧ row.flags = before.flags.after updates ∧
    ∀ name, row.flags.has name = true ↔
      (∃ update, lastMention updates name = some update ∧
        (update.mode = .add ∨ update.mode = .replace ∧ update.flags.has name = true)) ∨
      (∀ update ∈ updates, update.mentions name = false) ∧ before.flags.has name = true

theorem Applies.decidedByLast [Storage σ] [Kept σ] [Sound σ] [Stocked σ] [RollsBack σ]
    [Displayed σ] [Edits σ] {updates : List FlagUpdate} {place : Place} {row : Message}
    {store after : σ} (applies : Applies place updates store after)
    (read : lookUp .metadata store place = .ok (some row)) :
    DecidedByLast updates place row after := by
  obtain ⟨modSeq, stored⟩ := applies.lookUp_eq read
  refine ⟨_, stored, rfl, fun name => ?_⟩
  show (row.flags.after updates).has name = true ↔ _
  rw [Flags.has_after]
  cases last : lastMention updates name with
  | none =>
    have unmentioned : ∀ update ∈ updates, update.mentions name = false := by
      simpa [lastMention] using last
    simpa using fun _ => unmentioned
  | some update =>
    obtain ⟨member, mentioned⟩ := List.mem_filter.mp (List.mem_of_getLast? last)
    have decides : update.sets name = true ↔
        update.mode = .add ∨ update.mode = .replace ∧ update.flags.has name = true := by
      simp [FlagUpdate.sets]
    refine decides.trans ⟨fun set => .inl ⟨update, rfl, set⟩, ?_⟩
    rintro (⟨_, same, set⟩ | ⟨unmentioned, -⟩)
    · cases same
      exact set
    · rw [unmentioned update member] at mentioned
      cases mentioned

/-- In either store, whatever it holds, after requests that succeed each flag of a row is as the
last request says that mentions it. So a repeated request changes no flag, additions can change
places, a removal sets nothing, and requests can change places that replace nothing and have no flag
in common. -/
theorem flags_decidedByLast :
    (∀ (updates : List FlagUpdate) (place : Place) (row : Message),
      (∀ m after : Memory.Store, lookUp .metadata m place = .ok (some row) →
        Applies place updates m after → DecidedByLast updates place row after) ∧
      ∀ d after : Database.Store, lookUp .metadata d place = .ok (some row) →
        Applies place updates d after → DecidedByLast updates place row after) ∧
    ∀ (flags : Flags) (first second : FlagUpdate),
      flags.after [first, first] = flags.after [first] ∧
      (first.mode = .add → second.mode = .add →
        flags.after [first, second] = flags.after [second, first]) ∧
      (first.mode = .remove →
        ∀ name, (flags.after [first]).has name = true → flags.has name = true) ∧
      (first.mode ≠ .replace → second.mode ≠ .replace →
        (∀ name, ¬ (first.flags.has name = true ∧ second.flags.has name = true)) →
        flags.after [first, second] = flags.after [second, first]) := by
  refine ⟨fun updates place row => ⟨fun m after read applies => applies.decidedByLast read,
    fun d after read applies => applies.decidedByLast read⟩, fun flags first second => ?_⟩
  exact ⟨FlagUpdate.apply_apply,
    fun adds adds' => FlagUpdate.apply_comm_of_add adds' adds,
    fun removes _ => FlagUpdate.has_of_remove removes,
    fun keeps keeps' apart => (FlagUpdate.apply_comm_of_disjoint keeps keeps' apart).symm⟩

/-- Requests that succeed one after another, as they are run. -/
theorem Applies.of_isSome [Storage σ] {place : Place} {update : FlagUpdate}
    {updates : List FlagUpdate} {store after : σ} (expected : Option ModSeq)
    (answers : (applyFlags place.mailbox place.uid update expected store).1.toOption.isSome = true)
    (rest : Applies place updates
      (applyFlags place.mailbox place.uid update expected store).2 after) :
    Applies place (update :: updates) store after := by
  rcases done : applyFlags place.mailbox place.uid update expected store with ⟨e | metadata, next⟩
  · rw [done] at answers
    cases answers
  · rw [done] at rest
    exact .cons done rest

/-- Requests of each mode: a keyword and a flag are added, the keyword is removed, the flags are
replaced by the keyword, and another keyword is added. -/
def mixedRequests : List FlagUpdate :=
  [⟨{ seen := true, keywords := .ofList ["a"] }, .add⟩, ⟨{ keywords := .ofList ["a"] }, .remove⟩,
    ⟨{ keywords := .ofList ["a"] }, .replace⟩, ⟨{ keywords := .ofList ["b"] }, .add⟩]

/-- The seen message has the two keywords in the end, and is not seen. -/
theorem flags_decidedByLast_mixed :
    let calls : List Call := [.append "inbox" seenMessage .epoch]
    let m := (Call.runAll ⟨1, none⟩ calls (Memory.Store.new 1)).2
    let d := (Call.runAll ⟨1, none⟩ calls (Database.Store.new "mail" 1)).2
    let place : Place := ⟨"inbox", 1⟩
    let row := { seenMessage.row "inbox" 1 1 .epoch with content := none }
    let adds : FlagUpdate := ⟨{ keywords := .ofList ["a"] }, .add⟩
    let flags : FlagUpdate := ⟨{ flagged := true }, .add⟩
    let removes : FlagUpdate := ⟨{ keywords := .ofList ["old"] }, .remove⟩
    (lookUp .metadata m place = .ok (some row) ∧ ∃ after, Applies place mixedRequests m after ∧
        DecidedByLast mixedRequests place row after) ∧
      (lookUp .metadata d place = .ok (some row) ∧ ∃ after, Applies place mixedRequests d after ∧
        DecidedByLast mixedRequests place row after) ∧
      row.flags.after mixedRequests = { Flags.empty with keywords := .ofList ["a", "b"] } ∧
      row.flags.after [adds, adds] = row.flags.after [adds] ∧
      row.flags.after [adds, flags] = row.flags.after [flags, adds] ∧
      row.flags.has (.system .seen) = true ∧
      row.flags.after [adds, removes] = row.flags.after [removes, adds] := by
  intro calls m d place row adds flags removes
  have inMemory : lookUp .metadata m place = .ok (some row) := by rfl
  have inDatabase : lookUp .metadata d place = .ok (some row) := by rfl
  obtain ⟨after, applied⟩ : ∃ after, Applies place mixedRequests m after :=
    ⟨_, .of_isSome (some 1) (by decide +kernel) <| .of_isSome none (by decide +kernel) <|
      .of_isSome none (by decide +kernel) <| .of_isSome none (by decide +kernel) .nil⟩
  obtain ⟨after', applied'⟩ : ∃ after, Applies place mixedRequests d after :=
    ⟨_, .of_isSome (some 1) (by decide +kernel) <| .of_isSome none (by decide +kernel) <|
      .of_isSome none (by decide +kernel) <| .of_isSome none (by decide +kernel) .nil⟩
  have decided := flags_decidedByLast.1 mixedRequests place row
  obtain ⟨repeats, commutes, -, -⟩ := flags_decidedByLast.2 row.flags adds flags
  obtain ⟨-, -, introduces, -⟩ := flags_decidedByLast.2 row.flags removes adds
  obtain ⟨-, -, -, apart⟩ := flags_decidedByLast.2 row.flags adds removes
  refine ⟨⟨inMemory, after, applied, decided.1 m after inMemory applied⟩,
    ⟨inDatabase, after', applied', decided.2 d after' inDatabase applied'⟩, by decide +kernel,
    repeats, commutes rfl rfl, introduces rfl _ (by decide +kernel),
    apart (by decide) (by decide) fun name => ?_⟩
  cases name with
  | system flag => cases flag <;> decide
  | keyword name =>
    have differ : name = "a" → name ≠ "old" := by
      rintro rfl
      decide
    simpa [adds, removes, Flags.has, Flags.hasKeyword] using differ

end Mailroom
