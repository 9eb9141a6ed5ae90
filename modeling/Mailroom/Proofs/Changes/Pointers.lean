import Mailroom.Proofs.Changes.Completeness
import Mailroom.Proofs.Database.Writes
/-!
The heads of a change log.

A store keeps two pointers for each account beside its records, and moves them whenever a change is
recorded. `Headed` says what each operation does to them. So after a run they are those of all the
changes that the run recorded, whether or not their records are still there
(`headsOf_runUnder`): the states of an account are counted through, the latest one counts its
changes, and the latest one that is not delegated is the greatest of those (`pointers_survive`).
Calls on other accounts change neither the pointers nor the records (`IsElsewhere`).
-/

namespace Mailroom

open Service

/-! ### Heads that are moved -/

namespace Heads

/-- The heads after some changes were recorded, each given by its state and whether it is delegated.
-/
def advanceAll (heads : Heads) (changes : List (State × Bool)) : Heads :=
  changes.foldl (fun heads change => heads.advance change.1 change.2) heads

theorem advanceAll_append {heads : Heads} {changes more : List (State × Bool)} :
    heads.advanceAll (changes ++ more) = (heads.advanceAll changes).advanceAll more :=
  List.foldl_append

/-- States that ascend move the second head to the greatest one that is not delegated. -/
theorem latestNotDelegated_advanceAll {changes : List (State × Bool)} {heads : Heads}
    (above : ∀ change ∈ changes, heads.latestNotDelegated < change.1)
    (ascending : changes.Pairwise fun change later => change.1 < later.1) :
    (heads.advanceAll changes).latestNotDelegated
      = ((changes.filter fun change => !change.2).map Prod.fst).foldl max
          heads.latestNotDelegated := by
  induction changes generalizing heads with
  | nil => rfl
  | cons change rest ih =>
    obtain ⟨state, delegated⟩ := change
    obtain ⟨below, rest_ascending⟩ := List.pairwise_cons.mp ascending
    have first : heads.latestNotDelegated < state := above (state, delegated) List.mem_cons_self
    cases delegated with
    | true =>
      exact ih (fun later member => above later (List.mem_cons_of_mem _ member)) rest_ascending
    | false =>
      show ((heads.advance state false).advanceAll rest).latestNotDelegated
        = List.foldl max (max heads.latestNotDelegated state) _
      rw [Nat.max_eq_right (Nat.le_of_lt first)]
      exact ih below rest_ascending

end Heads

/-- A store whose heads can be followed. -/
class Headed (σ : Type) [Storage σ] [Sound σ] where
  headsOf : σ → AccountId → Heads
  told : ∀ store : σ, isSound store → ∀ account,
    Storage.heads account store = (.ok (headsOf store account), store)
  quiet : ∀ (policy : Policy) (call : Call), call.IsQuiet → ∀ store : σ, isSound store →
    headsOf (call.run policy store).2 = headsOf store
  appendChange_error : ∀ draft expiresAt (store : σ), isSound store → ∀ e store',
    Storage.appendChange draft expiresAt store = (.error e, store') → headsOf store' = headsOf store
  appendChange : ∀ draft expiresAt (store : σ), isSound store → ∀ record store',
    Storage.appendChange draft expiresAt store = (.ok record, store') → ∀ account,
    headsOf store' account = if draft.account = account
      then (headsOf store account).advance record.state draft.isDelegated
      else headsOf store account
  purgeExpired : ∀ now (store : σ), isSound store →
    headsOf (Storage.purgeExpired now store).2 = headsOf store

namespace Headed

variable {σ : Type} [Storage σ] [Sound σ] [Headed σ] {account : AccountId} {store : σ}

/-- A call moves the heads of an account by the change that it recorded. -/
theorem headsOf_run (sound : isSound store) (policy : Policy) (call : Call) :
    headsOf (call.run policy store).2 account
      = (headsOf store account).advanceAll
          ((call.change? account (call.run policy store).1).toList.map fun change =>
            (change.2, change.1.isDelegated)) := by
  by_cases isQuiet : call.IsQuiet
  · rw [quiet policy call isQuiet store sound, Recorded.change?_of_quiet isQuiet]
    rfl
  cases call with
  | recordChange draft =>
    have ran : (Call.recordChange draft).run policy store
      = Storage.appendChange draft (policy.expiry draft.date) store := rfl
    rw [ran]
    rcases done : Storage.appendChange draft (policy.expiry draft.date) store with
      ⟨e | record, after⟩
    · rw [appendChange_error draft _ store sound e after done]
      rfl
    · rw [appendChange draft _ store sound record after done account]
      by_cases here : draft.account = account <;> simp [Call.change?, here, Heads.advanceAll]
  | purgeExpired now =>
    show headsOf (Storage.purgeExpired now store).2 account = _
    rw [purgeExpired now store sound]
    rfl
  | _ => exact absurd trivial isQuiet

variable [Revised σ] [PureReads σ]

/-- Calls move the heads of an account by the changes that they recorded. -/
theorem headsOf_runUnder (sound : isSound store) (steps : List (Policy × Call)) :
    headsOf (Call.runUnder steps store) account
      = (headsOf store account).advanceAll ((recordsOf account steps store).map fun entry =>
          (entry.2.state, entry.2.draft.isDelegated)) := by
  induction steps generalizing store with
  | nil => rfl
  | cons step rest ih =>
    obtain ⟨policy, call⟩ := step
    have middle : isSound (call.run policy store).2 := Call.runAll_sound policy [call] sound
    rw [recordsOf_cons, List.map_append, Heads.advanceAll_append, List.map_map]
    exact (ih middle).trans (congrArg (Heads.advanceAll · _) (headsOf_run sound policy call))

end Headed

/-! ### The two stores -/

instance : Headed Memory.Store where
  headsOf := Memory.Store.headsOf
  told m sound account := by
    show (m.readHeads account, m) = _
    unfold Memory.Store.readHeads
    rw [Memory.Store.ensureAvailable_ok.mpr sound.available]
    rfl
  quiet policy call isQuiet m _ := by
    obtain ⟨heads, -⟩ := Call.run_within Memory.Store.sameLogs_chains
      Memory.Store.writes_sameLogs policy call isQuiet m
    funext account
    unfold Memory.Store.headsOf
    rw [heads]
  appendChange_error draft expiresAt m _ e after fails := by
    have fails : Step.write (Memory.Store.appendChange draft expiresAt) m = (.error e, after) :=
      fails
    rw [Step.of_write_eq_error fails]
  appendChange draft expiresAt m _ record after done account := by
    obtain ⟨rfl, rfl⟩ := Memory.Store.appendChange_ok (Step.of_write_eq_ok done)
    rw [Memory.Store.headsOf_insert (m := m) rfl]
    split
    · rename_i here
      subst here
      rfl
    · rfl
  purgeExpired now m _ := by
    show Memory.Store.headsOf (Step.write (Memory.Store.purgeExpired now) m).2 = _
    rcases done : Step.write (Memory.Store.purgeExpired now) m with ⟨e | dropped, after⟩
    · rw [Step.of_write_eq_error done]
    · rw [Memory.Store.purgeExpired_ok (Step.of_write_eq_ok done)]
      rfl

namespace Database.Store

/-- The heads of an account as numbers. -/
def headsOf (d : Store) (account : AccountId) : Heads where
  latest := (d.database.headsRow account).latest.toNat
  latestNotDelegated := (d.database.headsRow account).latestNotDelegated.toNat

/-- The heads of a sound database are numbers. -/
theorem IsSound.headsRow_eq {d : Store} (sound : d.IsSound) (account : AccountId) :
    d.database.headsRow account
      = ⟨(d.headsOf account).latest, (d.headsOf account).latestNotDelegated⟩ := by
  obtain ⟨-, -, -, written⟩ := sound
  unfold headsOf
  cases found : d.database.heads.get? account with
  | none =>
    unfold headsRow
    rw [found]
    rfl
  | some row =>
    obtain ⟨latest, notDelegated, rfl, -⟩ := written.heads account row found
    unfold headsRow
    rw [found]
    rfl

end Database.Store

instance : Headed Database.Store where
  headsOf := Database.Store.headsOf
  told d sound account := by
    have row := sound.headsRow_eq account
    obtain ⟨_, -, mirrors, -⟩ := sound
    refine Prod.ext ?_ rfl
    show d.readHeads account = _
    unfold Database.Store.readHeads
    rw [mirrors.requireRelations, Outcomes.ok_bind]
    unfold Database.headsRow at row
    cases found : d.database.heads.get? account with
    | none =>
      unfold Database.Store.headsOf Database.headsRow
      rw [found]
      rfl
    | some head =>
      rw [found] at row
      cases row
      rfl
  quiet policy call isQuiet d sound := by
    obtain ⟨-, same⟩ := Call.run_within Mirror.keepsLogs_chains
      Mirror.writes_keepLogs policy call isQuiet d sound
    have heads : (call.run policy d).2.database.heads = d.database.heads :=
      congrArg Mirror.Log.heads same
    funext account
    unfold Database.Store.headsOf Database.headsRow
    rw [heads]
  appendChange_error draft expiresAt d sound e after fails := by
    rcases Database.Store.appendChange_error fails with rfl | ⟨state, db, inserted, negative, -⟩
    · rfl
    · -- The states of a sound database are numbers, and so is the one after the latest.
      obtain ⟨given, -⟩ := Database.Store.insertChange_ok inserted
      rw [sound.headsRow_eq] at given
      exact absurd negative (by rw [given]; exact Int.not_lt.mpr (Int.natCast_nonneg _))
  appendChange draft expiresAt d sound record after done account := by
    obtain ⟨db, inserted, -, rfl⟩ := Database.Store.appendChange_ok done
    obtain ⟨given, rfl⟩ := Database.Store.insertChange_ok inserted
    unfold Database.Store.headsOf
    rw [@Database.headsRow_insert d.database _ _ _ _ rfl]
    split
    · rename_i here
      subst here
      have row := sound.headsRow_eq draft.account
      have state : record.state = (d.headsOf draft.account).latest + 1 := by
        rw [row] at given
        exact Int.ofNat.inj given
      rw [row, state]
      cases draft.isDelegated <;> rfl
    · rfl
  purgeExpired now d sound := by
    obtain ⟨_, -, mirrors, -⟩ := sound
    have heads : (Storage.purgeExpired now d).2.database.heads = d.database.heads :=
      congrArg Mirror.Log.heads (mirrors.purgeExpired_eq now).logged
    funext account
    show Database.Store.headsOf (Storage.purgeExpired now d).2 account = _
    unfold Database.Store.headsOf Database.headsRow
    rw [heads]

/-! ### What is kept of an account -/

/-- What a store keeps of the changes of an account: its heads, and its records under their states.
-/
@[ext]
structure AccountLog (η κ ρ : Type) where
  heads : Option η
  records : List (κ × ρ)

/-- A call records no change of an account and drops no records. -/
def Service.Call.IsElsewhere (account : AccountId) : Call → Prop
  | .recordChange draft => draft.account ≠ account
  | .purgeExpired _ => False
  | _ => True

/-- A call that neither records changes of an account nor drops records is quiet, or records one of
another account. -/
theorem Service.Call.IsElsewhere.cases {account : AccountId} {call : Call}
    (elsewhere : call.IsElsewhere account) :
    call.IsQuiet ∨ ∃ draft, call = .recordChange draft ∧ draft.account ≠ account := by
  cases call with
  | recordChange draft => exact .inr ⟨draft, rfl, elsewhere⟩
  | purgeExpired now => exact elsewhere.elim
  | _ => exact .inl trivial

section AccountLogs

variable {account : AccountId}

/-- What the store in memory keeps of an account. -/
def Memory.Store.accountLog (m : Memory.Store) (account : AccountId) :
    AccountLog Heads State Memory.StoredChange where
  heads := m.heads.get? account
  records := (m.changes.filter fun place _ => place.account = account).entries.map
    fun entry => (entry.1.state, entry.2)

/-- What a database keeps of an account. -/
def Database.Store.accountLog (d : Database.Store) (account : AccountId) :
    AccountLog Database.HeadsRow Database.Cell Database.ChangeRow where
  heads := d.database.heads.get? account
  records := (d.database.changes.filter fun place _ => place.account = account).entries.map
    fun entry => (entry.1.state, entry.2)

/-- Calls elsewhere leave in memory what is kept of an account. -/
theorem Memory.Store.accountLog_run {call : Call} (elsewhere : call.IsElsewhere account)
    (policy : Policy) (m : Memory.Store) :
    (call.run policy m).2.accountLog account = m.accountLog account := by
  rcases elsewhere.cases with isQuiet | ⟨draft, rfl, other⟩
  · obtain ⟨heads, changes⟩ := Call.run_within sameLogs_chains writes_sameLogs policy call isQuiet m
    unfold accountLog
    rw [heads, changes]
  · show (Step.write (appendChange draft (policy.expiry draft.date)) m).2.accountLog account = _
    rcases done : Step.write (appendChange draft (policy.expiry draft.date)) m with
      ⟨e | record, after⟩
    · rw [Step.of_write_eq_error done]
    · obtain ⟨-, rfl⟩ := appendChange_ok (Step.of_write_eq_ok done)
      refine AccountLog.ext (Table.get?_insert.trans (if_neg other)) ?_
      refine congrArg (fun changes : Table LogPlace StoredChange => changes.entries.map _)
        (Table.filter_insert_of_not ?_)
      exact fun _ => decide_eq_false other

/-- Calls elsewhere leave in a sound database what is kept of an account. -/
theorem Database.Store.accountLog_run {call : Call} (elsewhere : call.IsElsewhere account)
    (policy : Policy) {d : Database.Store} (sound : d.IsSound) :
    (call.run policy d).2.accountLog account = d.accountLog account := by
  rcases elsewhere.cases with isQuiet | ⟨draft, rfl, other⟩
  · obtain ⟨-, same⟩ :=
      Call.run_within Mirror.keepsLogs_chains Mirror.writes_keepLogs policy call isQuiet d sound
    unfold accountLog
    rw [show (call.run policy d).2.database.heads = _ from congrArg Mirror.Log.heads same,
      show (call.run policy d).2.database.changes = _ from congrArg Mirror.Log.changes same]
    rfl
  · have recorded {db : Database} {state : Int}
        (inserted : insertChange draft (policy.expiry draft.date) d.database = .ok (state, db)) :
        accountLog { d with database := db } account = d.accountLog account := by
      obtain ⟨-, rfl⟩ := insertChange_ok inserted
      refine AccountLog.ext (Table.get?_insert.trans (if_neg other)) ?_
      refine congrArg (fun changes : Table ChangePlace ChangeRow => changes.entries.map _)
        (Table.filter_insert_of_not ?_)
      exact fun _ => decide_eq_false other
    show (appendChange draft (policy.expiry draft.date) d).2.accountLog account = _
    rcases done : appendChange draft (policy.expiry draft.date) d with ⟨e | record, after⟩
    · rcases appendChange_error done with rfl | ⟨_, _, inserted, -, rfl⟩
      · rfl
      · exact recorded inserted
    · obtain ⟨_, inserted, -, rfl⟩ := appendChange_ok done
      exact recorded inserted

/-- The records of a sound database lie under the states that its view shows. -/
theorem Database.Store.states_accountLog {d : Database.Store} (sound : d.IsSound) :
    (d.accountLog account).records.map Prod.fst
      = ((Logged.log d).rows account).map fun row => .integer row.state := by
  obtain ⟨-, -, -, written⟩ := sound
  show (List.map _ _).map Prod.fst = (List.map Mirror.logRow _).map _
  rw [List.map_map, List.map_map]
  refine List.map_congr_left fun entry member => ?_
  obtain ⟨state, _, _, rfl, -, -⟩ := written.entry member
  rfl

end AccountLogs

/-! ### After runs -/

/-- The greatest state of those changes that are not delegated, the initial one if there is none. -/
def greatestNotDelegated (changes : List (Policy × Change)) : State :=
  ((changes.filter fun entry => !entry.2.draft.isDelegated).map fun entry =>
    entry.2.state).foldl max .initial

/-- After calls under policies of their own, the pointers of an account are those of all its changes
that the calls recorded, its records lie under different states up to the latest one, and no call
elsewhere changes what is kept of it. -/
structure PointersSurvive {σ η κ ρ : Type} [Storage σ]
    (accountLog : σ → AccountId → AccountLog η κ ρ) (cell : State → κ) (start : σ)
    (steps : List (Policy × Call)) (account : AccountId) : Prop where
  states : (recordsOf account steps start).map (fun entry => entry.2.state)
    = List.range' 1 (recordsOf account steps start).length
  latest : ∀ policy, ((Call.latestState account).run policy (Call.runUnder steps start)).1
    = .ok (recordsOf account steps start).length
  latestNotDelegated : ∀ policy,
    ((Call.latestStateNotDelegated account).run policy (Call.runUnder steps start)).1
      = .ok (greatestNotDelegated (recordsOf account steps start))
  retained : ∃ states : List State,
    states.Sublist (List.range' 1 (recordsOf account steps start).length) ∧
      (accountLog (Call.runUnder steps start) account).records.map Prod.fst = states.map cell
  elsewhere : ∀ (policy : Policy) (call : Call), call.IsElsewhere account →
    accountLog (call.run policy (Call.runUnder steps start)).2 account
      = accountLog (Call.runUnder steps start) account

namespace Headed

open Logged Recorded

variable {σ η κ ρ : Type} [Storage σ] [Sound σ] [Recorded σ] [Headed σ] [Revised σ] [PureReads σ]
  {start : σ} {account : AccountId} {steps : List (Policy × Call)}

omit [Recorded σ] [Revised σ] [PureReads σ] in
/-- The latest state that is not delegated is told. -/
theorem latestStateNotDelegated_eq {store : σ} (sound : isSound store) (policy : Policy) :
    ((Call.latestStateNotDelegated account).run policy store).1
      = .ok (headsOf store account).latestNotDelegated := by
  show ((Storage.heads account >>= fun heads => pure heads.latestNotDelegated) store).1 = _
  rw [Step.bind_of_ok (told store sound account)]
  rfl

/-- Pointers survive in a store that keeps its records under the states of its view. -/
theorem pointersSurvive (blank : IsBlank start) (untold : headsOf start account = {})
    {accountLog : σ → AccountId → AccountLog η κ ρ} {cell : State → κ}
    (shown : ∀ store, isSound store → (accountLog store account).records.map Prod.fst
      = ((log store).rows account).map fun row => cell row.state)
    (elsewhere : ∀ (policy : Policy) (call : Call) (store : σ), isSound store →
      call.IsElsewhere account →
      accountLog (call.run policy store).2 account = accountLog store account)
    (room : (log (Call.runUnder steps start)).latest account < maxWord) :
    PointersSurvive accountLog cell start steps account := by
  have sound := runUnder_sound blank.sound steps
  obtain ⟨latest, states, rows⟩ := run_records blank.sound steps room
  rw [blank.latest account] at latest states
  rw [blank.rows account, List.filter_nil, List.nil_append] at rows
  have states : (recordsOf account steps start).map (fun entry => entry.2.state)
      = List.range' 1 (recordsOf account steps start).length := states
  refine ⟨states, fun policy => ?_, fun policy => ?_, ?_, fun policy call apart => ?_⟩
  · rw [latestState_eq sound, latest]
    exact congrArg Except.ok (Nat.zero_add _)
  · have ascending : ((recordsOf account steps start).map fun entry => entry.2.state).Pairwise
        (· < ·) := by
      rw [states]
      exact List.pairwise_lt_range'
    rw [latestStateNotDelegated_eq sound, headsOf_runUnder blank.sound steps, untold,
      Heads.latestNotDelegated_advanceAll]
    · rw [List.filter_map, List.map_map]
      rfl
    · intro change member
      obtain ⟨entry, listed, rfl⟩ := List.mem_map.mp member
      have given : entry.2.state ∈ List.range' 1 (recordsOf account steps start).length := by
        rw [← states]
        exact List.mem_map_of_mem listed
      exact (List.mem_range'_1.mp given).1
    · rw [List.pairwise_map]
      exact List.pairwise_map.mp ascending
  · refine ⟨((log (Call.runUnder steps start)).rows account).map LogRow.state, ?_, ?_⟩
    · have kept : (fun entry : Policy × Change => (row σ entry.1 entry.2).state)
          = fun entry => entry.2.state := funext fun entry => state_kept _ _ _
      rw [rows, List.map_map, ← states]
      show (((recordsOf account steps start).filter _).map fun entry =>
        (row σ entry.1 entry.2).state).Sublist _
      rw [kept]
      exact List.filter_sublist.map _
    · rw [shown _ sound, List.map_map]
      rfl
  · exact elsewhere policy call _ sound apart

end Headed

/-- The pointers of an account survive every run, in memory as long as the states have not run out.
-/
theorem pointers_survive (path : String) (listBound : Nat) (steps : List (Policy × Call))
    (account : AccountId) :
    ((recordsOf account steps (Memory.Store.new listBound)).length < maxWord →
      PointersSurvive Memory.Store.accountLog id (Memory.Store.new listBound) steps account) ∧
    PointersSurvive Database.Store.accountLog (fun state => .integer state)
      (Database.Store.new path listBound) steps account := by
  constructor
  · intro few
    refine Headed.pointersSurvive (Memory.Store.new_isBlank listBound) rfl (fun m _ => ?_)
      (fun policy call m _ elsewhere => m.accountLog_run elsewhere policy)
      (Memory.Store.states_left few)
    show (List.map _ _).map Prod.fst = (List.map Memory.Store.logRow _).map _
    rw [List.map_map, List.map_map]
    rfl
  · exact Headed.pointersSurvive (Mirror.new_isBlank path listBound) rfl
      (fun d sound => d.states_accountLog sound)
      (fun policy call d sound elsewhere => d.accountLog_run elsewhere policy sound)
      (Mirror.states_left path listBound steps account)

/-- Changes of two accounts, of which the second is delegated, and a purge that leaves none. -/
def purgedToTheEnd : List (Policy × Call) :=
  [(⟨1, some 1000⟩, .recordChange { account := "bob", date := .epoch }),
    (⟨1, some 1000⟩, .recordChange { account := "bob", date := .epoch, isDelegated := true }),
    (⟨1, some 1000⟩, .recordChange { account := "eve", date := .epoch }),
    (⟨1, some 1000⟩, .purgeExpired someTimeLater)]

theorem pointers_survive_purgedToTheEnd :
    (recordsOf "bob" purgedToTheEnd (Memory.Store.new 1)).length < maxWord ∧
      PointersSurvive Memory.Store.accountLog id (Memory.Store.new 1) purgedToTheEnd "bob" := by
  have few : (recordsOf "bob" purgedToTheEnd (Memory.Store.new 1)).length = 2 := by
    decide +kernel
  have room : (recordsOf "bob" purgedToTheEnd (Memory.Store.new 1)).length < maxWord := by
    rw [few]
    decide
  exact ⟨room, (pointers_survive "mail" 1 purgedToTheEnd "bob").1 room⟩

end Mailroom
