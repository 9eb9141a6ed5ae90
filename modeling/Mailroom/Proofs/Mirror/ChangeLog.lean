import Mailroom.Proofs.Changes.Reads
import Mailroom.Proofs.Mirror.Relation
/-!
Change logs in the database.

`Log.IsWritten` says that every record of a log was written for a draft, under a state that was
given out for its account. Recording a change keeps this and gives the change the next state, unless
the states have run out (`appendChange_eq`, `appendChange_error`); dropping records keeps it as well
(`purgeExpired_eq`). What is read of a written log is what stands in its view (`readHeads_eq`,
`changesPage_eq`).
-/

namespace Mailroom

/-! ### Integers in columns -/

namespace Database

namespace Cell

/-- Integers in columns are ordered as integers. -/
theorem compare_integer {a b : Int} : compare (integer a) (integer b) = compare a b := by
  show compareLex (compareOn rank) (compareLex (compareOn floor) (compareLex (compareOn excess)
    (compareLex (compareOn isReal) (compareLex (compareOn textPart) (compareOn octetsPart)))))
      (integer a) (integer b) = compare a b
  simp [compareLex, compareOn, rank, floor, excess, isReal, textPart, octetsPart]

theorem isFrom_integer {a b : Int} : (integer a).isFrom b = decide (b ≤ a) := by
  unfold isFrom
  rw [compare_integer, Bool.eq_iff_iff, decide_eq_true_eq]
  exact Std.isGE_compare

theorem isAbove_integer {a b : Int} : (integer a).isAbove b = decide (b < a) := by
  unfold isAbove
  rw [compare_integer, Bool.eq_iff_iff, decide_eq_true_eq]
  rw [Ordering.isGT_iff_eq_gt, Std.compare_eq_gt]

end Cell

end Database

namespace Mirror

open Database

/-- The latest state of an account, the initial one before its first change. -/
def Log.latest (log : Log) (account : AccountId) : State :=
  ((log.heads.get? account).map fun row => row.latest.toNat).getD .initial

/-- Every record was written for a draft, under a state that was given out. -/
structure Log.IsWritten (log : Log) : Prop where
  heads : ∀ account row, log.heads.get? account = some row →
    ∃ latest notDelegated : Nat, row = ⟨latest, notDelegated⟩ ∧ latest ≤ maxStored
  changes : ∀ place row, log.changes.get? place = some row →
    ∃ (state : State) (draft : ChangeDraft) (expiresAt : Option Instant),
      place.state = .integer state ∧ 1 ≤ state ∧ state ≤ log.latest place.account ∧
        row = .ofDraft draft expiresAt

/-- Records of one account are ordered by their states. -/
theorem compare_changePlace {account : AccountId} {a b : Int} :
    compare (ChangePlace.mk account (.integer a)) (.mk account (.integer b)) = compare a b := by
  show (compare account account).then (compare (Cell.integer a) (.integer b)) = compare a b
  rw [Std.compare_self, Cell.compare_integer]
  rfl

variable {log : Log} {db : Database} {account : AccountId} {draft : ChangeDraft}
  {expiresAt : Option Instant}

namespace Log.IsWritten

theorem empty : Log.IsWritten ⟨.empty, .empty⟩ where
  heads account row found := by cases found
  changes place row found := by cases found

theorem latest_le (written : log.IsWritten) (account : AccountId) :
    log.latest account ≤ maxStored := by
  unfold Log.latest
  cases found : log.heads.get? account with
  | none => exact Nat.zero_le _
  | some row =>
    obtain ⟨latest, _, rfl, fits⟩ := written.heads account row found
    exact fits

/-- The state after the latest one has no record yet. -/
theorem next_free (written : log.IsWritten) (account : AccountId) :
    log.changes.get? ⟨account, .integer (log.latest account + 1 : Nat)⟩ = none := by
  cases found : log.changes.get? ⟨account, .integer (log.latest account + 1 : Nat)⟩ with
  | none => rfl
  | some row =>
    obtain ⟨state, _, _, same, _, reached, _⟩ := written.changes _ row found
    injection same with same
    have beyond : log.latest account + 1 = state := Int.ofNat.inj same
    have reached : state ≤ log.latest account := reached
    rw [← beyond] at reached
    exact absurd reached (Nat.not_succ_le_self _)

end Log.IsWritten

/-- The log after a change was recorded. -/
def Log.recorded (log : Log) (draft : ChangeDraft) (expiresAt : Option Instant)
    (notDelegated : Int) : Log where
  heads := log.heads.insert draft.account ⟨(log.latest draft.account + 1 : Nat), notDelegated⟩
  changes := log.changes.insert ⟨draft.account, .integer (log.latest draft.account + 1 : Nat)⟩
    (.ofDraft draft expiresAt)

theorem Log.latest_recorded {notDelegated : Int} :
    (log.recorded draft expiresAt notDelegated).latest account
      = if draft.account = account then log.latest account + 1 else log.latest account := by
  show ((((log.heads.insert draft.account _).get? account).map _).getD _ : State) = _
  rw [Table.get?_insert]
  split
  · rename_i same
    rw [same]
    rfl
  · rfl

theorem Log.IsWritten.recorded (written : log.IsWritten)
    (room : log.latest draft.account < maxStored) (notDelegated : Nat) :
    (log.recorded draft expiresAt notDelegated).IsWritten where
  heads account row found := by
    have found : (log.heads.insert draft.account _).get? account = some row := found
    rw [Table.get?_insert] at found
    split at found
    · cases found
      exact ⟨_, notDelegated, rfl, room⟩
    · exact written.heads account row found
  changes place row found := by
    have found : (log.changes.insert _ _).get? place = some row := found
    rw [Table.get?_insert] at found
    split at found
    · rename_i same
      cases found
      subst same
      refine ⟨_, draft, expiresAt, rfl, Nat.succ_le_succ (Nat.zero_le _), Nat.le_of_eq ?_, rfl⟩
      rw [Log.latest_recorded, if_pos rfl]
    · obtain ⟨state, draft', expiresAt', same, first, reached, written⟩ :=
        written.changes place row found
      refine ⟨state, draft', expiresAt', same, first, ?_, written⟩
      rw [Log.latest_recorded]
      split
      · exact Nat.le_succ_of_le reached
      · exact reached

/-- Dropping records takes no state back. -/
theorem Log.IsWritten.dropped (written : log.IsWritten) (keep : ChangePlace → ChangeRow → Bool) :
    Log.IsWritten { log with changes := log.changes.filter keep } where
  heads := written.heads
  changes place row found := by
    rw [Table.get?_filter] at found
    exact written.changes place row (Option.filter_eq_some_iff.mp found).1

/-- Moving the heads gives out the next state. -/
theorem advanceHeads_eq (complete : db.missing = []) (written : (logOf db).IsWritten)
    (room : (logOf db).latest account < maxStored) (delegated : Bool) :
    ∃ notDelegated : Nat, Store.advanceHeads db account delegated
      = .ok (((logOf db).latest account + 1 : Nat), { db with
          heads := db.heads.insert account ⟨((logOf db).latest account + 1 : Nat), notDelegated⟩ })
    := by
  unfold Store.advanceHeads Log.latest at *
  rw [requireRelations_of_complete complete]
  cases found : db.heads.get? account with
  | none =>
    have none : (logOf db).heads.get? account = Option.none := found
    refine ⟨if delegated then 0 else 1, ?_⟩
    cases delegated <;> (rw [none]; rfl)
  | some row =>
    have some : (logOf db).heads.get? account = Option.some row := found
    obtain ⟨latest, notDelegated, rfl, -⟩ := written.heads account row found
    rw [some] at room ⊢
    have below : ¬ (maxStored : Int) ≤ latest := by
      have : latest < maxStored := room
      omega
    refine ⟨if delegated then notDelegated else latest + 1, ?_⟩
    simp only [Outcomes.ok_bind, if_neg below]
    cases delegated <;> rfl

theorem advanceHeads_error (complete : db.missing = []) (written : (logOf db).IsWritten)
    (last : (logOf db).latest account = maxStored) (delegated : Bool) :
    Store.advanceHeads db account delegated = .error EngineError.columnType.toStoreError := by
  unfold Store.advanceHeads Log.latest at *
  rw [requireRelations_of_complete complete]
  cases found : db.heads.get? account with
  | none =>
    have none : (logOf db).heads.get? account = Option.none := found
    rw [none] at last
    cases last
  | some row =>
    have some : (logOf db).heads.get? account = Option.some row := found
    obtain ⟨latest, notDelegated, rfl, -⟩ := written.heads account row found
    rw [some] at last
    have reached : (maxStored : Int) ≤ latest := by
      have : latest = maxStored := last
      omega
    simp only [Outcomes.ok_bind, if_pos reached]
    rfl

/-- Recording a change gives it the next state. -/
theorem insertChange_eq (complete : db.missing = []) (written : (logOf db).IsWritten)
    (room : (logOf db).latest draft.account < maxStored) :
    ∃ notDelegated : Nat, Store.insertChange draft expiresAt db
      = .ok (((logOf db).latest draft.account + 1 : Nat), { db with
          heads := ((logOf db).recorded draft expiresAt notDelegated).heads
          changes := ((logOf db).recorded draft expiresAt notDelegated).changes }) := by
  obtain ⟨notDelegated, advanced⟩ := advanceHeads_eq complete written room draft.isDelegated
  have free : db.changes.get? ⟨draft.account, .integer ((logOf db).latest draft.account + 1 : Nat)⟩
      = none := written.next_free draft.account
  refine ⟨notDelegated, ?_⟩
  unfold Store.insertChange
  rw [advanced]
  simp only [Outcomes.ok_bind]
  rw [requireRelations_of_complete (by exact complete)]
  simp only [Outcomes.ok_bind, free]
  rfl

/-- After the last state nothing can be recorded. -/
theorem insertChange_error (complete : db.missing = []) (written : (logOf db).IsWritten)
    (last : (logOf db).latest draft.account = maxStored) :
    Store.insertChange draft expiresAt db = .error EngineError.columnType.toStoreError := by
  unfold Store.insertChange
  rw [advanceHeads_error complete written last]
  rfl

/-! ### Reading records -/

/-- A record in the database as a view shows it. -/
def logRow (entry : ChangePlace × ChangeRow) : LogRow where
  state := (entry.1.state.readInteger.toOption.getD 0).toNat
  isLive now := entry.2.isLive now.millis
  outcome := entry.2.values entry.1.state >>= fun values => values.read entry.1.account

theorem outcome_written {state : State} :
    (logRow (⟨account, .integer state⟩, .ofDraft draft expiresAt)).outcome
      = (ChangeValues.encode draft state).read account := by
  show ((ChangeRow.ofDraft draft expiresAt).values (.integer state) >>= fun values =>
    values.read account) = _
  rw [ChangeRow.values_ofDraft, Outcomes.ok_bind]

/-- What is read of a record is the change that was recorded, with its date as it is written. -/
theorem outcome_eq_ok_iff {state : State} {record : ChangeRecord} :
    (logRow (⟨draft.account, .integer state⟩, .ofDraft draft expiresAt)).outcome = .ok record ↔
      draft.date.HasPlainYear ∧ record = draft.asWritten.record state := by
  rw [outcome_written]
  by_cases plain : draft.date.HasPlainYear
  · rw [ChangeRow.read_of_plain plain, Except.ok.injEq, eq_comm]
    exact (and_iff_right plain).symm
  · rw [ChangeRow.read_of_not_plain plain]
    exact iff_of_false nofun fun both => plain both.1

/-- The change logs of a database as a view shows them. -/
def Log.view (log : Log) : LogView where
  latest := log.latest
  rows account := (log.changes.filter fun place _ => place.account = account).entries.map logRow

namespace Log.IsWritten

variable (written : log.IsWritten)

include written

/-- A record of an account lies under a state that was given out. -/
theorem entry {entry : ChangePlace × ChangeRow}
    (member : entry ∈ (log.changes.filter fun place _ => place.account = account).entries) :
    ∃ (state : State) (draft : ChangeDraft) (expiresAt : Option Instant),
      entry = (⟨account, .integer state⟩, .ofDraft draft expiresAt) ∧
        1 ≤ state ∧ state ≤ log.latest account := by
  obtain ⟨listed, inAccount⟩ := List.mem_filter.mp member
  obtain ⟨⟨_, _⟩, row⟩ := entry
  obtain ⟨state, draft, expiresAt, rfl, first, reached, rfl⟩ :=
    written.changes _ row (Table.get?_eq_some_iff.mpr listed)
  cases of_decide_eq_true inAccount
  exact ⟨state, draft, expiresAt, rfl, first, reached⟩

theorem ordered : log.view.IsOrdered where
  ascending account := by
    show ((log.changes.filter _).entries.map logRow).Pairwise _
    rw [List.pairwise_map]
    refine List.Pairwise.imp_of_mem (fun {one other} member member' before => ?_)
      (log.changes.filter _).ascending
    obtain ⟨state, _, _, rfl, -, -⟩ := written.entry member
    obtain ⟨state', _, _, rfl, -, -⟩ := written.entry member'
    exact Int.ofNat_lt.mp (Std.compare_eq_lt.mp (compare_changePlace ▸ before))
  bounded account row member := by
    obtain ⟨entry, listed, rfl⟩ := List.mem_map.mp member
    obtain ⟨state, _, _, rfl, first, reached⟩ := written.entry listed
    exact ⟨first, reached⟩
  states account row member record decoded := by
    obtain ⟨entry, listed, rfl⟩ := List.mem_map.mp member
    obtain ⟨state, _, _, rfl, -, -⟩ := written.entry listed
    rw [outcome_written] at decoded
    obtain ⟨_, state, decoded⟩ := Outcomes.bind_eq_ok.mp decoded
    cases state
    obtain ⟨_, -, decoded⟩ := Outcomes.bind_eq_ok.mp decoded
    obtain ⟨_, -, decoded⟩ := Outcomes.bind_eq_ok.mp decoded
    obtain ⟨_, -, decoded⟩ := Outcomes.bind_eq_ok.mp decoded
    obtain ⟨_, -, decoded⟩ := Outcomes.bind_eq_ok.mp decoded
    cases decoded
    rfl

/-- A page shows the records that the view shows. -/
theorem page_eq (request : ChangePageRequest) {lower : State}
    (from_lower : (request.after.map State.next).getD request.lower = lower) :
    log.view.page request
      = ((log.changes.filter fun place row => place.account = request.account
            && place.state.isFrom lower && row.isLive request.now.millis).entries.take
          request.limit).mapM fun entry => (logRow entry).outcome := by
  have rows : log.view.live request.account lower request.now
      = (log.changes.filter fun place row => place.account = request.account
          && place.state.isFrom lower && row.isLive request.now.millis).entries.map logRow := by
    show ((log.changes.filter _).entries.map logRow).filter _ = _
    rw [List.filter_map, Table.entries_filter, Table.entries_filter, List.filter_filter]
    refine congrArg _ (List.filter_congr fun entry listed => ?_)
    by_cases inAccount : entry.1.account = request.account
    · obtain ⟨state, _, _, rfl, -, -⟩ := written.entry
        (List.mem_filter.mpr ⟨listed, decide_eq_true inAccount⟩)
      have reached : (Cell.integer state).isFrom lower = decide (lower ≤ state) := by
        rw [Cell.isFrom_integer, decide_eq_decide]
        exact Int.ofNat_le
      simp only [decide_true, Bool.and_true, Bool.true_and]
      rw [reached]
      rfl
    · simp [inAccount]
  unfold LogView.page
  rw [from_lower, rows, ← List.map_take, List.mapM_map]
  rfl

end Log.IsWritten

/-! ### The operations -/

namespace Mirrors

variable {regular : Prop} {m : Memory.Store} {d : Database.Store}

/-- What is shown of a written log are its records. -/
theorem changesPage_eq (mirrors : Mirrors regular log m d) (written : log.IsWritten)
    (request : ChangePageRequest) : d.changesPage request = log.view.page request := by
  have same : d.database.changes = log.changes := congrArg Log.changes mirrors.logged
  unfold Database.Store.changesPage
  generalize from_lower : (request.after.map State.next).getD request.lower = lower
  simp only
  split
  · rename_i nothing
    unfold LogView.page
    rw [from_lower]
    have none : (log.view.live request.account lower request.now).take request.limit = [] := by
      rcases Bool.or_eq_true_iff.mp nothing with zero | beyond
      · rw [of_decide_eq_true zero, List.take_zero]
      · have empty : log.view.live request.account lower request.now = [] := by
          refine List.filter_eq_nil_iff.mpr fun row member => ?_
          have bounded := (written.ordered.bounded request.account row member).2
          have fits := Nat.le_trans bounded (written.latest_le request.account)
          have below := Nat.lt_of_le_of_lt fits (of_decide_eq_true beyond)
          simp [Nat.not_le.mpr below]
        rw [empty, List.take_nil]
    rw [none]
    rfl
  · rw [mirrors.requireRelations, same, written.page_eq request from_lower]
    refine Outcomes.mapM_bind_mapM fun entry member => ?_
    have member := List.mem_of_mem_take member
    have inAccount : entry.1.account = request.account := by
      have := (List.mem_filter.mp member).2
      simp only [Bool.and_eq_true, decide_eq_true_eq] at this
      exact this.1.1
    obtain ⟨state, draft, expiresAt, rfl, -, -⟩ := written.entry
      (List.mem_filter.mpr ⟨(List.mem_filter.mp member).1, decide_eq_true inAccount⟩)
    exact ⟨.encode draft state, ChangeRow.values_ofDraft, outcome_written⟩

/-- The heads of a log point at its latest state. -/
theorem readHeads_eq (mirrors : Mirrors regular log m d) (written : log.IsWritten)
    (account : AccountId) :
    ∃ heads, d.readHeads account = .ok heads ∧ heads.latest = log.latest account := by
  have same : d.database.heads = log.heads := congrArg Log.heads mirrors.logged
  unfold Database.Store.readHeads Log.latest
  rw [mirrors.requireRelations, same]
  cases found : log.heads.get? account with
  | none => exact ⟨{}, rfl, rfl⟩
  | some row =>
    obtain ⟨latest, notDelegated, rfl, -⟩ := written.heads account row found
    exact ⟨⟨latest, notDelegated⟩, rfl, rfl⟩

/-- Other logs stand beside the same rows. -/
theorem withLog (mirrors : Mirrors False log m d) (other : Log) :
    Mirrors False other m { d with
      database := { d.database with heads := other.heads, changes := other.changes } } :=
  { mirrors with
    changes := False.elim
    logged := rfl }

/-- Recording a change gives it the next state. -/
theorem appendChange_eq (mirrors : Mirrors False log m d) (written : log.IsWritten)
    (draft : ChangeDraft) (expiresAt : Option Instant)
    (room : log.latest draft.account < maxStored) :
    ∃ (notDelegated : Nat) (d' : Database.Store),
      Storage.appendChange draft expiresAt d
        = (.ok (draft.record (log.latest draft.account + 1)), d') ∧
      Mirrors False (log.recorded draft expiresAt notDelegated) m d' := by
  have logged := mirrors.logged
  subst logged
  obtain ⟨notDelegated, inserted⟩ := insertChange_eq mirrors.complete written room
  have done : Database.Store.transaction (fun store =>
      Database.Store.insertChange draft expiresAt store.database) d = _ :=
    mirrors.transaction_of_ok inserted
  refine ⟨notDelegated, _, Step.bind_of_ok done, mirrors.withLog _⟩

/-- After the last state nothing can be recorded. -/
theorem appendChange_error (mirrors : Mirrors False log m d) (written : log.IsWritten)
    (draft : ChangeDraft) (expiresAt : Option Instant)
    (last : log.latest draft.account = maxStored) :
    Storage.appendChange draft expiresAt d
      = (.error Database.EngineError.columnType.toStoreError, d) := by
  have logged := mirrors.logged
  subst logged
  have fails : Database.Store.transaction (fun store =>
      Database.Store.insertChange draft expiresAt store.database) d = _ :=
    mirrors.transaction_of_error (insertChange_error mirrors.complete written last)
  exact Step.bind_of_error fails

/-- Dropping records counts those that are not live, and keeps the others. -/
theorem purgeExpired_done (mirrors : Mirrors False log m d) (now : Instant) :
    Storage.purgeExpired now d = (.ok (d.database.changes.size
        - (d.database.changes.filter fun _ row => row.isLive now.millis).size),
      { d with database := { d.database with
          changes := d.database.changes.filter fun _ row => row.isLive now.millis } }) := by
  have done : Database.Store.transaction (fun store =>
      let live := store.database.changes.filter fun _ row => row.isLive now.millis
      .ok (store.database.changes.size - live.size, { store.database with changes := live })) d
        = _ := mirrors.transaction_of_ok rfl
  have relations : Step.read (fun store : Database.Store =>
      Except.ok (Database.requireRelations store.database [.changes])) d
        = (.ok (.ok ()), d) := by
    rw [Step.read_eq, mirrors.requireRelations]
  show Database.Store.purgeExpired now d = _
  unfold Database.Store.purgeExpired Database.Store.query
  rw [Step.bind_of_ok relations, Step.check_ok_bind, done]

/-- Dropping records keeps those that are live. -/
theorem purgeExpired_eq (mirrors : Mirrors False log m d) (now : Instant) :
    Mirrors False { log with changes := log.changes.filter fun _ row => row.isLive now.millis } m
      (Storage.purgeExpired now d).2 := by
  have logged := mirrors.logged
  subst logged
  rw [mirrors.purgeExpired_done now]
  exact mirrors.withLog ⟨_, _⟩

end Mirrors

end Mirror

end Mailroom
