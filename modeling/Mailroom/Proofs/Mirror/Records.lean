import Mailroom.Proofs.Mirror.ChangeLog
/-!
Runs of calls on change logs, in memory and in the database.

`Copies` relates a store in memory and a database whose change logs hold the same heads and the same
records. A record that expires does so to the nanosecond in memory and to the millisecond in the
database, so the relation names the instants of expiry, and `Tells` says of another instant that it
is before the same of them either way (`tells_of_apart`). A call on such stores answers alike and
leaves such stores, unless it records a change after the last state of an account
(`run_copies`, `run_differs`): the database has no state beyond the greatest number that it stores,
and the store in memory goes on. From empty stores a run answers alike in both exactly if no account
gets that far (`logs_agree_iff`).
-/

namespace Mailroom

/-- What a record was recorded for. -/
def ChangeRecord.draft (record : ChangeRecord) : ChangeDraft where
  account := record.account
  date := record.date
  isCountChange := record.isCountChange
  isDelegated := record.isDelegated
  created := record.created
  updated := record.updated
  destroyed := record.destroyed

/-! ### Instants in milliseconds -/

/-- Whether an instant lies in a leap second. -/
def Instant.IsLeap (t : Instant) : Prop := 1000000000 ≤ t.nano

instance (t : Instant) : Decidable t.IsLeap := inferInstanceAs (Decidable (_ ≤ _))

/-- Instants of different milliseconds come one after the other as their milliseconds do, outside
leap seconds. -/
theorem Instant.isBefore_eq_millis {a b : Instant} (plain : ¬ a.IsLeap) (plain' : ¬ b.IsLeap)
    (apart : a.millis ≠ b.millis) : a.isBefore b = decide (a.millis < b.millis) := by
  unfold IsLeap at plain plain'
  unfold isBefore millis at *
  rw [Bool.eq_iff_iff]
  simp only [Bool.or_eq_true, Bool.and_eq_true, decide_eq_true_eq]
  omega

/-! ### Calls on change logs -/

/-- A call on the change logs of a store. -/
inductive LogCall where
  | append (draft : ChangeDraft) (expiresAt : Option Instant)
  | changesPage (request : ChangePageRequest)
  | heads (account : AccountId)
  | purgeExpired (now : Instant)

namespace LogCall

/-- What a call answers if it succeeds. -/
def Answer : LogCall → Type
  | append .. => ChangeRecord
  | changesPage _ => List ChangeRecord
  | heads _ => Heads
  | purgeExpired _ => Nat

variable {σ : Type} [Storage σ]

/-- Executes a call. -/
def run : (call : LogCall) → Step σ call.Answer
  | append draft expiresAt => Storage.appendChange draft expiresAt
  | changesPage request => Storage.changesPage request
  | heads account => Storage.heads account
  | purgeExpired now => Storage.purgeExpired now

/-- Executes calls one after another, whether or not they succeed. -/
def runAll : List LogCall → σ → List ((call : LogCall) × Except StoreError call.Answer) × σ
  | [], store => ([], store)
  | call :: rest, store =>
    let (answer, store) := call.run store
    let (answers, store) := runAll rest store
    (⟨call, answer⟩ :: answers, store)

/-- The change that a call records. -/
def draft? : LogCall → Option ChangeDraft
  | append draft _ => some draft
  | _ => none

/-- When the record of a call expires. -/
def expiresAt? : LogCall → Option Instant
  | append _ expiresAt => expiresAt
  | _ => none

/-- The instant at which a call looks at the records. -/
def now? : LogCall → Option Instant
  | changesPage request => some request.now
  | purgeExpired now => some now
  | _ => none

/-- Whether a call records a change of an account. -/
def changes (account : AccountId) (call : LogCall) : Bool :=
  call.draft?.any fun draft => draft.account = account

/-- The number of changes of an account that calls record, or try to. -/
def changeCount (account : AccountId) (calls : List LogCall) : Nat := calls.countP (changes account)

end LogCall

namespace Mirror

open Database

variable {expires : Instant → Prop} {log : Log} {m : Memory.Store} {d : Database.Store}
  {account : AccountId} {now : Instant}

/-! ### Stores with the same logs -/

/-- Where the database keeps a record. -/
def copiedPlace (place : LogPlace) : ChangePlace := ⟨place.account, .integer place.state⟩

/-- A record as the database keeps it. -/
def copiedRow (stored : Memory.StoredChange) : ChangeRow :=
  .ofDraft stored.record.draft stored.expiresAt

/-- A record at its place, as the database keeps it. -/
def copied (entry : LogPlace × Memory.StoredChange) : ChangePlace × ChangeRow :=
  (copiedPlace entry.1, copiedRow entry.2)

/-- A record that lies at its place, can be read back, and expires at one of some instants. -/
structure IsKept (expires : Instant → Prop) (entry : LogPlace × Memory.StoredChange) : Prop where
  account : entry.2.record.account = entry.1.account
  state : entry.2.record.state = entry.1.state
  plain : entry.2.record.date.HasPlainYear
  second : entry.2.record.date.HasPlainSecond
  expiry : ∀ t ∈ entry.2.expiresAt, expires t

/-- The logs of two stores hold the same heads and the same records. -/
structure Copies (expires : Instant → Prop) (log : Log) (m : Memory.Store)
    (d : Database.Store) : Prop where
  mirrors : Mirrors False log m d
  written : log.IsWritten
  heads : log.heads = m.heads.mapValues fun _ heads => ⟨heads.latest, heads.latestNotDelegated⟩
  changes : log.changes.entries = m.changes.entries.map copied
  kept : ∀ entry ∈ m.changes.entries, IsKept expires entry

/-- An instant is before the same of some instants, whether or not they are cut to milliseconds. -/
def Tells (expires : Instant → Prop) (now : Instant) : Prop :=
  ∀ t, expires t → now.isBefore t = decide (now.millis < t.millis)

theorem tells_of_apart (plain : ¬ now.IsLeap)
    (apart : ∀ t, expires t → ¬ t.IsLeap ∧ now.millis ≠ t.millis) : Tells expires now :=
  fun t isExpiry => Instant.isBefore_eq_millis plain (apart t isExpiry).1 (apart t isExpiry).2

/-- The database keeps the order of the records. -/
theorem compare_copiedPlace (a b : LogPlace) :
    compare (copiedPlace a) (copiedPlace b) = compare a b := by
  show (compare a.account b.account).then (compare (Cell.integer a.state) (.integer b.state))
    = (compare a.account b.account).then (compare a.state b.state)
  rw [Cell.compare_integer]
  refine congrArg _ ?_
  show compareOfLessAndEq (a.state : Int) b.state = compareOfLessAndEq a.state b.state
  unfold compareOfLessAndEq
  simp only [Int.ofNat_lt, Int.natCast_inj]

/-- A record is live in both stores or in neither. -/
theorem isLive_copied {entry : LogPlace × Memory.StoredChange} (kept : IsKept expires entry)
    (tells : Tells expires now) :
    (copied entry).2.isLive now.millis = entry.2.isLive now := by
  have expiry := kept.expiry
  unfold Memory.StoredChange.isLive ChangeRow.isLive
  show (((entry.2.expiresAt.map fun t => Cell.integer t.millis).getD .null = .null : Bool)
    || ((entry.2.expiresAt.map fun t => Cell.integer t.millis).getD .null).isAbove now.millis) = _
  cases found : entry.2.expiresAt with
  | none => rfl
  | some t =>
    rw [found] at expiry
    have ends := tells t (expiry t rfl)
    simp only [Option.map_some, Option.getD_some, Option.all_some, ends, Cell.isAbove_integer]
    rfl

/-- What becomes of the logs in memory does not matter to the rows. -/
theorem Mirrors.withLogsInMemory (mirrors : Mirrors False log m d)
    (heads : Table AccountId Heads) (changes : Table LogPlace Memory.StoredChange) :
    Mirrors False log { m with heads, changes } d :=
  { mirrors with changes := False.elim }

namespace Copies

variable (copies : Copies expires log m d)

include copies

/-- What the database has as the heads of an account. -/
theorem headsRow_eq (account : AccountId) :
    d.database.headsRow account
      = ⟨(m.headsOf account).latest, (m.headsOf account).latestNotDelegated⟩ := by
  have same : d.database.heads = log.heads := congrArg Log.heads copies.mirrors.logged
  unfold headsRow Memory.Store.headsOf
  rw [same, copies.heads, Table.get?_mapValues]
  cases m.heads.get? account <;> rfl

/-- The latest state of an account is the same in both stores. -/
theorem latest_eq (account : AccountId) : log.latest account = (m.headsOf account).latest := by
  unfold Log.latest Memory.Store.headsOf
  rw [copies.heads, Table.get?_mapValues]
  cases m.heads.get? account <;> rfl

/-! ### Reading -/

/-- The heads are the same in both stores. -/
theorem readHeads_eq (account : AccountId) : d.readHeads account = m.readHeads account := by
  have same : d.database.heads = log.heads := congrArg Log.heads copies.mirrors.logged
  unfold Database.Store.readHeads Memory.Store.readHeads Memory.Store.headsOf
  rw [copies.mirrors.requireRelations, copies.mirrors.ensureAvailable, same, copies.heads,
    Table.get?_mapValues]
  cases m.heads.get? account <;> rfl

/-- A page holds the same records in both stores. -/
theorem changesPage_eq (request : ChangePageRequest) (tells : Tells expires request.now) :
    d.changesPage request = m.changesPage request := by
  rw [copies.mirrors.changesPage_eq copies.written]
  unfold Memory.Store.changesPage
  rw [copies.mirrors.ensureAvailable]
  generalize from_lower : (request.after.map State.next).getD request.lower = lower
  have rows : (log.changes.filter fun place row => place.account = request.account
        && place.state.isFrom lower && row.isLive request.now.millis).entries
      = (m.changes.filter fun place stored => place.account = request.account
          && lower ≤ place.state && stored.isLive request.now).entries.map copied := by
    refine Table.entries_filter_of_map copies.changes fun entry member => ?_
    rw [isLive_copied (copies.kept entry member) tells]
    show (decide (entry.1.account = request.account) && (Cell.integer entry.1.state).isFrom lower
      && _) = _
    rw [Cell.isFrom_integer]
    simp only [Int.ofNat_le]
  rw [copies.written.page_eq request from_lower, rows, ← List.map_take, List.mapM_map]
  refine (Outcomes.mapM_of_forall_ok (g := fun entry => entry.2.record)
    fun entry member => ?_).trans ?_
  · have kept := copies.kept entry
      (List.mem_filter.mp (List.mem_of_mem_take member)).1
    have account : entry.2.record.draft.account = entry.1.account := kept.account
    show (logRow (⟨entry.1.account, _⟩, _)).outcome = _
    rw [← account]
    have written : entry.2.record.draft.asWritten = entry.2.record.draft :=
      ChangeDraft.asWritten_eq_iff.mpr kept.second
    exact outcome_eq_ok_iff.mpr ⟨kept.plain, by rw [written, ← kept.state]; rfl⟩
  · show _ = Except.ok (((Table.values _).take _).map Memory.StoredChange.record)
    rw [Table.values, ← List.map_take, List.map_map]
    rfl

/-! ### Writing -/

/-- The same records are dropped in both stores. -/
theorem purgeExpired (tells : Tells expires now) :
    (Storage.purgeExpired now d).1 = (Storage.purgeExpired now m).1 ∧
      Copies expires
        { log with changes := log.changes.filter fun _ row => row.isLive now.millis }
        (Storage.purgeExpired now m).2 (Storage.purgeExpired now d).2 := by
  have same : d.database.changes = log.changes := congrArg Log.changes copies.mirrors.logged
  have live : (log.changes.filter fun _ row => row.isLive now.millis).entries
      = (m.changes.filter fun _ stored => stored.isLive now).entries.map copied :=
    Table.entries_filter_of_map copies.changes fun entry member =>
      isLive_copied (copies.kept entry member) tells
  have left : (Storage.purgeExpired now m) = (.ok (m.changes.size
        - (m.changes.filter fun _ stored => stored.isLive now).size),
      { m with changes := m.changes.filter fun _ stored => stored.isLive now }) := by
    apply Step.write_of_ok
    unfold Memory.Store.purgeExpired
    rw [copies.mirrors.ensureAvailable]
    rfl
  have mirrors := copies.mirrors.purgeExpired_eq now
  have answer : (Storage.purgeExpired now d).1 = (Storage.purgeExpired now m).1 := by
    rw [copies.mirrors.purgeExpired_done now, left, same]
    unfold Table.size
    rw [live, copies.changes, List.length_map, List.length_map]
  refine ⟨answer, ?_⟩
  rw [left]
  exact {
    mirrors := mirrors.withLogsInMemory _ _
    written := copies.written.dropped _
    heads := copies.heads
    changes := live
    kept := fun entry member => copies.kept entry (List.mem_filter.mp member).1 }

/-- A change is recorded in both stores, under the same state. -/
theorem appendChange {draft : ChangeDraft} {expiresAt : Option Instant}
    (plain : draft.date.HasPlainYear) (second : draft.date.HasPlainSecond)
    (expiry : ∀ t ∈ expiresAt, expires t)
    (room : log.latest draft.account < maxStored) :
    (Storage.appendChange draft expiresAt d).1 = (Storage.appendChange draft expiresAt m).1 ∧
      ∃ notDelegated : Nat, Copies expires (log.recorded draft expiresAt notDelegated)
        (Storage.appendChange draft expiresAt m).2 (Storage.appendChange draft expiresAt d).2 := by
  have next : (m.headsOf draft.account).latest.next = log.latest draft.account + 1 := by
    rw [← copies.latest_eq]
    exact if_pos (Nat.lt_trans room (by decide))
  have left : Storage.appendChange draft expiresAt m
      = (.ok (draft.record (log.latest draft.account + 1)), { m with
          heads := m.heads.insert draft.account ((m.headsOf draft.account).advance
            (log.latest draft.account + 1) draft.isDelegated)
          changes := m.changes.insert ⟨draft.account, log.latest draft.account + 1⟩
            ⟨draft.record (log.latest draft.account + 1), expiresAt⟩ }) := by
    apply Step.write_of_ok
    unfold Memory.Store.appendChange
    rw [copies.mirrors.ensureAvailable]
    simp only [Outcomes.ok_bind, next]
    rfl
  obtain ⟨notDelegated, d', right, mirrors⟩ :=
    copies.mirrors.appendChange_eq copies.written draft expiresAt room
  obtain ⟨db, inserted, -, rfl⟩ := Database.Store.appendChange_ok right
  obtain ⟨-, rfl⟩ := Database.Store.insertChange_ok inserted
  rw [left, right]
  have same : d.database.heads = log.heads := congrArg Log.heads copies.mirrors.logged
  have heads : (log.recorded draft expiresAt notDelegated).heads
      = log.heads.insert draft.account
          ((d.database.headsRow draft.account).next draft.isDelegated) := by
    rw [← same]
    exact (congrArg Log.heads mirrors.logged).symm
  refine ⟨rfl, notDelegated, mirrors.withLogsInMemory _ _,
    copies.written.recorded room notDelegated, ?_, ?_, ?_⟩
  · rw [heads, Table.mapValues_insert, copies.headsRow_eq, copies.heads, copies.latest_eq]
    cases draft.isDelegated <;> rfl
  · exact Table.entries_insert_of_map compare_copiedPlace copies.changes
      ⟨draft.account, log.latest draft.account + 1⟩
      ⟨draft.record (log.latest draft.account + 1), expiresAt⟩
  · intro entry member
    rcases Table.mem_insertAscending member with rfl | member
    · exact ⟨rfl, rfl, plain, second, expiry⟩
    · exact copies.kept entry member

/-- After the last state of an account, a change is recorded in memory only. -/
theorem appendChange_differs {draft : ChangeDraft} {expiresAt : Option Instant}
    (last : log.latest draft.account = maxStored) :
    (Storage.appendChange draft expiresAt d).1 ≠ (Storage.appendChange draft expiresAt m).1 := by
  have left : ∃ answer, m.appendChange draft expiresAt = .ok answer := by
    unfold Memory.Store.appendChange
    rw [copies.mirrors.ensureAvailable]
    exact ⟨_, rfl⟩
  obtain ⟨_, left⟩ := left
  have left : Storage.appendChange draft expiresAt m = _ := Step.write_of_ok left
  rw [copies.mirrors.appendChange_error copies.written draft expiresAt last, left]
  exact nofun

end Copies

/-! ### Runs -/

/-- A call that records only changes which can be read back and expire at one of some instants, and
that looks at the records at an instant that tells these. -/
structure Fits (expires : Instant → Prop) (call : LogCall) : Prop where
  plain : ∀ draft ∈ call.draft?, draft.date.HasPlainYear ∧ draft.date.HasPlainSecond
  expiry : ∀ t ∈ call.expiresAt?, expires t
  tells : ∀ now ∈ call.now?, Tells expires now

/-- A call answers alike in both stores, unless it records a change after the last state. -/
theorem run_copies (copies : Copies expires log m d) {call : LogCall} (fits : Fits expires call)
    (room : ∀ account, call.changes account = true → log.latest account < maxStored) :
    (call.run d).1 = (call.run m).1 ∧
      ∃ log', Copies expires log' (call.run m).2 (call.run d).2 ∧
        ∀ account, log'.latest account
          = log.latest account + if call.changes account then 1 else 0 := by
  cases call with
  | append draft expiresAt =>
    obtain ⟨plain, second⟩ := fits.plain draft rfl
    obtain ⟨answer, notDelegated, after⟩ := copies.appendChange plain second fits.expiry
      (room draft.account (decide_eq_true rfl))
    refine ⟨answer, _, after, fun account => ?_⟩
    rw [Log.latest_recorded]
    by_cases here : draft.account = account <;> simp [LogCall.changes, LogCall.draft?, here]
  | changesPage request =>
    exact ⟨copies.changesPage_eq request (fits.tells request.now rfl), log, copies, fun _ => rfl⟩
  | heads account => exact ⟨copies.readHeads_eq account, log, copies, fun _ => rfl⟩
  | purgeExpired now =>
    obtain ⟨answer, after⟩ := copies.purgeExpired (fits.tells now rfl)
    exact ⟨answer, _, after, fun _ => rfl⟩

/-- A call that records a change after the last state answers differently. -/
theorem run_differs (copies : Copies expires log m d) {call : LogCall}
    (changes : call.changes account = true) (last : log.latest account = maxStored) :
    (call.run d).1 ≠ (call.run m).1 := by
  cases call with
  | append draft expiresAt =>
    cases of_decide_eq_true changes
    exact copies.appendChange_differs last
  | _ => cases changes

/-- A run answers alike in both stores exactly if no account gets beyond the last state. -/
theorem runAll_copies (copies : Copies expires log m d) {calls : List LogCall}
    (fit : ∀ call ∈ calls, Fits expires call) :
    (LogCall.runAll calls d).1 = (LogCall.runAll calls m).1 ↔
      ∀ account, log.latest account + LogCall.changeCount account calls ≤ maxStored := by
  induction calls generalizing log m d with
  | nil => exact iff_of_true rfl copies.written.latest_le
  | cons call rest ih =>
    have here := fit call List.mem_cons_self
    have later := fun other member => fit other (List.mem_cons_of_mem call member)
    have answers : (LogCall.runAll (call :: rest) d).1 = (LogCall.runAll (call :: rest) m).1 ↔
        (call.run d).1 = (call.run m).1 ∧
          (LogCall.runAll rest (call.run d).2).1 = (LogCall.runAll rest (call.run m).2).1 := by
      simp only [LogCall.runAll, List.cons.injEq, Sigma.mk.injEq, heq_eq_eq, true_and]
    rw [answers]
    by_cases room : ∀ account, call.changes account = true → log.latest account < maxStored
    · obtain ⟨same, log', after, latest⟩ := run_copies copies here room
      rw [and_iff_right same, ih after later]
      refine forall_congr' fun account => ?_
      unfold LogCall.changeCount
      rw [latest, List.countP_cons, Nat.add_right_comm, ← Nat.add_assoc]
    · obtain ⟨account, changes, reached⟩ : ∃ account, call.changes account = true ∧
          ¬ log.latest account < maxStored := by simpa using room
      have last : log.latest account = maxStored :=
        Nat.le_antisymm (copies.written.latest_le account) (Nat.not_lt.mp reached)
      refine iff_of_false (fun both => run_differs copies changes last both.1) fun all => ?_
      have beyond := all account
      unfold LogCall.changeCount at beyond
      rw [List.countP_cons, if_pos changes, last] at beyond
      exact absurd beyond (Nat.not_le.mpr (Nat.lt_add_of_pos_right (Nat.succ_pos _)))

/-- Empty logs hold the same records. -/
theorem copies_new (expires : Instant → Prop) (path : String) (listBound : Nat) :
    Copies expires ⟨.empty, .empty⟩ (.new listBound) (.new path listBound) where
  mirrors := mirrors_new False path listBound
  written := .empty
  heads := rfl
  changes := rfl
  kept _ member := by cases member

/-- From empty stores, a run of calls on change logs answers alike in memory and in a database
exactly if no account gets more changes than there are states in the database. -/
theorem logs_agree_iff (path : String) (listBound : Nat) {calls : List LogCall}
    (plain : ∀ call ∈ calls, ∀ draft ∈ call.draft?,
      draft.date.HasPlainYear ∧ draft.date.HasPlainSecond)
    (noLeap : ∀ call ∈ calls, (∀ t ∈ call.expiresAt?, ¬ t.IsLeap) ∧ ∀ now ∈ call.now?, ¬ now.IsLeap)
    (apart : ∀ call ∈ calls, ∀ now ∈ call.now?, ∀ other ∈ calls, ∀ t ∈ other.expiresAt?,
      now.millis ≠ t.millis) :
    (LogCall.runAll calls (Database.Store.new path listBound)).1
        = (LogCall.runAll calls (Memory.Store.new listBound)).1 ↔
      ∀ account, LogCall.changeCount account calls ≤ maxStored := by
  have fit : ∀ call ∈ calls,
      Fits (fun t => ∃ other ∈ calls, t ∈ other.expiresAt?) call := fun call member => {
    plain := plain call member
    expiry := fun t expiry => ⟨call, member, expiry⟩
    tells := fun now looked => tells_of_apart ((noLeap call member).2 now looked) (by
      rintro t ⟨other, member', expiry⟩
      have later := apart call member now looked other member' t expiry
      exact ⟨(noLeap other member').1 t expiry, later⟩) }
  rw [runAll_copies (copies_new _ path listBound) fit]
  refine forall_congr' fun account => ?_
  rw [show Log.latest ⟨.empty, .empty⟩ account = 0 from rfl, Nat.zero_add]

/-- A run in which a record expires: it is read before and after that, counted, and read from beyond
the greatest number that the database stores. -/
def expiringRun : List LogCall :=
  let later : Instant := ⟨1, 999999, by decide, by decide⟩
  let last : Instant := ⟨2, 0, by decide, Instant.epoch.nano_valid⟩
  [.append { account := "bob", date := .epoch, created := .ofList ["a", "b"] } (some later),
    .append { account := "bob", date := last, isDelegated := true } none,
    .changesPage { account := "bob", lower := 1, after := none, now := .epoch, limit := 10 },
    .changesPage { account := "bob", lower := 0, after := some 1, now := last, limit := 10 },
    .changesPage { account := "bob", lower := 0, after := some maxWord, now := last, limit := 10 },
    .heads "bob",
    .purgeExpired last]

theorem logs_agree_expiringRun :
    (∀ call ∈ expiringRun, ∀ draft ∈ call.draft?,
      draft.date.HasPlainYear ∧ draft.date.HasPlainSecond) ∧
      (∀ call ∈ expiringRun, (∀ t ∈ call.expiresAt?, ¬ t.IsLeap) ∧
        ∀ now ∈ call.now?, ¬ now.IsLeap) ∧
      (∀ call ∈ expiringRun, ∀ now ∈ call.now?, ∀ other ∈ expiringRun, ∀ t ∈ other.expiresAt?,
        now.millis ≠ t.millis) ∧
      (LogCall.runAll expiringRun (Database.Store.new "mail" 1)).1
        = (LogCall.runAll expiringRun (Memory.Store.new 1)).1 := by
  have plain : ∀ call ∈ expiringRun, ∀ draft ∈ call.draft?,
      draft.date.HasPlainYear ∧ draft.date.HasPlainSecond := by decide
  have noLeap : ∀ call ∈ expiringRun, (∀ t ∈ call.expiresAt?, ¬ t.IsLeap) ∧
      ∀ now ∈ call.now?, ¬ now.IsLeap := by decide
  have apart : ∀ call ∈ expiringRun, ∀ now ∈ call.now?, ∀ other ∈ expiringRun,
      ∀ t ∈ other.expiresAt?, now.millis ≠ t.millis := by decide
  refine ⟨plain, noLeap, apart, (logs_agree_iff "mail" 1 plain noLeap apart).mpr fun account => ?_⟩
  exact Nat.le_trans List.countP_le_length (by decide)

/-- One change more than there are states in the database. -/
def longestRun : List LogCall :=
  List.replicate (maxStored + 1) (.append { account := "bob", date := .epoch } none)

theorem logs_differ_longestRun :
    (∀ call ∈ longestRun, ∀ draft ∈ call.draft?,
      draft.date.HasPlainYear ∧ ¬ draft.date.IsLeap) ∧
      (∀ call ∈ longestRun, call.expiresAt? = none ∧ call.now? = none) ∧
      (LogCall.runAll longestRun (Database.Store.new "mail" 1)).1
        ≠ (LogCall.runAll longestRun (Memory.Store.new 1)).1 := by
  have plain : ∀ call ∈ longestRun, ∀ draft ∈ call.draft?,
      draft.date.HasPlainYear ∧ ¬ draft.date.IsLeap := by
    intro call member draft recorded
    cases List.eq_of_mem_replicate member
    cases recorded
    decide
  have timeless : ∀ call ∈ longestRun, call.expiresAt? = none ∧ call.now? = none := by
    intro call member
    cases List.eq_of_mem_replicate member
    exact ⟨rfl, rfl⟩
  have fit : ∀ call ∈ longestRun, Fits (fun _ => False) call := fun call member => {
    plain := fun draft recorded =>
      (plain call member draft recorded).imp id fun noLeap => .inl (Nat.not_le.mp noLeap)
    expiry := by simp [(timeless call member).1]
    tells := by simp [(timeless call member).2] }
  refine ⟨plain, timeless, fun same => ?_⟩
  have bounded := (runAll_copies (copies_new _ "mail" 1) fit).mp same "bob"
  have all : LogCall.changeCount "bob" longestRun = maxStored + 1 := by
    unfold LogCall.changeCount longestRun
    rw [List.countP_replicate]
    exact if_pos rfl
  rw [all] at bounded
  exact absurd bounded (Nat.not_le.mpr (Nat.lt_add_left _ (Nat.lt_succ_self _)))

end Mirror

end Mailroom
