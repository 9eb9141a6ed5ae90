import Mailroom.Proofs.Changes.History
import Mailroom.Proofs.Memory.Views
/-!
The store in memory, as its change logs are seen.

The instance says that a sound store shows its records as they stand in the view of its logs, that
recording a change and dropping expired records change the view as they should, and that nothing
else does (`writes_sameLogs`).
-/

namespace Mailroom.Memory.Store

variable {m : Store} {account : AccountId}

/-- A record in memory as a view shows it. -/
def logRow (entry : LogPlace × StoredChange) : LogRow where
  state := entry.1.state
  isLive := entry.2.isLive
  outcome := .ok entry.2.record

/-- The change logs as a view shows them. -/
def logView (m : Store) : LogView where
  latest account := (m.headsOf account).latest
  rows account := (m.changes.filter fun place _ => place.account = account).entries.map logRow

/-- Records of one account are ordered by their states. -/
theorem compare_logPlace {account : AccountId} {a b : State} :
    compare (LogPlace.mk account a) (.mk account b) = compare a b := by
  show (compare account account).then (compare a b) = compare a b
  rw [Std.compare_self]
  rfl

theorem IsSound.entry (sound : m.IsSound) {account : AccountId} {entry : LogPlace × StoredChange}
    (member : entry ∈ (m.changes.filter fun place _ => place.account = account).entries) :
    ∃ state stored, entry = (⟨account, state⟩, stored) ∧ 1 ≤ state ∧
      state ≤ (m.headsOf account).latest ∧ stored.record.state = state := by
  obtain ⟨listed, inAccount⟩ := List.mem_filter.mp member
  obtain ⟨⟨_, state⟩, stored⟩ := entry
  obtain ⟨first, reached, same⟩ := sound.records _ stored (Table.get?_eq_some_iff.mpr listed)
  cases of_decide_eq_true inAccount
  exact ⟨state, stored, rfl, first, reached, same⟩

theorem logView_ordered (sound : m.IsSound) : m.logView.IsOrdered where
  ascending account := by
    show ((m.changes.filter _).entries.map logRow).Pairwise _
    rw [List.pairwise_map]
    refine List.Pairwise.imp_of_mem (fun {one other} member member' before => ?_)
      (m.changes.filter _).ascending
    obtain ⟨state, _, rfl, -⟩ := sound.entry member
    obtain ⟨state', _, rfl, -⟩ := sound.entry member'
    exact Std.compare_eq_lt.mp (compare_logPlace ▸ before)
  bounded account row member := by
    obtain ⟨entry, listed, rfl⟩ := List.mem_map.mp member
    obtain ⟨state, _, rfl, first, reached, -⟩ := sound.entry listed
    exact ⟨first, reached⟩
  states account row member record decoded := by
    obtain ⟨entry, listed, rfl⟩ := List.mem_map.mp member
    obtain ⟨state, stored, rfl, -, -, same⟩ := sound.entry listed
    cases decoded
    exact same

/-- What is shown of the logs are their records. -/
theorem changesPage_eq (sound : m.IsSound) (request : ChangePageRequest) :
    m.changesPage request = m.logView.page request := by
  unfold changesPage LogView.page
  rw [ensureAvailable_ok.mpr sound.available]
  generalize (request.after.map State.next).getD request.lower = lower
  have rows : m.logView.live request.account lower request.now
      = (m.changes.filter fun place stored => place.account = request.account
          && lower ≤ place.state && stored.isLive request.now).entries.map logRow := by
    show ((m.changes.filter _).entries.map logRow).filter _ = _
    rw [List.filter_map, Table.entries_filter, Table.entries_filter, List.filter_filter]
    refine congrArg _ (List.filter_congr fun entry _ => ?_)
    rw [Bool.and_comm, Bool.and_assoc]
    rfl
  rw [rows, ← List.map_take, List.mapM_map]
  refine Eq.trans ?_ (Outcomes.mapM_of_forall_ok fun _ _ => rfl).symm
  show Except.ok (((Table.values _).take _).map StoredChange.record) = _
  rw [Table.values, ← List.map_take, List.map_map]
  rfl

/-! ### Writes -/

/-- The change logs are the same. -/
def SameLogs (m after : Store) : Prop := after.heads = m.heads ∧ after.changes = m.changes

theorem sameLogs_chains : Chains SameLogs where
  refl _ := ⟨rfl, rfl⟩
  trans first second := ⟨second.1.trans first.1, second.2.trans first.2⟩

theorem nextUid_sameLogs (mailbox : MailboxId) :
    (Storage.nextUid mailbox : Step Store Uid).Within SameLogs :=
  .write sameLogs_chains fun done => by
    obtain ⟨-, rfl⟩ := allocate_ok done
    exact ⟨rfl, rfl⟩

theorem nextModSeq_sameLogs (mailbox : MailboxId) :
    (Storage.nextModSeq mailbox : Step Store ModSeq).Within SameLogs :=
  .write sameLogs_chains fun done => by
    obtain ⟨-, rfl⟩ := allocate_ok done
    exact ⟨rfl, rfl⟩

theorem insert_sameLogs (message : Message) :
    (Storage.insert message : Step Store Unit).Within SameLogs :=
  .write sameLogs_chains fun done => by
    obtain ⟨-, -, rfl⟩ := insert_ok done
    exact ⟨rfl, rfl⟩

theorem updateFlags_sameLogs (mailbox : MailboxId) (uid : Uid) (edit : FlagEdit) (modSeq : ModSeq)
    (expected : Option ModSeq) :
    (Storage.updateFlags mailbox uid edit modSeq expected : Step Store Metadata).Within SameLogs :=
  .write sameLogs_chains fun done => by
    obtain ⟨-, _, -, -, -, rfl⟩ := updateFlags_ok done
    exact ⟨rfl, rfl⟩

/-- Only calls on change logs change these. -/
theorem writes_sameLogs : Writes Store Service.Call.IsQuiet SameLogs where
  nextUid := nextUid_sameLogs
  nextModSeq := nextModSeq_sameLogs
  append mailbox new now _ := Service.append_within sameLogs_chains nextUid_sameLogs
    nextModSeq_sameLogs insert_sameLogs mailbox new now
  applyFlags := Service.applyFlags_within sameLogs_chains nextModSeq_sameLogs updateFlags_sameLogs
  resetRecent _ _ _ _ _ _ ascending := .write sameLogs_chains fun done => by
    obtain ⟨-, rfl⟩ := resetRecent_ok (ascending.imp fun before => Nat.ne_of_lt before) done
    exact ⟨rfl, rfl⟩
  deleteBatch _ _ _ := .write sameLogs_chains fun done => by
    rw [deleteBatch_ok done]
    exact ⟨rfl, rfl⟩
  deleteMailbox _ := .write sameLogs_chains fun done => by
    rw [deleteMailbox_ok done]
    exact ⟨rfl, rfl⟩
  deleteMessage _ := .write sameLogs_chains fun done => by
    rw [deleteMessage_ok done]
    exact ⟨rfl, rfl⟩
  appendChange _ _ isQuiet := isQuiet.elim
  purgeExpired _ isQuiet := isQuiet.elim

/-- Dropping some records. -/
theorem logView_purge (now : Instant) :
    ({ m with changes := m.changes.filter fun _ stored => stored.isLive now }).logView
      = m.logView.purge now := by
  unfold logView LogView.purge
  congr 1
  funext account
  simp only
  rw [Table.filter_filter, List.filter_map, Table.entries_filter, Table.entries_filter,
    List.filter_filter]
  exact congrArg _ (List.filter_congr fun _ _ => rfl)

/-- Dropping records counts those that are not live, and keeps the others. -/
theorem purgeExpired_done (sound : m.IsSound) (now : Instant) :
    m.purgeExpired now = .ok (m.changes.size
        - (m.changes.filter fun _ stored => stored.isLive now).size,
      { m with changes := m.changes.filter fun _ stored => stored.isLive now }) := by
  unfold purgeExpired
  rw [ensureAvailable_ok.mpr sound.available]
  rfl

/-- Recording a change adds its record. -/
theorem logView_adds (sound : m.IsSound) {draft : ChangeDraft} {expiresAt : Option Instant}
    {record : ChangeRecord} {after : Store}
    (done : m.appendChange draft expiresAt = .ok (record, after)) :
    m.logView.Adds (fun state => logRow (⟨draft.account, state⟩, ⟨draft.record state, expiresAt⟩))
      draft record after.logView := by
  obtain ⟨rfl, rfl⟩ := appendChange_ok done
  refine ⟨rfl, fun account => ?_, fun account other => ?_, fun below => ?_⟩
  · show (headsOf _ account).latest = _
    rw [headsOf_insert (m := m) rfl]
    split <;> rfl
  · refine congrArg (fun changes => changes.entries.map logRow)
      (Table.filter_insert_of_not (t := m.changes) ?_)
    exact fun _ => decide_eq_false other
  · refine (congrArg (List.map logRow) (Table.entries_filter_insert_last (t := m.changes)
      (decide_eq_true rfl) fun entry member => ?_)).trans List.map_append
    obtain ⟨state, stored, rfl, -, reached, -⟩ := sound.entry member
    have below : (m.headsOf draft.account).latest < maxWord := below
    rw [compare_logPlace, Std.compare_eq_lt, State.next, if_pos below]
    exact Nat.lt_succ_of_le reached

instance : Recorded Store where
  log := logView
  ordered _ := logView_ordered
  heads m sound account := by
    refine ⟨m.headsOf account, ?_, rfl⟩
    show (m.readHeads account, m) = _
    unfold readHeads
    rw [ensureAvailable_ok.mpr sound.available]
    rfl
  changesPage m sound request := Prod.ext (changesPage_eq sound request) rfl
  extent m account := by
    show ((m.changes.filter _).entries.map logRow).length ≤ m.rows.size + m.changes.size + 1
    have := List.length_filter_le (fun entry => decide (entry.1.account = account))
      m.changes.entries
    rw [List.length_map, Table.entries_filter]
    unfold Table.size
    omega
  kept draft expiresAt state := logRow (⟨draft.account, state⟩, ⟨draft.record state, expiresAt⟩)
  shown draft := draft
  state_kept _ _ _ := rfl
  outcome_kept _ _ _ _ decoded := (Except.ok.inj decoded).symm
  quiet policy call isQuiet m _ := by
    obtain ⟨heads, changes⟩ :=
      Service.Call.run_within sameLogs_chains writes_sameLogs policy call isQuiet m
    unfold logView headsOf
    rw [heads, changes]
  appendChange_error draft expiresAt m _ e after done := by
    have done : Step.write (appendChange draft expiresAt) m = (.error e, after) := done
    cases outcome : m.appendChange draft expiresAt with
    | error e' =>
      rw [Step.write_of_error outcome] at done
      cases done
      rfl
    | ok answer =>
      rw [Step.write_of_ok outcome] at done
      cases done
  appendChange draft expiresAt m sound record after done :=
    logView_adds sound (Step.of_write_eq_ok done)
  purgeExpired now m sound := by
    show logView (Step.write (purgeExpired now) m).2 = _
    rw [Step.write_of_ok (purgeExpired_done sound now)]
    exact logView_purge now

end Mailroom.Memory.Store
