import Mailroom.Proofs.Changes.History
import Mailroom.Proofs.Mirror.Views
/-!
The store in a database, as its change logs are seen.

The instance says that a sound database shows its records as they stand in the view of its logs,
that recording a change and dropping expired records change the view as they should, and that
nothing else does (`writes_keepLogs`).
-/

namespace Mailroom

namespace Mirror

open Database

variable {α : Type} {log : Log} {account : AccountId} {draft : ChangeDraft}
  {expiresAt : Option Instant}

/-! ### The view -/

/-- Recording a change adds its record. -/
theorem view_recorded (written : log.IsWritten) (notDelegated : Int) :
    log.view.Adds (fun state => logRow (⟨draft.account, .integer state⟩, .ofDraft draft expiresAt))
      draft (draft.record (log.latest draft.account + 1))
      (log.recorded draft expiresAt notDelegated).view := by
  have next : (log.latest draft.account).next = log.latest draft.account + 1 :=
    if_pos (Nat.lt_of_le_of_lt (written.latest_le draft.account) (by decide))
  refine ⟨?_, fun account => ?_, fun account other => ?_, fun _ => ?_⟩
  · show _ = draft.record (log.latest draft.account).next
    rw [next]
  · show (log.recorded draft expiresAt notDelegated).latest account = _
    rw [Log.latest_recorded]
    split
    · rename_i here
      subst here
      rfl
    · rfl
  · refine congrArg (fun changes => changes.entries.map logRow)
      (Table.filter_insert_of_not (t := log.changes) ?_)
    exact fun _ => decide_eq_false other
  · refine (congrArg (List.map logRow) (Table.entries_filter_insert_last (t := log.changes)
      (decide_eq_true rfl) fun entry member => ?_)).trans List.map_append
    obtain ⟨state, _, _, rfl, -, reached⟩ := written.entry member
    rw [compare_changePlace, Std.compare_eq_lt]
    exact Int.ofNat_lt.mpr (Nat.lt_succ_of_le reached)

/-- Dropping some records. -/
theorem view_dropped (now : Instant) :
    Log.view { log with changes := log.changes.filter fun _ row => row.isLive now.millis }
      = log.view.purge now := by
  unfold Log.view LogView.purge
  congr 1
  funext account
  simp only
  rw [Table.filter_filter, List.filter_map, Table.entries_filter, Table.entries_filter,
    List.filter_filter]
  exact congrArg _ (List.filter_congr fun _ _ => rfl)

/-! ### Writes -/

/-- A sound database stays sound and keeps its change logs. -/
def KeepsLogs (d after : Database.Store) : Prop :=
  d.IsSound → after.IsSound ∧ logOf after.database = logOf d.database

theorem keepsLogs_chains : Chains KeepsLogs where
  refl _ sound := ⟨sound, rfl⟩
  trans first second sound :=
    ⟨(second (first sound).1).1, (second (first sound).1).2.trans (first sound).2⟩

/-- A step of the database that follows one in memory keeps the change logs, if it leaves the
database sound. -/
theorem keepsLogs_of_follows {law : View → Except StoreError α → View → Prop}
    {left : Step Memory.Store α} {right : Step Database.Store α}
    (obeys : right.Obeys Database.Store.view law)
    (follows : ∀ {log m d}, Mirrors False log m d → Follows False log left right m d) :
    right.Within KeepsLogs := by
  intro d sound
  refine ⟨(obeys d sound).1, ?_⟩
  obtain ⟨m, -, mirrors, -⟩ := sound
  rcases follows mirrors with ⟨-, after⟩ | ⟨e, -, after⟩
  · exact after.logged
  · exact after.logged

open Revised in
/-- Only calls on change logs change these. -/
theorem writes_keepLogs : Writes Database.Store Service.Call.IsQuiet KeepsLogs where
  nextUid mailbox := keepsLogs_of_follows (nextUid mailbox) fun mirrors =>
    mirrors.nextUid_follows mailbox
  nextModSeq mailbox := keepsLogs_of_follows (nextModSeq mailbox) fun mirrors =>
    mirrors.nextModSeq_follows mailbox
  append mailbox new now _ := Service.append_within keepsLogs_chains
    (fun mailbox => keepsLogs_of_follows (nextUid mailbox) fun mirrors =>
      mirrors.nextUid_follows mailbox)
    (fun mailbox => keepsLogs_of_follows (nextModSeq mailbox) fun mirrors =>
      mirrors.nextModSeq_follows mailbox)
    (fun message => keepsLogs_of_follows (insert message) fun mirrors =>
      mirrors.insert_follows message) mailbox new now
  applyFlags := Service.applyFlags_within keepsLogs_chains
    (fun mailbox => keepsLogs_of_follows (nextModSeq mailbox) fun mirrors =>
      mirrors.nextModSeq_follows mailbox)
    fun mailbox uid edit modSeq expected =>
      keepsLogs_of_follows (updateFlags mailbox uid edit modSeq expected) fun mirrors =>
        mirrors.updateFlags_follows mailbox uid edit modSeq expected
  resetRecent mailbox _ modSeq _ fits part ascending :=
    keepsLogs_of_follows (resetRecent mailbox part modSeq fits ascending) fun mirrors =>
      mirrors.resetRecent_follows mailbox fits ascending
  deleteBatch mailbox uids ascending :=
    keepsLogs_of_follows (deleteBatch mailbox uids ascending) fun mirrors =>
      mirrors.deleteBatch_follows mailbox ascending
  deleteMailbox mailbox := keepsLogs_of_follows (deleteMailbox mailbox) fun mirrors =>
    mirrors.deleteMailbox_follows mailbox
  deleteMessage id := keepsLogs_of_follows (deleteMessage id) fun mirrors =>
    .inl (mirrors.deleteMessage_agrees id)
  appendChange _ _ isQuiet := isQuiet.elim
  purgeExpired _ isQuiet := isQuiet.elim

instance : Recorded Database.Store where
  log d := (logOf d.database).view
  ordered := by
    rintro d ⟨m, sound, mirrors, written⟩
    exact written.ordered
  heads := by
    rintro d ⟨m, sound, mirrors, written⟩ account
    obtain ⟨heads, found, latest⟩ := mirrors.readHeads_eq written account
    exact ⟨heads, Prod.ext found rfl, latest⟩
  changesPage := by
    rintro d ⟨m, sound, mirrors, written⟩ request
    exact Prod.ext (mirrors.changesPage_eq written request) rfl
  extent d account := by
    show ((d.database.changes.filter _).entries.map logRow).length
      ≤ d.database.messages.size + d.database.changes.size + 1
    have := List.length_filter_le (fun entry => decide (entry.1.account = account))
      d.database.changes.entries
    rw [List.length_map, Table.entries_filter]
    unfold Table.size
    omega
  kept draft expiresAt state :=
    logRow (⟨draft.account, .integer state⟩, .ofDraft draft expiresAt)
  shown := ChangeDraft.asWritten
  state_kept _ _ _ := rfl
  outcome_kept _ _ _ _ decoded := (outcome_eq_ok_iff.mp decoded).2
  quiet policy call isQuiet d sound := by
    obtain ⟨-, same⟩ :=
      Service.Call.run_within keepsLogs_chains writes_keepLogs policy call isQuiet d sound
    rw [same]
  appendChange_error := by
    rintro draft expiresAt d ⟨m, sound, mirrors, written⟩ e after done
    rcases Nat.lt_or_eq_of_le (written.latest_le draft.account) with room | last
    · obtain ⟨notDelegated, d', succeeds, -⟩ := mirrors.appendChange_eq written draft expiresAt room
      rw [succeeds] at done
      cases done
    · rw [mirrors.appendChange_error written draft expiresAt last] at done
      cases done
      rfl
  appendChange := by
    rintro draft expiresAt d ⟨m, sound, mirrors, written⟩ record after done
    rcases Nat.lt_or_eq_of_le (written.latest_le draft.account) with room | last
    · obtain ⟨notDelegated, d', succeeds, mirrors'⟩ :=
        mirrors.appendChange_eq written draft expiresAt room
      rw [succeeds] at done
      cases done
      rw [mirrors'.logged]
      exact view_recorded written notDelegated
    · rw [mirrors.appendChange_error written draft expiresAt last] at done
      cases done
  purgeExpired := by
    rintro now d ⟨m, sound, mirrors, written⟩
    rw [(mirrors.purgeExpired_eq now).logged]
    exact view_dropped now

end Mirror

end Mailroom
