import Mailroom.Proofs.Changes.Reads
import Mailroom.Proofs.Revisions.Calls
/-!
What was recorded over a run.

`changesOf` lists the changes of an account that the calls of a run recorded, each with its state
and the instants of the purges after it; `recordsOf` does so for calls that are made under different
policies. `Recorded` says for each operation of a store what it does to the change logs. From this
it follows that the changes of a run got the states after the latest one, each the next, and that
the account then has the records of those changes that no purge has found expired (`run_records`,
`run_history`).
-/

namespace Mailroom

open Service

/-! ### Calls -/

/-- A call neither records changes nor drops records. -/
def Service.Call.IsQuiet : Call → Prop
  | .recordChange _ => False
  | .purgeExpired _ => False
  | _ => True

/-- The instant of a purge. -/
def Service.Call.purge? : Call → Option Instant
  | .purgeExpired now => some now
  | _ => none

/-- The draft and the state of a change that a call recorded for an account. -/
def Service.Call.change? (account : AccountId) :
    (call : Call) → Except StoreError call.Answer → Option (ChangeDraft × State)
  | .recordChange draft, answer =>
    match (answer : Except StoreError ChangeRecord) with
    | .ok record => if draft.account = account then some (draft, record.state) else none
    | .error _ => none
  | _, _ => none

/-- A change that was recorded. -/
structure Change where
  draft : ChangeDraft
  state : State
  /-- The instants of the purges after it. -/
  purges : List Instant

/-- The changes that were recorded for an account over a run, in their order. -/
def changesOf {σ : Type} [Storage σ] (policy : Policy) (account : AccountId) :
    List Call → σ → List Change
  | [], _ => []
  | call :: rest, store =>
    let (answer, store) := call.run policy store
    ((call.change? account answer).map fun change =>
        ⟨change.1, change.2, rest.filterMap Call.purge?⟩).toList
      ++ changesOf policy account rest store

/-- The store after calls that are each made under a policy of their own. -/
def Service.Call.runUnder {σ : Type} [Storage σ] : List (Policy × Call) → σ → σ
  | [], store => store
  | (policy, call) :: rest, store => runUnder rest (call.run policy store).2

/-- The changes that such calls recorded for an account, in their order, each with its policy. -/
def recordsOf {σ : Type} [Storage σ] (account : AccountId) :
    List (Policy × Call) → σ → List (Policy × Change)
  | [], _ => []
  | (policy, call) :: rest, store =>
    let (answer, store) := call.run policy store
    ((call.change? account answer).map fun change =>
        (policy, ⟨change.1, change.2, rest.filterMap fun step => step.2.purge?⟩)).toList
      ++ recordsOf account rest store

/-- The changes that calls recorded are those of the first call and those of the others. -/
theorem recordsOf_cons {σ : Type} [Storage σ] {account : AccountId} {store : σ} (policy : Policy)
    (call : Call) (rest : List (Policy × Call)) :
    recordsOf account ((policy, call) :: rest) store
      = (call.change? account (call.run policy store).1).toList.map
          (fun change => (policy, ⟨change.1, change.2, rest.filterMap fun step => step.2.purge?⟩))
        ++ recordsOf account rest (call.run policy store).2 := by
  show (Option.map _ (call.change? account (call.run policy store).1)).toList ++ _ = _
  cases call.change? account (call.run policy store).1 <;> rfl

/-- No more changes are recorded than calls are made. -/
theorem length_recordsOf_le {σ : Type} [Storage σ] {account : AccountId}
    (steps : List (Policy × Call)) (store : σ) :
    (recordsOf account steps store).length ≤ steps.length := by
  induction steps generalizing store with
  | nil => exact Nat.le_refl 0
  | cons step rest ih =>
    obtain ⟨policy, call⟩ := step
    have later := ih (call.run policy store).2
    rw [recordsOf_cons, List.length_append, List.length_map, List.length_cons]
    have first : (call.change? account (call.run policy store).1).toList.length ≤ 1 := by
      cases call.change? account (call.run policy store).1 <;> simp
    omega

section OnePolicy

variable {σ : Type} [Storage σ] (policy : Policy) (account : AccountId) (calls : List Call)
  (store : σ)

theorem Service.Call.runUnder_map :
    runUnder (calls.map (Prod.mk policy)) store = (runAll policy calls store).2 := by
  induction calls generalizing store with
  | nil => rfl
  | cons call rest ih => exact ih (call.run policy store).2

theorem recordsOf_map : recordsOf account (calls.map (Prod.mk policy)) store
    = (changesOf policy account calls store).map (Prod.mk policy) := by
  induction calls generalizing store with
  | nil => rfl
  | cons call rest ih =>
    have purges : (rest.map (Prod.mk policy)).filterMap (fun step => step.2.purge?)
        = rest.filterMap Call.purge? := List.filterMap_map ..
    rw [List.map_cons, recordsOf, changesOf, List.map_append, purges]
    simp only
    rw [ih]
    cases call.change? account (call.run policy store).1 <;> rfl

end OnePolicy

/-! ### What operations do -/

namespace LogView

/-- Adds the record of a change under the next state, unless the states have run out. -/
structure Adds (kept : State → LogRow) (draft : ChangeDraft) (record : ChangeRecord)
    (v v' : LogView) : Prop where
  record_eq : record = draft.record (v.latest draft.account).next
  latest : ∀ account,
    v'.latest account = if draft.account = account then record.state else v.latest account
  others : ∀ account, draft.account ≠ account → v'.rows account = v.rows account
  rows : v.latest draft.account < maxWord →
    v'.rows draft.account = v.rows draft.account ++ [kept record.state]

/-- A record that did not get the last state got the one after the latest. -/
theorem Adds.next_of_room {kept : State → LogRow} {draft : ChangeDraft} {record : ChangeRecord}
    {v v' : LogView} (adds : v.Adds kept draft record v') (room : record.state < maxWord) :
    v.latest draft.account < maxWord ∧ record.state = v.latest draft.account + 1 := by
  have state : record.state = (v.latest draft.account).next := by
    rw [adds.record_eq]
    rfl
  unfold State.next at state
  split at state
  · rename_i below
    exact ⟨below, state⟩
  · rename_i last
    exact absurd (state ▸ room) last

/-- The logs without the records that have expired by an instant. -/
def purge (v : LogView) (now : Instant) : LogView :=
  { v with rows := fun account => (v.rows account).filter fun row => row.isLive now }

end LogView

/-- A store whose change logs can be followed in a view. -/
class Recorded (σ : Type) [Storage σ] [Sound σ] extends Logged σ where
  /-- A change as it is kept, by the instant at which it expires and its state. -/
  kept : ChangeDraft → Option Instant → State → LogRow
  /-- A change as its record shows it. -/
  shown : ChangeDraft → ChangeDraft
  state_kept : ∀ draft expiresAt state, (kept draft expiresAt state).state = state
  outcome_kept : ∀ draft expiresAt state record, (kept draft expiresAt state).outcome = .ok record →
    record = (shown draft).record state
  quiet : ∀ (policy : Policy) (call : Call), call.IsQuiet → ∀ store : σ, isSound store →
    log (call.run policy store).2 = log store
  appendChange_error : ∀ draft expiresAt (store : σ), isSound store → ∀ e store',
    Storage.appendChange draft expiresAt store = (.error e, store') → log store' = log store
  appendChange : ∀ draft expiresAt (store : σ), isSound store → ∀ record store',
    Storage.appendChange draft expiresAt store = (.ok record, store') →
    (log store).Adds (kept draft expiresAt) draft record (log store')
  purgeExpired : ∀ now (store : σ), isSound store →
    log (Storage.purgeExpired now store).2 = (log store).purge now

namespace Recorded

open Logged

variable {σ : Type} [Storage σ] [Sound σ] [Recorded σ] {policy : Policy} {account : AccountId}
  {store : σ}

/-- The record of a change as it is kept. -/
def row (σ : Type) [Storage σ] [Sound σ] [Recorded σ] (policy : Policy) (change : Change) :
    LogRow :=
  kept σ change.draft (policy.expiry change.draft.date) change.state

/-- Whether a change is live at an instant and no purge has found it expired. -/
def lasts (σ : Type) [Storage σ] [Sound σ] [Recorded σ] (policy : Policy) (now : List Instant)
    (change : Change) : Bool :=
  (now ++ change.purges).all (row σ policy change).isLive

omit [Recorded σ] in
theorem change?_of_quiet {call : Call} (quiet : call.IsQuiet)
    (answer : Except StoreError call.Answer) : call.change? account answer = none := by
  cases call <;> first | rfl | exact quiet.elim

theorem purge?_of_quiet {call : Call} (quiet : call.IsQuiet) : call.purge? = none := by
  cases call <;> first | rfl | exact quiet.elim

/-- A call adds the record of the change that it recorded, and drops those that it found expired. -/
theorem call_history (sound : isSound store) (call : Call)
    (room : (log (call.run policy store).2).latest account < maxWord) :
    let changes := (call.change? account (call.run policy store).1).toList
    (log (call.run policy store).2).latest account
        = (log store).latest account + changes.length ∧
      changes.map Prod.snd = List.range' ((log store).latest account + 1) changes.length ∧
      (log (call.run policy store).2).rows account
        = ((log store).rows account).filter (fun row => call.purge?.all row.isLive)
          ++ changes.map fun change => kept σ change.1 (policy.expiry change.1.date) change.2 := by
  by_cases isQuiet : call.IsQuiet
  · rw [change?_of_quiet isQuiet, purge?_of_quiet isQuiet, quiet policy call isQuiet store sound]
    refine ⟨rfl, rfl, ?_⟩
    rw [Option.toList_none, List.map_nil, List.append_nil]
    exact (List.filter_eq_self.mpr fun _ _ => rfl).symm
  cases call with
  | recordChange draft =>
    have none_dropped : ((log store).rows account).filter
        (fun row => (Call.purge? (.recordChange draft)).all row.isLive)
          = (log store).rows account :=
      List.filter_eq_self.mpr fun _ _ => rfl
    rw [none_dropped]
    have ran : (Call.recordChange draft).run policy store
      = Storage.appendChange draft (policy.expiry draft.date) store := rfl
    rw [ran] at room ⊢
    rcases done : Storage.appendChange draft (policy.expiry draft.date) store with
      ⟨e | record, after⟩
    · rw [appendChange_error draft _ store sound e after done]
      simp [Call.change?]
    rw [done] at room
    have adds := appendChange draft _ store sound record after done
    by_cases here : draft.account = account
    · subst here
      have latest := adds.latest draft.account
      rw [if_pos rfl] at latest
      obtain ⟨below, state⟩ := adds.next_of_room (latest ▸ room)
      rw [latest, adds.rows below, state]
      simp [Call.change?, state]
    · rw [adds.latest account, if_neg here, adds.others account here]
      simp [Call.change?, here]
  | purgeExpired now =>
    have purged := purgeExpired now store sound
    show (log (Storage.purgeExpired now store).2).latest account = _ ∧ _ ∧
      (log (Storage.purgeExpired now store).2).rows account = _
    rw [purged]
    simp [Call.change?, Call.purge?, LogView.purge]
  | _ => exact absurd trivial isQuiet

/-- What an account has after a run: the records that it had before and those of the changes that
were recorded, as far as no purge has found them expired. -/
structure History (policy : Policy) (calls : List Call) (account : AccountId) (store : σ) :
    Prop where
  latest : (log (Call.runAll policy calls store).2).latest account
    = (log store).latest account + (changesOf policy account calls store).length
  states : (changesOf policy account calls store).map Change.state
    = List.range' ((log store).latest account + 1) (changesOf policy account calls store).length
  rows : (log (Call.runAll policy calls store).2).rows account
    = ((log store).rows account).filter (fun row => (calls.filterMap Call.purge?).all row.isLive)
      ++ ((changesOf policy account calls store).filter (lasts σ policy [])).map (row σ policy)

/-- No call takes the latest state back. -/
theorem latest_le_run (sound : isSound store) (call : Call) :
    (log store).latest account ≤ (log (call.run policy store).2).latest account := by
  by_cases isQuiet : call.IsQuiet
  · refine Nat.le_of_eq ?_
    rw [quiet policy call isQuiet store sound]
  cases call with
  | recordChange draft =>
    show _ ≤ (log (Storage.appendChange draft (policy.expiry draft.date) store).2).latest account
    rcases done : Storage.appendChange draft (policy.expiry draft.date) store with
      ⟨e | record, after⟩
    · refine Nat.le_of_eq ?_
      rw [appendChange_error draft _ store sound e after done]
    · have adds := appendChange draft _ store sound record after done
      rw [adds.latest account]
      split
      · rename_i here
        rw [adds.record_eq, ← here]
        exact (State.next_bounds _).2
      · exact Nat.le_refl _
  | purgeExpired now =>
    show _ ≤ (log (Storage.purgeExpired now store).2).latest account
    refine Nat.le_of_eq ?_
    rw [purgeExpired now store sound]
    rfl
  | _ => exact absurd trivial isQuiet

/-- A call takes the latest state on by no more than the change that it recorded. -/
theorem latest_run_le (sound : isSound store) (policy : Policy) (account : AccountId)
    (call : Call) :
    (log (call.run policy store).2).latest account ≤ (log store).latest account
      + (call.change? account (call.run policy store).1).toList.length := by
  by_cases isQuiet : call.IsQuiet
  · rw [quiet policy call isQuiet store sound]
    exact Nat.le_add_right _ _
  cases call with
  | recordChange draft =>
    have ran : (Call.recordChange draft).run policy store
      = Storage.appendChange draft (policy.expiry draft.date) store := rfl
    rw [ran]
    rcases done : Storage.appendChange draft (policy.expiry draft.date) store with
      ⟨e | record, after⟩
    · rw [appendChange_error draft _ store sound e after done]
      exact Nat.le_add_right _ _
    · have adds := appendChange draft _ store sound record after done
      rw [adds.latest account]
      by_cases here : draft.account = account
      · have state : record.state = ((log store).latest draft.account).next := by
          rw [adds.record_eq]
          rfl
        rw [if_pos here, state, here]
        simp only [Call.change?, if_pos here, Option.toList_some, List.length_singleton]
        exact State.next_le _
      · rw [if_neg here]
        exact Nat.le_add_right _ _
  | purgeExpired now =>
    have purged := purgeExpired now store sound
    show (log (Storage.purgeExpired now store).2).latest account ≤ _
    rw [purged]
    exact Nat.le_add_right _ _
  | _ => exact absurd trivial isQuiet

variable [Revised σ] [PureReads σ]

/-- What an account has after calls under policies of their own: the records that it had before and
those of the changes that were recorded, as far as no purge has found them expired. -/
structure Records (steps : List (Policy × Call)) (account : AccountId) (store : σ) : Prop where
  latest : (log (Call.runUnder steps store)).latest account
    = (log store).latest account + (recordsOf account steps store).length
  states : (recordsOf account steps store).map (fun entry => entry.2.state)
    = List.range' ((log store).latest account + 1) (recordsOf account steps store).length
  rows : (log (Call.runUnder steps store)).rows account
    = ((log store).rows account).filter
        (fun row => (steps.filterMap fun step => step.2.purge?).all row.isLive)
      ++ ((recordsOf account steps store).filter fun entry => lasts σ entry.1 [] entry.2).map
        fun entry => row σ entry.1 entry.2

omit [Recorded σ] in
theorem runUnder_sound (sound : isSound store) (steps : List (Policy × Call)) :
    isSound (Call.runUnder steps store) := by
  induction steps generalizing store with
  | nil => exact sound
  | cons step rest ih => exact ih (Call.runAll_sound step.1 [step.2] sound)

theorem latest_le_runUnder (sound : isSound store) (steps : List (Policy × Call)) :
    (log store).latest account ≤ (log (Call.runUnder steps store)).latest account := by
  induction steps generalizing store with
  | nil => exact Nat.le_refl _
  | cons step rest ih =>
    have middle : isSound (step.2.run step.1 store).2 := Call.runAll_sound step.1 [step.2] sound
    exact Nat.le_trans (latest_le_run sound step.2) (ih middle)

theorem latest_runUnder_le (sound : isSound store) (account : AccountId)
    (steps : List (Policy × Call)) :
    (log (Call.runUnder steps store)).latest account
      ≤ (log store).latest account + (recordsOf account steps store).length := by
  induction steps generalizing store with
  | nil => exact Nat.le_refl _
  | cons step rest ih =>
    obtain ⟨policy, call⟩ := step
    have middle : isSound (call.run policy store).2 := Call.runAll_sound policy [call] sound
    have first := latest_run_le sound policy account call
    rw [recordsOf_cons, List.length_append, List.length_map, ← Nat.add_assoc]
    exact Nat.le_trans (ih middle) (Nat.add_le_add_right first _)

/-- The changes of a run get the next states, and their records are kept until a purge finds them
expired. -/
theorem run_records (sound : isSound store) (steps : List (Policy × Call))
    (room : (log (Call.runUnder steps store)).latest account < maxWord) :
    Records steps account store := by
  induction steps generalizing store with
  | nil =>
    refine ⟨rfl, rfl, ?_⟩
    exact (List.append_nil _).trans (List.filter_eq_self.mpr fun _ _ => rfl) |>.symm
  | cons step rest ih =>
    obtain ⟨policy, call⟩ := step
    have middle : isSound (call.run policy store).2 := Call.runAll_sound policy [call] sound
    have room₁ := Nat.lt_of_le_of_lt (latest_le_runUnder middle rest) room
    obtain ⟨latest₁, states₁, rows₁⟩ := call_history sound call room₁
    obtain ⟨latest, states, rows⟩ := ih middle room
    rw [latest₁] at latest states
    refine ⟨?_, ?_, ?_⟩
    · rw [recordsOf_cons, List.length_append, List.length_map, ← Nat.add_assoc]
      exact latest
    · rw [recordsOf_cons, List.map_append, List.map_map, states, List.length_append,
        List.length_map]
      show List.map Prod.snd _ ++ _ = _
      rw [states₁, Nat.add_right_comm, List.range'_append_1]
    · rw [recordsOf_cons, List.filter_append, List.map_append, ← List.append_assoc]
      show (log (Call.runUnder rest (call.run policy store).2)).rows account = _
      rw [rows, rows₁, List.filter_append]
      congr 2
      · rw [List.filter_filter]
        refine List.filter_congr fun row _ => ?_
        cases purge : call.purge? with
        | none => simp [purge]
        | some now => simp [purge, Bool.and_comm]
      · rw [List.filter_map, List.filter_map, List.map_map]
        rfl

/-- The same for calls under one policy. -/
theorem run_history (sound : isSound store) (calls : List Call)
    (room : (log (Call.runAll policy calls store).2).latest account < maxWord) :
    History policy calls account store := by
  rw [← Call.runUnder_map] at room
  obtain ⟨latest, states, rows⟩ := run_records sound _ room
  rw [Call.runUnder_map, recordsOf_map] at latest rows
  rw [recordsOf_map] at states
  rw [List.length_map] at latest states
  rw [List.map_map] at states
  rw [List.filterMap_map, List.filter_map, List.map_map] at rows
  exact ⟨latest, states, rows⟩

end Recorded

end Mailroom
