import Mailroom.Proofs.Partition
/-!
Batches of any operation.

Whatever an operation does and wherever it fails, the answer of a batch can be told from the calls
that the batch makes. They are known if the operation is `noting` them: beside the store stands what
each call was given and what it answered. The partitions are called on in turn, each of them once
and whether or not earlier ones failed (`runChunks_noting`), and the progress of a batch is a count
of these calls (`BatchProgress.foldl_add`). So a batch answers with the results of its calls, or
reports which of them failed (`IsBatchOf`), and `batches_toldByCalls` says so of every operation.
-/

namespace Mailroom

variable {σ α : Type}

/-! ### Calls -/

/-- A call on some numbers, and what it answered. -/
structure PartCall (α : Type) where
  uids : List Uid
  answer : Except StoreError α

namespace PartCall

/-- The result of a call that succeeded. -/
def result? (call : PartCall α) : Option α := call.answer.toOption

/-- The numbers of a call that failed, with its own error. -/
def failed? (call : PartCall α) : Option (List Uid × StoreError) :=
  match call.answer with
  | .ok _ => none
  | .error e => some (call.uids, e)

@[simp] theorem result?_ok (uids : List Uid) (result : α) :
    (⟨uids, .ok result⟩ : PartCall α).result? = some result := rfl

@[simp] theorem result?_error (uids : List Uid) (e : StoreError) :
    (⟨uids, .error e⟩ : PartCall α).result? = none := rfl

@[simp] theorem failed?_ok (uids : List Uid) (result : α) :
    (⟨uids, .ok result⟩ : PartCall α).failed? = none := rfl

@[simp] theorem failed?_error (uids : List Uid) (e : StoreError) :
    (⟨uids, .error e⟩ : PartCall α).failed? = some (uids, e) := rfl

/-- Every call succeeded or failed. -/
theorem length_results_add_failed (calls : List (PartCall α)) :
    (calls.filterMap result?).length + (calls.filterMap failed?).length = calls.length := by
  induction calls with
  | nil => rfl
  | cons call rest ih =>
    obtain ⟨uids, e | result⟩ := call <;>
      simp only [List.filterMap_cons, result?_ok, result?_error, failed?_ok, failed?_error,
        List.length_cons] <;>
      omega

/-- The numbers of the calls that failed. -/
theorem flatMap_failed (calls : List (PartCall α)) :
    (calls.filterMap failed?).flatMap Prod.fst
      = (calls.filter fun call => call.result?.isNone).flatMap uids := by
  induction calls with
  | nil => rfl
  | cons call rest ih =>
    obtain ⟨uids, e | result⟩ := call <;> simp [List.filterMap_cons, List.filter_cons, ih]

end PartCall

/-- A store beside the calls that were made on it. -/
structure WithCalls (σ α : Type) where
  store : σ
  calls : List (PartCall α) := []

/-- An operation that notes each of its calls. -/
def noting (call : List Uid → Step σ α) (part : List Uid) : Step (WithCalls σ α) α := fun noted =>
  let (answer, store) := call part noted.store
  (answer, { store, calls := noted.calls ++ [⟨part, answer⟩] })

/-! ### Progress -/

section Progress

variable [BatchOutcome α]

/-- The results of several partitions, put together in order. -/
def merged (results : List α) : α := results.foldl BatchOutcome.append BatchOutcome.empty

/-- The progress of a batch after one more call. -/
def BatchProgress.add (progress : BatchProgress α) (call : PartCall α) : BatchProgress α :=
  match call.answer with
  | .ok result =>
    { progress with
      outcome := BatchOutcome.append progress.outcome result
      succeeded := progress.succeeded + 1 }
  | .error e => { progress with failed := progress.failed ++ [(call.uids, e)] }

/-- The progress after some calls is told from those that succeeded and those that failed. -/
theorem BatchProgress.foldl_add (calls : List (PartCall α)) (progress : BatchProgress α) :
    calls.foldl add progress =
      { outcome := (calls.filterMap PartCall.result?).foldl BatchOutcome.append progress.outcome
        failed := progress.failed ++ calls.filterMap PartCall.failed?
        succeeded := progress.succeeded + (calls.filterMap PartCall.result?).length } := by
  induction calls generalizing progress with
  | nil => simp
  | cons call rest ih =>
    obtain ⟨uids, e | result⟩ := call
    · rw [List.foldl_cons, ih]
      simp [add, List.filterMap_cons]
    · rw [List.foldl_cons, ih]
      simp [add, List.filterMap_cons, Nat.add_assoc, Nat.add_comm 1]

theorem runChunks_cons (call : List Uid → Step σ α) (part : List Uid) (rest : List (List Uid))
    (progress : BatchProgress α) (store : σ) :
    runChunks call (part :: rest) progress store
      = runChunks call rest (progress.add ⟨part, (call part store).1⟩) (call part store).2 := by
  rcases ran : call part store with ⟨_ | _, _⟩ <;> simp only [runChunks, ran, BatchProgress.add]

/-- Each partition is called on once, in turn, and noting the calls changes nothing. -/
theorem runChunks_noting (call : List Uid → Step σ α) (parts : List (List Uid))
    (progress : BatchProgress α) (noted : WithCalls σ α) :
    ∃ calls after, calls.map PartCall.uids = parts ∧
      runChunks call parts progress noted.store = (calls.foldl .add progress, after) ∧
      runChunks (noting call) parts progress noted
        = (calls.foldl .add progress, { store := after, calls := noted.calls ++ calls }) := by
  induction parts generalizing progress noted with
  | nil =>
    refine ⟨[], noted.store, rfl, rfl, ?_⟩
    rw [List.append_nil]
    rfl
  | cons part rest ih =>
    obtain ⟨calls, after, made, ran, noting_ran⟩ :=
      ih (progress.add ⟨part, (call part noted.store).1⟩) (noting call part noted).2
    refine ⟨⟨part, (call part noted.store).1⟩ :: calls, after, ?_, ?_, ?_⟩
    · rw [List.map_cons, made]
    · rw [runChunks_cons]
      exact ran
    · rw [runChunks_cons, List.append_cons]
      exact noting_ran

end Progress

/-! ### Batches -/

/-- The calls of a batch, and its answer as it is told from them. -/
structure IsBatchOf [BatchOutcome α] (bound : Nat) (uids : List Uid) (calls : List (PartCall α))
    (answer : Except StoreError α) : Prop where
  /-- No number needs no call. -/
  nothing : uids = [] → calls = [] ∧ answer = .ok BatchOutcome.empty
  /-- A list that is short enough is given to one call, which answers for itself. -/
  whole : uids ≠ [] → uids.length ≤ max bound 1 → calls = [⟨uids, answer⟩]
  /-- The calls are given consecutive parts that make up the list. -/
  parts : (calls.map PartCall.uids).flatten = uids
  sizes : ∀ call ∈ calls, call.uids ≠ [] ∧ call.uids.length ≤ max bound 1
  /-- A batch of several parts succeeds if each of them does, with their results in order. -/
  succeeds : max bound 1 < uids.length → ∀ result, answer = .ok result ↔
    calls.filterMap PartCall.failed? = [] ∧ result = merged (calls.filterMap PartCall.result?)
  /-- Otherwise it reports what the parts that succeeded have done, lists the others with their own
  errors, and counts the rest. -/
  fails : max bound 1 < uids.length → ∀ e, answer = .error e ↔
    calls.filterMap PartCall.failed? ≠ [] ∧
      e = .partialBatch (BatchOutcome.report (merged (calls.filterMap PartCall.result?)))
        (calls.filterMap PartCall.failed?)
        (calls.length - (calls.filterMap PartCall.failed?).length)
  /-- The numbers that are to be tried again are those of the calls that failed. -/
  failedUids : max bound 1 < uids.length → ∀ e, answer = .error e →
    e.failedUids = (calls.filter fun call => call.result?.isNone).flatMap PartCall.uids

/-- A batch of several parts is told from their calls. -/
theorem IsBatchOf.of_parts [BatchOutcome α] {bound : Nat} {uids : List Uid}
    {calls : List (PartCall α)} (several : max bound 1 < uids.length)
    (made : calls.map PartCall.uids = chunks (max bound 1) uids) :
    IsBatchOf bound uids calls
      (calls.foldl BatchProgress.add { outcome := BatchOutcome.empty }).result := by
  have positive : 0 < max bound 1 := Nat.lt_of_lt_of_le Nat.one_pos (Nat.le_max_right _ _)
  have counted : (calls.filterMap PartCall.result?).length
      = calls.length - (calls.filterMap PartCall.failed?).length :=
    Nat.eq_sub_of_add_eq (PartCall.length_results_add_failed calls)
  have answer : (calls.foldl BatchProgress.add { outcome := BatchOutcome.empty }).result
      = if calls.filterMap PartCall.failed? = [] then
          .ok (merged (calls.filterMap PartCall.result?))
        else .error (.partialBatch (BatchOutcome.report (merged (calls.filterMap PartCall.result?)))
          (calls.filterMap PartCall.failed?)
          (calls.length - (calls.filterMap PartCall.failed?).length)) := by
    rw [BatchProgress.foldl_add, BatchProgress.result, ← counted, List.nil_append, Nat.zero_add]
    simp only [List.isEmpty_iff]
    rfl
  constructor
  case nothing =>
    rintro rfl
    exact absurd several (Nat.not_lt_zero _)
  case whole => exact fun _ single => absurd single (Nat.not_le.mpr several)
  case parts => rw [made, flatten_chunks positive]
  case sizes =>
    intro call member
    have isPart : call.uids ∈ chunks (max bound 1) uids := made ▸ List.mem_map_of_mem member
    exact ⟨ne_nil_of_mem_chunks positive isPart, length_of_mem_chunks isPart⟩
  case succeeds =>
    intro _ result
    rw [answer]
    split
    · rename_i noneFailed
      rw [Except.ok.injEq]
      exact ⟨fun same => ⟨noneFailed, same.symm⟩, fun told => told.2.symm⟩
    · rename_i someFailed
      exact ⟨nofun, fun told => absurd told.1 someFailed⟩
  case fails =>
    intro _ e
    rw [answer]
    split
    · rename_i noneFailed
      exact ⟨nofun, fun told => absurd noneFailed told.1⟩
    · rename_i someFailed
      rw [Except.error.injEq]
      exact ⟨fun same => ⟨someFailed, same.symm⟩, fun told => told.2.symm⟩
  case failedUids =>
    rintro _ e failed
    rw [answer] at failed
    split at failed <;> cases failed
    exact PartCall.flatMap_failed calls

/-- A batch of any operation is told from the calls that it makes. -/
theorem runPartitioned_isBatchOf [BatchOutcome α] (bound : Nat) (uids : List Uid)
    (call : List Uid → Step σ α) (store : σ) : ∃ answer after calls,
      runPartitioned bound call uids store = (answer, after) ∧
      runPartitioned bound (noting call) uids { store } = (answer, { store := after, calls }) ∧
      IsBatchOf bound uids calls answer := by
  by_cases nothing : uids = []
  · subst nothing
    refine ⟨_, _, _, rfl, rfl, fun _ => ⟨rfl, rfl⟩, fun some => absurd rfl some, rfl, nofun,
      ?_, ?_, ?_⟩
    all_goals exact fun several => absurd several (Nat.not_lt_zero _)
  by_cases single : uids.length ≤ max bound 1
  · refine ⟨_, _, _, runPartitioned_single nothing single store,
      runPartitioned_single nothing single _, fun none => absurd none nothing, fun _ _ => rfl,
      List.append_nil _, ?_, ?_, ?_, ?_⟩
    · intro call member
      cases List.mem_singleton.mp member
      exact ⟨nothing, single⟩
    all_goals exact fun several => absurd single (Nat.not_le.mpr several)
  obtain ⟨calls, after, made, ran, noting_ran⟩ := runChunks_noting call
    (chunks (max bound 1) uids) { outcome := BatchOutcome.empty } { store }
  refine ⟨_, after, calls, ?_, ?_, .of_parts (Nat.not_le.mp single) made⟩
  · unfold runPartitioned
    rw [if_neg (by rwa [List.isEmpty_iff]), if_neg single, ran]
  · unfold runPartitioned
    rw [if_neg (by rwa [List.isEmpty_iff]), if_neg single, noting_ran]
    rfl

/-! ### Results -/

/-- Lists of results are put together one after another. -/
theorem foldl_append_flatten {β : Type} (results : List (List β)) :
    results.foldl (· ++ ·) [] = results.flatten := by
  have same : results.foldl (fun all result => all ++ id result) [] = (results.map id).flatten :=
    List.foldl_append_eq_append
  rwa [List.map_id] at same

theorem foldl_append_resets (results : List RecentReset) (first : RecentReset) :
    results.foldl RecentReset.append first =
      { updated := first.updated ++ results.flatMap RecentReset.updated
        alreadyApplied := first.alreadyApplied ++ results.flatMap RecentReset.alreadyApplied
        missing := first.missing ++ results.flatMap RecentReset.missing } := by
  induction results generalizing first with
  | nil => simp
  | cons result rest ih =>
    rw [List.foldl_cons, ih]
    simp [RecentReset.append]

/-- Whatever an operation does and wherever it fails, its batches are told from their calls, and the
results of the partitions that succeeded are put together in order. -/
theorem batches_toldByCalls (bound : Nat) (uids : List Uid) :
    (∀ {σ α : Type} [BatchOutcome α] (call : List Uid → Step σ α) (store : σ),
      ∃ answer after calls,
        runPartitioned bound call uids store = (answer, after) ∧
        runPartitioned bound (noting call) uids { store } = (answer, { store := after, calls }) ∧
        IsBatchOf bound uids calls answer) ∧
    (∀ results : List (List Metadata), merged results = results.flatten ∧
      BatchOutcome.report (merged results) = { committed := results.flatten }) ∧
    (∀ results : List (List Message), merged results = results.flatten ∧
      BatchOutcome.report (merged results)
        = { committed := results.flatten.map Message.metadata }) ∧
    ∀ results : List RecentReset,
      merged results =
        { updated := results.flatMap RecentReset.updated
          alreadyApplied := results.flatMap RecentReset.alreadyApplied
          missing := results.flatMap RecentReset.missing } ∧
      BatchOutcome.report (merged results) =
        { committed := results.flatMap RecentReset.updated
          alreadyApplied := results.flatMap RecentReset.alreadyApplied
          missing := results.flatMap RecentReset.missing } := by
  have ofMetadata (results : List (List Metadata)) : merged results = results.flatten :=
    foldl_append_flatten results
  have ofMessages (results : List (List Message)) : merged results = results.flatten :=
    foldl_append_flatten results
  have ofResets (results : List RecentReset) := foldl_append_resets results {}
  refine ⟨runPartitioned_isBatchOf bound uids, fun results => ⟨ofMetadata results, ?_⟩,
    fun results => ⟨ofMessages results, ?_⟩, fun results => ⟨ofResets results, ?_⟩⟩
  · rw [ofMetadata]
    rfl
  · rw [ofMessages]
    rfl
  · show BatchOutcome.report (results.foldl RecentReset.append {}) = _
    rw [ofResets]
    rfl

/-- The part that holds 3 fails, and the others are called on all the same. -/
example : ((runPartitioned 2
    (noting fun part _ => if 3 ∈ part then (.error (.unavailable "down"), ())
      else (.ok ({ missing := part } : RecentReset), ()))
    [1, 2, 3, 4, 5] { store := () }).2.calls.map fun call => (call.uids, call.result?))
      = [([1, 2], some { missing := [1, 2] }), ([3, 4], none), ([5], some { missing := [5] })] := by
  decide

end Mailroom
