import Mailroom.Proofs.Failures.Calls
import Mathlib.Data.List.Nodup
import Mathlib.Data.List.Perm.Basic
/-!
Batches that fail in some partitions, and their repetition.

An `Interrupted` store is one whose resets and removals fail on partitions that a fault hits, and
that does everything else as usual. What a batch does is decided number by number if it is
`Batchwise`: what becomes of a number depends on that number only, and what is done to the store
depends on the set of numbers only. So the partitions that were not hit and the repetition on the
numbers of the others do together what one call does that nothing interrupts
(`Batchwise.runPartitioned_interrupted`).
-/

namespace Mailroom

variable {σ α : Type} {fault : List Uid → Option StoreError}

/-- A partition has room for a number. -/
theorem bound_pos [Storage σ] {store : σ} : 0 < max (Storage.listBound store) 1 :=
  Nat.lt_of_lt_of_le Nat.one_pos (Nat.le_max_right _ _)

/-! ### Faults -/

/-- A store on which a fault hits some partitions. -/
def Interrupted (σ : Type) (_ : List Uid → Option StoreError) : Type := σ

/-- A call on a partition, which fails and does nothing if the fault hits it. -/
def interrupt (fault : List Uid → Option StoreError) (call : List Uid → Step σ α)
    (part : List Uid) : Step σ α :=
  match fault part with
  | some e => .fail e
  | none => call part

instance [Storage σ] : Storage (Interrupted σ fault) :=
  { (inferInstanceAs (Storage σ) : Storage (Interrupted σ fault)) with
    resetRecent := fun mailbox part modSeq =>
      interrupt fault (fun part => (Storage.resetRecent mailbox part modSeq : Step σ _)) part
    deleteBatch := fun mailbox part =>
      interrupt fault (fun part => (Storage.deleteBatch mailbox part : Step σ _)) part }

theorem interrupt_of_some {call : List Uid → Step σ α} {part : List Uid} {e : StoreError}
    (hit : fault part = some e) : interrupt fault call part = .fail e := by
  unfold interrupt
  rw [hit]

theorem interrupt_of_none {call : List Uid → Step σ α} {part : List Uid}
    (missed : fault part = none) : interrupt fault call part = call part := by
  unfold interrupt
  rw [missed]

/-- The partitions that a fault hits. -/
def hit (fault : List Uid → Option StoreError) (parts : List (List Uid)) : List (List Uid) :=
  parts.filter fun part => (fault part).isSome

/-- The partitions that no fault hits. -/
def missed (fault : List Uid → Option StoreError) (parts : List (List Uid)) : List (List Uid) :=
  parts.filter fun part => !(fault part).isSome

/-- The partitions that a fault hits, each with its error. -/
def failures (fault : List Uid → Option StoreError) (parts : List (List Uid)) :
    List (List Uid × StoreError) := parts.filterMap fun part => (fault part).map (part, ·)

section Parts

variable {part : List Uid} {parts : List (List Uid)} {e : StoreError}

theorem mem_missed : part ∈ missed fault parts ↔ part ∈ parts ∧ fault part = none := by
  simp [missed]

theorem hit_cons : hit fault (part :: parts)
    = if (fault part).isSome then part :: hit fault parts else hit fault parts := List.filter_cons

theorem missed_cons_of_some (here : fault part = some e) :
    missed fault (part :: parts) = missed fault parts := by simp [missed, here]

theorem missed_cons_of_none (here : fault part = none) :
    missed fault (part :: parts) = part :: missed fault parts := by simp [missed, here]

theorem failures_cons_of_some (here : fault part = some e) :
    failures fault (part :: parts) = (part, e) :: failures fault parts := by
  simp [failures, here]

theorem failures_cons_of_none (here : fault part = none) :
    failures fault (part :: parts) = failures fault parts := by simp [failures, here]

theorem map_failures : (failures fault parts).map Prod.fst = hit fault parts := by
  induction parts with
  | nil => rfl
  | cons part rest ih =>
    rw [hit_cons]
    cases here : fault part with
    | some e =>
      rw [failures_cons_of_some here, List.map_cons, ih]
      rfl
    | none =>
      rw [failures_cons_of_none here, ih]
      rfl

theorem failedUids_failures {report : BatchReport} {succeeded : Nat} :
    (StoreError.partialBatch report (failures fault parts) succeeded).failedUids
      = (hit fault parts).flatten := by
  show (failures fault parts).flatMap Prod.fst = _
  rw [List.flatMap_def, map_failures]

theorem missed_congr {other : List Uid → Option StoreError}
    (same : ∀ part ∈ parts, fault part = other part) : missed fault parts = missed other parts :=
  List.filter_congr fun part member => by rw [same part member]

theorem hit_congr {other : List Uid → Option StoreError}
    (same : ∀ part ∈ parts, fault part = other part) : hit fault parts = hit other parts :=
  List.filter_congr fun part member => by rw [same part member]

theorem failures_congr {other : List Uid → Option StoreError}
    (same : ∀ part ∈ parts, fault part = other part) :
    failures fault parts = failures other parts :=
  List.filterMap_congr fun part member => by rw [same part member]

/-- Every partition is hit or missed. -/
theorem length_missed_add_failures :
    (missed fault parts).length + (failures fault parts).length = parts.length := by
  have same : (failures fault parts).length = (hit fault parts).length := by
    rw [← map_failures, List.length_map]
  rw [same, Nat.add_comm]
  exact (List.filter_append_perm (fun part => (fault part).isSome) parts).length_eq ▸
    List.length_append.symm

/-- The numbers of the partitions that were missed and of those that were hit make up the list. -/
theorem missed_append_hit (fault : List Uid → Option StoreError) (parts : List (List Uid)) :
    ((missed fault parts).flatten ++ (hit fault parts).flatten).Perm parts.flatten := by
  rw [← List.flatten_append]
  refine (List.Perm.trans List.perm_append_comm ?_).flatten
  exact List.filter_append_perm (fun part => (fault part).isSome) parts

end Parts

/-! ### What is reported of numbers -/

/-- What two errors report, one after the other. -/
def BatchReport.append (report more : BatchReport) : BatchReport where
  committed := report.committed ++ more.committed
  alreadyApplied := report.alreadyApplied ++ more.alreadyApplied
  missing := report.missing ++ more.missing

/-- Two reports tell the same, up to the order. -/
structure BatchReport.Perm (report other : BatchReport) : Prop where
  committed : report.committed.Perm other.committed
  alreadyApplied : report.alreadyApplied.Perm other.alreadyApplied
  missing : report.missing.Perm other.missing

/-- Results of partitions that are put together one after another. -/
class LawfulBatchOutcome (α : Type) [BatchOutcome α] : Prop where
  append_empty : ∀ a : α, BatchOutcome.append a BatchOutcome.empty = a
  empty_append : ∀ a : α, BatchOutcome.append BatchOutcome.empty a = a
  append_assoc : ∀ a b c : α, BatchOutcome.append (BatchOutcome.append a b) c
    = BatchOutcome.append a (BatchOutcome.append b c)
  report_empty : BatchOutcome.report (BatchOutcome.empty : α) = {}
  report_append : ∀ a b : α, BatchOutcome.report (BatchOutcome.append a b)
    = (BatchOutcome.report a).append (BatchOutcome.report b)

instance : LawfulBatchOutcome (List Metadata) where
  append_empty := List.append_nil
  empty_append := List.nil_append
  append_assoc := List.append_assoc
  report_empty := rfl
  report_append _ _ := rfl

instance : LawfulBatchOutcome (List Message) where
  append_empty := List.append_nil
  empty_append := List.nil_append
  append_assoc := List.append_assoc
  report_empty := rfl
  report_append rows more := by
    show BatchReport.mk ((rows ++ more).map _) [] [] = _
    rw [List.map_append]
    rfl

instance : LawfulBatchOutcome RecentReset where
  append_empty a := by
    show RecentReset.append a {} = a
    simp [RecentReset.append]
  empty_append a := by
    show RecentReset.append {} a = a
    simp [RecentReset.append]
  append_assoc a b c := by
    show RecentReset.append (RecentReset.append a b) c
      = RecentReset.append a (RecentReset.append b c)
    simp [RecentReset.append]
  report_empty := rfl
  report_append _ _ := rfl

section Gathered

variable [BatchOutcome α]

/-- The results of some numbers, in order. -/
def gather (one : Uid → α) (uids : List Uid) : α :=
  uids.foldr (fun uid rest => BatchOutcome.append (one uid) rest) BatchOutcome.empty

theorem gather_congr {one other : Uid → α} {uids : List Uid}
    (same : ∀ uid ∈ uids, one uid = other uid) : gather one uids = gather other uids := by
  induction uids with
  | nil => rfl
  | cons uid rest ih =>
    have later := ih fun uid member => same uid (List.mem_cons_of_mem _ member)
    show BatchOutcome.append (one uid) (gather one rest) = BatchOutcome.append _ _
    rw [same uid List.mem_cons_self, later]
    rfl

variable [LawfulBatchOutcome α]

theorem gather_append {one : Uid → α} {uids more : List Uid} :
    gather one (uids ++ more) = BatchOutcome.append (gather one uids) (gather one more) := by
  induction uids with
  | nil => exact (LawfulBatchOutcome.empty_append _).symm
  | cons uid rest ih =>
    show BatchOutcome.append (one uid) (gather one (rest ++ more)) = _
    rw [ih, ← LawfulBatchOutcome.append_assoc]
    rfl

/-- What is reported of some numbers is what is reported of each. -/
theorem report_gather {one : Uid → α} {uids : List Uid} :
    BatchOutcome.report (gather one uids) =
      { committed := uids.flatMap fun uid => (BatchOutcome.report (one uid)).committed
        alreadyApplied := uids.flatMap fun uid => (BatchOutcome.report (one uid)).alreadyApplied
        missing := uids.flatMap fun uid => (BatchOutcome.report (one uid)).missing } := by
  induction uids with
  | nil => exact LawfulBatchOutcome.report_empty
  | cons uid rest ih =>
    show BatchOutcome.report (BatchOutcome.append (one uid) (gather one rest)) = _
    rw [LawfulBatchOutcome.report_append, ih]
    rfl

/-- Reports of the same numbers tell the same, up to the order. -/
theorem report_gather_perm {one : Uid → α} {uids more whole : List Uid}
    (makesUp : (uids ++ more).Perm whole) :
    ((BatchOutcome.report (gather one uids)).append (BatchOutcome.report (gather one more))).Perm
      (BatchOutcome.report (gather one whole)) := by
  rw [← LawfulBatchOutcome.report_append, ← gather_append, report_gather, report_gather]
  exact ⟨makesUp.flatMap_right _, makesUp.flatMap_right _, makesUp.flatMap_right _⟩

end Gathered

/-! ### Batches number by number -/

/-- A call on partitions that goes number by number, on stores that are fit for it. What becomes of
a number depends on that number only, and what is done depends on the set of numbers only. -/
structure Batchwise [Storage σ] [Kept σ] [BatchOutcome α] (isFit : σ → Prop)
    (call : List Uid → Step σ α) where
  one : σ → Uid → α
  effect : List Uid → σ → σ
  runs : ∀ {store : σ} {part}, isFit store → part.Pairwise (· < ·) →
    part.length ≤ max (Storage.listBound store) 1 →
    call part store = (.ok (gather (one store) part), effect part store)
  effect_nil : ∀ store : σ, effect [] store = store
  effect_effect : ∀ (store : σ) part more,
    effect more (effect part store) = effect (part ++ more) store
  effect_congr : ∀ {store : σ} {part other}, (∀ uid, uid ∈ part ↔ uid ∈ other) →
    effect part store = effect other store
  one_effect : ∀ {store : σ} {part uid}, uid ∉ part → one (effect part store) uid = one store uid
  fit_effect : ∀ {store : σ} {part}, isFit store → isFit (effect part store)
  bound_effect : ∀ (store : σ) part, Storage.listBound (effect part store) = Storage.listBound store
  /-- Counters do not matter. -/
  fit_same : ∀ {store after : σ}, SameButCounters store after → isFit store → isFit after
  one_same : ∀ {store after : σ}, SameButCounters store after → one after = one store
  bound_same : ∀ {store after : σ}, SameButCounters store after →
    Storage.listBound after = Storage.listBound store
  effect_same : ∀ {store after : σ} {part}, SameButCounters store after →
    SameButCounters (effect part store) (effect part after)

/-- Partitions are executed one after another, and each of them answers. -/
inductive Executed (call : List Uid → Step σ α) :
    List (List Uid) → σ → List α → σ → Prop where
  | nil (store : σ) : Executed call [] store [] store
  | cons {part : List Uid} {parts : List (List Uid)} {store middle after : σ} {a : α}
      {answers : List α} (ran : call part store = (.ok a, middle))
      (others : Executed call parts middle answers after) :
      Executed call (part :: parts) store (a :: answers) after

namespace Batchwise

variable [Storage σ] [Kept σ] [BatchOutcome α] {isFit : σ → Prop} {call : List Uid → Step σ α}
  (batch : Batchwise isFit call) {store : σ} {parts : List (List Uid)} {uids : List Uid}

/-- Partitions that are each in order, short enough, and without a common number. -/
structure Cut (store : σ) (parts : List (List Uid)) : Prop where
  apart : parts.Pairwise fun part other => ∀ uid ∈ part, uid ∉ other
  ascending : ∀ part ∈ parts, part.Pairwise (· < ·)
  short : ∀ part ∈ parts, part.length ≤ max (Storage.listBound store) 1

omit [Kept σ] in
theorem cut_chunks (ascending : uids.Pairwise (· < ·)) :
    Cut store (chunks (max (Storage.listBound store) 1) uids) where
  apart := chunks_apart ascending
  ascending _ member := ascending.sublist (sublist_of_mem_chunks member)
  short _ member := length_of_mem_chunks member

include batch

theorem Cut.rest {part : List Uid} (cut : Cut store (part :: parts)) :
    Cut store parts ∧ Cut (batch.effect part store) parts := by
  have ascending := fun other member => cut.ascending other (List.mem_cons_of_mem _ member)
  have short := fun other member => cut.short other (List.mem_cons_of_mem _ member)
  have apart := (List.pairwise_cons.mp cut.apart).2
  exact ⟨⟨apart, ascending, short⟩, apart, ascending, by rwa [batch.bound_effect]⟩

/-- What a partition does makes no difference to the numbers of the others. -/
theorem gather_effect {part : List Uid} {others : List (List Uid)}
    (apart : ∀ other ∈ others, ∀ uid ∈ part, uid ∉ other) :
    gather (batch.one (batch.effect part store)) others.flatten
      = gather (batch.one store) others.flatten := by
  refine gather_congr fun uid member => batch.one_effect fun here => ?_
  obtain ⟨other, chosen, within⟩ := List.mem_flatten.mp member
  exact apart other chosen uid here within

variable [LawfulBatchOutcome α]

/-- A batch executes the partitions that are missed, and lists the others. -/
theorem runChunks_interrupted (fault : List Uid → Option StoreError) (fit : isFit store)
    (cut : Cut store parts) (progress : BatchProgress α) :
    runChunks (interrupt fault call) parts progress store
      = ({ outcome := BatchOutcome.append progress.outcome
              (gather (batch.one store) (missed fault parts).flatten)
           failed := progress.failed ++ failures fault parts
           succeeded := progress.succeeded + (missed fault parts).length },
        batch.effect (missed fault parts).flatten store) := by
  induction parts generalizing progress store with
  | nil =>
    show (progress, store) = _
    rw [missed, failures, List.filter_nil, List.filterMap_nil, List.append_nil, List.flatten_nil,
      batch.effect_nil, gather, List.foldr_nil, LawfulBatchOutcome.append_empty]
    rfl
  | cons part rest ih =>
    obtain ⟨sameCut, laterCut⟩ := cut.rest batch
    unfold runChunks
    cases here : fault part with
    | some e =>
      rw [interrupt_of_some here]
      show runChunks _ rest _ store = _
      rw [ih fit sameCut, missed_cons_of_some here, failures_cons_of_some here]
      simp
    | none =>
      have ran := batch.runs fit (cut.ascending part List.mem_cons_self)
        (cut.short part List.mem_cons_self)
      have apart : ∀ other ∈ missed fault rest, ∀ uid ∈ part, uid ∉ other := fun other member =>
        (List.pairwise_cons.mp cut.apart).1 other (List.mem_of_mem_filter member)
      rw [interrupt_of_none here, ran]
      show runChunks _ rest _ (batch.effect part store) = _
      rw [ih (batch.fit_effect fit) laterCut, missed_cons_of_none here, failures_cons_of_none here,
        batch.gather_effect apart, List.flatten_cons, gather_append, batch.effect_effect,
        LawfulBatchOutcome.append_assoc, List.length_cons, Nat.add_assoc, Nat.add_comm 1]

/-- The partitions that are missed are executed one after another. -/
theorem executed (fit : isFit store) (cut : Cut store parts) :
    ∃ answers, Executed call parts store answers (batch.effect parts.flatten store) ∧
      answers.foldr BatchOutcome.append BatchOutcome.empty
        = gather (batch.one store) parts.flatten := by
  induction parts generalizing store with
  | nil =>
    refine ⟨[], ?_, rfl⟩
    rw [List.flatten_nil, batch.effect_nil]
    exact .nil store
  | cons part rest ih =>
    have ran := batch.runs fit (cut.ascending part List.mem_cons_self)
      (cut.short part List.mem_cons_self)
    obtain ⟨answers, later, told⟩ := ih (batch.fit_effect fit) (cut.rest batch).2
    rw [batch.effect_effect] at later
    refine ⟨_ :: answers, .cons ran later, ?_⟩
    rw [List.foldr_cons, told, batch.gather_effect (List.pairwise_cons.mp cut.apart).1,
      List.flatten_cons, gather_append]

/-- A batch none of whose partitions is hit does all of its numbers. -/
theorem runPartitioned_missed (fault : List Uid → Option StoreError) (fit : isFit store)
    (ascending : uids.Pairwise (· < ·))
    (misses : ∀ part ∈ chunks (max (Storage.listBound store) 1) uids, fault part = none) :
    runPartitioned (Storage.listBound store) (interrupt fault call) uids store
      = (.ok (gather (batch.one store) uids), batch.effect uids store) := by
  by_cases nothing : uids = []
  · rw [nothing, batch.effect_nil]
    rfl
  by_cases single : uids.length ≤ max (Storage.listBound store) 1
  · rw [chunks_single nothing single] at misses
    rw [runPartitioned_single nothing single, interrupt_of_none (misses uids List.mem_cons_self),
      batch.runs fit ascending single]
  have ran := batch.runChunks_interrupted fault fit (cut_chunks ascending)
    { outcome := BatchOutcome.empty }
  have all : missed fault (chunks (max (Storage.listBound store) 1) uids)
      = chunks (max (Storage.listBound store) 1) uids :=
    List.filter_eq_self.mpr fun part member => by rw [misses part member]; rfl
  have noFailure : failures fault (chunks (max (Storage.listBound store) 1) uids) = [] :=
    List.filterMap_eq_nil_iff.mpr fun part member => by rw [misses part member]; rfl
  rw [all, noFailure, flatten_chunks bound_pos, LawfulBatchOutcome.empty_append] at ran
  unfold runPartitioned
  rw [if_neg (by rwa [List.isEmpty_iff]), if_neg single, ran]
  rfl

/-- A batch that nothing interrupts does all of its numbers. -/
theorem runPartitioned_eq (fit : isFit store) (ascending : uids.Pairwise (· < ·)) :
    runPartitioned (Storage.listBound store) call uids store
      = (.ok (gather (batch.one store) uids), batch.effect uids store) :=
  batch.runPartitioned_missed (fun _ => none) fit ascending fun _ _ => rfl

/-- A batch of several partitions of which some are hit fails, and has done the others. -/
theorem runPartitioned_interrupted (fit : isFit store) (ascending : uids.Pairwise (· < ·))
    (several : max (Storage.listBound store) 1 < uids.length)
    (isHit : ∃ part ∈ chunks (max (Storage.listBound store) 1) uids, (fault part).isSome) :
    let parts := chunks (max (Storage.listBound store) 1) uids
    runPartitioned (Storage.listBound store) (interrupt fault call) uids store
      = (.error (.partialBatch
            (BatchOutcome.report (gather (batch.one store) (missed fault parts).flatten))
            (failures fault parts) (missed fault parts).length),
          batch.effect (missed fault parts).flatten store) := by
  intro parts
  have nonempty : ¬ uids.isEmpty = true := by
    rw [List.isEmpty_iff]
    rintro rfl
    exact Nat.not_lt_zero _ several
  have someFailed : ¬ (failures fault parts).isEmpty = true := by
    rw [List.isEmpty_iff, ← List.map_eq_nil_iff (f := Prod.fst), map_failures]
    obtain ⟨part, member, here⟩ := isHit
    exact List.ne_nil_of_mem (List.mem_filter.mpr ⟨member, here⟩)
  have ran := batch.runChunks_interrupted fault fit (cut_chunks ascending)
    { outcome := BatchOutcome.empty }
  unfold runPartitioned
  rw [if_neg nonempty, if_neg (Nat.not_le.mpr several), ran, LawfulBatchOutcome.empty_append,
    List.nil_append, Nat.zero_add]
  exact congrArg (·, _) (if_neg someFailed)

end Batchwise

/-! ### Repetitions -/

/-- A batch has several partitions, and a fault hits some of them. -/
structure IsInterrupted [Storage σ] (fault : List Uid → Option StoreError) (uids : List Uid)
    (store : σ) : Prop where
  several : max (Storage.listBound store) 1 < (sortedUids uids).length
  isHit : ∃ part ∈ chunks (max (Storage.listBound store) 1) (sortedUids uids),
    (fault part).isSome

/-- What a batch reports that failed in the partitions that a fault hits: which they are, and what
the others have done, each of which was executed. -/
structure FailsInPart [BatchOutcome α] (call : List Uid → Step σ α)
    (fault : List Uid → Option StoreError) (parts : List (List Uid)) (start : σ)
    (report : BatchReport) (failed : List (List Uid × StoreError)) (succeeded : Nat) (after : σ) :
    Prop where
  failed_eq : failed = failures fault parts
  failedUids_eq : (StoreError.partialBatch report failed succeeded).failedUids
    = (hit fault parts).flatten
  total : succeeded + failed.length = parts.length
  executed : ∃ answers, Executed call (missed fault parts) start answers after ∧
    report = BatchOutcome.report (answers.foldr BatchOutcome.append BatchOutcome.empty)

/-- It makes no difference what would hit other partitions. -/
theorem FailsInPart.congr [BatchOutcome α] {call : List Uid → Step σ α}
    {other : List Uid → Option StoreError} {parts : List (List Uid)} {start after : σ}
    {report : BatchReport} {failed : List (List Uid × StoreError)} {succeeded : Nat}
    (same : ∀ part ∈ parts, fault part = other part)
    (inPart : FailsInPart call fault parts start report failed succeeded after) :
    FailsInPart call other parts start report failed succeeded after where
  failed_eq := inPart.failed_eq.trans (failures_congr same)
  failedUids_eq := inPart.failedUids_eq.trans (congrArg List.flatten (hit_congr same))
  total := inPart.total
  executed := missed_congr same ▸ inPart.executed

/-- After an operation has failed, it may be repeated on the numbers of the partitions that failed.
If no fault hits it any more, everything but counters is as it would be had no fault hit at all, and
both reports together tell what would have been reported then. -/
def CompletesByRetry [Storage σ] [Kept σ] [BatchOutcome α] (operation : List Uid → Step σ α)
    (uids failedUids : List Uid) (store after : σ) (report : BatchReport) : Prop :=
  ∃ (again whole : α) (retried done : σ),
    operation failedUids after = (.ok again, retried) ∧ operation uids store = (.ok whole, done) ∧
      SameButCounters done retried ∧
      (report.append (BatchOutcome.report again)).Perm (BatchOutcome.report whole)

/-- The numbers that an error reports on. -/
def BatchReport.uids (report : BatchReport) : List Uid :=
  report.committed.map Metadata.uid ++ report.alreadyApplied ++ report.missing

/-- The numbers that a batch reports on, and those of the partitions that failed, are the numbers
that it was given. Each is told of once. -/
structure Accounts (report : BatchReport) (failedUids uids : List Uid) : Prop where
  whole : (report.uids ++ failedUids).Perm (sortedUids uids)
  disjoint : [report.committed.map Metadata.uid, report.alreadyApplied, report.missing,
    failedUids].Pairwise List.Disjoint

theorem Accounts.of_perm {report : BatchReport} {failedUids : List Uid}
    (whole : (report.uids ++ failedUids).Perm (sortedUids uids)) :
    Accounts report failedUids uids where
  whole
  disjoint := by
    have once : (report.uids ++ failedUids).Nodup :=
      whole.nodup_iff.mpr ((sortedUids_ascending uids).imp Nat.ne_of_lt)
    have flat : report.uids ++ failedUids = [report.committed.map Metadata.uid,
        report.alreadyApplied, report.missing, failedUids].flatten := by
      simp [BatchReport.uids]
    rw [flat, List.nodup_flatten] at once
    exact once.2

/-- What is reported of numbers is about these numbers if that is so of each. -/
theorem uids_report_gather [BatchOutcome α] [LawfulBatchOutcome α] {one : Uid → α}
    (each : ∀ uid, (BatchOutcome.report (one uid)).uids = [uid]) :
    (BatchOutcome.report (gather one uids)).uids.Perm uids := by
  rw [report_gather]
  show (List.map _ (List.flatMap _ _) ++ List.flatMap _ _ ++ List.flatMap _ _).Perm _
  rw [List.map_flatMap]
  refine ((List.flatMap_append_perm _ _ _).append_right _).trans ?_
  refine (List.flatMap_append_perm _ _ _).trans ?_
  refine List.Perm.of_eq ?_
  calc uids.flatMap (fun uid => (BatchOutcome.report (one uid)).uids)
    _ = uids.flatMap fun uid => [uid] := List.flatMap_congr fun uid _ => each uid
    _ = uids := List.flatMap_singleton' uids

theorem hit_sublist (fault : List Uid → Option StoreError) (parts : List (List Uid)) :
    (hit fault parts).flatten.Sublist parts.flatten := by
  induction parts with
  | nil => exact List.Sublist.refl _
  | cons part rest ih =>
    rw [hit_cons]
    split
    · exact (List.Sublist.refl part).append ih
    · exact ih.trans (List.sublist_append_right _ _)

/-- The numbers of the partitions that were hit ascend. -/
theorem hit_ascending {size : Nat} (positive : 0 < size) :
    (hit fault (chunks size (sortedUids uids))).flatten.Pairwise (· < ·) := by
  have among := hit_sublist fault (chunks size (sortedUids uids))
  rw [flatten_chunks positive] at among
  exact (sortedUids_ascending uids).sublist among

/-- No number of a partition that was hit is one of those that were missed. -/
theorem hit_apart_missed {size : Nat} (positive : 0 < size) :
    ∀ uid ∈ (hit fault (chunks size (sortedUids uids))).flatten,
      uid ∉ (missed fault (chunks size (sortedUids uids))).flatten := by
  have makesUp := missed_append_hit fault (chunks size (sortedUids uids))
  rw [flatten_chunks positive] at makesUp
  have once := makesUp.nodup_iff.mpr ((sortedUids_ascending uids).imp Nat.ne_of_lt)
  exact fun uid here there => (List.nodup_append.mp once).2.2 uid there uid here rfl

theorem IsInterrupted.of_bound_eq [Storage σ] {store other : σ}
    (bound : Storage.listBound other = Storage.listBound store)
    (interrupted : IsInterrupted fault uids store) : IsInterrupted fault uids other :=
  ⟨bound ▸ interrupted.several, bound ▸ interrupted.isHit⟩

theorem IsInterrupted.ne_nil [Storage σ] {store : σ}
    (interrupted : IsInterrupted fault uids store) : uids ≠ [] := by
  rintro rfl
  exact absurd interrupted.several (Nat.not_lt_zero _)

theorem IsInterrupted.failedUids_ne_nil [Storage σ] {store : σ}
    (interrupted : IsInterrupted fault uids store) :
    (hit fault (chunks (max (Storage.listBound store) 1) (sortedUids uids))).flatten ≠ [] := by
  obtain ⟨part, member, here⟩ := interrupted.isHit
  have nonempty : part ≠ [] := ne_nil_of_mem_chunks bound_pos member
  intro none_failed
  exact nonempty (List.flatten_eq_nil_iff.mp none_failed part (List.mem_filter.mpr ⟨member, here⟩))

namespace Batchwise

variable [Storage σ] [Kept σ] [BatchOutcome α] [LawfulBatchOutcome α] {isFit : σ → Prop}
  {call : List Uid → Step σ α} (batch : Batchwise isFit call) {store start : σ}

include batch

/-- What a batch does that is interrupted. -/
theorem failsInPart (fit : isFit start) (interrupted : IsInterrupted fault uids start) :
    let parts := chunks (max (Storage.listBound start) 1) (sortedUids uids)
    let report := BatchOutcome.report (gather (batch.one start) (missed fault parts).flatten)
    let after := batch.effect (missed fault parts).flatten start
    runPartitioned (Storage.listBound start) (interrupt fault call) (sortedUids uids) start
        = (.error (.partialBatch report (failures fault parts) (missed fault parts).length),
          after) ∧
      FailsInPart call fault parts start report (failures fault parts)
        (missed fault parts).length after := by
  intro parts report after
  have ascending := sortedUids_ascending uids
  have whole : Cut start parts := cut_chunks ascending
  have cut : Cut start (missed fault parts) :=
    ⟨whole.apart.filter _, fun part member => whole.ascending part (List.mem_of_mem_filter member),
      fun part member => whole.short part (List.mem_of_mem_filter member)⟩
  obtain ⟨answers, executed, told⟩ := batch.executed fit cut
  refine ⟨batch.runPartitioned_interrupted fit ascending interrupted.several interrupted.isHit,
    rfl, failedUids_failures, length_missed_add_failures, answers, executed, ?_⟩
  rw [told]

/-- What a batch that was interrupted has done, and what is left of it, is the whole of it. -/
theorem completes (fit : isFit start) {counted : σ}
    (same : SameButCounters (batch.effect (missed fault
      (chunks (max (Storage.listBound start) 1) (sortedUids uids))).flatten start) counted) :
    let parts := chunks (max (Storage.listBound start) 1) (sortedUids uids)
    ∃ (again whole : α) (retried done : σ),
      runPartitioned (Storage.listBound counted) call (sortedUids (hit fault parts).flatten) counted
          = (.ok again, retried) ∧
        runPartitioned (Storage.listBound start) call (sortedUids uids) start = (.ok whole, done) ∧
        SameButCounters done retried ∧
        ((BatchOutcome.report (gather (batch.one start) (missed fault parts).flatten)).append
          (BatchOutcome.report again)).Perm (BatchOutcome.report whole) := by
  intro parts
  have ascending := sortedUids_ascending uids
  have others : (hit fault parts).flatten.Pairwise (· < ·) := hit_ascending bound_pos
  have makesUp : ((missed fault parts).flatten ++ (hit fault parts).flatten).Perm
      (sortedUids uids) := by
    have makesUp := missed_append_hit fault parts
    rwa [flatten_chunks bound_pos] at makesUp
  have ran := batch.runPartitioned_eq (batch.fit_same same (batch.fit_effect fit)) others
  rw [sortedUids_of_ascending others]
  refine ⟨_, _, _, _, ran, batch.runPartitioned_eq fit ascending, ?_, ?_⟩
  · have left : batch.effect (hit fault parts).flatten
          (batch.effect (missed fault parts).flatten start)
        = batch.effect (sortedUids uids) start := by
      rw [batch.effect_effect]
      exact batch.effect_congr fun uid => makesUp.mem_iff
    exact left ▸ batch.effect_same same
  · have apart : ∀ uid ∈ (hit fault parts).flatten, uid ∉ (missed fault parts).flatten :=
      hit_apart_missed bound_pos
    have told : gather (batch.one counted) (hit fault parts).flatten
        = gather (batch.one start) (hit fault parts).flatten := by
      rw [batch.one_same same]
      exact gather_congr fun uid here => batch.one_effect (apart uid here)
    rw [told]
    exact report_gather_perm makesUp

/-- What a batch that was interrupted reports is about the numbers that did not fail. -/
theorem accounts (each : ∀ uid, (BatchOutcome.report (batch.one start uid)).uids = [uid])
    (fault : List Uid → Option StoreError) (uids : List Uid) :
    let parts := chunks (max (Storage.listBound start) 1) (sortedUids uids)
    Accounts (BatchOutcome.report (gather (batch.one start) (missed fault parts).flatten))
      (hit fault parts).flatten uids := by
  intro parts
  refine .of_perm (((uids_report_gather each).append_right _).trans ?_)
  have makesUp := missed_append_hit fault parts
  rwa [flatten_chunks bound_pos] at makesUp

end Batchwise

/-! ### Resets and removals -/

section Operations

variable [Storage σ] {mailbox : MailboxId} {modSeq : ModSeq} {store middle after : σ}

/-- A reset to a modification sequence that a store keeps resets part after part. -/
theorem resetRecent_of_le (fits : modSeq ≤ maxStored) (uids : List Uid) (store : σ) :
    Service.resetRecent mailbox uids modSeq store
      = Service.partitioned (fun part => Storage.resetRecent mailbox part modSeq)
        (sortedUids uids) store :=
  congrFun (if_neg (Nat.not_lt.mpr fits)) store

/-- A removal of some numbers counts up and then removes part after part. -/
theorem deleteByUids_of_counted (nonempty : uids ≠ [])
    (counted : Storage.nextModSeq mailbox store = (.ok modSeq, middle)) :
    Service.deleteByUids mailbox uids store
      = (Service.partitioned (Storage.deleteBatch mailbox) (sortedUids uids) :
        Step σ (List Metadata)) middle := by
  unfold Service.deleteByUids
  rw [if_neg (by rwa [List.isEmpty_iff])]
  exact Step.bind_of_ok counted

/-- A removal of some numbers succeeds only if the modification sequence counts up. -/
theorem counted_of_deleteByUids (nonempty : uids ≠ []) {removed : List Metadata}
    (done : Service.deleteByUids mailbox uids store = (.ok removed, after)) :
    ∃ modSeq middle, Storage.nextModSeq mailbox store = (.ok modSeq, middle) := by
  unfold Service.deleteByUids at done
  rw [if_neg (by rwa [List.isEmpty_iff])] at done
  obtain ⟨modSeq, middle, counted, -⟩ := Step.of_bind_eq_ok done
  exact ⟨modSeq, middle, counted⟩

end Operations

theorem sameButCounters_of_nextModSeq [Storage σ] [Kept σ] [RollsBack σ] {mailbox : MailboxId}
    {store after : σ} {n : ModSeq} (counted : Storage.nextModSeq mailbox store = (.ok n, after)) :
    SameButCounters store after := by
  have counts := (RollsBack.nextModSeq mailbox store).kept
  rwa [counted] at counts

end Mailroom
