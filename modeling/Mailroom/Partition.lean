import Mailroom.Step
/-!
Batches of row numbers, executed a partition at a time.

A store takes a limited number of numbers in one call. `runPartitioned` cuts a longer list into
consecutive chunks and runs the call on each of them, whether or not earlier ones failed. If some
failed, the error says what the others have done and which numbers are to be tried again.
-/

namespace Mailroom

variable {σ α : Type}

/-- A result of one partition that can be put together with those of the others. -/
class BatchOutcome (α : Type) where
  /-- The result of no partition. -/
  empty : α
  /-- The result of two partitions, in order. -/
  append : α → α → α
  /-- What an error reports of the partitions that succeeded. -/
  report : α → BatchReport

instance : BatchOutcome (List Metadata) where
  empty := []
  append := (· ++ ·)
  report rows := { committed := rows }

instance : BatchOutcome (List Message) where
  empty := []
  append := (· ++ ·)
  report rows := { committed := rows.map Message.metadata }

/-- What clearing the recent flag of some rows did. -/
structure RecentReset where
  /-- The rows that were changed. -/
  updated : List Metadata := []
  /-- The numbers of the rows that already had the wanted modification sequence. -/
  alreadyApplied : List Uid := []
  /-- The numbers without a row. -/
  missing : List Uid := []
deriving DecidableEq, Inhabited

namespace RecentReset

/-- How many of the numbers asked for were not changed. -/
def skipped (reset : RecentReset) : Nat := reset.alreadyApplied.length + reset.missing.length

/-- The results of two partitions, in order. -/
def append (a b : RecentReset) : RecentReset where
  updated := a.updated ++ b.updated
  alreadyApplied := a.alreadyApplied ++ b.alreadyApplied
  missing := a.missing ++ b.missing

end RecentReset

instance : BatchOutcome RecentReset where
  empty := {}
  append := .append
  report reset :=
    { committed := reset.updated, alreadyApplied := reset.alreadyApplied, missing := reset.missing }

/-- Cuts a list into chunks of `size` elements and a last one with what is left. -/
def chunks (size : Nat) (uids : List Uid) : List (List Uid) :=
  go uids.length uids
where
  /-- Cuts off at most `count` chunks. -/
  go : Nat → List Uid → List (List Uid)
    | 0, _ => []
    | _, [] => []
    | count + 1, uids => uids.take size :: go count (uids.drop size)

/-- The results of the partitions so far. -/
structure BatchProgress (α : Type) where
  outcome : α
  failed : List (List Uid × StoreError) := []
  succeeded : Nat := 0

/-- Runs a call on each partition in turn and keeps its result or its error. -/
def runChunks [BatchOutcome α] (call : List Uid → Step σ α) :
    List (List Uid) → BatchProgress α → σ → BatchProgress α × σ
  | [], progress, store => (progress, store)
  | chunk :: rest, progress, store =>
    match call chunk store with
    | (.ok outcome, store) =>
      runChunks call rest
        { progress with
          outcome := BatchOutcome.append progress.outcome outcome
          succeeded := progress.succeeded + 1 } store
    | (.error e, store) =>
      runChunks call rest { progress with failed := progress.failed ++ [(chunk, e)] } store

/-- The result of a batch: that of all its partitions if none failed. -/
def BatchProgress.result [BatchOutcome α] (progress : BatchProgress α) : Except StoreError α :=
  if progress.failed.isEmpty then .ok progress.outcome
  else .error (.partialBatch (BatchOutcome.report progress.outcome) progress.failed
    progress.succeeded)

/-- Runs a call on a list of numbers in partitions of at most `bound`. No number needs no call, and
a single partition answers for itself. -/
def runPartitioned [BatchOutcome α] (bound : Nat) (call : List Uid → Step σ α)
    (uids : List Uid) : Step σ α := fun store =>
  if uids.isEmpty then (.ok BatchOutcome.empty, store)
  else if uids.length ≤ max bound 1 then call uids store
  else
    let (progress, store) :=
      runChunks call (chunks (max bound 1) uids) { outcome := BatchOutcome.empty } store
    (progress.result, store)

/-- Puts a number at its place in an ascending list, unless the list has it already. -/
def insertUid (uid : Uid) : List Uid → List Uid
  | [] => [uid]
  | first :: rest =>
    if uid < first then uid :: first :: rest
    else if uid = first then first :: rest
    else first :: insertUid uid rest

/-- The numbers of a list in ascending order, each once. -/
def sortedUids (uids : List Uid) : List Uid := uids.foldr insertUid []

end Mailroom
