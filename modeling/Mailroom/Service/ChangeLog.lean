import Mailroom.Service.Mailboxes
/-!
Calls on change logs, built on any store.

A record expires a fixed time after its date. A client that has seen the changes up to a state asks
for the records from that state on. If the record of that state has expired, changes may be missing
from the answer, and the client is told that its state is stale. The heads never expire, so the
latest state is always known.
-/

namespace Mailroom.Service

variable {σ : Type} [Storage σ]

/-- How a service reads and keeps. -/
structure Policy where
  /-- The number of rows of a page. -/
  batch : Nat
  /-- How many milliseconds a change record is kept, if not for ever. Settings give no other
  durations than whole ones that are not negative. -/
  retention : Option Nat
deriving DecidableEq, Repr

/-- When a record expires: never, if that would lie beyond the last year. -/
def Policy.expiry (policy : Policy) (date : Instant) : Option Instant :=
  policy.retention.bind date.plusMillis?

/-- Records a change under the next state of its account. -/
def recordChange (policy : Policy) (draft : ChangeDraft) : Step σ ChangeRecord :=
  Storage.appendChange draft (policy.expiry draft.date)

/-- The records of an account from a state on that have not expired at an instant. -/
def changeSource (account : AccountId) (lower : State) (now : Instant) :
    Source σ State ChangeRecord where
  key := ChangeRecord.state
  fetch after limit := Storage.changesPage ⟨account, lower, after, now, limit⟩

/-- Starts a read of all records of an account. -/
def allChanges (policy : Policy) (account : AccountId) (now : Instant) :
    Scan σ State ChangeRecord :=
  .start (changeSource account .initial now) policy.batch none

/-- Fetches the first page of a read. -/
def primed {κ τ : Type} (scan : Scan σ κ τ) : Step σ (Scan σ κ τ) := fun store =>
  match scan.prime store with
  | (.ok (), scan, store) => (.ok scan, store)
  | (.error e, _, store) => (.error e, store)

/-- Starts a read of at most `limit` records of an account from a state on. Its first page is
fetched at once, for it tells whether the record of that state is still there; before the first
state stands the initial one, which has no record. -/
def changesFrom (policy : Policy) (account : AccountId) (since : State) (limit : Option Nat)
    (now : Instant) : Step σ (Scan σ State ChangeRecord) := do
  let heads ← Storage.heads account
  let scan (limit : Option Nat) : Scan σ State ChangeRecord :=
    .start (changeSource account since now) policy.batch limit
  if heads.latest < since then .fail (.notFound (.changeState since account))
  else if since = .initial ∧ heads.latest = .initial then return scan (some 0)
  else
    let boundary := if since = .initial then since.next else since
    let scan ← primed (scan limit)
    if (scan.paging.buffer.head?.map ChangeRecord.state) = some boundary then return scan
    else .fail (.staleState account since)

/-- Starts a read of the records of an account from a state on. -/
def changesSince (policy : Policy) (account : AccountId) (since : State) (now : Instant) :
    Step σ (Scan σ State ChangeRecord) := changesFrom policy account since none now

/-- Every row that a read has left, unless one of its pages cannot be read. -/
def collected {κ τ : Type} (scan : Scan σ κ τ) : Step σ (List τ) := fun store =>
  let (rows, _, store) := drain scan store
  (rows.mapM id, store)

/-- At most `most` records of an account from a state on. One more is read to see whether more
follow. -/
def changesSinceLimited (policy : Policy) (account : AccountId) (since : State) (most : Nat)
    (now : Instant) : Step σ ChangesPage := do
  let scan ← changesFrom policy account since (some (min (most + 1) maxWord)) now
  let changes ← collected scan
  return ⟨changes.take most, most < changes.length⟩

/-- The latest state of an account. -/
def latestState (account : AccountId) : Step σ State :=
  return (← Storage.heads account).latest

/-- The latest state of an account whose change is not delegated. -/
def latestStateNotDelegated (account : AccountId) : Step σ State :=
  return (← Storage.heads account).latestNotDelegated

end Mailroom.Service
