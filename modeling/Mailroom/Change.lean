import Mailroom.Ident
import Mailroom.NameSet
import Mailroom.Time.Instant
/-!
The change log of an account.

Every recorded change gets the next state of its account, so states count the changes. The heads of
a log point at its latest states and are kept when old records are dropped.
-/

namespace Mailroom

/-- A checkpoint in the change log of an account: how many changes were recorded up to it. -/
abbrev State := Nat

namespace State

/-- The state of an account without changes. -/
def initial : State := 0

/-- The state after one more change; the last number of 64 bits has no successor. -/
def next (state : State) : State := if state < maxWord then state + 1 else state

end State

/-- A recorded change. -/
structure ChangeRecord where
  account : AccountId
  state : State
  date : Instant
  /-- Counts of messages changed, but no content. -/
  isCountChange : Bool
  /-- The change is visible through shared access only. -/
  isDelegated : Bool
  created : NameSet
  updated : NameSet
  destroyed : NameSet
deriving DecidableEq, Inhabited

/-- A change that has no state yet. -/
structure ChangeDraft where
  account : AccountId
  date : Instant
  isCountChange : Bool := false
  isDelegated : Bool := false
  created : NameSet := .empty
  updated : NameSet := .empty
  destroyed : NameSet := .empty
deriving DecidableEq, Inhabited

namespace ChangeDraft

/-- The draft with more identifiers of created messages. -/
def addCreated (draft : ChangeDraft) (ids : List String) : ChangeDraft :=
  { draft with created := draft.created.union (.ofList ids) }

/-- The draft with more identifiers of updated messages. -/
def addUpdated (draft : ChangeDraft) (ids : List String) : ChangeDraft :=
  { draft with updated := draft.updated.union (.ofList ids) }

/-- The draft with more identifiers of destroyed messages. -/
def addDestroyed (draft : ChangeDraft) (ids : List String) : ChangeDraft :=
  { draft with destroyed := draft.destroyed.union (.ofList ids) }

/-- The record of a draft that was given a state. -/
def record (draft : ChangeDraft) (state : State) : ChangeRecord where
  account := draft.account
  state := state
  date := draft.date
  isCountChange := draft.isCountChange
  isDelegated := draft.isDelegated
  created := draft.created
  updated := draft.updated
  destroyed := draft.destroyed

end ChangeDraft

/-- The latest states of an account, over all its changes and over those that are not delegated. -/
structure Heads where
  latest : State := .initial
  latestNotDelegated : State := .initial
deriving DecidableEq, Repr, Inhabited

/-- The heads after a record with a state. -/
def Heads.advance (heads : Heads) (state : State) (delegated : Bool) : Heads where
  latest := state
  latestNotDelegated := if delegated then heads.latestNotDelegated else state

/-- One page of an ascending read of a change log. -/
structure ChangePageRequest where
  account : AccountId
  /-- The least state asked for. -/
  lower : State
  /-- Only later states are asked for, once it is set. -/
  after : Option State
  /-- Records that have expired by this instant are left out. -/
  now : Instant
  /-- The greatest number of records to return. -/
  limit : Nat

/-- The first changes after a checkpoint, and whether more follow. -/
structure ChangesPage where
  changes : List ChangeRecord
  hasMore : Bool
deriving DecidableEq, Inhabited

end Mailroom
