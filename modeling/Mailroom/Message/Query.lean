import Mailroom.Message
/-!
Which rows of a mailbox a read asks for: a range of numbers, a filter on flags, how much of each
row, and one page of a scan.
-/

namespace Mailroom

/-- A range of row numbers, both ends included. -/
inductive UidRange where
  | all
  | atLeast (lower : Uid)
  | between (lower upper : Uid)
  | one (uid : Uid)
deriving DecidableEq, Repr, Inhabited

namespace UidRange

/-- The least number of a range; numbers given out start at 1. -/
def lower : UidRange → Uid
  | all => 1
  | atLeast lower => lower
  | between lower _ => lower
  | one uid => uid

/-- The greatest number of a range, if it ends. -/
def upper? : UidRange → Option Uid
  | all => none
  | atLeast _ => none
  | between _ upper => some upper
  | one uid => some uid

/-- Whether a number lies in a range. -/
def contains (range : UidRange) (uid : Uid) : Bool :=
  range.lower ≤ uid && (range.upper?.all fun upper => uid ≤ upper)

end UidRange

/-- A test on the flags of a row. -/
inductive Filter where
  | any
  | unseen
  | recent
  | notDeleted
  | deleted
deriving DecidableEq, Repr, Inhabited

namespace Filter

/-- Every filter. -/
def all : List Filter := [any, unseen, recent, notDeleted, deleted]

/-- The name of a filter. -/
def name : Filter → String
  | any => "Any"
  | unseen => "Unseen"
  | recent => "Recent"
  | notDeleted => "NotDeleted"
  | deleted => "Deleted"

/-- Whether flags pass a filter. -/
def admits : Filter → Flags → Bool
  | any, _ => true
  | unseen, flags => !flags.seen
  | recent, flags => flags.recent
  | notDeleted, flags => !flags.deleted
  | deleted, flags => flags.deleted

end Filter

/-- How much of a row a read returns. -/
inductive Fetch where
  /-- Everything but the content. -/
  | metadata
  /-- The content too. -/
  | full
deriving DecidableEq, Repr, Inhabited

/-- One page of an ascending read of a mailbox. -/
structure PageRequest where
  mailbox : MailboxId
  range : UidRange
  filter : Filter
  /-- Only rows with a greater number are asked for. -/
  after : Option Uid
  /-- The greatest number of rows to return. -/
  limit : Nat
deriving DecidableEq, Repr, Inhabited

/-- Whether a number lies in the range of a page and past its cursor. -/
def PageRequest.reaches (request : PageRequest) (uid : Uid) : Bool :=
  request.range.contains uid && request.after.all fun after => after < uid

end Mailroom
