import Mailroom.Change
import Mailroom.Compression.Frame
import Mailroom.Database.Cell
import Mailroom.Message
import Mailroom.Table
/-!
The relations of the database that keeps mailboxes and change logs.

Numbers are signed integers of 64 bits, dates and sets of identifiers are text, flags are integers,
the keywords of a message are rows of their own, and contents are compressed. What was written by
other programs may be anything that a column can hold.
-/

namespace Mailroom

/-- Where a change record lives in the database: its account and its state there. -/
structure ChangePlace where
  account : AccountId
  state : Database.Cell
deriving DecidableEq, Repr, Inhabited

namespace ChangePlace

/-- Records are ordered by account, and within an account by state. -/
instance : Ord ChangePlace :=
  ⟨compareLex (compareOn ChangePlace.account) (compareOn ChangePlace.state)⟩

instance : Std.TransOrd ChangePlace :=
  inferInstanceAs (Std.TransCmp
    (compareLex (compareOn ChangePlace.account) (compareOn ChangePlace.state)))

instance : Std.LawfulEqOrd ChangePlace where
  eq_of_compare {a b} same := by
    obtain ⟨account, state⟩ := Ordering.then_eq_eq.mp same
    cases a
    cases b
    exact congr (congrArg _ (Std.LawfulEqCmp.eq_of_compare account))
      (Std.LawfulEqCmp.eq_of_compare state)

end ChangePlace

namespace Database

/-- The relations. -/
inductive Relation where
  | counters
  | contents
  | messages
  | keywords
  | heads
  | changes
deriving DecidableEq, Repr

namespace Relation

/-- Every relation. -/
def all : List Relation := [counters, contents, messages, keywords, heads, changes]

/-- The name of a relation in the database. -/
def name : Relation → String
  | counters => "mailbox_counters"
  | contents => "message_contents"
  | messages => "mailbox_messages"
  | keywords => "message_user_flags"
  | heads => "change_log_heads"
  | changes => "changes"

end Relation

/-- A counter: an integer, or, once it was counted up past the greatest one, a fraction. -/
inductive Counter where
  | integer (value : Int)
  | overflowed
deriving DecidableEq, Repr, Inhabited

/-- The counter one higher. -/
def Counter.bump : Counter → Counter
  | integer value => if value < maxStored then integer (value + 1) else overflowed
  | overflowed => overflowed

/-- The counters of a mailbox. -/
structure CounterRow where
  lastUid : Counter := .integer 0
  highestModSeq : Counter := .integer 0
deriving DecidableEq, Repr, Inhabited

/-- A message in a mailbox. -/
structure MessageRow where
  modSeq : Cell
  messageId : Cell
  threadId : Cell
  internalDate : Cell
  size : Cell
  saveDate : Cell
  answered : Cell
  deleted : Cell
  draft : Cell
  flagged : Cell
  recent : Cell
  seen : Cell
deriving DecidableEq, Repr, Inhabited

/-- A stored content: what this program compressed, or octets put there by another one. -/
inductive StoredContent where
  | packed (content : Octets)
  | foreign (octets : Octets)
deriving DecidableEq, Repr, Inhabited

/-- The content, if the stored octets are whole frames. -/
def StoredContent.unpack? : StoredContent → Option Octets
  | packed content => some content
  | foreign octets => Compression.unpack? octets

/-- The heads of a change log. -/
structure HeadsRow where
  latest : Int
  latestNotDelegated : Int
deriving DecidableEq, Repr, Inhabited

/-- A change record. It expires at a number of milliseconds after 1970, if at all. -/
structure ChangeRow where
  date : Cell
  isCountChange : Cell
  isDelegated : Cell
  created : Cell
  updated : Cell
  destroyed : Cell
  expiresAt : Cell
deriving DecidableEq, Repr, Inhabited

/-- The version of the relations as they are described here. -/
def schemaVersion : Int := 2

end Database

open Database in
/-- The contents of a database. -/
structure Database where
  counters : Table MailboxId CounterRow := .empty
  contents : Table MessageId StoredContent := .empty
  messages : Table Place MessageRow := .empty
  /-- The keywords of messages. -/
  keywords : List (Place × String) := []
  heads : Table AccountId HeadsRow := .empty
  changes : Table ChangePlace ChangeRow := .empty
  /-- The relations that do not exist. -/
  missing : List Relation := []
  /-- The version that the relations are marked with. -/
  version : Int := schemaVersion
deriving Inhabited

namespace Database

/-- A database in which no relation was created. -/
def blank : Database := { missing := Relation.all, version := 0 }

end Database

end Mailroom
