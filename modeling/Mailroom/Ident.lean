/-!
Names and numbers that identify things: mailboxes, messages, threads and accounts by opaque names,
rows of a mailbox and their revisions by numbers.

A caller may name any number of 64 bits; a store keeps numbers up to `maxStored`, the greatest
signed one.
-/

namespace Mailroom

/-- The name of a mailbox. -/
abbrev MailboxId := String

/-- The name of a message, the same in every mailbox that the message is linked into. -/
abbrev MessageId := String

/-- The name of the conversation that a message belongs to. -/
abbrev ThreadId := String

/-- The owner of a change log. -/
abbrev AccountId := String

/-- The number of a message within its mailbox, never given twice. -/
abbrev Uid := Nat

/-- A modification sequence: the revision of a row, taken from a counter of its mailbox. -/
abbrev ModSeq := Nat

/-- The raw content of a message. -/
abbrev Octets := List UInt8

/-- The greatest number of 64 bits. -/
def maxWord : Nat := 18446744073709551615

/-- The greatest number that a store can keep. -/
def maxStored : Nat := 9223372036854775807

/-- Where a row lives: its mailbox and its number there. -/
structure Place where
  mailbox : MailboxId
  uid : Uid
deriving DecidableEq, Repr, Inhabited

namespace Place

/-- Places are ordered by mailbox, and within a mailbox by number. -/
instance : Ord Place := ⟨compareLex (compareOn Place.mailbox) (compareOn Place.uid)⟩

instance : Std.TransOrd Place :=
  inferInstanceAs (Std.TransCmp (compareLex (compareOn Place.mailbox) (compareOn Place.uid)))

instance : Std.LawfulEqOrd Place where
  eq_of_compare {a b} same := by
    obtain ⟨mailbox, uid⟩ := Ordering.then_eq_eq.mp same
    cases a
    cases b
    exact congr (congrArg _ (Std.LawfulEqCmp.eq_of_compare mailbox))
      (Std.LawfulEqCmp.eq_of_compare uid)

end Place

/-- The two counters of a mailbox. -/
inductive Sequence where
  | uid
  | modSeq
deriving DecidableEq, Repr

/-- The name of a counter in a message. -/
def Sequence.name : Sequence → String
  | .uid => "UID"
  | .modSeq => "MODSEQ"

end Mailroom
