import Mailroom.Message
import Mailroom.Change
import Mailroom.Text.Quoted
/-!
What can go wrong in a store, as causes. `StoreError.message` is the one place where a cause is put
into words.
-/

namespace Mailroom

/-- A thing that is missing, or is there already. -/
inductive Resource where
  | message (mailbox : MailboxId) (uid : Uid)
  | changeState (state : State) (account : AccountId)
  | described (text : String)
deriving DecidableEq, Repr

/-- The words for a thing. -/
def Resource.text : Resource → String
  | message mailbox uid => s!"message {mailbox}/{uid}"
  | changeState state account => s!"state {state} of account {account}"
  | described text => text

/-- A number of a row that a store keeps. -/
inductive Column where
  | uid
  | modSeq
  | size
deriving DecidableEq, Repr

/-- The name of a number of a row. -/
def Column.name : Column → String
  | uid => "uid"
  | modSeq => "mod_seq"
  | size => "size"

/-- Why an input is refused. -/
inductive Refusal where
  /-- The number is greater than any that a store keeps. -/
  | tooGreat (column : Column) (value : Nat)
  | described (text : String)
deriving DecidableEq, Repr

/-- The words for a refusal. -/
def Refusal.text : Refusal → String
  | tooGreat column value => s!"{column.name} {value} exceeds {maxStored}"
  | described text => text

/-- Why a stored row cannot be read. -/
inductive Damage where
  | negativeColumn (column : Column) (value : Int)
  | negativeCounter (sequence : Sequence) (value : Int)
  | negativeState (value : Int)
  | date (text : String)
  /-- A column holds a value of another type. -/
  | columnType
  /-- The stored content is no compressed frame. -/
  | content
  /-- A stored set of identifiers is no list of names. -/
  | identifierSet
  | described (text : String)
deriving DecidableEq, Repr

/-- The words for a damage. -/
def Damage.text : Damage → String
  | negativeColumn column value => s!"negative {column.name}: {value}"
  | negativeCounter sequence value => s!"negative {sequence.name} counter {value}"
  | negativeState value => s!"negative state {value}"
  | date text => "invalid date " ++ Text.quoted text
  | columnType => "Invalid column type"
  | content => "failed to decompress content"
  | identifierSet => "invalid identifier set"
  | described text => text

/-- What the partitions of a batch that succeeded have done. -/
structure BatchReport where
  /-- The rows changed, or the rows read. -/
  committed : List Metadata := []
  /-- Numbers of rows that were in the wanted state already. -/
  alreadyApplied : List Uid := []
  /-- Numbers without a row. -/
  missing : List Uid := []
deriving DecidableEq, Inhabited

/-- Why a call to a store failed. -/
inductive StoreError where
  | sequenceAllocation (mailbox : MailboxId) (sequence : Sequence) (source : StoreError)
  | notFound (resource : Resource)
  | modSeqConflict (mailbox : MailboxId) (uid : Uid) (expected actual : ModSeq)
  | alreadyExists (resource : Resource)
  | invalidInput (refusal : Refusal)
  /-- Some partitions of a batch failed, each with its numbers and its own error. -/
  | partialBatch (report : BatchReport) (failed : List (List Uid × StoreError))
      (succeeded : Nat)
  | unavailable (reason : String)
  | timeout (reason : String)
  | staleState (account : AccountId) (state : State)
  | corrupted (damage : Damage)
  | database (reason : String)
deriving Inhabited

namespace StoreError

/-- The words for an error. -/
def message : StoreError → String
  | sequenceAllocation mailbox sequence source =>
    s!"Failed to allocate {sequence.name} for mailbox {mailbox}: {source.message}"
  | notFound resource => s!"Not found: {resource.text}"
  | modSeqConflict mailbox uid expected actual =>
    s!"Modification sequence conflict on {mailbox}/{uid}: expected {expected}, found {actual}"
  | alreadyExists resource => s!"Already exists: {resource.text}"
  | invalidInput refusal => s!"Invalid input: {refusal.text}"
  | partialBatch report failed succeeded =>
    let partitions := failed.length + succeeded
    s!"{failed.length} of {partitions} partitions failed ({report.committed.length} rows committed)"
  | unavailable reason => s!"Storage backend unavailable: {reason}"
  | timeout reason => s!"Backend call exceeded its deadline: {reason}"
  | staleState account state =>
    s!"State {state} of account {account} is no longer retained, a full resync is required"
  | corrupted damage => s!"Corrupted row: {damage.text}"
  | database reason => s!"Database error: {reason}"

/-- The name of the kind of an error. -/
def kind : StoreError → String
  | sequenceAllocation .. => "SequenceAllocation"
  | notFound _ => "NotFound"
  | modSeqConflict .. => "ModSeqConflict"
  | alreadyExists _ => "AlreadyExists"
  | invalidInput _ => "InvalidInput"
  | partialBatch .. => "PartialBatch"
  | unavailable _ => "BackendUnavailable"
  | timeout _ => "Timeout"
  | staleState .. => "StaleState"
  | corrupted _ => "Corrupted"
  | database _ => "Database"

/-- Whether the same call may succeed later. A batch that failed in part is not to be repeated as a
whole: its failed numbers are. -/
def isRetryable : StoreError → Bool
  | sequenceAllocation .. => true
  | unavailable _ => true
  | timeout _ => true
  | _ => false

/-- Whether the error is a plain negative answer. -/
def isNotFound : StoreError → Bool
  | notFound _ => true
  | _ => false

/-- The numbers of the failed partitions, in order. -/
def failedUids : StoreError → List Uid
  | partialBatch _ failed _ => failed.flatMap (·.1)
  | _ => []

end StoreError

end Mailroom
