import Mailroom.Flags
/-!
Changing the flags of a message.

A client asks with a `FlagUpdate`: flags to put in place of the old ones, to add or to remove.
A store executes a `FlagEdit`: assignments to single system flags and one edit of the keyword set.
`FlagEdit.ofUpdate` turns the one into the other and touches only what the update mentions.
-/

namespace Mailroom

/-- How the flags of an update combine with the old ones. -/
inductive UpdateMode where
  | replace
  | add
  | remove
deriving DecidableEq, Repr

/-- A request to change flags. -/
structure FlagUpdate where
  flags : Flags
  mode : UpdateMode
deriving DecidableEq, Repr

/-- The flags that result from an update of old ones. -/
def FlagUpdate.apply (update : FlagUpdate) (old : Flags) : Flags :=
  match update.mode with
  | .replace => update.flags
  | .add => old.union update.flags
  | .remove => old.diff update.flags

/-- A change of a keyword set. -/
inductive KeywordEdit where
  | keep
  | append (keywords : NameSet)
  | remove (keywords : NameSet)
  | replace (keywords : NameSet)
deriving DecidableEq, Repr

/-- The keyword set after an edit. -/
def KeywordEdit.apply : KeywordEdit → NameSet → NameSet
  | keep, old => old
  | append added, old => old.union added
  | remove removed, old => old.diff removed
  | replace replacement, _ => replacement

/-- Assignments to system flags, each flag at most once, and an edit of the keywords. -/
structure FlagEdit where
  assignments : List (SystemFlag × Bool) := []
  keywords : KeywordEdit := .keep
deriving DecidableEq, Repr

namespace FlagEdit

/-- The edit that changes nothing. -/
def nothing : FlagEdit := {}

/-- Adds an assignment, which takes the place of an earlier one to the same flag and comes last. -/
def assign (edit : FlagEdit) (flag : SystemFlag) (value : Bool) : FlagEdit :=
  { edit with assignments := edit.assignments.filter (fun a => a.1 ≠ flag) ++ [(flag, value)] }

/-- Assigns one value to each flag of a list. -/
def assignAll (edit : FlagEdit) (flags : List SystemFlag) (value : SystemFlag → Bool) : FlagEdit :=
  flags.foldl (fun edit flag => edit.assign flag (value flag)) edit

/-- A keyword edit that is left out when it names no keyword. -/
def editUnlessEmpty (edit : NameSet → KeywordEdit) (keywords : NameSet) : KeywordEdit :=
  if keywords.isEmpty then .keep else edit keywords

/-- The edit that carries out an update: a replacement assigns every system flag and the whole
keyword set, the other modes only what the update names. -/
def ofUpdate (update : FlagUpdate) : FlagEdit :=
  match update.mode with
  | .replace =>
    { nothing.assignAll SystemFlag.all update.flags.get with
      keywords := .replace update.flags.keywords }
  | .add =>
    { nothing.assignAll update.flags.system fun _ => true with
      keywords := editUnlessEmpty .append update.flags.keywords }
  | .remove =>
    { nothing.assignAll update.flags.system fun _ => false with
      keywords := editUnlessEmpty .remove update.flags.keywords }

/-- The flags after an edit of old ones. -/
def apply (edit : FlagEdit) (old : Flags) : Flags :=
  let flags := edit.assignments.foldl (fun flags a => flags.set a.1 a.2) old
  { flags with keywords := edit.keywords.apply old.keywords }

end FlagEdit

end Mailroom
