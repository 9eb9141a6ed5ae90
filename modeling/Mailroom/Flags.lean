import Mailroom.NameSet
/-!
The flags of a message: six system flags and an open set of keywords.

On the wire every flag is a name. `Flags.ofWire` reads a list of names, `Flags.toWire` writes one.
A keyword may be spelled like a system flag, so the two are inverse to each other only on flags
without such a keyword.
-/

namespace Mailroom

/-- The flags with a fixed meaning. -/
inductive SystemFlag where
  | answered
  | deleted
  | draft
  | flagged
  | recent
  | seen
deriving DecidableEq, Repr

namespace SystemFlag

/-- Every system flag, in the order in which flags are listed. -/
def all : List SystemFlag := [answered, deleted, draft, flagged, recent, seen]

theorem mem_all (flag : SystemFlag) : flag ∈ all := by
  cases flag <;> decide

/-- The bare name of a flag. -/
def name : SystemFlag → String
  | answered => "Answered"
  | deleted => "Deleted"
  | draft => "Draft"
  | flagged => "Flagged"
  | recent => "Recent"
  | seen => "Seen"

/-- The name of a flag on the wire. -/
def wireName (flag : SystemFlag) : String := "\\" ++ flag.name

/-- Whether two names are the same up to the case of ASCII letters. -/
def sameIgnoringCase (a b : String) : Bool := a.toList.map Char.toLower == b.toList.map Char.toLower

/-- The flag with a wire name, whose ASCII letters may be in either case. -/
def ofWireName? (name : String) : Option SystemFlag :=
  all.find? fun flag => sameIgnoringCase flag.wireName name

/-- The flag with a bare name, spelled exactly. -/
def ofName? (name : String) : Option SystemFlag := all.find? fun flag => flag.name == name

end SystemFlag

/-- The flags of one message. -/
structure Flags where
  answered : Bool := false
  deleted : Bool := false
  draft : Bool := false
  flagged : Bool := false
  recent : Bool := false
  seen : Bool := false
  keywords : NameSet := .empty
deriving DecidableEq, Repr, Inhabited

namespace Flags

/-- No flag at all. -/
def empty : Flags := {}

/-- Whether a system flag is set. -/
def get (flags : Flags) : SystemFlag → Bool
  | .answered => flags.answered
  | .deleted => flags.deleted
  | .draft => flags.draft
  | .flagged => flags.flagged
  | .recent => flags.recent
  | .seen => flags.seen

/-- Sets or clears a system flag. -/
def set (flags : Flags) (flag : SystemFlag) (value : Bool) : Flags :=
  match flag with
  | .answered => { flags with answered := value }
  | .deleted => { flags with deleted := value }
  | .draft => { flags with draft := value }
  | .flagged => { flags with flagged := value }
  | .recent => { flags with recent := value }
  | .seen => { flags with seen := value }

/-- Adds a keyword. -/
def addKeyword (flags : Flags) (keyword : String) : Flags :=
  { flags with keywords := flags.keywords.insert keyword }

/-- Whether a keyword is set. -/
def hasKeyword (flags : Flags) (keyword : String) : Bool := keyword ∈ flags.keywords

/-- The system flags that are set, in the order of `SystemFlag.all`. -/
def system (flags : Flags) : List SystemFlag := SystemFlag.all.filter flags.get

/-- Whether no flag is set. -/
def isEmpty (flags : Flags) : Bool := flags.system.isEmpty && flags.keywords.isEmpty

/-- The flags set in either. -/
def union (a b : Flags) : Flags where
  answered := a.answered || b.answered
  deleted := a.deleted || b.deleted
  draft := a.draft || b.draft
  flagged := a.flagged || b.flagged
  recent := a.recent || b.recent
  seen := a.seen || b.seen
  keywords := a.keywords.union b.keywords

/-- The flags of `a` that are not set in `b`. -/
def diff (a b : Flags) : Flags where
  answered := a.answered && !b.answered
  deleted := a.deleted && !b.deleted
  draft := a.draft && !b.draft
  flagged := a.flagged && !b.flagged
  recent := a.recent && !b.recent
  seen := a.seen && !b.seen
  keywords := a.keywords.diff b.keywords

/-- Sets the flag that a wire name stands for: a system flag, or else a keyword. -/
def addWire (flags : Flags) (name : String) : Flags :=
  match SystemFlag.ofWireName? name with
  | some flag => flags.set flag true
  | none => flags.addKeyword name

/-- The flags named by a list of wire names. -/
def ofWire (names : List String) : Flags := names.foldl addWire empty

/-- The wire names of the flags that are set, the system flags first. -/
def toWire (flags : Flags) : List String :=
  flags.system.map SystemFlag.wireName ++ flags.keywords.toList

/-! ### Reading a flag back -/

theorem get_set {flags : Flags} {flag other : SystemFlag} {value : Bool} :
    (flags.set flag value).get other = if other = flag then value else flags.get other := by
  cases flag <;> cases other <;> rfl

@[simp] theorem keywords_set {flags : Flags} {flag : SystemFlag} {value : Bool} :
    (flags.set flag value).keywords = flags.keywords := by
  cases flag <;> rfl

@[simp] theorem get_union {a b : Flags} {flag : SystemFlag} :
    (a.union b).get flag = (a.get flag || b.get flag) := by
  cases flag <;> rfl

@[simp] theorem get_diff {a b : Flags} {flag : SystemFlag} :
    (a.diff b).get flag = (a.get flag && !b.get flag) := by
  cases flag <;> rfl

/-- Flags are decided by their system flags and their keywords. -/
theorem ext_get {a b : Flags} (system : ∀ flag, a.get flag = b.get flag)
    (keywords : a.keywords = b.keywords) : a = b := by
  have answered := system .answered
  have deleted := system .deleted
  have draft := system .draft
  have flagged := system .flagged
  have recent := system .recent
  have seen := system .seen
  cases a
  cases b
  simp_all [get]

end Flags

end Mailroom
