import Mailroom.Ident
import Mailroom.Json
import Mailroom.NameSet
import Mailroom.Time.Timestamp
/-!
Reading records from JSON.

A record is written as an object, whose members come in any order and may include unknown ones, or
as an array of the values of its fields in their order. A field may be given once.
-/

namespace Mailroom

namespace Json

/-! ### Plain values -/

/-- A truth value. -/
def asBool? : Json → Option Bool
  | bool value => some value
  | _ => none

/-- A whole number. -/
def asInteger? : Json → Option Int
  | integer n => some n
  | _ => none

/-- A number of 64 bits. -/
def asWord? : Json → Option Nat
  | integer (.ofNat n) => if n ≤ maxWord then some n else none
  | _ => none

/-- A text. -/
def asString? : Json → Option String
  | string text => some text
  | _ => none

/-- An array read item by item. -/
def asList? {α : Type} (read : Json → Option α) : Json → Option (List α)
  | array items => items.mapM read
  | _ => none

/-- A set of names, in any order and with repetitions. -/
def asNameSet? (value : Json) : Option NameSet := (value.asList? asString?).map NameSet.ofList

/-- An instant, written as a date. -/
def asInstant? (value : Json) : Option Instant := value.asString?.bind Instant.ofText?

/-- A word of a closed vocabulary, alone or as the only member of an object with the value null. -/
def asWordOf? {α : Type} (words : List α) (name : α → String) : Json → Option α
  | string text => words.find? fun a => name a == text
  | object [(text, null)] => words.find? fun a => name a == text
  | _ => none

/-- A value that may be null. -/
def asOption? {α : Type} (read : Json → Option α) : Json → Option (Option α)
  | null => some none
  | value => (read value).map some

/-- The names of a set, as an array. -/
def ofNameSet (names : NameSet) : Json := array (names.toList.map string)

/-- An instant, written as a date. -/
def ofInstant (t : Instant) : Json := string t.toText

end Json

/-- The fields of a record as they were written. -/
structure JsonRecord where
  fields : List (String × Json)
  /-- The values were given by position, so that no field can be left out for null. -/
  positional : Bool

namespace JsonRecord

/-- The fields of a value, out of those that a record has. -/
def of? (names : List String) : Json → Option JsonRecord
  | .object members =>
    let known := members.filter fun m => names.contains m.1
    if (known.map (·.1)).Nodup then some ⟨known, false⟩ else none
  | .array items => if items.length ≤ names.length then some ⟨names.zip items, true⟩ else none
  | _ => none

variable {α : Type}

/-- A field that must be given. -/
def required (record : JsonRecord) (name : String) (read : Json → Option α) : Option α :=
  (record.fields.lookup name).bind read

/-- A field that may be null, or left out of an object. -/
def optional (record : JsonRecord) (name : String) (read : Json → Option α) :
    Option (Option α) :=
  match record.fields.lookup name with
  | some value => value.asOption? read
  | none => if record.positional then none else some none

/-- A field with a value for when it is left out. -/
def withDefault (record : JsonRecord) (name : String) (read : Json → Option α) (default : α) :
    Option α :=
  match record.fields.lookup name with
  | some value => read value
  | none => some default

end JsonRecord

end Mailroom
