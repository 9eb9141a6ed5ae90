/-!
JSON values, as they are read from text and written to it.

Members of an object keep their order, and a name may occur twice: what that means is for the reader
of the object to say. A number is an integer, or it is kept as it was spelled. A string whose
escapes name half of a surrogate pair stands for no text: it can only be skipped, and so can an
object with such a name.
-/

namespace Mailroom

/-- A JSON value. -/
inductive Json where
  | null
  | bool (value : Bool)
  | integer (value : Int)
  /-- A number with a fraction, an exponent or a minus sign before zero. -/
  | decimal (spelling : String)
  | string (text : String)
  /-- A string, or an object with a name, that has half of a surrogate pair. -/
  | broken
  | array (items : List Json)
  | object (members : List (String × Json))
deriving Inhabited, BEq

namespace Json

/-- A natural number. -/
def nat (n : Nat) : Json := integer n

/-- A value that may be missing. -/
def option {α : Type} (encode : α → Json) : Option α → Json
  | some a => encode a
  | none => null

mutual

/-- How deep arrays and objects lie in each other. -/
def depth : Json → Nat
  | array items => itemsDepth items + 1
  | object members => membersDepth members + 1
  | _ => 0

/-- The depth of the deepest item. -/
def itemsDepth : List Json → Nat
  | [] => 0
  | item :: rest => max item.depth (itemsDepth rest)

/-- The depth of the deepest member. -/
def membersDepth : List (String × Json) → Nat
  | [] => 0
  | (_, value) :: rest => max value.depth (membersDepth rest)

end

end Json

end Mailroom
