import Mailroom.Json
import Mailroom.Json.Number
/-!
JSON documents of no fixed form: the members of an object are sorted by name, and of several members
with one name the last counts. What is nested too deep, has a string or a name that is no text or a
number that is too great is no document. A number that is no integer of 64 bits is rounded.
-/

namespace Mailroom.Json

/-- How deep the arrays and objects of a document may lie in each other. -/
def maxDepth : Nat := 127

/-- Puts a member at its place by name, in place of the one with that name. -/
def insertMember (name : String) (value : Json) : List (String × Json) → List (String × Json)
  | [] => [(name, value)]
  | member :: rest =>
    if name < member.1 then (name, value) :: member :: rest
    else if name = member.1 then (name, value) :: rest
    else member :: insertMember name value rest

mutual

/-- The sorted form of a value. -/
def sorted? : Json → Option Json
  | broken => none
  | decimal spelling => (numberText? spelling).map decimal
  | integer n => if isInteger n then some (integer n) else (numberText? (toString n)).map decimal
  | array items => (sortedItems? items).map array
  | object members => (sortedMembers? members []).map object
  | value => some value

/-- The sorted forms of items. -/
def sortedItems? : List Json → Option (List Json)
  | [] => some []
  | item :: rest => do
    let item ← item.sorted?
    return item :: (← sortedItems? rest)

/-- Puts the sorted forms of members in their places. -/
def sortedMembers? : List (String × Json) → List (String × Json) → Option (List (String × Json))
  | [], sorted => some sorted
  | (name, value) :: rest, sorted => do
    let value ← value.sorted?
    sortedMembers? rest (insertMember name value sorted)

end

/-- A value as a document. -/
def asDocument? (value : Json) : Option Json :=
  if value.depth ≤ maxDepth then value.sorted? else none

end Mailroom.Json
