import Mailroom.Json
import Mailroom.Text.Decimal
/-!
Writing JSON: on one line without spaces, or with every item and member on a line of its own.
-/

namespace Mailroom.Json

/-- The escape of a control character by its code, in four digits. -/
def controlEscape (c : Char) : List Char :=
  let digits := Nat.toDigits 16 c.toNat
  ['\\', 'u'] ++ List.replicate (4 - digits.length) '0' ++ digits

/-- A character inside a string: quotation marks, backslashes and controls are escaped. -/
def escapeChar (c : Char) : List Char :=
  if c = '"' then ['\\', '"']
  else if c = '\\' then ['\\', '\\']
  else if c = '\x08' then ['\\', 'b']
  else if c = '\x0c' then ['\\', 'f']
  else if c = '\n' then ['\\', 'n']
  else if c = '\r' then ['\\', 'r']
  else if c = '\t' then ['\\', 't']
  else if c.toNat < 32 then controlEscape c
  else [c]

/-- A string with its quotation marks. -/
def writeString (text : String) : List Char := '"' :: text.toList.flatMap escapeChar ++ ['"']

/-- The letters of a word. -/
def word (text : String) : List Char := text.toList

mutual

/-- A value on one line. -/
def write : Json → List Char
  | null => word "null"
  | bool true => word "true"
  | bool false => word "false"
  | integer n => word (toString n)
  | decimal spelling => word spelling
  | string text => writeString text
  | broken => writeString ""
  | array items => '[' :: writeItems items ++ [']']
  | object members => '\x7b' :: writeMembers members ++ ['\x7d']

/-- Items with commas between them. -/
def writeItems : List Json → List Char
  | [] => []
  | [item] => item.write
  | item :: rest => item.write ++ ',' :: writeItems rest

/-- Members with commas between them. -/
def writeMembers : List (String × Json) → List Char
  | [] => []
  | [(name, value)] => writeString name ++ ':' :: value.write
  | (name, value) :: rest => writeString name ++ ':' :: value.write ++ ',' :: writeMembers rest

end

/-- The text of a value on one line. -/
def compact (value : Json) : String := String.ofList value.write

/-- A new line, indented by two spaces for each level. -/
def newLine (level : Nat) : List Char := '\n' :: List.replicate (2 * level) ' '

mutual

/-- A value at a level of indentation. -/
def writeIndented (level : Nat) : Json → List Char
  | array [] => ['[', ']']
  | array (item :: rest) =>
    '[' :: writeItemsIndented (level + 1) (item :: rest) ++ newLine level ++ [']']
  | object [] => ['\x7b', '\x7d']
  | object (member :: rest) =>
    '\x7b' :: writeMembersIndented (level + 1) (member :: rest) ++ newLine level ++ ['\x7d']
  | value => value.write

/-- Items, each on a line of its own. -/
def writeItemsIndented (level : Nat) : List Json → List Char
  | [] => []
  | [item] => newLine level ++ item.writeIndented level
  | item :: rest =>
    newLine level ++ item.writeIndented level ++ ',' :: writeItemsIndented level rest

/-- Members, each on a line of its own. -/
def writeMembersIndented (level : Nat) : List (String × Json) → List Char
  | [] => []
  | [(name, value)] =>
    newLine level ++ writeString name ++ [':', ' '] ++ value.writeIndented level
  | (name, value) :: rest =>
    newLine level ++ writeString name ++ [':', ' '] ++ value.writeIndented level
      ++ ',' :: writeMembersIndented level rest

end

/-- The text of a value over several lines. -/
def pretty (value : Json) : String := String.ofList (value.writeIndented 0)

end Mailroom.Json
