import Mailroom.Text.Printable
/-!
Text in quotation marks, with the characters that cannot be shown as they are written as escapes.
-/

namespace Mailroom.Text

/-- The digits of a number to base sixteen. -/
def hexDigits (n : Nat) : List Char := Nat.toDigits 16 n

/-- An escape that names a character by its code point: `\u` and the code point in braces. -/
def codePointEscape (c : Char) : List Char :=
  ['\\', 'u', '\x7b'] ++ hexDigits c.toNat ++ ['\x7d']

/-- A character inside quotation marks. -/
def quotedChar (c : Char) : List Char :=
  if c = '"' ∨ c = '\\' then ['\\', c]
  else if c = '\n' then ['\\', 'n']
  else if c = '\r' then ['\\', 'r']
  else if c = '\t' then ['\\', 't']
  else if c = '\x00' then ['\\', '0']
  else if isPrintable c then [c]
  else codePointEscape c

/-- A text in quotation marks. -/
def quoted (text : String) : String :=
  "\"" ++ String.ofList (text.toList.flatMap quotedChar) ++ "\""

end Mailroom.Text
