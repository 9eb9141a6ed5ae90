import Mailroom.Ident
/-!
Octets as text: two digits to base sixteen for each.
-/

namespace Mailroom.Text

/-- The value of a digit to base sixteen. -/
def hexDigit? (c : Char) : Option Nat :=
  if '0' ≤ c ∧ c ≤ '9' then some (c.toNat - '0'.toNat)
  else if 'a' ≤ c ∧ c ≤ 'f' then some (c.toNat - 'a'.toNat + 10)
  else if 'A' ≤ c ∧ c ≤ 'F' then some (c.toNat - 'A'.toNat + 10)
  else none

/-- Writes octets, with small letters. -/
def toHex (octets : Octets) : String :=
  String.ofList (octets.flatMap fun octet =>
    [Nat.digitChar (octet.toNat / 16), Nat.digitChar (octet.toNat % 16)])

/-- Reads octets, with letters in either case. -/
def ofHex? (text : String) : Option Octets := go text.toList
where
  /-- Reads two digits for each octet. -/
  go : List Char → Option Octets
    | [] => some []
    | high :: low :: rest => do
      let octet := (← hexDigit? high) * 16 + (← hexDigit? low)
      return UInt8.ofNat octet :: (← go rest)
    | [_] => none

end Mailroom.Text
