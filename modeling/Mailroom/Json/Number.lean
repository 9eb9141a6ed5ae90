import Mailroom.Double.Shortest
import Mailroom.Ident
import Mailroom.Text.Decimal
/-!
The numbers of JSON documents: integers of 64 bits, and numbers with a binary point for the others.

Of the digits of a spelling those count that fit into a word of 64 bits; the places of the others
before the point count as a power of ten. A number is written with the fewest digits that read back,
positionally from a hundred-thousandth up to 10 to the power 16, and with at least one digit after
the point or else an exponent.
-/

namespace Mailroom.Json

/-- The parts of a spelling. -/
structure Spelling where
  isNegative : Bool
  whole : List Nat
  fraction : List Nat
  power : Int

namespace Spelling

/-- The number of digits. -/
def value (digits : List Nat) : Nat := digits.foldl (fun n d => n * 10 + d) 0

/-- The exponent that follows the digits. -/
def exponent : List Char → Int
  | '-' :: digits => -(value (digits.filterMap Text.digit?) : Int)
  | digits => value (digits.filterMap Text.digit?)

/-- The parts of a spelling that follows the grammar of numbers. -/
def ofText (spelling : String) : Spelling :=
  let chars := spelling.toList
  let (mantissa, power) := chars.span fun c => c ≠ 'e' && c ≠ 'E'
  let (whole, fraction) := mantissa.span (· ≠ '.')
  { isNegative := chars.head? == some '-', whole := whole.filterMap Text.digit?
    fraction := fraction.filterMap Text.digit?, power := exponent (power.drop 1) }

/-- Appends digits to a number while it stays a word; the digits that are left over. -/
def fill (n : Nat) : List Nat → Nat × List Nat
  | [] => (n, [])
  | d :: rest => if n * 10 + d ≤ maxWord then fill (n * 10 + d) rest else (n, d :: rest)

/-- The magnitude of a spelling, if it is not too great. -/
def magnitude? (spelling : Spelling) : Option Double :=
  let (n, dropped) := fill 0 spelling.whole
  let (n, rest) := fill n spelling.fraction
  let places : Int := (dropped.length : Int) - (spelling.fraction.length - rest.length : Nat)
  Double.ofDecimal? n (places + spelling.power)

end Spelling

/-- The text of a number without its sign. -/
def magnitudeText (d : Double) : List Char :=
  if d.isZero then ['0', '.', '0']
  else
    let (n, power) := d.shortest
    let digits := (toString n).toList
    let zeros (count : Int) : List Char := List.replicate count.toNat '0'
    let places := digits.length + power
    if places ≤ -5 ∨ 16 < places then
      let fraction := if digits.length = 1 then [] else '.' :: digits.drop 1
      digits.take 1 ++ fraction ++ 'e' :: (toString (places - 1)).toList
    else if 0 ≤ power then digits ++ zeros power ++ ['.', '0']
    else if 0 < places then digits.take places.toNat ++ '.' :: digits.drop places.toNat
    else '0' :: '.' :: zeros (-places) ++ digits

/-- The text of the number with a spelling, if it is not too great. -/
def numberText? (spelling : String) : Option String := do
  let parts := Spelling.ofText spelling
  let d ← parts.magnitude?
  return String.ofList ((if parts.isNegative then ['-'] else []) ++ magnitudeText d)

/-- Whether an integer is kept as one: with or without a sign it fits into a word. -/
def isInteger (n : Int) : Bool := -(maxStored + 1 : Int) ≤ n && n ≤ maxWord

end Mailroom.Json
