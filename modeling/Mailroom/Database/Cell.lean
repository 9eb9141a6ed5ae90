import Mailroom.Double
import Mailroom.Ident
import Mailroom.Text.Decimal
/-!
What a column of a row holds.

The engine keeps a value of any type in every column, but a column of integers takes a text that
spells a number as that number, and a column of text takes an integer as its digits. Values are
ordered: nothing, numbers, texts, octets.
-/

namespace Mailroom.Database

/-- A value in a column. A number is an integer of 64 bits, or else `whole` and `part` times two to
the power -1074. -/
inductive Cell where
  | null
  | integer (value : Int)
  | real (whole : Int) (part : Nat)
  | text (text : String)
  | octets (octets : Octets)
deriving DecidableEq, Repr, Inhabited

namespace Cell

/-! ### Order -/

/-- The place of a type of values in the order. -/
def rank : Cell → Nat
  | null => 0
  | integer _ => 1
  | real _ _ => 1
  | text _ => 2
  | octets _ => 3

/-- The greatest integer that is not above a number. -/
def floor : Cell → Int
  | integer value => value
  | real whole _ => whole
  | _ => 0

/-- How far a number is above its floor. -/
def excess : Cell → Nat
  | real _ part => part
  | _ => 0

/-- Whether a value is a number but no integer. -/
def isReal : Cell → Bool
  | real _ _ => true
  | _ => false

/-- The characters of a text. -/
def textPart : Cell → String
  | text said => said
  | _ => ""

/-- The octets of a value that has octets. -/
def octetsPart : Cell → Octets
  | octets all => all
  | _ => []

instance : Ord Cell :=
  ⟨compareLex (compareOn rank) (compareLex (compareOn floor) (compareLex (compareOn excess)
    (compareLex (compareOn isReal) (compareLex (compareOn textPart) (compareOn octetsPart)))))⟩

instance : Std.TransOrd Cell :=
  inferInstanceAs (Std.TransCmp
    (compareLex (compareOn rank) (compareLex (compareOn floor) (compareLex (compareOn excess)
      (compareLex (compareOn isReal) (compareLex (compareOn textPart) (compareOn octetsPart)))))))

instance : Std.LawfulEqOrd Cell where
  eq_of_compare {a b} same := by
    obtain ⟨rank, same⟩ := Ordering.then_eq_eq.mp same
    obtain ⟨floor, same⟩ := Ordering.then_eq_eq.mp same
    obtain ⟨excess, same⟩ := Ordering.then_eq_eq.mp same
    obtain ⟨real, same⟩ := Ordering.then_eq_eq.mp same
    obtain ⟨text, octets⟩ := Ordering.then_eq_eq.mp same
    have rank : a.rank = b.rank := Std.LawfulEqCmp.eq_of_compare rank
    have floor : a.floor = b.floor := Std.LawfulEqCmp.eq_of_compare floor
    have excess : a.excess = b.excess := Std.LawfulEqCmp.eq_of_compare excess
    have real : a.isReal = b.isReal := Std.LawfulEqCmp.eq_of_compare real
    have text : a.textPart = b.textPart := Std.LawfulEqCmp.eq_of_compare text
    have octets : a.octetsPart = b.octetsPart := Std.LawfulEqCmp.eq_of_compare octets
    cases a <;> cases b <;>
      simp_all [Cell.rank, Cell.floor, Cell.excess, Cell.isReal, textPart, octetsPart]

/-- Whether a value is above an integer. -/
def isAbove (cell : Cell) (n : Int) : Bool := (compare cell (integer n)).isGT

/-- Whether a value is not below an integer. -/
def isFrom (cell : Cell) (n : Int) : Bool := (compare cell (integer n)).isGE

/-! ### Numbers as text -/

/-- Whether a character may stand around a number. -/
def isSpace (c : Char) : Bool :=
  c = ' ' || c = '\t' || c = '\n' || c = '\x0b' || c = '\x0c' || c = '\r'

/-- Splits a text after the digits at its start. -/
def digits (text : List Char) : List Nat × List Char :=
  ((text.takeWhile Char.isDigit).filterMap Text.digit?, text.dropWhile Char.isDigit)

/-- Splits a text after the sign at its start. -/
def sign : List Char → Bool × List Char
  | '-' :: rest => (true, rest)
  | '+' :: rest => (false, rest)
  | rest => (false, rest)

/-- The number of digits. -/
def value (digits : List Nat) : Nat := digits.foldl (fun n d => n * 10 + d) 0

/-- The number next to decimal digits times a power of ten; none is too great. -/
def nearestDouble? (digits : List Nat) (power : Int) : Option Double :=
  let most : Int := digits.length + power
  if value digits = 0 ∨ most < -400 then some .zero
  else if 400 < most then none
  else Double.ofQuotient? (value digits * Nat.pow 10 power.toNat) (Nat.pow 10 (-power).toNat)

/-- A number with its sign: an integer if it is one of 64 bits. What is too great lies beyond all
numbers. -/
def ofDouble (isNegative : Bool) (magnitude : Option Double) : Cell :=
  match magnitude with
  | none => real (if isNegative then -(1 <<< 1024 : Nat) else (1 <<< 1024 : Nat)) 0
  | some d =>
    let units : Int := if isNegative then -(d.num : Int) else d.num
    if units % d.den = 0 ∧ units.natAbs / d.den ≤ maxStored then integer (units / d.den)
    else real (units / d.den) ((units % d.den).toNat * ((1 <<< 1074) / d.den))

/-- The power of ten at the end of a number. -/
def exponent? : List Char → Option Int
  | [] => some 0
  | mark :: rest =>
    if mark = 'e' ∨ mark = 'E' then
      let (isNegative, rest) := sign rest
      let (ds, rest) := digits rest
      if ds.isEmpty || !rest.isEmpty then none
      else some (if isNegative then -(value ds : Int) else value ds)
    else none

/-- The number that a text spells, with white space around it. -/
def ofNumeral? (text : String) : Option Cell := do
  let chars := ((text.toList.dropWhile isSpace).reverse.dropWhile isSpace).reverse
  let (isNegative, chars) := sign chars
  let (whole, chars) := digits chars
  let (fraction, rest) := match chars with
    | '.' :: rest => digits rest
    | _ => ([], chars)
  if whole.isEmpty && fraction.isEmpty then none
  else
    let power ← exponent? rest
    let n : Int := if isNegative then -(value whole : Int) else value whole
    if chars.isEmpty && -(maxStored + 1 : Int) ≤ n && n ≤ maxStored then return integer n
    else return ofDouble isNegative (nearestDouble? (whole ++ fraction) (power - fraction.length))

/-! ### Types of columns -/

/-- A value as a column of integers takes it. -/
def inIntegers : Cell → Cell
  | text said => (ofNumeral? said).getD (text said)
  | cell => cell

/-- A value as a column of text takes it. -/
def inTexts : Cell → Cell
  | integer value => text (toString value)
  | cell => cell

/-- A value in a column that must hold one. -/
def given? : Cell → Option Cell
  | null => none
  | cell => some cell

end Cell

end Mailroom.Database
