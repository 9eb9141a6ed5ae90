/-!
Decimal numbers as text: digits with leading zeros up to a width, and reading a run of digits.
-/

namespace Mailroom.Text

/-- The value of a decimal digit. -/
def digit? (c : Char) : Option Nat :=
  if '0' ≤ c ∧ c ≤ '9' then some (c.toNat - '0'.toNat) else none

/-- A number in at least `width` digits. -/
def padded (width n : Nat) : String :=
  let digits := toString n
  String.ofList (List.replicate (width - digits.length) '0') ++ digits

/-- Reads the digits at the start of a text, at most `most` of them: their number, their value
and the rest of the text. -/
def readDigits : Nat → List Char → Nat × Nat × List Char
  | 0, rest => (0, 0, rest)
  | most + 1, rest => go most 0 0 rest
where
  /-- Reads on after `count` digits with value `value`; one more than `most` may follow. -/
  go (most count value : Nat) : List Char → Nat × Nat × List Char
    | [] => (count, value, [])
    | c :: rest =>
      match digit? c with
      | none => (count, value, c :: rest)
      | some d =>
        match most with
        | 0 => (count + 1, value * 10 + d, rest)
        | most + 1 => go most (count + 1) (value * 10 + d) rest

/-- Reads a number of at least `least` and at most `most` digits. -/
def readNumber (least most : Nat) (text : List Char) : Option (Nat × List Char) :=
  let (count, value, rest) := readDigits most text
  if count < least then none else some (value, rest)

end Mailroom.Text
