import Mailroom.Text.Blank
import Mailroom.Text.Decimal
import Mailroom.Time.Instant
/-!
Instants as text, in the manner of RFC 3339.

`Instant.write` writes the one form that is stored and sent: four digits of the year, or a sign
and at least four; the fraction in three, six or nine digits, the fewest that are exact. A leap
second is second 60. `Instant.ofStored?` reads a date as the format has it, with an unsigned year
of four digits and any offset. `Instant.ofText?` is lenient: years with a sign, short numbers,
white space between the parts, and `UTC` for the offset.
-/

namespace Mailroom.Instant

open Text Calendar

/-! ### Writing -/

/-- The year: four digits from 0 to 9999, else a sign and at least four. -/
def writeYear (year : Int) : String :=
  if 0 ≤ year ∧ year ≤ 9999 then padded 4 year.toNat
  else (if year < 0 then "-" else "+") ++ padded 4 year.natAbs

/-- The fraction of a second: nothing, or three, six or nine digits, the fewest that are exact. -/
def writeFraction (nano : Nat) : String :=
  if nano = 0 then ""
  else if nano % 1000000 = 0 then "." ++ padded 3 (nano / 1000000)
  else if nano % 1000 = 0 then "." ++ padded 6 (nano / 1000)
  else "." ++ padded 9 nano

/-- An instant in universal time, ending in the mark `zone` of that time. -/
def write (zone : String) (t : Instant) : String :=
  let date := Date.ofDay (t.second / 86400)
  let clock := (t.second % 86400).toNat
  let leap := t.nano / 1000000000
  writeYear date.year ++ "-" ++ padded 2 date.month ++ "-" ++ padded 2 date.day ++ "T"
    ++ padded 2 (clock / 3600) ++ ":" ++ padded 2 (clock / 60 % 60) ++ ":"
    ++ padded 2 (clock % 60 + leap) ++ writeFraction (t.nano % 1000000000) ++ zone

/-- The text of an instant in messages to clients. -/
def toText (t : Instant) : String := t.write "Z"

/-- The text of an instant in a stored row. -/
def toStored (t : Instant) : String := t.write "+00:00"

/-! ### Reading -/

/-- The numbers of a date and time of day as they were written, the offset in seconds east. -/
structure Fields where
  year : Int
  month : Nat
  day : Nat
  hour : Nat
  minute : Nat
  second : Nat
  nano : Nat
  offset : Int

/-- The instant that a date and time of day name, if they exist. -/
def ofFields? (f : Fields) : Option Instant :=
  let date : Date := ⟨f.year, f.month, f.day⟩
  if firstYear ≤ f.year ∧ f.year ≤ lastYear ∧ date.isValid ∧ f.hour ≤ 23 ∧ f.minute ≤ 59
      ∧ f.second ≤ 60 ∧ f.offset.natAbs < 86400 then
    let leap := f.second / 60
    let clock := f.hour * 3600 + f.minute * 60 + (f.second - leap)
    ofParts? (date.toDay * 86400 + (clock : Nat) - f.offset) (f.nano + leap * 1000000000)
  else none

/-- Reads one given character. -/
def readChar (c : Char) : List Char → Option (List Char)
  | d :: rest => if d = c then some rest else none
  | [] => none

/-- Reads the mark between a date and a time of day. -/
def readSeparator : List Char → Option (List Char)
  | c :: rest => if c = 'T' ∨ c = 't' ∨ c = ' ' then some rest else none
  | [] => none

/-- Reads a fraction of a second, if there is one: digits after the ninth are dropped. -/
def readFraction : List Char → Option (Nat × List Char)
  | '.' :: rest =>
    let (count, value, rest) := readDigits 9 rest
    if count = 0 then none
    else some (value * Nat.pow 10 (9 - count), rest.dropWhile fun c => (digit? c).isSome)
  | rest => some (0, rest)

/-- Reads an offset: `Z`, or a sign, two digits of hours, what `colon` reads, and two digits of
minutes. The sign may be the minus sign of Unicode. -/
def readOffset (colon : List Char → Option (List Char)) :
    List Char → Option (Int × List Char)
  | [] => none
  | c :: rest =>
    if c = 'Z' ∨ c = 'z' then some (0, rest)
    else if c = '+' ∨ c = '-' ∨ c = '−' then do
      let (hours, rest) ← readNumber 2 2 rest
      let rest ← colon rest
      let (minutes, rest) ← readNumber 2 2 rest
      if 60 ≤ minutes then none
      else
        let seconds : Int := (hours * 3600 + minutes * 60 : Nat)
        return (if c = '+' then seconds else -seconds, rest)
    else none

/-- The instant written in a stored row. -/
def ofStored? (text : String) : Option Instant := do
  let (year, rest) ← readNumber 4 4 text.toList
  let rest ← readChar '-' rest
  let (month, rest) ← readNumber 2 2 rest
  let rest ← readChar '-' rest
  let (day, rest) ← readNumber 2 2 rest
  let rest ← readSeparator rest
  let (hour, rest) ← readNumber 2 2 rest
  let rest ← readChar ':' rest
  let (minute, rest) ← readNumber 2 2 rest
  let rest ← readChar ':' rest
  let (second, rest) ← readNumber 2 2 rest
  let (nano, rest) ← readFraction rest
  let (offset, rest) ← readOffset (readChar ':') rest
  if rest.isEmpty then ofFields? ⟨year, month, day, hour, minute, second, nano, offset⟩ else none

/-- Reads a year: a sign and any number of digits, or at most four digits. -/
def readYear (text : List Char) : Option (Int × List Char) :=
  match text with
  | '-' :: rest => (readNumber 1 rest.length rest).map fun (year, rest) => (-(year : Int), rest)
  | '+' :: rest => (readNumber 1 rest.length rest).map fun (year, rest) => ((year : Int), rest)
  | _ => (readNumber 1 4 text).map fun (year, rest) => ((year : Int), rest)

/-- Reads one or two digits after white space. -/
def readShort (text : List Char) : Option (Nat × List Char) := readNumber 1 2 (trimLeft text)

/-- Reads a lenient offset: the word `UTC` in any case, or an offset whose parts may be separated by
colons and white space. -/
def readLenientOffset (text : List Char) : Option (Int × List Char) :=
  if (text.take 3).map Char.toLower = ['u', 't', 'c'] then some (0, text.drop 3)
  else readOffset (fun rest => some (rest.dropWhile fun c => c = ':' || isBlank c)) text

/-- The instant written in a message from a client. -/
def ofText? (text : String) : Option Instant := do
  let (year, rest) ← readYear (trimLeft text.toList)
  let rest ← readChar '-' (trimLeft rest)
  let (month, rest) ← readShort rest
  let rest ← readChar '-' (trimLeft rest)
  let (day, rest) ← readShort rest
  let rest ← readSeparator rest
  let (hour, rest) ← readShort rest
  let rest ← readChar ':' (trimLeft rest)
  let (minute, rest) ← readShort rest
  let rest ← readChar ':' (trimLeft rest)
  let (second, rest) ← readShort rest
  let (nano, rest) ← readFraction rest
  let (offset, rest) ← readLenientOffset (trimLeft rest)
  if (trimLeft rest).isEmpty then
    ofFields? ⟨year, month, day, hour, minute, second, nano, offset⟩
  else none

end Mailroom.Instant
