import Mailroom.Time.Calendar
/-!
Instants of universal time, to the nanosecond, with leap seconds.

An instant is the second it lies in, counted from 1970, and the nanoseconds into that second.
A leap second has no number of its own: it continues the second before it, whose nanoseconds then
run on to two thousand million. Clocks put one only at the end of a minute, but nothing here
depends on that: the nanoseconds of every second may run on. A text knows a leap second only as
the second 60 of a minute, so elsewhere it names the next second (`Instant.write`). Instants lie in
the years -262143 to 262142.
-/

namespace Mailroom

/-- The first and the last year of an instant. -/
def firstYear : Int := -262143

@[inherit_doc firstYear]
def lastYear : Int := 262142

/-- Whether a second, counted from 1970, lies in a year that an instant can have. -/
def isSecond (second : Int) : Bool :=
  Calendar.Date.toDay ⟨firstYear, 1, 1⟩ * 86400 ≤ second
    && second < Calendar.Date.toDay ⟨lastYear + 1, 1, 1⟩ * 86400

/-- An instant of universal time. -/
structure Instant where
  second : Int
  nano : Nat
  second_valid : isSecond second = true
  nano_valid : nano < 2000000000
deriving DecidableEq

namespace Instant

/-- The start of 1970. -/
def epoch : Instant := ⟨0, 0, by decide, by decide⟩

instance : Inhabited Instant := ⟨epoch⟩

/-- The instant with a second and nanoseconds, if there is one. -/
def ofParts? (second : Int) (nano : Nat) : Option Instant :=
  if second_valid : isSecond second = true then
    if nano_valid : nano < 2000000000 then some ⟨second, nano, second_valid, nano_valid⟩
    else none
  else none

/-- Whether one instant comes before another. -/
def isBefore (a b : Instant) : Bool :=
  a.second < b.second || (a.second = b.second && a.nano < b.nano)

/-- The whole milliseconds since 1970. -/
def millis (t : Instant) : Int := t.second * 1000 + (t.nano / 1000000 : Nat)

/-- The instant a number of milliseconds later, if it lies in range. A delay that does not leave a
leap second stays in it; any longer one counts the leap second as the second it continues. -/
def plusMillis? (t : Instant) (delay : Nat) : Option Instant :=
  let fraction := delay % 1000 * 1000000
  if 1000000000 ≤ t.nano ∧ delay / 1000 = 0 ∧ t.nano + fraction < 2000000000 then
    ofParts? t.second (t.nano + fraction)
  else
    let start := if 1000000000 ≤ t.nano then t.nano - 1000000000 else t.nano
    let nano := start + fraction
    ofParts? (t.second + (delay / 1000 + nano / 1000000000 : Nat)) (nano % 1000000000)

end Instant

end Mailroom
