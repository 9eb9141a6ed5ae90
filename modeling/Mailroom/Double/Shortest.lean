import Mailroom.Double
/-!
The shortest decimal for a number with a binary point.

Every number stands for the reals that round to it, an interval whose ends belong to it if the
significand is even. `Double.shortest` takes the coarsest decimal grid with a point in the interval,
and of its points the one next to the number.
-/

namespace Mailroom.Double

/-- The reals that round to a number: quotients with one denominator. -/
structure Interval where
  low : Nat
  middle : Nat
  high : Nat
  den : Nat
  /-- The ends belong to the interval. -/
  isClosed : Bool

/-- The interval of a number. Below a power of two the numbers lie twice as close. -/
def interval (d : Double) : Interval :=
  let middle := 4 * d.significand
  let gap := if d.significand = leastFull ∧ leastExponent < d.exponent then 1 else 2
  let scale (n : Nat) : Nat := n <<< (d.exponent - 2).toNat
  { low := scale (middle - gap), middle := scale middle, high := scale (middle + 2)
    den := 1 <<< (2 - d.exponent).toNat, isClosed := d.significand % 2 == 0 }

/-- The interval of the quotients by a power of ten. -/
def Interval.shift (i : Interval) (power : Int) : Interval :=
  let up (n : Nat) : Nat := n * Nat.pow 10 (-power).toNat
  { i with low := up i.low, middle := up i.middle, high := up i.high
           den := i.den * Nat.pow 10 power.toNat }

/-- Whether a natural number lies in an interval. -/
def Interval.holds (i : Interval) (n : Nat) : Bool :=
  if i.isClosed then i.low ≤ n * i.den && n * i.den ≤ i.high
  else i.low < n * i.den && n * i.den < i.high

/-- The natural number in an interval next to its middle. -/
def Interval.point? (i : Interval) : Option Nat :=
  let below := i.middle / i.den
  let next := nearest i.middle i.den
  [next, below, below + 1].find? i.holds

/-- Seeks a point on one grid after another, each ten times as fine. -/
def seek (i : Interval) : Nat → Int → Nat × Int
  | 0, power => (i.middle / i.den, power)
  | grids + 1, power =>
    match (i.shift power).point? with
    | some digits => (digits, power)
    | none => seek i grids (power - 1)

/-- The fewest digits that read back as a number, and the power of ten of the last one. -/
def shortest (d : Double) : Nat × Int :=
  let log := (d.num.log2 : Int) - d.den.log2
  seek d.interval 25 (log * 30103 / 100000 + 2)

end Mailroom.Double
