/-!
Numbers with a binary point, 53 significant bits and a bounded exponent, without a sign.

Arithmetic is exact up to one rounding: `Double.ofQuotient?` gives the number next to a quotient,
and of two that are as near the even one; there is none for a quotient that is too great.
-/

namespace Mailroom

/-- The number `significand` times two to the power of `exponent`. The significand is below 2 to
the power 53; it is below half of that only with the least exponent. -/
structure Double where
  significand : Nat
  exponent : Int
deriving DecidableEq

namespace Double

/-- The least exponent. -/
def leastExponent : Int := -1074

/-- The greatest exponent. -/
def mostExponent : Int := 971

/-- The significand of the least number whose significand is full. -/
def leastFull : Nat := 1 <<< 52

/-- The number zero. -/
def zero : Double := ⟨0, leastExponent⟩

/-- Whether a number is zero. -/
def isZero (d : Double) : Bool := d.significand == 0

/-- A quotient divided by a power of two, as a quotient. -/
def halved (num den : Nat) (power : Int) : Nat × Nat :=
  (num <<< (-power).toNat, den <<< power.toNat)

/-- The natural number next to a quotient, and of two that are as near the even one. -/
def nearest (num den : Nat) : Nat :=
  let below := num / den
  let twice := 2 * (num % den)
  if den < twice || (twice == den && below % 2 == 1) then below + 1 else below

/-- The exponent with which the significand of a quotient is full, or the least exponent. -/
def exponentOf (num den : Nat) : Int :=
  let guess := (num.log2 : Int) - den.log2 - 52
  let (n, d) := halved num den guess
  max leastExponent (if leastFull * d ≤ n then guess else guess - 1)

/-- The number next to a quotient. -/
def ofQuotient? (num den : Nat) : Option Double :=
  if num = 0 then some zero
  else
    let exponent := exponentOf num den
    let (n, d) := halved num den exponent
    let significand := nearest n d
    let rounded :=
      if significand = 2 * leastFull then ⟨leastFull, exponent + 1⟩
      else ⟨significand, exponent⟩
    if mostExponent < rounded.exponent then none else some rounded

/-- The numerator of a number. -/
def num (d : Double) : Nat := d.significand <<< d.exponent.toNat

/-- The denominator of a number. -/
def den (d : Double) : Nat := 1 <<< (-d.exponent).toNat

/-- The product of two numbers. -/
def mul? (a b : Double) : Option Double := ofQuotient? (a.num * b.num) (a.den * b.den)

/-- The quotient of two numbers. -/
def div? (a b : Double) : Option Double := ofQuotient? (a.num * b.den) (a.den * b.num)

/-- The number next to a power of ten. -/
def powerOfTen? (power : Nat) : Option Double := ofQuotient? (Nat.pow 10 power) 1

/-- The greatest power of ten that is a number. -/
def mostPower : Nat := 308

/-- A number times a power of ten. -/
def raise? (d : Double) (power : Nat) : Option Double :=
  if d.isZero then some d
  else if mostPower < power then none
  else do d.mul? (← powerOfTen? power)

/-- A number divided by a power of ten, step by step if that is no number. -/
def lower? (d : Double) (power : Nat) : Option Double :=
  if power ≤ mostPower then do d.div? (← powerOfTen? power)
  else if d.isZero then some d
  else do lower? (← d.div? (← powerOfTen? mostPower)) (power - mostPower)
termination_by power
decreasing_by simp only [mostPower] at *; omega

/-- The number for decimal digits and a power of ten: the digits are rounded, and then the result
of multiplying or dividing. -/
def ofDecimal? (digits : Nat) (power : Int) : Option Double := do
  let d ← ofQuotient? digits 1
  if 0 ≤ power then d.raise? power.toNat else d.lower? (-power).toNat

end Double

end Mailroom
