import Mailroom.Compression.Intake
/-!
Bits of octets, the least significant bit of an octet first. Descriptions of distributions are
read forward from the first bit; coded symbols are read backward from the last one.
-/

namespace Mailroom.Compression

/-- The number that some bits write, the least significant first. Bits after the last octet are
zero. -/
def bitsAt (octets : Array UInt8) (start count : Nat) : Nat :=
  littleEndian (octets.extract (start / 8) ((start + count + 7) / 8)).toList
    >>> (start % 8) % 1 <<< count

/-- Bits that are read from the last one back to the first. -/
structure BackwardBits where
  octets : Array UInt8
  /-- The number of bits not read yet. -/
  left : Nat

namespace BackwardBits

/-- The bits before the end mark, which is the highest bit set in the last octet. -/
def ofOctets? (octets : Octets) : Option BackwardBits :=
  match octets.getLast? with
  | some last =>
    if last = 0 then none else some ⟨octets.toArray, 8 * (octets.length - 1) + last.toNat.log2⟩
  | none => none

/-- The number that the next bits write, and the bits after them, if there are so many. -/
def take? (bits : BackwardBits) (count : Nat) : Option (Nat × BackwardBits) :=
  if count ≤ bits.left then
    some (bitsAt bits.octets (bits.left - count) count, { bits with left := bits.left - count })
  else
    none

/-- The number that the next bits write, where bits before the first one are zero. -/
def peek (bits : BackwardBits) (count : Nat) : Nat :=
  if count ≤ bits.left then
    bitsAt bits.octets (bits.left - count) count
  else
    bitsAt bits.octets 0 bits.left <<< (count - bits.left)

/-- A step that reads bits backward, or finds them unfit. -/
abbrev Reading (α : Type) := StateT BackwardBits Option α

/-- Takes the number that the next bits write. -/
def take (count : Nat) : Reading Nat := fun bits => bits.take? count

/-- The value that a reading finds, if it ends at the first bit. -/
def whole? {α : Type} (octets : Octets) (reading : Reading α) : Option α := do
  let (value, bits) ← reading.run (← ofOctets? octets)
  if bits.left = 0 then some value else none

end BackwardBits

end Mailroom.Compression
