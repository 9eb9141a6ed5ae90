import Mailroom.Compression.Bits
/-!
A register of sixty-four bits that slides back over octets. Looking beyond the bits of the register
shows zeros, and beyond as many bits as it has it begins again from the top.

Main fact: a look at so many bits shows a number below that power of two (`look_lt`).
-/

namespace Mailroom.Compression

/-- Octets seen through a register that holds eight of them. -/
structure Register where
  octets : Array UInt8
  /-- The first octet in the register. -/
  place : Nat
  /-- How many bits were used, from the last one in the register back. -/
  used : Nat

namespace Register

/-- The number of bits in a register. -/
def size : Nat := 64

/-- The number in the register. Where there are too few octets, its highest bits are zero. -/
def word (register : Register) : Nat := bitsAt register.octets (8 * register.place) size

/-- The number that the next bits write. -/
def look (register : Register) (count : Nat) : Nat :=
  ((register.word <<< (register.used % size)) % 1 <<< size) >>> (size - count)

/-- Uses so many bits. -/
def skip (register : Register) (count : Nat) : Register :=
  { register with used := register.used + count }

/-- Slides back over the octets that were used, as far as there are octets. Also tells whether the
register has gone so far that all bits before it are unused. -/
def slide (register : Register) : Register × Bool :=
  let back := register.used / 8
  if size < register.used ∨ register.place = 0 then
    (register, false)
  else if back ≤ register.place then
    ({ register with place := register.place - back, used := register.used % 8 }, true)
  else
    ({ register with place := 0, used := register.used - 8 * register.place }, false)

/-- The bits not used yet, where no more were used than there are. -/
def left (register : Register) : Nat := 8 * register.place + size - register.used

/-- A look at so many bits shows a number below that power of two. -/
theorem look_lt (register : Register) {count : Nat} (h : count ≤ size) :
    register.look count < 1 <<< count := by
  simp only [look, Nat.shiftRight_eq_div_pow, Nat.one_shiftLeft]
  refine Nat.div_lt_of_lt_mul ?_
  rw [← Nat.pow_add, Nat.sub_add_cancel h]
  exact Nat.mod_lt _ (Nat.two_pow_pos size)

end Register

end Mailroom.Compression
