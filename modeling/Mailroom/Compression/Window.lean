import Mailroom.Ident
/-!
What a frame has written, and how far back it may copy from. Octets are written into a run of
places. When the run is full enough, writing begins at its first place again; what the places held
before can be copied from until they are written again.

Main facts: what is appended is written at the end (`append?_written`), and copying writes as many
octets as it is asked for (`size_copy?`).
-/

namespace Mailroom.Compression

/-- What was written, and the run of places that it went into. -/
structure Window where
  written : Array UInt8 := #[]
  /-- How much was written before the first place was last written. -/
  turned : Nat := 0
  /-- How much had been written the time before that. -/
  turnedBefore : Nat := 0
  /-- The number of places. -/
  room : Nat

namespace Window

/-- The number of places written since writing began at the first one. -/
def fill (window : Window) : Nat := window.written.size - window.turned

/-- The number of places after them. -/
def free (window : Window) : Nat := window.room - window.fill

/-- Begins at the first place again. -/
def turn (window : Window) : Window :=
  { window with turned := window.written.size, turnedBefore := window.turned }

/-- Writes octets, if there are places for them. -/
def append? (window : Window) (octets : Array UInt8) : Option Window :=
  if octets.size ≤ window.free then
    some { window with written := window.written ++ octets }
  else
    none

/-- Copies so many octets from so far back, one after the other. -/
def copyBack (offset : Nat) : (count : Nat) → Array UInt8 → Array UInt8
  | 0, written => written
  | count + 1, written =>
    copyBack offset count (written.push (written.getD (written.size - offset) 0))

/-- What a place held when writing last began at the first one, or holds since. -/
def held (window : Window) (place : Nat) : UInt8 :=
  window.written.getD
    ((if place < window.fill then window.turned else window.turnedBefore) + place) 0

/-- Copies so many octets from so far back, if there are octets and places for that. What lies
before the first place is found at the end of what the places held before. -/
def copy? (window : Window) (offset count : Nat) : Option Window :=
  if offset = 0 ∨ window.written.size - window.turnedBefore < offset ∨ window.free < count then
    none
  else
    let older := min count (offset - window.fill)
    let start := window.turned - window.turnedBefore - (offset - window.fill)
    let first := (Array.range older).map fun i => window.held (start + i)
    some { window with written := copyBack offset (count - older) (window.written ++ first) }

/-- What is appended is written at the end. -/
theorem append?_written {window after : Window} {octets : Array UInt8}
    (h : window.append? octets = some after) : after.written = window.written ++ octets := by
  simp only [append?] at h
  split at h
  · cases h; rfl
  · contradiction

/-- Copying one after the other writes so many octets. -/
theorem size_copyBack (offset count : Nat) (written : Array UInt8) :
    (copyBack offset count written).size = written.size + count := by
  induction count generalizing written with
  | zero => rfl
  | succ count ih => simp [copyBack, ih]; omega

/-- Copying writes as many octets as it is asked for. -/
theorem size_copy? {window after : Window} {offset count : Nat}
    (h : window.copy? offset count = some after) :
    after.written.size = window.written.size + count := by
  simp only [copy?] at h
  split at h
  · contradiction
  · cases h
    simp only [size_copyBack, Array.size_append, Array.size_map, Array.size_range]
    omega

end Window

end Mailroom.Compression
