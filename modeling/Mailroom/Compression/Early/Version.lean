import Mailroom.Compression.Literals
/-!
Earlier versions of the frame format that are still read, and what they have in common: blocks that
begin with three octets, and windows whose length the frame gives.
-/

namespace Mailroom.Compression.Early

/-- The versions, by their numbers. -/
inductive Version where
  | four
  | five
  | six
  | seven
deriving DecidableEq

/-- The version whose frames begin with a number. -/
def Version.ofMark? : Nat → Option Version
  | 0xFD2FB524 => some .four
  | 0xFD2FB525 => some .five
  | 0xFD2FB526 => some .six
  | 0xFD2FB527 => some .seven
  | _ => none

/-- What a frame says about itself. -/
structure Header where
  window : Nat
  hasDigest : Bool := false

namespace Header

/-- Takes what a frame says about itself. How much it holds, if it says so, is not looked at unless
it stands for the window as well. -/
def read : Version → Intake Header
  | .four | .five => do
    let field ← Intake.number 1
    Intake.ensure (field < 16)
    return { window := 1 <<< (field + 11) }
  | .six => do
    let field ← Intake.number 1
    Intake.ensure (field / 32 % 2 = 0)
    let _ ← Intake.take ([0, 1, 2, 8].getD (field / 64) 0)
    return { window := 1 <<< (field % 16 + 12) }
  | .seven => do
    let field ← Intake.number 1
    Intake.ensure (field / 8 % 2 = 0)
    let isSegment := field / 32 % 2 = 1
    let window ← if isSegment then pure none else some <$> readWindow
    let dictionary ← Intake.number ([0, 1, 2, 4].getD (field % 4) 0)
    let size ← match field / 64 with
      | 0 => if isSegment then Intake.number 1 else pure 0
      | 1 => (· + 256) <$> Intake.number 2
      | 2 => Intake.number 4
      | _ => Intake.number 8
    let window := window.getD (size % 1 <<< 32)
    Intake.ensure (dictionary = 0 ∧ window ≤ 1 <<< 27)
    return { window := max window 1024, hasDigest := field / 4 % 2 = 1 }
where
  /-- Takes an eighth of a power of two, eight to fifteen times. -/
  readWindow : Intake Nat := do
    let field ← Intake.number 1
    let base := 1 <<< (10 + field / 8)
    Intake.ensure (field / 8 + 10 ≤ 27)
    return base + base / 8 * (field % 8)

/-- The length of a block that may always be written. -/
def blockLength (header : Header) : Version → Nat
  | .four | .five => blockLimit
  | .six | .seven => min header.window blockLimit

/-- The places for what is written. -/
def places (header : Header) (version : Version) : Nat :=
  match version with
  | .four | .five => header.window
  | .six | .seven => header.window + header.blockLength version + 16

end Header

/-- The kinds of blocks; the last one ends a frame. -/
inductive BlockKind where
  | compressed
  | plain
  | repeated
  | finish

/-- Takes the beginning of a block: its kind, its length, and the number in all its bits but the
kind. -/
def readBlockStart : Intake (BlockKind × Nat × Nat) := do
  let octets ← Intake.take 3
  let field := littleEndian octets.reverse
  let kind := match field >>> 22 with
    | 0 => BlockKind.compressed
    | 1 => .plain
    | 2 => .repeated
    | _ => .finish
  return (kind, field % 1 <<< 19, field % 1 <<< 22)

end Mailroom.Compression.Early
