import Mailroom.Compression.Early.Sequences
import Mailroom.Compression.Digest
/-!
Frames of earlier versions. They are decoded gradually, and end with a block of their own kind, or
with any block of no length.
-/

namespace Mailroom.Compression.Early

/-- Writes what a compressed block holds. -/
def decompress? (version : Version) (state : FrameState) (block : Octets) : Option FrameState := do
  guard (block.length < blockLimit)
  let ((literals, code), rest) ← (readLiterals version state.code).run block
  match version with
  | .four | .five =>
    let (jumps, _) ← (readDumpJumps version).run rest
    return { state with window := ← applyJumps jumps literals.toList state.window, code }
  | .six | .seven =>
    let (known, recent) : Option SequenceTables × RecentOffsets :=
      if version = .six then (none, ⟨1, 1, 1⟩) else (state.tables, state.recent)
    let ((jumps, tables, recent), _) ← (readJumps version known recent).run rest
    return { window := ← applyJumps jumps literals.toList state.window, code, tables, recent }

/-- Writing begins at the first place again when a block might not fit any more. -/
def turned (length : Nat) (state : FrameState) : FrameState :=
  let window := state.window
  if 0 < window.fill ∧ window.room < window.fill + length then
    { state with window := window.turn }
  else
    state

/-- The bits of a digest that a frame ends with. -/
def endMark (octets : Octets) : Nat := (digest octets).toNat >>> 11 % 1 <<< 22

/-- Takes the blocks of a frame, and gives what they hold. The first number bounds their number. -/
def readBlocks (version : Version) (header : Header) : (most : Nat) → FrameState →
    Intake (Array UInt8)
  | 0, _ => Intake.refuse
  | most + 1, state => do
    let (kind, size, field) ← readBlockStart
    match kind with
    | .finish => do
      Intake.ensure (!header.hasDigest || endMark state.window.written.toList = field)
      return state.window.written
    | .repeated => Intake.refuse
    | kind => do
      if size = 0 then
        return state.window.written
      let block ← Intake.take size
      let state ← Intake.ofOption <| match kind with
        | .compressed => decompress? version state block
        | _ => (state.window.append? block.toArray).map fun window => { state with window }
      readBlocks version header most (turned (header.blockLength version) state)

/-- Takes a frame of a version after its mark, with places for what is written that were kept from
frames before, and gives what it holds and the places kept. -/
def readFrame (version : Version) (kept : Nat) : Intake (Octets × Nat) := do
  let header ← Header.read version
  let room := max kept (header.places version)
  let written ← readBlocks version header (← get).length { window := { room } }
  return (written.toList, room)

end Mailroom.Compression.Early
